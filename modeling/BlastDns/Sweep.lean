import Mathlib.Data.List.Nodup

/-!
A loop over an index list whose body reads one lane of a shared state, may
abort, writes that lane back and adds to a running total. The state itself is
arbitrary: `Lanes` says only that a write is seen at its own index and at no
other. The rules below turn such a loop into one independent step per lane.
-/

namespace Sweep

structure Lanes (State Index Lane : Type) where
  get : State → Index → Lane
  set : State → Index → Lane → State
  get_set_same : ∀ state index lane, get (set state index lane) index = lane
  get_set_other : ∀ state index other lane, other ≠ index →
    get (set state index lane) other = get state other

variable {State Index Lane Total : Type}

def visit (lanes : Lanes State Index Lane) (body : Index → Lane → Option Lane)
    (count : Index → Lane → Total → Total) (work : State × Total) (index : Index) :
    Option (State × Total) :=
  (body index (lanes.get work.1 index)).map fun lane =>
    (lanes.set work.1 index lane, count index (lanes.get work.1 index) work.2)

def sweep (lanes : Lanes State Index Lane) (body : Index → Lane → Option Lane)
    (count : Index → Lane → Total → Total) (order : List Index) (work : State × Total) :
    Option (State × Total) :=
  order.foldlM (visit lanes body count) work

section Rules

variable {lanes : Lanes State Index Lane} {body : Index → Lane → Option Lane}
variable {count : Index → Lane → Total → Total}

theorem visit_some {work after : State × Total} {index : Index}
    (visited : visit lanes body count work index = some after) :
    ∃ lane, body index (lanes.get work.1 index) = some lane ∧
      after = (lanes.set work.1 index lane, count index (lanes.get work.1 index) work.2) := by
  obtain ⟨lane, stepped, same⟩ := Option.map_eq_some_iff.mp visited
  exact ⟨lane, stepped, same.symm⟩

theorem sweep_cons_some {work after : State × Total} {index : Index} {rest : List Index}
    (swept : sweep lanes body count (index :: rest) work = some after) :
    ∃ lane, body index (lanes.get work.1 index) = some lane ∧
      sweep lanes body count rest
        (lanes.set work.1 index lane, count index (lanes.get work.1 index) work.2) = some after := by
  rw [sweep, List.foldlM_cons] at swept
  obtain ⟨middle, visited, tail⟩ := Option.bind_eq_some_iff.mp swept
  obtain ⟨lane, stepped, same⟩ := visit_some visited
  subst same
  exact ⟨lane, stepped, tail⟩

theorem sweep_other (order : List Index) (work after : State × Total) (other : Index)
    (absent : other ∉ order) (swept : sweep lanes body count order work = some after) :
    lanes.get after.1 other = lanes.get work.1 other := by
  induction order generalizing work with
  | nil =>
      cases swept
      rfl
  | cons index rest ih =>
      obtain ⟨lane, _, tail⟩ := sweep_cons_some swept
      rw [List.mem_cons, not_or] at absent
      rw [ih _ absent.2 tail]
      exact lanes.get_set_other work.1 index other lane absent.1

/-- Each visited lane takes exactly one step of the body, from the value it had
before the loop. -/
theorem sweep_lane (order : List Index) (work after : State × Total) (index : Index)
    (unique : order.Nodup) (member : index ∈ order)
    (swept : sweep lanes body count order work = some after) :
    body index (lanes.get work.1 index) = some (lanes.get after.1 index) := by
  induction order generalizing work with
  | nil => cases member
  | cons first rest ih =>
      obtain ⟨lane, stepped, tail⟩ := sweep_cons_some swept
      obtain ⟨fresh, restUnique⟩ := List.nodup_cons.mp unique
      -- written now and not visited again, or not yet written
      by_cases same : index = first
      · subst same
        rw [sweep_other rest _ after index fresh tail, lanes.get_set_same]
        exact stepped
      · have inRest : index ∈ rest := (List.mem_cons.mp member).resolve_left same
        have later := ih _ restUnique inRest tail
        rwa [lanes.get_set_other work.1 first index lane same] at later

/-- The running total is the fold of the contributions the lanes had before the
loop: no iteration reads what an earlier one wrote. -/
theorem sweep_total (order : List Index) (work after : State × Total)
    (unique : order.Nodup) (swept : sweep lanes body count order work = some after) :
    after.2 = order.foldl (fun total index => count index (lanes.get work.1 index) total)
      work.2 := by
  induction order generalizing work with
  | nil =>
      cases swept
      rfl
  | cons first rest ih =>
      obtain ⟨lane, _, tail⟩ := sweep_cons_some swept
      obtain ⟨fresh, restUnique⟩ := List.nodup_cons.mp unique
      rw [ih _ restUnique tail, List.foldl_cons]
      apply List.foldl_ext
      intro total index member
      have other : index ≠ first := fun same => fresh (same ▸ member)
      rw [lanes.get_set_other work.1 first index lane other]

theorem sweep_exists (order : List Index) (work : State × Total) (unique : order.Nodup)
    (steps : ∀ index ∈ order, ∃ lane, body index (lanes.get work.1 index) = some lane) :
    ∃ after, sweep lanes body count order work = some after := by
  induction order generalizing work with
  | nil => exact ⟨work, rfl⟩
  | cons first rest ih =>
      obtain ⟨lane, stepped⟩ := steps first List.mem_cons_self
      obtain ⟨fresh, restUnique⟩ := List.nodup_cons.mp unique
      have visited : visit lanes body count work first =
          some (lanes.set work.1 first lane, count first (lanes.get work.1 first) work.2) := by
        rw [visit, stepped, Option.map_some]
      obtain ⟨after, tail⟩ := ih
        (lanes.set work.1 first lane, count first (lanes.get work.1 first) work.2) restUnique (by
          intro index member
          have other : index ≠ first := fun same => fresh (same ▸ member)
          rw [lanes.get_set_other work.1 first index lane other]
          exact steps index (List.mem_cons_of_mem first member))
      refine ⟨after, ?_⟩
      rw [sweep, List.foldlM_cons, visited]
      exact tail

/-- What no lane write touches, the loop does not touch. -/
theorem sweep_view {View : Type} (view : State → View)
    (kept : ∀ state index lane, view (lanes.set state index lane) = view state)
    (order : List Index) (work after : State × Total)
    (swept : sweep lanes body count order work = some after) : view after.1 = view work.1 := by
  induction order generalizing work with
  | nil =>
      cases swept
      rfl
  | cons first rest ih =>
      obtain ⟨lane, _, tail⟩ := sweep_cons_some swept
      rw [ih _ tail]
      exact kept work.1 first lane

theorem sweep_append (done left : List Index) (work : State × Total) :
    sweep lanes body count (done ++ left) work =
      (sweep lanes body count done work).bind (sweep lanes body count left) := by
  rw [sweep, List.foldlM_append]
  rfl

/-- The loop does not look at what the body would do at other indices. -/
theorem sweep_congr {other : Index → Lane → Option Lane} {tally : Index → Lane → Total → Total}
    (order : List Index) (work : State × Total)
    (same : ∀ index ∈ order, body index = other index ∧ count index = tally index) :
    sweep lanes body count order work = sweep lanes other tally order work := by
  induction order generalizing work with
  | nil => rfl
  | cons first rest ih =>
      have here : visit lanes body count work first = visit lanes other tally work first := by
        obtain ⟨bodies, counts⟩ := same first List.mem_cons_self
        rw [visit, visit, bodies, counts]
      rw [sweep, sweep, List.foldlM_cons, List.foldlM_cons, here]
      congr 1
      funext after
      exact ih after fun index member => same index (List.mem_cons_of_mem first member)

end Rules

end Sweep
