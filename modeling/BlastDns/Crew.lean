import Mathlib.Algebra.BigOperators.Group.Finset.Piecewise
import Mathlib.Algebra.BigOperators.Group.List.Basic
import Mathlib.Algebra.Order.BigOperators.Group.Finset
import Mathlib.Algebra.Ring.Int.Defs
import Mathlib.Algebra.Ring.Nat
import Mathlib.Data.Fintype.Basic
import Mathlib.Data.List.Perm.Basic

/-!
A crew of processes over one shared state. A step lets one process move and
may rewrite the shared state; nothing else changes, so any interleaving is a
sequence of such steps. A quantity that is split between the shared state and
the processes is conserved by the crew as soon as it is conserved by the one
step taken: the other processes' shares do not move.
-/

namespace Crew

structure State (Shared Proc : Type) where
  shared : Shared
  procs : List Proc

variable {Shared Proc Label : Type}

/-- Let the process at `index` take the step named by `label`. -/
def act (step : Shared → Proc → Label → Option (Shared × Proc)) (crew : State Shared Proc)
    (index : ℕ) (label : Label) : Option (State Shared Proc) := do
  let proc ← crew.procs[index]?
  let (shared, moved) ← step crew.shared proc label
  return { shared := shared, procs := crew.procs.set index moved }

def hire (crew : State Shared Proc) (fresh : List Proc) : State Shared Proc :=
  { crew with procs := crew.procs ++ fresh }

/-- The shared part of a quantity and every process's share of it. -/
def total (potential : Shared → ℤ) (share : Proc → ℤ) (crew : State Shared Proc) : ℤ :=
  potential crew.shared + (crew.procs.map share).sum

def headcount (kind : Proc → Bool) (crew : State Shared Proc) : ℕ := crew.procs.countP kind

section Steps

variable {step : Shared → Proc → Label → Option (Shared × Proc)}
variable {crew after : State Shared Proc} {index : ℕ} {label : Label}

theorem act_some (acted : act step crew index label = some after) :
    ∃ proc shared moved, crew.procs[index]? = some proc ∧
      step crew.shared proc label = some (shared, moved) ∧
      after = { shared := shared, procs := crew.procs.set index moved } := by
  rcases Option.bind_eq_some_iff.mp acted with ⟨proc, found, rest⟩
  rcases Option.bind_eq_some_iff.mp rest with ⟨⟨shared, moved⟩, stepped, returned⟩
  cases returned
  exact ⟨proc, shared, moved, found, stepped, rfl⟩

theorem act_of_step {proc moved : Proc} {shared : Shared} (found : crew.procs[index]? = some proc)
    (stepped : step crew.shared proc label = some (shared, moved)) :
    act step crew index label = some { shared := shared, procs := crew.procs.set index moved } := by
  simp [act, found, stepped]

theorem act_length (acted : act step crew index label = some after) :
    after.procs.length = crew.procs.length := by
  rcases act_some acted with ⟨_, _, _, _, _, same⟩
  rw [same, List.length_set]

theorem sum_replaced {procs : List Proc} {proc moved : Proc} (share : Proc → ℤ)
    (found : procs[index]? = some proc) :
    ((procs.set index moved).map share).sum = (procs.map share).sum - share proc + share moved := by
  induction procs generalizing index with
  | nil => cases found
  | cons first rest ih =>
      cases index with
      | zero =>
          cases found
          simp [add_comm]
      | succ index =>
          simp only [List.getElem?_cons_succ] at found
          simp only [List.set_cons_succ, List.map_cons, List.sum_cons, ih found]
          omega

theorem weight_replaced {procs : List Proc} {proc : Proc} (moved : Proc) (weight : Proc → ℕ)
    (found : procs[index]? = some proc) :
    ((procs.set index moved).map weight).sum + weight proc =
      (procs.map weight).sum + weight moved := by
  induction procs generalizing index with
  | nil => cases found
  | cons first rest ih =>
      cases index with
      | zero =>
          cases found
          simp only [List.set_cons_zero, List.map_cons, List.sum_cons]
          omega
      | succ index =>
          simp only [List.getElem?_cons_succ] at found
          have replaced := ih found
          simp only [List.set_cons_succ, List.map_cons, List.sum_cons]
          omega

/-- A quantity conserved by the step taken is conserved by the crew. -/
theorem act_total {potential : Shared → ℤ} {share : Proc → ℤ}
    (conserved : ∀ shared proc label shared' proc', step shared proc label = some (shared', proc') →
      potential shared' + share proc' = potential shared + share proc)
    (acted : act step crew index label = some after) :
    total potential share after = total potential share crew := by
  rcases act_some acted with ⟨proc, shared, moved, found, stepped, same⟩
  have kept := conserved _ _ _ _ _ stepped
  subst same
  simp only [total, sum_replaced share found]
  omega

/-- An invariant of the shared state, and a relation of each process to it, outlast a
step if the process that moves keeps both and no other loses the relation. -/
theorem act_invariant (inv : Shared → Prop) (holds : Shared → Proc → Prop)
    (moves : ∀ shared proc label shared' proc', step shared proc label = some (shared', proc') →
      inv shared → holds shared proc → inv shared' ∧ holds shared' proc' ∧
        ∀ other, holds shared other → holds shared' other)
    (acted : act step crew index label = some after)
    (start : inv crew.shared ∧ ∀ proc ∈ crew.procs, holds crew.shared proc) :
    inv after.shared ∧ ∀ proc ∈ after.procs, holds after.shared proc := by
  rcases act_some acted with ⟨proc, shared, moved, found, stepped, same⟩
  subst same
  rcases start with ⟨known, all⟩
  rcases moves _ _ _ _ _ stepped known (all proc (List.mem_of_getElem? found)) with
    ⟨kept, mover, frame⟩
  refine ⟨kept, ?_⟩
  intro other member
  rcases List.mem_or_eq_of_mem_set member with resting | rfl
  · exact frame other (all other resting)
  · exact mover

/-- A relation between each process and the shared state outlasts a step if the
process that moves keeps it and no other loses it. -/
theorem act_forall (holds : Shared → Proc → Prop)
    (moves : ∀ shared proc label shared' proc', step shared proc label = some (shared', proc') →
      holds shared proc → holds shared' proc')
    (frame : ∀ shared proc label shared' proc' other,
      step shared proc label = some (shared', proc') → holds shared other → holds shared' other)
    (acted : act step crew index label = some after)
    (all : ∀ proc ∈ crew.procs, holds crew.shared proc) :
    ∀ proc ∈ after.procs, holds after.shared proc := by
  refine (act_invariant (fun _ => True) holds ?_ acted ⟨trivial, all⟩).2
  intro shared proc label shared' proc' stepped _ mover
  exact ⟨trivial, moves _ _ _ _ _ stepped mover, fun other => frame _ _ _ _ _ other stepped⟩

/-- What the processes hold between them changes by what the one that moves gives
up and takes. -/
theorem act_held {Item : Type} (held : Proc → Option Item)
    (acted : act step crew index label = some after) :
    ∃ proc moved, crew.procs[index]? = some proc ∧
      step crew.shared proc label = some (after.shared, moved) ∧
      ((held proc).toList ++ after.procs.filterMap held).Perm
        ((held moved).toList ++ crew.procs.filterMap held) := by
  rcases act_some acted with ⟨proc, shared, moved, found, stepped, same⟩
  subst same
  refine ⟨proc, moved, found, stepped, ?_⟩
  rcases List.getElem?_eq_some_iff.mp found with ⟨inside, here⟩
  have split : ∀ (first : Proc) (rest : List Proc),
      (first :: rest).filterMap held = (held first).toList ++ rest.filterMap held := by
    intro first rest
    rw [List.filterMap_cons]
    cases held first <;> rfl
  have before := (List.getElem_cons_eraseIdx_perm inside).filterMap held
  have later := (List.set_perm_cons_eraseIdx inside moved).filterMap held
  rw [here, split] at before
  rw [split] at later
  have swapped : ((held proc).toList ++
      ((held moved).toList ++ (crew.procs.eraseIdx index).filterMap held)).Perm
        ((held moved).toList ++
          ((held proc).toList ++ (crew.procs.eraseIdx index).filterMap held)) :=
    List.perm_append_comm_assoc _ _ _
  exact ((later.append_left _).trans swapped).trans (before.append_left _)

theorem hire_total (potential : Shared → ℤ) (share : Proc → ℤ) (fresh : List Proc) :
    total potential share (hire crew fresh) =
      total potential share crew + (fresh.map share).sum := by
  simp only [total, hire, List.map_append, List.sum_append]
  omega

end Steps

section Alone

variable (step : Shared → Proc → Unit → Option (Shared × Proc))

/-- Let a process take up to `fuel` steps without interruption. -/
def alone : ℕ → Shared × Proc → Shared × Proc
  | 0, work => work
  | fuel + 1, work =>
      match step work.1 work.2 () with
      | some next => alone fuel next
      | none => work

theorem alone_invariant (inv : Shared → Proc → Prop)
    (moves : ∀ shared proc shared' proc', step shared proc () = some (shared', proc') →
      inv shared proc → inv shared' proc')
    (fuel : ℕ) (work : Shared × Proc) (start : inv work.1 work.2) :
    inv (alone step fuel work).1 (alone step fuel work).2 := by
  induction fuel generalizing work with
  | zero => exact start
  | succ fuel ih =>
      rw [alone]
      cases stepped : step work.1 work.2 () with
      | none => exact start
      | some next => exact ih next (moves _ _ _ _ stepped start)

end Alone

section Headcount

theorem sum_indicator (kind : Proc → Bool) (procs : List Proc) :
    (procs.map fun proc => if kind proc then (1 : ℤ) else 0).sum = procs.countP kind := by
  induction procs with
  | nil => rfl
  | cons proc rest ih =>
      rw [List.map_cons, List.sum_cons, ih, List.countP_cons]
      cases kind proc
      · simp
      · simp [add_comm]

/-- A step moves the headcount of a kind by its own process only. -/
theorem act_headcount {step : Shared → Proc → Label → Option (Shared × Proc)}
    {crew after : State Shared Proc} {index : ℕ} {label : Label}
    (acted : act step crew index label = some after) :
    ∃ proc moved, crew.procs[index]? = some proc ∧
      step crew.shared proc label = some (after.shared, moved) ∧ ∀ kind : Proc → Bool,
      headcount kind after + (if kind proc then 1 else 0) =
        headcount kind crew + (if kind moved then 1 else 0) := by
  rcases act_some acted with ⟨proc, shared, moved, found, stepped, same⟩
  subst same
  refine ⟨proc, moved, found, stepped, ?_⟩
  intro kind
  have replaced : ((crew.procs.set index moved).map fun proc => if kind proc then (1 : ℤ) else 0).sum =
      (crew.procs.map fun proc => if kind proc then (1 : ℤ) else 0).sum -
        (if kind proc then 1 else 0) + (if kind moved then 1 else 0) := sum_replaced _ found
  rw [sum_indicator, sum_indicator] at replaced
  simp only [headcount]
  split_ifs at replaced ⊢ <;> omega

/-- Phases that exclude one another are not counted twice. -/
theorem headcount_sum_le {Index : Type} [Fintype Index] (kind : Index → Proc → Bool)
    (exclusive : ∀ proc left right, kind left proc = true → kind right proc = true → left = right)
    (crew : State Shared Proc) :
    ∑ index, headcount (kind index) crew ≤ crew.procs.length := by
  simp only [headcount]
  -- each process adds at most one to the sum over all kinds
  induction crew.procs with
  | nil => simp
  | cons proc rest ih =>
      simp only [List.countP_cons, Finset.sum_add_distrib, List.length_cons]
      have once : (∑ index, if kind index proc = true then 1 else 0) ≤ 1 := by
        rw [← Finset.card_filter]
        apply Finset.card_le_one.mpr
        intro left inLeft right inRight
        exact exclusive proc left right (Finset.mem_filter.mp inLeft).2
          (Finset.mem_filter.mp inRight).2
      exact Nat.add_le_add ih once

/-- Phases that leave no process out count each at least once. -/
theorem length_le_headcount_sum {Index : Type} [Fintype Index] (kind : Index → Proc → Bool)
    (crew : State Shared Proc)
    (covered : ∀ proc ∈ crew.procs, ∃ index, kind index proc = true) :
    crew.procs.length ≤ ∑ index, headcount (kind index) crew := by
  simp only [headcount]
  revert covered
  induction crew.procs with
  | nil => simp
  | cons proc rest ih =>
      intro covered
      simp only [List.countP_cons, Finset.sum_add_distrib, List.length_cons]
      rcases covered proc List.mem_cons_self with ⟨index, here⟩
      have once : 1 ≤ ∑ index, if kind index proc = true then 1 else 0 := by
        rw [← Finset.card_filter]
        exact Finset.card_pos.mpr ⟨index, Finset.mem_filter.mpr ⟨Finset.mem_univ _, here⟩⟩
      have others := ih fun other member => covered other (List.mem_cons_of_mem _ member)
      exact Nat.add_le_add others once

end Headcount

end Crew
