import BlastDns.Crew
import BlastDns.Limiter
import BlastDns.Runs
import BlastDns.Spaced

/-!
The cursor of `RateLimiter`. A call of `acquire` loads the interval once, then
loads the cursor, reads the clock and tries to move the cursor on, until its
compare-exchange succeeds. Between any two of these steps other calls may move,
the clock may advance and `set_rate` may store another interval. The log keeps
every successful compare-exchange, in the order in which they happened.
-/

namespace BlastDns.Slots

open Crew Limiter Runs

def subMsSkipThresholdNs : ℕ := 1000000

/-- A slot that was taken: by a call that had read this clock and this interval. -/
structure Slot where
  slotNs : ℕ
  readNs : ℕ
  intervalNs : ℕ
  deriving DecidableEq

structure Shared where
  intervalNs : ℕ
  nextNs : ℕ := 0
  nowNs : ℕ := 0
  log : List Slot := []

/-- A call of `acquire`, by what it does next. -/
inductive Call where
  | starting
  | looking (intervalNs : ℕ)
  | clocking (intervalNs currentNs : ℕ)
  | swapping (intervalNs currentNs readNs : ℕ)
  -- has a slot, the clock not yet read again
  | placed (slotNs : ℕ)
  | sleeping (slotNs : ℕ)
  | returned (slotNs : ℕ)
  deriving DecidableEq

inductive Label where
  | proceed
  -- the weak compare-exchange fails for no reason
  | fail
  deriving DecidableEq

def callStep (shared : Shared) : Call → Label → Option (Shared × Call)
  | .starting, .proceed => some (shared, .looking shared.intervalNs)
  | .looking intervalNs, .proceed => some (shared, .clocking intervalNs shared.nextNs)
  | .clocking intervalNs currentNs, .proceed =>
      some (shared, .swapping intervalNs currentNs shared.nowNs)
  | .swapping intervalNs currentNs readNs, .proceed =>
      let base := max currentNs readNs
      if shared.nextNs = currentNs then
        some ({ shared with
          nextNs := min (base + intervalNs) u64Max
          log := shared.log ++ [⟨base, readNs, intervalNs⟩] }, .placed base)
      else some (shared, .looking intervalNs)
  | .swapping intervalNs _ _, .fail => some (shared, .looking intervalNs)
  | .placed slotNs, .proceed =>
      if slotNs ≤ shared.nowNs then some (shared, .returned slotNs)
      else if subMsSkipThresholdNs ≤ slotNs - shared.nowNs then some (shared, .sleeping slotNs)
      else some (shared, .returned slotNs)
  -- the sleep ends at the slot or later
  | .sleeping slotNs, .proceed =>
      if slotNs ≤ shared.nowNs then some (shared, .returned slotNs) else none
  | _, _ => none

inductive Event where
  | acquire
  | call (index : ℕ) (label : Label)
  | setRate (queriesPerSecond : ℚ)
  | elapse (ns : ℕ)

abbrev Queue := State Shared Call

def step (queue : Queue) : Event → Option Queue
  | .acquire => some (hire queue [.starting])
  | .call index label => act callStep queue index label
  | .setRate queriesPerSecond =>
      (intervalFor queriesPerSecond).map fun intervalNs =>
        { queue with shared := { queue.shared with intervalNs := intervalNs } }
  | .elapse ns =>
      some { queue with shared := { queue.shared with nowNs := queue.shared.nowNs + ns } }

/-- `RateLimiter::new` -/
def newQueue (queriesPerSecond : ℚ) : Option Queue :=
  (intervalFor queriesPerSecond).map fun intervalNs =>
    { shared := { intervalNs := intervalNs }, procs := [] }

def fits (queue : Queue) (index : ℕ) : Bool :=
  match queue.procs[index]? with
  | some (.swapping intervalNs currentNs readNs) =>
      queue.shared.nextNs ≠ currentNs || max currentNs readNs + intervalNs ≤ u64Max
  | _ => true

/-- The cursor does not saturate in this step, and no interval shorter than `floor` is
stored in it. -/
def Admitted (floor : ℕ) (queue : Queue) : Event → Prop
  | .call index .proceed => fits queue index = true
  | .setRate queriesPerSecond => floor ≤ pacingInterval queriesPerSecond
  | .call _ .fail | .acquire | .elapse _ => True

instance (floor : ℕ) (queue : Queue) : (event : Event) → Decidable (Admitted floor queue event)
  | .call index .proceed => inferInstanceAs (Decidable (fits queue index = true))
  | .setRate queriesPerSecond => inferInstanceAs (Decidable (floor ≤ pacingInterval queriesPerSecond))
  | .call _ .fail | .acquire | .elapse _ => isTrue trivial

section Invariants

def slotOf : Call → Option ℕ
  | .placed slotNs | .sleeping slotNs | .returned slotNs => some slotNs
  | _ => none

def isReturned : Call → Bool
  | .returned _ => true
  | _ => false

/-- What one call carries: an interval no shorter than the floor, and once it has
returned, a slot that is less than a millisecond away. -/
def CallSound (floor : ℕ) (shared : Shared) : Call → Prop
  | .starting => True
  | .looking intervalNs => floor ≤ intervalNs
  | .clocking intervalNs _ => floor ≤ intervalNs
  | .swapping intervalNs _ _ => floor ≤ intervalNs
  | .placed _ | .sleeping _ => True
  | .returned slotNs => slotNs < shared.nowNs + subMsSkipThresholdNs

/-- The discipline of the log: slots keep the interval of the slot before them unless
the cursor has saturated, none is back-dated, and the cursor lies beyond all of
them. -/
structure Disciplined (floor : ℕ) (shared : Shared) : Prop where
  apart : shared.log.Pairwise fun early late =>
    early.slotNs + early.intervalNs ≤ late.slotNs ∨ u64Max ≤ late.slotNs
  current : ∀ slot ∈ shared.log, slot.readNs ≤ slot.slotNs
  wide : ∀ slot ∈ shared.log, floor ≤ slot.intervalNs
  ahead : ∀ slot ∈ shared.log, min (slot.slotNs + slot.intervalNs) u64Max ≤ shared.nextNs
  stored : floor ≤ shared.intervalNs

structure Sound (floor : ℕ) (queue : Queue) : Prop where
  shared : Disciplined floor queue.shared
  unsaturated : ∀ slot ∈ queue.shared.log, slot.slotNs < u64Max
  calls : ∀ call ∈ queue.procs, CallSound floor queue.shared call
  held : (queue.procs.filterMap slotOf).Perm (queue.shared.log.map Slot.slotNs)

variable {floor : ℕ} {shared shared' : Shared} {call next : Call} {label : Label}

/-- Everything a step of a call can do to the shared state. -/
theorem call_step_cases (stepped : callStep shared call label = some (shared', next)) :
    (shared' = shared ∧ slotOf next = slotOf call) ∨
    ∃ intervalNs currentNs readNs, call = .swapping intervalNs currentNs readNs ∧
      label = .proceed ∧ shared.nextNs = currentNs ∧ next = .placed (max currentNs readNs) ∧
      shared' = { shared with
        nextNs := min (max currentNs readNs + intervalNs) u64Max
        log := shared.log ++ [⟨max currentNs readNs, readNs, intervalNs⟩] } := by
  unfold callStep at stepped
  split at stepped
  · cases stepped; exact Or.inl ⟨rfl, rfl⟩
  · cases stepped; exact Or.inl ⟨rfl, rfl⟩
  · cases stepped; exact Or.inl ⟨rfl, rfl⟩
  · rename_i intervalNs currentNs readNs
    dsimp only at stepped
    split at stepped
    · rename_i unmoved
      cases stepped
      exact Or.inr ⟨intervalNs, currentNs, readNs, rfl, rfl, unmoved, rfl, rfl⟩
    · cases stepped; exact Or.inl ⟨rfl, rfl⟩
  · cases stepped; exact Or.inl ⟨rfl, rfl⟩
  · split at stepped
    · cases stepped; exact Or.inl ⟨rfl, rfl⟩
    · split at stepped <;> cases stepped <;> exact Or.inl ⟨rfl, rfl⟩
  · split at stepped <;> cases stepped
    exact Or.inl ⟨rfl, rfl⟩
  · cases stepped

theorem call_step_now (stepped : callStep shared call label = some (shared', next)) :
    shared'.nowNs = shared.nowNs ∧ shared'.intervalNs = shared.intervalNs := by
  rcases call_step_cases stepped with ⟨rfl, _⟩ | ⟨_, _, _, _, _, _, _, rfl⟩
  · exact ⟨rfl, rfl⟩
  · exact ⟨rfl, rfl⟩

/-- A call carries no more than the clock and the interval it met. -/
theorem call_step_sound (stored : floor ≤ shared.intervalNs)
    (stepped : callStep shared call label = some (shared', next))
    (sound : CallSound floor shared call) : CallSound floor shared' next := by
  unfold callStep at stepped
  split at stepped
  · cases stepped; exact stored
  · cases stepped; exact sound
  · cases stepped; exact sound
  · dsimp only at stepped
    split at stepped
    · cases stepped; exact trivial
    · cases stepped; exact sound
  · cases stepped; exact sound
  · split at stepped
    · rename_i due
      cases stepped
      change _ < _ + subMsSkipThresholdNs
      rw [subMsSkipThresholdNs]
      omega
    · split at stepped
      · cases stepped; exact trivial
      · rename_i close
        cases stepped
        change _ < _ + subMsSkipThresholdNs
        omega
  · split at stepped
    · rename_i due
      cases stepped
      change _ < _ + subMsSkipThresholdNs
      rw [subMsSkipThresholdNs]
      omega
    · cases stepped
  · cases stepped

theorem call_sound_frame {other : Call} (now : shared.nowNs ≤ shared'.nowNs)
    (sound : CallSound floor shared other) : CallSound floor shared' other := by
  cases other with
  | returned slotNs => exact lt_of_lt_of_le sound (Nat.add_le_add_right now _)
  | starting | looking _ | clocking _ _ | swapping _ _ _ | placed _ | sleeping _ => exact sound

/-- A successful compare-exchange puts its slot behind all others. -/
theorem slot_disciplined {intervalNs readNs : ℕ} (disciplined : Disciplined floor shared)
    (wide : floor ≤ intervalNs) :
    Disciplined floor { shared with
      nextNs := min (max shared.nextNs readNs + intervalNs) u64Max
      log := shared.log ++ [⟨max shared.nextNs readNs, readNs, intervalNs⟩] } := by
  constructor
  · apply List.pairwise_append.mpr
    refine ⟨disciplined.apart, List.pairwise_singleton _ _, ?_⟩
    rintro early member late last
    rw [List.mem_singleton.mp last]
    have ahead := disciplined.ahead early member
    dsimp only
    omega
  · rintro slot member
    rcases List.mem_append.mp member with old | new
    · exact disciplined.current slot old
    · rw [List.mem_singleton.mp new]
      exact le_max_right _ _
  · rintro slot member
    rcases List.mem_append.mp member with old | new
    · exact disciplined.wide slot old
    · rw [List.mem_singleton.mp new]
      exact wide
  · rintro slot member
    rcases List.mem_append.mp member with old | new
    · have ahead := disciplined.ahead slot old
      dsimp only
      omega
    · rw [List.mem_singleton.mp new]
  · exact disciplined.stored

theorem move_sound {queue after : Queue} {index : ℕ} (positive : 0 < floor)
    (sound : Sound floor queue)
    (admitted : Admitted floor queue (.call index label))
    (moved : act callStep queue index label = some after) : Sound floor after := by
  rcases act_held slotOf moved with ⟨call, next, found, stepped, held⟩
  have calls : ∀ call ∈ after.procs, floor ≤ after.shared.intervalNs →
      CallSound floor after.shared call := by
    apply act_forall (fun shared call => floor ≤ shared.intervalNs → CallSound floor shared call)
      _ _ moved fun call member _ => sound.calls call member
    · intro shared call label shared' next taken before stored
      rw [(call_step_now taken).2] at stored
      exact call_step_sound stored taken (before stored)
    · intro shared call label shared' next other taken before stored
      rcases call_step_now taken with ⟨now, interval⟩
      rw [interval] at stored
      exact call_sound_frame now.ge (before stored)
  rcases call_step_cases stepped with ⟨same, unslotted⟩ | ⟨intervalNs, currentNs, readNs, rfl, rfl,
    unmoved, rfl, same⟩
  · rw [unslotted] at held
    have disciplined : Disciplined floor after.shared := by
      rw [same]
      exact sound.shared
    refine ⟨disciplined, by rw [same]; exact sound.unsaturated,
      fun call member => calls call member disciplined.stored, ?_⟩
    rw [same]
    exact ((List.perm_append_left_iff _).mp held).trans sound.held
  · subst unmoved
    have wide : floor ≤ intervalNs := sound.calls _ (List.mem_of_getElem? found)
    have room : max queue.shared.nextNs readNs + intervalNs ≤ u64Max := by
      have allowed : fits queue index = true := admitted
      simpa [fits, found] using allowed
    have disciplined : Disciplined floor after.shared := by
      rw [same]
      exact slot_disciplined sound.shared wide
    have unsaturated : ∀ slot ∈ after.shared.log, slot.slotNs < u64Max := by
      rw [same]
      intro slot member
      rcases List.mem_append.mp member with old | new
      · exact sound.unsaturated slot old
      · rw [List.mem_singleton.mp new]
        dsimp only
        omega
    refine ⟨disciplined, unsaturated, fun call member => calls call member disciplined.stored, ?_⟩
    rw [same, List.map_append]
    have placed : (after.procs.filterMap slotOf).Perm
        (max queue.shared.nextNs readNs :: queue.procs.filterMap slotOf) := held
    exact placed.trans ((sound.held.cons _).trans (List.perm_append_singleton _ _).symm)

theorem step_sound {queue after : Queue} {event : Event} (positive : 0 < floor)
    (sound : Sound floor queue) (admitted : Admitted floor queue event)
    (stepped : step queue event = some after) : Sound floor after := by
  cases event with
  | acquire =>
      cases stepped
      refine ⟨sound.shared, sound.unsaturated, ?_, ?_⟩
      · intro call member
        rcases List.mem_append.mp member with old | new
        · exact sound.calls call old
        · rw [List.mem_singleton.mp new]
          exact trivial
      · have none : [Call.starting].filterMap slotOf = [] := rfl
        rw [hire, List.filterMap_append, none, List.append_nil]
        exact sound.held
  | call index label => exact move_sound positive sound admitted stepped
  | setRate queriesPerSecond =>
      rcases Option.map_eq_some_iff.mp stepped with ⟨intervalNs, stored, rfl⟩
      refine ⟨⟨sound.shared.apart, sound.shared.current, sound.shared.wide, sound.shared.ahead, ?_⟩,
        sound.unsaturated, ?_, sound.held⟩
      · rw [interval_for_eq stored]
        exact admitted
      · intro call member
        exact call_sound_frame le_rfl (sound.calls call member)
  | elapse ns =>
      cases stepped
      refine ⟨⟨sound.shared.apart, sound.shared.current, sound.shared.wide, sound.shared.ahead,
        sound.shared.stored⟩, sound.unsaturated, ?_, sound.held⟩
      intro call member
      exact call_sound_frame (Nat.le_add_right _ _) (sound.calls call member)

def AdmittedStep (floor : ℕ) (before after : Queue) : Prop :=
  ∃ event, Admitted floor before event ∧ step before event = some after

theorem new_queue_sound {queriesPerSecond : ℚ} {start : Queue}
    (built : newQueue queriesPerSecond = some start) (wide : floor ≤ start.shared.intervalNs) :
    Sound floor start := by
  rcases Option.map_eq_some_iff.mp built with ⟨intervalNs, _, rfl⟩
  exact ⟨⟨.nil, by simp, by simp, by simp, wide⟩, by simp, by simp, .refl _⟩

theorem reached_sound {queriesPerSecond : ℚ} {start queue : Queue} (positive : 0 < floor)
    (built : newQueue queriesPerSecond = some start) (wide : floor ≤ start.shared.intervalNs)
    (reached : Relation.ReflTransGen (AdmittedStep floor) start queue) : Sound floor queue := by
  apply reachable_invariant (Sound floor) _ reached (new_queue_sound built wide)
  rintro before after sound ⟨event, admitted, stepped⟩
  exact step_sound positive sound admitted stepped

def timely (log : List Slot) : List Slot := log.filter fun slot => slot.slotNs < u64Max

theorem timely_apart (disciplined : Disciplined floor shared) :
    Spaced.Apart (floor : ℚ) (fun slot : Slot => (slot.slotNs : ℚ)) (timely shared.log) := by
  apply List.Pairwise.imp_of_mem _ (List.Pairwise.filter _ disciplined.apart)
  intro early late before after apart
  have wide := disciplined.wide early (List.mem_filter.mp before).1
  have below : late.slotNs < u64Max := of_decide_eq_true (List.mem_filter.mp after).2
  dsimp only
  exact_mod_cast (by omega : early.slotNs + floor ≤ late.slotNs)

/-- Of these a window holds at most one more than intervals that fit. -/
theorem slots_in_window (positive : 0 < floor) (disciplined : Disciplined floor shared) (low : ℚ)
    {length : ℚ} (long : 0 ≤ length) :
    (((timely shared.log).countP fun slot =>
      decide (low ≤ slot.slotNs ∧ (slot.slotNs : ℚ) ≤ low + length) : ℕ) : ℚ) ≤
        length / floor + 1 := by
  rw [List.countP_eq_length_filter]
  apply Spaced.window_count (by exact_mod_cast positive)
    (Spaced.apart_filter (timely_apart disciplined) _) long
  intro slot member
  exact of_decide_eq_true (List.mem_filter.mp member).2

theorem timely_all {queue : Queue} (sound : Sound floor queue) :
    timely queue.shared.log = queue.shared.log := by
  apply List.filter_eq_self.mpr
  intro slot member
  exact decide_eq_true (sound.unsaturated slot member)

theorem returned_le_due {queue : Queue} (sound : Sound floor queue) :
    headcount isReturned queue ≤ queue.shared.log.countP fun slot =>
      decide ((0 : ℚ) ≤ slot.slotNs ∧
        (slot.slotNs : ℚ) ≤ 0 + ((queue.shared.nowNs : ℚ) + 1000000)) := by
  have due : queue.procs.countP isReturned ≤
      (queue.procs.filterMap slotOf).countP fun slotNs =>
        decide (slotNs ≤ queue.shared.nowNs + 1000000) := by
    rw [List.countP_filterMap]
    apply List.countP_mono_left
    intro call member returned
    cases call with
    | returned slotNs =>
        have near : slotNs < queue.shared.nowNs + 1000000 := sound.calls _ member
        simp [slotOf, near.le]
    | starting | looking _ | clocking _ _ | swapping _ _ _ | placed _ | sleeping _ => cases returned
  rw [headcount]
  apply le_trans due
  rw [sound.held.countP_eq, List.countP_map]
  apply List.countP_mono_left
  intro slot _ close
  have bounded : slot.slotNs ≤ queue.shared.nowNs + 1000000 := of_decide_eq_true close
  apply decide_eq_true
  refine ⟨Nat.cast_nonneg _, ?_⟩
  rw [zero_add]
  exact_mod_cast bounded

end Invariants

/-- The discipline of the slots, in every interleaving: each lies its predecessor's
interval later, none is back-dated, all are distinct and no window holds more than
fit; and by any time no more calls have returned than fit into it and the
millisecond that is not slept. -/
theorem slot_discipline {queriesPerSecond : ℚ} {floor : ℕ} (positive : 0 < floor)
    {start queue : Queue} (built : newQueue queriesPerSecond = some start)
    (wide : floor ≤ start.shared.intervalNs)
    (reached : Relation.ReflTransGen (AdmittedStep floor) start queue) :
    (queue.shared.log.Pairwise fun early late =>
      early.slotNs + early.intervalNs ≤ late.slotNs) ∧
    (∀ slot ∈ queue.shared.log, slot.readNs ≤ slot.slotNs) ∧
    (queue.shared.log.map Slot.slotNs).Nodup ∧
    (∀ low length : ℚ, 0 ≤ length →
      ((queue.shared.log.countP fun slot =>
        decide (low ≤ slot.slotNs ∧ (slot.slotNs : ℚ) ≤ low + length) : ℕ) : ℚ) ≤
          length / floor + 1) ∧
    ((headcount isReturned queue : ℕ) : ℚ) ≤ ((queue.shared.nowNs : ℚ) + 10 ^ 6) / floor + 1 := by
  have sound := reached_sound positive built wide reached
  have disciplined := sound.shared
  have apart : queue.shared.log.Pairwise fun early late =>
      early.slotNs + early.intervalNs ≤ late.slotNs := by
    apply List.Pairwise.imp_of_mem _ disciplined.apart
    intro early late _ after spaced
    exact spaced.resolve_right (Nat.not_le.mpr (sound.unsaturated late after))
  refine ⟨apart, disciplined.current, ?_, ?_, ?_⟩
  · apply List.Pairwise.map
    · exact fun _ _ different => different
    · apply List.Pairwise.imp_of_mem _ apart
      intro early late member _ after
      have interval := disciplined.wide early member
      omega
  · intro low length long
    rw [← timely_all sound]
    exact slots_in_window positive disciplined low long
  · have due := returned_le_due sound
    have window := slots_in_window positive disciplined 0
      (by positivity : (0 : ℚ) ≤ (queue.shared.nowNs : ℚ) + 1000000)
    have million : (10 : ℚ) ^ 6 = 1000000 := by norm_num
    rw [timely_all sound] at window
    rw [million]
    exact le_trans (Nat.cast_le.mpr due) window

/-- Two calls at a thousand queries per second: the second finds its compare-exchange
beaten, and returns less than a millisecond ahead of its slot. -/
theorem slot_discipline_two :
    ∃ start queue, newQueue 1000 = some start ∧
      Relation.ReflTransGen (AdmittedStep 1000000) start queue ∧
      headcount isReturned queue = 2 ∧ (queue.shared.log.map Slot.slotNs).Nodup := by
  let start : Queue := { shared := { intervalNs := 1000000 }, procs := [] }
  have interval : intervalFor 1000 = some 1000000 := by decide +kernel
  have built : newQueue 1000 = some start := by
    rw [newQueue, interval]
    rfl
  have replayed : (List.foldlM (fun queue event =>
        if Admitted 1000000 queue event then step queue event else none) start
      [.acquire, .acquire, .call 0 .proceed, .call 1 .proceed, .call 0 .proceed, .call 1 .proceed,
        .call 0 .proceed, .call 1 .proceed, .call 0 .proceed, .call 1 .proceed, .call 0 .proceed,
        .call 1 .proceed, .elapse 1, .call 1 .proceed, .call 1 .proceed, .call 1 .proceed]).map
      (headcount isReturned) = some 2 := by decide +kernel
  rcases Option.map_eq_some_iff.mp replayed with ⟨queue, ends, returned⟩
  have reached : Relation.ReflTransGen (AdmittedStep 1000000) start queue :=
    admitted_replay_reaches ends
  exact ⟨start, queue, built, reached, returned,
    (slot_discipline (by norm_num) built le_rfl reached).2.2.1⟩

end BlastDns.Slots
