import BlastDns.Slots
import BlastDns.Worker
import Mathlib.Tactic.FieldSimp

/-!
The rate limit and the sends it is to govern. A worker takes its slot first and
then waits for a resolver: for a permit, for the end of a sentence, for the
resolver's own pace and for the attempt pacer. A process here is a worker of
`ResolverWorker::run` together with its call of `acquire`; past the limiter it
keeps the slot until it sends, or gives it up with the item.
-/

namespace BlastDns.SendPacing

open Crew Limiter Runs Slots

variable {n : ℕ} {Name : Type} (fromAscii : String → Except ProtoError Name)

/-- A `record_dispatch`: when it happened, and the slot its worker had taken. -/
structure Send where
  atNs : ℕ
  slotNs : ℕ

structure Shared (n : ℕ) where
  work : Worker.Shared n
  limiter : Slots.Shared
  sends : List Send := []

/-- A worker and its call of `acquire`, which has not begun while it has no item. -/
structure Proc (n : ℕ) where
  phase : Worker.Phase n
  call : Slots.Call

inductive Label where
  | work (label : Worker.Label)
  | acquire (label : Slots.Label)

def callAfter (phase : Worker.Phase n) (call : Slots.Call) : Slots.Call :=
  match phase with
  | .idle => .starting
  | _ => call

def procStep (shared : Shared n) (proc : Proc n) : Label → Option (Shared n × Proc n)
  | .acquire label =>
      match proc.phase with
      | .working _ .pacing =>
          (Slots.callStep shared.limiter proc.call label).map fun (limiter, call) =>
            ({ shared with limiter := limiter }, { proc with call := call })
      | _ => none
  | .work label =>
      (Worker.workerStep fromAscii shared.work proc.phase label).bind fun (work, phase) =>
        match proc.phase with
        | .working _ .pacing =>
            -- `acquire` has to return first
            if isReturned proc.call then
              some ({ shared with work := work }, { proc with phase := phase })
            else none
        | .working _ (.holding _ .ready) =>
            match proc.call with
            | .returned slotNs =>
                some ({ shared with
                  work := work
                  sends := shared.sends ++ [⟨shared.limiter.nowNs, slotNs⟩] },
                  { phase := phase, call := .starting })
            | _ => none
        | _ =>
            some ({ shared with work := work },
              { phase := phase, call := callAfter phase proc.call })

inductive Event (n : ℕ) where
  | worker (index : ℕ) (label : Label)
  -- what happens around the workers; time passes for the limiter too
  | around (environment : Worker.Environment n)
  -- the controller sets the global rate
  | limit (queriesPerSecond : ℚ)

abbrev Sending (n : ℕ) := State (Shared n) (Proc n)

def elapsed {n : ℕ} : Worker.Environment n → ℕ
  | .elapse nanos => nanos
  | _ => 0

def step (sending : Sending n) : Event n → Option (Sending n)
  | .worker index label => act (procStep fromAscii) sending index label
  | .around environment =>
      (Worker.environmentStep sending.shared.work environment).map fun work =>
        { sending with shared := { sending.shared with
          work := work
          limiter := { sending.shared.limiter with
            nowNs := sending.shared.limiter.nowNs + elapsed environment } } }
  | .limit queriesPerSecond =>
      (intervalFor queriesPerSecond).map fun intervalNs =>
        { sending with shared := { sending.shared with
          limiter := { sending.shared.limiter with intervalNs := intervalNs } } }

def newSending (pool : Fin n → Health.ResolverHealth) (queueCapacity workers : ℕ)
    (rateLimit : ℚ) : Option (Sending n) :=
  (intervalFor rateLimit).map fun intervalNs =>
    { shared := {
        work := { pool := pool, queueCapacity := queueCapacity }
        limiter := { intervalNs := intervalNs } }
      procs := List.replicate workers ⟨.idle, .starting⟩ }

def sendsNow (sending : Sending n) (index : ℕ) : Option ℕ :=
  match sending.procs[index]? with
  | some ⟨.working _ (.holding _ .ready), .returned slotNs⟩ => some slotNs
  | _ => none

/-- Nobody sends later than one interval after its slot, and the controller, which
knows the configured rate as its ceiling, asks for no shorter interval. -/
def Prompt (floor : ℕ) (sending : Sending n) : Event n → Prop
  | .worker index (.work _) =>
      ∀ slotNs ∈ sendsNow sending index, sending.shared.limiter.nowNs ≤ slotNs + floor
  | .worker _ (.acquire _) | .around _ => True
  | .limit queriesPerSecond => floor ≤ pacingInterval queriesPerSecond

instance (floor : ℕ) (sending : Sending n) :
    (event : Event n) → Decidable (Prompt floor sending event)
  | .worker index (.work _) => inferInstanceAs (Decidable (∀ slotNs ∈ sendsNow sending index,
      sending.shared.limiter.nowNs ≤ slotNs + floor))
  | .worker _ (.acquire _) | .around _ => isTrue trivial
  | .limit queriesPerSecond =>
      inferInstanceAs (Decidable (floor ≤ pacingInterval queriesPerSecond))

def heldSlot (proc : Proc n) : Option ℕ := slotOf proc.call

section Steps

variable {fromAscii} {shared shared' : Shared n} {proc next : Proc n} {label : Label}

/-- Everything a step does to the limiter and the slots: a step of `acquire`; work that
keeps the slot or gives it up; or a send, which spends it. -/
theorem proc_step_cases (stepped : procStep fromAscii shared proc label = some (shared', next)) :
    (∃ lab limiter, callStep shared.limiter proc.call lab = some (limiter, next.call) ∧
      shared' = { shared with limiter := limiter }) ∨
    (∃ work, shared' = { shared with work := work } ∧
      (next.call = proc.call ∨ next.call = .starting)) ∨
    ∃ work slotNs item i lab, label = .work lab ∧
      proc.phase = .working item (.holding i .ready) ∧ proc.call = .returned slotNs ∧
      next.call = .starting ∧ shared' = { shared with
        work := work, sends := shared.sends ++ [⟨shared.limiter.nowNs, slotNs⟩] } := by
  cases label with
  | acquire lab =>
      rw [procStep] at stepped
      split at stepped
      · rcases Option.map_eq_some_iff.mp stepped with ⟨⟨limiter, call⟩, moved, same⟩
        cases same
        exact Or.inl ⟨lab, limiter, moved, rfl⟩
      · cases stepped
  | work lab =>
      rcases Option.bind_eq_some_iff.mp stepped with ⟨⟨work, phase⟩, _, rest⟩
      dsimp only at rest
      split at rest
      · split at rest <;> cases rest
        exact Or.inr (Or.inl ⟨work, rfl, Or.inl rfl⟩)
      · rename_i item i ready
        split at rest
        · rename_i slotNs returned
          cases rest
          exact Or.inr (Or.inr ⟨work, slotNs, item, i, lab, rfl, ready, returned, rfl, rfl⟩)
        · cases rest
      · cases rest
        refine Or.inr (Or.inl ⟨work, rfl, ?_⟩)
        cases phase with
        | idle => exact Or.inr rfl
        | stopped | working _ _ | releasing _ => exact Or.inl rfl

/-- A send is as near to its slot as the condition and the skipped millisecond allow. -/
structure Near (floor nowNs : ℕ) (send : Send) : Prop where
  early : send.slotNs < send.atNs + subMsSkipThresholdNs
  late : send.atNs ≤ send.slotNs + floor
  past : send.atNs ≤ nowNs

/-- No slot is held by two workers, or by one and by a send. -/
structure Sound (floor : ℕ) (sending : Sending n) : Prop where
  limiter : Disciplined floor sending.shared.limiter
  calls : ∀ proc ∈ sending.procs, CallSound floor sending.shared.limiter proc.call
  held : (sending.procs.filterMap heldSlot ++ sending.shared.sends.map Send.slotNs).Subperm
    (sending.shared.limiter.log.map Slot.slotNs)
  near : ∀ send ∈ sending.shared.sends, Near floor sending.shared.limiter.nowNs send

theorem held_fewer {before after spent log : List ℕ} {dropped : Option ℕ}
    (moved : (dropped.toList ++ after).Perm before) (held : (before ++ spent).Subperm log) :
    (after ++ spent).Subperm log := by
  have fewer : (after ++ spent).Subperm (dropped.toList ++ (after ++ spent)) :=
    (List.sublist_append_right _ _).subperm
  apply fewer.trans
  rw [← List.append_assoc]
  exact (moved.append_right spent).subperm.trans held

theorem held_spent {before after spent log : List ℕ} {slotNs : ℕ}
    (moved : (slotNs :: after).Perm before) (held : (before ++ spent).Subperm log) :
    (after ++ (spent ++ [slotNs])).Subperm log := by
  have reordered : (after ++ (spent ++ [slotNs])).Perm (slotNs :: after ++ spent) := by
    rw [← List.append_assoc]
    exact List.perm_append_singleton _ _
  exact (reordered.trans (moved.append_right spent)).subperm.trans held

theorem held_more {before after spent log : List ℕ} {slotNs : ℕ}
    (moved : after.Perm (slotNs :: before)) (held : (before ++ spent).Subperm log) :
    (after ++ spent).Subperm (log ++ [slotNs]) := by
  have added : (slotNs :: (before ++ spent)).Subperm (slotNs :: log) :=
    (List.subperm_cons slotNs).mpr held
  have last : (slotNs :: log).Perm (log ++ [slotNs]) := (List.perm_append_singleton _ _).symm
  exact (moved.append_right spent).subperm.trans (added.trans last.subperm)

variable {floor : ℕ} {sending after : Sending n} {index : ℕ}

theorem proc_step_limiter (stepped : procStep fromAscii shared proc label = some (shared', next)) :
    shared'.limiter.nowNs = shared.limiter.nowNs ∧
      shared'.limiter.intervalNs = shared.limiter.intervalNs := by
  rcases proc_step_cases stepped with ⟨lab, limiter, moved, rfl⟩ | ⟨work, rfl, _⟩ |
    ⟨work, slotNs, item, i, lab, _, _, _, _, rfl⟩
  · exact call_step_now moved
  · exact ⟨rfl, rfl⟩
  · exact ⟨rfl, rfl⟩

theorem proc_step_call (stored : floor ≤ shared.limiter.intervalNs)
    (stepped : procStep fromAscii shared proc label = some (shared', next))
    (sound : CallSound floor shared.limiter proc.call) :
    CallSound floor shared'.limiter next.call := by
  rcases proc_step_cases stepped with ⟨lab, limiter, moved, rfl⟩ | ⟨work, rfl, same | reset⟩ |
    ⟨work, slotNs, item, i, lab, _, _, _, reset, rfl⟩
  · exact call_step_sound stored moved sound
  · rw [same]
    exact sound
  · rw [reset]
    exact trivial
  · rw [reset]
    exact trivial

theorem calls_after (sound : Sound floor sending)
    (moved : act (procStep fromAscii) sending index label = some after)
    (stored : floor ≤ after.shared.limiter.intervalNs) :
    ∀ proc ∈ after.procs, CallSound floor after.shared.limiter proc.call := by
  have calls : ∀ proc ∈ after.procs, floor ≤ after.shared.limiter.intervalNs →
      CallSound floor after.shared.limiter proc.call := by
    apply act_forall (fun shared proc => floor ≤ shared.limiter.intervalNs →
      CallSound floor shared.limiter proc.call) _ _ moved fun proc member _ => sound.calls proc member
    · intro shared proc label shared' next taken before stored
      rw [(proc_step_limiter taken).2] at stored
      exact proc_step_call stored taken (before stored)
    · intro shared proc label shared' next other taken before stored
      rcases proc_step_limiter taken with ⟨now, interval⟩
      rw [interval] at stored
      exact call_sound_frame now.ge (before stored)
  exact fun proc member => calls proc member stored

theorem acquire_sound {lab : Slots.Label} {limiter : Slots.Shared} (sound : Sound floor sending)
    (moved : act (procStep fromAscii) sending index label = some after)
    (found : sending.procs[index]? = some proc)
    (held : ((heldSlot proc).toList ++ after.procs.filterMap heldSlot).Perm
      ((heldSlot next).toList ++ sending.procs.filterMap heldSlot))
    (placed : callStep sending.shared.limiter proc.call lab = some (limiter, next.call))
    (same : after.shared = { sending.shared with limiter := limiter }) : Sound floor after := by
  rcases call_step_cases placed with ⟨unmoved, unslotted⟩ | ⟨intervalNs, currentNs, readNs, swapping,
    _, unmoved, slotted, taken⟩
  · have disciplined : Disciplined floor after.shared.limiter := by
      rw [same, unmoved]
      exact sound.limiter
    have kept : (after.procs.filterMap heldSlot).Perm (sending.procs.filterMap heldSlot) := by
      rw [heldSlot, heldSlot, unslotted] at held
      exact (List.perm_append_left_iff _).mp held
    refine ⟨disciplined, calls_after sound moved disciplined.stored, ?_, ?_⟩
    · rw [same, unmoved]
      exact (kept.append_right _).subperm.trans sound.held
    · rw [same, unmoved]
      exact sound.near
  · subst unmoved
    have wide : floor ≤ intervalNs := by
      have carried := sound.calls proc (List.mem_of_getElem? found)
      rw [swapping] at carried
      exact carried
    have disciplined : Disciplined floor after.shared.limiter := by
      rw [same, taken]
      exact slot_disciplined sound.limiter wide
    refine ⟨disciplined, calls_after sound moved disciplined.stored, ?_, ?_⟩
    · rw [heldSlot, heldSlot, swapping, slotted] at held
      rw [same, taken, List.map_append]
      exact held_more held sound.held
    · rw [same, taken]
      exact sound.near

/-- Work that leaves the limiter and the sends alone, and may drop a slot. -/
theorem work_sound {work : Worker.Shared n} (sound : Sound floor sending)
    (moved : act (procStep fromAscii) sending index label = some after)
    (same : after.shared = { sending.shared with work := work })
    (held : (after.procs.filterMap heldSlot ++ sending.shared.sends.map Send.slotNs).Subperm
      (sending.shared.limiter.log.map Slot.slotNs)) : Sound floor after := by
  have disciplined : Disciplined floor after.shared.limiter := by
    rw [same]
    exact sound.limiter
  refine ⟨disciplined, calls_after sound moved disciplined.stored, ?_, ?_⟩
  · rw [same]
    exact held
  · rw [same]
    exact sound.near

theorem send_sound {work : Worker.Shared n} {slotNs : ℕ} (sound : Sound floor sending)
    (moved : act (procStep fromAscii) sending index label = some after)
    (same : after.shared = { sending.shared with
      work := work, sends := sending.shared.sends ++ [⟨sending.shared.limiter.nowNs, slotNs⟩] })
    (held : (slotNs :: after.procs.filterMap heldSlot).Perm (sending.procs.filterMap heldSlot))
    (due : slotNs < sending.shared.limiter.nowNs + subMsSkipThresholdNs)
    (late : sending.shared.limiter.nowNs ≤ slotNs + floor) : Sound floor after := by
  have disciplined : Disciplined floor after.shared.limiter := by
    rw [same]
    exact sound.limiter
  refine ⟨disciplined, calls_after sound moved disciplined.stored, ?_, ?_⟩
  · rw [same, List.map_append]
    exact held_spent held sound.held
  · rw [same]
    intro send member
    rcases List.mem_append.mp member with old | new
    · exact sound.near send old
    · rw [List.mem_singleton.mp new]
      exact ⟨due, late, le_rfl⟩

theorem worker_sound (sound : Sound floor sending)
    (prompt : Prompt floor sending (.worker index label))
    (moved : act (procStep fromAscii) sending index label = some after) : Sound floor after := by
  rcases act_held heldSlot moved with ⟨proc, next, found, stepped, held⟩
  rcases proc_step_cases stepped with ⟨lab, limiter, placed, same⟩ | ⟨work, same, kept | reset⟩ |
    ⟨work, slotNs, item, i, lab, rfl, ready, returned, reset, same⟩
  · exact acquire_sound sound moved found held placed same
  · apply work_sound sound moved same
    rw [heldSlot, heldSlot, kept] at held
    exact (((List.perm_append_left_iff _).mp held).append_right _).subperm.trans sound.held
  · apply work_sound sound moved same
    have dropped : (heldSlot next).toList = [] := by
      rw [heldSlot, reset]
      rfl
    rw [dropped] at held
    exact held_fewer held sound.held
  · have due : slotNs < sending.shared.limiter.nowNs + subMsSkipThresholdNs := by
      have carried := sound.calls proc (List.mem_of_getElem? found)
      rw [returned] at carried
      exact carried
    have late : sending.shared.limiter.nowNs ≤ slotNs + floor := by
      apply prompt slotNs
      rcases proc with ⟨phase, call⟩
      cases ready
      cases returned
      simp [sendsNow, found]
    rw [heldSlot, heldSlot, reset, returned] at held
    exact send_sound sound moved same held due late

theorem step_sound {event : Event n} (sound : Sound floor sending)
    (prompt : Prompt floor sending event) (stepped : step fromAscii sending event = some after) :
    Sound floor after := by
  cases event with
  | worker index label => exact worker_sound sound prompt stepped
  | around environment =>
      rcases Option.map_eq_some_iff.mp stepped with ⟨work, _, rfl⟩
      have clock : sending.shared.limiter.nowNs ≤
          sending.shared.limiter.nowNs + elapsed environment := Nat.le_add_right _ _
      refine ⟨⟨sound.limiter.apart, sound.limiter.current, sound.limiter.wide, sound.limiter.ahead,
        sound.limiter.stored⟩, ?_, sound.held, ?_⟩
      · intro proc member
        exact call_sound_frame clock (sound.calls proc member)
      · intro send member
        have near := sound.near send member
        exact ⟨near.early, near.late, le_trans near.past clock⟩
  | limit queriesPerSecond =>
      rcases Option.map_eq_some_iff.mp stepped with ⟨intervalNs, stored, rfl⟩
      refine ⟨⟨sound.limiter.apart, sound.limiter.current, sound.limiter.wide, sound.limiter.ahead,
        ?_⟩, ?_, sound.held, sound.near⟩
      · rw [interval_for_eq stored]
        exact prompt
      · intro proc member
        exact call_sound_frame le_rfl (sound.calls proc member)

end Steps

section Paced

def awaitsSend : Worker.Phase n → Bool
  | .working _ (.holding _ hold) =>
      match hold with
      | .granted | .confirming | .reserved | .rated | .ready => true
      | _ => false
  | .working _ .received | .working _ .pacing => false
  | .working _ _ => true
  | _ => false

def isReady : Worker.Phase n → Bool
  | .working _ (.holding _ .ready) => true
  | _ => false

def isPacing : Worker.Phase n → Bool
  | .working _ .pacing => true
  | _ => false

variable {fromAscii} {shared shared' : Worker.Shared n} {phase next : Worker.Phase n}
variable {label : Worker.Label}

theorem is_pacing (pacing : isPacing phase = true) : ∃ item, phase = .working item .pacing := by
  unfold isPacing at pacing
  split at pacing
  · exact ⟨_, rfl⟩
  · cases pacing

theorem hold_step_awaits {health after : Health.ResolverHealth} {nowNs : ℕ} {item : Worker.WorkItem}
    {i : Fin n} {hold : Worker.Hold} {held : Worker.Held}
    (stepped : Worker.holdStep health nowNs hold label = some (after, held))
    (waits : ∀ later, held = .keep later →
      awaitsSend (.working item (.holding i later) : Worker.Phase n) = true)
    (kept : ∀ result, held ≠ .respond result) :
    awaitsSend (.working item (.holding i hold) : Worker.Phase n) = true ∧
      isReady (.working item (.holding i hold) : Worker.Phase n) = false := by
  unfold Worker.holdStep at stepped
  split at stepped
  · exact ⟨rfl, rfl⟩
  · exact ⟨rfl, rfl⟩
  · exact ⟨rfl, rfl⟩
  · exact ⟨rfl, rfl⟩
  · cases stepped
    cases waits _ rfl
  · cases stepped
    cases waits _ rfl
  · split at stepped <;> cases stepped <;> cases waits _ rfl
  · cases stepped
    cases waits _ rfl
  · cases stepped
    cases waits _ rfl
  · cases stepped
    cases waits _ rfl
  · cases stepped
    exact absurd rfl (kept _)
  · cases stepped

/-- A worker comes to wait for its send only through the limiter. -/
theorem worker_step_awaits
    (stepped : Worker.workerStep fromAscii shared phase label = some (shared', next))
    (awaits : awaitsSend next = true) :
    isPacing phase = true ∨ (awaitsSend phase = true ∧ isReady phase = false) := by
  cases phase with
  | idle =>
      cases label <;> simp only [Worker.workerStep] at stepped
      · split at stepped
        · cases stepped
          cases awaits
        · split at stepped <;> cases stepped
          cases awaits
      all_goals cases stepped
  | stopped => cases label <;> cases stepped
  | releasing i =>
      cases label <;> cases stepped
      cases awaits
  | working item stage =>
      cases stage with
      | received =>
          cases label <;> simp only [Worker.workerStep, Worker.stageStep] at stepped
          · split at stepped <;> cases stepped <;> cases awaits
          all_goals cases stepped
      | pacing => exact Or.inl rfl
      | holding i hold =>
          right
          simp only [Worker.workerStep] at stepped
          rcases Option.map_eq_some_iff.mp stepped with ⟨⟨health, held⟩, moved, same⟩
          apply hold_step_awaits moved
          · rintro later rfl
            cases same
            exact awaits
          · rintro result rfl
            cases same
            cases awaits
      | reserving | visiting _ | checking _ _ | trying _ _ | sleeping _ | waiting _ =>
          exact Or.inr ⟨rfl, rfl⟩

theorem proc_step_returned {shared shared' : Shared n} {proc next : Proc n} {label : Label}
    (stepped : procStep fromAscii shared proc label = some (shared', next))
    (kept : awaitsSend proc.phase = true → isReturned proc.call = true)
    (awaits : awaitsSend next.phase = true) : isReturned next.call = true := by
  cases label with
  | acquire lab =>
      rw [procStep] at stepped
      split at stepped
      · rename_i item pacing
        rcases Option.map_eq_some_iff.mp stepped with ⟨_, _, same⟩
        cases same
        rw [pacing] at awaits
        cases awaits
      · cases stepped
  | work lab =>
      rcases Option.bind_eq_some_iff.mp stepped with ⟨⟨work, phase⟩, moved, rest⟩
      dsimp only at rest
      split at rest
      · split at rest <;> cases rest
        rename_i returned
        exact returned
      · rename_i item i ready
        split at rest <;> cases rest
        rcases worker_step_awaits moved awaits with pacing | ⟨_, unready⟩
        · rw [ready] at pacing
          cases pacing
        · rw [ready] at unready
          cases unready
      · rename_i unpaced unready
        cases rest
        rcases worker_step_awaits moved awaits with pacing | ⟨waited, _⟩
        · rcases is_pacing pacing with ⟨item, pacing⟩
          exact absurd pacing (unpaced item)
        · have kept := kept waited
          cases phase with
          | idle => cases awaits
          | stopped | working _ _ | releasing _ => exact kept

/-- Whoever is past the limiter and has not sent has had its `acquire` return, so a
worker that is ready to send is never held up by it here. -/
theorem awaiting_has_slot {pool : Fin n → Health.ResolverHealth} {queueCapacity workers : ℕ}
    {rateLimit : ℚ} {start sending : Sending n}
    (built : newSending pool queueCapacity workers rateLimit = some start)
    (reached : Relation.ReflTransGen
      (fun before after => ∃ event, step fromAscii before event = some after) start sending) :
    ∀ proc ∈ sending.procs, awaitsSend proc.phase = true → isReturned proc.call = true := by
  apply reachable_invariant (fun sending : Sending n => ∀ proc ∈ sending.procs,
    awaitsSend proc.phase = true → isReturned proc.call = true) _ reached
  · rcases Option.map_eq_some_iff.mp built with ⟨_, _, rfl⟩
    intro proc member awaits
    rw [(List.mem_replicate.mp member).2] at awaits
    cases awaits
  · rintro before after held ⟨event, stepped⟩
    cases event with
    | around environment =>
        rcases Option.map_eq_some_iff.mp stepped with ⟨_, _, rfl⟩
        exact held
    | limit queriesPerSecond =>
        rcases Option.map_eq_some_iff.mp stepped with ⟨_, _, rfl⟩
        exact held
    | worker index label =>
        apply act_forall (fun _ proc => awaitsSend proc.phase = true → isReturned proc.call = true)
          _ _ stepped held
        · exact fun _ _ _ _ _ taken kept awaits => proc_step_returned taken kept awaits
        · exact fun _ _ _ _ _ _ _ kept => kept

end Paced

section Runs

def PromptStep (floor : ℕ) (before after : Sending n) : Prop :=
  ∃ event, Prompt floor before event ∧ step fromAscii before event = some after

variable {fromAscii} {pool : Fin n → Health.ResolverHealth} {queueCapacity workers : ℕ}
variable {rateLimit : ℚ} {start sending : Sending n}

theorem new_sending_sound (built : newSending pool queueCapacity workers rateLimit = some start) :
    Sound (pacingInterval rateLimit) start := by
  rcases Option.map_eq_some_iff.mp built with ⟨intervalNs, stored, rfl⟩
  refine ⟨⟨.nil, by simp, by simp, by simp, (interval_for_eq stored).ge⟩, ?_, ?_, by simp⟩
  · intro proc member
    rw [(List.mem_replicate.mp member).2]
    exact trivial
  · have none : (List.replicate workers (⟨.idle, .starting⟩ : Proc n)).filterMap heldSlot = [] := by
      rw [List.filterMap_replicate_of_none]
      rfl
    dsimp only
    rw [none]
    exact List.nil_subperm

def sentWithin (sending : Sending n) (fromNs seconds : ℚ) : ℕ :=
  sending.shared.sends.countP fun send =>
    decide (fromNs ≤ send.atNs ∧ (send.atNs : ℚ) ≤ fromNs + seconds * nanosPerSecond)

/-- The slots of those sends lie in the stretch, widened by the interval a send may be
late and the millisecond it may be early. -/
theorem sent_le_slots {floor : ℕ} (sound : Sound floor sending)
    (range : sending.shared.limiter.nowNs + subMsSkipThresholdNs ≤ u64Max) (fromNs seconds : ℚ) :
    sentWithin sending fromNs seconds ≤ (timely sending.shared.limiter.log).countP fun slot =>
      decide (fromNs - floor ≤ slot.slotNs ∧ (slot.slotNs : ℚ) ≤
        fromNs - floor + (seconds * nanosPerSecond + 1000000 + floor)) := by
  have spent : (sending.shared.sends.map Send.slotNs).Subperm
      (sending.shared.limiter.log.map Slot.slotNs) :=
    (List.sublist_append_right _ _).subperm.trans sound.held
  have slots := spent.countP_le fun slotNs => decide (slotNs < u64Max) &&
    decide (fromNs - floor ≤ slotNs ∧ (slotNs : ℚ) ≤
      fromNs - floor + (seconds * nanosPerSecond + 1000000 + floor))
  rw [List.countP_map, List.countP_map] at slots
  rw [timely, List.countP_filter]
  refine le_trans ?_ (le_trans slots (List.countP_mono_left ?_))
  · apply List.countP_mono_left
    intro send member inside
    rcases of_decide_eq_true inside with ⟨lower, upper⟩
    have near := sound.near send member
    have early : (send.slotNs : ℚ) < send.atNs + 1000000 := by exact_mod_cast near.early
    have late : (send.atNs : ℚ) ≤ send.slotNs + floor := by exact_mod_cast near.late
    have below : send.slotNs < u64Max :=
      lt_of_lt_of_le near.early (le_trans (Nat.add_le_add_right near.past _) range)
    simp only [Function.comp_apply, Bool.and_eq_true, decide_eq_true_eq]
    exact ⟨below, by linarith, by linarith⟩
  · intro slot _ counted
    simpa [and_comm] using counted

/-- While nobody sends later than one interval after its slot, every stretch of time
holds at most as many sends as the rate allows in it and a millisecond more, and
two. -/
theorem prompt_sends_follow_rate
    (built : newSending pool queueCapacity workers rateLimit = some start)
    (reached : Relation.ReflTransGen (PromptStep fromAscii (pacingInterval rateLimit)) start sending)
    (range : sending.shared.limiter.nowNs + 1000000 ≤ u64Max) (fromNs : ℚ) {seconds : ℚ}
    (long : 0 ≤ seconds) :
    (sentWithin sending fromNs seconds : ℚ) ≤
      RateLimiter.rate ⟨pacingInterval rateLimit⟩ * (seconds + 1 / 1000) + 2 := by
  have sound : Sound (pacingInterval rateLimit) sending := by
    apply reachable_invariant (Sound (pacingInterval rateLimit)) _ reached (new_sending_sound built)
    rintro before after sound ⟨event, prompt, stepped⟩
    exact step_sound sound prompt stepped
  have positive : 0 < pacingInterval rateLimit := pacing_interval_pos rateLimit
  have interval : (0 : ℚ) < pacingInterval rateLimit := by exact_mod_cast positive
  have nonneg : 0 ≤ seconds * nanosPerSecond := mul_nonneg long nanos_pos.le
  have slots := slots_in_window positive sound.limiter (fromNs - pacingInterval rateLimit)
    (by linarith : 0 ≤ seconds * nanosPerSecond + 1000000 + (pacingInterval rateLimit : ℚ))
  have sent := sent_le_slots sound range fromNs seconds
  calc (sentWithin sending fromNs seconds : ℚ)
      ≤ (seconds * nanosPerSecond + 1000000 + pacingInterval rateLimit) /
          pacingInterval rateLimit + 1 := le_trans (Nat.cast_le.mpr sent) slots
    _ = RateLimiter.rate ⟨pacingInterval rateLimit⟩ * (seconds + 1 / 1000) + 2 := by
        rw [RateLimiter.rate, nanosPerSecond]
        field_simp
        ring

end Runs

section Benched

def plainName (host : String) : Except ProtoError String := .ok host

/-- One resolver, benched for ten seconds by its first failure. -/
def strictPool (_ : Fin 1) : Health.ResolverHealth where
  resolver := .v4 ⟨9, 9, 9, 9⟩ 53
  requestTimeoutNs := 1000000000
  purgatoryThreshold := 1
  purgatorySentenceNs := 10000000000
  inflight := 4
  limiter := ⟨1⟩

def enqueue : Event 1 := .around (.enqueue { host := "example.com", recordType := 1 })

def works (count index : ℕ) : List (Event 1) :=
  List.replicate count (.worker index (.work .proceed))

def acquires (count index : ℕ) : List (Event 1) :=
  List.replicate count (.worker index (.acquire .proceed))

def firstSend : List (Event 1) := enqueue :: works 2 0 ++ acquires 5 0 ++ works 8 0

theorem prompt_sends_follow_rate_once :
    ∃ start sending, newSending strictPool 4 4 1 = some start ∧
      Relation.ReflTransGen (PromptStep plainName (pacingInterval 1)) start sending ∧
      sentWithin sending 0 0 = 1 ∧ (sentWithin sending 0 0 : ℚ) ≤
        RateLimiter.rate ⟨pacingInterval 1⟩ * (0 + 1 / 1000) + 2 := by
  have replayed : ((newSending strictPool 4 4 1).bind fun start =>
      (firstSend.foldlM (fun sending event =>
        if Prompt (pacingInterval 1) sending event then step plainName sending event else none)
        start).map fun sending => (sentWithin sending 0 0,
          decide (sending.shared.limiter.nowNs + 1000000 ≤ u64Max))) = some (1, true) := by
    decide +kernel
  rcases Option.bind_eq_some_iff.mp replayed with ⟨start, built, rest⟩
  rcases Option.map_eq_some_iff.mp rest with ⟨sending, ends, seen⟩
  have reached : Relation.ReflTransGen (PromptStep plainName (pacingInterval 1)) start sending :=
    admitted_replay_reaches ends
  rw [Prod.mk.injEq, decide_eq_true_eq] at seen
  rcases seen with ⟨once, range⟩
  exact ⟨start, sending, built, reached, once,
    prompt_sends_follow_rate built reached range 0 le_rfl⟩

/-- Its query times out. Three others take the slots of the next three seconds, find
the resolver benched and sleep; at the end of the sentence they send together. -/
def benchedSends : List (Event 1) :=
  [enqueue, enqueue, enqueue] ++ firstSend ++
    [.worker 0 (.work (.answer (.error (.queryTimedOut (.v4 ⟨9, 9, 9, 9⟩ 53) 1000000000))))] ++
    works 1 0 ++ works 2 1 ++ works 2 2 ++ works 2 3 ++ acquires 5 1 ++ acquires 5 2 ++
    acquires 5 3 ++ [.around (.elapse 3000000000)] ++ acquires 1 1 ++ acquires 1 2 ++ acquires 1 3 ++
    works 5 1 ++ works 5 2 ++ works 5 3 ++ [.around (.elapse 7000000000)] ++ works 8 1 ++
    works 8 2 ++ works 8 3

/-- Three sends at one instant, at a rate of one query per second. -/
theorem benched_workers_send_together :
    ∃ start sending, newSending strictPool 4 4 1 = some start ∧
      Relation.ReflTransGen (fun before after => ∃ event,
        step plainName before event = some after) start sending ∧
      ¬ (sentWithin sending 10000000000 0 : ℚ) ≤
        RateLimiter.rate ⟨pacingInterval 1⟩ * (0 + 1 / 1000) + 2 := by
  have replayed : ((newSending strictPool 4 4 1).bind fun start =>
      (benchedSends.foldlM (step plainName) start).map fun sending =>
        sentWithin sending 10000000000 0) = some 3 := by decide +kernel
  rcases Option.bind_eq_some_iff.mp replayed with ⟨start, built, rest⟩
  rcases Option.map_eq_some_iff.mp rest with ⟨sending, ends, three⟩
  refine ⟨start, sending, built, replay_reaches ends, ?_⟩
  rw [three, RateLimiter.rate, one_qps_interval]
  norm_num [nanosPerSecond]

end Benched

end BlastDns.SendPacing
