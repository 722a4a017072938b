import BlastDns.CallRuns
import BlastDns.Drain

/-!
Every call comes back. A call waits for the initialiser of its handle, which one of the
calls on this handle runs, for room in the queue or for an answer on its channel, the
workers wait for permits and for the end of a sentence, and a call may put new work into
the queue up to as often as it may try. None of these waits is for ever: from any state,
as long as time passes and somebody who can move does, all calls end and the workers
come to rest.
-/

namespace BlastDns.Calls

open Accounting Cache Client Config Controller Crew Descent Drain GlobalCap Handling Lru NetText
open Politeness Resolve RetryLoop Runs Worker

variable {Name : Type} [DecidableEq Name] {lru : LruCache (Name × ℕ) CacheEntry} {n : ℕ}
variable {Wire : Type} {fromAscii : String → Except ProtoError Wire} {config : BlastDNSConfig}
variable {parse : String → Option Name} {latest : ℕ}

section Ready

def ended (caller : Caller) : Bool :=
  match caller.progress with
  | .returned _ | .cancelled | .panicked => true
  | _ => false

def Used (system : System n) (caller : Caller) : Prop :=
  system.handles[caller.handle]? = some .set

/-- A call has a handle, past `ensure_workers` a used one, and waits on a channel that is
open. -/
def Ready (floor : Floor n lru) (caller : Caller) : Prop :=
  match caller.progress with
  | .ensuring => caller.handle < floor.system.handles.length
  | .looking | .offering _ | .judging _ _ => Used floor.system caller
  | .awaiting _ channel =>
      Used floor.system caller ∧ channel < floor.system.dispatch.shared.opened
  | _ => True

/-- What the calls rely on: a used cell stays used, and open channels stay open. -/
structure Kept (system after : System n) : Prop where
  handles : system.handles.length ≤ after.handles.length
  used : ∀ handle : ℕ, system.handles[handle]? = some Cell.set →
    after.handles[handle]? = some Cell.set
  opened : system.dispatch.shared.opened ≤ after.dispatch.shared.opened
  queueCapacity : after.dispatch.shared.queueCapacity = system.dispatch.shared.queueCapacity

theorem kept_refl (system : System n) : Kept system system :=
  ⟨le_rfl, fun _ used => used, le_rfl, rfl⟩

theorem ready_kept {floor after : Floor n lru} {caller : Caller}
    (kept : Kept floor.system after.system) (ready : Ready floor caller) : Ready after caller := by
  unfold Ready at ready ⊢
  split at ready
  · exact ready.trans_le kept.handles
  · exact kept.used _ ready
  · exact kept.used _ ready
  · exact kept.used _ ready
  · exact ⟨kept.used _ ready.1, ready.2.trans_le kept.opened⟩
  · trivial

theorem set_cell_used {handles : List Cell} {handle other : ℕ} {cell : Cell}
    (unset : handles[handle]? ≠ some .set) (used : handles[other]? = some .set) :
    (handles.set handle cell)[other]? = some .set := by
  by_cases here : handle = other
  · subst here
    exact absurd used unset
  · rw [List.getElem?_set_ne here]
    exact used

theorem system_step_kept {system after : System n} {action : Action n}
    (stepped : systemStep fromAscii config system action = some after) :
    Kept system after := by
  cases action with
  | clone handle =>
      rcases Option.map_eq_some_iff.mp stepped with ⟨cell, _, rfl⟩
      refine ⟨by simp, ?_, le_rfl, rfl⟩
      intro other used
      rcases List.getElem?_eq_some_iff.mp used with ⟨inside, _⟩
      exact (List.getElem?_append_left inside).trans used
  | startInit handle =>
      simp only [systemStep] at stepped
      split at stepped <;> cases stepped
      rename_i empty
      exact ⟨by simp, fun _ used => set_cell_used (by simp [empty]) used, le_rfl, rfl⟩
  | cancelInit handle =>
      simp only [systemStep] at stepped
      split at stepped <;> cases stepped
      rename_i busy
      exact ⟨by simp, fun _ used => set_cell_used (by simp [busy]) used, le_rfl, rfl⟩
  | finishInit handle =>
      simp only [systemStep] at stepped
      split at stepped <;> cases stepped
      rename_i busy
      refine ⟨?_, fun _ used => set_cell_used (by simp [busy]) used, le_rfl, rfl⟩
      simp [spawnAll]
  | submit handle query =>
      rcases system_step_submit.mp stepped with ⟨_, _, _, rfl⟩
      exact ⟨le_rfl, fun _ used => used, Nat.le_succ _, rfl⟩
  | worker index label =>
      rcases Option.map_eq_some_iff.mp stepped with ⟨dispatch, acted, rfl⟩
      rcases act_some acted with ⟨_, _, _, _, moved, rfl⟩
      have framed := (worker_step_handles moved).2
      exact ⟨le_rfl, fun _ used => used, framed.opened.ge, framed.queueCapacity⟩
  | around environment =>
      rcases system_step_around stepped with ⟨idle, shared, moved, rfl⟩
      cases environment_step_surrounds moved with
      | enqueues => exact absurd rfl (idle _)
      | leaves _ _ _ opened _ _ capacity =>
          exact ⟨le_rfl, fun _ used => used, opened.ge, capacity⟩

variable {floor after : Floor n lru} {caller moved : Caller}

theorem judge_ready {attempt : ℕ} {result : Answer} (used : Used floor.system caller) :
    Ready floor (caller.goes (judge config attempt result)) := by
  rcases judge_cases config attempt result with again | ⟨_, _, stores⟩ | ⟨_, _, _, concedes⟩ |
    ⟨_, _, _, returns⟩
  · rw [again]
    exact used
  · rw [stores]
    trivial
  · rw [concedes]
    trivial
  · rw [returns]
    trivial

/-- A call that moves leaves the floor as the others rely on it. -/
theorem moves_kept (moves : Moves fromAscii config parse latest floor caller after moved) :
    Kept floor.system after.system := by
  cases moves with
  | offered _ _ _ submitted => exact system_step_kept submitted
  | _ => exact kept_refl _

theorem moves_ready (moves : Moves fromAscii config parse latest floor caller after moved)
    (ready : Ready floor caller) : Ready after moved := by
  cases moves with
  | ensured place used => exact used
  | missed place =>
      rw [Ready, place] at ready
      exact ready
  | offered place within accepting submitted =>
      rw [Ready, place] at ready
      refine ⟨(system_step_kept submitted).used _ ready, ?_⟩
      -- the item just sent opened the channel
      rcases system_step_submit.mp submitted with ⟨_, _, _, rfl⟩
      exact Nat.lt_succ_self _
  | heard place =>
      rw [Ready, place] at ready
      exact ready.1
  | judged place =>
      rw [Ready, place] at ready
      exact judge_ready ready
  | _ => trivial

theorem moves_on (moves : Moves fromAscii config parse latest floor caller after moved) :
    moved.progress ≠ .ensuring := by
  cases moves with
  | @judged attempt result place =>
      rcases judge_cases config attempt result with again | ⟨_, _, stores⟩ | ⟨_, _, _, concedes⟩ |
        ⟨_, _, _, returns⟩
      · simp [Caller.goes, again]
      · simp [Caller.goes, stores]
      · simp [Caller.goes, concedes]
      · simp [Caller.goes, returns]
  | _ => simp [Caller.goes, Caller.hears]

end Ready

section Rank

/-- How much a call may still do, and put into the queue. -/
def callDebt (attempts : ℕ) (caller : Caller) : ℕ :=
  match caller.progress with
  | .ensuring => 8 * attempts + 6
  | .looking => 8 * attempts + 5
  | .offering attempt => 8 * (attempts - attempt) + 4
  | .awaiting attempt _ => 8 * (attempts - attempt)
  | .judging attempt _ => 8 * (attempts - attempt) - 1
  | .storing _ => 3
  | .completing _ | .conceding _ => 2
  | .failing _ => 1
  | .returned _ | .cancelled | .panicked => 0

noncomputable def deskRank (attempts : ℕ) (desk : Desk n lru) : ℕ ×ₗ ℕ ×ₗ ℕ ×ₗ ℕ ×ₗ ℕ :=
  toLex (owed desk.shared.system.dispatch + (desk.procs.map (callDebt attempts)).sum,
    ground desk.shared.system.dispatch)

variable {floor after : Floor n lru} {caller moved : Caller}

theorem judge_debt (caller : Caller) {attempt : ℕ} (result : Answer)
    (within : attempt < attemptsFor config.maxRetries) :
    callDebt (attemptsFor config.maxRetries) (caller.goes (judge config attempt result)) <
      8 * (attemptsFor config.maxRetries - attempt) - 1 := by
  rcases judge_cases config attempt result with again | ⟨_, _, stores⟩ | ⟨_, _, _, concedes⟩ |
    ⟨_, _, _, returns⟩
  · simp only [callDebt, Caller.goes, again]
    omega
  · simp only [callDebt, Caller.goes, stores]
    omega
  · simp only [callDebt, Caller.goes, concedes]
    omega
  · simp only [callDebt, Caller.goes, returns]
    omega

/-- A call that moves owes less, its new work included. -/
theorem moves_pay (moves : Moves fromAscii config parse latest floor caller after moved)
    (follows : Follows (attemptsFor config.maxRetries) caller) :
    owed after.system.dispatch + callDebt (attemptsFor config.maxRetries) moved <
      owed floor.system.dispatch + callDebt (attemptsFor config.maxRetries) caller := by
  cases moves with
  | ensured place => simp [callDebt, place, Caller.goes]
  | hit place => simp [callDebt, place, Caller.goes]
  | missed place => simp [callDebt, place, Caller.goes]
  | exhausted place => simp [callDebt, place, Caller.goes]
  | refused place => simp [callDebt, place, Caller.hears]
  | offered place within accepting submitted =>
      rcases system_step_submit.mp submitted with ⟨_, _, _, rfl⟩
      simp only [owed, queueDebt, Calls.submitted, List.length_append, List.length_singleton,
        callDebt, place, Caller.goes]
      omega
  | heard place =>
      rw [Follows, place] at follows
      have within := follows.2.1
      simp only [callDebt, place, Caller.hears]
      omega
  | @judged attempt result place =>
      rw [Follows, place] at follows
      rcases follows with ⟨_, _, _, within, _⟩
      have less := judge_debt caller result within
      simp only [callDebt, place]
      exact Nat.add_lt_add_left less _
  | stored place => simp [callDebt, place, Caller.goes]
  | panics place => simp [callDebt, place, Caller.goes]
  | completes place => simp [callDebt, place, Caller.goes]
  | concedes place => simp [callDebt, place, Caller.goes]
  | fails place => simp [callDebt, place, Caller.goes]
  | cancels place =>
      rcases place with place | ⟨attempt, place⟩ | ⟨attempt, channel, place⟩
      · simp [callDebt, place, Caller.goes]
      · simp [callDebt, place, Caller.goes]
      · rw [Follows, place] at follows
        have within := follows.2.1
        simp only [callDebt, place, Caller.goes]
        omega

end Rank

section Sound

variable {permits : ℕ}

/-- What holds of a desk at all times. -/
structure Sound (permits : ℕ) (config : BlastDNSConfig) (desk : Desk n lru) : Prop where
  serving : Serving permits desk.shared.system
  room : 0 < desk.shared.system.dispatch.shared.queueCapacity
  callers : ∀ caller ∈ desk.procs, Follows (attemptsFor config.maxRetries) caller ∧
    Ready desk.shared caller

theorem moves_serving {floor after : Floor n lru} {caller moved : Caller}
    (moves : Moves fromAscii config parse latest floor caller after moved)
    (serving : Serving permits floor.system) : Serving permits after.system := by
  cases moves with
  | offered _ _ _ submitted => exact system_step_serving ⟨_, submitted⟩ serving
  | _ => exact serving

theorem desk_step_sound {desk later : Desk n lru}
    (stepped : DeskSteps fromAscii config parse latest desk later)
    (sound : Sound permits config desk) : Sound permits config later := by
  rcases desk_step_cases stepped with ⟨_, _, _, inside, rfl⟩ | ⟨index, label, acted⟩ |
    ⟨action, system, free, moved, rfl⟩
  · refine ⟨sound.serving, sound.room, ?_⟩
    intro caller member
    rcases List.mem_append.mp member with before | fresh
    · exact sound.callers caller before
    · rw [List.mem_singleton.mp fresh]
      exact ⟨rfl, inside⟩
  · have kept := act_invariant
      (fun floor : Floor n lru => Serving permits floor.system ∧
        0 < floor.system.dispatch.shared.queueCapacity)
      (fun floor caller => Follows (attemptsFor config.maxRetries) caller ∧ Ready floor caller)
      (fun _ _ _ _ _ stepped known mine => by
        have moves := call_step_moves stepped
        have keeps := moves_kept moves
        refine ⟨⟨moves_serving moves known.1, keeps.queueCapacity ▸ known.2⟩,
          ⟨moves_follows moves mine.1, moves_ready moves mine.2⟩, ?_⟩
        exact fun other theirs => ⟨theirs.1, ready_kept keeps theirs.2⟩)
      acted ⟨⟨sound.serving, sound.room⟩, sound.callers⟩
    exact ⟨kept.1.1, kept.1.2, kept.2⟩
  · have keeps := system_step_kept moved
    refine ⟨system_step_serving ⟨action, moved⟩ sound.serving, keeps.queueCapacity ▸ sound.room, ?_⟩
    intro caller member
    rcases sound.callers caller member with ⟨follows, ready⟩
    exact ⟨follows, ready_kept keeps ready⟩

theorem new_desk_sound {client : BlastDNSClient} (room : 0 < client.queueCapacity) :
    Sound (max client.config.maxInflightPerResolver 1) client.config (newDesk lru client) :=
  ⟨new_system_serving client, room, by simp [newDesk]⟩

/-- With the workers at rest, a call that has not ended can move. -/
theorem caller_enabled {desk : Desk n lru} (sound : Sound permits config desk)
    (drained : Drained desk.shared.system.dispatch) {caller : Caller} (member : caller ∈ desk.procs)
    (ensured : caller.progress = .ensuring → Used desk.shared.system caller)
    (pending : ended caller = false) :
    ∃ index later, act (callStep fromAscii config parse latest) desk index .proceed =
      some later := by
  rcases List.mem_iff_getElem?.mp member with ⟨index, found⟩
  rcases sound.callers caller member with ⟨follows, ready⟩
  have able : (callStep fromAscii config parse latest desk.shared caller .proceed).isSome = true := by
    unfold ended at pending
    unfold Ready at ready
    unfold Follows at follows
    simp only [callStep, proceedStep]
    cases place : caller.progress with
    | ensuring => simp [show desk.shared.system.handles[caller.handle]? = some .set from
        ensured place]
    | looking =>
        simp only
        split <;> rfl
    | offering attempt =>
        simp only [place] at follows ready
        simp only [follows.2.1, if_true, offerStep]
        split
        · rfl
        · rename_i accepting
          have submits : systemStep fromAscii config desk.shared.system
              (.submit caller.handle caller.query) = some _ :=
            system_step_submit.mpr
              ⟨ready, Bool.eq_false_iff.mpr accepting, by simpa [drained.1] using sound.room, rfl⟩
          rw [submits]
          rfl
    | awaiting attempt channel =>
        simp only [place] at ready
        have once := drained_answered sound.serving.standing drained ready.2
        have some : 0 < responses desk.shared.system.dispatch channel := by omega
        rcases List.countP_pos_iff.mp some with ⟨answer, inside, here⟩
        rw [Option.isSome_map, List.lookup_isSome_iff]
        refine ⟨answer, inside, ?_⟩
        rw [of_decide_eq_true here]
        exact beq_self_eq_true channel
    | judging => rfl
    | storing =>
        simp only
        split <;> rfl
    | completing => rfl
    | conceding => rfl
    | failing => rfl
    | returned => simp [place] at pending
    | cancelled => simp [place] at pending
    | panicked => simp [place] at pending
  rcases Option.isSome_iff_exists.mp able with ⟨⟨floor, moved⟩, stepped⟩
  exact ⟨index, _, act_of_step found stepped⟩

end Sound

section Fair

/-- A worker or a call moves. -/
def Moving (event : DeskEvent n) : Prop :=
  (∃ index label, event = .call index label) ∨ ∃ index label, event = .system (.worker index label)

def DeskEnabled (fromAscii : String → Except ProtoError Wire) (config : BlastDNSConfig)
    (parse : String → Option Name) (latest : ℕ) (desk : Desk n lru) : Prop :=
  Enabled fromAscii desk.shared.system.dispatch ∨
    ∃ index later, act (callStep fromAscii config parse latest) desk index .proceed = some later

/-- A call waits in `ensure_workers` of this handle. -/
def awaited (desk : Desk n lru) (handle : ℕ) : Bool :=
  desk.procs.any fun caller => caller.handle == handle &&
    match caller.progress with
    | .ensuring => true
    | _ => false

/-- The initialiser of a handle runs inside a call, and nowhere else. -/
def strays (desk : Desk n lru) : DeskEvent n → Bool
  | .system (.startInit handle) | .system (.finishInit handle) => !awaited desk handle
  | _ => false

def tendedStep (fromAscii : String → Except ProtoError Wire) (config : BlastDNSConfig)
    (parse : String → Option Name) (latest : ℕ) (desk : Desk n lru) (event : DeskEvent n) :
    Option (Desk n lru) :=
  if strays desk event then none else deskStep fromAscii config parse latest desk event

/-- A worker, a call or an initialiser moves. -/
def Tending (event : DeskEvent n) : Prop :=
  Moving event ∨
    ∃ handle, event = .system (.startInit handle) ∨ event = .system (.finishInit handle)

def TendedEnabled (fromAscii : String → Except ProtoError Wire) (config : BlastDNSConfig)
    (parse : String → Option Name) (latest : ℕ) (desk : Desk n lru) : Prop :=
  DeskEnabled fromAscii config parse latest desk ∨
    ∃ handle, ∃ action ∈ [Action.startInit handle, .finishInit handle],
      (tendedStep fromAscii config parse latest desk (.system action)).isSome = true

/-- No call is made, and no initialiser dropped with the call that ran it. -/
structure Settled (event : DeskEvent n) : Prop where
  arrived : ∀ handle host recordType, event ≠ .arrive handle host recordType
  kept : ∀ handle, event ≠ .system (.cancelInit handle)

/-- A run in which only so many calls are made and only so many initialisers dropped: time
passes, and where somebody can move for ever, somebody does. -/
structure FairDesk (fromAscii : String → Except ProtoError Wire) (config : BlastDNSConfig)
    (parse : String → Option Name) (latest : ℕ) (inputs : ℕ → DeskEvent n)
    (states : ℕ → Desk n lru) : Prop where
  run : Run (tendedStep fromAscii config parse latest) inputs states
  settles : ∃ since, ∀ time, since ≤ time → Settled (inputs time)
  passes : ∀ boundNs, ∃ time, boundNs ≤ (states time).shared.nowNs
  moves : ∀ start,
    (∀ time, start ≤ time → TendedEnabled fromAscii config parse latest (states time)) →
      ∃ time, start ≤ time ∧ Tending (inputs time)

theorem tended_step {desk later : Desk n lru} {event : DeskEvent n}
    (stepped : tendedStep fromAscii config parse latest desk event = some later) :
    strays desk event = false ∧ deskStep fromAscii config parse latest desk event = some later := by
  unfold tendedStep at stepped
  split at stepped
  · cases stepped
  · rename_i stays
    exact ⟨Bool.eq_false_iff.mpr stays, stepped⟩

theorem awaited_iff {desk : Desk n lru} {handle : ℕ} :
    awaited desk handle = true ↔
      ∃ caller ∈ desk.procs, caller.handle = handle ∧ caller.progress = .ensuring := by
  simp only [awaited, List.any_eq_true, Bool.and_eq_true, beq_iff_eq]
  refine exists_congr fun caller => and_congr_right fun _ => and_congr_right fun _ => ?_
  cases caller.progress <;> simp

/-- Steps left to an initialiser. -/
def initDebt : Option Cell → ℕ
  | some .set => 0
  | some .initialising => 1
  | some .empty | none => 2

def cellDebt (handles : List Cell) (caller : Caller) : ℕ :=
  match caller.progress with
  | .ensuring => initDebt handles[caller.handle]?
  | _ => 0

/-- A step towards used handles may hire workers, and so goes before all others. -/
noncomputable def tendedRank (attempts : ℕ) (desk : Desk n lru) : ℕ ×ₗ ℕ ×ₗ ℕ ×ₗ ℕ ×ₗ ℕ ×ₗ ℕ :=
  toLex ((desk.procs.map (cellDebt desk.shared.system.handles)).sum, deskRank attempts desk)

section Cells

variable {handles : List Cell} {attempts : ℕ} {desk later : Desk n lru}

theorem moved_on_debt {caller : Caller} (on : caller.progress ≠ .ensuring) :
    cellDebt handles caller = 0 := by
  unfold cellDebt
  split
  · rename_i place
    exact absurd place on
  · rfl

theorem cloned_debt (cell : Cell) (caller : Caller) :
    cellDebt (handles ++ [cell]) caller ≤ cellDebt handles caller := by
  unfold cellDebt
  split
  · by_cases inside : caller.handle < handles.length
    · rw [List.getElem?_append_left inside]
    · rw [List.getElem?_eq_none (not_lt.mp inside)]
      unfold initDebt
      split <;> omega
  · exact le_rfl

theorem advanced_debt {handle : ℕ} {old cell : Cell} (found : handles[handle]? = some old)
    (closer : initDebt (some cell) < initDebt (some old)) (caller : Caller) :
    cellDebt (handles.set handle cell) caller ≤ cellDebt handles caller ∧
      (caller.handle = handle → caller.progress = .ensuring →
        cellDebt (handles.set handle cell) caller < cellDebt handles caller) := by
  rcases List.getElem?_eq_some_iff.mp found with ⟨inside, _⟩
  unfold cellDebt
  split
  · by_cases here : caller.handle = handle
    · rw [here, List.getElem?_set_self inside, found]
      exact ⟨closer.le, fun _ _ => closer⟩
    · rw [List.getElem?_set_ne (Ne.symm here)]
      exact ⟨le_rfl, fun same => absurd same here⟩
  · rename_i other
    exact ⟨le_rfl, fun _ place => absurd place (by simpa using other)⟩

theorem advanced_cells {handle : ℕ} {old cell : Cell}
    (found : desk.shared.system.handles[handle]? = some old)
    (closer : initDebt (some cell) < initDebt (some old)) (waits : awaited desk handle = true) :
    (desk.procs.map (cellDebt (desk.shared.system.handles.set handle cell))).sum <
      (desk.procs.map (cellDebt desk.shared.system.handles)).sum := by
  rcases awaited_iff.mp waits with ⟨caller, member, mine, place⟩
  exact List.sum_lt_sum _ _ (fun other _ => (advanced_debt found closer other).1)
    ⟨caller, member, (advanced_debt found closer caller).2 mine place⟩

theorem tended_lower (cells : (later.procs.map (cellDebt later.shared.system.handles)).sum ≤
      (desk.procs.map (cellDebt desk.shared.system.handles)).sum)
    (lower : deskRank attempts later < deskRank attempts desk) :
    tendedRank attempts later < tendedRank attempts desk := by
  rcases cells.lt_or_eq with fewer | same
  · exact Prod.Lex.toLex_lt_toLex.mpr (.inl fewer)
  · exact Prod.Lex.toLex_lt_toLex.mpr (.inr ⟨same, lower⟩)

theorem tended_eases (cells : (later.procs.map (cellDebt later.shared.system.handles)).sum ≤
      (desk.procs.map (cellDebt desk.shared.system.handles)).sum)
    (eased : deskRank attempts later ≤ deskRank attempts desk) :
    tendedRank attempts later ≤ tendedRank attempts desk :=
  Prod.Lex.toLex_mono ⟨cells, eased⟩

end Cells

theorem moves_cells {floor after : Floor n lru} {caller moved : Caller}
    (moves : Moves fromAscii config parse latest floor caller after moved) :
    after.system.handles = floor.system.handles := by
  cases moves with
  | offered _ _ _ submitted =>
      rcases system_step_submit.mp submitted with ⟨_, _, _, rfl⟩
      rfl
  | _ => rfl

theorem act_desk_lowers {desk later : Desk n lru} {index : ℕ} {label : CallLabel}
    (acted : act (callStep fromAscii config parse latest) desk index label = some later)
    (follows : ∀ caller ∈ desk.procs, Follows (attemptsFor config.maxRetries) caller) :
    deskRank (attemptsFor config.maxRetries) later <
      deskRank (attemptsFor config.maxRetries) desk := by
  rcases act_some acted with ⟨caller, floor, moved, found, stepped, rfl⟩
  have debts := weight_replaced moved (callDebt (attemptsFor config.maxRetries)) found
  have pays := moves_pay (call_step_moves stepped) (follows caller (List.mem_of_getElem? found))
  simp only [deskRank, Prod.Lex.toLex_lt_toLex]
  exact .inl (by omega)

theorem system_desk_eases (small : n ≤ 2 ^ 64) (attempts : ℕ) {desk : Desk n lru}
    {action : Action n} {system : System n} (exchanges : List (Exchange n))
    (hired : ∀ handle, action ≠ .finishInit handle)
    (free : ∀ handle query, action ≠ .submit handle query)
    (stepped : systemStep fromAscii config desk.shared.system action = some system) :
    let later : Desk n lru :=
      { desk with shared := { desk.shared with system := system, exchanges := exchanges } }
    deskRank attempts later ≤ deskRank attempts desk ∧
      ((∃ index label, action = .worker index label) →
        deskRank attempts later < deskRank attempts desk) := by
  intro later
  have same : system.dispatch = desk.shared.system.dispatch →
      deskRank attempts later = deskRank attempts desk := by
    intro unmoved
    simp only [deskRank, later, unmoved]
  have lifted : rank system.dispatch < rank desk.shared.system.dispatch →
      deskRank attempts later < deskRank attempts desk := by
    simp only [rank, deskRank, later, Prod.Lex.toLex_lt_toLex, Nat.add_lt_add_iff_right,
      Nat.add_right_cancel_iff]
    exact id
  cases action with
  | clone handle =>
      rcases Option.map_eq_some_iff.mp stepped with ⟨cell, _, rfl⟩
      exact ⟨(same rfl).le, by simp⟩
  | startInit handle =>
      simp only [systemStep] at stepped
      split at stepped <;> cases stepped
      exact ⟨(same rfl).le, by simp⟩
  | cancelInit handle =>
      simp only [systemStep] at stepped
      split at stepped <;> cases stepped
      exact ⟨(same rfl).le, by simp⟩
  | finishInit handle => exact absurd rfl (hired handle)
  | submit handle query => exact absurd rfl (free handle query)
  | worker index label =>
      rcases Option.map_eq_some_iff.mp stepped with ⟨dispatch, acted, rfl⟩
      have lower := lifted (worker_act_lowers small acted)
      exact ⟨lower.le, fun _ => lower⟩
  | around environment =>
      rcases system_step_around stepped with ⟨idle, shared, moved, rfl⟩
      refine ⟨?_, by simp⟩
      have eased := environment_step_eases moved idle
      simp only [rank, deskRank, later, Prod.Lex.toLex_le_toLex, Nat.add_lt_add_iff_right,
        Nat.add_right_cancel_iff] at eased ⊢
      exact eased

variable {permits : ℕ}

/-- No step in which no call is made and no initialiser dropped raises the rank, and a move
lowers it. -/
theorem desk_step_eases {desk later : Desk n lru} {event : DeskEvent n} (small : n ≤ 2 ^ 64)
    (sound : Sound permits config desk)
    (stepped : tendedStep fromAscii config parse latest desk event = some later)
    (settled : Settled event) :
    tendedRank (attemptsFor config.maxRetries) later ≤
        tendedRank (attemptsFor config.maxRetries) desk ∧
      (Tending event → tendedRank (attemptsFor config.maxRetries) later <
        tendedRank (attemptsFor config.maxRetries) desk) := by
  rcases tended_step stepped with ⟨stays, moved⟩
  have strictly : tendedRank (attemptsFor config.maxRetries) later <
      tendedRank (attemptsFor config.maxRetries) desk →
      tendedRank (attemptsFor config.maxRetries) later ≤
        tendedRank (attemptsFor config.maxRetries) desk ∧
      (Tending event → tendedRank (attemptsFor config.maxRetries) later <
        tendedRank (attemptsFor config.maxRetries) desk) :=
    fun lower => ⟨lower.le, fun _ => lower⟩
  cases event with
  | arrive handle host recordType => exact absurd rfl (settled.arrived handle host recordType)
  | call index label =>
      apply strictly
      refine tended_lower ?_ (act_desk_lowers moved fun caller member =>
        (sound.callers caller member).1)
      rcases act_some moved with ⟨caller, floor, next, found, moves, rfl⟩
      have moves := call_step_moves moves
      have debts := weight_replaced next (cellDebt desk.shared.system.handles) found
      rw [moved_on_debt (moves_on moves)] at debts
      simp only [moves_cells moves]
      omega
  | system action =>
      rcases desk_step_system moved with ⟨free, system, changed, rfl⟩
      have eases := fun hired => system_desk_eases small (attemptsFor config.maxRetries)
        (desk.shared.exchanges ++ noted desk.shared.system action) hired free changed
      cases action with
      | cancelInit handle => exact absurd rfl (settled.kept handle)
      | submit handle query => exact absurd rfl (free handle query)
      | startInit handle =>
          apply strictly (Prod.Lex.toLex_lt_toLex.mpr (.inl _))
          simp only [systemStep] at changed
          split at changed <;> cases changed
          rename_i empty
          exact advanced_cells empty (by decide) (by simpa [strays] using stays)
      | finishInit handle =>
          apply strictly (Prod.Lex.toLex_lt_toLex.mpr (.inl _))
          simp only [systemStep] at changed
          split at changed <;> cases changed
          rename_i busy
          exact advanced_cells busy (by decide) (by simpa [strays] using stays)
      | clone handle =>
          have eased := eases (by simp)
          rcases Option.map_eq_some_iff.mp changed with ⟨cell, _, rfl⟩
          refine ⟨tended_eases (List.sum_le_sum fun caller _ => cloned_debt _ caller) eased.1, ?_⟩
          simp [Tending, Moving]
      | worker index label =>
          have eased := eases (by simp)
          rcases Option.map_eq_some_iff.mp changed with ⟨dispatch, _, rfl⟩
          exact strictly (tended_lower le_rfl (eased.2 ⟨index, label, rfl⟩))
      | around environment =>
          have eased := eases (by simp)
          rcases system_step_around changed with ⟨_, shared, _, rfl⟩
          refine ⟨tended_eases le_rfl eased.1, ?_⟩
          simp [Tending, Moving]

/-- A step in which nobody moves changes neither the calls nor the work. -/
theorem still_step {desk later : Desk n lru} {event : DeskEvent n}
    (stepped : deskStep fromAscii config parse latest desk event = some later)
    (settled : Settled event) (still : ¬ Tending event) :
    later.procs = desk.procs ∧
      later.shared.system.dispatch.procs = desk.shared.system.dispatch.procs ∧
      later.shared.system.dispatch.shared.queue = desk.shared.system.dispatch.shared.queue := by
  cases event with
  | arrive handle host recordType => exact absurd rfl (settled.arrived handle host recordType)
  | call index label => exact absurd (.inl (.inl ⟨index, label, rfl⟩)) still
  | system action =>
      rcases desk_step_system stepped with ⟨free, system, moved, rfl⟩
      refine ⟨rfl, ?_⟩
      cases action with
      | clone handle =>
          rcases Option.map_eq_some_iff.mp moved with ⟨cell, _, rfl⟩
          exact ⟨rfl, rfl⟩
      | startInit handle => exact absurd (.inr ⟨handle, .inl rfl⟩) still
      | cancelInit handle => exact absurd rfl (settled.kept handle)
      | finishInit handle => exact absurd (.inr ⟨handle, .inr rfl⟩) still
      | submit handle query => exact absurd rfl (free handle query)
      | worker index label => exact absurd (.inl (.inr ⟨index, label, rfl⟩)) still
      | around environment =>
          rcases system_step_around moved with ⟨idle, shared, around, rfl⟩
          cases environment_step_surrounds around with
          | enqueues => exact absurd rfl (idle _)
          | leaves _ queue => exact ⟨rfl, queue⟩

theorem system_step_later {system after : System n} {action : Action n}
    (stepped : systemStep fromAscii config system action = some after) :
    system.dispatch.shared.nowNs ≤ after.dispatch.shared.nowNs := by
  cases action with
  | clone handle =>
      rcases Option.map_eq_some_iff.mp stepped with ⟨cell, _, rfl⟩
      exact le_rfl
  | startInit handle =>
      simp only [systemStep] at stepped
      split at stepped <;> cases stepped
      exact le_rfl
  | cancelInit handle =>
      simp only [systemStep] at stepped
      split at stepped <;> cases stepped
      exact le_rfl
  | finishInit handle =>
      simp only [systemStep] at stepped
      split at stepped <;> cases stepped
      exact le_rfl
  | submit handle query =>
      rcases system_step_submit.mp stepped with ⟨_, _, _, rfl⟩
      exact le_rfl
  | worker index label =>
      rcases Option.map_eq_some_iff.mp stepped with ⟨dispatch, acted, rfl⟩
      rcases act_some acted with ⟨_, _, _, _, moved, rfl⟩
      exact (worker_step_handles moved).2.nowNs.ge
  | around environment =>
      rcases system_step_around stepped with ⟨idle, shared, moved, rfl⟩
      cases environment_step_surrounds moved with
      | enqueues => exact absurd rfl (idle _)
      | leaves _ _ _ _ _ later => exact later

theorem desk_step_later {desk later : Desk n lru}
    (stepped : DeskSteps fromAscii config parse latest desk later) :
    desk.shared.nowNs ≤ later.shared.nowNs := by
  rcases desk_step_cases stepped with ⟨_, _, _, _, same⟩ | ⟨index, label, acted⟩ |
    ⟨action, system, _, moved, same⟩
  · rw [same]
    exact le_rfl
  · rcases act_some acted with ⟨caller, floor, moved, _, stepped, same⟩
    rw [same]
    cases call_step_moves stepped with
    | offered _ _ _ submitted => exact system_step_later submitted
    | _ => exact le_rfl
  · rw [same]
    exact system_step_later moved

/-- With the workers at rest, a call that has not ended can move, or its initialiser can. -/
theorem tended_enabled {desk : Desk n lru} (sound : Sound permits config desk)
    (drained : Drained desk.shared.system.dispatch) {caller : Caller} (member : caller ∈ desk.procs)
    (pending : ended caller = false) : TendedEnabled fromAscii config parse latest desk := by
  by_cases waits : caller.progress = .ensuring ∧ ¬ Used desk.shared.system caller
  · right
    rcases waits with ⟨place, unused⟩
    have ready := (sound.callers caller member).2
    simp only [Ready, place] at ready
    have here := List.getElem?_eq_getElem ready
    have stays : awaited desk caller.handle = true :=
      awaited_iff.mpr ⟨caller, member, rfl, place⟩
    refine ⟨caller.handle, ?_⟩
    cases cell : desk.shared.system.handles[caller.handle] with
    | empty =>
        rw [cell] at here
        refine ⟨.startInit caller.handle, by simp, ?_⟩
        simp [tendedStep, strays, stays, deskStep, systemStep, here]
    | initialising =>
        rw [cell] at here
        refine ⟨.finishInit caller.handle, by simp, ?_⟩
        simp [tendedStep, strays, stays, deskStep, systemStep, here]
    | set => exact absurd (here.trans (congrArg some cell)) unused
  · left
    right
    refine caller_enabled sound drained member (fun place => ?_) pending
    by_contra unused
    exact waits ⟨place, unused⟩

variable {inputs : ℕ → DeskEvent n} {states : ℕ → Desk n lru}

theorem fair_desk_clock (fair : FairDesk fromAscii config parse latest inputs states)
    {first last : ℕ} (order : first ≤ last) :
    (states first).shared.nowNs ≤ (states last).shared.nowNs :=
  monotone_nat_of_le_succ (f := fun time => (states time).shared.nowNs)
    (fun time => desk_step_later ⟨inputs time, (tended_step (fair.run time)).2⟩) order

variable (fair : FairDesk fromAscii config parse latest inputs states)

include fair

theorem fair_sound (start : Sound permits config (states 0)) (time : ℕ) :
    Sound permits config (states time) := by
  induction time with
  | zero => exact start
  | succ time ih => exact desk_step_sound ⟨inputs time, (tended_step (fair.run time)).2⟩ ih

theorem fair_desk_still {quiet : ℕ} (settled : ∀ time, quiet ≤ time → Settled (inputs time))
    (still : ∀ time, quiet ≤ time → ¬ Tending (inputs time)) {time : ℕ} (later : quiet ≤ time) :
    (states time).procs = (states quiet).procs ∧
      (states time).shared.system.dispatch.procs =
        (states quiet).shared.system.dispatch.procs ∧
      (states time).shared.system.dispatch.shared.queue =
        (states quiet).shared.system.dispatch.shared.queue := by
  induction time, later using Nat.le_induction with
  | base => exact ⟨rfl, rfl, rfl⟩
  | succ time later ih =>
      have unmoved := still_step (tended_step (fair.run time)).2 (settled time later)
        (still time later)
      exact ⟨unmoved.1.trans ih.1, unmoved.2.1.trans ih.2.1, unmoved.2.2.trans ih.2.2⟩

theorem fair_desk_ends (small : n ≤ 2 ^ 64) (some : 0 < permits)
    (start : Sound permits config (states 0)) :
    ∃ quiet, ∀ time, quiet ≤ time →
      (∀ caller ∈ (states time).procs, ended caller = true) ∧
        Drained (states time).shared.system.dispatch := by
  have sound := fair_sound fair start
  rcases fair.settles with ⟨since, settled⟩
  have eases := fun time later => desk_step_eases small (sound time) (fair.run time)
    (settled time later)
  rcases events_end_since (fun time => tendedRank (attemptsFor config.maxRetries) (states time))
    (fun time => Tending (inputs time)) since (fun time later => (eases time later).1)
    (fun time later => (eases time later).2) with ⟨quiet, begun, still⟩
  have calm := fun time later => settled time (begun.trans later)
  refine ⟨quiet, ?_⟩
  have halted : (∀ caller ∈ (states quiet).procs, ended caller = true) ∧
      Drained (states quiet).shared.system.dispatch := by
    by_contra left
    rcases sleepers_bounded (states quiet).shared.system.dispatch.procs with ⟨boundNs, bounded⟩
    rcases fair.passes boundNs with ⟨due, passed⟩
    have able : ∀ time, max quiet due ≤ time →
        TendedEnabled fromAscii config parse latest (states time) := by
      intro time later
      rcases max_le_iff.mp later with ⟨afterQuiet, afterDue⟩
      rcases fair_desk_still fair calm still afterQuiet with ⟨callers, procs, queue⟩
      by_cases drained : Drained (states time).shared.system.dispatch
      · -- the workers rest, so a call is left
        have pending : ¬ ∀ caller ∈ (states time).procs, ended caller = true := by
          intro all
          exact left ⟨callers ▸ all, queue ▸ drained.1, procs ▸ drained.2⟩
        push Not at pending
        rcases pending with ⟨caller, member, running⟩
        exact tended_enabled (sound time) drained member (Bool.eq_false_iff.mpr running)
      · left
        left
        apply work_left_enabled (sound time).serving.standing some _ drained
        intro item untilNs member
        exact (bounded item untilNs (procs ▸ member)).trans
          (passed.trans (fair_desk_clock fair afterDue))
    rcases fair.moves _ able with ⟨time, later, moved⟩
    exact still time (le_of_max_le_left later) moved
  intro time later
  rcases fair_desk_still fair calm still later with ⟨callers, procs, queue⟩
  exact ⟨callers ▸ halted.1, queue.trans halted.2.1, procs ▸ halted.2.2⟩

end Fair

/-- Under every schedule that keeps going, each call comes back, is dropped by its caller or
panics in the cache, and the workers come to rest. -/
theorem every_call_ends (fromAscii : String → Except ProtoError Wire) {host : Host}
    {texts : List String} {config : BlastDNSConfig} {client : BlastDNSClient}
    (accepted : withConfig host texts config = some (.ok client))
    (small : client.resolvers.length ≤ 2 ^ 64) {desk : Desk client.resolvers.length lru}
    (reached : Relation.ReflTransGen (DeskSteps fromAscii config parse latest)
      (newDesk lru client) desk)
    {inputs : ℕ → DeskEvent client.resolvers.length}
    {states : ℕ → Desk client.resolvers.length lru} (start : states 0 = desk)
    (fair : FairDesk fromAscii config parse latest inputs states) :
    ∃ settled, ∀ time, settled ≤ time →
      (∀ caller ∈ (states time).procs, (∃ result, caller.progress = .returned result) ∨
        caller.progress = .cancelled ∨ caller.progress = .panicked) ∧
      (states time).shared.system.dispatch.shared.queue = [] ∧
      ∀ phase ∈ (states time).shared.system.dispatch.procs, phase = .idle ∨ phase = .stopped := by
  rcases with_config_ok accepted with ⟨_, _, _, sameConfig, capacity⟩
  have sound : Sound (max client.config.maxInflightPerResolver 1) config desk := by
    rw [← sameConfig] at reached ⊢
    exact reachable_invariant (Sound (max client.config.maxInflightPerResolver 1) client.config)
      (fun _ _ kept stepped => desk_step_sound stepped kept) reached
      (new_desk_sound (by omega))
  rw [← start] at sound
  rcases fair_desk_ends fair small (by omega) sound with ⟨settled, ends⟩
  refine ⟨settled, ?_⟩
  intro time later
  rcases ends time later with ⟨calls, queue, workers⟩
  refine ⟨?_, queue, workers⟩
  intro caller member
  have done := calls caller member
  unfold ended at done
  split at done
  · rename_i result place
    exact .inl ⟨result, place⟩
  · rename_i place
    exact .inr (.inl place)
  · rename_i place
    exact .inr (.inr place)
  · cases done

section Rests

variable {last : Desk n lru}

def deskResting (desk : Desk n lru) : Bool :=
  resting desk.shared.system.dispatch && desk.procs.all ended

theorem desk_resting_not_enabled (rests : deskResting last = true) :
    ¬ TendedEnabled fromAscii config parse latest last := by
  simp only [deskResting, Bool.and_eq_true, List.all_eq_true] at rests
  rintro ((works | ⟨index, later, acted⟩) | ⟨handle, action, member, moves⟩)
  · exact resting_not_enabled rests.1 works
  · rcases act_some acted with ⟨caller, floor, moved, found, stepped, _⟩
    have done := rests.2 caller (List.mem_of_getElem? found)
    unfold ended at done
    simp only [callStep, proceedStep] at stepped
    split at done
    all_goals simp_all
  · -- nobody is left to run an initialiser
    have nobody : awaited last handle = false := by
      rw [Bool.eq_false_iff]
      intro waits
      rcases awaited_iff.mp waits with ⟨caller, inside, _, place⟩
      have done := rests.2 caller inside
      simp [ended, place] at done
    rcases List.mem_pair.mp member with rfl | rfl <;> simp [tendedStep, strays, nobody] at moves

def deskElapsed (desk : Desk n lru) (nanos : ℕ) : Desk n lru :=
  { desk with shared := { desk.shared with
    system := { desk.shared.system with
      dispatch := elapsed desk.shared.system.dispatch nanos } } }

/-- Any script that makes no call and leaves all of them at rest is the start of a fair run. -/
theorem fair_desk_after_script {first : Desk n lru} {script : List (DeskEvent n)}
    (settled : ∀ event ∈ script, Settled event)
    (played : script.foldlM (tendedStep fromAscii config parse latest) first = some last)
    (rests : deskResting last = true) :
    ∃ inputs states, states 0 = first ∧ FairDesk fromAscii config parse latest inputs states := by
  have waits : Run (tendedStep fromAscii config parse latest)
      (fun _ => .system (.around (.elapse 1))) (deskElapsed last) := by
    intro time
    simp [tendedStep, strays, deskStep, systemStep, dispatchTo, dispatchStep, environmentStep,
      deskElapsed, elapsed, noted, Nat.add_assoc]
  have reaches : script.foldlM (tendedStep fromAscii config parse latest) first =
      some (deskElapsed last 0) := played
  rcases run_after_replay (deskElapsed last) reaches waits with
    ⟨inputs, states, start, run, drawn, ends⟩
  refine ⟨inputs, states, start, run, ⟨0, ?_⟩, ?_, ?_⟩
  · intro time _
    rcases drawn time with inside | ⟨_, waiting⟩
    · exact settled _ inside
    · rw [waiting]
      exact ⟨by simp, by simp⟩
  · intro boundNs
    refine ⟨script.length + boundNs, ?_⟩
    rw [ends boundNs]
    exact Nat.le_add_left boundNs _
  · intro since able
    have stuck : ¬ TendedEnabled fromAscii config parse latest (states (script.length + since)) := by
      rw [ends since]
      exact desk_resting_not_enabled rests
    exact absurd (able _ (Nat.le_add_left since script.length)) stuck

end Rests

/-- The first call of a client runs the initialiser, and goes through to the end. -/
theorem every_call_ends_once :
    ∃ (inputs : ℕ → DeskEvent 1)
      (states : ℕ → Desk 1 (listed : LruCache (String × ℕ) CacheEntry)),
      (states 0).procs.length = 1 ∧ (states 0).shared.system.handles = [.empty] ∧
      FairDesk anyName narrowConfig some (10 ^ 30) inputs states ∧
      ∃ settled, ∀ caller ∈ (states settled).procs,
        (∃ result, caller.progress = .returned result) ∨ caller.progress = .cancelled ∨
          caller.progress = .panicked := by
  let script : List (DeskEvent 1) :=
    .system (.startInit 0) :: .system (.finishInit 0) ::
      List.replicate 3 (.call 0 .proceed) ++ List.replicate 10 (.system (.worker 0 .proceed)) ++
        .system (.worker 0 (.answer (.ok shortAnswer))) ::
          List.replicate 3 (.system (.worker 0 .proceed)) ++ List.replicate 4 (.call 0 .proceed)
  have ready : ([.arrive 0 "a.example" 1].foldlM (deskStep anyName narrowConfig some (10 ^ 30))
      (newDesk (listed : LruCache (String × ℕ) CacheEntry) narrowClient)).map
        (fun desk => (desk.procs.length, desk.shared.system.handles,
          (script.foldlM (tendedStep anyName narrowConfig some (10 ^ 30)) desk).map deskResting)) =
      some (1, [.empty], some true) := by
    decide
  rcases Option.map_eq_some_iff.mp ready with ⟨desk, replayed, seen⟩
  simp only [Prod.mk.injEq] at seen
  rcases seen with ⟨calls, handles, rested⟩
  rcases Option.map_eq_some_iff.mp rested with ⟨last, played, rests⟩
  have settles : ∀ event ∈ script, Settled event := by
    intro event member
    constructor
    · rintro handle host recordType rfl
      simp [script] at member
    · rintro handle rfl
      simp [script] at member
  rcases fair_desk_after_script settles played rests with ⟨inputs, states, start, fair⟩
  rcases every_call_ends anyName (plain_client_accepted rfl bare_texts rfl rfl) (by decide)
    (replay_reaches replayed) start fair with ⟨settled, ends⟩
  subst start
  exact ⟨inputs, states, calls, handles, fair, settled, (ends settled le_rfl).1⟩

end BlastDns.Calls
