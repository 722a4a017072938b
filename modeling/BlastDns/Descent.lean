import BlastDns.Accounting
import BlastDns.Reserve
import Mathlib.Algebra.Order.BigOperators.Group.Finset
import Mathlib.Data.Prod.Lex
import Mathlib.Order.WellFounded

/-!
Why the workers never run in circles. A worker that finds its entry benched or
dead goes back to `reserve`, so a single one may loop. It loops only when what
its last pass saw is out of date: an outcome was recorded, a sentence ended or
an entry died since. None of these can go on for ever without new work, and a
pass over an unchanged pool leads on. The one exception is a pass that begins
so near the end of the u64 cursor that its index sum wraps and leaves an entry
out; the cursor leaves that stretch with every pass begun in it.
-/

namespace BlastDns.Descent

open Accounting Crew Health NetText Reserve Worker

variable {n : ℕ}

section Sight

/-- All that decides how a pass goes on, permits apart. -/
def sight (shared : Shared n) (i : Fin n) : Bool × Bool × ℕ :=
  ((shared.pool i).active, (shared.pool i).isBenched shared.nowNs, (shared.pool i).benchedUntilNs)

variable {before after : Shared n} (same : sight after = sight before)

include same

theorem active_sighted (i : Fin n) : (after.pool i).active = (before.pool i).active :=
  congrArg Prod.fst (congrFun same i)

theorem benched_sighted (i : Fin n) :
    (after.pool i).isBenched after.nowNs = (before.pool i).isBenched before.nowNs :=
  congrArg (fun seen => seen.2.1) (congrFun same i)

theorem until_sighted (i : Fin n) :
    (after.pool i).benchedUntilNs = (before.pool i).benchedUntilNs :=
  congrArg (fun seen => seen.2.2) (congrFun same i)

theorem eligible_sighted (i : Fin n) : Eligible after i ↔ Eligible before i := by
  rw [Eligible, Eligible, active_sighted same, benched_sighted same]

theorem scanned_sighted (positive : 0 < n) (offset place : ℕ) :
    scanned positive after offset place = scanned positive before offset place := by
  induction place with
  | zero => rfl
  | succ place ih => simp only [scanned, ih, active_sighted same, benched_sighted same]

end Sight

section Settled

/-- A pass that has counted what it would count now, and that no index sum cuts short. -/
def Current (shared : Shared n) (scan : Scan n) : Prop :=
  scan.offset + n ≤ 2 ^ 64 ∧
    ∃ positive : 0 < n, scan = scanned positive shared scan.offset scan.next

/-- At an active entry of such a pass, which it has already counted. -/
def CurrentAt (shared : Shared n) (scan : Scan n) (i : Fin n) : Prop :=
  ∃ (positive : 0 < n) (earlier : Scan n), Current shared earlier ∧
    scan = { earlier with active := earlier.active + 1 } ∧
    i = entry positive (earlier.offset + earlier.next) ∧ (shared.pool i).active = true

/-- As long as the pool looks the same, this worker does not come back to `reserve`. -/
def StageSettled (shared : Shared n) : Stage n → Prop
  | .received | .pacing | .reserving => False
  | .visiting scan => Current shared scan
  | .checking scan i => CurrentAt shared scan i
  | .trying scan i => CurrentAt shared scan i ∧ Eligible shared i
  | .sleeping untilNs =>
      ∃ i, (shared.pool i).isBenched shared.nowNs = true ∧ (shared.pool i).benchedUntilNs = untilNs
  | .waiting i => Eligible shared i
  | .holding i .granted => Eligible shared i
  | .holding i .confirming => (shared.pool i).isBenched shared.nowNs = false
  | .holding _ _ => True

def Settled (shared : Shared n) : Phase n → Prop
  | .working _ stage => StageSettled shared stage
  | .idle | .stopped | .releasing _ => True

variable {before after : Shared n} (same : sight after = sight before)

include same

theorem current_sighted (scan : Scan n) : Current after scan ↔ Current before scan := by
  simp only [Current, scanned_sighted same]

theorem current_at_sighted (scan : Scan n) (i : Fin n) :
    CurrentAt after scan i ↔ CurrentAt before scan i := by
  simp only [CurrentAt, current_sighted same, active_sighted same]

theorem settled_sighted (phase : Phase n) : Settled after phase ↔ Settled before phase := by
  cases phase with
  | idle => exact Iff.rfl
  | stopped => exact Iff.rfl
  | releasing i => exact Iff.rfl
  | working item stage =>
      cases stage with
      | received => exact Iff.rfl
      | pacing => exact Iff.rfl
      | reserving => exact Iff.rfl
      | visiting scan => exact current_sighted same scan
      | checking scan i => exact current_at_sighted same scan i
      | trying scan i => exact and_congr (current_at_sighted same scan i) (eligible_sighted same i)
      | sleeping untilNs =>
          simp only [Settled, StageSettled, benched_sighted same, until_sighted same]
      | waiting i => exact eligible_sighted same i
      | holding i hold =>
          cases hold
          case granted => exact eligible_sighted same i
          case confirming => simp only [Settled, StageSettled, benched_sighted same]
          all_goals exact Iff.rfl

end Settled

section Rank

/-- Recordings and answers still to come of what one worker carries. -/
def debt : Phase n → ℕ
  | .working _ (.holding _ (.recorded _)) => 1
  | .working _ _ => 2
  | .idle | .stopped | .releasing _ => 0

def queueDebt (shared : Shared n) : ℕ := 3 * shared.queue.length

/-- Entries that can still die, and sentences that can still end. -/
def obstacles (shared : Shared n) : ℕ :=
  ∑ i, ((shared.pool i).active.toNat + ((shared.pool i).isBenched shared.nowNs).toNat)

/-- How far the cursor is from passes that leave no entry out. -/
def hurdle (shared : Shared n) : ℕ :=
  if shared.cursor + n ≤ 2 ^ 64 then 0 else 2 ^ 64 - shared.cursor % 2 ^ 64

def holdPosition : Hold → ℕ
  | .recorded _ => 3
  | .completed _ _ => 4
  | .refetching _ _ => 5
  | .arrived _ _ => 6
  | .querying _ => 7
  | .ready => 8
  | .rated => 9
  | .reserved => 10
  | .confirming => 12
  | .granted => 13

/-- Steps of the straight-line code that are left, at most. -/
def position : Phase n → ℕ
  | .stopped => 0
  | .idle => 1
  | .releasing _ => 2
  | .working _ (.holding _ hold) => holdPosition hold
  | .working _ .reserving => 11
  | .working _ .pacing => 12
  | .working _ .received => 13
  | .working _ (.waiting _) | .working _ (.sleeping _) => 14
  | .working _ (.visiting scan) => 15 + 3 * (n - scan.next)
  | .working _ (.checking scan _) => 17 + 3 * (n - scan.next - 1)
  | .working _ (.trying scan _) => 16 + 3 * (n - scan.next - 1)

end Rank

section Passes

variable {shared : Shared n} {scan : Scan n} {i : Fin n}

theorem current_begins (positive : 0 < n) {offset : ℕ} (fits : offset + n ≤ 2 ^ 64) :
    Current shared { offset := offset } :=
  ⟨fits, positive, rfl⟩

theorem current_selected (current : Current shared scan) (room : scan.next < n) :
    Shared.selected scan (Nat.zero_lt_of_lt room) =
      entry (Nat.zero_lt_of_lt room) (scan.offset + scan.next) := by
  have fits := current.1
  apply Fin.ext
  change (scan.offset + scan.next) % 2 ^ 64 % n = (scan.offset + scan.next) % n
  rw [Nat.mod_eq_of_lt (by omega : scan.offset + scan.next < 2 ^ 64)]

theorem current_passes_dead (current : Current shared scan) (room : scan.next < n)
    (dead : (shared.pool (Shared.selected scan (Nat.zero_lt_of_lt room))).active = false) :
    Current shared { scan with next := scan.next + 1 } := by
  rw [current_selected current room] at dead
  rcases current with ⟨fits, positive, counted⟩
  refine ⟨fits, positive, ?_⟩
  change _ = scanned positive shared scan.offset (scan.next + 1)
  rw [scanned_dead dead, ← counted]

theorem current_meets (current : Current shared scan) (room : scan.next < n)
    (alive : (shared.pool (Shared.selected scan (Nat.zero_lt_of_lt room))).active = true) :
    CurrentAt shared { scan with active := scan.active + 1 }
      (Shared.selected scan (Nat.zero_lt_of_lt room)) :=
  ⟨Nat.zero_lt_of_lt room, scan, current, rfl, current_selected current room, alive⟩

theorem current_passes_benched (current : CurrentAt shared scan i)
    (sits : (shared.pool i).isBenched shared.nowNs = true) :
    Current shared { scan with benched := scan.benched + 1, next := scan.next + 1 } := by
  rcases current with ⟨_, earlier, ⟨fits, positive, counted⟩, rfl, rfl, alive⟩
  refine ⟨fits, positive, ?_⟩
  change _ = scanned positive shared earlier.offset (earlier.next + 1)
  rw [scanned_benched alive sits, ← counted]

theorem current_passes_full (current : CurrentAt shared scan i) (fit : Eligible shared i) :
    Current shared { scan with waitable := scan.waitable.or (some i), next := scan.next + 1 } := by
  rcases current with ⟨_, earlier, ⟨fits, positive, counted⟩, rfl, rfl, alive⟩
  refine ⟨fits, positive, ?_⟩
  change _ = scanned positive shared earlier.offset (earlier.next + 1)
  rw [scanned_eligible fit, ← counted]

/-- A pass that has come round tells what it counted of every entry. -/
theorem current_counted (current : Current shared scan) (past : ¬ scan.next < n) :
    (scan.active = 0 ↔ ∀ i, (shared.pool i).active = false) ∧
    (scan.benched = scan.active ↔ ∀ i, ¬ Eligible shared i) ∧
    (∀ i, scan.waitable = some i → Eligible shared i) ∧
    (scan.waitable = none → ∀ i, ¬ Eligible shared i) := by
  rcases current with ⟨fits, positive, counted⟩
  have tells := scanned_counted positive shared scan.offset scan.next
  have everywhere : ∀ wanted : Fin n → Prop,
      (∀ step < scan.next, wanted (entry positive (scan.offset + step))) ↔ ∀ i, wanted i := by
    intro wanted
    constructor
    · intro all i
      rcases rotation_covers positive scan.offset i with ⟨step, inside, here⟩
      exact here ▸ all step (Nat.lt_of_lt_of_le inside (Nat.le_of_not_lt past))
    · exact fun all step _ => all _
  refine ⟨?_, ?_, ?_, ?_⟩
  · rw [← everywhere fun i => (shared.pool i).active = false, ← tells.active, ← counted]
  · rw [← everywhere fun i => ¬ Eligible shared i, ← tells.benched, ← counted]
  · intro i found
    rcases tells.waitable i (counted ▸ found) with ⟨_, _, _, fit, _⟩
    exact fit
  · intro none
    rw [← everywhere fun i => ¬ Eligible shared i]
    exact tells.alone (counted ▸ none)

/-- The sleep of such a pass ends with the sentence of an entry that sits now. -/
theorem first_eligible_benched (alive : ∃ i, (shared.pool i).active = true)
    (benched : ∀ i, ¬ Eligible shared i) :
    ∃ i, (shared.pool i).isBenched shared.nowNs = true ∧
      (shared.pool i).benchedUntilNs = shared.firstEligible := by
  rcases (first_eligible_least alive).1 with ⟨i, active, least⟩
  refine ⟨i, ?_, least⟩
  have why : (shared.pool i).active = false ∨ _ ∨ Eligible shared i := entry_cases i
  rcases why with dead | ⟨_, sits⟩ | fit
  · exact absurd (active.symm.trans dead) (by decide)
  · exact sits
  · exact absurd fit (benched i)

end Passes

section Steps

variable {Name : Type} {fromAscii : String → Except ProtoError Name}
variable {shared after : Shared n} {old new : Phase n}

/-- A step pays off debt, or leaves the pool as it looks and brings its worker on. -/
inductive Descends (shared after : Shared n) (old new : Phase n) : Prop
  | paid (less : queueDebt after + debt new < queueDebt shared + debt old)
  | moved (owed : queueDebt after + debt new = queueDebt shared + debt old)
      (same : sight after = sight shared) (settled : Settled shared old → Settled after new)
      (on : (¬ Settled shared old ∧ Settled after new) ∨ hurdle after < hurdle shared ∨
        (hurdle after = hurdle shared ∧ position new < position old))

theorem descends_walked {item : WorkItem} {stage next : Stage n}
    (free : unheld stage = true) (freeNext : unheld next = true)
    (settled : StageSettled shared stage → StageSettled shared next)
    (lower : position (.working item next) < position (.working item stage)) :
    Descends shared shared (.working item stage) (.working item next) := by
  have owed : debt (.working item next) = debt (.working item stage) := by
    cases stage
    case holding => cases free
    all_goals
      cases next
      case holding => cases freeNext
      all_goals rfl
  exact .moved (by rw [owed]) rfl settled (.inr (.inr ⟨rfl, lower⟩))

theorem descends_rejected {item : WorkItem} {stage : Stage n} {result : Answer}
    (free : unheld stage = true) :
    Descends shared (shared.respond item result) (.working item stage) .idle := by
  apply Descends.paid
  have owed : debt (.working item stage) = 2 := by
    cases stage
    case holding => cases free
    all_goals rfl
  rw [owed]
  simp [debt, queueDebt, Shared.respond]

theorem sight_entry {i : Fin n} {health : ResolverHealth}
    (active : health.active = (shared.pool i).active)
    (sentence : health.benchedUntilNs = (shared.pool i).benchedUntilNs) :
    sight (shared.setResolver i health) = sight shared := by
  funext j
  by_cases here : j = i
  · subst here
    simp only [sight, set_resolver_same, ResolverHealth.isBenched, active, sentence]
    rfl
  · simp only [sight, set_resolver_other shared here]
    rfl

/-- The steps that touch one entry's permits or counters only. -/
theorem descends_entry {i : Fin n} {health : ResolverHealth}
    (active : health.active = (shared.pool i).active)
    (sentence : health.benchedUntilNs = (shared.pool i).benchedUntilNs)
    (owed : debt new = debt old) (settled : Settled shared old → Settled shared new)
    (lower : position new < position old) :
    Descends shared (shared.setResolver i health) old new := by
  have same := sight_entry active sentence
  refine .moved ?_ same ?_ (.inr (.inr ⟨rfl, lower⟩))
  · rw [owed]
    rfl
  · exact fun standing => (settled_sighted same new).mpr (settled standing)

theorem after_scan_descends (shared : Shared n) (item : WorkItem) {scan : Scan n}
    (past : ¬ scan.next < n) :
    Descends shared (afterScan shared item scan).1 (.working item (.visiting scan))
      (afterScan shared item scan).2 := by
  have lower : ∀ next, next = 14 ∨ next = 11 →
      next < position (.working item (.visiting scan)) := by
    intro next low
    simp only [position]
    omega
  rw [afterScan]
  split
  · exact descends_rejected rfl
  · rename_i some
    split
    · rename_i all
      refine descends_walked rfl rfl ?_ (lower 14 (.inl rfl))
      intro current
      have tells := current_counted current past
      have alive : ∃ i, (shared.pool i).active = true := by
        simpa using mt tells.1.mpr some
      exact first_eligible_benched alive (tells.2.1.mp all)
    · rename_i most
      split
      · rename_i i found
        refine descends_walked rfl rfl ?_ (lower 14 (.inl rfl))
        exact fun current => (current_counted current past).2.2.1 i found
      · rename_i nobody
        refine descends_walked rfl rfl ?_ (lower 11 (.inr rfl))
        -- an accurate pass that saw nobody to wait for saw all of them benched
        intro current
        have tells := current_counted current past
        exact most (tells.2.1.mpr (tells.2.2.2 nobody))

theorem hurdle_falls (small : n ≤ 2 ^ 64) (wraps : ¬ shared.cursor + n ≤ 2 ^ 64) :
    hurdle { shared with cursor := (shared.cursor + 1) % 2 ^ 64 } < hurdle shared := by
  have bound := Nat.mod_lt shared.cursor (by omega : 0 < 2 ^ 64)
  have turn : (shared.cursor + 1) % 2 ^ 64 = shared.cursor % 2 ^ 64 + 1 ∨
      shared.cursor % 2 ^ 64 = 2 ^ 64 - 1 ∧ (shared.cursor + 1) % 2 ^ 64 = 0 := by omega
  simp only [hurdle, wraps, if_false]
  rcases turn with ahead | ⟨last, zero⟩
  · rw [ahead]
    split <;> omega
  · rw [zero]
    split <;> omega

theorem pass_descends {item : WorkItem} (small : n ≤ 2 ^ 64) (positive : 0 < n) :
    Descends shared { shared with cursor := (shared.cursor + 1) % 2 ^ 64 }
      (.working item .reserving) (.working item (.visiting { offset := shared.cursor })) := by
  refine .moved rfl rfl False.elim ?_
  by_cases fits : shared.cursor + n ≤ 2 ^ 64
  · exact .inl ⟨id, current_begins positive fits⟩
  · exact .inr (.inl (hurdle_falls small fits))

theorem stage_step_descends (small : n ≤ 2 ^ 64) {item : WorkItem} {stage : Stage n}
    (stepped : stageStep fromAscii shared item stage = some (after, new)) :
    Descends shared after (.working item stage) new := by
  cases stage with
  | received =>
      simp only [stageStep] at stepped
      split at stepped <;> cases stepped
      · exact descends_walked rfl rfl False.elim (by simp [position])
      · exact descends_rejected rfl
  | pacing =>
      cases stepped
      exact descends_walked rfl rfl False.elim (by simp [position])
  | reserving =>
      simp only [stageStep] at stepped
      split at stepped <;> cases stepped
      · exact descends_rejected rfl
      · rename_i some
        exact pass_descends small (Nat.pos_of_ne_zero some)
  | visiting scan =>
      simp only [stageStep] at stepped
      split at stepped
      · rename_i room
        split at stepped <;> cases stepped
        · rename_i alive
          refine descends_walked rfl rfl ?_ ?_
          · exact fun current => current_meets current room alive
          · simp only [position]
            omega
        · rename_i dead
          refine descends_walked rfl rfl ?_ ?_
          · exact fun current => current_passes_dead current room (Bool.eq_false_iff.mpr dead)
          · simp only [position]
            omega
      · rename_i past
        rw [Option.some.injEq] at stepped
        have scanned := after_scan_descends shared item past
        rwa [stepped] at scanned
  | checking scan i =>
      simp only [stageStep] at stepped
      split at stepped <;> cases stepped
      · rename_i sits
        refine descends_walked rfl rfl ?_ ?_
        · exact fun current => current_passes_benched current sits
        · simp only [position]
          omega
      · rename_i stands
        refine descends_walked rfl rfl ?_ (by simp [position])
        rintro ⟨positive, earlier, current, counted, here, alive⟩
        exact ⟨⟨positive, earlier, current, counted, here, alive⟩, alive,
          Bool.eq_false_iff.mpr stands⟩
  | trying scan i =>
      simp only [stageStep] at stepped
      split at stepped
      · rename_i taken acquired
        cases stepped
        rw [(try_acquire_some acquired).2]
        refine descends_entry rfl rfl rfl (fun _ => trivial) ?_
        simp only [position, holdPosition]
        omega
      · cases stepped
        refine descends_walked rfl rfl ?_ ?_
        · exact fun current => current_passes_full current.1 current.2
        · simp only [position]
          omega
  | sleeping untilNs =>
      simp only [stageStep] at stepped
      split at stepped <;> cases stepped
      rename_i due
      refine descends_walked rfl rfl ?_ (by simp [position])
      rintro ⟨i, sits, ends⟩
      simp only [ResolverHealth.isBenched, decide_eq_true_eq, ends] at sits
      omega
  | waiting i =>
      rcases Option.map_eq_some_iff.mp stepped with ⟨taken, acquired, same⟩
      cases same
      rw [(try_acquire_some acquired).2]
      exact descends_entry rfl rfl rfl id (by simp [position, holdPosition])
  | holding i hold => cases stepped

/-- What a worker does with its permit: keep it and go on, record an outcome, give
the permit back because its entry no longer serves, or answer. -/
theorem hold_step_cases {health next : ResolverHealth} {nowNs : ℕ} {hold : Hold} {label : Label}
    {held : Held} (stepped : holdStep health nowNs hold label = some (next, held)) :
    (∃ later, held = .keep later ∧ next.active = health.active ∧
      next.benchedUntilNs = health.benchedUntilNs ∧ holdPosition later < holdPosition hold ∧
      (∀ result, later ≠ .recorded result) ∧ (∀ result, hold ≠ .recorded result) ∧
      (later = .confirming → hold = .granted) ∧ later ≠ .granted) ∨
    (∃ result, held = .keep (.recorded result) ∧ ∀ other, hold ≠ .recorded other) ∨
    (held = .drop ∧ next = health ∧
      (hold = .granted ∧ health.active = false ∨
        hold = .confirming ∧ health.isBenched nowNs = true)) ∨
    ∃ result, held = .respond result ∧ hold = .recorded result := by
  unfold holdStep at stepped
  split at stepped
  · cases alive : health.active with
    | true =>
        simp only [alive, if_true] at stepped
        cases stepped
        exact .inl ⟨.confirming, rfl, alive, rfl, by simp [holdPosition], by simp, by simp, by simp,
          by simp⟩
    | false =>
        simp only [alive, Bool.false_eq_true, if_false] at stepped
        cases stepped
        exact .inr (.inr (.inl ⟨rfl, rfl, .inl ⟨rfl, rfl⟩⟩))
  · cases sits : health.isBenched nowNs with
    | true =>
        simp only [sits, if_true] at stepped
        cases stepped
        exact .inr (.inr (.inl ⟨rfl, rfl, .inr ⟨rfl, rfl⟩⟩))
    | false =>
        simp only [sits, Bool.false_eq_true, if_false] at stepped
        cases stepped
        exact .inl ⟨.reserved, rfl, rfl, rfl, by simp [holdPosition], by simp, by simp, by simp,
          by simp⟩
  · cases stepped
    exact .inl ⟨.rated, rfl, rfl, rfl, by simp [holdPosition], by simp, by simp, by simp, by simp⟩
  · cases stepped
    exact .inl ⟨.ready, rfl, rfl, rfl, by simp [holdPosition], by simp, by simp, by simp, by simp⟩
  · cases stepped
    exact .inl ⟨.querying nowNs, rfl, rfl, rfl, by simp [holdPosition], by simp, by simp, by simp,
      by simp⟩
  · cases stepped
    exact .inl ⟨_, rfl, rfl, rfl, by simp [holdPosition], by simp, by simp, by simp, by simp⟩
  · split at stepped
    · cases stepped
      exact .inl ⟨_, rfl, rfl, rfl, by simp [holdPosition], by simp, by simp, by simp, by simp⟩
    · cases stepped
      exact .inr (.inl ⟨_, rfl, by simp⟩)
  · cases stepped
    exact .inr (.inl ⟨_, rfl, by simp⟩)
  · cases stepped
    exact .inl ⟨_, rfl, rfl, rfl, by simp [holdPosition], by simp, by simp, by simp, by simp⟩
  · cases stepped
    exact .inr (.inl ⟨_, rfl, by simp⟩)
  · cases stepped
    exact .inr (.inr (.inr ⟨_, rfl, rfl⟩))
  · cases stepped

theorem debt_holding {item : WorkItem} {i : Fin n} {hold : Hold}
    (pending : ∀ result, hold ≠ .recorded result) :
    debt (.working item (.holding i hold)) = 2 := by
  cases hold
  case recorded result => exact absurd rfl (pending result)
  all_goals rfl

theorem kept_settled {item : WorkItem} {i : Fin n} {hold later : Hold}
    (confirmed : later = .confirming → hold = .granted) (past : later ≠ .granted)
    (settled : Settled shared (.working item (.holding i hold))) :
    Settled shared (.working item (.holding i later)) := by
  cases later
  case granted => exact absurd rfl past
  case confirming =>
    cases confirmed rfl
    exact settled.2
  all_goals trivial

theorem hold_step_descends {item : WorkItem} {i : Fin n} {hold : Hold} {label : Label}
    (stepped : workerStep fromAscii shared (.working item (.holding i hold)) label =
      some (after, new)) :
    Descends shared after (.working item (.holding i hold)) new := by
  rcases Option.map_eq_some_iff.mp stepped with ⟨⟨health, held⟩, moved, same⟩
  rcases hold_step_cases moved with ⟨later, rfl, active, sentence, lower, early, pending,
    confirmed, past⟩ | ⟨result, rfl, pending⟩ | ⟨rfl, rfl, stale⟩ | ⟨result, rfl, rfl⟩
  · cases same
    refine descends_entry active sentence ?_ (kept_settled confirmed past) lower
    rw [debt_holding early, debt_holding pending]
  · cases same
    apply Descends.paid
    rw [debt_holding pending]
    simp [debt, queueDebt, Shared.setResolver]
  · cases same
    refine descends_entry rfl rfl ?_ ?_ ?_
    · rcases stale with ⟨rfl, _⟩ | ⟨rfl, _⟩ <;> rfl
    · intro settled
      rcases stale with ⟨rfl, dead⟩ | ⟨rfl, sits⟩
      · exact absurd (settled.1.symm.trans dead) (by decide)
      · exact absurd (sits.symm.trans settled) (by decide)
    · rcases stale with ⟨rfl, _⟩ | ⟨rfl, _⟩ <;> simp [position, holdPosition]
  · cases same
    apply Descends.paid
    simp [debt, queueDebt, Shared.setResolver, Shared.respond]

/-- The step lemma: whatever a worker does, it comes closer to its end. -/
theorem worker_step_descends (small : n ≤ 2 ^ 64) {label : Label}
    (stepped : workerStep fromAscii shared old label = some (after, new)) :
    Descends shared after old new := by
  cases old with
  | idle =>
      cases label with
      | proceed =>
          simp only [workerStep] at stepped
          split at stepped
          · rename_i item rest waiting
            cases stepped
            apply Descends.paid
            simp only [queueDebt, waiting, List.length_cons, debt]
            omega
          · split at stepped <;> cases stepped
            exact .moved rfl rfl (fun _ => trivial) (.inr (.inr ⟨rfl, by simp [position]⟩))
      | answer result => cases stepped
      | refetched full => cases stepped
  | stopped => cases stepped
  | working item stage =>
      cases stage
      case holding i hold => exact hold_step_descends stepped
      all_goals
        cases label
        · rw [worker_step_unheld rfl] at stepped
          exact stage_step_descends small stepped
        · cases stepped
        · cases stepped
  | releasing i =>
      cases label <;> cases stepped
      exact descends_entry rfl rfl rfl (fun _ => trivial) (by simp [position])

end Steps

section Crews

variable {Name : Type} {fromAscii : String → Except ProtoError Name}
variable {dispatch after : Dispatch n}

open Classical in
/-- One for a worker whose last look at the pool is out of date. -/
noncomputable def unsettled (shared : Shared n) (phase : Phase n) : ℕ :=
  if Settled shared phase then 0 else 1

def owed (dispatch : Dispatch n) : ℕ :=
  queueDebt dispatch.shared + (dispatch.procs.map debt).sum

/-- What can still change about the pool, then who has to look again, then the cursor,
then the code that is left. -/
noncomputable def ground (dispatch : Dispatch n) : ℕ ×ₗ ℕ ×ₗ ℕ ×ₗ ℕ :=
  toLex (obstacles dispatch.shared,
    toLex ((dispatch.procs.map (unsettled dispatch.shared)).sum,
      toLex (hurdle dispatch.shared, (dispatch.procs.map position).sum)))

noncomputable def rank (dispatch : Dispatch n) : ℕ ×ₗ ℕ ×ₗ ℕ ×ₗ ℕ ×ₗ ℕ :=
  toLex (owed dispatch, ground dispatch)

theorem obstacles_sighted {before after : Shared n} (same : sight after = sight before) :
    obstacles after = obstacles before := by
  simp only [obstacles, active_sighted same, benched_sighted same]

theorem unsettled_sighted {before after : Shared n} (same : sight after = sight before) :
    unsettled after = unsettled before := by
  classical
  funext phase
  exact if_congr (settled_sighted same phase) rfl rfl

theorem worker_act_lowers (small : n ≤ 2 ^ 64) {index : ℕ} {label : Label}
    (acted : act (workerStep fromAscii) dispatch index label = some after) :
    rank after < rank dispatch := by
  rcases act_some acted with ⟨old, shared, new, found, stepped, rfl⟩
  have debts := weight_replaced new debt found
  have positions := weight_replaced new position found
  simp only [rank, owed, ground, Prod.Lex.toLex_lt_toLex]
  cases worker_step_descends small stepped with
  | paid less => exact .inl (by omega)
  | moved owed same settled on =>
      have looks := weight_replaced new (unsettled dispatch.shared) found
      rw [obstacles_sighted same, unsettled_sighted same]
      refine .inr ⟨by omega, .inr ⟨rfl, ?_⟩⟩
      have again : ∀ phase, unsettled shared phase = unsettled dispatch.shared phase :=
        congrFun (unsettled_sighted same)
      rcases on with ⟨stale, fresh⟩ | rest
      · have one : unsettled dispatch.shared old = 1 := if_neg stale
        have zero : unsettled dispatch.shared new = 0 := (again new).symm.trans (if_pos fresh)
        exact .inl (by omega)
      · have fewer : unsettled dispatch.shared new ≤ unsettled dispatch.shared old := by
          rw [← again new, unsettled, unsettled]
          by_cases standing : Settled dispatch.shared old
          · rw [if_pos (settled standing)]
            exact Nat.zero_le _
          · rw [if_neg standing]
            split <;> omega
        by_cases even : unsettled dispatch.shared new = unsettled dispatch.shared old
        · refine .inr ⟨by omega, ?_⟩
          rcases rest with nearer | ⟨level, lower⟩
          · exact .inl nearer
          · exact .inr ⟨level, by omega⟩
        · exact .inl (by omega)

theorem rank_eased {shared : Shared n} (queue : shared.queue = dispatch.shared.queue)
    (cursor : shared.cursor = dispatch.shared.cursor)
    (eased : sight shared = sight dispatch.shared ∨ obstacles shared < obstacles dispatch.shared) :
    rank { dispatch with shared := shared } ≤ rank dispatch := by
  simp only [rank, owed, ground, Prod.Lex.toLex_le_toLex, queueDebt, queue, hurdle, cursor, lt_irrefl, true_and,
    false_or]
  rcases eased with same | fewer
  · rw [obstacles_sighted same, unsettled_sighted same]
    exact .inr ⟨rfl, .inr ⟨rfl, le_rfl⟩⟩
  · exact .inl fewer

/-- Time ends sentences and begins none. -/
theorem elapse_eases (shared : Shared n) (nanos : ℕ) :
    sight { shared with nowNs := shared.nowNs + nanos } = sight shared ∨
      obstacles { shared with nowNs := shared.nowNs + nanos } < obstacles shared := by
  have ends : ∀ i, (shared.pool i).isBenched (shared.nowNs + nanos) = true →
      (shared.pool i).isBenched shared.nowNs = true := by
    intro i
    simp only [ResolverHealth.isBenched, decide_eq_true_eq]
    omega
  by_cases steady : ∀ i, (shared.pool i).isBenched (shared.nowNs + nanos) =
      (shared.pool i).isBenched shared.nowNs
  · left
    funext i
    simp only [sight, steady i]
  · right
    rcases not_forall.mp steady with ⟨i, freed⟩
    apply Finset.sum_lt_sum
    · intro j _
      apply Nat.add_le_add_left
      cases sits : (shared.pool j).isBenched (shared.nowNs + nanos) with
      | false => exact Nat.zero_le _
      | true => rw [ends j sits]
    · refine ⟨i, Finset.mem_univ i, Nat.add_lt_add_left ?_ _⟩
      cases later : (shared.pool i).isBenched (shared.nowNs + nanos) with
      | true => exact absurd (later.trans (ends i later).symm) freed
      | false =>
          cases sat : (shared.pool i).isBenched shared.nowNs with
          | true => simp
          | false => exact absurd (later.trans sat.symm) freed

theorem death_eases (shared : Shared n) (i : Fin n) :
    sight (shared.setResolver i { shared.pool i with active := false }) = sight shared ∨
      obstacles (shared.setResolver i { shared.pool i with active := false }) <
        obstacles shared := by
  cases alive : (shared.pool i).active with
  | false => exact .inl (sight_entry alive.symm rfl)
  | true =>
      right
      have bench : (shared.setResolver i { shared.pool i with active := false }).nowNs =
        shared.nowNs := rfl
      apply Finset.sum_lt_sum
      · intro j _
        by_cases here : j = i
        · subst here
          rw [set_resolver_same, bench]
          simp [ResolverHealth.isBenched]
        · rw [set_resolver_other shared here, bench]
      · refine ⟨i, Finset.mem_univ i, ?_⟩
        rw [set_resolver_same, bench, alive]
        simp [ResolverHealth.isBenched]

theorem environment_step_eases {environment : Environment n} {shared : Shared n}
    (stepped : environmentStep dispatch.shared environment = some shared)
    (idle : ∀ query, environment ≠ .enqueue query) :
    rank { dispatch with shared := shared } ≤ rank dispatch := by
  cases environment with
  | enqueue query => exact absurd rfl (idle query)
  | close =>
      cases stepped
      exact rank_eased rfl rfl (.inl rfl)
  | elapse nanos =>
      cases stepped
      exact rank_eased rfl rfl (elapse_eases _ nanos)
  | probeFailed i =>
      cases stepped
      exact rank_eased rfl rfl (death_eases _ i)
  | setRate i queriesPerSecond =>
      rcases Option.map_eq_some_iff.mp stepped with ⟨limiter, _, same⟩
      cases same
      exact rank_eased rfl rfl (.inl (sight_entry rfl rfl))

end Crews

end BlastDns.Descent
