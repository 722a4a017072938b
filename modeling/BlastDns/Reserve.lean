import BlastDns.Worker
import Mathlib.Algebra.BigOperators.Fin
import Mathlib.Logic.Relation
import Mathlib.Order.Bounds.Basic

/-!
One call of `reserve` that nobody interferes with, and many of them in a row. A
pass visits every entry of the pool once, in rotation order from where the
cursor stood, and takes the first that is active, not benched and has a permit
to give. What it has counted when it found none decides what happens instead.
-/

namespace BlastDns.Reserve

open Health NetText Worker

variable {n : ℕ} {Name : Type} {fromAscii : String → Except ProtoError Name}

section Passes

/-- Inside a pass: no await, and no result yet. -/
def scanning : Phase n → Bool
  | .working _ .reserving | .working _ (.visiting _) | .working _ (.checking _ _)
  | .working _ (.trying _ _) => true
  | _ => false

def ScanStep (fromAscii : String → Except ProtoError Name) (before after : Shared n × Phase n) :
    Prop :=
  scanning before.2 = true ∧ workerStep fromAscii before.1 before.2 .proceed = some after

/-- One pass of `reserve` alone comes to this. -/
def Returns (fromAscii : String → Except ProtoError Name) (shared : Shared n) (item : WorkItem)
    (result : Shared n × Phase n) : Prop :=
  Relation.ReflTransGen (ScanStep fromAscii) (shared, .working item .reserving) result ∧
    scanning result.2 = false

/-- A pass has one result. -/
theorem returns_unique {shared : Shared n} {item : WorkItem} {result other : Shared n × Phase n}
    (returned : Returns fromAscii shared item result)
    (also : Returns fromAscii shared item other) : result = other := by
  have unique : Relator.RightUnique (ScanStep (n := n) fromAscii) := by
    rintro before first second ⟨_, one⟩ ⟨_, two⟩
    exact Option.some.inj (one.symm.trans two)
  have ended : ∀ {last next : Shared n × Phase n}, scanning last.2 = false →
      Relation.ReflTransGen (ScanStep fromAscii) last next → last = next := by
    intro last next done more
    rcases more.cases_head with same | ⟨_, ⟨busy, _⟩, _⟩
    · exact same
    · exact absurd (busy.symm.trans done) (by decide)
  rcases returned.1.total_of_right_unique unique also.1 with on | on
  · exact ended returned.2 on
  · exact (ended also.2 on).symm

/-- The resolver at this place of the rotation. -/
def entry (positive : 0 < n) (place : ℕ) : Fin n := ⟨place % n, Nat.mod_lt _ positive⟩

def Eligible (shared : Shared n) (i : Fin n) : Prop :=
  (shared.pool i).active = true ∧ (shared.pool i).isBenched shared.nowNs = false

def Free (shared : Shared n) (i : Fin n) : Prop :=
  Eligible shared i ∧ 0 < (shared.pool i).inflight

instance (shared : Shared n) (i : Fin n) : Decidable (Eligible shared i) :=
  inferInstanceAs (Decidable (_ ∧ _))

instance (shared : Shared n) (i : Fin n) : Decidable (Free shared i) :=
  inferInstanceAs (Decidable (_ ∧ _))

theorem rotation_covers (positive : 0 < n) (offset : ℕ) (i : Fin n) :
    ∃ step < n, entry positive (offset + step) = i := by
  have split := Nat.div_add_mod offset n
  have short := Nat.mod_lt offset positive
  have inside := i.isLt
  by_cases ahead : offset % n ≤ i
  · refine ⟨i - offset % n, by omega, Fin.ext ?_⟩
    have sum : offset + (i - offset % n) = n * (offset / n) + i := by omega
    change (offset + (i - offset % n)) % n = i
    rw [sum, Nat.mul_add_mod, Nat.mod_eq_of_lt inside]
  · refine ⟨i + n - offset % n, by omega, Fin.ext ?_⟩
    have sum : offset + (i + n - offset % n) = n * (offset / n + 1) + i := by
      rw [Nat.mul_add, Nat.mul_one]
      omega
    change (offset + (i + n - offset % n)) % n = i
    rw [sum, Nat.mul_add_mod, Nat.mod_eq_of_lt inside]

end Passes

section Scans

variable (positive : 0 < n) (shared : Shared n) (offset : ℕ)

/-- What a pass has counted when the first entries, none of them free, lie behind it. -/
def scanned : ℕ → Scan n
  | 0 => { offset := offset }
  | place + 1 =>
      let scan := scanned place
      let i := entry positive (offset + place)
      if (shared.pool i).active = false then { scan with next := scan.next + 1 }
      else if (shared.pool i).isBenched shared.nowNs then
        { scan with active := scan.active + 1, benched := scan.benched + 1, next := scan.next + 1 }
      else
        { scan with
          active := scan.active + 1
          waitable := scan.waitable.or (some i)
          next := scan.next + 1 }

variable {positive shared offset} {place : ℕ}

theorem scanned_dead (dead : (shared.pool (entry positive (offset + place))).active = false) :
    scanned positive shared offset (place + 1) =
      { scanned positive shared offset place with
        next := (scanned positive shared offset place).next + 1 } :=
  if_pos dead

theorem scanned_benched (alive : (shared.pool (entry positive (offset + place))).active = true)
    (sits : (shared.pool (entry positive (offset + place))).isBenched shared.nowNs = true) :
    scanned positive shared offset (place + 1) =
      { scanned positive shared offset place with
        active := (scanned positive shared offset place).active + 1
        benched := (scanned positive shared offset place).benched + 1
        next := (scanned positive shared offset place).next + 1 } :=
  (if_neg (Bool.not_eq_false _ ▸ alive)).trans (if_pos sits)

theorem scanned_eligible (fit : Eligible shared (entry positive (offset + place))) :
    scanned positive shared offset (place + 1) =
      { scanned positive shared offset place with
        active := (scanned positive shared offset place).active + 1
        waitable := (scanned positive shared offset place).waitable.or
          (some (entry positive (offset + place)))
        next := (scanned positive shared offset place).next + 1 } :=
  (if_neg (Bool.not_eq_false _ ▸ fit.1)).trans (if_neg (Bool.not_eq_true _ ▸ fit.2))

/-- Why an entry is passed over, if it is. -/
theorem entry_cases (i : Fin n) :
    (shared.pool i).active = false ∨
    ((shared.pool i).active = true ∧ (shared.pool i).isBenched shared.nowNs = true) ∨
    Eligible shared i := by
  cases alive : (shared.pool i).active with
  | false => exact Or.inl rfl
  | true =>
      cases sits : (shared.pool i).isBenched shared.nowNs with
      | false => exact Or.inr (Or.inr ⟨alive, sits⟩)
      | true => exact Or.inr (Or.inl ⟨rfl, rfl⟩)

variable (positive shared offset place)

theorem scanned_place :
    (scanned positive shared offset place).offset = offset ∧
    (scanned positive shared offset place).next = place := by
  induction place with
  | zero => exact ⟨rfl, rfl⟩
  | succ place ih =>
      rw [scanned]
      split
      · exact ⟨ih.1, congrArg Nat.succ ih.2⟩
      · split
        · exact ⟨ih.1, congrArg Nat.succ ih.2⟩
        · exact ⟨ih.1, congrArg Nat.succ ih.2⟩

/-- The counts of a pass tell who is active and who of them is benched, and the first
who is not is the one to wait for. -/
structure Counted : Prop where
  active : (scanned positive shared offset place).active = 0 ↔
    ∀ step < place, (shared.pool (entry positive (offset + step))).active = false
  fewer : (scanned positive shared offset place).benched ≤
    (scanned positive shared offset place).active
  benched : (scanned positive shared offset place).benched =
      (scanned positive shared offset place).active ↔
    ∀ step < place, ¬ Eligible shared (entry positive (offset + step))
  waitable : ∀ i, (scanned positive shared offset place).waitable = some i →
    ∃ step < place, i = entry positive (offset + step) ∧ Eligible shared i ∧
      ∀ earlier < step, ¬ Eligible shared (entry positive (offset + earlier))
  alone : (scanned positive shared offset place).waitable = none →
    ∀ step < place, ¬ Eligible shared (entry positive (offset + step))

variable {positive shared offset place}

theorem Counted.carried (counted : Counted positive shared offset place) {i : Fin n}
    (found : (scanned positive shared offset place).waitable = some i) :
    ∃ step < place + 1, i = entry positive (offset + step) ∧ Eligible shared i ∧
      ∀ earlier < step, ¬ Eligible shared (entry positive (offset + earlier)) := by
  obtain ⟨step, before, rest⟩ := counted.waitable i found
  exact ⟨step, Nat.lt_succ_of_lt before, rest⟩

theorem counted_dead (counted : Counted positive shared offset place)
    (dead : (shared.pool (entry positive (offset + place))).active = false) :
    Counted positive shared offset (place + 1) := by
  have skipped : ¬ Eligible shared (entry positive (offset + place)) := by
    rintro ⟨alive, _⟩
    rw [dead] at alive
    cases alive
  constructor
  · rw [scanned_dead dead, Nat.forall_lt_succ_right]
    exact ⟨fun none => ⟨counted.active.mp none, dead⟩, fun all => counted.active.mpr all.1⟩
  · rw [scanned_dead dead]
    exact counted.fewer
  · rw [scanned_dead dead, Nat.forall_lt_succ_right]
    exact ⟨fun all => ⟨counted.benched.mp all, skipped⟩, fun all => counted.benched.mpr all.1⟩
  · rw [scanned_dead dead]
    exact fun i => counted.carried
  · rw [scanned_dead dead, Nat.forall_lt_succ_right]
    exact fun none => ⟨counted.alone none, skipped⟩

theorem counted_benched (counted : Counted positive shared offset place)
    (alive : (shared.pool (entry positive (offset + place))).active = true)
    (sits : (shared.pool (entry positive (offset + place))).isBenched shared.nowNs = true) :
    Counted positive shared offset (place + 1) := by
  have skipped : ¬ Eligible shared (entry positive (offset + place)) := by
    rintro ⟨_, sitting⟩
    rw [sits] at sitting
    cases sitting
  constructor
  · rw [scanned_benched alive sits, Nat.forall_lt_succ_right, alive]
    exact ⟨fun none => absurd none (Nat.succ_ne_zero _), fun all => absurd all.2 (by decide)⟩
  · rw [scanned_benched alive sits]
    exact Nat.succ_le_succ counted.fewer
  · rw [scanned_benched alive sits, Nat.forall_lt_succ_right]
    exact ⟨fun all => ⟨counted.benched.mp (Nat.succ.inj all), skipped⟩,
      fun all => congrArg Nat.succ (counted.benched.mpr all.1)⟩
  · rw [scanned_benched alive sits]
    exact fun i => counted.carried
  · rw [scanned_benched alive sits, Nat.forall_lt_succ_right]
    exact fun none => ⟨counted.alone none, skipped⟩

theorem counted_eligible (counted : Counted positive shared offset place)
    (fit : Eligible shared (entry positive (offset + place))) :
    Counted positive shared offset (place + 1) := by
  constructor
  · rw [scanned_eligible fit, Nat.forall_lt_succ_right, fit.1]
    exact ⟨fun none => absurd none (Nat.succ_ne_zero _), fun all => absurd all.2 (by decide)⟩
  · rw [scanned_eligible fit]
    exact Nat.le_succ_of_le counted.fewer
  · rw [scanned_eligible fit, Nat.forall_lt_succ_right]
    have fewer := counted.fewer
    constructor
    · intro all
      dsimp only at all
      omega
    · exact fun all => absurd fit all.2
  · rw [scanned_eligible fit]
    intro i found
    cases earlier : (scanned positive shared offset place).waitable with
    | some first =>
        rw [earlier] at found
        exact counted.carried (earlier.trans found)
    | none =>
        -- nobody before it could be waited for
        rw [earlier] at found
        cases found
        exact ⟨place, Nat.lt_succ_self place, rfl, fit, counted.alone earlier⟩
  · rw [scanned_eligible fit]
    intro none
    exact absurd none (by simp)

variable (positive shared offset place)

theorem scanned_counted : Counted positive shared offset place := by
  induction place with
  | zero => exact ⟨by simp [scanned], le_rfl, by simp [scanned], by simp [scanned], by simp⟩
  | succ place ih =>
      rcases entry_cases (entry positive (offset + place)) with dead | ⟨alive, sits⟩ | fit
      · exact counted_dead ih dead
      · exact counted_benched ih alive sits
      · exact counted_eligible ih fit

end Scans

section Visits

variable (fromAscii)

section Steps

variable {shared : Shared n} (item : WorkItem) {scan : Scan n} {i : Fin n}

theorem visits_dead (room : scan.next < n)
    (here : Shared.selected scan (Nat.zero_lt_of_lt room) = i)
    (dead : (shared.pool i).active = false) :
    ScanStep fromAscii (shared, .working item (.visiting scan))
      (shared, .working item (.visiting { scan with next := scan.next + 1 })) := by
  refine ⟨rfl, ?_⟩
  simp [workerStep, stageStep, room, here, dead]

theorem visits_active (room : scan.next < n)
    (here : Shared.selected scan (Nat.zero_lt_of_lt room) = i)
    (alive : (shared.pool i).active = true) :
    ScanStep fromAscii (shared, .working item (.visiting scan))
      (shared, .working item (.checking { scan with active := scan.active + 1 } i)) := by
  refine ⟨rfl, ?_⟩
  simp [workerStep, stageStep, room, here, alive]

theorem checks_benched (sits : (shared.pool i).isBenched shared.nowNs = true) :
    ScanStep fromAscii (shared, .working item (.checking scan i))
      (shared, .working item
        (.visiting { scan with benched := scan.benched + 1, next := scan.next + 1 })) := by
  refine ⟨rfl, ?_⟩
  simp [workerStep, stageStep, sits]

theorem checks_fit (stands : (shared.pool i).isBenched shared.nowNs = false) :
    ScanStep fromAscii (shared, .working item (.checking scan i))
      (shared, .working item (.trying scan i)) := by
  refine ⟨rfl, ?_⟩
  simp [workerStep, stageStep, stands]

theorem tries_full (full : (shared.pool i).inflight = 0) :
    ScanStep fromAscii (shared, .working item (.trying scan i))
      (shared, .working item (.visiting { scan with
        waitable := scan.waitable.or (some i), next := scan.next + 1 })) := by
  refine ⟨rfl, ?_⟩
  simp [workerStep, stageStep, ResolverHealth.tryAcquire, full]

/-- The pool once a permit of this entry is taken. -/
def taken (shared : Shared n) (i : Fin n) : Shared n :=
  shared.setResolver i { shared.pool i with inflight := (shared.pool i).inflight - 1 }

theorem tries_free (free : 0 < (shared.pool i).inflight) :
    ScanStep fromAscii (shared, .working item (.trying scan i))
      (taken shared i, .working item (.holding i .reserved)) := by
  refine ⟨rfl, ?_⟩
  simp [workerStep, stageStep, ResolverHealth.tryAcquire, free.ne', taken]

end Steps

section Places

variable (positive : 0 < n) {shared : Shared n} {offset : ℕ} (fits : offset + n ≤ 2 ^ 64)
variable (item : WorkItem) {place : ℕ} (room : place < n)

include fits room

theorem selected_entry (inside : (scanned positive shared offset place).next < n) :
    Shared.selected (scanned positive shared offset place) (Nat.zero_lt_of_lt inside) =
      entry positive (offset + place) := by
  have ⟨began, next⟩ := scanned_place positive shared offset place
  apply Fin.ext
  change ((scanned positive shared offset place).offset +
    (scanned positive shared offset place).next) % 2 ^ 64 % n = (offset + place) % n
  rw [began, next, Nat.mod_eq_of_lt (by omega : offset + place < 2 ^ 64)]

/-- An entry that is not free is left behind, with the reason counted. -/
theorem visit_skips (busy : ¬ Free shared (entry positive (offset + place))) :
    Relation.ReflTransGen (ScanStep fromAscii)
      (shared, .working item (.visiting (scanned positive shared offset place)))
      (shared, .working item (.visiting (scanned positive shared offset (place + 1)))) := by
  have inside : (scanned positive shared offset place).next < n := by
    rwa [(scanned_place positive shared offset place).2]
  have here := selected_entry positive fits room inside
  rcases entry_cases (entry positive (offset + place)) with dead | ⟨alive, sits⟩ | fit
  · rw [scanned_dead dead]
    exact .single (visits_dead fromAscii item inside here dead)
  · rw [scanned_benched alive sits]
    exact .head (visits_active fromAscii item inside here alive)
      (.single (checks_benched fromAscii item sits))
  · have full : (shared.pool (entry positive (offset + place))).inflight = 0 := by
      by_contra some
      exact busy ⟨fit, Nat.pos_of_ne_zero some⟩
    rw [scanned_eligible fit]
    exact .head (visits_active fromAscii item inside here fit.1)
      (.head (checks_fit fromAscii item fit.2) (.single (tries_full fromAscii item full)))

theorem visit_takes (free : Free shared (entry positive (offset + place))) :
    Relation.ReflTransGen (ScanStep fromAscii)
      (shared, .working item (.visiting (scanned positive shared offset place)))
      (taken shared (entry positive (offset + place)),
        .working item (.holding (entry positive (offset + place)) .reserved)) := by
  have inside : (scanned positive shared offset place).next < n := by
    rwa [(scanned_place positive shared offset place).2]
  have here := selected_entry positive fits room inside
  exact .head (visits_active fromAscii item inside here free.1.1)
    (.head (checks_fit fromAscii item free.1.2) (.single (tries_free fromAscii item free.2)))

end Places

end Visits

section Calls

variable (fromAscii) {shared : Shared n} (item : WorkItem)

/-- The pool once a call has drawn its place of the rotation. -/
def called (shared : Shared n) : Shared n :=
  { shared with cursor := (shared.cursor + 1) % 2 ^ 64 }

/-- First in rotation order from the cursor to satisfy `wanted`. -/
def FirstFrom (shared : Shared n) (wanted : Fin n → Prop) (i : Fin n) : Prop :=
  wanted i ∧ ∃ step < n, (i : ℕ) = (shared.cursor + step) % n ∧
    ∀ earlier < step, ∀ j : Fin n, (j : ℕ) = (shared.cursor + earlier) % n → ¬ wanted j

theorem first_from_entry (positive : 0 < n) {wanted : Fin n → Prop} {step : ℕ} (inside : step < n)
    (found : wanted (entry positive (shared.cursor + step)))
    (earliest : ∀ earlier < step, ¬ wanted (entry positive (shared.cursor + earlier))) :
    FirstFrom shared wanted (entry positive (shared.cursor + step)) := by
  refine ⟨found, step, inside, rfl, ?_⟩
  intro earlier before j place
  have same : j = entry positive (shared.cursor + earlier) := Fin.ext place
  rw [same]
  exact earliest earlier before

variable (positive : 0 < n) (fits : shared.cursor + n ≤ 2 ^ 64)

theorem call_begins : ScanStep fromAscii (shared, .working item .reserving)
    (called shared, .working item (.visiting (scanned positive (called shared) shared.cursor 0))) := by
  refine ⟨rfl, ?_⟩
  simp [workerStep, stageStep, positive.ne', called, scanned]

include fits

theorem call_visits {place : ℕ} (inside : place ≤ n)
    (busy : ∀ step < place, ¬ Free shared (entry positive (shared.cursor + step))) :
    Relation.ReflTransGen (ScanStep fromAscii) (shared, .working item .reserving)
      (called shared,
        .working item (.visiting (scanned positive (called shared) shared.cursor place))) := by
  induction place with
  | zero => exact .single (call_begins fromAscii item positive)
  | succ place ih =>
      have before := ih (Nat.le_of_succ_le inside) fun step earlier =>
        busy step (Nat.lt_succ_of_lt earlier)
      exact before.trans (visit_skips fromAscii positive fits item inside
        (busy place (Nat.lt_succ_self place)))

theorem call_ends (busy : ∀ i, ¬ Free shared i) :
    Relation.ReflTransGen (ScanStep fromAscii) (shared, .working item .reserving)
      (afterScan (called shared) item (scanned positive (called shared) shared.cursor n)) := by
  have visited := call_visits fromAscii item positive fits le_rfl fun step _ => busy _
  apply visited.tail
  refine ⟨rfl, ?_⟩
  have past := (scanned_place positive (called shared) shared.cursor n).2
  simp [workerStep, stageStep, past]

omit fits in
theorem everywhere_iff (wanted : Fin n → Prop) :
    (∀ step < n, wanted (entry positive (shared.cursor + step))) ↔ ∀ i, wanted i := by
  constructor
  · intro all i
    rcases rotation_covers positive shared.cursor i with ⟨step, inside, here⟩
    rw [← here]
    exact all step inside
  · intro all step _
    exact all _

include positive

theorem call_finds_nobody (dead : ∀ i, (shared.pool i).active = false) :
    Returns fromAscii shared item ((called shared).respond item (.error .noResolvers), .idle) := by
  have counted := scanned_counted positive (called shared) shared.cursor n
  have none : (scanned positive (called shared) shared.cursor n).active = 0 :=
    counted.active.mpr fun step _ => dead _
  have busy : ∀ i, ¬ Free shared i := by
    rintro i ⟨⟨alive, _⟩, _⟩
    rw [dead i] at alive
    cases alive
  have ended := call_ends fromAscii item positive fits busy
  rw [afterScan, if_pos none] at ended
  exact ⟨ended, rfl⟩

theorem call_sleeps (alive : ∃ i, (shared.pool i).active = true)
    (benched : ∀ i, ¬ Eligible shared i) :
    Returns fromAscii shared item
      (called shared, .working item (.sleeping (called shared).firstEligible)) := by
  have counted := scanned_counted positive (called shared) shared.cursor n
  have some : ¬ (scanned positive (called shared) shared.cursor n).active = 0 := by
    rw [counted.active, everywhere_iff positive fun i => ((called shared).pool i).active = false]
    rcases alive with ⟨i, active⟩
    exact fun dead => absurd (active.symm.trans (dead i)) (by decide)
  have all : (scanned positive (called shared) shared.cursor n).benched =
      (scanned positive (called shared) shared.cursor n).active :=
    counted.benched.mpr fun step _ => benched _
  have ended := call_ends fromAscii item positive fits fun i free => benched i free.1
  rw [afterScan, if_neg some, if_pos all] at ended
  exact ⟨ended, rfl⟩

theorem call_waits {i : Fin n} (fit : Eligible shared i) (busy : ∀ i, ¬ Free shared i) :
    ∃ first, FirstFrom shared (Eligible shared) first ∧
      Returns fromAscii shared item (called shared, .working item (.waiting first)) := by
  have counted := scanned_counted positive (called shared) shared.cursor n
  have some : ¬ (scanned positive (called shared) shared.cursor n).active = 0 := by
    rw [counted.active, everywhere_iff positive fun i => ((called shared).pool i).active = false]
    exact fun dead => absurd (fit.1.symm.trans (dead i)) (by decide)
  have standing : ¬ ∀ step < n, ¬ Eligible (called shared)
      (entry positive (shared.cursor + step)) := by
    rw [everywhere_iff positive fun i => ¬ Eligible (called shared) i]
    exact fun none => none i fit
  have ended := call_ends fromAscii item positive fits busy
  rw [afterScan, if_neg some, if_neg fun all => standing (counted.benched.mp all)] at ended
  cases found : (scanned positive (called shared) shared.cursor n).waitable with
  | none => exact absurd (counted.alone found) standing
  | some first =>
      rcases counted.waitable first found with ⟨step, inside, rfl, stands, earliest⟩
      rw [found] at ended
      exact ⟨_, first_from_entry positive inside stands earliest, ended, rfl⟩

omit positive in
theorem call_takes {i : Fin n} (free : Free shared i) :
    ∃ first, FirstFrom shared (Free shared) first ∧
      Returns fromAscii shared item
        (taken (called shared) first, .working item (.holding first .reserved)) := by
  have positive := Nat.zero_lt_of_lt i.isLt
  have some : ∃ step, step < n ∧ Free shared (entry positive (shared.cursor + step)) := by
    rcases rotation_covers positive shared.cursor i with ⟨step, inside, here⟩
    exact ⟨step, inside, by rwa [here]⟩
  have ⟨inside, found⟩ := Nat.find_spec some
  have earliest : ∀ earlier < Nat.find some,
      ¬ Free shared (entry positive (shared.cursor + earlier)) := by
    intro earlier before other
    exact Nat.find_min some before ⟨lt_trans before inside, other⟩
  refine ⟨_, first_from_entry positive inside found earliest, ?_, rfl⟩
  exact (call_visits fromAscii item positive fits inside.le earliest).trans
    (visit_takes fromAscii positive fits item inside found)

end Calls

section Rows

variable {shared : Shared n}

/-- Permits that a call may take from this entry. -/
def permits (shared : Shared n) (i : Fin n) : ℕ :=
  if Eligible shared i then (shared.pool i).inflight else 0

def capacity (shared : Shared n) : ℕ := ∑ i, permits shared i

theorem taken_eligible (i j : Fin n) : Eligible (taken (called shared) i) j ↔ Eligible shared j := by
  by_cases same : j = i
  · subst same
    simp [Eligible, taken, called, Shared.setResolver, ResolverHealth.isBenched]
  · simp [Eligible, taken, called, Shared.setResolver, same]

theorem taken_permits {i : Fin n} (free : Free shared i) (j : Fin n) :
    permits shared j = permits (taken (called shared) i) j + if j = i then 1 else 0 := by
  by_cases same : j = i
  · subst same
    have some := free.2
    simp only [permits, taken_eligible, if_pos free.1, if_true]
    simp [taken, called, Shared.setResolver]
    omega
  · simp only [permits, taken_eligible, if_neg same]
    simp [taken, called, Shared.setResolver, same]

theorem taken_capacity {i : Fin n} (free : Free shared i) :
    capacity shared = capacity (taken (called shared) i) + 1 := by
  have each : ∀ j, permits shared j =
      permits (taken (called shared) i) j + if j = i then 1 else 0 := taken_permits free
  rw [capacity, Finset.sum_congr rfl fun j _ => each j, Finset.sum_add_distrib,
    Finset.sum_ite_eq' Finset.univ i]
  simp [capacity]

theorem capacity_free (some : 0 < capacity shared) : ∃ i, Free shared i := by
  by_contra none
  have empty : ∀ i ∈ Finset.univ, permits shared i = 0 := by
    intro i _
    rw [permits]
    split
    · rename_i fit
      by_contra left
      exact none ⟨i, fit, Nat.pos_of_ne_zero left⟩
    · rfl
  rw [capacity, Finset.sum_eq_zero empty] at some
  exact absurd some (lt_irrefl 0)

/-- Calls made one after the other, each of which returns at once with the first free
entry in rotation order from where it found the cursor. -/
inductive Takes (fromAscii : String → Except ProtoError Name) :
    Shared n → List WorkItem → List (Fin n) → Shared n → Prop
  | none (shared : Shared n) : Takes fromAscii shared [] [] shared
  | next {shared middle after : Shared n} {item : WorkItem} {items : List WorkItem} {i : Fin n}
      {order : List (Fin n)} (first : FirstFrom shared (Free shared) i)
      (returned : Returns fromAscii shared item (middle, .working item (.holding i .reserved)))
      (only : ∀ other, Returns fromAscii shared item other →
        other = (middle, .working item (.holding i .reserved)))
      (rest : Takes fromAscii middle items order after) :
      Takes fromAscii shared (item :: items) (i :: order) after

theorem calls_take (fromAscii : String → Except ProtoError Name) (items : List WorkItem)
    (shared : Shared n)
    (enough : items.length ≤ capacity shared)
    (fits : shared.cursor + n + items.length ≤ 2 ^ 64) :
    ∃ order after, Takes fromAscii shared items order after ∧
      (∀ i ∈ order, Eligible shared i) ∧ ∀ i, order.count i ≤ permits shared i := by
  induction items generalizing shared with
  | nil => exact ⟨[], shared, .none shared, by simp, by simp⟩
  | cons item items ih =>
      rw [List.length_cons] at enough fits
      rcases capacity_free (lt_of_lt_of_le (Nat.succ_pos _) enough) with ⟨_, free⟩
      rcases call_takes fromAscii item (by omega) free with ⟨i, first, returned⟩
      have less := taken_capacity first.1
      have moved : (taken (called shared) i).cursor ≤ shared.cursor + 1 := Nat.mod_le _ _
      rcases ih (taken (called shared) i) (by omega) (by omega) with
        ⟨order, after, takes, fit, counts⟩
      refine ⟨i :: order, after, .next first returned
        (fun _ other => returns_unique other returned) takes, ?_, ?_⟩
      · rintro j member
        rcases List.mem_cons.mp member with same | later
        · rw [same]
          exact first.1.1
        · exact (taken_eligible i j).mp (fit j later)
      · intro j
        have bound := counts j
        have spent := taken_permits first.1 j
        by_cases same : j = i
        · subst same
          rw [List.count_cons_self]
          rw [if_pos rfl] at spent
          omega
        · rw [List.count_cons_of_ne (Ne.symm same)]
          rw [if_neg same] at spent
          omega

end Rows

section Outcomes

variable {shared : Shared n} {item : WorkItem}

theorem first_eligible_least (alive : ∃ i, (shared.pool i).active = true) :
    IsLeast { timeNs | ∃ i, (shared.pool i).active = true ∧
      (shared.pool i).benchedUntilNs = timeNs } shared.firstEligible := by
  let ends := ((List.finRange n).filter fun i => (shared.pool i).active).map
    fun i => (shared.pool i).benchedUntilNs
  have listed : ∀ timeNs, timeNs ∈ ends ↔ ∃ i, (shared.pool i).active = true ∧
      (shared.pool i).benchedUntilNs = timeNs := by
    intro timeNs
    simp [ends]
  rcases alive with ⟨i, active⟩
  have some : (shared.pool i).benchedUntilNs ∈ ends := (listed _).mpr ⟨i, active, rfl⟩
  cases least : ends.min? with
  | none =>
      rw [List.min?_eq_none_iff.mp least] at some
      cases some
  | some soonest =>
      have same : shared.firstEligible = soonest := by
        change ends.min?.getD shared.nowNs = soonest
        rw [least]
        rfl
      have ⟨member, lower⟩ := List.min?_eq_some_iff.mp least
      rw [same]
      constructor
      · exact (listed soonest).mp member
      · intro timeNs other
        exact lower timeNs ((listed timeNs).mpr other)

theorem call_of_empty (empty : n = 0) :
    Returns fromAscii shared item (shared.respond item (.error .noResolvers), .idle) := by
  refine ⟨.single ⟨rfl, ?_⟩, rfl⟩
  simp [workerStep, stageStep, empty]

/-- What one pass can come to: nobody is active, everybody who is sits on the bench,
a permit is free, or the one to wait for has none. -/
theorem call_cases (fits : shared.cursor + n ≤ 2 ^ 64) :
    ((∀ i, (shared.pool i).active = false) ∧
      ∃ after, Returns fromAscii shared item (after, .idle)) ∨
    ((∃ i, (shared.pool i).active = true) ∧ (∀ i, ¬ Eligible shared i) ∧
      Returns fromAscii shared item
        (called shared, .working item (.sleeping shared.firstEligible))) ∨
    (∃ i, FirstFrom shared (Free shared) i ∧ Returns fromAscii shared item
      (taken (called shared) i, .working item (.holding i .reserved))) ∨
    ∃ i, FirstFrom shared (Eligible shared) i ∧ (∀ j, ¬ Free shared j) ∧
      Returns fromAscii shared item (called shared, .working item (.waiting i)) := by
  by_cases dead : ∀ i, (shared.pool i).active = false
  · left
    refine ⟨dead, ?_⟩
    rcases Nat.eq_zero_or_pos n with empty | positive
    · exact ⟨_, call_of_empty empty⟩
    · exact ⟨_, call_finds_nobody fromAscii item positive fits dead⟩
  · have alive : ∃ i, (shared.pool i).active = true := by
      simpa using dead
    have positive : 0 < n := alive.elim fun i _ => Nat.zero_lt_of_lt i.isLt
    right
    by_cases benched : ∀ i, ¬ Eligible shared i
    · exact Or.inl ⟨alive, benched, call_sleeps fromAscii item positive fits alive benched⟩
    · right
      rcases not_forall_not.mp benched with ⟨_, fit⟩
      by_cases busy : ∀ i, ¬ Free shared i
      · rcases call_waits fromAscii item positive fits fit busy with ⟨i, first, returned⟩
        exact Or.inr ⟨i, first, busy, returned⟩
      · rcases not_forall_not.mp busy with ⟨_, free⟩
        exact Or.inl (call_takes fromAscii item fits free)

/-- All that the entries who are active have in common decides whether the pass ends
without a resolver or in a sleep. -/
structure Resolves (shared : Shared n) (item : WorkItem) (result : Shared n × Phase n) : Prop where
  nobody : result.2 = .idle ↔ ∀ i, (shared.pool i).active = false
  asleep : (∃ i, (shared.pool i).active = true) → (∀ i, ¬ Eligible shared i) →
    result = (called shared, .working item (.sleeping shared.firstEligible))

theorem call_resolves (fromAscii : String → Except ProtoError Name)
    (fits : shared.cursor + n ≤ 2 ^ 64) :
    ∃ result, Returns fromAscii shared item result ∧ Resolves shared item result := by
  rcases call_cases fits with ⟨dead, after, returned⟩ | ⟨alive, benched, returned⟩ |
    ⟨i, first, returned⟩ | ⟨i, first, _, returned⟩
  · refine ⟨_, returned, ⟨fun _ => dead, fun _ => rfl⟩, ?_⟩
    rintro ⟨i, active⟩ _
    exact absurd (active.symm.trans (dead i)) (by decide)
  · refine ⟨_, returned, ⟨by simp, ?_⟩, fun _ _ => rfl⟩
    intro dead
    rcases alive with ⟨i, active⟩
    exact absurd (active.symm.trans (dead i)) (by decide)
  · refine ⟨_, returned, ⟨by simp, ?_⟩, fun _ benched => absurd first.1.1 (benched i)⟩
    intro dead
    exact absurd (first.1.1.1.symm.trans (dead i)) (by decide)
  · refine ⟨_, returned, ⟨by simp, ?_⟩, fun _ benched => absurd first.1 (benched i)⟩
    intro dead
    exact absurd (first.1.1.symm.trans (dead i)) (by decide)

/-- `reserve` has returned: the worker is past the checks that follow a wait. -/
def returned : Hold → Bool
  | .granted | .confirming => false
  | .reserved | .rated | .ready | .querying _ | .arrived _ _ | .refetching _ _ | .completed _ _
  | .recorded _ => true

/-- Where a worker with a permit came from, and what it saw there. -/
inductive CameFrom (before : Shared n) (item : WorkItem) (i : Fin n) : Hold → Phase n → Prop
  | waited : CameFrom before item i .granted (.working item (.waiting i))
  | alive (active : (before.pool i).active = true) :
      CameFrom before item i .confirming (.working item (.holding i .granted))
  | stands (fit : (before.pool i).isBenched before.nowNs = false) :
      CameFrom before item i .reserved (.working item (.holding i .confirming))
  | took {scan : Scan n} : CameFrom before item i .reserved (.working item (.trying scan i))
  | onward {earlier hold : Hold} (early : returned earlier = true) (late : returned hold = true) :
      CameFrom before item i hold (.working item (.holding i earlier))

theorem hold_came_from {before : Shared n} {i : Fin n} {earlier hold : Hold} {label : Label}
    {health : ResolverHealth}
    (stepped : holdStep (before.pool i) before.nowNs earlier label = some (health, .keep hold)) :
    CameFrom before item i hold (.working item (.holding i earlier)) := by
  unfold holdStep at stepped
  split at stepped
  case h_1 =>
    split at stepped <;> cases stepped
    rename_i active
    exact .alive active
  case h_2 =>
    split at stepped <;> cases stepped
    rename_i stands
    exact .stands (Bool.eq_false_iff.mpr stands)
  case h_7 => split at stepped <;> cases stepped <;> exact .onward rfl rfl
  all_goals
    cases stepped
    try exact .onward rfl rfl

theorem stage_came_from (fromAscii : String → Except ProtoError Name) {before after : Shared n}
    {holder : WorkItem} {stage : Stage n} {i : Fin n} {hold : Hold}
    (stepped : stageStep fromAscii before holder stage =
      some (after, .working item (.holding i hold))) :
    CameFrom before item i hold (.working holder stage) := by
  cases stage with
  | received =>
      simp only [stageStep] at stepped
      split at stepped <;> cases stepped
  | pacing => cases stepped
  | reserving =>
      simp only [stageStep] at stepped
      split at stepped <;> cases stepped
  | visiting scan =>
      simp only [stageStep, afterScan] at stepped
      split at stepped
      · split at stepped <;> cases stepped
      · split at stepped
        · cases stepped
        · split at stepped
          · cases stepped
          · split at stepped <;> cases stepped
  | checking scan j =>
      simp only [stageStep] at stepped
      split at stepped <;> cases stepped
  | trying scan j =>
      simp only [stageStep] at stepped
      split at stepped <;> cases stepped
      exact .took
  | sleeping untilNs =>
      simp only [stageStep] at stepped
      split at stepped <;> cases stepped
  | waiting j =>
      rcases Option.map_eq_some_iff.mp stepped with ⟨_, _, same⟩
      cases same
      exact .waited
  | holding j earlier => cases stepped

/-- The one way past a wait leads through both checks. -/
theorem holding_came_from {before after : Shared n} {old : Phase n} {label : Label} {i : Fin n}
    {hold : Hold}
    (stepped : workerStep fromAscii before old label =
      some (after, .working item (.holding i hold))) :
    CameFrom before item i hold old := by
  cases old with
  | idle =>
      cases label <;> simp only [workerStep] at stepped
      · split at stepped
        · cases stepped
        · split at stepped <;> cases stepped
      · cases stepped
      · cases stepped
  | stopped => cases label <;> cases stepped
  | releasing j => cases label <;> cases stepped
  | working holder stage =>
      cases stage
      case holding j earlier =>
        rcases Option.map_eq_some_iff.mp stepped with ⟨⟨health, held⟩, moved, same⟩
        cases held <;> cases same
        exact hold_came_from moved
      all_goals
        cases label
        · exact stage_came_from fromAscii stepped
        · cases stepped
        · cases stepped

theorem waiting_granted {after : Shared n} {i : Fin n} {phase : Phase n}
    (moved : workerStep fromAscii shared (.working item (.waiting i)) .proceed =
      some (after, phase)) :
    0 < (shared.pool i).inflight ∧ after = taken shared i ∧
      phase = .working item (.holding i .granted) := by
  rcases Option.map_eq_some_iff.mp moved with ⟨health, acquired, same⟩
  rw [ResolverHealth.tryAcquire] at acquired
  split at acquired
  · cases acquired
  · rename_i some
    cases acquired
    cases same
    exact ⟨Nat.pos_of_ne_zero some, rfl, rfl⟩

/-- A dead entry, one on the bench, and two permits at the third. -/
def threePool (i : Fin 3) : ResolverHealth :=
  let health := Config.newHealth (.v4 ⟨127, 0, 0, 1⟩ 53) {}
  match i with
  | 0 => { health with active := false }
  | 1 => { health with benchedUntilNs := 10 ^ 9 }
  | 2 => health

end Outcomes

end BlastDns.Reserve
