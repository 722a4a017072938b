import BlastDns.Config
import BlastDns.Crew
import BlastDns.Runs
import BlastDns.Smoothing

/-!
The round-trip times of `src/health.rs` under concurrency. `record_response` counts the
answer, takes one off the error count and then runs `record_rtt`, whose loads and stores
of the average, the minimum and its window are atomic steps of their own, so two calls
may both average into the value they loaded and one of the updates is lost. A sample
counts as recorded from the store of the average it went into. The average is u64
arithmetic: where it would not fit the call stands `overflowed`.
-/

namespace BlastDns.RttStats

open Config Crew Health NetText Runs Smoothing

def u64Max : ℕ := 2 ^ 64 - 1

def checkedSub (value less : ℕ) : Option ℕ := if less ≤ value then some (value - less) else none

def checkedAdd (value more : ℕ) : Option ℕ :=
  if value + more ≤ u64Max then some (value + more) else none

/-- `(rtt.as_micros() as u64).max(1)` -/
def sampleOf (rttUs : ℕ) : ℕ := max (rttUs % 2 ^ 64) 1

/-- The `ewma` of `record_rtt`. -/
def ewma (previous sample : ℕ) : Option ℕ :=
  if previous = 0 then some sample
  else do
    let kept ← checkedSub previous (previous >>> rttEwmaShift)
    checkedAdd kept (sample >>> rttEwmaShift)

/-- A call of `record_response`, by the atomic step it takes next. -/
inductive Call where
  -- count the answer or the empty response
  | responding (rttUs : ℕ) (hadAnswers : Bool)
  -- take one off the consecutive errors
  | decaying (rttUs : ℕ)
  -- load the average
  | loading (sample : ℕ)
  -- average and store
  | averaging (sample previous : ℕ)
  -- read the clock
  | timing (sample : ℕ)
  -- load the start of the window
  | windowing (sample nowNs : ℕ)
  -- load the minimum and compare
  | comparing (sample nowNs windowStart : ℕ)
  -- store a minimum that starts a window
  | resetting (sample nowNs : ℕ)
  -- store the start of the window
  | opening (nowNs : ℕ)
  -- store a lower minimum
  | lowering (sample : ℕ)
  | overflowed
  | done
  deriving DecidableEq

structure Shared where
  health : ResolverHealth
  nowNs : ℕ
  -- the samples that have gone into a stored average, the latest first
  recorded : List ℕ := []

def callStep (shared : Shared) (call : Call) (_ : Unit) : Option (Shared × Call) :=
  let health := shared.health
  match call with
  | .responding rttUs hadAnswers =>
      some ({ shared with health :=
        if hadAnswers then { health with answered := health.answered + 1 }
        else { health with empty := health.empty + 1 } }, .decaying rttUs)
  | .decaying rttUs => some ({ shared with health := health.decayErrors }, .loading (sampleOf rttUs))
  | .loading sample => some (shared, .averaging sample health.rttEwmaUs)
  | .averaging sample previous =>
      match ewma previous sample with
      | some value =>
          some ({ shared with
            health := { health with rttEwmaUs := max value 1 }
            recorded := sample :: shared.recorded }, .timing sample)
      | none => some (shared, .overflowed)
  | .timing sample => some (shared, .windowing sample shared.nowNs)
  | .windowing sample nowNs => some (shared, .comparing sample nowNs health.rttMinWindowNs)
  | .comparing sample nowNs windowStart =>
      let lapsed : Bool := rttMinWindowNs < nowNs - windowStart
      some (shared,
        if health.rttMinUs = 0 || lapsed then .resetting sample nowNs
        else if sample < health.rttMinUs then .lowering sample
        else .done)
  | .resetting sample nowNs =>
      some ({ shared with health := { health with rttMinUs := sample } }, .opening nowNs)
  | .opening nowNs =>
      some ({ shared with health := { health with rttMinWindowNs := nowNs } }, .done)
  | .lowering sample => some ({ shared with health := { health with rttMinUs := sample } }, .done)
  | .overflowed | .done => none

inductive Event where
  | response (rttUs : ℕ) (hadAnswers : Bool)
  | move (index : ℕ)
  | clock (nowNs : ℕ)

def step (crew : State Shared Call) : Event → Option (State Shared Call)
  | .response rttUs hadAnswers => some (hire crew [.responding rttUs hadAnswers])
  | .move index => act callStep crew index ()
  | .clock nowNs => some { crew with shared := { crew.shared with nowNs := nowNs } }

def Moves (before after : State Shared Call) : Prop := ∃ event, step before event = some after

def newResolver (resolver : SocketAddr) (config : BlastDNSConfig) : State Shared Call where
  shared := { health := newHealth resolver config, nowNs := 0 }
  procs := []

section Samples

theorem sample_range (rttUs : ℕ) : 1 ≤ sampleOf rttUs ∧ sampleOf rttUs ≤ u64Max := by
  have fits : rttUs % 2 ^ 64 ≤ u64Max := Nat.le_sub_one_of_lt (Nat.mod_lt _ (by decide))
  exact ⟨le_max_right _ _, max_le fits (by decide)⟩

/-- Two u64 values average without underflow or overflow. -/
theorem ewma_eq {previous sample : ℕ} (loaded : previous ≤ u64Max) (fits : sample ≤ u64Max) :
    ewma previous sample =
      some (if previous = 0 then sample else average rttEwmaShift previous sample) := by
  rw [ewma]
  split
  · rfl
  · have least : previous >>> rttEwmaShift ≤ previous := Nat.shiftRight_le _ _
    have both : Within [previous, sample] (average rttEwmaShift previous sample) :=
      within_average _ (within_sample (by simp)) (by simp)
    have range : ∀ part ∈ [previous, sample], 0 ≤ part ∧ part ≤ u64Max := by
      simpa using ⟨loaded, fits⟩
    have room := (within_range both range).2
    rw [average] at room ⊢
    rw [checkedSub, if_pos least, Option.bind_eq_bind, Option.bind_some, checkedAdd, if_pos room]

end Samples

/-- What holds of the statistics between any two steps. -/
structure Sound (shared : Shared) : Prop where
  samples : ∀ sample ∈ shared.recorded, 1 ≤ sample ∧ sample ≤ u64Max
  average : shared.health.rttEwmaUs = 0 ∧ shared.recorded = [] ∨
    Within shared.recorded shared.health.rttEwmaUs
  minimum : shared.health.rttMinUs = 0 ∨ shared.health.rttMinUs ∈ shared.recorded

/-- What a call has loaded, and what it has left behind, is still of recorded samples. -/
def CallSound (shared : Shared) : Call → Prop
  | .responding _ _ | .decaying _ => True
  | .loading sample => 1 ≤ sample ∧ sample ≤ u64Max
  | .averaging sample previous =>
      (1 ≤ sample ∧ sample ≤ u64Max) ∧ (previous = 0 ∨ Within shared.recorded previous)
  | .timing sample | .windowing sample _ | .comparing sample _ _ | .resetting sample _
  | .lowering sample => sample ∈ shared.recorded
  | .opening _ | .done => shared.health.rttMinUs ∈ shared.recorded
  | .overflowed => False

section Steps

variable {shared after : Shared} {call next : Call} {previous sample : ℕ}

theorem call_sound_grows (grows : shared.recorded ⊆ after.recorded)
    (settled : shared.health.rttMinUs ∈ shared.recorded → after.health.rttMinUs ∈ after.recorded)
    (sound : CallSound shared call) : CallSound after call := by
  cases call with
  | responding | decaying => trivial
  | loading => exact sound
  | averaging => exact ⟨sound.1, sound.2.imp_right (within_mono grows)⟩
  | timing | windowing | comparing | resetting | lowering => exact grows sound
  | opening | done => exact settled sound
  | overflowed => exact sound.elim

/-- A value that was within the samples some time ago averages with one more. -/
theorem ewma_within (sound : Sound shared) (fits : 1 ≤ sample ∧ sample ≤ u64Max)
    (loaded : previous = 0 ∨ Within shared.recorded previous) :
    ∃ value, ewma previous sample = some value ∧
      Within (sample :: shared.recorded) (max value 1) := by
  have samples : ∀ part ∈ sample :: shared.recorded, 1 ≤ part ∧ part ≤ u64Max := by
    intro part member
    rcases List.mem_cons.mp member with rfl | earlier
    · exact fits
    · exact sound.samples part earlier
  rcases loaded with rfl | inside
  · refine ⟨sample, rfl, ?_⟩
    rw [max_eq_left fits.1]
    exact within_sample List.mem_cons_self
  · have kept := within_mono (List.subset_cons_self sample _) inside
    have range := within_range kept samples
    have averaged := within_average rttEwmaShift kept List.mem_cons_self
    refine ⟨_, ewma_eq range.2 fits.2, ?_⟩
    rw [if_neg (by omega), max_eq_left (within_range averaged samples).1]
    exact averaged

/-- One atomic step keeps the statistics within the samples, and no other call loses
what it knows of them. -/
theorem call_step_sound (stepped : callStep shared call () = some (after, next))
    (sound : Sound shared) (known : CallSound shared call) :
    Sound after ∧ CallSound after next ∧
      ∀ other, CallSound shared other → CallSound after other := by
  cases call with
  | responding rttUs hadAnswers =>
      cases stepped
      cases hadAnswers <;> exact ⟨⟨sound.samples, sound.average, sound.minimum⟩, trivial,
        fun other => call_sound_grows (List.Subset.refl _) id⟩
  | decaying rttUs =>
      cases stepped
      exact ⟨⟨sound.samples, sound.average, sound.minimum⟩, sample_range rttUs,
        fun other => call_sound_grows (List.Subset.refl _) id⟩
  | loading sample =>
      cases stepped
      exact ⟨sound, ⟨known, sound.average.imp_left And.left⟩, fun other => id⟩
  | averaging sample previous =>
      rcases ewma_within sound known.1 known.2 with ⟨value, averaged, within⟩
      simp only [callStep, averaged] at stepped
      cases stepped
      have grows := List.subset_cons_self sample shared.recorded
      refine ⟨⟨?_, Or.inr within, sound.minimum.imp_right fun old => grows old⟩,
        List.mem_cons_self, fun other => call_sound_grows grows fun old => grows old⟩
      intro part member
      rcases List.mem_cons.mp member with rfl | earlier
      · exact known.1
      · exact sound.samples part earlier
  | timing sample =>
      cases stepped
      exact ⟨sound, known, fun other => id⟩
  | windowing sample nowNs =>
      cases stepped
      exact ⟨sound, known, fun other => id⟩
  | comparing sample nowNs windowStart =>
      simp only [callStep, Option.some.injEq, Prod.mk.injEq] at stepped
      rcases stepped with ⟨rfl, chosen⟩
      refine ⟨sound, ?_, fun other => id⟩
      split_ifs at chosen with fresh lower
      · cases chosen
        exact known
      · cases chosen
        exact known
      · cases chosen
        -- the minimum stands, so some call has stored it
        simp only [Bool.or_eq_true, decide_eq_true_eq, not_or] at fresh
        exact sound.minimum.resolve_left fresh.1
  | resetting sample nowNs =>
      cases stepped
      exact ⟨⟨sound.samples, sound.average, Or.inr known⟩, known,
        fun other => call_sound_grows (List.Subset.refl _) fun _ => known⟩
  | opening nowNs =>
      cases stepped
      exact ⟨⟨sound.samples, sound.average, sound.minimum⟩, known,
        fun other => call_sound_grows (List.Subset.refl _) id⟩
  | lowering sample =>
      cases stepped
      exact ⟨⟨sound.samples, sound.average, Or.inr known⟩, known,
        fun other => call_sound_grows (List.Subset.refl _) fun _ => known⟩
  | overflowed => cases stepped
  | done => cases stepped

end Steps

section Sequential

variable {shared : Shared}

/-- One call of `record_response` after another. -/
structure Response where
  rttUs : ℕ
  hadAnswers : Bool
  nowNs : ℕ

def Response.sample (response : Response) : ℕ := sampleOf response.rttUs

def record (health : ResolverHealth) (response : Response) : ResolverHealth :=
  health.recordResponse (response.rttUs % 2 ^ 64) response.nowNs response.hadAnswers

/-- Uninterrupted, the steps of a call are `record_response`. -/
theorem record_response_alone (sound : Sound shared) (rttUs : ℕ) (hadAnswers : Bool) :
    alone callStep 9 (shared, .responding rttUs hadAnswers) =
      ({ shared with
        health := record shared.health ⟨rttUs, hadAnswers, shared.nowNs⟩
        recorded := sampleOf rttUs :: shared.recorded }, .done) := by
  have small : shared.health.rttEwmaUs ≤ u64Max := by
    rcases sound.average with ⟨zero, _⟩ | inside
    · omega
    · exact (within_range inside sound.samples).2
  have averaged := ewma_eq small (sample_range rttUs).2
  have drawn : max (rttUs % 2 ^ 64) 1 = sampleOf rttUs := rfl
  rw [average] at averaged
  simp only [record, ResolverHealth.recordResponse, ResolverHealth.recordRtt,
    ResolverHealth.decayErrors, drawn]
  by_cases fresh : shared.health.rttMinUs = 0 ∨
      rttMinWindowNs < shared.nowNs - shared.health.rttMinWindowNs
  · cases hadAnswers <;> simp [alone, callStep, ResolverHealth.decayErrors, averaged, fresh]
  · by_cases lower : sampleOf rttUs < shared.health.rttMinUs
    · cases hadAnswers <;>
        simp [alone, callStep, ResolverHealth.decayErrors, averaged, fresh, lower]
    · cases hadAnswers <;>
        simp [alone, callStep, ResolverHealth.decayErrors, averaged, fresh, lower]

theorem record_sound (sound : Sound shared) (response : Response) :
    Sound { shared with
      health := record shared.health response
      recorded := response.sample :: shared.recorded } ∧
    (record shared.health response).rttMinUs ∈ response.sample :: shared.recorded := by
  have dated : Sound { shared with nowNs := response.nowNs } :=
    ⟨sound.samples, sound.average, sound.minimum⟩
  have whole := alone_invariant callStep (fun shared call => Sound shared ∧ CallSound shared call)
    (fun _ _ _ _ stepped ⟨held, known⟩ =>
      let ⟨kept, moved, _⟩ := call_step_sound stepped held known
      ⟨kept, moved⟩)
    9 ({ shared with nowNs := response.nowNs }, .responding response.rttUs response.hadAnswers)
    ⟨dated, trivial⟩
  rw [record_response_alone dated] at whole
  rcases whole with ⟨after, settled⟩
  exact ⟨⟨after.samples, after.average, after.minimum⟩, settled⟩

theorem responses_sound (resolver : SocketAddr) (config : BlastDNSConfig)
    (responses : List Response) :
    Sound { health := responses.foldl record (newHealth resolver config), nowNs := 0
            recorded := responses.reverse.map Response.sample } ∧
    (responses ≠ [] → (responses.foldl record (newHealth resolver config)).rttMinUs ∈
      responses.map Response.sample) := by
  induction responses using List.reverseRecOn with
  | nil => exact ⟨⟨by simp, Or.inl ⟨rfl, rfl⟩, Or.inl rfl⟩, by simp⟩
  | append_singleton earlier response ih =>
      rcases record_sound ih.1 response with ⟨sound, settled⟩
      rw [List.foldl_append, List.reverse_append]
      refine ⟨sound, fun _ => ?_⟩
      simpa [or_comm] using settled

end Sequential

section Interleavings

variable {resolver : SocketAddr} {config : BlastDNSConfig} {crew : State Shared Call}

theorem reached_sound (reached : Relation.ReflTransGen Moves (newResolver resolver config) crew) :
    Sound crew.shared ∧ ∀ call ∈ crew.procs, CallSound crew.shared call := by
  apply reachable_invariant
    (fun crew => Sound crew.shared ∧ ∀ call ∈ crew.procs, CallSound crew.shared call) _ reached
  · exact ⟨⟨by simp [newResolver], Or.inl ⟨rfl, rfl⟩, Or.inl rfl⟩, by simp [newResolver]⟩
  · rintro before after ⟨sound, calls⟩ ⟨event, stepped⟩
    cases event with
    | response rttUs hadAnswers =>
        cases stepped
        refine ⟨sound, ?_⟩
        intro call member
        rcases List.mem_append.mp member with earlier | fresh
        · exact calls call earlier
        · rw [List.mem_singleton.mp fresh]
          trivial
    | move index =>
        have acted : act callStep before index () = some after := stepped
        refine act_invariant Sound CallSound ?_ acted ⟨sound, calls⟩
        intro shared call _ shared' next moved held known
        exact call_step_sound moved held known
    | clock nowNs =>
        cases stepped
        refine ⟨⟨sound.samples, sound.average, sound.minimum⟩, ?_⟩
        intro call member
        exact call_sound_grows (List.Subset.refl _) id (calls call member)

/-- The statistics stay within the samples: after any calls of `record_response` in
sequence the average lies between two of their samples and the minimum is one of them,
and so it is in any interleaving of their atomic steps, for the samples recorded so
far. The arithmetic fits u64 throughout. -/
theorem rtt_within_samples (resolver : SocketAddr) (config : BlastDNSConfig) :
    (∀ rttUs, 1 ≤ sampleOf rttUs ∧ sampleOf rttUs ≤ u64Max) ∧
    (∀ responses : List Response, responses ≠ [] →
      Within (responses.map Response.sample)
        (responses.foldl record (newHealth resolver config)).rttEwmaUs ∧
      (responses.foldl record (newHealth resolver config)).rttMinUs ∈
        responses.map Response.sample) ∧
    (∀ (responses : List Response) (response : Response),
      ewma (responses.foldl record (newHealth resolver config)).rttEwmaUs response.sample ≠ none) ∧
    ∀ crew, Relation.ReflTransGen Moves (newResolver resolver config) crew →
      (crew.shared.recorded ≠ [] →
        Within crew.shared.recorded crew.shared.health.rttEwmaUs) ∧
      .overflowed ∉ crew.procs ∧
      (crew.shared.health.rttMinUs = 0 ∨ crew.shared.health.rttMinUs ∈ crew.shared.recorded) ∧
      (.done ∈ crew.procs → crew.shared.health.rttMinUs ∈ crew.shared.recorded) := by
  refine ⟨sample_range, ?_, ?_, ?_⟩
  · intro responses some
    rcases responses_sound resolver config responses with ⟨sound, settled⟩
    rcases sound.average with ⟨_, none⟩ | within
    · exact absurd none (by simpa using some)
    · exact ⟨within_mono (by simp [List.subset_def]) within, settled some⟩
  · intro responses response
    rcases responses_sound resolver config responses with ⟨sound, _⟩
    rcases ewma_within sound (sample_range response.rttUs) (sound.average.imp_left And.left) with
      ⟨value, averaged, _⟩
    simp [Response.sample, averaged]
  · intro crew reached
    rcases reached_sound reached with ⟨sound, calls⟩
    refine ⟨?_, fun member => calls _ member, sound.minimum, fun member => calls _ member⟩
    intro some
    exact sound.average.resolve_left fun unset => some unset.2

/-- Two calls load the average before either has stored, and the second store loses what
the first one averaged. -/
theorem rtt_within_samples_lost :
    ∃ crew, Relation.ReflTransGen Moves (newResolver (.v4 ⟨192, 0, 2, 1⟩ 53) {}) crew ∧
      crew.shared.recorded = [100, 20] ∧ crew.shared.health.rttEwmaUs = 100 ∧
      Within [100, 20] crew.shared.health.rttEwmaUs ∧ crew.shared.health.rttMinUs ∈ [100, 20] := by
  have replayed : (List.foldlM step (newResolver (.v4 ⟨192, 0, 2, 1⟩ 53) {})
      [.response 20 true, .response 100 false, .move 0, .move 0, .move 0, .move 1, .move 1, .move 1,
        .move 0, .move 1, .move 0, .move 0, .move 0, .move 0, .move 0]).map (fun crew =>
          (crew.shared.recorded, crew.shared.health.rttEwmaUs, decide (.done ∈ crew.procs))) =
      some ([100, 20], 100, true) := by
    decide
  rcases Option.map_eq_some_iff.mp replayed with ⟨crew, moved, shown⟩
  simp only [Prod.mk.injEq, decide_eq_true_eq] at shown
  rcases shown with ⟨recorded, average, finished⟩
  have reached := replay_reaches moved
  rcases (rtt_within_samples (.v4 ⟨192, 0, 2, 1⟩ 53) {}).2.2.2 crew reached with
    ⟨within, _, _, settled⟩
  rw [recorded] at within settled
  exact ⟨crew, reached, recorded, average, within (by simp), settled finished⟩

end Interleavings

end BlastDns.RttStats
