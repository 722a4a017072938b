import BlastDns.Batch
import BlastDns.Resolvers

/-!
Host sources that fail and keep failing: a reader whose next read fails again,
or a Python iterator that raises on every call. `load_hosts` of `src/main.rs`
and the filter in `resolve_batch_full` drop each error and pull again, so what
they make of such a source has no end.
-/

namespace BlastDns.HostSources

open Batch Resolvers Resolve Worker Runs

variable {Fault : Type}

/-- A finite sequence of items, and from then on an error on every pull. -/
def failingSource (items : List (Except Fault String)) (faults : ℕ → Fault) : HostSource Fault :=
  fun pull => some (items[pull]?.getD (.error (faults pull)))

section Hosts

/-- `l.split('#').next().unwrap_or("").trim()`, unless nothing is left of it. -/
def hostOf (line : String) : Option String :=
  let trimmed := trimMatches isWhitespace (line.toList.takeWhile fun char => char != '#')
  if trimmed.isEmpty then none else some (String.ofList trimmed)

structure HostLines where
  reads : ℕ := 0
  hosts : List String := []
  ended : Bool := false

/-- One read of `lines()` and what `filter_map` makes of it. -/
def readLine (lines : HostSource Fault) (state : HostLines) : HostLines :=
  if state.ended then state
  else
    match lines state.reads with
    | none => { state with ended := true }
    | some (.error _) => { state with reads := state.reads + 1 }
    | some (.ok line) =>
        { state with reads := state.reads + 1, hosts := state.hosts ++ (hostOf line).toList }

def loading (lines : HostSource Fault) : ℕ → HostLines
  | 0 => {}
  | steps + 1 => readLine lines (loading lines steps)

def HostsEnd (lines : HostSource Fault) : Prop := ∃ steps, (loading lines steps).ended = true

example : (loading (finiteSource [.ok " a.example # first", .error (), .ok "#"]) 4).hosts =
    ["a.example"] := by decide

/-- As long as reads give something, even an error, there is another one. -/
theorem unending_lines {lines : HostSource Fault} (unending : ∀ read, (lines read).isSome = true)
    (steps : ℕ) : (loading lines steps).ended = false ∧ (loading lines steps).reads = steps := by
  induction steps with
  | zero => exact ⟨rfl, rfl⟩
  | succ steps ih =>
      rcases ih with ⟨open_, reads⟩
      rcases Option.isSome_iff_exists.mp (unending steps) with ⟨item, given⟩
      rw [loading, readLine, if_neg (by rw [open_]; decide), reads, given]
      cases item with
      | error fault => exact ⟨open_, rfl⟩
      | ok line => exact ⟨open_, rfl⟩

theorem hosts_endless {lines : HostSource Fault} (unending : ∀ read, (lines read).isSome = true) :
    ¬ HostsEnd lines := by
  rintro ⟨steps, ended⟩
  rw [(unending_lines unending steps).1] at ended
  cases ended

end Hosts

section Streams

def StreamEnds (call : BatchCall Fault) : Prop :=
  ∃ stream, Relation.ReflTransGen (BatchMoves call) {} stream ∧ Finished stream

theorem unending_stream {call : BatchCall Fault}
    (unending : ∀ pull, (call.hosts pull).isSome = true) {stream : BatchStream Fault}
    (reached : Relation.ReflTransGen (BatchMoves call) {} stream) : stream.ended = false := by
  cases ended : stream.ended with
  | false => rfl
  | true =>
      rcases (reached_accounts reached).finished ended with ⟨_, pull, _, last⟩
      have given := unending pull
      rw [last] at given
      cases given

theorem unending_unfinished {call : BatchCall Fault}
    (unending : ∀ pull, (call.hosts pull).isSome = true) {stream : BatchStream Fault}
    (reached : Relation.ReflTransGen (BatchMoves call) {} stream) : ¬ Finished stream := by
  rintro ⟨ended, _⟩
  rw [unending_stream unending reached] at ended
  cases ended

theorem stream_endless {call : BatchCall Fault}
    (unending : ∀ pull, (call.hosts pull).isSome = true) : ¬ StreamEnds call := by
  rintro ⟨stream, reached, finished⟩
  exact unending_unfinished unending reached finished

/-- A batch in progress pulls again and again: between two pulls it can only finish
what it has in hand. -/
def inHand (stream : BatchStream Fault) : ℕ :=
  stream.inProgress.length +
    match stream.pending with
    | .idle => 1
    | .spawned => 0
    | .ready _ => 3

theorem unpulled_less {call : BatchCall Fault} {stream after : BatchStream Fault}
    (moved : BatchMoves call stream after) (same : after.pulls = stream.pulls) :
    inHand after < inHand stream := by
  rcases batch_moves_cases moved with ⟨idle, _, rfl⟩ | ⟨_, rfl⟩ | ⟨host, ready, rfl⟩ |
    ⟨fault, ready, rfl⟩ | ⟨ready, rfl⟩ | ⟨index, host, found, rfl⟩
  · simp only [inHand, idle]
    omega
  · exact absurd same (Nat.succ_ne_self _)
  · simp only [inHand, ready, List.length_append, List.length_singleton]
    omega
  · simp only [inHand, ready]
    omega
  · simp only [inHand, ready]
    omega
  · rcases List.getElem?_eq_some_iff.mp found with ⟨inside, _⟩
    simp only [inHand, List.length_eraseIdx_of_lt inside]
    omega

theorem pulls_grow {call : BatchCall Fault} {stream after : BatchStream Fault}
    (moved : BatchMoves call stream after) : stream.pulls ≤ after.pulls := by
  rcases batch_moves_cases moved with ⟨_, _, rfl⟩ | ⟨_, rfl⟩ | ⟨_, _, rfl⟩ | ⟨_, _, rfl⟩ |
    ⟨_, rfl⟩ | ⟨_, _, _, rfl⟩
  · exact le_rfl
  · exact Nat.le_succ _
  all_goals exact le_rfl

/-- A batch that goes on for ever pulls for ever. -/
theorem endless_pulls {call : BatchCall Fault} {streams : ℕ → BatchStream Fault}
    (moves : ∀ time, BatchMoves call (streams time) (streams (time + 1))) (bound : ℕ) :
    ∃ time, bound ≤ (streams time).pulls := by
  induction bound with
  | zero => exact ⟨0, Nat.zero_le _⟩
  | succ bound ih =>
      rcases ih with ⟨first, enough⟩
      by_contra never
      have fewer : ∀ time, (streams time).pulls ≤ bound := fun time =>
        Nat.le_of_lt_succ (not_le.mp fun more => never ⟨time, more⟩)
      -- no pull after `first`, so what is in hand shrinks with every step
      have shrinks : ∀ steps, (streams (first + steps)).pulls = bound ∧
          inHand (streams (first + steps)) + steps ≤ inHand (streams first) := by
        intro steps
        induction steps with
        | zero => exact ⟨le_antisymm (fewer first) enough, le_rfl⟩
        | succ steps ih =>
            have grows := pulls_grow (moves (first + steps))
            have still : (streams (first + steps + 1)).pulls = (streams (first + steps)).pulls := by
              have most := fewer (first + steps + 1)
              omega
            have less := unpulled_less (moves (first + steps)) still
            refine ⟨still.trans ih.1, ?_⟩
            change inHand (streams (first + steps + 1)) + (steps + 1) ≤ inHand (streams first)
            omega
      have late := (shrinks (inHand (streams first) + 1)).2
      omega

end Streams

theorem failing_gives (items : List (Except Fault String)) (faults : ℕ → Fault) (pull : ℕ) :
    (failingSource items faults pull).isSome = true := rfl

/-- No source that keeps failing brings the hosts of `load_hosts` or a batch to an end:
there is always another read, and always another event, and in every order of events
pull follows pull. -/
theorem failing_source_never_ends (items : List (Except Fault String)) (faults : ℕ → Fault)
    (resolver : DnsResolver) (recordType : ℕ) (skipEmpty skipErrors : Bool) :
    ¬ HostsEnd (failingSource items faults) ∧
    ¬ StreamEnds ⟨resolver, failingSource items faults, recordType, skipEmpty, skipErrors⟩ ∧
    (∀ stream, Relation.ReflTransGen (BatchMoves
        ⟨resolver, failingSource items faults, recordType, skipEmpty, skipErrors⟩) {} stream →
      ∃ after, BatchMoves
        ⟨resolver, failingSource items faults, recordType, skipEmpty, skipErrors⟩ stream after) ∧
    ∀ streams : ℕ → BatchStream Fault, (∀ time, BatchMoves
        ⟨resolver, failingSource items faults, recordType, skipEmpty, skipErrors⟩
        (streams time) (streams (time + 1))) →
      ∀ bound, ∃ time, bound ≤ (streams time).pulls := by
  have unending := failing_gives items faults
  refine ⟨hosts_endless unending, stream_endless unending, ?_, ?_⟩
  · intro stream reached
    exact unfinished_moves (unending_unfinished unending reached)
  · intro streams moves bound
    exact endless_pulls moves bound

theorem raising_iterator_never_ends :
    ¬ HostsEnd (failingSource [.ok "a.example"] fun _ => ()) ∧
    ¬ StreamEnds ⟨sampleResolver, failingSource [.ok "a.example"] fun _ => (), 1, true, true⟩ := by
  have unending := failing_gives [.ok "a.example"] fun _ => ()
  exact ⟨hosts_endless unending, stream_endless unending⟩

end BlastDns.HostSources
