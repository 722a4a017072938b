import BlastDns.Cache
import BlastDns.Runs

/-!
What a cache promises over any sequence of operations: a lookup returns the
latest accepted response of its query until its deadline, and does so unless as
many other queries as the cache has room for were used in between. A rejected
insert is no use of its query, nor is a lookup that finds nothing.
-/

namespace BlastDns.CacheContract

open Lru Cache Worker Runs

variable {Query : Type} [DecidableEq Query] {lru : LruCache Query CacheEntry}

inductive Operation (Query : Type) where
  | insert (query : Query) (response : DnsResponse) (now : ℕ)
  | get (query : Query) (now : ℕ)
  | contains (query : Query) (now : ℕ)

def Operation.now : Operation Query → ℕ
  | insert _ _ now | get _ now | contains _ now => now

def operate (latest : ℕ) (cache : SimpleCache lru) : Operation Query → Option (SimpleCache lru)
  | .insert query response now => cache.insert latest query response now
  | .get query now => some (cache.get query now).2
  | .contains query now => some (cache.contains query now).2

structure CacheRun (lru : LruCache Query CacheEntry) (latest capacity minTtlNs maxTtlNs : ℕ)
    (operations : ℕ → Operation Query) (states : ℕ → SimpleCache lru) : Prop where
  fresh : states 0 = SimpleCache.new lru capacity minTtlNs maxTtlNs
  steps : Run (operate latest) operations states

def Stores (operation : Operation Query) (query : Query) (response : DnsResponse) (now : ℕ) :
    Prop :=
  operation = .insert query response now ∧ Cacheable response

def Uses (cache : SimpleCache lru) (operation : Operation Query) (query : Query) : Prop :=
  match operation with
  | .insert key response _ => key = query ∧ Cacheable response
  | .get key now => key = query ∧ (cache.get key now).1.isSome
  | .contains key now => key = query ∧ (cache.contains key now).1 = true

/-- The insert of `query` before `time` that no later one replaced. -/
structure LatestInsert (operations : ℕ → Operation Query) (query : Query) (time stored : ℕ)
    (response : DnsResponse) (instant : ℕ) : Prop where
  before : stored < time
  stores : Stores (operations stored) query response instant
  last : ∀ between, stored < between → between < time →
    ∀ other later, ¬ Stores (operations between) query other later

section Steps

/-- The order of use a step leaves, by what the operation is and finds. -/
inductive Stepped (cache : SimpleCache lru) : Operation Query → Recency Query CacheEntry → Prop
  | stored (query : Query) (response : DnsResponse) (now : ℕ) (cacheable : Cacheable response) :
      Stepped cache (.insert query response now)
        (Recency.truncate ((lru.recency cache.inner).insert query {
          response := response
          expireAt := now + lifetime cache.minTtlNs cache.maxTtlNs response })
          (lru.capacity cache.inner))
  | rejected (query : Query) (response : DnsResponse) (now : ℕ)
      (uncacheable : ¬ Cacheable response) :
      Stepped cache (.insert query response now) (lru.recency cache.inner)
  | found (operation : Operation Query) (query : Query) (entry : CacheEntry)
      (looks : operation = .get query operation.now ∨ operation = .contains query operation.now)
      (hit : live cache query operation.now = some entry) :
      Stepped cache operation ((lru.recency cache.inner).insert query entry)
  | missed (operation : Operation Query) (query : Query)
      (looks : operation = .get query operation.now ∨ operation = .contains query operation.now)
      (miss : live cache query operation.now = none) :
      Stepped cache operation ((lru.recency cache.inner).erase query)

structure SameSettings (cache after : SimpleCache lru) : Prop where
  minTtl : after.minTtlNs = cache.minTtlNs
  maxTtl : after.maxTtlNs = cache.maxTtlNs
  capacity : lru.capacity after.inner = lru.capacity cache.inner

variable {cache after : SimpleCache lru} {operation : Operation Query} {latest : ℕ}

theorem looked_up_steps {query : Query}
    (looks : operation = .get query operation.now ∨ operation = .contains query operation.now)
    (looked : LookedUp cache after query operation.now) :
    Stepped cache operation (lru.recency after.inner) := by
  rw [looked.recency]
  cases hit : live cache query operation.now with
  | none => exact .missed operation query looks hit
  | some entry => exact .found operation query entry looks hit

theorem operate_steps (operated : operate latest cache operation = some after) :
    Stepped cache operation (lru.recency after.inner) ∧ SameSettings cache after := by
  cases operation with
  | insert query response now =>
      rcases insert_cases latest cache query response now with
        ⟨uncacheable, done⟩ | ⟨_, _, done⟩ | ⟨cacheable, _, _, done⟩
      · cases done.symm.trans operated
        exact ⟨.rejected query response now uncacheable, rfl, rfl, rfl⟩
      · cases done.symm.trans operated
      · cases done.symm.trans operated
        refine ⟨?_, rfl, rfl, lru.capacity_put _ _ _⟩
        rw [lru.recency_put]
        exact .stored query response now cacheable
  | get query now =>
      cases operated
      have looked := (get_effect cache query now).2
      exact ⟨looked_up_steps (Or.inl rfl) looked, looked.minTtl, looked.maxTtl, looked.capacity⟩
  | contains query now =>
      cases operated
      have looked := (get_effect cache query now).2
      rw [contains_get]
      exact ⟨looked_up_steps (Or.inr rfl) looked, looked.minTtl, looked.maxTtl, looked.capacity⟩

omit [DecidableEq Query] in
theorem looks_not_stores {key query : Query} {response : DnsResponse} {now : ℕ}
    (looks : operation = .get key operation.now ∨ operation = .contains key operation.now) :
    ¬ Stores operation query response now := by
  rintro ⟨same, _⟩
  subst same
  rcases looks with impossible | impossible <;> cases impossible

theorem stepped_lookup {recency : Recency Query CacheEntry} {query : Query} {entry : CacheEntry}
    (stepped : Stepped cache operation recency) (found : recency.lookup query = some entry) :
    (∃ now, Stores operation query entry.response now ∧
      entry.expireAt = now + lifetime cache.minTtlNs cache.maxTtlNs entry.response) ∨
    ((lru.recency cache.inner).lookup query = some entry ∧
      ∀ response now, ¬ Stores operation query response now) := by
  cases stepped with
  | stored key response now cacheable =>
      have inserted := Recency.lookup_truncate found
      by_cases same : query = key
      · left
        subst same
        rw [AList.lookup_insert] at inserted
        cases inserted
        exact ⟨now, ⟨rfl, cacheable⟩, rfl⟩
      · right
        rw [AList.lookup_insert_ne same] at inserted
        refine ⟨inserted, ?_⟩
        rintro other later ⟨stores, _⟩
        cases stores
        exact same rfl
  | rejected key response now uncacheable =>
      right
      refine ⟨found, ?_⟩
      rintro other later ⟨stores, cacheable⟩
      cases stores
      exact uncacheable cacheable
  | found _ key value looks hit =>
      right
      rw [Recency.lookup_reinsert (live_some.mp hit).1] at found
      exact ⟨found, fun _ _ => looks_not_stores looks⟩
  | missed _ key looks miss =>
      right
      exact ⟨Recency.lookup_erased found, fun _ _ => looks_not_stores looks⟩

theorem looks_uses {query : Query} {entry : CacheEntry}
    (looks : operation = .get query operation.now ∨ operation = .contains query operation.now)
    (hit : live cache query operation.now = some entry) : Uses cache operation query := by
  have found : (cache.get query operation.now).1 = some entry.response := by
    rw [(get_effect cache query operation.now).1, hit]
    rfl
  rcases looks with same | same
  · rw [same]
    exact ⟨rfl, by rw [found]; rfl⟩
  · rw [same, Uses, contains_get]
    exact ⟨rfl, by rw [found]; rfl⟩

/-- A step that leaves `query` alone keeps its entry, behind the uses it adds. -/
theorem behind_step {query : Query} {entry : CacheEntry} {others : Finset Query}
    {recency : Recency Query CacheEntry}
    (behind : Recency.Behind query entry others (lru.recency cache.inner))
    (stepped : Stepped cache operation recency) (room : others.card < lru.capacity cache.inner)
    (unreplaced : ∀ response now, ¬ Stores operation query response now)
    (fresh : operation.now < entry.expireAt)
    (counted : ∀ other, Uses cache operation other → other ≠ query → other ∈ others) :
    Recency.Behind query entry others recency := by
  cases stepped with
  | stored key response now cacheable =>
      have different : key ≠ query := by
        rintro rfl
        exact unreplaced response now ⟨rfl, cacheable⟩
      have used := counted key ⟨rfl, cacheable⟩ different
      exact Recency.behind_truncate (Recency.behind_insert_other behind different used) room
  | rejected key response now uncacheable => exact behind
  | found _ key value looks hit =>
      by_cases same : key = query
      · subst same
        have stored := (live_some.mp hit).1
        rw [Recency.behind_lookup behind] at stored
        cases stored
        exact Recency.behind_insert
      · exact Recency.behind_insert_other behind same (counted key (looks_uses looks hit) same)
  | missed _ key looks miss =>
      have different : key ≠ query := by
        rintro rfl
        rw [live_some.mpr ⟨Recency.behind_lookup behind, fresh⟩] at miss
        cases miss
      exact Recency.behind_erase_other behind different

end Steps

section Runs

variable {latest capacity minTtlNs maxTtlNs : ℕ}
variable {operations : ℕ → Operation Query} {states : ℕ → SimpleCache lru}

theorem run_settings (run : CacheRun lru latest capacity minTtlNs maxTtlNs operations states)
    (time : ℕ) :
    (states time).minTtlNs = minTtlNs ∧ (states time).maxTtlNs = maxTtlNs ∧
      lru.capacity (states time).inner = max capacity 1 := by
  induction time with
  | zero =>
      rw [run.fresh]
      exact ⟨rfl, rfl, lru.capacity_new _⟩
  | succ time ih =>
      have same := (operate_steps (run.steps time)).2
      rw [same.minTtl, same.maxTtl, same.capacity]
      exact ih

omit [DecidableEq Query] in
theorem latest_extends {query : Query} {time stored instant : ℕ} {response : DnsResponse}
    (latest : LatestInsert operations query time stored response instant)
    (other : ∀ response now, ¬ Stores (operations time) query response now) :
    LatestInsert operations query (time + 1) stored response instant := by
  refine ⟨Nat.lt_succ_of_lt latest.before, latest.stores, ?_⟩
  intro between lower upper
  rcases Nat.lt_succ_iff_lt_or_eq.mp upper with earlier | rfl
  · exact latest.last between lower earlier
  · exact other

omit [DecidableEq Query] in
theorem latest_unique {query : Query} {time stored again instant later : ℕ}
    {response other : DnsResponse}
    (one : LatestInsert operations query time stored response instant)
    (two : LatestInsert operations query time again other later) :
    response = other ∧ instant = later := by
  rcases Nat.lt_trichotomy stored again with lower | rfl | upper
  · exact absurd two.stores (one.last again lower two.before _ _)
  · have same := one.stores.1.symm.trans two.stores.1
    cases same
    exact ⟨rfl, rfl⟩
  · exact absurd one.stores (two.last stored upper one.before _ _)

/-- Whatever is on hand for a query came with its latest accepted insert. -/
def Traced (minTtlNs maxTtlNs : ℕ) (operations : ℕ → Operation Query) (time : ℕ)
    (recency : Recency Query CacheEntry) : Prop :=
  ∀ query entry, recency.lookup query = some entry → ∃ stored instant,
    LatestInsert operations query time stored entry.response instant ∧
      entry.expireAt = instant + lifetime minTtlNs maxTtlNs entry.response

theorem run_traced (run : CacheRun lru latest capacity minTtlNs maxTtlNs operations states)
    (time : ℕ) : Traced minTtlNs maxTtlNs operations time (lru.recency (states time).inner) := by
  induction time with
  | zero =>
      intro query entry found
      rw [run.fresh, SimpleCache.new, lru.recency_new, AList.lookup_empty] at found
      cases found
  | succ time ih =>
      intro query entry found
      rcases run_settings run time with ⟨minTtl, maxTtl, _⟩
      rcases stepped_lookup (operate_steps (run.steps time)).1 found with
        ⟨now, stores, deadline⟩ | ⟨before, other⟩
      · rw [minTtl, maxTtl] at deadline
        refine ⟨time, now, ⟨Nat.lt_succ_self time, stores, ?_⟩, deadline⟩
        intro between lower upper
        omega
      · rcases ih query entry before with ⟨stored, instant, latest, deadline⟩
        exact ⟨stored, instant, latest_extends latest other, deadline⟩

theorem used_behind (run : CacheRun lru latest capacity minTtlNs maxTtlNs operations states)
    {time : ℕ} {query : Query} {others : Finset Query} (room : others.card < max capacity 1)
    (uses : Uses (states time) (operations time) query) :
    ∃ entry, Recency.Behind query entry others (lru.recency (states (time + 1)).inner) := by
  have wide := (run_settings run time).2.2
  have stepped := (operate_steps (run.steps time)).1
  rw [← wide] at room
  generalize operations time = operation at uses stepped
  generalize lru.recency (states (time + 1)).inner = recency at stepped ⊢
  cases stepped with
  | stored key response now cacheable =>
      cases uses.1
      exact ⟨_, Recency.behind_truncate Recency.behind_insert room⟩
  | rejected key response now uncacheable => exact absurd uses.2 uncacheable
  | found _ key value looks hit =>
      rcases looks with same | same <;> rw [same] at uses <;> cases uses.1 <;>
        exact ⟨value, Recency.behind_insert⟩
  | missed _ key looks miss =>
      have nothing : ((states time).get key operation.now).1 = none := by
        rw [(get_effect (states time) key operation.now).1, miss]
        rfl
      rcases looks with same | same <;> rw [same] at uses
      · exact absurd uses.2 (by rw [nothing]; simp)
      · exact absurd uses.2 (by rw [contains_get, nothing]; simp)

/-- From a use of `query` on, its entry stays while there is room for what is used
after it. -/
theorem kept_behind (run : CacheRun lru latest capacity minTtlNs maxTtlNs operations states)
    {query : Query} {entry : CacheEntry} {others : Finset Query}
    (room : others.card < max capacity 1) {first last : ℕ} (order : first ≤ last)
    (behind : Recency.Behind query entry others (lru.recency (states first).inner))
    (unreplaced : ∀ between, first ≤ between → between < last →
      ∀ response now, ¬ Stores (operations between) query response now)
    (fresh : ∀ between, between < last → (operations between).now < entry.expireAt)
    (counted : ∀ between, first ≤ between → between < last →
      ∀ other, Uses (states between) (operations between) other → other ≠ query → other ∈ others) :
    Recency.Behind query entry others (lru.recency (states last).inner) := by
  induction last, order using Nat.le_induction with
  | base => exact behind
  | succ last order ih =>
      have held := ih
        (fun between lower upper => unreplaced between lower (Nat.lt_succ_of_lt upper))
        (fun between upper => fresh between (Nat.lt_succ_of_lt upper))
        (fun between lower upper => counted between lower (Nat.lt_succ_of_lt upper))
      have now := Nat.lt_succ_self last
      apply behind_step held (operate_steps (run.steps last)).1
      · rw [(run_settings run last).2.2]
        exact room
      · exact unreplaced last order now
      · exact fresh last now
      · exact counted last order now

theorem run_size (run : CacheRun lru latest capacity minTtlNs maxTtlNs operations states)
    (time : ℕ) : (lru.recency (states time).inner).entries.length ≤ max capacity 1 := by
  induction time with
  | zero =>
      rw [run.fresh, SimpleCache.new, lru.recency_new]
      exact Nat.zero_le _
  | succ time ih =>
      have wide := (run_settings run time).2.2
      have stepped := (operate_steps (run.steps time)).1
      generalize operations time = operation at stepped
      generalize lru.recency (states (time + 1)).inner = recency at stepped ⊢
      cases stepped with
      | stored key response now cacheable =>
          rw [← wide]
          exact Recency.truncate_length _ _
      | rejected key response now uncacheable => exact ih
      | found _ key value looks hit =>
          have promoted : Recency.promote (lru.recency (states time).inner) key =
              (lru.recency (states time).inner).insert key value := by
            rw [Recency.promote, (live_some.mp hit).1]
          rw [← promoted, Recency.promote_length]
          exact ih
      | missed _ key looks miss => exact (Recency.erase_length _ _).trans ih

/-- The contract of the cache, over any correct map and any sequence of operations. A
lookup returns nothing but the latest accepted response of its query before its
deadline. Once the query was used, and with fewer other queries used since than the
cache has room for, it does return it. `contains` answers as `get` does, and the
capacity is never exceeded. -/
theorem cache_contract (room : 1 ≤ capacity)
    (run : CacheRun lru latest capacity minTtlNs maxTtlNs operations states) (time : ℕ) :
    (∀ query now response, ((states time).get query now).1 = some response →
      ∃ stored instant, LatestInsert operations query time stored response instant ∧
        now < instant + lifetime minTtlNs maxTtlNs response) ∧
    (∀ query now response stored instant,
      LatestInsert operations query time stored response instant →
      now < instant + lifetime minTtlNs maxTtlNs response →
      (∀ earlier, earlier < time → (operations earlier).now ≤ now) →
      ∀ used, stored ≤ used → used < time → Uses (states used) (operations used) query →
      ∀ others : Finset Query, others.card < capacity →
      (∀ between, used < between → between < time → ∀ other,
        Uses (states between) (operations between) other → other ≠ query → other ∈ others) →
      ((states time).get query now).1 = some response) ∧
    (∀ query now, ((states time).contains query now).1 = ((states time).get query now).1.isSome) ∧
    (lru.recency (states time).inner).entries.length ≤ capacity := by
  have exact_room : max capacity 1 = capacity := max_eq_left room
  refine ⟨?_, ?_, ?_, ?_⟩
  · intro query now response returned
    rw [(get_effect (states time) query now).1] at returned
    rcases Option.map_eq_some_iff.mp returned with ⟨entry, hit, rfl⟩
    rcases live_some.mp hit with ⟨found, fresh⟩
    rcases run_traced run time query entry found with ⟨stored, instant, latest, deadline⟩
    rw [deadline] at fresh
    exact ⟨stored, instant, latest, fresh⟩
  · intro query now response stored instant latest alive past used order before uses others few
      counted
    rw [← exact_room] at few
    rcases used_behind run few uses with ⟨entry, behind⟩
    -- the entry at the front is the one of the latest insert
    rcases run_traced run (used + 1) query entry (Recency.behind_lookup behind) with
      ⟨again, later, other, deadline⟩
    have narrowed : LatestInsert operations query (used + 1) stored response instant :=
      ⟨Nat.lt_succ_of_le order, latest.stores,
        fun between lower upper => latest.last between lower (by omega)⟩
    rcases latest_unique narrowed other with ⟨same, rfl⟩
    rw [← same] at deadline
    have behind := kept_behind run few before behind
      (fun between lower upper => latest.last between (by omega) upper)
      (fun between upper => by
        rw [deadline]
        exact lt_of_le_of_lt (past between upper) alive)
      (fun between lower upper => counted between lower upper)
    have hit : live (states time) query now = some entry := by
      apply live_some.mpr
      rw [deadline]
      exact ⟨Recency.behind_lookup behind, alive⟩
    rw [(get_effect (states time) query now).1, hit, same]
    rfl
  · intro query now
    rw [contains_get]
  · rw [← exact_room]
    exact run_size run time

/-- With the bounds the right way round and the clock far from its end nothing panics. -/
theorem operate_completes {cache : SimpleCache lru} (order : cache.minTtlNs ≤ cache.maxTtlNs)
    (operation : Operation Query) (fits : operation.now + cache.maxTtlNs ≤ latest) :
    ∃ after, operate latest cache operation = some after := by
  cases operation with
  | insert query response now =>
      rcases insert_cases latest cache query response now with
        ⟨_, done⟩ | ⟨_, bad, _⟩ | ⟨_, _, _, done⟩
      · exact ⟨_, done⟩
      · have within : lifetime cache.minTtlNs cache.maxTtlNs response ≤ cache.maxTtlNs :=
          max_le order (min_le_right _ _)
        exact absurd ⟨order, le_trans (Nat.add_le_add_left within now) fits⟩ bad
      · exact ⟨_, done⟩
  | get query now => exact ⟨_, rfl⟩
  | contains query now => exact ⟨_, rfl⟩

theorem cache_run_exists (lru : LruCache Query CacheEntry) (capacity : ℕ)
    (order : minTtlNs ≤ maxTtlNs) (fits : ∀ time, (operations time).now + maxTtlNs ≤ latest) :
    ∃ states, CacheRun lru latest capacity minTtlNs maxTtlNs operations states := by
  let set : SimpleCache lru → Prop := fun cache =>
    cache.minTtlNs = minTtlNs ∧ cache.maxTtlNs = maxTtlNs
  have progress : ∀ time cache, set cache →
      ∃ after, operate latest cache (operations time) = some after ∧ set after := by
    rintro time cache ⟨rfl, rfl⟩
    rcases operate_completes order (operations time) (fits time) with ⟨after, done⟩
    have same := (operate_steps done).2
    exact ⟨after, done, same.minTtl, same.maxTtl⟩
  rcases run_exists_on set operations progress (SimpleCache.new lru capacity minTtlNs maxTtlNs)
    ⟨rfl, rfl⟩ with ⟨states, fresh, steps, _⟩
  exact ⟨states, fresh, steps⟩

def askedOperations : ℕ → Operation ℕ
  | 0 => .insert 7 shortAnswer 0
  | _ + 1 => .get 7 5000000000

theorem cache_contract_asked :
    ∃ states, CacheRun (listed : LruCache ℕ CacheEntry) 1000000000000000000 1 1000000000 60000000000
        askedOperations states ∧
      ((states 3).get 7 5000000000).1 = some shortAnswer := by
  have order : 1000000000 ≤ 60000000000 := by norm_num
  have clock : ∀ time, (askedOperations time).now ≤ 5000000000 := by
    intro time
    cases time with
    | zero => exact Nat.zero_le _
    | succ time => exact le_rfl
  have fits : ∀ time, (askedOperations time).now + 60000000000 ≤ 1000000000000000000 := by
    intro time
    have := clock time
    omega
  have cacheable : Cacheable shortAnswer := by
    constructor <;> simp [shortAnswer]
  have stored : LatestInsert askedOperations 7 3 0 shortAnswer 0 := by
    refine ⟨by norm_num, ⟨rfl, cacheable⟩, ?_⟩
    rintro (_ | between) lower _ other later ⟨same, _⟩
    · exact absurd lower (lt_irrefl 0)
    · cases same
  rcases cache_run_exists listed 1 order fits with ⟨states, run⟩
  refine ⟨states, run, ?_⟩
  apply (cache_contract le_rfl run 3).2.1 7 5000000000 shortAnswer 0 0 stored _ _ 0 le_rfl
    (by norm_num) ⟨rfl, cacheable⟩ ∅ (by simp)
  · rintro (_ | between) lower _ other uses different
    · exact absurd lower (lt_irrefl 0)
    · exact absurd uses.1.symm different
  · norm_num [lifetime, ttlSecs, shortAnswer]
  · intro earlier _
    exact clock earlier

end Runs

end BlastDns.CacheContract
