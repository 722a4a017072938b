import Mathlib.Data.Finset.Card
import Mathlib.Data.List.AList

/-!
Maps of bounded size that forget what was used least recently. The entries are
kept in order of use, and the laws of such a map say what each operation does to
that order. An entry survives for as long as fewer keys than the map has room
for were used after it. Keys and values are arbitrary.
-/

namespace Lru

variable {Key Value : Type} [DecidableEq Key]

/-- Entries with distinct keys, the most recently used first. -/
abbrev Recency (Key Value : Type) := AList fun _ : Key => Value

namespace Recency

def truncate (entries : Recency Key Value) (size : ℕ) : Recency Key Value :=
  ⟨entries.entries.take size, entries.nodupKeys.sublist (List.take_sublist size _)⟩

def promote (entries : Recency Key Value) (key : Key) : Recency Key Value :=
  match entries.lookup key with
  | some value => entries.insert key value
  | none => entries

theorem lookup_reinsert {entries : Recency Key Value} {key : Key} {value : Value}
    (found : entries.lookup key = some value) (other : Key) :
    (entries.insert key value).lookup other = entries.lookup other := by
  by_cases same : other = key
  · subst same
    rw [AList.lookup_insert, found]
  · exact AList.lookup_insert_ne same

theorem lookup_erased {entries : Recency Key Value} {key other : Key} {value : Value}
    (found : (entries.erase key).lookup other = some value) :
    entries.lookup other = some value := by
  by_cases same : other = key
  · subst same
    rw [AList.lookup_erase] at found
    cases found
  · rwa [AList.lookup_erase_ne same] at found

theorem lookup_truncate {size : ℕ} {entries : Recency Key Value} {key : Key} {value : Value}
    (found : (truncate entries size).lookup key = some value) :
    entries.lookup key = some value := by
  apply AList.mem_lookup_iff.mpr
  exact List.mem_of_mem_take (AList.mem_lookup_iff.mp found)

omit [DecidableEq Key] in
theorem truncate_length (size : ℕ) (entries : Recency Key Value) :
    (truncate entries size).entries.length ≤ size :=
  List.length_take_le size entries.entries

theorem erase_length (key : Key) (entries : Recency Key Value) :
    (entries.erase key).entries.length ≤ entries.entries.length :=
  (List.kerase_sublist key entries.entries).length_le

theorem promote_length (key : Key) (entries : Recency Key Value) :
    (promote entries key).entries.length = entries.entries.length := by
  rw [promote]
  cases found : entries.lookup key with
  | none => rfl
  | some value =>
      have member : key ∈ entries.keys := AList.lookup_isSome.mp (by rw [found]; rfl)
      have keys : (entries.insert key value).keys.length = entries.keys.length := by
        rw [AList.keys_insert, List.length_cons, List.length_erase_of_mem member]
        have some : 0 < entries.keys.length := List.length_pos_of_mem member
        omega
      simpa [AList.keys, List.keys] using keys

theorem erase_promote (entries : Recency Key Value) (key : Key) :
    (promote entries key).erase key = entries.erase key := by
  rw [promote]
  cases found : entries.lookup key with
  | none => rfl
  | some value =>
      apply AList.ext
      have inserted : (entries.insert key value).entries =
          (⟨key, value⟩ : Sigma fun _ : Key => Value) :: (entries.erase key).entries := rfl
      have erased : ((entries.insert key value).erase key).entries =
          (entries.insert key value).entries.kerase key := rfl
      rw [erased, inserted]
      exact List.kerase_cons_eq rfl

theorem promote_absent {entries : Recency Key Value} {key : Key}
    (absent : entries.lookup key = none) : promote entries key = entries.erase key := by
  rw [promote, absent]
  apply AList.ext
  exact (List.kerase_of_notMem_keys (AList.lookup_eq_none.mp absent)).symm

/-- `key` holds `value`, and only `others` were used after it. -/
def Behind (key : Key) (value : Value) (others : Finset Key) (entries : Recency Key Value) : Prop :=
  ∃ newer older, entries.entries = newer ++ ⟨key, value⟩ :: older ∧
    ∀ entry ∈ newer, entry.1 ∈ others

section Survival

variable {key other : Key} {value changed : Value} {others : Finset Key}
variable {entries : Recency Key Value}

theorem behind_lookup (behind : Behind key value others entries) :
    entries.lookup key = some value := by
  rcases behind with ⟨newer, older, order, _⟩
  apply AList.mem_lookup_iff.mpr
  rw [order]
  exact List.mem_append_right _ List.mem_cons_self

theorem behind_insert : Behind key value others (entries.insert key value) :=
  ⟨[], _, AList.entries_insert, by simp⟩

theorem behind_erase_other (behind : Behind key value others entries) (different : other ≠ key) :
    Behind key value others (entries.erase other) := by
  rcases behind with ⟨newer, older, order, used⟩
  have erased : (entries.erase other).entries = (entries.entries).kerase other := rfl
  by_cases ahead : other ∈ newer.keys
  · refine ⟨newer.kerase other, older, ?_, ?_⟩
    · rw [erased, order, List.kerase_append_left ahead]
    · intro entry member
      exact used entry ((List.kerase_sublist other newer).subset member)
  · refine ⟨newer, older.kerase other, ?_, used⟩
    rw [erased, order, List.kerase_append_right ahead, List.kerase_cons_ne different]

theorem behind_insert_other (behind : Behind key value others entries) (different : other ≠ key)
    (counted : other ∈ others) : Behind key value others (entries.insert other changed) := by
  rcases behind_erase_other behind different with ⟨newer, older, order, used⟩
  refine ⟨⟨other, changed⟩ :: newer, older, ?_, ?_⟩
  · rw [AList.entries_insert, List.cons_append, ← order]
    rfl
  · intro entry member
    rcases List.mem_cons.mp member with rfl | later
    · exact counted
    · exact used entry later

theorem behind_truncate {size : ℕ} (behind : Behind key value others entries)
    (room : others.card < size) : Behind key value others (truncate entries size) := by
  rcases behind with ⟨newer, older, order, used⟩
  have distinct : newer.keys.Nodup := by
    have all := entries.nodupKeys
    rw [order] at all
    exact List.NodupKeys.sublist (List.sublist_append_left _ _) all
  have few : newer.length ≤ others.card := by
    have keys : newer.keys.toFinset ⊆ others := by
      intro recent member
      rcases List.mem_map.mp (List.mem_toFinset.mp member) with ⟨entry, inside, rfl⟩
      exact used entry inside
    have counted := Finset.card_le_card keys
    rwa [List.toFinset_card_of_nodup distinct, List.keys, List.length_map] at counted
  refine ⟨newer, older.take (size - newer.length - 1), ?_, used⟩
  have split : size = newer.length + (size - newer.length - 1 + 1) := by omega
  rw [truncate]
  dsimp only
  rw [order, split, List.take_length_add_append, List.take_succ_cons]
  congr 3
  omega

end Survival

end Recency

/-- A map with room for `new`'s number of entries, known by the order of their use. -/
structure LruCache (Key Value : Type) [DecidableEq Key] where
  Map : Type
  new : ℕ → Map
  get : Map → Key → Option Value × Map
  put : Map → Key → Value → Map
  pop : Map → Key → Map
  capacity : Map → ℕ
  recency : Map → Recency Key Value
  capacity_new : ∀ size, capacity (new size) = size
  capacity_get : ∀ map key, capacity (get map key).2 = capacity map
  capacity_put : ∀ map key value, capacity (put map key value) = capacity map
  capacity_pop : ∀ map key, capacity (pop map key) = capacity map
  recency_new : ∀ size, recency (new size) = ∅
  get_found : ∀ map key, (get map key).1 = (recency map).lookup key
  recency_get : ∀ map key, recency (get map key).2 = (recency map).promote key
  recency_put : ∀ map key value,
    recency (put map key value) = Recency.truncate ((recency map).insert key value) (capacity map)
  recency_pop : ∀ map key, recency (pop map key) = (recency map).erase key

/-- The plain list of the entries, with its capacity, is such a map. -/
def listed : LruCache Key Value where
  Map := ℕ × Recency Key Value
  new size := (size, ∅)
  get map key := (map.2.lookup key, map.1, map.2.promote key)
  put map key value := (map.1, Recency.truncate (map.2.insert key value) map.1)
  pop map key := (map.1, map.2.erase key)
  capacity := Prod.fst
  recency := Prod.snd
  capacity_new _ := rfl
  capacity_get _ _ := rfl
  capacity_put _ _ _ := rfl
  capacity_pop _ _ := rfl
  recency_new _ := rfl
  get_found _ _ := rfl
  recency_get _ _ := rfl
  recency_put _ _ _ := rfl
  recency_pop _ _ := rfl

end Lru
