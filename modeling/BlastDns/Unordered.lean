import Mathlib.Data.List.AList

/-!
Maps that are iterated in no particular order. A map is its entries with distinct keys;
a visit of it lists every entry once, in any order, and a visit of a map of maps visits
each inner map in an order of its own. Collecting a visit under other keys keeps the
entry that comes latest, so what is collected depends on the order exactly where two
keys fall together.
-/

namespace Unordered

variable {Key Inner Value : Type}

abbrev HashMap (Key Value : Type) := AList fun _ : Key => Value

/-- The entries in the order the map was written in. -/
def written (map : HashMap Key Value) : List (Key × Value) :=
  map.entries.map fun entry => (entry.1, entry.2)

/-- The entries of the map, in some order. -/
def Visits (map : HashMap Key Value) (visits : List (Key × Value)) : Prop :=
  (visits.map Prod.toSigma).Perm map.entries

/-- The entries of a map of maps in some order, each with those of its inner map. -/
def VisitsAll (map : HashMap Key (HashMap Inner Value))
    (visits : List (Key × List (Inner × Value))) : Prop :=
  ∃ outer, Visits map outer ∧
    List.Forall₂ (fun entry visit => visit.1 = entry.1 ∧ Visits entry.2 visit.2) outer visits

theorem lookup_inserted [DecidableEq Key] (map : HashMap Key Value) (key other : Key)
    (value : Value) :
    (map.insert key value).lookup other = if key = other then some value else map.lookup other := by
  by_cases same : key = other
  · subst same
    rw [AList.lookup_insert, if_pos rfl]
  · rw [AList.lookup_insert_ne (Ne.symm same), if_neg same]

section Visits

variable {map : HashMap Key Value} {visits : List (Key × Value)} {key : Key} {value : Value}

theorem visits_written (map : HashMap Key Value) : Visits map (written map) := by
  have same : (written map).map Prod.toSigma = map.entries := by
    rw [written, List.map_map]
    exact List.map_id map.entries
  rw [Visits, same]

theorem visited_iff [DecidableEq Key] (visited : Visits map visits) :
    (key, value) ∈ visits ↔ map.lookup key = some value := by
  have listed : (key, value) ∈ visits ↔ (⟨key, value⟩ : Σ _ : Key, Value) ∈ visits.map Prod.toSigma := by
    constructor
    · intro member
      exact List.mem_map_of_mem member
    · intro member
      rcases List.mem_map.mp member with ⟨⟨other, stored⟩, inside, same⟩
      cases same
      exact inside
  rw [listed, visited.mem_iff, ← AList.mem_lookup_iff, Option.mem_def]

/-- Any entry may come first. -/
theorem visits_first [DecidableEq Key] (stored : map.lookup key = some value) :
    ∃ rest, Visits map ((key, value) :: rest) := by
  have member : (key, value) ∈ written map := (visited_iff (visits_written map)).mpr stored
  rcases List.append_of_mem member with ⟨before, after, split⟩
  refine ⟨before ++ after, ?_⟩
  have moved : ((key, value) :: (before ++ after)).Perm (before ++ (key, value) :: after) :=
    List.perm_middle.symm
  rw [← split] at moved
  exact (moved.map Prod.toSigma).trans (visits_written map)

/-- Any entry may come last. -/
theorem visits_last [DecidableEq Key] (stored : map.lookup key = some value) :
    ∃ earlier, Visits map (earlier ++ [(key, value)]) := by
  rcases visits_first stored with ⟨rest, visited⟩
  exact ⟨rest, ((List.perm_append_singleton _ rest).map Prod.toSigma).trans visited⟩

end Visits

section VisitsAll

theorem paired_right {Left Right : Type} {related : Left → Right → Prop} {lefts : List Left}
    {rights : List Right} (paired : List.Forall₂ related lefts rights) {right : Right}
    (member : right ∈ rights) : ∃ left ∈ lefts, related left right := by
  induction paired with
  | nil => cases member
  | cons heads _ ih =>
      rcases List.mem_cons.mp member with rfl | later
      · exact ⟨_, List.mem_cons_self, heads⟩
      · rcases ih later with ⟨left, inside, known⟩
        exact ⟨left, List.mem_cons_of_mem _ inside, known⟩

variable [DecidableEq Key] {map : HashMap Key (HashMap Inner Value)}
variable {visits : List (Key × List (Inner × Value))} {key : Key} {inner : HashMap Inner Value}
variable {visit : List (Inner × Value)}

theorem visited_inner (visited : VisitsAll map visits) (member : (key, visit) ∈ visits) :
    ∃ inner, map.lookup key = some inner ∧ Visits inner visit := by
  rcases visited with ⟨outer, whole, parts⟩
  rcases paired_right parts member with ⟨⟨other, inner⟩, entry, same, within⟩
  cases same
  exact ⟨inner, (visited_iff whole).mp entry, within⟩

theorem inner_visited (visited : VisitsAll map visits) (stored : map.lookup key = some inner) :
    ∃ visit, (key, visit) ∈ visits ∧ Visits inner visit := by
  rcases visited with ⟨outer, whole, parts⟩
  have entry := (visited_iff whole).mpr stored
  rcases paired_right parts.flip entry with ⟨⟨other, visit⟩, member, same, within⟩
  cases same
  exact ⟨visit, member, within⟩

omit [DecidableEq Key] in
/-- No key is visited twice. -/
theorem visited_once (visited : VisitsAll map visits) : (visits.map Prod.fst).Nodup := by
  rcases visited with ⟨outer, whole, parts⟩
  have same : visits.map Prod.fst = outer.map Prod.fst := by
    clear whole
    induction parts with
    | nil => rfl
    | cons heads _ ih => rw [List.map_cons, List.map_cons, heads.1, ih]
  have keys : outer.map Prod.fst = (outer.map Prod.toSigma).map Sigma.fst := by
    simp [Function.comp_def]
  rw [same, keys, (whole.map Sigma.fst).nodup_iff]
  exact map.nodupKeys

/-- Any inner map may come first, visited in any order of its own. -/
theorem visits_all_first (stored : map.lookup key = some inner) (within : Visits inner visit) :
    ∃ rest, VisitsAll map ((key, visit) :: rest) := by
  rcases visits_first stored with ⟨others, whole⟩
  refine ⟨others.map fun entry => (entry.1, written entry.2), _, whole, .cons ⟨rfl, within⟩ ?_⟩
  rw [List.forall₂_map_right_iff, List.forall₂_same]
  intro entry _
  exact ⟨rfl, visits_written entry.2⟩

end VisitsAll

section Collected

variable {Other : Type} [DecidableEq Other] (rename : Key → Option Other)

/-- Insert what is visited under the key it is renamed to, if it is. -/
def collect (start : HashMap Other Value) (visits : List (Key × Value)) : HashMap Other Value :=
  visits.foldl (fun map visit =>
    match rename visit.1 with
    | some key => map.insert key visit.2
    | none => map) start

/-- The latest visit renamed to this key. -/
def latest (key : Other) : List (Key × Value) → Option Value
  | [] => none
  | visit :: rest =>
      (latest key rest).or (if rename visit.1 = some key then some visit.2 else none)

theorem latest_cons (key : Other) (visit : Key × Value) (rest : List (Key × Value)) :
    latest rename key (visit :: rest) =
      (latest rename key rest).or (if rename visit.1 = some key then some visit.2 else none) := rfl

variable {rename} {visits : List (Key × Value)} {key : Other} {value : Value}

theorem collect_lookup (start : HashMap Other Value) (visits : List (Key × Value)) (key : Other) :
    (collect rename start visits).lookup key = (latest rename key visits).or (start.lookup key) := by
  induction visits generalizing start with
  | nil => rfl
  | cons visit rest ih =>
      have unfolded : collect rename start (visit :: rest) = collect rename
        (match rename visit.1 with
          | some key => start.insert key visit.2
          | none => start) rest := rfl
      rw [unfolded, ih, latest_cons, Option.or_assoc]
      cases named : rename visit.1 with
      | none => simp
      | some other =>
          simp only [lookup_inserted, Option.some.injEq]
          split <;> rfl

theorem latest_visited (found : latest rename key visits = some value) :
    ∃ source, (source, value) ∈ visits ∧ rename source = some key := by
  induction visits with
  | nil => cases found
  | cons visit rest ih =>
      rw [latest_cons] at found
      rcases Option.or_eq_some_iff.mp found with later | ⟨_, here⟩
      · rcases ih later with ⟨source, member, named⟩
        exact ⟨source, List.mem_cons_of_mem _ member, named⟩
      · split at here
        · rename_i named
          cases here
          exact ⟨visit.1, List.mem_cons_self, named⟩
        · cases here

theorem latest_exists {source : Key} (member : (source, value) ∈ visits)
    (named : rename source = some key) : ∃ found, latest rename key visits = some found := by
  induction visits with
  | nil => cases member
  | cons visit rest ih =>
      rw [latest_cons]
      rcases List.mem_cons.mp member with rfl | later
      · cases latest rename key rest with
        | some found => exact ⟨found, rfl⟩
        | none => exact ⟨value, by simp [named]⟩
      · rcases ih later with ⟨found, known⟩
        exact ⟨found, by simp [known]⟩

theorem latest_last (earlier : List (Key × Value)) {source : Key} (named : rename source = some key) :
    latest rename key (earlier ++ [(source, value)]) = some value := by
  induction earlier with
  | nil =>
      rw [List.nil_append, latest_cons, if_pos named]
      rfl
  | cons visit rest ih => rw [List.cons_append, latest_cons, ih, Option.some_or]

end Collected

end Unordered
