import BlastDns.MockPrecedence

/-!
The order of patterns between `MockClient.mock_dns` of `src/python.rs` and the mock. The
dictionary has an order, the `HashMap` it is copied into has none, and the mock tries
its patterns in the order it iterated that map. So the first pattern of the dictionary
decides only if the other patterns that would answer say the same.
-/

namespace BlastDns.Mock

open MockBlastDNSClient NetText Unordered
open Resolve (noError)

variable {regex : RegexCrate} {hickory : HickoryProto}

section Extraction

variable {found next last : Responses × List String} {key : String}
variable {records : HashMap String (List String)}

theorem extract_entry_text (found : Responses × List String) (key : String) (value : PyValue) :
    extractEntry found ⟨.text key, value⟩ =
      if key = nxdomainKey then value.extractTexts.map fun texts => (found.1, texts)
      else value.extractRecords.map fun records => (found.1.insert key records, found.2) := by
  have read : (PyKey.text key).extract = .ok key := rfl
  rw [extractEntry]
  simp only [read, bind, Except.bind]
  by_cases listed : key = nxdomainKey
  · rw [if_pos listed, if_pos listed]
    cases value <;> rfl
  · rw [if_neg listed, if_neg listed]
    cases value <;> rfl

theorem extract_entry_ok {entry : Σ _ : PyKey, PyValue}
    (extracted : extractEntry found entry = .ok next) :
    (∃ texts, entry = ⟨.text nxdomainKey, .texts texts⟩ ∧ next = (found.1, texts)) ∨
    ∃ key records, key ≠ nxdomainKey ∧ entry = ⟨.text key, .records records⟩ ∧
      next = (found.1.insert key records, found.2) := by
  obtain ⟨name, value⟩ := entry
  cases name with
  | other hash => cases extracted
  | text key =>
      rw [extract_entry_text] at extracted
      split at extracted
      · rename_i listed
        cases value with
        | texts items =>
            cases extracted
            exact Or.inl ⟨items, by rw [listed], rfl⟩
        | records | other => cases extracted
      · rename_i host
        cases value with
        | records items =>
            cases extracted
            exact Or.inr ⟨key, items, host, rfl, rfl⟩
        | texts | other => cases extracted

/-- The map has the entries of the dictionary, and what it had before under other keys. -/
theorem extracted_lookup {entries : List (Σ _ : PyKey, PyValue)} (distinct : entries.NodupKeys)
    (extracted : entries.foldlM extractEntry found = .ok last) (host : key ≠ nxdomainKey) :
    last.1.lookup key = some records ↔
      (⟨.text key, .records records⟩ : Σ _ : PyKey, PyValue) ∈ entries ∨
        found.1.lookup key = some records ∧ PyKey.text key ∉ entries.keys := by
  induction entries generalizing found with
  | nil =>
      cases extracted
      simp
  | cons entry rest ih =>
      rw [List.foldlM_cons] at extracted
      cases added : extractEntry found entry with
      | error e =>
          rw [added] at extracted
          cases extracted
      | ok next =>
          rw [added] at extracted
          rw [List.nodupKeys_cons] at distinct
          rw [ih distinct.2 extracted]
          rcases extract_entry_ok added with ⟨texts, rfl, rfl⟩ | ⟨other, stored, _, rfl, rfl⟩
          · simp [host]
          · by_cases same : key = other
            · subst same
              have unrepeated : PyKey.text key ∉ rest.keys := distinct.1
              have absent := List.notMem_keys.mp unrepeated (.records records)
              simp [absent, unrepeated, eq_comm]
            · simp [same]

theorem extracted_host {dict : PyDict} {responses : Responses} {nxdomains : List String}
    (extracted : extractEntries dict = .ok (responses, nxdomains)) (host : key ≠ nxdomainKey) :
    responses.lookup key = some records ↔ dict.lookup (.text key) = some (.records records) := by
  have listed : (⟨.text key, .records records⟩ : Σ _ : PyKey, PyValue) ∈ dict.entries ↔
      dict.lookup (.text key) = some (.records records) :=
    AList.mem_lookup_iff.symm
  rw [extracted_lookup dict.nodupKeys extracted host, listed]
  simp

end Extraction

section Patterns

variable (regex hickory)

def patternAnswers (host : String) (recordType : ℕ) :
    (Σ _ : PyKey, PyValue) → Option (List String)
  | ⟨.text key, .records records⟩ =>
      visitedPattern regex hickory host recordType (key, written records)
  | _ => none

/-- The answers of the first pattern, in the order of the dictionary, that matches the
host and has the record type. -/
def firstPattern (dict : PyDict) (host : String) (recordType : ℕ) : Option (List String) :=
  dict.entries.findSome? (patternAnswers regex hickory host recordType)

def PatternEntry (dict : PyDict) (host : String) (recordType : ℕ) (answers : List String) : Prop :=
  ∃ key pattern records typeName, dict.lookup (.text key) = some (.records records) ∧
    compiledPattern regex key = some pattern ∧ regex.isMatch pattern host = true ∧
    records.lookup typeName = some answers ∧ hickory.recordTypeFromStr typeName = some recordType

variable {regex hickory} {dict : PyDict} {responses : Responses} {nxdomains : List String}
variable {visits : List Visit} {host : String} {recordType : ℕ} {answers : List String}

theorem visited_pattern_iff {visit : Visit} :
    visitedPattern regex hickory host recordType visit = some answers ↔
      ∃ pattern, compiledPattern regex visit.1 = some pattern ∧
        regex.isMatch pattern host = true ∧
        latest hickory.recordTypeFromStr recordType visit.2 = some answers := by
  simp [visitedPattern, Option.bind_eq_some_iff]

theorem pattern_not_listed {key : String} {pattern : regex.Regex}
    (compiled : compiledPattern regex key = some pattern) : key ≠ nxdomainKey := by
  rintro rfl
  have plain : stripPrefix nxdomainKey = none := by decide
  rw [compiledPattern, plain] at compiled
  cases compiled

theorem first_pattern_entry
    (found : firstPattern regex hickory dict host recordType = some answers) :
    PatternEntry regex hickory dict host recordType answers := by
  rcases List.exists_of_findSome?_eq_some found with ⟨⟨name, value⟩, member, here⟩
  cases name with
  | other hash => cases here
  | text key =>
      cases value with
      | texts | other => cases here
      | records records =>
          rcases visited_pattern_iff.mp here with ⟨pattern, compiled, hit, named⟩
          rcases latest_visited named with ⟨typeName, inside, read⟩
          exact ⟨key, pattern, records, typeName, AList.mem_lookup_iff.mpr member, compiled, hit,
            (visited_iff (visits_written records)).mp inside, read⟩

theorem visited_pattern_entry (extracted : extractEntries dict = .ok (responses, nxdomains))
    (visited : VisitsAll responses visits)
    (found : visits.findSome? (visitedPattern regex hickory host recordType) = some answers) :
    PatternEntry regex hickory dict host recordType answers := by
  rcases List.exists_of_findSome?_eq_some found with ⟨⟨key, visit⟩, member, here⟩
  rcases visited_pattern_iff.mp here with ⟨pattern, compiled, hit, named⟩
  rcases visited_inner visited member with ⟨records, stored, within⟩
  rcases latest_visited named with ⟨typeName, inside, read⟩
  have configured := (extracted_host extracted (pattern_not_listed compiled)).mp stored
  exact ⟨key, pattern, records, typeName, configured, compiled, hit,
    (visited_iff within).mp inside, read⟩

theorem pattern_entry_found (extracted : extractEntries dict = .ok (responses, nxdomains))
    (visited : VisitsAll responses visits)
    (entry : PatternEntry regex hickory dict host recordType answers) :
    ∃ found, visits.findSome? (visitedPattern regex hickory host recordType) = some found := by
  rcases entry with ⟨key, pattern, records, typeName, configured, compiled, hit, listed, read⟩
  have stored := (extracted_host extracted (pattern_not_listed compiled)).mpr configured
  rcases inner_visited visited stored with ⟨visit, member, within⟩
  rcases latest_exists ((visited_iff within).mpr listed) read with ⟨found, named⟩
  have here : visitedPattern regex hickory host recordType (key, visit) = some found :=
    visited_pattern_iff.mpr ⟨pattern, compiled, hit, named⟩
  rw [← Option.isSome_iff_exists, List.findSome?_isSome_iff]
  exact ⟨_, member, by rw [here]; rfl⟩

/-- Every entry is found first in some order of iteration. -/
theorem pattern_entry_chosen (extracted : extractEntries dict = .ok (responses, nxdomains))
    (entry : PatternEntry regex hickory dict host recordType answers) :
    ∃ visits, VisitsAll responses visits ∧
      visits.findSome? (visitedPattern regex hickory host recordType) = some answers := by
  rcases entry with ⟨key, pattern, records, typeName, configured, compiled, hit, listed, read⟩
  have stored := (extracted_host extracted (pattern_not_listed compiled)).mpr configured
  rcases visits_last listed with ⟨earlier, within⟩
  rcases visits_all_first stored within with ⟨rest, visited⟩
  refine ⟨_, visited, ?_⟩
  have here : visitedPattern regex hickory host recordType
      (key, earlier ++ [(typeName, answers)]) = some answers :=
    visited_pattern_iff.mpr ⟨pattern, compiled, hit, latest_last earlier read⟩
  rw [List.findSome?_cons, here]

/-- With nothing exact and no NXDOMAIN the patterns decide, in the order of the visits. -/
theorem pattern_answer {before : MockBlastDNSClient regex}
    (inexact : ∀ answers, ¬ ExactEntry hickory responses host recordType answers)
    (unlisted : ¬ NxdomainFor regex nxdomains host) (visited : VisitsAll responses visits) :
    (before.mockDns hickory visits nxdomains).resolveFullImpl hickory host recordType =
      fabricateResponse hickory host recordType
        ((visits.findSome? (visitedPattern regex hickory host recordType)).getD []) := by
  have absent : visitedExact hickory host recordType visits = none := by
    rw [Option.eq_none_iff_forall_ne_some]
    intro answers found
    exact inexact answers (visited_exact_entry visited found)
  rw [unlisted_answer hickory _ _ _ unlisted, absent, Option.none_or]

/-- Where a host has no exact entry and is not listed as NXDOMAIN, the first pattern of
the dictionary decides what the mock answers, in whatever order the maps on the way are
iterated, exactly if each pattern that matches and has the type gives the same response. -/
theorem first_pattern_wins_iff {client : PyMockBlastDNSClient regex}
    (extracted : client.extract (some dict) = .ok (responses, nxdomains))
    (inexact : ∀ answers,
      ¬ ExactEntry hickory responses (askedHost host recordType) recordType answers)
    (unlisted : ¬ NxdomainFor regex nxdomains (askedHost host recordType)) :
    (∀ after, PyMocks hickory client (some dict) after →
      after.resolveFull hickory host recordType =
        fabricateResponse hickory (askedHost host recordType) recordType
          ((firstPattern regex hickory dict (askedHost host recordType) recordType).getD [])) ↔
    ∀ answers, PatternEntry regex hickory dict (askedHost host recordType) recordType answers →
      fabricateResponse hickory (askedHost host recordType) recordType answers =
        fabricateResponse hickory (askedHost host recordType) recordType
          ((firstPattern regex hickory dict (askedHost host recordType) recordType).getD []) := by
  have entries : extractEntries dict = .ok (responses, nxdomains) := by
    rw [PyMockBlastDNSClient.extract] at extracted
    split at extracted
    · cases extracted
    · exact extracted
  constructor
  · intro wins answers entry
    rcases pattern_entry_chosen entries entry with ⟨visits, visited, found⟩
    have chosen := wins _ ⟨responses, nxdomains, extracted, {}, visits, visited, rfl⟩
    rw [resolveFull, pattern_answer inexact unlisted visited, found] at chosen
    exact chosen
  · rintro agree after ⟨others, names, again, before, visits, visited, rfl⟩
    rw [extracted] at again
    cases again
    rw [resolveFull, pattern_answer inexact unlisted visited]
    cases found : visits.findSome?
        (visitedPattern regex hickory (askedHost host recordType) recordType) with
    | some answers => exact agree answers (visited_pattern_entry entries visited found)
    | none =>
        -- nothing matches in this order, so nothing does in the dictionary's
        cases first : firstPattern regex hickory dict (askedHost host recordType) recordType with
        | none => rfl
        | some answers =>
            rcases pattern_entry_found entries visited (first_pattern_entry first) with
              ⟨other, matched⟩
            rw [found] at matched
            cases matched

end Patterns

section Samples

def patternPair (second : String) (apart : "regex:api" ≠ second) : PyDict where
  entries :=
    [⟨.text "regex:api", .records (AList.singleton "A" ["192.0.2.1"])⟩,
      ⟨.text second, .records (AList.singleton "A" ["192.0.2.2"])⟩]
  nodupKeys := by simp [List.nodupKeys_cons, apart]

section Pair

variable {second : String} {apart : "regex:api" ≠ second}

theorem pair_lookup {key : String} {value : PyValue}
    (stored : (patternPair second apart).lookup (.text key) = some value) :
    key = "regex:api" ∧ value = .records (AList.singleton "A" ["192.0.2.1"]) ∨
    key = second ∧ value = .records (AList.singleton "A" ["192.0.2.2"]) := by
  have member := AList.mem_lookup_iff.mp stored
  simp only [patternPair, List.mem_cons, List.not_mem_nil, or_false] at member
  rcases member with same | same
  · cases same
    exact Or.inl ⟨rfl, rfl⟩
  · cases same
    exact Or.inr ⟨rfl, rfl⟩

theorem pair_extracted (listed : second ≠ nxdomainKey) :
    ({} : PyMockBlastDNSClient literalRegex).extract (some (patternPair second apart)) =
      .ok (((∅ : Responses).insert "regex:api" (AList.singleton "A" ["192.0.2.1"])).insert second
        (AList.singleton "A" ["192.0.2.2"]), []) := by
  have first : "regex:api" ≠ nxdomainKey := by decide
  simp only [PyMockBlastDNSClient.extract, extractEntries, patternPair, List.foldlM_cons,
    List.foldlM_nil, extract_entry_text, if_neg first, if_neg listed]
  rfl

theorem pair_inexact (apart : "regex:api" ≠ second) {responses : Responses} {nxdomains : List String}
    (extracted : extractEntries (patternPair second apart) = .ok (responses, nxdomains))
    (other : second ≠ "api.example") (answers : List String) :
    ¬ ExactEntry addressProto responses "api.example" 1 answers := by
  rintro ⟨_, records, _, stored, _⟩
  have configured := (extracted_host extracted (by decide)).mp stored
  rcases pair_lookup configured with ⟨wrong, _⟩ | ⟨wrong, _⟩
  · exact absurd wrong (by decide)
  · exact other wrong.symm

end Pair

theorem address_answers {typeName : String} {stored answers : List String}
    (listed : (AList.singleton "A" stored : HashMap String (List String)).lookup typeName =
      some answers) : answers = stored := by
  have member := AList.mem_lookup_iff.mp listed
  rw [AList.singleton_entries, List.mem_singleton] at member
  cases member
  rfl

theorem address_response {text : String} {ip : Ipv4Addr}
    (parsed : parseWith readIpv4 text.toList = some ip) :
    fabricateResponse addressProto "api.example" 1 [text] =
      .ok (responseMessage addressProto (fqdn "api.example") 1 noError [ip]) := by
  have read : addressProto.nameFromStr (fqdn "api.example") = .ok (fqdn "api.example") := rfl
  rw [fabricateResponse, fabricated_eq read (address_reads parsed)]
  rfl

def apartPatterns : PyDict := patternPair "regex:bad" (by decide)

theorem first_pattern_wins_apart :
    (∃ after : MockBlastDNSClient literalRegex,
      PyMocks addressProto {} (some apartPatterns) after) ∧
    ∀ after : MockBlastDNSClient literalRegex,
      PyMocks addressProto {} (some apartPatterns) after →
      after.resolveFull addressProto "api.example" 1 =
        fabricateResponse addressProto (askedHost "api.example" 1) 1
          ((firstPattern literalRegex addressProto apartPatterns
            (askedHost "api.example" 1) 1).getD []) := by
  have asked : askedHost "api.example" 1 = "api.example" := by decide
  have extracted : ({} : PyMockBlastDNSClient literalRegex).extract (some apartPatterns) = _ :=
    pair_extracted (by decide)
  have first : firstPattern literalRegex addressProto apartPatterns "api.example" 1 =
      some ["192.0.2.1"] := by
    decide
  rcases pattern_entry_chosen extracted (first_pattern_entry first) with ⟨visits, visited, _⟩
  refine ⟨⟨_, _, _, extracted, {}, visits, visited, rfl⟩,
    (first_pattern_wins_iff extracted ?_ ?_).mpr ?_⟩ <;> rw [asked]
  · exact pair_inexact (by decide) extracted (by decide)
  · simp [NxdomainFor]
  · rw [first]
    rintro answers ⟨key, pattern, records, typeName, stored, compiled, hit, listed, _⟩
    rcases pair_lookup stored with ⟨rfl, same⟩ | ⟨rfl, _⟩
    · cases same
      rw [address_answers listed]
      rfl
    · have built : stripPrefix "regex:bad" = some "bad" := by decide
      rw [literal_pattern built] at compiled
      cases compiled
      exact absurd hit (by decide)

def overlappingPatterns : PyDict := patternPair "regex:example" (by decide)

/-- The second of two patterns that match is tried first in some order of iteration. -/
theorem second_pattern_answers :
    ∃ (responses : Responses) (after : MockBlastDNSClient literalRegex),
      ({} : PyMockBlastDNSClient literalRegex).extract (some overlappingPatterns) =
        .ok (responses, []) ∧
      (∀ answers, ¬ ExactEntry addressProto responses "api.example" 1 answers) ∧
      ¬ NxdomainFor literalRegex [] "api.example" ∧
      PyMocks addressProto {} (some overlappingPatterns) after ∧
      firstPattern literalRegex addressProto overlappingPatterns "api.example" 1 =
        some ["192.0.2.1"] ∧
      after.resolveFull addressProto "api.example" 1 ≠
        fabricateResponse addressProto "api.example" 1 ["192.0.2.1"] := by
  have asked : askedHost "api.example" 1 = "api.example" := by decide
  have built : stripPrefix "regex:example" = some "example" := by decide
  have extracted : ({} : PyMockBlastDNSClient literalRegex).extract (some overlappingPatterns) = _ :=
    pair_extracted (by decide)
  have inexact := pair_inexact (by decide) extracted (by decide)
  have unlisted : ¬ NxdomainFor literalRegex [] "api.example" := by simp [NxdomainFor]
  have second : PatternEntry literalRegex addressProto overlappingPatterns "api.example" 1
      ["192.0.2.2"] :=
    ⟨"regex:example", _, AList.singleton "A" ["192.0.2.2"], "A",
      AList.mem_lookup_iff.mpr (by simp [overlappingPatterns, patternPair]), literal_pattern built,
      by decide, by decide +kernel, rfl⟩
  rcases pattern_entry_chosen extracted second with ⟨visits, visited, found⟩
  refine ⟨_, _, extracted, inexact, unlisted, ⟨_, _, extracted, {}, visits, visited, rfl⟩,
    by decide, ?_⟩
  have first : parseWith readIpv4 "192.0.2.1".toList = some ⟨192, 0, 2, 1⟩ := by decide
  have other : parseWith readIpv4 "192.0.2.2".toList = some ⟨192, 0, 2, 2⟩ := by decide
  rw [resolveFull, asked, pattern_answer inexact unlisted visited, found, Option.getD_some,
    address_response other, address_response first]
  intro same
  have records := congrArg Message.answers (Except.ok.inj same)
  have addresses : (⟨192, 0, 2, 2⟩ : Ipv4Addr) = ⟨192, 0, 2, 1⟩ :=
    congrArg Record.data (List.cons.inj records).1
  exact absurd addresses (by decide)

end Samples

end BlastDns.Mock
