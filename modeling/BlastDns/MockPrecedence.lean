import BlastDns.Mock

/-!
Which of its tables the mock answers from. `mock_dns` sorts the configuration into four
tables, and a lookup asks them in turn. The exact tables forget the order they were
filled in, except where one host has two names for one record type; the list of
patterns is in the order the `HashMap` happened to be iterated in, whatever order the
configuration had.
-/

namespace BlastDns.Mock

open MockBlastDNSClient NetText Unordered
open Resolve (noError nxDomain ptrType)

variable {regex : RegexCrate} (hickory : HickoryProto)

section Tables

/-- The regex that an entry stands for, if it stands for one. -/
def compiledPattern (regex : RegexCrate) (text : String) : Option regex.Regex :=
  (stripPrefix text).bind regex.new

def exactAnswers (mockData : HashMap String (HashMap ℕ (List String))) (host : String)
    (recordType : ℕ) : Option (List String) :=
  (mockData.lookup host).bind fun hostData => hostData.lookup recordType

/-- The answers that the visits leave for an exact host. -/
def visitedExact (hickory : HickoryProto) (host : String) (recordType : ℕ) :
    List Visit → Option (List String)
  | [] => none
  | visit :: rest =>
      (visitedExact hickory host recordType rest).or
        (if visit.1 = host ∧ stripPrefix host = none then
          latest hickory.recordTypeFromStr recordType visit.2
        else none)

/-- The answers that one visit gives a host by its pattern. -/
def visitedPattern (regex : RegexCrate) (hickory : HickoryProto) (host : String) (recordType : ℕ)
    (visit : Visit) : Option (List String) :=
  (compiledPattern regex visit.1).bind fun pattern =>
    if regex.isMatch pattern host then latest hickory.recordTypeFromStr recordType visit.2 else none

theorem insert_record_exact (name : String) (mockData : HashMap String (HashMap ℕ (List String)))
    (record : String × List String) (host : String) (recordType : ℕ) :
    exactAnswers (insertRecord hickory name mockData record) host recordType =
      (if name = host ∧ hickory.recordTypeFromStr record.1 = some recordType then some record.2
        else none).or (exactAnswers mockData host recordType) := by
  rw [insertRecord]
  cases named : hickory.recordTypeFromStr record.1 with
  | none => simp
  | some kind =>
      simp only [exactAnswers, lookup_inserted, Option.some.injEq]
      by_cases same : name = host
      · subst same
        rw [if_pos rfl, Option.bind_some, lookup_inserted]
        by_cases asked : kind = recordType
        · simp [asked]
        · simp only [asked, if_false, and_false, Option.none_or]
          cases mockData.lookup name <;> rfl
      · simp [same]

theorem insert_records_exact (name : String) (records : List (String × List String))
    (mockData : HashMap String (HashMap ℕ (List String))) (host : String) (recordType : ℕ) :
    exactAnswers (records.foldl (insertRecord hickory name) mockData) host recordType =
      (if name = host then latest hickory.recordTypeFromStr recordType records else none).or
        (exactAnswers mockData host recordType) := by
  induction records generalizing mockData with
  | nil => simp [latest]
  | cons record rest ih =>
      rw [List.foldl_cons, ih, insert_record_exact, latest]
      by_cases same : name = host
      · simp [same, Option.or_assoc]
      · simp [same]

theorem add_responses_exact (visits : List Visit) (client : MockBlastDNSClient regex)
    (host : String) (recordType : ℕ) :
    exactAnswers (visits.foldl (addResponse hickory) client).mockData host recordType =
      (visitedExact hickory host recordType visits).or
        (exactAnswers client.mockData host recordType) := by
  induction visits generalizing client with
  | nil => simp [visitedExact]
  | cons visit rest ih =>
      rw [List.foldl_cons, ih, visitedExact, Option.or_assoc]
      congr 1
      rw [addResponse]
      cases kind : stripPrefix visit.1 with
      | some pattern =>
          have other : ¬ (visit.1 = host ∧ stripPrefix host = none) := by
            rintro ⟨rfl, plain⟩
            rw [kind] at plain
            cases plain
          rw [if_neg other, Option.none_or]
          simp only
          cases regex.new pattern <;> rfl
      | none =>
          simp only [insert_records_exact]
          by_cases same : visit.1 = host
          · subst same
            simp [kind]
          · simp [same]

theorem add_responses_patterns (visits : List Visit) (client : MockBlastDNSClient regex)
    (host : String) (recordType : ℕ) :
    ((visits.foldl (addResponse hickory) client).regexPatterns.findSome? fun entry =>
      if regex.isMatch entry.1 host then entry.2.lookup recordType else none) =
    (client.regexPatterns.findSome? fun entry =>
      if regex.isMatch entry.1 host then entry.2.lookup recordType else none).or
      (visits.findSome? (visitedPattern regex hickory host recordType)) := by
  induction visits generalizing client with
  | nil => simp
  | cons visit rest ih =>
      rw [List.foldl_cons, ih, addResponse]
      cases kind : stripPrefix visit.1 with
      | none => simp [visitedPattern, compiledPattern, kind]
      | some pattern =>
          cases compiled : regex.new pattern with
          | none => simp [visitedPattern, compiledPattern, kind, compiled]
          | some found =>
              simp only [List.findSome?_append, List.findSome?_cons, visitedPattern,
                compiledPattern, kind, compiled, Option.bind_some, collect_lookup, Option.or_assoc]
              by_cases hit : regex.isMatch found host = true
              · cases latest hickory.recordTypeFromStr recordType visit.2 <;> simp [hit]
              · simp [hit]

theorem add_responses_nxdomains (visits : List Visit) (client : MockBlastDNSClient regex) :
    (visits.foldl (addResponse hickory) client).nxdomainHosts = client.nxdomainHosts ∧
    (visits.foldl (addResponse hickory) client).nxdomainPatterns = client.nxdomainPatterns := by
  induction visits generalizing client with
  | nil => exact ⟨rfl, rfl⟩
  | cons visit rest ih =>
      rw [List.foldl_cons]
      rw [(ih _).1, (ih _).2, addResponse]
      cases stripPrefix visit.1 with
      | none => exact ⟨rfl, rfl⟩
      | some pattern =>
          simp only
          cases regex.new pattern <;> exact ⟨rfl, rfl⟩

/-- The lists of `nxdomains` go to the two NXDOMAIN tables and nowhere else. -/
theorem add_nxdomains_tables (nxdomains : List String) (client : MockBlastDNSClient regex)
    (host : String) :
    (nxdomains.foldl addNxdomain client).mockData = client.mockData ∧
    (nxdomains.foldl addNxdomain client).regexPatterns = client.regexPatterns ∧
    (host ∈ (nxdomains.foldl addNxdomain client).nxdomainHosts ↔
      host ∈ client.nxdomainHosts ∨ host ∈ nxdomains ∧ stripPrefix host = none) ∧
    (nxdomains.foldl addNxdomain client).nxdomainPatterns =
      client.nxdomainPatterns ++ nxdomains.filterMap (compiledPattern regex) := by
  induction nxdomains generalizing client with
  | nil => simp
  | cons name rest ih =>
      rw [List.foldl_cons]
      rcases ih (client.addNxdomain name) with ⟨data, patterns, hosts, compiled⟩
      rw [data, patterns, hosts, compiled, addNxdomain, List.filterMap_cons]
      cases kind : stripPrefix name with
      | none =>
          simp only [compiledPattern, kind, Option.bind_none, true_and, and_true,
            Finset.mem_insert, List.mem_cons]
          by_cases same : host = name
          · subst same
            simp [kind]
          · simp [same]
      | some pattern =>
          have listed : host ∈ name :: rest ∧ stripPrefix host = none ↔
              host ∈ rest ∧ stripPrefix host = none := by
            apply and_congr_left
            intro plain
            have other : host ≠ name := by
              rintro rfl
              rw [kind] at plain
              cases plain
            simp [other]
          rw [listed]
          cases built : regex.new pattern with
          | none => simp [compiledPattern, kind, built]
          | some found => simp [compiledPattern, kind, built]

end Tables

section Lookups

/-- The host is listed as NXDOMAIN, by its name or by a pattern. -/
def NxdomainFor (regex : RegexCrate) (nxdomains : List String) (host : String) : Prop :=
  (host ∈ nxdomains ∧ stripPrefix host = none) ∨
    ∃ name ∈ nxdomains, ∃ pattern, compiledPattern regex name = some pattern ∧
      regex.isMatch pattern host = true

variable (before : MockBlastDNSClient regex) (visits : List Visit) (nxdomains : List String)
variable (host : String) (recordType : ℕ)

theorem mock_dns_exact :
    exactAnswers (before.mockDns hickory visits nxdomains).mockData host recordType =
      visitedExact hickory host recordType visits := by
  rw [mockDns, (add_nxdomains_tables _ _ host).1, add_responses_exact]
  simp [clear, exactAnswers]

theorem mock_dns_patterns :
    ((before.mockDns hickory visits nxdomains).regexPatterns.findSome? fun entry =>
      if regex.isMatch entry.1 host then entry.2.lookup recordType else none) =
    visits.findSome? (visitedPattern regex hickory host recordType) := by
  rw [mockDns, (add_nxdomains_tables _ _ host).2.1, add_responses_patterns]
  simp [clear]

theorem mock_dns_nxdomains :
    (host ∈ (before.mockDns hickory visits nxdomains).nxdomainHosts ∨
      ((before.mockDns hickory visits nxdomains).nxdomainPatterns.any fun pattern =>
        regex.isMatch pattern host) = true) ↔ NxdomainFor regex nxdomains host := by
  rcases add_nxdomains_tables nxdomains (visits.foldl (addResponse hickory) before.clear) host with
    ⟨_, _, hosts, patterns⟩
  rcases add_responses_nxdomains hickory visits before.clear with ⟨noHosts, noPatterns⟩
  rw [noHosts] at hosts
  rw [noPatterns] at patterns
  rw [mockDns, hosts, patterns, NxdomainFor]
  apply or_congr
  · simp [clear]
  · simp only [clear, List.nil_append, List.any_eq_true, List.mem_filterMap]
    constructor
    · rintro ⟨pattern, ⟨name, member, compiled⟩, hit⟩
      exact ⟨name, member, pattern, compiled, hit⟩
    · rintro ⟨name, member, pattern, compiled, hit⟩
      exact ⟨pattern, ⟨name, member, compiled⟩, hit⟩

variable {nxdomains host}

/-- Both NXDOMAIN tables come before either table of answers. -/
theorem nxdomain_answer (listed : NxdomainFor regex nxdomains host) :
    (before.mockDns hickory visits nxdomains).resolveFullImpl hickory host recordType =
      fabricateNxdomainResponse hickory host recordType := by
  rw [resolveFullImpl]
  rcases (mock_dns_nxdomains hickory before visits nxdomains host).mpr listed with named | matched
  · rw [if_pos named]
  · rw [if_pos matched, ite_self]

theorem unlisted_answer (unlisted : ¬ NxdomainFor regex nxdomains host) :
    (before.mockDns hickory visits nxdomains).resolveFullImpl hickory host recordType =
      fabricateResponse hickory host recordType
        (((visitedExact hickory host recordType visits).or
          (visits.findSome? (visitedPattern regex hickory host recordType))).getD []) := by
  have neither := not_or.mp fun either =>
    unlisted ((mock_dns_nxdomains hickory before visits nxdomains host).mp either)
  have exact := mock_dns_exact hickory before visits nxdomains host recordType
  rw [exactAnswers] at exact
  rw [resolveFullImpl, if_neg neither.1, if_neg neither.2, exact, mock_dns_patterns]
  cases visitedExact hickory host recordType visits with
  | some answers => rfl
  | none => cases visits.findSome? (visitedPattern regex hickory host recordType) <;> rfl

end Lookups

section Exact

variable {responses : Responses} {visits : List Visit} {host : String} {recordType : ℕ}
variable {answers : List String}

/-- The configuration has these answers for the host by its name. -/
def ExactEntry (responses : Responses) (host : String) (recordType : ℕ) (answers : List String) :
    Prop :=
  stripPrefix host = none ∧ ∃ records typeName, responses.lookup host = some records ∧
    records.lookup typeName = some answers ∧ hickory.recordTypeFromStr typeName = some recordType

variable {hickory}

theorem visited_exact_some (found : visitedExact hickory host recordType visits = some answers) :
    stripPrefix host = none ∧ ∃ records, (host, records) ∈ visits ∧
      latest hickory.recordTypeFromStr recordType records = some answers := by
  induction visits with
  | nil => cases found
  | cons visit rest ih =>
      rw [visitedExact] at found
      rcases Option.or_eq_some_iff.mp found with later | ⟨_, here⟩
      · rcases ih later with ⟨plain, records, member, named⟩
        exact ⟨plain, records, List.mem_cons_of_mem _ member, named⟩
      · split at here
        · rename_i exact
          rcases exact with ⟨rfl, plain⟩
          exact ⟨plain, visit.2, List.mem_cons_self, here⟩
        · cases here

theorem visited_exact_exists {records : List (String × List String)} (plain : stripPrefix host = none)
    (member : (host, records) ∈ visits)
    (found : latest hickory.recordTypeFromStr recordType records = some answers) :
    ∃ stored, visitedExact hickory host recordType visits = some stored := by
  induction visits with
  | nil => cases member
  | cons visit rest ih =>
      rw [visitedExact]
      rcases List.mem_cons.mp member with rfl | later
      · cases visitedExact hickory host recordType rest with
        | some stored => exact ⟨stored, rfl⟩
        | none => exact ⟨answers, by simp [plain, found]⟩
      · rcases ih later with ⟨stored, known⟩
        exact ⟨stored, by simp [known]⟩

/-- What a lookup finds under an exact host is an entry of the configuration. -/
theorem visited_exact_entry (visited : VisitsAll responses visits)
    (found : visitedExact hickory host recordType visits = some answers) :
    ExactEntry hickory responses host recordType answers := by
  rcases visited_exact_some found with ⟨plain, visit, member, named⟩
  rcases visited_inner visited member with ⟨records, stored, within⟩
  rcases latest_visited named with ⟨typeName, inside, read⟩
  exact ⟨plain, records, typeName, stored, (visited_iff within).mp inside, read⟩

theorem exact_entry_found (visited : VisitsAll responses visits)
    (entry : ExactEntry hickory responses host recordType answers) :
    ∃ stored, visitedExact hickory host recordType visits = some stored := by
  rcases entry with ⟨plain, records, typeName, stored, listed, read⟩
  rcases inner_visited visited stored with ⟨visit, member, within⟩
  rcases latest_exists ((visited_iff within).mpr listed) read with ⟨found, named⟩
  exact visited_exact_exists plain member named

/-- Every entry is found in some order of iteration. -/
theorem exact_entry_chosen (entry : ExactEntry hickory responses host recordType answers) :
    ∃ visits, VisitsAll responses visits ∧
      visitedExact hickory host recordType visits = some answers := by
  rcases entry with ⟨plain, records, typeName, stored, listed, read⟩
  rcases visits_last listed with ⟨earlier, within⟩
  rcases visits_all_first stored within with ⟨rest, visited⟩
  refine ⟨_, visited, ?_⟩
  have once := List.nodup_cons.mp (visited_once visited)
  have absent : visitedExact hickory host recordType rest = none := by
    rw [Option.eq_none_iff_forall_ne_some]
    intro other found
    rcases visited_exact_some found with ⟨_, again, member, _⟩
    exact once.1 (List.mem_map.mpr ⟨(host, again), member, rfl⟩)
  rw [visitedExact, absent, Option.none_or, if_pos ⟨rfl, plain⟩, latest_last earlier read]

end Exact

section Fabrication

/-- The answers parse as record data of the type, one by one. -/
def Reads (recordType : ℕ) (answers : List String) (rdatas : List hickory.RData) : Prop :=
  List.Forall₂ (fun rdataStr rdata => hickory.rdataTryFromStr recordType rdataStr = .ok rdata)
    answers rdatas

def responseMessage (name : hickory.Name) (recordType responseCode : ℕ)
    (rdatas : List hickory.RData) : Message hickory.Name hickory.RData :=
  ⟨responseHeader responseCode, [⟨name, recordType⟩], rdatas.map fun rdata => ⟨name, 300, rdata⟩⟩

/-- The host reads as a name, and the response with these answers can be encoded. -/
def Writes (host : String) (recordType : ℕ) (answers : List String) : Prop :=
  ∃ name rdatas, hickory.nameFromStr (fqdn host) = .ok name ∧ Reads hickory recordType answers rdatas ∧
    hickory.toVec (responseMessage hickory name recordType noError rdatas) = .ok ()

variable {hickory} {host : String} {recordType responseCode : ℕ} {answers : List String}
variable {rdatas : List hickory.RData} {message : Message hickory.Name hickory.RData}

theorem answer_records_read (name : hickory.Name) (reads : Reads hickory recordType answers rdatas) :
    answerRecords hickory name recordType answers =
      .ok (rdatas.map fun rdata => ⟨name, 300, rdata⟩) := by
  induction reads with
  | nil => rfl
  | cons read _ ih =>
      simp only [answerRecords, parseRdata, read, ih]
      rfl

theorem fabricated_eq {name : hickory.Name} (read : hickory.nameFromStr (fqdn host) = .ok name)
    (reads : Reads hickory recordType answers rdatas) :
    fabricateResponseWithCode hickory host recordType answers responseCode =
      match hickory.toVec (responseMessage hickory name recordType responseCode rdatas) with
      | .ok () => .ok (responseMessage hickory name recordType responseCode rdatas)
      | .error e => .error (.configuration ("failed to create response: " ++ e)) := by
  simp only [fabricateResponseWithCode, read, answer_records_read name reads]
  rfl

theorem fabricated_some (reads : Reads hickory recordType answers rdatas)
    (fabricated : fabricateResponseWithCode hickory host recordType answers responseCode =
      .ok message) :
    ∃ name, hickory.nameFromStr (fqdn host) = .ok name ∧
      message = responseMessage hickory name recordType responseCode rdatas ∧
      hickory.toVec message = .ok () := by
  cases read : hickory.nameFromStr (fqdn host) with
  | error e => simp [fabricateResponseWithCode, read] at fabricated
  | ok name =>
      rw [fabricated_eq read reads] at fabricated
      split at fabricated
      · rename_i written
        cases fabricated
        exact ⟨name, rfl, rfl, written⟩
      · cases fabricated

theorem written_response (writes : Writes hickory host recordType answers) :
    ∃ name rdatas, Reads hickory recordType answers rdatas ∧
      fabricateResponse hickory host recordType answers =
        .ok (responseMessage hickory name recordType noError rdatas) := by
  rcases writes with ⟨name, rdatas, read, reads, written⟩
  refine ⟨name, rdatas, reads, ?_⟩
  rw [fabricateResponse, fabricated_eq read reads, written]

theorem response_written (reads : Reads hickory recordType answers rdatas)
    (fabricated : fabricateResponse hickory host recordType answers = .ok message) :
    Writes hickory host recordType answers := by
  rcases fabricated_some reads fabricated with ⟨name, read, rfl, written⟩
  exact ⟨name, rdatas, read, reads, written⟩

theorem nxdomain_code
    (fabricated : fabricateNxdomainResponse hickory host recordType = .ok message) :
    message.header.responseCode = nxDomain := by
  rcases fabricated_some .nil fabricated with ⟨name, _, rfl, _⟩
  rfl

end Fabrication

section ExactFirst

variable {responses : Responses} {nxdomains : List String} {host : String} {recordType : ℕ}

/-- The lookup answers NOERROR with the records of an exact entry for its host. -/
def AnswersExactly (responses : Responses) (host : String) (recordType : ℕ)
    (client : MockBlastDNSClient regex) : Prop :=
  ∃ answers rdatas message,
    ExactEntry hickory responses (askedHost host recordType) recordType answers ∧
    Reads hickory recordType answers rdatas ∧
    client.resolveFull hickory host recordType = .ok message ∧
    message.header.responseCode = noError ∧ message.answers.map Record.data = rdatas

variable {hickory}

/-- Where the configuration has an exact entry for a host that is not listed as NXDOMAIN
by name, the entry is what every lookup answers with exactly if no NXDOMAIN pattern
matches the host, which must be a name that can be written in a response. -/
theorem exact_beats_regex_iff
    (entry : ∃ answers, ExactEntry hickory responses (askedHost host recordType) recordType answers)
    (unlisted : askedHost host recordType ∉ nxdomains)
    (readable : ∀ answers,
      ExactEntry hickory responses (askedHost host recordType) recordType answers →
        ∃ rdatas, Reads hickory recordType answers rdatas) :
    (∀ client : MockBlastDNSClient regex, Mocks hickory responses nxdomains client →
      AnswersExactly hickory responses host recordType client) ↔
    (∀ name ∈ nxdomains, ∀ pattern, compiledPattern regex name = some pattern →
      regex.isMatch pattern (askedHost host recordType) = false) ∧
    ∀ answers, ExactEntry hickory responses (askedHost host recordType) recordType answers →
      Writes hickory (askedHost host recordType) recordType answers := by
  constructor
  · intro always
    have unmatched : ¬ NxdomainFor regex nxdomains (askedHost host recordType) := by
      intro listed
      rcases entry with ⟨answers, configured⟩
      rcases exact_entry_chosen configured with ⟨visits, visited, _⟩
      rcases always _ ⟨{}, visits, visited, rfl⟩ with ⟨_, _, message, _, _, answered, code, _⟩
      rw [resolveFull, nxdomain_answer hickory _ _ _ listed] at answered
      rw [nxdomain_code answered] at code
      cases code
    refine ⟨?_, ?_⟩
    · intro name member pattern compiled
      rw [← Bool.not_eq_true]
      intro hit
      exact unmatched (Or.inr ⟨name, member, pattern, compiled, hit⟩)
    · intro answers configured
      rcases readable answers configured with ⟨rdatas, reads⟩
      rcases exact_entry_chosen configured with ⟨visits, visited, found⟩
      rcases always _ ⟨{}, visits, visited, rfl⟩ with ⟨_, _, message, _, _, answered, _⟩
      rw [resolveFull, unlisted_answer hickory _ _ _ unmatched, found] at answered
      exact response_written reads answered
  · rintro ⟨quiet, writes⟩ client ⟨before, visits, visited, rfl⟩
    have unmatched : ¬ NxdomainFor regex nxdomains (askedHost host recordType) := by
      rintro (⟨named, _⟩ | ⟨name, member, pattern, compiled, hit⟩)
      · exact unlisted named
      · rw [quiet name member pattern compiled] at hit
        cases hit
    rcases entry with ⟨answers, configured⟩
    rcases exact_entry_found visited configured with ⟨stored, found⟩
    have exact := visited_exact_entry visited found
    rcases written_response (writes stored exact) with ⟨name, rdatas, reads, fabricated⟩
    refine ⟨stored, rdatas, responseMessage hickory name recordType noError rdatas, exact, reads,
      ?_, rfl, ?_⟩
    · rw [resolveFull, unlisted_answer hickory _ _ _ unmatched, found]
      exact fabricated
    · simp [responseMessage, Function.comp_def]

end ExactFirst

section Samples

/-- Patterns without metacharacters match wherever they occur. -/
def literalRegex : RegexCrate where
  Regex := List Char
  new pattern := some pattern.toList
  isMatch pattern host := decide (pattern <:+: host.toList)

theorem literal_pattern {text pattern : String} (stripped : stripPrefix text = some pattern) :
    compiledPattern literalRegex text = some pattern.toList := by
  rw [compiledPattern, stripped]
  rfl

/-- Host addresses, and names that are kept as they are. -/
def addressProto : HickoryProto where
  Name := String
  RData := Ipv4Addr
  nameFromStr text := .ok text
  recordTypeFromStr text := if text = "A" then some 1 else none
  recordTypeText _ := "A"
  rdataTryFromStr recordType text :=
    match if recordType = 1 then parseWith readIpv4 text.toList else none with
    | some ip => .ok ip
    | none => .error "not an address"
  rdataText ip := String.ofList ip.display
  toVec _ := .ok ()

theorem address_reads {text : String} {ip : Ipv4Addr}
    (parsed : parseWith readIpv4 text.toList = some ip) : Reads addressProto 1 [text] [ip] := by
  refine .cons ?_ .nil
  simp only [addressProto, if_true]
  rw [parsed]

def pairedResponses : Responses :=
  AList.insert "api.example" (AList.singleton "A" ["10.0.0.1"])
    (AList.singleton "regex:example" (AList.singleton "A" ["192.0.2.1"]))

theorem paired_host :
    pairedResponses.lookup "api.example" = some (AList.singleton "A" ["10.0.0.1"]) :=
  AList.lookup_insert _

theorem paired_entry : ExactEntry addressProto pairedResponses "api.example" 1 ["10.0.0.1"] :=
  ⟨by decide, AList.singleton "A" ["10.0.0.1"], "A", paired_host, by decide +kernel, rfl⟩

theorem paired_exact {answers : List String}
    (entry : ExactEntry addressProto pairedResponses "api.example" 1 answers) :
    answers = ["10.0.0.1"] := by
  rcases entry with ⟨_, records, typeName, stored, listed, read⟩
  rw [paired_host] at stored
  cases stored
  simp only [addressProto] at read
  split at read
  · rename_i named
    subst named
    cases listed
    rfl
  · cases read

theorem paired_reads : Reads addressProto 1 ["10.0.0.1"] [⟨10, 0, 0, 1⟩] :=
  address_reads (by decide)

/-- A pattern for answers matches the host too, and one for NXDOMAIN does not. -/
theorem exact_beats_regex_paired :
    (∃ client : MockBlastDNSClient literalRegex,
      Mocks addressProto pairedResponses ["regex:bad"] client) ∧
    ∀ client : MockBlastDNSClient literalRegex,
      Mocks addressProto pairedResponses ["regex:bad"] client →
      AnswersExactly addressProto pairedResponses "api.example" 1 client := by
  have asked : askedHost "api.example" 1 = "api.example" := by decide
  rcases exact_entry_chosen paired_entry with ⟨visits, visited, _⟩
  refine ⟨⟨_, {}, visits, visited, rfl⟩, (exact_beats_regex_iff ?_ ?_ ?_).mpr ⟨?_, ?_⟩⟩ <;>
    rw [asked]
  · exact ⟨_, paired_entry⟩
  · decide
  · intro answers entry
    rw [paired_exact entry]
    exact ⟨_, paired_reads⟩
  · intro name member pattern compiled
    rw [List.mem_singleton] at member
    subst member
    have built : stripPrefix "regex:bad" = some "bad" := by decide
    rw [literal_pattern built] at compiled
    cases compiled
    decide
  · intro answers entry
    rw [paired_exact entry]
    exact ⟨fqdn "api.example", _, rfl, paired_reads, rfl⟩

/-- The pattern `example` for NXDOMAIN matches a host that has an entry of its own. -/
theorem nxdomain_pattern_beats_exact :
    ∃ client : MockBlastDNSClient literalRegex,
      Mocks addressProto pairedResponses ["regex:example"] client ∧
      ExactEntry addressProto pairedResponses "api.example" 1 ["10.0.0.1"] ∧
      "api.example" ∉ ["regex:example"] ∧ Reads addressProto 1 ["10.0.0.1"] [⟨10, 0, 0, 1⟩] ∧
      ¬ AnswersExactly addressProto pairedResponses "api.example" 1 client := by
  have asked : askedHost "api.example" 1 = "api.example" := by decide
  have built : stripPrefix "regex:example" = some "example" := by decide
  have listed : NxdomainFor literalRegex ["regex:example"] "api.example" :=
    Or.inr ⟨"regex:example", by simp, _, literal_pattern built, by decide⟩
  rcases exact_entry_chosen paired_entry with ⟨visits, visited, _⟩
  refine ⟨_, ⟨{}, visits, visited, rfl⟩, paired_entry, by decide, paired_reads, ?_⟩
  rintro ⟨_, _, message, _, _, answered, code, _⟩
  rw [resolveFull, asked, nxdomain_answer addressProto _ _ _ listed] at answered
  rw [nxdomain_code answered] at code
  cases code

end Samples

end BlastDns.Mock
