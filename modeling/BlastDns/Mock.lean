import BlastDns.Batch
import BlastDns.PtrNames
import BlastDns.Unordered
import Mathlib.Data.Finset.Insert

/-!
The mock client of `src/mock.rs` and its Python class of `src/python.rs`. What the code
uses of the `regex` and `hickory` crates is a parameter. A `HashMap` is iterated in an
order nobody chooses, so `mock_dns` is given the visits of its map in place of the map:
of the hosts, and of the record types of each.
-/

namespace BlastDns.Mock

open Batch NetText PtrNames Resolve Unordered

/-- `Regex::new` and `is_match` -/
structure RegexCrate where
  Regex : Type
  new : String → Option Regex
  isMatch : Regex → String → Bool

inductive MessageType where
  | query
  | response
  deriving DecidableEq

inductive OpCode where
  | query
  | status
  | notify
  | update
  deriving DecidableEq

structure Header where
  id : ℕ
  messageType : MessageType
  opCode : OpCode
  authoritative : Bool
  truncated : Bool
  recursionDesired : Bool
  recursionAvailable : Bool
  authenticData : Bool
  checkingDisabled : Bool
  responseCode : ℕ
  deriving DecidableEq

structure Query (Name : Type) where
  name : Name
  recordType : ℕ
  deriving DecidableEq

structure Record (Name RData : Type) where
  name : Name
  ttl : ℕ
  data : RData
  deriving DecidableEq

structure Message (Name RData : Type) where
  header : Header
  queries : List (Query Name)
  answers : List (Record Name RData)
  deriving DecidableEq

/-- Errors are their texts. `toVec` is the encoding that a `DnsResponse` is made with;
its bytes are not read here. -/
structure HickoryProto where
  Name : Type
  RData : Type
  nameFromStr : String → Except String Name
  recordTypeFromStr : String → Option ℕ
  recordTypeText : ℕ → String
  rdataTryFromStr : ℕ → String → Except String RData
  rdataText : RData → String
  toVec : Message Name RData → Except String Unit

/-- Hosts with the answers for each of their record types, as they are configured. -/
abbrev Responses := HashMap String (HashMap String (List String))

abbrev Visit := String × List (String × List String)

def stripPrefix (text : String) : Option String :=
  if "regex:".toList.isPrefixOf text.toList then some (String.ofList (text.toList.drop 6)) else none

structure MockBlastDNSClient (regex : RegexCrate) where
  mockData : HashMap String (HashMap ℕ (List String)) := ∅
  regexPatterns : List (regex.Regex × HashMap ℕ (List String)) := []
  nxdomainHosts : Finset String := ∅
  nxdomainPatterns : List regex.Regex := []

namespace MockBlastDNSClient

variable {regex : RegexCrate} (hickory : HickoryProto)

def clear (_ : MockBlastDNSClient regex) : MockBlastDNSClient regex := {}

/-- One record type of an exact host: `entry(host).or_default().insert(record_type, answers)` -/
def insertRecord (host : String) (mockData : HashMap String (HashMap ℕ (List String)))
    (record : String × List String) : HashMap String (HashMap ℕ (List String)) :=
  match hickory.recordTypeFromStr record.1 with
  | some recordType =>
      mockData.insert host (((mockData.lookup host).getD ∅).insert recordType record.2)
  | none => mockData

/-- One host of `responses`. -/
def addResponse (client : MockBlastDNSClient regex) (visit : Visit) : MockBlastDNSClient regex :=
  match stripPrefix visit.1 with
  | some pattern =>
      match regex.new pattern with
      | some compiled =>
          { client with
            regexPatterns := client.regexPatterns ++
              [(compiled, collect hickory.recordTypeFromStr ∅ visit.2)] }
      | none => client
  | none =>
      { client with mockData := visit.2.foldl (insertRecord hickory visit.1) client.mockData }

/-- One host of `nxdomains`. -/
def addNxdomain (client : MockBlastDNSClient regex) (host : String) : MockBlastDNSClient regex :=
  match stripPrefix host with
  | some pattern =>
      match regex.new pattern with
      | some compiled =>
          { client with nxdomainPatterns := client.nxdomainPatterns ++ [compiled] }
      | none => client
  | none => { client with nxdomainHosts := insert host client.nxdomainHosts }

def mockDns (client : MockBlastDNSClient regex) (responses : List Visit)
    (nxdomains : List String) : MockBlastDNSClient regex :=
  nxdomains.foldl addNxdomain (responses.foldl (addResponse hickory) client.clear)

end MockBlastDNSClient

section Fabricated

variable (hickory : HickoryProto)

abbrev MockAnswer := Except BlastDNSError (Message hickory.Name hickory.RData)

def parseRdata (recordType : ℕ) (rdataStr : String) :
    Except BlastDNSError (Option hickory.RData) :=
  match hickory.rdataTryFromStr recordType rdataStr with
  | .ok rdata => .ok (some rdata)
  | .error e => .error (.configuration ("invalid mock " ++ hickory.recordTypeText recordType ++
      " record `" ++ rdataStr ++ "`: " ++ e))

/-- The loop over the answers; the first that does not parse ends it. -/
def answerRecords (name : hickory.Name) (recordType : ℕ) :
    List String → Except BlastDNSError (List (Record hickory.Name hickory.RData))
  | [] => .ok []
  | rdataStr :: rest => do
      let parsed ← parseRdata hickory recordType rdataStr
      let records ← answerRecords name recordType rest
      return match parsed with
        | some rdata => ⟨name, 300, rdata⟩ :: records
        | none => records

def fqdn (host : String) : String := if host.toList.getLast? = some '.' then host else host ++ "."

def responseHeader (responseCode : ℕ) : Header where
  id := 12345
  messageType := .response
  opCode := .query
  authoritative := false
  truncated := false
  recursionDesired := true
  recursionAvailable := true
  authenticData := false
  checkingDisabled := false
  responseCode := responseCode

def fabricateResponseWithCode (host : String) (recordType : ℕ) (answersData : List String)
    (responseCode : ℕ) : MockAnswer hickory :=
  match hickory.nameFromStr (fqdn host) with
  | .error e => .error (.configuration ("invalid name: " ++ e))
  | .ok name => do
      let answers ← answerRecords hickory name recordType answersData
      let message : Message hickory.Name hickory.RData :=
        ⟨responseHeader responseCode, [⟨name, recordType⟩], answers⟩
      match hickory.toVec message with
      | .ok () => .ok message
      | .error e => .error (.configuration ("failed to create response: " ++ e))

def fabricateNxdomainResponse (host : String) (recordType : ℕ) : MockAnswer hickory :=
  fabricateResponseWithCode hickory host recordType [] nxDomain

def fabricateResponse (host : String) (recordType : ℕ) (answersData : List String) :
    MockAnswer hickory :=
  fabricateResponseWithCode hickory host recordType answersData noError

end Fabricated

namespace MockBlastDNSClient

variable {regex : RegexCrate} (hickory : HickoryProto) (client : MockBlastDNSClient regex)

def resolveFullImpl (host : String) (recordType : ℕ) : MockAnswer hickory :=
  if host ∈ client.nxdomainHosts then fabricateNxdomainResponse hickory host recordType
  else if client.nxdomainPatterns.any fun pattern => regex.isMatch pattern host then
    fabricateNxdomainResponse hickory host recordType
  else
    match (client.mockData.lookup host).bind fun hostData => hostData.lookup recordType with
    | some answersData => fabricateResponse hickory host recordType answersData
    | none =>
        match client.regexPatterns.findSome? fun entry =>
            if regex.isMatch entry.1 host then entry.2.lookup recordType else none with
        | some answersData => fabricateResponse hickory host recordType answersData
        | none => fabricateResponse hickory host recordType []

/-- The host that is looked for: an address is formatted for a PTR query. -/
def askedHost (host : String) (recordType : ℕ) : String :=
  if recordType = ptrType then formatPtrQuery host else host

def resolveFull (host : String) (recordType : ℕ) : MockAnswer hickory :=
  client.resolveFullImpl hickory (askedHost host recordType) recordType

def shown (answer : MockAnswer hickory) : Worker.Answer :=
  answer.map fun message =>
    { responseCode := message.header.responseCode
      truncated := message.header.truncated
      answers := message.answers.map fun record => ⟨record.ttl, hickory.rdataText record.data⟩ }

/-- The default of the trait, which the mock keeps. -/
def getConcurrency : ℕ := 32

theorem get_concurrency_pos : 0 < getConcurrency := by decide

def resolver : DnsResolver where
  resolveFull host recordType := shown hickory (client.resolveFull hickory host recordType)
  getConcurrency := getConcurrency
  concurrency_pos := get_concurrency_pos
  formats_ptr host := by simp [resolveFull, askedHost, format_ptr_query_idempotent]

/-- `resolve_multi_full` of the mock formats the host of a PTR query twice, and answers
for each type as `resolve_full` does. -/
theorem mock_multi_full (host : String) {recordTypes : List ℕ} (some : recordTypes ≠ []) :
    (client.resolver hickory).resolveMultiFull host recordTypes = .ok fun recordType =>
      if recordType ∈ recordTypes then
        .some (shown hickory (client.resolveFull hickory host recordType))
      else none :=
  multi_full_results (client.resolver hickory) host some

end MockBlastDNSClient

/-- The clients that `mock_dns` may leave, in whatever order its map is iterated. -/
def Mocks {regex : RegexCrate} (hickory : HickoryProto) (responses : Responses)
    (nxdomains : List String) (client : MockBlastDNSClient regex) : Prop :=
  ∃ (before : MockBlastDNSClient regex) (visits : List Visit), VisitsAll responses visits ∧
    client = before.mockDns hickory visits nxdomains

section Python

inductive PyErr where
  | runtimeError (message : String)
  | valueError (message : String)
  -- a failed extraction
  | typeError
  deriving DecidableEq

inductive PyKey where
  | text (value : String)
  | other (hash : ℕ)
  deriving DecidableEq

inductive PyValue where
  | texts (items : List String)
  | records (items : HashMap String (List String))
  | other

def PyKey.extract : PyKey → Except PyErr String
  | text value => .ok value
  | other _ => .error .typeError

def PyValue.extractTexts : PyValue → Except PyErr (List String)
  | texts items => .ok items
  | _ => .error .typeError

def PyValue.extractRecords : PyValue → Except PyErr (HashMap String (List String))
  | records items => .ok items
  | _ => .error .typeError

/-- A dictionary has distinct keys, like a `HashMap`, and is iterated in their order. -/
abbrev PyDict := HashMap PyKey PyValue

def nxdomainKey : String := "_NXDOMAIN"

/-- One entry of the dictionary. -/
def extractEntry (found : Responses × List String) (entry : Σ _ : PyKey, PyValue) :
    Except PyErr (Responses × List String) := do
  let keyStr ← entry.1.extract
  if keyStr = nxdomainKey then
    return (found.1, ← entry.2.extractTexts)
  else
    return (found.1.insert keyStr (← entry.2.extractRecords), found.2)

def extractEntries (dict : PyDict) : Except PyErr (Responses × List String) :=
  dict.entries.foldlM extractEntry (∅, [])

structure PyMockBlastDNSClient (regex : RegexCrate) where
  inner : MockBlastDNSClient regex := {}
  -- whether a lookup in progress holds the client too
  shared : Bool := false

/-- What `MockClient.mock_dns` passes on; `none` is not a dictionary. -/
def PyMockBlastDNSClient.extract {regex : RegexCrate} (client : PyMockBlastDNSClient regex)
    (data : Option PyDict) : Except PyErr (Responses × List String) :=
  if client.shared then
    .error (.runtimeError "Cannot modify mock client with outstanding references")
  else
    match data with
    | none => .error (.valueError "expected dict")
    | some dict => extractEntries dict

/-- The clients that `MockClient.mock_dns` may leave. -/
def PyMocks {regex : RegexCrate} (hickory : HickoryProto) (client : PyMockBlastDNSClient regex)
    (data : Option PyDict) (after : MockBlastDNSClient regex) : Prop :=
  ∃ responses nxdomains, client.extract data = .ok (responses, nxdomains) ∧
    Mocks hickory responses nxdomains after

end Python

end BlastDns.Mock
