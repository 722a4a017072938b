import Mathlib.Algebra.BigOperators.Group.List.Basic
import Mathlib.Data.List.Nodup
import Mathlib.Tactic.Linarith

/-!
The text of IP and socket addresses as the Rust standard library writes and
reads it: a recursive-descent reader over the remaining characters, and the
Display of IPv4 and IPv6 addresses with the longest run of zero groups elided.
A reader yields the value and what is left; `none` rewinds. Non-ASCII
characters are never digits or separators, so characters stand for bytes.
-/

namespace NetText

abbrev Octet := Fin 256
abbrev Segment := Fin 65536
abbrev Port := Fin 65536

-- the numerals of octets, segments and ports
instance octet_ne_zero : NeZero 256 := ⟨by decide⟩
instance segment_ne_zero : NeZero 65536 := ⟨by decide⟩

structure Ipv4Addr where
  a : Octet
  b : Octet
  c : Octet
  d : Octet
  deriving DecidableEq

structure Ipv6Addr where
  segments : List Segment
  size : segments.length = 8
  deriving DecidableEq

inductive IpAddr where
  | v4 (ip : Ipv4Addr)
  | v6 (ip : Ipv6Addr)
  deriving DecidableEq

inductive SocketAddr where
  | v4 (ip : Ipv4Addr) (port : Port)
  | v6 (ip : Ipv6Addr) (port : Port) (flowinfo scopeId : Fin (2 ^ 32))
  deriving DecidableEq

/-- `SocketAddr::new`: no flow label and no scope. -/
def SocketAddr.new : IpAddr → Port → SocketAddr
  | .v4 ip, port => .v4 ip port
  | .v6 ip, port => .v6 ip port 0 0

section Reader

abbrev Reader (Value : Type) := List Char → Option (Value × List Char)

def toDigit (radix : ℕ) (char : Char) : Option ℕ :=
  let value :=
    if '0' ≤ char ∧ char ≤ '9' then some (char.toNat - '0'.toNat)
    else if 'a' ≤ char ∧ char ≤ 'z' then some (char.toNat - 'a'.toNat + 10)
    else if 'A' ≤ char ∧ char ≤ 'Z' then some (char.toNat - 'A'.toNat + 10)
    else none
  value.filter fun digit => digit < radix

def spanDigits (radix : ℕ) : List Char → List ℕ × List Char
  | [] => ([], [])
  | char :: rest =>
      match toDigit radix char with
      | some digit => (digit :: (spanDigits radix rest).1, (spanDigits radix rest).2)
      | none => ([], char :: rest)

def digitsValue (radix : ℕ) (digits : List ℕ) : ℕ :=
  digits.foldl (fun value digit => value * radix + digit) 0

/-- `read_number`: `maxDigits` bounds the digit count; without it the checked
arithmetic of the target type does, which rejects the same values. -/
def readNumber (radix : ℕ) (maxDigits : Option ℕ) (allowZeroPrefix : Bool) (bound : ℕ) :
    Reader (Fin bound) := fun text =>
  let digits := (spanDigits radix text).1
  if digits = [] then none
  else if maxDigits.any (fun most => most < digits.length) then none
  else if !allowZeroPrefix && text.head? == some '0' && 1 < digits.length then none
  else if fits : digitsValue radix digits < bound then
    some (⟨digitsValue radix digits, fits⟩, (spanDigits radix text).2)
  else none

def readGivenChar (target : Char) : List Char → Option (List Char)
  | [] => none
  | char :: rest => if char = target then some rest else none

/-- `read_separator`: the separator stands before every item but the first. -/
def readSeparator {Value : Type} (separator : Char) (first : Bool) (inner : Reader Value) :
    Reader Value := fun text =>
  if first then inner text else (readGivenChar separator text).bind inner

def readOctet : Reader Octet := readNumber 10 (some 3) false 256

def readIpv4 : Reader Ipv4Addr := fun text => do
  let (a, text) ← readSeparator '.' true readOctet text
  let (b, text) ← readSeparator '.' false readOctet text
  let (c, text) ← readSeparator '.' false readOctet text
  let (d, text) ← readSeparator '.' false readOctet text
  return (⟨a, b, c, d⟩, text)

def readGroup : Reader Segment := readNumber 16 (some 4) true 65536

def pairSegment (high low : Octet) : Segment :=
  ⟨high.val * 256 + low.val, by omega⟩

/-- `read_groups` with `remaining` groups of room: the groups read, whether they
end in an embedded IPv4 address, and what is left. -/
def readGroups : (remaining : ℕ) → (first : Bool) → List Char →
    List Segment × Bool × List Char
  | 0, _, text => ([], false, text)
  | room + 1, first, text =>
      -- an embedded IPv4 address takes two groups
      match if 1 ≤ room then readSeparator ':' first readIpv4 text else none with
      | some (ip, rest) => ([pairSegment ip.a ip.b, pairSegment ip.c ip.d], true, rest)
      | none =>
          match readSeparator ':' first readGroup text with
          | some (group, rest) =>
              (group :: (readGroups room false rest).1, (readGroups room false rest).2)
          | none => ([], false, text)

theorem read_groups_length (remaining : ℕ) (first : Bool) (text : List Char) :
    (readGroups remaining first text).1.length ≤ remaining := by
  induction remaining generalizing first text with
  | zero => simp [readGroups]
  | succ room ih =>
      unfold readGroups
      split
      · next found =>
          split at found
          · simpa using ‹1 ≤ room›
          · cases found
      · split
        · simpa using ih false _
        · simp

def readIpv6 : Reader Ipv6Addr := fun text =>
  let head := readGroups 8 true text
  if full : head.1.length = 8 then some (⟨head.1, full⟩, head.2.2)
  -- an IPv4 part is not allowed before `::`
  else if head.2.1 then none
  else do
    let text ← readGivenChar ':' head.2.2
    let text ← readGivenChar ':' text
    -- `::` stands for at least one group, so seven is the most that is left
    let tail := readGroups (7 - head.1.length) true text
    return (⟨head.1 ++ List.replicate (8 - head.1.length - tail.1.length) 0 ++ tail.1, by
      have headBound : head.1.length ≤ 8 := read_groups_length 8 true _
      have tailBound : tail.1.length ≤ 7 - head.1.length := read_groups_length _ _ _
      simp only [List.length_append, List.length_replicate]
      omega⟩, tail.2.2)

def readIpAddr : Reader IpAddr := fun text =>
  match readIpv4 text with
  | some (ip, rest) => some (.v4 ip, rest)
  | none => (readIpv6 text).map fun (ip, rest) => (.v6 ip, rest)

def readPort : Reader Port := fun text =>
  (readGivenChar ':' text).bind (readNumber 10 none true 65536)

def readScopeId : Reader (Fin (2 ^ 32)) := fun text =>
  (readGivenChar '%' text).bind (readNumber 10 none true (2 ^ 32))

def readSocketAddrV4 : Reader SocketAddr := fun text => do
  let (ip, text) ← readIpv4 text
  let (port, text) ← readPort text
  return (.v4 ip port, text)

def readSocketAddrV6 : Reader SocketAddr := fun text => do
  let text ← readGivenChar '[' text
  let (ip, text) ← readIpv6 text
  let (scopeId, text) := (readScopeId text).getD (0, text)
  let text ← readGivenChar ']' text
  let (port, text) ← readPort text
  return (.v6 ip port 0 scopeId, text)

def readSocketAddr : Reader SocketAddr := fun text =>
  match readSocketAddrV4 text with
  | some found => some found
  | none => readSocketAddrV6 text

/-- `parse_with`: the reader must use up the input. -/
def parseWith {Value : Type} (reader : Reader Value) (text : List Char) : Option Value :=
  match reader text with
  | some (value, []) => some value
  | _ => none

def IpAddr.fromStr (text : List Char) : Option IpAddr := parseWith readIpAddr text

def SocketAddr.fromStr (text : List Char) : Option SocketAddr := parseWith readSocketAddr text

end Reader

section Display

def decimal (value : ℕ) : List Char := Nat.toDigits 10 value
def hex (value : ℕ) : List Char := Nat.toDigits 16 value

def Ipv4Addr.display (ip : Ipv4Addr) : List Char :=
  decimal ip.a ++ '.' :: decimal ip.b ++ '.' :: decimal ip.c ++ '.' :: decimal ip.d

structure Span where
  start : ℕ := 0
  len : ℕ := 0

/-- The loop over the segments that keeps the current and the longest run of zeros. -/
def zeroSpans : (index : ℕ) → (current longest : Span) → List Segment → Span
  | _, _, longest, [] => longest
  | index, current, longest, segment :: rest =>
      if segment = 0 then
        let current : Span :=
          { start := if current.len = 0 then index else current.start, len := current.len + 1 }
        zeroSpans (index + 1) current (if longest.len < current.len then current else longest) rest
      else zeroSpans (index + 1) {} longest rest

def longestZeroes (segments : List Segment) : Span := zeroSpans 0 {} {} segments

/-- Groups after the first are preceded by a colon. -/
def groupsTail : List Segment → List Char
  | [] => []
  | segment :: rest => ':' :: hex segment ++ groupsTail rest

/-- `fmt_subslice` -/
def groupsText : List Segment → List Char
  | [] => []
  | segment :: rest => hex segment ++ groupsTail rest

def Ipv6Addr.toIpv4Mapped (ip : Ipv6Addr) : Option Ipv4Addr :=
  match ip.segments with
  | [0, 0, 0, 0, 0, 65535, high, low] =>
      some ⟨⟨high.val / 256, by omega⟩, ⟨high.val % 256, by omega⟩,
        ⟨low.val / 256, by omega⟩, ⟨low.val % 256, by omega⟩⟩
  | _ => none

def Ipv6Addr.display (ip : Ipv6Addr) : List Char :=
  match ip.toIpv4Mapped with
  | some mapped => "::ffff:".toList ++ mapped.display
  | none =>
      let zeroes := longestZeroes ip.segments
      if 1 < zeroes.len then
        groupsText (ip.segments.take zeroes.start) ++ "::".toList ++
          groupsText (ip.segments.drop (zeroes.start + zeroes.len))
      else groupsText ip.segments

def IpAddr.display : IpAddr → List Char
  | .v4 ip => ip.display
  | .v6 ip => ip.display

end Display

end NetText
