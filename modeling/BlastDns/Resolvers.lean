import BlastDns.Error
import BlastDns.NetZeroes
import Mathlib.Data.List.DropRight

/-!
`parse_resolver` of `src/utils.rs` and the text `with_config` hands to it for
each system resolver. The port is appended without brackets, which an IPv6
reader takes for one more group: the address that comes back, if any does, has
a larger sum of groups than the one that went in.
-/

namespace BlastDns.Resolvers

open NetText

/-- Unicode White_Space, as `str::trim` uses it. -/
def isWhitespace (char : Char) : Bool :=
  let code := char.toNat
  (9 ≤ code && code ≤ 13) || code == 0x20 || code == 0x85 || code == 0xA0 || code == 0x1680 ||
    (0x2000 ≤ code && code ≤ 0x200A) || code == 0x2028 || code == 0x2029 || code == 0x202F ||
    code == 0x205F || code == 0x3000

/-- `trim_matches`: matching characters go from both ends. -/
def trimMatches (matching : Char → Bool) (text : List Char) : List Char :=
  ((text.dropWhile matching).reverse.dropWhile matching).reverse

def isBracket (char : Char) : Bool := char == '[' || char == ']'

def defaultPort : Port := 53

def parseResolver (input : String) : Except BlastDNSError SocketAddr :=
  match SocketAddr.fromStr input.toList with
  | some addr => .ok addr
  | none =>
      let trimmed := trimMatches isWhitespace input.toList
      let stripped := trimMatches isBracket trimmed
      match IpAddr.fromStr stripped with
      | some ip => .ok (SocketAddr.new ip defaultPort)
      | none => .error (.invalidResolver input .socket)

/-- `format!("{}:53", ip)` -/
def systemResolverText (ip : IpAddr) : String :=
  String.ofList (ip.display ++ ":53".toList)

section Trimming

variable {matching : Char → Bool}

theorem dropped_front {front core : List Char} (before : ∀ char ∈ front, matching char = true)
    (first : ∀ char ∈ core.head?, matching char = false) :
    (front ++ core).dropWhile matching = core := by
  rw [List.dropWhile_append_of_pos before]
  cases core with
  | nil => rfl
  | cons char tail => exact List.dropWhile_cons_of_neg (by simp [first char rfl])

theorem trim_matches_between {front core back : List Char}
    (before : ∀ char ∈ front, matching char = true) (after : ∀ char ∈ back, matching char = true)
    (first : ∀ char ∈ core.head?, matching char = false)
    (last : ∀ char ∈ core.getLast?, matching char = false) :
    trimMatches matching (front ++ core ++ back) = core := by
  rw [trimMatches, List.append_assoc]
  cases core with
  | nil =>
      have gone : (front ++ ([] ++ back)).dropWhile matching = [] := by
        rw [List.dropWhile_append_of_pos before, List.nil_append]
        exact List.dropWhile_eq_nil_iff.mpr after
      rw [gone]
      rfl
  | cons char tail =>
      rw [dropped_front before (by simpa using first), List.reverse_append,
        dropped_front (by simpa using after) (by simpa only [List.head?_reverse] using last),
        List.reverse_reverse]

theorem trim_matches_kept {text : List Char}
    (first : ∀ char ∈ text.head?, matching char = false)
    (last : ∀ char ∈ text.getLast?, matching char = false) : trimMatches matching text = text := by
  have whole : trimMatches matching ([] ++ text ++ []) = text :=
    trim_matches_between (by simp) (by simp) first last
  rwa [List.nil_append, List.append_nil] at whole

theorem digit_not_trimmed (char : Char) (digit : (toDigit 16 char).isSome = true) :
    isWhitespace char = false ∧ isBracket char = false := by
  have ranges : (48 ≤ char.toNat ∧ char.toNat ≤ 57) ∨ (97 ≤ char.toNat ∧ char.toNat ≤ 122) ∨
      (65 ≤ char.toNat ∧ char.toNat ≤ 90) := by
    unfold toDigit at digit
    simp only [Char.le_def, UInt32.le_iff_toNat_le] at digit
    split_ifs at digit with numeral lower upper
    · exact Or.inl numeral
    · exact Or.inr (Or.inl lower)
    · exact Or.inr (Or.inr upper)
    · simp at digit
  constructor
  · simp only [isWhitespace, Bool.or_eq_false_iff, Bool.and_eq_false_iff, decide_eq_false_iff_not,
      beq_eq_false_iff_ne]
    omega
  · have brackets : '['.toNat = 91 ∧ ']'.toNat = 93 := by decide
    simp only [isBracket, Bool.or_eq_false_iff, beq_eq_false_iff_ne]
    constructor <;> rintro rfl <;> omega

end Trimming

/-- How a displayed IPv6 address can begin when more text follows it. -/
def Opens (text : List Char) : Prop :=
  (∃ rest, text = ':' :: rest) ∨ ∃ (segment : Segment) (rest : List Char),
    text = hex segment ++ rest ∧ Stopping rest

theorem groups_text_opens (segments : List Segment) (rest : List Char)
    (stops : ∃ more, rest = ':' :: more) : Opens (groupsText segments ++ rest) := by
  obtain ⟨more, rfl⟩ := stops
  cases segments with
  | nil => exact Or.inl ⟨more, rfl⟩
  | cons segment others =>
      refine Or.inr ⟨segment, groupsTail others ++ ':' :: more, ?_, ?_⟩
      · simp [groupsText]
      · apply stopping_tail
        intro char member
        simpa using Eq.symm member

theorem ipv6_display_opens (ip : Ipv6Addr) (more : List Char) :
    Opens (ip.display ++ ':' :: more) := by
  unfold Ipv6Addr.display
  split
  · exact Or.inl ⟨_, rfl⟩
  · simp only
    split
    · rw [List.append_assoc, List.append_assoc]
      exact groups_text_opens _ _ ⟨_, rfl⟩
    · exact groups_text_opens _ _ ⟨more, rfl⟩

theorem opens_not_ipv4 {text : List Char} (opens : Opens text) : readIpv4 text = none := by
  rcases opens with ⟨rest, rfl⟩ | ⟨segment, rest, rfl, stops⟩
  · exact read_ipv4_colon rest
  · exact read_ipv4_group segment rest stops

theorem opens_head {text : List Char} (opens : Opens text) :
    ∃ char, text.head? = some char ∧ isWhitespace char = false ∧ isBracket char = false := by
  rcases opens with ⟨rest, rfl⟩ | ⟨segment, rest, rfl, _⟩
  · exact ⟨':', rfl, by decide, by decide⟩
  · obtain ⟨char, tail, shape, digit⟩ := displayed_first (by decide) (le_refl 16) segment.val
    exact ⟨char, by rw [hex, shape]; rfl, digit_not_trimmed char digit⟩

section RoundTrip

def appendedGroup : Segment := 83

theorem appended_text : ":53".toList = ':' :: hex appendedGroup := by decide

theorem system_text (ip : IpAddr) :
    (systemResolverText ip).toList = ip.display ++ ':' :: hex appendedGroup := by
  rw [systemResolverText, String.toList_ofList, appended_text]

theorem colon_stops (rest : List Char) : Stopping (':' :: rest) := by
  intro char member
  simpa using Eq.symm member

theorem read_groups_quad (segment : Segment) (quad : Ipv4Addr) :
    readGroups 7 true (hex segment ++ ':' :: (quad.display ++ ':' :: hex appendedGroup)) =
      ([segment, pairSegment quad.a quad.b, pairSegment quad.c quad.d], true,
        ':' :: hex appendedGroup) := by
  have dotted := read_ipv4_displayed quad (':' :: hex appendedGroup) (by
    intro char member
    obtain rfl := colon_stops _ char member
    decide)
  simp [readGroups, readSeparator, read_ipv4_group _ _ (colon_stops _),
    read_group_displayed _ _ (stopping_hex (colon_stops _)), readGivenChar, dotted]

/-- `::ffff:a.b.c.d` takes the dotted quad for its end, so `:53` is left over. -/
theorem mapped_leftover (mapped : Ipv4Addr) :
    ∃ ip : Ipv6Addr, readIpv6 ("::ffff:".toList ++ mapped.display ++ ':' :: hex appendedGroup) =
      some (ip, ':' :: hex appendedGroup) := by
  have text : "::ffff:".toList ++ mapped.display ++ ':' :: hex appendedGroup =
      groupsText [] ++ ':' :: ':' :: (hex (65535 : Segment) ++
        ':' :: (mapped.display ++ ':' :: hex appendedGroup)) := rfl
  obtain ⟨ip, read, _⟩ :=
    read_ipv6_elided [] _ _ _ true (by decide) (read_groups_quad 65535 mapped)
  exact ⟨ip, by rw [text, read]⟩

/-- If the unbracketed text of an IPv6 address with `:53` after it is read to its
end, the reader has seen one more group than the address has. -/
theorem appended_port_sum (ip found : Ipv6Addr)
    (read : readIpv6 (ip.display ++ ':' :: hex appendedGroup) = some (found, [])) :
    segmentSum found.segments = segmentSum ip.segments + 83 := by
  unfold Ipv6Addr.display at read
  split at read
  · -- an IPv4-mapped address ends in its quad and leaves the port unread
    next mapped _ =>
      obtain ⟨other, left⟩ := mapped_leftover mapped
      rw [left] at read
      simp at read
  · simp only at read
    split at read
    · next elided =>
        have sums := elided_sum ip.segments
        have bounded := (longest_zeroes_run ip.segments).2
        generalize longestZeroes ip.segments = zeroes at read sums bounded elided
        rw [ip.size] at bounded
        have frontLength : (ip.segments.take zeroes.start).length = zeroes.start := by
          rw [List.length_take, ip.size]
          omega
        have backLength : (ip.segments.drop (zeroes.start + zeroes.len)).length =
            8 - (zeroes.start + zeroes.len) := by
          rw [List.length_drop, ip.size]
        generalize ip.segments.take zeroes.start = front at read sums frontLength
        generalize ip.segments.drop (zeroes.start + zeroes.len) = back at read sums backLength
        have text : groupsText front ++ "::".toList ++ groupsText back ++ ':' :: hex appendedGroup =
            groupsText front ++ ':' :: ':' :: (groupsText back ++ ':' :: hex appendedGroup) := by
          simp
        rw [text] at read
        cases back with
        | nil =>
            -- after `::` a colon begins no group
            obtain ⟨other, left, _⟩ := read_ipv6_elided front [] _ _ false (by omega)
              (read_groups_none (7 - front.length) (hex appendedGroup))
            rw [show groupsText [] ++ ':' :: hex appendedGroup = ':' :: hex appendedGroup from rfl,
              left] at read
            simp at read
        | cons segment others =>
            have longer : groupsText (segment :: others) ++ ':' :: hex appendedGroup =
                groupsText (segment :: (others ++ [appendedGroup])) := by
              simp [groupsText, groups_tail_snoc]
            have room : (segment :: (others ++ [appendedGroup])).length ≤ 7 - front.length := by
              simp only [List.length_cons, List.length_append, List.length_nil] at backLength ⊢
              omega
            obtain ⟨other, whole, shape⟩ := read_ipv6_elided front _ _ _ false (by omega)
              (read_groups_to_end segment (others ++ [appendedGroup]) _ room)
            rw [longer, whole] at read
            obtain rfl : other = found := by simpa using read
            rw [shape, segment_sum_append, segment_sum_append, segment_sum_zeroes,
              ← List.cons_append, segment_sum_append]
            have last : segmentSum [appendedGroup] = 83 := by decide
            omega
    · -- eight groups are written out, and a ninth is not taken
      rw [read_ipv6_full ip _ (colon_stops _)] at read
      simp at read

theorem ipv4_text_kept (ip : Ipv4Addr) :
    parseResolver (systemResolverText (.v4 ip)) = .ok (SocketAddr.new (.v4 ip) defaultPort) := by
  have quad := read_ipv4_displayed ip (':' :: hex appendedGroup) (by
    intro char member
    obtain rfl := colon_stops _ char member
    decide)
  have port : readPort (':' :: hex appendedGroup) = some (53, []) := by decide
  have read : SocketAddr.fromStr (ip.display ++ ':' :: hex appendedGroup) = some (.v4 ip 53) := by
    simp [SocketAddr.fromStr, parseWith, readSocketAddr, readSocketAddrV4, quad, port]
  rw [parseResolver, system_text, IpAddr.display, read]
  rfl

/-- What `parse_resolver` makes of an unbracketed IPv6 address and port: the
socket reader fails, trimming finds nothing, and the IPv6 reader decides. -/
theorem ipv6_text_reread (ip : Ipv6Addr) :
    parseResolver (systemResolverText (.v6 ip)) =
      match parseWith readIpv6 (ip.display ++ ':' :: hex appendedGroup) with
      | some found => .ok (SocketAddr.new (.v6 found) defaultPort)
      | none => .error (.invalidResolver (systemResolverText (.v6 ip)) .socket) := by
  have opens := ipv6_display_opens ip (hex appendedGroup)
  have notQuad := opens_not_ipv4 opens
  obtain ⟨first, starts, notSpace, notBracket⟩ := opens_head opens
  have ends : ip.display ++ ':' :: hex appendedGroup = (ip.display ++ [':', '5']) ++ ['3'] := by
    simp [show hex appendedGroup = ['5', '3'] by decide]
  have last : (ip.display ++ ':' :: hex appendedGroup).getLast? = some '3' := by
    rw [ends, List.getLast?_concat]
  have kept : ∀ matching : Char → Bool, matching first = false → matching '3' = false →
      trimMatches matching (ip.display ++ ':' :: hex appendedGroup) =
        ip.display ++ ':' :: hex appendedGroup := by
    intro matching keepsFirst keepsLast
    apply trim_matches_kept
    · simpa [starts] using keepsFirst
    · simpa [last] using keepsLast
  have unspaced := kept isWhitespace notSpace (by decide)
  have unbracketed := kept isBracket notBracket (by decide)
  have notSocket : SocketAddr.fromStr (ip.display ++ ':' :: hex appendedGroup) = none := by
    have noOpening : readGivenChar '[' (ip.display ++ ':' :: hex appendedGroup) = none := by
      generalize ip.display ++ ':' :: hex appendedGroup = text at starts
      cases text with
      | nil => rfl
      | cons char rest =>
          obtain rfl : char = first := by simpa using starts
          have other : char ≠ '[' := by
            rintro rfl
            exact absurd notBracket (by decide)
          simp [readGivenChar, other]
    simp [SocketAddr.fromStr, parseWith, readSocketAddr, readSocketAddrV4, readSocketAddrV6, notQuad,
      noOpening]
  have ipRead : IpAddr.fromStr (ip.display ++ ':' :: hex appendedGroup) =
      (parseWith readIpv6 (ip.display ++ ':' :: hex appendedGroup)).map IpAddr.v6 := by
    simp only [IpAddr.fromStr, parseWith, readIpAddr, notQuad]
    rcases readIpv6 (ip.display ++ ':' :: hex appendedGroup) with _ | ⟨found, rest⟩
    · rfl
    · cases rest <;> rfl
  rw [parseResolver, system_text, IpAddr.display, notSocket]
  simp only [unspaced, unbracketed, ipRead]
  cases parseWith readIpv6 (ip.display ++ ':' :: hex appendedGroup) <;> rfl

/-- The round trip through `with_config` keeps exactly the IPv4 addresses. -/
theorem system_resolver_kept_iff (ip : IpAddr) :
    parseResolver (systemResolverText ip) = .ok (SocketAddr.new ip defaultPort) ↔
      ∃ quad, ip = .v4 quad := by
  constructor
  · intro kept
    cases ip with
    | v4 quad => exact ⟨quad, rfl⟩
    | v6 ip =>
        rw [ipv6_text_reread] at kept
        cases parsed : parseWith readIpv6 (ip.display ++ ':' :: hex appendedGroup) with
        | none => simp [parsed] at kept
        | some found =>
            rw [parsed] at kept
            obtain rfl : found = ip := by simpa [SocketAddr.new] using kept
            have consumed : readIpv6 (found.display ++ ':' :: hex appendedGroup) =
                some (found, []) := by
              unfold parseWith at parsed
              split at parsed
              · next read =>
                  obtain rfl := Option.some.inj parsed
                  exact read
              · cases parsed
            have grown := appended_port_sum found found consumed
            omega
  · rintro ⟨quad, rfl⟩
    exact ipv4_text_kept quad

/-- `2001:4860:4860::8888` comes back as the different address
`2001:4860:4860::8888:53`. -/
theorem system_resolver_misread :
    parseResolver (systemResolverText
        (.v6 ⟨[0x2001, 0x4860, 0x4860, 0, 0, 0, 0, 0x8888], rfl⟩)) =
      .ok (SocketAddr.new (.v6 ⟨[0x2001, 0x4860, 0x4860, 0, 0, 0, 0x8888, 0x53], rfl⟩) 53) ∧
    ¬ ∀ ip, parseResolver (systemResolverText ip) = .ok (SocketAddr.new ip 53) := by
  have misread : parseResolver (systemResolverText
        (.v6 ⟨[0x2001, 0x4860, 0x4860, 0, 0, 0, 0, 0x8888], rfl⟩)) =
      .ok (SocketAddr.new (.v6 ⟨[0x2001, 0x4860, 0x4860, 0, 0, 0, 0x8888, 0x53], rfl⟩) 53) := by
    rw [ipv6_text_reread]
    rfl
  refine ⟨misread, fun all => ?_⟩
  have kept := all (.v6 ⟨[0x2001, 0x4860, 0x4860, 0, 0, 0, 0, 0x8888], rfl⟩)
  rw [misread] at kept
  simp [SocketAddr.new] at kept

end RoundTrip

end BlastDns.Resolvers
