import BlastDns.NetReads

/-!
The characters a reader uses up. Whatever it makes of a text, an address is read
from hexadecimal digits, dots and colons only, and at least one of them, so a text
with anything else in it is no address.
-/

namespace NetText

def isDigit (radix : ℕ) (char : Char) : Bool := (toDigit radix char).isSome

def isIpChar (char : Char) : Bool := isDigit 16 char || char == '.' || char == ':'

/-- Between `text` and `rest` stand only characters that are allowed. -/
def Uses (allowed : Char → Bool) (text rest : List Char) : Prop :=
  ∃ used, text = used ++ rest ∧ ∀ char ∈ used, allowed char = true

/-- The same, with at least one such character. -/
def Spells (allowed : Char → Bool) (text rest : List Char) : Prop :=
  Uses allowed text rest ∧ rest.length < text.length

section Composition

variable {allowed : Char → Bool} {text middle rest : List Char}

theorem Uses.nothing : Uses allowed text text := ⟨[], rfl, by simp⟩

theorem Uses.length_le (uses : Uses allowed text rest) : rest.length ≤ text.length := by
  obtain ⟨used, rfl, _⟩ := uses
  simp

theorem Uses.trans (front : Uses allowed text middle) (back : Uses allowed middle rest) :
    Uses allowed text rest := by
  obtain ⟨first, rfl, known⟩ := front
  obtain ⟨second, rfl, more⟩ := back
  refine ⟨first ++ second, by simp, ?_⟩
  intro char member
  rcases List.mem_append.mp member with early | late
  · exact known char early
  · exact more char late

theorem Spells.then_uses (front : Spells allowed text middle) (back : Uses allowed middle rest) :
    Spells allowed text rest :=
  ⟨front.1.trans back, lt_of_le_of_lt back.length_le front.2⟩

theorem Uses.then_spells (front : Uses allowed text middle) (back : Spells allowed middle rest) :
    Spells allowed text rest :=
  ⟨front.trans back.1, lt_of_lt_of_le back.2 front.length_le⟩

theorem Uses.weaken {wider : Char → Bool} (uses : Uses allowed text rest)
    (weaker : ∀ char, allowed char = true → wider char = true) : Uses wider text rest := by
  obtain ⟨used, shape, known⟩ := uses
  exact ⟨used, shape, fun char member => weaker char (known char member)⟩

theorem Spells.all (spells : Spells allowed text []) :
    text ≠ [] ∧ ∀ char ∈ text, allowed char = true := by
  obtain ⟨⟨used, rfl, known⟩, some⟩ := spells
  rw [List.append_nil] at some ⊢
  exact ⟨List.ne_nil_of_length_pos some, known⟩

theorem read_given_char_some {target : Char} (found : readGivenChar target text = some rest) :
    text = target :: rest := by
  cases text with
  | nil => cases found
  | cons char tail =>
      by_cases same : char = target
      · rw [readGivenChar, if_pos same] at found
        cases found
        rw [same]
      · rw [readGivenChar, if_neg same] at found
        cases found

theorem read_given_char_spells {target : Char} (known : allowed target = true)
    (found : readGivenChar target text = some rest) : Spells allowed text rest := by
  obtain rfl := read_given_char_some found
  exact ⟨⟨[target], rfl, by simpa using known⟩, by simp⟩

theorem read_separator_spells {Value : Type} {separator : Char} {first : Bool}
    {inner : Reader Value} {value : Value} (known : allowed separator = true)
    (reads : ∀ {text rest value}, inner text = some (value, rest) → Spells allowed text rest)
    (found : readSeparator separator first inner text = some (value, rest)) :
    Spells allowed text rest := by
  cases first with
  | true => exact reads found
  | false =>
      obtain ⟨after, separated, item⟩ := Option.bind_eq_some_iff.mp found
      exact (read_given_char_spells known separated).then_uses (reads item).1

end Composition

section Readers

variable {text rest : List Char}

theorem span_digits_uses (radix : ℕ) (text : List Char) :
    Uses (isDigit radix) text (spanDigits radix text).2 ∧
      ((spanDigits radix text).1 ≠ [] → (spanDigits radix text).2.length < text.length) := by
  induction text with
  | nil => exact ⟨Uses.nothing, by simp [spanDigits]⟩
  | cons char tail ih =>
      rw [spanDigits]
      cases digit : toDigit radix char with
      | none => exact ⟨Uses.nothing, by simp⟩
      | some value =>
          obtain ⟨uses, _⟩ := ih
          have known : isDigit radix char = true := by rw [isDigit, digit, Option.isSome_some]
          have front : Uses (isDigit radix) (char :: tail) tail := ⟨[char], rfl, by simpa using known⟩
          exact ⟨front.trans uses, fun _ => Nat.lt_succ_of_le uses.length_le⟩

theorem read_number_spells {radix bound : ℕ} {most : Option ℕ} {zeroes : Bool} {value : Fin bound}
    (found : readNumber radix most zeroes bound text = some (value, rest)) :
    Spells (isDigit radix) text rest := by
  obtain ⟨uses, shorter⟩ := span_digits_uses radix text
  simp only [readNumber] at found
  split_ifs at found with empty
  obtain ⟨_, rfl⟩ := Prod.mk.inj (Option.some.inj found)
  exact ⟨uses, shorter empty⟩

theorem decimal_is_hex (char : Char) (digit : isDigit 10 char = true) : isDigit 16 char = true := by
  obtain ⟨value, found⟩ := Option.isSome_iff_exists.mp digit
  obtain ⟨read, small⟩ := Option.filter_eq_some_iff.mp found
  apply Option.isSome_iff_exists.mpr
  refine ⟨value, Option.filter_eq_some_iff.mpr ⟨read, ?_⟩⟩
  rw [decide_eq_true_eq] at small ⊢
  omega

theorem hex_is_ip (char : Char) (digit : isDigit 16 char = true) : isIpChar char = true := by
  simp [isIpChar, digit]

theorem read_ipv4_spells {ip : Ipv4Addr} (found : readIpv4 text = some (ip, rest)) :
    Spells isIpChar text rest := by
  have octet : ∀ {text rest : List Char} {value : Octet},
      readOctet text = some (value, rest) → Spells isIpChar text rest := fun found =>
    let digits := read_number_spells found
    ⟨digits.1.weaken fun char digit => hex_is_ip char (decimal_is_hex char digit), digits.2⟩
  have item : ∀ {first : Bool} {text rest : List Char} {value : Octet},
      readSeparator '.' first readOctet text = some (value, rest) → Spells isIpChar text rest :=
    fun found => read_separator_spells (by decide) octet found
  simp only [readIpv4, Option.bind_eq_bind, Option.bind_eq_some_iff, Prod.exists] at found
  obtain ⟨a, afterA, first, b, afterB, second, c, afterC, third, d, afterD, fourth, same⟩ := found
  cases same
  exact (item first).then_uses ((item second).then_uses ((item third).then_uses (item fourth).1).1).1

theorem read_group_spells {group : Segment} (found : readGroup text = some (group, rest)) :
    Spells isIpChar text rest :=
  let digits := read_number_spells found
  ⟨digits.1.weaken hex_is_ip, digits.2⟩

theorem read_groups_uses (room : ℕ) (first : Bool) (text : List Char) :
    Uses isIpChar text (readGroups room first text).2.2 ∧
      ((readGroups room first text).1 ≠ [] →
        (readGroups room first text).2.2.length < text.length) := by
  induction room generalizing first text with
  | zero => exact ⟨Uses.nothing, by simp [readGroups]⟩
  | succ room ih =>
      rw [readGroups]
      split
      · rename_i ip rest quad
        split at quad
        · have spelt : Spells isIpChar text rest :=
            read_separator_spells (by decide) read_ipv4_spells quad
          exact ⟨spelt.1, fun _ => spelt.2⟩
        · cases quad
      · split
        · rename_i group rest found
          have spelt : Spells isIpChar text rest :=
            read_separator_spells (by decide) read_group_spells found
          have whole := spelt.then_uses (ih false rest).1
          exact ⟨whole.1, fun _ => whole.2⟩
        · exact ⟨Uses.nothing, by simp⟩

theorem read_ipv6_spells {ip : Ipv6Addr} (found : readIpv6 text = some (ip, rest)) :
    Spells isIpChar text rest := by
  obtain ⟨front, shorter⟩ := read_groups_uses 8 true text
  simp only [readIpv6] at found
  split_ifs at found with full
  · obtain ⟨_, rfl⟩ := Prod.mk.inj (Option.some.inj found)
    refine ⟨front, shorter ?_⟩
    intro empty
    rw [empty] at full
    cases full
  · simp only [Option.bind_eq_bind, Option.bind_eq_some_iff] at found
    obtain ⟨afterFirst, first, afterSecond, second, same⟩ := found
    cases same
    have colons : Spells isIpChar _ afterSecond :=
      (read_given_char_spells (by decide) first).then_uses
        (read_given_char_spells (by decide) second).1
    exact (front.then_spells colons).then_uses (read_groups_uses _ true afterSecond).1

theorem read_ip_addr_spells {ip : IpAddr} (found : readIpAddr text = some (ip, rest)) :
    Spells isIpChar text rest := by
  rw [readIpAddr] at found
  cases quad : readIpv4 text with
  | some read =>
      rw [quad] at found
      cases found
      exact read_ipv4_spells quad
  | none =>
      rw [quad] at found
      obtain ⟨read, six, same⟩ := Option.map_eq_some_iff.mp found
      cases same
      exact read_ipv6_spells six

theorem read_port_shape {port : Port} (found : readPort text = some (port, rest)) :
    ∃ digits, text = ':' :: digits ∧ Spells (isDigit 10) digits rest := by
  obtain ⟨digits, colon, number⟩ := Option.bind_eq_some_iff.mp found
  exact ⟨digits, read_given_char_some colon, read_number_spells number⟩

def isScopeChar (char : Char) : Bool := isDigit 10 char || char == '%'

theorem read_scope_uses (text : List Char) :
    Uses isScopeChar text ((readScopeId text).getD (0, text)).2 := by
  cases scope : readScopeId text with
  | none => exact Uses.nothing
  | some read =>
      obtain ⟨digits, percent, number⟩ := Option.bind_eq_some_iff.mp scope
      have sign : Spells isScopeChar text digits := read_given_char_spells (by decide) percent
      have value := (read_number_spells number).1.weaken
        (fun char digit => show isScopeChar char = true by simp [isScopeChar, digit])
      exact sign.1.trans value

end Readers

section Literals

variable {text : List Char}

theorem parse_with_some {Value : Type} {reader : Reader Value} {value : Value}
    (parsed : parseWith reader text = some value) : reader text = some (value, []) := by
  rw [parseWith] at parsed
  split at parsed
  · rename_i found
    cases parsed
    exact found
  · cases parsed

/-- An IP literal is made of the characters of addresses, and of one at least. -/
theorem ip_literal_chars {ip : IpAddr} (parsed : IpAddr.fromStr text = some ip) :
    text ≠ [] ∧ ∀ char ∈ text, isIpChar char = true :=
  (read_ip_addr_spells (parse_with_some parsed)).all

/-- A socket literal is a dotted quad with a port, or an IPv6 literal and perhaps a
scope in one pair of brackets, with a port. -/
theorem socket_literal_shape {addr : SocketAddr} (parsed : SocketAddr.fromStr text = some addr) :
    ∃ front digits, text = front ++ ':' :: digits ∧ digits ≠ [] ∧
      (∀ char ∈ digits, isDigit 10 char = true) ∧
      (((∀ char ∈ front, isIpChar char = true) ∧ ∃ ip, readIpv4 text = some (ip, ':' :: digits)) ∨
        ∃ inner scope, front = '[' :: inner ++ scope ++ [']'] ∧ inner ≠ [] ∧
          (∀ char ∈ inner, isIpChar char = true) ∧ ∀ char ∈ scope, isScopeChar char = true) := by
  have found := parse_with_some parsed
  rw [readSocketAddr] at found
  cases four : readSocketAddrV4 text with
  | some read =>
      rw [four] at found
      cases found
      simp only [readSocketAddrV4, Option.bind_eq_bind, Option.bind_eq_some_iff, Prod.exists] at four
      obtain ⟨ip, middle, quad, port, left, ported, same⟩ := four
      cases same
      obtain ⟨digits, rfl, number⟩ := read_port_shape ported
      obtain ⟨⟨front, shape, known⟩, _⟩ := read_ipv4_spells quad
      exact ⟨front, digits, shape, number.all.1, number.all.2, Or.inl ⟨known, ip, quad⟩⟩
  | none =>
      rw [four] at found
      simp only [readSocketAddrV6, Option.bind_eq_bind, Option.bind_eq_some_iff, Prod.exists]
        at found
      obtain ⟨afterOpen, opened, ip, afterIp, six, afterClose, closed, port, left, ported, same⟩ :=
        found
      cases same
      obtain ⟨digits, rfl, number⟩ := read_port_shape ported
      obtain ⟨⟨inner, rfl, known⟩, shorter⟩ := read_ipv6_spells six
      have some : inner ≠ [] := by
        rintro rfl
        exact lt_irrefl _ shorter
      have shape := read_given_char_some opened
      have last := read_given_char_some closed
      obtain ⟨scope, split, plain⟩ := read_scope_uses afterIp
      rw [last] at split
      refine ⟨'[' :: inner ++ scope ++ [']'], digits, ?_, number.all.1, number.all.2,
        Or.inr ⟨inner, scope, rfl, some, known, plain⟩⟩
      rw [shape, split]
      simp

end Literals

end NetText
