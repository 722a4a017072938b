import BlastDns.NetText

/-!
What the readers make of displayed text with more text after it. A displayed
number is read back whole as long as the next character is not a digit of that
radix; a colon-separated run of groups is read back group by group and is never
mistaken for an embedded IPv4 address, because no dot follows its first digits.
-/

namespace NetText

theorem to_digit_char {radix digit : ℕ} (small : radix ≤ 16) (inside : digit < radix) :
    toDigit radix (Nat.digitChar digit) = some digit := by
  have all : ∀ radix : Fin 17, ∀ digit : Fin 16, digit.val < radix.val →
      toDigit radix (Nat.digitChar digit) = some digit.val := by decide
  exact all ⟨radix, by omega⟩ ⟨digit, by omega⟩ inside

theorem span_digits_append {radix : ℕ} {chars : List Char} {digits : List ℕ}
    (known : List.Forall₂ (fun char digit => toDigit radix char = some digit) chars digits)
    (rest : List Char) (stops : ∀ char ∈ rest.head?, toDigit radix char = none) :
    spanDigits radix (chars ++ rest) = (digits, rest) := by
  induction known with
  | nil =>
      cases rest with
      | nil => rfl
      | cons char rest => simp [spanDigits, stops char rfl]
  | cons digit _ ih => simp [spanDigits, digit, ih]

section Numbers

variable {radix : ℕ}

theorem digits_value_snoc (digits : List ℕ) (digit : ℕ) :
    digitsValue radix (digits ++ [digit]) = digitsValue radix digits * radix + digit := by
  simp [digitsValue, List.foldl_append]

theorem displayed_digits (lower : 1 < radix) (small : radix ≤ 16) (value : ℕ) :
    ∃ digits, List.Forall₂ (fun char digit => toDigit radix char = some digit)
        (Nat.toDigits radix value) digits ∧ digitsValue radix digits = value := by
  induction value using Nat.strong_induction_on with
  | _ value ih =>
      rw [Nat.toDigits_eq_if lower]
      split
      · next single =>
          refine ⟨[value], List.Forall₂.cons (to_digit_char small single) .nil, ?_⟩
          simp [digitsValue]
      · next large =>
          have smaller : value / radix < value := Nat.div_lt_self (by omega) lower
          obtain ⟨digits, known, sum⟩ := ih _ smaller
          have last : value % radix < radix := Nat.mod_lt _ (by omega)
          refine ⟨digits ++ [value % radix],
            List.rel_append known (.cons (to_digit_char small last) .nil), ?_⟩
          rw [digits_value_snoc, sum]
          exact Nat.div_add_mod' value radix

/-- The digits of a number tell it from every other number. -/
theorem displayed_injective (lower : 1 < radix) (small : radix ≤ 16) :
    Function.Injective (Nat.toDigits radix) := by
  intro first second same
  obtain ⟨digits, known, sum⟩ := displayed_digits lower small first
  obtain ⟨others, read, total⟩ := displayed_digits lower small second
  rw [same] at known
  have spanned := span_digits_append known [] (by simp)
  rw [span_digits_append read [] (by simp)] at spanned
  obtain ⟨rfl, _⟩ := Prod.mk.inj spanned
  exact sum.symm.trans total

theorem displayed_first (lower : 1 < radix) (small : radix ≤ 16) (value : ℕ) :
    ∃ char rest, Nat.toDigits radix value = char :: rest ∧ (toDigit radix char).isSome = true := by
  obtain ⟨digits, known, _⟩ := displayed_digits lower small value
  have nonempty : Nat.toDigits radix value ≠ [] := Nat.toDigits_ne_nil
  generalize Nat.toDigits radix value = chars at known nonempty
  cases known with
  | nil => exact absurd rfl nonempty
  | cons digit _ => exact ⟨_, _, rfl, by rw [digit]; rfl⟩

/-- Only zero itself is displayed with a leading zero. -/
theorem displayed_head (lower : 1 < radix) (small : radix ≤ 16) (value : ℕ)
    (zero : (Nat.toDigits radix value).head? = some '0') : value = 0 := by
  induction value using Nat.strong_induction_on with
  | _ value ih =>
      rw [Nat.toDigits_eq_if lower] at zero
      split at zero
      · next single =>
          have char : Nat.digitChar value = '0' := by simpa using zero
          have read := to_digit_char small single
          rw [char] at read
          have zeroRead : toDigit radix (Nat.digitChar 0) = some 0 := to_digit_char small (by omega)
          exact Option.some.inj (read.symm.trans zeroRead)
      · next large =>
          have smaller : value / radix < value := Nat.div_lt_self (by omega) lower
          rw [List.head?_append_of_ne_nil _ Nat.toDigits_ne_nil] at zero
          have quotient := ih _ smaller zero
          have positive : 0 < value / radix := Nat.div_pos (by omega) (by omega)
          omega

/-- A displayed number that fits its field is read back, and reading stops where
the digits stop. -/
theorem read_number_displayed (lower : 1 < radix) (small : radix ≤ 16) {most bound value : ℕ}
    (allowZeroPrefix : Bool) (room : 0 < most) (fits : value < bound)
    (width : value < radix ^ most) (rest : List Char)
    (stops : ∀ char ∈ rest.head?, toDigit radix char = none) :
    readNumber radix (some most) allowZeroPrefix bound (Nat.toDigits radix value ++ rest) =
      some (⟨value, fits⟩, rest) := by
  obtain ⟨digits, known, sum⟩ := displayed_digits lower small value
  have spanned := span_digits_append known rest stops
  have length : digits.length = (Nat.toDigits radix value).length := known.length_eq.symm
  have short : digits.length ≤ most := by
    rw [length]
    exact (Nat.length_toDigits_le_iff lower room).mpr width
  have nonempty : digits ≠ [] := by
    intro empty
    rw [empty, List.length_nil] at length
    exact Nat.toDigits_ne_nil (List.length_eq_zero_iff.mp length.symm)
  -- a leading zero is refused only in front of more digits, and display writes none there
  have unpadded : ((Nat.toDigits radix value ++ rest).head? == some '0' &&
      decide (1 < digits.length)) = false := by
    rw [List.head?_append_of_ne_nil _ Nat.toDigits_ne_nil, Bool.and_eq_false_iff]
    by_cases zero : (Nat.toDigits radix value).head? = some '0'
    · have isZero := displayed_head lower small value zero
      subst isZero
      right
      simp [length]
    · left
      simpa using zero
  have allowed : (!allowZeroPrefix && (Nat.toDigits radix value ++ rest).head? == some '0' &&
      decide (1 < digits.length)) = false := by
    rw [Bool.and_assoc, unpadded, Bool.and_false]
  simp only [readNumber, spanned, nonempty, if_false, Option.any_some, sum, fits, dif_pos]
  rw [if_neg (by simpa using short), if_neg (by rw [allowed]; decide)]

theorem read_octet_displayed (octet : Octet) (rest : List Char)
    (stops : ∀ char ∈ rest.head?, toDigit 10 char = none) :
    readOctet (decimal octet ++ rest) = some (octet, rest) :=
  read_number_displayed (by decide) (by decide) false (by decide) octet.isLt
    (lt_trans octet.isLt (by decide)) rest stops

theorem read_group_displayed (segment : Segment) (rest : List Char)
    (stops : ∀ char ∈ rest.head?, toDigit 16 char = none) :
    readGroup (hex segment ++ rest) = some (segment, rest) :=
  read_number_displayed (by decide) (by decide) true (by decide) segment.isLt segment.isLt rest stops

end Numbers

theorem read_ipv4_displayed (ip : Ipv4Addr) (rest : List Char)
    (stops : ∀ char ∈ rest.head?, toDigit 10 char = none) :
    readIpv4 (ip.display ++ rest) = some (ip, rest) := by
  have dot : ∀ tail : List Char, ∀ char ∈ ('.' :: tail).head?, toDigit 10 char = none := by
    intro tail char member
    obtain rfl : '.' = char := by simpa using member
    decide
  simp [readIpv4, Ipv4Addr.display, readSeparator, readGivenChar,
    read_octet_displayed _ _ (dot _), read_octet_displayed ip.d rest stops]

/-- An IPv4 address needs a dot where its first digits end. -/
theorem read_ipv4_undotted (text : List Char)
    (undotted : (spanDigits 10 text).2.head? ≠ some '.') : readIpv4 text = none := by
  cases first : readOctet text with
  | none => simp [readIpv4, readSeparator, first]
  | some found =>
      have left : found.2 = (spanDigits 10 text).2 := by
        simp only [readOctet, readNumber] at first
        split_ifs at first
        obtain rfl := Option.some.inj first
        rfl
      rw [← left] at undotted
      cases after : found.2 with
      | nil => simp [readIpv4, readSeparator, first, after, readGivenChar]
      | cons char tail =>
          have other : char ≠ '.' := by simpa [after] using undotted
          simp [readIpv4, readSeparator, first, after, readGivenChar, other]

theorem span_digits_undotted (chars rest : List Char) (plain : '.' ∉ chars)
    (stops : ∀ char ∈ rest.head?, char = ':') :
    (spanDigits 10 (chars ++ rest)).2.head? ≠ some '.' := by
  induction chars with
  | nil =>
      cases rest with
      | nil => simp [spanDigits]
      | cons char tail =>
          obtain rfl := stops char rfl
          have notDigit : toDigit 10 ':' = none := by decide
          simp [spanDigits, notDigit]
  | cons char tail ih =>
      rw [List.mem_cons, not_or] at plain
      rw [List.cons_append, spanDigits]
      cases toDigit 10 char with
      | none => simpa using Ne.symm plain.1
      | some digit => exact ih plain.2

/-- No number is displayed with a dot in it. -/
theorem displayed_plain {radix : ℕ} (lower : 1 < radix) (value : ℕ) :
    '.' ∉ Nat.toDigits radix value := by
  induction value using Nat.strong_induction_on with
  | _ value ih =>
      rw [Nat.toDigits_eq_if lower]
      split
      · simp
      · next large =>
          rw [List.mem_append, not_or]
          refine ⟨ih _ (Nat.div_lt_self (by omega) lower), ?_⟩
          simp

theorem hex_plain (value : ℕ) : '.' ∉ hex value := displayed_plain (by decide) value

theorem read_ipv4_group (segment : Segment) (rest : List Char)
    (stops : ∀ char ∈ rest.head?, char = ':') : readIpv4 (hex segment ++ rest) = none :=
  read_ipv4_undotted _ (span_digits_undotted _ rest (hex_plain segment) stops)

section Groups

def Stopping (rest : List Char) : Prop := ∀ char ∈ rest.head?, char = ':'

theorem colon_not_hex : toDigit 16 ':' = none := by decide

theorem stopping_hex {rest : List Char} (stops : Stopping rest) :
    ∀ char ∈ rest.head?, toDigit 16 char = none := by
  intro char member
  rw [stops char member]
  exact colon_not_hex

theorem stopping_tail (segments : List Segment) {rest : List Char} (stops : Stopping rest) :
    Stopping (groupsTail segments ++ rest) := by
  cases segments with
  | nil => exact stops
  | cons segment others =>
      intro char member
      simpa [groupsTail] using Eq.symm member

/-- Groups after the first: each costs one of the remaining places. -/
theorem read_groups_tail (segments : List Segment) (spare : ℕ) (rest : List Char)
    (stops : Stopping rest)
    (ends : readGroups spare false rest = ([], false, rest)) :
    readGroups (segments.length + spare) false (groupsTail segments ++ rest) =
      (segments, false, rest) := by
  induction segments with
  | nil => simpa [groupsTail] using ends
  | cons segment others ih =>
      have next := stopping_tail others stops
      rw [show (segment :: others).length + spare = (others.length + spare) + 1 by
        simp only [List.length_cons]; omega]
      unfold readGroups
      simp [readSeparator, groupsTail, readGivenChar, List.append_assoc,
        read_ipv4_group segment _ next, read_group_displayed segment _ (stopping_hex next), ih]

theorem read_groups_text (segment : Segment) (others : List Segment) (spare : ℕ)
    (rest : List Char) (stops : Stopping rest)
    (ends : readGroups spare false rest = ([], false, rest)) :
    readGroups (others.length + spare + 1) true (groupsText (segment :: others) ++ rest) =
      (segment :: others, false, rest) := by
  have next := stopping_tail others stops
  unfold readGroups
  simp [readSeparator, groupsText, List.append_assoc, read_ipv4_group segment _ next,
    read_group_displayed segment _ (stopping_hex next), read_groups_tail others spare rest stops ends]

theorem read_group_colon (rest : List Char) : readGroup (':' :: rest) = none := by
  simp [readGroup, readNumber, spanDigits, colon_not_hex]

theorem read_ipv4_colon (rest : List Char) : readIpv4 (':' :: rest) = none := by
  have notDigit : toDigit 10 ':' = none := by decide
  apply read_ipv4_undotted
  simp [spanDigits, notDigit]

theorem read_groups_end (spare : ℕ) : readGroups spare false [] = ([], false, []) := by
  cases spare with
  | zero => rfl
  | succ room => simp [readGroups, readSeparator, readGivenChar]

theorem read_groups_elided (spare : ℕ) (rest : List Char) :
    readGroups spare false (':' :: ':' :: rest) = ([], false, ':' :: ':' :: rest) := by
  cases spare with
  | zero => rfl
  | succ room =>
      simp [readGroups, readSeparator, readGivenChar, read_group_colon, read_ipv4_colon]

theorem read_groups_none (spare : ℕ) (rest : List Char) :
    readGroups spare true (':' :: rest) = ([], false, ':' :: rest) := by
  cases spare with
  | zero => rfl
  | succ room => simp [readGroups, readSeparator, read_group_colon, read_ipv4_colon]

theorem read_groups_until_elided (segments : List Segment) (room : ℕ)
    (fits : segments.length ≤ room) (more : List Char) :
    readGroups room true (groupsText segments ++ ':' :: ':' :: more) =
      (segments, false, ':' :: ':' :: more) := by
  have stops : Stopping (':' :: ':' :: more) := by
    intro char member
    simpa using Eq.symm member
  cases segments with
  | nil => exact read_groups_none room _
  | cons segment others =>
      obtain ⟨spare, rfl⟩ := Nat.exists_eq_add_of_le fits
      have read := read_groups_text segment others spare _ stops (read_groups_elided spare more)
      rwa [show others.length + spare + 1 = (segment :: others).length + spare by
        simp only [List.length_cons]; omega] at read

theorem read_groups_to_end (segment : Segment) (others : List Segment) (room : ℕ)
    (fits : (segment :: others).length ≤ room) :
    readGroups room true (groupsText (segment :: others)) = (segment :: others, false, []) := by
  obtain ⟨spare, rfl⟩ := Nat.exists_eq_add_of_le fits
  have stops : Stopping [] := by
    intro char member
    cases member
  have read := read_groups_text segment others spare [] stops (read_groups_end spare)
  rwa [List.append_nil, show others.length + spare + 1 = (segment :: others).length + spare by
    simp only [List.length_cons]; omega] at read

/-- Text with an elided run: the groups before it, zeros, the groups after it. -/
theorem read_ipv6_elided (front back : List Segment) (more rest : List Char) (embedded : Bool)
    (short : front.length < 8)
    (tail : readGroups (7 - front.length) true more = (back, embedded, rest)) :
    ∃ ip : Ipv6Addr, readIpv6 (groupsText front ++ ':' :: ':' :: more) = some (ip, rest) ∧
      ip.segments = front ++ List.replicate (8 - front.length - back.length) 0 ++ back := by
  have head := read_groups_until_elided front 8 short.le more
  have partly : front.length ≠ 8 := by omega
  simp [readIpv6, head, partly, readGivenChar, tail]

theorem read_ipv6_full (ip : Ipv6Addr) (rest : List Char) (stops : Stopping rest) :
    readIpv6 (groupsText ip.segments ++ rest) = some (ip, rest) := by
  obtain ⟨segments, size⟩ := ip
  cases segments with
  | nil => cases size
  | cons segment others =>
      have read := read_groups_text segment others 0 rest stops rfl
      rw [show others.length + 0 + 1 = 8 from size] at read
      simp only [List.length_cons] at size
      simp [readIpv6, read, size]

theorem groups_tail_snoc (segments : List Segment) (last : Segment) :
    groupsTail segments ++ ':' :: hex last = groupsTail (segments ++ [last]) := by
  induction segments with
  | nil => simp [groupsTail]
  | cons segment others ih =>
      simp only [List.cons_append, groupsTail, List.append_assoc, ih]

end Groups

end NetText
