import BlastDns.NetChars
import BlastDns.Resolvers

/-!
Which spellings `parse_resolver` takes for a resolver. It tries the text as it
stands as a socket literal, and only then trims whitespace and strips brackets, of
either kind and any number, for an IP literal. So whitespace costs a resolver with
a port its meaning and one without a port nothing, and brackets need not match.
-/

namespace BlastDns.ResolverGrammar

open NetText Resolvers

/-- `str::trim` -/
def trimmed (input : String) : List Char := trimMatches isWhitespace input.toList

/-- The resolvers a text may stand for: a socket literal, or an IP literal or an
IPv6 literal in brackets, with the port of DNS. -/
inductive Denotes : List Char → SocketAddr → Prop
  | socket {text : List Char} {addr : SocketAddr} (literal : SocketAddr.fromStr text = some addr) :
      Denotes text addr
  | ip {text : List Char} {ip : IpAddr} (literal : IpAddr.fromStr text = some ip) :
      Denotes text (SocketAddr.new ip 53)
  | bracketed {inner : List Char} {ip : Ipv6Addr} (literal : IpAddr.fromStr inner = some (.v6 ip)) :
      Denotes ('[' :: inner ++ [']']) (SocketAddr.new (.v6 ip) 53)

/-- The input is read by the grammar, and as its trimmed text is. -/
structure FollowsGrammar (input : String) : Prop where
  accepts : ∀ addr, parseResolver input = .ok addr ↔ Denotes (trimmed input) addr
  rejects : (∀ addr, ¬ Denotes (trimmed input) addr) →
    ∃ source, parseResolver input = .error (.invalidResolver input source)
  unspaced : (parseResolver input).toOption =
    (parseResolver (String.ofList (trimmed input))).toOption

/-- A socket literal stands alone. -/
def BareSocket (input : String) : Prop :=
  (SocketAddr.fromStr (trimmed input)).isSome = true → trimmed input = input.toList

/-- Brackets around an IP literal are one pair around an IPv6 literal. -/
def PairedBrackets (input : String) : Prop :=
  ∀ opening inner closing ip, trimmed input = opening ++ inner ++ closing →
    (∀ char ∈ opening ++ closing, isBracket char = true) → IpAddr.fromStr inner = some ip →
    (opening = [] ∧ closing = []) ∨
      (opening = ['['] ∧ closing = [']'] ∧ ∃ six, ip = .v6 six)

section Trimming

variable {matching : Char → Bool}

theorem trim_matches_parts (matching : Char → Bool) (text : List Char) :
    ∃ front back, text = front ++ trimMatches matching text ++ back ∧
      (∀ char ∈ front, matching char = true) ∧ (∀ char ∈ back, matching char = true) := by
  refine ⟨text.takeWhile matching, (text.dropWhile matching).rtakeWhile matching, ?_, ?_, ?_⟩
  · have right : trimMatches matching text ++ (text.dropWhile matching).rtakeWhile matching =
        text.dropWhile matching := List.rdropWhile_append_rtakeWhile
    rw [List.append_assoc, right, List.takeWhile_append_dropWhile]
  · intro char member
    exact List.mem_takeWhile_imp member
  · intro char member
    exact List.mem_rtakeWhile_imp member

theorem trim_matches_clean {text : List Char} (clean : ∀ char ∈ text, matching char = false) :
    trimMatches matching text = text :=
  trim_matches_kept (fun char member => clean char (List.mem_of_mem_head? member))
    fun char member => clean char (List.mem_of_mem_getLast? member)

theorem trim_matches_idem (text : List Char) :
    trimMatches matching (trimMatches matching text) = trimMatches matching text := by
  have first : ∀ char ∈ (trimMatches matching text).head?, matching char = false := by
    intro char member
    obtain ⟨rest, whole⟩ : trimMatches matching text <+: text.dropWhile matching :=
      List.rdropWhile_prefix _ _
    have head : (text.dropWhile matching).head? = some char := by
      rw [← whole, List.head?_append, Option.mem_def.mp member, Option.some_or]
    have dropped := List.head?_dropWhile_not matching text
    rw [head] at dropped
    exact dropped
  have last : ∀ char ∈ (trimMatches matching text).getLast?, matching char = false := by
    intro char member
    rw [trimMatches, List.getLast?_reverse] at member
    have dropped := List.head?_dropWhile_not matching (text.dropWhile matching).reverse
    rw [Option.mem_def.mp member] at dropped
    exact dropped
  exact trim_matches_kept first last

end Trimming

section Literals

theorem ip_char_kept {char : Char} (known : isIpChar char = true) :
    isWhitespace char = false ∧ isBracket char = false := by
  simp only [isIpChar, Bool.or_eq_true, beq_iff_eq] at known
  rcases known with (digit | rfl) | rfl
  · exact digit_not_trimmed char digit
  · decide
  · decide

theorem decimal_kept {char : Char} (digit : isDigit 10 char = true) :
    isWhitespace char = false ∧ isBracket char = false :=
  digit_not_trimmed char (decimal_is_hex char digit)

theorem ip_literal_plain {text : List Char} {ip : IpAddr} (literal : IpAddr.fromStr text = some ip) :
    ∀ char ∈ text, isBracket char = false :=
  fun char member => (ip_char_kept ((ip_literal_chars literal).2 char member)).2

/-- Brackets around an IP literal are stripped, whichever they are. -/
theorem strip_ip_literal {opening inner closing : List Char} {ip : IpAddr}
    (literal : IpAddr.fromStr inner = some ip)
    (brackets : ∀ char ∈ opening ++ closing, isBracket char = true) :
    trimMatches isBracket (opening ++ inner ++ closing) = inner := by
  have plain := ip_literal_plain literal
  apply trim_matches_between
  · exact fun char member => brackets char (List.mem_append_left _ member)
  · exact fun char member => brackets char (List.mem_append_right _ member)
  · exact fun char member => plain char (List.mem_of_mem_head? member)
  · exact fun char member => plain char (List.mem_of_mem_getLast? member)

/-- There is one way only to see an IP literal in a text that has brackets around it. -/
theorem brackets_unique {opening inner closing : List Char} {ip : IpAddr}
    (literal : IpAddr.fromStr inner = some ip)
    (brackets : ∀ char ∈ opening ++ closing, isBracket char = true)
    (same : opening ++ inner ++ closing = '[' :: inner ++ [']']) :
    opening = ['['] ∧ closing = [']'] := by
  have plain := ip_literal_plain literal
  obtain ⟨first, tail, rfl⟩ := List.exists_cons_of_ne_nil (ip_literal_chars literal).1
  have kept : isBracket first = false := plain first (by simp)
  cases opening with
  | nil =>
      have head : first = '[' := by simpa using (List.cons.inj same).1
      rw [head] at kept
      cases kept
  | cons char others =>
      obtain ⟨rfl, rest⟩ := List.cons.inj same
      cases others with
      | nil => exact ⟨rfl, by simpa using rest⟩
      | cons second more =>
          -- a second bracket would have to be the first character of the literal
          have head : second = first := (List.cons.inj rest).1
          have bracket := brackets second (by simp)
          rw [head, kept] at bracket
          cases bracket

theorem socket_literal_unspaced {text : List Char} {addr : SocketAddr}
    (literal : SocketAddr.fromStr text = some addr) : trimMatches isWhitespace text = text := by
  obtain ⟨front, digits, rfl, _, ported, outcome⟩ := socket_literal_shape literal
  apply trim_matches_clean
  intro char member
  simp only [List.mem_append, List.mem_cons] at member
  rcases member with early | rfl | late
  · rcases outcome with ⟨quad, _⟩ | ⟨inner, scope, rfl, _, six, plain⟩
    · exact (ip_char_kept (quad char early)).1
    · simp only [List.cons_append, List.mem_cons, List.mem_append, List.not_mem_nil, or_false]
        at early
      rcases early with rfl | (inside | scoped_) | rfl
      · decide
      · exact (ip_char_kept (six char inside)).1
      · have sign := plain char scoped_
        simp only [isScopeChar, Bool.or_eq_true, beq_iff_eq] at sign
        rcases sign with digit | rfl
        · exact (decimal_kept digit).1
        · decide
      · decide
  · decide
  · exact (decimal_kept (ported char late)).1

/-- What is left of a socket literal without the brackets at its ends is no IP literal. -/
theorem socket_literal_not_ip {text : List Char} {addr : SocketAddr}
    (literal : SocketAddr.fromStr text = some addr) :
    IpAddr.fromStr (trimMatches isBracket text) = none := by
  obtain ⟨front, digits, shape, some, ported, outcome⟩ := socket_literal_shape literal
  rcases outcome with ⟨quad, ip, read⟩ | ⟨inner, scope, rfl, inside, six, _⟩
  · have same : trimMatches isBracket text = text := by
      apply trim_matches_clean
      intro char member
      simp only [shape, List.mem_append, List.mem_cons] at member
      rcases member with early | rfl | late
      · exact (ip_char_kept (quad char early)).2
      · decide
      · exact (decimal_kept (ported char late)).2
    -- the dotted quad is read first, and leaves the port
    rw [same, IpAddr.fromStr, parseWith, readIpAddr, read]
  · obtain ⟨first, tail, rfl⟩ := List.exists_cons_of_ne_nil inside
    have stripped : trimMatches isBracket text =
        first :: tail ++ scope ++ ']' :: ':' :: digits := by
      have whole : text = ['['] ++ (first :: tail ++ scope ++ ']' :: ':' :: digits) ++ [] := by
        simp [shape]
      rw [whole]
      apply trim_matches_between
      · simp [isBracket]
      · simp
      · intro char member
        cases member
        exact (ip_char_kept (six first (by simp))).2
      · intro char member
        have ends : first :: tail ++ scope ++ ']' :: ':' :: digits =
            first :: tail ++ scope ++ [']', ':'] ++ digits := by simp
        rw [ends, List.getLast?_append_of_ne_nil _ some] at member
        exact (decimal_kept (ported char (List.mem_of_mem_getLast? member))).2
    cases ip : IpAddr.fromStr (trimMatches isBracket text) with
    | none => rfl
    | some value =>
        have known := (ip_literal_chars ip).2 ']' (by simp [stripped])
        cases known

end Literals

section Reading

variable {input : String}

theorem parse_socket {addr : SocketAddr} (literal : SocketAddr.fromStr input.toList = some addr) :
    parseResolver input = .ok addr := by
  rw [parseResolver, literal]

theorem parse_portless (other : SocketAddr.fromStr input.toList = none) :
    parseResolver input =
      match IpAddr.fromStr (trimMatches isBracket (trimmed input)) with
      | some ip => .ok (SocketAddr.new ip defaultPort)
      | none => .error (.invalidResolver input .socket) := by
  rw [parseResolver, other]
  rfl

/-- What is not a resolver is reported as such, with the text that was given. -/
theorem parse_resolver_outcome (input : String) :
    (∃ addr, parseResolver input = .ok addr) ∨
      parseResolver input = .error (.invalidResolver input .socket) := by
  cases literal : SocketAddr.fromStr input.toList with
  | some addr => exact Or.inl ⟨addr, parse_socket literal⟩
  | none =>
      rw [parse_portless literal]
      cases IpAddr.fromStr (trimMatches isBracket (trimmed input)) with
      | some ip => exact Or.inl ⟨_, rfl⟩
      | none => exact Or.inr rfl

theorem bare_socket_spelling {addr : SocketAddr}
    (literal : SocketAddr.fromStr input.toList = some addr) : trimmed input = input.toList :=
  socket_literal_unspaced literal

/-- Past the socket literals, the grammar has only IP literals in brackets to offer. -/
theorem denotes_stripped {text : List Char} {addr : SocketAddr} (denotes : Denotes text addr) :
    SocketAddr.fromStr text = some addr ∨
      ∃ ip, IpAddr.fromStr (trimMatches isBracket text) = some ip ∧ addr = SocketAddr.new ip 53 := by
  cases denotes with
  | socket literal => exact Or.inl literal
  | ip literal =>
      right
      refine ⟨_, ?_, rfl⟩
      rw [trim_matches_clean (ip_literal_plain literal)]
      exact literal
  | @bracketed inner ip literal =>
      right
      refine ⟨_, ?_, rfl⟩
      have stripped : trimMatches isBracket (['['] ++ inner ++ [']']) = inner :=
        strip_ip_literal literal (by simp [isBracket])
      rw [← literal]
      exact congrArg IpAddr.fromStr stripped

/-- A text of the grammar that is an IP literal in brackets has them in one pair. -/
theorem denotes_paired {opening inner closing : List Char} {addr : SocketAddr} {ip : IpAddr}
    (denotes : Denotes (opening ++ inner ++ closing) addr)
    (brackets : ∀ char ∈ opening ++ closing, isBracket char = true)
    (literal : IpAddr.fromStr inner = some ip) :
    (opening = [] ∧ closing = []) ∨
      (opening = ['['] ∧ closing = [']'] ∧ ∃ six, ip = .v6 six) := by
  have stripped := strip_ip_literal literal brackets
  generalize shape : opening ++ inner ++ closing = text at denotes stripped
  cases denotes with
  | socket found =>
      have none := socket_literal_not_ip found
      rw [stripped, literal] at none
      cases none
  | ip found =>
      left
      have plain := ip_literal_plain found
      have clear : opening ++ closing = [] := by
        apply List.eq_nil_iff_forall_not_mem.mpr
        intro char member
        have inside : char ∈ text := by
          rw [← shape]
          simp only [List.mem_append] at member ⊢
          tauto
        have bracket := brackets char member
        rw [plain char inside] at bracket
        cases bracket
      exact List.append_eq_nil_iff.mp clear
  | @bracketed core six found =>
      right
      have same : trimMatches isBracket (['['] ++ core ++ [']']) = core :=
        strip_ip_literal found (by simp [isBracket])
      obtain rfl : core = inner := same.symm.trans stripped
      rw [found] at literal
      cases literal
      obtain ⟨first, last⟩ := brackets_unique found brackets shape
      exact ⟨first, last, six, rfl⟩

theorem socket_denotes_only {text : List Char} {addr other : SocketAddr}
    (literal : SocketAddr.fromStr text = some addr) (denotes : Denotes text other) :
    other = addr := by
  rcases denotes_stripped denotes with same | ⟨ip, stripped, _⟩
  · rw [literal] at same
    exact (Option.some.inj same).symm
  · rw [socket_literal_not_ip literal] at stripped
    cases stripped

theorem paired_brackets_denote (paired : PairedBrackets input) {ip : IpAddr}
    (literal : IpAddr.fromStr (trimMatches isBracket (trimmed input)) = some ip) :
    Denotes (trimmed input) (SocketAddr.new ip 53) := by
  obtain ⟨opening, closing, shape, before, after⟩ :=
    trim_matches_parts isBracket (trimmed input)
  have brackets : ∀ char ∈ opening ++ closing, isBracket char = true := by
    intro char member
    rcases List.mem_append.mp member with early | late
    · exact before char early
    · exact after char late
  rcases paired opening _ closing ip shape brackets literal with ⟨rfl, rfl⟩ | ⟨rfl, rfl, six, rfl⟩
  · rw [List.nil_append, List.append_nil] at shape
    rw [← shape] at literal
    exact Denotes.ip literal
  · rw [shape]
    exact Denotes.bracketed literal

theorem parse_unspaced (bare : BareSocket input) :
    (parseResolver input).toOption =
      (parseResolver (String.ofList (trimmed input))).toOption := by
  have text : (String.ofList (trimmed input)).toList = trimmed input := String.toList_ofList
  cases literal : SocketAddr.fromStr input.toList with
  | some addr => rw [bare_socket_spelling literal, String.ofList_toList]
  | none =>
      have other : SocketAddr.fromStr (trimmed input) = none := by
        cases found : SocketAddr.fromStr (trimmed input) with
        | none => rfl
        | some addr =>
            rw [bare (by rw [found]; rfl), literal] at found
            cases found
      have again : trimmed (String.ofList (trimmed input)) = trimmed input := by
        rw [trimmed, text]
        exact trim_matches_idem _
      rw [parse_portless literal, parse_portless (by rw [text]; exact other), again]
      cases IpAddr.fromStr (trimMatches isBracket (trimmed input)) with
      | some ip => rfl
      | none => rfl

theorem follows_bare_socket (follows : FollowsGrammar input) : BareSocket input := by
  intro found
  obtain ⟨addr, inside⟩ := Option.isSome_iff_exists.mp found
  by_contra spaced
  have other : SocketAddr.fromStr input.toList = none := by
    cases literal : SocketAddr.fromStr input.toList with
    | none => rfl
    | some _ => exact absurd (bare_socket_spelling literal) spaced
  have accepted := (follows.accepts addr).mpr (Denotes.socket inside)
  rw [parse_portless other, socket_literal_not_ip inside] at accepted
  cases accepted

theorem follows_paired_brackets (follows : FollowsGrammar input) : PairedBrackets input := by
  intro opening inner closing ip shape brackets literal
  have stripped : IpAddr.fromStr (trimMatches isBracket (trimmed input)) = some ip := by
    rw [shape, strip_ip_literal literal brackets]
    exact literal
  have other : SocketAddr.fromStr input.toList = none := by
    cases found : SocketAddr.fromStr input.toList with
    | none => rfl
    | some addr =>
        rw [bare_socket_spelling found, socket_literal_not_ip found] at stripped
        cases stripped
  have accepted : parseResolver input = .ok (SocketAddr.new ip 53) := by
    rw [parse_portless other, stripped]
    rfl
  have denotes := (follows.accepts _).mp accepted
  rw [shape] at denotes
  exact denotes_paired denotes brackets literal

/-- `parse_resolver` reads an input by the grammar exactly where a socket literal
has no whitespace around it and an IP literal no brackets but one pair around IPv6. -/
theorem grammar_followed_iff (input : String) :
    FollowsGrammar input ↔ BareSocket input ∧ PairedBrackets input := by
  constructor
  · exact fun follows => ⟨follows_bare_socket follows, follows_paired_brackets follows⟩
  · rintro ⟨bare, paired⟩
    have accepts : ∀ addr, parseResolver input = .ok addr ↔ Denotes (trimmed input) addr := by
      intro addr
      cases literal : SocketAddr.fromStr input.toList with
      | some found =>
          have spelt : SocketAddr.fromStr (trimmed input) = some found := by
            rw [bare_socket_spelling literal]
            exact literal
          rw [parse_socket literal]
          constructor
          · intro same
            cases same
            exact Denotes.socket spelt
          · intro denotes
            rw [socket_denotes_only spelt denotes]
      | none =>
          rw [parse_portless literal]
          constructor
          · intro accepted
            split at accepted
            · rename_i ip stripped
              cases accepted
              exact paired_brackets_denote paired stripped
            · cases accepted
          · intro denotes
            rcases denotes_stripped denotes with inside | ⟨ip, stripped, rfl⟩
            · rw [bare (by rw [inside]; rfl), literal] at inside
              cases inside
            · rw [stripped]
              rfl
    refine ⟨accepts, ?_, parse_unspaced bare⟩
    intro nothing
    rcases parse_resolver_outcome input with ⟨addr, accepted⟩ | rejected
    · exact absurd ((accepts addr).mp accepted) (nothing addr)
    · exact ⟨_, rejected⟩

/-- A resolver with a port does not survive the whitespace that one without a port
does, and what is no literal at all is taken for an address. -/
theorem whitespace_and_brackets_misread :
    parseResolver "1.1.1.1:53" = .ok (.v4 ⟨1, 1, 1, 1⟩ 53) ∧
      parseResolver " 1.1.1.1:53" = .error (.invalidResolver " 1.1.1.1:53" .socket) ∧
      ¬ FollowsGrammar " 1.1.1.1:53" ∧
      parseResolver "]1.1.1.1" = .ok (.v4 ⟨1, 1, 1, 1⟩ 53) ∧ ¬ FollowsGrammar "]1.1.1.1" := by
  have padded : parseResolver " 1.1.1.1:53" = .error (.invalidResolver " 1.1.1.1:53" .socket) := by
    decide
  have stray : parseResolver "]1.1.1.1" = .ok (.v4 ⟨1, 1, 1, 1⟩ 53) := by decide
  refine ⟨by decide, padded, ?_, stray, ?_⟩
  · intro follows
    have spelt : SocketAddr.fromStr (trimmed " 1.1.1.1:53") = some (.v4 ⟨1, 1, 1, 1⟩ 53) := by
      decide
    have accepted := (follows.accepts _).mpr (Denotes.socket spelt)
    rw [padded] at accepted
    cases accepted
  · intro follows
    have paired := follows_paired_brackets follows [']'] "1.1.1.1".toList [] (.v4 ⟨1, 1, 1, 1⟩)
      (by decide) (by simp [isBracket]) (by decide +kernel)
    simp at paired

end Reading

end BlastDns.ResolverGrammar
