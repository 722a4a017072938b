import BlastDns.NetChars
import BlastDns.Resolve

/-!
The names of `format_ptr_query`. An address is a number of 32 or 128 bits; its reverse
name spells that number label by label from its low end, under the zone of its family.
The source takes an IPv6 address apart segment by segment and reverses the whole, which
is compared here with the number itself. No name that comes out is an IP literal again,
because its zone has letters that no address has.
-/

namespace BlastDns.PtrNames

open Lru Cache NetText Resolve Worker

/-- The last digits of a number, the lowest first. -/
def lowDigits (base count value : ℕ) : List ℕ :=
  (List.range count).map fun place => value / base ^ place % base

theorem low_digits_split (base low high value : ℕ) :
    lowDigits base (low + high) value =
      lowDigits base low value ++ lowDigits base high (value / base ^ low) := by
  rw [lowDigits, lowDigits, lowDigits, List.range_add, List.map_append, List.map_map]
  apply congrArg (lowDigits base low value ++ ·)
  apply List.map_congr_left
  intro place _
  rw [Function.comp_apply, pow_add, Nat.div_div_eq_div_mul]

/-- An IPv6 address as a number, the first segment highest. -/
def bits (segments : List Segment) : ℕ :=
  segments.foldl (fun value segment => value * 65536 + segment.val) 0

theorem bits_snoc (front : List Segment) (last : Segment) :
    bits (front ++ [last]) = bits front * 65536 + last.val := by
  simp [bits, List.foldl_append]

theorem nibbles_low_digits (value : ℕ) (segment : Segment) :
    (nibbles segment).reverse = lowDigits 16 4 (value * 65536 + segment.val) := by
  have low : segment.val % 16 = (value * 65536 + segment.val) % 16 := by omega
  have second : segment.val / 16 % 16 = (value * 65536 + segment.val) / 16 % 16 := by omega
  have third : segment.val / 256 % 16 = (value * 65536 + segment.val) / 256 % 16 := by omega
  have high : segment.val / 4096 % 16 = (value * 65536 + segment.val) / 4096 % 16 := by omega
  simp [nibbles, lowDigits, List.range_succ, low, second, third, high]

/-- Taking the segments apart one by one gives the digits of the whole number. -/
theorem segments_low_digits (segments : List Segment) :
    (segments.flatMap nibbles).reverse = lowDigits 16 (4 * segments.length) (bits segments) := by
  induction segments using List.reverseRecOn with
  | nil => rfl
  | append_singleton front last ih =>
      have above : (bits front * 65536 + last.val) / 16 ^ 4 = bits front := by omega
      have room : 4 * (front ++ [last]).length = 4 + 4 * front.length := by
        rw [List.length_append, List.length_singleton]
        omega
      rw [bits_snoc, room, low_digits_split, above, ← ih, ← nibbles_low_digits]
      simp

/-- The digits of an address as they are written, the highest first: the octets of an
IPv4 address in decimal, the nibbles of an IPv6 address in hexadecimal. -/
def digits : IpAddr → List (List Char)
  | .v4 ip => [decimal ip.a, decimal ip.b, decimal ip.c, decimal ip.d]
  | .v6 ip => ((lowDigits 16 32 (bits ip.segments)).map hex).reverse

def zone : IpAddr → List (List Char)
  | .v4 _ => ["in-addr".toList, "arpa".toList]
  | .v6 _ => ["ip6".toList, "arpa".toList]

def labels (name : String) : List (List Char) := name.toList.splitOn '.'

section Labels

theorem joined_append {Item : Type} (separator : Item) (front back : List (List Item))
    (some : front ≠ []) (more : back ≠ []) :
    [separator].intercalate front ++ separator :: [separator].intercalate back =
      [separator].intercalate (front ++ back) := by
  induction front with
  | nil => exact absurd rfl some
  | cons first rest ih =>
      cases rest with
      | nil =>
          rw [List.singleton_append, List.intercalate_cons_of_ne_nil more]
          simp
      | cons second rest =>
          have tail := ih (by simp)
          rw [List.cons_append, List.cons_append, List.intercalate_cons_cons,
            List.intercalate_cons_cons, ← List.cons_append, ← tail]
          simp

/-- The name is its labels: the digits of the address from the low end, then the zone. -/
theorem format_ptr_query_joined {host : String} {ip : IpAddr}
    (parsed : IpAddr.fromStr host.toList = some ip) :
    (formatPtrQuery host).toList = ['.'].intercalate ((digits ip).reverse ++ zone ip) := by
  rw [formatPtrQuery, parsed]
  cases ip with
  | v4 ip =>
      simp only [String.toList_ofList, digits, zone, Ipv4Addr.display, List.reverse_cons]
      simp [List.intercalate_cons_cons]
  | v6 ip =>
      have spelt : (ip.segments.flatMap nibbles).reverse = lowDigits 16 32 (bits ip.segments) := by
        rw [segments_low_digits, ip.size]
      have some : (lowDigits 16 32 (bits ip.segments)).map hex ≠ [] := by simp [lowDigits]
      simp only [String.toList_ofList, digits, zone, List.reverse_reverse, spelt]
      rw [← joined_append '.' _ _ some (by simp)]
      rfl

theorem undotted_labels (ip : IpAddr) :
    ∀ label ∈ (digits ip).reverse ++ zone ip, '.' ∉ label := by
  intro label member
  rcases List.mem_append.mp member with digit | suffix
  · rw [List.mem_reverse] at digit
    cases ip with
    | v4 ip =>
        simp only [digits, List.mem_cons, List.not_mem_nil, or_false] at digit
        rcases digit with rfl | rfl | rfl | rfl <;> exact displayed_plain (by decide) _
    | v6 ip =>
        rw [digits, List.mem_reverse] at digit
        obtain ⟨nibble, _, rfl⟩ := List.mem_map.mp digit
        exact hex_plain nibble
  · cases ip with
    | v4 ip =>
        simp only [zone, List.mem_cons, List.not_mem_nil, or_false] at suffix
        rcases suffix with rfl | rfl <;> decide
    | v6 ip =>
        simp only [zone, List.mem_cons, List.not_mem_nil, or_false] at suffix
        rcases suffix with rfl | rfl <;> decide

theorem format_ptr_query_labels {host : String} {ip : IpAddr}
    (parsed : IpAddr.fromStr host.toList = some ip) :
    labels (formatPtrQuery host) = (digits ip).reverse ++ zone ip := by
  have zoned : (digits ip).reverse ++ zone ip ≠ [] := by cases ip <;> simp [zone]
  rw [labels, format_ptr_query_joined parsed]
  exact List.splitOn_intercalate '.' (undotted_labels ip) zoned

end Labels

section Distinct

theorem nibbles_injective : Function.Injective nibbles := by
  intro first second same
  simp only [nibbles, List.cons.injEq, and_true] at same
  apply Fin.ext
  omega

theorem flat_nibbles_injective {first second : List Segment}
    (same : first.flatMap nibbles = second.flatMap nibbles) : first = second := by
  induction first generalizing second with
  | nil =>
      cases second with
      | nil => rfl
      | cons segment rest => simp [nibbles] at same
  | cons segment rest ih =>
      cases second with
      | nil => simp [nibbles] at same
      | cons other more =>
          rw [List.flatMap_cons, List.flatMap_cons] at same
          obtain ⟨heads, tails⟩ := List.append_inj same rfl
          rw [nibbles_injective heads, ih tails]

theorem digits_injective {first second : IpAddr} (same : digits first = digits second) :
    first = second := by
  cases first with
  | v4 left =>
      cases second with
      | v4 right =>
          have octets : ∀ {one other : Octet}, decimal one = decimal other → one = other :=
            fun equal => Fin.ext (displayed_injective (by decide) (by decide) equal)
          obtain ⟨a, b, c, d⟩ := left
          obtain ⟨e, f, g, h⟩ := right
          simp only [digits, List.cons.injEq, and_true] at same
          obtain ⟨highest, second, third, lowest⟩ := same
          rw [octets highest, octets second, octets third, octets lowest]
      | v6 right => simpa [digits, lowDigits] using congrArg List.length same
  | v6 left =>
      cases second with
      | v4 right => simpa [digits, lowDigits] using congrArg List.length same
      | v6 right =>
          have numbers := List.map_injective_iff.mpr
            (displayed_injective (by decide) (by decide : 16 ≤ 16)) (List.reverse_injective same)
          have leftRead := segments_low_digits left.segments
          have rightRead := segments_low_digits right.segments
          rw [left.size] at leftRead
          rw [right.size, ← numbers, ← leftRead] at rightRead
          have segments := flat_nibbles_injective (List.reverse_injective rightRead)
          obtain ⟨leftSegments, leftSize⟩ := left
          obtain ⟨rightSegments, rightSize⟩ := right
          cases segments
          rfl

end Distinct

section Twice

variable {host : String} {ip : IpAddr}

/-- A reverse name is not an IP literal: `arpa` is not spelt with address characters. -/
theorem format_ptr_query_not_literal (parsed : IpAddr.fromStr host.toList = some ip) :
    IpAddr.fromStr (formatPtrQuery host).toList = none := by
  cases again : IpAddr.fromStr (formatPtrQuery host).toList with
  | none => rfl
  | some other =>
      have zoned : 'r' ∈ (formatPtrQuery host).toList := by
        rw [formatPtrQuery, parsed]
        cases ip <;> simp
      have address := (ip_literal_chars again).2 'r' zoned
      exact absurd address (by decide)

theorem format_ptr_query_idempotent (host : String) :
    formatPtrQuery (formatPtrQuery host) = formatPtrQuery host := by
  cases parsed : IpAddr.fromStr host.toList with
  | none =>
      have kept : formatPtrQuery host = host := by rw [formatPtrQuery, parsed]
      rw [kept, kept]
  | some ip =>
      rw [formatPtrQuery, format_ptr_query_not_literal parsed]

end Twice

section Client

variable {Name : Type} [DecidableEq Name] {lru : LruCache (Name × ℕ) CacheEntry}
variable (parse : String → Option Name) (latest : ℕ)

/-- The call that `resolve_multi_full` makes of a call for a PTR record. -/
def reformatted (call : Call) : Call := { call with host := formatPtrQuery call.host }

theorem reformatted_query (call : Call) (ptr : call.recordType = ptrType) :
    (reformatted call).query = call.query := by
  simp [Call.query, reformatted, ptr, format_ptr_query_idempotent]

theorem reformatted_loop (query : QuerySpec) (call : Call) (attempts remaining : ℕ)
    (state : ClientState lru) :
    resolveLoop parse latest query (reformatted call) attempts remaining state =
      resolveLoop parse latest query call attempts remaining state := by
  induction remaining generalizing state with
  | zero => rfl
  | succ remaining ih =>
      -- the loop reads the query and the environment, never the host of the call
      simp only [resolveLoop, reformatted] at ih ⊢
      simp only [ih]

/-- Reverse names are a faithful and idempotent encoding: the labels of a name, less its
zone and reversed, are the digits of the address, whichever way it was spelt; distinct
addresses have distinct names; and formatting twice, as `resolve_multi_full` does before
`resolve_full`, makes no difference. -/
theorem ptr_names_faithful :
    (∀ ip host, IpAddr.fromStr host.toList = some ip →
      ∃ front, labels (formatPtrQuery host) = front ++ zone ip ∧ front.reverse = digits ip) ∧
    (∀ ip other host another, IpAddr.fromStr host.toList = some ip →
      IpAddr.fromStr another.toList = some other → ip ≠ other →
      formatPtrQuery host ≠ formatPtrQuery another) ∧
    (∀ host, formatPtrQuery (formatPtrQuery host) = formatPtrQuery host) ∧
    ∀ maxRetries (state : ClientState lru) call, call.recordType = ptrType →
      resolveFull parse latest maxRetries state (reformatted call) =
        resolveFull parse latest maxRetries state call := by
  refine ⟨?_, ?_, format_ptr_query_idempotent, ?_⟩
  · intro ip host parsed
    exact ⟨(digits ip).reverse, format_ptr_query_labels parsed, List.reverse_reverse _⟩
  · intro ip other host another parsed read distinct same
    have spelt := congrArg labels same
    rw [format_ptr_query_labels parsed, format_ptr_query_labels read] at spelt
    -- both zones have two labels, so the digits match whatever the families are
    have zones : (zone ip).length = (zone other).length := by cases ip <;> cases other <;> rfl
    obtain ⟨fronts, _⟩ := List.append_inj' spelt zones
    exact distinct (digits_injective (List.reverse_injective fronts))
  · intro maxRetries state call ptr
    simp only [resolveFull, reformatted_query call ptr, reformatted_loop]
    rfl

end Client

/-- An IPv4-mapped address, spelt with its IPv4 part, is not the IPv4 address. -/
theorem ptr_names_faithful_mapped :
    (∃ front, labels (formatPtrQuery "::FFFF:192.0.2.1") = front ++ ["ip6".toList, "arpa".toList] ∧
      front.reverse = (List.replicate 20 ['0']) ++ List.replicate 4 ['f'] ++
        [['c'], ['0'], ['0'], ['0'], ['0'], ['2'], ['0'], ['1']]) ∧
    formatPtrQuery "::FFFF:192.0.2.1" ≠ formatPtrQuery "192.0.2.1" := by
  let four : IpAddr := .v4 ⟨192, 0, 2, 1⟩
  let six : IpAddr := .v6 ⟨[0, 0, 0, 0, 0, 65535, 49152, 513], rfl⟩
  have fourRead : IpAddr.fromStr "192.0.2.1".toList = some four := by decide
  have sixRead : IpAddr.fromStr "::FFFF:192.0.2.1".toList = some six := by decide
  obtain ⟨spelt, apart, _⟩ := @ptr_names_faithful String _ listed some (10 ^ 18)
  obtain ⟨front, shape, reversed⟩ := spelt six _ sixRead
  refine ⟨⟨front, shape, ?_⟩, apart six four _ _ sixRead fourRead (by decide)⟩
  rw [reversed]
  decide

end BlastDns.PtrNames
