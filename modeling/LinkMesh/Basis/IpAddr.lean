import Mathlib.Data.List.Basic
import Mathlib.Data.Nat.Digits.Defs

/-!
# Textual IP addresses

The parser of IP addresses in the standard library of Rust (`core::net`):
dotted quads without leading zeros, and IPv6 groups with `::` and an embedded
dotted quad.

* `parse_v4`   — a dotted quad has one spelling.
* `parse_quad` — the spelling of a dotted quad is read back.
-/

namespace IpAddr

/-- `IpAddr`, by octets and by 16-bit segments. -/
inductive Addr where
  | v4 (octets : List Nat)
  | v6 (segments : List Nat)
  deriving DecidableEq, Repr

/-- `char::to_digit` -/
def toDigit (radix : Nat) (c : Char) : Option Nat :=
  let digit :=
    if 48 ≤ c.toNat ∧ c.toNat ≤ 57 then some (c.toNat - 48)
    else if 65 ≤ c.toNat ∧ c.toNat ≤ 90 then some (c.toNat - 55)
    else if 97 ≤ c.toNat ∧ c.toNat ≤ 122 then some (c.toNat - 87)
    else none
  digit.filter (· < radix)

/-- The digits from here on, after `count` of them with the value `value`; fails
at the first one too many. -/
def readDigits (radix maxDigits : Nat) : Nat → Nat → List Char → Option (Nat × Nat × List Char)
  | value, count, [] => some (value, count, [])
  | value, count, c :: rest =>
    match toDigit radix c with
    | some d =>
      if maxDigits < count + 1 then none
      else readDigits radix maxDigits (value * radix + d) (count + 1) rest
    | none => some (value, count, c :: rest)

/-- `read_number`, of a type with the greatest value `max`. -/
def readNumber (radix maxDigits : Nat) (allowZeroPrefix : Bool) (max : Nat) (input : List Char) :
    Option (Nat × List Char) :=
  match readDigits radix maxDigits 0 0 input with
  | none => none
  | some (value, count, rest) =>
    if count = 0 then none
    else if allowZeroPrefix = false ∧ input.head? = some '0' ∧ 1 < count then none
    else if value ≤ max then some (value, rest)
    else none

/-- `read_separator`: there is none in front of the first item. -/
def readSeparator {α : Type} (sep : Char) (index : Nat) (inner : List Char → Option α)
    (input : List Char) : Option α :=
  if 0 < index then
    match input with
    | c :: rest => if c = sep then inner rest else none
    | [] => none
  else inner input

/-- The octets from the `i`-th on, `n` of them. -/
def readOctets : Nat → Nat → List Char → Option (List Nat × List Char)
  | _, 0, input => some ([], input)
  | i, n + 1, input => do
    -- no octal numbers
    let (octet, rest) ← readSeparator '.' i (readNumber 10 3 false 255) input
    let (octets, rest) ← readOctets (i + 1) n rest
    some (octet :: octets, rest)

/-- `read_ipv4_addr` -/
def readIpv4Addr (input : List Char) : Option (List Nat × List Char) := readOctets 0 4 input

/-- `read_groups`: at most `n` groups from the `i`-th on, and whether the last
two are a dotted quad. -/
def readGroups : Nat → Nat → List Char → List Nat × Bool × List Char
  | _, 0, input => ([], false, input)
  | i, n + 1, input =>
    -- a dotted quad takes two groups
    match if 0 < n then readSeparator ':' i readIpv4Addr input else none with
    | some ([a, b, c, d], rest) => ([a * 256 + b, c * 256 + d], true, rest)
    | _ =>
      match readSeparator ':' i (readNumber 16 4 true 65535) input with
      | some (group, rest) =>
        let (groups, quad, rest) := readGroups (i + 1) n rest
        (group :: groups, quad, rest)
      | none => ([], false, input)

/-- `read_ipv6_addr` -/
def readIpv6Addr (input : List Char) : Option (List Nat × List Char) :=
  let (head, quad, rest) := readGroups 0 8 input
  if head.length = 8 then some (head, rest)
  else if quad then none
  else
    match rest with
    | ':' :: ':' :: rest =>
      -- `::` stands for at least one group
      let (tail, _, rest) := readGroups 0 (7 - head.length) rest
      some (head ++ List.replicate (8 - head.length - tail.length) 0 ++ tail, rest)
    | _ => none

/-- `read_ip_addr` -/
def readIpAddr (input : List Char) : Option (Addr × List Char) :=
  match readIpv4Addr input with
  | some (octets, rest) => some (.v4 octets, rest)
  | none => (readIpv6Addr input).map fun (segments, rest) => (.v6 segments, rest)

/-- `IpAddr::from_str`: nothing may be left over. -/
def parse (s : String) : Option Addr :=
  match readIpAddr s.toList with
  | some (addr, []) => some addr
  | _ => none

/-- `read_port`; any number of digits. -/
def readPort (input : List Char) : Option (Nat × List Char) :=
  match input with
  | ':' :: rest => readNumber 10 rest.length true 65535 rest
  | _ => none

/-- `read_scope_id`, which may be missing. -/
def skipScopeId (input : List Char) : List Char :=
  match input with
  | '%' :: rest =>
    match readNumber 10 rest.length true (2 ^ 32 - 1) rest with
    | some (_, rest) => rest
    | none => input
  | _ => input

/-- `read_socket_addr`: a dotted quad, or IPv6 in brackets, and a port. -/
def readSocketAddr (input : List Char) : Option ((Addr × Nat) × List Char) :=
  match readIpv4Addr input with
  | some (octets, rest) => (readPort rest).map fun (port, rest) => ((.v4 octets, port), rest)
  | none =>
    match input with
    | '[' :: input => do
      let (segments, rest) ← readIpv6Addr input
      match skipScopeId rest with
      | ']' :: rest => (readPort rest).map fun (port, rest) => ((.v6 segments, port), rest)
      | _ => none
    | _ => none

/-- `SocketAddr::from_str` -/
def parseSocket (s : String) : Option (Addr × Nat) :=
  match readSocketAddr s.toList with
  | some (addr, []) => some addr
  | _ => none

-- ---------------------------------------------------------------------------
-- Spellings
-- ---------------------------------------------------------------------------

variable {s : String} {input rest : List Char} {octets : List Nat} {n i value count count' maxDigits : Nat}

theorem toDigit_ten {c : Char} (h : toDigit 10 c = some n) : n < 10 ∧ Nat.digitChar n = c := by
  unfold toDigit at h
  obtain ⟨hDigit, hLess⟩ := Option.filter_eq_some_iff.mp h
  have hSmall : n < 10 := of_decide_eq_true hLess
  refine ⟨hSmall, ?_⟩
  split at hDigit
  · cases hDigit
    apply Char.toNat_inj.mp
    rw [Nat.toNat_digitChar_of_lt_ten hSmall]
    omega
  · split at hDigit
    · cases hDigit
      omega
    · split at hDigit
      · cases hDigit
        omega
      · cases hDigit

/-- Digits that follow a number other than zero are digits of the result. -/
theorem readDigits_ten (hPos : 0 < value)
    (h : readDigits 10 maxDigits value count input = some (n, count', rest)) :
    Nat.toDigits 10 value ++ input = Nat.toDigits 10 n ++ rest := by
  induction input generalizing value count with
  | nil =>
    cases h
    rfl
  | cons c input ih =>
    unfold readDigits at h
    split at h
    · rename_i d hDigit
      split at h
      · cases h
      · obtain ⟨hSmall, hChar⟩ := toDigit_ten hDigit
        have hMore := ih (by omega) h
        have hAppend := Nat.toDigits_append_toDigits (b := 10) (n := value) (d := d) (by decide) hPos hSmall
        rw [Nat.toDigits_of_lt_base hSmall, hChar] at hAppend
        rw [← hMore, Nat.mul_comm value 10, ← hAppend, List.append_assoc]
        rfl
    · cases h
      rfl

/-- Without a digit nothing is read. -/
theorem readDigits_count (h : readDigits 10 maxDigits value count input = some (n, count', rest)) :
    count ≤ count' ∧ (count' = count → n = value ∧ rest = input) := by
  induction input generalizing value count with
  | nil =>
    cases h
    exact ⟨Nat.le_refl _, fun _ => ⟨rfl, rfl⟩⟩
  | cons c input ih =>
    unfold readDigits at h
    split at h
    · split at h
      · cases h
      · have hMore := (ih h).1
        exact ⟨by omega, fun hSame => by omega⟩
    · cases h
      exact ⟨Nat.le_refl _, fun _ => ⟨rfl, rfl⟩⟩

/-- An octet is spelled by its decimal digits. -/
theorem readNumber_octet (h : readNumber 10 3 false 255 input = some (n, rest)) :
    input = Nat.toDigits 10 n ++ rest := by
  unfold readNumber at h
  split at h
  · cases h
  · rename_i value count rest' hDigits
    split at h
    · cases h
    · rename_i hSome
      split at h
      · cases h
      · rename_i hZero
        split at h
        · cases h
          cases input with
          | nil =>
            cases hDigits
            exact absurd rfl hSome
          | cons c input =>
            unfold readDigits at hDigits
            split at hDigits
            · rename_i d hDigit
              obtain ⟨hSmall, hChar⟩ := toDigit_ten hDigit
              simp only [Nat.zero_mul, Nat.zero_add, Nat.reduceLT, if_false] at hDigits
              by_cases hd : d = 0
              · -- a leading zero is the whole number
                have hHead : c = '0' := by
                  rw [← hChar, hd]
                  rfl
                have hOne : ¬ 1 < count := by
                  intro hMore
                  exact hZero ⟨rfl, by rw [hHead]; rfl, hMore⟩
                obtain ⟨hLe, hSame⟩ := readDigits_count hDigits
                obtain ⟨rfl, rfl⟩ := hSame (by omega)
                rw [hd, hHead]
                rfl
              · have hAll := readDigits_ten (by omega) hDigits
                rw [Nat.toDigits_of_lt_base hSmall, hChar] at hAll
                exact hAll
            · cases hDigits
              exact absurd rfl hSome
        · cases h

/-- The octets with a dot in front of all but the first of an address. -/
def octetsText : Nat → List Nat → List Char
  | _, [] => []
  | i, octet :: octets =>
    (if 0 < i then ['.'] else []) ++ Nat.toDigits 10 octet ++ octetsText (i + 1) octets

/-- The first of the longest runs of zero segments, as its start and its length. -/
def longestZeros (segments : List Nat) : Nat × Nat :=
  let scan := fun (longest, current) (segment, i) =>
    if segment = 0 then
      let current := if current.2 = 0 then (i, 1) else (current.1, current.2 + 1)
      (if longest.2 < current.2 then current else longest, current)
    else (longest, (0, 0))
  (segments.zipIdx.foldl scan ((0, 0), (0, 0))).1

/-- Segments in hexadecimal, with colons between them. -/
def segmentsText (segments : List Nat) : List Char :=
  [':'].intercalate (segments.map (Nat.toDigits 16))

/-- `IpAddr::to_string` -/
def Addr.toText : Addr → String
  | .v4 octets => String.ofList (octetsText 0 octets)
  | .v6 [0, 0, 0, 0, 0, 0xffff, ab, cd] =>
    "::ffff:" ++ String.ofList (octetsText 0 [ab / 256, ab % 256, cd / 256, cd % 256])
  | .v6 segments =>
    let (start, len) := longestZeros segments
    if 1 < len then
      String.ofList (segmentsText (segments.take start) ++ [':', ':'] ++
        segmentsText (segments.drop (start + len)))
    else String.ofList (segmentsText segments)

theorem readOctets_text (h : readOctets i n input = some (octets, rest)) :
    input = octetsText i octets ++ rest := by
  induction n generalizing i input octets with
  | zero =>
    cases h
    rfl
  | succ n ih =>
    unfold readOctets at h
    obtain ⟨⟨octet, rest'⟩, hOctet, h⟩ := Option.bind_eq_some_iff.mp h
    obtain ⟨⟨octets', rest''⟩, hMore, h⟩ := Option.bind_eq_some_iff.mp h
    cases h
    have hTail := ih hMore
    have hHead : input = (if 0 < i then ['.'] else []) ++ (Nat.toDigits 10 octet ++ rest') := by
      unfold readSeparator at hOctet
      split at hOctet
      · rename_i hPos
        split at hOctet
        · split at hOctet
          · rename_i hDot
            rw [if_pos hPos, hDot, readNumber_octet hOctet]
            rfl
          · cases hOctet
        · cases hOctet
      · rename_i hFirst
        rw [if_neg hFirst, readNumber_octet hOctet]
        rfl
    unfold octetsText
    rw [hHead, hTail, List.append_assoc, List.append_assoc]

/-- A dotted quad has one spelling. -/
theorem parse_v4 {t : String} (h : parse s = some (.v4 octets)) (h' : parse t = some (.v4 octets)) :
    s = t := by
  have hText : ∀ s : String, parse s = some (.v4 octets) → s.toList = octetsText 0 octets := by
    intro s h
    unfold parse at h
    split at h
    · rename_i hRead
      cases h
      unfold readIpAddr at hRead
      split at hRead
      · rename_i hQuad
        cases hRead
        rw [readOctets_text hQuad, List.append_nil]
      · obtain ⟨_, _, hSix⟩ := Option.map_eq_some_iff.mp hRead
        cases hSix
    · cases h
  exact String.toList_injective ((hText s h).trans (hText t h').symm)

-- ---------------------------------------------------------------------------
-- Reading a dotted quad back
-- ---------------------------------------------------------------------------

/-- What follows a number does not start with a digit. -/
def Stops (rest : List Char) : Prop := ∀ c, rest.head? = some c → toDigit 10 c = none

theorem readDigits_stop (h : Stops rest) :
    readDigits 10 maxDigits value count rest = some (value, count, rest) := by
  cases rest with
  | nil => rfl
  | cons c rest =>
    unfold readDigits
    rw [h c rfl]

theorem toDigit_digitChar (h : n < 10) : toDigit 10 (Nat.digitChar n) = some n := by
  have hAll : ∀ d < 10, toDigit 10 (Nat.digitChar d) = some d := by decide
  exact hAll n h

/-- The decimal digits of an octet are read back. -/
theorem readNumber_toDigits (hn : n ≤ 255) (hStop : Stops rest) :
    readNumber 10 3 false 255 (Nat.toDigits 10 n ++ rest) = some (n, rest) := by
  have hSplit : ∀ m, 10 ≤ m → Nat.toDigits 10 m =
      Nat.toDigits 10 (m / 10) ++ [Nat.digitChar (m % 10)] := by
    intro m hm
    have hAppend := Nat.toDigits_append_toDigits (b := 10) (n := m / 10) (d := m % 10) (by decide)
      (by omega) (by omega)
    rw [← Nat.toDigits_of_lt_base (b := 10) (show m % 10 < 10 by omega), hAppend, Nat.div_add_mod]
  have hUnits : toDigit 10 (Nat.digitChar (n % 10)) = some (n % 10) := toDigit_digitChar (by omega)
  unfold readNumber
  by_cases hOne : n < 10
  · rw [Nat.toDigits_of_lt_base hOne]
    simp [readDigits, toDigit_digitChar hOne, readDigits_stop hStop, hn]
  · rw [hSplit n (by omega)]
    by_cases hTwo : n / 10 < 10
    · rw [Nat.toDigits_of_lt_base hTwo]
      have hValue : n / 10 * 10 + n % 10 = n := by omega
      have hLead : n / 10 ≠ 0 := by omega
      simp [readDigits, toDigit_digitChar hTwo, hUnits, readDigits_stop hStop, hValue, hn]
      omega
    · have hThree : n / 10 / 10 < 10 := by omega
      have hTens : toDigit 10 (Nat.digitChar (n / 10 % 10)) = some (n / 10 % 10) :=
        toDigit_digitChar (by omega)
      rw [hSplit (n / 10) (by omega), Nat.toDigits_of_lt_base hThree]
      have hValue : (n / 10 / 10 * 10 + n / 10 % 10) * 10 + n % 10 = n := by omega
      simp [readDigits, toDigit_digitChar hThree, hTens, hUnits, readDigits_stop hStop, hValue, hn]
      omega


theorem octetsText_stops (hStop : Stops rest) : Stops (octetsText (i + 1) octets ++ rest) := by
  cases octets with
  | nil => exact hStop
  | cons octet octets =>
    intro c hHead
    cases hHead
    decide

theorem readOctets_octetsText (hBytes : ∀ octet ∈ octets, octet ≤ 255) (hStop : Stops rest) :
    readOctets i octets.length (octetsText i octets ++ rest) = some (octets, rest) := by
  induction octets generalizing i with
  | nil => rfl
  | cons octet octets ih =>
    have hStops : Stops (octetsText (i + 1) octets ++ rest) := octetsText_stops hStop
    have hOctet := readNumber_toDigits (hBytes octet (List.mem_cons_self ..)) hStops
    have hMore := ih (i := i + 1) fun o ho => hBytes o (List.mem_cons_of_mem _ ho)
    have hHead : readSeparator '.' i (readNumber 10 3 false 255) (octetsText i (octet :: octets) ++ rest) =
        some (octet, octetsText (i + 1) octets ++ rest) := by
      rw [octetsText, List.append_assoc, List.append_assoc]
      unfold readSeparator
      by_cases hPos : 0 < i
      · rw [if_pos hPos, if_pos hPos]
        exact hOctet
      · rw [if_neg hPos, if_neg hPos]
        exact hOctet
    show readOctets i (octets.length + 1) _ = _
    unfold readOctets
    rw [hHead]
    show (readOctets (i + 1) octets.length _).bind _ = _
    rw [hMore]
    rfl

/-- A dotted quad is read back. -/
theorem parse_quad (hFour : octets.length = 4) (hBytes : ∀ octet ∈ octets, octet ≤ 255)
    (hText : s.toList = octetsText 0 octets) : parse s = some (.v4 octets) := by
  have hStops : Stops [] := fun _ h => nomatch h
  have hRead : readOctets 0 octets.length (octetsText 0 octets ++ []) = some (octets, []) :=
    readOctets_octetsText hBytes hStops
  rw [hFour, List.append_nil] at hRead
  unfold parse readIpAddr readIpv4Addr
  rw [hText, hRead]

example : parse "fd00::1" = some (.v6 [0xfd00, 0, 0, 0, 0, 0, 0, 1]) := by decide

example : parse "::ffff:10.13.13.2" = some (.v6 [0, 0, 0, 0, 0, 0xffff, 0x0a0d, 0x0d02]) := by decide

example : parse "10.13.13.02" = none := by decide

example : parseSocket "[fd00::1%2]:51820" = some (.v6 [0xfd00, 0, 0, 0, 0, 0, 0, 1], 51820) := by decide

end IpAddr
