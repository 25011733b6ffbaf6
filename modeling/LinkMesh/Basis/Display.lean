import LinkMesh.Basis.IpAddr

/-!
# Texts that the standard library writes

`to_string` of a socket address and `{:?}` of a `str` in the standard library
of Rust, and the bytes that they take in UTF-8.

* `socketText_within` — a socket address takes 61 bytes at most.
* `debugText_within`  — a quoted text takes six times its bytes and two at most.
-/

namespace Display

open IpAddr

-- ---------------------------------------------------------------------------
-- Bytes
-- ---------------------------------------------------------------------------

/-- The characters take at most `n` bytes, and none of them is NUL. -/
structure Within (n : Nat) (cs : List Char) : Prop where
  bytes : (cs.map Char.utf8Size).sum ≤ n
  noNul : ∀ c ∈ cs, c.toNat ≠ 0

instance (n : Nat) (cs : List Char) : Decidable (Within n cs) :=
  decidable_of_iff ((cs.map Char.utf8Size).sum ≤ n ∧ cs.all (fun c => c.toNat != 0))
    ⟨fun h => ⟨h.1, by simpa using h.2⟩, fun h => ⟨h.bytes, by simpa using h.noNul⟩⟩

variable {m n k b i : Nat} {cs ds : List Char} {c : Char}

theorem Within.nil : Within 0 [] := ⟨Nat.le_refl _, fun _ hc => nomatch hc⟩

theorem Within.append (h : Within m cs) (h' : Within n ds) : Within (m + n) (cs ++ ds) where
  bytes := by
    rw [List.map_append, List.sum_append]
    exact Nat.add_le_add h.bytes h'.bytes
  noNul c hc := by
    rcases List.mem_append.mp hc with hc | hc
    · exact h.noNul c hc
    · exact h'.noNul c hc

theorem Within.mono (h : Within m cs) (hLe : m ≤ n) : Within n cs := ⟨Nat.le_trans h.bytes hLe, h.noNul⟩

/-- An ASCII character takes one byte. -/
theorem within_of_ascii (h : ∀ c ∈ cs, 0 < c.toNat ∧ c.toNat < 128) : Within cs.length cs := by
  induction cs with
  | nil => exact .nil
  | cons c cs ih =>
    rw [List.forall_mem_cons] at h
    have hSize : c.utf8Size = 1 := by
      rw [Char.utf8Size_eq_one_iff, UInt32.le_iff_toNat_le]
      exact Nat.le_of_lt_succ h.1.2
    have hOne : Within 1 [c] := ⟨by simp [hSize], by simpa using Nat.pos_iff_ne_zero.mp h.1.1⟩
    have hMore := hOne.append (ih h.2)
    rw [Nat.add_comm] at hMore
    exact hMore

-- ---------------------------------------------------------------------------
-- Numbers
-- ---------------------------------------------------------------------------

theorem mem_toDigits (hb : 1 < b) (h : c ∈ Nat.toDigits b n) : ∃ d < b, c = Nat.digitChar d := by
  induction n using Nat.strongRecOn with
  | ind n ih =>
    rw [Nat.toDigits_eq_if hb] at h
    split at h
    · rename_i hSmall
      exact ⟨n, hSmall, List.mem_singleton.mp h⟩
    · rename_i hLarge
      rcases List.mem_append.mp h with hInit | hLast
      · exact ih (n / b) (Nat.div_lt_self (by omega) hb) hInit
      · exact ⟨n % b, Nat.mod_lt n (by omega), List.mem_singleton.mp hLast⟩

/-- A number below `b ^ k` takes `k` digits at most. -/
theorem toDigits_within (hb : 1 < b) (hHex : b ≤ 16) (hk : 0 < k) (hn : n < b ^ k) :
    Within k (Nat.toDigits b n) := by
  have hAscii : ∀ d < 16, 0 < (Nat.digitChar d).toNat ∧ (Nat.digitChar d).toNat < 128 := by decide
  refine (within_of_ascii fun c hc => ?_).mono ((Nat.length_toDigits_le_iff hb hk).mpr hn)
  obtain ⟨d, hd, rfl⟩ := mem_toDigits hb hc
  exact hAscii d (by omega)

theorem toString_within (hk : 0 < k) (hn : n < 10 ^ k) : Within k (toString n).toList := by
  rw [Nat.toString_eq_ofList_toDigits, String.toList_ofList]
  exact toDigits_within (by decide) (by decide) hk hn

-- ---------------------------------------------------------------------------
-- Socket addresses
-- ---------------------------------------------------------------------------

theorem octetsText_within {octets : List Nat} (h : ∀ octet ∈ octets, octet < 256) :
    Within (octets.length * 4) (octetsText i octets) := by
  induction octets generalizing i with
  | nil => exact .nil
  | cons octet octets ih =>
    rw [List.forall_mem_cons] at h
    have hDot : Within 1 (if 0 < i then ['.'] else []) := by
      split
      · decide
      · exact Within.nil.mono (Nat.zero_le 1)
    have hOctet : Within 3 (Nat.toDigits 10 octet) :=
      toDigits_within (by decide) (by decide) (by decide) (by omega)
    exact ((hDot.append hOctet).append (ih h.2)).mono (by rw [List.length_cons]; omega)

theorem segmentsText_within {segments : List Nat} (h : ∀ segment ∈ segments, segment < 65536) :
    Within (segments.length * 5) (segmentsText segments) := by
  have hDigits : ∀ segment ∈ segments, Within 4 (Nat.toDigits 16 segment) := fun segment hMem =>
    toDigits_within (by decide) (by decide) (by decide) (h segment hMem)
  clear h
  unfold segmentsText
  induction segments with
  | nil => exact .nil
  | cons segment segments ih =>
    rw [List.forall_mem_cons] at hDigits
    cases segments with
    | nil =>
      rw [List.map_singleton, List.intercalate_singleton]
      exact hDigits.1.mono (by rw [List.length_singleton]; decide)
    | cons next rest =>
      have hColon : Within 1 [':'] := by decide
      have hMore := (hDigits.1.append hColon).append (ih hDigits.2)
      rw [List.map_cons, List.map_cons, List.intercalate_cons_cons]
      rw [List.map_cons] at hMore
      exact hMore.mono (by simp only [List.length_cons]; omega)

/-- Four octets, or eight segments. -/
def InRange : Addr → Prop
  | .v4 octets => octets.length = 4 ∧ ∀ octet ∈ octets, octet < 256
  | .v6 segments => segments.length = 8 ∧ ∀ segment ∈ segments, segment < 65536

theorem toText_within {a : Addr} (h : InRange a) : Within 42 a.toText.toList := by
  unfold Addr.toText
  split
  · rename_i octets
    rw [String.toList_ofList]
    exact (octetsText_within h.2).mono (by rw [h.1]; decide)
  · rename_i ab cd
    have hMapped : ∀ octet ∈ [ab / 256, ab % 256, cd / 256, cd % 256], octet < 256 := by
      have hAb := h.2 ab (by simp)
      have hCd := h.2 cd (by simp)
      simp only [List.forall_mem_cons]
      exact ⟨by omega, by omega, by omega, by omega, by simp⟩
    have hPrefix : Within 7 "::ffff:".toList := by decide
    have hQuad : Within 16 (String.ofList (octetsText 0 [ab / 256, ab % 256, cd / 256, cd % 256])).toList := by
      rw [String.toList_ofList]
      exact octetsText_within hMapped
    rw [String.toList_append]
    exact (hPrefix.append hQuad).mono (by decide)
  · rename_i segments _
    generalize longestZeros segments = zeros
    obtain ⟨start, len⟩ := zeros
    dsimp only
    split
    · -- the run of zeros gives way to two colons
      rw [String.toList_ofList]
      have hHead := segmentsText_within fun s hs => h.2 s (List.mem_of_mem_take (i := start) hs)
      have hTail := segmentsText_within fun s hs => h.2 s (List.mem_of_mem_drop (i := start + len) hs)
      have hColons : Within 2 [':', ':'] := by decide
      refine ((hHead.append hColons).append hTail).mono ?_
      rw [List.length_take, List.length_drop, h.1]
      omega
    · rw [String.toList_ofList]
      exact (segmentsText_within h.2).mono (by rw [h.1]; decide)

/-- `SocketAddr::to_string`; only an IPv6 address has a scope. -/
def socketText (a : Addr) (port scope : Nat) : String :=
  match a with
  | .v4 _ => a.toText ++ ":" ++ toString port
  | .v6 _ => "[" ++ a.toText ++ (if scope = 0 then "" else "%" ++ toString scope) ++ "]:" ++ toString port

/-- The longest are IPv6 addresses with a scope. -/
theorem socketText_within {a : Addr} {port scope : Nat} (h : InRange a) (hPort : port < 65536)
    (hScope : scope < 2 ^ 32) : Within 61 (socketText a port scope).toList := by
  have hText := toText_within h
  have hDigits : Within 5 (toString port).toList := toString_within (by decide) (by omega)
  unfold socketText
  split
  · simp only [String.toList_append]
    have hColon : Within 1 ":".toList := by decide
    exact ((hText.append hColon).append hDigits).mono (by decide)
  · simp only [String.toList_append]
    have hOpen : Within 1 "[".toList := by decide
    have hClose : Within 2 "]:".toList := by decide
    have hZone : Within 11 (if scope = 0 then "" else "%" ++ toString scope).toList := by
      split
      · exact Within.nil.mono (Nat.zero_le 11)
      · have hPercent : Within 1 "%".toList := by decide
        have hNumber : Within 10 (toString scope).toList := toString_within (by decide) (by omega)
        rw [String.toList_append]
        exact hPercent.append hNumber
    exact ((((hOpen.append hText).append hZone).append hClose).append hDigits).mono (by decide)

example : socketText (.v6 [0xfd00, 0, 0, 0, 0, 0, 0, 1]) 51820 2 = "[fd00::1%2]:51820" := by decide +kernel

-- ---------------------------------------------------------------------------
-- Quoted texts
-- ---------------------------------------------------------------------------

/-- `char::escape_debug_ext` in `{:?}` of a `str`: `plain` holds of the characters
that are printed as they are by the tables of Unicode. -/
def escapeDebug (plain : Char → Bool) (c : Char) : List Char :=
  if c.toNat = 0 then "\\0".toList
  else if c = '\t' then "\\t".toList
  else if c = '\r' then "\\r".toList
  else if c = '\n' then "\\n".toList
  else if c.toNat = 0x22 then "\\\"".toList
  else if c.toNat = 0x5c then "\\\\".toList
  else if plain c then [c]
  else "\\u\x7b".toList ++ Nat.toDigits 16 c.toNat ++ "\x7d".toList

/-- `{:?}` of a `str` -/
def debugText (plain : Char → Bool) (s : String) : String :=
  String.ofList ("\"".toList ++ s.toList.flatMap (escapeDebug plain) ++ "\"".toList)

/-- The digits of a code point, which has more bytes where it has more digits. -/
theorem codePoint_within (c : Char) : Within (c.utf8Size * 6 - 4) (Nat.toDigits 16 c.toNat) := by
  have hDigits : ∀ k, 0 < k → c.toNat < 16 ^ k → Within k (Nat.toDigits 16 c.toNat) := fun k =>
    toDigits_within (by decide) (by decide)
  rcases c.utf8Size_eq with hSize | hSize | hSize | hSize
  · have hSmall : c.toNat ≤ 127 := (Char.utf8Size_eq_one_iff.mp hSize)
    exact (hDigits 2 (by decide) (by omega)).mono (by omega)
  · have hSmall : c.toNat ≤ 0x7ff := (Char.utf8Size_eq_two_iff.mp hSize).2
    exact (hDigits 3 (by decide) (by omega)).mono (by omega)
  · have hSmall : c.toNat ≤ 0xffff := (Char.utf8Size_eq_three_iff.mp hSize).2
    exact (hDigits 4 (by decide) (by omega)).mono (by omega)
  · have hValid : c.toNat < 0xd800 ∨ 0xdfff < c.toNat ∧ c.toNat < 0x110000 := c.valid
    exact (hDigits 6 (by decide) (by omega)).mono (by omega)

/-- An escape takes six bytes for each byte that it stands for at most. -/
theorem escapeDebug_within (plain : Char → Bool) (c : Char) :
    Within (c.utf8Size * 6) (escapeDebug plain c) := by
  have hSize := Char.utf8Size_pos c
  have hTwo : ∀ {cs}, Within 2 cs → Within (c.utf8Size * 6) cs := fun h => h.mono (by omega)
  unfold escapeDebug
  split
  · exact hTwo (by decide)
  · rename_i hNul
    split
    · exact hTwo (by decide)
    split
    · exact hTwo (by decide)
    split
    · exact hTwo (by decide)
    split
    · exact hTwo (by decide)
    split
    · exact hTwo (by decide)
    split
    · have hSelf : Within c.utf8Size [c] := ⟨by simp, by simpa using hNul⟩
      exact hSelf.mono (by omega)
    · have hOpen : Within 3 "\\u\x7b".toList := by decide
      have hClose : Within 1 "\x7d".toList := by decide
      exact ((hOpen.append (codePoint_within c)).append hClose).mono (by omega)

theorem debugText_within (plain : Char → Bool) {s : String} (h : (s.toList.map Char.utf8Size).sum ≤ n) :
    Within (n * 6 + 2) (debugText plain s).toList := by
  have hEscaped : ∀ cs : List Char,
      Within ((cs.map Char.utf8Size).sum * 6) (cs.flatMap (escapeDebug plain)) := by
    intro cs
    induction cs with
    | nil => exact .nil
    | cons c cs ih =>
      rw [List.flatMap_cons, List.map_cons, List.sum_cons, Nat.add_mul]
      exact (escapeDebug_within plain c).append ih
  have hQuote : Within 1 "\"".toList := by decide
  unfold debugText
  rw [String.toList_ofList]
  exact ((hQuote.append (hEscaped s.toList)).append hQuote).mono (by omega)

example : debugText (fun c => c.isAlpha) "a\n\x7f" = "\"a\\n\\u\x7b7f\x7d\"" := by decide +kernel

end Display
