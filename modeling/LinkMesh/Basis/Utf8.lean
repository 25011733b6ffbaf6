import Mathlib.Data.List.Basic

/-!
# UTF-8 and the case of ASCII letters

Bytes read as UTF-8 with U+FFFD in the place of what is broken, and bytes that
differ in the case of ASCII letters only.

* `lossy_encode`           — what is UTF-8 is read as it is.
* `lossy_drop`             — UTF-8 that is cut at a byte is read as the characters
  behind the cut.
* `exists_encode_of_lower` — bytes that differ from UTF-8 in the case of letters
  are UTF-8.
-/

namespace Utf8

variable {c : Char} {cs ds : List Char} {bs : List UInt8}

def encode (cs : List Char) : List UInt8 := cs.flatMap String.utf8EncodeChar

-- ---------------------------------------------------------------------------
-- Lossy decoding
-- ---------------------------------------------------------------------------

/-- The character that the bytes begin with. -/
def first (bs : List UInt8) : Option Char := bs.toByteArray.utf8DecodeChar? 0

def isContinuation (b : UInt8) : Bool := 0x80 ≤ b.toNat && b.toNat ≤ 0xBF

/-- What may follow the first byte of three or four. -/
def isSecond (b b' : UInt8) : Bool :=
  let a := b.toNat
  let n := b'.toNat
  (a == 0xE0 && 0xA0 ≤ n && n ≤ 0xBF) || (0xE1 ≤ a && a ≤ 0xEC && 0x80 ≤ n && n ≤ 0xBF) ||
    (a == 0xED && 0x80 ≤ n && n ≤ 0x9F) || (0xEE ≤ a && a ≤ 0xEF && 0x80 ≤ n && n ≤ 0xBF) ||
    (a == 0xF0 && 0x90 ≤ n && n ≤ 0xBF) || (0xF1 ≤ a && a ≤ 0xF3 && 0x80 ≤ n && n ≤ 0xBF) ||
    (a == 0xF4 && 0x80 ≤ n && n ≤ 0x8F)

/-- How many bytes of a broken character are left out for it: those up to the
first one that cannot belong to it. -/
def brokenLength (bs : List UInt8) : Nat :=
  let a := bs.getD 0 0
  if isSecond a (bs.getD 1 0) then
    if 0xF0 ≤ a.toNat ∧ isContinuation (bs.getD 2 0) then 3 else 2
  else 1

/-- The characters of the bytes, of which there are at most so many. -/
def lossyChars : Nat → List UInt8 → List Char
  | 0, _ => []
  | _, [] => []
  | n + 1, bs@(_ :: _) =>
    match first bs with
    | some c => c :: lossyChars n (bs.drop c.utf8Size)
    | none => '\uFFFD' :: lossyChars n (bs.drop (brokenLength bs))

/-- `String::from_utf8_lossy` -/
def lossy (bs : List UInt8) : List Char := lossyChars bs.length bs

theorem first_encode_cons (c : Char) (cs : List Char) : first (encode (c :: cs)) = some c := by
  unfold first encode
  rw [List.flatMap_cons, List.toByteArray_append]
  exact ByteArray.utf8DecodeChar?_utf8EncodeChar_append

theorem encode_cons_ne_nil (c : Char) (cs : List Char) : encode (c :: cs) ≠ [] := by
  intro h
  have hPos := Char.utf8Size_pos c
  have hLength := congrArg List.length h
  rw [encode, List.flatMap_cons, List.length_append, String.length_utf8EncodeChar, List.length_nil] at hLength
  omega

theorem lossy_encode (cs : List Char) : lossy (encode cs) = cs := by
  have hFuel : ∀ n, (encode cs).length ≤ n → lossyChars n (encode cs) = cs := by
    induction cs with
    | nil =>
      intro n _
      cases n <;> rfl
    | cons c cs ih =>
      intro n hn
      obtain ⟨b, bs, hBytes⟩ := List.exists_cons_of_ne_nil (encode_cons_ne_nil c cs)
      have hFirst := first_encode_cons c cs
      have hRest : (encode (c :: cs)).drop c.utf8Size = encode cs := by
        rw [encode, List.flatMap_cons]
        exact List.drop_left' (String.length_utf8EncodeChar c)
      have hLength : (encode (c :: cs)).length = c.utf8Size + (encode cs).length := by
        rw [encode, List.flatMap_cons, List.length_append, String.length_utf8EncodeChar]
        rfl
      have hPos := Char.utf8Size_pos c
      cases n with
      | zero => omega
      | succ n =>
        rw [hBytes] at hFirst hRest ⊢
        rw [lossyChars, hFirst]
        dsimp only
        rw [hRest, ih n (by omega)]
  exact hFuel _ (Nat.le_refl _)

/-- A character that breaks off is left out as one. -/
example : lossy [0xF0, 0x9F, 0x98, 0x41] = ['\uFFFD', 'A'] := by decide +kernel

theorem encode_injective : Function.Injective encode := Function.LeftInverse.injective lossy_encode

theorem lossy_ne_nil (h : bs ≠ []) : lossy bs ≠ [] := by
  obtain ⟨b, rest, rfl⟩ := List.exists_cons_of_ne_nil h
  unfold lossy
  rw [List.length_cons, lossyChars]
  split <;> exact List.cons_ne_nil _ _

/-- No character begins with an inner byte of one. -/
theorem first_eq_none {b : UInt8} (h : ¬ b.IsUTF8FirstByte) : first (b :: bs) = none := by
  unfold first
  by_contra hSome
  have hIs : ((b :: bs).toByteArray.utf8DecodeChar? 0).isSome := Option.isSome_iff_ne_none.mpr hSome
  have hFirst := ByteArray.isUTF8FirstByte_of_isSome_utf8DecodeChar? hIs
  rw [List.getElem_toByteArray] at hFirst
  exact h hFirst

theorem brokenLength_inner {b : UInt8} (h : ¬ b.IsUTF8FirstByte) : brokenLength (b :: bs) = 1 := by
  have hFirst : ∀ n < 256, 0xE0 ≤ n → n ≤ 0xF4 → (UInt8.ofNat n).IsUTF8FirstByte := by decide +kernel
  unfold brokenLength
  rw [List.getD_cons_zero, if_neg]
  intro hSecond
  refine h ?_
  have hRange : 0xE0 ≤ b.toNat ∧ b.toNat ≤ 0xF4 := by
    unfold isSecond at hSecond
    simp only [Bool.or_eq_true, Bool.and_eq_true, beq_iff_eq, decide_eq_true_eq] at hSecond
    omega
  have hByte := hFirst b.toNat (UInt8.toNat_lt b) hRange.1 hRange.2
  rwa [UInt8.ofNat_toNat] at hByte

/-- Inner bytes in front of a text are left out one by one. -/
theorem lossy_inner (hInner : ∀ b ∈ bs, ¬ b.IsUTF8FirstByte) (cs : List Char) :
    lossy (bs ++ encode cs) = List.replicate bs.length '\uFFFD' ++ cs := by
  induction bs with
  | nil => exact lossy_encode cs
  | cons b bs ih =>
    rw [List.forall_mem_cons] at hInner
    have hRest : lossy (bs ++ encode cs) = List.replicate bs.length '\uFFFD' ++ cs := ih hInner.2
    unfold lossy at hRest ⊢
    rw [List.cons_append, List.length_cons, lossyChars, first_eq_none hInner.1]
    dsimp only
    rw [brokenLength_inner hInner.1, List.drop_one, List.tail_cons, hRest, List.length_cons, List.replicate_succ,
      List.cons_append]

/-- A text from a byte on: what is left of a character that is cut is not read, and
the characters behind it are. -/
theorem lossy_drop {cs : List Char} {k : Nat} (hk : k ≤ (encode cs).length) :
    ∃ (front : List Char) (j : Nat), ∃ back, cs = front ++ back ∧ (encode front).length = k + j ∧
      lossy ((encode cs).drop k) = List.replicate j '\uFFFD' ++ back ∧
      (j = 0 ∨ ∃ front' c, front = front' ++ [c] ∧ j < c.utf8Size) := by
  induction cs generalizing k with
  | nil =>
    have hZero : k = 0 := Nat.le_zero.mp hk
    exact ⟨[], 0, [], rfl, by rw [hZero]; rfl, by rw [hZero]; rfl, .inl rfl⟩
  | cons c cs ih =>
    have hSplit : encode (c :: cs) = String.utf8EncodeChar c ++ encode cs := List.flatMap_cons
    have hSize : (String.utf8EncodeChar c).length = c.utf8Size := String.length_utf8EncodeChar c
    rw [hSplit, List.length_append, hSize] at hk
    by_cases hZero : k = 0
    · refine ⟨[], 0, c :: cs, rfl, by rw [hZero]; rfl, ?_, .inl rfl⟩
      rw [hZero, List.drop_zero, lossy_encode]
      rfl
    by_cases hLate : c.utf8Size ≤ k
    · -- the cut is behind the character
      obtain ⟨front, j, back, hEq, hLength, hLossy, hCut⟩ := ih (k := k - c.utf8Size) (by omega)
      refine ⟨c :: front, j, back, by rw [hEq]; rfl, ?_, ?_, hCut.imp_right ?_⟩
      · have hFront : encode (c :: front) = String.utf8EncodeChar c ++ encode front := List.flatMap_cons
        rw [hFront, List.length_append, hSize, hLength, ← Nat.add_assoc, Nat.add_sub_cancel' hLate]
      · rw [hSplit, List.drop_append, List.drop_eq_nil_of_le (hSize ▸ hLate), hSize, List.nil_append, hLossy]
      · rintro ⟨front', d, rfl, hd⟩
        exact ⟨c :: front', d, rfl, hd⟩
    · -- it goes through it
      refine ⟨[c], c.utf8Size - k, cs, rfl, ?_, ?_, .inr ⟨[], c, rfl, by omega⟩⟩
      · have hOne : encode [c] = String.utf8EncodeChar c := List.append_nil _
        rw [hOne, hSize]
        omega
      · have hInner : ∀ b ∈ (String.utf8EncodeChar c).drop k, ¬ b.IsUTF8FirstByte := by
          intro b hb
          obtain ⟨i, hi, rfl⟩ := List.getElem_of_mem hb
          rw [List.getElem_drop, UInt8.isUTF8FirstByte_getElem_utf8EncodeChar]
          omega
        rw [hSplit, List.drop_append_of_le_length (by omega), lossy_inner hInner, List.length_drop, hSize]

-- ---------------------------------------------------------------------------
-- The case of letters
-- ---------------------------------------------------------------------------

/-- `u8::to_ascii_lowercase` -/
def asciiLower (b : UInt8) : UInt8 := if 65 ≤ b.toNat ∧ b.toNat ≤ 90 then b + 32 else b

theorem toNat_asciiLower (b : UInt8) :
    (asciiLower b).toNat = if 65 ≤ b.toNat ∧ b.toNat ≤ 90 then b.toNat + 32 else b.toNat := by
  unfold asciiLower
  split
  · rw [UInt8.toNat_add]
    show (b.toNat + 32) % 256 = _
    omega
  · rfl

theorem toNat_toLower (c : Char) :
    c.toLower.toNat = if 65 ≤ c.toNat ∧ c.toNat ≤ 90 then c.toNat + 32 else c.toNat := by
  unfold Char.toLower
  by_cases h : c.val ≥ 'A'.val ∧ c.val ≤ 'Z'.val
  · have hRange : 65 ≤ c.toNat ∧ c.toNat ≤ 90 := h
    rw [dif_pos h, if_pos hRange]
    show (c.val + ('a'.val - 'A'.val)).toNat = c.toNat + 32
    rw [UInt32.toNat_add]
    show (c.toNat + 32) % 2 ^ 32 = c.toNat + 32
    omega
  · have hRange : ¬ (65 ≤ c.toNat ∧ c.toNat ≤ 90) := h
    rw [dif_neg h, if_neg hRange]

theorem toLower_of_high (h : 128 ≤ c.toNat) : c.toLower = c := by
  refine Char.toNat_inj.mp ?_
  rw [toNat_toLower, if_neg (by omega)]

theorem encodeChar_of_ascii (h : c.toNat < 128) : String.utf8EncodeChar c = [UInt8.ofNat c.toNat] := by
  have hSmall : c.val.toNat ≤ 0x7f := Nat.le_of_lt_succ h
  unfold String.utf8EncodeChar
  rw [if_pos hSmall]
  rfl

theorem encodeChar_high (h : 128 ≤ c.toNat) : ∀ b ∈ String.utf8EncodeChar c, 128 ≤ b.toNat := by
  have hByte : ∀ v : Nat, v < 256 → (UInt8.ofNat v).toNat = v := by
    intro v hv
    rw [UInt8.toNat_ofNat', Nat.mod_eq_of_lt hv]
  have hValid : c.val.toNat < 0x110000 := by
    rcases c.valid with hLow | hUp
    · exact Nat.lt_trans hLow (by decide)
    · exact hUp.2
  have hHigh : 128 ≤ c.val.toNat := h
  unfold String.utf8EncodeChar
  generalize c.val.toNat = v at hHigh hValid
  dsimp only
  split
  · omega
  · split
    · simp only [List.forall_mem_cons]
      exact ⟨by rw [hByte _ (by omega)]; omega, by rw [hByte _ (by omega)]; omega, List.forall_mem_nil _⟩
    · split
      · simp only [List.forall_mem_cons]
        exact ⟨by rw [hByte _ (by omega)]; omega, by rw [hByte _ (by omega)]; omega,
          by rw [hByte _ (by omega)]; omega, List.forall_mem_nil _⟩
      · simp only [List.forall_mem_cons]
        exact ⟨by rw [hByte _ (by omega)]; omega, by rw [hByte _ (by omega)]; omega,
          by rw [hByte _ (by omega)]; omega, by rw [hByte _ (by omega)]; omega, List.forall_mem_nil _⟩

theorem asciiLower_of_high {b : UInt8} (h : 128 ≤ b.toNat) : asciiLower b = b := if_neg (by omega)

theorem map_asciiLower_encodeChar (c : Char) :
    (String.utf8EncodeChar c).map asciiLower = String.utf8EncodeChar c.toLower := by
  by_cases h : c.toNat < 128
  · have hLower : c.toLower.toNat < 128 := by
      rw [toNat_toLower]
      split <;> omega
    rw [encodeChar_of_ascii h, encodeChar_of_ascii hLower, List.map_singleton]
    refine congrArg (fun b => [b]) (UInt8.toNat_inj.mp ?_)
    rw [toNat_asciiLower, toNat_toLower, UInt8.toNat_ofNat', UInt8.toNat_ofNat', Nat.mod_eq_of_lt (by omega)]
    split <;> omega
  · have hHigh : 128 ≤ c.toNat := Nat.le_of_not_lt h
    rw [toLower_of_high hHigh]
    exact (List.map_congr_left fun b hb => asciiLower_of_high (encodeChar_high hHigh b hb)).trans (List.map_id _)

/-- On UTF-8, it is the letters of the text that change their case. -/
theorem map_asciiLower_encode (cs : List Char) : (encode cs).map asciiLower = encode (cs.map Char.toLower) := by
  induction cs with
  | nil => rfl
  | cons c cs ih =>
    have hSplit : encode (c :: cs) = String.utf8EncodeChar c ++ encode cs := List.flatMap_cons
    rw [hSplit, List.map_append, map_asciiLower_encodeChar, ih, List.map_cons]
    exact List.flatMap_cons.symm

/-- Bytes that are no letters have no other case. -/
theorem eq_of_lower_high {xs ys : List UInt8} (hHigh : ∀ b ∈ ys, 128 ≤ b.toNat)
    (h : xs.map asciiLower = ys.map asciiLower) : xs = ys := by
  induction ys generalizing xs with
  | nil => exact List.map_eq_nil_iff.mp h
  | cons y ys ih =>
    rw [List.forall_mem_cons] at hHigh
    obtain ⟨x, xs, rfl, hx, hxs⟩ := List.map_eq_cons_iff.mp h
    have hByte : x = y := by
      have hSame := congrArg UInt8.toNat hx
      rw [toNat_asciiLower, asciiLower_of_high hHigh.1] at hSame
      refine UInt8.toNat_inj.mp ?_
      have hLarge := hHigh.1
      split at hSame <;> omega
    rw [hByte, ih hHigh.2 hxs]

/-- What differs from UTF-8 in the case of letters only is UTF-8. -/
theorem exists_encode_of_lower (h : bs.map asciiLower = (encode cs).map asciiLower) : ∃ ds, bs = encode ds := by
  induction cs generalizing bs with
  | nil => exact ⟨[], List.map_eq_nil_iff.mp h⟩
  | cons c cs ih =>
    have hSplit : encode (c :: cs) = String.utf8EncodeChar c ++ encode cs := List.flatMap_cons
    rw [hSplit, List.map_append] at h
    obtain ⟨xs, ys, rfl, hx, hy⟩ := List.map_eq_append_iff.mp h
    obtain ⟨ds, rfl⟩ := ih hy
    by_cases hAscii : c.toNat < 128
    · -- one byte, of the same letter
      rw [encodeChar_of_ascii hAscii, List.map_singleton, List.map_eq_singleton_iff] at hx
      obtain ⟨b, rfl, hb⟩ := hx
      have hLow : b.toNat < 128 := by
        have hSame := congrArg UInt8.toNat hb
        rw [toNat_asciiLower, toNat_asciiLower, UInt8.toNat_ofNat', Nat.mod_eq_of_lt (by omega)] at hSame
        split at hSame <;> split at hSame <;> omega
      have hValid : b.toNat.isValidChar := .inl (by omega)
      have hNat : (Char.ofNat b.toNat).toNat = b.toNat := by
        unfold Char.ofNat
        rw [dif_pos hValid]
        rfl
      refine ⟨Char.ofNat b.toNat :: ds, ?_⟩
      show [b] ++ encode ds = String.utf8EncodeChar _ ++ encode ds
      rw [encodeChar_of_ascii (by omega), hNat, UInt8.ofNat_toNat]
    · -- bytes that are no letters
      have hHigh := encodeChar_high (Nat.le_of_not_lt hAscii)
      exact ⟨c :: ds, by rw [eq_of_lower_high hHigh hx]; rfl⟩

end Utf8
