import Mathlib.Data.List.Basic

/-!
# Standard base64

The standard alphabet with canonical padding: the length is a multiple of
four, padding stands at the end only, and the bits it leaves over are zero.

* `decode_encode`    — decoding inverts encoding.
* `symbol_of_decode` — what decodes consists of symbols and padding.
* `encode_of_decode` — what decodes is the text of its bytes.
-/

namespace Base64

/-- The symbol of a 6-bit value. -/
def symbol (n : Nat) : Char :=
  if n < 26 then Char.ofNat (n + 65)
  else if n < 52 then Char.ofNat (n + 71)
  else if n < 62 then Char.ofNat (n - 4)
  else if n = 62 then '+'
  else '/'

/-- The value of a symbol. -/
def value (c : Char) : Option Nat :=
  if 65 ≤ c.toNat ∧ c.toNat ≤ 90 then some (c.toNat - 65)
  else if 97 ≤ c.toNat ∧ c.toNat ≤ 122 then some (c.toNat - 71)
  else if 48 ≤ c.toNat ∧ c.toNat ≤ 57 then some (c.toNat + 4)
  else if c = '+' then some 62
  else if c = '/' then some 63
  else none

def encodeChars : List UInt8 → List Char
  | [] => []
  | [a] => [symbol (a.toNat / 4), symbol (a.toNat % 4 * 16), '=', '=']
  | [a, b] =>
    [symbol (a.toNat / 4), symbol (a.toNat % 4 * 16 + b.toNat / 16), symbol (b.toNat % 16 * 4), '=']
  | a :: b :: c :: rest =>
    symbol (a.toNat / 4) :: symbol (a.toNat % 4 * 16 + b.toNat / 16) ::
      symbol (b.toNat % 16 * 4 + c.toNat / 64) :: symbol (c.toNat % 64) :: encodeChars rest

/-- The bytes spelled by the values of a quad. -/
def firstByte (w x : Nat) : UInt8 := UInt8.ofNat (w * 4 + x / 16)
def secondByte (x y : Nat) : UInt8 := UInt8.ofNat (x % 16 * 16 + y / 4)
def thirdByte (y z : Nat) : UInt8 := UInt8.ofNat (y % 4 * 64 + z)

/-- The last quad: up to two symbols of padding. -/
def decodeLast (w x y z : Char) : Option (List UInt8) := do
  let w ← value w
  let x ← value x
  if z = '=' then
    if y = '=' then
      if x % 16 = 0 then some [firstByte w x] else none
    else
      let y ← value y
      if y % 4 = 0 then some [firstByte w x, secondByte x y] else none
  else
    let y ← value y
    let z ← value z
    some [firstByte w x, secondByte x y, thirdByte y z]

def decodeChars : List Char → Option (List UInt8)
  | [] => some []
  | [w, x, y, z] => decodeLast w x y z
  | w :: x :: y :: z :: rest => do
    let w ← value w
    let x ← value x
    let y ← value y
    let z ← value z
    let rest ← decodeChars rest
    some (firstByte w x :: secondByte x y :: thirdByte y z :: rest)
  | _ => none

def encode (bs : List UInt8) : String := String.ofList (encodeChars bs)

def decode (s : String) : Option (List UInt8) := decodeChars s.toList

-- ---------------------------------------------------------------------------
-- The round trip
-- ---------------------------------------------------------------------------

theorem value_symbol {n : Nat} (h : n < 64) : value (symbol n) = some n := by
  revert n
  decide

theorem symbol_ne_pad {n : Nat} (h : n < 64) : symbol n ≠ '=' := by
  revert n
  decide

theorem firstByte_split {a : UInt8} {r : Nat} (hr : r < 16) :
    firstByte (a.toNat / 4) (a.toNat % 4 * 16 + r) = a := by
  have ha : a.toNat < 256 := a.toNat_lt
  have hByte : a.toNat / 4 * 4 + (a.toNat % 4 * 16 + r) / 16 = a.toNat := by omega
  unfold firstByte
  rw [hByte, UInt8.ofNat_toNat]

theorem secondByte_split {b : UInt8} {h r : Nat} (hr : r < 4) :
    secondByte (h * 16 + b.toNat / 16) (b.toNat % 16 * 4 + r) = b := by
  have hb : b.toNat < 256 := b.toNat_lt
  have hByte : (h * 16 + b.toNat / 16) % 16 * 16 + (b.toNat % 16 * 4 + r) / 4 = b.toNat := by omega
  unfold secondByte
  rw [hByte, UInt8.ofNat_toNat]

theorem thirdByte_split {c : UInt8} {h : Nat} :
    thirdByte (h * 4 + c.toNat / 64) (c.toNat % 64) = c := by
  have hc : c.toNat < 256 := c.toNat_lt
  have hByte : (h * 4 + c.toNat / 64) % 4 * 64 + c.toNat % 64 = c.toNat := by omega
  unfold thirdByte
  rw [hByte, UInt8.ofNat_toNat]

theorem decodeChars_encodeChars (bs : List UInt8) : decodeChars (encodeChars bs) = some bs := by
  induction bs using encodeChars.induct with
  | case1 => rfl
  | case2 a =>
    have ha : a.toNat < 256 := a.toNat_lt
    have hFirst : firstByte (a.toNat / 4) (a.toNat % 4 * 16 + 0) = a := firstByte_split (by omega)
    have hZero : a.toNat % 4 * 16 % 16 = 0 := by omega
    show decodeLast _ _ _ _ = _
    unfold decodeLast
    rw [value_symbol (by omega), value_symbol (by omega)]
    simp only [Option.bind_eq_bind, Option.bind_some, if_true, hZero]
    rw [← Nat.add_zero (a.toNat % 4 * 16), hFirst]
  | case3 a b =>
    have ha : a.toNat < 256 := a.toNat_lt
    have hb : b.toNat < 256 := b.toNat_lt
    have hSecond : secondByte (a.toNat % 4 * 16 + b.toNat / 16) (b.toNat % 16 * 4 + 0) = b :=
      secondByte_split (by omega)
    have hPad : symbol (b.toNat % 16 * 4) ≠ '=' := symbol_ne_pad (by omega)
    have hZero : b.toNat % 16 * 4 % 4 = 0 := by omega
    show decodeLast _ _ _ _ = _
    unfold decodeLast
    rw [value_symbol (by omega), value_symbol (by omega), value_symbol (by omega)]
    simp only [Option.bind_eq_bind, Option.bind_some, if_true, hPad, if_false, hZero]
    rw [firstByte_split (by omega), ← Nat.add_zero (b.toNat % 16 * 4), hSecond]
  | case4 a b c rest ih =>
    have ha : a.toNat < 256 := a.toNat_lt
    have hb : b.toNat < 256 := b.toNat_lt
    have hc : c.toNat < 256 := c.toNat_lt
    have hFirst : firstByte (a.toNat / 4) (a.toNat % 4 * 16 + b.toNat / 16) = a :=
      firstByte_split (by omega)
    have hSecond : secondByte (a.toNat % 4 * 16 + b.toNat / 16)
        (b.toNat % 16 * 4 + c.toNat / 64) = b := secondByte_split (by omega)
    have hThird : thirdByte (b.toNat % 16 * 4 + c.toNat / 64) (c.toNat % 64) = c := thirdByte_split
    have hPad : symbol (c.toNat % 64) ≠ '=' := symbol_ne_pad (by omega)
    rw [encodeChars]
    cases hRest : encodeChars rest with
    | nil =>
      rw [hRest] at ih
      cases Option.some.inj ih
      show decodeLast _ _ _ _ = _
      unfold decodeLast
      rw [value_symbol (by omega), value_symbol (by omega), value_symbol (by omega),
        value_symbol (by omega)]
      simp only [Option.bind_eq_bind, Option.bind_some, hPad, if_false, hFirst, hSecond, hThird]
    | cons w ws =>
      rw [hRest] at ih
      rw [decodeChars, value_symbol (by omega), value_symbol (by omega), value_symbol (by omega),
        value_symbol (by omega), ih]
      · simp only [Option.bind_eq_bind, Option.bind_some, hFirst, hSecond, hThird]
      · simp

theorem decode_encode (bs : List UInt8) : decode (encode bs) = some bs := by
  unfold decode encode
  rw [String.toList_ofList]
  exact decodeChars_encodeChars bs

-- ---------------------------------------------------------------------------
-- What decodes
-- ---------------------------------------------------------------------------

/-- What decodes consists of symbols and padding. -/
theorem symbol_of_decodeChars {cs : List Char} {bs : List UInt8} (h : decodeChars cs = some bs) :
    ∀ c ∈ cs, (∃ n, value c = some n) ∨ c = '=' := by
  induction cs using decodeChars.induct generalizing bs with
  | case1 =>
    intro c hc
    cases hc
  | case2 w x y z =>
    rw [decodeChars] at h
    unfold decodeLast at h
    obtain ⟨nw, hw, h⟩ := Option.bind_eq_some_iff.mp h
    obtain ⟨nx, hx, h⟩ := Option.bind_eq_some_iff.mp h
    have hSymbols : (∃ n, value y = some n) ∨ y = '=' := by
      split at h
      · split at h
        · exact .inr ‹_›
        · obtain ⟨ny, hy, _⟩ := Option.bind_eq_some_iff.mp h
          exact .inl ⟨ny, hy⟩
      · obtain ⟨ny, hy, _⟩ := Option.bind_eq_some_iff.mp h
        exact .inl ⟨ny, hy⟩
    have hLast : (∃ n, value z = some n) ∨ z = '=' := by
      split at h
      · exact .inr ‹_›
      · obtain ⟨ny, hy, h⟩ := Option.bind_eq_some_iff.mp h
        obtain ⟨nz, hz, _⟩ := Option.bind_eq_some_iff.mp h
        exact .inl ⟨nz, hz⟩
    simp only [List.forall_mem_cons]
    exact ⟨.inl ⟨nw, hw⟩, .inl ⟨nx, hx⟩, hSymbols, hLast, by simp⟩
  | case3 w x y z rest hRest ih =>
    rw [decodeChars.eq_3 _ _ _ _ _ hRest] at h
    obtain ⟨nw, hw, h⟩ := Option.bind_eq_some_iff.mp h
    obtain ⟨nx, hx, h⟩ := Option.bind_eq_some_iff.mp h
    obtain ⟨ny, hy, h⟩ := Option.bind_eq_some_iff.mp h
    obtain ⟨nz, hz, h⟩ := Option.bind_eq_some_iff.mp h
    obtain ⟨tail, hTail, _⟩ := Option.bind_eq_some_iff.mp h
    simp only [List.forall_mem_cons]
    exact ⟨.inl ⟨nw, hw⟩, .inl ⟨nx, hx⟩, .inl ⟨ny, hy⟩, .inl ⟨nz, hz⟩, ih hTail⟩
  | case4 cs h1 h2 h3 =>
    rw [decodeChars.eq_4 _ h1 h2 h3] at h
    cases h

theorem symbol_of_decode {s : String} {bs : List UInt8} (h : decode s = some bs) :
    ∀ c ∈ s.toList, (∃ n, value c = some n) ∨ c = '=' := symbol_of_decodeChars h

theorem symbol_of_value {c : Char} {n : Nat} (h : value c = some n) : n < 64 ∧ symbol n = c := by
  have hChar : ∀ k, c.toNat = k → Char.ofNat k = c := by
    intro k hk
    rw [← hk, Char.ofNat_toNat]
  unfold value at h
  split at h
  · cases h
    refine ⟨by omega, ?_⟩
    unfold symbol
    rw [if_pos (by omega)]
    exact hChar _ (by omega)
  · split at h
    · cases h
      refine ⟨by omega, ?_⟩
      unfold symbol
      rw [if_neg (by omega), if_pos (by omega)]
      exact hChar _ (by omega)
    · split at h
      · cases h
        refine ⟨by omega, ?_⟩
        unfold symbol
        rw [if_neg (by omega), if_neg (by omega), if_pos (by omega)]
        exact hChar _ (by omega)
      · split at h
        · rename_i hPlus
          cases h
          exact ⟨by decide, hPlus.symm⟩
        · split at h
          · rename_i hSlash
            cases h
            exact ⟨by decide, hSlash.symm⟩
          · cases h

/-- The values of a quad are those of its bytes. -/
theorem quad_of_bytes {w x y z : Nat} (hw : w < 64) (hx : x < 64) (hy : y < 64) (hz : z < 64) :
    (firstByte w x).toNat / 4 = w ∧
      (firstByte w x).toNat % 4 * 16 + (secondByte x y).toNat / 16 = x ∧
      (secondByte x y).toNat % 16 * 4 + (thirdByte y z).toNat / 64 = y ∧
      (thirdByte y z).toNat % 64 = z := by
  have hFirst : (firstByte w x).toNat = w * 4 + x / 16 := by
    unfold firstByte
    rw [UInt8.toNat_ofNat', Nat.mod_eq_of_lt (by omega)]
  have hSecond : (secondByte x y).toNat = x % 16 * 16 + y / 4 := by
    unfold secondByte
    rw [UInt8.toNat_ofNat', Nat.mod_eq_of_lt (by omega)]
  have hThird : (thirdByte y z).toNat = y % 4 * 64 + z := by
    unfold thirdByte
    rw [UInt8.toNat_ofNat', Nat.mod_eq_of_lt (by omega)]
  rw [hFirst, hSecond, hThird]
  omega

theorem encodeChars_of_decodeLast {w x y z : Char} {bs : List UInt8} (h : decodeLast w x y z = some bs) :
    encodeChars bs = [w, x, y, z] := by
  unfold decodeLast at h
  obtain ⟨nw, hw, h⟩ := Option.bind_eq_some_iff.mp h
  obtain ⟨nx, hx, h⟩ := Option.bind_eq_some_iff.mp h
  obtain ⟨hwLt, hwEq⟩ := symbol_of_value hw
  obtain ⟨hxLt, hxEq⟩ := symbol_of_value hx
  split at h
  · rename_i hPad
    split at h
    · rename_i hPad'
      split at h
      · rename_i hZero
        cases h
        obtain ⟨hFirst, hRest, _⟩ := quad_of_bytes hwLt hxLt (y := 0) (z := 0) (by omega) (by omega)
        have hSecond : (secondByte nx 0).toNat / 16 = 0 := by
          unfold secondByte
          rw [hZero]
          decide
        have hLow : (firstByte nw nx).toNat % 4 * 16 = nx := by omega
        show [symbol _, symbol _, '=', '='] = _
        rw [hFirst, hLow, hwEq, hxEq, hPad, hPad']
      · cases h
    · obtain ⟨ny, hy, h⟩ := Option.bind_eq_some_iff.mp h
      obtain ⟨hyLt, hyEq⟩ := symbol_of_value hy
      split at h
      · rename_i hZero
        cases h
        obtain ⟨hFirst, hSecond, hRest, _⟩ := quad_of_bytes hwLt hxLt hyLt (z := 0) (by omega)
        have hThird : (thirdByte ny 0).toNat / 64 = 0 := by
          unfold thirdByte
          rw [hZero]
          decide
        have hLow : (secondByte nx ny).toNat % 16 * 4 = ny := by omega
        show [symbol _, symbol _, symbol _, '='] = _
        rw [hFirst, hSecond, hLow, hwEq, hxEq, hyEq, hPad]
      · cases h
  · obtain ⟨ny, hy, h⟩ := Option.bind_eq_some_iff.mp h
    obtain ⟨nz, hz, h⟩ := Option.bind_eq_some_iff.mp h
    cases h
    obtain ⟨hyLt, hyEq⟩ := symbol_of_value hy
    obtain ⟨hzLt, hzEq⟩ := symbol_of_value hz
    obtain ⟨hFirst, hSecond, hThird, hFourth⟩ := quad_of_bytes hwLt hxLt hyLt hzLt
    show [symbol _, symbol _, symbol _, symbol _] = _
    rw [hFirst, hSecond, hThird, hFourth, hwEq, hxEq, hyEq, hzEq]

/-- Decoding is one to one. -/
theorem encodeChars_of_decodeChars {cs : List Char} {bs : List UInt8} (h : decodeChars cs = some bs) :
    encodeChars bs = cs := by
  induction cs using decodeChars.induct generalizing bs with
  | case1 =>
    cases Option.some.inj h
    rfl
  | case2 w x y z =>
    rw [decodeChars] at h
    exact encodeChars_of_decodeLast h
  | case3 w x y z rest hRest ih =>
    rw [decodeChars.eq_3 _ _ _ _ _ hRest] at h
    obtain ⟨nw, hw, h⟩ := Option.bind_eq_some_iff.mp h
    obtain ⟨nx, hx, h⟩ := Option.bind_eq_some_iff.mp h
    obtain ⟨ny, hy, h⟩ := Option.bind_eq_some_iff.mp h
    obtain ⟨nz, hz, h⟩ := Option.bind_eq_some_iff.mp h
    obtain ⟨tail, hTail, h⟩ := Option.bind_eq_some_iff.mp h
    cases h
    obtain ⟨hwLt, hwEq⟩ := symbol_of_value hw
    obtain ⟨hxLt, hxEq⟩ := symbol_of_value hx
    obtain ⟨hyLt, hyEq⟩ := symbol_of_value hy
    obtain ⟨hzLt, hzEq⟩ := symbol_of_value hz
    obtain ⟨hFirst, hSecond, hThird, hFourth⟩ := quad_of_bytes hwLt hxLt hyLt hzLt
    rw [encodeChars, hFirst, hSecond, hThird, hFourth, hwEq, hxEq, hyEq, hzEq, ih hTail]
  | case4 cs h1 h2 h3 =>
    rw [decodeChars.eq_4 _ h1 h2 h3] at h
    cases h

theorem encode_of_decode {s : String} {bs : List UInt8} (h : decode s = some bs) : encode bs = s := by
  unfold encode
  rw [encodeChars_of_decodeChars h, String.ofList_toList]

end Base64
