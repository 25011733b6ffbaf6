import Mathlib.Data.List.TakeWhile
import LinkMesh.Basis.Base64
import LinkMesh.Basis.Layout
import LinkMesh.Client.Crypto

/-!
# Text fields and keys on the wire

`WireStr` and the base64 helpers of `linkmesh-shared/src/wire.rs`: a text
field is a NUL-padded buffer of fixed width, a key is 32 raw bytes that the
rest of the program handles as base64 text.

## Results

* `wireStr_get_set` — a text that its field takes is read back.
* `b64Key_keyB64`, `parsePublicKey_keyB64` — a key survives base64.
-/

namespace LinkMesh

open Layout

-- ---------------------------------------------------------------------------
-- Strings
-- ---------------------------------------------------------------------------

/-- `s.as_bytes()` -/
def utf8 (s : String) : Bytes := s.toUTF8.data.toList

/-- `std::str::from_utf8` -/
def fromUtf8 (bs : Bytes) : Option String := String.fromUTF8? ⟨bs.toArray⟩

theorem fromUtf8_utf8 (s : String) : fromUtf8 (utf8 s) = some s := by
  unfold fromUtf8 utf8 String.fromUTF8?
  have hValid : (⟨s.toUTF8.data⟩ : ByteArray).IsValidUTF8 := s.isValidUTF8
  rw [Array.toArray_toList, dif_pos hValid]
  rfl

theorem utf8_append (s t : String) : utf8 (s ++ t) = utf8 s ++ utf8 t := by
  show (s ++ t).toByteArray.data.toList = s.toByteArray.data.toList ++ t.toByteArray.data.toList
  rw [String.toByteArray_append, ByteArray.data_append, Array.toList_append]

theorem utf8_injective : Function.Injective utf8 := by
  intro s t h
  have hBack := congrArg fromUtf8 h
  rw [fromUtf8_utf8, fromUtf8_utf8] at hBack
  exact Option.some.inj hBack

theorem utf8_eq_flatMap (s : String) : utf8 s = s.toList.flatMap String.utf8EncodeChar := by
  show s.toByteArray.data.toList = _
  rw [← String.utf8Encode_toList]
  show (s.toList.flatMap String.utf8EncodeChar).toByteArray.data.toList = _
  simp

theorem utf8_length (s : String) : (utf8 s).length = (s.toList.map Char.utf8Size).sum := by
  rw [utf8_eq_flatMap, List.length_flatMap]
  simp only [String.length_utf8EncodeChar]

/-- Only NUL is encoded with a zero byte. -/
theorem zero_mem_utf8EncodeChar {c : Char} : 0 ∈ String.utf8EncodeChar c ↔ c.toNat = 0 := by
  have hByte : ∀ v : Nat, v < 256 → ((0 : UInt8) = UInt8.ofNat v ↔ v = 0) := by
    intro v hv
    rw [← UInt8.toNat_inj, UInt8.toNat_ofNat', Nat.mod_eq_of_lt hv]
    exact eq_comm
  unfold String.utf8EncodeChar
  show _ ↔ c.val.toNat = 0
  generalize c.val.toNat = v
  dsimp only
  split
  · rw [List.mem_singleton]
    exact hByte v (by omega)
  · split
    · simp only [List.mem_cons, List.not_mem_nil, or_false]
      rw [hByte _ (by omega), hByte _ (by omega)]
      omega
    · split
      · simp only [List.mem_cons, List.not_mem_nil, or_false]
        rw [hByte _ (by omega), hByte _ (by omega), hByte _ (by omega)]
        omega
      · simp only [List.mem_cons, List.not_mem_nil, or_false]
        rw [hByte _ (by omega), hByte _ (by omega), hByte _ (by omega), hByte _ (by omega)]
        omega

theorem zero_mem_utf8 {s : String} : 0 ∈ utf8 s ↔ ∃ c ∈ s.toList, c.toNat = 0 := by
  rw [utf8_eq_flatMap, List.mem_flatMap]
  simp only [zero_mem_utf8EncodeChar]

/-- Every character takes a byte at least. -/
theorem length_le_utf8 (s : String) : s.toList.length ≤ (utf8 s).length := by
  rw [utf8_length]
  induction s.toList with
  | nil => exact Nat.zero_le _
  | cons c cs ih =>
    have hOne := Char.utf8Size_pos c
    rw [List.map_cons, List.sum_cons, List.length_cons]
    omega

/-- `char::is_whitespace`: the Unicode property White_Space. -/
def isWhitespace (c : Char) : Bool :=
  let n := c.toNat
  (9 ≤ n && n ≤ 13) || n == 0x20 || n == 0x85 || n == 0xA0 || n == 0x1680 ||
    (0x2000 ≤ n && n ≤ 0x200A) || n == 0x2028 || n == 0x2029 || n == 0x202F || n == 0x205F ||
    n == 0x3000

theorem isWhitespace_of_isDigit {c : Char} (h : c.isDigit = true) : isWhitespace c = false := by
  have hRange : 48 ≤ c.toNat ∧ c.toNat ≤ 57 := by
    simpa [Char.isDigit, UInt32.le_iff_toNat_le] using h
  unfold isWhitespace
  simp only [Bool.or_eq_false_iff, Bool.and_eq_false_iff, decide_eq_false_iff_not, beq_eq_false_iff_ne]
  omega

/-- `str::trim` -/
def trim (s : String) : String :=
  String.ofList (((s.toList.dropWhile isWhitespace).reverse.dropWhile isWhitespace).reverse)

theorem trim_eq_self {s : String} (h : ∀ c ∈ s.toList, isWhitespace c = false) : trim s = s := by
  have hKeep : ∀ cs : List Char, (∀ c ∈ cs, isWhitespace c = false) →
      cs.dropWhile isWhitespace = cs := by
    intro cs hcs
    cases cs with
    | nil => rfl
    | cons c cs => simp [hcs c (List.mem_cons_self ..)]
  unfold trim
  rw [hKeep s.toList h, hKeep s.toList.reverse fun c hc => h c (List.mem_reverse.mp hc),
    List.reverse_reverse, String.ofList_toList]

/-- What does not start with white space has none to drop. -/
theorem dropWhile_whitespace {cs : List Char} (h : ∀ c, cs.head? = some c → isWhitespace c = false) :
    cs.dropWhile isWhitespace = cs := by
  cases cs with
  | nil => rfl
  | cons c cs => exact List.dropWhile_cons_of_neg (by rw [h c rfl]; exact Bool.false_ne_true)

/-- Trimming twice is trimming once. -/
theorem trim_trim (s : String) : trim (trim s) = trim s := by
  have hHead : ∀ (cs : List Char) c, (cs.dropWhile isWhitespace).head? = some c → isWhitespace c = false := by
    intro cs c hc
    have hNot := List.head?_dropWhile_not isWhitespace cs
    rw [hc] at hNot
    exact hNot
  unfold trim
  rw [String.toList_ofList]
  generalize hFront : s.toList.dropWhile isWhitespace = front
  -- a nonempty prefix starts as the whole does
  have hPrefix : (front.reverse.dropWhile isWhitespace).reverse <+: front := by
    rw [← List.reverse_suffix, List.reverse_reverse]
    exact List.dropWhile_suffix isWhitespace
  have hStart : ∀ c, (front.reverse.dropWhile isWhitespace).reverse.head? = some c →
      isWhitespace c = false := by
    intro c hc
    obtain ⟨rest, hAppend⟩ := hPrefix
    refine hHead s.toList c ?_
    rw [hFront, ← hAppend, List.head?_append, hc]
    rfl
  rw [dropWhile_whitespace hStart, List.reverse_reverse, dropWhile_whitespace (hHead front.reverse)]

theorem trim_sublist (s : String) : (trim s).toList.Sublist s.toList := by
  unfold trim
  rw [String.toList_ofList]
  refine List.Sublist.trans ?_ (List.dropWhile_sublist isWhitespace)
  rw [← List.reverse_sublist, List.reverse_reverse]
  exact List.dropWhile_sublist isWhitespace

theorem trim_length_le (s : String) : (trim s).toList.length ≤ s.toList.length := (trim_sublist s).length_le

/-- What trimming does not shorten it leaves alone. -/
theorem trim_eq_of_length {s : String} (h : (trim s).toList.length = s.toList.length) : trim s = s :=
  String.toList_inj.mp ((trim_sublist s).eq_of_length h)

/-- Trimming drops nothing between two characters that are not white space. -/
theorem mem_trim_of_between {s : String} {u v : List Char} {c : Char} (hText : s.toList = u ++ c :: v)
    (hu : ∃ a ∈ u, isWhitespace a = false) (hv : ∃ b ∈ v, isWhitespace b = false) :
    c ∈ (trim s).toList := by
  have hKeep : ∀ (xs ys : List Char), (∃ a ∈ xs, isWhitespace a = false) →
      (xs ++ ys).dropWhile isWhitespace = xs.dropWhile isWhitespace ++ ys := by
    intro xs ys hxs
    obtain ⟨a, ha, hInk⟩ := hxs
    rw [List.dropWhile_append, if_neg]
    intro hEmpty
    have hAll := List.dropWhile_eq_nil_iff.mp (List.isEmpty_iff.mp hEmpty) a ha
    rw [hInk] at hAll
    cases hAll
  have hBack : ∃ b ∈ v.reverse, isWhitespace b = false := by
    obtain ⟨b, hb, hInk⟩ := hv
    exact ⟨b, List.mem_reverse.mpr hb, hInk⟩
  unfold trim
  rw [String.toList_ofList, hText, hKeep u _ hu, List.reverse_append, List.reverse_cons, List.append_assoc,
    hKeep v.reverse _ hBack]
  simp

-- ---------------------------------------------------------------------------
-- Text fields
-- ---------------------------------------------------------------------------

/-- `WireStr::<n>::from_str`: the buffer of a text. -/
def wireStrSet (n : Nat) (s : String) : Except String Bytes :=
  if 0 ∈ utf8 s then .error "字符串含 NUL 字节"
  else if n < (utf8 s).length then .error s!"字段超长（{(utf8 s).length} > {n} 字节）"
  else .ok (utf8 s ++ List.replicate (n - (utf8 s).length) 0)

/-- `WireStr::to_str`: cut at the first NUL. -/
def wireStrGet (buf : Bytes) : Except String String :=
  match fromUtf8 (buf.takeWhile (· ≠ 0)) with
  | some s => .ok s
  | none => .error "字段含非法 UTF-8"

theorem wireStrSet_ok {n : Nat} {s : String} (hNul : 0 ∉ utf8 s) (hFit : (utf8 s).length ≤ n) :
    wireStrSet n s = .ok (utf8 s ++ List.replicate (n - (utf8 s).length) 0) := by
  unfold wireStrSet
  rw [if_neg hNul, if_neg (by omega)]

theorem wireStrSet_length {n : Nat} {s : String} {buf : Bytes} (h : wireStrSet n s = .ok buf) :
    buf.length = n := by
  unfold wireStrSet at h
  split at h
  · cases h
  · split at h
    · cases h
    · rename_i hFit
      cases h
      rw [List.length_append, List.length_replicate]
      omega

/-- A text that its field takes is read back. -/
theorem wireStr_get_set {n : Nat} {s : String} {buf : Bytes} (h : wireStrSet n s = .ok buf) :
    wireStrGet buf = .ok s := by
  unfold wireStrSet at h
  split at h
  · cases h
  · rename_i hNul
    split at h
    · cases h
    · cases h
      have hText : (utf8 s ++ List.replicate (n - (utf8 s).length) 0).takeWhile (· ≠ 0) = utf8 s := by
        have hKeep : ∀ b ∈ utf8 s, decide (b ≠ 0) = true := by
          intro b hb
          rw [decide_eq_true_eq]
          intro hZero
          rw [hZero] at hb
          exact hNul hb
        rw [List.takeWhile_append_of_pos hKeep]
        cases n - (utf8 s).length with
        | zero => simp
        | succ m => simp [List.replicate_succ]
      unfold wireStrGet
      rw [hText, fromUtf8_utf8]

theorem utf8_of_wireStrGet {s : String} {buf : Bytes} (h : wireStrGet buf = .ok s) :
    utf8 s = buf.takeWhile (· ≠ 0) := by
  unfold wireStrGet at h
  split at h
  · rename_i t hText
    cases h
    unfold fromUtf8 String.fromUTF8? at hText
    split at hText
    · cases hText
      rfl
    · cases hText
  · cases h

theorem wireStrGet_length {buf : Bytes} {s : String} (h : wireStrGet buf = .ok s) :
    s.toList.length ≤ buf.length := by
  have hLength := length_le_utf8 s
  rw [utf8_of_wireStrGet h] at hLength
  exact hLength.trans (List.takeWhile_sublist _).length_le

-- ---------------------------------------------------------------------------
-- Keys
-- ---------------------------------------------------------------------------

/-- The bytes of a key. -/
def keyBytes (k : RawKey) : Bytes := beBytes 32 k

/-- The key that 32 bytes spell. -/
def keyOfBytes (bs : Bytes) : RawKey := beValue bs

/-- `key_b64`, and the other fixed-width base64 encoders. -/
def keyB64 (bs : Bytes) : String := Base64.encode bs

/-- The shape of `b64_key`, `b64_sig`, `b64_12` and `parse_public_key`: trimmed
base64 of exactly `n` bytes. The detail that the base64 crate adds to the first
message is left out. -/
def b64Fixed (n : Nat) (badBase64 badLength : String) (s : String) : Except String Bytes :=
  match Base64.decode (trim s) with
  | some bs => if bs.length = n then .ok bs else .error badLength
  | none => .error badBase64

def b64Key (s : String) : Except String Bytes :=
  b64Fixed 32 "公钥 base64 解析失败" "公钥长度错误，应为 32 字节" s

def b64Sig (s : String) : Except String Bytes :=
  b64Fixed 64 "签名 base64 解析失败" "签名长度错误，应为 64 字节" s

/-- `crypto::parse_public_key` -/
def parsePublicKey (s : String) : Except String RawKey :=
  (b64Fixed 32 "公钥 base64 解析失败" "公钥长度错误，应为 32 字节" s).map keyOfBytes

/-- No base64 symbol is white space. -/
theorem encodeChars_not_whitespace (bs : List UInt8) :
    ∀ c ∈ Base64.encodeChars bs, isWhitespace c = false := by
  have hSymbol : ∀ n < 64, isWhitespace (Base64.symbol n) = false := by decide
  induction bs using Base64.encodeChars.induct with
  | case1 =>
    intro c hc
    cases hc
  | case2 a =>
    have ha : a.toNat < 256 := a.toNat_lt
    rw [Base64.encodeChars]
    simp only [List.forall_mem_cons]
    exact ⟨hSymbol _ (by omega), hSymbol _ (by omega), by decide, by decide, by simp⟩
  | case3 a b =>
    have ha : a.toNat < 256 := a.toNat_lt
    have hb : b.toNat < 256 := b.toNat_lt
    rw [Base64.encodeChars]
    simp only [List.forall_mem_cons]
    exact ⟨hSymbol _ (by omega), hSymbol _ (by omega), hSymbol _ (by omega), by decide, by simp⟩
  | case4 a b c rest ih =>
    have ha : a.toNat < 256 := a.toNat_lt
    have hb : b.toNat < 256 := b.toNat_lt
    have hc : c.toNat < 256 := c.toNat_lt
    rw [Base64.encodeChars]
    simp only [List.forall_mem_cons]
    exact ⟨hSymbol _ (by omega), hSymbol _ (by omega), hSymbol _ (by omega), hSymbol _ (by omega), ih⟩

theorem encodeChars_length (bs : List UInt8) :
    (Base64.encodeChars bs).length = (bs.length + 2) / 3 * 4 := by
  induction bs using Base64.encodeChars.induct with
  | case1 => rfl
  | case2 a =>
    rw [Base64.encodeChars]
    simp
  | case3 a b =>
    rw [Base64.encodeChars]
    simp
  | case4 a b c rest ih =>
    rw [Base64.encodeChars]
    simp only [List.length_cons]
    omega

theorem trim_keyB64 (bs : Bytes) : trim (keyB64 bs) = keyB64 bs := by
  refine trim_eq_self fun c hc => ?_
  unfold keyB64 Base64.encode at hc
  rw [String.toList_ofList] at hc
  exact encodeChars_not_whitespace bs c hc

/-- Fixed-width bytes survive base64. -/
theorem b64Fixed_keyB64 {n : Nat} {bs : Bytes} {badBase64 badLength : String} (h : bs.length = n) :
    b64Fixed n badBase64 badLength (keyB64 bs) = .ok bs := by
  unfold b64Fixed
  rw [trim_keyB64]
  unfold keyB64
  rw [Base64.decode_encode]
  exact if_pos h

theorem b64Key_keyB64 {bs : Bytes} (h : bs.length = 32) : b64Key (keyB64 bs) = .ok bs :=
  b64Fixed_keyB64 h

theorem keyB64_inj {bs bs' : Bytes} (h : bs.length = 32) (h' : bs'.length = 32)
    (hEq : keyB64 bs = keyB64 bs') : bs = bs' := by
  have hKey := b64Key_keyB64 h
  rw [hEq, b64Key_keyB64 h'] at hKey
  exact (Except.ok.inj hKey).symm

theorem b64Sig_keyB64 {bs : Bytes} (h : bs.length = 64) : b64Sig (keyB64 bs) = .ok bs :=
  b64Fixed_keyB64 h

@[simp] theorem keyBytes_length (k : RawKey) : (keyBytes k).length = 32 := beBytes_length 32 k

theorem keyOfBytes_lt {bs : Bytes} (h : bs.length = 32) : keyOfBytes bs < 256 ^ 32 := by
  rw [← h]
  exact beValue_lt bs

theorem keyBytes_keyOfBytes {bs : Bytes} (h : bs.length = 32) : keyBytes (keyOfBytes bs) = bs := by
  unfold keyBytes keyOfBytes
  rw [← h, beBytes_beValue]

/-- A key survives its base64 text. -/
theorem parsePublicKey_keyB64 {k : RawKey} (h : k < 256 ^ 32) :
    parsePublicKey (keyB64 (keyBytes k)) = .ok k := by
  unfold parsePublicKey
  rw [b64Fixed_keyB64 (keyBytes_length k)]
  show Except.ok (keyOfBytes (keyBytes k)) = .ok k
  unfold keyOfBytes keyBytes
  rw [beValue_beBytes h]

/-- The message is not looked at when decoding succeeds. -/
theorem b64Fixed_ok_of_ok {n : Nat} {badBase64 badBase64' badLength badLength' s : String}
    {bs : Bytes} (h : b64Fixed n badBase64 badLength s = .ok bs) :
    b64Fixed n badBase64' badLength' s = .ok bs := by
  unfold b64Fixed at h ⊢
  split at h
  · split at h
    · rename_i hLength
      cases h
      exact if_pos hLength
    · cases h
  · cases h

theorem b64Fixed_length {n : Nat} {badBase64 badLength s : String} {bs : Bytes}
    (h : b64Fixed n badBase64 badLength s = .ok bs) : bs.length = n := by
  unfold b64Fixed at h
  split at h
  · split at h
    · rename_i hLength
      cases h
      exact hLength
    · cases h
  · cases h

/-- What is read as fixed-width bytes is their text, white space around it apart. -/
theorem keyB64_of_b64Fixed {n : Nat} {badBase64 badLength s : String} {bs : Bytes}
    (h : b64Fixed n badBase64 badLength s = .ok bs) : keyB64 bs = trim s := by
  unfold b64Fixed at h
  split at h
  · rename_i decoded hDecode
    split at h
    · cases h
      exact Base64.encode_of_decode hDecode
    · cases h
  · cases h

/-- A text that parses as a public key is written as a key. -/
theorem b64Key_of_parsePublicKey {s : String} {k : RawKey} (h : parsePublicKey s = .ok k) :
    ∃ bs, b64Key s = .ok bs := by
  unfold parsePublicKey at h
  unfold b64Key
  cases hBytes : b64Fixed 32 "公钥 base64 解析失败" "公钥长度错误，应为 32 字节" s with
  | error e =>
    rw [hBytes] at h
    cases h
  | ok bs => exact ⟨bs, rfl⟩

end LinkMesh
