import LinkMesh.Basis.Bits
import LinkMesh.Mesh.Enrolment

/-!
# Fingerprints

`base32_encode` and the fingerprints that people compare
(`linkmesh-shared/src/identity.rs`). The accumulator of the encoder is never
masked: at most 12 of its bits count at any time, and the others are shifted out.

## Results

* `base32_grouping` — the encoding of RFC 4648 without padding, at any length.
* `fingerprint_inj` — a fingerprint tells the first 20 bytes of a device ID.
-/

namespace LinkMesh

open Bits

/-- The bits of a byte string, the highest of each byte first. -/
def bitsOf (data : Bytes) : List Bool := data.flatMap fun b => Bits.write 8 b.toNat

def base32Alphabet : List Char := "ABCDEFGHIJKLMNOPQRSTUVWXYZ234567".toList

def base32Symbol (n : Nat) : Char := base32Alphabet.getD n 'A'

/-- What the loop of `base32_encode` works on; `buf` is a `u64`. -/
structure Base32 where
  buf : Nat := 0
  bits : Nat := 0
  out : List Char := []

namespace Base32

/-- `while bits >= 5` -/
def drain (buf : Nat) : Nat → List Char → Nat × List Char
  | bits + 5, out => drain buf bits (out ++ [base32Symbol (buf >>> bits &&& 0x1f)])
  | bits, out => (bits, out)

/-- The body of the loop over the bytes. -/
def push (s : Base32) (b : UInt8) : Base32 :=
  let buf := s.buf <<< 8 % 2 ^ 64 ||| b.toNat
  let (bits, out) := drain buf (s.bits + 8) s.out
  { buf, bits, out }

end Base32

def base32Encode (data : Bytes) : String :=
  let s := data.foldl Base32.push {}
  String.ofList
    (if 0 < s.bits then s.out ++ [base32Symbol (s.buf <<< (5 - s.bits) % 2 ^ 64 &&& 0x1f)] else s.out)

-- ---------------------------------------------------------------------------
-- The loop
-- ---------------------------------------------------------------------------

/-- The symbols that bits are written with. -/
def base32Symbols (bits : List Bool) : List Char := (groups 5 bits).map base32Symbol

theorem base32Symbols_append {xs : List Bool} (hx : xs.length = 5) (ys : List Bool) :
    base32Symbols (xs ++ ys) = base32Symbol (value xs) :: base32Symbols ys := by
  unfold base32Symbols
  rw [groups_append (by decide) hx, List.map_cons]

namespace Base32

variable {s : Base32} {read : List Bool}

/-- Of the bits read, those that are not written yet are the low bits of the
accumulator, and whatever comes next is grouped with them. -/
def Spells (s : Base32) (read : List Bool) : Prop :=
  ∃ pending : List Bool, pending.length = s.bits ∧ s.bits < 5 ∧ Holds s.buf pending ∧
    ∀ more, base32Symbols (read ++ more) = s.out ++ base32Symbols (pending ++ more)

theorem drain_spells (buf bits : Nat) (out : List Char) {pending : List Bool} (hLength : pending.length = bits)
    (hHolds : Holds buf pending) :
    ∃ rest : List Bool, rest.length = (drain buf bits out).1 ∧ (drain buf bits out).1 < 5 ∧ Holds buf rest ∧
      ∀ more, out ++ base32Symbols (pending ++ more) = (drain buf bits out).2 ++ base32Symbols (rest ++ more) := by
  induction bits, out using drain.induct buf generalizing pending with
  | case1 bits out ih =>
    -- the first five bits are written
    obtain ⟨xs, ys, rfl, hx⟩ : ∃ xs ys, pending = xs ++ ys ∧ xs.length = 5 :=
      ⟨pending.take 5, pending.drop 5, (List.take_append_drop 5 pending).symm, by
        rw [List.length_take]
        omega⟩
    rw [List.length_append, hx] at hLength
    obtain ⟨hRead, hLow⟩ := hHolds.pop
    have hSymbol : buf >>> bits &&& 0x1f = value xs := by
      rw [hx] at hRead
      rw [← hRead]
      congr 2
      omega
    have hLeft : ys.length = bits := by omega
    obtain ⟨rest, hRest, hFew, hKept, hOut⟩ := ih hLeft hLow
    unfold drain
    refine ⟨rest, hRest, hFew, hKept, fun more => ?_⟩
    rw [← hOut, List.append_assoc xs, base32Symbols_append hx, hSymbol, List.append_assoc]
    rfl
  | case2 bits out hFew =>
    have hSmall : bits < 5 := by
      by_contra hLarge
      exact hFew (bits - 5) (by omega)
    have hStop : drain buf bits out = (bits, out) := drain.eq_2 _ _ _ hFew
    rw [hStop]
    exact ⟨pending, hLength, hSmall, hHolds, fun _ => rfl⟩

theorem Spells.push (h : s.Spells read) (b : UInt8) : (s.push b).Spells (read ++ Bits.write 8 b.toNat) := by
  obtain ⟨pending, hLength, hFew, hHolds, hOut⟩ := h
  -- at most 12 bits count
  have hShifted : Holds (s.buf <<< 8 % 2 ^ 64 ||| b.toNat) (pending ++ Bits.write 8 b.toNat) :=
    hHolds.push (by omega) b.toNat_lt
  have hCount : (pending ++ Bits.write 8 b.toNat).length = s.bits + 8 := by
    rw [List.length_append, write_length, hLength]
  obtain ⟨rest, hRest, hFewLeft, hKept, hDrained⟩ := drain_spells _ _ s.out hCount hShifted
  refine ⟨rest, hRest, hFewLeft, hKept, fun more => ?_⟩
  rw [List.append_assoc, hOut, ← List.append_assoc pending]
  exact hDrained more

theorem Spells.foldl (h : s.Spells read) (data : Bytes) : (data.foldl Base32.push s).Spells (read ++ bitsOf data) := by
  induction data generalizing s read with
  | nil =>
    rw [bitsOf, List.flatMap_nil, List.append_nil]
    exact h
  | cons b data ih =>
    have hTail := ih (h.push b)
    rw [List.append_assoc] at hTail
    exact hTail

theorem spells_start : Spells {} [] := ⟨[], rfl, by decide, holds_nil 0, fun _ => rfl⟩

end Base32

theorem base32Encode_eq (data : Bytes) : base32Encode data = String.ofList (base32Symbols (bitsOf data)) := by
  obtain ⟨pending, hLength, hFew, hHolds, hOut⟩ := Base32.spells_start.foldl data
  have hAll := hOut []
  rw [List.nil_append, List.append_nil, List.append_nil] at hAll
  unfold base32Encode
  dsimp only
  rw [hAll]
  split
  · rename_i hSome
    have hLast : base32Symbols pending = [base32Symbol (value pending * 2 ^ (5 - pending.length))] := by
      unfold base32Symbols
      rw [groups_short (by omega) (by rintro rfl; rw [← hLength] at hSome; cases hSome)]
      rfl
    rw [hLast, ← hHolds.pad (n := 64) (by omega) (by decide), hLength]
    rfl
  · have hNone : pending = [] := List.eq_nil_of_length_eq_zero (by omega)
    rw [hNone, base32Symbols, groups_nil (by decide), List.map_nil, List.append_nil]

-- ---------------------------------------------------------------------------
-- Injectivity
-- ---------------------------------------------------------------------------

theorem bitsOf_length (data : Bytes) : (bitsOf data).length = 8 * data.length := by
  unfold bitsOf
  induction data with
  | nil => rfl
  | cons b data ih =>
    rw [List.flatMap_cons, List.length_append, ih, write_length, List.length_cons]
    omega

theorem bitsOf_injective : Function.Injective bitsOf := by
  intro xs ys h
  have hLength := congrArg List.length h
  rw [bitsOf_length, bitsOf_length] at hLength
  induction xs generalizing ys with
  | nil => exact (List.eq_nil_of_length_eq_zero (by simpa using hLength.symm)).symm
  | cons x xs ih =>
    cases ys with
    | nil => simp at hLength
    | cons y ys =>
      obtain ⟨hHead, hTail⟩ := List.append_inj h (by rw [write_length, write_length])
      have hValue := congrArg value hHead
      rw [value_write, value_write, Nat.mod_eq_of_lt x.toNat_lt, Nat.mod_eq_of_lt y.toNat_lt] at hValue
      rw [UInt8.toNat_inj.mp hValue, ih hTail (by simpa using hLength)]

/-- The symbols of the alphabet are different. -/
theorem idxOf_base32Symbols (bits : List Bool) :
    (base32Symbols bits).map base32Alphabet.idxOf = groups 5 bits := by
  have hSymbol : ∀ n < 32, base32Alphabet.idxOf (base32Symbol n) = n := by decide +kernel
  unfold base32Symbols
  rw [List.map_map]
  exact (List.map_congr_left fun g hg => hSymbol g (mem_groups_lt hg)).trans (List.map_id _)

theorem base32Encode_length (data : Bytes) : (base32Encode data).length = (8 * data.length + 4) / 5 := by
  rw [base32Encode_eq, String.length_ofList, base32Symbols, List.length_map, groups_length, bitsOf_length]

theorem base32Encode_inj {xs ys : Bytes} (hLength : xs.length = ys.length) (h : base32Encode xs = base32Encode ys) :
    xs = ys := by
  rw [base32Encode_eq, base32Encode_eq, String.ofList_inj] at h
  have hGroups : groups 5 (bitsOf xs) = groups 5 (bitsOf ys) := by
    rw [← idxOf_base32Symbols, h, idxOf_base32Symbols]
  refine bitsOf_injective (groups_injective (by decide) ?_ hGroups)
  rw [bitsOf_length, bitsOf_length, hLength]

/-- Base32 without padding: the bits of the data in groups of five, the last one
filled up with zeros, are looked up in the alphabet; the length is that of the
data by 8/5, rounded up; and data of one length are told apart. -/
theorem base32_grouping :
    (∀ data, base32Encode data = String.ofList ((groups 5 (bitsOf data)).map base32Symbol)) ∧
    (∀ data : Bytes, (base32Encode data).length = (8 * data.length + 4) / 5) ∧
    ∀ xs ys : Bytes, xs.length = ys.length → base32Encode xs = base32Encode ys → xs = ys :=
  ⟨base32Encode_eq, base32Encode_length, fun _ _ => base32Encode_inj⟩

/-- The vector of RFC 4648. -/
theorem base32_grouping_vector : base32Encode (utf8 "foobar") = "MZXW6YTBOI" := by
  rw [base32_grouping.1]
  decide +kernel

-- ---------------------------------------------------------------------------
-- Fingerprints
-- ---------------------------------------------------------------------------

/-- A blank before every fourth character but the first. -/
def spaced (chars : List Char) : List Char :=
  chars.zipIdx.flatMap fun (ch, i) => if 0 < i ∧ i % 4 = 0 then [' ', ch] else [ch]

/-- The first 20 bytes in base32, in groups of four. -/
def fingerprintFromDeviceId (id : Bytes) : String :=
  String.ofList (spaced (base32Encode (id.take 20)).toList)

def deviceId (env : MeshEnv) (ikX : RawKey) (ikSPub : Bytes) : Bytes :=
  (env.sha256 (utf8 "linkmesh-device-v1" ++ keyBytes ikX ++ ikSPub)).take 32

def fingerprint (env : MeshEnv) (ikX : RawKey) (ikSPub : Bytes) : String :=
  fingerprintFromDeviceId (deviceId env ikX ikSPub)

/-- Certificates carry the same ID in base64. -/
theorem deviceIdB64_eq (env : MeshEnv) (ikX : RawKey) (ikSPub : Bytes) :
    deviceIdB64 env ikX ikSPub = keyB64 (deviceId env ikX ikSPub) := rfl

/-- The blanks can be taken out again. -/
theorem filter_spaced {chars : List Char} (h : ' ' ∉ chars) : (spaced chars).filter (· ≠ ' ') = chars := by
  have hFrom : ∀ (cs : List Char) n, ' ' ∉ cs →
      ((cs.zipIdx n).flatMap fun (ch, i) => if 0 < i ∧ i % 4 = 0 then [' ', ch] else [ch]).filter (· ≠ ' ') = cs := by
    intro cs
    induction cs with
    | nil => exact fun _ _ => rfl
    | cons c cs ih =>
      intro n hNone
      obtain ⟨hHead, hTail⟩ := List.ne_and_not_mem_of_not_mem_cons hNone
      rw [List.zipIdx_cons, List.flatMap_cons, List.filter_append, ih (n + 1) hTail]
      dsimp only
      split <;> simp [Ne.symm hHead]
  exact hFrom chars 0 h

theorem blank_not_mem_base32 (data : Bytes) : ' ' ∉ (base32Encode data).toList := by
  have hSymbol : ∀ n < 32, base32Symbol n ≠ ' ' := by decide +kernel
  rw [base32Encode_eq, String.toList_ofList]
  intro hMem
  obtain ⟨g, hg, hBlank⟩ := List.mem_map.mp hMem
  exact hSymbol g (mem_groups_lt hg) hBlank

/-- A fingerprint tells the first 20 bytes of the ID. -/
theorem fingerprint_inj {id id' : Bytes} (hId : 20 ≤ id.length) (hId' : 20 ≤ id'.length)
    (h : fingerprintFromDeviceId id = fingerprintFromDeviceId id') : id.take 20 = id'.take 20 := by
  unfold fingerprintFromDeviceId at h
  have hText := congrArg (List.filter (· ≠ ' ')) (String.ofList_inj.mp h)
  rw [filter_spaced (blank_not_mem_base32 _), filter_spaced (blank_not_mem_base32 _), String.toList_inj] at hText
  refine base32Encode_inj ?_ hText
  rw [List.length_take, List.length_take, Nat.min_eq_left hId, Nat.min_eq_left hId']

end LinkMesh
