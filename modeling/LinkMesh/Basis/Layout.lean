import Mathlib.Algebra.GroupWithZero.Nat
import Mathlib.Data.List.Basic

/-!
# Fixed byte layouts

A record of fixed-width fields is the concatenation of its fields, and
`split` cuts the bytes at the widths; integers are little or big endian.

* `split_flatten`      — cutting a record gives its fields back.
* `leValue_leBytes`    — an integer that fits its field is read back.
-/

/-- A computation with `?` succeeds when its first step does and the rest does. -/
theorem bind_eq_ok {ε α β : Type} {x : Except ε α} {f : α → Except ε β} {b : β} :
    (x >>= f) = .ok b ↔ ∃ a, x = .ok a ∧ f a = .ok b := by
  cases x with
  | error e =>
    constructor
    · intro h
      cases h
    · rintro ⟨a, hFalse, _⟩
      cases hFalse
  | ok a =>
    constructor
    · intro h
      exact ⟨a, rfl, h⟩
    · rintro ⟨a', hEq, h⟩
      cases hEq
      exact h

theorem exists_bind_ok {ε α β : Type} {x : Except ε α} {f : α → Except ε β} {a : α}
    (h : x = .ok a) (hRest : ∃ b, f a = .ok b) : ∃ b, (x >>= f) = .ok b := by
  obtain ⟨b, hb⟩ := hRest
  exact ⟨b, bind_eq_ok.mpr ⟨a, h, hb⟩⟩

namespace Layout

/-- Cut a byte string at the given widths. -/
def split {α : Type} : List Nat → List α → List (List α)
  | [], _ => []
  | w :: ws, bs => bs.take w :: split ws (bs.drop w)

theorem split_flatten {α : Type} (fields : List (List α)) :
    split (fields.map List.length) fields.flatten = fields := by
  induction fields with
  | nil => rfl
  | cons f fs ih =>
    simp only [List.map_cons, List.flatten_cons, split, List.take_left, List.drop_left, ih]

/-- The fields of a record whose widths are known. -/
theorem split_of_widths {α : Type} {fields : List (List α)} {ws : List Nat}
    (h : fields.map List.length = ws) : split ws fields.flatten = fields := by
  rw [← h]
  exact split_flatten fields

/-- What stands behind the record does not matter. -/
theorem split_append {α : Type} {fields : List (List α)} {ws : List Nat} (h : fields.map List.length = ws)
    (rest : List α) : split ws (fields.flatten ++ rest) = fields := by
  induction fields generalizing ws with
  | nil =>
    rw [← h]
    rfl
  | cons f fs ih =>
    rw [← h]
    simp only [List.map_cons, List.flatten_cons, split, List.append_assoc, List.take_left, List.drop_left,
      ih rfl]

/-- Enough bytes are cut into fields of the given widths. -/
theorem split_lengths_le {α : Type} {ws : List Nat} {bs : List α} (h : ws.sum ≤ bs.length) :
    (split ws bs).map List.length = ws := by
  induction ws generalizing bs with
  | nil => rfl
  | cons w ws ih =>
    rw [List.sum_cons] at h
    have hHead : (bs.take w).length = w := by
      rw [List.length_take]
      omega
    have hTail : (split ws (bs.drop w)).map List.length = ws := by
      refine ih ?_
      rw [List.length_drop]
      omega
    show (bs.take w).length :: (split ws (bs.drop w)).map List.length = w :: ws
    rw [hHead, hTail]

theorem split_lengths {α : Type} {ws : List Nat} {bs : List α} (h : bs.length = ws.sum) :
    (split ws bs).map List.length = ws :=
  split_lengths_le (Nat.le_of_eq h.symm)

theorem flatten_split_take {α : Type} (ws : List Nat) (bs : List α) :
    (split ws bs).flatten = bs.take ws.sum := by
  induction ws generalizing bs with
  | nil => simp [split]
  | cons w ws ih =>
    show bs.take w ++ (split ws (bs.drop w)).flatten = bs.take (w :: ws).sum
    rw [ih, List.sum_cons, List.take_add]

theorem flatten_split {α : Type} {ws : List Nat} {bs : List α} (h : bs.length = ws.sum) :
    (split ws bs).flatten = bs := by
  rw [flatten_split_take, ← h, List.take_length]

/-- A record is its bytes, cut at the widths. -/
theorem flatten_eq_iff {α : Type} {ws : List Nat} {fields : List (List α)} {bs : List α}
    (hFields : fields.map List.length = ws) (h : bs.length = ws.sum) :
    fields.flatten = bs ↔ fields = split ws bs := by
  constructor
  · intro hEq
    rw [← hEq, split_of_widths hFields]
  · intro hEq
    rw [hEq, flatten_split h]

/-- The `n` low bytes of a number, the lowest first. -/
def leBytes : Nat → Nat → List UInt8
  | 0, _ => []
  | n + 1, v => UInt8.ofNat (v % 256) :: leBytes n (v / 256)

/-- The number that bytes spell, the lowest first. -/
def leValue : List UInt8 → Nat
  | [] => 0
  | b :: bs => b.toNat + 256 * leValue bs

/-- The `n` low bytes of a number, the highest first. -/
def beBytes (n v : Nat) : List UInt8 := (leBytes n v).reverse

/-- The number that bytes spell, the highest first. -/
def beValue (bs : List UInt8) : Nat := leValue bs.reverse

@[simp] theorem leBytes_length (n v : Nat) : (leBytes n v).length = n := by
  induction n generalizing v with
  | zero => rfl
  | succ n ih =>
    show (leBytes n (v / 256)).length + 1 = n + 1
    rw [ih]

@[simp] theorem beBytes_length (n v : Nat) : (beBytes n v).length = n := by
  unfold beBytes
  rw [List.length_reverse, leBytes_length]

theorem leBytes_leValue (bs : List UInt8) : leBytes bs.length (leValue bs) = bs := by
  induction bs with
  | nil => rfl
  | cons b bs ih =>
    have hb : b.toNat < 256 := b.toNat_lt
    have hLow : (b.toNat + 256 * leValue bs) % 256 = b.toNat := by omega
    have hHigh : (b.toNat + 256 * leValue bs) / 256 = leValue bs := by omega
    show UInt8.ofNat ((b.toNat + 256 * leValue bs) % 256) ::
      leBytes bs.length ((b.toNat + 256 * leValue bs) / 256) = b :: bs
    rw [hLow, hHigh, ih, UInt8.ofNat_toNat]

theorem leValue_leBytes {n v : Nat} (h : v < 256 ^ n) : leValue (leBytes n v) = v := by
  induction n generalizing v with
  | zero =>
    have hZero : v = 0 := by simpa using h
    rw [hZero]
    rfl
  | succ n ih =>
    have hRest : v / 256 < 256 ^ n := by
      rw [Nat.pow_succ] at h
      omega
    have hByte : (UInt8.ofNat (v % 256)).toNat = v % 256 := by simp
    show (UInt8.ofNat (v % 256)).toNat + 256 * leValue (leBytes n (v / 256)) = v
    rw [ih hRest, hByte]
    omega

theorem beValue_beBytes {n v : Nat} (h : v < 256 ^ n) : beValue (beBytes n v) = v := by
  unfold beValue beBytes
  rw [List.reverse_reverse, leValue_leBytes h]

theorem leValue_lt (bs : List UInt8) : leValue bs < 256 ^ bs.length := by
  induction bs with
  | nil => exact Nat.one_pos
  | cons b bs ih =>
    have hb : b.toNat < 256 := b.toNat_lt
    show b.toNat + 256 * leValue bs < 256 ^ (bs.length + 1)
    rw [Nat.pow_succ]
    omega

theorem beValue_lt (bs : List UInt8) : beValue bs < 256 ^ bs.length := by
  unfold beValue
  rw [← List.length_reverse]
  exact leValue_lt bs.reverse

theorem beBytes_beValue (bs : List UInt8) : beBytes bs.length (beValue bs) = bs := by
  unfold beValue beBytes
  rw [← List.length_reverse, leBytes_leValue, List.reverse_reverse]

end Layout
