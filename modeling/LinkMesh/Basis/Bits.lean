import Mathlib.Algebra.GroupWithZero.Nat
import Mathlib.Data.List.Induction
import Mathlib.Data.Nat.Bitwise

/-!
# Bits in groups

Numbers as their bits, the highest first, a string of bits cut into groups of
one width, and an accumulator from which such groups are taken: it is shifted
for every number that comes in, and never masked.

* `value_injective`  — bits of one number and length are the same.
* `groups_injective` — so are bits of one length with the same groups.
* `Holds.push`, `Holds.pop` — what the low bits of an accumulator are.
-/

namespace Bits

/-- The number that bits spell. -/
def value (bits : List Bool) : Nat := bits.foldl (fun v bit => 2 * v + bit.toNat) 0

/-- The `width` low bits of a number. -/
def write (width v : Nat) : List Bool := (List.range width).map fun i => v.testBit (width - 1 - i)

/-- Groups of `width` bits; zeros stand for what the last one lacks. -/
def groups (width : Nat) (bits : List Bool) : List Nat :=
  (List.range ((bits.length + (width - 1)) / width)).map fun i =>
    value ((List.range width).map fun j => bits.getD (i * width + j) false)

variable {width n v : Nat} {xs ys : List Bool}

-- ---------------------------------------------------------------------------
-- Numbers
-- ---------------------------------------------------------------------------

theorem value_append (xs ys : List Bool) : value (xs ++ ys) = value xs * 2 ^ ys.length + value ys := by
  have hFold : ∀ v, ys.foldl (fun v bit => 2 * v + bit.toNat) v = v * 2 ^ ys.length + value ys := by
    induction ys with
    | nil => exact fun v => (Nat.mul_one v).symm
    | cons bit ys ih =>
      intro v
      unfold value
      rw [List.foldl_cons, List.foldl_cons, ih, ih, List.length_cons, Nat.pow_succ', ← Nat.mul_assoc,
        Nat.add_mul, Nat.mul_comm 2 v, Nat.mul_zero, Nat.zero_add, Nat.add_assoc]
  unfold value
  rw [List.foldl_append, hFold]
  rfl

theorem value_singleton (bit : Bool) : value [bit] = bit.toNat := by
  cases bit <;> rfl

theorem value_lt (bits : List Bool) : value bits < 2 ^ bits.length := by
  induction bits using List.reverseRecOn with
  | nil => exact Nat.one_pos
  | append_singleton bits bit ih =>
    have hBit : bit.toNat ≤ 1 := Bool.toNat_le bit
    rw [value_append, value_singleton, List.length_append, List.length_singleton, pow_succ]
    omega

/-- Bits of one length are told apart by their number. -/
theorem value_injective (hLength : xs.length = ys.length) (h : value xs = value ys) : xs = ys := by
  induction xs using List.reverseRecOn generalizing ys with
  | nil => exact (List.eq_nil_of_length_eq_zero hLength.symm).symm
  | append_singleton xs bit ih =>
    rcases List.eq_nil_or_concat ys with rfl | ⟨ys, bit', rfl⟩
    · simp at hLength
    · rw [List.concat_eq_append] at hLength h ⊢
      rw [List.length_append, List.length_append] at hLength
      rw [value_append, value_append, value_singleton, value_singleton] at h
      have hLe : bit.toNat ≤ 1 := Bool.toNat_le bit
      have hLe' : bit'.toNat ≤ 1 := Bool.toNat_le bit'
      simp only [List.length_singleton, Nat.pow_one] at h
      have hInit : xs = ys := ih (Nat.add_right_cancel hLength) (by omega)
      have hDigit : ∀ b b' : Bool, b.toNat = b'.toNat → b = b' := by decide
      have hLast : bit = bit' := hDigit bit bit' (by omega)
      rw [hInit, hLast]

theorem value_replicate_false (n : Nat) : value (List.replicate n false) = 0 := by
  induction n with
  | zero => rfl
  | succ n ih =>
    rw [List.replicate_succ', value_append, ih]
    rfl

@[simp] theorem write_length : (write width v).length = width := by
  unfold write
  rw [List.length_map, List.length_range]

theorem value_write : value (write width v) = v % 2 ^ width := by
  have hSucc : ∀ n, write (n + 1) v = v.testBit n :: write n v := by
    intro n
    unfold write
    rw [List.range_succ_eq_map, List.map_cons, List.map_map]
    refine congrArg₂ _ rfl (List.map_congr_left fun i _ => ?_)
    show v.testBit (n + 1 - 1 - (i + 1)) = v.testBit (n - 1 - i)
    congr 1
    omega
  induction width with
  | zero => rw [pow_zero, Nat.mod_one]; rfl
  | succ n ih =>
    have hCons : write (n + 1) v = [v.testBit n] ++ write n v := hSucc n
    rw [hCons, value_append, value_singleton, ih, write_length, Nat.mod_pow_succ, Nat.toNat_testBit,
      Nat.mul_comm, Nat.add_comm]

-- ---------------------------------------------------------------------------
-- Groups
-- ---------------------------------------------------------------------------

theorem groups_length : (groups width xs).length = (xs.length + (width - 1)) / width := by
  unfold groups
  rw [List.length_map, List.length_range]

theorem groups_nil (hWidth : 0 < width) : groups width [] = [] := by
  refine List.eq_nil_of_length_eq_zero ?_
  rw [groups_length]
  exact Nat.div_eq_of_lt (by rw [List.length_nil]; omega)

/-- The first group and those behind it. -/
theorem groups_append (hWidth : 0 < width) (hx : xs.length = width) (ys : List Bool) :
    groups width (xs ++ ys) = value xs :: groups width ys := by
  have hCount : ((xs ++ ys).length + (width - 1)) / width = (ys.length + (width - 1)) / width + 1 := by
    rw [List.length_append, hx, Nat.add_assoc, Nat.add_comm width, Nat.add_div_right _ hWidth]
  unfold groups
  rw [hCount, List.range_succ_eq_map, List.map_cons, List.map_map]
  refine congrArg₂ _ (congrArg value ?_) (List.map_congr_left fun i _ => congrArg value ?_)
  · refine List.ext_getElem (by simp [hx]) fun j hj hj' => ?_
    rw [List.getElem_map, List.getElem_range, Nat.zero_mul, Nat.zero_add, List.getD_append _ _ _ _ hj',
      List.getD_eq_getElem _ _ hj']
  · refine List.map_congr_left fun j _ => ?_
    have hBehind : (i + 1) * width + j - xs.length = i * width + j := by
      rw [hx, Nat.succ_mul]
      omega
    rw [List.getD_append_right, hBehind]
    rw [hx, Nat.succ_mul]
    omega

/-- What is left at the end makes one group. -/
theorem groups_short (hFew : xs.length ≤ width) (hSome : xs ≠ []) :
    groups width xs = [value xs * 2 ^ (width - xs.length)] := by
  have hPos : 0 < xs.length := List.length_pos_iff.mpr hSome
  have hLength : (xs ++ List.replicate (width - xs.length) false).length = width := by
    rw [List.length_append, List.length_replicate]
    omega
  have hPadded : groups width xs = groups width (xs ++ List.replicate (width - xs.length) false) := by
    have hCount : ∀ n, 0 < n → n ≤ width → (n + (width - 1)) / width = 1 := by
      intro n hn hLe
      exact Nat.div_eq_of_lt_le (by omega) (by omega)
    unfold groups
    rw [hLength, hCount _ hPos hFew, hCount _ (by omega) (Nat.le_refl _)]
    refine List.map_congr_left fun i _ => congrArg value (List.map_congr_left fun j _ => ?_)
    by_cases hIn : i * width + j < xs.length
    · rw [List.getD_append _ _ _ _ hIn]
    · rw [List.getD_append_right _ _ _ _ (by omega), List.getD_eq_default _ _ (by omega)]
      rw [List.getD_eq_getElem?_getD, List.getElem?_replicate]
      split <;> rfl
  have hWhole := groups_append (Nat.lt_of_lt_of_le hPos hFew) hLength []
  rw [List.append_nil, groups_nil (by omega)] at hWhole
  rw [hPadded, hWhole, value_append, value_replicate_false, List.length_replicate, Nat.add_zero]

theorem mem_groups_lt {g : Nat} (h : g ∈ groups width xs) : g < 2 ^ width := by
  unfold groups at h
  obtain ⟨i, _, rfl⟩ := List.mem_map.mp h
  refine Nat.lt_of_lt_of_le (value_lt _) (Nat.le_of_eq ?_)
  rw [List.length_map, List.length_range]

/-- Bits of one length are told apart by their groups. -/
theorem groups_injective (hWidth : 0 < width) (hLength : xs.length = ys.length)
    (h : groups width xs = groups width ys) : xs = ys := by
  refine List.ext_getElem hLength fun n hx hy => ?_
  have hIndex : n / width < (xs.length + (width - 1)) / width := by
    rw [Nat.div_lt_iff_lt_mul hWidth]
    have hSplit := Nat.div_add_mod (xs.length + (width - 1)) width
    have hRest := Nat.mod_lt (xs.length + (width - 1)) hWidth
    rw [Nat.mul_comm] at hSplit
    omega
  unfold groups at h
  rw [← hLength] at h
  have hGroup := List.map_inj_left.mp h (n / width) (List.mem_range.mpr hIndex)
  have hBits := value_injective (by simp) hGroup
  have hBit := List.map_inj_left.mp hBits (n % width) (List.mem_range.mpr (Nat.mod_lt n hWidth))
  rw [Nat.mul_comm, Nat.div_add_mod, List.getD_eq_getElem _ _ hx, List.getD_eq_getElem _ _ hy] at hBit
  exact hBit

-- ---------------------------------------------------------------------------
-- Accumulators
-- ---------------------------------------------------------------------------

/-- The low bits of the accumulator; what stands above them is left over. -/
def Holds (acc : Nat) (bits : List Bool) : Prop := acc % 2 ^ bits.length = value bits

theorem holds_nil (acc : Nat) : Holds acc [] := Nat.mod_one acc

/-- A number is shifted into an accumulator that is wide enough for the bits that
count. -/
theorem Holds.push {acc : Nat} (h : Holds acc xs) (hRoom : xs.length + width ≤ n) (hv : v < 2 ^ width) :
    Holds (acc <<< width % 2 ^ n ||| v) (xs ++ write width v) := by
  have hShift : acc <<< width % 2 ^ n = (acc % 2 ^ (n - width)) <<< width := by
    rw [Nat.shiftLeft_eq, Nat.shiftLeft_eq, ← Nat.mul_mod_mul_right, ← Nat.pow_add]
    congr 2
    omega
  have hKept : 2 ^ xs.length ∣ 2 ^ (n - width) := Nat.pow_dvd_pow 2 (by omega)
  unfold Holds
  rw [hShift, ← Nat.shiftLeft_add_eq_or_of_lt hv, value_append, value_write, Nat.mod_eq_of_lt hv,
    List.length_append, write_length, Nat.shiftLeft_eq, Nat.add_comm xs.length, Nat.pow_add,
    Nat.mul_comm _ (2 ^ width), Nat.mod_mul, Nat.mul_add_mod, Nat.mod_eq_of_lt hv,
    Nat.mul_add_div (Nat.two_pow_pos width), Nat.div_eq_of_lt hv, Nat.add_zero, Nat.mod_mod_of_dvd _ hKept, h,
    Nat.add_comm, Nat.mul_comm]

/-- The highest of the bits that count are read, and the others remain. -/
theorem Holds.pop {acc : Nat} (h : Holds acc (xs ++ ys)) :
    acc >>> ys.length &&& (2 ^ xs.length - 1) = value xs ∧ Holds acc ys := by
  unfold Holds at h
  rw [List.length_append, Nat.add_comm, Nat.pow_add, Nat.mod_mul, value_append] at h
  have hLow : value ys < 2 ^ ys.length := value_lt ys
  have hRest : acc % 2 ^ ys.length < 2 ^ ys.length := Nat.mod_lt _ (Nat.two_pow_pos _)
  have hBoth := congrArg (· / 2 ^ ys.length) h
  have hMod := congrArg (· % 2 ^ ys.length) h
  rw [Nat.add_mul_div_left _ _ (Nat.two_pow_pos _), Nat.div_eq_of_lt hRest, Nat.zero_add,
    Nat.add_comm, Nat.add_mul_div_right _ _ (Nat.two_pow_pos _), Nat.div_eq_of_lt hLow, Nat.zero_add] at hBoth
  rw [Nat.add_mul_mod_self_left, Nat.mod_mod, Nat.add_comm, Nat.add_mul_mod_self_right, Nat.mod_eq_of_lt hLow]
    at hMod
  refine ⟨?_, hMod⟩
  rw [Nat.and_two_pow_sub_one_eq_mod, Nat.shiftRight_eq_div_pow]
  exact hBoth

/-- The last bits are moved to the top of their group. -/
theorem Holds.pad {acc : Nat} (h : Holds acc xs) (hFew : xs.length ≤ width) (hSize : width ≤ n) :
    acc <<< (width - xs.length) % 2 ^ n &&& (2 ^ width - 1) = value xs * 2 ^ (width - xs.length) := by
  have hWidth : 2 ^ width = 2 ^ xs.length * 2 ^ (width - xs.length) := by
    rw [← Nat.pow_add]
    congr 1
    omega
  rw [Nat.and_two_pow_sub_one_eq_mod, Nat.mod_mod_of_dvd _ (Nat.pow_dvd_pow 2 hSize), Nat.shiftLeft_eq, hWidth,
    Nat.mul_mod_mul_right, h]

end Bits
