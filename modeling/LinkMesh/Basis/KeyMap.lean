import Std.Data.ExtTreeMap
import Mathlib.Data.List.Perm.Subperm
import Mathlib.Logic.Basic

/-!
# Finite maps and their secondary indexes

Facts about `Std.ExtTreeMap` over any lawfully ordered keys, one lookup lemma
for each operation, and the theory of an index kept beside a map: `Indexes
attr m ix` says that `ix` finds exactly the entries of `m` by their attribute,
which also makes the attribute unique among the entries.

* `Indexes.erase`, `Indexes.insert` — dropping and adding an entry together
  with its binding keeps the index.
* `Indexes.key_eq` — two entries with one attribute are the same entry.
* `count_le`, `count_insert_le`, `count_erase_lt` — how many entries satisfy a
  predicate after a change of the map.
-/

namespace KeyMap

open Std

variable {κ ι ν : Type} [Ord κ] [TransOrd κ] [Ord ι] [TransOrd ι]

theorem mem_iff {m : ExtTreeMap κ ν} {k : κ} : k ∈ m ↔ ∃ v, m[k]? = some v := by
  rw [← ExtTreeMap.isSome_getElem?_iff_mem, Option.isSome_iff_exists]

/-- Erasing a list of keys. -/
def eraseAll (m : ExtTreeMap κ ν) (ks : List κ) : ExtTreeMap κ ν := ks.foldl (·.erase ·) m

/-- Erasing the key an option holds. -/
def eraseSome (m : ExtTreeMap κ ν) : Option κ → ExtTreeMap κ ν
  | some k => m.erase k
  | none => m

section Lookup

variable [LawfulEqOrd κ] [DecidableEq κ] {m : ExtTreeMap κ ν} {k j : κ} {v : ν}

theorem getElem?_insert : (m.insert k v)[j]? = if j = k then some v else m[j]? := by
  simp only [ExtTreeMap.getElem?_insert, LawfulEqCmp.compare_eq_iff_eq, eq_comm (a := k)]

theorem getElem?_erase : (m.erase k)[j]? = if j = k then none else m[j]? := by
  simp only [ExtTreeMap.getElem?_erase, LawfulEqCmp.compare_eq_iff_eq, eq_comm (a := k)]

/-- What is found after an erasure was there before, under another key. -/
theorem of_getElem?_erase {w : ν} (h : (m.erase k)[j]? = some w) : j ≠ k ∧ m[j]? = some w := by
  rw [getElem?_erase] at h
  split at h
  · cases h
  · rename_i hOther
    exact ⟨hOther, h⟩

/-- What is found after an insertion is what was inserted, or was there before. -/
theorem insert_cases {w : ν} (h : (m.insert k v)[j]? = some w) : (j = k ∧ w = v) ∨ m[j]? = some w := by
  rw [getElem?_insert] at h
  split at h
  · rename_i hSame
    exact .inl ⟨hSame, (Option.some.inj h).symm⟩
  · exact .inr h

/-- Erasing an entry, unless it has another value. -/
theorem getElem?_erase_owned [DecidableEq ν] {w : ν} :
    (if m[k]? = some v then m.erase k else m)[j]? = some w ↔ m[j]? = some w ∧ ¬ (w = v ∧ k = j) := by
  split
  · rename_i hOwned
    rw [getElem?_erase]
    by_cases hj : j = k
    · subst hj
      simp [hOwned, eq_comm]
    · simp [hj, Ne.symm hj]
  · rename_i hOther
    refine ⟨fun h => ⟨h, ?_⟩, And.left⟩
    rintro ⟨rfl, rfl⟩
    exact hOther h

theorem erase_comm : (m.erase k).erase j = (m.erase j).erase k := by
  refine ExtTreeMap.ext_getElem? fun {i} => ?_
  simp only [getElem?_erase]
  by_cases hi : i = j <;> simp [hi]

theorem getElem?_eraseAll {ks : List κ} :
    (eraseAll m ks)[j]? = if j ∈ ks then none else m[j]? := by
  induction ks generalizing m with
  | nil => rfl
  | cons k ks ih =>
    show (eraseAll (m.erase k) ks)[j]? = _
    rw [ih, getElem?_erase]
    by_cases hj : j = k <;> simp [hj]

theorem of_getElem?_eraseAll {ks : List κ} (h : (eraseAll m ks)[j]? = some v) : j ∉ ks ∧ m[j]? = some v := by
  rw [getElem?_eraseAll] at h
  split at h
  · cases h
  · rename_i hOther
    exact ⟨hOther, h⟩

theorem getElem?_eraseSome {o : Option κ} :
    (eraseSome m o)[j]? = if o = some j then none else m[j]? := by
  cases o with
  | none => rfl
  | some k =>
    show (m.erase k)[j]? = _
    simp only [getElem?_erase, Option.some.injEq, eq_comm (a := k)]

theorem of_getElem?_eraseSome {o : Option κ} (h : (eraseSome m o)[j]? = some v) : o ≠ some j ∧ m[j]? = some v := by
  rw [getElem?_eraseSome] at h
  split at h
  · cases h
  · rename_i hOther
    exact ⟨hOther, h⟩

end Lookup

-- ---------------------------------------------------------------------------
-- Counting entries
-- ---------------------------------------------------------------------------

section Count

/-- The keys of the entries that satisfy the predicate. -/
def keysWhere (p : ν → Bool) (m : ExtTreeMap κ ν) : List κ := (m.toList.filter fun e => p e.2).map (·.1)

/-- How many entries satisfy the predicate. -/
def count (p : ν → Bool) (m : ExtTreeMap κ ν) : Nat := (m.toList.filter fun e => p e.2).length

variable {p : ν → Bool} {m m' : ExtTreeMap κ ν} {k : κ} {v : ν}

theorem length_keysWhere : (keysWhere p m).length = count p m := List.length_map _

theorem count_true : count (fun _ => true) m = m.size := by
  unfold count
  rw [List.filter_true, ExtTreeMap.length_toList]

variable [LawfulEqOrd κ]

theorem mem_keysWhere : k ∈ keysWhere p m ↔ ∃ v, m[k]? = some v ∧ p v := by
  unfold keysWhere
  simp only [List.mem_map, List.mem_filter, Prod.exists]
  constructor
  · rintro ⟨k, v, ⟨hMem, hp⟩, rfl⟩
    exact ⟨v, ExtTreeMap.mem_toList_iff_getElem?_eq_some.mp hMem, hp⟩
  · rintro ⟨v, hv, hp⟩
    exact ⟨k, v, ⟨ExtTreeMap.mem_toList_iff_getElem?_eq_some.mpr hv, hp⟩, rfl⟩

theorem nodup_keysWhere : (keysWhere p m).Nodup := by
  have hDistinct := (ExtTreeMap.distinct_keys_toList (t := m)).filter fun e => p e.2
  exact List.pairwise_map.mpr (hDistinct.imp fun hNe hEq => hNe (LawfulEqCmp.compare_eq_iff_eq.mpr hEq))

theorem count_le_of_subset {ks : List κ} (h : keysWhere p m ⊆ ks) : count p m ≤ ks.length := by
  rw [← length_keysWhere]
  exact (nodup_keysWhere.subperm h).length_le

/-- Every entry that counts now counted before. -/
theorem count_le (h : ∀ (k : κ) v', m'[k]? = some v' → p v' → ∃ v, m[k]? = some v ∧ p v) :
    count p m' ≤ count p m := by
  rw [← length_keysWhere (m := m)]
  refine count_le_of_subset fun k hk => ?_
  obtain ⟨v', hv', hp⟩ := mem_keysWhere.mp hk
  exact mem_keysWhere.mpr (h k v' hv' hp)

variable [DecidableEq κ]

/-- A new entry counts once at most. -/
theorem count_insert_le : count p (m.insert k v) ≤ count p m + if p v then 1 else 0 := by
  split
  · rw [← length_keysWhere (m := m)]
    show count p (m.insert k v) ≤ (k :: keysWhere p m).length
    refine count_le_of_subset fun j hj => ?_
    obtain ⟨w, hw, hp⟩ := mem_keysWhere.mp hj
    rcases insert_cases hw with ⟨rfl, _⟩ | hOld
    · exact List.mem_cons_self ..
    · exact List.mem_cons_of_mem _ (mem_keysWhere.mpr ⟨w, hOld, hp⟩)
  · rename_i hNot
    refine count_le fun j w hw hp => ?_
    rcases insert_cases hw with ⟨_, rfl⟩ | hOld
    · exact absurd hp hNot
    · exact ⟨w, hOld, hp⟩

/-- Erasing an entry that counts makes room. -/
theorem count_erase_lt (h : m[k]? = some v) (hp : p v) : count p (m.erase k) < count p m := by
  have hGone : k ∉ keysWhere p (m.erase k) := by
    intro hMem
    obtain ⟨w, hw, _⟩ := mem_keysWhere.mp hMem
    rw [getElem?_erase, if_pos rfl] at hw
    cases hw
  have hSub : k :: keysWhere p (m.erase k) ⊆ keysWhere p m := by
    intro j hj
    rcases List.mem_cons.mp hj with rfl | hRest
    · exact mem_keysWhere.mpr ⟨v, h, hp⟩
    · obtain ⟨w, hw, hpw⟩ := mem_keysWhere.mp hRest
      exact mem_keysWhere.mpr ⟨w, (of_getElem?_erase hw).2, hpw⟩
  have hLength := ((List.nodup_cons.mpr ⟨hGone, nodup_keysWhere⟩).subperm hSub).length_le
  rw [List.length_cons, length_keysWhere, length_keysWhere] at hLength
  exact hLength

end Count

-- ---------------------------------------------------------------------------
-- Secondary indexes
-- ---------------------------------------------------------------------------

/-- The index finds exactly the entries of the map by their attribute. -/
def Indexes (attr : ν → Option ι) (m : ExtTreeMap κ ν) (ix : ExtTreeMap ι κ) : Prop :=
  ∀ i k, ix[i]? = some k ↔ ∃ v, m[k]? = some v ∧ attr v = some i

namespace Indexes

variable {attr : ν → Option ι} {m : ExtTreeMap κ ν} {ix : ExtTreeMap ι κ} {k k' : κ} {i : ι} {v v' : ν}

theorem empty : Indexes attr (∅ : ExtTreeMap κ ν) (∅ : ExtTreeMap ι κ) := by
  intro i k
  simp

/-- An indexed attribute belongs to one entry. -/
theorem key_eq (h : Indexes attr m ix) (hk : m[k]? = some v) (hv : attr v = some i)
    (hk' : m[k']? = some v') (hv' : attr v' = some i) : k = k' := by
  have hOne : ix[i]? = some k := (h i k).mpr ⟨v, hk, hv⟩
  have hTwo : ix[i]? = some k' := (h i k').mpr ⟨v', hk', hv'⟩
  rw [hOne] at hTwo
  exact Option.some.inj hTwo

/-- No binding is left for an attribute no entry carries. -/
theorem eq_none (h : Indexes attr m ix) (hNone : ∀ (k : κ) v, m[k]? = some v → attr v ≠ some i) :
    ix[i]? = none := by
  cases hi : ix[i]? with
  | none => rfl
  | some k =>
    obtain ⟨v, hk, hv⟩ := (h i k).mp hi
    exact absurd hv (hNone k v hk)

variable [LawfulEqOrd κ] [DecidableEq κ]

/-- An entry without the attribute has no binding to drop. -/
theorem erase_of_none (h : Indexes attr m ix) (hNone : ∀ v, m[k]? = some v → attr v = none) :
    Indexes attr (m.erase k) ix := by
  intro i j
  rw [h i j, getElem?_erase]
  by_cases hj : j = k
  · subst hj
    simp only [if_true]
    constructor
    · rintro ⟨v, hv, hAttr⟩
      rw [hNone v hv] at hAttr
      cases hAttr
    · rintro ⟨v, hv, _⟩
      cases hv
  · simp [hj]

theorem insert_of_none (h : Indexes attr (m.erase k) ix) (hv : attr v = none) :
    Indexes attr (m.insert k v) ix := by
  intro i j
  rw [h i j, getElem?_erase, getElem?_insert]
  by_cases hj : j = k
  · simp [hj, hv]
  · simp [hj]

/-- An entry changes, but not its attribute. -/
theorem replace {w : ν} (h : Indexes attr m ix) (hk : m[k]? = some v) (hw : attr w = attr v) :
    Indexes attr (m.insert k w) ix := by
  intro i j
  rw [h i j, getElem?_insert]
  by_cases hj : j = k
  · simp [hj, hk, hw]
  · simp [hj]

variable [LawfulEqOrd ι] [DecidableEq ι]

/-- An entry and its binding are dropped together. -/
theorem erase (h : Indexes attr m ix) (hk : m[k]? = some v) :
    Indexes attr (m.erase k) (eraseSome ix (attr v)) := by
  intro i j
  rw [getElem?_eraseSome, getElem?_erase]
  by_cases hv : attr v = some i
  · simp only [hv, if_true]
    constructor
    · intro hFalse
      cases hFalse
    · rintro ⟨w, hw, hAttr⟩
      by_cases hj : j = k
      · simp [hj] at hw
      · simp only [hj, if_false] at hw
        exact absurd (h.key_eq hw hAttr hk hv) hj
  · simp only [hv, if_false]
    rw [h i j]
    by_cases hj : j = k
    · subst hj
      simp [hk, hv]
    · simp [hj]

/-- An entry is put in with its attribute, which nothing else carries. -/
theorem insert (h : Indexes attr (m.erase k) ix) (hv : attr v = some i) (hFree : ix[i]? = none) :
    Indexes attr (m.insert k v) (ix.insert i k) := by
  intro i' j
  have hRest := h i' j
  simp only [getElem?_erase] at hRest
  simp only [getElem?_insert]
  by_cases hj : j = k
  · subst hj
    by_cases hi : i' = i
    · subst hi
      simp [hv]
    · simp only [hi, if_false, hRest, if_true]
      simp [hv, eq_comm (a := i), hi]
  · simp only [hj, if_false] at hRest ⊢
    by_cases hi : i' = i
    · subst hi
      rw [hFree] at hRest
      simp only [if_true, ← hRest]
      simp [eq_comm (a := k), hj]
    · simp only [hi, if_false, hRest]

end Indexes

end KeyMap
