import Std.Data.ExtTreeMap
import Mathlib.Data.List.Dedup

/-!
# Maps keyed by sequence numbers

Facts about `Std.ExtTreeMap` with natural-number keys in the form the window
proofs use them: updating one entry, retaining by key, and comparing sizes
through key sets.
-/

namespace SeqMap

open Std

variable {α β : Type}

theorem mem_insert {m : ExtTreeMap Nat α} {k j : Nat} {v : α} :
    j ∈ m.insert k v ↔ j = k ∨ j ∈ m := by
  rw [ExtTreeMap.mem_insert, LawfulEqCmp.compare_eq_iff_eq, eq_comm]

theorem getElem?_insert {m : ExtTreeMap Nat α} {k j : Nat} {v : α} :
    (m.insert k v)[j]? = if j = k then some v else m[j]? := by
  simp only [ExtTreeMap.getElem?_insert, LawfulEqCmp.compare_eq_iff_eq, eq_comm (a := k)]

theorem getElem?_erase {m : ExtTreeMap Nat α} {k j : Nat} :
    (m.erase k)[j]? = if j = k then none else m[j]? := by
  simp only [ExtTreeMap.getElem?_erase, LawfulEqCmp.compare_eq_iff_eq, eq_comm (a := k)]

theorem getElem?_modify {m : ExtTreeMap Nat α} {k j : Nat} {f : α → α} :
    (m.modify k f)[j]? = if j = k then m[j]?.map f else m[j]? := by
  simp only [ExtTreeMap.getElem?_modify, LawfulEqCmp.compare_eq_iff_eq, eq_comm (a := k)]
  split
  · rename_i h
    rw [h]
  · rfl

theorem modify_insert {m : ExtTreeMap Nat α} {k : Nat} {v : α} {f : α → α} :
    (m.insert k v).modify k f = m.insert k (f v) := by
  refine ExtTreeMap.ext_getElem? fun {j} => ?_
  simp only [getElem?_modify, getElem?_insert]
  split
  · rfl
  · rfl

/-- An entry that is there may be inserted again. -/
theorem insert_eq_self {m : ExtTreeMap Nat α} {k : Nat} {v : α} (h : m[k]? = some v) :
    m.insert k v = m := by
  refine ExtTreeMap.ext_getElem? fun {j} => ?_
  rw [getElem?_insert]
  split
  · rename_i hj
    rw [hj, h]
  · rfl

theorem modify_eq_insert {m : ExtTreeMap Nat α} {k : Nat} {v : α} {f : α → α} (h : m[k]? = some v) :
    m.modify k f = m.insert k (f v) := by
  rw [← modify_insert, insert_eq_self h]

theorem insert_insert {m : ExtTreeMap Nat α} {k : Nat} {v w : α} :
    (m.insert k v).insert k w = m.insert k w := by
  refine ExtTreeMap.ext_getElem? fun {j} => ?_
  simp only [getElem?_insert]
  split
  · rfl
  · rfl

/-- Retaining the entries whose key satisfies `p`. -/
theorem getElem?_retain {m : ExtTreeMap Nat α} {p : Nat → Bool} {j : Nat} :
    (m.filter fun k _ => p k)[j]? = if p j then m[j]? else none := by
  rw [ExtTreeMap.getElem?_filter']
  cases m[j]? <;> simp [Option.filter]

theorem mem_iff {m : ExtTreeMap Nat α} {j : Nat} : j ∈ m ↔ ∃ v, m[j]? = some v := by
  rw [← ExtTreeMap.isSome_getElem?_iff_mem, Option.isSome_iff_exists]

/-- A map whose keys are keys of another one is no larger. -/
theorem size_le_of_subset {m : ExtTreeMap Nat α} {m' : ExtTreeMap Nat β}
    (h : ∀ k ∈ m, k ∈ m') : m.size ≤ m'.size := by
  rw [← ExtTreeMap.length_keys, ← ExtTreeMap.length_keys]
  refine List.Nodup.length_le_of_subset ExtTreeMap.nodup_keys fun k hk => ?_
  exact ExtTreeMap.mem_keys.mpr (h k (ExtTreeMap.mem_keys.mp hk))

/-- The values are those of the entries. -/
theorem mem_values {m : ExtTreeMap Nat α} {v : α} : v ∈ m.values ↔ ∃ k : Nat, m[k]? = some v := by
  have hList : m.values = m.toList.map Prod.snd := by
    have hFold : m.values = m.foldr (fun _ v l => v :: l) [] := by
      obtain ⟨inner⟩ := m
      induction inner using ExtDTreeMap.inductionOn with
      | mk t => rfl
    rw [hFold, ExtTreeMap.foldr_eq_foldr_toList, List.map_eq_foldr]
  rw [hList, List.mem_map]
  constructor
  · rintro ⟨e, he, rfl⟩
    exact ⟨e.1, ExtTreeMap.mem_toList_iff_getElem?_eq_some.mp he⟩
  · rintro ⟨k, hk⟩
    exact ⟨(k, v), ExtTreeMap.mem_toList_iff_getElem?_eq_some.mpr hk, rfl⟩

end SeqMap
