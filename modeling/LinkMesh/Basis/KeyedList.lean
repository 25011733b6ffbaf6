import Mathlib.Data.List.Nodup

/-!
# Tables as lists of entries with a key

A table kept as a list: an entry is updated in place or appended, and removed
by its key.

## Results

* `mem_upsert`           — an update replaces the entry of its key, and no other.
* `remove_upsert_eq_iff` — what was appended is taken back by its own key only.
-/

namespace KeyedList

variable {α κ : Type} [DecidableEq κ] (key : α → κ)

/-- Put in the place of the first entry with this key, or appended. -/
def upsert (a : α) : List α → List α
  | [] => [a]
  | b :: l => if key b = key a then a :: l else b :: upsert a l

/-- Without the entries of this key. -/
def remove (k : κ) (l : List α) : List α := l.filter fun a => key a ≠ k

variable {key} {a b : α} {k : κ} {l : List α}

theorem upsert_of_notMem (h : key a ∉ l.map key) : upsert key a l = l ++ [a] := by
  induction l with
  | nil => rfl
  | cons b l ih =>
    rw [List.map_cons, List.mem_cons, not_or] at h
    unfold upsert
    rw [if_neg (Ne.symm h.1), ih h.2]
    rfl

/-- With unique keys an update replaces the entry of its key, and no other. -/
theorem mem_upsert (h : (l.map key).Nodup) :
    b ∈ upsert key a l ↔ b = a ∨ (b ∈ l ∧ key b ≠ key a) := by
  induction l with
  | nil => simp [upsert]
  | cons c l ih =>
    rw [List.map_cons, List.nodup_cons] at h
    unfold upsert
    split
    · rename_i hSame
      have hOther : b ∈ l → key b ≠ key a := fun hb hKey =>
        h.1 (List.mem_map.mpr ⟨b, hb, hKey.trans hSame.symm⟩)
      rw [List.mem_cons, List.mem_cons]
      constructor
      · rintro (rfl | hb)
        · exact .inl rfl
        · exact .inr ⟨.inr hb, hOther hb⟩
      · rintro (rfl | ⟨rfl | hb, hNe⟩)
        · exact .inl rfl
        · exact absurd hSame hNe
        · exact .inr hb
    · rename_i hNe
      rw [List.mem_cons, List.mem_cons, ih h.2]
      constructor
      · rintro (rfl | rfl | ⟨hb, hOther⟩)
        · exact .inr ⟨.inl rfl, hNe⟩
        · exact .inl rfl
        · exact .inr ⟨.inr hb, hOther⟩
      · rintro (rfl | ⟨rfl | hb, hOther⟩)
        · exact .inr (.inl rfl)
        · exact .inl rfl
        · exact .inr (.inr ⟨hb, hOther⟩)

theorem mem_upsert_self : a ∈ upsert key a l := by
  induction l with
  | nil => exact List.mem_singleton_self a
  | cons b l ih =>
    unfold upsert
    split
    · exact List.mem_cons_self ..
    · exact List.mem_cons_of_mem _ ih

theorem mem_keys_upsert : k ∈ (upsert key a l).map key ↔ k = key a ∨ k ∈ l.map key := by
  induction l with
  | nil => simp [upsert]
  | cons b l ih =>
    unfold upsert
    split
    · rename_i hSame
      rw [List.map_cons, List.map_cons, List.mem_cons, List.mem_cons, hSame]
      exact ⟨Or.inr, fun h => h.elim .inl id⟩
    · rw [List.map_cons, List.map_cons, List.mem_cons, List.mem_cons, ih]
      exact or_left_comm

theorem nodup_upsert (h : (l.map key).Nodup) : ((upsert key a l).map key).Nodup := by
  induction l with
  | nil => exact List.nodup_singleton _
  | cons b l ih =>
    rw [List.map_cons, List.nodup_cons] at h
    unfold upsert
    split
    · rename_i hSame
      rw [List.map_cons, List.nodup_cons]
      exact ⟨hSame ▸ h.1, h.2⟩
    · rename_i hNe
      rw [List.map_cons, List.nodup_cons, mem_keys_upsert]
      exact ⟨fun hMem => hMem.elim hNe h.1, ih h.2⟩

theorem find?_upsert :
    (upsert key a l).find? (key · = k) = if key a = k then some a else l.find? (key · = k) := by
  induction l with
  | nil =>
    unfold upsert
    rw [List.find?_cons]
    by_cases hKey : key a = k
    · rw [decide_eq_true hKey, if_pos hKey]
    · rw [decide_eq_false hKey, if_neg hKey]
  | cons b l ih =>
    unfold upsert
    split
    · rename_i hSame
      rw [List.find?_cons, List.find?_cons, hSame]
      by_cases hKey : key a = k
      · rw [decide_eq_true hKey, if_pos hKey]
      · rw [decide_eq_false hKey, if_neg hKey]
    · rename_i hNe
      rw [List.find?_cons, List.find?_cons, ih]
      by_cases hKey : key b = k
      · rw [decide_eq_true hKey]
        exact (if_neg fun h => hNe (hKey.trans h.symm)).symm
      · rw [decide_eq_false hKey]

theorem mem_remove : b ∈ remove key k l ↔ b ∈ l ∧ key b ≠ k := by
  unfold remove
  rw [List.mem_filter, decide_eq_true_iff]

theorem nodup_remove (h : (l.map key).Nodup) : ((remove key k l).map key).Nodup :=
  h.sublist (List.filter_sublist.map key)

theorem remove_of_notMem (h : k ∉ l.map key) : remove key k l = l := by
  refine List.filter_eq_self.mpr fun b hb => decide_eq_true fun hKey => h ?_
  exact hKey ▸ List.mem_map_of_mem hb

/-- An entry goes iff there is one with this key. -/
theorem length_remove_ne_iff : (remove key k l).length ≠ l.length ↔ k ∈ l.map key := by
  constructor
  · intro h
    by_contra hNew
    exact h (congrArg List.length (remove_of_notMem hNew))
  · intro h hLength
    obtain ⟨b, hb, rfl⟩ := List.mem_map.mp h
    have hSame := (List.filter_sublist (p := fun a => key a ≠ key b)).eq_of_length hLength
    exact (mem_remove.mp (hSame.symm ▸ hb)).2 rfl

/-- What was appended can be taken back. -/
theorem remove_upsert_of_notMem (h : key a ∉ l.map key) :
    remove key (key a) (upsert key a l) = l := by
  rw [upsert_of_notMem h]
  unfold remove
  rw [List.filter_append, List.filter_cons_of_neg (by simp), List.filter_nil, List.append_nil]
  exact remove_of_notMem h

/-- Only under its own key. -/
theorem remove_upsert_eq_iff (h : key a ∉ l.map key) :
    remove key k (upsert key a l) = l ↔ key a = k := by
  constructor
  · intro hBack
    by_contra hOther
    have hMem : a ∈ remove key k (upsert key a l) := by
      rw [upsert_of_notMem h]
      exact mem_remove.mpr ⟨List.mem_concat_self .., hOther⟩
    rw [hBack] at hMem
    exact h (List.mem_map_of_mem hMem)
  · rintro rfl
    exact remove_upsert_of_notMem h

-- ---------------------------------------------------------------------------
-- Searches
-- ---------------------------------------------------------------------------

/-- With unique keys the search for a key finds its entry. -/
theorem find?_key_eq_some (h : (l.map key).Nodup) :
    l.find? (fun b => key b = k) = some a ↔ a ∈ l ∧ key a = k := by
  constructor
  · intro hFind
    exact ⟨List.mem_of_find?_eq_some hFind, by simpa using List.find?_some hFind⟩
  · rintro ⟨ha, hKey⟩
    cases hFind : l.find? fun b => key b = k with
    | none =>
      rw [List.find?_eq_none] at hFind
      exact absurd (decide_eq_true hKey) (hFind a ha)
    | some b =>
      have hSame : key b = k := by simpa using List.find?_some hFind
      rw [List.inj_on_of_nodup_map h (List.mem_of_find?_eq_some hFind) ha (hSame.trans hKey.symm)]

/-- The first match is also the first among those that satisfy more. -/
theorem find?_filter_of_first {p q : α → Bool} (h : l.find? q = some a) (hp : p a = true) :
    (l.filter p).find? q = some a := by
  induction l with
  | nil => cases h
  | cons b l ih =>
    by_cases hHead : q b = true
    · rw [List.find?_cons_of_pos hHead] at h
      cases h
      rw [List.filter_cons_of_pos hp, List.find?_cons_of_pos hHead]
    · rw [List.find?_cons_of_neg hHead] at h
      by_cases hKeep : p b = true
      · rw [List.filter_cons_of_pos hKeep, List.find?_cons_of_neg hHead]
        exact ih h
      · rw [List.filter_cons_of_neg hKeep]
        exact ih h

end KeyedList
