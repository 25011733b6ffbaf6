import LinkMesh.Basis.KeyMap

/-!
# Maps whose entries go stale

A finite map that keeps the time of each entry beside its value. `fresh` looks
an entry up as long as it is younger than the time to live.
-/

namespace TtlMap

open Std

variable {κ ν : Type} [Ord κ] [TransOrd κ] [LawfulEqOrd κ] [DecidableEq κ]
  {m : ExtTreeMap κ (ν × Nat)} {ttl now t : Nat} {k j : κ} {v : ν}

/-- The value of an entry that is younger than `ttl`. -/
def fresh (m : ExtTreeMap κ (ν × Nat)) (ttl now : Nat) (k : κ) : Option ν :=
  match m[k]? with
  | some (v, t) => if now - t < ttl then some v else none
  | none => none

omit [LawfulEqOrd κ] [DecidableEq κ] in
theorem fresh_eq_some : fresh m ttl now k = some v ↔ ∃ t, m[k]? = some (v, t) ∧ now - t < ttl := by
  unfold fresh
  split
  · rename_i w t hEntry
    rw [hEntry]
    constructor
    · intro h
      split at h
      · rename_i hAge
        cases h
        exact ⟨t, rfl, hAge⟩
      · cases h
    · rintro ⟨t', hEq, hAge⟩
      cases hEq
      exact if_pos hAge
  · rename_i hNone
    simp [hNone]

/-- An entry written now is the one that is found. -/
theorem fresh_insert (hTtl : 0 < ttl) :
    fresh (m.insert k (v, now)) ttl now j = if j = k then some v else fresh m ttl now j := by
  unfold fresh
  rw [KeyMap.getElem?_insert]
  by_cases hj : j = k
  · simp [hj, hTtl]
  · simp [hj]

theorem fresh_erase : fresh (m.erase k) ttl now j = if j = k then none else fresh m ttl now j := by
  unfold fresh
  rw [KeyMap.getElem?_erase]
  by_cases hj : j = k
  · simp [hj]
  · simp [hj]

omit [LawfulEqOrd κ] [DecidableEq κ] in
/-- What is found later is found before. -/
theorem fresh_of_later {d : Nat} (h : fresh m ttl (now + d) k = some v) : fresh m ttl now k = some v := by
  obtain ⟨t, hEntry, hAge⟩ := fresh_eq_some.mp h
  exact fresh_eq_some.mpr ⟨t, hEntry, by omega⟩

end TtlMap
