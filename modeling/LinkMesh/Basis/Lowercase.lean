import LinkMesh.Basis.Utf8

/-!
# Lowercase texts

`str::to_lowercase` over tables of Unicode that are given. A capital sigma is
written in its final form where a word ends with it; every other character has
one mapping, of one character or several.

* `lowers_toLowercase` — each character gives way to its mapping.
* `Lowers.unchanged`   — a text that is lowered as ASCII has no other character
  that changes.
-/

/-- What Unicode says of characters. -/
structure CaseTables where
  /-- `char::to_lowercase` -/
  lower : Char → List Char
  caseIgnorable : Char → Bool
  cased : Char → Bool

namespace CaseTables

variable {t : CaseTables} {c : Char} {m cs ds xs ys : List Char}

/-- What the tables have in common. -/
structure Lawful (t : CaseTables) : Prop where
  ascii : ∀ c, c.toNat < 128 → t.lower c = [c.toLower]
  nonempty : ∀ c, t.lower c ≠ []
  /-- the characters of ASCII that others become are letters -/
  letters : ∀ c, 128 ≤ c.toNat → ∀ d ∈ t.lower c, d.toNat < 128 → d.isLower = true

/-- `case_ignorable_then_cased` -/
def ignorableThenCased (t : CaseTables) (cs : List Char) : Bool :=
  match cs.dropWhile t.caseIgnorable with
  | c :: _ => t.cased c
  | [] => false

/-- The mapping of a character between others; those before it in reverse. -/
def lowerAt (t : CaseTables) (before : List Char) (c : Char) (after : List Char) : List Char :=
  if c = 'Σ' then [if t.ignorableThenCased before && !t.ignorableThenCased after then 'ς' else 'σ']
  else t.lower c

def lowerFrom (t : CaseTables) : List Char → List Char → List Char
  | _, [] => []
  | before, c :: cs => t.lowerAt before c cs ++ t.lowerFrom (c :: before) cs

/-- `str::to_lowercase` -/
def toLowercase (t : CaseTables) (s : String) : String := String.ofList (t.lowerFrom [] s.toList)

-- ---------------------------------------------------------------------------
-- Mappings
-- ---------------------------------------------------------------------------

/-- What a character can become. -/
def Image (t : CaseTables) (c : Char) (m : List Char) : Prop :=
  (c = 'Σ' ∧ (m = ['ς'] ∨ m = ['σ'])) ∨ (c ≠ 'Σ' ∧ m = t.lower c)

/-- Each character of a text gives way to its mapping. -/
inductive Lowers (t : CaseTables) : List Char → List Char → Prop where
  | nil : Lowers t [] []
  | cons {c : Char} {m cs ds : List Char} : t.Image c m → Lowers t cs ds → Lowers t (c :: cs) (m ++ ds)

/-- The character is its own mapping. -/
def Unchanged (t : CaseTables) (c : Char) : Prop := c ≠ 'Σ' ∧ t.lower c = [c]

theorem image_lowerAt (t : CaseTables) (before : List Char) (c : Char) (after : List Char) :
    t.Image c (t.lowerAt before c after) := by
  unfold lowerAt
  split
  · rename_i hSigma
    refine .inl ⟨hSigma, ?_⟩
    split
    · exact .inl rfl
    · exact .inr rfl
  · rename_i hOther
    exact .inr ⟨hOther, rfl⟩

theorem lowers_lowerFrom (before cs : List Char) : t.Lowers cs (t.lowerFrom before cs) := by
  induction cs generalizing before with
  | nil => exact .nil
  | cons c cs ih => exact .cons (image_lowerAt t before c cs) (ih (c :: before))

theorem lowers_toLowercase (s : String) : t.Lowers s.toList (t.toLowercase s).toList := by
  unfold toLowercase
  rw [String.toList_ofList]
  exact lowers_lowerFrom [] s.toList

theorem Lowers.of_append (h : t.Lowers (xs ++ ys) ds) :
    ∃ us vs, ds = us ++ vs ∧ t.Lowers xs us ∧ t.Lowers ys vs := by
  induction xs generalizing ds with
  | nil => exact ⟨[], ds, rfl, .nil, h⟩
  | cons c xs ih =>
    cases h with
    | cons hImage hRest =>
      obtain ⟨us, vs, rfl, hx, hy⟩ := ih hRest
      exact ⟨_, vs, (List.append_assoc ..).symm, .cons hImage hx, hy⟩

section

variable (hLawful : t.Lawful)
include hLawful

theorem Lawful.image_ascii (hImage : t.Image c m) (hAscii : c.toNat < 128) : m = [c.toLower] := by
  rcases hImage with ⟨rfl, _⟩ | ⟨_, rfl⟩
  · exact absurd hAscii (by decide)
  · exact hLawful.ascii c hAscii

theorem Lawful.image_ne_nil (hImage : t.Image c m) : m ≠ [] := by
  rcases hImage with ⟨_, rfl | rfl⟩ | ⟨_, rfl⟩
  · exact List.cons_ne_nil _ _
  · exact List.cons_ne_nil _ _
  · exact hLawful.nonempty c

/-- No character becomes one of ASCII that is no letter, but itself. -/
theorem Lawful.mem_image {d : Char} (hImage : t.Image c m) (hMem : d ∈ m) (hAscii : d.toNat < 128)
    (hMark : d.isLower = false) : c = d := by
  by_cases hc : c.toNat < 128
  · rw [hLawful.image_ascii hImage hc, List.mem_singleton] at hMem
    have hNat := congrArg Char.toNat hMem
    rw [Utf8.toNat_toLower] at hNat
    refine Char.toNat_inj.mp ?_
    split at hNat
    · -- a letter would have become a letter
      exfalso
      have hLetter : d.isLower = true := by
        unfold Char.isLower
        simp only [Bool.and_eq_true, decide_eq_true_eq, ge_iff_le, UInt32.le_iff_toNat_le]
        show 97 ≤ d.toNat ∧ d.toNat ≤ 122
        omega
      rw [hMark] at hLetter
      cases hLetter
    · exact hNat.symm
  · exfalso
    have hHigh : 128 ≤ c.toNat := Nat.le_of_not_lt hc
    rcases hImage with ⟨_, rfl | rfl⟩ | ⟨_, rfl⟩
    · rw [List.mem_singleton.mp hMem] at hAscii
      exact absurd hAscii (by decide)
    · rw [List.mem_singleton.mp hMem] at hAscii
      exact absurd hAscii (by decide)
    · rw [hLawful.letters c hHigh d hMem hAscii] at hMark
      cases hMark

theorem Lowers.not_mem {d : Char} (h : t.Lowers cs ds) (hNone : d ∉ cs) (hAscii : d.toNat < 128)
    (hMark : d.isLower = false) : d ∉ ds := by
  induction h with
  | nil => exact List.not_mem_nil
  | @cons c m cs ds hImage _ ih =>
    obtain ⟨hHead, hTail⟩ := List.ne_and_not_mem_of_not_mem_cons hNone
    intro hMem
    rcases List.mem_append.mp hMem with hHere | hThere
    · exact hHead (hLawful.mem_image hImage hHere hAscii hMark).symm
    · exact ih hTail hThere

/-- Texts that a mark separates are lowered one by one. -/
theorem Lowers.of_intercalate {d : Char} {texts : List (List Char)} (hAscii : d.toNat < 128) (hSelf : d.toLower = d)
    (h : t.Lowers ([d].intercalate texts) ds) :
    ∃ lowered, ds = [d].intercalate lowered ∧ List.Forall₂ t.Lowers texts lowered := by
  induction texts generalizing ds with
  | nil =>
    cases h
    exact ⟨[], rfl, .nil⟩
  | cons text texts ih =>
    cases texts with
    | nil =>
      rw [List.intercalate_singleton] at h
      exact ⟨[ds], List.intercalate_singleton.symm, .cons h .nil⟩
    | cons next rest =>
      rw [List.intercalate_cons_cons, List.append_assoc] at h
      obtain ⟨us, vs, rfl, hText, hMore⟩ := h.of_append
      cases hMore with
      | cons hImage hRest =>
        obtain ⟨lowered, rfl, hLowered⟩ := ih hRest
        have hMark := hLawful.image_ascii hImage hAscii
        rw [hSelf] at hMark
        cases hLowered with
        | cons hNext hLast =>
          refine ⟨us :: _ :: _, ?_, .cons hText (.cons hNext hLast)⟩
          rw [List.intercalate_cons_cons, hMark, List.append_assoc]

theorem Lowers.length_le (h : t.Lowers cs ds) : cs.length ≤ ds.length := by
  induction h with
  | nil => exact Nat.le_refl _
  | cons hImage _ ih =>
    have hPos := List.length_pos_iff.mpr (hLawful.image_ne_nil hImage)
    rw [List.length_cons, List.length_append]
    omega

/-- Where no other character changes, the letters of ASCII are lowered. -/
theorem Lowers.eq_map (h : t.Lowers cs ds) (hKept : ∀ c ∈ cs, 128 ≤ c.toNat → t.Unchanged c) :
    ds = cs.map Char.toLower := by
  induction h with
  | nil => rfl
  | @cons c m cs ds hImage _ ih =>
    rw [List.forall_mem_cons] at hKept
    have hHead : m = [c.toLower] := by
      by_cases hAscii : c.toNat < 128
      · exact hLawful.image_ascii hImage hAscii
      · have hHigh : 128 ≤ c.toNat := Nat.le_of_not_lt hAscii
        obtain ⟨hSigma, hSelf⟩ := hKept.1 hHigh
        rcases hImage with ⟨hIs, _⟩ | ⟨_, rfl⟩
        · exact absurd hIs hSigma
        · rw [hSelf, Utf8.toLower_of_high hHigh]
    rw [hHead, ih hKept.2]
    rfl

/-- And if the text differs from its lowercase in the letters of ASCII only, no
other character changes: each mapping is one character. -/
theorem Lowers.unchanged (h : t.Lowers cs ds) (hSame : ds.map Char.toLower = cs.map Char.toLower) :
    ∀ c ∈ cs, 128 ≤ c.toNat → t.Unchanged c := by
  induction h with
  | nil => exact List.forall_mem_nil _
  | @cons c m cs ds hImage hRest ih =>
    have hLength := congrArg List.length hSame
    rw [List.length_map, List.length_map, List.length_append, List.length_cons] at hLength
    have hPos := List.length_pos_iff.mpr (hLawful.image_ne_nil hImage)
    have hLe := hRest.length_le hLawful
    obtain ⟨d, rfl⟩ := List.length_eq_one_iff.mp (show m.length = 1 by omega)
    obtain ⟨hHead, hTail⟩ := List.cons.inj hSame
    rw [List.forall_mem_cons]
    refine ⟨fun hHigh => ?_, ih hTail⟩
    have hSelf : d = c := by
      rw [Utf8.toLower_of_high hHigh] at hHead
      have hNat := congrArg Char.toNat hHead
      rw [Utf8.toNat_toLower] at hNat
      refine Char.toNat_inj.mp ?_
      split at hNat <;> omega
    rw [hSelf] at hImage
    rcases hImage with ⟨rfl, hFinal | hInner⟩ | ⟨hSigma, hLower⟩
    · exact absurd hFinal (by decide)
    · exact absurd hInner (by decide)
    · exact ⟨hSigma, hLower.symm⟩

end

/-- Tables without any character outside ASCII. -/
def ascii : CaseTables where
  lower c := [c.toLower]
  caseIgnorable _ := false
  cased _ := false

theorem lawful_ascii : ascii.Lawful where
  ascii _ _ := rfl
  nonempty _ := List.cons_ne_nil _ _
  letters c hHigh d hMem hAscii := by
    rw [List.mem_singleton.mp hMem, Utf8.toLower_of_high hHigh] at hAscii
    exact absurd hHigh (Nat.not_le.mpr hAscii)

end CaseTables
