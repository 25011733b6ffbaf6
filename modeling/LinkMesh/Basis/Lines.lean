import Mathlib.Data.List.Infix
import Mathlib.Data.List.Basic

/-!
# Texts joined by markers

Nothing is escaped: a text of lines is its lines, each up to the line end, and
a record is its texts, each behind a marker that starts a line. When is there
one reading only?

## Results

* `line_inj`, `lastLine_inj` — a line without line ends is read off either end.
* `join_unique_iff` — a record of texts has one reading exactly when no marker
  is imitated next to its place.
-/

namespace Lines

-- ---------------------------------------------------------------------------
-- Numbers
-- ---------------------------------------------------------------------------

theorem not_mem_toString {c : Char} (hc : c.isDigit = false) (n : Nat) : c ∉ (toString n).toList := by
  intro h
  have hDigits : c ∈ Nat.toDigits 10 n := by
    rw [← Nat.toList_repr]
    exact h
  rw [Nat.isDigit_of_mem_toDigits (by decide) (by decide) hDigits] at hc
  exact absurd hc (by decide)

theorem toString_plain (n : Nat) : '\n' ∉ (toString n).toList := not_mem_toString (by decide) n

theorem toString_length_pos (n : Nat) : 0 < (toString n).toList.length := by
  show 0 < n.repr.toList.length
  rw [Nat.toList_repr]
  exact Nat.length_toDigits_pos

theorem toString_inj {n m : Nat} (h : toString n = toString m) : n = m := by
  have hDigits : Nat.toDigits 10 n = Nat.toDigits 10 m := by
    rw [← Nat.toList_repr, ← Nat.toList_repr]
    exact congrArg String.toList h
  rw [← Nat.ofDigitChars_ten_toDigits (n := n), hDigits, Nat.ofDigitChars_ten_toDigits]

-- ---------------------------------------------------------------------------
-- Lines
-- ---------------------------------------------------------------------------

variable {α : Type} {a : α} {p p' t t' : List α}

/-- Of two readings of a text, one ends its line first, or both do. -/
theorem lines_cases (h : p ++ a :: t = p' ++ a :: t') :
    (p = p' ∧ t = t') ∨ (∃ q, p' = p ++ a :: q ∧ t = q ++ a :: t') ∨
      ∃ q, p = p' ++ a :: q ∧ t' = q ++ a :: t := by
  rcases List.append_eq_append_iff.mp h with ⟨q, hEq, hRest⟩ | ⟨q, hEq, hRest⟩
  all_goals
    rcases List.cons_eq_append_iff.mp hRest with ⟨rfl, hTail⟩ | ⟨q', rfl, hTail⟩
  · exact .inl ⟨by rw [hEq, List.append_nil], (List.cons.inj hTail).2.symm⟩
  · exact .inr (.inl ⟨q', hEq, hTail⟩)
  · exact .inl ⟨by rw [hEq, List.append_nil], (List.cons.inj hTail).2⟩
  · exact .inr (.inr ⟨q', hEq, hTail⟩)

/-- Where a line ends, the same text in another reading ends its own line, or
goes on. -/
theorem line_cases (h : p ++ a :: t = p' ++ a :: t') (hp : a ∉ p) :
    (p = p' ∧ t = t') ∨ ∃ q, p' = p ++ a :: q ∧ t = q ++ a :: t' := by
  rcases lines_cases h with hSame | hLater | ⟨q, hEq, _⟩
  · exact .inl hSame
  · exact .inr hLater
  · refine absurd ?_ hp
    rw [hEq]
    exact List.mem_append_right _ (List.mem_cons_self ..)

theorem line_inj (h : p ++ a :: t = p' ++ a :: t') (hp : a ∉ p) (hp' : a ∉ p') : p = p' ∧ t = t' := by
  rcases line_cases h hp with hSame | ⟨q, hEq, _⟩
  · exact hSame
  · refine absurd ?_ hp'
    rw [hEq]
    exact List.mem_append_right _ (List.mem_cons_self ..)

theorem lastLine_inj (h : p ++ a :: t = p' ++ a :: t') (ht : a ∉ t) (ht' : a ∉ t') :
    p = p' ∧ t = t' := by
  have hReverse : t.reverse ++ a :: p.reverse = t'.reverse ++ a :: p'.reverse := by
    have hBoth := congrArg List.reverse h
    simpa using hBoth
  obtain ⟨hLast, hFront⟩ := line_inj hReverse (by simpa using ht) (by simpa using ht')
  exact ⟨List.reverse_injective hFront, List.reverse_injective hLast⟩

-- ---------------------------------------------------------------------------
-- Markers
-- ---------------------------------------------------------------------------

/-- A marker starts a line and stays in it. -/
def IsMarker (a : α) (m : List α) : Prop := ∃ k, m = a :: k ∧ a ∉ k

/-- Neither marker starts as the other. -/
def Apart (m m' : List α) : Prop := ¬ m <+: m' ∧ ¬ m' <+: m

variable {m m' x y s s' : List α}

/-- Two markers in one text: the same place, or one well before the other. -/
theorem markers_cases (hm : IsMarker a m) (hm' : IsMarker a m') (h : x ++ (m ++ s) = y ++ (m' ++ s')) :
    (x = y ∧ m ++ s = m' ++ s') ∨ (∃ z, y = x ++ (m ++ z) ∧ s = z ++ (m' ++ s')) ∨
      ∃ z, x = y ++ (m' ++ z) ∧ s' = z ++ (m ++ s) := by
  -- the rest of the first marker's line holds no line end, so the other line starts behind it
  have hBehind : ∀ {k q t u : List α}, a ∉ k → k ++ t = q ++ a :: u → ∃ z, q = k ++ z ∧ t = z ++ a :: u := by
    intro k q t u hk hEq
    rcases List.append_eq_append_iff.mp hEq with ⟨z, hz, hRest⟩ | ⟨z, hz, hRest⟩
    · exact ⟨z, hz, hRest⟩
    · rcases List.cons_eq_append_iff.mp hRest with ⟨rfl, hTail⟩ | ⟨z', rfl, _⟩
      · exact ⟨[], by rw [hz, List.append_nil, List.append_nil], hTail⟩
      · refine absurd ?_ hk
        rw [hz]
        exact List.mem_append_right _ (List.mem_cons_self ..)
  obtain ⟨k, rfl, hk⟩ := hm
  obtain ⟨k', rfl, hk'⟩ := hm'
  rw [List.cons_append, List.cons_append] at h
  rcases lines_cases h with ⟨hFront, hRest⟩ | ⟨q, hFront, hRest⟩ | ⟨q, hFront, hRest⟩
  · exact .inl ⟨hFront, by rw [List.cons_append, List.cons_append, hRest]⟩
  · obtain ⟨z, rfl, hz⟩ := hBehind hk hRest
    exact .inr (.inl ⟨z, by rw [hFront, List.cons_append], by rw [hz, List.cons_append]⟩)
  · obtain ⟨z, rfl, hz⟩ := hBehind hk' hRest
    exact .inr (.inr ⟨z, by rw [hFront, List.cons_append], by rw [hz, List.cons_append]⟩)

theorem Apart.symm (h : Apart m m') : Apart m' m := ⟨h.2, h.1⟩

theorem Apart.ne (h : Apart m m') : m ++ s ≠ m' ++ s' := by
  intro hEq
  have hPrefix : m <+: m' ++ s' := ⟨s, hEq⟩
  have hPrefix' : m' <+: m' ++ s' := ⟨s', rfl⟩
  rcases List.prefix_or_prefix_of_prefix hPrefix hPrefix' with hLess | hMore
  · exact h.1 hLess
  · exact h.2 hMore

-- ---------------------------------------------------------------------------
-- Records
-- ---------------------------------------------------------------------------

/-- Texts, each behind its marker. -/
def join : List (List α × List α) → List α
  | [] => []
  | (m, v) :: fields => m ++ (v ++ join fields)

/-- No text holds the marker behind it, or the one in front of it. -/
def Separate (v : List α) : List (List α × List α) → Prop
  | [] => True
  | (m, v') :: fields => ¬ m <:+: v ∧ ¬ m <:+: v' ∧ Separate v' fields

instance Separate.decide [DecidableEq α] : ∀ v (fields : List (List α × List α)), Decidable (Separate v fields)
  | _, [] => inferInstanceAs (Decidable True)
  | v, (m, v') :: fields =>
    have := Separate.decide v' fields
    inferInstanceAs (Decidable (¬ m <:+: v ∧ ¬ m <:+: v' ∧ Separate v' fields))

/-- Markers of which none starts as another. -/
structure Scheme (a : α) (ms : List (List α)) : Prop where
  marker : ∀ m ∈ ms, IsMarker a m
  apart : ms.Pairwise Apart

theorem Scheme.tail {ms : List (List α)} (h : Scheme a (m :: ms)) : Scheme a ms :=
  ⟨fun k hk => h.marker k (List.mem_cons_of_mem _ hk), (List.pairwise_cons.mp h.apart).2⟩

variable {v : List α} {fields fields' : List (List α × List α)}

/-- A marker that is none of the record's own stands in one of its texts. -/
theorem located {e : List α} (hm : ∀ f ∈ fields, IsMarker a f.1) (he : IsMarker a e)
    (hApart : ∀ f ∈ fields, Apart f.1 e) (h : v ++ join fields = y ++ (e ++ s)) :
    ∃ before k u after z y', (m, v) :: fields = before ++ (k, u) :: after ∧ u = y' ++ (e ++ z) ∧
      s = z ++ join after := by
  induction fields generalizing m v y with
  | nil => exact ⟨[], m, v, [], s, y, rfl, (List.append_nil v).symm.trans h, (List.append_nil s).symm⟩
  | cons f fields ih =>
    obtain ⟨m₁, v₁⟩ := f
    rw [List.forall_mem_cons] at hm hApart
    rcases markers_cases hm.1 he h with ⟨_, hSame⟩ | ⟨z, _, hRest⟩ | ⟨z, hv, hRest⟩
    · exact absurd hSame hApart.1.ne
    · obtain ⟨before, k, u, after, z', y', hFields, hu, hs⟩ := ih hm.2 hApart.2 hRest
      exact ⟨(m, v) :: before, k, u, after, z', y', by rw [hFields, List.cons_append], hu, hs⟩
    · exact ⟨[], m, v, (m₁, v₁) :: fields, z, y, rfl, hv, hRest⟩

/-- A reading cannot fall behind: with more markers to come than the text has
places for, one of them would stand in the text behind its own place. -/
theorem not_behind {extra : List (List α)} (hScheme : Scheme a (extra ++ m :: fields.map Prod.fst))
    (hClean : ∀ f ∈ (m, v) :: fields, ¬ f.1 <:+: f.2)
    (hSame : fields'.map Prod.fst = extra ++ m :: fields.map Prod.fst) :
    v ++ join fields ≠ y ++ join fields' := by
  induction fields' generalizing v m extra y fields with
  | nil => simp at hSame
  | cons f rest ih =>
    obtain ⟨e, v'⟩ := f
    intro h
    rw [← hSame] at hScheme
    have hSuffix : fields.map Prod.fst <:+ rest.map Prod.fst := by
      cases extra with
      | nil => exact (List.cons.inj hSame).2 ▸ List.suffix_rfl
      | cons e' extra =>
        have hTail : rest.map Prod.fst = extra ++ m :: fields.map Prod.fst := (List.cons.inj hSame).2
        rw [hTail]
        exact (List.suffix_cons _ _).trans (List.suffix_append _ _)
    have hLater : ∀ f ∈ fields, f.1 ∈ rest.map Prod.fst := fun f hf =>
      hSuffix.subset (List.mem_map_of_mem hf)
    obtain ⟨before, k, u, after, z, y', hFields, hu, hRest⟩ :=
      located (m := m) (fun f hf => hScheme.tail.marker _ (hLater f hf))
        (hScheme.marker e (List.mem_cons_self ..))
        (fun f hf => ((List.pairwise_cons.mp hScheme.apart).1 _ (hLater f hf)).symm) h
    have hMarkers : m :: fields.map Prod.fst = before.map Prod.fst ++ k :: after.map Prod.fst := by
      have hMap := congrArg (List.map Prod.fst) hFields
      rw [List.map_append] at hMap
      exact hMap
    rw [hMarkers, ← List.append_assoc] at hSame
    rw [hFields] at hClean
    have hInfix : e <:+: u := ⟨y', z, by rw [hu, List.append_assoc]⟩
    rcases List.cons_eq_append_iff.mp hSame with ⟨_, hNow⟩ | ⟨extra', hExtra, hLast⟩
    · -- the next marker to come is the one in front of the text
      obtain ⟨hk, _⟩ := List.cons.inj hNow
      exact hClean (k, u) (by simp) (hk ▸ hInfix)
    · have hNext : Scheme a (extra' ++ k :: after.map Prod.fst) := hLast ▸ hScheme.tail
      refine (ih hNext ?_ hLast : z ++ join after ≠ v' ++ join rest) hRest.symm
      rw [List.forall_mem_cons]
      refine ⟨fun hz => hClean (k, u) (by simp) (hz.trans ⟨y' ++ e, [], ?_⟩), fun f hf => ?_⟩
      · rw [hu, List.append_nil, List.append_assoc]
      · exact hClean f (by simp [hf])

theorem Separate.clean (h : Separate v fields) : ∀ f ∈ fields, ¬ f.1 <:+: f.2 := by
  induction fields generalizing v with
  | nil =>
    intro f hf
    cases hf
  | cons f fields ih =>
    rw [List.forall_mem_cons]
    exact ⟨h.2.1, ih h.2.2⟩

/-- Separate texts have one reading. -/
theorem join_inj {v' : List α} (hScheme : Scheme a (fields.map Prod.fst)) (hSeparate : Separate v fields)
    (hSame : fields'.map Prod.fst = fields.map Prod.fst) (h : v ++ join fields = v' ++ join fields') :
    v = v' ∧ fields = fields' := by
  induction fields generalizing v v' fields' with
  | nil =>
    obtain rfl := List.map_eq_nil_iff.mp hSame
    exact ⟨List.append_cancel_right h, rfl⟩
  | cons f fields ih =>
    obtain ⟨m, v₁⟩ := f
    obtain ⟨⟨k, v₁'⟩, rest, rfl, rfl, hRest⟩ := List.map_eq_cons_iff.mp hSame
    have hMarker := hScheme.marker k (List.mem_cons_self ..)
    rcases markers_cases hMarker hMarker h with ⟨hFront, hBack⟩ | ⟨z, _, hLate⟩ | ⟨z, hEarly, _⟩
    · obtain ⟨hText, hFields⟩ := ih hScheme.tail hSeparate.2.2 hRest (List.append_cancel_left hBack)
      exact ⟨hFront, by rw [hText, hFields]⟩
    · have hNow : Scheme a ([] ++ k :: fields.map Prod.fst) := hScheme
      have hNot : v₁ ++ join fields ≠ z ++ join ((k, v₁') :: rest) :=
        not_behind hNow hSeparate.clean hSame
      exact absurd hLate hNot
    · exact absurd ⟨v', z, by rw [hEarly, List.append_assoc]⟩ hSeparate.1

/-- Texts that are not separate have another reading. -/
theorem exists_other (hScheme : Scheme a (fields.map Prod.fst)) (h : ¬ Separate v fields) :
    ∃ v' fields', fields'.map Prod.fst = fields.map Prod.fst ∧ v ++ join fields = v' ++ join fields' ∧
      ¬ (v = v' ∧ fields = fields') := by
  induction fields generalizing v with
  | nil => exact absurd trivial h
  | cons f fields ih =>
    obtain ⟨m, v₁⟩ := f
    obtain ⟨k, hm, _⟩ := hScheme.marker m (List.mem_cons_self ..)
    have hLonger : ∀ b t : List α, b ≠ b ++ (m ++ t) := by
      intro b t hEq
      have hLength := congrArg List.length hEq
      rw [List.length_append, List.length_append, hm, List.length_cons] at hLength
      omega
    by_cases hBefore : m <:+: v
    · obtain ⟨b, t, hv⟩ := hBefore
      rw [List.append_assoc] at hv
      refine ⟨b, (m, t ++ (m ++ v₁)) :: fields, rfl, ?_, fun hBoth => hLonger b t ?_⟩
      · rw [← hv]
        unfold join
        simp only [List.append_assoc]
      · rw [hv, hBoth.1]
    by_cases hBehind : m <:+: v₁
    · obtain ⟨b, t, hv⟩ := hBehind
      rw [List.append_assoc] at hv
      refine ⟨v ++ (m ++ b), (m, t) :: fields, rfl, ?_, fun hBoth => hLonger v b hBoth.1⟩
      rw [← hv]
      unfold join
      simp only [List.append_assoc]
    · obtain ⟨v', fields', hSame, hText, hOther⟩ := ih hScheme.tail fun hRest => h ⟨hBefore, hBehind, hRest⟩
      refine ⟨v, (m, v') :: fields', by rw [List.map_cons, hSame, List.map_cons], ?_, ?_⟩
      · show v ++ (m ++ (v₁ ++ join fields)) = v ++ (m ++ (v' ++ join fields'))
        rw [hText]
      · rintro ⟨_, hFields⟩
        obtain ⟨hHead, hTail⟩ := List.cons.inj hFields
        exact hOther ⟨(Prod.mk.inj hHead).2, hTail⟩

/-- **A record has one reading exactly when its texts are separate.** -/
theorem join_unique_iff (hScheme : Scheme a (fields.map Prod.fst)) :
    (∀ v' fields', fields'.map Prod.fst = fields.map Prod.fst → v ++ join fields = v' ++ join fields' →
      v = v' ∧ fields = fields') ↔ Separate v fields := by
  constructor
  · intro hOne
    by_contra hNot
    obtain ⟨v', fields', hSame, hText, hOther⟩ := exists_other hScheme hNot
    exact hOther (hOne v' fields' hSame hText)
  · intro hSeparate v' fields' hSame h
    exact join_inj hScheme hSeparate hSame h

end Lines
