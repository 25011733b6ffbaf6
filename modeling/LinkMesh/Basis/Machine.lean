import Mathlib.Logic.Basic
import Mathlib.Data.List.Induction

/-!
# Labelled transition systems with guarded runs

A `Machine` has initial states, a condition under which a label is enabled,
and a next-state function. Properties of runs are stated over `Reach G`: the
states reached by the runs all of whose steps meet the guard `G`. The guard
is how a theorem says *"in every run whose steps all satisfy …"*; the
unrestricted runs are those of the guard `fun _ _ => True`.

* `Reach.invariant` — the induction rule: initially, and preserved by every
  guarded step from a state that satisfies the invariant.
* `Reach.simulate`  — a refinement: the view of a run is a run; `Reach.forward`
  is the one for a relation, a step matched by any number of steps.
* `reach_run`       — a concrete list of labels, each enabled and guarded
  where it is taken (`Admissible`, decidable), reaches its end state.
* `run_invariant`   — the rule for runs whose labels are not looked at;
  `along_run` is the one for a run that is known.
* `along_run_iff`   — step by step exact conditions give an exact condition on
  the run.
* `StepPath`        — a list of labels leads from one state to another along a
  step relation; it is extended at its end, and steps that stay do not count.
-/

/-- A labelled transition system, deterministic once the label is fixed. -/
structure Machine (σ ε : Type) where
  init : σ → Prop
  enabled : σ → ε → Prop
  next : σ → ε → σ

namespace Machine

variable {σ ε : Type} (M : Machine σ ε)

/-- The states reached by the runs all of whose steps meet the guard `G`. -/
inductive Reach (G : σ → ε → Prop) : σ → Prop where
  | init {s : σ} : M.init s → Reach G s
  | step {s : σ} {e : ε} : Reach G s → M.enabled s e → G s e → Reach G (M.next s e)

variable {M}

/-- The invariant rule for guarded runs. -/
theorem Reach.invariant {G : σ → ε → Prop} {I : σ → Prop}
    (hInit : ∀ s, M.init s → I s)
    (hStep : ∀ s e, I s → M.enabled s e → G s e → I (M.next s e))
    {s : σ} (h : M.Reach G s) : I s := by
  induction h with
  | init h0 => exact hInit _ h0
  | step _ hen hg ih => exact hStep _ _ ih hen hg

/-- A run that meets a guard meets every weaker one. -/
theorem Reach.mono {G G' : σ → ε → Prop} {s : σ} (h : M.Reach G s)
    (hWeaker : ∀ s e, G s e → G' s e) : M.Reach G' s := by
  induction h with
  | init h0 => exact .init h0
  | step _ hen hg ih => exact .step ih hen (hWeaker _ _ hg)

/-- A view of the states under which every step stays, or is a step of the other
machine: the view of a run is a run. -/
theorem Reach.simulate {σ' ε' : Type} {M' : Machine σ' ε'} {G : σ → ε → Prop} {G' : σ' → ε' → Prop}
    (view : σ → σ') (hInit : ∀ s, M.init s → M'.init (view s))
    (hStep : ∀ s e, M.Reach G s → M.enabled s e → G s e → view (M.next s e) = view s ∨
      ∃ e', M'.enabled (view s) e' ∧ G' (view s) e' ∧ view (M.next s e) = M'.next (view s) e')
    {s : σ} (h : M.Reach G s) : M'.Reach G' (view s) := by
  induction h with
  | init h0 => exact .init (hInit _ h0)
  | step hReach hen hg ih =>
    rcases hStep _ _ hReach hen hg with hStay | ⟨e', hen', hg', hMove⟩
    · rw [hStay]
      exact ih
    · rw [hMove]
      exact .step ih hen' hg'

/-- A forward simulation: a step of one machine is matched by any number of steps
of the other, from states it reaches. -/
theorem Reach.forward {σ' ε' : Type} {M' : Machine σ' ε'} {G : σ → ε → Prop} {G' : σ' → ε' → Prop}
    (R : σ → σ' → Prop) (hInit : ∀ s, M.init s → ∃ s', M'.init s' ∧ R s s')
    (hStep : ∀ s s' e, R s s' → M'.Reach G' s' → M.enabled s e → G s e → ∃ s'', M'.Reach G' s'' ∧ R (M.next s e) s'')
    {s : σ} (h : M.Reach G s) : ∃ s', M'.Reach G' s' ∧ R s s' := by
  induction h with
  | init h0 =>
    obtain ⟨s', hs', hRel⟩ := hInit _ h0
    exact ⟨s', .init hs', hRel⟩
  | step _ hen hg ih =>
    obtain ⟨s', hReach, hRel⟩ := ih
    exact hStep _ s' _ hRel hReach hen hg

/-- The state after a list of labels. -/
def run (M : Machine σ ε) (s : σ) (es : List ε) : σ := es.foldl M.next s

/-- Every label of the list is enabled, and meets the guard, where it is taken. -/
def Admissible (M : Machine σ ε) (G : σ → ε → Prop) : σ → List ε → Prop
  | _, [] => True
  | s, e :: es => M.enabled s e ∧ G s e ∧ Admissible M G (M.next s e) es

instance Admissible.decidable (G : σ → ε → Prop) [∀ s e, Decidable (M.enabled s e)]
    [∀ s e, Decidable (G s e)] : ∀ s es, Decidable (Admissible M G s es)
  | _, [] => .isTrue trivial
  | s, e :: es =>
    have := Admissible.decidable G (M.next s e) es
    inferInstanceAs (Decidable (M.enabled s e ∧ G s e ∧ Admissible M G (M.next s e) es))

theorem reach_run {G : σ → ε → Prop} {s : σ} {es : List ε} (h : M.Reach G s)
    (hes : Admissible M G s es) : M.Reach G (M.run s es) := by
  induction es generalizing s with
  | nil => exact h
  | cons e es ih => exact ih (.step h hes.1 hes.2.1) hes.2.2

/-- Labels that are enabled everywhere. -/
theorem admissible_of_forall {G : σ → ε → Prop} {s : σ} {es : List ε}
    (h : ∀ e ∈ es, ∀ s, M.enabled s e ∧ G s e) : Admissible M G s es := by
  induction es generalizing s with
  | nil => trivial
  | cons e es ih =>
    obtain ⟨hEnabled, hGuard⟩ := h e (List.mem_cons_self ..) s
    exact ⟨hEnabled, hGuard, ih fun e' he' => h e' (List.mem_cons_of_mem _ he')⟩

/-- The invariant rule for a run from a given state. -/
theorem Admissible.invariant {G : σ → ε → Prop} {I : σ → Prop}
    (hStep : ∀ s e, I s → M.enabled s e → G s e → I (M.next s e)) {s : σ} {es : List ε} (h : I s)
    (hes : Admissible M G s es) : I (M.run s es) := by
  induction es generalizing s with
  | nil => exact h
  | cons e es ih => exact ih (hStep s e h hes.1 hes.2.1) hes.2.2

@[simp] theorem run_nil (s : σ) : M.run s [] = s := rfl

@[simp] theorem run_cons (s : σ) (e : ε) (es : List ε) : M.run s (e :: es) = M.run (M.next s e) es := rfl

theorem run_append (s : σ) (es es' : List ε) : M.run s (es ++ es') = M.run (M.run s es) es' :=
  List.foldl_append

theorem run_concat (s : σ) (es : List ε) (e : ε) : M.run s (es ++ [e]) = M.next (M.run s es) e := by
  unfold run
  rw [List.foldl_append]
  rfl

/-- The invariant rule for runs whose labels are not looked at. -/
theorem run_invariant {I : σ → Prop} (hStep : ∀ s e, I s → I (M.next s e)) {s : σ} (h : I s) (es : List ε) :
    I (M.run s es) := by
  induction es generalizing s with
  | nil => exact h
  | cons e es ih => exact ih (hStep s e h)

/-- What every step of a run keeps holds all along the run. -/
theorem along_run {P : σ → Prop} {s : σ} {es : List ε} (h0 : P s)
    (hStep : ∀ pre e, pre ++ [e] <+: es → P (M.run s pre) → P (M.next (M.run s pre) e))
    (pre : List ε) (hPre : pre <+: es) : P (M.run s pre) := by
  induction pre using List.reverseRecOn with
  | nil => exact h0
  | append_singleton pre e ih =>
    rw [run_concat]
    exact hStep pre e hPre (ih ((List.prefix_append _ _).trans hPre))

/-- Every label of an admissible list is enabled where it is taken. -/
theorem admissible_enabled {G : σ → ε → Prop} {s : σ} {es pre : List ε} {e : ε}
    (h : Admissible M G s es) (hPre : pre ++ [e] <+: es) : M.enabled (M.run s pre) e := by
  induction pre generalizing s es with
  | nil =>
    obtain ⟨t, rfl⟩ := hPre
    exact h.1
  | cons a pre ih =>
    obtain ⟨t, rfl⟩ := hPre
    exact ih h.2.2 ⟨t, rfl⟩

/-- A property that the steps of some kind keep exactly when the guard holds is
true along a run of such steps exactly when the guard holds at every one. -/
theorem along_run_iff_of {P : σ → Prop} {G : σ → ε → Prop} {L : ε → Prop} {s : σ} (h0 : P s)
    (hStep : ∀ s e, L e → P s → (P (M.next s e) ↔ G s e)) (es : List ε) (hKind : ∀ e ∈ es, L e) :
    (∀ pre, pre <+: es → P (M.run s pre)) ↔ ∀ pre e, pre ++ [e] <+: es → G (M.run s pre) e := by
  have hLast : ∀ pre e, pre ++ [e] <+: es → L e := by
    intro pre e hPre
    exact hKind e (hPre.subset (List.mem_append_right _ (List.mem_singleton_self e)))
  constructor
  · intro h pre e hPre
    have hBefore : P (M.run s pre) := h pre ((List.prefix_append _ _).trans hPre)
    have hAfter : P (M.run s (pre ++ [e])) := h _ hPre
    rw [run_concat] at hAfter
    exact (hStep _ _ (hLast pre e hPre) hBefore).mp hAfter
  · intro h
    refine along_run h0 fun pre e hPre hBefore => ?_
    exact (hStep _ _ (hLast pre e hPre) hBefore).mpr (h pre e hPre)

/-- A property that a step keeps exactly when the guard holds there is true
along a run exactly when the guard holds at every step of it. -/
theorem along_run_iff {P : σ → Prop} {G : σ → ε → Prop} {s : σ} (h0 : P s)
    (hStep : ∀ s e, P s → (P (M.next s e) ↔ G s e)) (es : List ε) :
    (∀ pre, pre <+: es → P (M.run s pre)) ↔ ∀ pre e, pre ++ [e] <+: es → G (M.run s pre) e :=
  along_run_iff_of (L := fun _ => True) h0 (fun s e _ => hStep s e) es fun _ _ => trivial

/-- A property that steps of one kind keep exactly when the guard holds, and all
others keep anyway, is true after every step of the kind exactly when the guard
holds at every one of them. -/
theorem after_steps_iff {P : σ → Prop} {G : σ → ε → Prop} {L : ε → Prop} {s : σ} (h0 : P s)
    (hFree : ∀ s e, ¬ L e → P s → P (M.next s e)) (hStep : ∀ s e, L e → P s → (P (M.next s e) ↔ G s e))
    (es : List ε) :
    (∀ pre e, pre ++ [e] <+: es → L e → P (M.run s (pre ++ [e]))) ↔
      ∀ pre e, pre ++ [e] <+: es → L e → G (M.run s pre) e := by
  have hKept : ∀ s e, P s → (P (M.next s e) ↔ (L e → G s e)) := by
    intro s e hs
    by_cases hL : L e
    · rw [hStep s e hL hs]
      exact ⟨fun h _ => h, fun h => h hL⟩
    · exact iff_of_true (hFree s e hL hs) fun h => absurd h hL
  rw [← along_run_iff h0 hKept es]
  constructor
  · intro h
    refine along_run h0 fun pre e hPre hBefore => ?_
    by_cases hL : L e
    · rw [← run_concat]
      exact h pre e hPre hL
    · exact hFree _ e hL hBefore
  · intro h pre e hPre _
    exact h _ hPre

/-- The same beside an invariant that every step keeps. -/
theorem along_run_iff_inv {P I : σ → Prop} {G : σ → ε → Prop} {s : σ} (hI : I s) (h0 : P s)
    (hKeep : ∀ s e, I s → I (M.next s e)) (hStep : ∀ s e, I s → P s → (P (M.next s e) ↔ G s e))
    (es : List ε) :
    (∀ pre, pre <+: es → P (M.run s pre)) ↔ ∀ pre e, pre ++ [e] <+: es → G (M.run s pre) e := by
  have hAlways : ∀ pre, I (M.run s pre) := run_invariant hKeep hI
  rw [← along_run_iff (P := fun s => I s ∧ P s) ⟨hI, h0⟩ (fun s e h => ?_) es]
  · exact forall₂_congr fun pre _ => (and_iff_right (hAlways pre)).symm
  · exact (and_iff_right (hKeep s e h.1)).trans (hStep s e h.1 h.2)

/-- A property that holds after a step exactly when it held before and the guard
holds there is true at the end of a run exactly when the guard holds at every
step of it. -/
theorem run_iff_inv {P I : σ → Prop} {G : σ → ε → Prop} {s : σ} (hI : I s) (h0 : P s)
    (hKeep : ∀ s e, I s → I (M.next s e)) (hStep : ∀ s e, I s → (P (M.next s e) ↔ P s ∧ G s e))
    (es : List ε) : P (M.run s es) ↔ ∀ pre e, pre ++ [e] <+: es → G (M.run s pre) e := by
  have hBack : ∀ es' s, I s → P (M.run s es') → P s := by
    intro es'
    induction es' with
    | nil => exact fun _ _ h => h
    | cons e es' ih => exact fun s hs h => ((hStep s e hs).mp (ih _ (hKeep s e hs) h)).1
  have hAlways : ∀ pre, I (M.run s pre) := run_invariant hKeep hI
  rw [← along_run_iff_inv hI h0 hKeep (fun s e hs h => (hStep s e hs).trans (and_iff_right h)) es]
  constructor
  · rintro h pre ⟨rest, rfl⟩
    rw [run_append] at h
    exact hBack rest _ (hAlways pre) h
  · exact fun h => h es (List.prefix_refl es)

/-- A property of the states together with one of the steps, along a run whose
labels are enabled. -/
theorem along_steps_iff {P : σ → Prop} {Q G : σ → ε → Prop} {s : σ} (h0 : P s)
    (hStep : ∀ s e, M.enabled s e → P s → (P (M.next s e) ∧ Q s e ↔ G s e)) {es : List ε}
    (hes : Admissible M (fun _ _ => True) s es) :
    ((∀ pre, pre <+: es → P (M.run s pre)) ∧ ∀ pre e, pre ++ [e] <+: es → Q (M.run s pre) e) ↔
      ∀ pre e, pre ++ [e] <+: es → G (M.run s pre) e := by
  constructor
  · rintro ⟨hP, hQ⟩ pre e hPre
    have hAfter : P (M.run s (pre ++ [e])) := hP _ hPre
    rw [run_concat] at hAfter
    have hBefore : P (M.run s pre) := hP pre ((List.prefix_append _ _).trans hPre)
    exact (hStep _ _ (admissible_enabled hes hPre) hBefore).mp ⟨hAfter, hQ pre e hPre⟩
  · intro hG
    have hP : ∀ pre, pre <+: es → P (M.run s pre) := by
      refine along_run h0 fun pre e hPre hBefore => ?_
      exact ((hStep _ _ (admissible_enabled hes hPre) hBefore).mpr (hG pre e hPre)).1
    refine ⟨hP, fun pre e hPre => ?_⟩
    have hBefore : P (M.run s pre) := hP pre ((List.prefix_append _ _).trans hPre)
    exact ((hStep _ _ (admissible_enabled hes hPre) hBefore).mpr (hG pre e hPre)).2

end Machine

-- ---------------------------------------------------------------------------
-- Labelled paths
-- ---------------------------------------------------------------------------

/-- The labels lead from one state to the other, in their order. -/
def StepPath {σ ε : Type} (R : σ → ε → σ → Prop) : σ → List ε → σ → Prop
  | s, [], t => t = s
  | s, e :: es, t => ∃ u, R s e u ∧ StepPath R u es t

namespace StepPath

variable {σ ε : Type} {R : σ → ε → σ → Prop} {s t u : σ} {es : List ε} {e : ε}

/-- A path followed by one more step. -/
theorem concat (h : StepPath R s es t) (hStep : R t e u) : StepPath R s (es ++ [e]) u := by
  induction es generalizing s with
  | nil =>
    cases h
    exact ⟨u, hStep, rfl⟩
  | cons a es ih =>
    obtain ⟨v, hHead, hTail⟩ := h
    exact ⟨v, hHead, ih hTail⟩

/-- A path of steps that all stay where they are. -/
theorem eq_of_stay (h : StepPath R s es t) (hStay : ∀ e ∈ es, ∀ u, R s e u → u = s) : t = s := by
  induction es with
  | nil => exact h
  | cons a es ih =>
    obtain ⟨v, hHead, hTail⟩ := h
    cases hStay a (List.mem_cons_self ..) v hHead
    exact ih hTail fun e he => hStay e (List.mem_cons_of_mem _ he)

/-- Steps that stay, added to a path. -/
theorem append_stay {es' : List ε} (h : StepPath R s es t) (hStay : ∀ e ∈ es', R t e t) :
    StepPath R s (es ++ es') t := by
  induction es' generalizing es with
  | nil => simpa using h
  | cons a es' ih =>
    rw [List.append_cons]
    exact ih (h.concat (hStay a (List.mem_cons_self ..)))
      fun e he => hStay e (List.mem_cons_of_mem _ he)

end StepPath
