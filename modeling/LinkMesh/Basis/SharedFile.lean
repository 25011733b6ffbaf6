import Mathlib.Logic.Function.Basic

/-!
# A file replaced through one temporary file

Writers save by writing a temporary file and renaming it over the file. All of
them use the same temporary name, so that a rename publishes whatever the
temporary file holds by then, and fails if another rename has taken it.

## Results

* `file_of_settled` — when every writer is done, the file holds what was written
  to the temporary file last.
* `Held.of_step`    — what is in the file or on its way there was submitted.
-/

/-- How far a writer has come with its save. -/
inductive SavePhase (α : Type) where
  | idle
  /-- what is to be saved is settled -/
  | due (a : α)
  /-- the temporary file is written -/
  | written

structure SharedFile (ι α : Type) where
  file : α
  tmp : Option α := none
  phase : ι → SavePhase α := fun _ => .idle
  /-- what was written last -/
  last : α

inductive SaveStep (ι : Type) where
  | write (w : ι)
  | rename (w : ι)

namespace SharedFile

variable {ι α : Type} [DecidableEq ι]

def setPhase (d : SharedFile ι α) (w : ι) (p : SavePhase α) : SharedFile ι α :=
  { d with phase := Function.update d.phase w p }

def submit (d : SharedFile ι α) (w : ι) (a : α) : SharedFile ι α := d.setPhase w (.due a)

def step (d : SharedFile ι α) : SaveStep ι → SharedFile ι α
  | .write w =>
    match d.phase w with
    | .due a => { d.setPhase w .written with tmp := some a, last := a }
    | _ => d
  | .rename w =>
    match d.phase w with
    | .written =>
      match d.tmp with
      | some a => { d.setPhase w .idle with file := a, tmp := none }
      | none => d.setPhase w .idle
    | _ => d

/-- The save fails. A write may leave anything in the temporary file. -/
def fail (d : SharedFile ι α) (w : ι) (left : Option α) : SharedFile ι α :=
  { d.setPhase w .idle with tmp := left }

/-- Nobody is saving. -/
def Settled (d : SharedFile ι α) : Prop := ∀ w, d.phase w = .idle

/-- What a rename of the writer publishes. -/
def publishes (d : SharedFile ι α) : SaveStep ι → Option α
  | .write _ => none
  | .rename w =>
    match d.phase w with
    | .written => d.tmp
    | _ => none

variable {d : SharedFile ι α} {w : ι} {a : α} {e : SaveStep ι}

@[simp] theorem phase_submit_self : (d.submit w a).phase w = .due a := Function.update_self ..

theorem phase_setPhase_of_ne {w' : ι} {p : SavePhase α} (h : w' ≠ w) :
    (d.setPhase w p).phase w' = d.phase w' := Function.update_of_ne h ..

theorem phase_submit_of_ne {w' : ι} (h : w' ≠ w) : (d.submit w a).phase w' = d.phase w' :=
  phase_setPhase_of_ne h

/-- Only a rename changes the file. -/
theorem step_file : (d.step e).file = (d.publishes e).getD d.file := by
  cases e with
  | write w =>
    unfold step publishes
    dsimp only
    split
    · rfl
    · rfl
  | rename w =>
    unfold step publishes
    dsimp only
    cases d.phase w with
    | written =>
      cases d.tmp with
      | none => rfl
      | some a => rfl
    | _ => rfl

omit [DecidableEq ι] in
theorem publishes_tmp (h : d.publishes e = some a) : d.tmp = some a := by
  cases e with
  | write w => cases h
  | rename w =>
    unfold publishes at h
    dsimp only at h
    split at h
    · exact h
    · cases h

-- ---------------------------------------------------------------------------
-- What is on its way
-- ---------------------------------------------------------------------------

/-- The value is in the temporary file, or due to be written there. -/
def Held (d : SharedFile ι α) (a : α) : Prop := d.tmp = some a ∨ ∃ w, d.phase w = .due a

theorem Held.of_submit {b : α} (h : (d.submit w a).Held b) : d.Held b ∨ b = a := by
  rcases h with hTmp | ⟨w', hDue⟩
  · exact .inl (.inl hTmp)
  · by_cases hSame : w' = w
    · subst hSame
      have hDue : Function.update d.phase w' (.due a) w' = .due b := hDue
      rw [Function.update_self] at hDue
      cases hDue
      exact .inr rfl
    · have hDue : Function.update d.phase w (.due a) w' = .due b := hDue
      rw [Function.update_of_ne hSame] at hDue
      exact .inl (.inr ⟨w', hDue⟩)

theorem due_of_setPhase {p : SavePhase α} {w' : ι} (hPhase : ∀ b, p ≠ .due b)
    (h : (d.setPhase w p).phase w' = .due a) : d.phase w' = .due a := by
  by_cases hSame : w' = w
  · subst hSame
    have h : Function.update d.phase w' p w' = .due a := h
    rw [Function.update_self] at h
    exact absurd h (hPhase a)
  · have h : Function.update d.phase w p w' = .due a := h
    rwa [Function.update_of_ne hSame] at h

/-- A save brings nothing up that was not on its way. -/
theorem Held.of_step (h : (d.step e).Held a) : d.Held a := by
  cases e with
  | write w =>
    unfold step at h
    dsimp only at h
    split at h
    · rename_i b hWriter
      rcases h with hTmp | ⟨w', hDue⟩
      · cases hTmp
        exact .inr ⟨w, hWriter⟩
      · exact .inr ⟨w', due_of_setPhase (by simp) hDue⟩
    · exact h
  | rename w =>
    unfold step at h
    dsimp only at h
    split at h
    · split at h
      · rcases h with hTmp | ⟨w', hDue⟩
        · cases hTmp
        · exact .inr ⟨w', due_of_setPhase (by simp) hDue⟩
      · rcases h with hTmp | ⟨w', hDue⟩
        · exact .inl hTmp
        · exact .inr ⟨w', due_of_setPhase (by simp) hDue⟩
    · exact h

/-- What is written last was on its way before. -/
theorem last_step (d : SharedFile ι α) (e : SaveStep ι) :
    (d.step e).last = d.last ∨ d.Held (d.step e).last := by
  cases e with
  | write w =>
    unfold step
    dsimp only
    split
    · rename_i a hDue
      exact .inr (.inr ⟨w, hDue⟩)
    · exact .inl rfl
  | rename w =>
    unfold step
    dsimp only
    split
    · split
      · exact .inl rfl
      · exact .inl rfl
    · exact .inl rfl

-- ---------------------------------------------------------------------------
-- When everybody is done
-- ---------------------------------------------------------------------------

/-- What was written last is in the temporary file, on behalf of a writer who has
yet to rename it, or in the file. -/
def Tidy (d : SharedFile ι α) : Prop :=
  match d.tmp with
  | some a => d.last = a ∧ ∃ w, d.phase w = .written
  | none => d.file = d.last

theorem tidy_submit (h : d.Tidy) (hIdle : d.phase w = .idle) : (d.submit w a).Tidy := by
  unfold Tidy at h ⊢
  show match d.tmp with
    | some a' => d.last = a' ∧ ∃ w', Function.update d.phase w (.due a) w' = .written
    | none => d.file = d.last
  split at h
  · obtain ⟨hLast, w', hWritten⟩ := h
    refine ⟨hLast, w', ?_⟩
    have hOther : w' ≠ w := by
      rintro rfl
      rw [hIdle] at hWritten
      cases hWritten
    rw [Function.update_of_ne hOther]
    exact hWritten
  · exact h

theorem tidy_step (h : d.Tidy) : (d.step e).Tidy := by
  cases e with
  | write w =>
    unfold step
    dsimp only
    split
    · exact ⟨rfl, w, Function.update_self ..⟩
    · exact h
  | rename w =>
    unfold step
    dsimp only
    split
    · unfold Tidy at h ⊢
      cases hTmp : d.tmp with
      | some a =>
        rw [hTmp] at h
        exact h.1.symm
      | none =>
        rw [hTmp] at h
        show match d.tmp with
          | some a => d.last = a ∧ ∃ w', (d.setPhase w .idle).phase w' = .written
          | none => d.file = d.last
        rw [hTmp]
        exact h
    · exact h

omit [DecidableEq ι] in
/-- When every writer is done, the file holds what was written last. -/
theorem file_of_settled (h : d.Tidy) (hSettled : d.Settled) : d.file = d.last := by
  unfold Tidy at h
  split at h
  · obtain ⟨_, w, hWritten⟩ := h
    rw [hSettled w] at hWritten
    cases hWritten
  · exact h

/-- A save that nobody interrupts. -/
theorem step_write_rename (h : d.phase w = .due a) :
    (d.step (.write w)).step (.rename w) =
      { d.setPhase w .idle with file := a, tmp := none, last := a } := by
  simp [step, setPhase, h]

end SharedFile
