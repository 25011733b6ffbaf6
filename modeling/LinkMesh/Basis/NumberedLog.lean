import Mathlib.Data.List.Basic
import Mathlib.Order.Basic

/-!
# Numbered logs

Lists of entries with strictly increasing positive numbers, as a sender's log
of what it transmitted. A reader that takes the entries numbered `1, 2, 3, …`
one after the other has read a prefix of the log.

* `Filled log n`     — the first `n` entries are numbered `1 .. n`;
* `Filled.extend`    — reading on from there, entry by entry, in number order;
* `Filled.getElem?`  — an entry numbered at most `n` is at its own position.
-/

namespace NumberedLog

variable {α : Type} {log : List (Nat × α)} {n : Nat}

/-- Strictly increasing positive numbers. -/
structure Increasing (log : List (Nat × α)) : Prop where
  lt : log.Pairwise fun a b => a.1 < b.1
  pos : ∀ e ∈ log, 0 < e.1

/-- The first `n` entries are there and numbered `1 .. n`. -/
def Filled (log : List (Nat × α)) (n : Nat) : Prop :=
  ∀ i < n, ∃ p, log[i]? = some (i + 1, p)

theorem increasing_nil : Increasing ([] : List (Nat × α)) := ⟨.nil, nofun⟩

theorem Increasing.concat {k : Nat} {p : α} (h : Increasing log) (hk : 0 < k)
    (hLast : ∀ e ∈ log, e.1 < k) : Increasing (log ++ [(k, p)]) where
  lt := by
    rw [List.pairwise_append]
    refine ⟨h.lt, List.pairwise_singleton _ _, fun a ha b hb => ?_⟩
    cases List.mem_singleton.mp hb
    exact hLast a ha
  pos e he := by
    rcases List.mem_append.mp he with he | he
    · exact h.pos e he
    · cases List.mem_singleton.mp he
      exact hk

theorem Increasing.lt_of_getElem? (h : Increasing log) {i j : Nat} {a b : Nat × α}
    (hi : log[i]? = some a) (hj : log[j]? = some b) (hij : i < j) : a.1 < b.1 := by
  obtain ⟨hi', rfl⟩ := List.getElem?_eq_some_iff.mp hi
  obtain ⟨hj', rfl⟩ := List.getElem?_eq_some_iff.mp hj
  exact List.pairwise_iff_getElem.mp h.lt i j hi' hj' hij

theorem Filled.append (h : Filled log n) (log' : List (Nat × α)) : Filled (log ++ log') n := by
  intro i hi
  obtain ⟨p, hp⟩ := h i hi
  exact ⟨p, by rw [List.getElem?_append_left (List.getElem?_eq_some_iff.mp hp).1, hp]⟩

theorem Filled.length_le (h : Filled log n) : n ≤ log.length := by
  cases n with
  | zero => exact Nat.zero_le _
  | succ n =>
    obtain ⟨p, hp⟩ := h n (Nat.lt_succ_self n)
    exact (List.getElem?_eq_some_iff.mp hp).1

/-- An entry numbered within the filled part is at its own position. -/
theorem Filled.getElem? (h : Filled log n) (hInc : Increasing log) {q : Nat} {p : α}
    (hMem : (q, p) ∈ log) (hq : q ≤ n) : log[q - 1]? = some (q, p) := by
  have hPos : 0 < q := hInc.pos _ hMem
  obtain ⟨j, hj⟩ := List.mem_iff_getElem?.mp hMem
  obtain ⟨p', hp'⟩ := h (q - 1) (by omega)
  rw [Nat.sub_add_cancel hPos] at hp'
  rcases Nat.lt_trichotomy j (q - 1) with hLt | rfl | hGt
  · exact absurd (hInc.lt_of_getElem? hj hp' hLt) (Nat.lt_irrefl _)
  · exact hj
  · exact absurd (hInc.lt_of_getElem? hp' hj hGt) (Nat.lt_irrefl _)

/-- The entry numbered `n + 1` comes right after the filled part. -/
theorem Filled.next (h : Filled log n) (hInc : Increasing log) {p : α} (hMem : (n + 1, p) ∈ log) :
    log[n]? = some (n + 1, p) := by
  obtain ⟨j, hj⟩ := List.mem_iff_getElem?.mp hMem
  rcases Nat.lt_trichotomy j n with hLt | rfl | hGt
  · obtain ⟨p', hp'⟩ := h j hLt
    cases hj.symm.trans hp'
    omega
  · exact hj
  · -- entry `n` would be numbered below `n + 1`, and above the `n` entries before it
    obtain ⟨e, he⟩ : ∃ e, log[n]? = some e :=
      ⟨_, List.getElem?_eq_getElem (Nat.lt_trans hGt (List.getElem?_eq_some_iff.mp hj).1)⟩
    have hAbove := hInc.lt_of_getElem? he hj hGt
    have hPos := hInc.pos e (List.mem_of_getElem? he)
    cases n with
    | zero => simp only [Nat.zero_add, Nat.lt_one_iff] at hAbove; omega
    | succ n =>
      obtain ⟨p', hp'⟩ := h n (Nat.lt_succ_self n)
      have hBelow := hInc.lt_of_getElem? hp' he (Nat.lt_succ_self n)
      simp only at hAbove hBelow
      omega

/-- The entries after the filled part are numbered beyond it. -/
theorem Filled.lt_of_mem_drop (h : Filled log n) (hInc : Increasing log) {e : Nat × α} (hMem : e ∈ log.drop n) :
    n < e.1 := by
  by_contra hNot
  obtain ⟨i, hi⟩ := List.mem_iff_getElem?.mp hMem
  rw [List.getElem?_drop] at hi
  have hPos : 0 < e.1 := hInc.pos e (List.mem_of_mem_drop hMem)
  have hAt : log[e.1 - 1]? = some e := h.getElem? hInc (List.mem_of_mem_drop hMem) (by omega)
  exact absurd (hInc.lt_of_getElem? hAt hi (by omega)) (Nat.lt_irrefl _)

/-- A number is given once. -/
theorem Increasing.inj (h : Increasing log) {q : Nat} {p p' : α} (hp : (q, p) ∈ log) (hp' : (q, p') ∈ log) :
    p = p' := by
  obtain ⟨i, hi⟩ := List.mem_iff_getElem?.mp hp
  obtain ⟨j, hj⟩ := List.mem_iff_getElem?.mp hp'
  rcases Nat.lt_trichotomy i j with hLt | rfl | hGt
  · exact absurd (h.lt_of_getElem? hi hj hLt) (Nat.lt_irrefl _)
  · cases hi.symm.trans hj
    rfl
  · exact absurd (h.lt_of_getElem? hj hi hGt) (Nat.lt_irrefl _)

/-- Reading on: payloads that are those of the next numbers extend the filled
part, and what was read stays a prefix of the log. -/
theorem Filled.extend (h : Filled log n) (hInc : Increasing log) (ps : List α)
    (hps : ∀ i p, ps[i]? = some p → (n + 1 + i, p) ∈ log) :
    Filled log (n + ps.length) ∧
      (log.take (n + ps.length)).map Prod.snd = (log.take n).map Prod.snd ++ ps := by
  induction ps generalizing n with
  | nil => exact ⟨h, by simp⟩
  | cons p ps ih =>
    have hHead : log[n]? = some (n + 1, p) := h.next hInc (hps 0 p rfl)
    have hFilled : Filled log (n + 1) := by
      intro i hi
      rcases Nat.lt_succ_iff_lt_or_eq.mp hi with hi | rfl
      · exact h i hi
      · exact ⟨p, hHead⟩
    obtain ⟨hAll, hTake⟩ := ih hFilled fun i p' hp' => by
      have hNext := hps (i + 1) p' hp'
      rwa [← Nat.add_assoc, Nat.add_right_comm] at hNext
    have hLen : n + (p :: ps).length = n + 1 + ps.length := by
      rw [List.length_cons]
      omega
    rw [hLen]
    refine ⟨hAll, ?_⟩
    rw [hTake, List.take_add_one, hHead]
    simp

end NumberedLog
