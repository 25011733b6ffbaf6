import Mathlib.Data.List.Induction
import Mathlib.Logic.Basic

/-!
# Receivers that accept in order only

A receiver that accepts the number due next and nothing else, over numbers
that arrive in any order, with gaps and copies; a number may close it. Such a
receiver misses no number that is ahead of all it has accepted exactly when no
arrival runs ahead of the arrivals before it (`keepsUp_iff`).
-/

namespace InOrder

variable (closes : Nat → Bool)

/-- `some c`: open, with `c` accepted last; `none`: closed. -/
def next : Option Nat → Nat → Option Nat
  | some c, x => if x = c + 1 then (if closes x then none else some x) else some c
  | none, _ => none

/-- The receiver after some arrivals. -/
def after (xs : List Nat) : Option Nat := xs.foldl (next closes) (some 0)

/-- The greatest arrival. -/
def top (xs : List Nat) : Nat := xs.foldl max 0

/-- A closing number arrived ahead of all that arrived before it. -/
def Closed (xs : List Nat) : Prop := ∃ pre x, pre ++ [x] <+: xs ∧ closes x ∧ top pre < x

variable {closes} {xs pre : List Nat} {x c : Nat}

theorem after_concat : after closes (xs ++ [x]) = next closes (after closes xs) x := by
  unfold after
  rw [List.foldl_append]
  rfl

theorem top_concat : top (xs ++ [x]) = max (top xs) x := by
  unfold top
  rw [List.foldl_append]
  rfl

theorem closed_concat : Closed closes (xs ++ [x]) ↔ Closed closes xs ∨ closes x ∧ top xs < x := by
  constructor
  · rintro ⟨pre, y, hPre, hCloses, hTop⟩
    rcases List.prefix_concat_iff.mp hPre with hAll | hPart
    · obtain ⟨rfl, hLast⟩ := List.append_inj' hAll rfl
      cases hLast
      exact .inr ⟨hCloses, hTop⟩
    · exact .inl ⟨pre, y, hPart, hCloses, hTop⟩
  · rintro (⟨pre, y, hPre, hCloses, hTop⟩ | ⟨hCloses, hTop⟩)
    · exact ⟨pre, y, hPre.trans (List.prefix_append _ _), hCloses, hTop⟩
    · exact ⟨xs, x, List.prefix_refl _, hCloses, hTop⟩

/-- While no arrival runs ahead of an open receiver, the receiver is closed
exactly when it was closed in order, and else has accepted the greatest arrival. -/
theorem after_of_keepsUp (closes : Nat → Bool)
    (h : ∀ pre x, pre ++ [x] <+: xs → ¬ Closed closes pre → after closes pre = some (top pre) →
      x ≤ top pre + 1) (hPre : pre <+: xs) :
    (Closed closes pre → after closes pre = none) ∧
      (¬ Closed closes pre → after closes pre = some (top pre)) := by
  induction pre using List.reverseRecOn with
  | nil =>
    refine ⟨?_, fun _ => rfl⟩
    rintro ⟨p, x, hp, _⟩
    exact absurd (List.prefix_nil.mp hp) (by simp)
  | append_singleton pre x ih =>
    obtain ⟨hClosed, hOpen⟩ := ih ((List.prefix_append _ _).trans hPre)
    rw [closed_concat, after_concat, top_concat]
    by_cases hOver : Closed closes pre
    · rw [hClosed hOver]
      exact ⟨fun _ => rfl, fun hNot => absurd (.inl hOver) hNot⟩
    · have hBound : x ≤ top pre + 1 := h pre x hPre hOver (hOpen hOver)
      rw [hOpen hOver]
      by_cases hDue : x = top pre + 1
      · have hStep : next closes (some (top pre)) x = if closes x then none else some x := if_pos hDue
        rw [hStep]
        by_cases hCloses : closes x
        · rw [if_pos hCloses]
          exact ⟨fun _ => rfl, fun hNot => absurd (.inr ⟨hCloses, by omega⟩) hNot⟩
        · rw [if_neg hCloses]
          refine ⟨?_, fun _ => by rw [Nat.max_eq_right (by omega)]⟩
          rintro (hFalse | ⟨hFalse, _⟩)
          · exact absurd hFalse hOver
          · exact absurd hFalse hCloses
      · have hStep : next closes (some (top pre)) x = some (top pre) := if_neg hDue
        rw [hStep]
        refine ⟨?_, fun _ => by rw [Nat.max_eq_left (by omega)]⟩
        rintro (hFalse | ⟨_, hFalse⟩)
        · exact absurd hFalse hOver
        · omega

/-- An open receiver is never more than one number behind an arrival if and only
if no arrival before the closing runs ahead of the arrivals before it. -/
theorem keepsUp_iff :
    (∀ pre x c, pre ++ [x] <+: xs → after closes pre = some c → x ≤ c + 1) ↔
      ∀ pre x, pre ++ [x] <+: xs → ¬ Closed closes pre → x ≤ top pre + 1 := by
  constructor
  · intro h pre x hPre hOpen
    have hAfter := (after_of_keepsUp closes
      (fun p y hp _ hp' => h p y _ hp hp') ((List.prefix_append _ _).trans hPre)).2 hOpen
    exact h pre x _ hPre hAfter
  · intro h pre x c hPre hAfter
    have hBoth := after_of_keepsUp closes (fun p y hp hNot _ => h p y hp hNot)
      ((List.prefix_append _ _).trans hPre)
    have hOpen : ¬ Closed closes pre := by
      intro hClosed
      rw [hBoth.1 hClosed] at hAfter
      cases hAfter
    have hTop := hBoth.2 hOpen
    rw [hAfter] at hTop
    rw [Option.some.inj hTop]
    exact h pre x hPre hOpen

/-- What a list yields in front of a number, its elements yield. -/
theorem exists_prefix_of_filterMap {α β : Type} {f : α → Option β} {xs : List α} {p : List β} {x : β}
    (h : p ++ [x] <+: xs.filterMap f) :
    ∃ pre a, pre ++ [a] <+: xs ∧ pre.filterMap f = p ∧ f a = some x := by
  obtain ⟨t, ht⟩ := h
  rw [List.append_assoc] at ht
  obtain ⟨l₁, l₂, rfl, hFront, hBack⟩ := List.filterMap_eq_append_iff.mp ht.symm
  obtain ⟨m, a, r, rfl, hNone, hSome, _⟩ := List.filterMap_eq_cons_iff.mp hBack
  refine ⟨l₁ ++ m, a, ⟨r, by simp⟩, ?_, hSome⟩
  rw [List.filterMap_append, hFront, List.filterMap_eq_nil_iff.mpr hNone, List.append_nil]

end InOrder
