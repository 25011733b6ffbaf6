import Mathlib.Data.List.Basic
import Mathlib.Tactic.SplitIfs

/-!
# Fixed-window counters

A counter holds the start of its window and the number of requests in it. A
request `width` or more after the start opens the next window, and up to
`limit` requests of a window are admitted.

* `countP_none_window_le` — at most `limit` requests are admitted in one window;
* `countP_none_span_le`   — at most twice as many in any span of that width;
* `request_agrees`        — a counter that was dropped when its window had
  passed answers as if it had been kept.
-/

namespace FixedWindow

/-- What was answered to a request: its time, the window it fell into, and
whether it was admitted. -/
structure Verdict where
  time : Nat
  window : Nat
  admitted : Bool
  deriving DecidableEq, Repr

/-- A request, to a counter that may not exist yet: the counter after it, and
whether the request is admitted. -/
def request (width limit : Nat) (c : Option (Nat × Nat)) (now : Nat) : (Nat × Nat) × Bool :=
  let (start, count) := c.getD (now, 0)
  if width ≤ now - start then ((now, 1), true)
  else ((start, count + 1), decide (count + 1 ≤ limit))

/-- The answers to requests at the given times. -/
def verdicts (width limit : Nat) : Option (Nat × Nat) → List Nat → List Verdict
  | _, [] => []
  | c, now :: times =>
    let r := request width limit c now
    { time := now, window := r.1.1, admitted := r.2 } :: verdicts width limit (some r.1) times

variable {width limit start count now : Nat} {times : List Nat} {c o : Option (Nat × Nat)}

theorem sorted_cons (hSorted : (start :: now :: times).Pairwise (· ≤ ·)) :
    start ≤ now ∧ (start :: times).Pairwise (· ≤ ·) ∧ (now :: times).Pairwise (· ≤ ·) := by
  obtain ⟨hFrom, hRest⟩ := List.pairwise_cons.mp hSorted
  exact ⟨hFrom now (List.mem_cons_self ..),
    hSorted.sublist (List.Sublist.cons_cons _ (List.sublist_cons_self ..)), hRest⟩

/-- A request goes into the running window, or opens the next one. -/
theorem request_some (width limit count : Nat) (hLate : start ≤ now) :
    (now < start + width ∧
      request width limit (some (start, count)) now = ((start, count + 1), decide (count + 1 ≤ limit))) ∨
    (start + width ≤ now ∧ request width limit (some (start, count)) now = ((now, 1), true)) := by
  by_cases hNext : width ≤ now - start
  · exact .inr ⟨by omega, if_pos hNext⟩
  · exact .inl ⟨by omega, if_neg hNext⟩

/-- The first request is answered by a counter at zero whose window it opens. -/
theorem verdicts_none : verdicts width limit none (now :: times) =
    verdicts width limit (some (now, 0)) (now :: times) := rfl

-- ---------------------------------------------------------------------------
-- Windows
-- ---------------------------------------------------------------------------

/-- Every request lies in its window, and the windows come one after another,
each open for at least the width. -/
theorem verdicts_windows (limit count : Nat) (hWidth : 1 ≤ width) (hSorted : (start :: times).Pairwise (· ≤ ·)) :
    (∀ v ∈ verdicts width limit (some (start, count)) times,
      (v.window = start ∨ start + width ≤ v.window) ∧ v.window ≤ v.time ∧ v.time < v.window + width) ∧
    (verdicts width limit (some (start, count)) times).Pairwise
      (fun v v' => v.window = v'.window ∨ v.window + width ≤ v'.window) := by
  induction times generalizing start count with
  | nil => exact ⟨List.forall_mem_nil _, List.Pairwise.nil⟩
  | cons now times ih =>
    obtain ⟨hLate, hSame, hRest⟩ := sorted_cons hSorted
    rcases request_some width limit count hLate with ⟨hIn, hReq⟩ | ⟨hNext, hReq⟩
    · obtain ⟨hEach, hPair⟩ := ih (count + 1) hSame
      rw [verdicts, hReq, List.forall_mem_cons, List.pairwise_cons]
      refine ⟨⟨⟨Or.inl rfl, hLate, hIn⟩, hEach⟩, fun v hv => ?_, hPair⟩
      exact (hEach v hv).1.imp_left Eq.symm
    · obtain ⟨hEach, hPair⟩ := ih 1 hRest
      have hHere : now < now + width := by omega
      rw [verdicts, hReq, List.forall_mem_cons, List.pairwise_cons]
      refine ⟨⟨⟨Or.inr hNext, Nat.le_refl _, hHere⟩, fun v hv => ?_⟩, fun v hv => ?_, hPair⟩
      · obtain ⟨hWindow, hTime⟩ := hEach v hv
        exact ⟨Or.inr (by omega), hTime⟩
      · exact (hEach v hv).1.imp_left Eq.symm

-- ---------------------------------------------------------------------------
-- Bounds
-- ---------------------------------------------------------------------------

/-- How many more requests of window `w` a counter can admit. -/
def leftInWindow (limit start count w : Nat) : Nat :=
  if w < start then 0 else if w = start then limit - count else limit

theorem countP_window_le (hWidth : 1 ≤ width) (hLimit : 1 ≤ limit)
    (hSorted : (start :: times).Pairwise (· ≤ ·)) (w : Nat) :
    (verdicts width limit (some (start, count)) times).countP (fun v => v.admitted ∧ v.window = w) ≤
      leftInWindow limit start count w := by
  induction times generalizing start count with
  | nil => exact Nat.zero_le _
  | cons now times ih =>
    obtain ⟨hLate, hSame, hRest⟩ := sorted_cons hSorted
    rcases request_some width limit count hLate with ⟨hIn, hReq⟩ | ⟨hNext, hReq⟩
    · have hTail := @ih start (count + 1) hSame
      simp only [verdicts, hReq, List.countP_cons, decide_eq_true_eq]
      unfold leftInWindow at hTail ⊢
      grind
    · have hTail := @ih now 1 hRest
      simp only [verdicts, hReq, List.countP_cons, decide_eq_true_eq]
      unfold leftInWindow at hTail ⊢
      grind

/-- How many more requests a counter can admit from time `t` on until `width`
later: those of the window it is in, and those of the one after it if that one
can open in time. -/
def leftInSpan (width limit start count t : Nat) : Nat :=
  if t + width ≤ start then 0
  else if t ≤ start then limit - count
  else if t < start + width then (limit - count) + limit
  else limit + limit

theorem countP_span_le (hLimit : 1 ≤ limit)
    (hSorted : (start :: times).Pairwise (· ≤ ·)) (t : Nat) :
    (verdicts width limit (some (start, count)) times).countP
      (fun v => v.admitted ∧ t ≤ v.time ∧ v.time < t + width) ≤ leftInSpan width limit start count t := by
  induction times generalizing start count with
  | nil => exact Nat.zero_le _
  | cons now times ih =>
    obtain ⟨hLate, hSame, hRest⟩ := sorted_cons hSorted
    rcases request_some width limit count hLate with ⟨hIn, hReq⟩ | ⟨hNext, hReq⟩
    · have hTail := @ih start (count + 1) hSame
      simp only [verdicts, hReq, List.countP_cons, decide_eq_true_eq]
      unfold leftInSpan at hTail ⊢
      grind
    · have hTail := @ih now 1 hRest
      simp only [verdicts, hReq, List.countP_cons, decide_eq_true_eq]
      unfold leftInSpan at hTail ⊢
      grind

-- ---------------------------------------------------------------------------
-- From the first request on
-- ---------------------------------------------------------------------------

/-- What holds of every counter that starts at zero with the first request holds
of one that does not exist yet. -/
theorem verdicts_none_of {P : List Verdict → Prop} (hEmpty : P [])
    (h : ∀ start, (start :: times).Pairwise (· ≤ ·) → P (verdicts width limit (some (start, 0)) times))
    (hSorted : times.Pairwise (· ≤ ·)) : P (verdicts width limit none times) := by
  cases times with
  | nil => exact hEmpty
  | cons now times =>
    rw [verdicts_none]
    refine h now (List.pairwise_cons.mpr ⟨?_, hSorted⟩)
    rw [List.forall_mem_cons]
    exact ⟨Nat.le_refl _, (List.pairwise_cons.mp hSorted).1⟩

theorem verdicts_none_windows (limit : Nat) (hWidth : 1 ≤ width) (hSorted : times.Pairwise (· ≤ ·)) :
    (∀ v ∈ verdicts width limit none times, v.window ≤ v.time ∧ v.time < v.window + width) ∧
    (verdicts width limit none times).Pairwise
      (fun v v' => v.window = v'.window ∨ v.window + width ≤ v'.window) := by
  refine verdicts_none_of (P := fun vs => (∀ v ∈ vs, v.window ≤ v.time ∧ v.time < v.window + width) ∧
    vs.Pairwise fun v v' => v.window = v'.window ∨ v.window + width ≤ v'.window)
    ⟨List.forall_mem_nil _, List.Pairwise.nil⟩ (fun start hStart => ?_) hSorted
  obtain ⟨hEach, hPair⟩ := verdicts_windows limit 0 hWidth hStart
  exact ⟨fun v hv => (hEach v hv).2, hPair⟩

theorem countP_none_window_le (hWidth : 1 ≤ width) (hLimit : 1 ≤ limit) (hSorted : times.Pairwise (· ≤ ·))
    (w : Nat) :
    (verdicts width limit none times).countP (fun v => v.admitted ∧ v.window = w) ≤ limit := by
  refine verdicts_none_of (P := fun vs => vs.countP (fun v => v.admitted ∧ v.window = w) ≤ limit)
    (Nat.zero_le _) (fun start hStart => ?_) hSorted
  refine Nat.le_trans (countP_window_le hWidth hLimit hStart w) ?_
  unfold leftInWindow
  split
  · exact Nat.zero_le _
  · split
    · exact Nat.sub_le _ _
    · exact Nat.le_refl _

theorem countP_none_span_le (hLimit : 1 ≤ limit) (hSorted : times.Pairwise (· ≤ ·)) (t : Nat) :
    (verdicts width limit none times).countP
      (fun v => v.admitted ∧ t ≤ v.time ∧ v.time < t + width) ≤ 2 * limit := by
  refine verdicts_none_of
    (P := fun vs => vs.countP (fun v => v.admitted ∧ t ≤ v.time ∧ v.time < t + width) ≤ 2 * limit)
    (Nat.zero_le _) (fun start hStart => ?_) hSorted
  refine Nat.le_trans (countP_span_le hLimit hStart t) ?_
  unfold leftInSpan
  split_ifs <;> omega

-- ---------------------------------------------------------------------------
-- Counters that are dropped
-- ---------------------------------------------------------------------------

/-- `o` is the counter `c`, or has been dropped after the window of `c` passed. -/
def Agrees (width now : Nat) (o c : Option (Nat × Nat)) : Prop :=
  o = c ∨ (o = none ∧ ∃ start count, c = some (start, count) ∧ width ≤ now - start)

theorem Agrees.refl : Agrees width now c c := .inl rfl

theorem Agrees.mono {later : Nat} (h : Agrees width now o c) (hLater : now ≤ later) :
    Agrees width later o c := by
  rcases h with hSame | ⟨hNone, start, count, hSome, hPassed⟩
  · exact .inl hSame
  · exact .inr ⟨hNone, start, count, hSome, by omega⟩

/-- A counter whose window has passed may go. -/
theorem Agrees.drop (h : Agrees width now o c) :
    Agrees width now (o.filter fun window => decide (now - window.1 < width)) c := by
  rcases h with rfl | ⟨rfl, hDropped⟩
  · cases o with
    | none => exact .inl rfl
    | some window =>
      by_cases hOpen : now - window.1 < width
      · rw [Option.filter_some, if_pos (decide_eq_true hOpen)]
        exact .inl rfl
      · rw [Option.filter_some, if_neg (by simpa using hOpen)]
        exact .inr ⟨rfl, window.1, window.2, rfl, by omega⟩
  · exact .inr ⟨rfl, hDropped⟩

/-- A counter that was dropped answers like the one that was kept, and is the
same afterwards. -/
theorem request_agrees (hWidth : 1 ≤ width) (hLimit : 1 ≤ limit) (h : Agrees width now o c) :
    request width limit o now = request width limit c now := by
  rcases h with rfl | ⟨rfl, start, count, rfl, hPassed⟩
  · rfl
  · have hDropped : request width limit none now = ((now, 1), true) := by
      have hOpens : ¬ width ≤ now - now := by omega
      have hAdmitted : decide (0 + 1 ≤ limit) = true := decide_eq_true hLimit
      show (if width ≤ now - now then _ else ((now, 0 + 1), decide (0 + 1 ≤ limit))) = _
      rw [if_neg hOpens, hAdmitted]
    have hKept : request width limit (some (start, count)) now = ((now, 1), true) := if_pos hPassed
    rw [hDropped, hKept]

end FixedWindow
