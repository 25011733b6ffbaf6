import Mathlib.Computability.Language
import Mathlib.Logic.Function.Basic
import Mathlib.Logic.Relation
import Mathlib.Order.CompletePartialOrder
import LinkMesh.Basis.Machine

/-!
# Lock order

Concurrent tasks that acquire and release mutual exclusion locks, at the
granularity of these operations. What a call does to the locks is a language
over them: the sequences its branches and loops can give.

* `Keeps`    — a triple: from the locks held before, every request of the call
  satisfies a condition, and it ends with the locks held after; one rule for
  each way to put calls together;
* `machine`  — any number of tasks, each running any calls one after another;
* `no_cycle` — requests follow a ranking of the locks, except for waived ones;
  in every run in which no waived request waits, no cycle of tasks waits for
  one another.
-/

namespace Locks

open Computability

variable {L : Type}

inductive LockOp (L : Type) where
  | acquire (l : L)
  | release (l : L)
  deriving DecidableEq

-- ---------------------------------------------------------------------------
-- What a call does to the locks
-- ---------------------------------------------------------------------------

def acquire (l : L) : Language (LockOp L) := {[.acquire l]}

def release (l : L) : Language (LockOp L) := {[.release l]}

/-- A guard that lives as long as the body. -/
def hold (l : L) (body : Language (LockOp L)) : Language (LockOp L) :=
  acquire l * body * release l

theorem acquire_mem (l : L) : [.acquire l] ∈ acquire l := rfl

theorem release_mem (l : L) : [.release l] ∈ release l := rfl

theorem hold_mem {l : L} {body : Language (LockOp L)} {ops : List (LockOp L)} (h : ops ∈ body) :
    [.acquire l] ++ ops ++ [.release l] ∈ hold l body :=
  Language.append_mem_mul (Language.append_mem_mul (acquire_mem l) h) (release_mem l)

variable [DecidableEq L]

namespace LockOp

/-- The locks held after the operation. -/
def held (H : List L) : LockOp L → List L
  | .acquire l => l :: H
  | .release l => H.erase l

/-- A request satisfies `ok`, and only a lock that is held is released. -/
def Meets (ok : List L → L → Prop) (H : List L) : LockOp L → Prop
  | .acquire l => ok H l
  | .release l => l ∈ H

end LockOp

variable {ok : List L → L → Prop} {H H' H'' : List L}

/-- Every operation of the sequence meets `ok`, and it leads from `H` to `H'`. -/
def Leads (ok : List L → L → Prop) : List L → List (LockOp L) → List L → Prop
  | H, [], H' => H' = H
  | H, op :: ops, H' => op.Meets ok H ∧ Leads ok (op.held H) ops H'

theorem Leads.append {xs ys : List (LockOp L)} (h : Leads ok H xs H') (h' : Leads ok H' ys H'') :
    Leads ok H (xs ++ ys) H'' := by
  induction xs generalizing H with
  | nil =>
    cases h
    exact h'
  | cons x xs ih => exact ⟨h.1, ih h.2⟩

/-- The triple: the call leads from the locks `H` to the locks `H'`. -/
def Keeps (ok : List L → L → Prop) (H : List L) (p : Language (LockOp L)) (H' : List L) : Prop :=
  ∀ ops ∈ p, Leads ok H ops H'

namespace Keeps

variable {p q : Language (LockOp L)}

theorem one : Keeps ok H 1 H := by
  intro ops hOps
  cases hOps
  rfl

theorem acquire {l : L} (h : ok H l) : Keeps ok H (acquire l) (l :: H) := by
  intro ops hOps
  cases hOps
  exact ⟨h, rfl⟩

theorem release {l : L} (h : l ∈ H) : Keeps ok H (release l) (H.erase l) := by
  intro ops hOps
  cases hOps
  exact ⟨h, rfl⟩

theorem mul (hp : Keeps ok H p H') (hq : Keeps ok H' q H'') : Keeps ok H (p * q) H'' := by
  intro ops hOps
  obtain ⟨xs, hxs, ys, hys, rfl⟩ := Language.mem_mul.mp hOps
  exact (hp xs hxs).append (hq ys hys)

theorem add (hp : Keeps ok H p H') (hq : Keeps ok H q H') : Keeps ok H (p + q) H' := by
  intro ops hOps
  rcases (Language.mem_add _ _ _).mp hOps with hOps | hOps
  · exact hp ops hOps
  · exact hq ops hOps

/-- A section that may be skipped. -/
theorem opt (hp : Keeps ok H p H) : Keeps ok H (1 + p) H := add one hp

theorem iSup {ι : Type} {p : ι → Language (LockOp L)} (hp : ∀ i, Keeps ok H (p i) H') :
    Keeps ok H (⨆ i, p i) H' := by
  intro ops hOps
  obtain ⟨i, hi⟩ := Language.mem_iSup.mp hOps
  exact hp i ops hi

theorem kstar (hp : Keeps ok H p H) : Keeps ok H (p∗) H := by
  intro ops hOps
  obtain ⟨rounds, rfl, hRounds⟩ := Language.mem_kstar.mp hOps
  clear hOps
  induction rounds with
  | nil => rfl
  | cons xs rounds ih =>
    exact (hp xs (hRounds xs (List.mem_cons_self ..))).append
      (ih fun ys hys => hRounds ys (List.mem_cons_of_mem _ hys))

theorem hold {l : L} (h : ok H l) (hp : Keeps ok (l :: H) p (l :: H)) :
    Keeps ok H (hold l p) H := by
  have hAll := ((acquire h).mul hp).mul (release (List.mem_cons_self ..))
  rwa [List.erase_cons_head] at hAll

end Keeps

-- ---------------------------------------------------------------------------
-- Tasks
-- ---------------------------------------------------------------------------

/-- A task: the locks it holds, and what is left of its call. -/
structure Task (L : Type) where
  held : List L
  todo : List (LockOp L)
  deriving DecidableEq

/-- The task after its next operation. -/
def Task.next (k : Task L) : Task L :=
  match k.todo with
  | [] => k
  | op :: ops => ⟨op.held k.held, ops⟩

/-- The lock that the task's next operation acquires. -/
def Task.request (k : Task L) : Option L :=
  match k.todo with
  | .acquire l :: _ => some l
  | _ => none

variable {ι : Type}

/-- No task holds `l`. -/
def Free (s : ι → Task L) (l : L) : Prop := ∀ t, l ∉ (s t).held

instance [Fintype ι] (s : ι → Task L) (l : L) : Decidable (Free s l) :=
  inferInstanceAs (Decidable (∀ t, l ∉ (s t).held))

/-- `t` asks for a lock that `u` holds. -/
def WaitsFor (s : ι → Task L) (t u : ι) : Prop := ∃ l ∈ (s t).request, l ∈ (s u).held

inductive Label (ι L : Type) where
  /-- an idle task begins a call -/
  | call (t : ι) (ops : List (LockOp L))
  /-- a task performs its next operation -/
  | op (t : ι)

variable [DecidableEq ι]

/-- Tasks that run calls of `p`; at first all are idle. -/
def machine (p : Language (LockOp L)) : Machine (ι → Task L) (Label ι L) where
  init s := ∀ t, s t = ⟨[], []⟩
  enabled s
    | .call t ops => (s t).todo = [] ∧ ops ∈ p
    | .op t => (s t).todo ≠ [] ∧ ∀ l ∈ (s t).request, Free s l
  next s
    | .call t ops => Function.update s t ⟨(s t).held, ops⟩
    | .op t => Function.update s t (s t).next

/-- With finitely many tasks and one call, what is enabled is decidable. -/
instance [Fintype ι] (ops : List (LockOp L)) (s : ι → Task L) :
    ∀ e, Decidable ((machine ({ops} : Language (LockOp L))).enabled s e)
  | .call t ops' => inferInstanceAs (Decidable ((s t).todo = [] ∧ ops' = ops))
  | .op t => inferInstanceAs (Decidable ((s t).todo ≠ [] ∧ ∀ l ∈ (s t).request, Free s l))

variable {p : Language (LockOp L)} {s : ι → Task L} {t u : ι} {l : L}

omit [DecidableEq L] in
theorem Task.todo_of_request {k : Task L} (h : l ∈ k.request) :
    ∃ ops, k.todo = .acquire l :: ops := by
  obtain ⟨H, ops⟩ := k
  match ops, h with
  | .acquire m :: ops, h =>
    cases h
    exact ⟨ops, rfl⟩

/-- What an operation can add to the locks held. -/
theorem Task.mem_held_next {k : Task L} (h : l ∈ k.next.held) : l ∈ k.held ∨ l ∈ k.request := by
  obtain ⟨H, ops⟩ := k
  cases ops with
  | nil => exact .inl h
  | cons op ops =>
    cases op with
    | acquire m =>
      rcases List.mem_cons.mp h with rfl | h
      · exact .inr rfl
      · exact .inl h
    | release m => exact .inl (List.mem_of_mem_erase h)

/-- More calls, more runs. -/
theorem reach_mono {q : Language (LockOp L)} {G : (ι → Task L) → Label ι L → Prop} (hpq : p ≤ q)
    (h : (machine p).Reach G s) : (machine q).Reach G s := by
  induction h with
  | init hInit => exact .init hInit
  | @step s e _ hEn hG ih =>
    refine Machine.Reach.step (M := machine q) ih ?_ hG
    cases e with
    | call t ops => exact ⟨hEn.1, hpq hEn.2⟩
    | op t => exact hEn

-- ---------------------------------------------------------------------------
-- Requests in the order of a ranking
-- ---------------------------------------------------------------------------

section Ranking

variable (rank : L → Nat) (waived : List L → L → Prop)

/-- The request is for a lock above all locks held, or is waived. -/
def Ordered (H : List L) (l : L) : Prop := (∀ m ∈ H, rank m < rank l) ∨ waived H l

/-- The task's next operation is a waived request. -/
def Waives (k : Task L) (l : L) : Prop := l ∈ k.request ∧ waived k.held l

/-- A task comes to a waived request only while that lock is free, and no task
takes a lock for which another task's waived request is pending. -/
def Unopposed (s : ι → Task L) : Label ι L → Prop
  | .call .. => True
  | .op t => (∀ l ∈ (s t).next.request, waived (s t).next.held l → Free s l) ∧
      ∀ l ∈ (s t).request, ∀ u, u ≠ t → ¬ Waives waived (s u) l

instance [Fintype ι] [∀ H l, Decidable (waived H l)] (s : ι → Task L) :
    ∀ e, Decidable (Unopposed waived s e)
  | .call .. => .isTrue trivial
  | .op t => inferInstanceAs (Decidable
      ((∀ l ∈ (s t).next.request, waived (s t).next.held l → Free s l) ∧
        ∀ l ∈ (s t).request, ∀ u, u ≠ t → ¬ (l ∈ (s u).request ∧ waived (s u).held l)))

variable {rank} {waived}

/-- What a run keeps of every task: the rest of its call is in order, and a
waived request of it finds the lock free. -/
structure InOrder (rank : L → Nat) (waived : List L → L → Prop) (s : ι → Task L) : Prop where
  leads : ∀ t, Leads (Ordered rank waived) (s t).held (s t).todo []
  free : ∀ t l, Waives waived (s t) l → Free s l

theorem InOrder.call {ops : List (LockOp L)} (hp : Keeps (Ordered rank waived) [] p [])
    (hWaived : ∀ H l, waived H l → H ≠ [] ∧ l ∉ H) (h : InOrder rank waived s)
    (hIdle : (s t).todo = []) (hOps : ops ∈ p) :
    InOrder rank waived ((machine p).next s (.call t ops)) := by
  -- a call that has run to its end has released its locks
  have hNone : (s t).held = [] := by
    have hLeads := h.leads t
    rw [hIdle] at hLeads
    exact hLeads.symm
  have hHeld : ∀ u, ((machine p).next s (.call t ops) u).held = (s u).held := by
    intro u
    simp only [machine, Function.update_apply]
    split
    · rename_i hu
      rw [hu]
    · rfl
  refine ⟨fun u => ?_, fun u l hl v => ?_⟩
  · simp only [machine, Function.update_apply]
    split
    · dsimp only
      rw [hNone]
      exact hp ops hOps
    · exact h.leads u
  -- a fresh call holds nothing, so its first request is not waived
  · rw [hHeld]
    by_cases hu : u = t
    · have hEmpty : ((machine p).next s (.call t ops) u).held = [] := by
        rw [hHeld, hu, hNone]
      have hNot := (hWaived _ _ hl.2).1
      exact absurd hEmpty hNot
    · simp only [machine, Function.update_of_ne hu] at hl
      exact h.free u l hl v

theorem InOrder.op (hWaived : ∀ H l, waived H l → H ≠ [] ∧ l ∉ H) (h : InOrder rank waived s)
    (hEn : (s t).todo ≠ []) (hGuard : Unopposed waived s (.op t)) :
    InOrder rank waived ((machine p).next s (.op t)) := by
  have hSelf : (machine p).next s (.op t) t = (s t).next := Function.update_self ..
  have hOther : ∀ u, u ≠ t → (machine p).next s (.op t) u = s u :=
    fun u hu => Function.update_of_ne hu ..
  refine ⟨fun u => ?_, fun u l hl v hv => ?_⟩
  · by_cases hu : u = t
    · subst hu
      rw [hSelf]
      have hLeads := h.leads u
      obtain ⟨op, ops, hTodo⟩ := List.exists_cons_of_ne_nil hEn
      rw [hTodo] at hLeads
      simp only [Task.next, hTodo]
      exact hLeads.2
    · rw [hOther u hu]
      exact h.leads u
  · by_cases hu : u = t
    · -- the task that moved has come to a waived request: the lock is free
      subst hu
      rw [hSelf] at hl
      have hFree := hGuard.1 l hl.1 hl.2
      by_cases hvt : v = u
      · rw [hvt, hSelf] at hv
        exact (hWaived _ _ hl.2).2 hv
      · rw [hOther v hvt] at hv
        exact hFree v hv
    -- another task's waived request stays unopposed: the task that moved took
    -- some other lock
    · rw [hOther u hu] at hl
      by_cases hvt : v = t
      · rw [hvt, hSelf] at hv
        rcases Task.mem_held_next hv with hv | hAsks
        · exact h.free u l hl t hv
        · exact hGuard.2 l hAsks u hu hl
      · rw [hOther v hvt] at hv
        exact h.free u l hl v hv

theorem reach_inOrder (hp : Keeps (Ordered rank waived) [] p [])
    (hWaived : ∀ H l, waived H l → H ≠ [] ∧ l ∉ H)
    (h : (machine p).Reach (Unopposed waived) s) : InOrder rank waived s := by
  refine h.invariant (I := InOrder rank waived) ?_ ?_
  · intro s hInit
    refine ⟨fun t => by rw [hInit t]; rfl, fun t l hl => ?_⟩
    rw [hInit t] at hl
    cases hl.1
  · rintro s (⟨t, ops⟩ | t) hs hEn hGuard
    · exact hs.call hp hWaived hEn.1 hEn.2
    · exact hs.op hWaived hEn.1 hGuard

omit [DecidableEq ι] in
/-- A task that waits asks for a lock above all those it holds. -/
theorem InOrder.lt_of_waits (h : InOrder rank waived s) {m : L} (hAsks : l ∈ (s t).request)
    (hHeld : l ∈ (s u).held) (hm : m ∈ (s t).held) : rank m < rank l := by
  have hLeads := h.leads t
  obtain ⟨ops, hTodo⟩ := Task.todo_of_request hAsks
  rw [hTodo] at hLeads
  rcases hLeads.1 with hRank | hW
  · exact hRank m hm
  · exact absurd hHeld (h.free t l ⟨hAsks, hW⟩ u)

omit [DecidableEq ι] in
/-- Along a chain of waiting tasks the ranks of the locks asked for rise. -/
theorem InOrder.le_of_chain (h : InOrder rank waived s)
    (hChain : Relation.TransGen (WaitsFor s) t u) :
    ∃ l ∈ (s t).request, ∃ m ∈ (s u).held, rank l ≤ rank m := by
  induction hChain with
  | single hWait =>
    obtain ⟨l, hAsks, hHeld⟩ := hWait
    exact ⟨l, hAsks, l, hHeld, Nat.le_refl _⟩
  -- the task in between holds `m` and asks for `l'`, so `m` is below `l'`
  | tail _ hWait ih =>
    obtain ⟨l, hAsks, m, hm, hLe⟩ := ih
    obtain ⟨l', hAsks', hHeld'⟩ := hWait
    exact ⟨l, hAsks, l', hHeld', hLe.trans (h.lt_of_waits hAsks' hHeld' hm).le⟩

/-- No cycle of tasks waits for one another. -/
theorem no_cycle (hp : Keeps (Ordered rank waived) [] p [])
    (hWaived : ∀ H l, waived H l → H ≠ [] ∧ l ∉ H)
    (h : (machine p).Reach (Unopposed waived) s) (t : ι) :
    ¬ Relation.TransGen (WaitsFor s) t t := by
  intro hCycle
  have hInv := reach_inOrder hp hWaived h
  obtain ⟨l, hAsks, m, hm, hLe⟩ := hInv.le_of_chain hCycle
  -- around a cycle the first task would hold a lock above the one it asks for
  obtain ⟨u, ⟨l', hAsks', hHeld⟩, -⟩ := Relation.TransGen.head'_iff.mp hCycle
  cases Option.some.inj (hAsks.symm.trans hAsks')
  exact absurd (hInv.lt_of_waits hAsks hHeld hm) (Nat.not_lt.mpr hLe)

end Ranking

end Locks
