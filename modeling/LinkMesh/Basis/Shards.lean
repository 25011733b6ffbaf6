import Mathlib.Algebra.BigOperators.Group.Finset.Basic
import Mathlib.Data.List.Basic

/-!
# Sharded queues

A dispatcher puts every item into the queue of its shard, or drops it when that
queue is full; each shard takes the items of its queue one after the other. The
state keeps what was offered, what got into a queue and what was taken.

* `taken_of_key` — of the items with one key, what was taken and then what waits
  is what got into a queue, in its order.
* `accounted`    — every item offered was dropped, was taken, or waits.
-/

/-- Queues by the number of their shard, with their history. -/
structure Shards (α : Type) where
  queue : Nat → List α := fun _ => []
  offered : List α := []
  admitted : List α := []
  taken : List α := []
  dropped : Nat := 0

namespace Shards

variable {α κ : Type} (shard : α → Nat) (cap : Nat)

/-- An item comes in. -/
def offer (s : Shards α) (x : α) : Shards α :=
  if (s.queue (shard x)).length < cap then
    { s with
      queue := Function.update s.queue (shard x) (s.queue (shard x) ++ [x])
      offered := s.offered ++ [x]
      admitted := s.admitted ++ [x] }
  else { s with offered := s.offered ++ [x], dropped := s.dropped + 1 }

/-- A shard takes the first item of its queue. -/
def take (s : Shards α) (w : Nat) : Shards α :=
  match s.queue w with
  | [] => s
  | x :: rest => { s with queue := Function.update s.queue w rest, taken := s.taken ++ [x] }

/-- The items of a shard. -/
def ofShard (w : Nat) (xs : List α) : List α := xs.filter (shard · = w)

@[simp] theorem ofShard_append (w : Nat) (xs ys : List α) :
    ofShard shard w (xs ++ ys) = ofShard shard w xs ++ ofShard shard w ys := List.filter_append ..

theorem ofShard_singleton (w : Nat) (x : α) : ofShard shard w [x] = if shard x = w then [x] else [] := by
  unfold ofShard
  rw [List.filter_singleton, Bool.cond_decide]

theorem ofShard_eq_self {w : Nat} {xs : List α} (h : ∀ x ∈ xs, shard x = w) : ofShard shard w xs = xs :=
  List.filter_eq_self.mpr fun x hx => decide_eq_true (h x hx)

/-- What holds after any offers and takes. -/
structure InOrder (s : Shards α) : Prop where
  bounded : ∀ w, (s.queue w).length ≤ cap
  own : ∀ w, ∀ x ∈ s.queue w, shard x = w
  order : ∀ w, ofShard shard w s.taken ++ s.queue w = ofShard shard w s.admitted
  sublist : s.admitted.Sublist s.offered

variable {shard cap} {s : Shards α} {x : α} {w n : Nat}

theorem inOrder_empty : InOrder shard cap {} where
  bounded _ := Nat.zero_le _
  own _ _ hx := absurd hx List.not_mem_nil
  order _ := rfl
  sublist := .refl _

theorem InOrder.offer (h : InOrder shard cap s) (x : α) : InOrder shard cap (s.offer shard cap x) := by
  unfold Shards.offer
  split
  · rename_i hRoom
    refine ⟨fun w => ?_, fun w y hy => ?_, fun w => ?_, h.sublist.append (.refl _)⟩
    · dsimp only
      rw [Function.update_apply]
      split
      · rw [List.length_append, List.length_singleton]
        exact hRoom
      · exact h.bounded w
    · dsimp only at hy
      rw [Function.update_apply] at hy
      split at hy
      · rename_i hShard
        rcases List.mem_append.mp hy with hOld | hNew
        · rw [hShard]
          exact h.own _ y hOld
        · rw [List.mem_singleton.mp hNew, hShard]
      · exact h.own w y hy
    · dsimp only
      rw [Function.update_apply, ofShard_append, ofShard_singleton]
      split
      · rename_i hShard
        rw [hShard, if_pos rfl, ← List.append_assoc, h.order]
      · rename_i hShard
        rw [if_neg (Ne.symm hShard), List.append_nil, h.order]
  · exact ⟨h.bounded, h.own, h.order, h.sublist.trans (List.sublist_append_left ..)⟩

theorem InOrder.take (h : InOrder shard cap s) (w : Nat) : InOrder shard cap (s.take w) := by
  unfold Shards.take
  split
  · exact h
  · rename_i x rest hQueue
    have hOwn : shard x = w := h.own w x (hQueue ▸ List.mem_cons_self ..)
    refine ⟨fun v => ?_, fun v y hy => ?_, fun v => ?_, h.sublist⟩
    · dsimp only
      rw [Function.update_apply]
      split
      · have hLength := h.bounded w
        rw [hQueue, List.length_cons] at hLength
        omega
      · exact h.bounded v
    · dsimp only at hy
      rw [Function.update_apply] at hy
      split at hy
      · rename_i hShard
        rw [hShard]
        exact h.own w y (hQueue ▸ List.mem_cons_of_mem _ hy)
      · exact h.own v y hy
    · dsimp only
      rw [Function.update_apply, ofShard_append, ofShard_singleton, ← h.order v, hOwn]
      by_cases hShard : v = w
      · rw [if_pos hShard, if_pos hShard.symm, hShard, hQueue, List.append_assoc]
        rfl
      · rw [if_neg hShard, if_neg (Ne.symm hShard), List.append_nil]

/-- When the key decides the shard, the items of a key keep their order. -/
theorem InOrder.taken_of_key [DecidableEq κ] (h : InOrder shard cap s) (key : α → κ) (route : κ → Nat)
    (hRoute : ∀ x, shard x = route (key x)) (k : κ) :
    s.taken.filter (key · = k) ++ (s.queue (route k)).filter (key · = k) = s.admitted.filter (key · = k) := by
  have hKey : ∀ xs : List α, (ofShard shard (route k) xs).filter (key · = k) = xs.filter (key · = k) := by
    intro xs
    unfold ofShard
    rw [List.filter_filter]
    refine List.filter_congr fun x _ => ?_
    by_cases hk : key x = k
    · simp [hk, hRoute x]
    · simp [hk]
  rw [← hKey s.taken, ← List.filter_append, h.order, hKey]

-- ---------------------------------------------------------------------------
-- Counting
-- ---------------------------------------------------------------------------

/-- The items in the first `n` queues. -/
def waiting (queue : Nat → List α) (n : Nat) : Nat := ∑ w ∈ Finset.range n, (queue w).length

/-- What was offered is what was dropped, what was taken, and what waits. -/
def Accounted (s : Shards α) (n : Nat) : Prop :=
  s.offered.length = s.dropped + s.taken.length + waiting s.queue n

theorem waiting_update (queue : Nat → List α) (hShard : w < n) (xs : List α) :
    waiting (Function.update queue w xs) n + (queue w).length = waiting queue n + xs.length := by
  have hMem : w ∈ Finset.range n := Finset.mem_range.mpr hShard
  have hRest : ∑ v ∈ (Finset.range n).erase w, (Function.update queue w xs v).length =
      ∑ v ∈ (Finset.range n).erase w, (queue v).length := by
    refine Finset.sum_congr rfl fun v hv => ?_
    rw [Function.update_of_ne (Finset.ne_of_mem_erase hv)]
  unfold waiting
  rw [← Finset.add_sum_erase _ _ hMem, ← Finset.add_sum_erase _ (fun v => (queue v).length) hMem, hRest,
    Function.update_self]
  omega

theorem Accounted.offer (h : s.Accounted n) (hShard : shard x < n) : (s.offer shard cap x).Accounted n := by
  unfold Accounted at h ⊢
  unfold Shards.offer
  split
  · have hSum := waiting_update s.queue hShard (s.queue (shard x) ++ [x])
    rw [List.length_append, List.length_singleton] at hSum
    dsimp only
    rw [List.length_append, List.length_singleton]
    omega
  · dsimp only
    rw [List.length_append, List.length_singleton]
    omega

theorem Accounted.take (h : s.Accounted n) (hShard : w < n) : (s.take w).Accounted n := by
  unfold Accounted at h ⊢
  unfold Shards.take
  split
  · exact h
  · rename_i x rest hQueue
    have hSum := waiting_update s.queue hShard rest
    rw [hQueue, List.length_cons] at hSum
    dsimp only
    rw [List.length_append, List.length_singleton]
    omega

end Shards
