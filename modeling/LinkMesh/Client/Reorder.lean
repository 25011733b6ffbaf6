import LinkMesh.Basis.SeqMap
import LinkMesh.Client.Session

/-!
# The reorder buffer

What `reorder_deliver` does, for any relation `R` between sequence numbers and
payloads that the buffered packets and the received one satisfy: it delivers
the payloads of the numbers right after the high water mark, advances the mark
by their count, and keeps packets beyond the next gap only.
-/

namespace LinkMesh

open Std

variable {R : Nat → Bytes → Prop}

/-- Every buffered packet is in the relation and above `low`. -/
def Buffered (R : Nat → Bytes → Prop) (low : Nat) (buf : ExtTreeMap Nat Bytes) : Prop :=
  ∀ (q : Nat) (p : Bytes), buf[q]? = some p → R q p ∧ low < q

/-- The payloads are those of the numbers after `n`. -/
def Numbered (R : Nat → Bytes → Prop) (n : Nat) (ps : List Bytes) : Prop :=
  ∀ (i : Nat) (p : Bytes), ps[i]? = some p → R (n + 1 + i) p

theorem Buffered.erase {low k : Nat} {buf : ExtTreeMap Nat Bytes} (h : Buffered R low buf) :
    Buffered R low (buf.erase k) := by
  intro q p hp
  rw [SeqMap.getElem?_erase] at hp
  split at hp
  · cases hp
  · exact h q p hp

theorem Buffered.insert {low k : Nat} {v : Bytes} {buf : ExtTreeMap Nat Bytes}
    (h : Buffered R low buf) (hv : R k v) (hk : low < k) : Buffered R low (buf.insert k v) := by
  intro q p hp
  rw [SeqMap.getElem?_insert] at hp
  split at hp
  · rename_i hq
    cases hp
    exact hq ▸ ⟨hv, hk⟩
  · exact h q p hp

theorem Numbered.cons {n : Nat} {p : Bytes} {ps : List Bytes} (hp : R (n + 1) p)
    (hps : Numbered R (n + 1) ps) : Numbered R n (p :: ps) := by
  intro i q hq
  cases i with
  | zero =>
    cases hq
    exact hp
  | succ i =>
    have hNext := hps i q hq
    rwa [Nat.add_assoc (n + 1), Nat.add_comm 1 i] at hNext

/-- Flushing with as many rounds as there are packets stops at a gap. -/
theorem flushRecvBuf_spec {rounds high : Nat} {buf : ExtTreeMap Nat Bytes} (delivered : List Bytes)
    (hBuf : Buffered R high buf) (hSize : buf.size ≤ rounds) :
    ∃ ps buf', flushRecvBuf rounds high buf delivered = (delivered ++ ps, high + ps.length, buf') ∧
      Numbered R high ps ∧ Buffered R (high + ps.length + 1) buf' := by
  induction rounds generalizing high buf delivered with
  | zero =>
    refine ⟨[], buf, by simp [flushRecvBuf], nofun, fun q p hp => ?_⟩
    have hMem : q ∈ buf := SeqMap.mem_iff.mpr ⟨p, hp⟩
    have hPos := List.length_pos_of_mem (ExtTreeMap.mem_keys.mpr hMem)
    rw [ExtTreeMap.length_keys] at hPos
    omega
  | succ rounds ih =>
    cases hNext : buf[high + 1]? with
    | none =>
      refine ⟨[], buf, by simp [flushRecvBuf, hNext], nofun, fun q p hp => ?_⟩
      obtain ⟨hR, hLt⟩ := hBuf q p hp
      refine ⟨hR, Nat.lt_of_le_of_ne hLt ?_⟩
      rintro rfl
      cases hNext.symm.trans hp
    | some p =>
      obtain ⟨hR, -⟩ := hBuf (high + 1) p hNext
      have hRest : Buffered R (high + 1) (buf.erase (high + 1)) := by
        intro q p' hp'
        obtain ⟨hR', hLt⟩ := hBuf.erase q p' hp'
        refine ⟨hR', Nat.lt_of_le_of_ne hLt ?_⟩
        rintro rfl
        rw [SeqMap.getElem?_erase, if_pos rfl] at hp'
        cases hp'
      have hMem : high + 1 ∈ buf := SeqMap.mem_iff.mpr ⟨p, hNext⟩
      have hSmaller : (buf.erase (high + 1)).size ≤ rounds := by
        rw [ExtTreeMap.size_erase, if_pos (ExtTreeMap.contains_iff_mem.mpr hMem)]
        omega
      obtain ⟨ps, buf', hEq, hNum, hBuf'⟩ := ih (delivered ++ [p]) hRest hSmaller
      refine ⟨p :: ps, buf', ?_, hNum.cons hR, ?_⟩
      · simp only [flushRecvBuf, hNext, hEq, List.append_assoc, List.singleton_append,
          List.length_cons]
        congr 2
        omega
      · rw [List.length_cons, show high + (ps.length + 1) + 1 = high + 1 + ps.length + 1 by omega]
        exact hBuf'

theorem reorderDeliver_spec {recvHigh seq : Nat} {buf : ExtTreeMap Nat Bytes} {payload : Bytes}
    (hBuf : Buffered R (recvHigh + 1) buf) (hSeq : R seq payload) :
    ∃ ps buf', reorderDeliver recvHigh buf seq payload = (ps, recvHigh + ps.length, buf') ∧
      Numbered R recvHigh ps ∧ Buffered R (recvHigh + ps.length + 1) buf' := by
  unfold reorderDeliver
  split
  · rename_i hNext
    subst hNext
    obtain ⟨ps, buf', hEq, hNum, hBuf'⟩ :=
      flushRecvBuf_spec [payload] hBuf (Nat.le_refl _)
    refine ⟨payload :: ps, buf', ?_, hNum.cons hSeq, ?_⟩
    · rw [hEq]
      simp only [List.singleton_append, List.length_cons]
      congr 2
      omega
    · rw [List.length_cons, show recvHigh + (ps.length + 1) + 1 = recvHigh + 1 + ps.length + 1 by
        omega]
      exact hBuf'
  · split
    · rename_i hAhead
      have hIns : Buffered R (recvHigh + 1) (buf.insert seq payload) := hBuf.insert hSeq hAhead
      dsimp only
      split
      · split
        · exact ⟨[], _, rfl, nofun, hIns.erase⟩
        · exact ⟨[], _, rfl, nofun, hIns⟩
      · exact ⟨[], _, rfl, nofun, hIns⟩
    · exact ⟨[], _, rfl, nofun, hBuf⟩

end LinkMesh
