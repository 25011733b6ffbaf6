import Mathlib.Data.List.Induction
import Mathlib.Data.List.Nodup
import LinkMesh.Basis.KeyMap

/-!
# Once per key and window

A table of bounded size that lets the first request of each key in each window
through. An entry holds the window its key was last let through in, and how many
requests it has held back since; when there is no room, the entries of earlier
windows go, and a key that still finds none is let through without an entry.

* `size_after_le`  — the table stays within its bound.
* `count_admitted` — of the keys of a window, as many of the first ones as the
  table has room for are let through once, and the others every time.
-/

namespace OncePerWindow

open Std KeyMap

/-- A request of a key in a window. -/
@[ext]
structure Request (κ : Type) where
  window : Nat
  key : κ
  deriving DecidableEq, Repr

variable {κ : Type} {cap w : Nat} {rs : List (Request κ)} {r x : Request κ} {k : κ}

theorem sorted_append (h : (rs ++ [r]).Pairwise (·.window ≤ ·.window)) :
    rs.Pairwise (·.window ≤ ·.window) ∧ ∀ x ∈ rs, x.window ≤ r.window := by
  obtain ⟨hBefore, _, hLast⟩ := List.pairwise_append.mp h
  exact ⟨hBefore, fun x hx => hLast x hx r (List.mem_singleton_self r)⟩

-- ---------------------------------------------------------------------------
-- The table
-- ---------------------------------------------------------------------------

section Table

variable [Ord κ] [TransOrd κ] {t : ExtTreeMap κ (Nat × Nat)}

/-- Entries of other windows go when there is no room. -/
def makeRoom (cap w : Nat) (t : ExtTreeMap κ (Nat × Nat)) : ExtTreeMap κ (Nat × Nat) :=
  if cap ≤ t.size then t.filter fun _ v => v.1 == w else t

/-- The table after a request, and whether the request is let through. -/
def ask (cap : Nat) (t : ExtTreeMap κ (Nat × Nat)) (r : Request κ) : ExtTreeMap κ (Nat × Nat) × Bool :=
  match t[r.key]? with
  | some (w, held) =>
    if w = r.window then (t.insert r.key (w, held + 1), false) else (t.insert r.key (r.window, 0), true)
  | none =>
    let t := makeRoom cap r.window t
    (if t.size < cap then t.insert r.key (r.window, 0) else t, true)

/-- The table after requests. -/
def after (cap : Nat) (t : ExtTreeMap κ (Nat × Nat)) (rs : List (Request κ)) : ExtTreeMap κ (Nat × Nat) :=
  rs.foldl (fun t r => (ask cap t r).1) t

/-- The requests that are let through. -/
def admitted (cap : Nat) : ExtTreeMap κ (Nat × Nat) → List (Request κ) → List (Request κ)
  | _, [] => []
  | t, r :: rs => (if (ask cap t r).2 then [r] else []) ++ admitted cap (ask cap t r).1 rs

theorem after_append (t : ExtTreeMap κ (Nat × Nat)) (rs : List (Request κ)) (r : Request κ) :
    after cap t (rs ++ [r]) = (ask cap (after cap t rs) r).1 := by
  unfold after
  rw [List.foldl_append]
  rfl

theorem admitted_append (t : ExtTreeMap κ (Nat × Nat)) (rs : List (Request κ)) (r : Request κ) :
    admitted cap t (rs ++ [r]) = admitted cap t rs ++ if (ask cap (after cap t rs) r).2 then [r] else [] := by
  induction rs generalizing t with
  | nil => exact List.append_nil _
  | cons x rs ih =>
    rw [List.cons_append, admitted, admitted, ih, List.append_assoc]
    rfl

/-- The number of entries of a window. -/
def ofWindow (w : Nat) (t : ExtTreeMap κ (Nat × Nat)) : Nat := count (fun v => v.1 == w) t

theorem size_makeRoom (cap w : Nat) (t : ExtTreeMap κ (Nat × Nat)) :
    (makeRoom cap w t).size = if cap ≤ t.size then ofWindow w t else t.size := by
  unfold makeRoom
  split
  · rw [← ExtTreeMap.length_toList, ExtTreeMap.toList_filter]
    rfl
  · rfl

theorem ofWindow_le_size : ofWindow w t ≤ t.size := by
  rw [← ExtTreeMap.length_toList]
  exact List.length_filter_le _ _

variable [LawfulEqOrd κ]

/-- An entry of another window leaves fewer for this one. -/
theorem ofWindow_lt_size {w' held : Nat} (h : t[k]? = some (w', held)) (hOther : w' ≠ w) : ofWindow w t < t.size := by
  refine Nat.lt_of_le_of_ne ofWindow_le_size fun hAll => hOther ?_
  rw [← ExtTreeMap.length_toList] at hAll
  unfold ofWindow count at hAll
  rw [List.length_filter_eq_length_iff] at hAll
  exact eq_of_beq (hAll (k, (w', held)) (ExtTreeMap.mem_toList_iff_getElem?_eq_some.mpr h))

theorem of_getElem?_makeRoom {v : Nat × Nat} (h : (makeRoom cap w t)[k]? = some v) : t[k]? = some v := by
  unfold makeRoom at h
  split at h
  · rw [ExtTreeMap.getElem?_filter', Option.filter_eq_some_iff] at h
    exact h.1
  · exact h

/-- The entries of the window stay. -/
theorem getElem?_makeRoom {held : Nat} (w : Nat) :
    (makeRoom cap w t)[k]? = some (w, held) ↔ t[k]? = some (w, held) := by
  refine ⟨of_getElem?_makeRoom, fun h => ?_⟩
  unfold makeRoom
  split
  · rw [ExtTreeMap.getElem?_filter', Option.filter_eq_some_iff]
    exact ⟨h, beq_self_eq_true w⟩
  · exact h

end Table

-- ---------------------------------------------------------------------------
-- The keys of a window
-- ---------------------------------------------------------------------------

variable [DecidableEq κ]

/-- The keys that made requests in the window, in the order of the first ones. -/
def callers (w : Nat) (rs : List (Request κ)) : List κ :=
  rs.foldl (fun ks r => if r.window = w ∧ r.key ∉ ks then ks ++ [r.key] else ks) []

theorem callers_append (w : Nat) (rs : List (Request κ)) (r : Request κ) :
    callers w (rs ++ [r]) =
      if r.window = w ∧ r.key ∉ callers w rs then callers w rs ++ [r.key] else callers w rs := by
  unfold callers
  rw [List.foldl_append]
  rfl

theorem mem_callers : k ∈ callers w rs ↔ ⟨w, k⟩ ∈ rs := by
  induction rs using List.reverseRecOn with
  | nil => exact iff_of_false List.not_mem_nil List.not_mem_nil
  | append_singleton rs r ih =>
    rw [callers_append, List.mem_append, List.mem_singleton]
    split
    · rename_i hNew
      rw [List.mem_append, List.mem_singleton, ih]
      refine or_congr_right ⟨?_, ?_⟩
      · rintro rfl
        rw [← hNew.1]
      · rintro rfl
        rfl
    · rename_i hOld
      rw [ih, iff_self_or]
      rintro rfl
      rw [not_and, not_not] at hOld
      exact ih.mp (hOld rfl)

theorem nodup_callers : (callers w rs).Nodup := by
  induction rs using List.reverseRecOn with
  | nil => exact List.nodup_nil
  | append_singleton rs r ih =>
    rw [callers_append]
    split
    · rename_i hNew
      rw [List.nodup_append]
      refine ⟨ih, List.nodup_singleton _, fun a ha b hb => ?_⟩
      rw [List.mem_singleton] at hb
      rintro rfl
      exact hNew.2 (hb ▸ ha)
    · exact ih

/-- Requests of different keys in one window. -/
theorem callers_of_nodup (hKeys : (rs.map (·.key)).Nodup) (hWindow : ∀ x ∈ rs, x.window = w) :
    callers w rs = rs.map (·.key) := by
  induction rs using List.reverseRecOn with
  | nil => rfl
  | append_singleton rs r ih =>
    rw [List.map_append, List.nodup_append] at hKeys
    obtain ⟨hBefore, _, hNew⟩ := hKeys
    rw [List.forall_mem_append] at hWindow
    have hRest := ih hBefore hWindow.1
    rw [callers_append, hRest, if_pos, List.map_append, List.map_singleton]
    exact ⟨hWindow.2 r (List.mem_singleton_self r), fun hMem => hNew _ hMem _ (List.mem_singleton_self _) rfl⟩

/-- A further request changes nothing for the other keys. -/
theorem mem_take_callers_append (h : k ≠ r.key ∨ r.window ≠ w ∨ r.key ∈ callers w rs) :
    k ∈ (callers w (rs ++ [r])).take cap ↔ k ∈ (callers w rs).take cap := by
  rw [callers_append]
  split
  · rename_i hNew
    have hOther : k ≠ r.key := by
      rcases h with hNe | hElsewhere | hOld
      · exact hNe
      · exact absurd hNew.1 hElsewhere
      · exact absurd hOld hNew.2
    rw [List.take_append, List.mem_append]
    exact or_iff_left fun hMem => hOther (List.mem_singleton.mp (List.mem_of_mem_take hMem))
  · rfl

-- ---------------------------------------------------------------------------
-- What the table knows
-- ---------------------------------------------------------------------------

variable [Ord κ] [TransOrd κ] {t t' : ExtTreeMap κ (Nat × Nat)}

/-- The table after requests: it is within its bound, its entries are of keys
and windows that were asked for, and those of the last window are the first keys
of it, as many as there is room for. -/
structure Tracks (cap : Nat) (rs : List (Request κ)) (t : ExtTreeMap κ (Nat × Nat)) : Prop where
  size_le : t.size ≤ cap
  called : ∀ k w held, t[k]? = some (w, held) → ⟨w, k⟩ ∈ rs
  listed : ∀ w, (∀ x ∈ rs, x.window ≤ w) → ∀ k, (∃ held, t[k]? = some (w, held)) ↔ k ∈ (callers w rs).take cap

theorem tracks_empty : Tracks cap [] (∅ : ExtTreeMap κ (Nat × Nat)) where
  size_le := by
    rw [ExtTreeMap.size_empty]
    exact Nat.zero_le _
  called k w held h := by
    rw [ExtTreeMap.getElem?_empty] at h
    cases h
  listed w _ k := by
    simp [callers]

/-- After a request of the last window, it is enough to look at that window. -/
theorem Tracks.of_last (hSize : t'.size ≤ cap) (hCalled : ∀ k w held, t'[k]? = some (w, held) → ⟨w, k⟩ ∈ rs ++ [r])
    (hLatest : ∀ x ∈ rs, x.window ≤ r.window)
    (hListed : ∀ k, (∃ held, t'[k]? = some (r.window, held)) ↔ k ∈ (callers r.window (rs ++ [r])).take cap) :
    Tracks cap (rs ++ [r]) t' where
  size_le := hSize
  called := hCalled
  listed w hw k := by
    have hLast : r.window ≤ w := hw r List.mem_concat_self
    by_cases hSame : w = r.window
    · rw [hSame]
      exact hListed k
    · -- no request is in a later window
      have hNone : ⟨w, k⟩ ∉ rs ++ [r] := by
        intro hMem
        rcases List.mem_append.mp hMem with hOld | hNew
        · exact hSame (Nat.le_antisymm (hLatest _ hOld) hLast)
        · exact hSame (congrArg Request.window (List.mem_singleton.mp hNew))
      constructor
      · rintro ⟨held, hEntry⟩
        exact absurd (hCalled k w held hEntry) hNone
      · exact fun hMem => absurd (mem_callers.mp (List.mem_of_mem_take hMem)) hNone

variable [LawfulEqOrd κ]

namespace Tracks

variable (h : Tracks cap rs t) (hLatest : ∀ x ∈ rs, x.window ≤ r.window)
include h hLatest

/-- The entries of the last window are counted by its first keys. -/
theorem ofWindow_eq : ofWindow r.window t = ((callers r.window rs).take cap).length := by
  unfold ofWindow
  rw [← length_keysWhere]
  refine List.Perm.length_eq ((List.perm_ext_iff_of_nodup nodup_keysWhere nodup_callers.take).mpr fun k => ?_)
  rw [← h.listed r.window hLatest k, mem_keysWhere]
  constructor
  · rintro ⟨⟨w, held⟩, hEntry, hw⟩
    exact ⟨held, eq_of_beq hw ▸ hEntry⟩
  · rintro ⟨held, hEntry⟩
    exact ⟨(r.window, held), hEntry, beq_self_eq_true _⟩

/-- A key gets an entry while there is room. -/
theorem insert (hRoom : ofWindow r.window t < cap) (hNew : ∀ held, t[r.key]? ≠ some (r.window, held))
    (hSize : (t'.insert r.key (r.window, 0)).size ≤ cap) (hOld : ∀ (k : κ) v, t'[k]? = some v → t[k]? = some v)
    (hKept : ∀ (k : κ) held, t[k]? = some (r.window, held) → t'[k]? = some (r.window, held)) :
    Tracks cap (rs ++ [r]) (t'.insert r.key (r.window, 0)) := by
  have hListed := h.listed r.window hLatest
  have hKey : r.key ∉ (callers r.window rs).take cap := fun hMem => by
    obtain ⟨held, hEntry⟩ := (hListed r.key).mpr hMem
    exact hNew held hEntry
  rw [h.ofWindow_eq hLatest, List.length_take] at hRoom
  -- all the keys of the window have entries
  have hAll : (callers r.window rs).take cap = callers r.window rs := List.take_of_length_le (by omega)
  rw [hAll] at hKey
  refine of_last hSize ?_ hLatest fun k => ?_
  · intro k w held hEntry
    rcases insert_cases hEntry with ⟨rfl, hv⟩ | hBefore
    · obtain ⟨rfl, rfl⟩ := Prod.mk.inj hv
      exact List.mem_concat_self
    · exact List.mem_append_left _ (h.called k w held (hOld k _ hBefore))
  · have hTake : (callers r.window (rs ++ [r])).take cap = callers r.window rs ++ [r.key] := by
      rw [callers_append, if_pos ⟨rfl, hKey⟩, List.take_of_length_le]
      rw [List.length_append, List.length_singleton]
      omega
    rw [hTake, List.mem_append, List.mem_singleton, ← hAll, ← hListed k]
    simp only [getElem?_insert]
    by_cases hSame : k = r.key
    · simp only [hSame, if_true, or_true, iff_true]
      exact ⟨0, rfl⟩
    · simp only [hSame, if_false, or_false]
      exact ⟨fun ⟨held, hEntry⟩ => ⟨held, hOld k _ hEntry⟩, fun ⟨held, hEntry⟩ => ⟨held, hKept k held hEntry⟩⟩

/-- A request that is held back is counted in the entry of its key. -/
theorem hold {held : Nat} (hEntry : t[r.key]? = some (r.window, held)) :
    Tracks cap (rs ++ [r]) (t.insert r.key (r.window, held + 1)) := by
  have hListed := h.listed r.window hLatest
  have hKey : r.key ∈ callers r.window rs := List.mem_of_mem_take ((hListed r.key).mp ⟨held, hEntry⟩)
  refine of_last ?_ ?_ hLatest fun k => ?_
  · rw [ExtTreeMap.size_insert, if_pos (ExtTreeMap.contains_iff_mem.mpr (mem_iff.mpr ⟨_, hEntry⟩))]
    exact h.size_le
  · intro k w held' hEntry'
    rcases insert_cases hEntry' with ⟨rfl, hv⟩ | hBefore
    · obtain ⟨rfl, _⟩ := Prod.mk.inj hv
      exact List.mem_concat_self
    · exact List.mem_append_left _ (h.called k w held' hBefore)
  · rw [mem_take_callers_append (.inr (.inr hKey)), ← hListed k]
    simp only [getElem?_insert]
    by_cases hSame : k = r.key
    · simp only [hSame, if_true, hEntry]
      exact iff_of_true ⟨_, rfl⟩ ⟨_, rfl⟩
    · simp only [if_neg hSame]

/-- When the table is full of the window, further keys get no entry. -/
theorem full (hFull : cap ≤ ofWindow r.window t) : Tracks cap (rs ++ [r]) (makeRoom cap r.window t) := by
  have hCount := h.ofWindow_eq hLatest
  rw [List.length_take] at hCount
  have hTake : (callers r.window (rs ++ [r])).take cap = (callers r.window rs).take cap := by
    rw [callers_append]
    split
    · exact List.take_append_of_le_length (by omega)
    · rfl
  refine of_last ?_ ?_ hLatest fun k => ?_
  · rw [size_makeRoom]
    have hBound := h.size_le
    split <;> omega
  · exact fun k w held hEntry => List.mem_append_left _ (h.called k w held (of_getElem?_makeRoom hEntry))
  · rw [hTake, ← h.listed r.window hLatest k]
    exact exists_congr fun held => getElem?_makeRoom r.window

/-- One request: it is held back iff its key is among the first ones. -/
theorem ask : Tracks cap (rs ++ [r]) (OncePerWindow.ask cap t r).1 ∧
    ((OncePerWindow.ask cap t r).2 = false ↔ r.key ∈ (callers r.window rs).take cap) := by
  have hListed := h.listed r.window hLatest r.key
  unfold OncePerWindow.ask
  cases hEntry : t[r.key]? with
  | some v =>
    obtain ⟨w, held⟩ := v
    dsimp only
    by_cases hSame : w = r.window
    · rw [if_pos hSame]
      rw [hSame] at hEntry ⊢
      exact ⟨h.hold hLatest hEntry, iff_of_true rfl (hListed.mp ⟨held, hEntry⟩)⟩
    · -- an entry of an earlier window gives its place
      rw [if_neg hSame]
      have hNew : ∀ held, t[r.key]? ≠ some (r.window, held) := fun held' h' => by
        rw [hEntry] at h'
        exact hSame (Prod.mk.inj (Option.some.inj h')).1
      have hSize : (t.insert r.key (r.window, 0)).size ≤ cap := by
        rw [ExtTreeMap.size_insert, if_pos (ExtTreeMap.contains_iff_mem.mpr (mem_iff.mpr ⟨_, hEntry⟩))]
        exact h.size_le
      have hRoom : ofWindow r.window t < cap := Nat.lt_of_lt_of_le (ofWindow_lt_size hEntry hSame) h.size_le
      refine ⟨h.insert hLatest hRoom hNew hSize (fun _ _ => id) (fun _ _ => id), iff_of_false nofun ?_⟩
      exact fun hMem => (hListed.mpr hMem).elim hNew
  | none =>
    have hNew : ∀ held, t[r.key]? ≠ some (r.window, held) := fun held h' => by
      rw [hEntry] at h'
      cases h'
    refine ⟨?_, iff_of_false nofun fun hMem => (hListed.mpr hMem).elim hNew⟩
    dsimp only
    have hSize := size_makeRoom cap r.window t
    have hLe := ofWindow_le_size (w := r.window) (t := t)
    split
    · rename_i hFree
      have hRoom : ofWindow r.window t < cap := by
        rw [hSize] at hFree
        split at hFree <;> omega
      have hInsert := ExtTreeMap.size_insert_le (t := makeRoom cap r.window t) (k := r.key) (v := (r.window, 0))
      exact h.insert hLatest hRoom hNew (by omega) (fun _ _ => of_getElem?_makeRoom)
        (fun _ _ => (getElem?_makeRoom r.window).mpr)
    · rename_i hFull
      refine h.full hLatest ?_
      rw [hSize] at hFull
      have hBound := h.size_le
      split at hFull <;> omega

end Tracks

-- ---------------------------------------------------------------------------
-- Runs
-- ---------------------------------------------------------------------------

theorem tracks_after (cap : Nat) (hSorted : rs.Pairwise (·.window ≤ ·.window)) : Tracks cap rs (after cap ∅ rs) := by
  induction rs using List.reverseRecOn with
  | nil => exact tracks_empty
  | append_singleton rs r ih =>
    obtain ⟨hBefore, hLatest⟩ := sorted_append hSorted
    rw [after_append]
    exact ((ih hBefore).ask hLatest).1

theorem size_after_le (cap : Nat) (hSorted : rs.Pairwise (·.window ≤ ·.window)) : (after cap ∅ rs).size ≤ cap :=
  (tracks_after cap hSorted).size_le

/-- The first keys of a window are let through once, the others every time. -/
theorem count_admitted (cap : Nat) (hSorted : rs.Pairwise (·.window ≤ ·.window)) (x : Request κ) :
    (admitted cap ∅ rs).count x = if x.key ∈ (callers x.window rs).take cap then 1 else rs.count x := by
  induction rs using List.reverseRecOn with
  | nil =>
    rw [if_neg fun hMem => List.not_mem_nil (mem_callers.mp (List.mem_of_mem_take hMem))]
    rfl
  | append_singleton rs r ih =>
    obtain ⟨hBefore, hLatest⟩ := sorted_append hSorted
    obtain ⟨_, hHeld⟩ := (tracks_after cap hBefore).ask hLatest
    have hSeen : x.key ∈ callers x.window rs ↔ x ∈ rs := mem_callers
    rw [admitted_append, List.count_append, List.count_append, ih hBefore]
    by_cases hSame : x = r
    · rw [hSame] at hSeen ⊢
      by_cases hFirst : r.key ∈ (callers r.window rs).take cap
      · -- held back
        have hAgain : r.key ∈ (callers r.window (rs ++ [r])).take cap :=
          (mem_take_callers_append (.inr (.inr (List.mem_of_mem_take hFirst)))).mpr hFirst
        rw [if_pos hFirst, if_pos hAgain, hHeld.mpr hFirst]
        rfl
      · have hThrough : (OncePerWindow.ask cap (after cap ∅ rs) r).2 = true :=
          (Bool.not_eq_false _).mp (hHeld.not.mpr hFirst)
        rw [if_neg hFirst, hThrough]
        by_cases hOld : r ∈ rs
        · have hStill : r.key ∉ (callers r.window (rs ++ [r])).take cap :=
            (mem_take_callers_append (.inr (.inr (hSeen.mpr hOld)))).not.mpr hFirst
          rw [if_neg hStill]
          rfl
        · rw [List.count_eq_zero_of_not_mem hOld, if_pos rfl, List.count_singleton_self]
          split <;> rfl
    · have hOther : x.key ≠ r.key ∨ r.window ≠ x.window := by
        by_contra hBoth
        rw [not_or, not_not, not_not] at hBoth
        exact hSame (Request.ext hBoth.2.symm hBoth.1)
      have hTake : x.key ∈ (callers x.window (rs ++ [r])).take cap ↔ x.key ∈ (callers x.window rs).take cap :=
        mem_take_callers_append (hOther.imp_right .inl)
      have hNone : (if (OncePerWindow.ask cap (after cap ∅ rs) r).2 = true then [r] else []).count x = 0 := by
        split
        · exact List.count_eq_zero_of_not_mem (List.mem_singleton.not.mpr hSame)
        · rfl
      rw [hNone, List.count_eq_zero_of_not_mem (List.mem_singleton.not.mpr hSame)]
      simp only [hTake, Nat.add_zero]

end OncePerWindow
