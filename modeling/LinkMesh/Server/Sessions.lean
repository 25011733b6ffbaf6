import LinkMesh.Server.State

/-!
# The session table

Registering a session evicts the oldest one of a full table and the oldest
one of a device with too many, then inserts under the client's ephemeral key,
and keeps the set of live identities up to date. Which of several equally old
sessions is evicted depends on the order in which the hash map is iterated,
an argument here.

## Results

* `register_getElem?`      — the table after a registration.
* `globalVictim_oldest`    — the session evicted for the global cap is a
  globally oldest one of a full table.
* `updateActive_exact_iff` — the incremental update of the live identities is
  exact iff no other identity's last session was overwritten.
-/

namespace LinkMesh

open Std KeyMap

namespace Signaling

def maxSessionsPerDevice : Nat := 8

def maxTotalSessions : Nat := 4096

/-- The oldest of some sessions, the first in iteration order among equals
(`min_by_key`). -/
def oldest (es : List (RawKey × SessionEntry)) : Option (RawKey × SessionEntry) :=
  es.argmin (·.2.lastSeen)

/-- The session evicted because the table is full. -/
def globalVictim (ord : IterOrder) (m : SessionMap) : Option (RawKey × SessionEntry) :=
  if maxTotalSessions ≤ m.size then oldest (ord.entries m) else none

def deviceSessions (ord : IterOrder) (m : SessionMap) (deviceId : String) :
    List (RawKey × SessionEntry) :=
  (ord.entries m).filter (·.2.deviceId = deviceId)

/-- The session evicted because the device has too many. -/
def deviceVictim (ord : IterOrder) (m : SessionMap) (deviceId : String) :
    Option (RawKey × SessionEntry) :=
  if maxSessionsPerDevice ≤ (deviceSessions ord m deviceId).length then
    oldest (deviceSessions ord m deviceId)
  else none

/-- The table after the eviction for the global cap. -/
def afterGlobalCap (ord : IterOrder) (m : SessionMap) : SessionMap :=
  eraseSome m ((globalVictim ord m).map (·.1))

/-- The table after both evictions. -/
def afterCaps (ord : IterOrder) (m : SessionMap) (deviceId : String) : SessionMap :=
  eraseSome (afterGlobalCap ord m)
    ((deviceVictim ord (afterGlobalCap ord m) deviceId).map (·.1))

/-- Identities of the evicted sessions. -/
def evictedIkX (ord : IterOrder) (m : SessionMap) (deviceId : String) : List RawKey :=
  ((globalVictim ord m).map (·.2.ikX)).toList ++
    ((deviceVictim ord (afterGlobalCap ord m) deviceId).map (·.2.ikX)).toList

/-- The table with a new session, stored under the key the client chose. -/
def register (ord : IterOrder) (m : SessionMap) (entry : SessionEntry) : SessionMap :=
  (afterCaps ord m entry.deviceId).insert entry.sessionPub entry

/-- The new identity joins the live ones; an evicted one leaves them unless
another session carries it. -/
def updateActive (active : ExtTreeSet RawKey) (sessions : SessionMap) (ikX : RawKey)
    (evicted : List RawKey) : ExtTreeSet RawKey :=
  evicted.foldl
    (fun active ik => if sessions.toList.any (·.2.ikX = ik) then active else active.erase ik)
    (active.insert ikX)

-- ---------------------------------------------------------------------------
-- Evictions
-- ---------------------------------------------------------------------------

variable {ord : IterOrder} {m : SessionMap} {entry e : SessionEntry} {k : RawKey} {d : String}
  {p : RawKey × SessionEntry}

/-- The session evicted for the global cap is a globally oldest one of a full
table. -/
theorem globalVictim_oldest (h : globalVictim ord m = some p) :
    maxTotalSessions ≤ m.size ∧ m[p.1]? = some p.2 ∧
      ∀ (k : RawKey) e, m[k]? = some e → p.2.lastSeen ≤ e.lastSeen := by
  unfold globalVictim oldest at h
  split at h
  · rename_i hFull
    refine ⟨hFull, ?_, fun k e hk => ?_⟩
    · exact ord.mem_entries.mp (List.argmin_mem h)
    · exact List.le_of_mem_argmin (f := fun q : RawKey × SessionEntry => q.2.lastSeen)
        (ord.mem_entries.mpr hk) h
  · cases h

theorem deviceVictim_mem (h : deviceVictim ord m d = some p) :
    m[p.1]? = some p.2 ∧ p.2.deviceId = d := by
  unfold deviceVictim oldest at h
  split at h
  · have hMem : p ∈ deviceSessions ord m d := List.argmin_mem h
    simp only [deviceSessions, List.mem_filter, decide_eq_true_eq] at hMem
    exact ⟨ord.mem_entries.mp hMem.1, hMem.2⟩
  · cases h

theorem afterGlobalCap_getElem? :
    (afterGlobalCap ord m)[k]? = if (globalVictim ord m).map (·.1) = some k then none else m[k]? :=
  getElem?_eraseSome

theorem afterCaps_getElem? :
    (afterCaps ord m d)[k]? =
      if (deviceVictim ord (afterGlobalCap ord m) d).map (·.1) = some k then none
      else (afterGlobalCap ord m)[k]? :=
  getElem?_eraseSome

/-- The table after a registration. -/
theorem register_getElem? :
    (register ord m entry)[k]? =
      if k = entry.sessionPub then some entry else (afterCaps ord m entry.deviceId)[k]? :=
  getElem?_insert

/-- The new session is found under its key. -/
theorem register_self (h : entry.sessionPub = k) : (register ord m entry)[k]? = some entry := by
  rw [register_getElem?, if_pos h.symm]

/-- What is left after the evictions was there before. -/
theorem afterCaps_sub (h : (afterCaps ord m d)[k]? = some e) : m[k]? = some e := by
  rw [afterCaps_getElem?] at h
  split at h
  · cases h
  · rw [afterGlobalCap_getElem?] at h
    split at h
    · cases h
    · exact h

/-- Nothing is evicted from a small table. -/
theorem afterCaps_of_small (h : m.size < maxSessionsPerDevice) : afterCaps ord m d = m := by
  have hEntries : (ord.entries m).length = m.size :=
    (ord.perm m).length_eq.trans ExtTreeMap.length_toList
  have hDevice : (deviceSessions ord m d).length ≤ m.size := by
    rw [← hEntries]
    exact List.length_filter_le _ _
  have hGlobal : globalVictim ord m = none := by
    unfold globalVictim
    unfold maxSessionsPerDevice at h
    rw [if_neg (by unfold maxTotalSessions; omega)]
  unfold afterCaps afterGlobalCap
  rw [hGlobal]
  show eraseSome m ((deviceVictim ord m d).map (·.1)) = m
  unfold deviceVictim
  rw [if_neg (by omega)]
  rfl

/-- An entry missing after the evictions was evicted, and its identity noted. -/
theorem afterCaps_evicted (h : m[k]? = some e) (hGone : (afterCaps ord m d)[k]? = none) :
    e.ikX ∈ evictedIkX ord m d := by
  unfold evictedIkX
  rw [List.mem_append, Option.mem_toList, Option.mem_toList]
  by_cases hGlobal : (globalVictim ord m).map (·.1) = some k
  · left
    obtain ⟨p, hp, hKey⟩ := Option.map_eq_some_iff.mp hGlobal
    obtain ⟨_, hEntry, _⟩ := globalVictim_oldest hp
    rw [hKey, h] at hEntry
    rw [hp, Option.some.inj hEntry]
    rfl
  · right
    have hMid : (afterGlobalCap ord m)[k]? = some e := by
      rw [afterGlobalCap_getElem?, if_neg hGlobal, h]
    rw [afterCaps_getElem?, hMid] at hGone
    split at hGone
    · rename_i hDevice
      obtain ⟨p, hp, hKey⟩ := Option.map_eq_some_iff.mp hDevice
      obtain ⟨hEntry, _⟩ := deviceVictim_mem hp
      rw [hKey, hMid] at hEntry
      rw [hp, Option.some.inj hEntry]
      rfl
    · cases hGone

/-- The device cap takes sessions of the device only. -/
theorem afterCaps_of_other (ord : IterOrder) (h : m[k]? = some e) (hDevice : e.deviceId ≠ d) :
    (afterCaps ord m d)[k]? = some e ∨ (globalVictim ord m).map (·.1) = some k := by
  by_cases hGlobal : (globalVictim ord m).map (·.1) = some k
  · exact .inr hGlobal
  · left
    have hMid : (afterGlobalCap ord m)[k]? = some e := by
      rw [afterGlobalCap_getElem?, if_neg hGlobal, h]
    rw [afterCaps_getElem?]
    split
    · rename_i hVictim
      obtain ⟨p, hp, hKey⟩ := Option.map_eq_some_iff.mp hVictim
      obtain ⟨hEntry, hOwner⟩ := deviceVictim_mem hp
      rw [hKey, hMid] at hEntry
      rw [← Option.some.inj hEntry] at hOwner
      exact absurd hOwner hDevice
    · exact hMid

-- ---------------------------------------------------------------------------
-- Live identities
-- ---------------------------------------------------------------------------

/-- The identity has a session in the table. -/
def HasSession (m : SessionMap) (ik : RawKey) : Prop :=
  ∃ (k : RawKey) (e : SessionEntry), m[k]? = some e ∧ e.ikX = ik

/-- The live set is the set of identities of the sessions in the table. -/
def ActiveExact (active : ExtTreeSet RawKey) (m : SessionMap) : Prop :=
  ∀ ik, ik ∈ active ↔ HasSession m ik

theorem any_iff_hasSession {ik : RawKey} :
    m.toList.any (·.2.ikX = ik) ↔ HasSession m ik := by
  rw [List.any_eq_true]
  constructor
  · rintro ⟨⟨k, e⟩, hMem, hIk⟩
    exact ⟨k, e, ExtTreeMap.mem_toList_iff_getElem?_eq_some.mp hMem, by simpa using hIk⟩
  · rintro ⟨k, e, hEntry, hIk⟩
    exact ⟨(k, e), ExtTreeMap.mem_toList_iff_getElem?_eq_some.mpr hEntry, by simpa using hIk⟩

theorem mem_foldl_insert {es : List (RawKey × SessionEntry)} {active : ExtTreeSet RawKey}
    {ik : RawKey} :
    ik ∈ es.foldl (fun active p => active.insert p.2.ikX) active ↔
      ik ∈ active ∨ ∃ p ∈ es, p.2.ikX = ik := by
  induction es generalizing active with
  | nil => simp
  | cons p es ih =>
    rw [List.foldl_cons, ih, ExtTreeSet.mem_insert, LawfulEqCmp.compare_eq_iff_eq]
    simp only [List.mem_cons, exists_eq_or_imp]
    tauto

/-- Rebuilding makes the live set exact. -/
theorem activeExact_rebuild : ActiveExact (rebuildActive m) m := by
  intro ik
  unfold rebuildActive
  rw [mem_foldl_insert]
  constructor
  · rintro (hEmpty | ⟨⟨k, e⟩, hMem, hIk⟩)
    · exact absurd hEmpty ExtTreeSet.not_mem_empty
    · exact ⟨k, e, ExtTreeMap.mem_toList_iff_getElem?_eq_some.mp hMem, hIk⟩
  · rintro ⟨k, e, hEntry, hIk⟩
    exact .inr ⟨(k, e), ExtTreeMap.mem_toList_iff_getElem?_eq_some.mpr hEntry, hIk⟩

/-- Evicted identities leave unless a session carries them. -/
theorem mem_foldl_leave {active : ExtTreeSet RawKey} {evicted : List RawKey} {ik : RawKey} :
    ik ∈ evicted.foldl
        (fun active ik => if m.toList.any (·.2.ikX = ik) then active else active.erase ik) active ↔
      ik ∈ active ∧ (ik ∈ evicted → HasSession m ik) := by
  induction evicted generalizing active with
  | nil => simp
  | cons a evicted ih =>
    rw [List.foldl_cons, ih]
    by_cases hSession : HasSession m a
    · rw [if_pos (any_iff_hasSession.mpr hSession)]
      simp only [List.mem_cons]
      constructor
      · rintro ⟨hActive, hRest⟩
        refine ⟨hActive, ?_⟩
        rintro (hEq | hMem)
        · rw [hEq]
          exact hSession
        · exact hRest hMem
      · rintro ⟨hActive, hRest⟩
        exact ⟨hActive, fun hMem => hRest (.inr hMem)⟩
    · rw [if_neg fun h => hSession (any_iff_hasSession.mp h), ExtTreeSet.mem_erase,
        ne_eq, LawfulEqCmp.compare_eq_iff_eq]
      simp only [List.mem_cons]
      constructor
      · rintro ⟨⟨hNe, hActive⟩, hRest⟩
        refine ⟨hActive, ?_⟩
        rintro (hEq | hMem)
        · exact absurd hEq.symm hNe
        · exact hRest hMem
      · rintro ⟨hActive, hRest⟩
        refine ⟨⟨?_, hActive⟩, fun hMem => hRest (.inr hMem)⟩
        intro hEq
        subst hEq
        exact hSession (hRest (.inl rfl))

theorem hasSession_register {ik : RawKey} :
    HasSession (register ord m entry) ik ↔
      entry.ikX = ik ∨ ∃ (k : RawKey) (e : SessionEntry), k ≠ entry.sessionPub ∧
        (afterCaps ord m entry.deviceId)[k]? = some e ∧ e.ikX = ik := by
  constructor
  · rintro ⟨k, e, hEntry, hIk⟩
    rw [register_getElem?] at hEntry
    split at hEntry
    · cases hEntry
      exact .inl hIk
    · rename_i hKey
      exact .inr ⟨k, e, hKey, hEntry, hIk⟩
  · rintro (hIk | ⟨k, e, hKey, hEntry, hIk⟩)
    · exact ⟨entry.sessionPub, entry, register_self rfl, hIk⟩
    · exact ⟨k, e, by rw [register_getElem?, if_neg hKey, hEntry], hIk⟩

/-- The session overwritten by a registration, if any, is of the same identity,
or of one that loses a session to the caps as well (which the update of the
live set looks at), or of one that has a session under another key. -/
def OverwritesNoLast (ord : IterOrder) (m : SessionMap) (entry : SessionEntry) : Prop :=
  ∀ e, (afterCaps ord m entry.deviceId)[entry.sessionPub]? = some e →
    e.ikX = entry.ikX ∨ e.ikX ∈ evictedIkX ord m entry.deviceId ∨
      ∃ (k : RawKey) (e' : SessionEntry), k ≠ entry.sessionPub ∧
        (afterCaps ord m entry.deviceId)[k]? = some e' ∧ e'.ikX = e.ikX

theorem overwritesNoLast_iff :
    OverwritesNoLast ord m entry ↔
      ∀ e, (afterCaps ord m entry.deviceId)[entry.sessionPub]? = some e →
        e.ikX ∉ evictedIkX ord m entry.deviceId → HasSession (register ord m entry) e.ikX := by
  unfold OverwritesNoLast
  simp only [hasSession_register]
  constructor
  · intro h e hOver hKept
    rcases h e hOver with hOwn | hEvicted | hOther
    · exact .inl hOwn.symm
    · exact absurd hEvicted hKept
    · exact .inr hOther
  · intro h e hOver
    by_cases hEvicted : e.ikX ∈ evictedIkX ord m entry.deviceId
    · exact .inr (.inl hEvicted)
    · rcases h e hOver hEvicted with hOwn | hOther
      · exact .inl hOwn.symm
      · exact .inr (.inr hOther)

/-- The incremental update of the live set on a registration is exact iff no
other identity's last session is overwritten. -/
theorem updateActive_exact_iff {active : ExtTreeSet RawKey} (h : ActiveExact active m) :
    ActiveExact (updateActive active (register ord m entry) entry.ikX
        (evictedIkX ord m entry.deviceId)) (register ord m entry) ↔
      OverwritesNoLast ord m entry := by
  rw [overwritesNoLast_iff]
  have hNew : HasSession (register ord m entry) entry.ikX := hasSession_register.mpr (.inl rfl)
  have hMem : ∀ ik, ik ∈ updateActive active (register ord m entry) entry.ikX
        (evictedIkX ord m entry.deviceId) ↔
      (entry.ikX = ik ∨ HasSession m ik) ∧
        (ik ∈ evictedIkX ord m entry.deviceId → HasSession (register ord m entry) ik) := by
    intro ik
    unfold updateActive
    rw [mem_foldl_leave, ExtTreeSet.mem_insert, LawfulEqCmp.compare_eq_iff_eq, h ik]
  constructor
  · intro hExact e hOver hKept
    refine (hExact e.ikX).mp ((hMem e.ikX).mpr ⟨.inr ⟨_, e, afterCaps_sub hOver, rfl⟩, ?_⟩)
    intro hEvicted
    exact absurd hEvicted hKept
  · intro hKeep ik
    rw [hMem]
    constructor
    · rintro ⟨hOwn | ⟨k, e, hEntry, hIk⟩, hEvicted⟩
      · rw [← hOwn]
        exact hNew
      · subst hIk
        cases hCaps : (afterCaps ord m entry.deviceId)[k]? with
        | none => exact hEvicted (afterCaps_evicted hEntry hCaps)
        | some e' =>
          have hSame : e' = e := by
            have hBefore := afterCaps_sub hCaps
            rw [hEntry] at hBefore
            exact (Option.some.inj hBefore).symm
          subst hSame
          by_cases hKey : k = entry.sessionPub
          · subst hKey
            by_cases hEv : e'.ikX ∈ evictedIkX ord m entry.deviceId
            · exact hEvicted hEv
            · exact hKeep e' hCaps hEv
          · exact ⟨k, e', by rw [register_getElem?, if_neg hKey, hCaps], rfl⟩
    · intro hSession
      refine ⟨?_, fun _ => hSession⟩
      rcases hasSession_register.mp hSession with hOwn | ⟨k, e, _, hEntry, hIk⟩
      · exact .inl hOwn
      · exact .inr ⟨k, e, afterCaps_sub hEntry, hIk⟩

end Signaling

end LinkMesh
