import LinkMesh.Server.Workers

/-!
# The bounds of authentication

Two numbers that `handle_auth` (`linkmesh-server/src/signaling.rs`) keeps small:
how far a timestamp may be from the clock, in 64-bit arithmetic, and how many
sessions the table holds, in all and for each device.

## Results

* `timestamp_exact_iff` — the timestamp check is exact, and computed without
  overflow, iff the subtraction and the absolute value do not wrap.
* `session_caps`        — the caps hold after any events of the running server,
  and an AUTH that evicts takes the oldest candidate.
-/

namespace LinkMesh

open Std KeyMap

variable {Ct : Type}

-- ---------------------------------------------------------------------------
-- The timestamp
-- ---------------------------------------------------------------------------

/-- The result of an `i64` operation in a debug build, which panics on overflow. -/
def checkedI64 (n : Int) : Option Int := if asI64 n = n then some n else none

/-- `(ts as i64 - now as i64).abs() <= 30` as a debug build computes it; `none`
is a panic. -/
def timestampChecked (ts now : Nat) : Option Bool := do
  let diff ← checkedI64 (asI64 ts - asI64 now)
  let age ← checkedI64 diff.natAbs
  return age ≤ 30

/-- The two are at most 30 seconds apart. -/
def InWindow (ts now : Nat) : Prop := ts ≤ now + 30 ∧ now ≤ ts + 30

/-- Both builds compute the check, without overflow, and let nothing pass that is
outside the window. -/
structure TimestampExact (ts now : Nat) : Prop where
  release : timestampOk ts now = true → InWindow ts now
  debug : ∃ passes, timestampChecked ts now = some passes ∧ (passes = true → InWindow ts now)

/-- Both are below 2 ^ 63 or neither is; or they are more than 2 ^ 63 apart, and
still more than 30 seconds apart around 2 ^ 64. -/
def NoWrap (ts now : Nat) : Prop :=
  (ts < 2 ^ 63 ↔ now < 2 ^ 63) ∨
    2 ^ 63 + min ts now < max ts now ∧ max ts now + 30 < 2 ^ 64 + min ts now

instance (ts now : Nat) : Decidable (NoWrap ts now) := inferInstanceAs (Decidable (_ ∨ _))

theorem asI64_eq (n : Int) : ∃ k : Int, asI64 n = n + k * 2 ^ 64 ∧ -2 ^ 63 ≤ asI64 n ∧ asI64 n < 2 ^ 63 := by
  unfold asI64
  rw [Int.bmod_def]
  split
  · exact ⟨-(n / 2 ^ 64), by omega, by omega, by omega⟩
  · exact ⟨-(n / 2 ^ 64) - 1, by omega, by omega, by omega⟩

/-- A number of the range of `i64` is kept. -/
theorem asI64_eq_self {n : Int} : asI64 n = n ↔ -2 ^ 63 ≤ n ∧ n < 2 ^ 63 := by
  obtain ⟨k, hEq, hLow, hHigh⟩ := asI64_eq n
  omega

theorem asI64_natCast {n : Nat} (h : n < 2 ^ 64) :
    asI64 n = if n < 2 ^ 63 then (n : Int) else n - 2 ^ 64 := by
  obtain ⟨k, hEq, hLow, hHigh⟩ := asI64_eq n
  split
  · omega
  · omega

theorem checkedI64_eq_some {n m : Int} : checkedI64 n = some m ↔ (-2 ^ 63 ≤ n ∧ n < 2 ^ 63) ∧ n = m := by
  unfold checkedI64
  rw [← asI64_eq_self]
  split
  · rename_i hSelf
    simp [hSelf]
  · rename_i hWrapped
    simp [hWrapped]

/-- A debug build gets through the check iff the difference is above the least `i64`. -/
theorem timestampChecked_eq_some {ts now : Nat} {passes : Bool} :
    timestampChecked ts now = some passes ↔
      (-2 ^ 63 < asI64 ts - asI64 now ∧ asI64 ts - asI64 now < 2 ^ 63) ∧
        decide ((asI64 ts - asI64 now).natAbs ≤ 30) = passes := by
  unfold timestampChecked
  simp only [Option.bind_eq_bind, Option.bind_eq_some_iff, checkedI64_eq_some, Option.pure_def,
    Option.some.injEq]
  constructor
  · rintro ⟨diff, ⟨hDiff, rfl⟩, age, ⟨hAge, rfl⟩, rfl⟩
    exact ⟨by omega, decide_eq_decide.mpr (by omega)⟩
  · rintro ⟨hRange, rfl⟩
    exact ⟨_, ⟨by omega, rfl⟩, _, ⟨by omega, rfl⟩, decide_eq_decide.mpr (by omega)⟩

/-- Without overflow the two builds agree. -/
theorem timestampOk_of_checked {ts now : Nat} {passes : Bool}
    (h : timestampChecked ts now = some passes) : timestampOk ts now = passes := by
  obtain ⟨hRange, rfl⟩ := timestampChecked_eq_some.mp h
  unfold timestampOk
  rw [asI64_eq_self.mpr (show -2 ^ 63 ≤ asI64 ts - asI64 now ∧ asI64 ts - asI64 now < 2 ^ 63 by omega),
    asI64_eq_self.mpr (by omega)]
  exact decide_eq_decide.mpr (by omega)

/-- **The timestamp window in 64 bits.** For every timestamp and clock the check is
exact in both builds iff neither operation wraps around. -/
theorem timestamp_exact_iff {ts now : Nat} (hTs : ts < 2 ^ 64) (hNow : now < 2 ^ 64) :
    TimestampExact ts now ↔ NoWrap ts now := by
  have hTs' := asI64_natCast hTs
  have hNow' := asI64_natCast hNow
  have hPasses : ∀ passes, timestampChecked ts now = some passes →
      ((passes = true → InWindow ts now) ↔ NoWrap ts now) := by
    intro passes hChecked
    obtain ⟨hRange, rfl⟩ := timestampChecked_eq_some.mp hChecked
    rw [decide_eq_true_eq]
    unfold InWindow NoWrap
    split at hTs' <;> split at hNow' <;> omega
  constructor
  · rintro ⟨_, passes, hChecked, hWindow⟩
    exact (hPasses passes hChecked).mp hWindow
  · intro hNoWrap
    have hChecked : timestampChecked ts now =
        some (decide ((asI64 ts - asI64 now).natAbs ≤ 30)) := by
      refine timestampChecked_eq_some.mpr ⟨?_, rfl⟩
      unfold NoWrap at hNoWrap
      split at hTs' <;> split at hNow' <;> omega
    have hWindow := (hPasses _ hChecked).mpr hNoWrap
    exact ⟨fun hOk => hWindow ((timestampOk_of_checked hChecked).symm.trans hOk), _, hChecked, hWindow⟩

theorem timestamp_exact_near : TimestampExact 100 90 ∧ ¬ TimestampExact (2 ^ 64 - 5) 3 := by
  refine ⟨(timestamp_exact_iff (by decide) (by decide)).mpr (by decide), fun hExact => ?_⟩
  exact absurd ((timestamp_exact_iff (by decide) (by decide)).mp hExact) (by decide)

/-- An AUTH 2 ^ 63 seconds ahead of the clock is accepted, by a release build; a
debug build panics. -/
theorem far_timestamp_accepted :
    (∃ s' entry resp, ({ mesh := sampleMesh } : Signaling).handleAuth sampleServerEnv 2
        (sampleAuth 2 50 (2 ^ 63 + 100) 1) sampleSrc (sampleAuthDraw 100 11) =
      (s', .accepted entry resp)) ∧
    ¬ InWindow (2 ^ 63 + 100) 100 ∧ timestampChecked (2 ^ 63 + 100) 100 = none := by
  refine ⟨?_, by unfold InWindow; omega, by decide⟩
  have hAdmits : Signaling.Admits sampleServerEnv { mesh := sampleMesh } 2
      (sampleAuth 2 50 (2 ^ 63 + 100) 1) sampleSrc (sampleAuthDraw 100 11) "default"
      (Layout.beBytes 12 1) 50 :=
    Signaling.sampleAuth_admits rfl rfl (.inl rfl) (by decide) (by decide) (by decide +kernel) (by decide)
  obtain ⟨resp, hAccepted⟩ := Signaling.sampleAdd_of_admits hAdmits
  exact ⟨_, _, resp, hAccepted⟩

-- ---------------------------------------------------------------------------
-- The caps of the session table
-- ---------------------------------------------------------------------------

namespace Signaling

def deviceCount (m : SessionMap) (deviceId : String) : Nat := count (·.deviceId = deviceId) m

structure WithinCaps (m : SessionMap) : Prop where
  total : m.size ≤ maxTotalSessions
  device : ∀ d, deviceCount m d ≤ maxSessionsPerDevice

/-- The session evicted for the global cap has the smallest `last_seen` of all, the
one evicted for the device cap that of the sessions which the device has left. -/
structure EvictsOldest (ord : IterOrder) (m : SessionMap) (deviceId : String) : Prop where
  global : ∀ p, globalVictim ord m = some p →
    m[p.1]? = some p.2 ∧ ∀ (k : RawKey) e, m[k]? = some e → p.2.lastSeen ≤ e.lastSeen
  device : ∀ p, deviceVictim ord (afterGlobalCap ord m) deviceId = some p →
    (afterGlobalCap ord m)[p.1]? = some p.2 ∧ p.2.deviceId = deviceId ∧
      ∀ (k : RawKey) e, (afterGlobalCap ord m)[k]? = some e → e.deviceId = deviceId →
        p.2.lastSeen ≤ e.lastSeen

variable {ord : IterOrder} {m m' : SessionMap} {entry : SessionEntry} {d : String}
  {p : RawKey × SessionEntry}

theorem evictsOldest (ord : IterOrder) (m : SessionMap) (d : String) : EvictsOldest ord m d where
  global p hp := (globalVictim_oldest hp).2
  device p hp := by
    obtain ⟨hEntry, hDevice⟩ := deviceVictim_mem hp
    refine ⟨hEntry, hDevice, fun k e hk he => ?_⟩
    unfold deviceVictim oldest at hp
    split at hp
    · refine List.le_of_mem_argmin (f := fun q : RawKey × SessionEntry => q.2.lastSeen) (a := (k, e)) ?_ hp
      exact List.mem_filter.mpr ⟨ord.mem_entries.mpr hk, by simpa using he⟩
    · cases hp

theorem length_deviceSessions : (deviceSessions ord m d).length = deviceCount m d :=
  ((ord.perm m).filter _).length_eq

theorem oldest_isSome {es : List (RawKey × SessionEntry)} (h : 0 < es.length) : ∃ p, oldest es = some p := by
  cases hOldest : oldest es with
  | some p => exact ⟨p, rfl⟩
  | none =>
    rw [List.argmin_eq_none.mp hOldest] at h
    cases h

/-- An eviction leaves every count as it is, or lower. -/
theorem count_eraseSome_le {q : SessionEntry → Bool} {o : Option RawKey} :
    count q (eraseSome m o) ≤ count q m := by
  exact count_le fun k e he hq => ⟨e, (of_getElem?_eraseSome he).2, hq⟩

/-- After the global cap there is room for one more. -/
theorem afterGlobalCap_size_lt (h : m.size ≤ maxTotalSessions) :
    (afterGlobalCap ord m).size < maxTotalSessions := by
  unfold afterGlobalCap globalVictim
  split
  · rename_i hFull
    have hEntries : (ord.entries m).length = m.size := (ord.perm m).length_eq.trans ExtTreeMap.length_toList
    have hSome : 0 < (ord.entries m).length := by
      unfold maxTotalSessions at hFull
      omega
    obtain ⟨p, hp⟩ := oldest_isSome hSome
    have hEntry : m[p.1]? = some p.2 := ord.mem_entries.mp (List.argmin_mem hp)
    have hLess := count_erase_lt (p := fun _ => true) hEntry rfl
    rw [count_true, count_true] at hLess
    rw [hp]
    exact Nat.lt_of_lt_of_le hLess h
  · rename_i hRoom
    exact Nat.not_le.mp hRoom

/-- After the device cap the device has room for one more. -/
theorem afterDeviceCap_count_lt (h : deviceCount m d ≤ maxSessionsPerDevice) :
    deviceCount (eraseSome m ((deviceVictim ord m d).map (·.1))) d < maxSessionsPerDevice := by
  cases hVictim : deviceVictim ord m d with
  | some p =>
    obtain ⟨hEntry, hDevice⟩ := deviceVictim_mem hVictim
    exact Nat.lt_of_lt_of_le (count_erase_lt hEntry (by simpa using hDevice)) h
  | none =>
    unfold deviceVictim at hVictim
    split at hVictim
    · rename_i hFull
      have hSome : 0 < (deviceSessions ord m d).length := by
        unfold maxSessionsPerDevice at hFull
        omega
      obtain ⟨p, hp⟩ := oldest_isSome hSome
      rw [hp] at hVictim
      cases hVictim
    · rename_i hRoom
      rw [length_deviceSessions] at hRoom
      exact Nat.not_le.mp hRoom

/-- A registration keeps the caps: whatever it evicts, it makes room first. -/
theorem withinCaps_register (h : WithinCaps m) : WithinCaps (register ord m entry) := by
  constructor
  · have hRoom : (afterGlobalCap ord m).size < maxTotalSessions := afterGlobalCap_size_lt h.total
    have hDevice := count_eraseSome_le (m := afterGlobalCap ord m) (q := fun _ => true)
      (o := (deviceVictim ord (afterGlobalCap ord m) entry.deviceId).map (·.1))
    have hInsert := count_insert_le (p := fun _ => true) (m := afterCaps ord m entry.deviceId)
      (k := entry.sessionPub) (v := entry)
    rw [count_true, count_true] at hDevice hInsert
    unfold register
    unfold afterCaps at hInsert ⊢
    rw [if_pos rfl] at hInsert
    omega
  · intro d
    have hGlobal : deviceCount (afterGlobalCap ord m) d ≤ deviceCount m d := count_eraseSome_le
    have hDevice : deviceCount (afterCaps ord m entry.deviceId) d ≤ deviceCount (afterGlobalCap ord m) d :=
      count_eraseSome_le
    have hInsert : deviceCount (register ord m entry) d ≤
        deviceCount (afterCaps ord m entry.deviceId) d + if entry.deviceId = d then 1 else 0 := by
      have hCount := count_insert_le (p := (·.deviceId = d)) (m := afterCaps ord m entry.deviceId)
        (k := entry.sessionPub) (v := entry)
      simp only [decide_eq_true_eq] at hCount
      exact hCount
    have hCap := h.device d
    split at hInsert
    · rename_i hOwn
      subst hOwn
      have hRoom : deviceCount (afterCaps ord m entry.deviceId) entry.deviceId < maxSessionsPerDevice :=
        afterDeviceCap_count_lt (by omega)
      omega
    · omega

/-- Sessions that all come from sessions of the same device keep the caps. -/
theorem WithinCaps.of_origin (h : WithinCaps m)
    (hOrigin : ∀ (k : RawKey) e', m'[k]? = some e' → ∃ e, m[k]? = some e ∧ e'.deviceId = e.deviceId) :
    WithinCaps m' := by
  constructor
  · have hLe : count (fun _ => true) m' ≤ count (fun _ => true) m := by
      refine count_le fun k e' he' _ => ?_
      obtain ⟨e, he, _⟩ := hOrigin k e' he'
      exact ⟨e, he, rfl⟩
    rw [count_true, count_true] at hLe
    exact hLe.trans h.total
  · intro d
    refine (count_le fun k e' he' hd => ?_).trans (h.device d)
    obtain ⟨e, he, hSame⟩ := hOrigin k e' he'
    rw [hSame] at hd
    exact ⟨e, he, hd⟩

end Signaling

namespace Workers

open Signaling

variable {env : SignalingEnv Ct} {n : Nat} {s : Workers Ct} {ev : WorkerEvent Ct}

/-- An AUTH that is accepted registers its session, whatever it evicts for it. -/
theorem sessions_of_accepted {f : SignalFrame Ct} {src : SourceAddr} {d : SignalDraw}
    {srv : Signaling} {entry : SessionEntry} {resp : Except String AuthRespBody}
    (h : (srv.handleSignaling env f src d).2 = .auth (.accepted entry resp)) :
    (srv.handleSignaling env f src d).1.sessions = register d.auth.order srv.sessions entry := by
  obtain ⟨hFree, ab, room, nonce, ekC, hCarries, hAdmits, rfl, _⟩ := accepts_iff.mp h
  rw [handleSignaling_auth src d hCarries hFree]
  exact handleAuth_sessions hAdmits

theorem withinCaps_next (h : WithinCaps s.srv.sessions) : WithinCaps (s.next env n ev).srv.sessions := by
  by_cases hAuth : ∃ f src d entry resp, ev = .receive f src d ∧
      (s.srv.handleSignaling env f src d).2 = .auth (.accepted entry resp)
  · obtain ⟨f, src, d, entry, resp, rfl, hAccepted⟩ := hAuth
    unfold next
    dsimp only
    split
    · exact h
    · dsimp only
      rw [sessions_of_accepted hAccepted]
      exact withinCaps_register h
  · refine h.of_origin fun k e' he' => ?_
    cases next_sessions he' with
    | kept hOld => exact ⟨e', hOld, rfl⟩
    | committed _ _ _ hOld hNew =>
      subst hNew
      exact ⟨_, hOld, rfl⟩
    | registered hEv hAccepted => exact absurd ⟨_, _, _, _, _, hEv, hAccepted⟩ hAuth

end Workers

end LinkMesh
