import LinkMesh.Server.Lifecycle

/-!
# Replayed AUTHs

An AUTH is protected against replay by the ring of the last 64 nonces of its
device together with the timestamp window. The history of a server keeps the
clock and the AUTH datagrams that were accepted.

## Results

* `no_auth_accepted_twice` — no AUTH is accepted twice in a run in which a
  nonce leaves a full ring only when the accepted AUTHs that carry it are out of
  their timestamp window for good.
-/

namespace LinkMesh

open Std KeyMap Layout Signaling

variable {Ct : Type}

/-- Clock values that `SystemTime` can give as seconds. -/
def maxClock : Nat := 2 ^ 63

/-- No clock from `now` on accepts the timestamp. -/
def Expired (timestamp now : Nat) : Prop :=
  ∀ t, now ≤ t → t < maxClock → timestampOk timestamp t = false

theorem Expired.mono {timestamp now now' : Nat} (h : Expired timestamp now) (hNow : now ≤ now') :
    Expired timestamp now' := by
  intro t ht
  exact h t (Nat.le_trans hNow ht)

/-- A timestamp more than 30 seconds back has expired. -/
theorem expired_of_lt {timestamp now : Nat} (h : timestamp + 30 < now) : Expired timestamp now := by
  intro t hNow hClock
  unfold maxClock at hClock
  have hTs : asI64 timestamp = timestamp := Int.bmod_eq_of_le (by omega) (by omega)
  have hT : asI64 t = t := Int.bmod_eq_of_le (by omega) (by omega)
  have hDiff : asI64 ((timestamp : Int) - t) = (timestamp : Int) - t :=
    Int.bmod_eq_of_le (by omega) (by omega)
  unfold timestampOk
  rw [hTs, hT, hDiff, decide_eq_false_iff_not]
  have hAbs : (((timestamp : Int) - t).natAbs : Int) = t - timestamp := by omega
  rw [hAbs]
  have hWrap : asI64 ((t : Int) - timestamp) = t - timestamp := Int.bmod_eq_of_le (by omega) (by omega)
  rw [hWrap]
  omega

-- ---------------------------------------------------------------------------
-- Histories
-- ---------------------------------------------------------------------------

/-- A server with its clock and the AUTH datagrams accepted so far. -/
structure History (Ct : Type) where
  srv : Signaling
  clock : Nat
  accepted : List (SignalFrame Ct)

namespace History

/-- The event takes place at a time that is not before the last one. -/
def Timed (h : History Ct) : ServerEvent Ct → Prop
  | .datagram _ _ d => h.clock ≤ d.auth.rateNow ∧ d.auth.rateNow ≤ d.auth.now ∧ d.auth.now < maxClock
  | _ => True

/-- The AUTH datagram that the event makes the server accept. -/
def acceptedBy (env : SignalingEnv Ct) (s : Signaling) : ServerEvent Ct → List (SignalFrame Ct)
  | .datagram f src d =>
    match (s.handleSignaling env f src d).2 with
    | .auth (.accepted _ _) => [f]
    | _ => []
  | _ => []

def next (env : SignalingEnv Ct) (h : History Ct) (e : ServerEvent Ct) : History Ct :=
  { srv := h.srv.next env e
    clock := match e with
      | .datagram _ _ d => d.auth.now
      | _ => h.clock
    accepted := h.accepted ++ acceptedBy env h.srv e }

def machine (env : SignalingEnv Ct) : Machine (History Ct) (ServerEvent Ct) where
  init h := (∃ mesh rooms aliases, h.srv = Signaling.start mesh rooms aliases) ∧ h.accepted = []
  enabled := Timed
  next := next env

/-- The ring of a device. -/
def ring (s : Signaling) (ik : RawKey) : List Bytes := s.replay[ik]?.getD []

/-- When an AUTH pushes the oldest nonce out of a full ring, the accepted AUTHs
with this nonce have expired. -/
def DropsExpired (env : SignalingEnv Ct) (h : History Ct) : ServerEvent Ct → Prop
  | .datagram f src d =>
    f.sender ∉ h.srv.sessions → ∀ ab nonce, CarriesAuth env f ab →
      Records env h.srv f.sender ab src d.auth nonce →
        ∀ oldest rest, ring h.srv f.sender = oldest :: rest → replayRing ≤ (oldest :: rest).length →
          ∀ g ∈ h.accepted, g.sender = f.sender → ∀ ab', CarriesAuth env g ab' →
            authNonce ab'.nonce = .ok oldest → Expired ab'.timestamp d.auth.now
  | _ => True

-- ---------------------------------------------------------------------------
-- What an event does to the rings
-- ---------------------------------------------------------------------------

variable {env : SignalingEnv Ct} {s : Signaling} {h : History Ct} {e : ServerEvent Ct}

/-- A new nonce at the end, and the oldest of more than 64 away. -/
def pushed (q : List Bytes) (nonce : Bytes) : List Bytes :=
  if replayRing < (q ++ [nonce]).length then (q ++ [nonce]).drop 1 else q ++ [nonce]

theorem ring_replayCheck {ik j : RawKey} {nonce : Bytes} :
    ring (s.replayCheck ik nonce).1 j =
      if j = ik ∧ nonce ∉ ring s ik then pushed (ring s ik) nonce else ring s j := by
  unfold ring replayCheck
  dsimp only
  by_cases hSeen : nonce ∈ s.replay[ik]?.getD []
  · rw [if_pos hSeen, if_neg fun hBoth => hBoth.2 hSeen]
    show (s.replay.insert ik _)[j]?.getD [] = _
    rw [getElem?_insert]
    split
    · rename_i hKey
      rw [hKey]
      rfl
    · rfl
  · rw [if_neg hSeen]
    show (s.replay.insert ik _)[j]?.getD [] = _
    rw [getElem?_insert]
    by_cases hKey : j = ik
    · have hBoth : j = ik ∧ nonce ∉ s.replay[ik]?.getD [] := ⟨hKey, hSeen⟩
      simp only [if_pos hKey, if_pos hBoth]
      rfl
    · have hNot : ¬ (j = ik ∧ nonce ∉ s.replay[ik]?.getD []) := fun hBoth => hKey hBoth.1
      simp only [if_neg hKey, if_neg hNot]

theorem mem_pushed_self {q : List Bytes} {nonce : Bytes} : nonce ∈ pushed q nonce := by
  unfold pushed
  split
  · rename_i hLong
    cases q with
    | nil =>
      have hOne : replayRing < 1 := hLong
      exact absurd hOne (by decide)
    | cons a q => exact List.mem_append_right q (List.mem_singleton.mpr rfl)
  · exact List.mem_append_right q (List.mem_singleton.mpr rfl)

/-- A nonce stays in the ring unless it is the oldest of a full one. -/
theorem mem_pushed_or {q : List Bytes} {n : Bytes} (nonce : Bytes) (hMem : n ∈ q) :
    n ∈ pushed q nonce ∨ ∃ rest, q = n :: rest ∧ replayRing ≤ q.length := by
  unfold pushed
  split
  · rename_i hLong
    cases q with
    | nil => cases hMem
    | cons a q =>
      rcases List.mem_cons.mp hMem with hHead | hTail
      · right
        rw [hHead]
        refine ⟨q, rfl, ?_⟩
        rw [List.length_append, List.length_singleton] at hLong
        omega
      · exact .inl (List.mem_append_left [nonce] hTail)
  · exact .inl (List.mem_append_left [nonce] hMem)

theorem acceptedBy_of_accepted {f : SignalFrame Ct} {src : SourceAddr} {d : SignalDraw}
    {entry : SessionEntry} {resp : Except String AuthRespBody}
    (h : (s.handleSignaling env f src d).2 = .auth (.accepted entry resp)) :
    acceptedBy env s (.datagram f src d) = [f] := by
  unfold acceptedBy
  dsimp only
  rw [h]

/-- An event leaves the rings alone, or it is an AUTH that looks its nonce up;
only such an AUTH can be accepted. -/
theorem event_cases (env : SignalingEnv Ct) (s : Signaling) (e : ServerEvent Ct) :
    (acceptedBy env s e = [] ∧ ∀ ik, ring (s.next env e) ik = ring s ik) ∨
    ∃ f src d ab nonce, e = .datagram f src d ∧ f.sender ∉ s.sessions ∧ CarriesAuth env f ab ∧
      (∀ ik, ring (s.next env e) ik = ring (s.replayCheck f.sender nonce).1 ik) ∧
      (acceptedBy env s e = [] ∧
          (nonce ∈ ring s f.sender ∨ Records env s f.sender ab src d.auth nonce) ∨
        acceptedBy env s e = [f] ∧ ∃ room ekC, Admits env s f.sender ab src d.auth room nonce ekC) := by
  by_cases hAcc : ∃ f src d ab room nonce ekC, e = .datagram f src d ∧ f.sender ∉ s.sessions ∧
      CarriesAuth env f ab ∧ Admits env s f.sender ab src d.auth room nonce ekC
  · obtain ⟨f, src, d, ab, room, nonce, ekC, rfl, hFree, hCarries, hAdmits⟩ := hAcc
    right
    refine ⟨f, src, d, ab, nonce, rfl, hFree, hCarries, fun ik => ?_, .inr ⟨?_, room, ekC, hAdmits⟩⟩
    · have hNext : s.next env (.datagram f src d) = s.afterAuth env f.sender src d.auth nonce
          (authEntry env f.sender ab d.auth room nonce ekC) :=
        (congrArg Prod.fst (handleSignaling_auth src d hCarries hFree)).trans
          (congrArg Prod.fst (handleAuth_of_admits hAdmits))
      unfold ring
      rw [hNext, afterAuth_replay]
    · exact acceptedBy_of_accepted
        (accepts_iff.mpr ⟨hFree, ab, room, nonce, ekC, hCarries, hAdmits, rfl, rfl⟩)
  · have hNone : acceptedBy env s e = [] := by
      unfold acceptedBy
      split
      · rename_i f src d
        split
        · rename_i entry resp hOutcome
          obtain ⟨hFree, ab, room, nonce, ekC, hCarries, hAdmits, _⟩ := accepts_iff.mp hOutcome
          exact absurd ⟨f, src, d, ab, room, nonce, ekC, rfl, hFree, hCarries, hAdmits⟩ hAcc
        · rfl
      · rfl
    rcases next_cases env s e with
      hQuiet | ⟨f, src, d, ab, rfl, hFree, hCarries,
        ⟨r, nonce, hNonce, hEq⟩ | ⟨room, nonce, ekC, hAdmits, _⟩⟩
    · left
      refine ⟨hNone, fun ik => ?_⟩
      unfold ring
      rw [hQuiet.replay]
    · right
      refine ⟨f, src, d, ab, nonce, rfl, hFree, hCarries, fun ik => ?_, .inl ⟨hNone, hNonce⟩⟩
      rw [hEq]
      rfl
    · exact absurd ⟨f, src, d, ab, room, nonce, ekC, rfl, hFree, hCarries, hAdmits⟩ hAcc

-- ---------------------------------------------------------------------------
-- Accepted once
-- ---------------------------------------------------------------------------

/-- An accepted AUTH is remembered in the ring of its device or has expired. -/
structure Remembered (env : SignalingEnv Ct) (h : History Ct) : Prop where
  nodup : h.accepted.Nodup
  kept : ∀ g ∈ h.accepted, ∀ ab nonce, CarriesAuth env g ab → authNonce ab.nonce = .ok nonce →
    nonce ∈ ring h.srv g.sender ∨ Expired ab.timestamp h.clock

/-- An AUTH that passes the checks has not been accepted before. -/
theorem Remembered.not_mem {f : SignalFrame Ct} {src : SourceAddr} {d : SignalDraw} {ab : AuthBody}
    {nonce : Bytes} (hInv : Remembered env h) (hTimed : h.Timed (.datagram f src d))
    (hCarries : CarriesAuth env f ab) (hRecords : Records env h.srv f.sender ab src d.auth nonce) :
    f ∉ h.accepted := by
  intro hMem
  obtain ⟨_, _, _, _, _, _, _, _, hTime, hNonce⟩ := authChecks_eq_ok.mp hRecords.checks
  obtain ⟨hRate, hNow, hClock⟩ := hTimed
  rcases hInv.kept f hMem ab nonce hCarries hNonce with hRing | hExpired
  · exact hRecords.fresh hRing
  · rw [hExpired d.auth.now (Nat.le_trans hRate hNow) hClock] at hTime
    cases hTime

/-- Looking a nonce up keeps what was remembered, under the guard. -/
theorem Remembered.lookup {f : SignalFrame Ct} {src : SourceAddr} {d : SignalDraw} {ab : AuthBody}
    {nonce : Bytes} (hInv : Remembered env h) (hTimed : h.Timed (.datagram f src d))
    (hGuard : h.DropsExpired env (.datagram f src d)) (hFree : f.sender ∉ h.srv.sessions)
    (hCarries : CarriesAuth env f ab)
    (hNonce : nonce ∈ ring h.srv f.sender ∨ Records env h.srv f.sender ab src d.auth nonce) :
    ∀ g ∈ h.accepted, ∀ ab' n, CarriesAuth env g ab' → authNonce ab'.nonce = .ok n →
      n ∈ ring (h.srv.replayCheck f.sender nonce).1 g.sender ∨ Expired ab'.timestamp d.auth.now := by
  intro g hg ab' n hCarries' hn
  obtain ⟨hRate, hNow, _⟩ := hTimed
  rcases hInv.kept g hg ab' n hCarries' hn with hRing | hExpired
  · rw [ring_replayCheck]
    split
    · rename_i hPush
      have hRecords : Records env h.srv f.sender ab src d.auth nonce :=
        hNonce.resolve_left hPush.2
      rw [hPush.1] at hRing
      rcases mem_pushed_or nonce hRing with hKept | ⟨rest, hOldest, hFull⟩
      · exact .inl hKept
      · rw [hOldest] at hFull
        exact .inr (hGuard hFree ab nonce hCarries hRecords n rest hOldest hFull g hg hPush.1 ab'
          hCarries' hn)
    · exact .inl hRing
  · exact .inr (hExpired.mono (Nat.le_trans hRate hNow))

theorem remembered_next (hInv : Remembered env h) (hTimed : h.Timed e)
    (hGuard : h.DropsExpired env e) : Remembered env (h.next env e) := by
  rcases event_cases env h.srv e with
    ⟨hNone, hRing⟩ | ⟨f, src, d, ab, nonce, rfl, hFree, hCarries, hRing,
      ⟨hNone, hNonce⟩ | ⟨hSome, room, ekC, hAdmits⟩⟩
  · have hClock : h.clock ≤ (h.next env e).clock := by
      cases e with
      | datagram f src d => exact Nat.le_trans hTimed.1 hTimed.2.1
      | _ => exact Nat.le_refl _
    have hSame : (h.next env e).accepted = h.accepted := by
      show h.accepted ++ acceptedBy env h.srv e = h.accepted
      rw [hNone, List.append_nil]
    refine ⟨hSame ▸ hInv.nodup, fun g hg ab nonce hCarries hNonce => ?_⟩
    rw [hSame] at hg
    show nonce ∈ ring (h.srv.next env e) g.sender ∨ _
    rw [hRing]
    exact (hInv.kept g hg ab nonce hCarries hNonce).imp_right fun hOld => hOld.mono hClock
  · have hSame : (h.next env (.datagram f src d)).accepted = h.accepted := by
      show h.accepted ++ acceptedBy env h.srv _ = h.accepted
      rw [hNone, List.append_nil]
    refine ⟨hSame ▸ hInv.nodup, fun g hg ab' n hCarries' hn => ?_⟩
    rw [hSame] at hg
    show n ∈ ring (h.srv.next env _) g.sender ∨ Expired ab'.timestamp d.auth.now
    rw [hRing]
    exact hInv.lookup hTimed hGuard hFree hCarries hNonce g hg ab' n hCarries' hn
  · have hMore : (h.next env (.datagram f src d)).accepted = h.accepted ++ [f] := by
      show h.accepted ++ acceptedBy env h.srv _ = h.accepted ++ [f]
      rw [hSome]
    refine ⟨?_, fun g hg ab' n hCarries' hn => ?_⟩
    · rw [hMore]
      have hNew := hInv.not_mem hTimed hCarries hAdmits.records
      refine List.nodup_append.mpr ⟨hInv.nodup, by simp, fun g hg g' hg' hEq => ?_⟩
      rw [List.mem_singleton] at hg'
      rw [hEq, hg'] at hg
      exact hNew hg
    · rw [hMore] at hg
      show n ∈ ring (h.srv.next env _) g.sender ∨ Expired ab'.timestamp d.auth.now
      rw [hRing]
      rcases List.mem_append.mp hg with hOld | hNew
      · exact hInv.lookup hTimed hGuard hFree hCarries (.inr hAdmits.records) g hOld ab' n hCarries' hn
      · rw [List.mem_singleton] at hNew
        subst hNew
        left
        have hSame : n = nonce := by
          obtain ⟨_, _, _, _, _, _, _, _, _, hNonce⟩ := authChecks_eq_ok.mp hAdmits.checks
          rw [hCarries'.unique hCarries, hNonce] at hn
          exact (Except.ok.inj hn).symm
        rw [ring_replayCheck, if_pos ⟨rfl, hAdmits.fresh⟩, hSame]
        exact mem_pushed_self

/-- **No AUTH is accepted twice**, whatever comes in between and whatever the
rate limit, in every run in which a nonce that leaves a full ring belongs to
accepted AUTHs that have expired. -/
theorem no_auth_accepted_twice (env : SignalingEnv Ct)
    (hReach : (machine env).Reach (fun h e => h.DropsExpired env e) h) : h.accepted.Nodup := by
  have hInv : Remembered env h := by
    refine hReach.invariant (I := Remembered env) (fun h hInit => ?_) fun h e hInv hTimed hGuard => ?_
    · refine ⟨hInit.2 ▸ List.nodup_nil, fun g hg => ?_⟩
      rw [hInit.2] at hg
      cases hg
    · exact remembered_next hInv hTimed hGuard
  exact hInv.nodup

-- ---------------------------------------------------------------------------
-- A flood of AUTHs
-- ---------------------------------------------------------------------------

/-- The server after `n` AUTHs of device 2, all at time 0. -/
def sampleFlood : Nat → Signaling
  | 0 => start sampleMesh [] ∅
  | n + 1 => sampleAdd (sampleFlood n) 2 50 11 0 n 0

def sampleFloodEvent (n : Nat) : ServerEvent (RawKey × Nonce × Bytes) :=
  sampleAuthEvent 2 50 11 0 n 0

def sampleFloodFrame (n : Nat) : SignalFrame (RawKey × Nonce × Bytes) := sampleAuthFrame 2 50 0 n

def sampleFloodHistory (n : Nat) : History (RawKey × Nonce × Bytes) :=
  { srv := sampleFlood n, clock := 0, accepted := (List.range n).map sampleFloodFrame }

theorem sampleFlood_mesh (n : Nat) : (sampleFlood n).mesh = sampleMesh := by
  induction n with
  | zero => rfl
  | succ n ih => exact sampleAdd_mesh.trans ih

theorem sampleFlood_rooms (n : Nat) : (sampleFlood n).rooms = [] := by
  induction n with
  | zero => rfl
  | succ n ih => exact sampleAdd_rooms.trans ih

theorem sampleFlood_free (n : Nat) : (2 : RawKey) ∉ (sampleFlood n).sessions := by
  induction n with
  | zero => exact ExtTreeMap.not_mem_empty
  | succ n ih =>
    intro hMem
    obtain ⟨e, hEntry⟩ := mem_iff.mp hMem
    rw [sampleFlood, sampleAdd_sessions, register_getElem?] at hEntry
    split at hEntry
    · rename_i hKey
      exact absurd hKey (by decide : (2 : RawKey) ≠ 50)
    · exact ih (mem_iff.mpr ⟨e, afterCaps_sub hEntry⟩)

theorem beBytes_inj {n a b : Nat} (ha : a < 256 ^ n) (hb : b < 256 ^ n)
    (h : beBytes n a = beBytes n b) : a = b := by
  rw [← beValue_beBytes ha, h, beValue_beBytes hb]

/-- The ring holds the last 64 nonces, so that the next one is new. -/
theorem ring_sampleFlood {n : Nat} (hn : n ≤ 65) :
    ring (sampleFlood n) 2 = ((List.range n).map (beBytes 12)).drop (n - 64) ∧
      beBytes 12 n ∉ ring (sampleFlood n) 2 := by
  have hBound : ∀ m, m ≤ 65 → m < 256 ^ 12 := by
    intro m hm
    exact Nat.lt_of_le_of_lt hm (by decide)
  have hNew : ∀ m, m ≤ 65 → beBytes 12 m ∉ ((List.range m).map (beBytes 12)).drop (m - 64) := by
    intro m hm hMem
    obtain ⟨a, ha, hEq⟩ := List.mem_map.mp (List.mem_of_mem_drop hMem)
    rw [List.mem_range] at ha
    have hSame := beBytes_inj (hBound a (by omega)) (hBound m hm) hEq
    omega
  induction n with
  | zero => exact ⟨rfl, by exact List.not_mem_nil⟩
  | succ n ih =>
    obtain ⟨hRing, hFresh⟩ := ih (by omega)
    have hStep : ring (sampleFlood (n + 1)) 2 =
        ((List.range (n + 1)).map (beBytes 12)).drop (n + 1 - 64) := by
      have hPush : ring (sampleFlood (n + 1)) 2 = pushed (ring (sampleFlood n) 2) (beBytes 12 n) := by
        have hReplay : ring (sampleFlood (n + 1)) 2 =
            ring ((sampleFlood n).replayCheck 2 (beBytes 12 n)).1 2 := by
          unfold ring
          rw [sampleFlood, sampleAdd_replay]
        rw [hReplay, ring_replayCheck, if_pos ⟨rfl, hFresh⟩]
      rw [hPush, hRing, List.range_succ, List.map_append, List.map_singleton]
      have hLength : ((List.range n).map (beBytes 12)).length = n := by simp
      unfold pushed replayRing
      split
      · rename_i hLong
        rw [List.length_append, List.length_drop, hLength, List.length_singleton] at hLong
        rw [← List.drop_append_of_le_length (by omega), List.drop_drop]
        congr 1
        omega
      · rename_i hShort
        rw [List.length_append, List.length_drop, hLength, List.length_singleton] at hShort
        rw [← List.drop_append_of_le_length (by omega)]
        congr 1
        omega
    exact ⟨hStep, hStep ▸ hNew (n + 1) hn⟩

/-- An AUTH with a nonce that is not in the ring is admitted. -/
theorem sampleFlood_admits {n m : Nat} (h : beBytes 12 m ∉ ring (sampleFlood n) 2) :
    Admits sampleServerEnv (sampleFlood n) 2 (sampleAuth 2 50 0 m) sampleSrc (sampleAuthDraw 0 11)
      "default" (beBytes 12 m) 50 :=
  sampleAuth_admits (sampleFlood_mesh n) (sampleFlood_rooms n) (.inl rfl) (by decide)
    (Nat.zero_le _) h (by decide)

theorem next_sampleFloodHistory {n m : Nat} (h : beBytes 12 m ∉ ring (sampleFlood n) 2) :
    next sampleServerEnv (sampleFloodHistory n) (sampleFloodEvent m) =
      { srv := sampleAdd (sampleFlood n) 2 50 11 0 m 0
        clock := 0
        accepted := (List.range n).map sampleFloodFrame ++ [sampleFloodFrame m] } := by
  have hSrv : (sampleFlood n).next sampleServerEnv (sampleFloodEvent m) =
      sampleAdd (sampleFlood n) 2 50 11 0 m 0 :=
    next_sampleAuthEvent (.inl rfl) (by decide) (sampleFlood_free n) (sampleFlood_admits h)
  have hAccepted : acceptedBy sampleServerEnv (sampleFlood n) (sampleFloodEvent m) =
      [sampleFloodFrame m] := by
    obtain ⟨resp, hHandle⟩ :=
      handle_sampleAuthFrame (.inl rfl) (by decide) (sampleFlood_free n) (sampleFlood_admits h)
    exact acceptedBy_of_accepted (congrArg Prod.snd hHandle)
  unfold next sampleFloodHistory
  rw [hSrv, hAccepted]
  rfl

theorem reach_sampleFloodHistory {G : History (RawKey × Nonce × Bytes) → ServerEvent _ → Prop} {n : Nat}
    (hn : n ≤ 65) (hG : ∀ m, m < n → G (sampleFloodHistory m) (sampleFloodEvent m)) :
    (machine sampleServerEnv).Reach G (sampleFloodHistory n) := by
  induction n with
  | zero => exact .init ⟨⟨sampleMesh, [], ∅, rfl⟩, rfl⟩
  | succ n ih =>
    have hStep : next sampleServerEnv (sampleFloodHistory n) (sampleFloodEvent n) =
        sampleFloodHistory (n + 1) := by
      rw [next_sampleFloodHistory (ring_sampleFlood (by omega)).2]
      unfold sampleFloodHistory
      rw [List.range_succ, List.map_append, List.map_singleton]
      rfl
    rw [← hStep]
    refine .step (ih (by omega) fun m hm => hG m (by omega)) ?_ (hG n (by omega))
    exact ⟨Nat.le_refl 0, Nat.le_refl 0, by decide⟩

/-- Device 2 authenticates 64 times within a second: no nonce leaves the ring. -/
theorem no_auth_accepted_twice_sample : ((List.range 64).map sampleFloodFrame).Nodup := by
  refine no_auth_accepted_twice (h := sampleFloodHistory 64) sampleServerEnv
    (reach_sampleFloodHistory (by decide) fun m hm => ?_)
  intro _ ab nonce _ _ oldest rest hRing hFull
  have hLength : (ring (sampleFlood m) 2).length ≤ m := by
    rw [(ring_sampleFlood (by omega)).1, List.length_drop, List.length_map, List.length_range]
    omega
  have hTooShort : replayRing ≤ (ring (sampleFlood m) 2).length := by
    have hEq : ring (sampleFlood m) 2 = oldest :: rest := hRing
    rw [hEq]
    exact hFull
  unfold replayRing at hTooShort
  omega

/-- After 64 more AUTHs within a second the first one is accepted again. -/
theorem no_auth_accepted_twice_fails :
    ∃ h, (machine sampleServerEnv).Reach (fun _ _ => True) h ∧
      h.accepted = (List.range 65).map sampleFloodFrame ++ [sampleFloodFrame 0] ∧
      ¬ h.accepted.Nodup := by
  have hGone : beBytes 12 0 ∉ ring (sampleFlood 65) 2 := by
    rw [(ring_sampleFlood (Nat.le_refl 65)).1]
    decide +kernel
  have hAccepted : (next sampleServerEnv (sampleFloodHistory 65) (sampleFloodEvent 0)).accepted =
      (List.range 65).map sampleFloodFrame ++ [sampleFloodFrame 0] := by
    rw [next_sampleFloodHistory hGone]
  refine ⟨_, .step (reach_sampleFloodHistory (Nat.le_refl 65) fun _ _ => trivial) ?_ trivial,
    hAccepted, fun hNodup => ?_⟩
  · exact ⟨Nat.le_refl 0, Nat.le_refl 0, by decide⟩
  · have hNodup : ((List.range 65).map sampleFloodFrame ++ [sampleFloodFrame 0]).Nodup :=
      hAccepted ▸ hNodup
    refine (List.nodup_append.mp hNodup).2.2 (sampleFloodFrame 0) ?_ (sampleFloodFrame 0)
      (List.mem_singleton.mpr rfl) rfl
    exact List.mem_map.mpr ⟨0, by decide, rfl⟩

end History

end LinkMesh
