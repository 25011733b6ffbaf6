import LinkMesh.Server.Signaling

/-!
# Sessions over the life of the server

What ends sessions and routes besides signaling (`revoke_device`,
`cleanup_loop`, the control channel), the refreshing of routes by relayed
packets, and the runs of a server that handles everything one at a time.

## Results

* `active_exact_iff`    — the set of live identities mirrors the session table
  along a run iff no AUTH overwrites the last session of another identity.
* `auth_dispatch_iff`   — a fresh valid AUTH is accepted iff no session is
  stored under the identity key of its device; along a run none is iff no
  accepted AUTH chooses this key.
-/

namespace LinkMesh

open Std KeyMap Layout

variable {Ct : Type}

namespace Signaling

-- ---------------------------------------------------------------------------
-- Relay
-- ---------------------------------------------------------------------------

/-- The route of the source of a relayed packet is refreshed, if there is one. -/
def refreshRoute (s : Signaling) (srcKey : RawKey) (now : Nat) : Signaling :=
  match s.routes.get srcKey with
  | some e => s.registerRoute { e with publicKey := srcKey, lastSeen := now }
  | none => s

/-- A relayed packet under an identity key refreshes the route of its source. -/
def relayRefresh (s : Signaling) (srcKey : RawKey) (now : Nat) : Signaling :=
  if srcKey ∈ s.activeIkX then s.refreshRoute srcKey now else s

-- ---------------------------------------------------------------------------
-- Revocation
-- ---------------------------------------------------------------------------

/-- Session key and identity of the sessions of a device. -/
def victims (s : Signaling) (deviceId : String) : List (RawKey × RawKey) :=
  (s.sessions.toList.filter (·.2.deviceId = deviceId)).map fun p => (p.1, p.2.ikX)

def removeSessions (s : Signaling) (keys : List RawKey) : Signaling :=
  { s with sessions := eraseAll s.sessions keys }

def removeRoutes (s : Signaling) (keys : List RawKey) : Signaling :=
  { s with routes := keys.foldl RouteTable.remove s.routes }

/-- `revoke_device`: the revocation list, the sessions, the live identities, and
the routes of the sessions that were found. -/
def revokeDevice (env : SignalingEnv Ct) (s : Signaling) (deviceId : String) (reason : RevokeReason)
    (now : Nat) : Signaling × Except String Nat :=
  let (mesh, result) := s.mesh.revoke env.signatures deviceId reason now
  let s := { s with mesh := mesh }
  match result with
  | .error e => (s, .error e)
  | .ok crl =>
    let kicked := s.victims deviceId
    let s := (s.removeSessions (kicked.map (·.1))).rebuildActiveIkX
    (s.removeRoutes (kicked.map (·.2)), .ok crl.version)

-- ---------------------------------------------------------------------------
-- Cleanup
-- ---------------------------------------------------------------------------

def cleanupRoutes (env : SignalingEnv Ct) (s : Signaling) (now : Nat) : Signaling :=
  { s with routes := s.routes.cleanup now env.routeTtlSec }

def pruneRateLimits (s : Signaling) (now : Nat) : Signaling :=
  { s with rateLimits := s.rateLimits.filter fun _ window => now - window.1 < 60 }

/-- Keys of the sessions without a session request for longer than the TTL. -/
def expiredSessions (env : SignalingEnv Ct) (s : Signaling) (now : Nat) : List RawKey :=
  (s.sessions.toList.filter fun p => max env.routeTtlSec 60 < now - p.2.lastSeen).map (·.1)

/-- An expired session goes, and the route of its identity with it. -/
def dropSession (s : Signaling) (key : RawKey) : Signaling :=
  match s.sessions[key]? with
  | some e => (s.removeSession key).removeRoute e.ikX
  | none => s

/-- One pass of `cleanup_loop`. -/
def cleanupPass (env : SignalingEnv Ct) (s : Signaling) (now : Nat) : Signaling :=
  let s := (s.cleanupRoutes env now).pruneRateLimits now
  let expired := s.expiredSessions env now
  let s := expired.foldl dropSession s
  if expired.isEmpty then s else s.rebuildActiveIkX

/-- `Signaling::new`: a server with empty tables. -/
def start (mesh : MeshConfig) (rooms : List RoomEntry) (aliases : ExtTreeMap String String) :
    Signaling :=
  { mesh := mesh, rooms := rooms, aliases := aliases }

end Signaling

-- ---------------------------------------------------------------------------
-- Runs
-- ---------------------------------------------------------------------------

/-- What a server handles, one at a time. -/
inductive ServerEvent (Ct : Type) where
  | datagram (f : SignalFrame Ct) (src : SourceAddr) (d : SignalDraw)
  | relay (srcKey : RawKey) (now : Nat)
  | revoke (deviceId : String) (reason : RevokeReason) (now : Nat)
  | cleanup (now : Nat)
  /-- `delpeer` of the control channel -/
  | delPeer (key : RawKey)
  /-- rooms and aliases set through the control channel -/
  | administer (rooms : List RoomEntry) (aliases : ExtTreeMap String String)

namespace Signaling

def next (env : SignalingEnv Ct) (s : Signaling) : ServerEvent Ct → Signaling
  | .datagram f src d => (s.handleSignaling env f src d).1
  | .relay srcKey now => s.relayRefresh srcKey now
  | .revoke deviceId reason now => (s.revokeDevice env deviceId reason now).1
  | .cleanup now => s.cleanupPass env now
  | .delPeer key => s.removeRoute key
  | .administer rooms aliases => { s with rooms := rooms, aliases := aliases }

/-- The server over any sequence of events, from empty tables. -/
def machine (env : SignalingEnv Ct) : Machine Signaling (ServerEvent Ct) where
  init s := ∃ mesh rooms aliases, s = start mesh rooms aliases
  enabled _ _ := True
  next := next env

@[simp] theorem machine_next (env : SignalingEnv Ct) (s : Signaling) (e : ServerEvent Ct) :
    (machine env).next s e = s.next env e := rfl

-- ---------------------------------------------------------------------------
-- What the events do to the sessions
-- ---------------------------------------------------------------------------

variable {env : SignalingEnv Ct} {s : Signaling} {now : Nat} {deviceId : String}
  {reason : RevokeReason} {k : RawKey}

theorem relayRefresh_frame (s : Signaling) (srcKey : RawKey) (now : Nat) :
    ∃ r, s.relayRefresh srcKey now = { s with routes := r } := by
  unfold relayRefresh refreshRoute
  split
  · split
    · exact ⟨_, rfl⟩
    · exact ⟨_, rfl⟩
  · exact ⟨_, rfl⟩

theorem mem_victims {p : RawKey × RawKey} :
    p ∈ s.victims deviceId ↔
      ∃ e, s.sessions[p.1]? = some e ∧ e.deviceId = deviceId ∧ e.ikX = p.2 := by
  unfold victims
  simp only [List.mem_map, List.mem_filter, decide_eq_true_eq, Prod.exists]
  constructor
  · rintro ⟨k, e, ⟨hMem, hDevice⟩, rfl⟩
    exact ⟨e, ExtTreeMap.mem_toList_iff_getElem?_eq_some.mp hMem, hDevice, rfl⟩
  · rintro ⟨e, hEntry, hDevice, hIk⟩
    exact ⟨p.1, e, ⟨ExtTreeMap.mem_toList_iff_getElem?_eq_some.mpr hEntry, hDevice⟩, by rw [hIk]⟩

theorem mem_expiredSessions :
    k ∈ s.expiredSessions env now ↔
      ∃ e, s.sessions[k]? = some e ∧ max env.routeTtlSec 60 < now - e.lastSeen := by
  show k ∈ keysWhere (fun e => decide (max env.routeTtlSec 60 < now - e.lastSeen)) s.sessions ↔ _
  simp only [mem_keysWhere, decide_eq_true_eq]

/-- A failed revocation changes the mesh registry only. -/
theorem revokeDevice_error {e : String} (h : (s.revokeDevice env deviceId reason now).2 = .error e) :
    ∃ mesh, (s.revokeDevice env deviceId reason now).1 = { s with mesh := mesh } := by
  unfold revokeDevice at h ⊢
  dsimp only at h ⊢
  split at h
  · rename_i hResult
    dsimp only
    exact ⟨_, rfl⟩
  · cases h

/-- A successful one removes every session of the device. -/
theorem revokeDevice_ok {version : Nat}
    (h : (s.revokeDevice env deviceId reason now).2 = .ok version) :
    ∃ mesh, (s.revokeDevice env deviceId reason now).1 =
      { s with
        mesh := mesh
        routes := ((s.victims deviceId).map (·.2)).foldl RouteTable.remove s.routes
        sessions := eraseAll s.sessions ((s.victims deviceId).map (·.1))
        activeIkX := rebuildActive (eraseAll s.sessions ((s.victims deviceId).map (·.1))) } := by
  unfold revokeDevice at h ⊢
  dsimp only at h ⊢
  split at h
  · cases h
  · exact ⟨_, rfl⟩

theorem dropSession_frame (s : Signaling) (k : RawKey) :
    ∃ r, s.dropSession k = { s with sessions := s.sessions.erase k, routes := r } := by
  unfold dropSession
  split
  · exact ⟨_, rfl⟩
  · rename_i hNone
    refine ⟨s.routes, ?_⟩
    have hGone : s.sessions.erase k = s.sessions := by
      refine ExtTreeMap.ext_getElem? fun {j} => ?_
      rw [getElem?_erase]
      split
      · rename_i hKey
        rw [hKey, hNone]
      · rfl
    rw [hGone]

theorem foldl_dropSession (ks : List RawKey) (s : Signaling) :
    ∃ r, ks.foldl dropSession s = { s with sessions := eraseAll s.sessions ks, routes := r } := by
  induction ks generalizing s with
  | nil => exact ⟨s.routes, rfl⟩
  | cons k ks ih =>
    obtain ⟨r, hHead⟩ := dropSession_frame s k
    obtain ⟨r', hTail⟩ := ih (s.dropSession k)
    refine ⟨r', ?_⟩
    rw [List.foldl_cons, hTail, hHead]
    rfl

/-- A cleanup pass without an expired session leaves sessions and live
identities alone; otherwise the expired ones go and the live identities are
rebuilt. -/
theorem cleanupPass_cases (env : SignalingEnv Ct) (s : Signaling) (now : Nat) :
    (∃ r rates, s.cleanupPass env now = { s with routes := r, rateLimits := rates }) ∨
    ∃ r rates, s.cleanupPass env now =
      { s with
        routes := r
        rateLimits := rates
        sessions := eraseAll s.sessions (s.expiredSessions env now)
        activeIkX := rebuildActive (eraseAll s.sessions (s.expiredSessions env now)) } := by
  have hExpired : ((s.cleanupRoutes env now).pruneRateLimits now).expiredSessions env now =
      s.expiredSessions env now := rfl
  obtain ⟨r, hFold⟩ := foldl_dropSession (s.expiredSessions env now)
    ((s.cleanupRoutes env now).pruneRateLimits now)
  unfold cleanupPass
  dsimp only
  rw [hExpired, hFold]
  split
  · rename_i hEmpty
    left
    rw [List.isEmpty_iff.mp hEmpty]
    exact ⟨_, _, rfl⟩
  · right
    exact ⟨_, _, rfl⟩

-- ---------------------------------------------------------------------------
-- Live identities mirror the sessions
-- ---------------------------------------------------------------------------

/-- The live identities of a server are those of its sessions. -/
def Mirrors (s : Signaling) : Prop := ActiveExact s.activeIkX s.sessions

theorem mirrors_of_eq {s' : Signaling} (h : s.Mirrors) (hActive : s'.activeIkX = s.activeIkX)
    (hSessions : s'.sessions = s.sessions) : s'.Mirrors := by
  unfold Mirrors
  rw [hActive, hSessions]
  exact h

theorem mirrors_rebuild : s.rebuildActiveIkX.Mirrors := activeExact_rebuild

/-- A session keeps its identity when its counter moves on. -/
theorem hasSession_commitCounter {sender ik : RawKey} {seq : Nat} :
    HasSession (s.commitCounter sender seq now).sessions ik ↔ HasSession s.sessions ik := by
  constructor
  · rintro ⟨k, e, hEntry, hIk⟩
    rw [commitCounter_getElem?] at hEntry
    split at hEntry
    · obtain ⟨e', hOld, rfl⟩ := Option.map_eq_some_iff.mp hEntry
      exact ⟨k, e', hOld, hIk⟩
    · exact ⟨k, e, hEntry, hIk⟩
  · rintro ⟨k, e, hEntry, hIk⟩
    by_cases hKey : k = sender
    · exact ⟨k, { e with counterRx := seq, lastSeen := now },
        by rw [commitCounter_getElem?, if_pos hKey, hEntry]; rfl, hIk⟩
    · exact ⟨k, e, by rw [commitCounter_getElem?, if_neg hKey, hEntry], hIk⟩

theorem mirrors_commitCounter {sender : RawKey} {seq : Nat} (h : s.Mirrors) :
    (s.commitCounter sender seq now).Mirrors := by
  intro ik
  rw [hasSession_commitCounter]
  obtain ⟨m, hEq⟩ := commitCounter_frame s sender seq now
  rw [hEq]
  exact h ik

/-- A session request leaves the live identities exact. -/
theorem mirrors_handleSession {f : SignalFrame Ct} {src : SourceAddr} {d : RequestDraw}
    (h : s.Mirrors) : (s.handleSession env f src d).1.Mirrors := by
  rcases handleSession_cases env s f src d with hSame | ⟨e, plaintext, hEntry, hOpen⟩
  · rw [hSame]
    exact h
  · rw [handleSession_opened hEntry hOpen]
    by_cases hBye : planRequest env e.view f.msgType plaintext = .bye
    · rw [hBye]
      exact mirrors_rebuild
    · obtain ⟨r, hEq⟩ := execute_frame env (s.commitCounter f.sender e.view.nextSeq d.now) f.sender
        e.view src d.routeNow hBye
      dsimp only
      rw [hEq]
      exact mirrors_of_eq (mirrors_commitCounter h) rfl rfl

/-- An AUTH that is accepted overwrites no session that is the last one of
another identity. -/
def KeepsMirror (env : SignalingEnv Ct) (s : Signaling) : ServerEvent Ct → Prop
  | .datagram f src d =>
    f.sender ∉ s.sessions → ∀ ab room nonce ekC, CarriesAuth env f ab →
      Admits env s f.sender ab src d.auth room nonce ekC →
        OverwritesNoLast d.auth.order s.sessions
          (authEntry env f.sender ab d.auth room nonce ekC)
  | _ => True

theorem mirrors_datagram_iff {f : SignalFrame Ct} {src : SourceAddr} {d : SignalDraw}
    (h : s.Mirrors) :
    (s.handleSignaling env f src d).1.Mirrors ↔ s.KeepsMirror env (.datagram f src d) := by
  rcases handleSignaling_cases env s f src d with ⟨hSession, hKind⟩ | ⟨hFree, ab, hCarries⟩ | hBypass
  · rw [handleSignaling_session d hKind hSession]
    exact iff_of_true (mirrors_handleSession h) fun hFree => absurd hSession hFree
  · rw [handleSignaling_auth src d hCarries hFree]
    have hKeeps : s.KeepsMirror env (.datagram f src d) ↔
        ∀ room nonce ekC, Admits env s f.sender ab src d.auth room nonce ekC →
          OverwritesNoLast d.auth.order s.sessions
            (authEntry env f.sender ab d.auth room nonce ekC) := by
      constructor
      · intro hAll room nonce ekC
        exact hAll hFree ab room nonce ekC hCarries
      · intro hAll _ ab' room nonce ekC hCarries'
        rw [hCarries'.unique hCarries]
        exact hAll room nonce ekC
    rw [hKeeps]
    rcases handleAuth_cases env s f.sender ab src d.auth with
      ⟨⟨r, hEq⟩, hNot⟩ | ⟨r, nonce, _, hEq, hNot⟩ | ⟨room, nonce, ekC, hAdmits, hEq⟩
    · rw [hEq]
      refine iff_of_true (mirrors_of_eq h rfl rfl) fun room nonce ekC hAdmits => ?_
      exact absurd (congrArg Prod.snd (handleAuth_of_admits hAdmits)) (hNot _ _)
    · obtain ⟨ring, hReplay⟩ := replayCheck_frame s f.sender nonce
      rw [hEq, hReplay]
      refine iff_of_true (mirrors_of_eq h rfl rfl) fun room nonce ekC hAdmits => ?_
      exact absurd (congrArg Prod.snd (handleAuth_of_admits hAdmits)) (hNot _ _)
    · rw [hEq]
      unfold Mirrors
      rw [afterAuth_activeIkX, afterAuth_sessions]
      rw [updateActive_exact_iff h]
      constructor
      · intro hKeep room' nonce' ekC' hAdmits'
        obtain ⟨rfl, rfl, rfl⟩ := hAdmits'.unique hAdmits
        exact hKeep
      · intro hAll
        exact hAll room nonce ekC hAdmits
  · have hKeeps : s.KeepsMirror env (.datagram f src d) := by
      intro hFree ab room nonce ekC hCarries hAdmits
      have hAuth := congrArg Prod.snd (handleSignaling_auth src d hCarries hFree)
      exact absurd hAuth (hBypass.noAuth _)
    refine iff_of_true ?_ hKeeps
    rcases hBypass.change with ⟨r, members, invites, hEq⟩ | ⟨_, hEq⟩
    · rw [hEq]
      exact mirrors_of_eq h rfl rfl
    · rw [hEq]
      exact mirrors_of_eq h rfl rfl

theorem mirrors_next_iff {e : ServerEvent Ct} (h : s.Mirrors) :
    (s.next env e).Mirrors ↔ s.KeepsMirror env e := by
  cases e with
  | datagram f src d => exact mirrors_datagram_iff h
  | relay srcKey now =>
    obtain ⟨r, hEq⟩ := relayRefresh_frame s srcKey now
    refine iff_of_true ?_ trivial
    show (s.relayRefresh srcKey now).Mirrors
    rw [hEq]
    exact mirrors_of_eq h rfl rfl
  | revoke deviceId reason now =>
    refine iff_of_true ?_ trivial
    show (s.revokeDevice env deviceId reason now).1.Mirrors
    cases hResult : (s.revokeDevice env deviceId reason now).2 with
    | error e =>
      obtain ⟨mesh, hEq⟩ := revokeDevice_error hResult
      rw [hEq]
      exact mirrors_of_eq h rfl rfl
    | ok version =>
      obtain ⟨mesh, hEq⟩ := revokeDevice_ok hResult
      rw [hEq]
      exact activeExact_rebuild
  | cleanup now =>
    refine iff_of_true ?_ trivial
    show (s.cleanupPass env now).Mirrors
    rcases cleanupPass_cases env s now with ⟨r, rates, hEq⟩ | ⟨r, rates, hEq⟩
    · rw [hEq]
      exact mirrors_of_eq h rfl rfl
    · rw [hEq]
      exact activeExact_rebuild
  | delPeer key => exact iff_of_true (mirrors_of_eq h rfl rfl) trivial
  | administer rooms aliases => exact iff_of_true (mirrors_of_eq h rfl rfl) trivial

theorem mirrors_start {mesh : MeshConfig} {rooms : List RoomEntry}
    {aliases : ExtTreeMap String String} : (start mesh rooms aliases).Mirrors := by
  intro ik
  refine iff_of_false ExtTreeSet.not_mem_empty ?_
  rintro ⟨k, e, hEntry, _⟩
  rw [start, ExtTreeMap.getElem?_empty] at hEntry
  cases hEntry

/-- **Live identities mirror the sessions.** Along a run of the server
`active_ik_x` is the set of identities of the sessions in the table if and only
if no accepted AUTH overwrites the last session of another identity. -/
theorem active_exact_iff (env : SignalingEnv Ct) (mesh : MeshConfig) (rooms : List RoomEntry)
    (aliases : ExtTreeMap String String) (es : List (ServerEvent Ct)) :
    (∀ pre, pre <+: es → ((machine env).run (start mesh rooms aliases) pre).Mirrors) ↔
      ∀ pre e, pre ++ [e] <+: es →
        ((machine env).run (start mesh rooms aliases) pre).KeepsMirror env e :=
  Machine.along_run_iff (M := machine env) mirrors_start (fun _ _ h => mirrors_next_iff h) es

-- ---------------------------------------------------------------------------
-- What an event does to the session keys and the nonce rings
-- ---------------------------------------------------------------------------

/-- No session under a new key, and no change of the nonce rings. -/
structure Quiet (s s' : Signaling) : Prop where
  replay : s'.replay = s.replay
  keys : ∀ k, k ∈ s'.sessions → k ∈ s.sessions

theorem quiet_of_eq {s' : Signaling} (hReplay : s'.replay = s.replay)
    (hSessions : s'.sessions = s.sessions) : Quiet s s' :=
  ⟨hReplay, fun k hk => by rwa [hSessions] at hk⟩

theorem mem_of_mem_eraseAll {m : SessionMap} {ks : List RawKey} (h : k ∈ eraseAll m ks) : k ∈ m := by
  obtain ⟨e, hEntry⟩ := mem_iff.mp h
  exact mem_iff.mpr ⟨e, (of_getElem?_eraseAll hEntry).2⟩

theorem mem_commitCounter {sender : RawKey} {seq : Nat}
    (h : k ∈ (s.commitCounter sender seq now).sessions) : k ∈ s.sessions := by
  obtain ⟨e, hEntry⟩ := mem_iff.mp h
  rw [commitCounter_getElem?] at hEntry
  split at hEntry
  · obtain ⟨e', hOld, _⟩ := Option.map_eq_some_iff.mp hEntry
    exact mem_iff.mpr ⟨e', hOld⟩
  · exact mem_iff.mpr ⟨e, hEntry⟩

theorem quiet_handleSession {f : SignalFrame Ct} {src : SourceAddr} {d : RequestDraw} :
    Quiet s (s.handleSession env f src d).1 := by
  rcases handleSession_cases env s f src d with hSame | ⟨e, plaintext, hEntry, hOpen⟩
  · rw [hSame]
    exact quiet_of_eq rfl rfl
  · rw [handleSession_opened hEntry hOpen]
    obtain ⟨m, hCommit⟩ := commitCounter_frame s f.sender e.view.nextSeq d.now
    have hReplay : (s.commitCounter f.sender e.view.nextSeq d.now).replay = s.replay := by rw [hCommit]
    by_cases hBye : planRequest env e.view f.msgType plaintext = .bye
    · rw [hBye]
      refine ⟨hReplay, fun k hk => ?_⟩
      have hCommitted : k ∈ (s.commitCounter f.sender e.view.nextSeq d.now).sessions :=
        ExtTreeMap.mem_of_mem_erase hk
      exact mem_commitCounter hCommitted
    · obtain ⟨r, hEq⟩ := execute_frame env (s.commitCounter f.sender e.view.nextSeq d.now) f.sender
        e.view src d.routeNow hBye
      dsimp only
      rw [hEq]
      exact ⟨hReplay, fun k hk => mem_commitCounter hk⟩

/-- An event is quiet, or it is an AUTH that looks its nonce up, or one that is
accepted. -/
theorem next_cases (env : SignalingEnv Ct) (s : Signaling) (e : ServerEvent Ct) :
    Quiet s (s.next env e) ∨
    ∃ f src d ab, e = .datagram f src d ∧ f.sender ∉ s.sessions ∧ CarriesAuth env f ab ∧
      ((∃ r nonce, (nonce ∈ s.replay[f.sender]?.getD [] ∨
          Records env s f.sender ab src d.auth nonce) ∧
        s.next env e = { (s.replayCheck f.sender nonce).1 with rateLimits := r }) ∨
      ∃ room nonce ekC, Admits env s f.sender ab src d.auth room nonce ekC ∧
        s.next env e = s.afterAuth env f.sender src d.auth nonce
          (authEntry env f.sender ab d.auth room nonce ekC)) := by
  cases e with
  | datagram f src d =>
    show Quiet s (s.handleSignaling env f src d).1 ∨ _
    rcases handleSignaling_cases env s f src d with ⟨hSession, hKind⟩ | ⟨hFree, ab, hCarries⟩ | hBypass
    · left
      rw [handleSignaling_session d hKind hSession]
      exact quiet_handleSession
    · have hNext : s.next env (.datagram f src d) = (s.handleAuth env f.sender ab src d.auth).1 :=
        congrArg Prod.fst (handleSignaling_auth src d hCarries hFree)
      rcases handleAuth_cases env s f.sender ab src d.auth with
        ⟨⟨r, hEq⟩, _⟩ | ⟨r, nonce, hNonce, hEq, _⟩ | ⟨room, nonce, ekC, hAdmits, hEq⟩
      · left
        rw [handleSignaling_auth src d hCarries hFree, hEq]
        exact quiet_of_eq rfl rfl
      · right
        exact ⟨f, src, d, ab, rfl, hFree, hCarries, .inl ⟨r, nonce, hNonce, hNext.trans hEq⟩⟩
      · right
        exact ⟨f, src, d, ab, rfl, hFree, hCarries,
          .inr ⟨room, nonce, ekC, hAdmits, hNext.trans (congrArg Prod.fst hEq)⟩⟩
    · left
      rcases hBypass.change with ⟨r, members, invites, hEq⟩ | ⟨_, hEq⟩
      · rw [hEq]
        exact quiet_of_eq rfl rfl
      · rw [hEq]
        exact quiet_of_eq rfl rfl
  | relay srcKey now =>
    left
    obtain ⟨r, hEq⟩ := relayRefresh_frame s srcKey now
    show Quiet s (s.relayRefresh srcKey now)
    rw [hEq]
    exact quiet_of_eq rfl rfl
  | revoke deviceId reason now =>
    left
    show Quiet s (s.revokeDevice env deviceId reason now).1
    cases hResult : (s.revokeDevice env deviceId reason now).2 with
    | error e =>
      obtain ⟨mesh, hEq⟩ := revokeDevice_error hResult
      rw [hEq]
      exact quiet_of_eq rfl rfl
    | ok version =>
      obtain ⟨mesh, hEq⟩ := revokeDevice_ok hResult
      rw [hEq]
      exact ⟨rfl, fun k hk => mem_of_mem_eraseAll hk⟩
  | cleanup now =>
    left
    show Quiet s (s.cleanupPass env now)
    rcases cleanupPass_cases env s now with ⟨r, rates, hEq⟩ | ⟨r, rates, hEq⟩
    · rw [hEq]
      exact quiet_of_eq rfl rfl
    · rw [hEq]
      exact ⟨rfl, fun k hk => mem_of_mem_eraseAll hk⟩
  | delPeer key => exact .inl (quiet_of_eq rfl rfl)
  | administer rooms aliases => exact .inl (quiet_of_eq rfl rfl)

/-- The same session, later. -/
def Continues (old e : SessionEntry) : Prop :=
  ∃ counter seen, e = { old with counterRx := counter, lastSeen := seen }

/-- An AUTH that the event brings, and that is admitted, registers the session. -/
def Registers (env : SignalingEnv Ct) (s : Signaling) (ev : ServerEvent Ct) (e : SessionEntry) : Prop :=
  ∃ f src d ab room nonce ekC, ev = .datagram f src d ∧ f.sender ∉ s.sessions ∧ CarriesAuth env f ab ∧
    Admits env s f.sender ab src d.auth room nonce ekC ∧
    e = authEntry env f.sender ab d.auth room nonce ekC

theorem continues_refl (e : SessionEntry) : Continues e e := ⟨e.counterRx, e.lastSeen, rfl⟩

theorem continues_commitCounter {sender : RawKey} {seq : Nat} {e : SessionEntry}
    (h : (s.commitCounter sender seq now).sessions[k]? = some e) :
    ∃ old, s.sessions[k]? = some old ∧ Continues old e := by
  rw [commitCounter_getElem?] at h
  split at h
  · obtain ⟨old, hOld, rfl⟩ := Option.map_eq_some_iff.mp h
    exact ⟨old, hOld, seq, now, rfl⟩
  · exact ⟨e, h, continues_refl e⟩

theorem continues_handleSession {f : SignalFrame Ct} {src : SourceAddr} {d : RequestDraw} {e : SessionEntry}
    (h : (s.handleSession env f src d).1.sessions[k]? = some e) :
    ∃ old, s.sessions[k]? = some old ∧ Continues old e := by
  rcases handleSession_cases env s f src d with hSame | ⟨entry, plaintext, hEntry, hOpen⟩
  · rw [hSame] at h
    exact ⟨e, h, continues_refl e⟩
  · rw [handleSession_opened hEntry hOpen] at h
    by_cases hBye : planRequest env entry.view f.msgType plaintext = .bye
    · rw [hBye] at h
      have hErased : ((s.commitCounter f.sender entry.view.nextSeq d.now).sessions.erase f.sender)[k]? =
          some e := h
      exact continues_commitCounter (of_getElem?_erase hErased).2
    · obtain ⟨r, hEq⟩ := execute_frame env (s.commitCounter f.sender entry.view.nextSeq d.now) f.sender
        entry.view src d.routeNow hBye
      dsimp only at h
      rw [hEq] at h
      exact continues_commitCounter h

/-- A session after an event was there before, or an AUTH registers it. -/
theorem session_next {ev : ServerEvent Ct} {e : SessionEntry}
    (h : (s.next env ev).sessions[k]? = some e) :
    (∃ old, s.sessions[k]? = some old ∧ Continues old e) ∨ Registers env s ev e := by
  cases ev with
  | datagram f src d =>
    have h : (s.handleSignaling env f src d).1.sessions[k]? = some e := h
    rcases handleSignaling_cases env s f src d with ⟨hSession, hKind⟩ | ⟨hFree, ab, hCarries⟩ | hBypass
    · rw [handleSignaling_session d hKind hSession] at h
      exact .inl (continues_handleSession h)
    · rw [handleSignaling_auth src d hCarries hFree] at h
      rcases handleAuth_cases env s f.sender ab src d.auth with
        ⟨⟨r, hEq⟩, _⟩ | ⟨r, nonce, _, hEq, _⟩ | ⟨room, nonce, ekC, hAdmits, hEq⟩
      · rw [hEq] at h
        exact .inl ⟨e, h, continues_refl e⟩
      · obtain ⟨ring, hReplay⟩ := replayCheck_frame s f.sender nonce
        rw [hEq, hReplay] at h
        exact .inl ⟨e, h, continues_refl e⟩
      · rw [hEq] at h
        dsimp only at h
        rw [afterAuth_sessions, register_getElem?] at h
        split at h
        · cases h
          exact .inr ⟨f, src, d, ab, room, nonce, ekC, rfl, hFree, hCarries, hAdmits, rfl⟩
        · exact .inl ⟨e, afterCaps_sub h, continues_refl e⟩
    · rcases hBypass.change with ⟨r, members, invites, hEq⟩ | ⟨_, hEq⟩
      · rw [hEq] at h
        exact .inl ⟨e, h, continues_refl e⟩
      · rw [hEq] at h
        exact .inl ⟨e, h, continues_refl e⟩
  | relay srcKey now =>
    obtain ⟨r, hEq⟩ := relayRefresh_frame s srcKey now
    have h : (s.relayRefresh srcKey now).sessions[k]? = some e := h
    rw [hEq] at h
    exact .inl ⟨e, h, continues_refl e⟩
  | revoke deviceId reason now =>
    have h : (s.revokeDevice env deviceId reason now).1.sessions[k]? = some e := h
    cases hResult : (s.revokeDevice env deviceId reason now).2 with
    | error msg =>
      obtain ⟨mesh, hEq⟩ := revokeDevice_error hResult
      rw [hEq] at h
      exact .inl ⟨e, h, continues_refl e⟩
    | ok version =>
      obtain ⟨mesh, hEq⟩ := revokeDevice_ok hResult
      rw [hEq] at h
      exact .inl ⟨e, (of_getElem?_eraseAll h).2, continues_refl e⟩
  | cleanup now =>
    have h : (s.cleanupPass env now).sessions[k]? = some e := h
    rcases cleanupPass_cases env s now with ⟨r, rates, hEq⟩ | ⟨r, rates, hEq⟩
    · rw [hEq] at h
      exact .inl ⟨e, h, continues_refl e⟩
    · rw [hEq] at h
      exact .inl ⟨e, (of_getElem?_eraseAll h).2, continues_refl e⟩
  | delPeer key => exact .inl ⟨e, h, continues_refl e⟩
  | administer rooms aliases => exact .inl ⟨e, h, continues_refl e⟩

-- ---------------------------------------------------------------------------
-- Dispatch of AUTH
-- ---------------------------------------------------------------------------

/-- An accepted AUTH does not choose the key as its ephemeral key. -/
def LeavesUnclaimed (env : SignalingEnv Ct) (ik : RawKey) (s : Signaling) : ServerEvent Ct → Prop
  | .datagram f src d =>
    f.sender ∉ s.sessions → ∀ ab room nonce ekC, CarriesAuth env f ab →
      Admits env s f.sender ab src d.auth room nonce ekC → ekC ≠ ik
  | _ => True

/-- A session appears under a free key exactly when an AUTH chooses the key. -/
theorem unclaimed_next_iff {ik : RawKey} {e : ServerEvent Ct} (h : ik ∉ s.sessions) :
    ik ∉ (s.next env e).sessions ↔ LeavesUnclaimed env ik s e := by
  constructor
  · intro hFree
    cases e with
    | datagram f src d =>
      intro hSender ab room nonce ekC hCarries hAdmits hChosen
      refine hFree (mem_iff.mpr ⟨authEntry env f.sender ab d.auth room nonce ekC, ?_⟩)
      show (s.handleSignaling env f src d).1.sessions[ik]? = _
      rw [handleSignaling_auth src d hCarries hSender, handleAuth_sessions hAdmits]
      exact register_self hChosen
    | _ => trivial
  · intro hLeaves hClaimed
    rcases next_cases env s e with
      hQuiet | ⟨f, src, d, ab, rfl, hSender, hCarries,
        ⟨r, nonce, _, hEq⟩ | ⟨room, nonce, ekC, hAdmits, hEq⟩⟩
    · exact h (hQuiet.keys ik hClaimed)
    · obtain ⟨ring, hReplay⟩ := replayCheck_frame s f.sender nonce
      rw [hEq, hReplay] at hClaimed
      exact h hClaimed
    · rw [hEq, afterAuth_sessions] at hClaimed
      obtain ⟨e', hEntry⟩ := mem_iff.mp hClaimed
      rw [register_getElem?] at hEntry
      split at hEntry
      · rename_i hKey
        exact hLeaves hSender ab room nonce ekC hCarries hAdmits hKey.symm
      · exact h (mem_iff.mpr ⟨e', afterCaps_sub hEntry⟩)

/-- **Dispatch of AUTH.** In every state of a run a fresh valid AUTH of a device
reaches `handle_auth` and is accepted if and only if no session is stored under
the identity key of the device; and along a run none is if and only if no
accepted AUTH chooses that key as its ephemeral key. -/
theorem auth_dispatch_iff (env : SignalingEnv Ct) (mesh : MeshConfig) (rooms : List RoomEntry)
    (aliases : ExtTreeMap String String) (ik : RawKey) (es : List (ServerEvent Ct)) :
    (∀ pre, pre <+: es → ∀ f src d ab room nonce ekC, f.sender = ik → CarriesAuth env f ab →
      Admits env ((machine env).run (start mesh rooms aliases) pre) ik ab src d.auth room nonce ekC →
        ((∃ entry resp, (((machine env).run (start mesh rooms aliases) pre).handleSignaling env f src
            d).2 = .auth (.accepted entry resp)) ↔
          ik ∉ ((machine env).run (start mesh rooms aliases) pre).sessions)) ∧
    ((∀ pre, pre <+: es → ik ∉ ((machine env).run (start mesh rooms aliases) pre).sessions) ↔
      ∀ pre e, pre ++ [e] <+: es →
        LeavesUnclaimed env ik ((machine env).run (start mesh rooms aliases) pre) e) := by
  constructor
  · intro pre _ f src d ab room nonce ekC hSender hCarries hAdmits
    subst hSender
    constructor
    · rintro ⟨entry, resp, hAccepted⟩
      exact (accepts_iff.mp hAccepted).1
    · intro hFree
      exact ⟨_, _, accepts_iff.mpr ⟨hFree, ab, room, nonce, ekC, hCarries, hAdmits, rfl, rfl⟩⟩
  · refine Machine.along_run_iff (M := machine env) (P := fun s => ik ∉ s.sessions) ?_
      (fun _ _ h => unclaimed_next_iff h) es
    exact ExtTreeMap.not_mem_empty

-- ---------------------------------------------------------------------------
-- What an event stores in the route table
-- ---------------------------------------------------------------------------

/-- The entries that REGISTER, HEARTBEAT and relayed packets may store satisfy
`P`. -/
structure StoresOnly (env : SignalingEnv Ct) (s : Signaling) (P : RouteEntry → Prop) : Prop where
  register : ∀ (sender : RawKey) e, s.sessions[sender]? = some e → ∀ msgType plaintext relayRk aliasName,
    planRequest env e.view msgType plaintext = .register relayRk aliasName → ∀ src now,
      P (registerEntry env e.view src now relayRk aliasName)
  heartbeat : ∀ (sender : RawKey) e, s.sessions[sender]? = some e → ∀ old, s.routes.get e.ikX = some old →
    ∀ src now, P (heartbeatEntry env e.view src now old)
  relay : ∀ srcKey old, s.routes.get srcKey = some old →
    ∀ now, P { old with publicKey := srcKey, lastSeen := now }

section

variable {P : RouteEntry → Prop}

theorem all_handleSession {f : SignalFrame Ct} {src : SourceAddr} {d : RequestDraw}
    (h : s.routes.All P) (hStores : StoresOnly env s P) :
    (s.handleSession env f src d).1.routes.All P := by
  rcases handleSession_cases env s f src d with hSame | ⟨e, plaintext, hEntry, hOpen⟩
  · rw [hSame]
    exact h
  · rw [handleSession_opened hEntry hOpen]
    have hRoutes : (s.commitCounter f.sender e.view.nextSeq d.now).routes = s.routes :=
      commitCounter_routes
    dsimp only
    cases hPlan : planRequest env e.view f.msgType plaintext with
    | register relayRk aliasName =>
      show RouteTable.All P (RouteTable.upsert _ _)
      rw [hRoutes]
      exact h.upsert (hStores.register f.sender e hEntry _ _ _ _ hPlan src d.routeNow)
    | heartbeat =>
      show (heartbeatRoute env _ e.view src d.routeNow).routes.All P
      unfold heartbeatRoute
      split
      · rename_i old hOld
        show RouteTable.All P (RouteTable.upsert _ _)
        rw [hRoutes] at hOld ⊢
        exact h.upsert (hStores.heartbeat f.sender e hEntry old hOld src d.routeNow)
      · rw [hRoutes]
        exact h
    | bye =>
      show RouteTable.All P (RouteTable.remove _ _)
      rw [hRoutes]
      exact h.remove
    | fail | refuse | query | unsupported =>
      show RouteTable.All P (s.commitCounter f.sender e.view.nextSeq d.now).routes
      rw [hRoutes]
      exact h

theorem all_handleAuth {sender : RawKey} {ab : AuthBody} {src : SourceAddr} {d : AuthDraw}
    (h : s.routes.All P) : (s.handleAuth env sender ab src d).1.routes.All P := by
  rcases handleAuth_cases env s sender ab src d with
    ⟨⟨r, hEq⟩, _⟩ | ⟨r, nonce, _, hEq, _⟩ | ⟨room, nonce, ekC, _, hEq⟩
  · rw [hEq]
    exact h
  · obtain ⟨ring, hReplay⟩ := replayCheck_frame s sender nonce
    rw [hEq, hReplay]
    exact h
  · rw [hEq]
    show (s.afterAuth env sender src d nonce _).routes.All P
    rw [afterAuth_routes]
    exact h

theorem all_dropSession {k : RawKey} (h : s.routes.All P) : (s.dropSession k).routes.All P := by
  unfold dropSession
  split
  · exact h.remove
  · exact h

theorem all_cleanupPass (h : s.routes.All P) : (s.cleanupPass env now).routes.All P := by
  have hFold : ∀ (ks : List RawKey) (s : Signaling), s.routes.All P →
      (ks.foldl dropSession s).routes.All P := by
    intro ks
    induction ks with
    | nil => exact fun _ h => h
    | cons k ks ih => exact fun s h => ih _ (all_dropSession h)
  have hStart : ((s.cleanupRoutes env now).pruneRateLimits now).routes.All P := h.foldl_remove _
  unfold cleanupPass
  dsimp only
  split
  · exact hFold _ _ hStart
  · exact hFold _ _ hStart

/-- What holds of every entry holds of every entry after an event, if it holds
of those that the event may store. -/
theorem all_next {e : ServerEvent Ct} (h : s.routes.All P) (hStores : StoresOnly env s P) :
    (s.next env e).routes.All P := by
  cases e with
  | datagram f src d =>
    show (s.handleSignaling env f src d).1.routes.All P
    rcases handleSignaling_cases env s f src d with ⟨hSession, hKind⟩ | ⟨hFree, ab, hCarries⟩ | hBypass
    · rw [handleSignaling_session d hKind hSession]
      exact all_handleSession h hStores
    · rw [handleSignaling_auth src d hCarries hFree]
      exact all_handleAuth h
    · rcases hBypass.change with ⟨r, members, invites, hEq⟩ | ⟨_, hEq⟩
      · rw [hEq]
        exact h
      · rw [hEq]
        exact h.remove
  | relay srcKey now =>
    show (s.relayRefresh srcKey now).routes.All P
    unfold relayRefresh refreshRoute
    split
    · split
      · rename_i old hOld
        exact h.upsert (hStores.relay srcKey old hOld now)
      · exact h
    · exact h
  | revoke deviceId reason now =>
    show (s.revokeDevice env deviceId reason now).1.routes.All P
    cases hResult : (s.revokeDevice env deviceId reason now).2 with
    | error e =>
      obtain ⟨mesh, hEq⟩ := revokeDevice_error hResult
      rw [hEq]
      exact h
    | ok version =>
      obtain ⟨mesh, hEq⟩ := revokeDevice_ok hResult
      rw [hEq]
      exact h.foldl_remove _
  | cleanup now => exact all_cleanupPass h
  | delPeer key => exact h.remove
  | administer rooms aliases => exact h

end

-- ---------------------------------------------------------------------------
-- Relay keys in the route table
-- ---------------------------------------------------------------------------

/-- The relay key of a route, if any, is canonical base64 of 32 bytes. -/
def CanonicalRk (e : RouteEntry) : Prop := ∀ rk, e.relayRk = some rk → IsB64Text 32 rk

/-- Every stored relay key is canonical, in every state of every run. -/
theorem canonical_next {e : ServerEvent Ct} (h : s.routes.All CanonicalRk) :
    (s.next env e).routes.All CanonicalRk := by
  refine all_next h ⟨?_, ?_, ?_⟩
  · intro sender entry _ msgType plaintext relayRk aliasName hPlan src now rk hRk
    obtain ⟨_, rb, hBody, hSame, _⟩ := planRequest_register hPlan
    exact decodeRegister_relayRk hBody (hSame.trans hRk)
  · exact fun _ entry _ old hOld _ _ => h entry.ikX old hOld
  · exact fun srcKey old hOld _ => h srcKey old hOld

theorem canonical_reach {G : Signaling → ServerEvent Ct → Prop} (h : (machine env).Reach G s) :
    s.routes.All CanonicalRk := by
  refine h.invariant (I := fun s => s.routes.All CanonicalRk) (fun s hInit => ?_)
    fun s e hInv _ _ => canonical_next hInv
  obtain ⟨mesh, rooms, aliases, rfl⟩ := hInit
  intro k e hEntry
  rw [start, ExtTreeMap.getElem?_empty] at hEntry
  cases hEntry

-- ---------------------------------------------------------------------------
-- Sample datagrams
-- ---------------------------------------------------------------------------

end Signaling

theorem sampleCrypto_lawful : sampleCrypto.Lawful where
  dh_comm a b := Nat.mul_comm a b
  nonceOf_encrypt _ _ _ := rfl
  decrypt_encrypt _ _ _ _ := rfl

theorem sampleDeviceId_isB64Text {i : RawKey} (hDevice : i = 2 ∨ i = 3) :
    IsB64Text 32 (sampleDeviceId i) := by
  rcases hDevice with rfl | rfl
  · exact ⟨List.replicate 31 0 ++ [2], rfl, by decide +kernel⟩
  · exact ⟨List.replicate 31 0 ++ [3], rfl, by decide +kernel⟩

theorem sampleCert_canonical {i : RawKey} (hDevice : i = 2 ∨ i = 3) : (sampleCert i).Canonical where
  version := by
    show (1 : Nat) < 256 ^ 4
    decide
  deviceId := sampleDeviceId_isB64Text hDevice
  ikX := isB64Text_keyB64 (keyBytes_length i)
  ikSPub := isB64Text_keyB64 (keyBytes_length i)
  validFrom := by
    show (0 : Nat) < 256 ^ 8
    decide
  notAfter := by
    show (1000000 : Nat) < 256 ^ 8
    decide
  signature := by
    intro s hSig
    cases hSig
    exact isB64Text_keyB64 List.length_replicate

/-- The sealed AUTH of device `i`. -/
def sampleAuthFrame (i ekC : RawKey) (timestamp n : Nat) : SignalFrame (RawKey × Nonce × Bytes) :=
  { msgType := msgAuth
    sender := i
    payload := sampleCrypto.encryptWithNonce (sampleCrypto.sharedSecret 7 i) (0, 0)
      (((encodeAuth (sampleAuth i ekC timestamp n)).toOption).getD []) }

theorem sampleAuth_encodes {i : RawKey} (ekC : RawKey) (timestamp n : Nat) (hDevice : i = 2 ∨ i = 3) :
    ∃ bytes, encodeAuth (sampleAuth i ekC timestamp n) = .ok bytes := by
  obtain ⟨id, hIdLength, hId⟩ := sampleDeviceId_isB64Text hDevice
  have hIp : ∃ buf, wireStrSet ipLen (sampleCert i).allowedIp = .ok buf := by
    rcases hDevice with rfl | rfl
    · exact ⟨utf8 "10.13.13.2" ++ List.replicate 38 0, by decide +kernel⟩
    · exact ⟨utf8 "10.13.13.3" ++ List.replicate 38 0, by decide +kernel⟩
  obtain ⟨ip, hIp⟩ := hIp
  have hDeviceId : b64Key (sampleDeviceId i) = .ok id := by
    rw [hId]
    exact b64Key_keyB64 hIdLength
  have hIk : b64Key (sampleKeyText i) = .ok (keyBytes i) := b64Key_keyB64 (keyBytes_length i)
  have hCert : ∃ cert, deviceCertFromDomain (sampleCert i) = .ok cert := by
    have hMesh : wireStrSet nameLen (sampleCert i).meshId =
        .ok (utf8 "mesh" ++ List.replicate 60 0) := by
      show wireStrSet nameLen "mesh" = _
      decide +kernel
    have hSig : putOptB64 64 b64Sig (sampleCert i).signature = .ok [[1], List.replicate 64 0] :=
      bind_eq_ok.mpr ⟨_, b64Sig_keyB64 List.length_replicate, rfl⟩
    refine exists_bind_ok hMesh (exists_bind_ok hDeviceId (exists_bind_ok hIk ?_))
    exact exists_bind_ok hIk (exists_bind_ok hIp (exists_bind_ok hSig ⟨_, rfl⟩))
  obtain ⟨cert, hCert⟩ := hCert
  have hEkC : b64Key (sampleAuth i ekC timestamp n).ekC = .ok (keyBytes ekC) :=
    b64Key_keyB64 (keyBytes_length ekC)
  have hNonce : b64Nonce (sampleAuth i ekC timestamp n).nonce = .ok (beBytes 12 n) :=
    b64Fixed_keyB64 (beBytes_length 12 n)
  refine exists_bind_ok hDeviceId (exists_bind_ok hCert (exists_bind_ok hEkC ?_))
  exact exists_bind_ok hNonce (exists_bind_ok rfl ⟨_, rfl⟩)

theorem sampleAuthFrame_carries {i : RawKey} {timestamp : Nat} (ekC : RawKey) (n : Nat)
    (hDevice : i = 2 ∨ i = 3) (hTime : timestamp < 256 ^ 8) :
    Signaling.CarriesAuth sampleServerEnv (sampleAuthFrame i ekC timestamp n)
      (sampleAuth i ekC timestamp n) := by
  obtain ⟨bytes, hBytes⟩ := sampleAuth_encodes ekC timestamp n hDevice
  refine ⟨rfl, bytes, ?_, ?_⟩
  · show sampleCrypto.decrypt _ (sampleCrypto.encryptWithNonce _ _ _) = _
    rw [hBytes]
    exact sampleCrypto_lawful.decrypt_encrypt' _ _ _
  · exact decodeAuth_encodeAuth (sampleCert_canonical hDevice) (sampleDeviceId_isB64Text hDevice)
      (isB64Text_keyB64 (keyBytes_length ekC)) hTime
      (isB64Text_keyB64 (beBytes_length 12 n)) hBytes

/-- The clock at `now`, and the ephemeral secret `ekS`. -/
def sampleSignalDraw (now : Nat) (ekS : RawKey) : SignalDraw :=
  { auth := sampleAuthDraw now ekS
    request := { now := now, routeNow := now, random := (0, 1) }
    join := { rateNow := now, peekNow := now, issueNow := now, consumeNow := now } }

/-- The AUTH of device `i` arrives. -/
def sampleAuthEvent (i ekC ekS : RawKey) (timestamp n now : Nat) :
    ServerEvent (RawKey × Nonce × Bytes) :=
  .datagram (sampleAuthFrame i ekC timestamp n) sampleSrc (sampleSignalDraw now ekS)

namespace Signaling

section

variable {s : Signaling} {i ekC ekS : RawKey} {timestamp n now : Nat}

theorem handle_sampleAuthFrame (hDevice : i = 2 ∨ i = 3) (hTime : timestamp < 256 ^ 8)
    (hFree : i ∉ s.sessions)
    (h : Admits sampleServerEnv s i (sampleAuth i ekC timestamp n) sampleSrc (sampleAuthDraw now ekS)
      "default" (beBytes 12 n) ekC) :
    ∃ resp, s.handleSignaling sampleServerEnv (sampleAuthFrame i ekC timestamp n) sampleSrc
        (sampleSignalDraw now ekS) =
      (sampleAdd s i ekC ekS timestamp n now,
        .auth (.accepted (sampleEntry i ekC ekS timestamp n now) resp)) := by
  obtain ⟨resp, hAuth⟩ := sampleAdd_of_admits h
  refine ⟨resp, ?_⟩
  have hCarries := sampleAuthFrame_carries ekC n hDevice hTime
  refine (handleSignaling_auth sampleSrc (sampleSignalDraw now ekS) hCarries hFree).trans ?_
  exact congrArg (fun r : Signaling × AuthOutcome => (r.1, SignalOutcome.auth r.2)) hAuth

theorem next_sampleAuthEvent (hDevice : i = 2 ∨ i = 3) (hTime : timestamp < 256 ^ 8)
    (hFree : i ∉ s.sessions)
    (h : Admits sampleServerEnv s i (sampleAuth i ekC timestamp n) sampleSrc (sampleAuthDraw now ekS)
      "default" (beBytes 12 n) ekC) :
    s.next sampleServerEnv (sampleAuthEvent i ekC ekS timestamp n now) =
      sampleAdd s i ekC ekS timestamp n now := by
  obtain ⟨resp, hHandle⟩ := handle_sampleAuthFrame hDevice hTime hFree h
  exact congrArg Prod.fst hHandle

end

theorem next_sampleOneSession :
    (start sampleMesh [] ∅).next sampleServerEnv (sampleAuthEvent 2 50 11 0 1 0) =
      sampleOneSession := by
  have hAdmits : Admits sampleServerEnv (start sampleMesh [] ∅) 2 (sampleAuth 2 50 0 1) sampleSrc
      (sampleAuthDraw 0 11) "default" (beBytes 12 1) 50 :=
    sampleAuth_admits rfl rfl (.inl rfl) (by decide) (Nat.zero_le _) (by decide +kernel) (by decide)
  exact next_sampleAuthEvent (.inl rfl) (by decide) ExtTreeMap.not_mem_empty hAdmits

theorem reach_sampleOneSession :
    (machine sampleServerEnv).Reach (fun _ _ => True) sampleOneSession := by
  have hStart : (machine sampleServerEnv).Reach (fun _ _ => True) (start sampleMesh [] ∅) :=
    .init ⟨sampleMesh, [], ∅, rfl⟩
  have hNext := hStart.step (e := sampleAuthEvent 2 50 11 0 1 0) trivial trivial
  rw [machine_next, next_sampleOneSession] at hNext
  exact hNext

/-- Device 3 chooses the key of device 2's only session. -/
theorem active_exact_fails :
    ¬ ∀ pre, pre <+: [sampleAuthEvent 2 50 11 0 1 0, sampleAuthEvent 3 50 12 0 1 0] →
      ((machine sampleServerEnv).run (start sampleMesh [] ∅) pre).Mirrors := by
  intro hAll
  have hMirrors := hAll _ (List.prefix_refl _)
  have hSecond : sampleOneSession.next sampleServerEnv (sampleAuthEvent 3 50 12 0 1 0) =
      sampleAdd sampleOneSession 3 50 12 0 1 0 := by
    refine next_sampleAuthEvent (.inr rfl) (by decide) ?_ (sampleOneSession_admits (by decide))
    intro hMem
    obtain ⟨e, hEntry⟩ := mem_iff.mp hMem
    rw [sampleOneSession_entry] at hEntry
    cases hEntry
  have hRun : (machine sampleServerEnv).run (start sampleMesh [] ∅)
      [sampleAuthEvent 2 50 11 0 1 0, sampleAuthEvent 3 50 12 0 1 0] =
      sampleAdd sampleOneSession 3 50 12 0 1 0 := by
    rw [Machine.run_cons, Machine.run_cons, Machine.run_nil, machine_next, machine_next,
      next_sampleOneSession, hSecond]
  rw [hRun] at hMirrors
  have hLive : (2 : RawKey) ∈ (sampleAdd sampleOneSession 3 50 12 0 1 0).activeIkX := by
    rw [sampleAdd_activeIkX, sampleOneSession, sampleAdd_activeIkX, sampleAdd_sessions]
    decide +kernel
  obtain ⟨k, e, hEntry, hIk⟩ := (hMirrors 2).mp hLive
  rw [sampleAdd_sessions, register_getElem?] at hEntry
  split at hEntry
  · cases hEntry
    exact absurd hIk (by decide : (3 : RawKey) ≠ 2)
  · rename_i hKey
    have hOld := afterCaps_sub hEntry
    rw [sampleOneSession_entry] at hOld
    split at hOld
    · rename_i hFifty
      exact hKey hFifty
    · cases hOld

/-- Device 3 chooses the identity key of device 2 as its ephemeral key; the next
AUTH of device 2 is taken for a session frame. -/
theorem auth_dispatch_fails :
    ∃ (f : SignalFrame (RawKey × Nonce × Bytes)) (d : SignalDraw), f.sender = 2 ∧
      CarriesAuth sampleServerEnv f (sampleAuth 2 50 0 1) ∧
      Admits sampleServerEnv
        ((machine sampleServerEnv).run (start sampleMesh [] ∅) [sampleAuthEvent 3 2 12 0 1 0])
        2 (sampleAuth 2 50 0 1) sampleSrc d.auth "default" (beBytes 12 1) 50 ∧
      ∀ entry resp,
        (((machine sampleServerEnv).run (start sampleMesh [] ∅)
          [sampleAuthEvent 3 2 12 0 1 0]).handleSignaling sampleServerEnv f sampleSrc d).2 ≠
        .auth (.accepted entry resp) := by
  have hRun : (machine sampleServerEnv).run (start sampleMesh [] ∅) [sampleAuthEvent 3 2 12 0 1 0] =
      sampleAdd (start sampleMesh [] ∅) 3 2 12 0 1 0 := by
    rw [Machine.run_cons, Machine.run_nil, machine_next]
    exact next_sampleAuthEvent (.inr rfl) (by decide) ExtTreeMap.not_mem_empty
      (sampleAuth_admits rfl rfl (.inr rfl) (by decide) (Nat.zero_le _)
        (by decide +kernel) (by decide))
  refine ⟨sampleAuthFrame 2 50 0 1, sampleSignalDraw 0 11, rfl,
    sampleAuthFrame_carries 50 1 (.inl rfl) (by decide), ?_, ?_⟩
  · rw [hRun]
    refine sampleAuth_admits sampleAdd_mesh sampleAdd_rooms (.inl rfl) (by decide) (Nat.zero_le _) ?_
      (by decide)
    rw [sampleAdd_replay]
    decide +kernel
  · intro entry resp hAccepted
    refine (accepts_iff.mp hAccepted).1 (mem_iff.mpr ⟨sampleEntry 3 2 12 0 1 0, ?_⟩)
    rw [hRun, sampleAdd_sessions]
    exact register_self rfl

end Signaling

end LinkMesh
