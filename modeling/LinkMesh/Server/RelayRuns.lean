import LinkMesh.Server.Query
import LinkMesh.Server.Relay

/-!
# Relaying over whole runs

Who may relay (`relay_forward` in `linkmesh-server/src/signaling.rs`) goes back
to who has authenticated, through the sessions, the live identities, the routes
and whatever the workers hold between two sections.

## Results

* `attested_next` — whoever is in the tables has authenticated in the room that
  the tables say.
-/

namespace LinkMesh

open Std KeyMap

variable {Ct : Type}

-- ---------------------------------------------------------------------------
-- What a section does to the live identities
-- ---------------------------------------------------------------------------

namespace Signaling

variable {env : SignalingEnv Ct} {s s' : Signaling}

/-- A live identity was one before, or has a session now. -/
def ActiveFrom (s s' : Signaling) : Prop :=
  ∀ k ∈ s'.activeIkX, k ∈ s.activeIkX ∨ HasSession s'.sessions k

theorem activeFrom_of_eq (h : s'.activeIkX = s.activeIkX) : ActiveFrom s s' := by
  intro k hk
  rw [h] at hk
  exact .inl hk

theorem refreshRoute_frame (s : Signaling) (srcKey : RawKey) (now : Nat) :
    ∃ routes, s.refreshRoute srcKey now = { s with routes := routes } := by
  unfold refreshRoute
  split
  · exact ⟨_, rfl⟩
  · exact ⟨s.routes, rfl⟩

theorem activeFrom_rebuild (s₀ s : Signaling) : ActiveFrom s₀ s.rebuildActiveIkX := by
  intro k hk
  exact .inr ((activeExact_rebuild k).mp hk)

theorem activeFrom_handleSignaling (env : SignalingEnv Ct) (f : SignalFrame Ct) (src : SourceAddr)
    (d : SignalDraw) (h : ¬ (f.msgType ≠ msgKeyquery ∧ f.sender ∈ s.sessions)) :
    ActiveFrom s (s.handleSignaling env f src d).1 := by
  rcases handleSignaling_cases env s f src d with ⟨hSession, hKind⟩ | ⟨hFree, ab, hCarries⟩ | hBypass
  · exact absurd ⟨hKind, hSession⟩ h
  · rw [handleSignaling_auth src d hCarries hFree]
    rcases handleAuth_cases env s f.sender ab src d.auth with
      ⟨⟨r, hEq⟩, _⟩ | ⟨r, nonce, _, hEq, _⟩ | ⟨room, nonce, ekC, hAdmits, hEq⟩
    · rw [hEq]
      exact activeFrom_of_eq rfl
    · obtain ⟨ring, hReplay⟩ := replayCheck_frame s f.sender nonce
      rw [hEq, hReplay]
      exact activeFrom_of_eq rfl
    · rw [hEq]
      intro k hk
      change k ∈ (s.afterAuth env f.sender src d.auth nonce _).activeIkX at hk
      change _ ∨ HasSession (s.afterAuth env f.sender src d.auth nonce _).sessions k
      rw [afterAuth_activeIkX] at hk
      rw [afterAuth_sessions]
      unfold updateActive at hk
      rw [mem_foldl_leave, ExtTreeSet.mem_insert, LawfulEqCmp.compare_eq_iff_eq] at hk
      rcases hk.1 with hOwn | hOld
      · exact .inr (hasSession_register.mpr (.inl hOwn))
      · exact .inl hOld
  · rcases hBypass.change with ⟨r, members, invites, hEq⟩ | ⟨hBye, hEq⟩
    · rw [hEq]
      exact activeFrom_of_eq rfl
    · rw [hEq]
      exact activeFrom_of_eq rfl

/-- Who has just authenticated is live. -/
theorem afterAuth_live (env : SignalingEnv Ct) (s : Signaling) (sender : RawKey) (src : SourceAddr)
    (d : AuthDraw) (nonce : Bytes) (entry : SessionEntry) :
    entry.ikX ∈ (s.afterAuth env sender src d nonce entry).activeIkX := by
  rw [afterAuth_activeIkX]
  unfold updateActive
  rw [mem_foldl_leave, ExtTreeSet.mem_insert, LawfulEqCmp.compare_eq_iff_eq]
  exact ⟨.inl rfl, fun _ => hasSession_register.mpr (.inl rfl)⟩

end Signaling

namespace Workers

variable {env : SignalingEnv Ct} {n : Nat} {s : Workers Ct} {ev : WorkerEvent Ct}

theorem next_active (env : SignalingEnv Ct) (n : Nat) (s : Workers Ct) (ev : WorkerEvent Ct) :
    Signaling.ActiveFrom s.srv (s.next env n ev).srv := by
  cases ev with
  | receive f src d =>
    unfold next
    dsimp only
    split
    · exact Signaling.activeFrom_of_eq rfl
    · rename_i hHandshake
      exact Signaling.activeFrom_handleSignaling env f src d hHandshake
  | relay srcKey src =>
    obtain ⟨tasks, hEq⟩ := next_relay_frame env n s srcKey src
    rw [hEq]
    exact Signaling.activeFrom_of_eq rfl
  | work w random =>
    show Signaling.ActiveFrom s.srv ((s.tasks w).step env s.srv s.clock).1
    match s.tasks w with
    | .left v => exact Signaling.activeFrom_rebuild s.srv s.srv
    | .opened f src v plaintext =>
      obtain ⟨m, hEq⟩ := Signaling.commitCounter_frame s.srv f.sender v.nextSeq s.clock
      show Signaling.ActiveFrom s.srv (s.srv.commitCounter f.sender v.nextSeq s.clock)
      rw [hEq]
      exact Signaling.activeFrom_of_eq rfl
    | .dispatched f src =>
      rw [Task.step_dispatched]
      exact Signaling.activeFrom_of_eq rfl
    | .relaying srcKey =>
      obtain ⟨routes, hEq⟩ := Signaling.refreshRoute_frame s.srv srcKey s.clock
      show Signaling.ActiveFrom s.srv (s.srv.refreshRoute srcKey s.clock)
      rw [hEq]
      exact Signaling.activeFrom_of_eq rfl
    | .committed sender src v .bye => exact Signaling.activeFrom_of_eq rfl
    | .committed sender src v (.query qb) => exact Signaling.activeFrom_of_eq rfl
    | .committed sender src v .heartbeat =>
      refine Signaling.activeFrom_of_eq ?_
      show (s.srv.heartbeatRoute env v src s.clock).activeIkX = _
      unfold Signaling.heartbeatRoute
      split
      · rfl
      · rfl
    | .committed sender src v (.register relayRk aliasName) => exact Signaling.activeFrom_of_eq rfl
    | .committed sender src v (.fail msg) => exact Signaling.activeFrom_of_eq rfl
    | .committed sender src v (.refuse msg) => exact Signaling.activeFrom_of_eq rfl
    | .committed sender src v .unsupported => exact Signaling.activeFrom_of_eq rfl
    | .idle => exact Signaling.activeFrom_of_eq rfl
    | .unrouted sender v => exact Signaling.activeFrom_of_eq rfl
    | .searching v qb name => exact Signaling.activeFrom_of_eq rfl
    | .resolved v qb ip => exact Signaling.activeFrom_of_eq rfl
    | .answering v answer => exact Signaling.activeFrom_of_eq rfl
  | proceed c =>
    show Signaling.ActiveFrom s.srv ((s.control c).step s.srv).1
    match s.control c with
    | .kicked deviceId keys => exact Signaling.activeFrom_rebuild s.srv s.srv
    | .idle => exact Signaling.activeFrom_of_eq rfl
    | .listed deviceId => exact Signaling.activeFrom_of_eq rfl
    | .clearing deviceId (key :: keys) => exact Signaling.activeFrom_of_eq rfl
    | .clearing deviceId [] => exact Signaling.activeFrom_of_eq rfl
  | clean =>
    show Signaling.ActiveFrom s.srv (s.cleaner.step env s.srv s.clock).1
    match s.cleaner with
    | .sweeping now [] => exact Signaling.activeFrom_rebuild s.srv s.srv
    | .sweeping now (key :: keys) =>
      unfold Cleaner.step
      dsimp only
      split
      · exact Signaling.activeFrom_of_eq rfl
      · exact Signaling.activeFrom_of_eq rfl
    | .idle => exact Signaling.activeFrom_of_eq rfl
    | .started now => exact Signaling.activeFrom_of_eq rfl
    | .routesCleaned now => exact Signaling.activeFrom_of_eq rfl
    | .pruned now => exact Signaling.activeFrom_of_eq rfl
    | .unseating now ikX keys => exact Signaling.activeFrom_of_eq rfl
  | tick => exact Signaling.activeFrom_of_eq rfl
  | revoke => exact Signaling.activeFrom_of_eq rfl
  | delPeer => exact Signaling.activeFrom_of_eq rfl
  | administer => exact Signaling.activeFrom_of_eq rfl

-- ---------------------------------------------------------------------------
-- What a section does to the routes
-- ---------------------------------------------------------------------------

end Workers

/-- The session that a worker holds on to. -/
def Task.view : Task Ct → Option SessionView
  | .opened _ _ v _ => some v
  | .committed _ _ v _ => some v
  | _ => none

/-- What becomes of the routes in a step. -/
inductive RouteChange (s : Workers Ct) (t : RouteTable) : Prop where
  | kept : t = s.srv.routes → RouteChange s t
  | removed (ks : List RawKey) : t = ks.foldl RouteTable.remove s.srv.routes → RouteChange s t
  /-- stored for a session, by REGISTER or HEARTBEAT -/
  | stored {w : Nat} {v : SessionView} {e : RouteEntry} : (s.tasks w).view = some v →
    e.publicKey = v.ikX → e.room = v.room → t = s.srv.routes.upsert e → RouteChange s t
  /-- stored again by a relayed packet -/
  | refreshed {k : RawKey} {e : RouteEntry} {now : Nat} : s.srv.routes.get k = some e →
    t = s.srv.routes.upsert { e with publicKey := k, lastSeen := now } → RouteChange s t

namespace Workers

variable {env : SignalingEnv Ct} {n : Nat} {s : Workers Ct} {ev : WorkerEvent Ct}

theorem routeChange_refreshRoute (s : Workers Ct) (srcKey : RawKey) (now : Nat) :
    RouteChange s (s.srv.refreshRoute srcKey now).routes := by
  unfold Signaling.refreshRoute
  split
  · rename_i e hOld
    exact .refreshed hOld rfl
  · exact .kept rfl

theorem routeChange_work (env : SignalingEnv Ct) (s : Workers Ct) (w : Nat) :
    RouteChange s ((s.tasks w).step env s.srv s.clock).1.routes := by
  match hTask : s.tasks w with
  | .opened f src v plaintext =>
    exact .kept (Signaling.commitCounter_routes (s := s.srv))
  | .dispatched f src =>
    rw [Task.step_dispatched]
    exact .kept rfl
  | .relaying srcKey => exact routeChange_refreshRoute s srcKey s.clock
  | .committed sender src v .bye => exact .removed [v.ikX] rfl
  | .committed sender src v (.register relayRk aliasName) =>
    exact .stored (w := w) (v := v) (by rw [hTask]; rfl) rfl rfl rfl
  | .committed sender src v .heartbeat =>
    show RouteChange s (s.srv.heartbeatRoute env v src s.clock).routes
    unfold Signaling.heartbeatRoute
    split
    · exact .stored (w := w) (v := v) (by rw [hTask]; rfl) rfl rfl rfl
    · exact .kept rfl
  | .committed sender src v (.query qb) => exact .kept rfl
  | .committed sender src v (.fail msg) => exact .kept rfl
  | .committed sender src v (.refuse msg) => exact .kept rfl
  | .committed sender src v .unsupported => exact .kept rfl
  | .left v => exact .kept rfl
  | .idle => exact .kept rfl
  | .unrouted sender v => exact .kept rfl
  | .searching v qb name => exact .kept rfl
  | .resolved v qb ip => exact .kept rfl
  | .answering v answer => exact .kept rfl

theorem next_routeChange (env : SignalingEnv Ct) (n : Nat) (s : Workers Ct) (ev : WorkerEvent Ct) :
    RouteChange s (s.next env n ev).srv.routes := by
  cases ev with
  | receive f src d =>
    unfold next
    dsimp only
    split
    · exact .kept rfl
    · rename_i hHandshake
      rcases (Signaling.handleSignaling_handshake env src d hHandshake).routes with hEq | ⟨_, _, hEq⟩
      · exact .kept hEq
      · exact .removed [f.sender] hEq
  | relay srcKey src =>
    obtain ⟨tasks, hEq⟩ := next_relay_frame env n s srcKey src
    rw [hEq]
    exact .kept rfl
  | work w random => exact routeChange_work env s w
  | proceed c =>
    show RouteChange s ((s.control c).step s.srv).1.routes
    match s.control c with
    | .clearing deviceId (key :: keys) => exact .removed [key] rfl
    | .clearing deviceId [] => exact .kept rfl
    | .idle => exact .kept rfl
    | .listed deviceId => exact .kept rfl
    | .kicked deviceId keys => exact .kept rfl
  | clean =>
    show RouteChange s (s.cleaner.step env s.srv s.clock).1.routes
    match s.cleaner with
    | .started now => exact .removed (s.srv.routes.expired now env.routeTtlSec) rfl
    | .unseating now ikX keys => exact .removed [ikX] rfl
    | .sweeping now (key :: keys) =>
      unfold Cleaner.step
      dsimp only
      split
      · exact .kept rfl
      · exact .kept rfl
    | .sweeping now [] => exact .kept rfl
    | .idle => exact .kept rfl
    | .routesCleaned now => exact .kept rfl
    | .pruned now => exact .kept rfl
  | delPeer key => exact .removed [key] rfl
  | tick => exact .kept rfl
  | revoke => exact .kept rfl
  | administer => exact .kept rfl

end Workers

theorem RouteChange.leads {s : Workers Ct} {t : RouteTable} (h : RouteChange s t) :
    s.srv.routes.Leads t := by
  cases h with
  | kept hEq => exact hEq ▸ .refl
  | removed ks hEq => exact hEq ▸ RouteTable.leads_foldl_remove _ _
  | stored _ _ _ hEq => exact hEq ▸ RouteTable.leads_upsert _ _
  | refreshed _ hEq => exact hEq ▸ RouteTable.leads_upsert _ _

/-- A worker holds a session that it held before, or has just read. -/
theorem Task.step_view {env : SignalingEnv Ct} {srv : Signaling} {now : Nat} {t : Task Ct} {v : SessionView}
    (h : (t.step env srv now).2.view = some v) :
    t.view = some v ∨ ∃ f src e, t = .dispatched f src ∧ srv.sessions[f.sender]? = some e ∧ v = e.view := by
  cases t with
  | dispatched f src =>
    rcases Task.dispatched_cases env srv now f src with hEq | ⟨e, plaintext, hEntry, _, hEq⟩
    · rw [hEq] at h
      cases h
    · rw [hEq] at h
      cases h
      exact .inr ⟨f, src, e, rfl, hEntry, rfl⟩
  | opened f src v' plaintext => exact .inl h
  | committed sender src v' plan =>
    cases plan with
    | query qb =>
      change (Task.lookup env srv v' qb : Task Ct).view = some v at h
      rcases Task.lookup_cases env srv v' qb with ⟨ip, hEq⟩ | ⟨name, hEq⟩
      · rw [hEq] at h
        cases h
      · rw [hEq] at h
        cases h
    | _ => cases h
  | _ => cases h

-- ---------------------------------------------------------------------------
-- Who has authenticated
-- ---------------------------------------------------------------------------

/-- Identities in the tables and in the hands of the workers have authenticated,
in the rooms that stand with them. -/
structure Attested (authenticated : List (RawKey × String)) (s : Workers Ct) : Prop where
  sessions : ∀ (k : RawKey) e, s.srv.sessions[k]? = some e → (e.ikX, e.room) ∈ authenticated
  active : ∀ k ∈ s.srv.activeIkX, ∃ room, (k, room) ∈ authenticated
  routes : s.srv.routes.All fun e => (e.publicKey, e.room) ∈ authenticated
  views : ∀ w v, (s.tasks w).view = some v → (v.ikX, v.room) ∈ authenticated
  table : RouteTable.tableMachine.Reach (fun _ _ => True) s.srv.routes

namespace Attested

variable {env : SignalingEnv Ct} {n : Nat} {s : Workers Ct} {ev : WorkerEvent Ct}
  {auth : List (RawKey × String)}

theorem start (clock : Nat) (mesh : MeshConfig) (rooms : List RoomEntry)
    (aliases : ExtTreeMap String String) :
    Attested [] (.start clock mesh rooms aliases : Workers Ct) where
  sessions k e hEntry := by
    rw [Workers.start, Signaling.start, ExtTreeMap.getElem?_empty] at hEntry
    cases hEntry
  active k hk := absurd hk ExtTreeSet.not_mem_empty
  routes k e hEntry := by
    rw [Workers.start, Signaling.start, ExtTreeMap.getElem?_empty] at hEntry
    cases hEntry
  views w v hView := nomatch hView
  table := .init rfl

/-- The routes after a step. -/
theorem all_of_routeChange {t : RouteTable} (h : Attested auth s) (hChange : RouteChange s t) :
    t.All fun e => (e.publicKey, e.room) ∈ auth := by
  cases hChange with
  | kept hEq => exact hEq ▸ h.routes
  | removed ks hEq =>
    rw [hEq]
    exact h.routes.foldl_remove _
  | stored hView hKey hRoom hEq =>
    rw [hEq]
    refine h.routes.upsert ?_
    rw [hKey, hRoom]
    exact h.views _ _ hView
  | @refreshed k e now hOld hEq =>
    have hEntry : (e.publicKey, e.room) ∈ auth := h.routes k e hOld
    have hKey : e.publicKey = k := RouteTable.keyed_reach h.table k e hOld
    rw [hKey] at hEntry
    rw [hEq]
    exact h.routes.upsert hEntry

/-- What a worker holds after a step. -/
theorem next_views (h : Attested auth s) {w : Nat} {v : SessionView}
    (hView : ((s.next env n ev).tasks w).view = some v) : (v.ikX, v.room) ∈ auth := by
  have hOrigin := Workers.next_tasks env n s ev w
  generalize (s.next env n ev).tasks w = t at hOrigin hView
  cases hOrigin with
  | kept => exact h.views w v hView
  | dispatched => cases hView
  | relaying => cases hView
  | stepped _ =>
    rcases Task.step_view hView with hKept | ⟨f, src, e, hTask, hEntry, rfl⟩
    · exact h.views w v hKept
    · exact h.sessions f.sender e hEntry

/-- Every step keeps it, with those noted who authenticate by it. -/
theorem next (h : Attested auth s) (env : SignalingEnv Ct) (n : Nat) (ev : WorkerEvent Ct) :
    Attested (auth ++ Relays.admits env s ev) (s.next env n ev) := by
  have hSessions : ∀ (k : RawKey) e, (s.next env n ev).srv.sessions[k]? = some e →
      (e.ikX, e.room) ∈ auth ++ Relays.admits env s ev := by
    intro k e hEntry
    cases Workers.next_sessions hEntry with
    | kept hOld => exact List.mem_append_left _ (h.sessions k e hOld)
    | committed _ _ _ hOld hNew =>
      have hRoom := h.sessions k _ hOld
      rw [hNew]
      exact List.mem_append_left _ hRoom
    | registered hEv hAccepted _ =>
      refine List.mem_append_right _ ?_
      rw [hEv]
      show _ ∈ (s.srv.handleSignaling env _ _ _).2.admitted
      rw [hAccepted]
      exact List.mem_singleton_self _
  refine ⟨hSessions, ?_, ?_, ?_, ?_⟩
  · intro k hk
    rcases Workers.next_active env n s ev k hk with hOld | ⟨key, e, hEntry, rfl⟩
    · obtain ⟨room, hRoom⟩ := h.active k hOld
      exact ⟨room, List.mem_append_left _ hRoom⟩
    · exact ⟨e.room, hSessions key e hEntry⟩
  · intro k e hEntry
    exact List.mem_append_left _ (h.all_of_routeChange (Workers.next_routeChange env n s ev) k e hEntry)
  · intro w v hView
    exact List.mem_append_left _ (h.next_views hView)
  · exact (Workers.next_routeChange env n s ev).leads.reach h.table

end Attested

-- ---------------------------------------------------------------------------
-- Refreshing a route
-- ---------------------------------------------------------------------------

/-- Only `last_seen` of the route of the source changes. -/
theorem Signaling.get_refreshRoute {s : Signaling}
    (hTable : RouteTable.tableMachine.Reach (fun _ _ => True) s.routes) (srcKey : RawKey) (now : Nat)
    (k : RawKey) :
    (s.refreshRoute srcKey now).routes.get k =
      (s.routes.get k).map fun e => if k = srcKey then { e with lastSeen := now } else e := by
  unfold refreshRoute
  cases hOld : s.routes.get srcKey with
  | none =>
    by_cases hKey : k = srcKey
    · rw [hKey, hOld]
      rfl
    · simp [hKey]
  | some e =>
    have hPublic : e.publicKey = srcKey := RouteTable.keyed_reach hTable srcKey e hOld
    -- nobody else has the IP of the route
    have hDisplaced : s.routes.displaced { e with publicKey := srcKey, lastSeen := now } = none := by
      have hIndexed := RouteTable.ipIndexed_reach hTable
      unfold RouteTable.displaced
      dsimp only
      split
      · rfl
      · rename_i hIp
        have hOwn := (hIndexed e.ip srcKey).mpr ⟨e, hOld, RouteTable.ipKey_eq_some.mpr ⟨rfl, hIp⟩⟩
        rw [hOwn]
        simp
    show (s.routes.upsert { e with publicKey := srcKey, lastSeen := now }).byKey[k]? = _
    rw [RouteTable.upsert_byKey, hDisplaced, getElem?_insert]
    dsimp only [eraseSome]
    split
    · rename_i hKey
      rw [hKey, hOld]
      subst hPublic
      simp
    · unfold RouteTable.get
      simp

-- ---------------------------------------------------------------------------
-- Packets under way
-- ---------------------------------------------------------------------------

/-- The identity that a packet claims has authenticated. -/
structure Claimed (authenticated : List (RawKey × String)) (f : RelayFrame) (identity : RawKey) : Prop where
  known : ∃ room, (identity, room) ∈ authenticated
  header : f.isRk = false → identity = f.srcKey

/-- A route that was found is the one of an identity that has authenticated in
its room. -/
def Located (authenticated : List (RawKey × String)) (f : RelayFrame) (key : RawKey)
    (entry : Option RouteEntry) : Prop :=
  ∀ e, entry = some e → (e.publicKey, e.room) ∈ authenticated ∧ (f.isRk = false → e.publicKey = key)

/-- What is known of a packet that is under way. -/
def RelayTask.Vouched (authenticated : List (RawKey × String)) : RelayTask → Prop
  | .idle => True
  | .parsed _ => True
  | .admitted f identity => Claimed authenticated f identity
  | .refreshed f identity => Claimed authenticated f identity
  | .found f identity source dest =>
    Claimed authenticated f identity ∧ Located authenticated f f.srcKey source ∧
      Located authenticated f f.dest dest

namespace Attested

variable {env : SignalingEnv Ct} {n : Nat} {s : Workers Ct} {auth auth' : List (RawKey × String)}
  {f : RelayFrame} {t : RelayTask}

theorem located (h : Attested auth s) (f : RelayFrame) (key : RawKey) :
    Located auth f key (f.route s.srv.routes key) := by
  intro e hRoute
  unfold RelayFrame.route at hRoute
  split at hRoute
  · rename_i hRk
    obtain ⟨k, _, hEntry⟩ := Option.bind_eq_some_iff.mp hRoute
    exact ⟨h.routes k e hEntry, fun hNot => absurd (hRk.symm.trans hNot) Bool.noConfusion⟩
  · exact ⟨h.routes key e hRoute, fun _ => RouteTable.keyed_reach h.table key e hRoute⟩

/-- Who is let through has authenticated. -/
theorem claimed (h : Attested auth s) {identity : RawKey} (hAdmit : f.admitted s.srv = some identity) :
    identity ∈ s.srv.activeIkX ∧ Claimed auth f identity := by
  obtain ⟨hIdentity, hLive⟩ := Option.filter_eq_some_iff.mp hAdmit
  rw [decide_eq_true_eq] at hLive
  refine ⟨hLive, h.active identity hLive, fun hRk => ?_⟩
  rw [hRk, if_neg Bool.false_ne_true] at hIdentity
  exact (Option.some.inj hIdentity).symm

theorem step_vouched (h : Attested auth s) (now : Nat) (ht : t.Vouched auth) :
    (t.step s.srv now).2.Vouched auth := by
  cases t with
  | idle => trivial
  | parsed f =>
    unfold RelayTask.step
    dsimp only
    split
    · rename_i identity hAdmit
      exact (h.claimed hAdmit).2
    · trivial
  | admitted f identity => exact ht
  | refreshed f identity => exact ⟨ht, h.located f f.srcKey, h.located f f.dest⟩
  | found f identity source dest => trivial

/-- A section of a relay refreshes a route at most. -/
theorem step_relay (h : Attested auth s) (now : Nat) (t : RelayTask) :
    Attested auth { s with srv := (t.step s.srv now).1 } := by
  have hRefresh : ∀ srcKey, Attested auth { s with srv := s.srv.refreshRoute srcKey now } := by
    intro srcKey
    have hChange := Workers.routeChange_refreshRoute s srcKey now
    obtain ⟨routes, hEq⟩ := Signaling.refreshRoute_frame s.srv srcKey now
    rw [hEq] at hChange ⊢
    exact ⟨h.sessions, h.active, h.all_of_routeChange hChange, h.views, hChange.leads.reach h.table⟩
  cases t with
  | idle => exact h
  | parsed f =>
    unfold RelayTask.step
    dsimp only
    split
    · exact h
    · exact h
  | admitted f identity =>
    unfold RelayTask.step
    dsimp only
    split
    · exact h
    · exact hRefresh f.srcKey
  | refreshed f identity => exact h
  | found f identity source dest => exact h

end Attested

theorem RelayTask.Vouched.mono {auth : List (RawKey × String)} {t : RelayTask} (h : t.Vouched auth)
    (more : List (RawKey × String)) : t.Vouched (auth ++ more) := by
  have hClaimed : ∀ {f identity}, Claimed auth f identity → Claimed (auth ++ more) f identity := by
    intro f identity hc
    obtain ⟨room, hRoom⟩ := hc.known
    exact ⟨⟨room, List.mem_append_left _ hRoom⟩, hc.header⟩
  have hLocated : ∀ {f key entry}, Located auth f key entry → Located (auth ++ more) f key entry := by
    intro f key entry hl e hEntry
    exact ⟨List.mem_append_left _ (hl e hEntry).1, (hl e hEntry).2⟩
  cases t with
  | idle => trivial
  | parsed f => trivial
  | admitted f identity => exact hClaimed h
  | refreshed f identity => exact hClaimed h
  | found f identity source dest => exact ⟨hClaimed h.1, hLocated h.2.1, hLocated h.2.2⟩

namespace Relays

variable {env : SignalingEnv Ct} {n : Nat} {r : Relays Ct}

/-- The server and the packets under way. -/
structure Sound (r : Relays Ct) : Prop where
  attested : Attested r.authenticated r.server
  vouched : ∀ i, (r.tasks i).Vouched r.authenticated

/-- A packet that moves on. -/
theorem vouched_update {auth : List (RawKey × String)} {tasks : Nat → RelayTask} {i : Nat} {t : RelayTask}
    (h : ∀ i, (tasks i).Vouched auth) (ht : t.Vouched auth) (j : Nat) :
    (Function.update tasks i t j).Vouched auth := by
  rw [Function.update_apply]
  split
  · exact ht
  · exact h j

theorem sound_next (h : r.Sound) (e : RelayEvent Ct) : (r.next env n e).Sound := by
  cases e with
  | server ev => exact ⟨h.attested.next env n ev, fun i => (h.vouched i).mono _⟩
  | receive i packet sender =>
    unfold next
    dsimp only
    split
    · exact h
    · exact ⟨h.attested, vouched_update h.vouched trivial⟩
  | work i d =>
    exact ⟨h.attested.step_relay r.server.clock (r.tasks i),
      vouched_update h.vouched (h.attested.step_vouched r.server.clock (h.vouched i))⟩

theorem sound_reach {G : Relays Ct → RelayEvent Ct → Prop} (h : (machine env n).Reach G r) : r.Sound := by
  refine h.invariant (I := Sound) ?_ fun r e hSound _ _ => sound_next hSound e
  rintro r ⟨clock, mesh, rooms, aliases, rfl⟩
  exact ⟨.start clock mesh rooms aliases, fun _ => trivial⟩

-- ---------------------------------------------------------------------------
-- Sources
-- ---------------------------------------------------------------------------

/-- What holds of a relayed packet on its way, whatever address it came from. -/
structure Authentic (r : Relays Ct) (i : Nat) : Prop where
  /-- a packet is let through for a live identity: the one of the header, or the
  one whose route the relay key of the header leads to -/
  admits : ∀ f identity, r.tasks i = .parsed f → f.admitted r.server.srv = some identity →
    identity ∈ r.server.srv.activeIkX ∧ Claimed r.authenticated f identity ∧
      (f.isRk → ∃ e, r.server.srv.routes.getByRk (rkText f.srcKey) = some e ∧ e.publicKey = identity)
  /-- it refreshes `last_seen` of this identity, and changes no route besides -/
  refreshes : ∀ f identity, r.tasks i = .admitted f identity → Claimed r.authenticated f identity ∧
    ∀ k, ((r.tasks i).step r.server.srv r.server.clock).1.routes.get k =
      (r.server.srv.routes.get k).map fun e =>
        if f.isRk = false ∧ k = identity then { e with lastSeen := r.server.clock } else e
  /-- it goes to the endpoint of its destination -/
  delivers : ∀ f identity source dest d addr, r.tasks i = .found f identity source dest →
    ((r.tasks i).outcome r.server.srv d).deliveredTo = some addr →
      Claimed r.authenticated f identity ∧ ∃ e, dest = some e ∧ endpointAddr e.endpoint = .ok addr

/-- The packet is passed on in the next section, to the destination with the
route `e`. -/
structure Delivers (r : Relays Ct) (i : Nat) (d : RelayDraw) (f : RelayFrame) (identity : RawKey)
    (source : Option RouteEntry) (e : RouteEntry) : Prop where
  task : r.tasks i = .found f identity source (some e)
  delivered : ∃ addr, ((r.tasks i).outcome r.server.srv d).deliveredTo = some addr

/-- A packet is passed on between devices that have authenticated; they have done
so in the same room if the source has a route or there are rooms. -/
theorem relay_rooms (h : (machine env n).Reach (fun _ _ => True) r) {i : Nat} {d : RelayDraw}
    {f : RelayFrame} {identity : RawKey} {source : Option RouteEntry} {e : RouteEntry}
    (hDelivers : r.Delivers i d f identity source e) :
    (e.publicKey, e.room) ∈ r.authenticated ∧ (f.isRk = false → e.publicKey = f.dest) ∧
      (∃ room, ((source.map (·.publicKey)).getD identity, room) ∈ r.authenticated) ∧
      (source ≠ none ∨ r.server.srv.rooms ≠ [] →
        ((source.map (·.publicKey)).getD identity, e.room) ∈ r.authenticated) := by
  have hVouched := (sound_reach h).vouched i
  obtain ⟨addr, hDelivered⟩ := hDelivers.delivered
  rw [hDelivers.task] at hVouched hDelivered
  obtain ⟨hClaimed, hSource, hDest⟩ := hVouched
  obtain ⟨e', hSame, _, hRooms⟩ := forward_delivered hDelivered
  cases hSame
  refine ⟨(hDest e rfl).1, (hDest e rfl).2, ?_, ?_⟩
  · cases source with
    | none => exact hClaimed.known
    | some s => exact ⟨s.room, (hSource s rfl).1⟩
  · rintro hKnown
    rcases hRooms with ⟨rfl, hEmpty⟩ | ⟨s, rfl, hRoom⟩
    · rcases hKnown with hNot | hNot
      · exact absurd rfl hNot
      · exact absurd hEmpty hNot
    · rw [← hRoom]
      exact (hSource s rfl).1

-- ---------------------------------------------------------------------------
-- Example runs
-- ---------------------------------------------------------------------------

/-- The event is no relayed packet, and nobody authenticates by it but those of
the list. -/
def AdmitsOnly (env : SignalingEnv Ct) (allowed : List (RawKey × String)) (s : Workers Ct)
    (ev : WorkerEvent Ct) : Prop :=
  (∀ k src, ev ≠ .relay k src) ∧ ∀ p ∈ admits env s ev, p ∈ allowed

/-- A run of the workers without relayed packets is a run beside idle relays. -/
theorem reach_of_workers {allowed : List (RawKey × String)} {s : Workers Ct}
    (h : (Workers.machine env n).Reach (AdmitsOnly env allowed) s) :
    ∃ auth, (∀ p ∈ auth, p ∈ allowed) ∧
      (machine env n).Reach (fun _ _ => True) { server := s, authenticated := auth } := by
  induction h with
  | init hInit =>
    obtain ⟨clock, mesh, rooms, aliases, rfl⟩ := hInit
    exact ⟨[], fun p hp => absurd hp List.not_mem_nil, .init ⟨clock, mesh, rooms, aliases, rfl⟩⟩
  | @step s ev _ hEnabled hGuard ih =>
    obtain ⟨auth, hAllowed, hReach⟩ := ih
    have hReady : enabled n { server := s, authenticated := auth } (.server ev) := by
      cases ev with
      | tick now => exact hEnabled
      | receive f src d => exact hEnabled.1
      | relay k src => exact absurd rfl (hGuard.1 k src)
      | _ => trivial
    have hNext : (machine env n).Reach (fun _ _ => True)
        ((machine env n).next { server := s, authenticated := auth } (.server ev)) :=
      hReach.step hReady trivial
    refine ⟨auth ++ admits env s ev, fun p hp => ?_, hNext⟩
    rcases List.mem_append.mp hp with hOld | hNew
    · exact hAllowed p hOld
    · exact hGuard.2 p hNew

/-- A packet that is let through runs up to the check of the rooms. -/
theorem reach_found {i : Nat} {packet : Bytes} {sender : SourceAddr} {f : RelayFrame} {identity : RawKey}
    (h : (machine env n).Reach (fun _ _ => True) r) (hIdle : r.tasks i = .idle)
    (hParse : RelayFrame.parse packet sender = .ok f) (hAdmit : f.admitted r.server.srv = some identity) :
    ∃ r', (machine env n).Reach (fun _ _ => True) r' ∧ r'.authenticated = r.authenticated ∧
      r'.server.srv =
        (if f.isRk then r.server.srv else r.server.srv.refreshRoute f.srcKey r.server.clock) ∧
      r'.tasks i = .found f identity (f.route r'.server.srv.routes f.srcKey)
        (f.route r'.server.srv.routes f.dest) := by
  have hWork : ∀ (r : Relays Ct) t, (machine env n).Reach (fun _ _ => True) r → r.tasks i = t →
      (machine env n).Reach (fun _ _ => True)
        { r with
          server := { r.server with srv := (t.step r.server.srv r.server.clock).1 }
          tasks := Function.update r.tasks i (t.step r.server.srv r.server.clock).2 } := by
    intro r t hr hTask
    have hStep : (machine env n).Reach (fun _ _ => True)
        ((machine env n).next r (.work i ⟨false, none⟩)) := hr.step trivial trivial
    rw [← hTask]
    exact hStep
  have hParsed : (machine env n).Reach (fun _ _ => True)
      { r with tasks := Function.update r.tasks i (.parsed f) } := by
    have hStep : (machine env n).Reach (fun _ _ => True)
        ((machine env n).next r (.receive i packet sender)) := h.step hIdle trivial
    have hNext : (machine env n).next r (.receive i packet sender) =
        { r with tasks := Function.update r.tasks i (.parsed f) } := by
      show r.next env n (.receive i packet sender) = _
      unfold next
      dsimp only
      rw [hParse]
    rw [← hNext]
    exact hStep
  have hAdmitted := hWork _ _ hParsed (Function.update_self ..)
  have hCheck : (RelayTask.parsed f).step r.server.srv r.server.clock = (r.server.srv, .admitted f identity) := by
    unfold RelayTask.step
    dsimp only
    rw [hAdmit]
  dsimp only at hAdmitted
  rw [hCheck] at hAdmitted
  have hRefreshed := hWork _ _ hAdmitted (Function.update_self ..)
  have hFound := hWork _ _ hRefreshed (Function.update_self ..)
  exact ⟨_, hFound, rfl, rfl, Function.update_self ..⟩

theorem admits_session {s : Workers Ct} {f : SignalFrame Ct} (src : SourceAddr) (d : SignalDraw)
    (hKind : f.msgType ≠ msgKeyquery) (hSession : f.sender ∈ s.srv.sessions) :
    admits env s (.receive f src d) = [] := by
  show (s.srv.handleSignaling env f src d).2.admitted = []
  rw [Signaling.handleSignaling_session d hKind hSession]
  rfl

theorem admits_auth {s : Workers Ct} {f : SignalFrame Ct} {src : SourceAddr} {d : SignalDraw}
    {ab : AuthBody} {room : String} {nonce : Bytes} {ekC : RawKey}
    (hCarries : Signaling.CarriesAuth env f ab) (hFree : f.sender ∉ s.srv.sessions)
    (hAdmits : Signaling.Admits env s.srv f.sender ab src d.auth room nonce ekC) :
    admits env s (.receive f src d) = [(f.sender, room)] := by
  show (s.srv.handleSignaling env f src d).2.admitted = _
  rw [Signaling.handleSignaling_auth src d hCarries hFree, Signaling.handleAuth_of_admits hAdmits]
  rfl

/-- The only room. -/
def exampleRooms : List RoomEntry := [{ name := "lab", tokenHash := hashToken sampleServerEnv "lab" }]

/-- Device 2 authenticates with the token of the room. -/
def exampleLabAuth : AuthBody := { sampleAuth 2 50 0 1 with token := some "lab" }

def exampleLabFrame : SignalFrame (RawKey × Nonce × Bytes) :=
  { msgType := msgAuth
    sender := 2
    payload := sampleCrypto.encryptWithNonce (sampleCrypto.sharedSecret 7 2) (0, 0)
      ((encodeAuth exampleLabAuth).toOption.getD []) }

theorem exampleLabFrame_carries :
    Signaling.CarriesAuth sampleServerEnv exampleLabFrame exampleLabAuth := by
  obtain ⟨bytes, hBytes⟩ : ∃ bytes, encodeAuth exampleLabAuth = .ok bytes := by
    obtain ⟨_, hPlain⟩ := sampleAuth_encodes (i := 2) 50 0 1 (.inl rfl)
    obtain ⟨deviceId, hDevice, hPlain⟩ := bind_eq_ok.mp hPlain
    obtain ⟨cert, hCert, hPlain⟩ := bind_eq_ok.mp hPlain
    obtain ⟨ekC, hEkC, hPlain⟩ := bind_eq_ok.mp hPlain
    obtain ⟨nonce, hNonce, _⟩ := bind_eq_ok.mp hPlain
    have hToken : ∃ fields, putOptStr tokenLen (some "lab") = .ok fields :=
      ⟨_, bind_eq_ok.mpr ⟨_, wireStrSet_ok (by decide +kernel) (by decide +kernel), rfl⟩⟩
    obtain ⟨fields, hToken⟩ := hToken
    exact exists_bind_ok hDevice (exists_bind_ok hCert (exists_bind_ok hEkC
      (exists_bind_ok hNonce (exists_bind_ok hToken ⟨_, rfl⟩))))
  refine ⟨rfl, bytes, ?_, ?_⟩
  · show sampleCrypto.decrypt _ (sampleCrypto.encryptWithNonce _ _ _) = _
    rw [hBytes]
    exact sampleCrypto_lawful.decrypt_encrypt' _ _ _
  · exact decodeAuth_encodeAuth (sampleCert_canonical (.inl rfl)) (sampleDeviceId_isB64Text (.inl rfl))
      (isB64Text_keyB64 (keyBytes_length 50)) (by decide) (isB64Text_keyB64 (Layout.beBytes_length 12 1)) hBytes

theorem exampleLab_admits :
    Signaling.Admits sampleServerEnv (Signaling.start sampleMesh exampleRooms ∅) 2 exampleLabAuth sampleSrc
      (sampleAuthDraw 0 11) "lab" (Layout.beBytes 12 1) 50 where
  rate := rfl
  room := by
    have hTrim : trim "lab" = "lab" := by decide
    have hFind : exampleRooms.find? (·.tokenHash = hashToken sampleServerEnv "lab") = exampleRooms.head? :=
      List.find?_cons_of_pos (decide_eq_true rfl)
    show Signaling.resolveRoom sampleServerEnv { mesh := sampleMesh, rooms := exampleRooms } (some "lab") = _
    unfold Signaling.resolveRoom
    simp only [Option.map_some, hTrim, Option.filter_some]
    rw [if_neg (by decide), if_pos (by decide)]
    dsimp only
    rw [hFind]
    rfl
  checks := by
    have hTime : timestampOk 0 0 = true := by decide
    have hChecks : (Signaling.start sampleMesh exampleRooms ∅).authChecks sampleServerEnv 2
        (sampleAuth 2 50 0 1) 0 = .ok (Layout.beBytes 12 1) :=
      sampleAuth_checks rfl (.inl rfl) hTime (Nat.zero_le _)
    exact hChecks
  fresh := by
    show _ ∉ (∅ : ExtTreeMap RawKey (List Bytes))[(2 : RawKey)]?.getD []
    rw [ExtTreeMap.getElem?_empty]
    exact List.not_mem_nil
  ekC := parsePublicKey_keyB64 (by decide)

/-- The session of device 2 in the room. -/
def exampleLabEntry : SessionEntry :=
  Signaling.authEntry sampleServerEnv 2 exampleLabAuth (sampleAuthDraw 0 11) "lab" (Layout.beBytes 12 1) 50

/-- Device 2 has authenticated. -/
def exampleLabUp : Workers (RawKey × Nonce × Bytes) :=
  { Workers.start 0 sampleMesh exampleRooms ∅ with
    srv := (Signaling.start sampleMesh exampleRooms ∅).afterAuth sampleServerEnv 2 sampleSrc
      (sampleAuthDraw 0 11) (Layout.beBytes 12 1) exampleLabEntry
    keys := [(exampleLabEntry.sk, 50)] }

/-- It has registered. -/
def exampleLabRoute : Workers (RawKey × Nonce × Bytes) :=
  Workers.sampleRegistered
    (Workers.sampleCommitted exampleLabUp exampleLabEntry msgRegister sampleRegistrationBytes 4000)
    exampleLabEntry.view 4000

/-- The room is removed. -/
def exampleNoRooms : Workers (RawKey × Nonce × Bytes) :=
  { exampleLabRoute with srv := { exampleLabRoute.srv with rooms := [], aliases := ∅ } }

/-- Device 3 has authenticated as well; it has no route. -/
def exampleGuest : Workers (RawKey × Nonce × Bytes) :=
  { exampleNoRooms with
    srv := sampleAdd exampleNoRooms.srv 3 60 12 0 1 0
    keys := exampleNoRooms.keys ++ [((sampleEntry 3 60 12 0 1 0).sk, 60)] }

/-- The guests of the example. -/
def exampleAllowed : List (RawKey × String) := [(2, "lab"), (3, "default")]

theorem admitsOnly_auth {allowed : List (RawKey × String)} {s : Workers Ct} {f : SignalFrame Ct}
    {src : SourceAddr} {d : SignalDraw} {ab : AuthBody} {room : String} {nonce : Bytes} {ekC : RawKey}
    (hCarries : Signaling.CarriesAuth env f ab) (hFree : f.sender ∉ s.srv.sessions)
    (hAdmits : Signaling.Admits env s.srv f.sender ab src d.auth room nonce ekC)
    (hAllowed : (f.sender, room) ∈ allowed) : AdmitsOnly env allowed s (.receive f src d) := by
  refine ⟨fun k src' hEq => (by cases hEq), fun p hp => ?_⟩
  rw [admits_auth hCarries hFree hAdmits] at hp
  rw [List.mem_singleton.mp hp]
  exact hAllowed

theorem admitsOnly_session {allowed : List (RawKey × String)} {s : Workers Ct} {f : SignalFrame Ct}
    (src : SourceAddr) (d : SignalDraw) (hKind : f.msgType ≠ msgKeyquery)
    (hSession : f.sender ∈ s.srv.sessions) : AdmitsOnly env allowed s (.receive f src d) := by
  refine ⟨fun k src' hEq => (by cases hEq), fun p hp => ?_⟩
  rw [admits_session src d hKind hSession] at hp
  cases hp

theorem admitsOnly_work {allowed : List (RawKey × String)} {s : Workers Ct} (w : Nat) (random : Nonce) :
    AdmitsOnly env allowed s (.work w random) :=
  ⟨fun k src hEq => (by cases hEq), fun p hp => absurd hp List.not_mem_nil⟩

theorem exampleLabUp_sessions (k : RawKey) :
    exampleLabUp.srv.sessions[k]? = if k = 50 then some exampleLabEntry else none := by
  show ((Signaling.start sampleMesh exampleRooms ∅).afterAuth sampleServerEnv 2 sampleSrc
    (sampleAuthDraw 0 11) (Layout.beBytes 12 1) exampleLabEntry).sessions[k]? = _
  rw [Signaling.afterAuth_sessions, Signaling.register_getElem?]
  rfl

/-- The registration moves the counter on and stores the route. -/
theorem exampleLabRoute_srv : ∃ sessions,
    exampleLabRoute.srv =
      { exampleLabUp.srv with
        sessions := sessions
        routes := exampleLabUp.srv.routes.upsert
          (registerEntry sampleServerEnv exampleLabEntry.view (sampleSource 4000) 0 none none) } ∧
      ∀ k, k ≠ 50 → sessions[k]? = none := by
  obtain ⟨m, hEq⟩ := Signaling.commitCounter_frame exampleLabUp.srv 50 1 0
  have hRoute : exampleLabRoute.srv = (exampleLabUp.srv.commitCounter 50 1 0).registerRoute
      (registerEntry sampleServerEnv exampleLabEntry.view (sampleSource 4000) 0 none none) := rfl
  refine ⟨m, ?_, ?_⟩
  · rw [hRoute, hEq]
    rfl
  · intro k hk
    have hSame : (exampleLabUp.srv.commitCounter 50 1 0).sessions[k]? = m[k]? := by rw [hEq]
    rw [← hSame, Signaling.commitCounter_getElem?, if_neg hk, exampleLabUp_sessions, if_neg hk]

/-- The route of device 2. -/
def exampleLabEndpoint : RouteEntry :=
  registerEntry sampleServerEnv exampleLabEntry.view (sampleSource 4000) 0 none none

theorem exampleLabRoute_routes : exampleLabRoute.srv.routes = ({} : RouteTable).upsert exampleLabEndpoint := by
  obtain ⟨sessions, hSrv, _⟩ := exampleLabRoute_srv
  rw [hSrv]
  dsimp only [exampleLabUp]
  rw [Signaling.afterAuth_routes]
  rfl

theorem exampleGuest_routes : exampleGuest.srv.routes = ({} : RouteTable).upsert exampleLabEndpoint := by
  show (sampleAdd { exampleLabRoute.srv with rooms := [], aliases := ∅ } 3 60 12 0 1 0).routes = _
  rw [sampleAdd, Signaling.afterAuth_routes]
  exact exampleLabRoute_routes

/-- Device 2 has the only route. -/
theorem exampleTable_get (k : RawKey) :
    (({} : RouteTable).upsert exampleLabEndpoint).get k = if k = 2 then some exampleLabEndpoint else none := by
  have hDisplaced : ({} : RouteTable).displaced exampleLabEndpoint = none := by
    unfold RouteTable.displaced
    rw [ExtTreeMap.getElem?_empty]
    split
    · rfl
    · rfl
  unfold RouteTable.get
  rw [RouteTable.upsert_byKey, hDisplaced, getElem?_insert]
  dsimp only [eraseSome]
  rw [ExtTreeMap.getElem?_empty]
  rfl

theorem exampleNoRooms_idle (w : Nat) : exampleNoRooms.tasks w = .idle := by
  show exampleLabRoute.tasks w = .idle
  by_cases hWorker : w = sampleWorker 4000
  · rw [hWorker]
    exact Workers.sampleRegistered_task
  · exact (Workers.sampleRegistered_other hWorker).trans (Workers.sampleCommitted_other hWorker)

theorem exampleNoRooms_admits :
    Signaling.Admits sampleServerEnv exampleNoRooms.srv 3 (sampleAuth 3 60 0 1) sampleSrc
      (sampleAuthDraw 0 12) "default" (Layout.beBytes 12 1) 60 := by
  obtain ⟨sessions, hSrv, _⟩ := exampleLabRoute_srv
  refine Signaling.sampleAuth_admits ?_ rfl (.inr rfl) (by decide) (Nat.zero_le _) ?_ (by decide)
  · show exampleLabRoute.srv.mesh = sampleMesh
    rw [hSrv]
    dsimp only [exampleLabUp]
    rw [Signaling.afterAuth_mesh]
    rfl
  · show _ ∉ exampleLabRoute.srv.replay[(3 : RawKey)]?.getD []
    rw [hSrv]
    dsimp only [exampleLabUp]
    rw [Signaling.afterAuth_replay]
    decide +kernel

/-- Device 2 has authenticated in the room and has registered. -/
theorem reach_exampleLabRoute :
    Workers.sampleMachine.Reach (AdmitsOnly sampleServerEnv exampleAllowed) exampleLabRoute := by
  have hStart : Workers.sampleMachine.Reach (AdmitsOnly sampleServerEnv exampleAllowed)
      (Workers.start 0 sampleMesh exampleRooms ∅) := .init ⟨0, sampleMesh, exampleRooms, ∅, rfl⟩
  have hTake : AdmitsOnly sampleServerEnv exampleAllowed (Workers.start 0 sampleMesh exampleRooms ∅)
      (.receive exampleLabFrame sampleSrc (sampleSignalDraw 0 11)) :=
    admitsOnly_auth exampleLabFrame_carries ExtTreeMap.not_mem_empty exampleLab_admits (List.mem_cons_self ..)
  have hAuth := Workers.reach_auth (d := sampleSignalDraw 0 11) hStart rfl exampleLabFrame_carries
    ExtTreeMap.not_mem_empty exampleLab_admits (fun q hq => absurd hq List.not_mem_nil) hTake
  have hUp : Workers.sampleMachine.Reach (AdmitsOnly sampleServerEnv exampleAllowed) exampleLabUp := hAuth
  have hEntry := (exampleLabUp_sessions 50).trans (if_pos rfl)
  have hCommitted : Workers.sampleMachine.Reach (AdmitsOnly sampleServerEnv exampleAllowed)
      (Workers.sampleCommitted exampleLabUp exampleLabEntry msgRegister sampleRegistrationBytes 4000) :=
    Workers.reach_sampleCommitted hUp rfl (by decide) hEntry
      (admitsOnly_session _ _ (by decide) (mem_iff.mpr ⟨_, hEntry⟩)) fun _ _ => admitsOnly_work _ _
  exact Workers.reach_sampleRegistered hCommitted (Workers.sampleCommitted_task.trans
    (congrArg _ (plan_sampleRegistration (by decide +kernel)))) (admitsOnly_work _ _) (admitsOnly_work _ _)

/-- Once the room is removed, device 3 authenticates. -/
theorem reach_exampleGuest :
    Workers.sampleMachine.Reach (AdmitsOnly sampleServerEnv exampleAllowed) exampleGuest := by
  have hNoRooms : Workers.sampleMachine.Reach (AdmitsOnly sampleServerEnv exampleAllowed) exampleNoRooms :=
    Workers.reach_next (.administer [] ∅) reach_exampleLabRoute trivial
      ⟨fun k src hEq => (by cases hEq), fun p hp => absurd hp List.not_mem_nil⟩ rfl
  have hFree : (3 : RawKey) ∉ exampleNoRooms.srv.sessions := by
    obtain ⟨sessions, hSrv, hNone⟩ := exampleLabRoute_srv
    intro hMem
    obtain ⟨e, hEntry⟩ := mem_iff.mp hMem
    change exampleLabRoute.srv.sessions[(3 : RawKey)]? = some e at hEntry
    rw [hSrv, hNone 3 (by decide)] at hEntry
    cases hEntry
  have hFresh : ∀ q ∈ exampleNoRooms.keys, q.1 ≠ (sampleEntry 3 60 12 0 1 0).sk := by
    intro q hq
    rw [List.mem_singleton.mp hq]
    decide +kernel
  exact Workers.reach_sampleAuth hNoRooms exampleNoRooms_idle (.inr rfl) (by decide) hFree
    exampleNoRooms_admits hFresh (admitsOnly_auth (sampleAuthFrame_carries 60 1 (.inr rfl) (by decide)) hFree
      exampleNoRooms_admits (List.mem_cons_of_mem _ (List.mem_cons_self ..)))

/-- Device `k` sends to device 2, from the port 4001. -/
def exampleFrame (k : RawKey) : RelayFrame :=
  { packet := frameRelay msgRelay 2 k []
    sender := sampleSource 4001
    isRk := false
    dest := 2
    srcKey := k
    ct := [] }

theorem exampleFrame_parse {k : RawKey} (hk : k < 256 ^ 32) :
    RelayFrame.parse (exampleFrame k).packet (sampleSource 4001) = .ok (exampleFrame k) :=
  RelayFrame.parse_frameRelay (sampleSource 4001) (by decide) hk

theorem exampleFrame_admitted {k : RawKey} {srv : Signaling} (hLive : k ∈ srv.activeIkX) :
    (exampleFrame k).admitted srv = some k := by
  unfold RelayFrame.admitted exampleFrame
  dsimp only
  rw [if_neg Bool.false_ne_true, Option.filter_some, decide_eq_true hLive]
  rfl

/-- A packet to device 2 in its room, or without rooms, is passed on. -/
theorem exampleFrame_delivered {k : RawKey} {rooms : List RoomEntry} {source : Option RouteEntry}
    (h : source = some exampleLabEndpoint ∨ source = none ∧ rooms = []) :
    ((exampleFrame k).forward rooms source (some exampleLabEndpoint) ⟨false, none⟩).deliveredTo =
      some (sampleSource 4000) := by
  have hDeliver : ((exampleFrame k).deliver exampleLabEndpoint ⟨false, none⟩).deliveredTo =
      some (sampleSource 4000) := by
    have hAddr : endpointAddr exampleLabEndpoint.endpoint = .ok (sampleSource 4000) := by
      decide +kernel
    unfold RelayFrame.deliver
    rw [hAddr]
    rfl
  rcases h with rfl | ⟨rfl, rfl⟩
  · unfold RelayFrame.forward
    dsimp only
    rw [if_neg (not_not_intro rfl)]
    exact hDeliver
  · exact hDeliver

theorem exampleLabRoute_live : (2 : RawKey) ∈ exampleLabRoute.srv.activeIkX := by
  obtain ⟨sessions, hSrv, _⟩ := exampleLabRoute_srv
  rw [hSrv]
  exact Signaling.afterAuth_live sampleServerEnv (Signaling.start sampleMesh exampleRooms ∅) 2 sampleSrc
    (sampleAuthDraw 0 11) (Layout.beBytes 12 1) exampleLabEntry

/-- A packet under the identity of device 2, which has registered another address. -/
theorem reach_exampleForged :
    ∃ r, (machine sampleServerEnv (defaultWorkerCount (some 2))).Reach (fun _ _ => True) r ∧
      r.server.srv.routes.get 2 = some exampleLabEndpoint ∧
      r.Delivers 0 ⟨false, none⟩ (exampleFrame 2) 2 (some exampleLabEndpoint) exampleLabEndpoint := by
  obtain ⟨auth, _, hReach⟩ := reach_of_workers reach_exampleLabRoute
  have hTable := (sound_reach hReach).attested.table
  obtain ⟨r, hr, _, hSrv, hTask⟩ := reach_found (i := 0) hReach rfl (exampleFrame_parse (by decide))
    (exampleFrame_admitted exampleLabRoute_live)
  have hRoute : r.server.srv.routes.get 2 = some exampleLabEndpoint := by
    rw [hSrv]
    refine (Signaling.get_refreshRoute hTable 2 0 2).trans ?_
    rw [exampleLabRoute_routes, exampleTable_get]
    rfl
  have hFound : r.tasks 0 =
      .found (exampleFrame 2) 2 (some exampleLabEndpoint) (some exampleLabEndpoint) := by
    rw [hTask]
    show RelayTask.found _ _ (r.server.srv.routes.get 2) (r.server.srv.routes.get 2) = _
    rw [hRoute]
  refine ⟨r, hr, hRoute, hFound, sampleSource 4000, ?_⟩
  rw [hFound, RelayTask.outcome]
  exact exampleFrame_delivered (.inl rfl)

/-- Device 3, which has no route, sends to device 2 while there are no rooms. -/
theorem reach_exampleGuestPacket :
    ∃ r, (machine sampleServerEnv (defaultWorkerCount (some 2))).Reach (fun _ _ => True) r ∧
      (∀ p ∈ r.authenticated, p ∈ exampleAllowed) ∧
      r.Delivers 0 ⟨false, none⟩ (exampleFrame 3) 3 none exampleLabEndpoint := by
  obtain ⟨auth, hAllowed, hReach⟩ := reach_of_workers reach_exampleGuest
  have hTable := (sound_reach hReach).attested.table
  have hLive : (3 : RawKey) ∈ exampleGuest.srv.activeIkX :=
    Signaling.afterAuth_live sampleServerEnv exampleNoRooms.srv 3 sampleSrc (sampleAuthDraw 0 12)
      (Layout.beBytes 12 1) (sampleEntry 3 60 12 0 1 0)
  obtain ⟨r, hr, hAuth, hSrv, hTask⟩ := reach_found (i := 0) hReach rfl (exampleFrame_parse (by decide))
    (exampleFrame_admitted hLive)
  have hRoutes : ∀ k, r.server.srv.routes.get k =
      if k = 2 then some exampleLabEndpoint else none := by
    intro k
    rw [hSrv]
    refine (Signaling.get_refreshRoute hTable 3 0 k).trans ?_
    rw [exampleGuest_routes, exampleTable_get]
    by_cases hTwo : k = 2
    · rw [hTwo]
      rfl
    · rw [if_neg hTwo]
      rfl
  have hRooms : r.server.srv.rooms = [] := by
    obtain ⟨routes, hRefresh⟩ := Signaling.refreshRoute_frame exampleGuest.srv 3 0
    rw [hSrv]
    show (exampleGuest.srv.refreshRoute 3 0).rooms = []
    rw [hRefresh]
    show (sampleAdd exampleNoRooms.srv 3 60 12 0 1 0).rooms = []
    rw [Signaling.sampleAdd_rooms]
    rfl
  have hFound : r.tasks 0 = .found (exampleFrame 3) 3 none (some exampleLabEndpoint) := by
    rw [hTask]
    show RelayTask.found _ _ (r.server.srv.routes.get 3) (r.server.srv.routes.get 2) = _
    rw [hRoutes, hRoutes]
    rfl
  refine ⟨r, hr, ?_, hFound, sampleSource 4000, ?_⟩
  · rw [hAuth]
    exact hAllowed
  rw [hFound, RelayTask.outcome]
  exact exampleFrame_delivered (.inr ⟨rfl, hRooms⟩)

/-- Without rooms, a packet of device 3 reaches the room in which device 2 is. -/
theorem relay_rooms_fails :
    ∃ r, (machine sampleServerEnv (defaultWorkerCount (some 2))).Reach (fun _ _ => True) r ∧
      ∃ d f identity source e, r.Delivers 0 d f identity source e ∧
        ¬ ∃ room, ((source.map (·.publicKey)).getD identity, room) ∈ r.authenticated ∧
          (e.publicKey, room) ∈ r.authenticated := by
  obtain ⟨r, hr, hAllowed, hDelivers⟩ := reach_exampleGuestPacket
  refine ⟨r, hr, _, _, _, _, _, hDelivers, ?_⟩
  rintro ⟨room, hSource, hDest⟩
  have hThree : room = "default" := by
    have hMem : ((3 : RawKey), room) ∈ exampleAllowed := hAllowed _ hSource
    simpa [exampleAllowed] using hMem
  have hTwo : room = "lab" := by
    have hMem : ((2 : RawKey), room) ∈ exampleAllowed := hAllowed _ hDest
    simpa [exampleAllowed] using hMem
  rw [hThree] at hTwo
  exact absurd hTwo (by decide)

theorem relay_rooms_example :
    ∃ r : Relays (RawKey × Nonce × Bytes), (exampleLabEndpoint.publicKey, "lab") ∈ r.authenticated ∧
      ((2 : RawKey), "lab") ∈ r.authenticated ∧
      r.Delivers 0 ⟨false, none⟩ (exampleFrame 2) 2 (some exampleLabEndpoint) exampleLabEndpoint := by
  obtain ⟨r, hr, _, hDelivers⟩ := reach_exampleForged
  obtain ⟨hDest, _, _, hSource⟩ := relay_rooms hr hDelivers
  exact ⟨r, hDest, hSource (.inl (by intro hNone; cases hNone)), hDelivers⟩

end Relays

end LinkMesh
