import LinkMesh.Server.Lifecycle
import Mathlib.Logic.Function.Basic

/-!
# Workers, revocations and the cleaner side by side

`Signaling::run` hands every datagram to the worker of its source address;
`revoke_device` and `cleanup_loop` run beside the workers
(`linkmesh-server/src/signaling.rs`). Each takes a lock, lets it go and goes on,
and between two locked sections anything else may run. A step here is one locked
section together with what follows it up to the next lock.

AUTH, JOIN and a BYE under the static key are one step after the look at the
session table: AUTH holds the mesh lock from its checks to the registration,
which is one section of the session table. The clock does not go backwards. A
session key is never derived twice, and the random nonce of a refusal is neither
the nonce of a counter nor one used before under its key.

## Results

* `next_sessions` — where a session in the table comes from.
* `next_routes`   — a route that was not there before comes from a REGISTER.
-/

namespace LinkMesh

open Std KeyMap

variable {Ct : Type}

-- ---------------------------------------------------------------------------
-- Shards
-- ---------------------------------------------------------------------------

/-- FNV-1a over the bytes of the IP and the port, in 64 bits. -/
def shardHash (src : SourceAddr) : UInt64 :=
  src.octets.foldl (fun h b => (h ^^^ b.toUInt64) * 0x100000001b3) 0xcbf29ce484222325 ^^^
    UInt64.ofNat src.port

/-- The worker of a source address, among `n`. -/
def shardIndex (src : SourceAddr) (n : Nat) : Nat := if n ≤ 1 then 0 else (shardHash src).toNat % n

/-- 2 to 8 workers, 4 when the number of processors is not known. -/
def defaultWorkerCount (parallelism : Option Nat) : Nat :=
  match parallelism with
  | some p => max 2 (min p 8)
  | none => 4

-- ---------------------------------------------------------------------------
-- A worker
-- ---------------------------------------------------------------------------

/-- Where a worker is between two locked sections. -/
inductive Task (Ct : Type) where
  | idle
  /-- a relayed packet of a live identity -/
  | relaying (srcKey : RawKey)
  /-- `handle_signaling` found the sender among the sessions -/
  | dispatched (f : SignalFrame Ct) (src : SourceAddr)
  /-- the session is read, the frame opened -/
  | opened (f : SignalFrame Ct) (src : SourceAddr) (v : SessionView) (plaintext : Bytes)
  /-- the counter has moved on -/
  | committed (sender : RawKey) (src : SourceAddr) (v : SessionView) (plan : RequestPlan)
  /-- BYE: the route is gone -/
  | unrouted (sender : RawKey) (v : SessionView)
  /-- BYE: the session is gone as well -/
  | left (v : SessionView)
  /-- QUERY: the administrator has no such alias -/
  | searching (v : SessionView) (qb : QueryBody) (name : String)
  /-- QUERY: the IP is known -/
  | resolved (v : SessionView) (qb : QueryBody) (ip : Option String)
  | answering (v : SessionView) (answer : Answer)

/-- A frame whose request is carried out, with the session key and the counter
it was opened under. -/
structure Execution (Ct : Type) where
  frame : SignalFrame Ct
  sk : RawKey
  seq : Nat

/-- A response with the key and the nonce it was sealed under. -/
structure SealedResponse where
  key : RawKey
  nonce : Nonce
  body : ResponseBody

namespace Task

/-- The first section of a QUERY: only the table of aliases is read. -/
def lookup (env : SignalingEnv Ct) (srv : Signaling) (v : SessionView) (qb : QueryBody) : Task Ct :=
  match qb.name with
  | none => .resolved v qb (some qb.ip)
  | some raw =>
    let name := env.toLowercase (trim raw)
    if name = "" then .resolved v qb none
    else
      match srv.aliases[name]? with
      | some ip => .resolved v qb (some ip)
      | none => .searching v qb name

/-- The next locked section of a worker. -/
def step (env : SignalingEnv Ct) (srv : Signaling) (now : Nat) : Task Ct → Signaling × Task Ct
  | .idle => (srv, .idle)
  | .relaying srcKey => (srv.refreshRoute srcKey now, .idle)
  | .dispatched f src =>
    match srv.sessions[f.sender]? with
    | none => (srv, .idle)
    | some e =>
      match e.view.openFrame env f.payload with
      | none => (srv, .idle)
      | some plaintext => (srv, .opened f src e.view plaintext)
  | .opened f src v plaintext =>
    (srv.commitCounter f.sender v.nextSeq now,
      .committed f.sender src v (planRequest env v f.msgType plaintext))
  | .committed sender src v plan =>
    match plan with
    | .bye => (srv.removeRoute v.ikX, .unrouted sender v)
    | .query qb => (srv, lookup env srv v qb)
    | plan =>
      ((srv.execute env sender v src now plan).1,
        .answering v (srv.execute env sender v src now plan).2)
  | .unrouted sender v => (srv.removeSession sender, .left v)
  | .left v => (srv.rebuildActiveIkX, .answering v (.reply .okEmpty))
  | .searching v qb name =>
    (srv, .resolved v qb ((srv.routes.snapshot.find? (·.aliasName = some name)).map (·.ip)))
  | .resolved v qb ip => (srv, .answering v (.reply (queryAnswer qb (srv.queryTarget v ip))))
  | .answering _ _ => (srv, .idle)

/-- The request that the next section commits to. -/
def executes : Task Ct → List (Execution Ct)
  | .opened f _ v _ => [{ frame := f, sk := v.sk, seq := v.nextSeq }]
  | _ => []

/-- The nonce of an answer. -/
def answerNonce (v : SessionView) (random : Nonce) : Answer → Nonce
  | .reply _ => sessionNonce v.nextSeq 1
  | _ => random

/-- The response that is sent next. -/
def seals (env : SignalingEnv Ct) (random : Nonce) : Task Ct → List SealedResponse
  | .answering v answer =>
    match sealAnswer env v random answer with
    | .answered body _ => [{ key := v.sk, nonce := answerNonce v random answer, body := body }]
    | _ => []
  | _ => []

/-- The identity whose route the next section registers, with its device. -/
def registers : Task Ct → Option (RawKey × String)
  | .committed _ _ v (.register _ _) => some (v.ikX, v.deviceId)
  | _ => none

end Task

-- ---------------------------------------------------------------------------
-- Revocation and cleanup
-- ---------------------------------------------------------------------------

/-- Where a control connection is in `revoke_device`. -/
inductive Revocation where
  | idle
  /-- the device is on the revocation list -/
  | listed (deviceId : String)
  /-- its sessions are gone; the identities they had -/
  | kicked (deviceId : String) (keys : List RawKey)
  /-- the live identities are rebuilt; the routes still to be removed -/
  | clearing (deviceId : String) (keys : List RawKey)

namespace Revocation

/-- The next locked section of `revoke_device`, after the one of the mesh. -/
def step (srv : Signaling) : Revocation → Signaling × Revocation
  | .idle => (srv, .idle)
  | .listed deviceId =>
    (srv.removeSessions ((srv.victims deviceId).map (·.1)),
      .kicked deviceId ((srv.victims deviceId).map (·.2)))
  | .kicked deviceId keys => (srv.rebuildActiveIkX, .clearing deviceId keys)
  | .clearing deviceId (key :: keys) => (srv.removeRoute key, .clearing deviceId keys)
  | .clearing _ [] => (srv, .idle)

/-- The device whose revocation returns next. -/
def completes : Revocation → List String
  | .clearing deviceId [] => [deviceId]
  | _ => []

end Revocation

/-- Where `cleanup_loop` is, with the time it read at the start of its pass. -/
inductive Cleaner where
  | idle
  | started (now : Nat)
  | routesCleaned (now : Nat)
  | pruned (now : Nat)
  /-- the expired sessions that are still to be removed -/
  | sweeping (now : Nat) (keys : List RawKey)
  /-- a session is gone, its route is next -/
  | unseating (now : Nat) (ikX : RawKey) (keys : List RawKey)

/-- The next locked section of `cleanup_loop`. -/
def Cleaner.step (env : SignalingEnv Ct) (srv : Signaling) (clock : Nat) :
    Cleaner → Signaling × Cleaner
  | .idle => (srv, .started clock)
  | .started now => (srv.cleanupRoutes env now, .routesCleaned now)
  | .routesCleaned now => (srv.pruneRateLimits now, .pruned now)
  | .pruned now =>
    (srv, if (srv.expiredSessions env now).isEmpty then .idle
      else .sweeping now (srv.expiredSessions env now))
  | .sweeping now (key :: keys) =>
    match srv.sessions[key]? with
    | some e => (srv.removeSession key, .unseating now e.ikX keys)
    | none => (srv, .sweeping now keys)
  | .sweeping _ [] => (srv.rebuildActiveIkX, .idle)
  | .unseating now ikX keys => (srv.removeRoute ikX, .sweeping now keys)

-- ---------------------------------------------------------------------------
-- The machine
-- ---------------------------------------------------------------------------

/-- The server with everything that runs on it, and what it has done so far. -/
structure Workers (Ct : Type) where
  clock : Nat
  srv : Signaling
  tasks : Nat → Task Ct := fun _ => .idle
  control : Nat → Revocation := fun _ => .idle
  cleaner : Cleaner := .idle
  /-- every session key derived so far, with the `ek_c` of its session -/
  keys : List (RawKey × RawKey) := []
  executed : List (Execution Ct) := []
  sent : List SealedResponse := []
  /-- the device whose REGISTER stored the route of an identity -/
  registrant : ExtTreeMap RawKey String := ∅
  /-- the devices whose revocation has returned -/
  revoked : List String := []

/-- What happens next. -/
inductive WorkerEvent (Ct : Type) where
  | tick (now : Nat)
  /-- the worker of the source takes a signaling datagram -/
  | receive (f : SignalFrame Ct) (src : SourceAddr) (d : SignalDraw)
  /-- the worker of the source takes a relayed packet under an identity key -/
  | relay (srcKey : RawKey) (src : SourceAddr)
  /-- the next section of a worker -/
  | work (w : Nat) (random : Nonce)
  /-- a control connection revokes a device -/
  | revoke (c : Nat) (deviceId : String) (reason : RevokeReason)
  /-- the next section of a revocation -/
  | proceed (c : Nat)
  /-- the next section of the cleaner -/
  | clean
  | delPeer (key : RawKey)
  | administer (rooms : List RoomEntry) (aliases : ExtTreeMap String String)

/-- The key of a session that was just registered. -/
def SignalOutcome.issued : SignalOutcome Ct → List (RawKey × RawKey)
  | .auth (.accepted entry _) => [(entry.sk, entry.sessionPub)]
  | _ => []

namespace Workers

def setTask (s : Workers Ct) (w : Nat) (t : Task Ct) : Workers Ct :=
  { s with tasks := Function.update s.tasks w t }

def next (env : SignalingEnv Ct) (n : Nat) (s : Workers Ct) : WorkerEvent Ct → Workers Ct
  | .tick now => { s with clock := now }
  | .receive f src d =>
    if f.msgType ≠ msgKeyquery ∧ f.sender ∈ s.srv.sessions then
      s.setTask (shardIndex src n) (.dispatched f src)
    else
      { s with
        srv := (s.srv.handleSignaling env f src d).1
        keys := s.keys ++ (s.srv.handleSignaling env f src d).2.issued }
  | .relay srcKey src =>
    if srcKey ∈ s.srv.activeIkX then s.setTask (shardIndex src n) (.relaying srcKey) else s
  | .work w random =>
    { s with
      srv := ((s.tasks w).step env s.srv s.clock).1
      tasks := Function.update s.tasks w ((s.tasks w).step env s.srv s.clock).2
      executed := s.executed ++ (s.tasks w).executes
      sent := s.sent ++ (s.tasks w).seals env random
      registrant :=
        match (s.tasks w).registers with
        | some (ikX, deviceId) => s.registrant.insert ikX deviceId
        | none => s.registrant }
  | .revoke c deviceId reason =>
    { s with
      srv := { s.srv with mesh := (s.srv.mesh.revoke env.signatures deviceId reason s.clock).1 }
      control :=
        match (s.srv.mesh.revoke env.signatures deviceId reason s.clock).2 with
        | .error _ => s.control
        | .ok _ => Function.update s.control c (.listed deviceId) }
  | .proceed c =>
    { s with
      srv := ((s.control c).step s.srv).1
      control := Function.update s.control c ((s.control c).step s.srv).2
      revoked := s.revoked ++ (s.control c).completes }
  | .clean =>
    { s with
      srv := (s.cleaner.step env s.srv s.clock).1
      cleaner := (s.cleaner.step env s.srv s.clock).2 }
  | .delPeer key => { s with srv := s.srv.removeRoute key }
  | .administer rooms aliases => { s with srv := { s.srv with rooms := rooms, aliases := aliases } }

/-- The random nonce of a refusal is a new one. -/
def FreshNonce (s : Workers Ct) (key : RawKey) (random : Nonce) : Prop :=
  (∀ seq, random ≠ sessionNonce seq 1) ∧ ∀ y ∈ s.sent, y.key = key → y.nonce ≠ random

/-- A worker takes a datagram when it has none, and the random values are new. -/
def enabled (env : SignalingEnv Ct) (n : Nat) (s : Workers Ct) : WorkerEvent Ct → Prop
  | .tick now => s.clock ≤ now
  | .receive f src d =>
    s.tasks (shardIndex src n) = .idle ∧
      ∀ p ∈ (s.srv.handleSignaling env f src d).2.issued, ∀ q ∈ s.keys, q.1 ≠ p.1
  | .relay _ src => s.tasks (shardIndex src n) = .idle
  | .work w random =>
    s.tasks w ≠ .idle ∧ ∀ v msg, s.tasks w = .answering v (.refused msg) → s.FreshNonce v.sk random
  | .revoke c _ _ => s.control c = .idle
  | .proceed c => s.control c ≠ .idle
  | _ => True

/-- A server that starts. -/
def start (clock : Nat) (mesh : MeshConfig) (rooms : List RoomEntry)
    (aliases : ExtTreeMap String String) : Workers Ct :=
  { clock := clock, srv := .start mesh rooms aliases }

/-- The server with `n` workers, over any interleaving. -/
def machine (env : SignalingEnv Ct) (n : Nat) : Machine (Workers Ct) (WorkerEvent Ct) where
  init s := ∃ clock mesh rooms aliases, s = start clock mesh rooms aliases
  enabled := enabled env n
  next := next env n

end Workers

-- ---------------------------------------------------------------------------
-- What a section can do
-- ---------------------------------------------------------------------------

namespace Signaling

variable {env : SignalingEnv Ct} {s : Signaling} {f : SignalFrame Ct} {src : SourceAddr}
  {d : SignalDraw} {k : RawKey} {e entry : SessionEntry} {now : Nat}

/-- What a datagram does that is not a session request. -/
structure Handshake (env : SignalingEnv Ct) (s s' : Signaling) (f : SignalFrame Ct)
    (outcome : SignalOutcome Ct) : Prop where
  crl : s'.mesh.crl = s.mesh.crl
  routes : s'.routes = s.routes ∨
    f.sender ∉ s.sessions ∧ StaticBye env f ∧ s'.routes = s.routes.remove f.sender
  sessions : ∀ (k : RawKey) e, s'.sessions[k]? = some e →
    s.sessions[k]? = some e ∨ ∃ resp, outcome = .auth (.accepted e resp) ∧ k = e.sessionPub

theorem handshake_of_eq {s' : Signaling} {outcome : SignalOutcome Ct}
    (hCrl : s'.mesh.crl = s.mesh.crl) (hRoutes : s'.routes = s.routes)
    (hSessions : s'.sessions = s.sessions) : Handshake env s s' f outcome where
  crl := hCrl
  routes := .inl hRoutes
  sessions k e hEntry := by
    rw [hSessions] at hEntry
    exact .inl hEntry

theorem handleSignaling_handshake (env : SignalingEnv Ct) (src : SourceAddr) (d : SignalDraw)
    (h : ¬ (f.msgType ≠ msgKeyquery ∧ f.sender ∈ s.sessions)) :
    Handshake env s (s.handleSignaling env f src d).1 f (s.handleSignaling env f src d).2 := by
  rcases handleSignaling_cases env s f src d with ⟨hSession, hKind⟩ | ⟨hFree, ab, hCarries⟩ | hBypass
  · exact absurd ⟨hKind, hSession⟩ h
  · rw [handleSignaling_auth src d hCarries hFree]
    rcases handleAuth_cases env s f.sender ab src d.auth with
      ⟨⟨r, hEq⟩, _⟩ | ⟨r, nonce, _, hEq, _⟩ | ⟨room, nonce, ekC, hAdmits, hEq⟩
    · rw [hEq]
      exact handshake_of_eq rfl rfl rfl
    · obtain ⟨ring, hReplay⟩ := replayCheck_frame s f.sender nonce
      rw [hEq, hReplay]
      exact handshake_of_eq rfl rfl rfl
    · rw [hEq]
      refine ⟨?_, .inl afterAuth_routes, fun k e hEntry => ?_⟩
      · show (s.afterAuth env f.sender src d.auth nonce _).mesh.crl = _
        rw [afterAuth_mesh]
      · rw [afterAuth_sessions, register_getElem?] at hEntry
        split at hEntry
        · rename_i hKey
          cases hEntry
          exact .inr ⟨_, rfl, hKey⟩
        · exact .inl (afterCaps_sub hEntry)
  · rcases hBypass.change with ⟨r, members, invites, hEq⟩ | ⟨hBye, hEq⟩
    · rw [hEq]
      exact handshake_of_eq rfl rfl rfl
    · have hFree : f.sender ∉ s.sessions := by
        intro hSession
        exact h ⟨by rw [hBye.kind]; decide, hSession⟩
      rw [hEq]
      exact ⟨rfl, .inr ⟨hFree, hBye, rfl⟩, fun k e hEntry => .inl hEntry⟩

/-- A session starts with counter 0, for a device that is not revoked. -/
theorem accepted_entry {resp : Except String AuthRespBody}
    (h : (s.handleSignaling env f src d).2 = .auth (.accepted entry resp)) :
    entry.counterRx = 0 ∧ s.mesh.isRevoked entry.deviceId = false := by
  obtain ⟨_, ab, room, nonce, ekC, _, hAdmits, rfl, _⟩ := accepts_iff.mp h
  obtain ⟨_, _, _, _, _, _, _, hCrl, _⟩ := authChecks_eq_ok.mp hAdmits.checks
  exact ⟨rfl, hCrl⟩

/-- No session, route or entry of the revocation list is new. -/
structure Shrinks (s s' : Signaling) : Prop where
  crl : s'.mesh.crl = s.mesh.crl
  routes : ∀ k, k ∈ s'.routes.byKey → k ∈ s.routes.byKey
  sessions : ∀ (k : RawKey) e, s'.sessions[k]? = some e → s.sessions[k]? = some e

theorem Shrinks.refl (s : Signaling) : Shrinks s s := ⟨rfl, fun _ h => h, fun _ _ h => h⟩

theorem shrinks_removeRoute (s : Signaling) (key : RawKey) : Shrinks s (s.removeRoute key) where
  crl := rfl
  routes _ h := (RouteTable.mem_remove.mp h).2
  sessions _ _ h := h

theorem shrinks_removeSession (s : Signaling) (key : RawKey) : Shrinks s (s.removeSession key) where
  crl := rfl
  routes _ h := h
  sessions _ _ h := (of_getElem?_erase h).2

theorem shrinks_removeSessions (s : Signaling) (keys : List RawKey) :
    Shrinks s (s.removeSessions keys) where
  crl := rfl
  routes _ h := h
  sessions _ _ h := (of_getElem?_eraseAll h).2

theorem shrinks_cleanupRoutes (env : SignalingEnv Ct) (s : Signaling) (now : Nat) :
    Shrinks s (s.cleanupRoutes env now) where
  crl := rfl
  routes _ h := (RouteTable.mem_foldl_remove.mp h).2
  sessions _ _ h := h

/-- Storing an entry again under the key it has. -/
theorem shrinks_registerRoute {old new : RouteEntry} (hOld : s.routes.get new.publicKey = some old) :
    Shrinks s (s.registerRoute new) where
  crl := rfl
  routes k h := by
    rcases RouteTable.mem_of_mem_upsert h with rfl | hMem
    · exact mem_iff.mpr ⟨old, hOld⟩
    · exact hMem
  sessions _ _ h := h

end Signaling

/-- A QUERY knows its IP after the table of aliases, or has to search the routes. -/
theorem Task.lookup_cases (env : SignalingEnv Ct) (srv : Signaling) (v : SessionView)
    (qb : QueryBody) :
    (∃ ip, (lookup env srv v qb : Task Ct) = .resolved v qb ip) ∨
      ∃ name, (lookup env srv v qb : Task Ct) = .searching v qb name := by
  unfold lookup
  split
  · exact .inl ⟨_, rfl⟩
  · dsimp only
    split
    · exact .inl ⟨_, rfl⟩
    · split
      · exact .inl ⟨_, rfl⟩
      · exact .inr ⟨_, rfl⟩

/-- A worker that looks its frame's session up drops the frame, or has opened it
with the session that it found. -/
theorem Task.dispatched_cases (env : SignalingEnv Ct) (srv : Signaling) (now : Nat) (f : SignalFrame Ct)
    (src : SourceAddr) :
    (dispatched f src).step env srv now = (srv, .idle) ∨
      ∃ e plaintext, srv.sessions[f.sender]? = some e ∧ e.view.openFrame env f.payload = some plaintext ∧
        (dispatched f src).step env srv now = (srv, .opened f src e.view plaintext) := by
  unfold step
  dsimp only
  split
  · exact .inl rfl
  · rename_i e hEntry
    split
    · exact .inl rfl
    · rename_i plaintext hOpen
      exact .inr ⟨e, plaintext, hEntry, hOpen, rfl⟩

theorem Task.step_dispatched (env : SignalingEnv Ct) (srv : Signaling) (now : Nat) (f : SignalFrame Ct)
    (src : SourceAddr) : ((dispatched f src).step env srv now).1 = srv := by
  rcases dispatched_cases env srv now f src with hEq | ⟨e, plaintext, _, _, hEq⟩
  · rw [hEq]
  · rw [hEq]

/-- A section of a worker moves a counter on, registers a route, or adds nothing
to the tables. -/
theorem Task.step_cases (env : SignalingEnv Ct) (srv : Signaling) (now : Nat) (t : Task Ct) :
    (∃ f src v plaintext, t = .opened f src v plaintext) ∨
    (∃ sender src v relayRk aliasName, t = .committed sender src v (.register relayRk aliasName)) ∨
    Signaling.Shrinks srv (t.step env srv now).1 := by
  cases t with
  | opened f src v plaintext => exact .inl ⟨f, src, v, plaintext, rfl⟩
  | dispatched f src =>
    refine .inr (.inr ?_)
    rw [step_dispatched]
    exact .refl srv
  | relaying srcKey =>
    refine .inr (.inr ?_)
    show Signaling.Shrinks srv (srv.refreshRoute srcKey now)
    unfold Signaling.refreshRoute
    split
    · rename_i e hOld
      exact Signaling.shrinks_registerRoute hOld
    · exact .refl srv
  | committed sender src v plan =>
    cases plan with
    | register relayRk aliasName => exact .inr (.inl ⟨sender, src, v, relayRk, aliasName, rfl⟩)
    | bye => exact .inr (.inr (Signaling.shrinks_removeRoute srv v.ikX))
    | heartbeat =>
      refine .inr (.inr ?_)
      show Signaling.Shrinks srv (srv.heartbeatRoute env v src now)
      unfold Signaling.heartbeatRoute
      split
      · rename_i e hOld
        exact Signaling.shrinks_registerRoute hOld
      · exact .refl srv
    | fail => exact .inr (.inr (.refl srv))
    | refuse => exact .inr (.inr (.refl srv))
    | query => exact .inr (.inr (.refl srv))
    | unsupported => exact .inr (.inr (.refl srv))
  | unrouted sender v => exact .inr (.inr (Signaling.shrinks_removeSession srv sender))
  | left v => exact .inr (.inr ⟨rfl, fun _ h => h, fun _ _ h => h⟩)
  | idle => exact .inr (.inr (.refl srv))
  | searching => exact .inr (.inr (.refl srv))
  | resolved => exact .inr (.inr (.refl srv))
  | answering => exact .inr (.inr (.refl srv))

theorem Revocation.step_shrinks (srv : Signaling) (r : Revocation) :
    Signaling.Shrinks srv (r.step srv).1 := by
  match r with
  | .idle => exact .refl srv
  | .listed deviceId => exact Signaling.shrinks_removeSessions srv _
  | .kicked deviceId keys => exact ⟨rfl, fun _ h => h, fun _ _ h => h⟩
  | .clearing deviceId (key :: keys) => exact Signaling.shrinks_removeRoute srv key
  | .clearing deviceId [] => exact .refl srv

theorem Cleaner.step_shrinks (env : SignalingEnv Ct) (srv : Signaling) (clock : Nat) (c : Cleaner) :
    Signaling.Shrinks srv (c.step env srv clock).1 := by
  match c with
  | .idle => exact .refl srv
  | .started now => exact Signaling.shrinks_cleanupRoutes env srv now
  | .routesCleaned now => exact ⟨rfl, fun _ h => h, fun _ _ h => h⟩
  | .pruned now => exact .refl srv
  | .sweeping now (key :: keys) =>
    unfold Cleaner.step
    dsimp only
    split
    · exact Signaling.shrinks_removeSession srv key
    · exact .refl srv
  | .sweeping now [] => exact ⟨rfl, fun _ h => h, fun _ _ h => h⟩
  | .unseating now ikX keys => exact Signaling.shrinks_removeRoute srv ikX

namespace Workers

variable {env : SignalingEnv Ct} {n : Nat} {s : Workers Ct} {ev : WorkerEvent Ct} {k : RawKey}
  {e' : SessionEntry}

theorem setTask_tasks {w w' : Nat} {t : Task Ct} :
    (s.setTask w t).tasks w' = if w' = w then t else s.tasks w' := Function.update_apply ..

/-- A datagram that is taken changes the tables, the tasks and the keys at most. -/
theorem next_receive_frame (env : SignalingEnv Ct) (n : Nat) (s : Workers Ct) (f : SignalFrame Ct)
    (src : SourceAddr) (d : SignalDraw) :
    ∃ srv tasks keys, s.next env n (.receive f src d) =
      { s with srv := srv, tasks := tasks, keys := keys } := by
  unfold next
  dsimp only
  split
  · exact ⟨_, _, _, rfl⟩
  · exact ⟨_, _, _, rfl⟩

/-- A relayed packet that is taken changes the tasks at most. -/
theorem next_relay_frame (env : SignalingEnv Ct) (n : Nat) (s : Workers Ct) (srcKey : RawKey)
    (src : SourceAddr) : ∃ tasks, s.next env n (.relay srcKey src) = { s with tasks := tasks } := by
  unfold next
  dsimp only
  split
  · exact ⟨_, rfl⟩
  · exact ⟨_, rfl⟩

/-- Where a session in the table comes from after a step. -/
inductive SessionOrigin (env : SignalingEnv Ct) (s : Workers Ct) (ev : WorkerEvent Ct) (k : RawKey)
    (e' : SessionEntry) : Prop where
  | kept : s.srv.sessions[k]? = some e' → SessionOrigin env s ev k e'
  | committed {w : Nat} {random : Nonce} {f : SignalFrame Ct} {src : SourceAddr} {v : SessionView}
    {plaintext : Bytes} {e : SessionEntry} :
    ev = .work w random → s.tasks w = .opened f src v plaintext → k = f.sender →
    s.srv.sessions[k]? = some e → e' = { e with counterRx := v.nextSeq, lastSeen := s.clock } →
    SessionOrigin env s ev k e'
  | registered {f : SignalFrame Ct} {src : SourceAddr} {d : SignalDraw}
    {resp : Except String AuthRespBody} :
    ev = .receive f src d → (s.srv.handleSignaling env f src d).2 = .auth (.accepted e' resp) →
    k = e'.sessionPub → SessionOrigin env s ev k e'

theorem next_sessions (h : (s.next env n ev).srv.sessions[k]? = some e') :
    SessionOrigin env s ev k e' := by
  cases ev with
  | receive f src d =>
    unfold next at h
    dsimp only at h
    split at h
    · exact .kept h
    · rename_i hHandshake
      rcases (Signaling.handleSignaling_handshake env src d hHandshake).sessions k e' h with
        hOld | ⟨resp, hAccepted, hKey⟩
      · exact .kept hOld
      · exact .registered rfl hAccepted hKey
  | relay srcKey src =>
    obtain ⟨tasks, hEq⟩ := next_relay_frame env n s srcKey src
    rw [hEq] at h
    exact .kept h
  | work w random =>
    change ((s.tasks w).step env s.srv s.clock).1.sessions[k]? = some e' at h
    rcases (s.tasks w).step_cases env s.srv s.clock with
      ⟨f, src, v, plaintext, hTask⟩ | ⟨sender, src, v, relayRk, aliasName, hTask⟩ | hShrinks
    · rw [hTask] at h
      change (s.srv.commitCounter f.sender v.nextSeq s.clock).sessions[k]? = some e' at h
      rw [Signaling.commitCounter_getElem?] at h
      split at h
      · rename_i hKey
        obtain ⟨e, hOld, hNew⟩ := Option.map_eq_some_iff.mp h
        exact .committed rfl hTask hKey hOld hNew.symm
      · exact .kept h
    · rw [hTask] at h
      exact .kept h
    · exact .kept (hShrinks.sessions k e' h)
  | proceed c => exact .kept (((s.control c).step_shrinks s.srv).sessions k e' h)
  | clean => exact .kept ((s.cleaner.step_shrinks env s.srv s.clock).sessions k e' h)
  | tick => exact .kept h
  | revoke => exact .kept h
  | delPeer => exact .kept h
  | administer => exact .kept h

/-- A route that was not there before the step was registered. -/
theorem next_routes (h : k ∈ (s.next env n ev).srv.routes.byKey) :
    k ∈ s.srv.routes.byKey ∨
      ∃ w random d, ev = .work w random ∧ (s.tasks w).registers = some (k, d) := by
  cases ev with
  | receive f src d =>
    unfold next at h
    dsimp only at h
    split at h
    · exact .inl h
    · rename_i hHandshake
      change k ∈ (s.srv.handleSignaling env f src d).1.routes.byKey at h
      rcases (Signaling.handleSignaling_handshake env src d hHandshake).routes with
        hEq | ⟨_, _, hEq⟩
      · rw [hEq] at h
        exact .inl h
      · rw [hEq] at h
        exact .inl (RouteTable.mem_remove.mp h).2
  | relay srcKey src =>
    obtain ⟨tasks, hEq⟩ := next_relay_frame env n s srcKey src
    rw [hEq] at h
    exact .inl h
  | work w random =>
    change k ∈ ((s.tasks w).step env s.srv s.clock).1.routes.byKey at h
    rcases (s.tasks w).step_cases env s.srv s.clock with
      ⟨f, src, v, plaintext, hTask⟩ | ⟨sender, src, v, relayRk, aliasName, hTask⟩ | hShrinks
    · rw [hTask] at h
      change k ∈ (s.srv.commitCounter f.sender v.nextSeq s.clock).routes.byKey at h
      rw [Signaling.commitCounter_routes] at h
      exact .inl h
    · rw [hTask] at h
      change k ∈ (s.srv.routes.upsert (registerEntry env v src s.clock relayRk aliasName)).byKey at h
      rcases RouteTable.mem_of_mem_upsert h with rfl | hOld
      · exact .inr ⟨w, random, v.deviceId, rfl, by rw [hTask]; rfl⟩
      · exact .inl hOld
    · exact .inl (hShrinks.routes k h)
  | proceed c => exact .inl (((s.control c).step_shrinks s.srv).routes k h)
  | clean => exact .inl ((s.cleaner.step_shrinks env s.srv s.clock).routes k h)
  | delPeer key => exact .inl (RouteTable.mem_remove.mp h).2
  | tick => exact .inl h
  | revoke => exact .inl h
  | administer => exact .inl h

/-- A frame is opened by a worker that read the session. -/
theorem Task.step_opened {t : Task Ct} {srv : Signaling} {now : Nat} {f : SignalFrame Ct}
    {src : SourceAddr} {v : SessionView} {plaintext : Bytes}
    (h : (t.step env srv now).2 = .opened f src v plaintext) :
    t = .dispatched f src ∧ ∃ e, srv.sessions[f.sender]? = some e ∧ v = e.view ∧
      e.view.openFrame env f.payload = some plaintext := by
  cases t with
  | dispatched f' src' =>
    rcases Task.dispatched_cases env srv now f' src' with hEq | ⟨e, pt, hEntry, hOpen, hEq⟩
    · rw [hEq] at h
      cases h
    · rw [hEq] at h
      cases h
      exact ⟨rfl, e, hEntry, rfl, hOpen⟩
  | committed sender src' v' plan =>
    cases plan with
    | query qb =>
      change Task.lookup env srv v' qb = _ at h
      rcases Task.lookup_cases env srv v' qb with ⟨ip, hEq⟩ | ⟨name, hEq⟩
      · cases hEq.symm.trans h
      · cases hEq.symm.trans h
    | _ => cases h
  | _ => cases h

/-- Where a worker is after a step. -/
inductive TaskOrigin (env : SignalingEnv Ct) (s : Workers Ct) (ev : WorkerEvent Ct) (w : Nat) :
    Task Ct → Prop where
  | kept : TaskOrigin env s ev w (s.tasks w)
  | dispatched (f : SignalFrame Ct) (src : SourceAddr) : TaskOrigin env s ev w (.dispatched f src)
  | relaying (srcKey : RawKey) : TaskOrigin env s ev w (.relaying srcKey)
  | stepped {random : Nonce} : ev = .work w random →
    TaskOrigin env s ev w ((s.tasks w).step env s.srv s.clock).2

theorem next_tasks (env : SignalingEnv Ct) (n : Nat) (s : Workers Ct) (ev : WorkerEvent Ct) (w : Nat) :
    TaskOrigin env s ev w ((s.next env n ev).tasks w) := by
  cases ev with
  | receive f src d =>
    unfold next
    dsimp only
    split
    · rw [setTask_tasks]
      split
      · exact .dispatched f src
      · exact .kept
    · exact .kept
  | relay srcKey src =>
    unfold next
    dsimp only
    split
    · rw [setTask_tasks]
      split
      · exact .relaying srcKey
      · exact .kept
    · exact .kept
  | work w' random =>
    show TaskOrigin env s _ w (Function.update s.tasks w' _ w)
    rw [Function.update_apply]
    split
    · rename_i hWorker
      rw [← hWorker]
      exact .stepped rfl
    · exact .kept
  | tick => exact .kept
  | revoke => exact .kept
  | proceed => exact .kept
  | clean => exact .kept
  | delPeer => exact .kept
  | administer => exact .kept

theorem next_opened {w : Nat} {f : SignalFrame Ct} {src : SourceAddr} {v : SessionView}
    {plaintext : Bytes} (h : (s.next env n ev).tasks w = .opened f src v plaintext) :
    s.tasks w = .opened f src v plaintext ∨
      ∃ random e, ev = .work w random ∧ s.tasks w = .dispatched f src ∧
        s.srv.sessions[f.sender]? = some e ∧ v = e.view ∧
        e.view.openFrame env f.payload = some plaintext := by
  have hOrigin := next_tasks env n s ev w
  rw [h] at hOrigin
  generalize hTask : Task.opened f src v plaintext = t at hOrigin
  cases hOrigin with
  | kept => exact .inl rfl
  | dispatched => cases hTask
  | relaying => cases hTask
  | @stepped random hEv =>
    obtain ⟨hDispatched, e, hEntry, hView, hOpen⟩ := Task.step_opened hTask.symm
    exact .inr ⟨random, e, hEv, hDispatched, hEntry, hView, hOpen⟩

/-- A device stays on the revocation list. -/
theorem next_isRevoked {d : String} (h : s.srv.mesh.isRevoked d) :
    (s.next env n ev).srv.mesh.isRevoked d := by
  have hSame : ∀ {mesh : MeshConfig}, mesh.crl = s.srv.mesh.crl → mesh.isRevoked d = true := by
    intro mesh hCrl
    unfold MeshConfig.isRevoked
    rw [hCrl]
    exact h
  cases ev with
  | receive f src draw =>
    unfold next
    dsimp only
    split
    · exact h
    · rename_i hHandshake
      exact hSame (Signaling.handleSignaling_handshake env src draw hHandshake).crl
  | relay srcKey src =>
    obtain ⟨tasks, hEq⟩ := next_relay_frame env n s srcKey src
    rw [hEq]
    exact h
  | work w random =>
    show ((s.tasks w).step env s.srv s.clock).1.mesh.isRevoked d
    rcases (s.tasks w).step_cases env s.srv s.clock with
      ⟨f, src, v, plaintext, hTask⟩ | ⟨sender, src, v, relayRk, aliasName, hTask⟩ | hShrinks
    · rw [hTask]
      show (s.srv.commitCounter f.sender v.nextSeq s.clock).mesh.isRevoked d
      obtain ⟨m, hEq⟩ := Signaling.commitCounter_frame s.srv f.sender v.nextSeq s.clock
      rw [hEq]
      exact h
    · rw [hTask]
      exact h
    · exact hSame hShrinks.crl
  | revoke c deviceId reason => exact MeshConfig.isRevoked_revoke h
  | proceed c => exact hSame ((s.control c).step_shrinks s.srv).crl
  | clean => exact hSame (s.cleaner.step_shrinks env s.srv s.clock).crl
  | tick => exact h
  | delPeer => exact h
  | administer => exact h

-- ---------------------------------------------------------------------------
-- Steps of one worker
-- ---------------------------------------------------------------------------

variable {G : Workers Ct → WorkerEvent Ct → Prop} {w : Nat} {random : Nonce} {f : SignalFrame Ct}
  {src : SourceAddr} {v : SessionView} {plaintext : Bytes} {t : Task Ct}

/-- A section that sends, commits to and registers nothing. -/
theorem next_work_quiet (hTask : s.tasks w = t) (hExecutes : t.executes = [])
    (hSeals : t.seals env random = []) (hRegisters : t.registers = none) :
    s.next env n (.work w random) =
      { s with
        srv := (t.step env s.srv s.clock).1
        tasks := Function.update s.tasks w (t.step env s.srv s.clock).2 } := by
  unfold next
  simp only [hTask, hExecutes, hSeals, hRegisters, List.append_nil]

theorem reach_next {s' : Workers Ct} (ev : WorkerEvent Ct) (h : (machine env n).Reach G s)
    (hEnabled : enabled env n s ev) (hGuard : G s ev) (hNext : s.next env n ev = s') :
    (machine env n).Reach G s' := by
  rw [← hNext]
  exact h.step hEnabled hGuard

/-- A worker with a task other than an answer can always go on. -/
theorem enabled_work (hTask : s.tasks w = t) (hBusy : t ≠ .idle)
    (hAnswer : ∀ v msg, t ≠ .answering v (.refused msg)) : enabled env n s (.work w random) := by
  refine ⟨?_, fun v msg hEq => ?_⟩
  · rw [hTask]
    exact hBusy
  · rw [hTask] at hEq
    exact absurd hEq (hAnswer v msg)

/-- A device authenticates. -/
theorem reach_auth {ab : AuthBody} {d : SignalDraw} {room : String} {nonce : Bytes} {ekC : RawKey}
    (h : (machine env n).Reach G s) (hIdle : s.tasks (shardIndex src n) = .idle)
    (hCarries : Signaling.CarriesAuth env f ab) (hFree : f.sender ∉ s.srv.sessions)
    (hAdmits : Signaling.Admits env s.srv f.sender ab src d.auth room nonce ekC)
    (hFresh : ∀ q ∈ s.keys, q.1 ≠ (Signaling.authEntry env f.sender ab d.auth room nonce ekC).sk)
    (hTake : G s (.receive f src d)) :
    (machine env n).Reach G
      { s with
        srv := s.srv.afterAuth env f.sender src d.auth nonce
          (Signaling.authEntry env f.sender ab d.auth room nonce ekC)
        keys := s.keys ++ [((Signaling.authEntry env f.sender ab d.auth room nonce ekC).sk, ekC)] } := by
  have hHandle := Signaling.handleSignaling_auth src d hCarries hFree
  rw [Signaling.handleAuth_of_admits hAdmits] at hHandle
  refine reach_next (.receive f src d) h ⟨hIdle, ?_⟩ hTake ?_
  · rw [hHandle]
    intro p hp q hq
    rw [List.mem_singleton.mp hp]
    exact hFresh q hq
  · unfold next
    dsimp only
    rw [if_neg fun hSession => hFree hSession.2, hHandle]
    rfl

/-- A worker takes a frame of a live session and opens it. -/
theorem reach_opened {e : SessionEntry} (h : (machine env n).Reach G s) (src : SourceAddr)
    (d : SignalDraw) (hWorker : shardIndex src n = w) (hIdle : s.tasks w = .idle)
    (hKind : f.msgType ≠ msgKeyquery) (hEntry : s.srv.sessions[f.sender]? = some e)
    (hOpen : e.view.openFrame env f.payload = some plaintext) (hTake : G s (.receive f src d))
    (hRead : G (s.setTask w (.dispatched f src)) (.work w (0, 0))) :
    (machine env n).Reach G (s.setTask w (.opened f src e.view plaintext)) := by
  have hSession : f.sender ∈ s.srv.sessions := mem_iff.mpr ⟨e, hEntry⟩
  have hEnabled : enabled env n s (.receive f src d) := by
    refine ⟨hWorker ▸ hIdle, ?_⟩
    rw [Signaling.handleSignaling_session d hKind hSession]
    exact fun p hp => absurd hp List.not_mem_nil
  have hTaken : s.next env n (.receive f src d) = s.setTask w (.dispatched f src) := by
    unfold next
    dsimp only
    rw [if_pos ⟨hKind, hSession⟩, hWorker]
  have hTask : (s.setTask w (.dispatched f src)).tasks w = .dispatched f src :=
    Function.update_self ..
  have hSection : (Task.dispatched f src).step env s.srv s.clock =
      (s.srv, .opened f src e.view plaintext) := by
    unfold Task.step
    simp only [hEntry, hOpen]
  have hOpened : (s.setTask w (.dispatched f src)).next env n (.work w (0, 0)) =
      s.setTask w (.opened f src e.view plaintext) := by
    rw [next_work_quiet hTask rfl rfl rfl]
    dsimp only [setTask]
    rw [hSection, Function.update_idem]
  refine reach_next _ (reach_next _ h hEnabled hTake hTaken) ?_ hRead hOpened
  exact enabled_work hTask (fun hEq => by cases hEq) fun v msg hEq => by cases hEq

/-- The state after a worker has moved the counter on. -/
def afterCommit (env : SignalingEnv Ct) (s : Workers Ct) (w : Nat) (f : SignalFrame Ct)
    (src : SourceAddr) (v : SessionView) (plaintext : Bytes) : Workers Ct :=
  { s with
    srv := s.srv.commitCounter f.sender v.nextSeq s.clock
    tasks := Function.update s.tasks w
      (.committed f.sender src v (planRequest env v f.msgType plaintext))
    executed := s.executed ++ [{ frame := f, sk := v.sk, seq := v.nextSeq }] }

theorem afterCommit_tasks {w' : Nat} :
    (s.afterCommit env w f src v plaintext).tasks w' =
      if w' = w then .committed f.sender src v (planRequest env v f.msgType plaintext)
      else s.tasks w' :=
  Function.update_apply ..

theorem reach_afterCommit (h : (machine env n).Reach G s)
    (hTask : s.tasks w = .opened f src v plaintext) (hCommit : G s (.work w (0, 0))) :
    (machine env n).Reach G (s.afterCommit env w f src v plaintext) := by
  refine reach_next _ h (enabled_work hTask (fun hEq => by cases hEq)
    fun v msg hEq => by cases hEq) hCommit ?_
  unfold next afterCommit
  simp only [hTask, Task.seals, Task.registers, Task.executes, Task.step, List.append_nil]

/-- The state after a worker has registered a route. -/
def afterRegister (env : SignalingEnv Ct) (s : Workers Ct) (w : Nat) (src : SourceAddr)
    (v : SessionView) (relayRk aliasName : Option String) : Workers Ct :=
  { s with
    srv := s.srv.registerRoute (registerEntry env v src s.clock relayRk aliasName)
    tasks := Function.update s.tasks w (.answering v (.reply .okEmpty))
    registrant := s.registrant.insert v.ikX v.deviceId }

theorem afterRegister_tasks {relayRk aliasName : Option String} {w' : Nat} :
    (s.afterRegister env w src v relayRk aliasName).tasks w' =
      if w' = w then .answering v (.reply .okEmpty) else s.tasks w' :=
  Function.update_apply ..

theorem reach_afterRegister {sender : RawKey} {relayRk aliasName : Option String}
    (h : (machine env n).Reach G s)
    (hTask : s.tasks w = .committed sender src v (.register relayRk aliasName))
    (hGuard : G s (.work w (0, 0))) :
    (machine env n).Reach G (s.afterRegister env w src v relayRk aliasName) := by
  refine reach_next _ h (enabled_work hTask (fun hEq => by cases hEq)
    fun v msg hEq => by cases hEq) hGuard ?_
  unfold next afterRegister
  simp only [hTask, Task.seals, Task.registers, Task.executes, Task.step, Signaling.execute,
    List.append_nil]

/-- The state after a worker has answered. -/
def afterReply (env : SignalingEnv Ct) (s : Workers Ct) (w : Nat) (v : SessionView)
    (body : ResponseBody) : Workers Ct :=
  { s with
    tasks := Function.update s.tasks w .idle
    sent := s.sent ++ (Task.answering v (.reply body) : Task Ct).seals env (0, 0) }

theorem afterReply_tasks {body : ResponseBody} {w' : Nat} :
    (s.afterReply env w v body).tasks w' = if w' = w then .idle else s.tasks w' :=
  Function.update_apply ..

theorem reach_afterReply {body : ResponseBody} (h : (machine env n).Reach G s)
    (hTask : s.tasks w = .answering v (.reply body)) (hGuard : G s (.work w (0, 0))) :
    (machine env n).Reach G (s.afterReply env w v body) := by
  refine reach_next _ h (enabled_work hTask (fun hEq => by cases hEq)
    fun v msg hEq => by cases hEq) hGuard ?_
  unfold next afterReply
  simp only [hTask, Task.registers, Task.executes, Task.step, List.append_nil]

end Workers

-- ---------------------------------------------------------------------------
-- Sample runs
-- ---------------------------------------------------------------------------

/-- A frame of the session of `e`, sealed under the counter that is due. -/
def sampleRequest (e : SessionEntry) (msgType : Nat) (plaintext : Bytes) :
    SignalFrame (RawKey × Nonce × Bytes) :=
  { msgType := msgType
    sender := e.sessionPub
    payload := sampleCrypto.encryptWithNonce e.sk (sessionNonce (e.counterRx + 1) 0) plaintext }

theorem sampleRequest_opens (e : SessionEntry) (msgType : Nat) (plaintext : Bytes) :
    e.view.openFrame sampleServerEnv (sampleRequest e msgType plaintext).payload = some plaintext :=
  (sampleCrypto_lawful.decryptWithNonce_encrypt ..).trans (if_pos ⟨rfl, rfl⟩)

/-- What device 2 registers. -/
def sampleRegistration : RegisterBody :=
  { ip := "10.13.13.2", relayRk := none, token := none, aliasName := none }

def sampleRegistrationBytes : Bytes := (encodeRegister sampleRegistration).toOption.getD []

theorem decode_sampleRegistration :
    decodeRegister sampleRegistrationBytes = .ok sampleRegistration := by
  have hIp : wireStrSet ipLen "10.13.13.2" = .ok (utf8 "10.13.13.2" ++ List.replicate 38 0) :=
    wireStrSet_ok (by decide +kernel) (by decide +kernel)
  have hEncodes : ∃ body, encodeRegister sampleRegistration = .ok body :=
    exists_bind_ok hIp (exists_bind_ok rfl (exists_bind_ok rfl (exists_bind_ok rfl ⟨_, rfl⟩)))
  obtain ⟨body, hBody⟩ := hEncodes
  unfold sampleRegistrationBytes
  rw [hBody]
  exact decodeRegister_encodeRegister (fun _ hRk => by cases hRk) hBody

theorem plan_sampleRegistration {v : SessionView} (hIp : sampleRegistration.ip = v.ip) :
    planRequest sampleServerEnv v msgRegister sampleRegistrationBytes = .register none none := by
  unfold planRequest
  rw [if_pos rfl, decode_sampleRegistration]
  dsimp only
  rw [if_neg (not_not_intro hIp)]
  rfl

def sampleSource (port : Nat) : SourceAddr := { octets := [192, 0, 2, 1], port := port }

/-- The worker, one of two, of a sample source. -/
def sampleWorker (port : Nat) : Nat := shardIndex (sampleSource port) (defaultWorkerCount (some 2))

theorem sampleSource_shard (port : Nat) :
    shardIndex (sampleSource port) (defaultWorkerCount (some 2)) = sampleWorker port := rfl

theorem sampleWorker_ne : sampleWorker 4000 ≠ sampleWorker 4001 := by
  decide +kernel

namespace Workers

/-- The sample server with two workers. -/
def sampleMachine :
    Machine (Workers (RawKey × Nonce × Bytes)) (WorkerEvent (RawKey × Nonce × Bytes)) :=
  machine sampleServerEnv (defaultWorkerCount (some 2))

/-- The sample devices authenticate. -/
theorem reach_sampleAuth {G : Workers (RawKey × Nonce × Bytes) → WorkerEvent _ → Prop}
    {s : Workers (RawKey × Nonce × Bytes)} {i ekC ekS : RawKey} {timestamp m now : Nat}
    (h : sampleMachine.Reach G s) (hIdle : ∀ w, s.tasks w = .idle) (hDevice : i = 2 ∨ i = 3)
    (hTime : timestamp < 256 ^ 8) (hFree : i ∉ s.srv.sessions)
    (hAdmits : Signaling.Admits sampleServerEnv s.srv i (sampleAuth i ekC timestamp m) sampleSrc
      (sampleAuthDraw now ekS) "default" (Layout.beBytes 12 m) ekC)
    (hFresh : ∀ q ∈ s.keys, q.1 ≠ (sampleEntry i ekC ekS timestamp m now).sk)
    (hTake : G s (.receive (sampleAuthFrame i ekC timestamp m) sampleSrc (sampleSignalDraw now ekS))) :
    sampleMachine.Reach G
      { s with
        srv := sampleAdd s.srv i ekC ekS timestamp m now
        keys := s.keys ++ [((sampleEntry i ekC ekS timestamp m now).sk, ekC)] } :=
  reach_auth (d := sampleSignalDraw now ekS) h (hIdle _) (sampleAuthFrame_carries ekC m hDevice hTime)
    hFree hAdmits hFresh hTake

section

variable {G : Workers (RawKey × Nonce × Bytes) → WorkerEvent (RawKey × Nonce × Bytes) → Prop}
  {s : Workers (RawKey × Nonce × Bytes)} {e : SessionEntry} {msgType port w : Nat} {plaintext : Bytes}
  {k : RawKey}

/-- The worker of a sample source has moved the counter on for the next request
of a session. -/
def sampleCommitted (s : Workers (RawKey × Nonce × Bytes)) (e : SessionEntry) (msgType : Nat)
    (plaintext : Bytes) (port : Nat) : Workers (RawKey × Nonce × Bytes) :=
  (s.setTask (sampleWorker port) (.opened (sampleRequest e msgType plaintext) (sampleSource port)
    e.view plaintext)).afterCommit sampleServerEnv (sampleWorker port)
      (sampleRequest e msgType plaintext) (sampleSource port) e.view plaintext

theorem sampleCommitted_task :
    (sampleCommitted s e msgType plaintext port).tasks (sampleWorker port) =
      .committed e.sessionPub (sampleSource port) e.view
        (planRequest sampleServerEnv e.view msgType plaintext) :=
  afterCommit_tasks.trans (if_pos rfl)

theorem sampleCommitted_other (h : w ≠ sampleWorker port) :
    (sampleCommitted s e msgType plaintext port).tasks w = s.tasks w :=
  afterCommit_tasks.trans ((if_neg h).trans (setTask_tasks.trans (if_neg h)))

theorem sampleCommitted_sessions :
    (sampleCommitted s e msgType plaintext port).srv.sessions[k]? =
      if k = e.sessionPub then
        s.srv.sessions[k]?.map fun e' => { e' with counterRx := e.counterRx + 1, lastSeen := s.clock }
      else s.srv.sessions[k]? :=
  Signaling.commitCounter_getElem?

theorem sampleCommitted_routes :
    (sampleCommitted s e msgType plaintext port).srv.routes = s.srv.routes :=
  Signaling.commitCounter_routes

theorem reach_sampleCommitted (h : sampleMachine.Reach G s)
    (hIdle : s.tasks (sampleWorker port) = .idle) (hKind : msgType ≠ msgKeyquery) (hEntry : s.srv.sessions[e.sessionPub]? = some e)
    (hTake : G s (.receive (sampleRequest e msgType plaintext) (sampleSource port)
      (sampleSignalDraw 0 11)))
    (hWork : ∀ t, (∀ sender src v plan, t ≠ .committed sender src v plan) →
      G (s.setTask (sampleWorker port) t) (.work (sampleWorker port) (0, 0))) :
    sampleMachine.Reach G (sampleCommitted s e msgType plaintext port) := by
  have hOpened := reach_opened h (sampleSource port) (sampleSignalDraw 0 11)
    (sampleSource_shard port) hIdle hKind hEntry (sampleRequest_opens _ _ _) hTake
    (hWork _ fun _ _ _ _ hEq => by cases hEq)
  exact reach_afterCommit hOpened (setTask_tasks.trans (if_pos rfl))
    (hWork _ fun _ _ _ _ hEq => by cases hEq)

/-- The worker of a sample source has stored the route of a session and has
answered. -/
def sampleRegistered (s : Workers (RawKey × Nonce × Bytes)) (v : SessionView) (port : Nat) :
    Workers (RawKey × Nonce × Bytes) :=
  (s.afterRegister sampleServerEnv (sampleWorker port) (sampleSource port) v none none).afterReply
    sampleServerEnv (sampleWorker port) v .okEmpty

theorem sampleRegistered_task {v : SessionView} :
    (sampleRegistered s v port).tasks (sampleWorker port) = .idle :=
  afterReply_tasks.trans (if_pos rfl)

theorem sampleRegistered_other {v : SessionView} (h : w ≠ sampleWorker port) :
    (sampleRegistered s v port).tasks w = s.tasks w :=
  afterReply_tasks.trans ((if_neg h).trans (afterRegister_tasks.trans (if_neg h)))

theorem reach_sampleRegistered {v : SessionView} {sender : RawKey} (h : sampleMachine.Reach G s)
    (hTask : s.tasks (sampleWorker port) =
      .committed sender (sampleSource port) v (.register none none))
    (hRegister : G s (.work (sampleWorker port) (0, 0)))
    (hReply : G (s.afterRegister sampleServerEnv (sampleWorker port) (sampleSource port) v none none)
      (.work (sampleWorker port) (0, 0))) :
    sampleMachine.Reach G (sampleRegistered s v port) :=
  reach_afterReply (reach_afterRegister h hTask hRegister) (afterRegister_tasks.trans (if_pos rfl))
    hReply

end

/-- Device 2 has a session under the ephemeral key 50. -/
def sampleSessionUp : Workers (RawKey × Nonce × Bytes) :=
  { start 0 sampleMesh [] ∅ with
    srv := sampleOneSession
    keys := [((sampleEntry 2 50 11 0 1 0).sk, 50)] }

theorem reach_sampleSessionUp {G : Workers (RawKey × Nonce × Bytes) → WorkerEvent _ → Prop}
    (hTake : G (start 0 sampleMesh [] ∅)
      (.receive (sampleAuthFrame 2 50 0 1) sampleSrc (sampleSignalDraw 0 11))) :
    sampleMachine.Reach G sampleSessionUp := by
  have hStart : sampleMachine.Reach G (start 0 sampleMesh [] ∅) :=
    .init ⟨0, sampleMesh, [], ∅, rfl⟩
  exact reach_sampleAuth hStart (fun _ => rfl) (.inl rfl) (by decide) ExtTreeMap.not_mem_empty
    (Signaling.sampleAuth_admits rfl rfl (.inl rfl) (by decide) (Nat.zero_le _) (by decide +kernel)
      (by decide))
    (fun q hq => absurd hq List.not_mem_nil) hTake

end Workers

end LinkMesh
