import LinkMesh.Server.MeshFile
import LinkMesh.Wire.Bodies

/-!
# KEYQUERY and its cache

`handle_keyquery` (`linkmesh-server/src/signaling.rs`): any number of requests for
the signed `ServerInfo`, in steps of their own between the other events of the
server. The version of the revocation list is read under the lock of the registry;
the cache is locked from the look into it to the store, and the registry from the
build to the store.

## Results

* `frame_decodes`  — a client reads the version off the frame.
* `keyquery_fresh` — no answer is older than its request.
-/

namespace LinkMesh

open Signaling

variable {Ct : Type}

-- ---------------------------------------------------------------------------
-- The frame
-- ---------------------------------------------------------------------------

/-- The payload of a SERVERINFO frame, and what it was encoded from. -/
structure ServerInfoFrame where
  info : ServerInfo
  payload : Bytes
  encoded : encodeServerInfoBody ⟨info⟩ = .ok payload

/-- The frame of a registry: built, signed and encoded. -/
def serverInfoFrame (env : SignalingEnv Ct) (m : MeshConfig) : Except String ServerInfoFrame :=
  match buildServerInfo env m with
  | .error e => .error e
  | .ok info =>
    match hEncode : encodeServerInfoBody ⟨info⟩ with
    | .error e => .error s!"序列化失败: {e}"
    | .ok payload => .ok ⟨info, payload, hEncode⟩

/-- What a client decodes has the version that was encoded. -/
theorem frame_decodes (f : ServerInfoFrame) (hRange : f.info.InRange) :
    ∃ info, decodeServerInfoBody f.payload = .ok ⟨info⟩ ∧ info.crlVersion = f.info.crlVersion := by
  have hRead := isCodec_serverInfoBody.round_trip (serverInfoBodyRecord_typed.mpr hRange) f.encoded
  rw [serverInfoBodyRecord_spell] at hRead
  exact ⟨f.info.respelled, hRead, rfl⟩

-- ---------------------------------------------------------------------------
-- Handlers
-- ---------------------------------------------------------------------------

/-- How far a request has come. `received` is the version in memory when it was
read. -/
inductive KeyqueryTask where
  | idle
  | received (received : Nat)
  /-- the version is read -/
  | versioned (received v : Nat)
  /-- the cache does not have it, and stays locked -/
  | missed (received v : Nat)
  /-- the frame is built; cache and registry are locked -/
  | built (received v : Nat) (f : ServerInfoFrame)

/-- An answer, and the registry as it was by then. -/
structure KeyqueryAnswer where
  received : Nat
  frame : ServerInfoFrame
  registry : MeshConfig

structure KeyqueryRun where
  server : Signaling
  /-- `serverinfo_cache` -/
  cache : Option (Nat × ServerInfoFrame) := none
  cacheHolder : Option Nat := none
  meshHolder : Option Nat := none
  task : Nat → KeyqueryTask := fun _ => .idle
  answers : List KeyqueryAnswer := []

inductive KeyqueryStep (Ct : Type) where
  | receive (i : Nat)
  | readVersion (i : Nat)
  | lookUp (i : Nat)
  | build (i : Nat)
  | store (i : Nat)
  | server (e : ServerEvent Ct)

def KeyqueryStep.Revokes : KeyqueryStep Ct → Prop
  | .server (.revoke _ _ _) => True
  | _ => False

/-- The version in memory when the request was read. -/
def KeyqueryTask.receivedAt : KeyqueryTask → Option Nat
  | .idle => none
  | .received r => some r
  | .versioned r _ => some r
  | .missed r _ => some r
  | .built r _ _ => some r

namespace KeyqueryRun

def setTask (d : KeyqueryRun) (i : Nat) (t : KeyqueryTask) : KeyqueryRun :=
  { d with task := Function.update d.task i t }

/-- The frame is sent, with no lock held. -/
def answer (d : KeyqueryRun) (i received : Nat) (f : ServerInfoFrame) : KeyqueryRun :=
  { d.setTask i .idle with answers := d.answers ++ [⟨received, f, d.server.mesh⟩] }

def next (env : SignalingEnv Ct) (d : KeyqueryRun) : KeyqueryStep Ct → KeyqueryRun
  | .receive i =>
    match d.task i with
    | .idle => d.setTask i (.received d.server.mesh.crl.version)
    | _ => d
  | .readVersion i =>
    match d.task i with
    | .received received => d.setTask i (.versioned received d.server.mesh.crl.version)
    | _ => d
  | .lookUp i =>
    match d.task i with
    | .versioned received v =>
      match d.cache.filter (·.1 = v) with
      | some (_, f) => d.answer i received f
      | none => { d.setTask i (.missed received v) with cacheHolder := some i }
    | _ => d
  | .build i =>
    match d.task i with
    | .missed received v =>
      match serverInfoFrame env d.server.mesh with
      | .ok f => { d.setTask i (.built received v f) with meshHolder := some i }
      -- no answer, and the locks are released
      | .error _ => { d.setTask i .idle with cacheHolder := none }
    | _ => d
  | .store i =>
    match d.task i with
    | .built received v f =>
      { d.answer i received f with cache := some (v, f), cacheHolder := none, meshHolder := none }
    | _ => d
  | .server e => { d with server := d.server.next env e }

/-- From any registry, with an empty cache. -/
def machine (env : SignalingEnv Ct) : Machine KeyqueryRun (KeyqueryStep Ct) where
  init d := ∃ s : Signaling, d = { server := s }
  enabled d
    | .readVersion _ => d.meshHolder = none
    | .lookUp _ => d.cacheHolder = none
    | .build _ => d.meshHolder = none
    | .server e => e.locksMesh = true → d.meshHolder = none
    | _ => True
  next := next env

@[simp] theorem machine_next (env : SignalingEnv Ct) (d : KeyqueryRun) (e : KeyqueryStep Ct) :
    (machine env).next d e = next env d e := rfl

-- ---------------------------------------------------------------------------
-- Versions only grow
-- ---------------------------------------------------------------------------

variable {env : SignalingEnv Ct} {m m' : MeshConfig} {d : KeyqueryRun} {i : Nat} {f : ServerInfoFrame}

/-- No event changes the root or the id of the registry, or lowers the version. -/
theorem next_mesh (env : SignalingEnv Ct) (s : Signaling) (e : ServerEvent Ct) :
    (s.next env e).mesh.root = s.mesh.root ∧ (s.next env e).mesh.meshId = s.mesh.meshId ∧
      s.mesh.crl.version ≤ (s.next env e).mesh.crl.version := by
  rcases mesh_next env s e with hSame | ⟨jb, draw, hJoin⟩ | ⟨deviceId, reason, now, _, hRevoke⟩
  · rw [hSame]
    exact ⟨rfl, rfl, Nat.le_refl _⟩
  · obtain ⟨members, invites, hFrame⟩ := enroll_frame env s.mesh jb draw
    rw [hJoin, hFrame]
    exact ⟨rfl, rfl, Nat.le_refl _⟩
  · have hVersion := (MeshConfig.extends_revoke env.signatures s.mesh deviceId reason now).1
    obtain ⟨crl, members, _, hFrame⟩ := MeshConfig.revoke_frame env.meshEnv s.mesh deviceId reason now
    have hFrame : (s.mesh.revoke env.signatures deviceId reason now).1 =
        { s.mesh with crl := crl, members := members } := hFrame
    rw [hRevoke]
    refine ⟨?_, ?_, hVersion⟩
    · rw [hFrame]
    · rw [hFrame]

/-- Of the registry, the information holds the root, the id and the version. -/
theorem buildServerInfo_congr (hRoot : m'.root = m.root) (hId : m'.meshId = m.meshId)
    (hVersion : m'.crl.version = m.crl.version) : buildServerInfo env m' = buildServerInfo env m := by
  unfold buildServerInfo MeshConfig.rootPublicRaw MeshConfig.rootSeed
  rw [hRoot, hId, hVersion]

theorem buildServerInfo_version {info : ServerInfo} (h : buildServerInfo env m = .ok info) :
    info.crlVersion = m.crl.version := by
  unfold buildServerInfo at h
  obtain ⟨rootPub, _, h⟩ := bind_eq_ok.mp h
  obtain ⟨seed, _, h⟩ := bind_eq_ok.mp h
  cases h
  rfl

theorem serverInfoFrame_eq_ok : serverInfoFrame env m = .ok f ↔ buildServerInfo env m = .ok f.info := by
  unfold serverInfoFrame
  constructor
  · intro h
    split at h
    · cases h
    · rename_i info hBuild
      split at h
      · cases h
      · cases h
        exact hBuild
  · intro h
    rw [h]
    dsimp only
    split
    · rename_i e hEncode
      rw [f.encoded] at hEncode
      cases hEncode
    · rename_i payload hEncode
      have hPayload : payload = f.payload := by
        rw [f.encoded] at hEncode
        exact (Except.ok.inj hEncode).symm
      subst hPayload
      rfl

-- ---------------------------------------------------------------------------
-- The invariant
-- ---------------------------------------------------------------------------

/-- The registry as it was, or will be, at a version. -/
def atVersion (m : MeshConfig) (v : Nat) : MeshConfig := { m with crl := { m.crl with version := v } }

/-- The frame was built from this registry, at this or an earlier version. -/
structure BuiltFrom (env : SignalingEnv Ct) (m : MeshConfig) (f : ServerInfoFrame) : Prop where
  version : f.info.crlVersion ≤ m.crl.version
  build : buildServerInfo env (atVersion m f.info.crlVersion) = .ok f.info

theorem BuiltFrom.of_frame (h : serverInfoFrame env m = .ok f) : BuiltFrom env m f := by
  have hBuild := serverInfoFrame_eq_ok.mp h
  have hVersion := buildServerInfo_version hBuild
  refine ⟨Nat.le_of_eq hVersion, ?_⟩
  rw [← hBuild]
  exact buildServerInfo_congr rfl rfl hVersion

theorem BuiltFrom.mono (h : BuiltFrom env m f) (hRoot : m'.root = m.root) (hId : m'.meshId = m.meshId)
    (hVersion : m.crl.version ≤ m'.crl.version) : BuiltFrom env m' f := by
  refine ⟨Nat.le_trans h.version hVersion, ?_⟩
  rw [← h.build]
  exact buildServerInfo_congr hRoot hId rfl

/-- At the version of the registry it is the frame that one builds now. -/
theorem BuiltFrom.fresh (h : BuiltFrom env m f) (hVersion : f.info.crlVersion = m.crl.version) :
    serverInfoFrame env m = .ok f := by
  rw [serverInfoFrame_eq_ok, ← h.build]
  exact buildServerInfo_congr rfl rfl hVersion.symm

/-- What a request knows is not newer than the registry. -/
def InTime (env : SignalingEnv Ct) (m : MeshConfig) : KeyqueryTask → Prop
  | .idle => True
  | .received received => received ≤ m.crl.version
  | .versioned received v => received ≤ v ∧ v ≤ m.crl.version
  | .missed received v => received ≤ v ∧ v ≤ m.crl.version
  | .built received v f => received ≤ v ∧ v ≤ f.info.crlVersion ∧ BuiltFrom env m f

/-- The answer is as new as the request, and the one that is built freshly when
nothing was revoked meanwhile. -/
def Answered (env : SignalingEnv Ct) (a : KeyqueryAnswer) : Prop :=
  a.received ≤ a.frame.info.crlVersion ∧
    (a.registry.crl.version = a.received → serverInfoFrame env a.registry = .ok a.frame)

structure Fresh (env : SignalingEnv Ct) (d : KeyqueryRun) : Prop where
  cache : ∀ v f, d.cache = some (v, f) → v ≤ f.info.crlVersion ∧ BuiltFrom env d.server.mesh f
  task : ∀ i, InTime env d.server.mesh (d.task i)
  answers : ∀ a ∈ d.answers, Answered env a

theorem InTime.mono {t : KeyqueryTask} (h : InTime env m t) (hRoot : m'.root = m.root)
    (hId : m'.meshId = m.meshId) (hVersion : m.crl.version ≤ m'.crl.version) : InTime env m' t := by
  cases t with
  | idle => exact h
  | received received => exact Nat.le_trans h hVersion
  | versioned received v => exact ⟨h.1, Nat.le_trans h.2 hVersion⟩
  | missed received v => exact ⟨h.1, Nat.le_trans h.2 hVersion⟩
  | built received v f => exact ⟨h.1, h.2.1, h.2.2.mono hRoot hId hVersion⟩

theorem Fresh.task_set (h : Fresh env d) {t : KeyqueryTask} (hTask : InTime env d.server.mesh t) (j : Nat) :
    InTime env d.server.mesh ((d.setTask i t).task j) := by
  by_cases hSame : j = i
  · subst hSame
    have hHere : (d.setTask j t).task j = t := Function.update_self ..
    rw [hHere]
    exact hTask
  · have hOther : (d.setTask i t).task j = d.task j := Function.update_of_ne hSame ..
    rw [hOther]
    exact h.task j

theorem Fresh.setTask (h : Fresh env d) {t : KeyqueryTask} (hTask : InTime env d.server.mesh t) :
    Fresh env (d.setTask i t) := ⟨h.cache, h.task_set hTask, h.answers⟩

/-- An answer with a frame as new as the version that was read. -/
theorem Fresh.answer (h : Fresh env d) {received : Nat} (hVersion : received ≤ f.info.crlVersion)
    (hBuilt : BuiltFrom env d.server.mesh f) : Fresh env (d.answer i received f) := by
  refine ⟨h.cache, h.task_set (t := .idle) trivial, fun a ha => ?_⟩
  rcases List.mem_append.mp ha with hOld | hNew
  · exact h.answers a hOld
  · rw [List.mem_singleton.mp hNew]
    refine ⟨hVersion, fun hQuiet => hBuilt.fresh ?_⟩
    have hQuiet : d.server.mesh.crl.version = received := hQuiet
    have := hBuilt.version
    omega

/-- A look into the cache. -/
theorem Fresh.lookUp (h : Fresh env d) {received v : Nat} (hTask : d.task i = .versioned received v) :
    Fresh env (next env d (.lookUp i)) := by
  have hKnown : InTime env d.server.mesh (.versioned received v) := hTask ▸ h.task i
  unfold next
  dsimp only
  rw [hTask]
  dsimp only
  split
  · rename_i v' f hHit
    obtain ⟨hCache, hSame⟩ := Option.filter_eq_some_iff.mp hHit
    have hSame : v' = v := by simpa using hSame
    obtain ⟨hFrame, hBuilt⟩ := h.cache v' f hCache
    exact h.answer (Nat.le_trans hKnown.1 (hSame ▸ hFrame)) hBuilt
  · have hNext := h.setTask (i := i) (t := .missed received v) hKnown
    exact ⟨hNext.cache, hNext.task, hNext.answers⟩

/-- A build under the lock of the registry: it is not older than the version read. -/
theorem Fresh.build (h : Fresh env d) {received v : Nat} (hTask : d.task i = .missed received v) :
    Fresh env (next env d (.build i)) := by
  have hKnown : InTime env d.server.mesh (.missed received v) := hTask ▸ h.task i
  unfold next
  dsimp only
  rw [hTask]
  dsimp only
  split
  · rename_i f hFrame
    have hVersion := buildServerInfo_version (serverInfoFrame_eq_ok.mp hFrame)
    have hNext := h.setTask (i := i) (t := .built received v f)
      ⟨hKnown.1, hVersion.symm ▸ hKnown.2, .of_frame hFrame⟩
    exact ⟨hNext.cache, hNext.task, hNext.answers⟩
  · have hNext := h.setTask (i := i) (t := .idle) trivial
    exact ⟨hNext.cache, hNext.task, hNext.answers⟩

theorem Fresh.next (h : Fresh env d) (e : KeyqueryStep Ct) : Fresh env (next env d e) := by
  cases e with
  | receive i =>
    unfold KeyqueryRun.next
    dsimp only
    split
    · exact h.setTask (t := .received _) (Nat.le_refl _)
    · exact h
  | readVersion i =>
    unfold KeyqueryRun.next
    dsimp only
    split
    · rename_i received hTask
      have hKnown : InTime env d.server.mesh (.received received) := hTask ▸ h.task i
      exact h.setTask (t := .versioned received _) ⟨hKnown, Nat.le_refl _⟩
    · exact h
  | lookUp i =>
    by_cases hTask : ∃ received v, d.task i = .versioned received v
    · obtain ⟨received, v, hTask⟩ := hTask
      exact h.lookUp hTask
    · unfold KeyqueryRun.next
      dsimp only
      split
      · rename_i received v hVersioned
        exact absurd ⟨received, v, hVersioned⟩ hTask
      · exact h
  | build i =>
    by_cases hTask : ∃ received v, d.task i = .missed received v
    · obtain ⟨received, v, hTask⟩ := hTask
      exact h.build hTask
    · unfold KeyqueryRun.next
      dsimp only
      split
      · rename_i received v hMissed
        exact absurd ⟨received, v, hMissed⟩ hTask
      · exact h
  | store i =>
    unfold KeyqueryRun.next
    dsimp only
    split
    · rename_i received v f hTask
      have hKnown : InTime env d.server.mesh (.built received v f) := hTask ▸ h.task i
      have hNext := h.answer (i := i) (Nat.le_trans hKnown.1 hKnown.2.1) hKnown.2.2
      refine ⟨fun v' f' hCache => ?_, hNext.task, hNext.answers⟩
      cases hCache
      exact hKnown.2
    · exact h
  | server e =>
    obtain ⟨hRoot, hId, hVersion⟩ := next_mesh env d.server e
    refine ⟨fun v f hCache => ?_, fun i => (h.task i).mono hRoot hId hVersion, h.answers⟩
    obtain ⟨hFrame, hBuilt⟩ := h.cache v f hCache
    exact ⟨hFrame, hBuilt.mono hRoot hId hVersion⟩

-- ---------------------------------------------------------------------------
-- Without revocations
-- ---------------------------------------------------------------------------

/-- Every request was read at the version of the registry, and answered at it. -/
structure Quiet (d : KeyqueryRun) : Prop where
  task : ∀ i v, (d.task i).receivedAt = some v → v = d.server.mesh.crl.version
  answers : ∀ a ∈ d.answers, a.registry.crl.version = a.received

theorem Quiet.task_set (h : Quiet d) {t : KeyqueryTask}
    (hTask : ∀ v, t.receivedAt = some v → v = d.server.mesh.crl.version) (j v : Nat)
    (hAt : ((d.setTask i t).task j).receivedAt = some v) : v = d.server.mesh.crl.version := by
  by_cases hSame : j = i
  · subst hSame
    have hHere : (d.setTask j t).task j = t := Function.update_self ..
    rw [hHere] at hAt
    exact hTask v hAt
  · have hOther : (d.setTask i t).task j = d.task j := Function.update_of_ne hSame ..
    rw [hOther] at hAt
    exact h.task j v hAt

/-- A request goes on, and nothing is answered. -/
theorem Quiet.go_on (h : Quiet d) {t : KeyqueryTask}
    (hTask : t.receivedAt = none ∨ t.receivedAt = (d.task i).receivedAt) (j v : Nat)
    (hAt : ((d.setTask i t).task j).receivedAt = some v) : v = d.server.mesh.crl.version := by
  refine h.task_set (fun w hw => ?_) j v hAt
  rcases hTask with hNone | hSame
  · rw [hNone] at hw
    cases hw
  · exact h.task i w (hSame ▸ hw)

theorem Quiet.answer (h : Quiet d) {received : Nat} (hAt : (d.task i).receivedAt = some received) :
    Quiet (d.answer i received f) := by
  refine ⟨h.go_on (t := .idle) (.inl rfl), fun a ha => ?_⟩
  rcases List.mem_append.mp ha with hOld | hNew
  · exact h.answers a hOld
  · rw [List.mem_singleton.mp hNew]
    exact (h.task i received hAt).symm

theorem Quiet.next (h : Quiet d) {e : KeyqueryStep Ct} (hNone : ¬ e.Revokes) : Quiet (next env d e) := by
  cases e with
  | receive i =>
    unfold KeyqueryRun.next
    dsimp only
    split
    · exact ⟨h.task_set (t := .received _) fun v hv => (Option.some.inj hv).symm, h.answers⟩
    · exact h
  | readVersion i =>
    unfold KeyqueryRun.next
    dsimp only
    split
    · rename_i received hTask
      exact ⟨h.go_on (t := .versioned received _) (.inr (by rw [hTask]; rfl)), h.answers⟩
    · exact h
  | lookUp i =>
    unfold KeyqueryRun.next
    dsimp only
    split
    · rename_i received v hTask
      split
      · exact h.answer (by rw [hTask]; rfl)
      · exact ⟨h.go_on (t := .missed received v) (.inr (by rw [hTask]; rfl)), h.answers⟩
    · exact h
  | build i =>
    unfold KeyqueryRun.next
    dsimp only
    split
    · rename_i received v hTask
      split
      · rename_i f _
        exact ⟨h.go_on (t := .built received v f) (.inr (by rw [hTask]; rfl)), h.answers⟩
      · exact ⟨h.go_on (t := .idle) (.inl rfl), h.answers⟩
    · exact h
  | store i =>
    unfold KeyqueryRun.next
    dsimp only
    split
    · rename_i received v f hTask
      have hNext := h.answer (i := i) (f := f) (by rw [hTask]; rfl)
      exact ⟨hNext.task, hNext.answers⟩
    · exact h
  | server e =>
    have hVersion : (d.server.next env e).mesh.crl.version = d.server.mesh.crl.version := by
      rcases mesh_next env d.server e with hSame | ⟨jb, draw, hJoin⟩ | ⟨deviceId, reason, now, rfl, _⟩
      · rw [hSame]
      · rw [hJoin, enroll_crl]
      · exact absurd trivial hNone
    exact ⟨fun i v hAt => (h.task i v hAt).trans hVersion.symm, h.answers⟩

/-- In every run of any number of requests, with revocations and the other events of
the server in between: the cached frame is as new as the version it is cached
under, every answer is as new as the registry was when its request was read, and
it is the frame that one would build freshly when nothing was revoked since. In a
run without revocations, that is every answer. -/
theorem keyquery_fresh (env : SignalingEnv Ct) {G : KeyqueryRun → KeyqueryStep Ct → Prop}
    {d : KeyqueryRun} (h : (machine env).Reach G d) :
    (∀ v f, d.cache = some (v, f) → v ≤ f.info.crlVersion) ∧
    (∀ a ∈ d.answers, a.received ≤ a.frame.info.crlVersion ∧
      (a.registry.crl.version = a.received → serverInfoFrame env a.registry = .ok a.frame)) ∧
    ((∀ d e, G d e → ¬ e.Revokes) →
      ∀ a ∈ d.answers, serverInfoFrame env a.registry = .ok a.frame) := by
  have hFresh : Fresh env d := by
    refine Machine.Reach.invariant (I := Fresh env) ?_ (fun d e hFresh _ _ => hFresh.next e) h
    rintro d ⟨s, rfl⟩
    exact ⟨fun _ _ hCache => (nomatch hCache), fun _ => trivial, fun a ha => absurd ha List.not_mem_nil⟩
  refine ⟨fun v f hCache => (hFresh.cache v f hCache).1, hFresh.answers, fun hNone a ha => ?_⟩
  have hQuiet : Quiet d := by
    refine Machine.Reach.invariant (I := Quiet) ?_ (fun d e hQuiet _ hG => ?_) h
    · rintro d ⟨s, rfl⟩
      exact ⟨fun _ _ hAt => (nomatch hAt), fun a ha => absurd ha List.not_mem_nil⟩
    · rw [machine_next]
      exact hQuiet.next (hNone d e hG)
  exact (hFresh.answers a ha).2 (hQuiet.answers a ha)

/-- A build and the store that follows it. -/
theorem build_store {received v : Nat} (hTask : d.task i = .missed received v)
    (hFrame : serverInfoFrame env d.server.mesh = .ok f) :
    (next env (next env d (.build i)) (.store i)).cache = some (v, f) ∧
      (next env (next env d (.build i)) (.store i)).answers =
        d.answers ++ [⟨received, f, d.server.mesh⟩] := by
  have hBuild : next env d (.build i) =
      { d.setTask i (.built received v f) with meshHolder := some i } := by
    unfold next
    dsimp only
    rw [hTask]
    dsimp only
    rw [hFrame]
  have hBuilt : (d.setTask i (.built received v f)).task i = .built received v f := Function.update_self ..
  rw [hBuild]
  unfold next
  dsimp only
  rw [hBuilt]
  exact ⟨rfl, rfl⟩

open JoinLog MeshConfig

/-- The server of the example after a revocation. -/
def raceServer : Signaling := exampleInvited.next exampleServerEnv (.revoke "d" .admin 0)

theorem raceServer_version : raceServer.mesh.crl.version = 1 := by
  have hMesh : raceServer.mesh = (exampleInvited.mesh.revoke exampleServerEnv.signatures "d" .admin 0).1 :=
    revokeDevice_mesh exampleServerEnv exampleInvited "d" .admin 0
  rw [hMesh]
  decide +kernel

theorem raceServer_frame : ∃ f, serverInfoFrame exampleServerEnv raceServer.mesh = .ok f ∧
    f.info.crlVersion = 1 := by
  obtain ⟨hRoot, hId, _⟩ := next_mesh exampleServerEnv exampleInvited (.revoke "d" .admin 0)
  have hRoot : raceServer.mesh.root = .generate exampleVerifyingKey (List.replicate 32 1) := hRoot
  have hId : raceServer.mesh.meshId = "mesh" := hId
  have hSeed : raceServer.mesh.rootSeed = .ok (List.replicate 32 1) := by
    unfold MeshConfig.rootSeed
    rw [hRoot]
    exact b64Fixed_keyB64 rfl
  have hPublic : raceServer.mesh.rootPublicRaw = .ok (exampleVerifyingKey (List.replicate 32 1)) := by
    unfold MeshConfig.rootPublicRaw
    rw [hRoot]
    exact parseSigPublic_keyB64 (exampleSignatures_lawful.key_length _)
  obtain ⟨info, hBuild⟩ : ∃ info, buildServerInfo exampleServerEnv raceServer.mesh = .ok info :=
    (buildServerInfo_iff hSeed).mpr ⟨_, hPublic⟩
  obtain ⟨payload, hEncode⟩ := (serverInfo_encodes_iff exampleServerEnv_sizes hBuild).mpr
    ⟨hId ▸ ⟨_, rfl⟩, ⟨_, rfl⟩, _, b64Key_keyB64 (keyBytes_length _)⟩
  exact ⟨⟨info, payload, hEncode⟩, serverInfoFrame_eq_ok.mpr hBuild,
    (buildServerInfo_version hBuild).trans raceServer_version⟩

/-- A device is revoked between the look into the cache and the build. -/
def raceSteps : List (KeyqueryStep (RawKey × Nonce × Bytes)) :=
  [.receive 0, .readVersion 0, .lookUp 0, .server (.revoke "d" .admin 0)]

def raceLooked : KeyqueryRun := (machine exampleServerEnv).run { server := exampleInvited } raceSteps

def raceRun : KeyqueryRun := (machine exampleServerEnv).run raceLooked [.build 0, .store 0]

theorem raceRun_eq :
    raceRun = next exampleServerEnv (next exampleServerEnv raceLooked (.build 0)) (.store 0) := by
  unfold raceRun
  rw [Machine.run_cons, Machine.run_cons, Machine.run_nil, machine_next, machine_next]

theorem raceRun_reach : (machine exampleServerEnv).Reach (fun _ _ => True) raceRun := by
  have hLooked : (machine exampleServerEnv).Reach (fun _ _ => True) raceLooked :=
    Machine.reach_run (.init ⟨exampleInvited, rfl⟩)
      ⟨trivial, trivial, rfl, trivial, rfl, trivial, fun _ => rfl, trivial, trivial⟩
  exact Machine.reach_run hLooked ⟨rfl, trivial, trivial, trivial, trivial⟩

/-- The frame of version 1 is stored under version 0, and answers a request read at
version 0. -/
theorem keyquery_fresh_race :
    (∃ f, raceRun.cache = some (0, f) ∧ f.info.crlVersion = 1 ∧
      raceRun.answers = [⟨0, f, raceServer.mesh⟩]) ∧
    (∀ v f, raceRun.cache = some (v, f) → v ≤ f.info.crlVersion) ∧
    ∀ a ∈ raceRun.answers, a.received ≤ a.frame.info.crlVersion := by
  have hFresh := keyquery_fresh exampleServerEnv raceRun_reach
  obtain ⟨f, hFrame, hVersion⟩ := raceServer_frame
  have hTask : raceLooked.task 0 = .missed 0 0 := rfl
  obtain ⟨hCache, hAnswers⟩ := build_store (d := raceLooked) hTask hFrame
  rw [← raceRun_eq] at hCache hAnswers
  exact ⟨⟨f, hCache, hVersion, hAnswers⟩, hFresh.1, fun a ha => (hFresh.2.1 a ha).1⟩

end KeyqueryRun

end LinkMesh
