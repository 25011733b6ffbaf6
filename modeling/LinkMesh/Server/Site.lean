import LinkMesh.Mesh.Canonical
import LinkMesh.Mesh.Runs
import LinkMesh.Server.Query

/-!
# The registry file, the running server and the command line

The registry exists twice: in `mesh.json`, which the commands of
`linkmesh-server/src/main.rs` load, change and save, and in the memory of the
running server, which loads the file when it starts and never again. The file
is the registry that it decodes to. Operations happen one at a time, and a save
can fail.

Beside the two copies a site records the registry that the last change left,
and every certificate that was ever issued.

## Results

* `mesh_next` — which events change the registry of the running server.
-/

namespace LinkMesh

open Std

variable {Ct : Type}

-- ---------------------------------------------------------------------------
-- The command line
-- ---------------------------------------------------------------------------

namespace MeshConfig

/-- `generate_mesh_id`, over 8 random bytes. -/
def generateMeshId (raw : Bytes) : String := "mesh-" ++ hexEncode raw

theorem generateMeshId_oneLine (raw : Bytes) : OneLine (generateMeshId raw) := by
  have hText : (generateMeshId raw).toList = "mesh-".toList ++ (hexEncode raw).toList :=
    String.toList_append
  have hDigit : ∀ n < 16, "0123456789abcdef".toList.getD n '0' ≠ '\n' := by decide
  constructor
  · intro h
    rw [hText, List.mem_append] at h
    rcases h with hFront | hDigits
    · exact absurd hFront (by decide)
    · unfold hexEncode at hDigits
      rw [String.toList_ofList, List.mem_flatMap] at hDigits
      obtain ⟨b, _, hPair⟩ := hDigits
      have hByte : b.toNat < 256 := b.toNat_lt
      rw [List.mem_cons, List.mem_singleton] at hPair
      rcases hPair with hHigh | hLow
      · exact hDigit (b.toNat / 16) (by omega) hHigh.symm
      · exact hDigit (b.toNat % 16) (by omega) hLow.symm
  · rw [hText]
    exact List.append_ne_nil_of_left_ne_nil (by decide) _

/-- `INVITE_TTL_SECS` -/
def inviteTtlSecs : Nat := 600

def findMember (m : MeshConfig) (deviceId : String) : Option MemberEntry :=
  m.members.find? (·.deviceId = deviceId)

def findByIkX (m : MeshConfig) (ikXB64 : String) : Option MemberEntry :=
  m.members.find? (·.cert.ikX = ikXB64)

end MeshConfig

/-- `--reason` -/
def parseReason : Option String → Except String RevokeReason
  | none => .ok .compromised
  | some "compromised" => .ok .compromised
  | some "leaked" => .ok .leaked
  | some "rotated" => .ok .rotated
  | some "admin" => .ok .admin
  | some "discontinued" => .ok .discontinued
  | some other => .error s!"未知吊销原因 {other}"

/-- The commands that change the registry file. -/
inductive Command where
  | invite (ip : Option String) (raw : Bytes)
  | issue (ikX ikS : String) (ip : Option String)
  /-- of a device id, or of an X25519 public key -/
  | revoke (target : String) (reason : Option String)

namespace Command

/-- `--ip` of `--invite` is refused only when no IP at all is left. -/
def checkBoundIp (m : MeshConfig) : Option String → Except String Unit
  | none => .ok ()
  | some ip =>
    match m.allocateIp (some ip) with
    | .ok _ => .ok ()
    | .error _ => .error s!"虚拟 IP {ip} 不可用"

/-- The registry after a call, if the call succeeds. -/
def succeeded {α : Type} : MeshConfig × Except String α → Except String MeshConfig
  | (m, .ok _) => .ok m
  | (_, .error e) => .error e

/-- The device of a member, by device id or by key. -/
def findDevice (m : MeshConfig) (target : String) : Except String String :=
  match (m.findMember target).or (m.findByIkX target) with
  | some x => .ok x.deviceId
  | none => .error "未找到该设备（不在成员表或已吊销）"

/-- The registry that a command saves, unless it fails before. -/
def run (env : MeshEnv) (m : MeshConfig) (now : Nat) : Command → Except String MeshConfig
  | .invite ip raw => do
    checkBoundIp m ip
    .ok (m.createInvite env raw ip MeshConfig.inviteTtlSecs now).1
  | .issue ikX ikS ip => succeeded (m.issueCert env ikX ikS (ip.getD "") none now)
  | .revoke target reason => do
    let reason ← parseReason reason
    let deviceId ← findDevice m target
    succeeded (m.revoke env.signatures deviceId reason now)

theorem succeeded_eq_ok {α : Type} {r : MeshConfig × Except String α} {m : MeshConfig} :
    succeeded r = .ok m ↔ ∃ a, r = (m, .ok a) := by
  obtain ⟨m', result⟩ := r
  cases result with
  | ok a => simp [succeeded]
  | error e => simp [succeeded]

end Command

-- ---------------------------------------------------------------------------
-- The site
-- ---------------------------------------------------------------------------

structure Site where
  /-- what `mesh.json` holds -/
  disk : MeshConfig
  /-- the running server, if one runs -/
  daemon : Option Signaling := none
  /-- what the last change of a copy left -/
  latest : MeshConfig
  /-- every certificate issued so far -/
  issued : List DeviceCert := []

/-- What happens at a site, one at a time. -/
inductive SiteEvent (Ct : Type) where
  | command (c : Command) (now : Nat) (saved : Bool)
  | start (rooms : List RoomEntry) (aliases : ExtTreeMap String String) (now : Nat)
  | stop
  /-- handled by the running server; `saved` says whether a save succeeds -/
  | server (e : ServerEvent Ct) (saved : Bool)

/-- The event makes the server save its registry. -/
def Signaling.saves (env : SignalingEnv Ct) (s : Signaling) : ServerEvent Ct → Bool
  | .datagram f src d =>
    match (s.handleSignaling env f src d).2 with
    | .join (.joined _) => true
    | .join (.notEncoded _) => true
    | _ => false
  | .revoke deviceId reason now =>
    match (s.revokeDevice env deviceId reason now).2 with
    | .ok _ => true
    | .error _ => false
  | _ => false

namespace Site

/-- A copy of the registry goes from one value to another. -/
def change (w : Site) (old new : MeshConfig) : Site :=
  if new = old then w
  else
    { w with
      latest := new
      issued := w.issued ++ (new.members.map (·.cert)).filter (· ∉ w.issued) }

def next (env : SignalingEnv Ct) (w : Site) : SiteEvent Ct → Site
  | .command c now saved =>
    match c.run env.meshEnv w.disk now with
    | .error _ => w
    | .ok m => if saved then { w.change w.disk m with disk := m } else w
  | .start rooms aliases now =>
    match w.disk.verifyIntegrity env.meshEnv now with
    | .ok () => { w with daemon := some (Signaling.start w.disk rooms aliases) }
    | .error _ => { w with daemon := none }
  | .stop => { w with daemon := none }
  | .server e saved =>
    match w.daemon with
    | none => w
    | some s =>
      let s' := s.next env e
      let w := { w.change s.mesh s'.mesh with daemon := some s' }
      if saved && s.saves env e then { w with disk := s'.mesh } else w

/-- A new mesh, no server and no certificate. -/
def meshInit (env : SignalingEnv Ct) (verifyingKey : Bytes → Bytes) (meshId : String) (seed : Bytes) :
    Site :=
  { disk := .init env.meshEnv verifyingKey meshId seed
    latest := .init env.meshEnv verifyingKey meshId seed }

/-- From `--mesh-init` on; the mesh id is one line of text. -/
def machine (env : SignalingEnv Ct) (verifyingKey : Bytes → Bytes) : Machine Site (SiteEvent Ct) where
  init w := ∃ meshId seed, OneLine meshId ∧ seed.length = 32 ∧
    w = meshInit env verifyingKey meshId seed
  enabled _ _ := True
  next := next env

@[simp] theorem machine_next (env : SignalingEnv Ct) (verifyingKey : Bytes → Bytes) (w : Site)
    (e : SiteEvent Ct) : (machine env verifyingKey).next w e = w.next env e := rfl

/-- What `--mesh-init` writes is such a start. -/
theorem init_generated (env : SignalingEnv Ct) (verifyingKey : Bytes → Bytes) (raw seed : Bytes)
    (hSeed : seed.length = 32) :
    (machine env verifyingKey).init (meshInit env verifyingKey (MeshConfig.generateMeshId raw) seed) :=
  ⟨_, seed, MeshConfig.generateMeshId_oneLine raw, hSeed, rfl⟩

end Site

-- ---------------------------------------------------------------------------
-- What the events do to the registry of the server
-- ---------------------------------------------------------------------------

namespace Signaling

variable {env : SignalingEnv Ct} {s : Signaling}

theorem handleSession_mesh (env : SignalingEnv Ct) (s : Signaling) (f : SignalFrame Ct)
    (src : SourceAddr) (d : RequestDraw) : (s.handleSession env f src d).1.mesh = s.mesh := by
  rcases handleSession_cases env s f src d with hSame | ⟨e, plaintext, hEntry, hOpen⟩
  · rw [hSame]
  · obtain ⟨m, hCommit⟩ := commitCounter_frame s f.sender e.view.nextSeq d.now
    rw [handleSession_opened hEntry hOpen, hCommit]
    by_cases hBye : planRequest env e.view f.msgType plaintext = .bye
    · rw [hBye]
      rfl
    · obtain ⟨r, hEq⟩ := execute_frame env { s with sessions := m } f.sender e.view src d.routeNow hBye
      dsimp only
      rw [hEq]

theorem handleAuth_mesh (env : SignalingEnv Ct) (s : Signaling) (sender : RawKey) (ab : AuthBody)
    (src : SourceAddr) (d : AuthDraw) : (s.handleAuth env sender ab src d).1.mesh = s.mesh := by
  rcases handleAuth_cases env s sender ab src d with
    ⟨⟨r, hEq⟩, _⟩ | ⟨r, nonce, _, hEq, _⟩ | ⟨room, nonce, ekC, _, hEq⟩
  · rw [hEq]
  · obtain ⟨ring, hReplay⟩ := replayCheck_frame s sender nonce
    rw [hEq, hReplay]
  · rw [hEq]
    exact afterAuth_mesh

theorem handleSignaling_mesh (env : SignalingEnv Ct) (s : Signaling) (f : SignalFrame Ct)
    (src : SourceAddr) (d : SignalDraw) :
    (s.handleSignaling env f src d).1.mesh = s.mesh ∨
      ∃ jb, (s.handleSignaling env f src d).1.mesh = (enroll env s.mesh jb d.join).1 := by
  unfold handleSignaling
  split
  · exact .inl rfl
  · split
    · exact .inl (handleSession_mesh env s f src d.request)
    · dsimp only
      split
      · exact .inl rfl
      · split
        · split
          · exact .inl rfl
          · rename_i jb _
            rcases handleJoin_cases env s f.sender jb src d.join with ⟨_, r, o, hEq, _⟩ | ⟨_, r, hEq⟩
            · dsimp only
              rw [hEq]
              exact .inl rfl
            · dsimp only
              rw [hEq]
              exact .inr ⟨jb, rfl⟩
        · split
          · split
            · exact .inl rfl
            · exact .inl (handleAuth_mesh env s f.sender _ src d.auth)
          · split
            · exact .inl rfl
            · exact .inl rfl

theorem revokeDevice_mesh (env : SignalingEnv Ct) (s : Signaling) (deviceId : String)
    (reason : RevokeReason) (now : Nat) :
    (s.revokeDevice env deviceId reason now).1.mesh =
      (s.mesh.revoke env.signatures deviceId reason now).1 := by
  unfold revokeDevice
  dsimp only
  split
  · rfl
  · rfl

/-- An event leaves the registry alone, or it is a JOIN or a revocation. -/
theorem mesh_next (env : SignalingEnv Ct) (s : Signaling) (e : ServerEvent Ct) :
    (s.next env e).mesh = s.mesh ∨ (∃ jb d, (s.next env e).mesh = (enroll env s.mesh jb d).1) ∨
    ∃ deviceId reason now, e = .revoke deviceId reason now ∧
      (s.next env e).mesh = (s.mesh.revoke env.signatures deviceId reason now).1 := by
  cases e with
  | datagram f src d =>
    rcases handleSignaling_mesh env s f src d with hSame | ⟨jb, hJoin⟩
    · exact .inl hSame
    · exact .inr (.inl ⟨jb, d.join, hJoin⟩)
  | relay srcKey now =>
    left
    obtain ⟨r, hEq⟩ := relayRefresh_frame s srcKey now
    show (s.relayRefresh srcKey now).mesh = s.mesh
    rw [hEq]
  | revoke deviceId reason now =>
    exact .inr (.inr ⟨deviceId, reason, now, rfl, revokeDevice_mesh env s deviceId reason now⟩)
  | cleanup now =>
    left
    show (s.cleanupPass env now).mesh = s.mesh
    rcases cleanupPass_cases env s now with ⟨r, rates, hEq⟩ | ⟨r, rates, hEq⟩
    · rw [hEq]
    · rw [hEq]
  | delPeer key => exact .inl rfl
  | administer rooms aliases => exact .inl rfl

end Signaling

end LinkMesh
