import LinkMesh.Server.Lifecycle
import LinkMesh.Mesh.Runs

/-!
# JOIN over whole runs

Whether a JOIN that fails leaves the registry alone, and how many members JOIN
adds for how many join codes. A log beside the server counts both.

## Results

* `join_atomic_iff` — failed JOINs leave no trace, and no more members are added
  than codes are spent, iff every JOIN that is issued a certificate comes with a
  good alias, has an answer that can be encoded and a code that has not run out.
-/

namespace LinkMesh

open Std

variable {Ct : Type}

-- ---------------------------------------------------------------------------
-- When the answer can be encoded
-- ---------------------------------------------------------------------------

/-- The text fits its field. -/
def Fits (n : Nat) (s : String) : Prop := ∃ buf, wireStrSet n s = .ok buf

theorem putOptB64_sig {bs : Bytes} (h : bs.length = 64) :
    ∃ fields, putOptB64 64 b64Sig (some (keyB64 bs)) = .ok fields :=
  exists_bind_ok (b64Sig_keyB64 h) ⟨_, rfl⟩

theorem deviceCertFromDomain_iff {c : DeviceCert} (hDevice : ∃ k, b64Key c.deviceId = .ok k)
    (hIkX : ∃ k, b64Key c.ikX = .ok k) (hIkS : ∃ k, b64Key c.ikSPub = .ok k)
    (hSig : ∃ fields, putOptB64 64 b64Sig c.signature = .ok fields) :
    (∃ bytes, deviceCertFromDomain c = .ok bytes) ↔ Fits nameLen c.meshId ∧ Fits ipLen c.allowedIp := by
  obtain ⟨_, hDevice⟩ := hDevice
  obtain ⟨_, hIkX⟩ := hIkX
  obtain ⟨_, hIkS⟩ := hIkS
  obtain ⟨_, hSig⟩ := hSig
  constructor
  · rintro ⟨bytes, h⟩
    obtain ⟨meshId, hMesh, h⟩ := bind_eq_ok.mp h
    obtain ⟨_, _, h⟩ := bind_eq_ok.mp h
    obtain ⟨_, _, h⟩ := bind_eq_ok.mp h
    obtain ⟨_, _, h⟩ := bind_eq_ok.mp h
    obtain ⟨allowedIp, hIp, _⟩ := bind_eq_ok.mp h
    exact ⟨⟨meshId, hMesh⟩, allowedIp, hIp⟩
  · rintro ⟨⟨meshId, hMesh⟩, allowedIp, hIp⟩
    refine exists_bind_ok hMesh (exists_bind_ok hDevice (exists_bind_ok hIkX ?_))
    exact exists_bind_ok hIkS (exists_bind_ok hIp (exists_bind_ok hSig ⟨_, rfl⟩))

theorem serverInfoFromDomain_iff {i : ServerInfo} (hRoot : ∃ k, b64Key i.meshRootPub = .ok k)
    (hIkX : ∃ k, b64Key i.serverIkX = .ok k)
    (hSig : ∃ fields, putOptB64 64 b64Sig i.signature = .ok fields) :
    (∃ bytes, serverInfoFromDomain i = .ok bytes) ↔
      Fits nameLen i.meshId ∧ Fits nameLen i.serverName ∧ ∃ k, b64Key i.serverIkSPub = .ok k := by
  obtain ⟨_, hRoot⟩ := hRoot
  obtain ⟨_, hIkX⟩ := hIkX
  obtain ⟨_, hSig⟩ := hSig
  constructor
  · rintro ⟨bytes, h⟩
    obtain ⟨meshId, hMesh, h⟩ := bind_eq_ok.mp h
    obtain ⟨serverName, hName, h⟩ := bind_eq_ok.mp h
    obtain ⟨_, _, h⟩ := bind_eq_ok.mp h
    obtain ⟨_, _, h⟩ := bind_eq_ok.mp h
    obtain ⟨key, hKey, _⟩ := bind_eq_ok.mp h
    exact ⟨⟨meshId, hMesh⟩, ⟨serverName, hName⟩, key, hKey⟩
  · rintro ⟨⟨meshId, hMesh⟩, ⟨serverName, hName⟩, key, hKey⟩
    refine exists_bind_ok hMesh (exists_bind_ok hName (exists_bind_ok hRoot ?_))
    exact exists_bind_ok hIkX (exists_bind_ok hKey (exists_bind_ok hSig ⟨_, rfl⟩))

/-- What the answer to a JOIN is made of has a wire form. -/
structure JoinEncodes (env : SignalingEnv Ct) (m : MeshConfig) (ip granted : String) : Prop where
  rootPub : ∃ k, m.rootPublicRaw = .ok k
  ip : Fits ipLen ip
  granted : Fits ipLen granted
  meshId : Fits nameLen m.meshId
  serverName : Fits nameLen env.serverName
  serverIkSPub : ∃ k, b64Key env.serverIkSPub = .ok k
  crl : ∃ bytes, crlFromDomain m.crl = .ok bytes

/-- Signatures have 64 bytes and digests 32. -/
structure SignalingEnv.FixedSizes (env : SignalingEnv Ct) : Prop where
  sign : ∀ seed msg, (env.signatures.sign seed msg).length = 64
  sha256 : ∀ bs, (env.sha256 bs).length = 32

namespace Signaling

variable {env : SignalingEnv Ct} {s : Signaling} {m m' : MeshConfig} {jb : JoinBody} {d : JoinDraw}
  {ip granted : String} {seed : Bytes}

/-- The server information can be built iff the root public key is in order. -/
theorem buildServerInfo_iff (hSeed : m.rootSeed = .ok seed) :
    (∃ info, buildServerInfo env m = .ok info) ↔ ∃ k, m.rootPublicRaw = .ok k := by
  constructor
  · rintro ⟨info, h⟩
    obtain ⟨k, hKey, _⟩ := bind_eq_ok.mp h
    exact ⟨k, hKey⟩
  · rintro ⟨k, hKey⟩
    exact exists_bind_ok hKey (exists_bind_ok hSeed ⟨_, rfl⟩)

/-- It has a wire form iff the texts of the mesh and of the server have one. -/
theorem serverInfo_encodes_iff (hSizes : env.FixedSizes) {info : ServerInfo}
    (h : buildServerInfo env m = .ok info) :
    (∃ bytes, serverInfoFromDomain info = .ok bytes) ↔
      Fits nameLen m.meshId ∧ Fits nameLen env.serverName ∧ ∃ k, b64Key env.serverIkSPub = .ok k := by
  obtain ⟨rootPub, hRoot, h⟩ := bind_eq_ok.mp h
  obtain ⟨seed, _, h⟩ := bind_eq_ok.mp h
  cases h
  have hLength : rootPub.length = 32 := by
    unfold MeshConfig.rootPublicRaw parseSigPublic at hRoot
    exact b64Fixed_length hRoot
  exact serverInfoFromDomain_iff ⟨_, b64Key_keyB64 hLength⟩
    ⟨_, b64Key_keyB64 (keyBytes_length _)⟩ (putOptB64_sig (hSizes.sign _ _))

/-- A JOIN is answered when the server information is there and the answer has
a wire form. -/
theorem joinAnswer_eq_joined {cert : DeviceCert} :
    (∃ resp, joinAnswer env m cert ip = .joined resp) ↔
      ∃ info, buildServerInfo env m = .ok info ∧
        ∃ bytes, encodeResponse (.okWithData (.join cert.deviceId ip cert info m.crl)) = .ok bytes := by
  unfold joinAnswer
  cases buildServerInfo env m with
  | error e => simp
  | ok info =>
    dsimp only
    cases hBytes : encodeResponse (.okWithData (.join cert.deviceId ip cert info m.crl)) with
    | error e => simp [hBytes]
    | ok bytes => simp [hBytes]

theorem encodeResponse_join_iff {deviceId : String} {cert : DeviceCert} {info : ServerInfo} {crl : Crl}
    (hDevice : ∃ k, b64Key deviceId = .ok k) :
    (∃ bytes, encodeResponse (.okWithData (.join deviceId ip cert info crl)) = .ok bytes) ↔
      Fits ipLen ip ∧ (∃ bytes, deviceCertFromDomain cert = .ok bytes) ∧
        (∃ bytes, serverInfoFromDomain info = .ok bytes) ∧ ∃ bytes, crlFromDomain crl = .ok bytes := by
  obtain ⟨_, hDevice⟩ := hDevice
  constructor
  · rintro ⟨bytes, h⟩
    obtain ⟨_, _, h⟩ := bind_eq_ok.mp h
    obtain ⟨buf, hIp, h⟩ := bind_eq_ok.mp h
    obtain ⟨cert', hCert, h⟩ := bind_eq_ok.mp h
    obtain ⟨info', hInfo, h⟩ := bind_eq_ok.mp h
    obtain ⟨crl', hCrl, _⟩ := bind_eq_ok.mp h
    exact ⟨⟨buf, hIp⟩, ⟨cert', hCert⟩, ⟨info', hInfo⟩, crl', hCrl⟩
  · rintro ⟨⟨buf, hIp⟩, ⟨cert', hCert⟩, ⟨info', hInfo⟩, crl', hCrl⟩
    refine exists_bind_ok hDevice (exists_bind_ok hIp (exists_bind_ok hCert ?_))
    exact exists_bind_ok hInfo (exists_bind_ok hCrl ⟨_, rfl⟩)

/-- A JOIN is answered iff the parts of the answer have a wire form. The registry
it is read from differs in members and join codes only. -/
theorem joinAnswer_joined_iff (hSizes : env.FixedSizes) {cert : DeviceCert}
    (hSeed : m.rootSeed = .ok seed) (hDevice : ∃ k, b64Key cert.deviceId = .ok k)
    (hCert : (∃ bytes, deviceCertFromDomain cert = .ok bytes) ↔ Fits nameLen m.meshId ∧ Fits ipLen granted)
    (hMesh : m'.meshId = m.meshId) (hRoot : m'.root = m.root) (hCrl : m'.crl = m.crl) :
    (∃ resp, joinAnswer env m' cert ip = .joined resp) ↔ JoinEncodes env m ip granted := by
  have hSeed' : m'.rootSeed = .ok seed := by
    unfold MeshConfig.rootSeed
    rw [hRoot]
    exact hSeed
  have hPublic : m'.rootPublicRaw = m.rootPublicRaw := by
    unfold MeshConfig.rootPublicRaw
    rw [hRoot]
  have hRootPub : (∃ info, buildServerInfo env m' = .ok info) ↔ ∃ k, m.rootPublicRaw = .ok k := by
    rw [← hPublic]
    exact buildServerInfo_iff hSeed'
  rw [joinAnswer_eq_joined]
  constructor
  · rintro ⟨info, hInfo, hBytes⟩
    obtain ⟨hIp, hC, hI, hList⟩ := (encodeResponse_join_iff hDevice).mp hBytes
    obtain ⟨hMeshId, hGranted⟩ := hCert.mp hC
    obtain ⟨_, hName, hKey⟩ := (serverInfo_encodes_iff hSizes hInfo).mp hI
    exact
      { rootPub := hRootPub.mp ⟨info, hInfo⟩
        ip := hIp
        granted := hGranted
        meshId := hMeshId
        serverName := hName
        serverIkSPub := hKey
        crl := hCrl ▸ hList }
  · intro hEncodes
    obtain ⟨info, hInfo⟩ := hRootPub.mpr hEncodes.rootPub
    refine ⟨info, hInfo, (encodeResponse_join_iff hDevice).mpr ⟨hEncodes.ip, ?_, ?_, ?_⟩⟩
    · exact hCert.mpr ⟨hEncodes.meshId, hEncodes.granted⟩
    · refine (serverInfo_encodes_iff hSizes hInfo).mpr ⟨?_, hEncodes.serverName, hEncodes.serverIkSPub⟩
      rw [hMesh]
      exact hEncodes.meshId
    · rw [hCrl]
      exact hEncodes.crl

/-- The certificate that a JOIN is issued names its device and its keys. -/
theorem Issues.cert_encodes_iff (hSizes : env.FixedSizes) (h : Issues env m jb d ip granted seed) :
    (∃ k, b64Key (MeshConfig.newMember env.meshEnv m jb.deviceId jb.ikX jb.ikSPub granted seed
        d.issueNow).cert.deviceId = .ok k) ∧
      ((∃ bytes, deviceCertFromDomain (MeshConfig.newMember env.meshEnv m jb.deviceId jb.ikX jb.ikSPub
        granted seed d.issueNow).cert = .ok bytes) ↔ Fits nameLen m.meshId ∧ Fits ipLen granted) := by
  obtain ⟨_, ikX, ikSPub, _, hX, hS, hDevice, _⟩ := joinChecks_eq_ok.mp h.checks
  have hHash : ∀ bs, (env.meshEnv.sha256 bs).length = 32 := hSizes.sha256
  have hDeviceKey : ∃ k, b64Key jb.deviceId = .ok k := by
    rw [hDevice]
    refine ⟨_, b64Key_keyB64 ?_⟩
    rw [List.length_take, hHash, Nat.min_self]
  exact ⟨hDeviceKey, deviceCertFromDomain_iff hDeviceKey (b64Key_of_parsePublicKey hX)
    ⟨_, b64Fixed_ok_of_ok hS⟩ (putOptB64_sig (hSizes.sign _ _))⟩

theorem Issues.rootSeed (h : Issues env m jb d ip granted seed) : m.rootSeed = .ok seed := by
  obtain ⟨_, _, _, _, _, _, _, _, hSeed⟩ := MeshConfig.issueChecks_eq_ok.mp h.issue
  exact hSeed

-- ---------------------------------------------------------------------------
-- What a JOIN leaves behind
-- ---------------------------------------------------------------------------

theorem completeJoin_invites_iff {deviceId : String} {aliasName : Option String} {now : Nat} :
    (completeJoin env m jb deviceId aliasName now).invites ≠ m.invites ↔
      ∃ bound, m.peekInvite env.meshEnv jb.code now = .ok bound := by
  unfold completeJoin
  cases aliasName with
  | none => exact MeshConfig.consumeInvite_invites_iff
  | some a => exact MeshConfig.consumeInvite_invites_iff (m := m.setMemberAlias deviceId a)

theorem completeJoin_length {deviceId : String} {aliasName : Option String} {now : Nat} :
    (completeJoin env m jb deviceId aliasName now).members.length = m.members.length := by
  have hMap : (completeJoin env m jb deviceId aliasName now).members.map (·.deviceId) =
      m.members.map (·.deviceId) := completeJoin_map _ (fun _ _ => rfl) deviceId aliasName now
  have hLength := congrArg List.length hMap
  rwa [List.length_map, List.length_map] at hLength

/-- A JOIN that is issued a certificate adds a member. The code is spent if the
alias is good and the code has not run out in between, and the device is told
if also the answer can be encoded. -/
theorem enroll_issues (hSizes : env.FixedSizes) (h : Issues env m jb d ip granted seed) :
    (enroll env m jb d).1.members.length = m.members.length + 1 ∧
      ((enroll env m jb d).1.invites ≠ m.invites ↔
        (∃ a, normalizeSelfAlias env jb.aliasName = .ok a) ∧
          ∃ bound, m.peekInvite env.meshEnv jb.code d.consumeNow = .ok bound) ∧
      ((∃ resp, (enroll env m jb d).2 = .joined resp) ↔
        (∃ a, normalizeSelfAlias env jb.aliasName = .ok a) ∧ JoinEncodes env m ip granted) := by
  have hIssued : (issued env m jb d granted seed).members.length = m.members.length + 1 :=
    List.length_append
  rcases enroll_cases env m jb d with ⟨_, hNot⟩ | ⟨ip', granted', seed', h', hEnroll⟩
  · exact absurd h (hNot ip granted seed)
  · obtain ⟨rfl, rfl, rfl⟩ := h.unique h'
    rcases hEnroll with ⟨e, hAlias, hEq⟩ | ⟨aliasName, hAlias, hEq⟩
    · rw [hEq, hAlias]
      refine ⟨hIssued, ?_, ?_⟩
      · exact iff_of_false (fun hNe => hNe rfl) fun ⟨⟨_, hOk⟩, _⟩ => nomatch hOk
      · exact iff_of_false (fun ⟨_, hJoined⟩ => nomatch hJoined) fun ⟨⟨_, hOk⟩, _⟩ => nomatch hOk
    · have hGood : ∃ a, normalizeSelfAlias env jb.aliasName = .ok a := ⟨aliasName, hAlias⟩
      obtain ⟨hDevice, hCert⟩ := h.cert_encodes_iff hSizes
      have hLength : (completeJoin env (issued env m jb d granted seed) jb jb.deviceId aliasName
          d.consumeNow).members.length = m.members.length + 1 := completeJoin_length.trans hIssued
      have hInvites : (completeJoin env (issued env m jb d granted seed) jb jb.deviceId aliasName
          d.consumeNow).invites ≠ m.invites ↔
            ∃ bound, m.peekInvite env.meshEnv jb.code d.consumeNow = .ok bound :=
        completeJoin_invites_iff
      obtain ⟨members, invites, hFrame⟩ :=
        completeJoin_frame env (issued env m jb d granted seed) jb jb.deviceId aliasName d.consumeNow
      rw [hEq]
      dsimp only
      generalize completeJoin env (issued env m jb d granted seed) jb jb.deviceId aliasName
        d.consumeNow = after at *
      refine ⟨hLength, ?_, ?_⟩
      · rw [and_iff_right hGood]
        exact hInvites
      · rw [and_iff_right hGood]
        refine joinAnswer_joined_iff hSizes h.rootSeed hDevice hCert ?_ ?_ ?_
        · rw [hFrame]
          rfl
        · rw [hFrame]
          rfl
        · rw [hFrame]
          rfl

-- ---------------------------------------------------------------------------
-- The log
-- ---------------------------------------------------------------------------

/-- The JOIN that an event brings to `handle_join`. -/
def joinOf (env : SignalingEnv Ct) (s : Signaling) :
    ServerEvent Ct → Option (RawKey × JoinBody × SourceAddr × JoinDraw)
  | .datagram f src d =>
    if f.msgType = msgJoin ∧ f.sender ∉ s.sessions then
      match env.crypto.decrypt (env.crypto.sharedSecret env.serverPriv f.sender) f.payload with
      | none => none
      | some plaintext =>
        match decodeJoin plaintext with
        | .error _ => none
        | .ok jb => some (f.sender, jb, src, d.join)
    else none
  | _ => none

theorem joinOf_of_body {f : SignalFrame Ct} {plaintext : Bytes} (src : SourceAddr) (draw : SignalDraw)
    (hKind : f.msgType = msgJoin) (hFree : f.sender ∉ s.sessions)
    (hOpen : env.crypto.decrypt (env.crypto.sharedSecret env.serverPriv f.sender) f.payload =
      some plaintext) (hBody : decodeJoin plaintext = .ok jb) :
    joinOf env s (.datagram f src draw) = some (f.sender, jb, src, draw.join) := by
  unfold joinOf
  dsimp only
  rw [if_pos ⟨hKind, hFree⟩, hOpen]
  dsimp only
  rw [hBody]

/-- The dispatch handles the JOIN that it finds, and ends as it does. -/
theorem handleSignaling_join {f : SignalFrame Ct} {sender : RawKey} {src src' : SourceAddr} {draw : SignalDraw}
    (h : joinOf env s (.datagram f src draw) = some (sender, jb, src', d)) :
    s.handleSignaling env f src draw =
      ((s.handleJoin env sender jb src' d).1, .join (s.handleJoin env sender jb src' d).2) := by
  unfold joinOf at h
  dsimp only at h
  split at h
  · rename_i hKind
    split at h
    · cases h
    · rename_i plaintext hOpen
      split at h
      · cases h
      · rename_i jb' hBody
        cases h
        unfold handleSignaling
        rw [if_neg (by rw [hKind.1]; decide), if_neg hKind.2]
        dsimp only
        rw [hOpen]
        dsimp only
        rw [if_pos hKind.1, hBody]
  · cases h

theorem next_join {e : ServerEvent Ct} {sender : RawKey} {src : SourceAddr}
    (h : joinOf env s e = some (sender, jb, src, d)) :
    s.next env e = (s.handleJoin env sender jb src d).1 := by
  cases e with
  | datagram f src' draw =>
    show (s.handleSignaling env f src' draw).1 = _
    rw [handleSignaling_join h]
  | _ => cases h

end Signaling

/-- The server, with a log of the JOINs it has handled: members they added,
codes they spent, and whether the registry was left alone by all that failed. -/
structure JoinLog where
  server : Signaling
  added : Nat := 0
  consumed : Nat := 0
  atomic : Bool := true

namespace JoinLog

def joined (outcome : JoinOutcome) : Bool :=
  match outcome with
  | .joined _ => true
  | _ => false

/-- A JOIN changes the list of join codes only by spending one. -/
def join (env : SignalingEnv Ct) (l : JoinLog) (sender : RawKey) (jb : JoinBody) (src : SourceAddr)
    (d : JoinDraw) : JoinLog :=
  let (server, outcome) := l.server.handleJoin env sender jb src d
  { server := server
    added := l.added + (server.mesh.members.length - l.server.mesh.members.length)
    consumed := l.consumed + (if server.mesh.invites = l.server.mesh.invites then 0 else 1)
    atomic := l.atomic && (joined outcome || server.mesh = l.server.mesh) }

def next (env : SignalingEnv Ct) (l : JoinLog) (e : ServerEvent Ct) : JoinLog :=
  match Signaling.joinOf env l.server e with
  | some (sender, jb, src, d) => l.join env sender jb src d
  | none => { l with server := l.server.next env e }

def machine (env : SignalingEnv Ct) : Machine JoinLog (ServerEvent Ct) where
  init l := ∃ server, l = { server := server }
  enabled _ _ := True
  next := next env

@[simp] theorem machine_next (env : SignalingEnv Ct) (l : JoinLog) (e : ServerEvent Ct) :
    (machine env).next l e = l.next env e := rfl

/-- Failed JOINs left no trace, and no more members were added than codes spent. -/
def Sound (l : JoinLog) : Prop := l.atomic = true ∧ l.added ≤ l.consumed

/-- A JOIN that is issued a certificate has a good alias, an answer with a wire
form and a code that has not run out. -/
def Completes (env : SignalingEnv Ct) (l : JoinLog) (e : ServerEvent Ct) : Prop :=
  ∀ sender jb src d, Signaling.joinOf env l.server e = some (sender, jb, src, d) →
    Signaling.ReachesRegistry env l.server sender jb src d →
      ∀ ip granted seed, Signaling.Issues env l.server.mesh jb d ip granted seed →
        (∃ a, normalizeSelfAlias env jb.aliasName = .ok a) ∧
          JoinEncodes env l.server.mesh ip granted ∧
          ∃ bound, l.server.mesh.peekInvite env.meshEnv jb.code d.consumeNow = .ok bound

variable {env : SignalingEnv Ct} {l : JoinLog} {e : ServerEvent Ct}

/-- The log does not interfere. -/
theorem next_server : (l.next env e).server = l.server.next env e := by
  unfold next
  split
  · rename_i sender jb src d hJoin
    rw [Signaling.next_join hJoin]
    rfl
  · rfl

section

variable {sender : RawKey} {jb : JoinBody} {src : SourceAddr} {d : JoinDraw} {ip granted : String}
  {seed : Bytes}

/-- A JOIN that leaves the registry alone leaves the log alone. -/
theorem join_of_same (h : (l.server.handleJoin env sender jb src d).1.mesh = l.server.mesh) :
    (l.join env sender jb src d).added = l.added ∧
      (l.join env sender jb src d).consumed = l.consumed ∧
      (l.join env sender jb src d).atomic = l.atomic := by
  unfold join
  simp [h]

/-- A JOIN that is not issued a certificate leaves the registry alone. -/
theorem same_of_not_issues
    (h : ¬ (Signaling.ReachesRegistry env l.server sender jb src d ∧
      ∃ ip granted seed, Signaling.Issues env l.server.mesh jb d ip granted seed)) :
    (l.server.handleJoin env sender jb src d).1.mesh = l.server.mesh := by
  rcases Signaling.handleJoin_cases env l.server sender jb src d with
    ⟨_, r, outcome, hEq, _⟩ | ⟨hReaches, r, hEq⟩
  · rw [hEq]
  · rcases Signaling.enroll_cases env l.server.mesh jb d with
      ⟨⟨e, hEnroll⟩, _⟩ | ⟨ip, granted, seed, hIssues, _⟩
    · rw [hEq, hEnroll]
    · exact absurd ⟨hReaches, ip, granted, seed, hIssues⟩ h

/-- One that is issued a certificate adds a member. -/
theorem join_of_issues (hSizes : env.FixedSizes)
    (hReaches : Signaling.ReachesRegistry env l.server sender jb src d)
    (hIssues : Signaling.Issues env l.server.mesh jb d ip granted seed) :
    (l.join env sender jb src d).added = l.added + 1 ∧
      (l.join env sender jb src d).consumed ≤ l.consumed + 1 ∧
      ((l.join env sender jb src d).consumed = l.consumed + 1 ↔
        (∃ a, normalizeSelfAlias env jb.aliasName = .ok a) ∧
          ∃ bound, l.server.mesh.peekInvite env.meshEnv jb.code d.consumeNow = .ok bound) ∧
      ((l.join env sender jb src d).atomic = true ↔ l.atomic = true ∧
        (∃ a, normalizeSelfAlias env jb.aliasName = .ok a) ∧
          JoinEncodes env l.server.mesh ip granted) := by
  rcases Signaling.handleJoin_cases env l.server sender jb src d with
    ⟨hNot, _⟩ | ⟨_, r, hEq⟩
  · exact absurd hReaches hNot
  · obtain ⟨hMembers, hInvites, hJoined⟩ := Signaling.enroll_issues hSizes hIssues
    rw [← hInvites, ← hJoined]
    unfold join
    rw [hEq]
    dsimp only
    generalize Signaling.enroll env l.server.mesh jb d = result at *
    obtain ⟨mesh, outcome⟩ := result
    dsimp only at hMembers ⊢
    have hChanged : mesh ≠ l.server.mesh := by
      rintro rfl
      omega
    refine ⟨by omega, ?_, ?_, ?_⟩
    · split
      · omega
      · omega
    · split
      · rename_i hSame
        exact iff_of_false (by omega) (fun hNe => hNe hSame)
      · rename_i hNe
        exact iff_of_true rfl hNe
    · rw [Bool.and_eq_true]
      cases outcome with
      | joined resp => simp [joined]
      | _ => simp [joined, hChanged]

end

/-- Codes are spent for new members only. -/
theorem balanced_next (hSizes : env.FixedSizes) (h : l.consumed ≤ l.added) :
    (l.next env e).consumed ≤ (l.next env e).added := by
  unfold next
  split
  · rename_i sender jb src d _
    by_cases hIssues : Signaling.ReachesRegistry env l.server sender jb src d ∧
        ∃ ip granted seed, Signaling.Issues env l.server.mesh jb d ip granted seed
    · obtain ⟨hReaches, ip, granted, seed, hIssues⟩ := hIssues
      obtain ⟨hAdded, hConsumed, _⟩ := join_of_issues hSizes hReaches hIssues
      omega
    · obtain ⟨hAdded, hConsumed, _⟩ := join_of_same (same_of_not_issues hIssues)
      omega
  · exact h

/-- One step keeps the log sound exactly when it completes what it starts. -/
theorem sound_next_iff (hSizes : env.FixedSizes) (hBalanced : l.consumed ≤ l.added) (h : l.Sound) :
    (l.next env e).Sound ↔ Completes env l e := by
  obtain ⟨hAtomic, hCount⟩ := h
  unfold Sound next Completes
  split
  · rename_i sender jb src d hJoin
    by_cases hIssues : Signaling.ReachesRegistry env l.server sender jb src d ∧
        ∃ ip granted seed, Signaling.Issues env l.server.mesh jb d ip granted seed
    · obtain ⟨hReaches, ip, granted, seed, hIssues⟩ := hIssues
      obtain ⟨hAdded, hMost, hConsumed, hAfter⟩ := join_of_issues hSizes hReaches hIssues
      have hSpent : (l.join env sender jb src d).added ≤ (l.join env sender jb src d).consumed ↔
          (l.join env sender jb src d).consumed = l.consumed + 1 := by
        omega
      rw [hAfter, hSpent, hConsumed, and_iff_right hAtomic]
      constructor
      · rintro ⟨⟨hAlias, hEncodes⟩, _, hCode⟩ sender' jb' src' d' hJoin' _ ip' granted' seed' hIssues'
        rw [hJoin] at hJoin'
        cases hJoin'
        have hIp := hIssues.checks.symm.trans hIssues'.checks
        cases hIp
        have hGranted := hIssues.issue.symm.trans hIssues'.issue
        cases hGranted
        exact ⟨hAlias, hEncodes, hCode⟩
      · intro hAll
        obtain ⟨hAlias, hEncodes, hCode⟩ := hAll sender jb src d hJoin hReaches ip granted seed hIssues
        exact ⟨⟨hAlias, hEncodes⟩, hAlias, hCode⟩
    · obtain ⟨hAdded, hConsumed, hAfter⟩ := join_of_same (same_of_not_issues hIssues)
      rw [hAfter, hAdded, hConsumed]
      refine iff_of_true ⟨hAtomic, hCount⟩ ?_
      intro sender' jb' src' d' hJoin' hReaches ip granted seed h
      rw [hJoin] at hJoin'
      cases hJoin'
      exact absurd ⟨hReaches, ip, granted, seed, h⟩ hIssues
  · rename_i hJoin
    refine iff_of_true ⟨hAtomic, hCount⟩ ?_
    intro sender jb src d hJoin'
    rw [hJoin] at hJoin'
    cases hJoin'

/-- Along any run from any state of the server, failed JOINs leave the registry
alone and no more members are added than codes are spent, iff every JOIN that
is issued a certificate can be completed. -/
theorem join_atomic_iff (hSizes : env.FixedSizes) (server : Signaling) (es : List (ServerEvent Ct)) :
    (∀ pre, pre <+: es → ((machine env).run { server := server } pre).Sound) ↔
      ∀ pre e, pre ++ [e] <+: es → Completes env ((machine env).run { server := server } pre) e :=
  Machine.along_run_iff_inv (P := Sound) (I := fun l : JoinLog => l.consumed ≤ l.added)
    (Nat.le_refl 0) ⟨rfl, Nat.le_refl 0⟩ (fun _ _ h => balanced_next hSizes h)
    (fun _ _ hBalanced h => sound_next_iff hSizes hBalanced h) es

-- ---------------------------------------------------------------------------
-- An example
-- ---------------------------------------------------------------------------

open MeshConfig

/-- The sample server with signatures and digests of the right sizes. -/
def exampleServerEnv : SignalingEnv (RawKey × Nonce × Bytes) :=
  { sampleServerEnv with
    signatures := exampleSignatures
    sha256 := exampleMeshEnv.sha256
    toUppercase := exampleMeshEnv.toUppercase }

theorem exampleServerEnv_sizes : exampleServerEnv.FixedSizes where
  sign := exampleSignatures_lawful.sign_length
  sha256 _ := Layout.beBytes_length 32 _

theorem exampleServerEnv_meshEnv : exampleServerEnv.meshEnv = exampleMeshEnv := rfl

/-- A server with one join code, good until 600. -/
def exampleInvited : Signaling :=
  { mesh := (exampleRegistry.createInvite exampleMeshEnv (List.replicate 16 1) none 600 0).1 }

/-- Device 2 joins with this code. -/
def exampleJoin (aliasName : Option String) : JoinBody :=
  { code := inviteCode (List.replicate 16 1)
    deviceId := deviceIdB64 exampleMeshEnv 2 (keyBytes 2)
    ikX := sampleKeyText 2
    ikSPub := sampleKeyText 2
    requestedIp := some "10.13.13.2"
    token := none
    aliasName := aliasName }

def exampleJoinEvent (aliasName : Option String) : ServerEvent (RawKey × Nonce × Bytes) :=
  .datagram
    { msgType := msgJoin
      sender := 2
      payload := sampleCrypto.encryptWithNonce (sampleCrypto.sharedSecret 7 2) (0, 0)
        ((encodeJoin (exampleJoin aliasName)).toOption.getD []) }
    sampleSrc (sampleSignalDraw 0 0)

theorem exampleJoin_peek : exampleInvited.mesh.peekInvite exampleMeshEnv
    (inviteCode (List.replicate 16 1)) 0 = .ok none :=
  peekInvite_createInvite (fun _ h => absurd h List.not_mem_nil) (by decide)

/-- The device asks for `ip`. -/
def exampleAsking (ip : String) (aliasName : Option String) : JoinBody :=
  { exampleJoin aliasName with requestedIp := some ip }

/-- The JOIN is issued a certificate for the text that it asks for. -/
theorem exampleAsking_issues {ip : String} (hText : trim ip = ip) (hNe : ip ≠ "") (aliasName : Option String) :
    Signaling.Issues exampleServerEnv exampleInvited.mesh (exampleAsking ip aliasName)
      (sampleSignalDraw 0 0).join ip ip (List.replicate 32 1) := by
  have hIp : exampleInvited.mesh.allocateIp (some ip) = .ok ip := by
    have hGranted : exampleInvited.mesh.allocateIp (some ip) = .ok (trim ip) :=
      allocateIp_preferred (by rw [hText]; exact hNe) List.not_mem_nil
    rw [hGranted, hText]
  have hKey : parsePublicKey (sampleKeyText 2) = .ok 2 := parsePublicKey_keyB64 (by decide)
  have hSig : parseSigPublic (sampleKeyText 2) = .ok (keyBytes 2) :=
    parseSigPublic_keyB64 (keyBytes_length 2)
  have hRoot : exampleInvited.mesh.root.privateKey = keyB64 (List.replicate 32 1) := rfl
  have hSeed : exampleInvited.mesh.rootSeed = .ok (List.replicate 32 1) := by
    unfold MeshConfig.rootSeed
    rw [hRoot]
    exact b64Fixed_keyB64 rfl
  refine ⟨?_, ?_⟩
  · rw [Signaling.joinChecks_eq_ok, exampleServerEnv_meshEnv]
    exact ⟨none, 2, keyBytes 2, exampleJoin_peek, hKey, hSig, rfl, hIp⟩
  · rw [exampleServerEnv_meshEnv]
    exact issueChecks_eq_ok.mpr ⟨2, keyBytes 2, hKey, hSig, rfl, hIp,
      fun x hx => absurd hx List.not_mem_nil, rfl, hSeed⟩

/-- The JOIN is issued a certificate. -/
theorem exampleJoin_issues (aliasName : Option String) :
    Signaling.Issues exampleServerEnv exampleInvited.mesh (exampleJoin aliasName)
      (sampleSignalDraw 0 0).join "10.13.13.2" "10.13.13.2" (List.replicate 32 1) :=
  exampleAsking_issues (by decide) (by decide) aliasName

/-- Its frame is decoded. -/
theorem exampleJoin_joinOf {aliasName : Option String} {bytes : Bytes}
    (h : encodeJoin (exampleJoin aliasName) = .ok bytes) {s : Signaling} (hFree : (2 : RawKey) ∉ s.sessions) :
    Signaling.joinOf exampleServerEnv s (exampleJoinEvent aliasName) =
      some (2, exampleJoin aliasName, sampleSrc, (sampleSignalDraw 0 0).join) := by
  have hDevice : IsB64Text 32 (exampleJoin aliasName).deviceId :=
    ⟨_, by rw [List.length_take]; exact congrArg (min 32) (Layout.beBytes_length 32 _), rfl⟩
  have hKey : IsB64Text 32 (sampleKeyText 2) := isB64Text_keyB64 (keyBytes_length 2)
  have hBody : decodeJoin bytes = .ok (exampleJoin aliasName) :=
    decodeJoin_encodeJoin hDevice hKey hKey h
  have hOpen : sampleCrypto.decrypt (sampleCrypto.sharedSecret 7 2)
      (sampleCrypto.encryptWithNonce (sampleCrypto.sharedSecret 7 2) (0, 0)
        ((encodeJoin (exampleJoin aliasName)).toOption.getD [])) = some bytes := by
    rw [h]
    exact sampleCrypto_lawful.decrypt_encrypt' _ _ _
  exact Signaling.joinOf_of_body _ _ rfl hFree hOpen hBody

/-- Texts that fit their fields are encoded. -/
theorem exampleJoin_encodes {aliasName : Option String}
    (h : ∃ fields, putOptStr nameLen aliasName = .ok fields) :
    ∃ bytes, encodeJoin (exampleJoin aliasName) = .ok bytes := by
  have hCode : ∃ buf, wireStrSet codeLen (inviteCode (List.replicate 16 1)) = .ok buf :=
    ⟨_, wireStrSet_ok (by decide +kernel) (by decide +kernel)⟩
  have hIp : ∃ buf, wireStrSet ipLen "10.13.13.2" = .ok buf :=
    ⟨_, wireStrSet_ok (by decide +kernel) (by decide +kernel)⟩
  obtain ⟨_, hCode⟩ := hCode
  obtain ⟨_, hIp⟩ := hIp
  obtain ⟨_, hAlias⟩ := h
  have hDevice : b64Key (exampleJoin aliasName).deviceId = .ok _ :=
    b64Key_keyB64 (by rw [List.length_take]; exact congrArg (min 32) (Layout.beBytes_length 32 _))
  have hKey : b64Key (sampleKeyText 2) = .ok (keyBytes 2) := b64Key_keyB64 (keyBytes_length 2)
  have hRequested : putOptStr ipLen (some "10.13.13.2") = .ok _ := bind_eq_ok.mpr ⟨_, hIp, rfl⟩
  refine exists_bind_ok hCode (exists_bind_ok hDevice (exists_bind_ok hKey (exists_bind_ok hKey ?_)))
  exact exists_bind_ok hRequested (exists_bind_ok rfl (exists_bind_ok hAlias ⟨_, rfl⟩))

/-- A JOIN with a bad alias is refused, and its device is a member all the same. -/
theorem join_atomic_fails : ∃ e,
    ¬ ((machine exampleServerEnv).run { server := exampleInvited } [e]).Sound := by
  have hAliasText : ∃ fields, putOptStr nameLen (some "!") = .ok fields :=
    ⟨_, bind_eq_ok.mpr ⟨_, wireStrSet_ok (by decide +kernel) (by decide +kernel), rfl⟩⟩
  obtain ⟨bytes, hBytes⟩ := exampleJoin_encodes hAliasText
  have hJoin := exampleJoin_joinOf hBytes (s := exampleInvited) ExtTreeMap.not_mem_empty
  refine ⟨exampleJoinEvent (some "!"), ?_⟩
  rw [Machine.run_cons, Machine.run_nil, machine_next]
  generalize hEvent : exampleJoinEvent (some "!") = e at hJoin ⊢
  intro hSound
  have hStart : Sound { server := exampleInvited } := ⟨rfl, Nat.le_refl 0⟩
  have hCompletes : Completes exampleServerEnv { server := exampleInvited } e :=
    (sound_next_iff exampleServerEnv_sizes (Nat.le_refl 0) hStart).mp hSound
  have hReaches : Signaling.ReachesRegistry exampleServerEnv exampleInvited 2 (exampleJoin (some "!"))
      sampleSrc (sampleSignalDraw 0 0).join := ⟨rfl, rfl, "default", rfl⟩
  obtain ⟨⟨a, hAlias⟩, _⟩ := hCompletes _ _ _ _ hJoin hReaches _ _ _ (exampleJoin_issues (some "!"))
  have hBad : ∃ e, normalizeSelfAlias exampleServerEnv (some "!") = .error e := ⟨_, rfl⟩
  obtain ⟨e, hBad⟩ := hBad
  rw [show (exampleJoin (some "!")).aliasName = some "!" from rfl, hBad] at hAlias
  cases hAlias

theorem join_atomic_example :
    (∀ pre, pre <+: [exampleJoinEvent (some "laptop")] →
      ((machine exampleServerEnv).run { server := exampleInvited } pre).Sound) ↔
    ∀ pre e, pre ++ [e] <+: [exampleJoinEvent (some "laptop")] →
      Completes exampleServerEnv ((machine exampleServerEnv).run { server := exampleInvited } pre) e :=
  join_atomic_iff exampleServerEnv_sizes exampleInvited [exampleJoinEvent (some "laptop")]

end JoinLog

end LinkMesh
