import Mathlib.Data.List.Nodup
import LinkMesh.Basis.Machine
import LinkMesh.Mesh.Enrolment

/-!
# The mesh registry over whole runs

The registry (`linkmesh-server/src/mesh.rs`) from its initialisation, under any
sequence of its operations, and what a restart of the server asks of the file
it was saved to. JSON is a parameter that reads back what it wrote.

## Results

* `registry_reach`  — members, addresses and revocation list are coherent in
  every registry the operations lead to.
* `revoke_atomic_iff` — when a revocation that fails leaves no trace.
* `restart_iff`     — the saved registry is accepted at a restart iff no member
  certificate has run out.
-/

namespace LinkMesh

/-- The operations of the registry, each with the time it reads. -/
inductive MeshOp where
  | createInvite (raw : Bytes) (ip : Option String) (ttlSecs now : Nat)
  | issueCert (ikX ikSPub ip : String) (noteDeviceId : Option String) (now : Nat)
  | consumeInvite (code : String) (now : Nat)
  | setMemberAlias (deviceId aliasName : String)
  | revoke (deviceId : String) (reason : RevokeReason) (now : Nat)

/-- The time an operation reads, if any. -/
def MeshOp.time : MeshOp → Nat
  | .createInvite _ _ _ now => now
  | .issueCert _ _ _ _ now => now
  | .consumeInvite _ now => now
  | .setMemberAlias _ _ => 0
  | .revoke _ _ now => now

/-- One more element with a value of its own. -/
theorem nodup_map_concat {α β : Type} {f : α → β} {l : List α} {a : α} (h : (l.map f).Nodup)
    (hNew : ∀ x ∈ l, f x ≠ f a) : ((l ++ [a]).map f).Nodup := by
  rw [List.map_append, List.nodup_append]
  refine ⟨h, List.nodup_singleton _, fun b hb c hc => ?_⟩
  obtain ⟨x, hx, rfl⟩ := List.mem_map.mp hb
  rw [List.mem_singleton.mp hc]
  exact hNew x hx

namespace MeshConfig

/-- The registry after an operation, failed ones included. -/
def apply (env : MeshEnv) (m : MeshConfig) : MeshOp → MeshConfig
  | .createInvite raw ip ttlSecs now => (m.createInvite env raw ip ttlSecs now).1
  | .issueCert ikX ikSPub ip note now => (m.issueCert env ikX ikSPub ip note now).1
  | .consumeInvite code now => (m.consumeInvite env code now).1
  | .setMemberAlias deviceId aliasName => m.setMemberAlias deviceId aliasName
  | .revoke deviceId reason now => (m.revoke env.signatures deviceId reason now).1

/-- The registry from its initialisation on. -/
def machine (env : MeshEnv) (verifyingKey : Bytes → Bytes) : Machine MeshConfig MeshOp where
  init m := ∃ (meshId : String) (seed : Bytes), seed.length = 32 ∧ m = init env verifyingKey meshId seed
  enabled _ _ := True
  next := apply env

-- ---------------------------------------------------------------------------
-- The invariant
-- ---------------------------------------------------------------------------

/-- Members, their addresses and the revocation list fit together. -/
structure Coherent (env : MeshEnv) (m : MeshConfig) : Prop where
  deviceIds : (m.members.map (·.deviceId)).Nodup
  ips : (m.members.map (·.cert.allowedIp)).Nodup
  unrevoked : ∀ x ∈ m.members, m.isRevoked x.deviceId = false
  crlIds : (m.crl.entries.map (·.deviceId)).Nodup
  version : m.crl.version = m.crl.entries.length
  signed : ∃ rootPub, m.rootPublicRaw = .ok rootPub ∧ m.crl.verify env.signatures rootPub = .ok ()
  cap : m.crl.entries.length ≤ maxCrlEntries

/-- What the root key pair of a seed has signed, in a coherent registry. -/
structure RootSigned (env : MeshEnv) (verifyingKey : Bytes → Bytes) (seed : Bytes) (m : MeshConfig) :
    Prop where
  root : m.root = .generate verifyingKey seed
  crl : m.crl.signature = some (keyB64 (env.signatures.sign seed m.crl.canonicalBytes))
  certs : ∀ x ∈ m.members, x.cert.deviceId = x.deviceId ∧
    x.cert.signature = some (keyB64 (env.signatures.sign seed x.cert.canonicalBytes)) ∧
    x.cert.validFrom = x.joinedAt ∧ x.cert.notAfter = x.joinedAt + certValiditySecs

variable {env : MeshEnv} {verifyingKey : Bytes → Bytes} {seed : Bytes} {m : MeshConfig}
  {deviceId : String} {reason : RevokeReason} {now : Nat}

theorem RootSigned.rootSeed (h : RootSigned env verifyingKey seed m) (hSeed : seed.length = 32) :
    m.rootSeed = .ok seed := by
  unfold MeshConfig.rootSeed
  rw [h.root]
  exact b64Fixed_keyB64 hSeed

theorem RootSigned.rootPublicRaw (hLawful : env.signatures.Lawful verifyingKey)
    (h : RootSigned env verifyingKey seed m) : m.rootPublicRaw = .ok (verifyingKey seed) := by
  unfold MeshConfig.rootPublicRaw
  rw [h.root]
  exact parseSigPublic_keyB64 (hLawful.key_length seed)

/-- A list that the root signed verifies. -/
theorem RootSigned.crl_verify (hLawful : env.signatures.Lawful verifyingKey)
    (h : RootSigned env verifyingKey seed m) :
    m.crl.verify env.signatures (verifyingKey seed) = .ok () := by
  unfold Crl.verify
  rw [h.crl]
  dsimp only
  refine bind_eq_ok.mpr ⟨_, b64Fixed_keyB64 (hLawful.sign_length _ _), ?_⟩
  rw [if_pos (hLawful.verify_sign _ _)]

/-- A certificate that the root signed verifies in its validity period. -/
theorem RootSigned.cert_verify_iff (hLawful : env.signatures.Lawful verifyingKey)
    (h : RootSigned env verifyingKey seed m) {x : MemberEntry} (hx : x ∈ m.members) :
    x.cert.verify env.signatures (verifyingKey seed) now = .ok () ↔
      x.joinedAt ≤ now ∧ now ≤ x.joinedAt + certValiditySecs := by
  obtain ⟨_, hSig, hFrom, hAfter⟩ := h.certs x hx
  have hDecode : b64Fixed 64 "设备证书签名 base64 解析失败" "设备证书签名 长度错误，应为 64 字节"
      (keyB64 (env.signatures.sign seed x.cert.canonicalBytes)) =
      .ok (env.signatures.sign seed x.cert.canonicalBytes) :=
    b64Fixed_keyB64 (hLawful.sign_length seed x.cert.canonicalBytes)
  rw [DeviceCert.verify_eq_ok, ← hAfter, ← hFrom]
  constructor
  · rintro ⟨_, _, _, _, _, hPeriod⟩
    exact hPeriod
  · intro hPeriod
    exact ⟨_, _, hSig, hDecode, hLawful.verify_sign _ _, hPeriod⟩

/-- A revocation that fails changes nothing when the root key is in order. -/
theorem revoke_cases (env : MeshEnv) (hSeed : m.rootSeed = .ok seed) (deviceId : String)
    (reason : RevokeReason) (now : Nat) :
    (∃ e, m.revoke env.signatures deviceId reason now = (m, .error e)) ∨
    (m.isRevoked deviceId = false ∧ m.crl.entries.length < maxCrlEntries ∧
      m.revoke env.signatures deviceId reason now =
        ({ m with
          crl := (m.crlPush deviceId reason now).sign env.signatures seed
          members := m.members.filter (·.deviceId != deviceId) },
          .ok ((m.crlPush deviceId reason now).sign env.signatures seed))) := by
  unfold revoke
  split
  · exact .inl ⟨_, rfl⟩
  · rename_i hLive
    split
    · exact .inl ⟨_, rfl⟩
    · rename_i hRoom
      rw [hSeed]
      exact .inr ⟨by simpa using hLive, by omega, rfl⟩

/-- A revocation changes the revocation list and takes members away. -/
theorem revoke_frame (env : MeshEnv) (m : MeshConfig) (deviceId : String) (reason : RevokeReason)
    (now : Nat) :
    ∃ crl members, members.Sublist m.members ∧
      (m.revoke env.signatures deviceId reason now).1 = { m with crl := crl, members := members } := by
  unfold revoke
  split
  · exact ⟨m.crl, m.members, List.Sublist.refl _, rfl⟩
  · split
    · exact ⟨m.crl, m.members, List.Sublist.refl _, rfl⟩
    · split
      · exact ⟨_, m.members, List.Sublist.refl _, rfl⟩
      · exact ⟨_, _, List.filter_sublist, rfl⟩

theorem crlPush_length : (m.crlPush deviceId reason now).entries.length = m.crl.entries.length + 1 := by
  unfold crlPush
  rw [List.length_append]
  rfl

theorem isRevoked_iff : m.isRevoked deviceId = true ↔ deviceId ∈ m.crl.entries.map (·.deviceId) := by
  unfold isRevoked Crl.isRevoked
  simp [List.any_eq_true]

/-- The parts of the invariant that other operations do not touch. -/
theorem Coherent.of_eq {m' : MeshConfig} (h : Coherent env m) (hRoot : m'.root = m.root)
    (hCrl : m'.crl = m.crl) (hIds : m'.members.map (·.deviceId) = m.members.map (·.deviceId))
    (hIps : m'.members.map (·.cert.allowedIp) = m.members.map (·.cert.allowedIp)) :
    Coherent env m' := by
  have hPublic : m'.rootPublicRaw = m.rootPublicRaw := by
    unfold MeshConfig.rootPublicRaw
    rw [hRoot]
  refine ⟨hIds ▸ h.deviceIds, hIps ▸ h.ips, fun x hx => ?_, hCrl ▸ h.crlIds, hCrl ▸ h.version, ?_,
    hCrl ▸ h.cap⟩
  · have hMem : x.deviceId ∈ m.members.map (·.deviceId) := hIds ▸ List.mem_map_of_mem hx
    obtain ⟨y, hy, hSame⟩ := List.mem_map.mp hMem
    show m'.crl.isRevoked x.deviceId = false
    rw [hCrl, ← hSame]
    exact h.unrevoked y hy
  · rw [hPublic, hCrl]
    exact h.signed

/-- An issued certificate has a device and an address of its own. -/
theorem coherent_issueCert (h : Coherent env m) (ikX ikSPub ip : String) (note : Option String)
    (now : Nat) : Coherent env (m.issueCert env ikX ikSPub ip note now).1 := by
  rcases issueCert_cases env m ikX ikSPub ip note now with
    ⟨e, _, hEq⟩ | ⟨deviceId, granted, seed, hChecks, hEq⟩
  · rw [hEq]
    exact h
  · obtain ⟨_, _, _, _, _, hIp, hNew, hLive, _⟩ := issueChecks_eq_ok.mp hChecks
    have hFree := allocateIp_free hIp
    rw [hEq]
    refine ⟨?_, ?_, fun x hx => ?_, h.crlIds, h.version, h.signed, h.cap⟩
    · exact nodup_map_concat h.deviceIds hNew
    · refine nodup_map_concat h.ips fun y hy hSame => hFree (List.mem_append_left _ ?_)
      exact List.mem_map.mpr ⟨y, hy, hSame⟩
    · rcases List.mem_append.mp hx with hOld | hLast
      · exact h.unrevoked x hOld
      · rw [List.mem_singleton.mp hLast]
        exact hLive

/-- A revocation lists a device that was not listed, and takes it off the members. -/
theorem coherent_revoke (hLawful : env.signatures.Lawful verifyingKey)
    (hSigned : RootSigned env verifyingKey seed m) (hSeed : seed.length = 32) (h : Coherent env m)
    (deviceId : String) (reason : RevokeReason) (now : Nat) :
    Coherent env (m.revoke env.signatures deviceId reason now).1 ∧
      RootSigned env verifyingKey seed (m.revoke env.signatures deviceId reason now).1 := by
  rcases revoke_cases env (hSigned.rootSeed hSeed) deviceId reason now with
    ⟨e, hEq⟩ | ⟨hLive, hRoom, hEq⟩
  · rw [hEq]
    exact ⟨h, hSigned⟩
  · rw [hEq]
    have hAfter : RootSigned env verifyingKey seed
        { m with
          crl := (m.crlPush deviceId reason now).sign env.signatures seed
          members := m.members.filter (·.deviceId != deviceId) } :=
      ⟨hSigned.root, rfl, fun x hx => hSigned.certs x (List.mem_filter.mp hx).1⟩
    refine ⟨⟨?_, ?_, fun x hx => ?_, ?_, ?_, ?_, ?_⟩, hAfter⟩
    · exact h.deviceIds.sublist (List.filter_sublist.map _)
    · exact h.ips.sublist (List.filter_sublist.map _)
    · obtain ⟨hOld, hOther⟩ := List.mem_filter.mp hx
      show (m.crlPush deviceId reason now).isRevoked x.deviceId = false
      rw [isRevoked_crlPush, h.unrevoked x hOld, Bool.false_or, beq_eq_false_iff_ne]
      exact (bne_iff_ne.mp hOther).symm
    · refine nodup_map_concat h.crlIds fun y hy hSame => ?_
      have hListed := isRevoked_iff.mpr (List.mem_map.mpr ⟨y, hy, hSame⟩)
      rw [hLive] at hListed
      cases hListed
    · show m.crl.version + 1 = (m.crlPush deviceId reason now).entries.length
      rw [crlPush_length, h.version]
    · exact ⟨_, hAfter.rootPublicRaw hLawful, hAfter.crl_verify hLawful⟩
    · show (m.crlPush deviceId reason now).entries.length ≤ maxCrlEntries
      rw [crlPush_length]
      exact hRoom

/-- An issued certificate is signed by the root, from the time of the issue on. -/
theorem rootSigned_issueCert (hSigned : RootSigned env verifyingKey seed m) (hSeed : seed.length = 32)
    (ikX ikSPub ip : String) (note : Option String) (now : Nat) :
    RootSigned env verifyingKey seed (m.issueCert env ikX ikSPub ip note now).1 := by
  rcases issueCert_cases env m ikX ikSPub ip note now with
    ⟨e, _, hEq⟩ | ⟨deviceId, granted, seed', hChecks, hEq⟩
  · rw [hEq]
    exact hSigned
  · obtain ⟨_, _, _, _, _, _, _, _, hRoot⟩ := issueChecks_eq_ok.mp hChecks
    have hSame : seed' = seed := by
      rw [hSigned.rootSeed hSeed] at hRoot
      exact (Except.ok.inj hRoot).symm
    rw [hEq, hSame]
    refine ⟨hSigned.root, hSigned.crl, fun x hx => ?_⟩
    rcases List.mem_append.mp hx with hOld | hLast
    · exact hSigned.certs x hOld
    · rw [List.mem_singleton.mp hLast]
      exact ⟨rfl, rfl, rfl, rfl⟩

/-- An alias leaves certificates as they are. -/
theorem rootSigned_setMemberAlias (hSigned : RootSigned env verifyingKey seed m)
    (deviceId aliasName : String) :
    RootSigned env verifyingKey seed (m.setMemberAlias deviceId aliasName) := by
  refine ⟨hSigned.root, hSigned.crl, fun x hx => ?_⟩
  obtain ⟨y, hy, hId, hCert, hJoined⟩ := mem_setMemberAlias hx
  rw [hId, hCert, hJoined]
  exact hSigned.certs y hy

/-- Every operation keeps the invariant. -/
theorem coherent_apply (hLawful : env.signatures.Lawful verifyingKey) (hSeed : seed.length = 32)
    (hSigned : RootSigned env verifyingKey seed m) (h : Coherent env m) (op : MeshOp) :
    Coherent env (apply env m op) ∧ RootSigned env verifyingKey seed (apply env m op) := by
  cases op with
  | createInvite raw ip ttlSecs now =>
    exact ⟨h.of_eq rfl rfl rfl rfl, hSigned.root, hSigned.crl, hSigned.certs⟩
  | issueCert ikX ikSPub ip note now =>
    exact ⟨coherent_issueCert h ikX ikSPub ip note now,
      rootSigned_issueCert hSigned hSeed ikX ikSPub ip note now⟩
  | consumeInvite code now =>
    obtain ⟨invites, hEq⟩ := consumeInvite_frame env m code now
    have hNext : apply env m (.consumeInvite code now) = { m with invites := invites } := hEq
    rw [hNext]
    exact ⟨h.of_eq rfl rfl rfl rfl, hSigned.root, hSigned.crl, hSigned.certs⟩
  | setMemberAlias deviceId aliasName =>
    have hIds : (m.setMemberAlias deviceId aliasName).members.map (·.deviceId) =
        m.members.map (·.deviceId) := setMemberAlias_map _ (fun _ _ => rfl) deviceId aliasName
    have hIps : (m.setMemberAlias deviceId aliasName).members.map (·.cert.allowedIp) =
        m.members.map (·.cert.allowedIp) := setMemberAlias_map _ (fun _ _ => rfl) deviceId aliasName
    exact ⟨h.of_eq rfl rfl hIds hIps, rootSigned_setMemberAlias hSigned deviceId aliasName⟩
  | revoke deviceId reason now =>
    exact coherent_revoke hLawful hSigned hSeed h deviceId reason now

theorem rootSigned_init (env : MeshEnv) (verifyingKey : Bytes → Bytes) (meshId : String)
    (seed : Bytes) : RootSigned env verifyingKey seed (init env verifyingKey meshId seed) :=
  ⟨rfl, rfl, fun _ hx => absurd hx List.not_mem_nil⟩

/-- A new mesh is coherent. -/
theorem coherent_init (hLawful : env.signatures.Lawful verifyingKey) (meshId : String)
    (seed : Bytes) : Coherent env (init env verifyingKey meshId seed) := by
  have hSigned := rootSigned_init env verifyingKey meshId seed
  refine ⟨List.nodup_nil, List.nodup_nil, fun x hx => absurd hx List.not_mem_nil, List.nodup_nil, rfl,
    ⟨_, hSigned.rootPublicRaw hLawful, hSigned.crl_verify hLawful⟩, Nat.zero_le _⟩

/-- The run lemma: coherent, and signed by the root key pair of the mesh. -/
theorem coherent_reach {G : MeshConfig → MeshOp → Prop} (hLawful : env.signatures.Lawful verifyingKey)
    (h : (machine env verifyingKey).Reach G m) :
    Coherent env m ∧ ∃ seed, seed.length = 32 ∧ RootSigned env verifyingKey seed m := by
  refine Machine.Reach.invariant (I := fun m =>
    Coherent env m ∧ ∃ seed, seed.length = 32 ∧ RootSigned env verifyingKey seed m) ?_ ?_ h
  · rintro s ⟨meshId, seed, hSeed, rfl⟩
    exact ⟨coherent_init hLawful meshId seed, seed, hSeed, rootSigned_init env verifyingKey meshId seed⟩
  · rintro s op ⟨hCoherent, seed, hSeed, hSigned⟩ _ _
    have hNext := coherent_apply hLawful hSeed hSigned hCoherent op
    exact ⟨hNext.1, seed, hSeed, hNext.2⟩

/-- A successful revocation raises the version. -/
theorem revoke_version {crl : Crl} (hSeed : m.rootSeed = .ok seed)
    (h : (m.revoke env.signatures deviceId reason now).2 = .ok crl) :
    m.crl.version < (m.revoke env.signatures deviceId reason now).1.crl.version := by
  rcases revoke_cases env hSeed deviceId reason now with ⟨e, hEq⟩ | ⟨_, _, hEq⟩
  · rw [hEq] at h
    cases h
  · rw [hEq]
    exact Nat.lt_succ_self _

/-- Whatever the operations do, the registry stays coherent, and each revocation
that succeeds raises the version of the list. -/
theorem registry_reach (hLawful : env.signatures.Lawful verifyingKey)
    (h : (machine env verifyingKey).Reach (fun _ _ => True) m) :
    Coherent env m ∧ ∀ deviceId reason now crl,
      (m.revoke env.signatures deviceId reason now).2 = .ok crl →
        m.crl.version < (m.revoke env.signatures deviceId reason now).1.crl.version := by
  obtain ⟨hCoherent, seed, hSeed, hSigned⟩ := coherent_reach hLawful h
  exact ⟨hCoherent, fun _ _ _ _ hOk => revoke_version (hSigned.rootSeed hSeed) hOk⟩

-- ---------------------------------------------------------------------------
-- A registry for the examples
-- ---------------------------------------------------------------------------

/-- A signature is the public key and a digest of the message. -/
def exampleSignatures : Signatures where
  sign seed msg := (seed ++ List.replicate 32 0).take 32 ++ Layout.beBytes 32 (Layout.beValue msg)
  verify rootPub msg sig := sig == rootPub ++ Layout.beBytes 32 (Layout.beValue msg)

def exampleVerifyingKey (seed : Bytes) : Bytes := (seed ++ List.replicate 32 0).take 32

def exampleMeshEnv : MeshEnv where
  signatures := exampleSignatures
  sha256 bs := Layout.beBytes 32 (Layout.beValue bs)
  toUppercase s := String.ofList (s.toList.map Char.toUpper)

theorem exampleSignatures_lawful : exampleSignatures.Lawful exampleVerifyingKey where
  sign_length seed msg := by
    show ((seed ++ List.replicate 32 0).take 32 ++ Layout.beBytes 32 (Layout.beValue msg)).length = 64
    rw [List.length_append, List.length_take, List.length_append, List.length_replicate,
      Layout.beBytes_length]
    omega
  key_length seed := by
    show ((seed ++ List.replicate 32 0).take 32).length = 32
    rw [List.length_take, List.length_append, List.length_replicate]
    omega
  verify_sign _ _ := beq_self_eq_true _

def exampleRegistry : MeshConfig :=
  init exampleMeshEnv exampleVerifyingKey "mesh" (List.replicate 32 1)

/-- The devices 2 and 3 have different ids. -/
theorem exampleDevice_ne :
    deviceIdB64 exampleMeshEnv 2 (keyBytes 2) ≠ deviceIdB64 exampleMeshEnv 3 (keyBytes 3) := by
  have hLength : ∀ bs, ((exampleMeshEnv.sha256 bs).take 32).length = 32 := by
    intro bs
    rw [List.length_take]
    exact congrArg (min 32) (Layout.beBytes_length 32 _)
  intro hEq
  have hDigest := keyB64_inj (hLength _) (hLength _) hEq
  revert hDigest
  decide +kernel

/-- The keys `k` are certified at the time 0, for the address `ip`. -/
def exampleIssue (k : RawKey) (ip : String) : MeshOp :=
  .issueCert (keyB64 (keyBytes k)) (keyB64 (keyBytes k)) ip none 0

/-- Two devices get a certificate, and the first one is revoked. -/
def exampleOps : List MeshOp :=
  [exampleIssue 2 "10.13.13.2", exampleIssue 3 "10.13.13.2",
    .revoke (deviceIdB64 exampleMeshEnv 2 (keyBytes 2)) .compromised 1]

def exampleRevoked : MeshConfig :=
  (machine exampleMeshEnv exampleVerifyingKey).run exampleRegistry exampleOps

theorem exampleRegistry_reach {G : MeshConfig → MeshOp → Prop} :
    (machine exampleMeshEnv exampleVerifyingKey).Reach G exampleRegistry :=
  .init ⟨"mesh", List.replicate 32 1, rfl, rfl⟩

theorem registry_reach_example : Coherent exampleMeshEnv exampleRevoked ∧
    ∀ deviceId reason now crl,
      (exampleRevoked.revoke exampleMeshEnv.signatures deviceId reason now).2 = .ok crl →
        exampleRevoked.crl.version <
          (exampleRevoked.revoke exampleMeshEnv.signatures deviceId reason now).1.crl.version :=
  registry_reach exampleSignatures_lawful
    (Machine.reach_run exampleRegistry_reach
      ⟨trivial, trivial, trivial, trivial, trivial, trivial, trivial⟩)

-- ---------------------------------------------------------------------------
-- Revocations that fail
-- ---------------------------------------------------------------------------

/-- An error leaves the members and the revocation list as they were, and the
signature of the list on what it was on. -/
def RevokeAtomic (S : Signatures) (m : MeshConfig) (deviceId : String) (reason : RevokeReason)
    (now : Nat) : Prop :=
  ∀ e, (m.revoke S deviceId reason now).2 = .error e →
    (m.revoke S deviceId reason now).1.members = m.members ∧
    (m.revoke S deviceId reason now).1.crl.entries = m.crl.entries ∧
    (m.revoke S deviceId reason now).1.crl.version = m.crl.version ∧
    (m.revoke S deviceId reason now).1.crl.signature = m.crl.signature ∧
    ∀ rootPub, m.crl.verify S rootPub = .ok () →
      (m.revoke S deviceId reason now).1.crl.verify S rootPub = .ok ()

/-- The two checks come before anything is changed. -/
theorem revoke_refused {S : Signatures}
    (h : m.isRevoked deviceId = true ∨ maxCrlEntries ≤ m.crl.entries.length) :
    (m.revoke S deviceId reason now).1 = m := by
  unfold revoke
  split
  · rfl
  · rename_i hLive
    rw [if_pos (h.resolve_left hLive)]

/-- With a damaged root key the entry stays on the list, under the old signature. -/
theorem revoke_damaged {S : Signatures} {e : String} (hLive : m.isRevoked deviceId = false)
    (hRoom : m.crl.entries.length < maxCrlEntries) (hSeed : m.rootSeed = .error e) :
    m.revoke S deviceId reason now = ({ m with crl := m.crlPush deviceId reason now }, .error e) := by
  unfold revoke
  rw [if_neg (by rw [hLive]; exact Bool.false_ne_true), if_neg (Nat.not_le.mpr hRoom), hSeed]

/-- A revocation that fails changes nothing iff it fails in one of the two
checks, or cannot fail after them: the entry is pushed before the root key is
decoded. -/
theorem revoke_atomic_iff (S : Signatures) (m : MeshConfig) (deviceId : String)
    (reason : RevokeReason) (now : Nat) :
    RevokeAtomic S m deviceId reason now ↔
      m.isRevoked deviceId = true ∨ maxCrlEntries ≤ m.crl.entries.length ∨
        ∃ seed, m.rootSeed = .ok seed := by
  constructor
  · intro hAtomic
    by_cases hLive : m.isRevoked deviceId = true
    · exact .inl hLive
    by_cases hRoom : maxCrlEntries ≤ m.crl.entries.length
    · exact .inr (.inl hRoom)
    refine .inr (.inr ?_)
    cases hSeed : m.rootSeed with
    | ok seed => exact ⟨seed, rfl⟩
    | error e =>
      have hDamaged : m.revoke S deviceId reason now =
          ({ m with crl := m.crlPush deviceId reason now }, .error e) :=
        revoke_damaged (Bool.eq_false_of_not_eq_true hLive) (Nat.not_le.mp hRoom) hSeed
      obtain ⟨_, _, hVersion, _, _⟩ := hAtomic e (by rw [hDamaged])
      rw [hDamaged] at hVersion
      exact absurd hVersion (Nat.succ_ne_self _)
  · intro hWhen e hError
    have hSame : (m.revoke S deviceId reason now).1 = m := by
      rcases hWhen with hListed | hFull | ⟨seed, hSeed⟩
      · exact revoke_refused (.inl hListed)
      · exact revoke_refused (.inr hFull)
      · rcases revoke_cases ⟨S, id, id⟩ hSeed deviceId reason now with ⟨e', hEq⟩ | ⟨_, _, hEq⟩
        · exact congrArg Prod.fst hEq
        · rw [congrArg Prod.snd hEq] at hError
          cases hError
    rw [hSame]
    exact ⟨rfl, rfl, rfl, rfl, fun _ hVerify => hVerify⟩

/-- The registry of a new mesh, loaded from a file without its root key. -/
def damagedRegistry : MeshConfig :=
  { exampleRegistry with root := { exampleRegistry.root with privateKey := "" } }

/-- The revocation of a device fails there, the device is listed all the same,
and the list no longer verifies. -/
theorem damaged_revoke_listed :
    (damagedRegistry.revoke exampleSignatures "d" .admin 0).2 =
        .error "root 私钥长度错误，应为 32 字节" ∧
      damagedRegistry.crl.verify exampleSignatures (exampleVerifyingKey (List.replicate 32 1)) =
        .ok () ∧
      (damagedRegistry.revoke exampleSignatures "d" .admin 0).1.crl.verify exampleSignatures
        (exampleVerifyingKey (List.replicate 32 1)) = .error "CRL 签名无效" ∧
      ¬ RevokeAtomic exampleSignatures damagedRegistry "d" .admin 0 := by
  have hSeed : damagedRegistry.rootSeed = .error "root 私钥长度错误，应为 32 字节" := by decide
  have hEq : damagedRegistry.revoke exampleSignatures "d" .admin 0 =
      ({ damagedRegistry with crl := damagedRegistry.crlPush "d" .admin 0 }, .error _) :=
    revoke_damaged rfl (by decide) hSeed
  refine ⟨congrArg Prod.snd hEq, ?_, ?_, fun hAtomic => ?_⟩
  · exact (rootSigned_init exampleMeshEnv exampleVerifyingKey "mesh" _).crl_verify
      exampleSignatures_lawful
  · rw [congrArg Prod.fst hEq]
    decide +kernel
  · obtain ⟨_, _, hVersion, _, _⟩ := hAtomic _ (congrArg Prod.snd hEq)
    rw [congrArg Prod.fst hEq] at hVersion
    exact absurd hVersion (Nat.succ_ne_self _)

-- ---------------------------------------------------------------------------
-- Restart
-- ---------------------------------------------------------------------------

end MeshConfig

/-- `serde_json`, with the texts it reads and writes in `τ`. -/
structure MeshJson (τ : Type) where
  encode : MeshConfig → τ
  decode : τ → Except String MeshConfig

/-- It reads what it wrote. -/
def MeshJson.Lawful {τ : Type} (J : MeshJson τ) : Prop := ∀ m, J.decode (J.encode m) = .ok m

namespace MeshConfig

variable {τ : Type} {env : MeshEnv} {verifyingKey : Bytes → Bytes} {seed : Bytes} {m : MeshConfig}
  {deviceId : String} {now : Nat}

/-- `MeshConfig::load`, from what the file at `path` holds. -/
def load (J : MeshJson τ) (path : String) (file : Option τ) : Except String (Option MeshConfig) :=
  match file with
  | none => .ok none
  | some text =>
    match J.decode text with
    | .ok m => .ok (some m)
    | .error e => .error s!"解析 {path} 失败: {e}"

/-- The registry that `Signaling::new` starts with, at the time `now`. -/
def startMesh (J : MeshJson τ) (env : MeshEnv) (path : String) (file : Option τ) (now : Nat) :
    Except String MeshConfig :=
  match load J path file with
  | .ok (some m) =>
    match m.verifyIntegrity env now with
    | .error e => .error s!"{path} 完整性校验失败: {e}"
    | .ok () => .ok m
  | .ok none => .error s!"{path} 不存在，请先执行 --mesh-init 初始化网格"
  | .error e => .error s!"加载 {path} 失败: {e}"

theorem forM_eq_ok {ε α : Type} {f : α → Except ε Unit} {l : List α} :
    l.forM f = .ok () ↔ ∀ a ∈ l, f a = .ok () := by
  induction l with
  | nil => simp [pure, Except.pure]
  | cons a l ih =>
    show (f a >>= fun _ => l.forM f) = .ok () ↔ _
    rw [bind_eq_ok, List.forall_mem_cons, ← ih]
    exact ⟨fun ⟨_, hHead, hTail⟩ => ⟨hHead, hTail⟩, fun ⟨hHead, hTail⟩ => ⟨(), hHead, hTail⟩⟩

/-- A saved file is loaded again; then the integrity check decides. -/
theorem startMesh_saved {J : MeshJson τ} (hJson : J.Lawful) (env : MeshEnv) (path : String)
    (m : MeshConfig) (now : Nat) :
    startMesh J env path (some (J.encode m)) now =
      match m.verifyIntegrity env now with
      | .error e => .error s!"{path} 完整性校验失败: {e}"
      | .ok () => .ok m := by
  have hLoad : load J path (some (J.encode m)) = .ok (some m) := by
    unfold load
    dsimp only
    rw [hJson m]
  unfold startMesh
  rw [hLoad]

theorem startMesh_saved_iff {J : MeshJson τ} (hJson : J.Lawful) (env : MeshEnv) (path : String)
    (m : MeshConfig) (now : Nat) :
    startMesh J env path (some (J.encode m)) now = .ok m ↔ m.verifyIntegrity env now = .ok () := by
  rw [startMesh_saved hJson]
  cases m.verifyIntegrity env now with
  | error e => exact ⟨fun h => (nomatch h), fun h => (nomatch h)⟩
  | ok _ => exact ⟨fun _ => rfl, fun _ => rfl⟩

/-- The integrity check asks whether the certificates are in their validity period. -/
theorem verifyIntegrity_iff (hLawful : env.signatures.Lawful verifyingKey)
    (h : RootSigned env verifyingKey seed m) :
    m.verifyIntegrity env now = .ok () ↔
      ∀ x ∈ m.members, x.joinedAt ≤ now ∧ now ≤ x.joinedAt + certValiditySecs := by
  unfold verifyIntegrity
  rw [h.rootPublicRaw hLawful]
  show (m.crl.verify env.signatures (verifyingKey seed) >>= _) = Except.ok () ↔ _
  rw [h.crl_verify hLawful]
  show (m.members.forM _) = Except.ok () ↔ _
  rw [forM_eq_ok]
  exact forall₂_congr fun x hx => h.cert_verify_iff hLawful hx

/-- Members stay as they were, except for the one that an issue adds. -/
theorem mem_apply {x : MemberEntry} {op : MeshOp} (hx : x ∈ (apply env m op).members) :
    (∃ y ∈ m.members, x.joinedAt = y.joinedAt) ∨ x.joinedAt = op.time := by
  cases op with
  | createInvite raw ip ttlSecs now =>
    unfold apply createInvite at hx
    exact .inl ⟨x, hx, rfl⟩
  | issueCert ikX ikSPub ip note now =>
    simp only [apply] at hx
    rcases issueCert_cases env m ikX ikSPub ip note now with ⟨e, _, hEq⟩ | ⟨d, granted, seed, _, hEq⟩
    · rw [hEq] at hx
      exact .inl ⟨x, hx, rfl⟩
    · rw [hEq] at hx
      rcases List.mem_append.mp hx with hOld | hLast
      · exact .inl ⟨x, hOld, rfl⟩
      · rw [List.mem_singleton.mp hLast]
        exact .inr rfl
  | consumeInvite code now =>
    obtain ⟨invites, hEq⟩ := consumeInvite_frame env m code now
    have hNext : apply env m (.consumeInvite code now) = { m with invites := invites } := hEq
    rw [hNext] at hx
    exact .inl ⟨x, hx, rfl⟩
  | setMemberAlias deviceId aliasName =>
    obtain ⟨y, hy, _, _, hJoined⟩ := mem_setMemberAlias hx
    exact .inl ⟨y, hy, hJoined⟩
  | revoke deviceId reason now =>
    obtain ⟨crl, members, hSub, hEq⟩ := revoke_frame env m deviceId reason now
    have hx : x ∈ (m.revoke env.signatures deviceId reason now).1.members := hx
    rw [hEq] at hx
    exact .inl ⟨x, hSub.subset hx, rfl⟩

/-- Nobody joined after the last operation. -/
theorem joinedAt_le (h : (machine env verifyingKey).Reach (fun _ op => op.time ≤ now) m) :
    ∀ x ∈ m.members, x.joinedAt ≤ now := by
  induction h with
  | init hInit =>
    obtain ⟨_, _, _, rfl⟩ := hInit
    intro x hx
    exact absurd hx List.not_mem_nil
  | step _ _ hTime ih =>
    intro x hx
    rcases mem_apply hx with ⟨y, hy, hJoined⟩ | hNow
    · rw [hJoined]
      exact ih y hy
    · rw [hNow]
      exact hTime

theorem startMesh_reach_iff {J : MeshJson τ} (hJson : J.Lawful)
    (hLawful : env.signatures.Lawful verifyingKey)
    (h : (machine env verifyingKey).Reach (fun _ op => op.time ≤ now) m) (path : String) :
    startMesh J env path (some (J.encode m)) now = .ok m ↔
      ∀ x ∈ m.members, now ≤ x.joinedAt + certValiditySecs := by
  obtain ⟨_, seed, _, hSigned⟩ := coherent_reach hLawful h
  rw [startMesh_saved_iff hJson, verifyIntegrity_iff hLawful hSigned]
  exact forall₂_congr fun x hx => and_iff_right (joinedAt_le h x hx)

/-- After any run, a restart at a later time accepts the saved registry iff no
member was issued its certificate more than a year before. -/
theorem restart_iff {J : MeshJson τ} (hJson : J.Lawful) (hLawful : env.signatures.Lawful verifyingKey)
    (h : (machine env verifyingKey).Reach (fun _ op => op.time ≤ now) m) (path : String) :
    startMesh J env path (some (J.encode m)) now = .ok m ↔
      ∀ x ∈ m.members, now ≤ x.joinedAt + certValiditySecs :=
  startMesh_reach_iff hJson hLawful h path

/-- JSON that is the registry itself. -/
def exampleJson : MeshJson MeshConfig := ⟨id, .ok⟩

theorem restart_iff_example :
    startMesh exampleJson exampleMeshEnv "mesh.json" (some (exampleJson.encode exampleRevoked)) 2 =
        .ok exampleRevoked ↔
      ∀ x ∈ exampleRevoked.members, 2 ≤ x.joinedAt + certValiditySecs := by
  have hReach : (machine exampleMeshEnv exampleVerifyingKey).Reach (fun _ op => op.time ≤ 2)
      exampleRevoked :=
    Machine.reach_run exampleRegistry_reach
      ⟨trivial, Nat.zero_le 2, trivial, Nat.zero_le 2, trivial, (by decide : 1 ≤ 2), trivial⟩
  exact restart_iff (J := exampleJson) (fun _ => rfl) exampleSignatures_lawful hReach "mesh.json"

/-- In a registry with the root of the example, a new device gets a free address. -/
theorem exampleIssue_checks {k : RawKey} {ip : String} (hKey : parsePublicKey (keyB64 (keyBytes k)) = .ok k)
    (hRoot : m.root = exampleRegistry.root) (hCrl : m.crl = exampleRegistry.crl)
    (hText : trim ip = ip) (hNe : ip ≠ "") (hFree : ip ∉ m.usedIps)
    (hNew : ∀ x ∈ m.members, x.deviceId ≠ deviceIdB64 exampleMeshEnv k (keyBytes k)) :
    m.issueChecks exampleMeshEnv (keyB64 (keyBytes k)) (keyB64 (keyBytes k)) ip none =
      .ok (deviceIdB64 exampleMeshEnv k (keyBytes k), ip, List.replicate 32 1) := by
  have hIp : m.allocateIp (some ip) = .ok ip := by
    have hGranted : m.allocateIp (some ip) = .ok (trim ip) :=
      allocateIp_preferred (by rw [hText]; exact hNe) (by rw [hText]; exact hFree)
    rw [hGranted, hText]
  have hSeed : m.rootSeed = .ok (List.replicate 32 1) := by
    have hExample : exampleRegistry.rootSeed = .ok (List.replicate 32 1) :=
      (rootSigned_init exampleMeshEnv exampleVerifyingKey "mesh" _).rootSeed rfl
    unfold MeshConfig.rootSeed at *
    rw [hRoot]
    exact hExample
  have hLive : m.isRevoked (deviceIdB64 exampleMeshEnv k (keyBytes k)) = false := by
    unfold isRevoked
    rw [hCrl]
    rfl
  exact issueChecks_eq_ok.mpr ⟨k, keyBytes k, hKey, parseSigPublic_keyB64 (keyBytes_length k), rfl, hIp,
    hNew, hLive, hSeed⟩

/-- One device, certified at the time 0. -/
def exampleJoined : MeshConfig :=
  (machine exampleMeshEnv exampleVerifyingKey).run exampleRegistry [exampleIssue 2 "10.13.13.2"]

theorem exampleJoined_members : ∃ x, exampleJoined.members = [x] ∧ x.joinedAt = 0 := by
  have hChecks := exampleIssue_checks (m := exampleRegistry) (k := 2) (parsePublicKey_keyB64 (by decide))
    rfl rfl (show trim "10.13.13.2" = "10.13.13.2" by decide) (by decide) List.not_mem_nil
    fun x hx => absurd hx List.not_mem_nil
  unfold exampleJoined
  rw [Machine.run_cons, Machine.run_nil]
  unfold machine exampleIssue
  dsimp only [apply]
  rw [issueCert_of_checks hChecks]
  exact ⟨_, List.nil_append _, rfl⟩

/-- A year after a device joined, the server does not start any more. -/
theorem mesh_expires :
    ∃ m, (machine exampleMeshEnv exampleVerifyingKey).Reach
        (fun _ op => op.time ≤ certValiditySecs + 1) m ∧
      ∃ e, startMesh exampleJson exampleMeshEnv "mesh.json" (some (exampleJson.encode m))
        (certValiditySecs + 1) = .error e := by
  have hReach : (machine exampleMeshEnv exampleVerifyingKey).Reach
      (fun _ op => op.time ≤ certValiditySecs + 1) exampleJoined :=
    Machine.reach_run exampleRegistry_reach ⟨trivial, Nat.zero_le (certValiditySecs + 1), trivial⟩
  have hJson : exampleJson.Lawful := fun _ => rfl
  obtain ⟨_, seed, _, hSigned⟩ := coherent_reach exampleSignatures_lawful hReach
  obtain ⟨x, hMembers, hJoined⟩ := exampleJoined_members
  refine ⟨exampleJoined, hReach, ?_⟩
  rw [startMesh_saved hJson]
  cases hCheck : exampleJoined.verifyIntegrity exampleMeshEnv (certValiditySecs + 1) with
  | error e => exact ⟨_, rfl⟩
  | ok _ =>
    have hPeriod := (verifyIntegrity_iff exampleSignatures_lawful hSigned).mp hCheck x
      (hMembers ▸ List.mem_singleton_self x)
    omega

end MeshConfig

end LinkMesh
