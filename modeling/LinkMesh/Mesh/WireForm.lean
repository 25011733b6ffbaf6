import LinkMesh.Mesh.Canonical
import LinkMesh.Mesh.Runs
import LinkMesh.Wire.Bodies

/-!
# The registry on the wire

Certificates and the revocation list of the registry
(`linkmesh-server/src/mesh.rs`) go to the devices in the fixed layouts of
`linkmesh-shared/src/wire.rs`: an issued certificate with its texts in their
wire spelling, and the list as long as each of its entries fits.

## Results

* `issued_wire_iff`  — when an issued certificate is valid in its wire form.
* `crl_delivered_iff` — when the revocation list of a run can always be sent.
-/

namespace LinkMesh

-- ---------------------------------------------------------------------------
-- Issued certificates
-- ---------------------------------------------------------------------------

namespace DeviceCert

variable {c : DeviceCert}

/-- The key texts are in their wire spelling. -/
def Trimmed (c : DeviceCert) : Prop :=
  trim c.deviceId = c.deviceId ∧ trim c.ikX = c.ikX ∧ trim c.ikSPub = c.ikSPub

/-- The signed bytes of the wire form are shorter unless no text changes. -/
theorem canonicalBytes_respelled : c.respelled.canonicalBytes = c.canonicalBytes ↔ c.Trimmed := by
  constructor
  · intro h
    have hLines : fieldLines c.respelled.fields = fieldLines c.fields := fieldLines_of_canonical h
    have hLength := congrArg List.length hLines
    unfold fields respelled at hLength
    simp only [fieldLines_cons, List.length_append, List.length_cons, fieldLine_length] at hLength
    have hDevice := trim_length_le c.deviceId
    have hX := trim_length_le c.ikX
    have hS := trim_length_le c.ikSPub
    refine ⟨trim_eq_of_length ?_, trim_eq_of_length ?_, trim_eq_of_length ?_⟩
    · omega
    · omega
    · omega
  · rintro ⟨hDevice, hX, hS⟩
    unfold canonicalBytes respelled
    rw [hDevice, hX, hS]

/-- A certificate that carries a signature verifies as the signature does. -/
theorem verify_signed {S : Signatures} {rootPub sig : Bytes} {nowSecs : Nat} (hLength : sig.length = 64)
    (hSig : c.signature = some (keyB64 sig)) :
    c.verify S rootPub nowSecs = .ok () ↔
      S.verify rootPub c.canonicalBytes sig = true ∧ c.validFrom ≤ nowSecs ∧ nowSecs ≤ c.notAfter := by
  have hDecode : b64Fixed 64 "设备证书签名 base64 解析失败" "设备证书签名 长度错误，应为 64 字节" (keyB64 sig) =
      .ok sig := b64Fixed_keyB64 hLength
  rw [verify_eq_ok]
  constructor
  · rintro ⟨sigB64, sig', hText, hSig', hVerify, hPeriod⟩
    rw [hSig] at hText
    cases hText
    rw [hDecode] at hSig'
    cases hSig'
    exact ⟨hVerify, hPeriod⟩
  · rintro ⟨hVerify, hPeriod⟩
    exact ⟨_, sig, hSig, hDecode, hVerify, hPeriod⟩

/-- The wire form carries the same signature over the bytes of its own texts. -/
theorem verify_respelled {S : Signatures} {rootPub sig : Bytes} {nowSecs : Nat} (hLength : sig.length = 64)
    (hSig : c.signature = some (keyB64 sig)) :
    c.respelled.verify S rootPub nowSecs = .ok () ↔
      S.verify rootPub c.respelled.canonicalBytes sig = true ∧ c.validFrom ≤ nowSecs ∧
        nowSecs ≤ c.notAfter := by
  have hSame : c.respelled.signature = some (keyB64 sig) := by
    show c.signature.map trim = _
    rw [hSig, Option.map_some, trim_keyB64]
  exact verify_signed hLength hSame

/-- What is sent is received in its wire spelling. -/
theorem toDomain_fromDomain {wire : Bytes} (hRange : c.InRange) (h : deviceCertFromDomain c = .ok wire) :
    deviceCertToDomain wire = .ok c.respelled := by
  rw [deviceCertFromDomain_eq] at h
  rw [deviceCertToDomain_eq, ← certRecord_spell]
  exact certRecord.decode_encode (certRecord_typed.mpr hRange) h

end DeviceCert

namespace MeshConfig

variable {env : MeshEnv} {verifyingKey : Bytes → Bytes} {m : MeshConfig} {ikX ikSPub ip : String}
  {note : Option String} {now : Nat} {cert : DeviceCert}

/-- The parts of an issued certificate. -/
theorem issueCert_eq_ok (h : (m.issueCert env ikX ikSPub ip note now).2 = .ok cert) :
    ∃ keyX keyS granted seed, m.rootSeed = .ok seed ∧
      cert = (m.newCert (note.getD (deviceIdB64 env keyX keyS)) ikX ikSPub granted now).sign env.signatures seed := by
  rcases issueCert_cases env m ikX ikSPub ip note now with ⟨e, _, hEq⟩ | ⟨deviceId, granted, seed, hChecks, hEq⟩
  · rw [hEq] at h
    cases h
  · obtain ⟨keyX, keyS, _, _, rfl, _, _, _, hSeed⟩ := issueChecks_eq_ok.mp hChecks
    rw [hEq] at h
    exact ⟨keyX, keyS, granted, seed, hSeed, (Except.ok.inj h).symm⟩

/-- The version is of its type, and so are the times until the end of time. -/
theorem newCert_inRange (m : MeshConfig) (deviceId ikX ikSPub ip : String) {S : Signatures} {seed : Bytes}
    (hTime : now + certValiditySecs < 256 ^ 8) :
    ((m.newCert deviceId ikX ikSPub ip now).sign S seed).InRange := by
  refine ⟨?_, ?_, hTime⟩
  · show (m.members.length % 2 ^ 32 + 1) % 2 ^ 32 < 256 ^ 4
    omega
  · show now < 256 ^ 8
    omega

/-- A device id that is derived from the keys is in its wire spelling. -/
theorem newCert_trimmed {keyX : RawKey} {keyS seed : Bytes} {granted : String} {S : Signatures} :
    ((m.newCert (note.getD (deviceIdB64 env keyX keyS)) ikX ikSPub granted now).sign S seed).Trimmed ↔
      trim ikX = ikX ∧ trim ikSPub = ikSPub ∧ ∀ d, note = some d → trim d = d := by
  show trim (note.getD _) = note.getD _ ∧ trim ikX = ikX ∧ trim ikSPub = ikSPub ↔ _
  cases note with
  | none =>
    have hDerived : trim (deviceIdB64 env keyX keyS) = deviceIdB64 env keyX keyS := trim_keyB64 _
    simp [hDerived]
  | some d =>
    simp only [Option.getD_some, Option.some.injEq, forall_eq']
    rw [and_comm, and_assoc]

/-- **The wire form of an issued certificate.** It is valid whenever the
certificate is exactly when the key texts that it was issued for have no white
space around them. -/
theorem issued_wire_iff {seed rootPub wire : Bytes} (hLawful : env.signatures.Lawful verifyingKey)
    (hReach : (machine env verifyingKey).Reach (fun _ _ => True) m)
    (hIssue : (m.issueCert env ikX ikSPub ip note now).2 = .ok cert)
    (hTime : now + certValiditySecs < 256 ^ 8) (hSeed : m.rootSeed = .ok seed)
    (hRoot : m.rootPublicRaw = .ok rootPub)
    (hBinds : ∀ msg, env.signatures.verify rootPub msg (env.signatures.sign seed cert.canonicalBytes) = true →
      msg = cert.canonicalBytes)
    (hWire : deviceCertFromDomain cert = .ok wire) :
    ∃ cert', deviceCertToDomain wire = .ok cert' ∧
      ((∀ t, cert'.verify env.signatures rootPub t = .ok () ↔ cert.verify env.signatures rootPub t = .ok ()) ↔
        trim ikX = ikX ∧ trim ikSPub = ikSPub ∧ ∀ d, note = some d → trim d = d) := by
  obtain ⟨_, seed', hSeed', hSigned⟩ := coherent_reach hLawful hReach
  obtain rfl : seed' = seed := by
    rw [hSigned.rootSeed hSeed'] at hSeed
    exact Except.ok.inj hSeed
  obtain rfl : verifyingKey seed' = rootPub := by
    rw [hSigned.rootPublicRaw hLawful] at hRoot
    exact Except.ok.inj hRoot
  obtain ⟨keyX, keyS, granted, seed, hRootSeed, hCert⟩ := issueCert_eq_ok hIssue
  obtain rfl : seed = seed' := Except.ok.inj (hRootSeed.symm.trans hSeed)
  have hSig : cert.signature = some (keyB64 (env.signatures.sign seed cert.canonicalBytes)) := by
    rw [hCert]
    rfl
  have hRange : cert.InRange := by
    rw [hCert]
    exact newCert_inRange m _ _ _ _ hTime
  have hLength := hLawful.sign_length seed cert.canonicalBytes
  have hVerifies := hLawful.verify_sign seed cert.canonicalBytes
  refine ⟨cert.respelled, DeviceCert.toDomain_fromDomain hRange hWire, ?_⟩
  have hTrimmed : cert.Trimmed ↔ trim ikX = ikX ∧ trim ikSPub = ikSPub ∧ ∀ d, note = some d → trim d = d := by
    rw [hCert]
    exact newCert_trimmed
  rw [← hTrimmed, ← DeviceCert.canonicalBytes_respelled]
  simp only [DeviceCert.verify_respelled hLength hSig, DeviceCert.verify_signed hLength hSig]
  constructor
  · intro hSame
    have hFrom : cert.validFrom = now := by rw [hCert]; rfl
    have hAfter : cert.notAfter = now + certValiditySecs := by rw [hCert]; rfl
    have hPeriod : cert.validFrom ≤ now ∧ now ≤ cert.notAfter := by omega
    exact hBinds _ ((hSame now).mpr ⟨hVerifies, hPeriod⟩).1
  · intro hBytes t
    rw [hBytes]

/-- Signatures of two patterns, one for the given message and one for all others. -/
def exampleSealOf (msg : Bytes) : Signatures where
  sign _ msg' := List.replicate 64 (if msg' = msg then 1 else 0)
  verify _ msg' sig := sig == List.replicate 64 (if msg' = msg then 1 else 0)

theorem exampleSealOf_lawful (msg : Bytes) : (exampleSealOf msg).Lawful fun _ => List.replicate 32 0 where
  sign_length _ _ := List.length_replicate
  key_length _ := List.length_replicate
  verify_sign _ _ := beq_self_eq_true _

theorem exampleSealOf_binds {msg msg' rootPub seed : Bytes}
    (h : (exampleSealOf msg).verify rootPub msg' ((exampleSealOf msg).sign seed msg) = true) : msg' = msg := by
  by_contra hOther
  have hSame : List.replicate 64 (if msg = msg then (1 : UInt8) else 0) =
      List.replicate 64 (if msg' = msg then 1 else 0) := eq_of_beq h
  rw [if_pos rfl, if_neg hOther] at hSame
  exact absurd hSame (by decide)

/-- A key of zeros, and the same with a space behind it. -/
def exampleKeyText : String := "AAAAAAAAAAAAAAAAAAAAAAAAAAAAAAAAAAAAAAAAAAA="

def exampleSpacedText : String := "AAAAAAAAAAAAAAAAAAAAAAAAAAAAAAAAAAAAAAAAAAA= "

def exampleSpaced : DeviceCert :=
  exampleRegistry.newCert exampleKeyText exampleSpacedText exampleKeyText "10.13.13.2" 0

def exampleSealEnv : MeshEnv := { exampleMeshEnv with signatures := exampleSealOf exampleSpaced.canonicalBytes }

def exampleSealRegistry : MeshConfig :=
  init exampleSealEnv (fun _ => List.replicate 32 0) "mesh" (List.replicate 32 1)

def exampleSealed : DeviceCert := exampleSpaced.sign exampleSealEnv.signatures (List.replicate 32 1)

theorem exampleSealed_issued : (exampleSealRegistry.issueCert exampleSealEnv exampleSpacedText exampleKeyText
    "10.13.13.2" (some exampleKeyText) 0).2 = .ok exampleSealed := by
  have hSeed : exampleSealRegistry.rootSeed = .ok (List.replicate 32 1) := b64Fixed_keyB64 rfl
  have hIp : exampleSealRegistry.allocateIp (some "10.13.13.2") = .ok "10.13.13.2" := by decide +kernel
  have hX : parsePublicKey exampleSpacedText = .ok 0 := by decide +kernel
  have hS : parseSigPublic exampleKeyText = .ok (List.replicate 32 0) := by decide +kernel
  have hChecks : exampleSealRegistry.issueChecks exampleSealEnv exampleSpacedText exampleKeyText "10.13.13.2"
      (some exampleKeyText) = .ok (exampleKeyText, "10.13.13.2", List.replicate 32 1) :=
    issueChecks_eq_ok.mpr ⟨0, _, hX, hS, rfl, hIp, fun x hx => absurd hx List.not_mem_nil, rfl, hSeed⟩
  rw [issueCert_of_checks hChecks]
  rfl

theorem exampleSealed_wire : ∃ wire, deviceCertFromDomain exampleSealed = .ok wire := by
  simp only [deviceCertFromDomain_eq]
  rw [certRecord.encode_ok, certRecord_fits]
  have hKey : FitsB64 32 exampleKeyText := by decide +kernel
  have hSig : FitsOptB64 64 exampleSealed.signature := by
    rintro text hText
    obtain rfl := Option.some.inj hText
    exact fitsB64_keyB64 List.length_replicate
  exact ⟨by decide +kernel, hKey, (by decide +kernel : FitsB64 32 exampleSpacedText), hKey, by decide +kernel, hSig⟩

theorem issued_wire_iff_spaced : ∃ wire, deviceCertFromDomain exampleSealed = .ok wire ∧
    ∃ cert', deviceCertToDomain wire = .ok cert' ∧
      ((∀ t, cert'.verify exampleSealEnv.signatures (List.replicate 32 0) t = .ok () ↔
        exampleSealed.verify exampleSealEnv.signatures (List.replicate 32 0) t = .ok ()) ↔
        trim exampleSpacedText = exampleSpacedText ∧ trim exampleKeyText = exampleKeyText ∧
          ∀ d, some exampleKeyText = some d → trim d = d) := by
  have hSeed : exampleSealRegistry.rootSeed = .ok (List.replicate 32 1) := b64Fixed_keyB64 rfl
  obtain ⟨wire, hWire⟩ := exampleSealed_wire
  exact ⟨wire, hWire, issued_wire_iff (exampleSealOf_lawful _) (.init ⟨"mesh", List.replicate 32 1, rfl, rfl⟩)
    exampleSealed_issued (by decide) hSeed (parseSigPublic_keyB64 rfl) (fun _ => exampleSealOf_binds) hWire⟩

/-- The certificate that was issued is valid, and the one that its device receives is not. -/
theorem spaced_cert_invalid : ∃ wire cert', deviceCertFromDomain exampleSealed = .ok wire ∧
    deviceCertToDomain wire = .ok cert' ∧
    exampleSealed.verify exampleSealEnv.signatures (List.replicate 32 0) 0 = .ok () ∧
    cert'.verify exampleSealEnv.signatures (List.replicate 32 0) 0 ≠ .ok () := by
  have hRange : exampleSealed.InRange := newCert_inRange _ _ _ _ _ (by decide)
  have hLength := (exampleSealOf_lawful exampleSpaced.canonicalBytes).sign_length (List.replicate 32 1)
    exampleSpaced.canonicalBytes
  have hVerifies := (exampleSealOf_lawful exampleSpaced.canonicalBytes).verify_sign (List.replicate 32 1)
    exampleSpaced.canonicalBytes
  obtain ⟨wire, hWire⟩ := exampleSealed_wire
  refine ⟨wire, _, hWire, DeviceCert.toDomain_fromDomain hRange hWire, ?_, ?_⟩
  · exact (DeviceCert.verify_signed hLength rfl).mpr ⟨hVerifies, Nat.le_refl 0, Nat.zero_le _⟩
  · intro hValid
    have hBytes := exampleSealOf_binds ((DeviceCert.verify_respelled hLength rfl).mp hValid).1
    have hTrim : trim exampleSpacedText = exampleSpacedText :=
      (DeviceCert.canonicalBytes_respelled.mp hBytes).2.1
    exact absurd hTrim (by decide +kernel)

-- ---------------------------------------------------------------------------
-- The revocation list
-- ---------------------------------------------------------------------------

/-- A revocation that adds an entry is of a device id that an entry can hold. -/
def Deliverable (m : MeshConfig) : MeshOp → Prop
  | .revoke deviceId _ _ =>
    m.isRevoked deviceId = false → m.crl.entries.length < maxCrlEntries → FitsB64 32 deviceId
  | _ => True

theorem crl_fromDomain_iff {c : Crl} : (∃ bytes, crlFromDomain c = .ok bytes) ↔ c.FitsWire := by
  simp only [crlFromDomain_eq_ok]
  rw [crlRecord.encode_ok, crlRecord_fits]

/-- A list that the root has just signed fits as its mesh id and its entries do. -/
theorem fitsWire_sign {S : Signatures} {c : Crl} {seed : Bytes}
    (hLength : (S.sign seed c.canonicalBytes).length = 64) :
    (c.sign S seed).FitsWire ↔ FitsText nameLen c.meshId ∧ c.entries.length ≤ maxCrlEntries ∧
      ∀ e ∈ c.entries, FitsB64 32 e.deviceId ∧ FitsOptB64 32 e.replacement := by
  have hSig : FitsOptB64 64 (c.sign S seed).signature := by
    rintro text hText
    cases hText
    exact fitsB64_keyB64 hLength
  constructor
  · rintro ⟨hMesh, hFew, hEach, _⟩
    exact ⟨hMesh, hFew, hEach⟩
  · rintro ⟨hMesh, hFew, hEach⟩
    exact ⟨hMesh, hFew, hEach, hSig⟩

theorem revoke_adds {seed : Bytes} {deviceId : String} {reason : RevokeReason} (hSeed : m.rootSeed = .ok seed)
    (hLive : m.isRevoked deviceId = false) (hRoom : m.crl.entries.length < maxCrlEntries) :
    m.revoke env.signatures deviceId reason now =
      ({ m with
        crl := (m.crlPush deviceId reason now).sign env.signatures seed
        members := m.members.filter (·.deviceId != deviceId) },
        .ok ((m.crlPush deviceId reason now).sign env.signatures seed)) := by
  unfold revoke
  rw [hLive, if_neg Bool.false_ne_true, if_neg (by omega), hSeed]

theorem revoke_stays {deviceId : String} {reason : RevokeReason}
    (h : m.isRevoked deviceId = false → maxCrlEntries ≤ m.crl.entries.length) :
    (m.revoke env.signatures deviceId reason now).1 = m := by
  unfold revoke
  split
  · rfl
  · rename_i hLive
    rw [if_pos (h (by simpa using hLive))]

theorem issueCert_crl : (m.issueCert env ikX ikSPub ip note now).1.crl = m.crl := by
  rcases issueCert_cases env m ikX ikSPub ip note now with ⟨e, _, hEq⟩ | ⟨deviceId, granted, seed, _, hEq⟩
  · rw [hEq]
  · rw [hEq]

theorem consumeInvite_crl {code : String} : (m.consumeInvite env code now).1.crl = m.crl := by
  obtain ⟨invites, hEq⟩ := consumeInvite_frame env m code now
  rw [hEq]

/-- A list that fits still fits after an operation exactly when the operation is deliverable. -/
theorem fitsWire_apply {seed : Bytes} (hLawful : env.signatures.Lawful verifyingKey) (hLength : seed.length = 32)
    (hSigned : RootSigned env verifyingKey seed m) (hFits : m.crl.FitsWire) (op : MeshOp) :
    (apply env m op).crl.FitsWire ↔ Deliverable m op := by
  cases op with
  | createInvite raw ip ttlSecs now => exact iff_of_true hFits trivial
  | issueCert ikX ikSPub ip note now =>
    rw [apply, issueCert_crl]
    exact iff_of_true hFits trivial
  | consumeInvite code now =>
    rw [apply, consumeInvite_crl]
    exact iff_of_true hFits trivial
  | setMemberAlias deviceId aliasName => exact iff_of_true hFits trivial
  | revoke deviceId reason now =>
    show (m.revoke env.signatures deviceId reason now).1.crl.FitsWire ↔
      (m.isRevoked deviceId = false → m.crl.entries.length < maxCrlEntries → FitsB64 32 deviceId)
    by_cases hAdds : m.isRevoked deviceId = false ∧ m.crl.entries.length < maxCrlEntries
    · obtain ⟨hLive, hRoom⟩ := hAdds
      rw [revoke_adds (hSigned.rootSeed hLength) hLive hRoom]
      show ((m.crlPush deviceId reason now).sign env.signatures seed).FitsWire ↔ _
      rw [fitsWire_sign (hLawful.sign_length _ _), crlPush_length]
      constructor
      · rintro ⟨_, _, hEach⟩ _ _
        exact (hEach _ (List.mem_append_right _ (List.mem_singleton_self _))).1
      · intro hGuard
        refine ⟨hFits.1, hRoom, fun e he => ?_⟩
        rcases List.mem_append.mp he with hOld | hNew
        · exact hFits.2.2.1 e hOld
        · rw [List.mem_singleton.mp hNew]
          refine ⟨hGuard hLive hRoom, fun text hText => ?_⟩
          cases hText
    · have hStays : (m.revoke env.signatures deviceId reason now).1 = m := by
        refine revoke_stays fun hLive => ?_
        by_contra hRoom
        exact hAdds ⟨hLive, by omega⟩
      rw [hStays]
      exact iff_of_true hFits fun hLive hRoom => absurd ⟨hLive, hRoom⟩ hAdds

/-- **Delivery of the revocation list.** Along a run it can be sent at every
moment exactly when the mesh id fits and every revocation is deliverable. -/
theorem crl_delivered_iff (hLawful : env.signatures.Lawful verifyingKey) (meshId : String) {seed : Bytes}
    (hSeed : seed.length = 32) (ops : List MeshOp) :
    (∀ pre, pre <+: ops →
      ∃ bytes, crlFromDomain ((machine env verifyingKey).run (init env verifyingKey meshId seed) pre).crl =
        .ok bytes) ↔
    FitsText nameLen meshId ∧ ∀ pre op, pre ++ [op] <+: ops →
      Deliverable ((machine env verifyingKey).run (init env verifyingKey meshId seed) pre) op := by
  simp only [crl_fromDomain_iff]
  have hFirst : (init env verifyingKey meshId seed).crl.FitsWire ↔ FitsText nameLen meshId := by
    show (Crl.sign env.signatures _ seed).FitsWire ↔ _
    rw [fitsWire_sign (hLawful.sign_length _ _)]
    simp
  by_cases hMesh : FitsText nameLen meshId
  · rw [and_iff_right hMesh]
    exact (machine env verifyingKey).along_run_iff_inv (P := fun m => m.crl.FitsWire)
      (I := fun m => Coherent env m ∧ RootSigned env verifyingKey seed m)
      ⟨coherent_init hLawful meshId seed, rootSigned_init env verifyingKey meshId seed⟩ (hFirst.mpr hMesh)
      (fun m op h => coherent_apply hLawful hSeed h.2 h.1 op)
      (fun m op h hFits => fitsWire_apply hLawful hSeed h.2 hFits op) ops
  · refine iff_of_false (fun hAll => hMesh (hFirst.mp ?_)) fun h => hMesh h.1
    exact hAll [] List.nil_prefix

theorem crl_delivered_iff_mesh :
    (∀ pre, pre <+: [MeshOp.revoke "x" .admin 0] →
      ∃ bytes, crlFromDomain ((machine exampleMeshEnv exampleVerifyingKey).run
        (init exampleMeshEnv exampleVerifyingKey "mesh" (List.replicate 32 1)) pre).crl = .ok bytes) ↔
    FitsText nameLen "mesh" ∧ ∀ pre op, pre ++ [op] <+: [MeshOp.revoke "x" .admin 0] →
      Deliverable ((machine exampleMeshEnv exampleVerifyingKey).run
        (init exampleMeshEnv exampleVerifyingKey "mesh" (List.replicate 32 1)) pre) op :=
  crl_delivered_iff exampleSignatures_lawful "mesh" rfl _

/-- A revocation of `x` succeeds, and the list cannot be sent any more. -/
theorem crl_locked_out :
    (∃ crl, (exampleRegistry.revoke exampleMeshEnv.signatures "x" .admin 0).2 = .ok crl) ∧
    ¬ ∃ bytes, crlFromDomain ((machine exampleMeshEnv exampleVerifyingKey).run exampleRegistry
      [.revoke "x" .admin 0]).crl = .ok bytes := by
  have hRoot : RootSigned exampleMeshEnv exampleVerifyingKey (List.replicate 32 1) exampleRegistry :=
    rootSigned_init _ _ _ _
  have hLive : exampleRegistry.isRevoked "x" = false := rfl
  have hRevoke : exampleRegistry.revoke exampleMeshEnv.signatures "x" .admin 0 = _ :=
    revoke_adds (hRoot.rootSeed rfl) hLive (by decide)
  refine ⟨⟨_, congrArg Prod.snd hRevoke⟩, ?_⟩
  show ¬ ∃ bytes, crlFromDomain (exampleRegistry.revoke exampleMeshEnv.signatures "x" .admin 0).1.crl = .ok bytes
  rw [crl_fromDomain_iff, hRevoke]
  rintro ⟨_, _, hEach, _⟩
  have hText := (hEach _ (List.mem_append_right _ (List.mem_singleton_self _))).1
  exact absurd hText (by decide +kernel)

end MeshConfig

end LinkMesh
