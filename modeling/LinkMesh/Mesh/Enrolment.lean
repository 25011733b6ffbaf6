import LinkMesh.Mesh.Registry

/-!
# Enrolment

How devices get into the mesh registry (`linkmesh-server/src/mesh.rs`): join
codes, the allocation of virtual IPs and the issuing of certificates.

A call reads the clock once. SHA-256 and `str::to_uppercase` are parameters;
`Signatures.Lawful` says that Ed25519 signatures verify.

## Results

* `allocateIp_free`   — a granted address is used by nobody.
* `issueChecks_eq_ok` — what it takes to be issued a certificate.
* `issueCert_cases`   — a failed issue changes nothing.
-/

namespace LinkMesh

-- ---------------------------------------------------------------------------
-- Signatures
-- ---------------------------------------------------------------------------

/-- What one signs verifies under the key of the seed, and the sizes are fixed. -/
structure Signatures.Lawful (S : Signatures) (verifyingKey : Bytes → Bytes) : Prop where
  sign_length : ∀ seed msg, (S.sign seed msg).length = 64
  key_length : ∀ seed, (verifyingKey seed).length = 32
  verify_sign : ∀ seed msg, S.verify (verifyingKey seed) msg (S.sign seed msg) = true

/-- `SignKeyPairSerde::generate`, from 32 random bytes. -/
def SignKeyPair.generate (verifyingKey : Bytes → Bytes) (seed : Bytes) : SignKeyPair :=
  { publicKey := keyB64 (verifyingKey seed), privateKey := keyB64 seed }

def DeviceCert.sign (S : Signatures) (c : DeviceCert) (rootSeed : Bytes) : DeviceCert :=
  { c with signature := some (keyB64 (S.sign rootSeed c.canonicalBytes)) }

def Crl.verify (S : Signatures) (c : Crl) (rootPub : Bytes) : Except String Unit := do
  let some sigB64 := c.signature | .error "CRL 缺少签名"
  let sig ← b64Fixed 64 "CRL 签名 base64 解析失败" "CRL 签名 长度错误，应为 64 字节" sigB64
  if S.verify rootPub c.canonicalBytes sig then .ok () else .error "CRL 签名无效"

-- ---------------------------------------------------------------------------
-- Join codes
-- ---------------------------------------------------------------------------

/-- What the operations of the registry call. -/
structure MeshEnv where
  signatures : Signatures
  sha256 : Bytes → Bytes
  /-- `str::to_uppercase` -/
  toUppercase : String → String

/-- Two hex digits a byte. -/
def hexEncode (bs : Bytes) : String :=
  let digits := "0123456789abcdef".toList
  String.ofList (bs.flatMap fun b =>
    [digits.getD (b.toNat / 16) '0', digits.getD (b.toNat % 16) '0'])

/-- Cut into groups of four. -/
def groupsOfFour : List Char → List String
  | a :: b :: c :: d :: rest => String.ofList [a, b, c, d] :: groupsOfFour rest
  | [] => []
  | rest => [String.ofList rest]

/-- `LMJ-XXXX-…` over 16 random bytes. -/
def inviteCode (raw : Bytes) : String :=
  "LMJ-" ++ String.intercalate "-" (groupsOfFour (hexEncode raw).toList)

/-- `device_id_b64`: SHA-256 of both public keys. -/
def deviceIdB64 (env : MeshEnv) (ikX : RawKey) (ikSPub : Bytes) : String :=
  keyB64 ((env.sha256 (utf8 "linkmesh-device-v1" ++ keyBytes ikX ++ ikSPub)).take 32)

/-- The first element that satisfies the test is changed. -/
def modifyFirst {α : Type} (p : α → Bool) (f : α → α) : List α → List α
  | [] => []
  | a :: as => if p a then f a :: as else a :: modifyFirst p f as

def certValiditySecs : Nat := 365 * 24 * 3600

namespace MeshConfig

/-- 10.13.13.2 to 10.13.13.254. -/
def defaultIpPool : List String := (List.range' 2 253).map fun n => s!"10.13.13.{n}"

/-- `MeshConfig::init`: a new root key pair and an empty signed revocation list. -/
def init (env : MeshEnv) (verifyingKey : Bytes → Bytes) (meshId : String) (seed : Bytes) :
    MeshConfig :=
  { meshId := meshId
    root := .generate verifyingKey seed
    crl := Crl.sign env.signatures { meshId := meshId, version := 0, entries := [], signature := none }
      seed
    members := []
    invites := []
    ipPool := defaultIpPool }

/-- Join codes are compared in capitals, without separators, and hashed. -/
def hashCode (env : MeshEnv) (code : String) : String :=
  let norm := (env.toUppercase (trim code)).toList.filter Char.isAlphanum
  hexEncode (env.sha256 (utf8 (String.ofList norm)))

/-- Spent and expired codes are dropped, and a new one is added. -/
def createInvite (env : MeshEnv) (m : MeshConfig) (raw : Bytes) (ip : Option String)
    (ttlSecs now : Nat) : MeshConfig × String :=
  let code := inviteCode raw
  ({ m with
    invites := m.invites.filter (fun e => now < e.expiresAt && !e.used) ++
      [{ codeHash := hashCode env code, expiresAt := now + max ttlSecs 1, used := false, ip := ip }] },
    code)

/-- The IP bound to a join code that can be used. -/
def peekInvite (env : MeshEnv) (m : MeshConfig) (code : String) (now : Nat) :
    Except String (Option String) :=
  match m.invites.find? (·.codeHash = hashCode env code) with
  | none => .error "加入码无效（不存在）"
  | some e =>
    if e.used then .error "加入码已被使用（单次有效）"
    else if e.expiresAt < now then .error "加入码已过期"
    else .ok e.ip

/-- The same checks; the code is spent, and expired ones are dropped. -/
def consumeInvite (env : MeshEnv) (m : MeshConfig) (code : String) (now : Nat) :
    MeshConfig × Except String (Option String) :=
  match m.peekInvite env code now with
  | .error e => (m, .error e)
  | .ok ip =>
    let invites := modifyFirst (·.codeHash = hashCode env code) ({ · with used := true }) m.invites
    ({ m with invites := invites.filter (now < ·.expiresAt) }, .ok ip)

/-- IPs of members and of join codes that are not spent. -/
def usedIps (m : MeshConfig) : List String :=
  m.members.map (·.cert.allowedIp) ++ (m.invites.filter (!·.used)).filterMap (·.ip)

/-- The preferred text if nobody uses it, be it in the pool or outside;
otherwise the first free address of the pool. -/
def allocateIp (m : MeshConfig) (preferred : Option String) : Except String String :=
  match preferred.filter fun p => trim p ≠ "" && !m.usedIps.contains (trim p) with
  | some p => .ok (trim p)
  | none =>
    match m.ipPool.find? (!m.usedIps.contains ·) with
    | some ip => .ok ip
    | none => .error "IP 池已耗尽，请扩容 mesh.json 的 ip_pool"

/-- The checks of `issue_cert`; they give the device, its IP and the root seed. -/
def issueChecks (env : MeshEnv) (m : MeshConfig) (ikXB64 ikSPubB64 ip : String)
    (noteDeviceId : Option String) : Except String (String × String × Bytes) := do
  let ikX ← parsePublicKey ikXB64
  let ikSPub ← parseSigPublic ikSPubB64
  let deviceId := noteDeviceId.getD (deviceIdB64 env ikX ikSPub)
  let ip ← m.allocateIp (some ip)
  if m.members.any (·.deviceId == deviceId) then .error "该设备已入网，无需重复签发"
  else if m.isRevoked deviceId then .error "该设备已被吊销，拒绝签发"
  else
    let seed ← m.rootSeed
    .ok (deviceId, ip, seed)

/-- The certificate of a new member, not yet signed. -/
def newCert (m : MeshConfig) (deviceId ikXB64 ikSPubB64 ip : String) (now : Nat) : DeviceCert :=
  { meshId := m.meshId
    version := (m.members.length % 2 ^ 32 + 1) % 2 ^ 32
    deviceId := deviceId
    ikX := ikXB64
    ikSPub := ikSPubB64
    allowedIp := ip
    validFrom := now
    notAfter := now + certValiditySecs
    signature := none }

/-- Issue a certificate and enter its device as a member. -/
def issueCert (env : MeshEnv) (m : MeshConfig) (ikXB64 ikSPubB64 ip : String)
    (noteDeviceId : Option String) (now : Nat) : MeshConfig × Except String DeviceCert :=
  match m.issueChecks env ikXB64 ikSPubB64 ip noteDeviceId with
  | .error e => (m, .error e)
  | .ok (deviceId, ip, seed) =>
    let cert := (m.newCert deviceId ikXB64 ikSPubB64 ip now).sign env.signatures seed
    ({ m with
      members := m.members ++
        [{ deviceId := deviceId, cert := cert, joinedAt := now, aliasName := none }] }, .ok cert)

def setMemberAlias (m : MeshConfig) (deviceId aliasName : String) : MeshConfig :=
  { m with
    members := modifyFirst (·.deviceId = deviceId) ({ · with aliasName := some aliasName }) m.members }

/-- Signatures of the revocation list and of the member certificates, and that
the certificates are in their validity period. -/
def verifyIntegrity (env : MeshEnv) (m : MeshConfig) (now : Nat) : Except String Unit := do
  let rootPub ← m.rootPublicRaw
  m.crl.verify env.signatures rootPub
  m.members.forM fun x => x.cert.verify env.signatures rootPub now

-- ---------------------------------------------------------------------------
-- What the operations do
-- ---------------------------------------------------------------------------

section

variable {α β : Type} {p : α → Bool} {f : α → α} {l : List α} {a : α}

theorem modifyFirst_map (g : α → β) (h : ∀ a, g (f a) = g a) (l : List α) :
    (modifyFirst p f l).map g = l.map g := by
  induction l with
  | nil => rfl
  | cons a l ih =>
    unfold modifyFirst
    split
    · rw [List.map_cons, List.map_cons, h]
    · rw [List.map_cons, List.map_cons, ih]

theorem modifyFirst_length (l : List α) : (modifyFirst p f l).length = l.length := by
  induction l with
  | nil => rfl
  | cons a l ih =>
    unfold modifyFirst
    split
    · rfl
    · rw [List.length_cons, List.length_cons, ih]

/-- Nothing changes only if the change does nothing. -/
theorem modifyFirst_eq_self (hFind : l.find? p = some a) (h : modifyFirst p f l = l) : f a = a := by
  induction l with
  | nil => cases hFind
  | cons b l ih =>
    unfold modifyFirst at h
    by_cases hHead : p b = true
    · rw [List.find?_cons_of_pos hHead] at hFind
      rw [if_pos hHead] at h
      cases hFind
      exact (List.cons.inj h).1
    · rw [List.find?_cons_of_neg hHead] at hFind
      rw [if_neg hHead] at h
      exact ih hFind (List.cons.inj h).2

/-- Every element comes from one of the list before. -/
theorem mem_modifyFirst (h : a ∈ modifyFirst p f l) : a ∈ l ∨ ∃ b ∈ l, a = f b := by
  induction l with
  | nil => cases h
  | cons b l ih =>
    unfold modifyFirst at h
    split at h
    · rcases List.mem_cons.mp h with hHead | hTail
      · exact .inr ⟨b, List.mem_cons_self .., hHead⟩
      · exact .inl (List.mem_cons_of_mem _ hTail)
    · rcases List.mem_cons.mp h with hHead | hTail
      · exact .inl (hHead ▸ List.mem_cons_self ..)
      · rcases ih hTail with hOld | ⟨c, hc, hEq⟩
        · exact .inl (List.mem_cons_of_mem _ hOld)
        · exact .inr ⟨c, List.mem_cons_of_mem _ hc, hEq⟩

end

variable {env : MeshEnv} {m : MeshConfig} {ip deviceId ikX ikSPub code : String} {now : Nat}
  {note : Option String}

theorem allocateIp_free {preferred : Option String} (h : m.allocateIp preferred = .ok ip) :
    ip ∉ m.usedIps := by
  unfold allocateIp at h
  split at h
  · rename_i p hPreferred
    cases h
    have hFree := (Option.filter_eq_some_iff.mp hPreferred).2
    simpa using (Bool.and_eq_true_iff.mp hFree).2
  · split at h
    · rename_i free hFind
      cases h
      simpa using List.find?_some hFind
    · cases h

/-- A preferred text that nobody uses is granted. -/
theorem allocateIp_preferred (hText : trim ip ≠ "") (hFree : trim ip ∉ m.usedIps) :
    m.allocateIp (some ip) = .ok (trim ip) := by
  have hFilter : (some ip).filter (fun p => trim p ≠ "" && !m.usedIps.contains (trim p)) = some ip := by
    rw [Option.filter_eq_some_iff]
    simp [hText, hFree]
  unfold allocateIp
  rw [hFilter]

/-- Otherwise the granted address is one of the pool. -/
theorem allocateIp_pool {granted : String} (h : m.allocateIp (some ip) = .ok granted)
    (hTaken : trim ip = "" ∨ trim ip ∈ m.usedIps) : granted ∈ m.ipPool := by
  have hFilter : (some ip).filter (fun p => trim p ≠ "" && !m.usedIps.contains (trim p)) = none := by
    rw [Option.filter_eq_none_iff]
    rintro p hp
    cases hp
    rcases hTaken with hEmpty | hUsed
    · simp [hEmpty]
    · simp [hUsed]
  unfold allocateIp at h
  rw [hFilter] at h
  dsimp only at h
  split at h
  · rename_i free hFind
    cases h
    exact List.mem_of_find?_eq_some hFind
  · cases h

/-- What `issue_cert` asks for. -/
theorem issueChecks_eq_ok {granted : String} {seed : Bytes} :
    m.issueChecks env ikX ikSPub ip note = .ok (deviceId, granted, seed) ↔
      ∃ keyX keyS, parsePublicKey ikX = .ok keyX ∧ parseSigPublic ikSPub = .ok keyS ∧
        note.getD (deviceIdB64 env keyX keyS) = deviceId ∧ m.allocateIp (some ip) = .ok granted ∧
        (∀ x ∈ m.members, x.deviceId ≠ deviceId) ∧ m.isRevoked deviceId = false ∧
        m.rootSeed = .ok seed := by
  unfold issueChecks
  simp only [bind_eq_ok]
  have hKnown : ∀ d : String, m.members.any (·.deviceId == d) = true ↔ ∃ x ∈ m.members, x.deviceId = d := by
    intro d
    simp [List.any_eq_true]
  constructor
  · rintro ⟨keyX, hX, keyS, hS, granted', hIp, h⟩
    split at h
    · cases h
    · rename_i hNew
      split at h
      · cases h
      · rename_i hLive
        obtain ⟨seed', hSeed, hEq⟩ := bind_eq_ok.mp h
        cases hEq
        refine ⟨keyX, keyS, hX, hS, rfl, hIp, fun x hx hSame => ?_, by simpa using hLive, hSeed⟩
        exact hNew ((hKnown _).mpr ⟨x, hx, hSame⟩)
  · rintro ⟨keyX, keyS, hX, hS, rfl, hIp, hNew, hLive, hSeed⟩
    refine ⟨keyX, hX, keyS, hS, granted, hIp, ?_⟩
    rw [if_neg, if_neg]
    · exact bind_eq_ok.mpr ⟨seed, hSeed, rfl⟩
    · rw [hLive]
      exact Bool.false_ne_true
    · intro hAny
      obtain ⟨x, hx, hSame⟩ := (hKnown _).mp hAny
      exact hNew x hx hSame

/-- The member that an issued certificate comes with. -/
def newMember (env : MeshEnv) (m : MeshConfig) (deviceId ikX ikSPub granted : String) (seed : Bytes)
    (now : Nat) : MemberEntry :=
  { deviceId := deviceId
    cert := (m.newCert deviceId ikX ikSPub granted now).sign env.signatures seed
    joinedAt := now
    aliasName := none }

/-- An issue that passes the checks adds one member. -/
theorem issueCert_of_checks {granted : String} {seed : Bytes}
    (h : m.issueChecks env ikX ikSPub ip note = .ok (deviceId, granted, seed)) (now : Nat) :
    m.issueCert env ikX ikSPub ip note now =
      ({ m with members := m.members ++ [newMember env m deviceId ikX ikSPub granted seed now] },
        .ok (newMember env m deviceId ikX ikSPub granted seed now).cert) := by
  unfold issueCert
  rw [h]
  rfl

/-- An issue that fails changes nothing; otherwise it adds one member. -/
theorem issueCert_cases (env : MeshEnv) (m : MeshConfig) (ikX ikSPub ip : String)
    (note : Option String) (now : Nat) :
    (∃ e, m.issueChecks env ikX ikSPub ip note = .error e ∧
      m.issueCert env ikX ikSPub ip note now = (m, .error e)) ∨
    ∃ deviceId granted seed, m.issueChecks env ikX ikSPub ip note = .ok (deviceId, granted, seed) ∧
      m.issueCert env ikX ikSPub ip note now =
        ({ m with members := m.members ++ [newMember env m deviceId ikX ikSPub granted seed now] },
          .ok (newMember env m deviceId ikX ikSPub granted seed now).cert) := by
  cases hChecks : m.issueChecks env ikX ikSPub ip note with
  | error e =>
    refine .inl ⟨e, rfl, ?_⟩
    unfold issueCert
    rw [hChecks]
  | ok r => exact .inr ⟨r.1, r.2.1, r.2.2, rfl, issueCert_of_checks hChecks now⟩

/-- Spending a join code changes the join codes only. -/
theorem consumeInvite_frame (env : MeshEnv) (m : MeshConfig) (code : String) (now : Nat) :
    ∃ invites, (m.consumeInvite env code now).1 = { m with invites := invites } := by
  unfold consumeInvite
  split
  · exact ⟨m.invites, rfl⟩
  · exact ⟨_, rfl⟩

/-- A code that can be used is one that is not spent. -/
theorem peekInvite_find {ip : Option String} (h : m.peekInvite env code now = .ok ip) :
    ∃ e, m.invites.find? (·.codeHash = hashCode env code) = some e ∧ e.used = false := by
  unfold peekInvite at h
  split at h
  · cases h
  · rename_i e hFind
    split at h
    · cases h
    · rename_i hUsed
      exact ⟨e, hFind, by simpa using hUsed⟩

/-- A new join code can be used until it runs out. -/
theorem peekInvite_createInvite {raw : Bytes} {bound : Option String} {ttlSecs later : Nat}
    (hNew : ∀ e ∈ m.invites, e.codeHash ≠ hashCode env (inviteCode raw))
    (hTime : later ≤ now + max ttlSecs 1) :
    (m.createInvite env raw bound ttlSecs now).1.peekInvite env (inviteCode raw) later = .ok bound := by
  have hOld : (m.invites.filter fun e => now < e.expiresAt && !e.used).find?
      (·.codeHash = hashCode env (inviteCode raw)) = none := by
    rw [List.find?_eq_none]
    intro e he
    simpa using hNew e (List.mem_filter.mp he).1
  unfold peekInvite createInvite
  dsimp only
  rw [List.find?_append, hOld, Option.none_or, List.find?_cons_of_pos (by simp)]
  dsimp only
  rw [if_neg Bool.false_ne_true, if_neg (by omega)]

/-- The join codes change exactly when the code is spent. -/
theorem consumeInvite_invites_iff :
    (m.consumeInvite env code now).1.invites ≠ m.invites ↔
      ∃ ip, m.peekInvite env code now = .ok ip := by
  unfold consumeInvite
  cases hPeek : m.peekInvite env code now with
  | error e => simp
  | ok ip =>
    refine iff_of_true (fun hSame => ?_) ⟨ip, rfl⟩
    obtain ⟨e, hFind, hUnused⟩ := peekInvite_find hPeek
    dsimp only at hSame
    have hLength := congrArg List.length hSame
    rw [← modifyFirst_length (p := fun x => decide (x.codeHash = hashCode env code))
      (f := fun x => { x with used := true }) m.invites, List.length_filter_eq_length_iff] at hLength
    rw [List.filter_eq_self.mpr hLength] at hSame
    have hUsed := congrArg InviteEntry.used (modifyFirst_eq_self hFind hSame)
    rw [hUnused] at hUsed
    cases hUsed

/-- Devices and certificates stay as they are. -/
theorem setMemberAlias_map {β : Type} (g : MemberEntry → β)
    (h : ∀ x a, g { x with aliasName := a } = g x) (deviceId aliasName : String) :
    (m.setMemberAlias deviceId aliasName).members.map g = m.members.map g :=
  modifyFirst_map g (fun x => h x _) m.members

theorem mem_setMemberAlias {x : MemberEntry} {aliasName : String}
    (h : x ∈ (m.setMemberAlias deviceId aliasName).members) :
    ∃ y ∈ m.members, x.deviceId = y.deviceId ∧ x.cert = y.cert ∧ x.joinedAt = y.joinedAt := by
  rcases mem_modifyFirst h with hOld | ⟨y, hy, rfl⟩
  · exact ⟨x, hOld, rfl, rfl, rfl⟩
  · exact ⟨y, hy, rfl, rfl, rfl⟩

end MeshConfig

end LinkMesh
