import LinkMesh.Wire.Text

/-!
# Certificates, server information and revocation lists

`linkmesh-shared/src/cert.rs`: the statements the mesh root signs, their
canonical bytes and their verification. Ed25519 is a third-party primitive
and enters as the parameter `Signatures`.
-/

namespace LinkMesh

/-- Ed25519 on raw keys. -/
structure Signatures where
  /-- `identity::sign(seed, msg)` -/
  sign : Bytes → Bytes → Bytes
  /-- `identity::verify(pub, msg, sig)` -/
  verify : Bytes → Bytes → Bytes → Bool

/-- `identity::parse_sig_public` -/
def parseSigPublic (s : String) : Except String Bytes :=
  b64Fixed 32 "签名公钥 base64 解析失败" "签名公钥长度错误，应为 32 字节" s

theorem parseSigPublic_keyB64 {bs : Bytes} (h : bs.length = 32) :
    parseSigPublic (keyB64 bs) = .ok bs :=
  b64Fixed_keyB64 h

/-- The bytes that are signed: a heading and one line for each field. -/
def canonical (heading : String) (fields : List (String × String)) : Bytes :=
  utf8 heading ++ [10] ++ fields.flatMap fun (k, v) => utf8 k ++ [61] ++ utf8 v ++ [10]

-- ---------------------------------------------------------------------------
-- Device certificates
-- ---------------------------------------------------------------------------

structure DeviceCert where
  meshId : String
  version : Nat
  /-- base64, see `device_id_b64` -/
  deviceId : String
  /-- base64 X25519 public key -/
  ikX : String
  /-- base64 Ed25519 public key -/
  ikSPub : String
  /-- the virtual IP the server assigned -/
  allowedIp : String
  validFrom : Nat
  notAfter : Nat
  /-- the root's signature, base64 -/
  signature : Option String
  deriving DecidableEq, Repr

namespace DeviceCert

def canonicalBytes (c : DeviceCert) : Bytes :=
  canonical "linkmesh-device-cert-v1"
    [("mesh_id", c.meshId), ("version", toString c.version), ("device_id", c.deviceId),
      ("ik_x", c.ikX), ("ik_s_pub", c.ikSPub), ("allowed_ip", c.allowedIp),
      ("valid_from", toString c.validFrom), ("not_after", toString c.notAfter)]

/-- Signature and validity period. -/
def verify (S : Signatures) (c : DeviceCert) (rootPub : Bytes) (nowSecs : Nat) :
    Except String Unit := do
  let some sigB64 := c.signature | .error "设备证书缺少签名"
  let sig ← b64Fixed 64 "设备证书签名 base64 解析失败" "设备证书签名 长度错误，应为 64 字节" sigB64
  if S.verify rootPub c.canonicalBytes sig then
    if nowSecs < c.validFrom ∨ c.notAfter < nowSecs then .error "设备证书已过期或尚未生效"
    else .ok ()
  else .error "设备证书签名无效（root 不匹配或内容被篡改）"

/-- The certificate is about the two public keys presented. -/
def matchesKeys (c : DeviceCert) (ikX : RawKey) (ikSPub : Bytes) : Except String Unit := do
  let certIkX ← parsePublicKey c.ikX
  let certIkS ← b64Fixed 32 "证书 ik_s_pub base64 解析失败" "证书 ik_s_pub 长度错误，应为 32 字节" c.ikSPub
  if certIkX = ikX ∧ certIkS = ikSPub then .ok ()
  else .error "证书与设备出示的公钥不匹配"

theorem verify_eq_ok {S : Signatures} {c : DeviceCert} {rootPub : Bytes} {nowSecs : Nat} :
    c.verify S rootPub nowSecs = .ok () ↔
      ∃ sigB64 sig, c.signature = some sigB64 ∧
        b64Fixed 64 "设备证书签名 base64 解析失败" "设备证书签名 长度错误，应为 64 字节" sigB64 = .ok sig ∧
        S.verify rootPub c.canonicalBytes sig = true ∧ c.validFrom ≤ nowSecs ∧ nowSecs ≤ c.notAfter := by
  unfold verify
  cases c.signature with
  | none => simp
  | some sigB64 =>
    dsimp only
    rw [bind_eq_ok]
    simp only [Option.some.injEq, exists_and_left, exists_eq_left']
    constructor
    · rintro ⟨sig, hSig, h⟩
      refine ⟨sig, hSig, ?_⟩
      split at h
      · rename_i hVerify
        split at h
        · cases h
        · exact ⟨hVerify, by omega⟩
      · cases h
    · rintro ⟨sig, hSig, hVerify, hFrom, hAfter⟩
      exact ⟨sig, hSig, by rw [if_pos hVerify, if_neg (by omega)]⟩

theorem matchesKeys_eq_ok {c : DeviceCert} {ikX : RawKey} {ikSPub : Bytes} :
    c.matchesKeys ikX ikSPub = .ok () ↔
      parsePublicKey c.ikX = .ok ikX ∧
        b64Fixed 32 "证书 ik_s_pub base64 解析失败" "证书 ik_s_pub 长度错误，应为 32 字节" c.ikSPub =
          .ok ikSPub := by
  unfold matchesKeys
  rw [bind_eq_ok]
  constructor
  · rintro ⟨certIkX, hKey, h⟩
    obtain ⟨certIkS, hSig, h⟩ := bind_eq_ok.mp h
    split at h
    · rename_i hBoth
      exact ⟨hBoth.1 ▸ hKey, hBoth.2 ▸ hSig⟩
    · cases h
  · rintro ⟨hKey, hSig⟩
    exact ⟨ikX, hKey, bind_eq_ok.mpr ⟨ikSPub, hSig, if_pos ⟨rfl, rfl⟩⟩⟩

end DeviceCert

-- ---------------------------------------------------------------------------
-- Server information
-- ---------------------------------------------------------------------------

structure ServerInfo where
  meshId : String
  serverName : String
  meshRootPub : String
  serverIkX : String
  serverIkSPub : String
  protocolVer : Nat
  crlVersion : Nat
  authRequired : Bool
  signature : Option String
  deriving DecidableEq, Repr

namespace ServerInfo

def canonicalBytes (i : ServerInfo) : Bytes :=
  canonical "linkmesh-server-info-v1"
    [("mesh_id", i.meshId), ("server_name", i.serverName), ("mesh_root_pub", i.meshRootPub),
      ("server_ik_x", i.serverIkX), ("server_ik_s_pub", i.serverIkSPub),
      ("protocol_ver", toString i.protocolVer), ("crl_version", toString i.crlVersion),
      ("auth_required", toString i.authRequired)]

def sign (S : Signatures) (i : ServerInfo) (rootSeed : Bytes) : ServerInfo :=
  { i with signature := some (keyB64 (S.sign rootSeed i.canonicalBytes)) }

def verify (S : Signatures) (i : ServerInfo) (rootPub : Bytes) : Except String Unit := do
  let some sigB64 := i.signature | .error "服务器信息缺少签名"
  let sig ← b64Fixed 64 "服务器信息签名 base64 解析失败" "服务器信息签名 长度错误，应为 64 字节" sigB64
  if S.verify rootPub i.canonicalBytes sig then .ok () else .error "服务器信息签名无效"

/-- What the root signs verifies, with signatures that do. -/
theorem verify_sign {S : Signatures} {i : ServerInfo} {rootSeed rootPub : Bytes}
    (hLength : (S.sign rootSeed i.canonicalBytes).length = 64)
    (hSign : S.verify rootPub i.canonicalBytes (S.sign rootSeed i.canonicalBytes) = true) :
    (i.sign S rootSeed).verify S rootPub = .ok () := by
  have hBytes : (i.sign S rootSeed).canonicalBytes = i.canonicalBytes := rfl
  unfold verify
  rw [hBytes]
  show (do let sig ← b64Fixed 64 _ _ (keyB64 _); if _ then _ else _) = _
  rw [b64Fixed_keyB64 hLength]
  exact if_pos hSign

end ServerInfo

-- ---------------------------------------------------------------------------
-- Revocation lists
-- ---------------------------------------------------------------------------

inductive RevokeReason where
  | compromised | leaked | rotated | admin | discontinued
  deriving DecidableEq, Repr

def RevokeReason.asStr : RevokeReason → String
  | .compromised => "compromised"
  | .leaked => "leaked"
  | .rotated => "rotated"
  | .admin => "admin"
  | .discontinued => "discontinued"

structure CrlEntry where
  deviceId : String
  reason : RevokeReason
  revokedAt : Nat
  replacement : Option String
  deriving DecidableEq, Repr

/-- `wire::MAX_CRL_ENTRIES`: slots of the fixed wire format. -/
def maxCrlEntries : Nat := 256

structure Crl where
  meshId : String
  version : Nat
  entries : List CrlEntry
  signature : Option String
  deriving DecidableEq, Repr

namespace Crl

/-- The entries are signed in the order of their device ids (`sort_by` is stable). -/
def canonicalBytes (c : Crl) : Bytes :=
  let entries := c.entries.mergeSort fun a b => a.deviceId ≤ b.deviceId
  canonical "linkmesh-crl-v1"
    ([("mesh_id", c.meshId), ("version", toString c.version)] ++
      entries.map fun e => ("revoke", s!"{e.deviceId}:{e.reason.asStr}:{e.revokedAt}"))

def sign (S : Signatures) (c : Crl) (rootSeed : Bytes) : Crl :=
  { c with signature := some (keyB64 (S.sign rootSeed c.canonicalBytes)) }

def isRevoked (c : Crl) (deviceId : String) : Bool := c.entries.any (·.deviceId == deviceId)

end Crl

end LinkMesh
