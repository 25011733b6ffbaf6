import LinkMesh.Mesh.Cert

/-!
# The mesh registry

`MeshConfig` (`linkmesh-server/src/mesh.rs`) and what authentication and
revocation do with it: the root key pair, the revocation list and the member
list. Join codes and the address pool are read and written when devices enrol.

## Results

* `revoke_isRevoked` — a successful `revoke` takes effect.
* `isRevoked_revoke` — revocations are never undone.
-/

namespace LinkMesh

/-- `SignKeyPairSerde`: an Ed25519 key pair as base64 texts. -/
structure SignKeyPair where
  publicKey : String
  privateKey : String
  deriving DecidableEq, Repr

structure MemberEntry where
  deviceId : String
  cert : DeviceCert
  joinedAt : Nat
  aliasName : Option String
  deriving DecidableEq, Repr

/-- A join code that works once; only its hash is stored. -/
structure InviteEntry where
  codeHash : String
  expiresAt : Nat
  used : Bool
  /-- the virtual IP bound in advance -/
  ip : Option String
  deriving DecidableEq, Repr

structure MeshConfig where
  meshId : String
  root : SignKeyPair
  crl : Crl
  members : List MemberEntry
  invites : List InviteEntry := []
  /-- virtual IPs to allocate -/
  ipPool : List String := []
  deriving DecidableEq, Repr

namespace MeshConfig

def rootSeed (m : MeshConfig) : Except String Bytes :=
  b64Fixed 32 "root 私钥 base64 解析失败" "root 私钥长度错误，应为 32 字节" m.root.privateKey

def rootPublicRaw (m : MeshConfig) : Except String Bytes := parseSigPublic m.root.publicKey

def isRevoked (m : MeshConfig) (deviceId : String) : Bool := m.crl.isRevoked deviceId

/-- The list with one more entry, not yet signed. -/
def crlPush (m : MeshConfig) (deviceId : String) (reason : RevokeReason) (now : Nat) : Crl :=
  { m.crl with
    version := m.crl.version + 1
    entries := m.crl.entries ++
      [{ deviceId := deviceId, reason := reason, revokedAt := now, replacement := none }] }

/-- The registry is changed in place, also when signing fails after the entry
was pushed. -/
def revoke (S : Signatures) (m : MeshConfig) (deviceId : String) (reason : RevokeReason)
    (now : Nat) : MeshConfig × Except String Crl :=
  if m.isRevoked deviceId then (m, .error "该设备已在吊销列表中")
  else if maxCrlEntries ≤ m.crl.entries.length then
    (m, .error s!"CRL 已达线格式上限（{maxCrlEntries} 条），无法再吊销。请清理/精简吊销列表后再试")
  else
    match m.rootSeed with
    | .error e => ({ m with crl := m.crlPush deviceId reason now }, .error e)
    | .ok seed =>
      let crl := (m.crlPush deviceId reason now).sign S seed
      ({ m with crl := crl, members := m.members.filter (·.deviceId != deviceId) }, .ok crl)

variable {S : Signatures} {m : MeshConfig} {deviceId d : String} {reason : RevokeReason} {now : Nat}

theorem isRevoked_congr {m' : MeshConfig} (h : m'.crl = m.crl) (d : String) :
    m'.isRevoked d = m.isRevoked d := by
  unfold isRevoked
  rw [h]

theorem isRevoked_crlPush :
    (m.crlPush deviceId reason now).isRevoked d = (m.isRevoked d || deviceId == d) := by
  unfold crlPush isRevoked Crl.isRevoked
  rw [List.any_append]
  simp

/-- Revocations are never undone. -/
theorem isRevoked_revoke (h : m.isRevoked d) : (m.revoke S deviceId reason now).1.isRevoked d := by
  have hPush : (m.crlPush deviceId reason now).isRevoked d := by
    rw [isRevoked_crlPush, h]
    rfl
  unfold revoke
  split
  · exact h
  · split
    · exact h
    · split
      · exact hPush
      · exact hPush

/-- A revocation that returns the new list took effect. -/
theorem revoke_isRevoked {crl : Crl} (h : (m.revoke S d reason now).2 = .ok crl) :
    (m.revoke S d reason now).1.isRevoked d := by
  have hPush : (m.crlPush d reason now).isRevoked d := by
    rw [isRevoked_crlPush]
    simp
  unfold revoke at h ⊢
  split at h
  · cases h
  · rename_i hFirst
    split at h
    · cases h
    · rename_i hRoom
      rw [if_neg hFirst, if_neg hRoom]
      split
      · exact hPush
      · exact hPush

end MeshConfig

end LinkMesh
