import LinkMesh.Mesh.Registry
import LinkMesh.Server.Routes
import Std.Data.ExtTreeSet
import Mathlib.Data.List.MinMax

/-!
# The state of the signaling server

The tables of `Signaling` (`linkmesh-server/src/signaling.rs`), each behind a
lock of its own in the source, what the server is configured with, and the
primitives it calls. Times are seconds.

The third-party primitives are the parameter `SignalingCrypto`; `Lawful` says
what the server relies on: Diffie-Hellman commutes, and a sealed datagram
shows its nonce and opens exactly under its key.
-/

namespace LinkMesh

open Std KeyMap

-- ---------------------------------------------------------------------------
-- Primitives
-- ---------------------------------------------------------------------------

/-- `session_nonce`: 8 bytes of counter (big endian), the direction bit and
three zero bytes, as the first 4 and the last 8 bytes of the nonce. -/
def sessionNonce (counter direction : Nat) : Nonce :=
  (counter / 2 ^ 32, counter % 2 ^ 32 * 2 ^ 32 + direction % 2 * 2 ^ 24)

theorem sessionNonce_inj {c c' d d' : Nat} (h : sessionNonce c d = sessionNonce c' d') :
    c = c' ∧ d % 2 = d' % 2 := by
  have hParts := Prod.mk.inj h
  omega

/-- X25519, HKDF-SHA256 and ChaCha20-Poly1305 as signaling uses them, with
sealed payloads in `Ct`. -/
structure SignalingCrypto (Ct : Type) where
  publicKey : RawKey → RawKey
  diffieHellman : RawKey → RawKey → RawKey
  /-- `HKDF(salt, ikm, "linkmesh/session/v1")` on three concatenated secrets -/
  hkdfSession : Bytes → RawKey × RawKey × RawKey → RawKey
  /-- the nonce, then ciphertext and tag -/
  encryptWithNonce : RawKey → Nonce → Bytes → Ct
  /-- the first 12 bytes, `none` when the payload is shorter -/
  nonceOf : Ct → Option Nonce
  /-- opens what follows the nonce under the nonce in front, `none` when
  authentication fails -/
  decryptCt : RawKey → Ct → Option Bytes

namespace SignalingCrypto

variable {Ct : Type} (C : SignalingCrypto Ct)

/-- `crypto::shared_secret` -/
def sharedSecret (priv peerPublic : RawKey) : RawKey := C.diffieHellman priv peerPublic

/-- `crypto::decrypt` -/
def decrypt (key : RawKey) (data : Ct) : Option Bytes :=
  match C.nonceOf data with
  | none => none
  | some _ => C.decryptCt key data

/-- `crypto::decrypt_with_nonce`: the nonce in front must be the expected one. -/
def decryptWithNonce (key : RawKey) (nonce : Nonce) (data : Ct) : Option Bytes :=
  match C.nonceOf data with
  | none => none
  | some n => if n ≠ nonce then none else C.decryptCt key data

/-- `derive_session_key_server`: the 3-DH session key. -/
def deriveSessionKeyServer (ekSPriv ikSPriv ekCPub ikXCPub : RawKey) (salt : Bytes) : RawKey :=
  C.hkdfSession salt
    (C.sharedSecret ikSPriv ekCPub, C.sharedSecret ekSPriv ikXCPub, C.sharedSecret ekSPriv ekCPub)

/-- Functional correctness of X25519 and of the AEAD. -/
structure Lawful : Prop where
  dh_comm : ∀ a b, C.diffieHellman a (C.publicKey b) = C.diffieHellman b (C.publicKey a)
  nonceOf_encrypt : ∀ k n p, C.nonceOf (C.encryptWithNonce k n p) = some n
  decrypt_encrypt : ∀ k k' n p,
    C.decryptCt k' (C.encryptWithNonce k n p) = if k' = k then some p else none

variable {C}

/-- A sealed payload opens under its key and nonce only. -/
theorem Lawful.decryptWithNonce_encrypt (hC : C.Lawful) (k k' : RawKey) (n n' : Nonce) (p : Bytes) :
    C.decryptWithNonce k' n' (C.encryptWithNonce k n p) =
      if n = n' ∧ k' = k then some p else none := by
  unfold decryptWithNonce
  rw [hC.nonceOf_encrypt]
  by_cases hNonce : n = n'
  · simp [hNonce, hC.decrypt_encrypt]
  · simp [hNonce]

theorem Lawful.decrypt_encrypt' (hC : C.Lawful) (k : RawKey) (n : Nonce) (p : Bytes) :
    C.decrypt k (C.encryptWithNonce k n p) = some p := by
  unfold decrypt
  rw [hC.nonceOf_encrypt, hC.decrypt_encrypt, if_pos rfl]

end SignalingCrypto

-- ---------------------------------------------------------------------------
-- Datagrams and their sources
-- ---------------------------------------------------------------------------

/-- `std::net::SocketAddr`: 4 or 16 address bytes and a port. -/
structure SourceAddr where
  octets : Bytes
  port : Nat
  deriving DecidableEq, Repr

/-- A framed datagram after `parse_header`: type, sender key and what follows
the header. -/
structure SignalFrame (Ct : Type) where
  msgType : Nat
  sender : RawKey
  payload : Ct
  deriving DecidableEq, Repr

def msgRegister : Nat := 0x01
def msgQuery : Nat := 0x02
def msgBye : Nat := 0x05
def msgHeartbeat : Nat := 0x07
def msgKeyquery : Nat := 0x08
def msgJoin : Nat := 0x0C
def msgAuth : Nat := 0x0D

-- ---------------------------------------------------------------------------
-- Tables
-- ---------------------------------------------------------------------------

/-- An authenticated session, found by the client's ephemeral key in the frame
header. -/
structure SessionEntry where
  /-- `ek_c` -/
  sessionPub : RawKey
  deviceId : String
  /-- static X25519 key of the client, its key in the route table -/
  ikX : RawKey
  /-- the virtual IP bound by the certificate -/
  ip : String
  sk : RawKey
  counterRx : Nat
  lastSeen : Nat
  room : String
  deriving DecidableEq, Repr

abbrev SessionMap := ExtTreeMap RawKey SessionEntry

/-- The order in which a hash map of sessions is iterated. -/
structure IterOrder where
  entries : SessionMap → List (RawKey × SessionEntry)
  perm : ∀ m, (entries m).Perm m.toList

/-- Iteration in the order of the keys. -/
def IterOrder.byKey : IterOrder := ⟨ExtTreeMap.toList, fun _ => .refl _⟩

theorem IterOrder.mem_entries (ord : IterOrder) {m : SessionMap} {k : RawKey} {e : SessionEntry} :
    (k, e) ∈ ord.entries m ↔ m[k]? = some e := by
  rw [(ord.perm m).mem_iff, ExtTreeMap.mem_toList_iff_getElem?_eq_some]

/-- A room and the hash of its token. -/
structure RoomEntry where
  name : String
  tokenHash : String
  deriving DecidableEq, Repr

/-- What a running server is configured with, and what it calls. -/
structure SignalingEnv (Ct : Type) where
  crypto : SignalingCrypto Ct
  signatures : Signatures
  sha256 : Bytes → Bytes
  /-- `str::to_lowercase` -/
  toLowercase : String → String
  /-- `str::to_uppercase` -/
  toUppercase : String → String
  /-- `{:?}` of a `str` -/
  debugText : String → String
  /-- `SocketAddr::to_string` -/
  addrText : SourceAddr → String
  serverPriv : RawKey
  serverPub : RawKey
  serverIkSPub : String
  serverName : String
  /-- 0 means no limit -/
  joinRateLimit : Nat
  routeTtlSec : Nat

structure Signaling where
  routes : RouteTable := {}
  mesh : MeshConfig
  /-- by `ek_c` -/
  sessions : SessionMap := ∅
  /-- `ik_x` of the live sessions, looked up for every relayed packet -/
  activeIkX : ExtTreeSet RawKey := ∅
  /-- the last AUTH nonces of each `ik_x` -/
  replay : ExtTreeMap RawKey (List Bytes) := ∅
  /-- source IP → (start of the window, count) -/
  rateLimits : ExtTreeMap Bytes (Nat × Nat) := ∅
  rooms : List RoomEntry := []
  aliases : ExtTreeMap String String := ∅

variable {Ct : Type}

/-- `ServerConfig::hash_token`: SHA-256 in hex. -/
def hashToken (env : SignalingEnv Ct) (token : String) : String :=
  let digits := "0123456789abcdef".toList
  String.ofList ((env.sha256 (utf8 (trim token))).flatMap fun b =>
    [digits.getD (b.toNat / 16) '0', digits.getD (b.toNat % 16) '0'])

namespace Signaling

/-- Token → room. Without configured rooms everyone is in `default`; otherwise
a missing or unknown token is refused. -/
def resolveRoom (env : SignalingEnv Ct) (s : Signaling) (token : Option String) :
    Except String String :=
  if s.rooms.isEmpty then .ok "default"
  else
    match (token.map trim).filter (· ≠ "") with
    | some t =>
      match s.rooms.find? (·.tokenHash = hashToken env t) with
      | some r => .ok r.name
      | none => .error "房间令牌无效（请核对令牌后重试）"
    | none => .error "缺少房间令牌（服务器启用了令牌验证，请用 --token 指定）"

/-- Rate limit of AUTH and JOIN for each source IP, in windows of 60 s. -/
def rateLimited (env : SignalingEnv Ct) (s : Signaling) (src : SourceAddr) (now : Nat) :
    Signaling × Bool :=
  if env.joinRateLimit = 0 then (s, false)
  else
    let (start, count) := s.rateLimits[src.octets]?.getD (now, 0)
    if 60 ≤ now - start then
      ({ s with rateLimits := s.rateLimits.insert src.octets (now, 1) }, false)
    else
      ({ s with rateLimits := s.rateLimits.insert src.octets (start, count + 1) },
        env.joinRateLimit < count + 1)

/-- Length of the nonce ring of a device. -/
def replayRing : Nat := 64

/-- The nonce is new, and is remembered; the oldest of more than 64 is
forgotten. -/
def replayCheck (s : Signaling) (ikX : RawKey) (nonce : Bytes) : Signaling × Bool :=
  let q := s.replay[ikX]?.getD []
  -- `entry().or_insert_with` creates the ring also when the nonce is a replay
  if nonce ∈ q then ({ s with replay := s.replay.insert ikX q }, false)
  else
    let q := q ++ [nonce]
    ({ s with replay := s.replay.insert ikX (if replayRing < q.length then q.drop 1 else q) }, true)

/-- The identities of the sessions in the table. -/
def rebuildActive (sessions : SessionMap) : ExtTreeSet RawKey :=
  sessions.toList.foldl (fun active p => active.insert p.2.ikX) ∅

/-- `rebuild_active_ik_x` -/
def rebuildActiveIkX (s : Signaling) : Signaling :=
  { s with activeIkX := rebuildActive s.sessions }

end Signaling

end LinkMesh
