import Std.Data.ExtTreeMap
import LinkMesh.Client.Crypto

/-!
# Peer sessions

The state a client keeps for one peer (`linkmesh-client/src/peer.rs`). The
source's flat record is built here in layers, so that a function's frame can
be stated as an equality of the layers it leaves alone:

* `KeyState`    — identities, keys, salts and the key epoch;
* `Window`      — send window, reorder buffer and the packets held back until
  the handshake is complete;
* `DataPlane`   — both, with the rekey counters;
* `PeerSession` — the data plane with its link: virtual IP, endpoint,
  transport, liveness and traffic counters.

`hello_sent` is written once and read nowhere, and is left out.
-/

namespace LinkMesh

abbrev SocketAddr := Nat

inductive Transport where
  | punching
  | direct
  | relay
  deriving DecidableEq, Repr

/-- An unacknowledged packet: when it was last sent, how often it was
retransmitted, and its plaintext. -/
structure Unacked where
  since : Instant
  retries : Nat
  payload : Bytes
  deriving DecidableEq, Repr

structure KeyState where
  /-- long-term identity of the peer -/
  publicKey : RawKey
  handshakeKey : RawKey
  peerKey : Option RawKey
  rkPriv : Option RawKey
  rkPub : Option RawKey
  peerRkPub : Option RawKey
  mySalt : Option Salt
  peerSalt : Option Salt
  epoch : Nat
  deriving DecidableEq, Repr

structure Window where
  sendSeq : Nat
  recvSeq : Nat
  sendUnacked : Std.ExtTreeMap Nat Unacked
  recvBuf : Std.ExtTreeMap Nat Bytes
  pending : List Bytes

structure DataPlane extends KeyState, Window where
  sentPkts : Nat
  lastRekey : Instant

structure PeerSession extends DataPlane where
  ip : String
  endpoint : Option SocketAddr
  transport : Transport
  attempts : Nat
  errorCount : Nat
  txBytes : Nat
  rxBytes : Nat
  lastSeen : Instant
  peerRelayRk : Option RawKey
  lastRequery : Option Instant
  lastDirect : Option Instant

/-- The data plane of `PeerSession::new`. -/
def DataPlane.new (publicKey handshakeKey rkPriv rkPub : RawKey) (mySalt : Salt)
    (now : Instant) : DataPlane where
  publicKey
  handshakeKey
  peerKey := none
  rkPriv := some rkPriv
  rkPub := some rkPub
  peerRkPub := none
  mySalt := some mySalt
  peerSalt := none
  epoch := 0
  sendSeq := 0
  recvSeq := 0
  sendUnacked := ∅
  recvBuf := ∅
  pending := []
  sentPkts := 0
  lastRekey := now

def PeerSession.new (publicKey : RawKey) (ip : String) (handshakeKey : RawKey)
    (endpoint : Option SocketAddr) (rkPriv rkPub : RawKey) (mySalt : Salt)
    (now : Instant) : PeerSession where
  toDataPlane := DataPlane.new publicKey handshakeKey rkPriv rkPub mySalt now
  ip
  endpoint
  transport := .punching
  attempts := 0
  errorCount := 0
  txBytes := 0
  rxBytes := 0
  lastSeen := now
  peerRelayRk := none
  lastRequery := none
  lastDirect := none

namespace KeyState

variable {Ct : Type}

/-- The key in use: the session key once the handshake is complete, the
static handshake key before. -/
def currentKey (s : KeyState) : RawKey :=
  match s.peerKey with
  | some k => k
  | none => s.handshakeKey

def established (s : KeyState) : Bool := s.peerKey.isSome

/-- The own routing key, drawn as `rk` if there is none yet. -/
def ensureRk (C : Crypto Ct) (rk : RawKey) (s : KeyState) : RawKey × KeyState :=
  match s.rkPriv, s.rkPub with
  | some priv, some _ => (priv, s)
  | _, _ => (rk, { s with rkPriv := some rk, rkPub := some (C.publicKey rk) })

theorem currentKey_of_some {s : KeyState} {k : RawKey} (h : s.peerKey = some k) :
    s.currentKey = k := by
  simp [currentKey, h]

theorem peerKey_of_established {s : KeyState} (h : s.established = true) :
    s.peerKey = some s.currentKey := by
  obtain ⟨k, hk⟩ := Option.isSome_iff_exists.mp h
  rw [hk, currentKey_of_some hk]

theorem currentKey_of_none {s : KeyState} (h : s.peerKey = none) :
    s.currentKey = s.handshakeKey := by
  simp [currentKey, h]

theorem established_iff {s : KeyState} : s.established = true ↔ ∃ k, s.peerKey = some k := by
  rw [established, Option.isSome_iff_exists]

theorem not_established_iff {s : KeyState} : s.established = false ↔ s.peerKey = none := by
  rw [established, Option.isSome_eq_false_iff, Option.isNone_iff_eq_none]

end KeyState

end LinkMesh
