import LinkMesh.Client.Peer

/-!
# The data plane of one session

The functions of `linkmesh-client/src/connection.rs` that act on a peer
session under its lock: HELLO construction and handling, key rotation, the
reliable send window with its cumulative acknowledgements and
retransmissions, and the reorder buffer. What the source does to the link
(endpoint, transport, liveness, counters) around them is in
`Client/Conn.lean`.

Random values are arguments (`Draw`), as are instants. A frame to be sent is
returned as the arguments of the encryption that makes it (`Sealing`).
-/

namespace LinkMesh

/-- Data held back per peer until the handshake is complete. -/
def pendingCap : Nat := 256

/-- Most unacknowledged packets per peer, and most packets buffered out of
order. -/
def reliableWindow : Nat := 512

def retransmitTimeoutMs : Nat := 500

/-- Retransmissions after which a packet is no longer resent. -/
def maxRetries : Nat := 20

/-- The fields of `Outbox` that stay fixed for a connection. -/
structure Config where
  localPub : RawKey
  localPriv : RawKey
  localIp : String
  holePunchEnabled : Bool
  rekeyEveryPkts : Nat
  relayRecoverStale : Nat
  relayRk : RawKey
  relayAddr : SocketAddr

/-- The random values one call may draw: a private routing key, a salt, an
AEAD nonce. -/
structure Draw where
  rk : RawKey
  salt : Salt
  nonce : Nonce
  deriving DecidableEq, Repr

/-- One encryption: `encrypt_with_nonce key nonce plain`. -/
structure Sealing where
  key : RawKey
  nonce : Nonce
  plain : Plain
  deriving DecidableEq, Repr

variable {Ct : Type}

/-- The datagram an encryption produces. -/
def Sealing.ct (C : Crypto Ct) (f : Sealing) : Ct := C.encryptWithNonce f.key f.nonce f.plain

-- ---------------------------------------------------------------------------
-- Keys
-- ---------------------------------------------------------------------------

namespace KeyState

/-- HELLO under the current key. -/
def buildHelloCt (cfg : Config) (d : Draw) (s : KeyState) : Option Sealing := do
  let rkPub ← s.rkPub
  let salt ← s.mySalt
  return ⟨s.currentKey, d.nonce, .hello s.epoch rkPub salt cfg.localIp⟩

/-- Rotate the own routing key. Only the peer with the larger public key does;
the REKEY is sealed under the old key. -/
def maybeRekey (cfg : Config) (C : Crypto Ct) (d : Draw) (s : KeyState) :
    Option (KeyState × Sealing) :=
  if s.established = false ∨ cfg.localPub ≤ s.publicKey then none
  else
    match s.peerRkPub with
    | none => none
    | some peerRk =>
      let finalSalt := xorSalt d.salt (s.peerSalt.getD 0)
      let newKey := C.derivePeerKey cfg.localPriv s.publicKey d.rk peerRk finalSalt
      let rekey := ⟨s.currentKey, d.nonce, .rekey s.epoch (C.publicKey d.rk) d.salt⟩
      some ({ s with
        rkPriv := some d.rk
        rkPub := some (C.publicKey d.rk)
        mySalt := some d.salt
        peerKey := some newKey
        epoch := s.epoch + 1 }, rekey)

/-- The key changes of `handle_hello`: derive the session key from the peer's
routing key and salt; the first HELLO starts at epoch 0. -/
def acceptHello (cfg : Config) (C : Crypto Ct) (d : Draw) (peerRk : RawKey) (peerSalt : Salt)
    (s : KeyState) : KeyState :=
  let isFirst := s.peerKey.isNone
  let finalSalt := xorSalt (s.mySalt.getD 0) peerSalt
  let (rkPriv, s) := s.ensureRk C d.rk
  let newKey := C.derivePeerKey cfg.localPriv s.publicKey rkPriv peerRk finalSalt
  { s with
    peerKey := some newKey
    peerRkPub := some peerRk
    peerSalt := some peerSalt
    epoch := if isFirst then 0 else s.epoch }

/-- The HELLO sent back to a peer that is new or has changed its routing key:
it may have no session key yet, so it is sealed under the handshake key. -/
def replyHello (cfg : Config) (d : Draw) (s : KeyState) : Option Sealing :=
  match s.rkPub, s.mySalt with
  | some rkp, some saltp => some ⟨s.handshakeKey, d.nonce, .hello s.epoch rkp saltp cfg.localIp⟩
  | _, _ => none

/-- Follow the peer's key rotation, unless the frame is of another epoch. The
source checks the epoch under one lock and rotates under the next; in between
only an own rotation could change it, and the side that is sent REKEY makes none. -/
def handleRekey (cfg : Config) (C : Crypto Ct) (epoch : Nat) (newPeerRk : RawKey)
    (newPeerSalt : Salt) (s : KeyState) : KeyState :=
  if s.established = false ∨ epoch ≠ s.epoch then s
  else
    match s.rkPriv with
    | none => s
    | some rkPriv =>
      let finalSalt := xorSalt (s.mySalt.getD 0) newPeerSalt
      let newKey := C.derivePeerKey cfg.localPriv s.publicKey rkPriv newPeerRk finalSalt
      { s with
        peerKey := some newKey
        peerRkPub := some newPeerRk
        peerSalt := some newPeerSalt
        epoch := s.epoch + 1 }

/-- The decryption attempts of `handle_peer_data`: the current key first, then
the static handshake key. -/
def openPeerData (C : Crypto Ct) (s : KeyState) (ct : Ct) : Option Plain :=
  match C.decrypt s.currentKey ct with
  | some p => some p
  | none => if s.handshakeKey ≠ s.currentKey then C.decrypt s.handshakeKey ct else none

variable {cfg : Config} {C : Crypto Ct} {d : Draw} {s s' : KeyState} {f : Sealing}

theorem buildHelloCt_eq_some : s.buildHelloCt cfg d = some f ↔
    ∃ rkPub salt, s.rkPub = some rkPub ∧ s.mySalt = some salt ∧
      f = ⟨s.currentKey, d.nonce, .hello s.epoch rkPub salt cfg.localIp⟩ := by
  simp only [buildHelloCt, Option.bind_eq_bind, Option.bind_eq_some_iff]
  constructor
  · rintro ⟨rkPub, hRk, salt, hSalt, h⟩
    cases h
    exact ⟨rkPub, salt, hRk, hSalt, rfl⟩
  · rintro ⟨rkPub, salt, hRk, hSalt, rfl⟩
    exact ⟨rkPub, hRk, salt, hSalt, rfl⟩

/-- `handle_hello` on a session that has its own routing key. -/
theorem acceptHello_eq {priv pub peerRk : RawKey} {peerSalt : Salt} (hPriv : s.rkPriv = some priv)
    (hPub : s.rkPub = some pub) : s.acceptHello cfg C d peerRk peerSalt =
      { s with
        peerKey := some (C.derivePeerKey cfg.localPriv s.publicKey priv peerRk
          (xorSalt (s.mySalt.getD 0) peerSalt))
        peerRkPub := some peerRk
        peerSalt := some peerSalt
        epoch := if s.peerKey.isNone then 0 else s.epoch } := by
  simp only [acceptHello, ensureRk, hPriv, hPub]

/-- `handle_rekey` on a frame of the current epoch. -/
theorem handleRekey_eq {priv newPeerRk : RawKey} {newPeerSalt : Salt} {epoch : Nat}
    (hEst : s.established = true) (hEpoch : epoch = s.epoch) (hPriv : s.rkPriv = some priv) :
    s.handleRekey cfg C epoch newPeerRk newPeerSalt =
      { s with
        peerKey := some (C.derivePeerKey cfg.localPriv s.publicKey priv newPeerRk
          (xorSalt (s.mySalt.getD 0) newPeerSalt))
        peerRkPub := some newPeerRk
        peerSalt := some newPeerSalt
        epoch := s.epoch + 1 } := by
  simp [handleRekey, hEst, hEpoch, hPriv]

/-- `handle_rekey` drops every other frame. -/
theorem handleRekey_drop {newPeerRk : RawKey} {newPeerSalt : Salt} {epoch : Nat}
    (h : s.established = false ∨ epoch ≠ s.epoch) :
    s.handleRekey cfg C epoch newPeerRk newPeerSalt = s := by
  rw [handleRekey, if_pos h]

theorem replyHello_eq_some : s.replyHello cfg d = some f ↔
    ∃ rkPub salt, s.rkPub = some rkPub ∧ s.mySalt = some salt ∧
      f = ⟨s.handshakeKey, d.nonce, .hello s.epoch rkPub salt cfg.localIp⟩ := by
  unfold replyHello
  cases s.rkPub <;> cases s.mySalt <;> simp [eq_comm]

/-- A rotation happens on an established session of the peer with the larger
public key, and is announced under the key it replaces. -/
theorem maybeRekey_eq_some : s.maybeRekey cfg C d = some (s', f) ↔
    s.established = true ∧ s.publicKey < cfg.localPub ∧ ∃ peerRk, s.peerRkPub = some peerRk ∧
      s' = { s with
        rkPriv := some d.rk
        rkPub := some (C.publicKey d.rk)
        mySalt := some d.salt
        peerKey := some (C.derivePeerKey cfg.localPriv s.publicKey d.rk peerRk
          (xorSalt d.salt (s.peerSalt.getD 0)))
        epoch := s.epoch + 1 } ∧
      f = ⟨s.currentKey, d.nonce, .rekey s.epoch (C.publicKey d.rk) d.salt⟩ := by
  unfold maybeRekey
  split
  · rename_i hNo
    refine ⟨nofun, fun ⟨hEst, hLt, _⟩ => ?_⟩
    rcases hNo with hNo | hNo
    · rw [hEst] at hNo
      cases hNo
    · exact absurd hNo (not_le.mpr hLt)
  · rename_i hYes
    push Not at hYes
    obtain ⟨hEst, hLt⟩ := hYes
    have hEst : s.established = true := by simpa using hEst
    cases hRk : s.peerRkPub with
    | none => simp
    | some peerRk => simp [hEst, hLt, eq_comm]

end KeyState

-- ---------------------------------------------------------------------------
-- Windows
-- ---------------------------------------------------------------------------

/-- Deliver what follows `high` without a gap; every round takes a packet out
of the buffer, so the buffer's size bounds the number of rounds. -/
def flushRecvBuf : Nat → Nat → Std.ExtTreeMap Nat Bytes → List Bytes →
    List Bytes × Nat × Std.ExtTreeMap Nat Bytes
  | 0, high, buf, delivered => (delivered, high, buf)
  | rounds + 1, high, buf, delivered =>
    match buf[high + 1]? with
    | some p => flushRecvBuf rounds (high + 1) (buf.erase (high + 1)) (delivered ++ [p])
    | none => (delivered, high, buf)

/-- The receive state machine: the payloads delivered in order, the new high
water mark and the new buffer. -/
def reorderDeliver (recvHigh : Nat) (recvBuf : Std.ExtTreeMap Nat Bytes) (seq : Nat)
    (payload : Bytes) : List Bytes × Nat × Std.ExtTreeMap Nat Bytes :=
  if seq = recvHigh + 1 then
    flushRecvBuf recvBuf.size seq recvBuf [payload]
  else if seq > recvHigh + 1 then
    let buf := recvBuf.insert seq payload
    if buf.size > reliableWindow then
      match buf.keys.head? with
      | some oldest => ([], recvHigh, buf.erase oldest)
      | none => ([], recvHigh, buf)
    else ([], recvHigh, buf)
  else ([], recvHigh, recvBuf)

namespace Window

/-- Store a packet under the next sequence number. -/
def push (now : Instant) (w : Window) (p : Bytes) : Window :=
  { w with
    sendSeq := w.sendSeq + 1
    sendUnacked := w.sendUnacked.insert (w.sendSeq + 1) ⟨now, 0, p⟩ }

/-- The window changes of `handle_hello`: the first HELLO restarts the receive
side, and a new or changed routing key renumbers the unacknowledged packets
from 1 in their order. -/
def acceptHello (now : Instant) (isFirst rkChanged : Bool) (w : Window) : Window :=
  let w := if isFirst then { w with recvSeq := 0 } else w
  if isFirst || rkChanged then
    let window := w.sendUnacked.values.map Unacked.payload
    window.foldl (push now) { w with sendSeq := 0, sendUnacked := ∅ }
  else w

/-- Remove what a cumulative acknowledgement covers. -/
def handleAck (ack : Nat) (w : Window) : Window :=
  { w with sendUnacked := w.sendUnacked.filter fun k _ => decide (ack < k) }

/-- The packets `retransmit` resends at `now`, with their plaintexts. -/
def expired (now : Instant) (w : Window) : List (Nat × Bytes) :=
  w.sendUnacked.toList.filterMap fun (seq, u) =>
    if maxRetries ≤ u.retries then none
    else if now - u.since < retransmitTimeoutMs then none
    else some (seq, u.payload)

/-- Count a retransmission of `seq` and restart its timer. -/
def bump (now : Instant) (seq : Nat) (w : Window) : Window :=
  { w with sendUnacked := w.sendUnacked.modify seq fun u =>
      { u with since := now, retries := u.retries + 1 } }

end Window

-- ---------------------------------------------------------------------------
-- Data plane
-- ---------------------------------------------------------------------------

namespace DataPlane

/-- `maybe_rekey` on the session; no frame when there is no rotation. -/
def maybeRekey (cfg : Config) (C : Crypto Ct) (now : Instant) (d : Draw) (s : DataPlane) :
    DataPlane × Option Sealing :=
  match s.toKeyState.maybeRekey cfg C d with
  | none => (s, none)
  | some (keys, rekey) => ({ s with toKeyState := keys, lastRekey := now }, some rekey)

/-- The packet counter of `send_data`; every `rekey_every_pkts` packets it
rotates the routing key. -/
def countPkt (cfg : Config) (C : Crypto Ct) (now : Instant) (d : Draw) (s : DataPlane) :
    DataPlane × Option Sealing :=
  let s := { s with sentPkts := s.sentPkts + 1 }
  if cfg.rekeyEveryPkts > 0 ∧ s.sentPkts % cfg.rekeyEveryPkts = 0 then s.maybeRekey cfg C now d
  else (s, none)

/-- The last section of `send_data`: hold the packet back before the handshake
is complete, else number it, store it in the window and seal it. The number is
taken before the window is checked, and is not given back when it is full. -/
def sealData (now : Instant) (payload : Bytes) (s : DataPlane) : DataPlane × Option Sealing :=
  if s.established = false then
    let pending := if s.pending.length ≥ pendingCap then s.pending.tail else s.pending
    ({ s with pending := pending ++ [payload] }, none)
  else
    let seq := s.sendSeq + 1
    if s.sendUnacked.size ≥ reliableWindow then ({ s with sendSeq := seq }, none)
    else
      ({ s with toWindow := s.toWindow.push now payload },
        some ⟨s.currentKey, dataNonce s.epoch seq, .data s.epoch seq payload⟩)

/-- `send_data` on an undisturbed session. -/
def sendData (cfg : Config) (C : Crypto Ct) (now : Instant) (d : Draw) (payload : Bytes)
    (s : DataPlane) : DataPlane × List Sealing :=
  let (s, rekey) := s.countPkt cfg C now d
  let (s, data) := s.sealData now payload
  (s, rekey.toList ++ data.toList)

def handleAck (ack : Nat) (s : DataPlane) : DataPlane :=
  if s.established = false then s
  else { s with toWindow := s.toWindow.handleAck ack }

/-- One round of the `retransmit` loop: reseal under the current key and
epoch, the sequence number unchanged. -/
def resend (now : Instant) (seq : Nat) (payload : Bytes) (s : DataPlane) :
    DataPlane × Option Sealing :=
  if s.established = false then (s, none)
  else
    ({ s with toWindow := s.toWindow.bump now seq },
      some ⟨s.currentKey, dataNonce s.epoch seq, .data s.epoch seq payload⟩)

/-- The locked section of `handle_hello`, with whether the handshake was
completed by it and the HELLO to send back. -/
def handleHello (cfg : Config) (C : Crypto Ct) (now : Instant) (d : Draw) (peerRk : RawKey)
    (peerSalt : Salt) (s : DataPlane) : DataPlane × Bool × Option Sealing :=
  let isFirst := s.peerKey.isNone
  let rkChanged := s.peerRkPub != some peerRk
  let keys := s.toKeyState.acceptHello cfg C d peerRk peerSalt
  let window := s.toWindow.acceptHello now isFirst rkChanged
  let hello := if isFirst || rkChanged then keys.replyHello cfg d else none
  ({ s with toKeyState := keys, toWindow := window }, isFirst, hello)

/-- The packets held back until now, taken out by `handle_hello`. -/
def takePending (s : DataPlane) : DataPlane × List Bytes :=
  ({ s with pending := [] }, s.pending)

/-- Send the packets that were held back, drawing from `ds` in turn. -/
def flushPending (cfg : Config) (C : Crypto Ct) (now : Instant) (ds : Nat → Draw)
    (s : DataPlane) : DataPlane × List Sealing :=
  let (s, pending) := s.takePending
  pending.zipIdx.foldl (fun (s, out) (p, i) =>
    let (s, cts) := s.sendData cfg C now (ds i) p
    (s, out ++ cts)) (s, [])

/-- All `handle_hello` does to the data plane: the locked section and, when it
completed the handshake, the flush of the packets held back. -/
def helloCall (cfg : Config) (C : Crypto Ct) (now : Instant) (d : Draw) (ds : Nat → Draw)
    (peerRk : RawKey) (peerSalt : Salt) (s : DataPlane) : DataPlane × List Sealing :=
  let (s, isFirst, hello) := s.handleHello cfg C now d peerRk peerSalt
  if isFirst then
    let (s, cts) := s.flushPending cfg C now ds
    (s, hello.toList ++ cts)
  else (s, hello.toList)

def handleRekey (cfg : Config) (C : Crypto Ct) (now : Instant) (epoch : Nat)
    (newPeerRk : RawKey) (newPeerSalt : Salt) (s : DataPlane) : DataPlane :=
  if s.established = false ∨ epoch ≠ s.epoch ∨ s.rkPriv = none then s
  else
    { s with
      toKeyState := s.toKeyState.handleRekey cfg C epoch newPeerRk newPeerSalt
      lastRekey := now }

/-- The `TUNNEL_DATA` branch of `handle_peer_data`: the payloads for the TUN,
and the high water mark to acknowledge if the frame was accepted. -/
def recvData (epoch seq : Nat) (payload : Bytes) (s : DataPlane) :
    DataPlane × List Bytes × Option Nat :=
  if s.established = false ∨ epoch ≠ s.epoch then (s, [], none)
  else
    let (delivered, newHigh, buf) := reorderDeliver s.recvSeq s.recvBuf seq payload
    ({ s with recvBuf := buf, recvSeq := newHigh }, delivered, some newHigh)

/-- The cumulative acknowledgement of `send_ack`. -/
def sendAck (d : Draw) (ack : Nat) (s : DataPlane) : Option Sealing :=
  if s.established = false then none
  else some ⟨s.currentKey, d.nonce, .ack s.epoch ack⟩

end DataPlane

end LinkMesh
