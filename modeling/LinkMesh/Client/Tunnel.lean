import LinkMesh.Client.Keys
import LinkMesh.Wire.Text

/-!
# Tunnel packets as bytes

`linkmesh-client/src/tunnel.rs` and the layout of an encrypted datagram
(`linkmesh-shared/src/crypto.rs`): the nonce, the ciphertext of the tunnel packet
and a 16-byte tag. What the AEAD does to the bytes behind the nonce is a parameter.

* `read_bytes`   — a tunnel packet is read back;
* `step_onWire`  — what a session seals is a HELLO, a REKEY, a DATA or an ACK,
  the DATA under the nonce of its epoch and number;
* `plainText`    — the cipher that hides nothing has the layout.
-/

namespace LinkMesh

open Layout

def tunnelHello : UInt8 := 0x01
def tunnelData : UInt8 := 0x02
def tunnelRekey : UInt8 := 0x03
def tunnelAck : UInt8 := 0x04

/-- `FRAME_HEADER_LEN` -/
def frameHeaderLen : Nat := 13

/-- `HANDSHAKE_EXTRA` -/
def handshakeExtra : Nat := 44

-- ---------------------------------------------------------------------------
-- Packets
-- ---------------------------------------------------------------------------

def frameTunnelPacket (pktType : UInt8) (epoch seq : Nat) (payload : Bytes) : Bytes :=
  pktType :: (beBytes 4 epoch ++ (beBytes 8 seq ++ payload))

/-- The type, the epoch, the number and the payload. -/
def parseTunnelPacket (pkt : Bytes) : Option (UInt8 × Nat × Nat × Bytes) :=
  if pkt.length < frameHeaderLen then none
  else
    some (pkt.getD 0 0, beValue ((pkt.drop 1).take 4), beValue ((pkt.drop 5).take 8), pkt.drop frameHeaderLen)

namespace Plain

/-- The tunnel packet, with the payload of its type. -/
def bytes : Plain → Bytes
  | .hello epoch rk salt ip => frameTunnelPacket tunnelHello epoch 0 (keyBytes rk ++ (beBytes 12 salt ++ utf8 ip))
  | .data epoch seq payload => frameTunnelPacket tunnelData epoch seq payload
  | .rekey epoch rk salt => frameTunnelPacket tunnelRekey epoch 0 (keyBytes rk ++ beBytes 12 salt)
  | .ack epoch high => frameTunnelPacket tunnelAck epoch 0 (beBytes 8 high)
  | .malformed => []
  | .short => []

/-- What the handlers make of a tunnel packet. A HELLO whose virtual IP is not
UTF-8 is left out. -/
def read (pkt : Bytes) : Option Plain :=
  match parseTunnelPacket pkt with
  | none => some .short
  | some (typ, epoch, seq, payload) =>
    let rk := beValue (payload.take 32)
    let salt := beValue ((payload.drop 32).take 12)
    if typ = tunnelHello then
      if payload.length < handshakeExtra then some .malformed
      else (fromUtf8 (payload.drop handshakeExtra)).map (.hello epoch rk salt)
    else if typ = tunnelData then some (.data epoch seq payload)
    else if typ = tunnelRekey then
      if payload.length < handshakeExtra then some .malformed else some (.rekey epoch rk salt)
    else if typ = tunnelAck then
      if payload.length < 8 then some .malformed else some (.ack epoch (beValue (payload.take 8)))
    else some .malformed

/-- The numbers of the packet fit their fields. -/
def InRange : Plain → Prop
  | .hello epoch rk salt _ => epoch < 256 ^ 4 ∧ rk < 256 ^ 32 ∧ salt < 256 ^ 12
  | .data epoch seq _ => epoch < 256 ^ 4 ∧ seq < 256 ^ 8
  | .rekey epoch rk salt => epoch < 256 ^ 4 ∧ rk < 256 ^ 32 ∧ salt < 256 ^ 12
  | .ack epoch high => epoch < 256 ^ 4 ∧ high < 256 ^ 8
  | .malformed => False
  | .short => False

end Plain

theorem parseTunnelPacket_frame {typ : UInt8} {epoch seq : Nat} {payload : Bytes} (hEpoch : epoch < 256 ^ 4)
    (hSeq : seq < 256 ^ 8) :
    parseTunnelPacket (frameTunnelPacket typ epoch seq payload) = some (typ, epoch, seq, payload) := by
  have hFirst : (frameTunnelPacket typ epoch seq payload).drop 1 =
      beBytes 4 epoch ++ (beBytes 8 seq ++ payload) := rfl
  have hSecond : (frameTunnelPacket typ epoch seq payload).drop 5 = beBytes 8 seq ++ payload := by
    show ((frameTunnelPacket typ epoch seq payload).drop 1).drop 4 = _
    rw [hFirst, List.drop_left' (beBytes_length 4 epoch)]
  have hThird : (frameTunnelPacket typ epoch seq payload).drop frameHeaderLen = payload := by
    show ((frameTunnelPacket typ epoch seq payload).drop 5).drop 8 = _
    rw [hSecond, List.drop_left' (beBytes_length 8 seq)]
  have hLength : ¬ (frameTunnelPacket typ epoch seq payload).length < frameHeaderLen := by
    unfold frameTunnelPacket frameHeaderLen
    simp only [List.length_cons, List.length_append, beBytes_length]
    omega
  unfold parseTunnelPacket
  rw [if_neg hLength, hFirst, hSecond, hThird, List.take_left' (beBytes_length 4 epoch),
    List.take_left' (beBytes_length 8 seq), beValue_beBytes hEpoch, beValue_beBytes hSeq]
  rfl

/-- The key and the salt in front of a payload. -/
theorem handshake_split {rk salt : Nat} (rest : Bytes) (hRk : rk < 256 ^ 32) (hSalt : salt < 256 ^ 12) :
    beValue ((keyBytes rk ++ (beBytes 12 salt ++ rest)).take 32) = rk ∧
      beValue (((keyBytes rk ++ (beBytes 12 salt ++ rest)).drop 32).take 12) = salt ∧
      (keyBytes rk ++ (beBytes 12 salt ++ rest)).drop handshakeExtra = rest := by
  have hDrop : (keyBytes rk ++ (beBytes 12 salt ++ rest)).drop 32 = beBytes 12 salt ++ rest :=
    List.drop_left' (keyBytes_length rk)
  refine ⟨?_, ?_, ?_⟩
  · rw [List.take_left' (keyBytes_length rk)]
    exact beValue_beBytes hRk
  · rw [hDrop, List.take_left' (beBytes_length 12 salt), beValue_beBytes hSalt]
  · show (keyBytes rk ++ (beBytes 12 salt ++ rest)).drop (32 + 12) = _
    rw [← List.drop_drop, hDrop, List.drop_left' (beBytes_length 12 salt)]

/-- A tunnel packet is read back. -/
theorem read_bytes {p : Plain} (h : p.InRange) : Plain.read p.bytes = some p := by
  have hZero : 0 < 256 ^ 8 := by decide
  cases p with
  | hello epoch rk salt ip =>
    obtain ⟨hEpoch, hRk, hSalt⟩ := h
    obtain ⟨hKey, hMid, hRest⟩ := handshake_split (utf8 ip) hRk hSalt
    have hLong : ¬ (keyBytes rk ++ (beBytes 12 salt ++ utf8 ip)).length < handshakeExtra := by
      simp only [List.length_append, keyBytes_length, beBytes_length, handshakeExtra]
      omega
    unfold Plain.read Plain.bytes
    simp only [parseTunnelPacket_frame hEpoch hZero, if_true, if_neg hLong, hKey, hMid, hRest, fromUtf8_utf8,
      Option.map_some]
  | data epoch seq payload =>
    unfold Plain.read Plain.bytes
    simp only [parseTunnelPacket_frame h.1 h.2]
    rfl
  | rekey epoch rk salt =>
    obtain ⟨hEpoch, hRk, hSalt⟩ := h
    obtain ⟨hKey, hMid, _⟩ := handshake_split [] hRk hSalt
    have hLong : ¬ (keyBytes rk ++ beBytes 12 salt).length < handshakeExtra := by
      simp only [List.length_append, keyBytes_length, beBytes_length, handshakeExtra]
      omega
    rw [List.append_nil] at hKey hMid
    unfold Plain.read Plain.bytes
    simp only [parseTunnelPacket_frame hEpoch hZero, if_neg hLong, hKey, hMid]
    rfl
  | ack epoch high =>
    have hLong : ¬ (beBytes 8 high).length < 8 := by
      rw [beBytes_length]
      omega
    have hTake : (beBytes 8 high).take 8 = beBytes 8 high := List.take_of_length_le (by rw [beBytes_length])
    unfold Plain.read Plain.bytes
    simp only [parseTunnelPacket_frame h.1 hZero, if_neg hLong, hTake, beValue_beBytes h.2]
    rfl
  | malformed => exact h.elim
  | short => exact h.elim

-- ---------------------------------------------------------------------------
-- Encrypted datagrams
-- ---------------------------------------------------------------------------

/-- `data_nonce`, and the random nonces, as bytes. -/
def nonceBytes (n : Nonce) : Bytes := beBytes 4 n.1 ++ beBytes 8 n.2

/-- `encrypt_with_nonce_into` puts the nonce in front of a ciphertext as long as
the packet and the 16 bytes of the tag, and what it makes can be decrypted. -/
structure Crypto.Framed (C : Crypto Bytes) : Prop where
  layout : ∀ k n p, ∃ sealed, C.encryptWithNonce k n p = nonceBytes n ++ sealed ∧
    sealed.length = p.bytes.length + 16
  decrypt_encrypt : ∀ k n p, p.InRange → C.decrypt k (C.encryptWithNonce k n p) = some p

/-- The cipher that hides nothing, over the symbolic keys. -/
def plainText : Crypto Bytes where
  publicKey := symbolic.publicKey
  diffieHellman := symbolic.diffieHellman
  hkdfExpand := symbolic.hkdfExpand
  encryptWithNonce _ n p := nonceBytes n ++ (p.bytes ++ List.replicate 16 0)
  decrypt _ ct := if ct.length < 28 then none else Plain.read ((ct.drop 12).take (ct.length - 28))
  len := List.length

theorem nonceBytes_length (n : Nonce) : (nonceBytes n).length = 12 := by
  unfold nonceBytes
  rw [List.length_append, beBytes_length, beBytes_length]

theorem plainText_framed : plainText.Framed where
  layout k n p := by
    refine ⟨p.bytes ++ List.replicate 16 0, rfl, ?_⟩
    rw [List.length_append, List.length_replicate]
  decrypt_encrypt k n p hp := by
    have hLength : (nonceBytes n ++ (p.bytes ++ List.replicate 16 0)).length = 12 + (p.bytes.length + 16) := by
      simp only [List.length_append, nonceBytes_length, List.length_replicate]
    have hBody : ((nonceBytes n ++ (p.bytes ++ List.replicate 16 0)).drop 12).take
        (12 + (p.bytes.length + 16) - 28) = p.bytes := by
      rw [List.drop_left' (nonceBytes_length n)]
      exact List.take_left' (by omega)
    show (if (nonceBytes n ++ (p.bytes ++ List.replicate 16 0)).length < 28 then none
      else Plain.read (((nonceBytes n ++ (p.bytes ++ List.replicate 16 0)).drop 12).take
        ((nonceBytes n ++ (p.bytes ++ List.replicate 16 0)).length - 28))) = some p
    rw [hLength, if_neg (by omega), hBody]
    exact read_bytes hp

/-- The encryptions whose result a peer sends: HELLO, REKEY and ACK under any
nonce, DATA under that of its epoch and number. -/
def Sealing.OnWire (f : Sealing) : Prop :=
  match f.plain with
  | .hello .. => True
  | .rekey .. => True
  | .ack .. => True
  | .data epoch seq _ => f.nonce = dataNonce epoch seq
  | .malformed => False
  | .short => False

/-- Whatever a section of a session seals is of these. -/
theorem step_onWire {Ct : Type} {cfg : Config} {C : Crypto Ct} {s : DataPlane} {e : Event} {f : Sealing}
    (hf : f ∈ (s.step cfg C e).2.sealed) : f.OnWire := by
  cases hHand : f.plain.handshake with
  | true =>
    unfold Sealing.OnWire
    cases hPlain : f.plain with
    | hello => trivial
    | rekey => trivial
    | _ => simp [hPlain, Plain.handshake] at hHand
  | false =>
    have hWin := DataPlane.step_windowStep cfg C s e
    have hf : f ∈ (s.step cfg C e).2.transfers.sealed :=
      List.mem_filter.mpr ⟨hf, by rw [hHand]; rfl⟩
    generalize (s.step cfg C e).1.toWindow = w', (s.step cfg C e).2.transfers = out at hWin hf
    cases hWin with
    | store hEst =>
      rw [List.mem_singleton] at hf
      subst hf
      rfl
    | resend hEst =>
      rw [List.mem_singleton] at hf
      subst hf
      rfl
    | recv hEst =>
      rw [List.mem_singleton] at hf
      subst hf
      trivial
    | _ => cases hf

end LinkMesh
