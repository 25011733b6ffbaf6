import LinkMesh.Client.Forward
import LinkMesh.Client.Tunnel
import LinkMesh.Wire.Packet

/-!
# Datagrams of the main socket

`handle_udp` of `linkmesh-client/src/connection.rs`, on the bytes of a datagram:
one with the header is a packet of the server or of its relay, and any other is
a tunnel packet of the peer whose address it comes from. A tunnel packet begins
with its nonce, which is random but for a DATA.

## Results

* `parseHeader_ct`   — when an encryption looks like it had the header.
* `direct_packet_iff` — a tunnel packet is taken for one by every client iff its
  nonce does not begin with the magic.
-/

namespace LinkMesh

open Std

/-- What a connection has of its server. -/
structure ServerLink where
  serverAddr : SocketAddr
  /-- `crypto::decrypt` under the shared secret of the server, and `decode_notify` -/
  openNotify : Bytes → Option PeerInfo

/-- A subframe of a batch: the key of the source, and the ciphertext. -/
def splitSubframe (sf : Bytes) : Option (RawKey × Bytes) :=
  if sf.length < 32 then none else some (keyOfBytes (sf.take 32), sf.drop 32)

section Udp

variable (cfg : Config) (C : Crypto Bytes) (env : MessageEnv) (link : ServerLink)

/-- A relayed packet; `handleUdp` drops it unless it comes from the relay. -/
def handleRelayPacket (msgType : Nat) (src : SocketAddr) (pkt : Bytes) (c : Client Bytes) : Client Bytes :=
  if msgType = msgRelayBatch then
    match parseRelayBatch pkt with
    | .ok (dest, subframes) =>
      handleUdp cfg C env.toEnv src (.relayBatch dest (subframes.map splitSubframe)) c
    | .error _ => c
  else
    match parseRelay pkt with
    | .ok (dest, srcKey, ct) =>
      if msgType = msgRelay then handleUdp cfg C env.toEnv src (.relay dest srcKey ct) c
      else handleUdp cfg C env.toEnv src (.relayRk dest srcKey ct) c
    | .error _ => c

/-- A packet of the server. A response goes to the task that waits for it. -/
def handleServerPacket (msgType : Nat) (src : SocketAddr) (pkt : Bytes) (c : Client Bytes) : Client Bytes :=
  if src ≠ link.serverAddr then c
  else if msgType = msgNotify then
    match link.openNotify (pkt.drop headerLen) with
    | some peer => c.handleNotify cfg C env peer
    | none => c
  else c

def handleUdpPacket (src : SocketAddr) (pkt : Bytes) (c : Client Bytes) : Client Bytes :=
  match parseHeader pkt with
  | .ok hdr =>
    if hdr.msgType = msgRelay ∨ hdr.msgType = msgRelayRk ∨ hdr.msgType = msgRelayBatch then
      handleRelayPacket cfg C env hdr.msgType src pkt c
    else handleServerPacket cfg C env link hdr.msgType src pkt c
  | .error _ => handleUdp cfg C env.toEnv src (.direct pkt) c

end Udp

variable {cfg : Config} {C : Crypto Bytes} {env : MessageEnv} {link : ServerLink} {src : SocketAddr}
  {pkt : Bytes} {c : Client Bytes} {f : Sealing}

-- ---------------------------------------------------------------------------
-- What begins like a header
-- ---------------------------------------------------------------------------

/-- The nonce begins with the magic; that of a DATA begins with its epoch. -/
def Sealing.LooksFramed (f : Sealing) : Prop :=
  match f.plain with
  | .data epoch _ _ => epoch / 65536 % 65536 = 0x4C4D
  | _ => f.nonce.1 / 65536 % 65536 = 0x4C4D

instance : Decidable f.LooksFramed := by
  unfold Sealing.LooksFramed
  split <;> infer_instance

theorem take_nonceBytes {n : Nonce} {rest : Bytes} :
    (nonceBytes n ++ rest).take 2 = relayMagic ↔ n.1 / 65536 % 65536 = 0x4C4D := by
  have hHead : (nonceBytes n ++ rest).take 2 =
      [UInt8.ofNat (n.1 / 256 / 256 / 256 % 256), UInt8.ofNat (n.1 / 256 / 256 % 256)] := rfl
  rw [hHead]
  unfold relayMagic
  rw [List.cons.injEq, List.cons.injEq, ← UInt8.toNat_inj, ← UInt8.toNat_inj]
  simp only [UInt8.toNat_ofNat', and_true]
  have hHigh : (0x4C : UInt8).toNat = 0x4C := rfl
  have hLow : (0x4D : UInt8).toNat = 0x4D := rfl
  rw [hHigh, hLow]
  omega

/-- Every tunnel packet is longer than the header once it is sealed. -/
theorem headerLen_le_ct (hC : C.Framed) (hf : f.OnWire) : headerLen ≤ (f.ct C).length := by
  have hPlain : frameHeaderLen ≤ f.plain.bytes.length := by
    unfold Sealing.OnWire at hf
    unfold Plain.bytes frameHeaderLen
    split <;> simp_all [frameTunnelPacket]
    all_goals omega
  obtain ⟨sealed, hCt, hLength⟩ := hC.layout f.key f.nonce f.plain
  have hTotal : (f.ct C).length = 12 + (f.plain.bytes.length + 16) := by
    unfold Sealing.ct
    rw [hCt, List.length_append, nonceBytes_length, hLength]
  rw [hTotal]
  unfold headerLen
  unfold frameHeaderLen at hPlain
  omega

/-- An encryption has the header exactly if its nonce begins with the magic. -/
theorem parseHeader_ct (hC : C.Framed) (hf : f.OnWire) :
    (∃ hdr, parseHeader (f.ct C) = .ok hdr) ↔ f.LooksFramed := by
  have hLong : ¬ (f.ct C).length < headerLen := Nat.not_lt.mpr (headerLen_le_ct hC hf)
  have hMagic : (f.ct C).take 2 = relayMagic ↔ f.LooksFramed := by
    obtain ⟨sealed, hCt, _⟩ := hC.layout f.key f.nonce f.plain
    unfold Sealing.ct
    rw [hCt, take_nonceBytes]
    unfold Sealing.LooksFramed
    unfold Sealing.OnWire at hf
    split
    · rename_i epoch seq payload hData
      rw [hData] at hf
      rw [show f.nonce = dataNonce epoch seq from hf]
      rfl
    · rfl
  unfold parseHeader
  rw [if_neg hLong, ← hMagic]
  split
  · rename_i hOther
    exact iff_of_false (fun ⟨_, h⟩ => by cases h) hOther
  · rename_i hSame
    exact iff_of_true ⟨_, rfl⟩ (not_not.mp hSame)

-- ---------------------------------------------------------------------------
-- What a client makes of it
-- ---------------------------------------------------------------------------

/-- A packet with the header, from an address that is neither the server's nor
the relay's, is dropped. -/
theorem handleUdpPacket_foreign {hdr : PacketHeader} (hHeader : parseHeader pkt = .ok hdr)
    (hRelay : src ≠ cfg.relayAddr) (hServer : src ≠ link.serverAddr) :
    handleUdpPacket cfg C env link src pkt c = c := by
  unfold handleUdpPacket
  simp only [hHeader]
  split
  · unfold handleRelayPacket
    split
    · split
      · exact if_pos hRelay
      · rfl
    · split
      · split
        · exact if_pos hRelay
        · exact if_pos hRelay
      · rfl
  · unfold handleServerPacket
    rw [if_pos hServer]

/-- A tunnel packet of a peer is taken for one by every client, and goes to the
session of the address it comes from, exactly if it does not look framed. -/
theorem direct_packet_iff (cfg : Config) (env : MessageEnv) (link : ServerLink) (hC : C.Framed)
    (hf : f.OnWire) :
    (∀ src c, handleUdpPacket cfg C env link src (f.ct C) c =
      match c.addrIndex[src]? with
      | some pk => handlePeerData cfg C env.toEnv pk (f.ct C) true src c
      | none => c) ↔ ¬ f.LooksFramed := by
  rw [← parseHeader_ct hC hf]
  constructor
  · rintro h ⟨hdr, hHeader⟩
    obtain ⟨src, hRelay, hServer⟩ : ∃ src : Nat, src ≠ cfg.relayAddr ∧ src ≠ link.serverAddr :=
      ⟨cfg.relayAddr + link.serverAddr + 1, by omega, by omega⟩
    -- a client that knows nothing but this address
    obtain ⟨c, hKnown, hAlone⟩ : ∃ c : Client Bytes, c.addrIndex[src]? = some 0 ∧ 0 ∉ c.peers :=
      ⟨{ peers := ∅, ipIndex := ∅, addrIndex := (∅ : ExtTreeMap SocketAddr RawKey).insert src 0
         rkIndex := ∅, txBytes := 0, rxBytes := 0, draws := 0, sent := [], tun := [], queries := [] },
        ExtTreeMap.getElem?_insert_self, ExtTreeMap.not_mem_empty⟩
    have hDropped : handleUdpPacket cfg C env link src (f.ct C) c = c :=
      handleUdpPacket_foreign hHeader hRelay hServer
    have hTaken : handlePeerData cfg C env.toEnv 0 (f.ct C) true src c = c := by
      have hEqual := (h src c).symm.trans hDropped
      simpa only [hKnown] using hEqual
    have hMem : 0 ∈ (handlePeerData cfg C env.toEnv 0 (f.ct C) true src c).peers :=
      (peers_handlePeerData.1 0).mpr (.inl rfl)
    rw [hTaken] at hMem
    exact hAlone hMem
  · intro hNone src c
    unfold handleUdpPacket
    split
    · rename_i hdr hHeader
      exact absurd ⟨hdr, hHeader⟩ hNone
    · rfl

def exampleLink : ServerLink where
  serverAddr := 91
  openNotify _ := none

/-- Alice with an established session for Bob, who writes to her from address 50. -/
def exampleClient : Client Bytes where
  peers := (∅ : ExtTreeMap RawKey PeerSession).insert 1
    { PeerSession.new 1 "10.13.13.2" 3 (some 50) 30 30 7 100 with peerKey := some 77, transport := .direct }
  ipIndex := ∅
  addrIndex := (∅ : ExtTreeMap SocketAddr RawKey).insert 50 1
  rkIndex := ∅
  txBytes := 0
  rxBytes := 0
  draws := 0
  sent := []
  tun := []
  queries := []

/-- Bob's REKEY, under a random nonce. -/
def exampleRekey (nonce : Nonce) : Sealing := ⟨77, nonce, .rekey 0 40 9⟩

theorem direct_packet_iff_example :
    plainText.Framed ∧ (exampleRekey (0x4C4E0000, 0)).OnWire ∧
    ((∀ src c, handleUdpPacket aliceCfg plainText exampleMessageEnv exampleLink src
        ((exampleRekey (0x4C4E0000, 0)).ct plainText) c =
      match c.addrIndex[src]? with
      | some pk => handlePeerData aliceCfg plainText exampleMessageEnv.toEnv pk
          ((exampleRekey (0x4C4E0000, 0)).ct plainText) true src c
      | none => c) ↔ ¬ (exampleRekey (0x4C4E0000, 0)).LooksFramed) :=
  ⟨plainText_framed, trivial,
    direct_packet_iff aliceCfg exampleMessageEnv exampleLink plainText_framed trivial⟩

/-- A REKEY whose random nonce begins with the magic is dropped, and Alice stays
at epoch 0; handed to the session of its address it would have taken her to
epoch 1. -/
theorem rekey_taken_for_packet :
    (exampleRekey (0x4C4D0000, 0)).OnWire ∧ exampleClient.addrIndex[50]? = some 1 ∧
    handleUdpPacket aliceCfg plainText exampleMessageEnv exampleLink 50
      ((exampleRekey (0x4C4D0000, 0)).ct plainText) exampleClient = exampleClient ∧
    exampleClient.peers[1]?.map (fun s => s.epoch) = some 0 ∧
    (handlePeerData aliceCfg plainText exampleMessageEnv.toEnv 1
      ((exampleRekey (0x4C4D0000, 0)).ct plainText) true 50 exampleClient).peers[1]?.map
        (fun s => s.epoch) = some 1 := by
  refine ⟨trivial, by decide +kernel, ?_, by decide +kernel, by decide +kernel⟩
  obtain ⟨hdr, hHeader⟩ := (parseHeader_ct plainText_framed (f := exampleRekey (0x4C4D0000, 0)) trivial).mpr
    (by decide)
  exact handleUdpPacket_foreign hHeader (by decide) (by decide)

end LinkMesh
