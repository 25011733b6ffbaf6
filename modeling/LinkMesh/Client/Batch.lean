import LinkMesh.Client.Udp
import LinkMesh.Server.Relay

/-!
# Batches

Relayed packets that the server puts together into a batch (`relay_forward` and
`flush_batch` of `linkmesh-server/src/signaling.rs`), and the client that takes
it apart (`handle_udp` of `linkmesh-client/src/connection.rs`). A subframe is the
key of the source and the ciphertext; whether the key was an identity or a relay
routing key is not in it, and the client looks the key up in its tables. A batch
is for one destination, and ends when the timer or its size says so.

## Results

* `batch_agrees`     — a batch does what its packets do one by one, if it is not
  too long and every look-up finds the session that the packet's type names.
* `batch_effect_iff` — and only then, for all contents and wherever it ends.
-/

namespace LinkMesh

open Std

-- ---------------------------------------------------------------------------
-- Relayed packets
-- ---------------------------------------------------------------------------

/-- Type and source of a relayed packet. -/
structure RelayHead where
  /-- `MSG_RELAY_RK`: the source is a relay routing key -/
  isRk : Bool
  srcKey : RawKey
  srcBound : srcKey < 256 ^ 32

/-- A relayed packet that fits the buffer the server receives into. -/
structure RelayedPacket extends RelayHead where
  ct : Bytes
  fits : relayHeaderLen + ct.length ≤ 65536

namespace RelayedPacket

/-- The packet as it is passed on by itself. -/
def packet (dest : RawKey) (f : RelayedPacket) : Bytes :=
  frameRelay (if f.isRk then msgRelayRk else msgRelay) dest f.srcKey f.ct

/-- The packet as `relay_forward` enqueues it for a batch. -/
def subframe (f : RelayedPacket) : Bytes := keyBytes f.srcKey ++ f.ct

/-- The server finds the parts of the subframe in the packet. -/
theorem subframe_of_parse {dest : RawKey} {f : RelayedPacket} {sender : SourceAddr} {r : RelayFrame}
    (hDest : dest < 256 ^ 32) (h : RelayFrame.parse (f.packet dest) sender = .ok r) :
    keyBytes r.srcKey ++ r.ct = f.subframe := by
  have hParsed : RelayFrame.parse (f.packet dest) sender = .ok _ :=
    RelayFrame.parse_frameRelay sender hDest f.srcBound
  cases h.symm.trans hParsed
  rfl

end RelayedPacket

/-- `flush_batch` -/
def flushBatch (dest : RawKey) (frames : List RelayedPacket) : Bytes :=
  frameRelayBatch dest (frames.map RelayedPacket.subframe)

section Receive

variable (cfg : Config) (C : Crypto Bytes) (env : MessageEnv) (link : ServerLink) (dest : RawKey)

/-- The relay sends the packets one by one. -/
def receiveAll (frames : List RelayedPacket) (c : Client Bytes) : Client Bytes :=
  frames.foldl (fun c f => handleUdpPacket cfg C env link cfg.relayAddr (f.packet dest) c) c

/-- The relay sends them in a batch. -/
def receiveBatch (frames : List RelayedPacket) (c : Client Bytes) : Client Bytes :=
  handleUdpPacket cfg C env link cfg.relayAddr (flushBatch dest frames) c

end Receive

variable {cfg : Config} {C : Crypto Bytes} {env : MessageEnv} {link : ServerLink} {dest : RawKey}
  {c c' : Client Bytes} {f : RelayedPacket} {frames : List RelayedPacket}

/-- The session that the type of a packet names. -/
def RelayHead.named (h : RelayHead) (c : Client Bytes) : Option RawKey :=
  if h.isRk then c.rkIndex[h.srcKey]? else some h.srcKey

theorem parseHeader_frameRelay {msgType srcKey : Nat} {ct : Bytes} :
    ∃ hdr, parseHeader (frameRelay msgType dest srcKey ct) = .ok hdr ∧ hdr.msgType = msgType % 256 := by
  have hLength : ¬ (frameRelay msgType dest srcKey ct).length < headerLen := by
    unfold frameRelay relayMagic headerLen
    simp only [List.length_append, keyBytes_length, List.length_cons, List.length_nil]
    omega
  have hMagic : (frameRelay msgType dest srcKey ct).take 2 = relayMagic := rfl
  unfold parseHeader
  rw [if_neg hLength, if_neg (not_not_intro hMagic)]
  refine ⟨_, rfl, ?_⟩
  show (UInt8.ofNat msgType).toNat = _
  rw [UInt8.toNat_ofNat']

/-- A packet by itself is handed to the session that its type names. -/
theorem receive_packet (hDest : dest < 256 ^ 32) :
    handleUdpPacket cfg C env link cfg.relayAddr (f.packet dest) c =
      match f.named c with
      | some pk => handlePeerData cfg C env.toEnv pk f.ct false cfg.relayAddr c
      | none => c := by
  unfold RelayedPacket.packet RelayHead.named
  cases f.isRk with
  | false =>
    obtain ⟨hdr, hHeader, hType⟩ : ∃ hdr, parseHeader (frameRelay msgRelay dest f.srcKey f.ct) = .ok hdr ∧
      hdr.msgType = msgRelay := parseHeader_frameRelay
    simp only [Bool.false_eq_true, if_false]
    unfold handleUdpPacket
    simp only [hHeader, hType, true_or, if_true]
    unfold handleRelayPacket
    rw [if_neg (by decide), parseRelay_frameRelay hDest f.srcBound]
    exact if_neg (not_not_intro rfl)
  | true =>
    obtain ⟨hdr, hHeader, hType⟩ : ∃ hdr, parseHeader (frameRelay msgRelayRk dest f.srcKey f.ct) = .ok hdr ∧
      hdr.msgType = msgRelayRk := parseHeader_frameRelay
    simp only [if_true]
    unfold handleUdpPacket
    simp only [hHeader, hType, true_or, or_true, if_true]
    unfold handleRelayPacket
    rw [if_neg (by decide), parseRelay_frameRelay hDest f.srcBound]
    exact if_neg (not_not_intro rfl)

/-- The packets of a batch are handed to the sessions that the look-ups find;
one that is too long is dropped. -/
theorem receive_batch (hDest : dest < 256 ^ 32) :
    receiveBatch cfg C env link dest frames c =
      if frames.length ≤ maxSubframes then
        frames.foldl (fun c f =>
          handlePeerData cfg C env.toEnv (resolveSubframe f.srcKey c) f.ct false cfg.relayAddr c) c
      else c := by
  have hFit : ∀ sf ∈ frames.map RelayedPacket.subframe, sf.length ≤ 65535 := by
    intro sf hsf
    obtain ⟨f, _, rfl⟩ := List.mem_map.mp hsf
    have hFits := f.fits
    unfold RelayedPacket.subframe
    rw [List.length_append, keyBytes_length]
    unfold relayHeaderLen at hFits
    omega
  have hSplit : ∀ f : RelayedPacket, splitSubframe f.subframe = some (f.srcKey, f.ct) := by
    intro f
    have hLong : ¬ f.subframe.length < 32 := by
      unfold RelayedPacket.subframe
      rw [List.length_append, keyBytes_length]
      omega
    have hKey : keyOfBytes (keyBytes f.srcKey) = f.srcKey := Layout.beValue_beBytes f.srcBound
    unfold splitSubframe
    rw [if_neg hLong]
    unfold RelayedPacket.subframe
    rw [List.take_left' (keyBytes_length _), List.drop_left' (keyBytes_length _), hKey]
  obtain ⟨hdr, hHeader, hType⟩ : ∃ hdr, parseHeader (flushBatch dest frames) = .ok hdr ∧
      hdr.msgType = msgRelayBatch := by
    have hLength : ¬ (flushBatch dest frames).length < headerLen := by
      unfold flushBatch frameRelayBatch relayMagic headerLen
      simp only [List.length_append, keyBytes_length, List.length_cons, List.length_nil]
      omega
    have hMagic : (flushBatch dest frames).take 2 = relayMagic := rfl
    unfold parseHeader
    rw [if_neg hLength, if_neg (not_not_intro hMagic)]
    exact ⟨_, rfl, rfl⟩
  unfold receiveBatch handleUdpPacket
  simp only [hHeader, hType, or_true, if_true]
  unfold handleRelayPacket
  rw [if_pos rfl]
  unfold flushBatch
  rw [parseRelayBatch_frameRelayBatch hDest hFit, List.length_map]
  by_cases hShort : frames.length ≤ maxSubframes
  · simp only [hShort, if_true]
    refine (if_neg (not_not_intro rfl)).trans ?_
    rw [List.map_map, List.foldl_map]
    simp only [Function.comp_apply, hSplit]
    rfl
  · simp only [hShort, if_false]

-- ---------------------------------------------------------------------------
-- Where the look-ups agree
-- ---------------------------------------------------------------------------

/-- Whether a peer has a session behind packets: from before, or since one of
them names it. -/
def Known (heads : List RelayHead) (c : Client Bytes) (k : RawKey) : Prop :=
  k ∈ c.peers ∨ ∃ h ∈ heads, h.named c = some k

/-- Behind the packets `pre`, the look-up of a batch finds the session that the
packet's type names: an identity without a session is nobody else's routing key,
and a routing key is registered and is no other peer's identity. -/
def RelayHead.Found (pre : List RelayHead) (c : Client Bytes) (h : RelayHead) : Prop :=
  if h.isRk then ∃ pk, c.rkIndex[h.srcKey]? = some pk ∧ (Known pre c h.srcKey → pk = h.srcKey)
  else ¬ Known pre c h.srcKey → ∀ pk, c.rkIndex[h.srcKey]? = some pk → pk = h.srcKey

/-- Every look-up of the batch finds the right session when its turn comes. -/
def AllFound (heads : List RelayHead) (c : Client Bytes) : Prop :=
  ∀ pre h, pre ++ [h] <+: heads → h.Found pre c

theorem found_iff {pre : List RelayHead} {h : RelayHead} (hMem : ∀ k, k ∈ c'.peers ↔ Known pre c k)
    (hIndex : c'.rkIndex = c.rkIndex) :
    h.Found pre c ↔ h.named c' = some (resolveSubframe h.srcKey c') := by
  unfold RelayHead.Found RelayHead.named resolveSubframe
  rw [hIndex, ← hMem]
  by_cases hThere : h.srcKey ∈ c'.peers
  · rw [if_pos hThere]
    cases h.isRk <;> simp [hThere]
  · rw [if_neg hThere]
    cases hRk : c.rkIndex[h.srcKey]? with
    | none => cases h.isRk <;> simp
    | some pk => cases h.isRk <;> simp [hThere, eq_comm]

section Plain

variable (hDest : dest < 256 ^ 32)
include hDest

theorem receiveAll_append :
    receiveAll cfg C env link dest (frames ++ [f]) c =
      match f.named (receiveAll cfg C env link dest frames c) with
      | some pk => handlePeerData cfg C env.toEnv pk f.ct false cfg.relayAddr
          (receiveAll cfg C env link dest frames c)
      | none => receiveAll cfg C env link dest frames c := by
  unfold receiveAll
  rw [List.foldl_append, List.foldl_cons, List.foldl_nil]
  exact receive_packet hDest

/-- The sessions and the routing keys behind packets that came one by one. -/
theorem known_receiveAll : (∀ k, k ∈ (receiveAll cfg C env link dest frames c).peers ↔
    Known (frames.map RelayedPacket.toRelayHead) c k) ∧
    (receiveAll cfg C env link dest frames c).rkIndex = c.rkIndex := by
  induction frames using List.reverseRecOn with
  | nil =>
    refine ⟨fun k => ?_, rfl⟩
    unfold Known
    simp only [List.map_nil, List.not_mem_nil, false_and, exists_false, or_false]
    rfl
  | append_singleton frames f ih =>
    obtain ⟨hMem, hIndex⟩ := ih
    rw [receiveAll_append hDest]
    generalize receiveAll cfg C env link dest frames c = c' at hMem hIndex ⊢
    have hNamed : f.named c' = f.named c := by
      unfold RelayHead.named
      rw [hIndex]
    have hKnown : ∀ k, Known ((frames ++ [f]).map RelayedPacket.toRelayHead) c k ↔
        Known (frames.map RelayedPacket.toRelayHead) c k ∨ f.named c = some k := by
      intro k
      unfold Known
      simp only [List.map_append, List.map_cons, List.map_nil, List.mem_append, List.mem_singleton, or_and_right,
        exists_or, exists_eq_left, or_assoc]
    rw [hNamed]
    cases hTo : f.named c with
    | none =>
      refine ⟨fun k => ?_, hIndex⟩
      rw [hMem, hKnown, hTo]
      simp only [reduceCtorEq, or_false]
    | some pk =>
      have hPeers : ∀ k, k ∈ (handlePeerData cfg C env.toEnv pk f.ct false cfg.relayAddr c').peers ↔
          k = pk ∨ k ∈ c'.peers := peers_handlePeerData.1
      refine ⟨fun k => ?_, peers_handlePeerData.2.2.trans hIndex⟩
      rw [hPeers, hMem, hKnown, hTo, Option.some.injEq, or_comm, eq_comm]

/-- A batch that is not too long, and whose look-ups all find the right session,
does what its packets do one by one. -/
theorem batch_agrees (hShort : frames.length ≤ maxSubframes)
    (hFound : AllFound (frames.map RelayedPacket.toRelayHead) c) :
    receiveBatch cfg C env link dest frames c = receiveAll cfg C env link dest frames c := by
  rw [receive_batch hDest, if_pos hShort]
  clear hShort
  induction frames using List.reverseRecOn with
  | nil => rfl
  | append_singleton frames f ih =>
    rw [List.map_append] at hFound
    have hBefore := ih fun pre g hPre => hFound pre g (hPre.trans (List.prefix_append _ _))
    have hLast : f.named (receiveAll cfg C env link dest frames c) =
        some (resolveSubframe f.srcKey (receiveAll cfg C env link dest frames c)) :=
      (found_iff (known_receiveAll hDest).1 (known_receiveAll hDest).2).mp (hFound _ _ (List.prefix_refl _))
    rw [receiveAll_append hDest, hLast, List.foldl_append, List.foldl_cons, List.foldl_nil, hBefore]

end Plain

-- ---------------------------------------------------------------------------
-- What shows in the sessions
-- ---------------------------------------------------------------------------

section Sessions

variable {Ct : Type} {C : Crypto Ct} {env : Env} {srcPub k : RawKey} {ct : Ct} {direct : Bool}
  {src : SocketAddr} {c : Client Ct}

theorem plane_greetStranger_other (hk : k ≠ srcPub) :
    (greetStranger cfg C env srcPub direct src c).plane k = c.plane k := by
  cases hs : c.peers[srcPub]? with
  | some s => rw [greetStranger_of_mem hs]
  | none =>
    have hInsert : ∀ s : PeerSession, (c.peers.insert srcPub s)[k]? = c.peers[k]? := by
      intro s
      rw [SeqMap.getElem?_insert, if_neg hk]
    cases direct with
    | false =>
      rw [greetStranger_relayed hs]
      exact congrArg (Option.map PeerSession.toDataPlane) (hInsert _)
    | true =>
      rw [greetStranger_direct hs]
      exact congrArg (Option.map PeerSession.toDataPlane) (hInsert _)

theorem handlePeerData_greetStranger :
    handlePeerData cfg C env srcPub ct direct src (greetStranger cfg C env srcPub direct src c) =
      handlePeerData cfg C env srcPub ct direct src c := by
  obtain ⟨s, hs⟩ : ∃ s, (greetStranger cfg C env srcPub direct src c).peers[srcPub]? = some s :=
    SeqMap.mem_iff.mp (mem_greetStranger.mpr (.inl rfl))
  unfold handlePeerData
  rw [greetStranger_of_mem hs]

/-- A tunnel packet leaves the data planes of all but its source alone. -/
theorem plane_handlePeerData_other (hk : k ≠ srcPub) :
    (handlePeerData cfg C env srcPub ct direct src c).plane k = c.plane k := by
  obtain ⟨s, hs⟩ : ∃ s, (greetStranger cfg C env srcPub direct src c).peers[srcPub]? = some s :=
    SeqMap.mem_iff.mp (mem_greetStranger.mpr (.inl rfl))
  have hPlane : (greetStranger cfg C env srcPub direct src c).plane srcPub = some s.toDataPlane := by
    unfold Client.plane
    rw [hs]
    rfl
  have hGreet : (greetStranger cfg C env srcPub direct src c).plane k = c.plane k :=
    plane_greetStranger_other hk
  rw [← hGreet, ← handlePeerData_greetStranger]
  rcases ran_handlePeerData hPlane with hRan | ⟨_, _, _, _, _, _, _, hRan⟩
  · exact hRan.other k hk
  · exact hRan.other k hk

/-- The routing key of the peer stays under the events of the session's own. -/
theorem peerRkPub_after {es : List Event} (hLocal : ∀ e ∈ es, e.isLocal = true) {s : DataPlane} :
    (s.after cfg C es).peerRkPub = s.peerRkPub := by
  induction es generalizing s with
  | nil => rfl
  | cons e es ih =>
    have hStep : (s.step cfg C e).1.peerRkPub = s.peerRkPub := by
      have hOwn := hLocal e (List.mem_cons_self ..)
      have hKeys := DataPlane.step_keyStep cfg C s e
      generalize (s.step cfg C e).1.toKeyState = s', DataPlane.handshakes _ = hs at hKeys ⊢
      cases hKeys with
      | idle => rfl
      | announce => rfl
      | rotate hSome =>
        obtain ⟨_, _, _, _, rfl, _⟩ := KeyState.maybeRekey_eq_some.mp hSome
        rfl
      | rotateCount hSome =>
        obtain ⟨_, _, _, _, rfl, _⟩ := KeyState.maybeRekey_eq_some.mp hSome
        rfl
      | accept => cases hOwn
      | follow => cases hOwn
    have hRest : ((s.step cfg C e).1.after cfg C es).peerRkPub = (s.step cfg C e).1.peerRkPub :=
      ih fun e he => hLocal e (List.mem_cons_of_mem _ he)
    exact hRest.trans hStep

/-- A HELLO that opens leaves its routing key in the session. -/
theorem peerRkPub_handlePeerData {epoch : Nat} {rk : RawKey} {salt : Salt} {ip : String}
    (hOpens : opened cfg C srcPub ct c = some (.hello epoch rk salt ip)) :
    ∃ s, (handlePeerData cfg C env srcPub ct direct src c).plane srcPub = some s ∧
      s.peerRkPub = some rk := by
  obtain ⟨c₂, hSame, hEq⟩ := handlePeerData_opened cfg C env srcPub ct direct src c
  have hMem : srcPub ∈ c₂.peers := (hSame.mem srcPub).mpr (mem_greetStranger.mpr (.inl rfl))
  obtain ⟨s, hs⟩ := SeqMap.mem_iff.mp hMem
  rw [hEq, hOpens]
  obtain ⟨d, es, hLocal, hRan⟩ : ∃ d es, (∀ e ∈ es, e.isLocal = true) ∧
    Ran cfg C srcPub (.handleHello env.now d rk salt :: es) c₂ (handleHello cfg C env srcPub rk salt ip c₂) :=
      ran_handleHello
  refine ⟨s.toDataPlane.after cfg C (.handleHello env.now d rk salt :: es), ?_, ?_⟩
  · show (handleHello cfg C env srcPub rk salt ip c₂).plane srcPub = _
    rw [hRan.self, Client.plane, hs]
    rfl
  · have hKept : (s.toDataPlane.after cfg C (.handleHello env.now d rk salt :: es)).peerRkPub =
        (s.toDataPlane.handleHello cfg C env.now d rk salt).1.peerRkPub := peerRkPub_after hLocal
    rw [hKept]
    rfl

end Sessions

-- ---------------------------------------------------------------------------
-- Contents that tell the sessions apart
-- ---------------------------------------------------------------------------

section Contents

variable {C : Crypto Bytes} {env : Env} {pk rk : RawKey} {direct : Bool} {src : SocketAddr} {c : Client Bytes}

/-- A HELLO that the session of a peer opens, whether it is there or not. -/
def helloFor (cfg : Config) (C : Crypto Bytes) (pk rk : RawKey) (c : Client Bytes) : Bytes :=
  let key := match c.peers[pk]? with
    | some s => s.currentKey
    | none => C.sharedSecret cfg.localPriv pk
  C.encryptWithNonce key (0, 0) (.hello 0 rk 0 "")

theorem opened_helloFor (hC : C.Framed) (hRk : rk < 256 ^ 32) :
    opened cfg C pk (helloFor cfg C pk rk c) c = some (.hello 0 rk 0 "") := by
  have hRange : (Plain.hello 0 rk 0 "").InRange := ⟨by decide, hRk, by decide⟩
  unfold opened helloFor
  cases c.peers[pk]? with
  | none => exact hC.decrypt_encrypt _ _ _ hRange
  | some s =>
    dsimp only
    unfold KeyState.openPeerData
    rw [hC.decrypt_encrypt _ _ _ hRange]

theorem length_helloFor (hC : C.Framed) : (helloFor cfg C pk rk c).length = 85 := by
  have hPlain : (Plain.hello 0 rk 0 "").bytes.length = 57 := by
    unfold Plain.bytes frameTunnelPacket
    simp only [List.length_cons, List.length_append, Layout.beBytes_length, keyBytes_length]
    rfl
  unfold helloFor
  obtain ⟨sealed, hCt, hSealed⟩ := hC.layout _ (0, 0) (.hello 0 rk 0 "")
  rw [hCt, List.length_append, nonceBytes_length, hSealed, hPlain]

/-- Whatever the data plane of a session is expected to be, some packet for the
session makes it another. -/
theorem exists_plane_ne (hC : C.Framed) (p : Option DataPlane) :
    ∃ ct : Bytes, relayHeaderLen + ct.length ≤ 65536 ∧
      (handlePeerData cfg C env pk ct direct src c).plane pk ≠ p := by
  by_contra hAll
  push Not at hAll
  have hKey : ∀ rk, rk < 256 ^ 32 → ∃ s, p = some s ∧ s.peerRkPub = some rk := by
    intro rk hRk
    obtain ⟨s, hs, hPeerRk⟩ : ∃ s,
        (handlePeerData cfg C env pk (helloFor cfg C pk rk c) direct src c).plane pk = some s ∧
          s.peerRkPub = some rk := peerRkPub_handlePeerData (opened_helloFor hC hRk)
    have hFits : relayHeaderLen + (helloFor cfg C pk rk c).length ≤ 65536 := by
      rw [length_helloFor hC]
      decide
    exact ⟨s, (hAll _ hFits).symm.trans hs, hPeerRk⟩
  obtain ⟨s, hs, hZero⟩ := hKey 0 (by decide)
  obtain ⟨s', hs', hOne⟩ := hKey 1 (by decide)
  cases hs.symm.trans hs'
  rw [hZero] at hOne
  exact absurd (Option.some.inj hOne) (by decide)

/-- If packets of all contents find the same session by the look-up as by their
type, the look-up finds the session that the type names. -/
theorem named_of_agree {h : RelayHead} (hC : C.Framed)
    (hAll : ∀ ct : Bytes, relayHeaderLen + ct.length ≤ 65536 →
      handlePeerData cfg C env (resolveSubframe h.srcKey c) ct direct src c =
        match h.named c with
        | some pk => handlePeerData cfg C env pk ct direct src c
        | none => c) :
    h.named c = some (resolveSubframe h.srcKey c) := by
  by_contra hOther
  obtain ⟨ct, hFits, hChanged⟩ : ∃ ct : Bytes, relayHeaderLen + ct.length ≤ 65536 ∧
    (handlePeerData cfg C env (resolveSubframe h.srcKey c) ct direct src c).plane (resolveSubframe h.srcKey c) ≠
      c.plane (resolveSubframe h.srcKey c) := exists_plane_ne hC _
  refine hChanged ?_
  rw [hAll ct hFits]
  cases hNamed : h.named c with
  | none => rfl
  | some n =>
    rw [hNamed, Option.some.injEq] at hOther
    exact plane_handlePeerData_other fun h => hOther h.symm

end Contents

-- ---------------------------------------------------------------------------
-- Batches that do what their packets do
-- ---------------------------------------------------------------------------

namespace RelayHead

/-- The packet with this content. -/
def carrying (h : RelayHead) (ct : Bytes) (fits : relayHeaderLen + ct.length ≤ 65536) : RelayedPacket :=
  { h with ct, fits }

/-- The packet without a content. -/
def bare (h : RelayHead) : RelayedPacket := h.carrying [] (by decide)

theorem map_bare (heads : List RelayHead) :
    (heads.map bare).map RelayedPacket.toRelayHead = heads := by
  rw [List.map_map]
  exact List.map_id heads

end RelayHead

/-- With one more packet the client can be another than at first; a packet that
is dropped leaves it so if it was before. -/
theorem exists_other_client (hC : C.Framed) (hDest : dest < 256 ^ 32) {h : RelayHead}
    (hOther : h.named (receiveAll cfg C env link dest frames c) = none →
      receiveAll cfg C env link dest frames c ≠ c) :
    ∃ ct hFits, receiveAll cfg C env link dest (frames ++ [h.carrying ct hFits]) c ≠ c := by
  have hNamed : ∀ ct hFits, (h.carrying ct hFits).named (receiveAll cfg C env link dest frames c) =
      h.named (receiveAll cfg C env link dest frames c) := fun _ _ => rfl
  cases hTo : h.named (receiveAll cfg C env link dest frames c) with
  | none =>
    refine ⟨[], by decide, ?_⟩
    rw [receiveAll_append hDest, hNamed, hTo]
    exact hOther hTo
  | some pk =>
    obtain ⟨ct, hFits, hChanged⟩ : ∃ ct : Bytes, relayHeaderLen + ct.length ≤ 65536 ∧
      (handlePeerData cfg C env.toEnv pk ct false cfg.relayAddr
        (receiveAll cfg C env link dest frames c)).plane pk ≠ c.plane pk := exists_plane_ne hC _
    refine ⟨ct, hFits, fun hSame => hChanged ?_⟩
    rw [receiveAll_append hDest, hNamed, hTo] at hSame
    exact congrArg (fun c => c.plane pk) hSame

/-- A batch that does what its packets do, after packets that do. -/
theorem agree_last (hDest : dest < 256 ^ 32) (hShort : frames.length < maxSubframes)
    (hBefore : receiveBatch cfg C env link dest frames c = receiveAll cfg C env link dest frames c)
    (hAfter : receiveBatch cfg C env link dest (frames ++ [f]) c =
      receiveAll cfg C env link dest (frames ++ [f]) c) :
    handlePeerData cfg C env.toEnv (resolveSubframe f.srcKey (receiveAll cfg C env link dest frames c)) f.ct false
        cfg.relayAddr (receiveAll cfg C env link dest frames c) =
      match f.named (receiveAll cfg C env link dest frames c) with
      | some pk => handlePeerData cfg C env.toEnv pk f.ct false cfg.relayAddr
          (receiveAll cfg C env link dest frames c)
      | none => receiveAll cfg C env link dest frames c := by
  have hLength : (frames ++ [f]).length ≤ maxSubframes := by
    rw [List.length_append]
    exact hShort
  rw [receive_batch hDest, if_pos (Nat.le_of_lt hShort)] at hBefore
  rw [receive_batch hDest, if_pos hLength, List.foldl_append, List.foldl_cons, List.foldl_nil, hBefore,
    receiveAll_append hDest] at hAfter
  exact hAfter

section Converse

variable {heads : List RelayHead} (hC : C.Framed) (hDest : dest < 256 ^ 32)
  (hAll : ∀ frames, frames.map RelayedPacket.toRelayHead <+: heads →
    receiveBatch cfg C env link dest frames c = receiveAll cfg C env link dest frames c)
include hC hDest hAll

/-- If all batches do what their packets do, the look-ups find the right sessions. -/
theorem found_of_agrees {pre : List RelayHead} {h : RelayHead} (hPre : pre ++ [h] <+: heads)
    (hShort : pre.length < maxSubframes) :
    h.Found pre c ∧ h.named (receiveAll cfg C env link dest (pre.map RelayHead.bare) c) =
      some (resolveSubframe h.srcKey (receiveAll cfg C env link dest (pre.map RelayHead.bare) c)) := by
  have hKnown : (∀ k, k ∈ (receiveAll cfg C env link dest (pre.map RelayHead.bare) c).peers ↔
      Known ((pre.map RelayHead.bare).map RelayedPacket.toRelayHead) c k) ∧
      (receiveAll cfg C env link dest (pre.map RelayHead.bare) c).rkIndex = c.rkIndex := known_receiveAll hDest
  rw [RelayHead.map_bare] at hKnown
  have hBefore : receiveBatch cfg C env link dest (pre.map RelayHead.bare) c =
      receiveAll cfg C env link dest (pre.map RelayHead.bare) c := by
    refine hAll _ ?_
    rw [RelayHead.map_bare]
    exact (List.prefix_append _ _).trans hPre
  have hAfter : ∀ ct hFits, receiveBatch cfg C env link dest (pre.map RelayHead.bare ++ [h.carrying ct hFits]) c =
      receiveAll cfg C env link dest (pre.map RelayHead.bare ++ [h.carrying ct hFits]) c := by
    intro ct hFits
    refine hAll _ ?_
    rw [List.map_append, RelayHead.map_bare]
    exact hPre
  have hLength : (pre.map RelayHead.bare).length < maxSubframes := by
    rw [List.length_map]
    exact hShort
  have hNamed := named_of_agree hC fun ct hFits => agree_last hDest hLength hBefore (hAfter ct hFits)
  exact ⟨(found_iff hKnown.1 hKnown.2).mpr hNamed, hNamed⟩

/-- If all batches do what their packets do, none is dropped for its length: the
packet at the limit can change the client, and the one behind it leave it changed. -/
theorem short_of_agrees : heads.length ≤ maxSubframes := by
  by_contra hLong
  obtain ⟨pre, g, h, hLength, hPre⟩ : ∃ pre g h, pre.length + 1 = maxSubframes ∧ pre ++ [g] ++ [h] <+: heads := by
    have hRest : 2 ≤ (heads.drop 1023).length := by
      rw [List.length_drop]
      unfold maxSubframes at hLong
      omega
    obtain ⟨g, h, rest, hDrop⟩ : ∃ g h rest, heads.drop 1023 = g :: h :: rest := by
      match heads.drop 1023, hRest with
      | g :: h :: rest, _ => exact ⟨g, h, rest, rfl⟩
    refine ⟨heads.take 1023, g, h, ?_, rest, ?_⟩
    · rw [List.length_take]
      unfold maxSubframes at hLong ⊢
      omega
    · rw [List.append_assoc, List.append_assoc]
      show heads.take 1023 ++ (g :: h :: rest) = heads
      rw [← hDrop, List.take_append_drop]
  have hNamed := (found_of_agrees hC hDest hAll ((List.prefix_append _ _).trans hPre) (by omega)).2
  obtain ⟨ct, hFits, hChanged⟩ : ∃ ct hFits,
      receiveAll cfg C env link dest (pre.map RelayHead.bare ++ [g.carrying ct hFits]) c ≠ c := by
    refine exists_other_client hC hDest fun hNone => ?_
    rw [hNamed] at hNone
    cases hNone
  obtain ⟨ct', hFits', hStill⟩ : ∃ ct' hFits', receiveAll cfg C env link dest
      (pre.map RelayHead.bare ++ [g.carrying ct hFits] ++ [h.carrying ct' hFits']) c ≠ c :=
    exists_other_client hC hDest fun _ => hChanged
  refine hStill ((hAll _ ?_).symm.trans ?_)
  · rw [List.map_append, List.map_append, RelayHead.map_bare]
    exact hPre
  · rw [receive_batch hDest, if_neg]
    simp only [List.length_append, List.length_map, List.length_singleton]
    omega

end Converse

/--
**When a batch does what its packets do.** Of packets with given types and
sources, every batch, whatever the contents and wherever it ends, does what the
packets do one by one, exactly if there are at most 1024 of them and every
look-up finds the session that the packet's type names.
-/
theorem batch_effect_iff (cfg : Config) (env : MessageEnv) (link : ServerLink) (hC : C.Framed)
    (hDest : dest < 256 ^ 32) (heads : List RelayHead) (c : Client Bytes) :
    (∀ frames, frames.map RelayedPacket.toRelayHead <+: heads →
      receiveBatch cfg C env link dest frames c = receiveAll cfg C env link dest frames c) ↔
      heads.length ≤ maxSubframes ∧ AllFound heads c := by
  constructor
  · intro hAll
    have hShort : heads.length ≤ maxSubframes := short_of_agrees hC hDest hAll
    refine ⟨hShort, fun pre h hPre => (found_of_agrees hC hDest hAll hPre ?_).1⟩
    have hLength := hPre.length_le
    rw [List.length_append] at hLength
    exact hLength.trans hShort
  · rintro ⟨hShort, hFound⟩ frames hPre
    refine batch_agrees hDest ?_ fun pre h hBefore => hFound pre h (hBefore.trans hPre)
    have hLength := hPre.length_le
    rw [List.length_map] at hLength
    exact hLength.trans hShort

/-- A packet under a relay routing key that nobody has registered. -/
def exampleUnregistered : RelayedPacket where
  isRk := true
  srcKey := 71
  srcBound := by decide
  ct := []
  fits := by decide

theorem batch_effect_iff_example : plainText.Framed ∧ 70 < 256 ^ 32 ∧
    ((∀ frames, frames.map RelayedPacket.toRelayHead <+: [exampleUnregistered.toRelayHead] →
      receiveBatch aliceCfg plainText exampleMessageEnv exampleLink 70 frames exampleClient =
        receiveAll aliceCfg plainText exampleMessageEnv exampleLink 70 frames exampleClient) ↔
      [exampleUnregistered.toRelayHead].length ≤ maxSubframes ∧
        AllFound [exampleUnregistered.toRelayHead] exampleClient) :=
  ⟨plainText_framed, by decide,
    batch_effect_iff aliceCfg exampleMessageEnv exampleLink plainText_framed (by decide)
      [exampleUnregistered.toRelayHead] exampleClient⟩

/-- By itself a packet under an unregistered routing key is dropped; in a batch
the routing key is taken for an identity and gets a session. -/
theorem unregistered_rk_greeted :
    receiveAll aliceCfg plainText exampleMessageEnv exampleLink 70 [exampleUnregistered] exampleClient =
        exampleClient ∧
      71 ∉ exampleClient.peers ∧
      71 ∈ (receiveBatch aliceCfg plainText exampleMessageEnv exampleLink 70 [exampleUnregistered]
        exampleClient).peers := by
  have hNamed : exampleUnregistered.named exampleClient = none := by decide +kernel
  have hFound : resolveSubframe exampleUnregistered.srcKey exampleClient = 71 := by decide +kernel
  refine ⟨?_, by decide +kernel, ?_⟩
  · show handleUdpPacket aliceCfg plainText exampleMessageEnv exampleLink aliceCfg.relayAddr
      (exampleUnregistered.packet 70) exampleClient = exampleClient
    rw [receive_packet (by decide), hNamed]
  · rw [receive_batch (by decide), if_pos (by decide), List.foldl_cons, List.foldl_nil, hFound]
    exact (peers_handlePeerData.1 71).mpr (.inl rfl)

end LinkMesh
