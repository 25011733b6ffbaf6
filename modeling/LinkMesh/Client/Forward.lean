import LinkMesh.Basis.IpAddr
import LinkMesh.Basis.KeyMap
import LinkMesh.Basis.Machine
import LinkMesh.Client.Unopened
import LinkMesh.Wire.Signal

/-!
# Forwarding

Which peer a packet of the TUN is sent to (`linkmesh-client/src/connection.rs`):
`route_forward` looks its destination up in `ip_index`. HELLOs, the answers to
queries and `prune_peers` write there; a NOTIFY tells the virtual IP of a peer
and does not.

A handler is one step. What it does to the aliases is in `Client/Names.lean`;
punching, rekeying by time and the keepalive are tasks that work on a session in
place.

## Results

* `peers_handlePeerData` — the sessions and the index after a tunnel packet.
* `route_kept_iff`       — once the server has told whose an IP is, packets for
  it go to this peer alone iff every step of the run keeps the index to that.
-/

namespace LinkMesh

open Std

variable {Ct : Type}

-- ---------------------------------------------------------------------------
-- Messages of the server
-- ---------------------------------------------------------------------------

/-- `endpoint.parse::<SocketAddr>().ok()` -/
structure MessageEnv extends Env where
  parseEndpoint : String → Option SocketAddr

namespace Client

/-- The relay routing key that came with a message, if it is one. -/
def noteRelayRk (pk : RawKey) (relayRk : Option String) (c : Client Ct) : Client Ct :=
  match relayRk.map parsePublicKey with
  | some (.ok rk) =>
    { c.update pk fun s => { s with peerRelayRk := some rk } with rkIndex := c.rkIndex.insert rk pk }
  | _ => c

/-- The endpoint of a message stays that of the session if it has one. -/
def noteEndpoint (pk : RawKey) (endpoint : Option SocketAddr) (c : Client Ct) : Client Ct :=
  match endpoint with
  | some ep =>
    { c.update pk fun s => { s with endpoint := some (s.endpoint.getD ep) } with
      addrIndex := c.addrIndex.insert ep pk }
  | none => c

section Messages

variable (cfg : Config) (C : Crypto Ct) (env : MessageEnv)

def handleNotify (peer : PeerInfo) (c : Client Ct) : Client Ct :=
  match parsePublicKey peer.publicKey with
  | .error _ => c
  | .ok pk =>
    let endpoint := env.parseEndpoint peer.endpoint
    let c := getOrCreateSession C env.toEnv pk "" (C.sharedSecret cfg.localPriv pk) endpoint c
    let c := noteEndpoint pk endpoint c
    noteRelayRk pk peer.relayRk c

/-- `query_impl`, once the answer is there: the session, its address and its
virtual IP. -/
def queryAnswered (info : PeerInfo) (c : Client Ct) : Client Ct :=
  match parsePublicKey info.publicKey with
  | .error _ => c
  | .ok pk =>
    let ip := info.ip.getD ""
    if ip = "" then c
    else
      let endpoint := env.parseEndpoint info.endpoint
      let c := getOrCreateSession C env.toEnv pk ip (C.sharedSecret cfg.localPriv pk) endpoint c
      let c := match endpoint with
        | some ep => { c with addrIndex := c.addrIndex.insert ep pk }
        | none => c
      noteRelayRk pk info.relayRk { c with ipIndex := c.ipIndex.insert ip pk }

end Messages

-- ---------------------------------------------------------------------------
-- Pruning
-- ---------------------------------------------------------------------------

/-- No handshake in twice the time for punching, or silence for 15 minutes. -/
def isDead (now : Instant) (timeoutMs : Nat) (s : PeerSession) : Bool :=
  let idle := now - s.lastSeen
  (!s.established && decide (max timeoutMs 5000 * 2 < idle)) ||
    (s.established && decide (900000 < idle))

/-- A session goes, and with it what the indexes say of its peer under the
relay routing key and the virtual IP of the session. -/
def removePeer (pk : RawKey) (c : Client Ct) : Client Ct :=
  match c.peers[pk]? with
  | none => c
  | some s =>
    { c with
      peers := c.peers.erase pk
      rkIndex := match s.peerRelayRk with
        | some rk => if c.rkIndex[rk]? = some pk then c.rkIndex.erase rk else c.rkIndex
        | none => c.rkIndex
      ipIndex := if s.ip ≠ "" ∧ c.ipIndex[s.ip]? = some pk then c.ipIndex.erase s.ip else c.ipIndex }

def prunePeers (now : Instant) (timeoutMs : Nat) (c : Client Ct) : Client Ct :=
  let dead := c.peers.toList.filter fun (_, s) => isDead now timeoutMs s
  (dead.map Prod.fst).foldl (fun c pk => removePeer pk c) c

end Client

-- ---------------------------------------------------------------------------
-- The way of a packet
-- ---------------------------------------------------------------------------

/-- `extract_dst_ip` -/
def extractDstIp (pkt : Bytes) : Option IpAddr.Addr :=
  match pkt with
  | [] => none
  | first :: _ =>
    if first.toNat / 16 = 4 then
      if pkt.length < 20 then none else some (.v4 (((pkt.drop 16).take 4).map UInt8.toNat))
    else if first.toNat / 16 = 6 then
      if pkt.length < 40 then none
      else
        let octets := ((pkt.drop 24).take 16).map UInt8.toNat
        some (.v6 ((List.range 8).map fun i => octets.getD (2 * i) 0 * 256 + octets.getD (2 * i + 1) 0))
    else none

/-- The octets of a dotted quad. -/
def ipv4Octets (ip : String) : Option (List Nat) :=
  match IpAddr.parse ip with
  | some (.v4 octets) => some octets
  | _ => none

/-- The directed broadcast address of the own subnet. -/
def localSubnetBroadcast (localIp netmask : String) : Option (List Nat) :=
  match ipv4Octets localIp, ipv4Octets netmask with
  | some ip, some mask => some (List.zipWith (fun i m => i ||| (255 - m)) ip mask)
  | _, _ => none

/-- Multicast, loopback, broadcast and link-local addresses have no peer. -/
def hasNoPeer (localIp netmask : String) : IpAddr.Addr → Bool
  | .v4 octets =>
    let a := octets.getD 0 0
    (decide (224 ≤ a) && decide (a ≤ 239)) || a == 127 || octets == [255, 255, 255, 255] ||
      (a == 169 && octets.getD 1 0 == 254) || some octets == localSubnetBroadcast localIp netmask
  | .v6 segments =>
    let a := segments.getD 0 0
    a / 256 == 0xff || segments == [0, 0, 0, 0, 0, 0, 0, 1] || a / 64 == 0xfe80 / 64

/-- The destination of a packet as `ip_index` spells it, unless the packet is dropped. -/
def destination (cfg : Config) (netmask : String) (pkt : Bytes) : Option String :=
  match extractDstIp pkt with
  | none => none
  | some dst =>
    if hasNoPeer cfg.localIp netmask dst then none
    else if dst.toText = cfg.localIp then none
    else some dst.toText

inductive Route where
  | drop
  | send (pk : RawKey)
  | query (ip : String)
  deriving DecidableEq, Repr

namespace Client

/-- Where `route_forward` sends a packet: to the peer of the index, if it has a
session; else the server is asked. -/
def route (cfg : Config) (netmask : String) (pkt : Bytes) (c : Client Ct) : Route :=
  match destination cfg netmask pkt with
  | none => .drop
  | some dst =>
    match c.ipIndex[dst]? with
    | some pk => if pk ∈ c.peers then .send pk else .query dst
    | none => .query dst

def routeForward (cfg : Config) (C : Crypto Ct) (env : Env) (netmask : String) (pkt : Bytes)
    (c : Client Ct) : Client Ct :=
  match c.route cfg netmask pkt with
  | .drop => c
  | .send pk => sendData cfg C env pk pkt c
  | .query dst => { c with queries := c.queries ++ [dst] }

end Client

-- ---------------------------------------------------------------------------
-- Who has a session, and who has which IP
-- ---------------------------------------------------------------------------

variable {cfg : Config} {C : Crypto Ct} {env : Env} {pk srcPub k : RawKey} {ct : Ct} {direct : Bool}
  {src : SocketAddr} {ip p : String} {c c' c'' : Client Ct}

/-- The same peers have sessions, and the same IPs and relay routing keys. -/
structure SamePeers (c c' : Client Ct) : Prop where
  mem : ∀ k, k ∈ c'.peers ↔ k ∈ c.peers
  ipIndex : c'.ipIndex = c.ipIndex
  rkIndex : c'.rkIndex = c.rkIndex

namespace SamePeers

theorem refl : SamePeers c c := ⟨fun _ => Iff.rfl, rfl, rfl⟩

theorem trans (h : SamePeers c c') (h' : SamePeers c' c'') : SamePeers c c'' :=
  ⟨fun k => (h'.mem k).trans (h.mem k), h'.ipIndex.trans h.ipIndex, h'.rkIndex.trans h.rkIndex⟩

theorem update {f : PeerSession → PeerSession} : SamePeers c (c.update pk f) :=
  ⟨fun _ => ExtTreeMap.mem_modify, rfl, rfl⟩

theorem of_sends (h : Sends pk c c') : SamePeers c c' := by
  refine ⟨fun k => ?_, h.ipIndex, h.rkIndex⟩
  have hPlane : c'.peers[k]?.map PeerSession.toDataPlane = c.peers[k]?.map PeerSession.toDataPlane :=
    h.plane k
  rw [← ExtTreeMap.isSome_getElem?_iff_mem, ← ExtTreeMap.isSome_getElem?_iff_mem,
    ← Option.isSome_map, hPlane, Option.isSome_map]

theorem locked {α : Type} {f : DataPlane → DataPlane × α} : SamePeers c (c.locked pk f).1 := by
  unfold Client.locked
  split
  · exact .refl
  · exact .update

theorem sendSection {f : DataPlane → DataPlane × Option Sealing} :
    SamePeers c (sendSection cfg C env pk f c) :=
  locked.trans (of_sends sends_transmit)

theorem draw : SamePeers c (c.draw env).2 := ⟨fun _ => Iff.rfl, rfl, rfl⟩

theorem sendData {payload : Bytes} : SamePeers c (sendData cfg C env pk payload c) := by
  have hQuery : SamePeers c (requery env pk c) := of_sends sends_requery
  have hDraw : SamePeers c ((requery env pk c).draw env).2 := hQuery.trans draw
  unfold LinkMesh.sendData
  exact (hDraw.trans sendSection).trans sendSection

theorem sendAck {ack : Nat} : SamePeers c (sendAck cfg C env pk ack c) := by
  have hDraw : SamePeers c (c.draw env).2 := draw
  unfold LinkMesh.sendAck
  exact hDraw.trans (of_sends sends_transmit)

theorem foldl {α : Type} {f : Client Ct → α → Client Ct} (h : ∀ c a, SamePeers c (f c a)) (as : List α) :
    SamePeers c (as.foldl f c) := by
  induction as generalizing c with
  | nil => exact .refl
  | cons a as ih => exact (h c a).trans ih

theorem flushPending : SamePeers c (flushPending cfg C env pk c) := by
  unfold LinkMesh.flushPending
  dsimp only
  exact locked.trans (foldl (fun _ _ => sendData) _)

theorem retransmit : SamePeers c (retransmit cfg C env c) := by
  refine foldl (fun c pk => ?_) _
  split
  · exact .refl
  · exact foldl (fun _ _ => sendSection) _

end SamePeers

/-- Binding an IP changes at most the entry of this IP, and only when it has none. -/
theorem getElem?_bindIpOwnership {idx : ExtTreeMap String RawKey} {owner : RawKey} :
    (bindIpOwnership idx ip owner).1[p]? =
      if p = ip ∧ idx[ip]? = none then some owner else idx[p]? := by
  unfold bindIpOwnership
  split
  · rename_i cur hCur
    split
    · rename_i hOwner
      rw [KeyMap.getElem?_insert]
      by_cases hp : p = ip
      · subst hp
        simp [hCur, hOwner]
      · simp [hp]
    · simp [hCur]
  · rename_i hNone
    rw [KeyMap.getElem?_insert]
    simp [hNone]

/-- The IP that a tunnel packet claims. -/
def claimedIp (env : Env) : Option Plain → Option String
  | some (.hello _ _ _ ip) => if ip ≠ "" ∧ env.isIp ip then some ip else none
  | _ => none

/-- The index after a claim. -/
def claim (pk : RawKey) (ip : Option String) (c : Client Ct) : ExtTreeMap String RawKey :=
  match ip with
  | some ip => (bindIpOwnership c.ipIndex ip pk).1
  | none => c.ipIndex

/-- The sessions and the routing keys stay, and of the IPs what a claim makes of them. -/
structure AfterClaim (pk : RawKey) (ip : Option String) (c c' : Client Ct) : Prop where
  mem : ∀ k, k ∈ c'.peers ↔ k ∈ c.peers
  ipIndex : c'.ipIndex = claim pk ip c
  rkIndex : c'.rkIndex = c.rkIndex

namespace AfterClaim

theorem followed {ip : Option String} (h : AfterClaim pk ip c c') (h' : SamePeers c' c'') :
    AfterClaim pk ip c c'' :=
  ⟨fun k => (h'.mem k).trans (h.mem k), h'.ipIndex.trans h.ipIndex, h'.rkIndex.trans h.rkIndex⟩

theorem preceded {ip : Option String} (h : SamePeers c c') (h' : AfterClaim pk ip c' c'') :
    AfterClaim pk ip c c'' := by
  refine ⟨fun k => (h'.mem k).trans (h.mem k), h'.ipIndex.trans ?_, h'.rkIndex.trans h.rkIndex⟩
  unfold claim
  rw [h.ipIndex]

theorem of_same (h : SamePeers c c') : AfterClaim pk none c c' := ⟨h.mem, h.ipIndex, h.rkIndex⟩

end AfterClaim

theorem claimed_bindIp : AfterClaim pk (if ip ≠ "" ∧ env.isIp ip then some ip else none) c (bindIp env pk ip c) := by
  unfold bindIp
  split
  · exact ⟨fun _ => Iff.rfl, rfl, rfl⟩
  · exact .of_same .refl

theorem samePeers_sendReply {hello : Option Sealing} : SamePeers c (sendReply cfg C env pk hello c) :=
  .of_sends sends_sendReply

theorem claimed_handleHello {rk : RawKey} {salt : Salt} {epoch : Nat} (hMem : pk ∈ c.peers) :
    AfterClaim pk (claimedIp env (some (.hello epoch rk salt ip))) c
      (handleHello cfg C env pk rk salt ip c) := by
  obtain ⟨s, hs⟩ := SeqMap.mem_iff.mp hMem
  have hSection : SamePeers c ((c.draw env).2.locked pk
      (DataPlane.handleHello cfg C env.now (c.draw env).1 rk salt)).1 := SamePeers.draw.trans .locked
  unfold handleHello
  dsimp only
  split
  · -- the session is there, so the section runs
    rename_i hNone
    have hThere : (c.draw env).2.peers[pk]? = some s := hs
    simp [Client.locked, hThere] at hNone
  · rename_i isFirst hello _
    have hAnswer : AfterClaim pk (claimedIp env (some (.hello epoch rk salt ip))) c
        (answerHello cfg C env pk ip isFirst hello ((c.draw env).2.locked pk
          (DataPlane.handleHello cfg C env.now (c.draw env).1 rk salt)).1) :=
      .preceded hSection (.preceded .update (claimed_bindIp.followed samePeers_sendReply))
    unfold afterHello
    dsimp only
    split
    · exact hAnswer.followed .flushPending
    · exact hAnswer

theorem samePeers_handleData {epoch seq : Nat} {payload : Bytes} :
    SamePeers c (handleData cfg C env pk direct epoch seq payload c) := by
  have hCounted : ∀ (c : Client Ct) (f : PeerSession → PeerSession) (n : Nat) (tun : List Bytes),
      SamePeers c { c.update pk f with rxBytes := n, tun := tun } :=
    fun _ _ _ _ => ⟨fun _ => ExtTreeMap.mem_modify, rfl, rfl⟩
  unfold handleData
  dsimp only
  split
  · exact (SamePeers.locked.trans (hCounted _ _ _ _)).trans .sendAck
  · exact .locked

/-- The handlers: only a HELLO writes to the index. -/
theorem claimed_dispatch (hMem : pk ∈ c.peers) (q : Plain) :
    AfterClaim pk (claimedIp env (some q)) c (dispatch cfg C env pk direct c q) := by
  match q with
  | .hello .. => exact claimed_handleHello hMem
  | .rekey .. => exact .of_same .locked
  | .ack .. => exact .of_same .update
  | .data .. => exact .of_same samePeers_handleData
  | .malformed => exact .of_same .refl
  | .short => exact .of_same .refl

/-- What a tunnel packet opens to; a source without a session gets one under
the static secret. -/
def opened (cfg : Config) (C : Crypto Ct) (srcPub : RawKey) (ct : Ct) (c : Client Ct) : Option Plain :=
  match c.peers[srcPub]? with
  | some s => s.openPeerData C ct
  | none => C.decrypt (C.sharedSecret cfg.localPriv srcPub) ct

theorem openPeerData_single {s : KeyState} (h : s.handshakeKey = s.currentKey) :
    s.openPeerData C ct = C.decrypt s.currentKey ct := by
  unfold KeyState.openPeerData
  rw [h]
  cases C.decrypt s.currentKey ct with
  | none => simp
  | some q => rfl

/-- The source has a session once it is greeted, and the packet opens as before. -/
theorem greetStranger_session : ∃ s, (greetStranger cfg C env srcPub direct src c).peers[srcPub]? = some s ∧
    s.openPeerData C ct = opened cfg C srcPub ct c := by
  unfold opened
  cases hs : c.peers[srcPub]? with
  | some s =>
    refine ⟨s, ?_, rfl⟩
    rw [greetStranger_of_mem hs]
    exact hs
  | none =>
    cases direct with
    | false =>
      rw [greetStranger_relayed hs]
      exact ⟨_, ExtTreeMap.getElem?_insert_self, openPeerData_single rfl⟩
    | true =>
      rw [greetStranger_direct hs]
      exact ⟨_, ExtTreeMap.getElem?_insert_self, openPeerData_single rfl⟩

theorem indexes_greetStranger : (greetStranger cfg C env srcPub direct src c).ipIndex = c.ipIndex ∧
    (greetStranger cfg C env srcPub direct src c).rkIndex = c.rkIndex := by
  cases hs : c.peers[srcPub]? with
  | some s =>
    rw [greetStranger_of_mem hs]
    exact ⟨rfl, rfl⟩
  | none =>
    cases direct with
    | false =>
      rw [greetStranger_relayed hs]
      exact ⟨rfl, rfl⟩
    | true =>
      rw [greetStranger_direct hs]
      exact ⟨rfl, rfl⟩

theorem mem_greetStranger :
    k ∈ (greetStranger cfg C env srcPub direct src c).peers ↔ k = srcPub ∨ k ∈ c.peers := by
  cases hs : c.peers[srcPub]? with
  | some s =>
    rw [greetStranger_of_mem hs]
    refine ⟨.inr, ?_⟩
    rintro (rfl | hMem)
    · exact SeqMap.mem_iff.mpr ⟨s, hs⟩
    · exact hMem
  | none =>
    cases direct with
    | false =>
      rw [greetStranger_relayed hs]
      exact SeqMap.mem_insert
    | true =>
      rw [greetStranger_direct hs]
      exact SeqMap.mem_insert

/-- A tunnel packet that opens is handed to the handler of its type, once its
source has been greeted and a direct packet noted. -/
theorem handlePeerData_opened (cfg : Config) (C : Crypto Ct) (env : Env) (srcPub : RawKey) (ct : Ct)
    (direct : Bool) (src : SocketAddr) (c : Client Ct) :
    ∃ c₂, SamePeers (greetStranger cfg C env srcPub direct src c) c₂ ∧
      handlePeerData cfg C env srcPub ct direct src c =
        match opened cfg C srcPub ct c with
        | some q => dispatch cfg C env srcPub direct c₂ q
        | none => c₂ := by
  obtain ⟨s, hs, hOpened⟩ : ∃ s, (greetStranger cfg C env srcPub direct src c).peers[srcPub]? = some s ∧
    s.openPeerData C ct = opened cfg C srcPub ct c := greetStranger_session
  unfold handlePeerData
  dsimp only
  generalize greetStranger cfg C env srcPub direct src c = c₁ at hs ⊢
  -- noting a direct packet keeps the keys
  have hNoted : SamePeers c₁ (if direct then noteDirect cfg env srcPub src c₁ else c₁) ∧
      ∃ s', (if direct then noteDirect cfg env srcPub src c₁ else c₁).peers[srcPub]? = some s' ∧
        s'.openPeerData C ct = s.openPeerData C ct := by
    cases direct with
    | false => exact ⟨.refl, s, hs, rfl⟩
    | true =>
      refine ⟨⟨fun _ => ExtTreeMap.mem_modify, rfl, rfl⟩, heardDirect cfg env src s, ?_, rfl⟩
      rw [if_pos rfl, noteDirect_eq hs]
      exact ExtTreeMap.getElem?_insert_self
  generalize (if direct then noteDirect cfg env srcPub src c₁ else c₁) = c₂ at hNoted ⊢
  obtain ⟨hSame, s', hs', hOpen⟩ := hNoted
  rw [← hOpened, ← hOpen]
  simp only [hs']
  split
  · rename_i hShut
    rw [hShut]
    exact ⟨c₂, hSame, rfl⟩
  · rename_i hShort
    rw [hShort]
    exact ⟨c₂, hSame, rfl⟩
  · rename_i q _ hOpens
    rw [hOpens]
    refine ⟨_, ?_, rfl⟩
    split
    · exact hSame.trans .update
    · exact hSame

/--
**The sessions and the indexes after a tunnel packet.** Its source has a session,
the IP that it claims is bound to it if it was free, and the relay routing keys
are those from before.
-/
theorem peers_handlePeerData :
    (∀ k, k ∈ (handlePeerData cfg C env srcPub ct direct src c).peers ↔ k = srcPub ∨ k ∈ c.peers) ∧
      (handlePeerData cfg C env srcPub ct direct src c).ipIndex =
        claim srcPub (claimedIp env (opened cfg C srcPub ct c)) c ∧
      (handlePeerData cfg C env srcPub ct direct src c).rkIndex = c.rkIndex := by
  obtain ⟨c₂, hSame, hEq⟩ := handlePeerData_opened cfg C env srcPub ct direct src c
  have hMem : ∀ k, k ∈ c₂.peers ↔ k = srcPub ∨ k ∈ c.peers :=
    fun k => (hSame.mem k).trans mem_greetStranger
  have hIndex : c₂.ipIndex = c.ipIndex := hSame.ipIndex.trans indexes_greetStranger.1
  have hClaimed : AfterClaim srcPub (claimedIp env (opened cfg C srcPub ct c)) c₂
      (handlePeerData cfg C env srcPub ct direct src c) := by
    rw [hEq]
    cases opened cfg C srcPub ct c with
    | none => exact .of_same .refl
    | some q => exact claimed_dispatch ((hMem srcPub).mpr (.inl rfl)) q
  refine ⟨fun k => (hClaimed.mem k).trans (hMem k), hClaimed.ipIndex.trans ?_,
    (hClaimed.rkIndex.trans hSame.rkIndex).trans indexes_greetStranger.2⟩
  unfold claim
  rw [hIndex]

-- ---------------------------------------------------------------------------
-- Runs
-- ---------------------------------------------------------------------------

/-- What happens to a connection. -/
inductive ForwardEvent (Ct : Type) where
  /-- a tunnel packet, direct or relayed -/
  | peerData (env : Env) (srcPub : RawKey) (ct : Ct) (direct : Bool) (src : SocketAddr)
  | notify (env : MessageEnv) (peer : PeerInfo)
  | answer (env : MessageEnv) (info : PeerInfo)
  | prune (now : Instant) (timeoutMs : Nat)
  /-- a packet of the TUN -/
  | forward (env : Env) (netmask : String) (pkt : Bytes)
  /-- a packet that waited for an answer, or for the handshake -/
  | send (env : Env) (pk : RawKey) (pkt : Bytes)
  /-- the retransmission timer -/
  | timer (env : Env)
  /-- a task works on a session in place -/
  | task (pk : RawKey) (f : PeerSession → PeerSession)

/-- Whose IP a message says it is. -/
def PeerInfo.binding (peer : PeerInfo) : Option (String × RawKey) :=
  match parsePublicKey peer.publicKey, peer.ip with
  | .ok pk, some ip => if ip = "" then none else some (ip, pk)
  | _, _ => none

/-- The binding that the server tells. -/
def ForwardEvent.tells : ForwardEvent Ct → Option (String × RawKey)
  | .notify _ peer => peer.binding
  | .answer _ info => info.binding
  | _ => none

/-- A connection, and the bindings the server has told it. -/
structure Forwarding (Ct : Type) where
  client : Client Ct
  told : List (String × RawKey) := []

def ForwardEvent.act (cfg : Config) (C : Crypto Ct) (c : Client Ct) : ForwardEvent Ct → Client Ct
  | .peerData env srcPub ct direct src => handlePeerData cfg C env srcPub ct direct src c
  | .notify env peer => c.handleNotify cfg C env peer
  | .answer env info => c.queryAnswered cfg C env info
  | .prune now timeoutMs => c.prunePeers now timeoutMs
  | .forward env netmask pkt => c.routeForward cfg C env netmask pkt
  | .send env pk pkt => sendData cfg C env pk pkt c
  | .timer env => retransmit cfg C env c
  | .task pk f => c.update pk f

theorem act_notify {c : Client Ct} {env : MessageEnv} {peer : PeerInfo} :
    (ForwardEvent.notify env peer).act cfg C c = c.handleNotify cfg C env peer := rfl

theorem act_answer {c : Client Ct} {env : MessageEnv} {info : PeerInfo} :
    (ForwardEvent.answer env info).act cfg C c = c.queryAnswered cfg C env info := rfl

namespace Forwarding

def next (cfg : Config) (C : Crypto Ct) (s : Forwarding Ct) (e : ForwardEvent Ct) : Forwarding Ct :=
  { client := e.act cfg C s.client
    told := e.tells.toList ++ s.told }

theorem next_client {s : Forwarding Ct} {e : ForwardEvent Ct} :
    (s.next cfg C e).client = e.act cfg C s.client := rfl

def machine (cfg : Config) (C : Crypto Ct) : Machine (Forwarding Ct) (ForwardEvent Ct) where
  init s := s.told = []
  enabled _ _ := True
  next := next cfg C

@[simp] theorem machine_next (s : Forwarding Ct) (e : ForwardEvent Ct) :
    (machine cfg C).next s e = s.next cfg C e := rfl

end Forwarding

/-- Of those with a session, the index gives the IP to this peer alone. -/
def Client.OnlyTo (p : String) (k : RawKey) (c : Client Ct) : Prop :=
  ∀ k', c.ipIndex[p]? = some k' → k' ∈ c.peers → k' = k

/-- The peer that a message is about. -/
def PeerInfo.names (peer : PeerInfo) (k : RawKey) : Prop := parsePublicKey peer.publicKey = .ok k

/-- What keeps the IP `p` with the peer `k` once the server has told so: a
NOTIFY that tells it finds no other peer with the IP; a peer that is left in the
index without a session does not come back; and another peer claims the IP only
while it is taken. -/
def Keeps (cfg : Config) (C : Crypto Ct) (p : String) (k : RawKey) (s : Forwarding Ct) :
    ForwardEvent Ct → Prop
  | .peerData env srcPub ct _ _ => (p, k) ∈ s.told → srcPub ≠ k →
      s.client.ipIndex[p]? ≠ some srcPub ∧
        (claimedIp env (opened cfg C srcPub ct s.client) = some p → p ∈ s.client.ipIndex)
  | .notify _ peer =>
      (peer.binding = some (p, k) → s.client.OnlyTo p k) ∧
        ((p, k) ∈ s.told → ∀ k', peer.names k' → k' ≠ k → s.client.ipIndex[p]? ≠ some k')
  | .answer _ info => (p, k) ∈ s.told → ∀ ip k', info.binding = some (ip, k') → k' ≠ k →
      s.client.ipIndex[p]? ≠ some k'
  | _ => True

theorem SamePeers.onlyTo (h : SamePeers c c') : c'.OnlyTo p k ↔ c.OnlyTo p k := by
  unfold Client.OnlyTo
  simp only [h.ipIndex, h.mem]

/-- A peer gets a session while the entry of the IP stays. -/
theorem onlyTo_joined {j : RawKey} (hMem : ∀ k', k' ∈ c'.peers ↔ k' = j ∨ k' ∈ c.peers)
    (hEntry : c'.ipIndex[p]? = c.ipIndex[p]?) :
    c'.OnlyTo p k ↔ c.OnlyTo p k ∧ (j ≠ k → c.ipIndex[p]? ≠ some j) := by
  unfold Client.OnlyTo
  simp only [hMem, hEntry]
  constructor
  · intro h
    refine ⟨fun k' hk' hThere => h k' hk' (.inr hThere), ?_⟩
    intro hOther hj
    exact hOther (h j hj (.inl rfl))
  · rintro ⟨hOnly, hNot⟩ k' hk' (rfl | hThere)
    · by_contra hOther
      exact hNot hOther hk'
    · exact hOnly k' hk' hThere

theorem mem_getOrCreateSession {shared : RawKey} {endpoint : Option SocketAddr} :
    k ∈ (getOrCreateSession C env pk ip shared endpoint c).peers ↔ k = pk ∨ k ∈ c.peers := by
  unfold getOrCreateSession
  split
  · rename_i s hs
    refine ⟨.inr, ?_⟩
    rintro (rfl | hMem)
    · exact SeqMap.mem_iff.mpr ⟨s, hs⟩
    · exact hMem
  · exact SeqMap.mem_insert

theorem ipIndex_getOrCreateSession {shared : RawKey} {endpoint : Option SocketAddr} :
    (getOrCreateSession C env pk ip shared endpoint c).ipIndex = c.ipIndex := by
  unfold getOrCreateSession
  split <;> rfl

/-- A relay routing key is noted; sessions and IPs stay. -/
theorem peers_noteRelayRk {relayRk : Option String} :
    (∀ k, k ∈ (c.noteRelayRk pk relayRk).peers ↔ k ∈ c.peers) ∧
      (c.noteRelayRk pk relayRk).ipIndex = c.ipIndex := by
  unfold Client.noteRelayRk
  split
  · exact ⟨fun _ => ExtTreeMap.mem_modify, rfl⟩
  · exact ⟨fun _ => Iff.rfl, rfl⟩

theorem samePeers_noteEndpoint {endpoint : Option SocketAddr} : SamePeers c (c.noteEndpoint pk endpoint) := by
  unfold Client.noteEndpoint
  split
  · exact ⟨fun _ => ExtTreeMap.mem_modify, rfl, rfl⟩
  · exact .refl

variable {menv : MessageEnv} {peer : PeerInfo}

/-- A NOTIFY makes a session for its peer and leaves the index alone. -/
theorem handleNotify_peers (h : peer.names pk) :
    (∀ k, k ∈ (c.handleNotify cfg C menv peer).peers ↔ k = pk ∨ k ∈ c.peers) ∧
      (c.handleNotify cfg C menv peer).ipIndex = c.ipIndex := by
  unfold PeerInfo.names at h
  unfold Client.handleNotify
  simp only [h]
  constructor
  · intro k
    rw [peers_noteRelayRk.1, samePeers_noteEndpoint.mem, mem_getOrCreateSession]
  · rw [peers_noteRelayRk.2, samePeers_noteEndpoint.ipIndex, ipIndex_getOrCreateSession]

theorem handleNotify_nobody (h : ∀ pk, ¬ peer.names pk) : c.handleNotify cfg C menv peer = c := by
  unfold Client.handleNotify
  split
  · rfl
  · rename_i pk hKey
    exact absurd hKey (h pk)

theorem PeerInfo.binding_eq_some : peer.binding = some (ip, k) ↔ peer.names k ∧ peer.ip = some ip ∧ ip ≠ "" := by
  unfold PeerInfo.binding PeerInfo.names
  constructor
  · intro h
    split at h
    · rename_i pk ip' hKey hIp
      split at h
      · cases h
      · rename_i hNonempty
        cases h
        exact ⟨hKey, hIp, hNonempty⟩
    · cases h
  · rintro ⟨hKey, hIp, hNonempty⟩
    simp only [hKey, hIp, hNonempty, if_false]

/-- An answer binds its IP to its peer, whoever had it. -/
theorem queryAnswered_peers (h : peer.binding = some (ip, pk)) :
    (∀ k, k ∈ (c.queryAnswered cfg C menv peer).peers ↔ k = pk ∨ k ∈ c.peers) ∧
      (c.queryAnswered cfg C menv peer).ipIndex = c.ipIndex.insert ip pk := by
  obtain ⟨hKey, hIp, hNonempty⟩ := PeerInfo.binding_eq_some.mp h
  unfold PeerInfo.names at hKey
  unfold Client.queryAnswered
  simp only [hKey, hIp, Option.getD_some, hNonempty, if_false]
  constructor
  · intro k
    rw [peers_noteRelayRk.1, ← mem_getOrCreateSession]
    split <;> rfl
  · rw [peers_noteRelayRk.2]
    split <;> simp only [ipIndex_getOrCreateSession]

theorem queryAnswered_nobody (h : peer.binding = none) : c.queryAnswered cfg C menv peer = c := by
  unfold Client.queryAnswered
  split
  · rfl
  · rename_i pk hKey
    dsimp only
    split
    · rfl
    · rename_i hNonempty
      cases hIp : peer.ip with
      | none => simp [hIp] at hNonempty
      | some ip =>
        rw [hIp] at hNonempty
        rw [PeerInfo.binding_eq_some.mpr ⟨hKey, hIp, hNonempty⟩] at h
        cases h

/-- Nobody gains a session or an IP. -/
structure Fewer (c c' : Client Ct) : Prop where
  mem : ∀ k, k ∈ c'.peers → k ∈ c.peers
  ipIndex : ∀ (p : String) k, c'.ipIndex[p]? = some k → c.ipIndex[p]? = some k

theorem Fewer.onlyTo (h : Fewer c c') (hOnly : c.OnlyTo p k) : c'.OnlyTo p k :=
  fun k' hk' hThere => hOnly k' (h.ipIndex p k' hk') (h.mem k' hThere)

theorem fewer_removePeer : Fewer c (c.removePeer pk) := by
  unfold Client.removePeer
  split
  · exact ⟨fun _ => id, fun _ _ => id⟩
  · refine ⟨fun k hMem => ?_, fun p k hEntry => ?_⟩
    · exact ExtTreeMap.mem_of_mem_erase hMem
    · dsimp only at hEntry
      split at hEntry
      · exact (KeyMap.of_getElem?_erase hEntry).2
      · exact hEntry

theorem fewer_prunePeers {now : Instant} {timeoutMs : Nat} : Fewer c (c.prunePeers now timeoutMs) := by
  have hRemoved : ∀ (dead : List RawKey) (c : Client Ct),
      Fewer c (dead.foldl (fun c pk => c.removePeer pk) c) := by
    intro dead
    induction dead with
    | nil => exact fun _ => ⟨fun _ => id, fun _ _ => id⟩
    | cons pk dead ih =>
      intro c
      have hHead : Fewer c (c.removePeer pk) := fewer_removePeer
      have hTail := ih (c.removePeer pk)
      exact ⟨fun k h => hHead.mem k (hTail.mem k h), fun p k h => hHead.ipIndex p k (hTail.ipIndex p k h)⟩
  exact hRemoved _ c

theorem samePeers_routeForward {netmask : String} {pkt : Bytes} :
    SamePeers c (c.routeForward cfg C env netmask pkt) := by
  unfold Client.routeForward
  split
  · exact .refl
  · exact .sendData
  · exact ⟨fun _ => Iff.rfl, rfl, rfl⟩

/-- The entry of an IP after a claim. -/
theorem getElem?_claim {claimed : Option String} : (claim srcPub claimed c)[p]? =
    if claimed = some p ∧ c.ipIndex[p]? = none then some srcPub else c.ipIndex[p]? := by
  cases claimed with
  | none => simp [claim]
  | some ip =>
    have hBind : (claim srcPub (some ip) c)[p]? =
        if p = ip ∧ c.ipIndex[ip]? = none then some srcPub else c.ipIndex[p]? := getElem?_bindIpOwnership
    rw [hBind]
    by_cases hp : p = ip
    · subst hp
      simp
    · simp [hp, Ne.symm hp]

/-- A tunnel packet keeps the IP with its peer, exactly if its source neither
is another peer left in the index nor claims the IP while it is free. -/
theorem onlyTo_peerData (hOnly : c.OnlyTo p k) :
    (handlePeerData cfg C env srcPub ct direct src c).OnlyTo p k ↔ (srcPub ≠ k →
      c.ipIndex[p]? ≠ some srcPub ∧
        (claimedIp env (opened cfg C srcPub ct c) = some p → p ∈ c.ipIndex)) := by
  obtain ⟨hMem, hIndex⟩ : (∀ k, k ∈ (handlePeerData cfg C env srcPub ct direct src c).peers ↔
        k = srcPub ∨ k ∈ c.peers) ∧
      (handlePeerData cfg C env srcPub ct direct src c).ipIndex =
        claim srcPub (claimedIp env (opened cfg C srcPub ct c)) c :=
    ⟨peers_handlePeerData.1, peers_handlePeerData.2.1⟩
  generalize claimedIp env (opened cfg C srcPub ct c) = claimed at hIndex ⊢
  have hEntry : (handlePeerData cfg C env srcPub ct direct src c).ipIndex[p]? =
      if claimed = some p ∧ c.ipIndex[p]? = none then some srcPub else c.ipIndex[p]? := by
    rw [hIndex, getElem?_claim]
  by_cases hTaken : claimed = some p ∧ c.ipIndex[p]? = none
  · -- the claim is granted
    rw [if_pos hTaken] at hEntry
    have hFree : p ∉ c.ipIndex := by
      rw [← ExtTreeMap.isSome_getElem?_iff_mem, hTaken.2]
      simp
    constructor
    · intro h hOther
      exact absurd (h srcPub hEntry ((hMem srcPub).mpr (.inl rfl))) hOther
    · intro h k' hk' _
      by_contra hOther
      have hSame : srcPub = k' := Option.some.inj (hEntry.symm.trans hk')
      exact hFree ((h (hSame ▸ hOther)).2 hTaken.1)
  · rw [if_neg hTaken] at hEntry
    rw [onlyTo_joined hMem hEntry]
    constructor
    · rintro ⟨_, hNot⟩ hOther
      refine ⟨hNot hOther, fun hClaim => ?_⟩
      rw [← ExtTreeMap.isSome_getElem?_iff_mem, ← Option.ne_none_iff_isSome]
      exact fun hNone => hTaken ⟨hClaim, hNone⟩
    · intro h
      exact ⟨hOnly, fun hOther => (h hOther).1⟩

/-- A message about a peer, with the entry of the IP as it was. -/
theorem onlyTo_message {told : List (String × RawKey)} {j : RawKey}
    (hOnly : (p, k) ∈ told → c.OnlyTo p k) (hMem : ∀ k', k' ∈ c'.peers ↔ k' = j ∨ k' ∈ c.peers)
    (hEntry : c'.ipIndex[p]? = c.ipIndex[p]?) :
    ((p, k) ∈ told → c'.OnlyTo p k) ↔ ((p, k) ∈ told → j ≠ k → c.ipIndex[p]? ≠ some j) := by
  refine forall_congr' fun hTold => ?_
  rw [onlyTo_joined hMem hEntry]
  exact and_iff_right (hOnly hTold)

/-- Whose IP it is, when the server has told: no other peer's. -/
def Forwarding.Kept (p : String) (k : RawKey) (s : Forwarding Ct) : Prop :=
  (p, k) ∈ s.told → s.client.OnlyTo p k

variable {s : Forwarding Ct}

/-- An event that tells nothing new. -/
theorem kept_next_of_tells {e : ForwardEvent Ct} (h : e.tells ≠ some (p, k)) :
    (s.next cfg C e).Kept p k ↔ ((p, k) ∈ s.told → (e.act cfg C s.client).OnlyTo p k) := by
  unfold Forwarding.Kept Forwarding.next
  have hMem : (p, k) ∈ e.tells.toList ++ s.told ↔ (p, k) ∈ s.told := by
    rw [List.mem_append, Option.mem_toList]
    exact or_iff_right h
  dsimp only
  rw [hMem]

theorem kept_notify (hKept : s.Kept p k) :
    (s.next cfg C (.notify menv peer)).Kept p k ↔ Keeps cfg C p k s (.notify menv peer) := by
  by_cases hNames : ∃ j, peer.names j
  · obtain ⟨j, hj⟩ := hNames
    have hOne : ∀ k', peer.names k' ↔ k' = j := by
      intro k'
      refine ⟨fun hk' => ?_, ?_⟩
      · exact Except.ok.inj (hk'.symm.trans hj)
      · rintro rfl
        exact hj
    obtain ⟨hMem, hIndex⟩ : (∀ k, k ∈ (s.client.handleNotify cfg C menv peer).peers ↔
          k = j ∨ k ∈ s.client.peers) ∧
        (s.client.handleNotify cfg C menv peer).ipIndex = s.client.ipIndex := handleNotify_peers hj
    have hEntry : (s.client.handleNotify cfg C menv peer).ipIndex[p]? = s.client.ipIndex[p]? := by rw [hIndex]
    simp only [Keeps, hOne, forall_eq]
    by_cases hBinding : peer.binding = some (p, k)
    · -- the server tells that the IP is that of this peer
      have hSelf : j = k := ((hOne k).mp (PeerInfo.binding_eq_some.mp hBinding).1).symm
      have hTold : (p, k) ∈ (s.next cfg C (.notify menv peer)).told := by
        simp [Forwarding.next, ForwardEvent.tells, hBinding]
      unfold Forwarding.Kept
      simp only [hTold, hBinding, forall_const, Forwarding.next_client, act_notify]
      refine (onlyTo_joined hMem hEntry).trans ?_
      simp [hSelf]
    · have hNothing : (ForwardEvent.notify menv peer : ForwardEvent Ct).tells ≠ some (p, k) := hBinding
      rw [kept_next_of_tells hNothing, act_notify]
      simp only [hBinding, false_implies, true_and]
      exact onlyTo_message hKept hMem hEntry
  · have hNobody : ∀ j, ¬ peer.names j := fun j hj => hNames ⟨j, hj⟩
    have hBinding : peer.binding ≠ some (p, k) := fun h => hNobody k (PeerInfo.binding_eq_some.mp h).1
    have hNothing : (ForwardEvent.notify menv peer : ForwardEvent Ct).tells ≠ some (p, k) := hBinding
    rw [kept_next_of_tells hNothing]
    simp only [Keeps, act_notify, handleNotify_nobody hNobody, hBinding, hNobody, false_implies,
      implies_true, and_true, iff_true]
    exact hKept

theorem kept_answer (hKept : s.Kept p k) (hTells : ∀ k', peer.binding = some (p, k') → k' = k) :
    (s.next cfg C (.answer menv peer)).Kept p k ↔ Keeps cfg C p k s (.answer menv peer) := by
  cases hBinding : peer.binding with
  | none =>
    have hNothing : (ForwardEvent.answer menv peer : ForwardEvent Ct).tells ≠ some (p, k) := by
      simp [ForwardEvent.tells, hBinding]
    rw [kept_next_of_tells hNothing]
    simp only [Keeps, act_answer, queryAnswered_nobody hBinding, hBinding]
    simp only [reduceCtorEq, false_implies, implies_true, iff_true]
    exact hKept
  | some binding =>
    obtain ⟨ip, j⟩ := binding
    obtain ⟨hMem, hIndex⟩ : (∀ k, k ∈ (s.client.queryAnswered cfg C menv peer).peers ↔
          k = j ∨ k ∈ s.client.peers) ∧
        (s.client.queryAnswered cfg C menv peer).ipIndex = s.client.ipIndex.insert ip j :=
      queryAnswered_peers hBinding
    by_cases hIp : p = ip
    · -- the answer overwrites the entry
      subst hIp
      have hSelf : j = k := hTells j hBinding
      subst hSelf
      have hEntry : (s.client.queryAnswered cfg C menv peer).ipIndex[p]? = some j := by
        rw [hIndex]
        exact ExtTreeMap.getElem?_insert_self
      refine iff_of_true ?_ ?_
      · intro _ k' hk' _
        exact (Option.some.inj (hEntry.symm.trans hk')).symm
      · intro _ ip' k' hOther hNe
        rw [hBinding] at hOther
        cases hOther
        exact absurd rfl hNe
    · have hNothing : (ForwardEvent.answer menv peer : ForwardEvent Ct).tells ≠ some (p, k) := by
        simp [ForwardEvent.tells, hBinding, Ne.symm hIp]
      have hEntry : (s.client.queryAnswered cfg C menv peer).ipIndex[p]? = s.client.ipIndex[p]? := by
        rw [hIndex, KeyMap.getElem?_insert, if_neg hIp]
      rw [kept_next_of_tells hNothing, act_answer]
      refine (onlyTo_message hKept hMem hEntry).trans (forall_congr' fun _ => ?_)
      rw [hBinding]
      constructor
      · intro h ip' k' hOther hNe
        cases hOther
        exact h hNe
      · intro h hNe
        exact h ip j rfl hNe

/-- Everything that happens to a connection keeps the IP where the server says
it is, exactly under the condition of the event. -/
theorem kept_next {e : ForwardEvent Ct} (hTells : ∀ k', e.tells = some (p, k') → k' = k)
    (hKept : s.Kept p k) : (s.next cfg C e).Kept p k ↔ Keeps cfg C p k s e := by
  have hSilent : ∀ e : ForwardEvent Ct, e.tells = none → ((s.next cfg C e).Kept p k ↔
      ((p, k) ∈ s.told → (e.act cfg C s.client).OnlyTo p k)) := by
    intro e hNone
    refine kept_next_of_tells ?_
    simp [hNone]
  have hSame : ∀ e : ForwardEvent Ct, e.tells = none → SamePeers s.client (e.act cfg C s.client) →
      (s.next cfg C e).Kept p k :=
    fun e hNone hSame => (hSilent e hNone).mpr fun hTold => hSame.onlyTo.mpr (hKept hTold)
  cases e with
  | peerData env srcPub ct direct src =>
    refine (hSilent _ rfl).trans (forall_congr' fun hTold => ?_)
    exact onlyTo_peerData (hKept hTold)
  | notify _ peer => exact kept_notify hKept
  | answer _ info => exact kept_answer hKept hTells
  | prune now timeoutMs =>
    refine iff_of_true ((hSilent _ rfl).mpr fun hTold => ?_) trivial
    exact fewer_prunePeers.onlyTo (hKept hTold)
  | forward env netmask pkt => exact iff_of_true (hSame _ rfl samePeers_routeForward) trivial
  | send env pk pkt => exact iff_of_true (hSame _ rfl .sendData) trivial
  | timer env => exact iff_of_true (hSame _ rfl .retransmit) trivial
  | task pk f => exact iff_of_true (hSame _ rfl .update) trivial

theorem route_eq_send {netmask : String} {pkt : Bytes} (hDst : destination cfg netmask pkt = some p) :
    c.route cfg netmask pkt = .send k ↔ c.ipIndex[p]? = some k ∧ k ∈ c.peers := by
  unfold Client.route
  simp only [hDst]
  split
  · rename_i pk hEntry
    rw [hEntry]
    split
    · rename_i hThere
      constructor
      · intro h
        cases h
        exact ⟨rfl, hThere⟩
      · rintro ⟨hSame, _⟩
        cases hSame
        rfl
    · rename_i hGone
      refine ⟨fun h => Route.noConfusion h, ?_⟩
      rintro ⟨hSame, hThere⟩
      cases hSame
      exact absurd hThere hGone
  · rename_i hNone
    simp [hNone]

/-- The packets for an IP go to the peer that the server says it belongs to,
and to no other, exactly if every step of the run keeps the index to that. -/
theorem route_kept_iff (cfg : Config) (C : Crypto Ct) {netmask : String} {pkt : Bytes} {p : String}
    (hDst : destination cfg netmask pkt = some p) (k : RawKey) (c : Client Ct)
    (es : List (ForwardEvent Ct)) (hTells : ∀ e ∈ es, ∀ k', e.tells = some (p, k') → k' = k) :
    (∀ pre, pre <+: es → (p, k) ∈ ((Forwarding.machine cfg C).run { client := c } pre).told →
      ∀ k', ((Forwarding.machine cfg C).run { client := c } pre).client.route cfg netmask pkt = .send k' →
        k' = k) ↔
      ∀ pre e, pre ++ [e] <+: es → Keeps cfg C p k ((Forwarding.machine cfg C).run { client := c } pre) e := by
  have hRoute : ∀ s : Forwarding Ct, (∀ k', s.client.route cfg netmask pkt = .send k' → k' = k) ↔
      s.client.OnlyTo p k := by
    intro s
    unfold Client.OnlyTo
    simp only [route_eq_send hDst, and_imp]
  simp only [hRoute]
  refine Machine.along_run_iff_of (P := Forwarding.Kept p k)
    (L := fun e : ForwardEvent Ct => ∀ k', e.tells = some (p, k') → k' = k) ?_ ?_ es hTells
  · intro hTold
    cases hTold
  · intro s e hConsistent hKept
    exact kept_next hConsistent hKept

-- ---------------------------------------------------------------------------
-- A HELLO after a NOTIFY
-- ---------------------------------------------------------------------------

/-- A packet for 10.13.13.9. -/
def examplePkt : Bytes := [0x45] ++ List.replicate 15 0 ++ [10, 13, 13, 9]

theorem destination_examplePkt : destination aliceCfg "255.255.255.0" examplePkt = some "10.13.13.9" := by
  decide +kernel

def exampleMessageEnv : MessageEnv where
  toEnv := sampleEnv
  parseEndpoint _ := none

/-- The server tells that 10.13.13.9 is the peer of key 5. -/
def examplePeer : PeerInfo where
  publicKey := keyB64 (keyBytes 5)
  endpoint := ""
  relayRk := none
  aliasName := none
  ip := some "10.13.13.9"

theorem examplePeer_names : examplePeer.names 5 := parsePublicKey_keyB64 (by decide)

theorem examplePeer_binding : examplePeer.binding = some ("10.13.13.9", 5) :=
  PeerInfo.binding_eq_some.mpr ⟨examplePeer_names, rfl, by decide⟩

/-- Bob's HELLO, under the secret that Alice and he share, claims 10.13.13.9. -/
def greedyHello : RawKey × Nonce × Plain :=
  (symbolic.sharedSecret aliceCfg.localPriv 1, (0, 0), .hello 0 40 9 "10.13.13.9")

/-- Bob's packet reaches Alice through the relay. -/
def greedyEvent : ForwardEvent (RawKey × Nonce × Plain) := .peerData sampleEnv 1 greedyHello false 90

/-- Once the answer to a query has told Alice whose 10.13.13.9 is, Bob's HELLO
does not get its packets. -/
theorem route_kept_iff_example :
    destination aliceCfg "255.255.255.0" examplePkt = some "10.13.13.9" ∧
    (∀ e ∈ [ForwardEvent.answer exampleMessageEnv examplePeer, greedyEvent], ∀ k',
      e.tells = some ("10.13.13.9", k') → k' = 5) ∧
    ((∀ pre, pre <+: [.answer exampleMessageEnv examplePeer, greedyEvent] →
      ("10.13.13.9", 5) ∈ ((Forwarding.machine aliceCfg symbolic).run { client := aliceAlone } pre).told →
      ∀ k', ((Forwarding.machine aliceCfg symbolic).run { client := aliceAlone } pre).client.route aliceCfg
        "255.255.255.0" examplePkt = .send k' → k' = 5) ↔
      ∀ pre e, pre ++ [e] <+: [.answer exampleMessageEnv examplePeer, greedyEvent] →
        Keeps aliceCfg symbolic "10.13.13.9" 5
          ((Forwarding.machine aliceCfg symbolic).run { client := aliceAlone } pre) e) := by
  have hTells : ∀ e ∈ [ForwardEvent.answer exampleMessageEnv examplePeer, greedyEvent], ∀ k',
      e.tells = some ("10.13.13.9", k') → k' = 5 := by
    intro e he k' hTells
    rcases List.mem_pair.mp he with rfl | rfl
    · have hBinding := examplePeer_binding.symm.trans hTells
      cases hBinding
      rfl
    · cases hTells
  exact ⟨destination_examplePkt, hTells, route_kept_iff aliceCfg symbolic destination_examplePkt 5 aliceAlone
    _ hTells⟩

/-- A NOTIFY tells Alice that 10.13.13.9 is the peer of key 5, and does not enter
it into the index; Bob's HELLO claims the IP, and its packets go to Bob. -/
theorem route_captured :
    destination aliceCfg "255.255.255.0" examplePkt = some "10.13.13.9" ∧
    ("10.13.13.9", 5) ∈ ((Forwarding.machine aliceCfg symbolic).run { client := aliceAlone }
      [.notify exampleMessageEnv examplePeer, greedyEvent]).told ∧
    ((Forwarding.machine aliceCfg symbolic).run { client := aliceAlone }
      [.notify exampleMessageEnv examplePeer, greedyEvent]).client.route aliceCfg "255.255.255.0" examplePkt =
        .send 1 := by
  refine ⟨destination_examplePkt, ?_, (route_eq_send destination_examplePkt).mpr ?_⟩
  · simp [Forwarding.next, ForwardEvent.tells, greedyEvent, examplePeer_binding]
  · obtain ⟨hNotifyMem, hNotifyIndex⟩ :
        (∀ k, k ∈ (aliceAlone.handleNotify aliceCfg symbolic exampleMessageEnv examplePeer).peers ↔
          k = 5 ∨ k ∈ aliceAlone.peers) ∧
        (aliceAlone.handleNotify aliceCfg symbolic exampleMessageEnv examplePeer).ipIndex =
          aliceAlone.ipIndex := handleNotify_peers examplePeer_names
    show (handlePeerData aliceCfg symbolic sampleEnv 1 greedyHello false 90
        (aliceAlone.handleNotify aliceCfg symbolic exampleMessageEnv examplePeer)).ipIndex["10.13.13.9"]? = some 1 ∧
      1 ∈ (handlePeerData aliceCfg symbolic sampleEnv 1 greedyHello false 90
        (aliceAlone.handleNotify aliceCfg symbolic exampleMessageEnv examplePeer)).peers
    generalize aliceAlone.handleNotify aliceCfg symbolic exampleMessageEnv examplePeer = c
      at hNotifyMem hNotifyIndex
    obtain ⟨hMem, hIndex⟩ :
        (∀ k, k ∈ (handlePeerData aliceCfg symbolic sampleEnv 1 greedyHello false 90 c).peers ↔
          k = 1 ∨ k ∈ c.peers) ∧
        (handlePeerData aliceCfg symbolic sampleEnv 1 greedyHello false 90 c).ipIndex =
          claim 1 (claimedIp sampleEnv (opened aliceCfg symbolic 1 greedyHello c)) c :=
      ⟨peers_handlePeerData.1, peers_handlePeerData.2.1⟩
    refine ⟨?_, (hMem 1).mpr (.inl rfl)⟩
    -- Bob has no session yet, so his HELLO opens under the static secret
    have hStranger : c.peers[1]? = none := by
      rw [ExtTreeMap.getElem?_eq_none]
      rw [hNotifyMem]
      decide +kernel
    have hFree : c.ipIndex["10.13.13.9"]? = none := by
      rw [hNotifyIndex]
      decide +kernel
    have hOpened : opened aliceCfg symbolic 1 greedyHello c = some greedyHello.2.2 := by
      unfold opened
      rw [hStranger]
      decide +kernel
    have hClaimed : claimedIp sampleEnv (opened aliceCfg symbolic 1 greedyHello c) = some "10.13.13.9" := by
      rw [hOpened]
      decide +kernel
    rw [hIndex, getElem?_claim, if_pos ⟨hClaimed, hFree⟩]

end LinkMesh
