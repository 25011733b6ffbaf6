import LinkMesh.Client.Transport

/-!
# Indexes and pruning

`ip_index`, `rk_index` and `addr_index` find a peer by its virtual IP, its relay
routing key and its address (`linkmesh-client/src/connection.rs`). HELLOs, direct
packets, NOTIFYs and answers to queries write to them. `prune_peers` removes a
session, and of the entries of its peer the one under the session's IP and the
one under its relay routing key.

## Results

* `Covers`               — what every handler does to the indexes.
* `indexed_prunePeers`   — which entries a pruned session leaves behind.
* `pruned_indexed_iff`   — the indexes name peers only after every pruning of a
  run, iff each finds the entries of the sessions that it removes.
-/

namespace LinkMesh

open Std

variable {Ct : Type}

namespace Client

/-- A virtual IP, a relay routing key or an address is that of `pk`. -/
def Points (c : Client Ct) (pk : RawKey) : Prop :=
  (∃ ip : String, c.ipIndex[ip]? = some pk) ∨ (∃ rk : RawKey, c.rkIndex[rk]? = some pk) ∨
    ∃ addr : SocketAddr, c.addrIndex[addr]? = some pk

/-- Every value of the three indexes is a key of the peers. -/
def Indexed (c : Client Ct) : Prop := ∀ pk, c.Points pk → pk ∈ c.peers

end Client

variable {cfg : Config} {C : Crypto Ct} {timers : TimerConfig} {env : Env} {menv : MessageEnv}
  {pk k : RawKey} {peer : PeerInfo} {c c' c'' : Client Ct}

-- ---------------------------------------------------------------------------
-- What handlers enter into the indexes
-- ---------------------------------------------------------------------------

/-- No session goes, and who is new in an index has a session. -/
structure Covers (c c' : Client Ct) : Prop where
  mem : ∀ k, k ∈ c.peers → k ∈ c'.peers
  points : ∀ k, c'.Points k → c.Points k ∨ k ∈ c'.peers

namespace Covers

theorem indexed (h : Covers c c') (hIndexed : c.Indexed) : c'.Indexed := by
  intro k hPoints
  rcases h.points k hPoints with hOld | hNew
  · exact h.mem k (hIndexed k hOld)
  · exact hNew

theorem refl : Covers c c := ⟨fun _ => id, fun _ => .inl⟩

theorem trans (h : Covers c c') (h' : Covers c' c'') : Covers c c'' := by
  refine ⟨fun k hk => h'.mem k (h.mem k hk), fun k hPoints => ?_⟩
  rcases h'.points k hPoints with hMid | hNew
  · exact (h.points k hMid).imp_right (h'.mem k)
  · exact .inr hNew

/-- What needs the session of a peer, which is there already. -/
theorem andThen (h : Covers c c') (hMem : pk ∈ c.peers) (h' : pk ∈ c'.peers → Covers c' c'') : Covers c c'' :=
  h.trans (h' (h.mem pk hMem))

theorem update {f : PeerSession → PeerSession} : Covers c (c.update pk f) :=
  ⟨fun _ => ExtTreeMap.mem_modify.mpr, fun _ => .inl⟩

theorem draw : Covers c (c.draw env).2 := ⟨fun _ => id, fun _ => .inl⟩

theorem sendTo (env : Env) {addr : SocketAddr} {dg : Datagram Ct} : Covers c (c.sendTo env addr dg).1 :=
  ⟨fun _ => id, fun _ => .inl⟩

theorem of_sends (h : Sends pk c c') : Covers c c' := by
  have hSame : SamePeers c c' := .of_sends h
  refine ⟨fun k => (hSame.mem k).mpr, fun k hPoints => .inl ?_⟩
  unfold Client.Points at hPoints ⊢
  rw [h.ipIndex, h.rkIndex, h.addrIndex] at hPoints
  exact hPoints

theorem foldl {α : Type} {f : Client Ct → α → Client Ct} (h : ∀ c a, Covers c (f c a)) (as : List α) :
    Covers c (as.foldl f c) := by
  induction as generalizing c with
  | nil => exact .refl
  | cons a as ih => exact (h c a).trans ih

theorem locked {α : Type} {f : DataPlane → DataPlane × α} : Covers c (c.locked pk f).1 := by
  unfold Client.locked
  split
  · exact .refl
  · exact .update

-- ---------------------------------------------------------------------------
-- Sending
-- ---------------------------------------------------------------------------

theorem sendSection {f : DataPlane → DataPlane × Option Sealing} : Covers c (sendSection cfg C env pk f c) :=
  locked.trans (of_sends sends_transmit)

theorem sendData {payload : Bytes} : Covers c (sendData cfg C env pk payload c) := by
  have hQuery : Covers c (requery env pk c) := of_sends sends_requery
  have hDraw : Covers c ((requery env pk c).draw env).2 := hQuery.trans draw
  unfold LinkMesh.sendData
  exact (hDraw.trans sendSection).trans sendSection

theorem sendAck {ack : Nat} : Covers c (sendAck cfg C env pk ack c) := by
  have hDraw : Covers c (c.draw env).2 := draw
  unfold LinkMesh.sendAck
  exact hDraw.trans (of_sends sends_transmit)

theorem retransmit : Covers c (retransmit cfg C env c) := by
  refine foldl (fun c pk => ?_) _
  split
  · exact .refl
  · exact foldl (fun _ _ => sendSection) _

theorem flushPending : Covers c (flushPending cfg C env pk c) := by
  unfold LinkMesh.flushPending
  dsimp only
  exact locked.trans (foldl (fun _ _ => sendData) _)

theorem relayHello : Covers c (relayHello cfg C env pk c) := by
  have hDraw : Covers c (c.draw env).2 := draw
  unfold LinkMesh.relayHello
  dsimp only
  split
  · exact hDraw.trans (of_sends sends_relaySend)
  · exact hDraw

theorem relayKeepalive : Covers c (relayKeepalive cfg C env c) := by
  refine foldl (fun c pk => ?_) _
  split
  · exact .refl
  · split
    · exact .refl
    · exact .relayHello

theorem rekeyDue : Covers c (rekeyDue cfg C timers env c) := by
  unfold LinkMesh.rekeyDue
  split
  · exact .refl
  · refine foldl (fun c pk => ?_) _
    have hDraw : Covers c (c.draw env).2 := draw
    split
    · exact .refl
    · split
      · exact hDraw.trans .sendSection
      · exact .refl

theorem routeForward {netmask : String} {pkt : Bytes} : Covers c (c.routeForward cfg C env netmask pkt) := by
  unfold Client.routeForward
  split
  · exact .refl
  · exact .sendData
  · exact ⟨fun _ => id, fun _ => .inl⟩

-- ---------------------------------------------------------------------------
-- The entries of a peer with a session
-- ---------------------------------------------------------------------------

theorem insertIp {ip : String} (hMem : pk ∈ c.peers) :
    Covers c { c with ipIndex := c.ipIndex.insert ip pk } := by
  refine ⟨fun _ => id, ?_⟩
  rintro k (⟨ip', hk⟩ | hOther)
  · rcases KeyMap.insert_cases hk with ⟨_, rfl⟩ | hOld
    · exact .inr hMem
    · exact .inl (.inl ⟨ip', hOld⟩)
  · exact .inl (.inr hOther)

theorem insertRk {rk : RawKey} (hMem : pk ∈ c.peers) :
    Covers c { c with rkIndex := c.rkIndex.insert rk pk } := by
  refine ⟨fun _ => id, ?_⟩
  rintro k (hIp | ⟨rk', hk⟩ | hAddr)
  · exact .inl (.inl hIp)
  · rcases KeyMap.insert_cases hk with ⟨_, rfl⟩ | hOld
    · exact .inr hMem
    · exact .inl (.inr (.inl ⟨rk', hOld⟩))
  · exact .inl (.inr (.inr hAddr))

theorem insertAddr {addr : SocketAddr} (hMem : pk ∈ c.peers) :
    Covers c { c with addrIndex := c.addrIndex.insert addr pk } := by
  refine ⟨fun _ => id, ?_⟩
  rintro k (hIp | hRk | ⟨addr', hk⟩)
  · exact .inl (.inl hIp)
  · exact .inl (.inr (.inl hRk))
  · rcases KeyMap.insert_cases hk with ⟨_, rfl⟩ | hOld
    · exact .inr hMem
    · exact .inl (.inr (.inr ⟨addr', hOld⟩))

theorem bindIp {ip : String} (hMem : pk ∈ c.peers) : Covers c (bindIp env pk ip c) := by
  unfold LinkMesh.bindIp bindIpOwnership
  split
  · split
    · split
      · exact insertIp hMem
      · exact .refl
    · exact insertIp hMem
  · exact .refl

theorem noteRelayRk {relayRk : Option String} (hMem : pk ∈ c.peers) : Covers c (c.noteRelayRk pk relayRk) := by
  unfold Client.noteRelayRk
  split
  · rename_i rk _
    have hKnown : Covers c (c.update pk fun s => { s with peerRelayRk := some rk }) := update
    exact hKnown.andThen hMem insertRk
  · exact .refl

theorem noteEndpoint {endpoint : Option SocketAddr} (hMem : pk ∈ c.peers) :
    Covers c (c.noteEndpoint pk endpoint) := by
  unfold Client.noteEndpoint
  split
  · rename_i ep
    have hKnown : Covers c (c.update pk fun s => { s with endpoint := some (s.endpoint.getD ep) }) := update
    exact hKnown.andThen hMem insertAddr
  · exact .refl

theorem getOrCreateSession {ip : String} {shared : RawKey} {endpoint : Option SocketAddr} :
    Covers c (getOrCreateSession C env pk ip shared endpoint c) := by
  refine ⟨fun k hk => mem_getOrCreateSession.mpr (.inr hk), fun k hPoints => .inl ?_⟩
  unfold LinkMesh.getOrCreateSession at hPoints
  split at hPoints
  · exact hPoints
  · exact hPoints

-- ---------------------------------------------------------------------------
-- Handlers
-- ---------------------------------------------------------------------------

theorem answerHello {ip : String} {isFirst : Bool} {hello : Option Sealing} (hMem : pk ∈ c.peers) :
    Covers c (answerHello cfg C env pk ip isFirst hello c) := by
  have hNoted : Covers c (c.update pk fun s => { s with
      ip := if isFirst then ip else s.ip, lastSeen := env.now }) := update
  unfold LinkMesh.answerHello
  exact (hNoted.andThen hMem bindIp).trans (of_sends sends_sendReply)

theorem handleHello {rk : RawKey} {salt : Salt} {ip : String} (hMem : pk ∈ c.peers) :
    Covers c (handleHello cfg C env pk rk salt ip c) := by
  have hSection : Covers c ((c.draw env).2.locked pk
      (DataPlane.handleHello cfg C env.now (c.draw env).1 rk salt)).1 := draw.trans locked
  unfold LinkMesh.handleHello
  dsimp only
  split
  · exact hSection
  · unfold afterHello
    dsimp only
    split
    · exact (hSection.andThen hMem answerHello).trans flushPending
    · exact hSection.andThen hMem answerHello

theorem handleData {direct : Bool} {epoch seq : Nat} {payload : Bytes} :
    Covers c (handleData cfg C env pk direct epoch seq payload c) := by
  have hCounted : ∀ (c : Client Ct) (f : PeerSession → PeerSession) (n : Nat) (tun : List Bytes),
      Covers c { c.update pk f with rxBytes := n, tun := tun } :=
    fun _ _ _ _ => ⟨fun _ => ExtTreeMap.mem_modify.mpr, fun _ => .inl⟩
  unfold LinkMesh.handleData
  dsimp only
  split
  · exact (locked.trans (hCounted _ _ _ _)).trans .sendAck
  · exact locked

theorem dispatch {direct : Bool} (hMem : pk ∈ c.peers) (q : Plain) :
    Covers c (dispatch cfg C env pk direct c q) := by
  match q with
  | .hello .. => exact handleHello hMem
  | .rekey .. => exact locked
  | .ack .. => exact update
  | .data .. => exact handleData
  | .malformed => exact .refl
  | .short => exact .refl

theorem greetStranger {direct : Bool} {src : SocketAddr} : Covers c (greetStranger cfg C env pk direct src c) := by
  have hSession : Covers c (LinkMesh.getOrCreateSession C env pk "" (C.sharedSecret cfg.localPriv pk) none c) :=
    getOrCreateSession
  unfold LinkMesh.greetStranger
  split
  · exact .refl
  · dsimp only
    split
    · have hMem : pk ∈ (LinkMesh.getOrCreateSession C env pk "" (C.sharedSecret cfg.localPriv pk) none c).peers :=
        mem_getOrCreateSession.mpr (.inl rfl)
      exact hSession.trans (update.andThen hMem insertAddr)
    · exact hSession.trans relayHello

theorem noteDirect {src : SocketAddr} (hMem : pk ∈ c.peers) : Covers c (noteDirect cfg env pk src c) := by
  have hHeard : Covers c (c.update pk (heardDirect cfg env src)) := update
  exact hHeard.andThen hMem insertAddr

theorem handlePeerData {ct : Ct} {direct : Bool} {src : SocketAddr} :
    Covers c (handlePeerData cfg C env pk ct direct src c) := by
  have hGreeted : Covers c (LinkMesh.greetStranger cfg C env pk direct src c) := greetStranger
  have hMem : pk ∈ (LinkMesh.greetStranger cfg C env pk direct src c).peers := mem_greetStranger.mpr (.inl rfl)
  have hNoted : Covers c (if direct then LinkMesh.noteDirect cfg env pk src
      (LinkMesh.greetStranger cfg C env pk direct src c) else LinkMesh.greetStranger cfg C env pk direct src c) := by
    split
    · exact hGreeted.trans (noteDirect hMem)
    · exact hGreeted
  unfold LinkMesh.handlePeerData
  dsimp only
  split
  · exact hNoted
  · rename_i s hs
    have hThere := SeqMap.mem_iff.mpr ⟨s, hs⟩
    split
    · exact hNoted
    · exact hNoted
    · split
      · exact (hNoted.trans update).trans (dispatch (ExtTreeMap.mem_modify.mpr hThere) _)
      · exact hNoted.trans (dispatch hThere _)

theorem handleUdp {src : SocketAddr} {pkt : Datagram Ct} : Covers c (handleUdp cfg C env src pkt c) := by
  have hSubframe : ∀ (c : Client Ct) sf, Covers c (handleSubframe cfg C env src c sf) := by
    intro c sf
    unfold handleSubframe
    split
    · exact .refl
    · exact .handlePeerData
  unfold LinkMesh.handleUdp
  split
  · split
    · exact .refl
    · exact .handlePeerData
  · split
    · exact .refl
    · split
      · exact .handlePeerData
      · exact .refl
  · split
    · exact .refl
    · exact foldl hSubframe _
  · split
    · exact .handlePeerData
    · exact .refl

theorem handleNotify : Covers c (c.handleNotify cfg C menv peer) := by
  unfold Client.handleNotify
  split
  · exact .refl
  · rename_i pk _
    have hSession : Covers c (LinkMesh.getOrCreateSession C menv.toEnv pk "" (C.sharedSecret cfg.localPriv pk)
        (menv.parseEndpoint peer.endpoint) c) := getOrCreateSession
    have hMem : pk ∈ (LinkMesh.getOrCreateSession C menv.toEnv pk "" (C.sharedSecret cfg.localPriv pk)
        (menv.parseEndpoint peer.endpoint) c).peers := mem_getOrCreateSession.mpr (.inl rfl)
    exact hSession.trans ((noteEndpoint hMem).andThen hMem noteRelayRk)

theorem queryAnswered : Covers c (c.queryAnswered cfg C menv peer) := by
  unfold Client.queryAnswered
  split
  · exact .refl
  · dsimp only
    split
    · exact .refl
    · rename_i pk _ _
      have hSession : Covers c (LinkMesh.getOrCreateSession C menv.toEnv pk (peer.ip.getD "")
          (C.sharedSecret cfg.localPriv pk) (menv.parseEndpoint peer.endpoint) c) := getOrCreateSession
      have hMem : pk ∈ (LinkMesh.getOrCreateSession C menv.toEnv pk (peer.ip.getD "")
          (C.sharedSecret cfg.localPriv pk) (menv.parseEndpoint peer.endpoint) c).peers :=
        mem_getOrCreateSession.mpr (.inl rfl)
      generalize LinkMesh.getOrCreateSession C menv.toEnv pk (peer.ip.getD "") (C.sharedSecret cfg.localPriv pk)
        (menv.parseEndpoint peer.endpoint) c = c₁ at hSession hMem
      refine hSession.trans ((andThen ?_ hMem insertIp).andThen hMem noteRelayRk)
      -- the address of the answer, where it parses
      split
      · exact insertAddr hMem
      · exact .refl

end Covers

namespace Punching

variable {p : Punching Ct} {t : PunchTask Ct}

theorem covers_change {f : PeerSession → PeerSession} : Covers p.client (p.change t f).client := by
  unfold change
  split
  · exact .update
  · exact .refl

/-- A punching task changes sessions in place, and sends. -/
theorem covers_punch {probeError : Bool} : Covers p.client (punch cfg C timers env t probeError p).1.client := by
  unfold punch
  split
  · unfold begin
    split
    · exact .refl
    · split
      · exact Covers.update.trans .relayHello
      · exact .refl
  · split
    · exact .refl
    · exact .refl
  · have hDraw : Covers p.client (p.client.draw env).2 := .draw
    unfold greet
    dsimp only
    split
    · exact hDraw.trans (.sendTo env)
    · exact hDraw
  · have hCounted : ∀ f, Covers p.client (if probeError then p.change t f else p).client := by
      intro f
      split
      · exact covers_change
      · exact .refl
    exact (hCounted _).trans (.sendTo env)
  · exact covers_change
  · exact covers_change
  · exact .refl

/-- Whatever happens to a connection, except for a pruning. -/
theorem covers_next {e : PunchEvent Ct} (hOther : ∀ now, e ≠ .prune now) :
    Covers p.client (p.next cfg C timers e).client := by
  unfold next
  cases e with dsimp only
  | datagram => exact .handleUdp
  | notify => exact .handleNotify
  | answer => exact .queryAnswered
  | forward => exact .routeForward
  | send => exact .sendData
  | prune now => exact absurd rfl (hOther now)
  | rekey => exact .rekeyDue
  | keepalive => exact .relayKeepalive
  | timer => exact .retransmit
  | punch env i probeError =>
    split
    · exact .refl
    · exact covers_punch

end Punching

-- ---------------------------------------------------------------------------
-- What a pruning leaves
-- ---------------------------------------------------------------------------

namespace Client

theorem getElem?_peers_removePeer : (c.removePeer pk).peers[k]? = if k = pk then none else c.peers[k]? := by
  unfold removePeer
  split
  · rename_i hNone
    split
    · rename_i hk
      rw [hk, hNone]
    · rfl
  · exact KeyMap.getElem?_erase

theorem addrIndex_removePeer : (c.removePeer pk).addrIndex = c.addrIndex := by
  unfold removePeer
  split <;> rfl

/-- Of its entries in `ip_index` a removed peer loses that of its session's IP. -/
theorem getElem?_ipIndex_removePeer {ip : String} : (c.removePeer pk).ipIndex[ip]? = some k ↔
    c.ipIndex[ip]? = some k ∧ ¬ (k = pk ∧ ∃ s, c.peers[pk]? = some s ∧ s.ip = ip ∧ ip ≠ "") := by
  unfold removePeer
  split
  · rename_i hNone
    simp [hNone]
  · rename_i s hs
    dsimp only
    simp only [hs, Option.some.injEq, exists_eq_left']
    by_cases hIp : s.ip = ""
    · simp only [hIp, ne_eq, not_true_eq_false, false_and, if_false]
      grind
    · simp only [ne_eq, hIp, not_false_eq_true, true_and]
      rw [KeyMap.getElem?_erase_owned]
      grind

theorem getElem?_rkIndex_removePeer {rk : RawKey} : (c.removePeer pk).rkIndex[rk]? = some k ↔
    c.rkIndex[rk]? = some k ∧ ¬ (k = pk ∧ ∃ s, c.peers[pk]? = some s ∧ s.peerRelayRk = some rk) := by
  unfold removePeer
  split
  · rename_i hNone
    simp [hNone]
  · rename_i s hs
    dsimp only
    simp only [hs, Option.some.injEq, exists_eq_left']
    split
    · rename_i rk' hRk
      rw [KeyMap.getElem?_erase_owned, hRk, Option.some.injEq]
    · rename_i hNone
      simp [hNone]

/-- One removal after the other: the entries that stay are those that no removal takes. -/
theorem removed (dead : List RawKey) (c : Client Ct) :
    (∀ k : RawKey, (dead.foldl (fun c pk => c.removePeer pk) c).peers[k]? =
      if k ∈ dead then none else c.peers[k]?) ∧
    (dead.foldl (fun c pk => c.removePeer pk) c).addrIndex = c.addrIndex ∧
    (∀ (ip : String) (k : RawKey), (dead.foldl (fun c pk => c.removePeer pk) c).ipIndex[ip]? = some k ↔
      c.ipIndex[ip]? = some k ∧ ¬ (k ∈ dead ∧ ∃ s, c.peers[k]? = some s ∧ s.ip = ip ∧ ip ≠ "")) ∧
    (∀ rk k : RawKey, (dead.foldl (fun c pk => c.removePeer pk) c).rkIndex[rk]? = some k ↔
      c.rkIndex[rk]? = some k ∧ ¬ (k ∈ dead ∧ ∃ s, c.peers[k]? = some s ∧ s.peerRelayRk = some rk)) := by
  induction dead generalizing c with
  | nil => simp
  | cons pk dead ih =>
    obtain ⟨hPeers, hAddr, hIp, hRk⟩ := ih (c.removePeer pk)
    simp only [List.foldl_cons]
    refine ⟨fun k => ?_, hAddr.trans addrIndex_removePeer, fun ip k => ?_, fun rk k => ?_⟩
    · rw [hPeers, getElem?_peers_removePeer]
      by_cases hk : k = pk <;> simp [hk]
    · rw [hIp, getElem?_ipIndex_removePeer, getElem?_peers_removePeer]
      by_cases hk : k = pk <;> simp [hk]
    · rw [hRk, getElem?_rkIndex_removePeer, getElem?_peers_removePeer]
      by_cases hk : k = pk <;> simp [hk]

/-- A pruning finds everything that the indexes say of the peer: no address, and
nothing but the session's IP and relay routing key. -/
structure Traced (c : Client Ct) (pk : RawKey) (s : PeerSession) : Prop where
  addr : ∀ addr : SocketAddr, c.addrIndex[addr]? ≠ some pk
  ip : ∀ ip : String, c.ipIndex[ip]? = some pk → s.ip = ip ∧ ip ≠ ""
  rk : ∀ rk : RawKey, c.rkIndex[rk]? = some pk → s.peerRelayRk = some rk

variable {now : Instant} {timeoutMs : Nat}

/-- The indexes name peers only after a pruning, exactly if it finds all entries
of the sessions that it removes. -/
theorem indexed_prunePeers (hIndexed : c.Indexed) : (c.prunePeers now timeoutMs).Indexed ↔
    ∀ (pk : RawKey) s, c.peers[pk]? = some s → isDead now timeoutMs s = true → c.Traced pk s := by
  have hDead : ∀ k : RawKey, k ∈ (c.peers.toList.filter fun e => isDead now timeoutMs e.2).map Prod.fst ↔
      ∃ s, c.peers[k]? = some s ∧ isDead now timeoutMs s = true := by
    intro k
    simp only [List.mem_map, List.mem_filter, Prod.exists, ExtTreeMap.mem_toList_iff_getElem?_eq_some]
    constructor
    · rintro ⟨k', s, h, rfl⟩
      exact ⟨s, h⟩
    · rintro ⟨s, h⟩
      exact ⟨k, s, h, rfl⟩
  obtain ⟨hPeers, hAddr, hIp, hRk⟩ :=
    removed ((c.peers.toList.filter fun e => isDead now timeoutMs e.2).map Prod.fst) c
  simp only [hDead] at hPeers hIp hRk
  change (∀ k, (c.prunePeers now timeoutMs).peers[k]? = _) at hPeers
  change (c.prunePeers now timeoutMs).addrIndex = _ at hAddr
  change (∀ ip k, (c.prunePeers now timeoutMs).ipIndex[ip]? = _ ↔ _) at hIp
  change (∀ rk k, (c.prunePeers now timeoutMs).rkIndex[rk]? = _ ↔ _) at hRk
  generalize c.prunePeers now timeoutMs = c' at hPeers hAddr hIp hRk ⊢
  constructor
  · intro hAfter pk s hs hGone
    have hNobody : ¬ c'.Points pk := by
      intro hPoints
      obtain ⟨s', hs'⟩ := SeqMap.mem_iff.mp (hAfter pk hPoints)
      rw [hPeers, if_pos ⟨s, hs, hGone⟩] at hs'
      cases hs'
    unfold Points at hNobody
    refine ⟨fun addr hEntry => ?_, fun ip hEntry => ?_, fun rk hEntry => ?_⟩
    · exact hNobody (.inr (.inr ⟨addr, by rw [hAddr, hEntry]⟩))
    · by_contra hMissed
      refine hNobody (.inl ⟨ip, (hIp ip pk).mpr ⟨hEntry, ?_⟩⟩)
      rintro ⟨_, s', hs', hFound⟩
      cases hs.symm.trans hs'
      exact hMissed hFound
    · by_contra hMissed
      refine hNobody (.inr (.inl ⟨rk, (hRk rk pk).mpr ⟨hEntry, ?_⟩⟩))
      rintro ⟨_, s', hs', hFound⟩
      cases hs.symm.trans hs'
      exact hMissed hFound
  · intro hTraced pk hPoints
    have hStays : pk ∈ c.peers → (∀ s, c.peers[pk]? = some s → isDead now timeoutMs s = true → False) →
        pk ∈ c'.peers := by
      intro hMem hAlive
      rw [SeqMap.mem_iff, hPeers, if_neg]
      · exact SeqMap.mem_iff.mp hMem
      · rintro ⟨s, hs, hGone⟩
        exact hAlive s hs hGone
    rcases hPoints with ⟨ip, hEntry⟩ | ⟨rk, hEntry⟩ | ⟨addr, hEntry⟩
    · obtain ⟨hOld, hKept⟩ := (hIp ip pk).mp hEntry
      refine hStays (hIndexed pk (.inl ⟨ip, hOld⟩)) fun s hs hGone => ?_
      refine hKept ⟨⟨s, hs, hGone⟩, s, hs, ?_⟩
      exact (hTraced pk s hs hGone).ip ip hOld
    · obtain ⟨hOld, hKept⟩ := (hRk rk pk).mp hEntry
      refine hStays (hIndexed pk (.inr (.inl ⟨rk, hOld⟩))) fun s hs hGone => ?_
      refine hKept ⟨⟨s, hs, hGone⟩, s, hs, ?_⟩
      exact (hTraced pk s hs hGone).rk rk hOld
    · rw [hAddr] at hEntry
      refine hStays (hIndexed pk (.inr (.inr ⟨addr, hEntry⟩))) fun s hs hGone => ?_
      exact (hTraced pk s hs hGone).addr addr hEntry

end Client

-- ---------------------------------------------------------------------------
-- Every run
-- ---------------------------------------------------------------------------

namespace Punching

/--
**Indexes after a pruning.** In every run of a connection that starts with no
session and empty indexes, `ip_index`, `rk_index` and `addr_index` name peers
only after every pruning, exactly if every pruning finds all entries of the
sessions that it removes: a peer that is pruned has no address in `addr_index`,
and in the others no entry but under the current IP and relay routing key of its
session.
-/
theorem pruned_indexed_iff (cfg : Config) (C : Crypto Ct) (timers : TimerConfig) {p : Punching Ct}
    (hIp : p.client.ipIndex = ∅) (hRk : p.client.rkIndex = ∅) (hAddr : p.client.addrIndex = ∅)
    (es : List (PunchEvent Ct)) :
    (∀ pre now, pre ++ [.prune now] <+: es →
      ((machine cfg C timers).run p (pre ++ [.prune now])).client.Indexed) ↔
    ∀ pre now, pre ++ [.prune now] <+: es →
      ∀ (pk : RawKey) s, ((machine cfg C timers).run p pre).client.peers[pk]? = some s →
        Client.isDead now timers.punchTimeoutMs s = true →
        ((machine cfg C timers).run p pre).client.Traced pk s := by
  have hStart : p.client.Indexed := by
    rintro pk (⟨ip, h⟩ | ⟨rk, h⟩ | ⟨addr, h⟩)
    · simp [hIp] at h
    · simp [hRk] at h
    · simp [hAddr] at h
  have hSteps := Machine.after_steps_iff (M := machine cfg C timers) (P := fun p => p.client.Indexed)
    (G := fun p e => ∀ now, e = .prune now → ∀ (pk : RawKey) s, p.client.peers[pk]? = some s →
      Client.isDead now timers.punchTimeoutMs s = true → p.client.Traced pk s)
    (L := fun e => ∃ now, e = .prune now) hStart ?_ ?_ es
  · constructor
    · intro h pre now hPre
      refine hSteps.mp ?_ pre _ hPre ⟨now, rfl⟩ now rfl
      rintro pre' _ hPre' ⟨now', rfl⟩
      exact h pre' now' hPre'
    · intro h pre now hPre
      refine hSteps.mpr ?_ pre _ hPre ⟨now, rfl⟩
      rintro pre' _ hPre' _ now' rfl
      exact h pre' now' hPre'
  · intro p e hOther hIndexed
    refine (covers_next fun now h => hOther ⟨now, h⟩).indexed hIndexed
  · rintro p _ ⟨now, rfl⟩ hIndexed
    simp only [PunchEvent.prune.injEq, forall_eq']
    exact Client.indexed_prunePeers hIndexed

/-- The server tells Alice the address of a peer that never answers. -/
def exampleSilence : List (PunchEvent (RawKey × Nonce × Plain)) :=
  [.notify { exampleMessageEnv with parseEndpoint := fun _ => some 50 } examplePeer, .prune 20200]

/-- For this run: what the indexes hold after its pruning, and what they held before. -/
theorem pruned_indexed_iff_example :
    (∀ pre now, pre ++ [.prune now] <+: exampleSilence →
      ((machine aliceCfg symbolic exampleTimers).run { client := aliceAlone, tasks := [], orphans := [] }
        (pre ++ [.prune now])).client.Indexed) ↔
    ∀ pre now, pre ++ [.prune now] <+: exampleSilence →
      ∀ (pk : RawKey) s, ((machine aliceCfg symbolic exampleTimers).run
          { client := aliceAlone, tasks := [], orphans := [] } pre).client.peers[pk]? = some s →
        Client.isDead now exampleTimers.punchTimeoutMs s = true →
        ((machine aliceCfg symbolic exampleTimers).run
          { client := aliceAlone, tasks := [], orphans := [] } pre).client.Traced pk s :=
  pruned_indexed_iff aliceCfg symbolic exampleTimers rfl rfl rfl exampleSilence

/-- Its session is pruned, and `addr_index` still names it. -/
theorem pruned_unindexed : ∃ pre now, exampleSilence = pre ++ [.prune now] ∧
    ¬ ((machine aliceCfg symbolic exampleTimers).run { client := aliceAlone, tasks := [], orphans := [] }
      exampleSilence).client.Indexed := by
  refine ⟨[.notify { exampleMessageEnv with parseEndpoint := fun _ => some 50 } examplePeer], 20200, rfl, ?_⟩
  intro hIndexed
  have hEntry : ((machine aliceCfg symbolic exampleTimers).run
      { client := aliceAlone, tasks := [], orphans := [] } exampleSilence).client.addrIndex[50]? = some 5 := by
    decide +kernel
  have hGone : 5 ∉ ((machine aliceCfg symbolic exampleTimers).run
      { client := aliceAlone, tasks := [], orphans := [] } exampleSilence).client.peers := by
    decide +kernel
  exact hGone (hIndexed 5 (.inr (.inr ⟨50, hEntry⟩)))

end Punching

end LinkMesh
