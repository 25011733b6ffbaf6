import LinkMesh.Client.Forward

/-!
# Relay-only mode

Over which transport a client reaches its peers (`linkmesh-client/src/connection.rs`).
Every handler picks the destination of what it sends by itself, and beside the
handlers the punching tasks send HELLOs and the timers rekey, keep alive and
retransmit. A handler is one step, and a punching task takes one between two of
its locks. A session that is pruned lives on in the tasks that hold it.

## Results

* `transportOk_next` — every step keeps sessions and destinations in order.
* `relay_only`       — without punching everything goes to the relay, and a
  session is direct only with an endpoint and a direct packet.
-/

namespace LinkMesh

open Std

variable {Ct : Type}

-- ---------------------------------------------------------------------------
-- Timers
-- ---------------------------------------------------------------------------

/-- The limits of the timers and of the punching tasks. -/
structure TimerConfig where
  punchTimeoutMs : Nat
  punchMaxRetries : Nat
  punchMaxErrors : Nat
  rekeyEverySecs : Nat

section Timers

variable (cfg : Config) (C : Crypto Ct) (timers : TimerConfig) (env : Env)

/-- A HELLO of the session of `pk`, through the relay. -/
def relayHello (pk : RawKey) (c : Client Ct) : Client Ct :=
  let (d, c) := c.draw env
  match c.peers[pk]?.bind fun s => s.buildHelloCt cfg d with
  | some hello => relaySend cfg C env pk (hello.ct C) c
  | none => c

def relayKeepalive (c : Client Ct) : Client Ct :=
  c.peers.keys.foldl (fun c pk =>
    match c.peers[pk]? with
    | none => c
    | some s => if s.transport = .direct then c else relayHello cfg C env pk c) c

/-- The rotation by time, in the heartbeat. -/
def rekeyDue (c : Client Ct) : Client Ct :=
  if timers.rekeyEverySecs = 0 then c
  else
    c.peers.keys.foldl (fun c pk =>
      match c.peers[pk]? with
      | none => c
      | some s =>
        if s.established ∧ timers.rekeyEverySecs * 1000 ≤ env.now - s.lastRekey then
          let (d, c) := c.draw env
          sendSection cfg C env pk (DataPlane.maybeRekey cfg C env.now d) c
        else c) c

end Timers

-- ---------------------------------------------------------------------------
-- Punching
-- ---------------------------------------------------------------------------

/-- Where a punching task is. -/
inductive PunchPhase (Ct : Type) where
  | spawned
  | asleep
  | greeting (ep : SocketAddr)
  /-- the HELLO is out to the endpoint, and the endpoint is probed -/
  | probing (hello : Ct)
  | counting
  | givingUp
  | over

structure PunchTask (Ct : Type) where
  pk : RawKey
  start : Instant := 0
  phase : PunchPhase Ct := .spawned
  /-- the orphan that it holds, once its session is pruned -/
  held : Option Nat := none

/-- A connection with its punching tasks. -/
structure Punching (Ct : Type) where
  client : Client Ct
  tasks : List (PunchTask Ct)
  /-- the sessions that were pruned -/
  orphans : List PeerSession

namespace Punching

/-- The session that a task works on. -/
def session (t : PunchTask Ct) (p : Punching Ct) : Option PeerSession :=
  match t.held with
  | none => p.client.peers[t.pk]?
  | some i => p.orphans[i]?

def change (t : PunchTask Ct) (f : PeerSession → PeerSession) (p : Punching Ct) : Punching Ct :=
  match t.held with
  | none => { p with client := p.client.update t.pk f }
  | some i => { p with orphans := p.orphans.modify i f }

section Step

variable (cfg : Config) (C : Crypto Ct) (timers : TimerConfig) (env : Env)

/-- The task finds its session. With punching disabled all it does is relay a HELLO. -/
def begin (t : PunchTask Ct) (p : Punching Ct) : Punching Ct × PunchTask Ct :=
  match p.client.peers[t.pk]? with
  | none => (p, { t with phase := .over })
  | some _ =>
    if !cfg.holePunchEnabled then
      let c := p.client.update t.pk fun s => { s with transport := .relay }
      ({ p with client := relayHello cfg C env t.pk c }, { t with phase := .over })
    else (p, { t with phase := .asleep, start := env.now })

/-- What the task does next, by the state of its session. -/
def look (t : PunchTask Ct) (s : PeerSession) : PunchPhase Ct :=
  match s.transport with
  | .direct => .over
  | .relay => .over
  | .punching =>
    if timers.punchMaxRetries ≤ s.attempts ∨ timers.punchMaxErrors ≤ s.errorCount ∨
        timers.punchTimeoutMs ≤ env.now - t.start then .givingUp
    else
      match s.endpoint with
      | some ep => .greeting ep
      | none => .counting

/-- A HELLO straight to the endpoint. -/
def greet (t : PunchTask Ct) (ep : SocketAddr) (p : Punching Ct) : Punching Ct × PunchTask Ct :=
  let (d, c) := p.client.draw env
  match (p.session t).bind fun s => s.buildHelloCt cfg d with
  | some hello =>
    ({ p with client := (c.sendTo env ep (.direct (hello.ct C))).1 },
      { t with phase := .probing (hello.ct C) })
  | none => ({ p with client := c }, { t with phase := .counting })

/-- The same HELLO through the relay. -/
def relayProbe (t : PunchTask Ct) (hello : Ct) (probeError : Bool) (p : Punching Ct) : Punching Ct :=
  let p := if probeError then p.change t fun s => { s with errorCount := s.errorCount + 1 } else p
  { p with client := (p.client.sendTo env cfg.relayAddr (.relay t.pk cfg.localPub hello)).1 }

/-- The next step of a punching task. -/
def punch (t : PunchTask Ct) (probeError : Bool) (p : Punching Ct) : Punching Ct × PunchTask Ct :=
  match t.phase with
  | .spawned => begin cfg C env t p
  | .asleep =>
    match p.session t with
    | none => (p, { t with phase := .over })
    | some s => (p, { t with phase := look timers env t s })
  | .greeting ep => greet cfg C env t ep p
  | .probing hello => (relayProbe cfg env t hello probeError p, { t with phase := .counting })
  | .counting => (p.change t fun s => { s with attempts := s.attempts + 1 }, { t with phase := .asleep })
  | .givingUp => (p.change t fun s => { s with transport := .relay }, { t with phase := .over })
  | .over => (p, t)

end Step

/-- The tasks keep the sessions that are removed. -/
def hold (removed : List (RawKey × PeerSession)) (n : Nat) (t : PunchTask Ct) : PunchTask Ct :=
  match t.phase, t.held with
  | .spawned, _ => t
  | _, some _ => t
  | _, none => { t with held := (removed.findIdx? fun e => e.1 = t.pk).map (n + ·) }

def prune (timers : TimerConfig) (now : Instant) (p : Punching Ct) : Punching Ct :=
  let client := p.client.prunePeers now timers.punchTimeoutMs
  let removed := p.client.peers.toList.filter fun e => e.1 ∉ client.peers
  { client
    tasks := p.tasks.map (hold removed p.orphans.length)
    orphans := p.orphans ++ removed.map Prod.snd }

end Punching

-- ---------------------------------------------------------------------------
-- Runs
-- ---------------------------------------------------------------------------

/-- What happens to a connection and its tasks. -/
inductive PunchEvent (Ct : Type) where
  | datagram (env : Env) (src : SocketAddr) (pkt : Datagram Ct)
  | notify (env : MessageEnv) (peer : PeerInfo)
  | answer (env : MessageEnv) (info : PeerInfo)
  /-- a packet of the TUN -/
  | forward (env : Env) (netmask : String) (pkt : Bytes)
  /-- a packet that waited for an answer -/
  | send (env : Env) (pk : RawKey) (pkt : Bytes)
  | prune (now : Instant)
  | rekey (env : Env)
  | keepalive (env : Env)
  /-- the retransmission timer -/
  | timer (env : Env)
  /-- a step of the `i`-th task; whether the probe met an ICMP error -/
  | punch (env : Env) (i : Nat) (probeError : Bool)

namespace Punching

/-- The task that `spawn_punch` starts. -/
def spawn (pk : Option RawKey) : List (PunchTask Ct) := pk.toList.map fun pk => { pk }

def next (cfg : Config) (C : Crypto Ct) (timers : TimerConfig) (p : Punching Ct) :
    PunchEvent Ct → Punching Ct
  | .datagram env src pkt => { p with client := handleUdp cfg C env src pkt p.client }
  | .notify env peer =>
    { p with
      client := p.client.handleNotify cfg C env peer
      tasks := p.tasks ++ spawn (parsePublicKey peer.publicKey).toOption }
  | .answer env info =>
    { p with
      client := p.client.queryAnswered cfg C env info
      tasks := p.tasks ++ spawn (info.binding.map Prod.snd) }
  | .forward env netmask pkt => { p with client := p.client.routeForward cfg C env netmask pkt }
  | .send env pk pkt => { p with client := sendData cfg C env pk pkt p.client }
  | .prune now => p.prune timers now
  | .rekey env => { p with client := rekeyDue cfg C timers env p.client }
  | .keepalive env => { p with client := relayKeepalive cfg C env p.client }
  | .timer env => { p with client := retransmit cfg C env p.client }
  | .punch env i probeError =>
    match p.tasks[i]? with
    | none => p
    | some t =>
      let (p, t) := punch cfg C timers env t probeError p
      { p with tasks := p.tasks.set i t }

def machine (cfg : Config) (C : Crypto Ct) (timers : TimerConfig) : Machine (Punching Ct) (PunchEvent Ct) where
  init p := p.client.peers = ∅ ∧ p.client.sent = [] ∧ p.tasks = [] ∧ p.orphans = []
  enabled _ _ := True
  next := next cfg C timers

/-- The sessions, those that only a task still holds among them. -/
def Has (p : Punching Ct) (s : PeerSession) : Prop :=
  (∃ pk : RawKey, p.client.peers[pk]? = some s) ∨ s ∈ p.orphans

end Punching

-- ---------------------------------------------------------------------------
-- Transports of sessions
-- ---------------------------------------------------------------------------

variable {cfg : Config} {C : Crypto Ct} {timers : TimerConfig} {env : Env} {pk : RawKey} {c : Client Ct}

/-- A session is direct only where punching is enabled, and has been reached then. -/
structure PeerSession.TransportOk (cfg : Config) (s : PeerSession) : Prop where
  relayOnly : cfg.holePunchEnabled = false → s.transport ≠ .direct
  reached : s.transport = .direct → s.endpoint.isSome = true ∧ s.lastDirect.isSome = true

namespace PeerSession.TransportOk

variable {s s' : PeerSession}

theorem of_not_direct (h : s.transport ≠ .direct) : s.TransportOk cfg :=
  ⟨fun _ => h, fun hDirect => absurd hDirect h⟩

/-- The transport stays, and what is known of the link is not forgotten. -/
theorem of_link (h : s.TransportOk cfg) (hTransport : s'.transport = s.transport)
    (hEndpoint : s.endpoint.isSome = true → s'.endpoint.isSome = true)
    (hLast : s.lastDirect.isSome = true → s'.lastDirect.isSome = true) : s'.TransportOk cfg := by
  refine ⟨?_, ?_⟩
  · intro hDisabled
    rw [hTransport]
    exact h.relayOnly hDisabled
  · intro hDirect
    obtain ⟨hSome, hSince⟩ := h.reached (hTransport.symm.trans hDirect)
    exact ⟨hEndpoint hSome, hLast hSince⟩

theorem heardDirect {src : SocketAddr} (h : s.TransportOk cfg) :
    (heardDirect cfg env src s).TransportOk cfg := by
  refine ⟨?_, fun _ => ⟨rfl, rfl⟩⟩
  intro hDisabled
  unfold LinkMesh.heardDirect
  simpa [hDisabled] using h.relayOnly hDisabled

end PeerSession.TransportOk

-- ---------------------------------------------------------------------------
-- What handlers send, and to whom
-- ---------------------------------------------------------------------------

/-- The transports of the sessions are in order, and without punching everything
went to the relay. -/
structure Client.TransportOk (cfg : Config) (c : Client Ct) : Prop where
  session : ∀ (pk : RawKey) s, c.peers[pk]? = some s → s.TransportOk cfg
  sent : cfg.holePunchEnabled = false → ∀ d ∈ c.sent, d.1 = cfg.relayAddr

namespace Client.TransportOk

theorem foldl {α : Type} {f : Client Ct → α → Client Ct}
    (hf : ∀ c a, c.TransportOk cfg → (f c a).TransportOk cfg) (as : List α) (h : c.TransportOk cfg) :
    (as.foldl f c).TransportOk cfg := by
  induction as generalizing c with
  | nil => exact h
  | cons a as ih => exact ih (hf c a h)

section Keeps

variable (h : c.TransportOk cfg)
include h

theorem update {f : PeerSession → PeerSession} (hf : ∀ s, s.TransportOk cfg → (f s).TransportOk cfg) :
    (c.update pk f).TransportOk cfg := by
  refine ⟨?_, h.sent⟩
  intro k s hs
  rw [getElem?_update] at hs
  split at hs
  · obtain ⟨s₀, hs₀, rfl⟩ := Option.map_eq_some_iff.mp hs
    exact hf s₀ (h.session k s₀ hs₀)
  · exact h.session k s hs

/-- A change of a session that is not about its link. -/
theorem touch {f : PeerSession → PeerSession} (hTransport : ∀ s, (f s).transport = s.transport)
    (hEndpoint : ∀ s, (f s).endpoint = s.endpoint) (hLast : ∀ s, (f s).lastDirect = s.lastDirect) :
    (c.update pk f).TransportOk cfg := by
  refine h.update fun s hs => hs.of_link (hTransport s) ?_ ?_
  · rw [hEndpoint]
    exact id
  · rw [hLast]
    exact id

theorem toRelay : (c.update pk fun s => { s with transport := .relay }).TransportOk cfg :=
  h.update fun _ _ => .of_not_direct nofun

theorem insert {s : PeerSession} (hs : s.TransportOk cfg) :
    TransportOk cfg { c with peers := c.peers.insert pk s } := by
  refine ⟨?_, h.sent⟩
  intro k s' hs'
  rcases KeyMap.insert_cases hs' with ⟨_, rfl⟩ | hOld
  · exact hs
  · exact h.session k s' hOld

theorem locked {α : Type} {f : DataPlane → DataPlane × α} : (c.locked pk f).1.TransportOk cfg := by
  unfold Client.locked
  split
  · exact h
  · exact h.touch (fun _ => rfl) (fun _ => rfl) (fun _ => rfl)

theorem draw : (c.draw env).2.TransportOk cfg := ⟨h.session, h.sent⟩

theorem sendTo {addr : SocketAddr} {dg : Datagram Ct}
    (hAddr : cfg.holePunchEnabled = false → addr = cfg.relayAddr) :
    (c.sendTo env addr dg).1.TransportOk cfg := by
  refine ⟨h.session, ?_⟩
  intro hDisabled d hd
  rcases List.mem_append.mp hd with hd | hd
  · exact h.sent hDisabled d hd
  · obtain rfl := List.mem_singleton.mp hd
    exact hAddr hDisabled

theorem sendCounted {addr : SocketAddr} {dg : Datagram Ct} {n : Nat}
    (hAddr : cfg.holePunchEnabled = false → addr = cfg.relayAddr) :
    (sendCounted env pk addr dg n c).TransportOk cfg := by
  have hSent : (c.sendTo env addr dg).1.TransportOk cfg := h.sendTo hAddr
  have hTotal : ∀ c : Client Ct, c.TransportOk cfg → TransportOk cfg { c with txBytes := c.txBytes + n } :=
    fun _ hc => ⟨hc.session, hc.sent⟩
  unfold LinkMesh.sendCounted
  dsimp only
  split
  · exact (hTotal _ hSent).touch (fun _ => rfl) (fun _ => rfl) (fun _ => rfl)
  · exact hSent

theorem relaySend {ct : Ct} : (relaySend cfg C env pk ct c).TransportOk cfg := h.sendCounted fun _ => rfl

theorem transportSend {ct : Ct} : (transportSend cfg C env pk ct c).TransportOk cfg := by
  unfold LinkMesh.transportSend
  dsimp only
  split
  · split
    · exact h.relaySend
    · rename_i hEnabled
      split
      · split
        · exact h.toRelay.relaySend
        · -- only here the destination is not the relay
          refine h.sendCounted fun hDisabled => ?_
          simp [hDisabled] at hEnabled
      · exact h.relaySend
  · exact h.relaySend
  · exact h.relaySend

theorem transmit {f : Option Sealing} : (transmit cfg C env pk f c).TransportOk cfg := by
  unfold LinkMesh.transmit
  split
  · exact h.transportSend
  · exact h

theorem sendSection {f : DataPlane → DataPlane × Option Sealing} :
    (sendSection cfg C env pk f c).TransportOk cfg := h.locked.transmit

theorem requery : (requery env pk c).TransportOk cfg := by
  unfold LinkMesh.requery
  split
  · exact h
  · split
    · rename_i s _ _
      have hQuery : TransportOk cfg { c with queries := c.queries ++ [s.ip] } := ⟨h.session, h.sent⟩
      exact hQuery.touch (fun _ => rfl) (fun _ => rfl) (fun _ => rfl)
    · exact h

theorem sendData {payload : Bytes} : (sendData cfg C env pk payload c).TransportOk cfg := by
  have hDraw : ((LinkMesh.requery env pk c).draw env).2.TransportOk cfg := h.requery.draw
  unfold LinkMesh.sendData
  exact hDraw.sendSection.sendSection

theorem sendAck {ack : Nat} : (sendAck cfg C env pk ack c).TransportOk cfg := by
  have hDraw : (c.draw env).2.TransportOk cfg := h.draw
  unfold LinkMesh.sendAck
  exact hDraw.transmit

theorem handleAck {ack : Nat} : (handleAck env pk ack c).TransportOk cfg := by
  refine h.update fun s hs => ?_
  split
  · exact hs
  · exact ⟨hs.relayOnly, hs.reached⟩

theorem retransmit : (retransmit cfg C env c).TransportOk cfg := by
  refine h.foldl (fun c pk h => ?_) _
  split
  · exact h
  · exact h.foldl (fun _ _ h => h.sendSection) _

theorem flushPending : (flushPending cfg C env pk c).TransportOk cfg := by
  unfold LinkMesh.flushPending
  dsimp only
  exact h.locked.foldl (fun _ _ h => h.sendData) _

theorem sendReply {hello : Option Sealing} : (sendReply cfg C env pk hello c).TransportOk cfg := by
  unfold LinkMesh.sendReply
  split
  · exact h
  · -- the copy through the relay
    dsimp only
    split
    · exact h.relaySend.transportSend
    · exact h.transportSend

theorem bindIp {ip : String} : (bindIp env pk ip c).TransportOk cfg := by
  unfold LinkMesh.bindIp
  split
  · exact ⟨h.session, h.sent⟩
  · exact h

theorem answerHello {ip : String} {isFirst : Bool} {hello : Option Sealing} :
    (answerHello cfg C env pk ip isFirst hello c).TransportOk cfg := by
  unfold LinkMesh.answerHello
  dsimp only
  refine sendReply (bindIp (touch h ?_ ?_ ?_))
  · exact fun _ => rfl
  · exact fun _ => rfl
  · exact fun _ => rfl

theorem handleHello {rk : RawKey} {salt : Salt} {ip : String} :
    (handleHello cfg C env pk rk salt ip c).TransportOk cfg := by
  have hDraw : (c.draw env).2.TransportOk cfg := h.draw
  unfold LinkMesh.handleHello
  dsimp only
  split
  · exact hDraw.locked
  · unfold afterHello
    dsimp only
    split
    · exact hDraw.locked.answerHello.flushPending
    · exact hDraw.locked.answerHello

theorem handleData {direct : Bool} {epoch seq : Nat} {payload : Bytes} :
    (handleData cfg C env pk direct epoch seq payload c).TransportOk cfg := by
  have hCounted : ∀ (c : Client Ct) (f : PeerSession → PeerSession) n (tun : List Bytes), c.TransportOk cfg →
      (∀ s, s.TransportOk cfg → (f s).TransportOk cfg) →
      TransportOk cfg { c.update pk f with rxBytes := n, tun := tun } := by
    intro c f n tun h hf
    exact ⟨(h.update hf).session, h.sent⟩
  unfold LinkMesh.handleData
  dsimp only
  split
  · refine sendAck (hCounted _ _ _ _ h.locked ?_)
    intro s hs
    refine hs.of_link rfl id ?_
    intro hSome
    dsimp only
    split
    · rfl
    · exact hSome
  · exact h.locked

theorem dispatch {direct : Bool} (q : Plain) : (dispatch cfg C env pk direct c q).TransportOk cfg := by
  unfold LinkMesh.dispatch
  split
  · exact h.handleHello
  · exact h.locked
  · exact h.handleAck
  · exact h.handleData
  · exact h
  · exact h

theorem getOrCreateSession {ip : String} {shared : RawKey} {endpoint : Option SocketAddr} :
    (getOrCreateSession C env pk ip shared endpoint c).TransportOk cfg := by
  have hDraw : (c.draw env).2.TransportOk cfg := h.draw
  unfold LinkMesh.getOrCreateSession
  split
  · exact h
  · exact hDraw.insert (.of_not_direct nofun)

/-- A HELLO of a session goes through the relay. -/
theorem relayHello : (relayHello cfg C env pk c).TransportOk cfg := by
  have hDraw : (c.draw env).2.TransportOk cfg := h.draw
  unfold LinkMesh.relayHello
  dsimp only
  split
  · exact hDraw.relaySend
  · exact hDraw

theorem greetStranger {direct : Bool} {src : SocketAddr} :
    (greetStranger cfg C env pk direct src c).TransportOk cfg := by
  have hSession : (LinkMesh.getOrCreateSession C env pk "" (C.sharedSecret cfg.localPriv pk) none c).TransportOk
      cfg := h.getOrCreateSession
  unfold LinkMesh.greetStranger
  split
  · exact h
  · dsimp only
    split
    · have hReached : (Client.update pk (fun s => { s with endpoint := some src }) _).TransportOk cfg :=
        hSession.update fun s hs => hs.of_link rfl (fun _ => rfl) id
      exact ⟨hReached.session, hReached.sent⟩
    · exact hSession.relayHello

theorem noteDirect {src : SocketAddr} : (noteDirect cfg env pk src c).TransportOk cfg := by
  have hHeard : (c.update pk (heardDirect cfg env src)).TransportOk cfg := h.update fun _ hs => hs.heardDirect
  exact ⟨hHeard.session, hHeard.sent⟩

theorem handlePeerData {ct : Ct} {direct : Bool} {src : SocketAddr} :
    (handlePeerData cfg C env pk ct direct src c).TransportOk cfg := by
  have hGreeted : (LinkMesh.greetStranger cfg C env pk direct src c).TransportOk cfg := h.greetStranger
  have hNoted : (if direct then LinkMesh.noteDirect cfg env pk src (LinkMesh.greetStranger cfg C env pk direct src c)
      else LinkMesh.greetStranger cfg C env pk direct src c).TransportOk cfg := by
    split
    · exact hGreeted.noteDirect
    · exact hGreeted
  unfold LinkMesh.handlePeerData
  dsimp only
  split
  · exact hNoted
  · split
    · exact hNoted
    · exact hNoted
    · split
      · exact hNoted.toRelay.dispatch _
      · exact hNoted.dispatch _

theorem handleUdp {src : SocketAddr} {pkt : Datagram Ct} : (handleUdp cfg C env src pkt c).TransportOk cfg := by
  have hSubframe : ∀ (c : Client Ct) sf, c.TransportOk cfg → (handleSubframe cfg C env src c sf).TransportOk cfg := by
    intro c sf h
    unfold handleSubframe
    split
    · exact h
    · exact h.handlePeerData
  unfold LinkMesh.handleUdp
  split
  · split
    · exact h
    · exact h.handlePeerData
  · split
    · exact h
    · split
      · exact h.handlePeerData
      · exact h
  · split
    · exact h
    · exact h.foldl hSubframe _
  · split
    · exact h.handlePeerData
    · exact h

theorem noteRelayRk {relayRk : Option String} : (c.noteRelayRk pk relayRk).TransportOk cfg := by
  unfold Client.noteRelayRk
  split
  · rename_i rk _
    have hKnown : (c.update pk fun s => { s with peerRelayRk := some rk }).TransportOk cfg :=
      h.touch (fun _ => rfl) (fun _ => rfl) (fun _ => rfl)
    exact ⟨hKnown.session, hKnown.sent⟩
  · exact h

theorem noteEndpoint {endpoint : Option SocketAddr} : (c.noteEndpoint pk endpoint).TransportOk cfg := by
  unfold Client.noteEndpoint
  split
  · rename_i ep
    have hKnown : (c.update pk fun s => { s with endpoint := some (s.endpoint.getD ep) }).TransportOk cfg :=
      h.update fun s hs => hs.of_link rfl (fun _ => rfl) id
    exact ⟨hKnown.session, hKnown.sent⟩
  · exact h

variable {menv : MessageEnv} {peer : PeerInfo}

theorem handleNotify : (c.handleNotify cfg C menv peer).TransportOk cfg := by
  unfold Client.handleNotify
  split
  · exact h
  · exact h.getOrCreateSession.noteEndpoint.noteRelayRk

theorem queryAnswered : (c.queryAnswered cfg C menv peer).TransportOk cfg := by
  unfold Client.queryAnswered
  split
  · exact h
  · dsimp only
    split
    · exact h
    · rename_i pk _ _
      have hSession : (LinkMesh.getOrCreateSession C menv.toEnv pk (peer.ip.getD "") (C.sharedSecret cfg.localPriv pk)
          (menv.parseEndpoint peer.endpoint) c).TransportOk cfg := h.getOrCreateSession
      refine noteRelayRk ⟨?_, ?_⟩
      · split
        · exact hSession.session
        · exact hSession.session
      · split
        · exact hSession.sent
        · exact hSession.sent

theorem removePeer : (c.removePeer pk).TransportOk cfg := by
  unfold Client.removePeer
  split
  · exact h
  · exact ⟨fun k s hs => h.session k s (KeyMap.of_getElem?_erase hs).2, h.sent⟩

theorem prunePeers {now : Instant} {timeoutMs : Nat} : (c.prunePeers now timeoutMs).TransportOk cfg :=
  h.foldl (fun _ _ h => h.removePeer) _

theorem routeForward {netmask : String} {pkt : Bytes} :
    (c.routeForward cfg C env netmask pkt).TransportOk cfg := by
  unfold Client.routeForward
  split
  · exact h
  · exact h.sendData
  · exact ⟨h.session, h.sent⟩

theorem relayKeepalive : (relayKeepalive cfg C env c).TransportOk cfg := by
  refine h.foldl (fun c pk h => ?_) _
  split
  · exact h
  · split
    · exact h
    · exact h.relayHello

theorem rekeyDue : (rekeyDue cfg C timers env c).TransportOk cfg := by
  unfold LinkMesh.rekeyDue
  split
  · exact h
  · refine h.foldl (fun c pk h => ?_) _
    have hDraw : (c.draw env).2.TransportOk cfg := h.draw
    split
    · exact h
    · split
      · exact hDraw.sendSection
      · exact h

end Keeps

end Client.TransportOk

-- ---------------------------------------------------------------------------
-- Every run
-- ---------------------------------------------------------------------------

namespace Punching

variable {p : Punching Ct} {t : PunchTask Ct}

/-- A task that has not begun, or that is over. -/
def Idle (t : PunchTask Ct) : Prop := t.phase = .spawned ∨ t.phase = .over

/-- Without punching a task does no more than to begin. -/
structure TransportOk (cfg : Config) (p : Punching Ct) : Prop where
  client : p.client.TransportOk cfg
  orphans : ∀ s ∈ p.orphans, s.TransportOk cfg
  tasks : cfg.holePunchEnabled = false → ∀ t ∈ p.tasks, Idle t

theorem TransportOk.change {f : PeerSession → PeerSession} (h : p.TransportOk cfg)
    (hf : ∀ s, s.TransportOk cfg → (f s).TransportOk cfg) : (p.change t f).TransportOk cfg := by
  unfold Punching.change
  split
  · exact ⟨h.client.update hf, h.orphans, h.tasks⟩
  · refine ⟨h.client, ?_, h.tasks⟩
    intro s hs
    obtain ⟨i, hi⟩ := List.mem_iff_getElem?.mp hs
    rw [List.getElem?_modify] at hi
    obtain ⟨s₀, hs₀, rfl⟩ := Option.map_eq_some_iff.mp hi
    have hOld : s₀.TransportOk cfg := h.orphans s₀ (List.mem_of_getElem? hs₀)
    split
    · exact hf s₀ hOld
    · exact hOld

/-- The next step of a task: the sessions and the other tasks stay in order, and
without punching this one is idle again. -/
theorem TransportOk.punch {probeError : Bool} (h : p.TransportOk cfg) (ht : t ∈ p.tasks) :
    (punch cfg C timers env t probeError p).1.TransportOk cfg ∧
      (cfg.holePunchEnabled = false → Idle (punch cfg C timers env t probeError p).2) := by
  -- a task that has begun shows that punching is enabled
  have hBegun : cfg.holePunchEnabled = false → Idle t := fun hDisabled => h.tasks hDisabled t ht
  unfold Idle at hBegun
  unfold Punching.punch
  split
  · unfold begin
    split
    · exact ⟨h, fun _ => .inr rfl⟩
    · split
      · exact ⟨⟨h.client.toRelay.relayHello, h.orphans, h.tasks⟩, fun _ => .inr rfl⟩
      · rename_i hEnabled
        refine ⟨h, fun hDisabled => ?_⟩
        simp [hDisabled] at hEnabled
  · rename_i hPhase
    simp only [hPhase, reduceCtorEq, or_self, imp_false] at hBegun
    split
    · exact ⟨h, fun _ => .inr rfl⟩
    · exact ⟨h, fun hDisabled => absurd hDisabled hBegun⟩
  · rename_i ep hPhase
    simp only [hPhase, reduceCtorEq, or_self, imp_false] at hBegun
    have hDraw : (p.client.draw env).2.TransportOk cfg := h.client.draw
    unfold greet
    dsimp only
    split
    · rename_i hello _
      have hSent : ((p.client.draw env).2.sendTo env ep (.direct (hello.ct C))).1.TransportOk cfg :=
        hDraw.sendTo fun hDisabled => absurd hDisabled hBegun
      exact ⟨⟨hSent, h.orphans, h.tasks⟩, fun hDisabled => absurd hDisabled hBegun⟩
    · exact ⟨⟨hDraw, h.orphans, h.tasks⟩, fun hDisabled => absurd hDisabled hBegun⟩
  · rename_i hello hPhase
    simp only [hPhase, reduceCtorEq, or_self, imp_false] at hBegun
    have hCounted : (if probeError then p.change t fun s => { s with errorCount := s.errorCount + 1 }
        else p).TransportOk cfg := by
      split
      · exact h.change fun s hs => ⟨hs.relayOnly, hs.reached⟩
      · exact h
    have hSent : (relayProbe cfg env t hello probeError p).client.TransportOk cfg := by
      unfold relayProbe
      dsimp only
      exact hCounted.client.sendTo fun _ => rfl
    exact ⟨⟨hSent, hCounted.orphans, hCounted.tasks⟩, fun hDisabled => absurd hDisabled hBegun⟩
  · rename_i hPhase
    simp only [hPhase, reduceCtorEq, or_self, imp_false] at hBegun
    refine ⟨h.change fun s hs => ⟨hs.relayOnly, hs.reached⟩, ?_⟩
    exact fun hDisabled => absurd hDisabled hBegun
  · exact ⟨h.change fun _ _ => .of_not_direct nofun, fun _ => .inr rfl⟩
  · exact ⟨h, hBegun⟩

theorem idle_hold {removed : List (RawKey × PeerSession)} {n : Nat} (h : Idle t) : Idle (hold removed n t) := by
  unfold hold
  split
  · exact h
  · exact h
  · exact h

theorem TransportOk.prune {now : Instant} (h : p.TransportOk cfg) : (p.prune timers now).TransportOk cfg := by
  refine ⟨h.client.prunePeers, ?_, ?_⟩
  · intro s hs
    rcases List.mem_append.mp hs with hs | hs
    · exact h.orphans s hs
    · obtain ⟨⟨pk, s'⟩, hRemoved, rfl⟩ := List.mem_map.mp hs
      have hThere : (pk, s') ∈ p.client.peers.toList := (List.mem_filter.mp hRemoved).1
      exact h.client.session pk s' (ExtTreeMap.mem_toList_iff_getElem?_eq_some.mp hThere)
  · intro hDisabled t' ht'
    obtain ⟨t, ht, rfl⟩ := List.mem_map.mp ht'
    exact idle_hold (h.tasks hDisabled t ht)

/-- A handler leaves the orphans alone, and starts tasks that have not begun. -/
theorem TransportOk.handled {c' : Client Ct} {pk : Option RawKey} (h : p.TransportOk cfg)
    (hClient : c'.TransportOk cfg) :
    TransportOk cfg { p with client := c', tasks := p.tasks ++ spawn pk } := by
  refine ⟨hClient, h.orphans, ?_⟩
  intro hDisabled t ht
  rcases List.mem_append.mp ht with ht | ht
  · exact h.tasks hDisabled t ht
  · obtain ⟨pk, _, rfl⟩ := List.mem_map.mp ht
    exact .inl rfl

theorem transportOk_next (e : PunchEvent Ct) (h : p.TransportOk cfg) :
    (p.next cfg C timers e).TransportOk cfg := by
  match e with
  | .datagram .. => exact ⟨h.client.handleUdp, h.orphans, h.tasks⟩
  | .notify .. => exact h.handled h.client.handleNotify
  | .answer .. => exact h.handled h.client.queryAnswered
  | .forward .. => exact ⟨h.client.routeForward, h.orphans, h.tasks⟩
  | .send .. => exact ⟨h.client.sendData, h.orphans, h.tasks⟩
  | .prune _ => exact h.prune
  | .rekey _ => exact ⟨h.client.rekeyDue, h.orphans, h.tasks⟩
  | .keepalive _ => exact ⟨h.client.relayKeepalive, h.orphans, h.tasks⟩
  | .timer _ => exact ⟨h.client.retransmit, h.orphans, h.tasks⟩
  | .punch env i probeError =>
    unfold next
    dsimp only
    split
    · exact h
    · rename_i t hTask
      obtain ⟨hNext, hIdle⟩ : (punch cfg C timers env t probeError p).1.TransportOk cfg ∧
          (cfg.holePunchEnabled = false → Idle (punch cfg C timers env t probeError p).2) :=
        h.punch (List.mem_of_getElem? hTask)
      refine ⟨hNext.client, hNext.orphans, ?_⟩
      intro hDisabled t' ht'
      rcases List.mem_or_eq_of_mem_set ht' with hOld | rfl
      · exact hNext.tasks hDisabled t' hOld
      · exact hIdle hDisabled

/--
**Relay-only mode.** In every run of a client whose punching is disabled, every
datagram goes to the relay, and no session is direct. In any run a session that
is direct has an endpoint, and a direct packet of its peer has arrived.
-/
theorem relay_only (h : (machine cfg C timers).Reach (fun _ _ => True) p) :
    (cfg.holePunchEnabled = false →
      (∀ d ∈ p.client.sent, d.1 = cfg.relayAddr) ∧ ∀ s, p.Has s → s.transport ≠ .direct) ∧
    ∀ s, p.Has s → s.transport = .direct → s.endpoint.isSome = true ∧ s.lastDirect.isSome = true := by
  have hOk : p.TransportOk cfg := by
    refine h.invariant ?_ ?_
    · rintro p ⟨hPeers, hSent, hTasks, hOrphans⟩
      refine ⟨⟨fun pk s hs => ?_, fun _ d hd => ?_⟩, fun s hs => ?_, fun _ t ht => ?_⟩
      · simp [hPeers] at hs
      · simp [hSent] at hd
      · simp [hOrphans] at hs
      · simp [hTasks] at ht
    · intro p e hOk _ _
      exact transportOk_next e hOk
  have hSessions : ∀ s, p.Has s → s.TransportOk cfg := by
    rintro s (⟨pk, hs⟩ | hs)
    · exact hOk.client.session pk s hs
    · exact hOk.orphans s hs
  refine ⟨fun hDisabled => ⟨hOk.client.sent hDisabled, fun s hs => ?_⟩, fun s hs => ?_⟩
  · exact (hSessions s hs).relayOnly hDisabled
  · exact (hSessions s hs).reached

/-- Alice without punching. -/
def relayCfg : Config := { aliceCfg with holePunchEnabled := false }

def exampleTimers : TimerConfig := ⟨10000, 10, 3, 0⟩

/-- The server tells of a peer at address 50, which then writes to Alice from there. -/
def examplePunching : Punching (RawKey × Nonce × Plain) :=
  (machine relayCfg symbolic exampleTimers).run { client := aliceAlone, tasks := [], orphans := [] }
    [.notify { exampleMessageEnv with parseEndpoint := fun _ => some 50 } examplePeer, .punch sampleEnv 0 false,
      .datagram sampleEnv 50 (.direct (symbolic.sharedSecret 2 5, (0, 0), .hello 0 40 9 "10.13.13.9"))]

theorem relay_only_example :
    (machine relayCfg symbolic exampleTimers).Reach (fun _ _ => True) examplePunching ∧
    (relayCfg.holePunchEnabled = false →
      (∀ d ∈ examplePunching.client.sent, d.1 = relayCfg.relayAddr) ∧
        ∀ s, examplePunching.Has s → s.transport ≠ .direct) ∧
    (∀ s, examplePunching.Has s → s.transport = .direct → s.endpoint.isSome = true ∧ s.lastDirect.isSome = true) := by
  have hInit : (machine relayCfg symbolic exampleTimers).Reach (fun _ _ => True)
      { client := aliceAlone, tasks := [], orphans := [] } := .init ⟨rfl, rfl, rfl, rfl⟩
  have hReach : (machine relayCfg symbolic exampleTimers).Reach (fun _ _ => True) examplePunching :=
    Machine.reach_run hInit ⟨trivial, trivial, trivial, trivial, trivial, trivial, trivial⟩
  exact ⟨hReach, relay_only hReach⟩

-- the peer is heard from directly, and is answered through the relay
example : examplePunching.client.sent.map Prod.fst = [90, 90] := by decide +kernel

example : examplePunching.client.peers.values.map (fun s => (s.transport, s.endpoint, s.lastDirect)) =
    [(.relay, some 50, some 100)] := by
  decide +kernel

end Punching

end LinkMesh
