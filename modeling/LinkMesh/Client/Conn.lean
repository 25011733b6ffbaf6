import LinkMesh.Client.Outbox

/-!
# Receiving

`impl Conn` of `linkmesh-client/src/connection.rs`: what a connection does with
a datagram of the data plane. `handle_udp` tells the direct and the relayed
forms apart and finds the peer's long-term key; `handle_peer_data` finds or
creates the session, decrypts, and hands the tunnel packet to the handler of
its type. Signaling messages of the server are left out.

* `plane_handleHello`  — `handle_hello` is `DataPlane.helloCall` on the
  session's data plane;
* `ran_handlePeerData` — a datagram that opens runs the event of its content,
  then events of the session's own; any other runs none.
-/

namespace LinkMesh

variable {Ct : Type}

/-- Bind a virtual IP to its owner; one that is bound to another peer stays.
The flag is false when the binding is refused. -/
def bindIpOwnership (idx : Std.ExtTreeMap String RawKey) (ip : String) (owner : RawKey) :
    Std.ExtTreeMap String RawKey × Bool :=
  match idx[ip]? with
  | some cur => if cur = owner then (idx.insert ip owner, true) else (idx, false)
  | none => (idx.insert ip owner, true)

/-- Whether a relayed packet takes the session off the direct transport: DATA
does at once, any other once the direct path is stale. -/
def relayFlips (env : Env) (p : Plain) (s : PeerSession) : Bool :=
  if s.transport ≠ .direct then false
  else
    match p with
    | .data .. => true
    | _ => stale env directStaleMs s.lastDirect

section Conn

variable (cfg : Config) (C : Crypto Ct) (env : Env)

/-- The virtual IP of a HELLO enters the index if it is one. -/
def bindIp (pk : RawKey) (ip : String) (c : Client Ct) : Client Ct :=
  if ip ≠ "" ∧ env.isIp ip then { c with ipIndex := (bindIpOwnership c.ipIndex ip pk).1 } else c

/-- The HELLO sent back goes through the relay also when the transport is direct. -/
def sendReply (pk : RawKey) (hello : Option Sealing) (c : Client Ct) : Client Ct :=
  match hello with
  | none => c
  | some f =>
    let direct := c.peers[pk]?.any fun s => s.transport = .direct
    let c := if direct then relaySend cfg C env pk (f.ct C) c else c
    transportSend cfg C env pk (f.ct C) c

/-- Send the packets that were held back for the handshake. -/
def flushPending (pk : RawKey) (c : Client Ct) : Client Ct :=
  let (c, pending) := c.locked pk DataPlane.takePending
  (pending.getD []).foldl (fun c p => sendData cfg C env pk p c) c

/-- Record what the HELLO says about the peer, and reply to it. -/
def answerHello (pk : RawKey) (ip : String) (isFirst : Bool) (hello : Option Sealing)
    (c : Client Ct) : Client Ct :=
  let c := c.update pk fun s => { s with ip := if isFirst then ip else s.ip, lastSeen := env.now }
  let c := bindIp env pk ip c
  sendReply cfg C env pk hello c

/-- `handle_hello` after its locked section. -/
def afterHello (pk : RawKey) (ip : String) (isFirst : Bool) (hello : Option Sealing)
    (c : Client Ct) : Client Ct :=
  let c := answerHello cfg C env pk ip isFirst hello c
  if isFirst then flushPending cfg C env pk c else c

def handleHello (pk : RawKey) (rk : RawKey) (salt : Salt) (ip : String) (c : Client Ct) :
    Client Ct :=
  let (d, c) := c.draw env
  let (c, r) := c.locked pk (DataPlane.handleHello cfg C env.now d rk salt)
  match r with
  | none => c
  | some (isFirst, hello) => afterHello cfg C env pk ip isFirst hello c

def handleRekey (pk : RawKey) (epoch : Nat) (rk : RawKey) (salt : Salt) (c : Client Ct) :
    Client Ct :=
  (c.locked pk fun s => (s.handleRekey cfg C env.now epoch rk salt, ())).1

/-- The `TUNNEL_DATA` branch of `handle_peer_data`. -/
def handleData (pk : RawKey) (direct : Bool) (epoch seq : Nat) (payload : Bytes) (c : Client Ct) :
    Client Ct :=
  let (c, r) := c.locked pk (DataPlane.recvData epoch seq payload)
  match r with
  | some (delivered, some ack) =>
    let bytes := (delivered.map List.length).sum
    let c := c.update pk fun s =>
      { s with
        lastSeen := env.now
        lastDirect := if direct then some env.now else s.lastDirect
        rxBytes := s.rxBytes + bytes }
    let c := { c with rxBytes := c.rxBytes + bytes, tun := c.tun ++ delivered }
    sendAck cfg C env pk ack c
  | _ => c

/-- A source without a session gets one; a relayed one is sent a HELLO. -/
def greetStranger (srcPub : RawKey) (direct : Bool) (src : SocketAddr) (c : Client Ct) :
    Client Ct :=
  match c.peers[srcPub]? with
  | some _ => c
  | none =>
    let c := getOrCreateSession C env srcPub "" (C.sharedSecret cfg.localPriv srcPub) none c
    if direct then
      { c.update srcPub fun s => { s with endpoint := some src } with
        addrIndex := c.addrIndex.insert src srcPub }
    else
      let (d, c) := c.draw env
      match c.peers[srcPub]?.bind fun s => s.buildHelloCt cfg d with
      | some hello => relaySend cfg C env srcPub (hello.ct C) c
      | none => c

/-- What a direct packet tells about the link. -/
def heardDirect (src : SocketAddr) (s : PeerSession) : PeerSession :=
  { s with
    endpoint := some src
    lastDirect := some env.now
    transport := if cfg.holePunchEnabled then .direct else s.transport
    lastSeen := env.now }

/-- Note a direct packet, before it is decrypted. -/
def noteDirect (srcPub : RawKey) (src : SocketAddr) (c : Client Ct) : Client Ct :=
  { c.update srcPub (heardDirect cfg env src) with
    addrIndex := c.addrIndex.insert src srcPub }

/-- Hand a tunnel packet to the handler of its type. -/
def dispatch (srcPub : RawKey) (direct : Bool) (c : Client Ct) : Plain → Client Ct
  | .hello _ rk salt ip => handleHello cfg C env srcPub rk salt ip c
  | .rekey epoch rk salt => handleRekey cfg C env srcPub epoch rk salt c
  | .ack _ ack => handleAck env srcPub ack c
  | .data epoch seq payload => handleData cfg C env srcPub direct epoch seq payload c
  | .malformed => c
  | .short => c

def handlePeerData (srcPub : RawKey) (ct : Ct) (direct : Bool) (src : SocketAddr) (c : Client Ct) :
    Client Ct :=
  let c := greetStranger cfg C env srcPub direct src c
  let c := if direct then noteDirect cfg env srcPub src c else c
  match c.peers[srcPub]? with
  | none => c
  | some s =>
    match s.openPeerData C ct with
    | none => c
    | some .short => c
    | some p =>
      let c := if !direct && relayFlips env p s then
          c.update srcPub fun s => { s with transport := .relay }
        else c
      dispatch cfg C env srcPub direct c p

/-- The session of a batch's subframe: by long-term key, else by relay routing
key, else that of a stranger. -/
def resolveSubframe (key : RawKey) (c : Client Ct) : RawKey :=
  if key ∈ c.peers then key else c.rkIndex[key]?.getD key

/-- One subframe of a batch, `none` when it is shorter than a key. -/
def handleSubframe (src : SocketAddr) (c : Client Ct) : Option (RawKey × Ct) → Client Ct
  | none => c
  | some (key, ct) => handlePeerData cfg C env (resolveSubframe key c) ct false src c

def handleUdp (src : SocketAddr) (pkt : Datagram Ct) (c : Client Ct) : Client Ct :=
  match pkt with
  | .relay _ srcPub ct =>
    if src ≠ cfg.relayAddr then c else handlePeerData cfg C env srcPub ct false src c
  | .relayRk _ srcRk ct =>
    if src ≠ cfg.relayAddr then c
    else
      match c.rkIndex[srcRk]? with
      | some pk => handlePeerData cfg C env pk ct false src c
      | none => c
  | .relayBatch _ subframes =>
    if src ≠ cfg.relayAddr then c else subframes.foldl (handleSubframe cfg C env src) c
  | .direct ct =>
    match c.addrIndex[src]? with
    | some pk => handlePeerData cfg C env pk ct true src c
    | none => c

end Conn

-- ---------------------------------------------------------------------------
-- Calls as runs of events
-- ---------------------------------------------------------------------------

variable {cfg : Config} {C : Crypto Ct} {env : Env} {pk : RawKey} {c c' : Client Ct}

theorem plane_bindIp {ip : String} (k : RawKey) : (bindIp env pk ip c).plane k = c.plane k := by
  unfold bindIp
  split <;> rfl

theorem sends_sendReply {hello : Option Sealing} : Sends pk c (sendReply cfg C env pk hello c) := by
  cases hello with
  | none => exact .refl
  | some f =>
    simp only [sendReply]
    split
    · exact sends_relaySend.trans sends_transportSend
    · exact sends_transportSend

theorem ran_sendAll (ps : List Bytes) :
    RanLocal cfg C pk c (ps.foldl (fun c p => sendData cfg C env pk p c) c) := by
  induction ps generalizing c with
  | nil => exact .of_planes fun _ => rfl
  | cons p ps ih =>
    have hHead : RanLocal cfg C pk c (sendData cfg C env pk p c) := by
      refine ⟨_, ?_, ran_sendData⟩
      simp [Event.isLocal]
    exact hHead.trans ih

theorem ran_flushPending : RanLocal cfg C pk c (flushPending cfg C env pk c) := by
  have hTake : RanLocal cfg C pk c (c.locked pk DataPlane.takePending).1 := by
    refine ⟨[.takePending], ?_, .locked fun _ _ => rfl⟩
    simp [Event.isLocal]
  exact hTake.trans (ran_sendAll _)

theorem plane_answerHello {ip : String} {isFirst : Bool} {hello : Option Sealing} (k : RawKey) :
    (answerHello cfg C env pk ip isFirst hello c).plane k = c.plane k := by
  unfold answerHello
  dsimp only
  rw [sends_sendReply.plane, plane_bindIp, Client.plane_update]
  intro s
  rfl

theorem ran_afterHello {ip : String} {isFirst : Bool} {hello : Option Sealing} :
    RanLocal cfg C pk c (afterHello cfg C env pk ip isFirst hello c) := by
  have hAnswer : RanLocal cfg C pk c (answerHello cfg C env pk ip isFirst hello c) :=
    .of_planes plane_answerHello
  unfold afterHello
  dsimp only
  split
  · exact hAnswer.trans ran_flushPending
  · exact hAnswer

theorem ran_handleHello {rk : RawKey} {salt : Salt} {ip : String} :
    ∃ d es, (∀ e ∈ es, e.isLocal = true) ∧
      Ran cfg C pk (.handleHello env.now d rk salt :: es) c
        (handleHello cfg C env pk rk salt ip c) := by
  have hDraw : Ran cfg C pk [] c (c.draw env).2 := .of_planes fun _ => rfl
  have hSection : Ran cfg C pk [.handleHello env.now (c.draw env).1 rk salt] c
      ((c.draw env).2.locked pk
        (DataPlane.handleHello cfg C env.now (c.draw env).1 rk salt)).1 :=
    hDraw.trans (.locked fun _ _ => rfl)
  refine ⟨(c.draw env).1, ?_⟩
  unfold handleHello
  dsimp only
  split
  · exact ⟨[], nofun, hSection⟩
  · exact hSection.followed ran_afterHello

/-- The packets held back are sent in their order, each with a draw of its own. -/
theorem plane_sendAll {base n : Nat} (ps : List Bytes) (hDraws : c.draws = base + n) {s : DataPlane}
    (hs : c.plane pk = some s) (out : List Sealing) :
    (ps.foldl (fun c p => sendData cfg C env pk p c) c).plane pk =
      some ((ps.zipIdx n).foldl (fun (s, out) (p, i) =>
        let (s, cts) := s.sendData cfg C env.now (env.draw (base + i)) p
        (s, out ++ cts)) (s, out)).1 := by
  induction ps generalizing c n s out with
  | nil => exact hs
  | cons p ps ih =>
    have hNext : (sendData cfg C env pk p c).plane pk =
        some (s.sendData cfg C env.now (env.draw (base + n)) p).1 := by
      rw [ran_sendData.self, hs, hDraws]
      rfl
    rw [List.zipIdx_cons, List.foldl_cons, List.foldl_cons]
    exact ih (by rw [draws_sendData, hDraws, Nat.add_assoc]) hNext _

theorem plane_flushPending {s : DataPlane} (hs : c.plane pk = some s) :
    ∃ ds, (flushPending cfg C env pk c).plane pk =
      some (s.flushPending cfg C env.now ds).1 := by
  refine ⟨fun i => env.draw (c.draws + i), ?_⟩
  obtain ⟨s₀, hs₀, rfl⟩ := Option.map_eq_some_iff.mp hs
  -- the section empties the queue and draws nothing; the sends draw one by one
  have hTaken : (c.locked pk DataPlane.takePending).1.plane pk =
      some s₀.toDataPlane.takePending.1 := by
    rw [Client.plane_locked, if_pos rfl, hs]
    rfl
  have hDraws : (c.locked pk DataPlane.takePending).1.draws = c.draws + 0 := by
    unfold Client.locked
    split <;> rfl
  have hPending : (c.locked pk DataPlane.takePending).2 = some s₀.pending := by
    rw [Client.locked, hs₀]
    rfl
  simp only [flushPending, hPending, Option.getD_some]
  exact plane_sendAll s₀.pending hDraws hTaken []

/-- `handle_hello` is `DataPlane.helloCall` on the session's data plane. -/
theorem plane_handleHello {rk : RawKey} {salt : Salt} {ip : String} {s : DataPlane}
    (hs : c.plane pk = some s) : ∃ d ds, (handleHello cfg C env pk rk salt ip c).plane pk =
      some (s.helloCall cfg C env.now d ds rk salt).1 := by
  obtain ⟨s₀, hs₀, rfl⟩ := Option.map_eq_some_iff.mp hs
  refine ⟨(c.draw env).1, ?_⟩
  have hResult : ((c.draw env).2.locked pk
      (DataPlane.handleHello cfg C env.now (c.draw env).1 rk salt)).2 =
        some (s₀.toDataPlane.handleHello cfg C env.now (c.draw env).1 rk salt).2 := by
    simp only [Client.locked, Client.draw, hs₀]
  have hLocked : ((c.draw env).2.locked pk
      (DataPlane.handleHello cfg C env.now (c.draw env).1 rk salt)).1.plane pk =
        some (s₀.toDataPlane.handleHello cfg C env.now (c.draw env).1 rk salt).1 := by
    rw [Client.plane_locked, if_pos rfl]
    exact congrArg (Option.map _) hs
  unfold handleHello
  dsimp only
  rw [hResult]
  unfold DataPlane.helloCall
  dsimp only
  -- from here on only the plane after the section and what it returned matter
  generalize ((c.draw env).2.locked pk _).1 = c₁ at hLocked ⊢
  generalize s₀.toDataPlane.handleHello cfg C env.now _ rk salt = r at hLocked ⊢
  obtain ⟨s₁, isFirst, hello⟩ := r
  cases isFirst with
  | false => exact ⟨fun _ => env.draw 0, (plane_answerHello pk).trans hLocked⟩
  | true =>
    obtain ⟨ds, hFlush⟩ := plane_flushPending ((plane_answerHello pk).trans hLocked)
    exact ⟨ds, hFlush⟩

theorem ran_handleData {direct : Bool} {epoch seq : Nat} {payload : Bytes} (d : Draw) :
    Ran cfg C pk [.recvData d epoch seq payload] c
      (handleData cfg C env pk direct epoch seq payload c) := by
  have hSection : Ran cfg C pk [.recvData d epoch seq payload] c
      (c.locked pk (DataPlane.recvData epoch seq payload)).1 := .locked fun _ _ => rfl
  unfold handleData
  dsimp only
  split
  -- the counters and the acknowledgement leave the planes alone
  · refine hSection.trans (.of_planes fun k => ?_)
    refine (plane_sendAck k).trans (Client.plane_update ?_ k)
    intro s
    rfl
  · exact hSection

theorem ran_handleAck {ack : Nat} :
    Ran cfg C pk [.handleAck ack] c (handleAck env pk ack c) where
  self := by
    rw [Client.plane, handleAck, Client.getElem?_update, if_pos rfl, Client.plane]
    cases c.peers[pk]? with
    | none => rfl
    | some s =>
      simp only [Option.map_some, DataPlane.after, List.foldl_cons, List.foldl_nil, DataPlane.step,
        DataPlane.handleAck]
      split <;> rfl
  other k hk := by rw [Client.plane, handleAck, Client.getElem?_update, if_neg hk, Client.plane]

/-- The handlers on the data plane: the event of the packet, then events of
the session's own. -/
theorem ran_dispatch (cfg : Config) (C : Crypto Ct) (env : Env) (pk : RawKey) (direct : Bool)
    (p : Plain) (c : Client Ct) : Ran cfg C pk [] c (dispatch cfg C env pk direct c p) ∨
    ∃ d e es, p.event env.now d = some e ∧ (∀ e ∈ es, e.isLocal = true) ∧
      Ran cfg C pk (e :: es) c (dispatch cfg C env pk direct c p) := by
  cases p with
  | hello k rk salt ip =>
    obtain ⟨d, es, hLocal, hRan⟩ : ∃ d es, (∀ e ∈ es, e.isLocal = true) ∧
        Ran cfg C pk (.handleHello env.now d rk salt :: es) c
          (handleHello cfg C env pk rk salt ip c) := ran_handleHello
    exact .inr ⟨d, _, es, rfl, hLocal, hRan⟩
  | data epoch seq payload => exact .inr ⟨⟨0, 0, 0, 0⟩, _, [], rfl, nofun, ran_handleData _⟩
  | rekey epoch rk salt => exact .inr ⟨⟨0, 0, 0, 0⟩, _, [], rfl, nofun, .locked fun _ _ => rfl⟩
  | ack k a => exact .inr ⟨⟨0, 0, 0, 0⟩, _, [], rfl, nofun, ran_handleAck⟩
  | malformed => exact .inl (.of_planes fun _ => rfl)
  | short => exact .inl (.of_planes fun _ => rfl)

theorem plane_noteDirect {src : SocketAddr} (k : RawKey) :
    (noteDirect cfg env pk src c).plane k = c.plane k := by
  have hSame : ∀ s, (heardDirect cfg env src s).toDataPlane = s.toDataPlane := fun _ => rfl
  exact Client.plane_update hSame k

/-- A known source is no stranger. -/
theorem greetStranger_of_mem {direct : Bool} {src : SocketAddr} {s : PeerSession}
    (hs : c.peers[pk]? = some s) : greetStranger cfg C env pk direct src c = c := by
  simp only [greetStranger, hs]

/--
**A datagram is an event.** What `handle_peer_data` does to the data planes of
a client with a session for the source: nothing, or the event of the packet
the datagram opens to, then events of that session's own.
-/
theorem ran_handlePeerData {ct : Ct} {direct : Bool} {src : SocketAddr} {s : DataPlane}
    (hs : c.plane pk = some s) :
    Ran cfg C pk [] c (handlePeerData cfg C env pk ct direct src c) ∨
      ∃ p d e es, s.openPeerData C ct = some p ∧ p.event env.now d = some e ∧
        (∀ e ∈ es, e.isLocal = true) ∧
        Ran cfg C pk (e :: es) c (handlePeerData cfg C env pk ct direct src c) := by
  have hNoted : ∀ k, (if direct then noteDirect cfg env pk src c else c).plane k = c.plane k := by
    intro k
    split
    · exact plane_noteDirect k
    · rfl
  obtain ⟨s₀, hs₀, rfl⟩ := Option.map_eq_some_iff.mp hs
  simp only [handlePeerData, greetStranger_of_mem hs₀]
  generalize (if direct then noteDirect cfg env pk src c else c) = c₁ at hNoted
  have hs₁ := (hNoted pk).trans hs
  obtain ⟨s₁, hSome, hPlane⟩ := Option.map_eq_some_iff.mp hs₁
  simp only [hSome]
  split
  · exact .inl (.of_planes hNoted)
  · exact .inl (.of_planes hNoted)
  · rename_i p _ hOpen
    rw [hPlane] at hOpen
    have hFlip : ∀ k, (if !direct && relayFlips env p s₁ then
        c₁.update pk fun s => { s with transport := .relay } else c₁).plane k = c.plane k := by
      intro k
      split
      · refine (Client.plane_update (fun s => ?_) k).trans (hNoted k)
        rfl
      · exact hNoted k
    generalize (if !direct && relayFlips env p s₁ then
        c₁.update pk fun s => { s with transport := .relay } else c₁) = c₂ at hFlip ⊢
    rcases ran_dispatch cfg C env pk direct p c₂ with hRan | ⟨d, e, es, he, hLocal, hRan⟩
    · exact .inl ((Ran.of_planes hFlip).trans hRan)
    · exact .inr ⟨p, d, e, es, hOpen, he, hLocal, (Ran.of_planes hFlip).trans hRan⟩

end LinkMesh
