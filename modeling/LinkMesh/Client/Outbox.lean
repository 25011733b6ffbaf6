import LinkMesh.Client.SendWindow

/-!
# Sending

`impl Outbox` of `linkmesh-client/src/connection.rs`: the state all sessions
of a connection share, and what is sent to a peer, over which transport.

A session is the entry of the peers map under its public key. `Client.locked`
runs a section of `Client/Session.lean` on it. What a call asks of the outside
(time, random values, whether a datagram could be sent, whether a text is an
IP address) is in `Env`. Datagrams handed to the socket, payloads handed to
the TUN and queries handed to a task of their own are kept as history.

* `Sends`        — what sending leaves alone;
* `Ran`          — a call ran these events on the data plane of one session,
  and left all other data planes alone;
* `ran_sendData` — `send_data` is `countPkt` and `sealData`;
* `plane_retransmit` — `retransmit` resends what is due in each session.
-/

namespace LinkMesh

variable {Ct : Type}

/-- No direct packet for this long makes the direct path stale. -/
def directStaleMs : Nat := 5000

/-- No packet at all for this long makes `send_data` query the peer again. -/
def reQueryStaleMs : Nat := 1000

def reQueryMinIntervalMs : Nat := 1000

/-- A datagram of the data plane. -/
inductive Datagram (Ct : Type) where
  /-- the ciphertext alone, from the peer's own address -/
  | direct (ct : Ct)
  /-- `MSG_RELAY`: long-term keys in the header -/
  | relay (dest src : RawKey) (ct : Ct)
  /-- `MSG_RELAY_RK`: relay routing keys in the header -/
  | relayRk (dest src : RawKey) (ct : Ct)
  /-- `MSG_RELAY_BATCH`: subframes `src ‖ ciphertext`, `none` when shorter than a key -/
  | relayBatch (dest : RawKey) (subframes : List (Option (RawKey × Ct)))

/-- The state of a connection. -/
structure Client (Ct : Type) where
  peers : Std.ExtTreeMap RawKey PeerSession
  ipIndex : Std.ExtTreeMap String RawKey
  addrIndex : Std.ExtTreeMap SocketAddr RawKey
  rkIndex : Std.ExtTreeMap RawKey RawKey
  txBytes : Nat
  rxBytes : Nat
  /-- how many random values were drawn -/
  draws : Nat
  /-- every datagram handed to the socket -/
  sent : List (SocketAddr × Datagram Ct)
  /-- every payload handed to the TUN -/
  tun : List Bytes
  /-- every address a query was spawned for -/
  queries : List String

structure Env where
  now : Instant
  draw : Nat → Draw
  sendOk : Nat → Bool
  /-- `ip.parse::<IpAddr>().is_ok()` -/
  isIp : String → Bool

namespace Client

/-- Change the session of `pk`, if there is one. -/
def update (pk : RawKey) (f : PeerSession → PeerSession) (c : Client Ct) : Client Ct :=
  { c with peers := c.peers.modify pk f }

/-- Run a section on the data plane of `pk` under the session's lock. -/
def locked {α : Type} (pk : RawKey) (f : DataPlane → DataPlane × α) (c : Client Ct) :
    Client Ct × Option α :=
  match c.peers[pk]? with
  | none => (c, none)
  | some s =>
    let (dp, a) := f s.toDataPlane
    (c.update pk fun s => { s with toDataPlane := dp }, some a)

def draw (env : Env) (c : Client Ct) : Draw × Client Ct :=
  (env.draw c.draws, { c with draws := c.draws + 1 })

/-- `main_sock.send_to`, and whether it succeeded. -/
def sendTo (env : Env) (addr : SocketAddr) (dg : Datagram Ct) (c : Client Ct) : Client Ct × Bool :=
  ({ c with sent := c.sent ++ [(addr, dg)] }, env.sendOk c.sent.length)

end Client

/-- `elapsed() >= limit`, with `None` counted as stale. -/
def stale (env : Env) (limit : Nat) (t : Option Instant) : Bool :=
  match t with
  | some t => decide (limit ≤ env.now - t)
  | none => true

section Outbox

variable (cfg : Config) (C : Crypto Ct) (env : Env)

/-- The session of `pk`, created from fresh values if there is none. -/
def getOrCreateSession (pk : RawKey) (ip : String) (shared : RawKey)
    (endpoint : Option SocketAddr) (c : Client Ct) : Client Ct :=
  match c.peers[pk]? with
  | some _ => c
  | none =>
    let (d, c) := c.draw env
    let s := PeerSession.new pk ip shared endpoint d.rk (C.publicKey d.rk) d.salt env.now
    { c with peers := c.peers.insert pk s }

def bumpTx (pk : RawKey) (n : Nat) (c : Client Ct) : Client Ct :=
  { c with txBytes := c.txBytes + n }.update pk fun s => { s with txBytes := s.txBytes + n }

/-- `send_to`, counted by `bump_tx` when it succeeded. -/
def sendCounted (pk : RawKey) (addr : SocketAddr) (dg : Datagram Ct) (n : Nat) (c : Client Ct) :
    Client Ct :=
  let (c, ok) := c.sendTo env addr dg
  if ok then bumpTx pk n c else c

/-- Relay under the peer's relay routing key, or under the long-term keys if
it is unknown or the peer was silent for long. -/
def relaySend (pk : RawKey) (ct : Ct) (c : Client Ct) : Client Ct :=
  let peerRk := match c.peers[pk]? with
    | some s => if cfg.relayRecoverStale < env.now - s.lastSeen then none else s.peerRelayRk
    | none => none
  let frame := match peerRk with
    | some destRk => .relayRk destRk cfg.relayRk ct
    | none => .relay pk cfg.localPub ct
  sendCounted env pk cfg.relayAddr frame (C.len ct) c

/-- No direct packet of the peer for long. -/
def directStale (pk : RawKey) (c : Client Ct) : Bool :=
  match c.peers[pk]? with
  | some s => stale env directStaleMs s.lastDirect
  | none => true

def transportSend (pk : RawKey) (ct : Ct) (c : Client Ct) : Client Ct :=
  let (transport, endpoint) := match c.peers[pk]? with
    | some s => (s.transport, s.endpoint)
    | none => (.relay, none)
  match transport with
  | .direct =>
    if !cfg.holePunchEnabled then relaySend cfg C env pk ct c
    else
      match endpoint with
      | some ep =>
        if directStale env pk c then
          relaySend cfg C env pk ct (c.update pk fun s => { s with transport := .relay })
        else sendCounted env pk ep (.direct ct) (C.len ct) c
      | none => relaySend cfg C env pk ct c
  | .punching => relaySend cfg C env pk ct c
  | .relay => relaySend cfg C env pk ct c

/-- Send the frame of a section, if it produced one. -/
def transmit (pk : RawKey) (f : Option Sealing) (c : Client Ct) : Client Ct :=
  match f with
  | some f => transportSend cfg C env pk (f.ct C) c
  | none => c

/-- Run a section on the data plane of `pk`, then send its frame. -/
def sendSection (pk : RawKey) (f : DataPlane → DataPlane × Option Sealing) (c : Client Ct) :
    Client Ct :=
  let (c, frame) := c.locked pk f
  transmit cfg C env pk frame.join c

/-- Query a silent peer again, at most once an interval. -/
def requery (pk : RawKey) (c : Client Ct) : Client Ct :=
  match c.peers[pk]? with
  | none => c
  | some s =>
    if reQueryStaleMs < env.now - s.lastSeen ∧ stale env reQueryMinIntervalMs s.lastRequery ∧
        s.ip ≠ "" then
      { c with queries := c.queries ++ [s.ip] }.update pk fun s =>
        { s with lastRequery := some env.now }
    else c

def sendData (pk : RawKey) (payload : Bytes) (c : Client Ct) : Client Ct :=
  let c := requery env pk c
  let (d, c) := c.draw env
  let c := sendSection cfg C env pk (DataPlane.countPkt cfg C env.now d) c
  sendSection cfg C env pk (DataPlane.sealData env.now payload) c

def sendAck (pk : RawKey) (ack : Nat) (c : Client Ct) : Client Ct :=
  let (d, c) := c.draw env
  transmit cfg C env pk (c.peers[pk]?.bind fun s => s.toDataPlane.sendAck d ack) c

/-- An ACK shows that the peer is alive. -/
def handleAck (pk : RawKey) (ack : Nat) (c : Client Ct) : Client Ct :=
  c.update pk fun s =>
    if s.established = false then s
    else { s with toDataPlane := s.toDataPlane.handleAck ack, lastSeen := env.now }

/-- One packet of the `retransmit` loop. -/
def resend (pk : RawKey) (seq : Nat) (payload : Bytes) (c : Client Ct) : Client Ct :=
  sendSection cfg C env pk (DataPlane.resend env.now seq payload) c

def retransmit (c : Client Ct) : Client Ct :=
  c.peers.keys.foldl (fun c pk =>
    match c.peers[pk]? with
    | none => c
    | some s => (s.toWindow.expired env.now).foldl (fun c (seq, payload) =>
        resend cfg C env pk seq payload c) c) c

end Outbox

-- ---------------------------------------------------------------------------
-- The data planes of a client
-- ---------------------------------------------------------------------------

namespace Client

/-- The data plane of the session of `pk`. -/
def plane (c : Client Ct) (pk : RawKey) : Option DataPlane :=
  c.peers[pk]?.map PeerSession.toDataPlane

theorem getElem?_update {pk k : RawKey} {f : PeerSession → PeerSession} {c : Client Ct} :
    (c.update pk f).peers[k]? = if k = pk then c.peers[k]?.map f else c.peers[k]? :=
  SeqMap.getElem?_modify

/-- A change of the link leaves the data planes alone. -/
theorem plane_update {pk : RawKey} {f : PeerSession → PeerSession} {c : Client Ct}
    (hf : ∀ s, (f s).toDataPlane = s.toDataPlane) (k : RawKey) :
    (c.update pk f).plane k = c.plane k := by
  simp only [plane, getElem?_update]
  split
  · rw [Option.map_map]
    congr 1
    funext s
    exact hf s
  · rfl

theorem plane_locked {α : Type} {pk : RawKey} {f : DataPlane → DataPlane × α} {c : Client Ct}
    (k : RawKey) : (c.locked pk f).1.plane k =
      if k = pk then (c.plane k).map fun s => (f s).1 else c.plane k := by
  unfold locked plane
  by_cases hk : k = pk
  · subst hk
    rw [if_pos rfl]
    cases hs : c.peers[k]? with
    | none => simp [hs]
    | some s => simp [getElem?_update, hs]
  · rw [if_neg hk]
    split
    · rfl
    · rw [getElem?_update, if_neg hk]

end Client

variable {cfg : Config} {C : Crypto Ct} {env : Env} {pk : RawKey} {c c' c'' : Client Ct}

/-- What sending can change: the link of the session of `pk`, the traffic
counters and the datagrams handed to the socket. -/
structure Sends (pk : RawKey) (c c' : Client Ct) : Prop where
  plane : ∀ k, c'.plane k = c.plane k
  other : ∀ k, k ≠ pk → c'.peers[k]? = c.peers[k]?
  ipIndex : c'.ipIndex = c.ipIndex
  addrIndex : c'.addrIndex = c.addrIndex
  rkIndex : c'.rkIndex = c.rkIndex
  rxBytes : c'.rxBytes = c.rxBytes
  draws : c'.draws = c.draws
  tun : c'.tun = c.tun

namespace Sends

theorem refl : Sends pk c c := ⟨fun _ => rfl, fun _ _ => rfl, rfl, rfl, rfl, rfl, rfl, rfl⟩

theorem trans (h : Sends pk c c') (h' : Sends pk c' c'') : Sends pk c c'' where
  plane k := (h'.plane k).trans (h.plane k)
  other k hk := (h'.other k hk).trans (h.other k hk)
  ipIndex := h'.ipIndex.trans h.ipIndex
  addrIndex := h'.addrIndex.trans h.addrIndex
  rkIndex := h'.rkIndex.trans h.rkIndex
  rxBytes := h'.rxBytes.trans h.rxBytes
  draws := h'.draws.trans h.draws
  tun := h'.tun.trans h.tun

theorem update {f : PeerSession → PeerSession} (hf : ∀ s, (f s).toDataPlane = s.toDataPlane) :
    Sends pk c (c.update pk f) :=
  ⟨Client.plane_update hf, fun k hk => by rw [Client.getElem?_update, if_neg hk], rfl, rfl, rfl,
    rfl, rfl, rfl⟩

end Sends

theorem sends_bumpTx {n : Nat} : Sends pk c (bumpTx pk n c) := by
  have hTotal : Sends pk c { c with txBytes := c.txBytes + n } :=
    ⟨fun _ => rfl, fun _ _ => rfl, rfl, rfl, rfl, rfl, rfl, rfl⟩
  refine hTotal.trans (.update fun s => ?_)
  rfl

theorem sends_sendCounted {addr : SocketAddr} {dg : Datagram Ct} {n : Nat} :
    Sends pk c (sendCounted env pk addr dg n c) := by
  have hSent : Sends pk c (c.sendTo env addr dg).1 :=
    ⟨fun _ => rfl, fun _ _ => rfl, rfl, rfl, rfl, rfl, rfl, rfl⟩
  unfold sendCounted
  dsimp only
  split
  · exact hSent.trans sends_bumpTx
  · exact hSent

theorem sends_relaySend {ct : Ct} : Sends pk c (relaySend cfg C env pk ct c) := sends_sendCounted

theorem sends_transportSend {ct : Ct} : Sends pk c (transportSend cfg C env pk ct c) := by
  unfold transportSend
  dsimp only
  split
  · split
    · exact sends_relaySend
    · split
      -- a stale direct path is given up before the packet is relayed
      · split
        · refine (Sends.update fun s => ?_).trans sends_relaySend
          rfl
        · exact sends_sendCounted
      · exact sends_relaySend
  · exact sends_relaySend
  · exact sends_relaySend

theorem sends_transmit {f : Option Sealing} : Sends pk c (transmit cfg C env pk f c) := by
  cases f with
  | none => exact .refl
  | some f => exact sends_transportSend

theorem plane_sendAck {ack : Nat} (k : RawKey) :
    (sendAck cfg C env pk ack c).plane k = c.plane k :=
  sends_transmit.plane k

theorem sends_requery : Sends pk c (requery env pk c) := by
  unfold requery
  split
  · exact .refl
  · rename_i s _
    split
    · have hQuery : Sends pk c { c with queries := c.queries ++ [s.ip] } :=
        ⟨fun _ => rfl, fun _ _ => rfl, rfl, rfl, rfl, rfl, rfl, rfl⟩
      refine hQuery.trans (.update fun s => ?_)
      rfl
    · exact .refl

-- ---------------------------------------------------------------------------
-- Calls as runs of events
-- ---------------------------------------------------------------------------

namespace DataPlane

/-- The state after a list of events. -/
def after (cfg : Config) (C : Crypto Ct) (s : DataPlane) (es : List Event) : DataPlane :=
  es.foldl (fun s e => (s.step cfg C e).1) s

theorem after_append {s : DataPlane} {es es' : List Event} :
    s.after cfg C (es ++ es') = (s.after cfg C es).after cfg C es' := List.foldl_append ..

end DataPlane

/-- From `c` to `c'` the events ran on the data plane of `pk`, and nothing on
any other. -/
structure Ran (cfg : Config) (C : Crypto Ct) (pk : RawKey) (es : List Event) (c c' : Client Ct) :
    Prop where
  self : c'.plane pk = (c.plane pk).map fun s => s.after cfg C es
  other : ∀ k, k ≠ pk → c'.plane k = c.plane k

namespace Ran

theorem of_planes (h : ∀ k, c'.plane k = c.plane k) : Ran cfg C pk [] c c' where
  self := by
    rw [h]
    exact Option.map_id'.symm
  other k _ := h k

theorem trans {es es' : List Event} (h : Ran cfg C pk es c c') (h' : Ran cfg C pk es' c' c'') :
    Ran cfg C pk (es ++ es') c c'' where
  self := by
    rw [h'.self, h.self, Option.map_map]
    congr 1
    funext s
    exact DataPlane.after_append.symm
  other k hk := (h'.other k hk).trans (h.other k hk)

/-- A locked section is an event. -/
theorem locked {α : Type} {f : DataPlane → DataPlane × α} {e : Event}
    (h : ∀ s, c.plane pk = some s → (f s).1 = (s.step cfg C e).1) :
    Ran cfg C pk [e] c (c.locked pk f).1 where
  self := by
    rw [Client.plane_locked, if_pos rfl]
    cases hs : c.plane pk with
    | none => rfl
    | some s => exact congrArg some (h s hs)
  other k hk := by rw [Client.plane_locked, if_neg hk]

end Ran

/-- From `c` to `c'` events of the session's own ran on the data plane of `pk`. -/
def RanLocal (cfg : Config) (C : Crypto Ct) (pk : RawKey) (c c' : Client Ct) : Prop :=
  ∃ es, (∀ e ∈ es, e.isLocal = true) ∧ Ran cfg C pk es c c'

namespace RanLocal

theorem of_planes (h : ∀ k, c'.plane k = c.plane k) : RanLocal cfg C pk c c' :=
  ⟨[], nofun, .of_planes h⟩

theorem trans (h : RanLocal cfg C pk c c') (h' : RanLocal cfg C pk c' c'') :
    RanLocal cfg C pk c c'' := by
  obtain ⟨es, hLocal, hRan⟩ := h
  obtain ⟨es', hLocal', hRan'⟩ := h'
  refine ⟨es ++ es', ?_, hRan.trans hRan'⟩
  intro e he
  rcases List.mem_append.mp he with he | he
  · exact hLocal e he
  · exact hLocal' e he

end RanLocal

theorem Ran.followed {e : Event} (h : Ran cfg C pk [e] c c') (h' : RanLocal cfg C pk c' c'') :
    ∃ es, (∀ e ∈ es, e.isLocal = true) ∧ Ran cfg C pk (e :: es) c c'' := by
  obtain ⟨es, hLocal, hRan⟩ := h'
  exact ⟨es, hLocal, h.trans hRan⟩

theorem ran_sendSection {f : DataPlane → DataPlane × Option Sealing} {e : Event}
    (h : ∀ s, c.plane pk = some s → (f s).1 = (s.step cfg C e).1) :
    Ran cfg C pk [e] c (sendSection cfg C env pk f c) :=
  (Ran.locked h).trans (.of_planes sends_transmit.plane)

theorem ran_sendData {payload : Bytes} :
    Ran cfg C pk [.countPkt env.now (env.draw c.draws), .sealData env.now payload] c
      (sendData cfg C env pk payload c) := by
  -- the query and the draw touch no data plane
  have hQuery : Ran cfg C pk [] c ((requery env pk c).draw env).2 :=
    .of_planes sends_requery.plane
  have hDraws : (requery env pk c).draws = c.draws := sends_requery.draws
  rw [← hDraws]
  have hCount : Ran cfg C pk [.countPkt env.now (env.draw (requery env pk c).draws)] c
      (sendSection cfg C env pk (DataPlane.countPkt cfg C env.now
        (env.draw (requery env pk c).draws)) ((requery env pk c).draw env).2) :=
    hQuery.trans (ran_sendSection fun _ _ => rfl)
  unfold sendData
  exact hCount.trans (ran_sendSection fun _ _ => rfl)

theorem draws_sendSection {f : DataPlane → DataPlane × Option Sealing} :
    (sendSection cfg C env pk f c).draws = c.draws := by
  have hLocked : (c.locked pk f).1.draws = c.draws := by
    unfold Client.locked
    split <;> rfl
  exact sends_transmit.draws.trans hLocked

theorem draws_sendData {payload : Bytes} :
    (sendData cfg C env pk payload c).draws = c.draws + 1 := by
  simp only [sendData, draws_sendSection, Client.draw, sends_requery.draws]

-- ---------------------------------------------------------------------------
-- The retransmission round
-- ---------------------------------------------------------------------------

/-- The entry is in the window with this payload, and `retransmit` resends it. -/
def DueEntry (now : Instant) (w : Window) (e : Nat × Bytes) : Prop :=
  ∃ u, w.sendUnacked[e.1]? = some u ∧ u.payload = e.2 ∧ Window.due now u = true

theorem dueEntry_of_expired {now : Instant} {w : Window} {e : Nat × Bytes}
    (h : e ∈ w.expired now) : DueEntry now w e := by
  obtain ⟨⟨seq, u⟩, hMem, hSome⟩ := List.mem_filterMap.mp h
  dsimp only at hSome
  split at hSome
  · cases hSome
  · rename_i hRetries
    split at hSome
    · cases hSome
    · rename_i hTimer
      cases hSome
      refine ⟨u, Std.ExtTreeMap.mem_toList_iff_getElem?_eq_some.mp hMem, rfl, ?_⟩
      simp only [Window.due, Bool.and_eq_true, decide_eq_true_eq]
      exact ⟨Nat.lt_of_not_le hRetries, Nat.le_of_not_lt hTimer⟩

theorem nodup_expired {now : Instant} {w : Window} : ((w.expired now).map Prod.fst).Nodup := by
  have hKeys : (w.sendUnacked.toList.map Prod.fst).Nodup := by
    rw [Std.ExtTreeMap.map_fst_toList_eq_keys]
    exact Std.ExtTreeMap.nodup_keys
  -- `expired` drops entries and keeps the numbers of the others
  refine hKeys.sublist ?_
  unfold Window.expired
  generalize w.sendUnacked.toList = entries
  induction entries with
  | nil => exact .slnil
  | cons entry entries ih =>
    obtain ⟨seq, u⟩ := entry
    simp only [List.filterMap_cons, List.map_cons]
    split
    · exact ih.cons _
    · rename_i e hSome
      split at hSome
      · cases hSome
      · split at hSome
        · cases hSome
        · cases hSome
          exact ih.cons_cons _

/-- Resending another packet leaves an entry as it is. -/
theorem DueEntry.resend {now : Instant} {s : DataPlane} {e : Nat × Bytes} {seq : Nat}
    {payload : Bytes} (h : DueEntry now s.toWindow e) (hNe : e.1 ≠ seq) :
    DueEntry now (s.resend now seq payload).1.toWindow e := by
  unfold DataPlane.resend
  split
  · exact h
  · obtain ⟨u, hu, hRest⟩ := h
    refine ⟨u, ?_, hRest⟩
    dsimp only
    rw [Window.getElem?_bump, if_neg hNe]
    exact hu

/-- The inner loop of `retransmit`. -/
theorem ran_resends (cfg : Config) (C : Crypto Ct) (entries : List (Nat × Bytes))
    (hNodup : (entries.map Prod.fst).Nodup)
    (hDue : ∀ s, c.plane pk = some s → ∀ e ∈ entries, DueEntry env.now s.toWindow e) :
    Ran cfg C pk (entries.map fun e => .resend env.now e.1) c
      (entries.foldl (fun c (seq, payload) => resend cfg C env pk seq payload c) c) := by
  induction entries generalizing c with
  | nil => exact .of_planes fun _ => rfl
  | cons e entries ih =>
    obtain ⟨seq, payload⟩ := e
    simp only [List.map_cons, List.nodup_cons] at hNodup
    -- the entry is still there and due, so the section is the event
    have hHead : Ran cfg C pk [.resend env.now seq] c (resend cfg C env pk seq payload c) := by
      refine ran_sendSection fun s hs => ?_
      obtain ⟨u, hu, -, hIsDue⟩ := hDue s hs _ (List.mem_cons_self ..)
      simp only [DataPlane.step, hu, hIsDue, if_true]
      unfold DataPlane.resend
      split <;> rfl
    refine hHead.trans (ih hNodup.2 fun s hs e he => ?_)
    -- the plane after the first packet is that of the section
    have hSection : (c.locked pk (DataPlane.resend env.now seq payload)).1.plane pk = some s :=
      (sends_transmit.plane pk).symm.trans hs
    rw [Client.plane_locked, if_pos rfl, Option.map_eq_some_iff] at hSection
    obtain ⟨s₀, hs₀, rfl⟩ := hSection
    refine (hDue s₀ hs₀ e (List.mem_cons_of_mem _ he)).resend ?_
    rintro rfl
    exact hNodup.1 (List.mem_map_of_mem he)

/-- `retransmit` resends, in every session, the packets that are due. -/
theorem plane_retransmit (k : RawKey) : (retransmit cfg C env c).plane k = (c.plane k).map fun s =>
    s.after cfg C ((s.toWindow.expired env.now).map fun e => .resend env.now e.1) := by
  have hRounds : ∀ (ks : List RawKey) (c : Client Ct), ks.Nodup →
      (ks.foldl (fun c pk =>
        match c.peers[pk]? with
        | none => c
        | some s => (s.toWindow.expired env.now).foldl (fun c (seq, payload) =>
            resend cfg C env pk seq payload c) c) c).plane k =
        if k ∈ ks then (c.plane k).map fun s =>
          s.after cfg C ((s.toWindow.expired env.now).map fun e => .resend env.now e.1)
        else c.plane k := by
    intro ks
    induction ks with
    | nil => exact fun _ _ => rfl
    | cons pk ks ih =>
      intro c hNodup
      rw [List.nodup_cons] at hNodup
      rw [List.foldl_cons, ih _ hNodup.2]
      cases hs : c.peers[pk]? with
      | none =>
        by_cases hk : k = pk
        · subst hk
          simp [hNodup.1, Client.plane, hs]
        · simp [hk]
      | some s =>
        have hPlane : c.plane pk = some s.toDataPlane := by rw [Client.plane, hs]; rfl
        -- the round of this key, before those of the other keys
        have hRan := ran_resends cfg C (s.toWindow.expired env.now) nodup_expired
          fun s' hs' e he => by
            cases hPlane.symm.trans hs'
            exact dueEntry_of_expired he
        by_cases hk : k = pk
        · subst hk
          simp only [hNodup.1, if_false, List.mem_cons_self, if_true]
          rw [hRan.self, hPlane]
          rfl
        · simp only [List.mem_cons, hk, false_or]
          rw [hRan.other k hk]
  refine (hRounds c.peers.keys c Std.ExtTreeMap.nodup_keys).trans ?_
  split
  · rfl
  · rename_i hNot
    -- a key that the loop does not visit has no session
    have hNone : c.plane k = none := by
      rw [Client.plane,
        Std.ExtTreeMap.getElem?_eq_none fun h => hNot (Std.ExtTreeMap.mem_keys.mpr h)]
      rfl
    rw [hNone]
    rfl

end LinkMesh
