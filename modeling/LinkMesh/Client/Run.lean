import LinkMesh.Basis.Machine
import LinkMesh.Client.Session

/-!
# Runs of a session

The sections of the source that hold a session's lock are the atomic steps of
its data plane. An `Event` is one of them with its inputs; `DataPlane.step`
gives the new state and what the section produced. A call such as
`send_data` is a short sequence of events (`Client/Outbox.lean`,
`Client/Conn.lean`), so the runs of events include every interleaving of
calls, those of the tasks that the source spawns included.

`Node` adds to the data plane the history a property of runs speaks about:
every encryption, every packet stored in the send window, every entry removed
by an acknowledgement, and every payload handed to the TUN.

* `KeyStep`, `step_keyStep`       — what an event can do to the keys;
* `WindowStep`, `step_windowStep` — what an event can do to the windows.
-/

namespace LinkMesh

variable {Ct : Type}

-- ---------------------------------------------------------------------------
-- Events and their sections
-- ---------------------------------------------------------------------------

inductive Event where
  | buildHello (d : Draw)
  | countPkt (now : Instant) (d : Draw)
  | maybeRekey (now : Instant) (d : Draw)
  | sealData (now : Instant) (payload : Bytes)
  | handleAck (ack : Nat)
  | resend (now : Instant) (seq : Nat)
  | handleHello (now : Instant) (d : Draw) (rk : RawKey) (salt : Salt)
  | takePending
  | handleRekey (now : Instant) (epoch : Nat) (rk : RawKey) (salt : Salt)
  | recvData (d : Draw) (epoch seq : Nat) (payload : Bytes)
  deriving DecidableEq, Repr

/-- Whether the section handles a HELLO. -/
def Event.isHello : Event → Bool
  | .handleHello .. => true
  | _ => false

/-- The routing key and salt that the section learns from the peer. -/
def Event.announced : Event → Option (RawKey × Salt)
  | .handleHello _ _ rk salt | .handleRekey _ _ rk salt => some (rk, salt)
  | _ => none

/-- Whether a side runs the section on its own, not for a received frame. -/
def Event.isLocal : Event → Bool
  | .buildHello .. | .countPkt .. | .maybeRekey .. | .sealData .. | .resend ..
  | .takePending => true
  | _ => false

/-- The private routing key that the section may draw. -/
def Event.drawnRk : Event → Option RawKey
  | .countPkt _ d | .maybeRekey _ d => some d.rk
  | _ => none

/-- The section `handle_peer_data` runs for a decrypted tunnel packet. -/
def Plain.event (now : Instant) (d : Draw) : Plain → Option Event
  | .hello _ rk salt _ => some (.handleHello now d rk salt)
  | .data epoch seq payload => some (.recvData d epoch seq payload)
  | .rekey epoch rk salt => some (.handleRekey now epoch rk salt)
  | .ack _ high => some (.handleAck high)
  | .malformed => none
  | .short => none

/-- What a section produces: frames to send, payloads for the TUN, and the
packets it stored in and removed from the send window. -/
structure Output where
  sealed : List Sealing := []
  delivered : List Bytes := []
  stored : List (Nat × Bytes) := []
  acked : List (Nat × Bytes) := []

namespace Window

/-- The window entries a cumulative acknowledgement removes. -/
def covered (ack : Nat) (w : Window) : List (Nat × Bytes) :=
  (w.sendUnacked.toList.filter fun e => decide (e.1 ≤ ack)).map fun e => (e.1, e.2.payload)

/-- Whether `retransmit` resends this entry at `now`. -/
def due (now : Instant) (u : Unacked) : Bool :=
  decide (u.retries < maxRetries) && decide (retransmitTimeoutMs ≤ now - u.since)

end Window

namespace DataPlane

/-- One locked section. -/
def step (cfg : Config) (C : Crypto Ct) (s : DataPlane) : Event → DataPlane × Output
  | .buildHello d => (s, { sealed := (s.toKeyState.buildHelloCt cfg d).toList })
  | .countPkt now d =>
    let (s, rekey) := s.countPkt cfg C now d
    (s, { sealed := rekey.toList })
  | .maybeRekey now d =>
    let (s, rekey) := s.maybeRekey cfg C now d
    (s, { sealed := rekey.toList })
  | .sealData now payload =>
    let (s, data) := s.sealData now payload
    (s, { sealed := data.toList, stored := data.toList.map fun _ => (s.sendSeq, payload) })
  | .handleAck ack =>
    (s.handleAck ack, { acked := if s.established then s.toWindow.covered ack else [] })
  | .resend now seq =>
    match s.sendUnacked[seq]? with
    | none => (s, {})
    | some u =>
      if Window.due now u then
        let (s, data) := s.resend now seq u.payload
        (s, { sealed := data.toList })
      else (s, {})
  | .handleHello now d rk salt =>
    let (s, _, hello) := s.handleHello cfg C now d rk salt
    (s, { sealed := hello.toList })
  | .takePending => (s.takePending.1, {})
  | .handleRekey now epoch rk salt => (s.handleRekey cfg C now epoch rk salt, {})
  -- the receiving section and the `send_ack` it ends in are one event
  | .recvData d epoch seq payload =>
    let (s, delivered, ack) := s.recvData epoch seq payload
    (s, { sealed := (ack.bind (s.sendAck d)).toList, delivered })

end DataPlane

-- ---------------------------------------------------------------------------
-- Nodes and their runs
-- ---------------------------------------------------------------------------

/-- A session with its history. -/
structure Node where
  dp : DataPlane
  /-- every encryption so far -/
  sealed : List Sealing
  /-- the peer routing keys this session has used in its current epoch -/
  held : List RawKey
  /-- every packet stored in the send window, with the number it was given -/
  stored : List (Nat × Bytes)
  /-- every window entry removed by an acknowledgement -/
  acked : List (Nat × Bytes)
  /-- every payload handed to the TUN -/
  tun : List Bytes

namespace Node

def start (dp : DataPlane) : Node where
  dp
  sealed := []
  held := []
  stored := []
  acked := []
  tun := []

def step (cfg : Config) (C : Crypto Ct) (n : Node) (e : Event) : Node :=
  let (dp, out) := n.dp.step cfg C e
  { dp
    sealed := n.sealed ++ out.sealed
    held := dp.peerRkPub.toList ++ (if dp.epoch = n.dp.epoch then n.held else [])
    stored := n.stored ++ out.stored
    acked := n.acked ++ out.acked
    tun := n.tun ++ out.delivered }

/-- The runs of one session from `dp`. -/
def machine (cfg : Config) (C : Crypto Ct) (dp : DataPlane) : Machine Node Event where
  init n := n = start dp
  enabled _ _ := True
  next := step cfg C

variable {cfg : Config} {C : Crypto Ct} {n : Node} {e : Event}

/-- Every list of events is a run of the trivial guard. -/
theorem reach_run {dp : DataPlane} (h : (machine cfg C dp).Reach (fun _ _ => True) n)
    (es : List Event) :
    (machine cfg C dp).Reach (fun _ _ => True) ((machine cfg C dp).run n es) := by
  exact Machine.reach_run h (Machine.admissible_of_forall fun _ _ _ => ⟨trivial, trivial⟩)

@[simp] theorem step_dp : (n.step cfg C e).dp = (n.dp.step cfg C e).1 := rfl

@[simp] theorem step_sealed :
    (n.step cfg C e).sealed = n.sealed ++ (n.dp.step cfg C e).2.sealed := rfl

theorem step_held : (n.step cfg C e).held = (n.dp.step cfg C e).1.peerRkPub.toList ++
    (if (n.dp.step cfg C e).1.epoch = n.dp.epoch then n.held else []) := rfl

end Node

-- ---------------------------------------------------------------------------
-- What an event does to the keys
-- ---------------------------------------------------------------------------

/-- HELLO and REKEY frames. -/
def Plain.handshake : Plain → Bool
  | .hello .. => true
  | .rekey .. => true
  | _ => false

/-- The routing key and salt that a frame announces. -/
def Plain.announced : Plain → Option (RawKey × Salt)
  | .hello _ rk salt _ | .rekey _ rk salt => some (rk, salt)
  | _ => none

namespace KeyState

/-- What an event can do to the keys, with the handshake frames it sends. -/
inductive KeyStep (cfg : Config) (C : Crypto Ct) (s : KeyState) :
    Event → KeyState → List Sealing → Prop where
  | idle {e : Event} : e.announced = none → KeyStep cfg C s e s []
  | announce {d : Draw} {f : Sealing} : s.buildHelloCt cfg d = some f →
      KeyStep cfg C s (.buildHello d) s [f]
  | rotate {now : Instant} {d : Draw} {s' : KeyState} {f : Sealing} :
      s.maybeRekey cfg C d = some (s', f) →
      KeyStep cfg C s (.maybeRekey now d) s' [f]
  | rotateCount {now : Instant} {d : Draw} {s' : KeyState} {f : Sealing} :
      s.maybeRekey cfg C d = some (s', f) →
      KeyStep cfg C s (.countPkt now d) s' [f]
  | accept {now : Instant} {d : Draw} {rk : RawKey} {salt : Salt} {reply : List Sealing} :
      reply = (if s.peerKey.isNone || s.peerRkPub != some rk then
        ((s.acceptHello cfg C d rk salt).replyHello cfg d).toList else []) →
      KeyStep cfg C s (.handleHello now d rk salt) (s.acceptHello cfg C d rk salt) reply
  | follow {now : Instant} {epoch : Nat} {rk : RawKey} {salt : Salt} :
      KeyStep cfg C s (.handleRekey now epoch rk salt) (s.handleRekey cfg C epoch rk salt) []

end KeyState

namespace DataPlane

open KeyState (KeyStep)

variable {cfg : Config} {C : Crypto Ct} {s : DataPlane}

/-- The frames among `fs` that are HELLO or REKEY. -/
def handshakes (fs : List Sealing) : List Sealing := fs.filter fun f => f.plain.handshake

theorem step_keyStep (cfg : Config) (C : Crypto Ct) (s : DataPlane) (e : Event) :
    KeyStep cfg C s.toKeyState e (s.step cfg C e).1.toKeyState
      (handshakes (s.step cfg C e).2.sealed) := by
  -- `count_pkt` and `maybe_rekey` share the rotation; it sends its REKEY or nothing
  have rekeyFrame (now : Instant) (d : Draw) (s : DataPlane) :
      (∃ s' f, s.toKeyState.maybeRekey cfg C d = some (s', f) ∧
        (s.maybeRekey cfg C now d).1.toKeyState = s' ∧
        handshakes (s.maybeRekey cfg C now d).2.toList = [f]) ∨
      ((s.maybeRekey cfg C now d).1.toKeyState = s.toKeyState ∧
        handshakes (s.maybeRekey cfg C now d).2.toList = []) := by
    cases h : s.toKeyState.maybeRekey cfg C d with
    | none => exact .inr ⟨by simp [maybeRekey, h], by simp [maybeRekey, h, handshakes]⟩
    | some r =>
      obtain ⟨s', f⟩ := r
      obtain ⟨-, -, _, -, -, hf⟩ := KeyState.maybeRekey_eq_some.mp h
      refine .inl ⟨s', f, rfl, by simp [maybeRekey, h], ?_⟩
      simp [maybeRekey, h, handshakes, hf, Plain.handshake]
  cases e with
  | buildHello d =>
    cases h : s.toKeyState.buildHelloCt cfg d with
    | none => simpa [step, h, handshakes] using KeyStep.idle (e := .buildHello d) rfl
    | some f =>
      obtain ⟨_, _, -, -, hf⟩ := KeyState.buildHelloCt_eq_some.mp h
      have hHand : f.plain.handshake = true := by rw [hf]; rfl
      simpa [step, h, handshakes, hHand] using KeyStep.announce h
  | countPkt now d =>
    simp only [step, countPkt]
    split
    · rcases rekeyFrame now d { s with sentPkts := s.sentPkts + 1 } with
        ⟨s', f, h, hKeys, hOut⟩ | ⟨hKeys, hOut⟩
      · rw [hKeys, hOut]
        exact .rotateCount h
      · rw [hKeys, hOut]
        exact .idle rfl
    · exact .idle rfl
  | maybeRekey now d =>
    simp only [step]
    rcases rekeyFrame now d s with ⟨s', f, h, hKeys, hOut⟩ | ⟨hKeys, hOut⟩
    · rw [hKeys, hOut]
      exact .rotate h
    · rw [hKeys, hOut]
      exact .idle rfl
  | sealData now payload =>
    simp only [step, sealData]
    split
    · exact .idle rfl
    · split <;> exact .idle rfl
  | handleAck ack =>
    simp only [step, handleAck]
    split <;> exact .idle rfl
  | resend now seq =>
    simp only [step, resend]
    split
    · exact .idle rfl
    · split
      · split <;> exact .idle rfl
      · exact .idle rfl
  | handleHello now d rk salt =>
    refine .accept ?_
    simp only [step, handleHello]
    split
    · cases h : (s.toKeyState.acceptHello cfg C d rk salt).replyHello cfg d with
      | none => simp [handshakes]
      | some f =>
        obtain ⟨_, _, -, -, hf⟩ := KeyState.replyHello_eq_some.mp h
        simp [handshakes, hf, Plain.handshake]
    · rfl
  | takePending => exact .idle rfl
  | handleRekey now epoch rk salt =>
    -- without an own routing key there is nothing to derive from, and the keys stay
    have h : (s.handleRekey cfg C now epoch rk salt).toKeyState =
        s.toKeyState.handleRekey cfg C epoch rk salt := by
      unfold handleRekey KeyState.handleRekey
      split
      · rename_i hNo
        rcases hNo with hNo | hNo | hNo
        · rw [if_pos (.inl hNo)]
        · rw [if_pos (.inr hNo)]
        · split
          · rfl
          · rw [hNo]
      · rfl
    simp only [step, h]
    exact .follow
  | recvData d epoch seq payload =>
    simp only [step, recvData]
    split
    · exact .idle rfl
    · simp only [Option.bind_some, sendAck]
      split <;> exact .idle rfl

-- ---------------------------------------------------------------------------
-- What an event does to the windows
-- ---------------------------------------------------------------------------

/-- The frames among `fs` that are neither HELLO nor REKEY. -/
def transfers (fs : List Sealing) : List Sealing := fs.filter fun f => !f.plain.handshake

end DataPlane

/-- An output without its HELLO and REKEY frames. -/
def Output.transfers (out : Output) : Output :=
  { out with sealed := DataPlane.transfers out.sealed }

namespace DataPlane

/-- What an event can do to the windows, with the DATA and ACK frames and the
history it produces. -/
inductive WindowStep (s : DataPlane) : Event → Window → Output → Prop where
  | idle {e : Event} : e.isHello = false → WindowStep s e s.toWindow {}
  | hold {now : Instant} {p : Bytes} {pending : List Bytes} : s.established = false →
      WindowStep s (.sealData now p) { s.toWindow with pending } {}
  | burn {now : Instant} {p : Bytes} : s.established = true →
      reliableWindow ≤ s.sendUnacked.size →
      WindowStep s (.sealData now p) { s.toWindow with sendSeq := s.sendSeq + 1 } {}
  | store {now : Instant} {p : Bytes} : s.established = true →
      s.sendUnacked.size < reliableWindow →
      WindowStep s (.sealData now p) (s.toWindow.push now p)
        { sealed := [⟨s.currentKey, dataNonce s.epoch (s.sendSeq + 1),
            .data s.epoch (s.sendSeq + 1) p⟩]
          stored := [(s.sendSeq + 1, p)] }
  | ack {ack : Nat} : s.established = true →
      WindowStep s (.handleAck ack) (s.toWindow.handleAck ack)
        { acked := s.toWindow.covered ack }
  | resend {now : Instant} {seq : Nat} {u : Unacked} : s.established = true →
      s.sendUnacked[seq]? = some u → Window.due now u = true →
      WindowStep s (.resend now seq) (s.toWindow.bump now seq)
        { sealed := [⟨s.currentKey, dataNonce s.epoch seq, .data s.epoch seq u.payload⟩] }
  | hello {now : Instant} {d : Draw} {rk : RawKey} {salt : Salt} :
      WindowStep s (.handleHello now d rk salt)
        (s.toWindow.acceptHello now s.peerKey.isNone (s.peerRkPub != some rk)) {}
  | take : WindowStep s .takePending { s.toWindow with pending := [] } {}
  | recv {d : Draw} {seq : Nat} {p : Bytes} {delivered : List Bytes} {high : Nat}
      {buf : Std.ExtTreeMap Nat Bytes} : s.established = true →
      reorderDeliver s.recvSeq s.recvBuf seq p = (delivered, high, buf) →
      WindowStep s (.recvData d s.epoch seq p) { s.toWindow with recvBuf := buf, recvSeq := high }
        { sealed := [⟨s.currentKey, d.nonce, .ack s.epoch high⟩], delivered }

theorem step_windowStep (cfg : Config) (C : Crypto Ct) (s : DataPlane) (e : Event) :
    WindowStep s e (s.step cfg C e).1.toWindow (s.step cfg C e).2.transfers := by
  -- a rotation touches no window, and its REKEY is no transfer
  have rekeyFrame {now : Instant} {d : Draw} {s : DataPlane} :
      (s.maybeRekey cfg C now d).1.toWindow = s.toWindow ∧
        transfers (s.maybeRekey cfg C now d).2.toList = [] := by
    cases h : s.toKeyState.maybeRekey cfg C d with
    | none => simp [maybeRekey, h, transfers]
    | some r =>
      obtain ⟨s', f⟩ := r
      obtain ⟨-, -, _, -, -, hf⟩ := KeyState.maybeRekey_eq_some.mp h
      simp [maybeRekey, h, transfers, hf, Plain.handshake]
  cases e with
  | buildHello d =>
    have hOut : transfers (s.toKeyState.buildHelloCt cfg d).toList = [] := by
      cases h : s.toKeyState.buildHelloCt cfg d with
      | none => rfl
      | some f =>
        obtain ⟨_, _, -, -, hf⟩ := KeyState.buildHelloCt_eq_some.mp h
        simp [transfers, hf, Plain.handshake]
    simp only [step, Output.transfers, hOut]
    exact .idle rfl
  | countPkt now d =>
    simp only [step, countPkt]
    split
    · simp only [Output.transfers, rekeyFrame.1, rekeyFrame.2]
      exact .idle rfl
    · exact .idle rfl
  | maybeRekey now d =>
    simp only [step, Output.transfers]
    rw [rekeyFrame.1, rekeyFrame.2]
    exact .idle rfl
  | sealData now payload =>
    simp only [step, sealData]
    split
    · rename_i hEst
      exact .hold hEst
    · rename_i hEst
      simp only [Bool.not_eq_false] at hEst
      split
      -- the source drops the packet here, after it has taken the number
      · rename_i hFull
        exact .burn hEst hFull
      · rename_i hRoom
        exact .store hEst (by omega)
  | handleAck ack =>
    simp only [step, handleAck]
    split
    · rename_i hEst
      simp only [hEst, Bool.false_eq_true, if_false]
      exact .idle rfl
    · rename_i hEst
      simp only [Bool.not_eq_false] at hEst
      simp only [hEst, if_true]
      exact .ack hEst
  | resend now seq =>
    simp only [step, resend]
    split
    · exact .idle rfl
    · rename_i u hu
      split
      · rename_i hDue
        split
        · exact .idle rfl
        · rename_i hEst
          simp only [Bool.not_eq_false] at hEst
          exact .resend hEst hu hDue
      · exact .idle rfl
  | handleHello now d rk salt =>
    have hOut : transfers (s.handleHello cfg C now d rk salt).2.2.toList = [] := by
      simp only [handleHello]
      split
      · cases h : (s.toKeyState.acceptHello cfg C d rk salt).replyHello cfg d with
        | none => rfl
        | some f =>
          obtain ⟨_, _, -, -, hf⟩ := KeyState.replyHello_eq_some.mp h
          simp [transfers, hf, Plain.handshake]
      · rfl
    simp only [step, Output.transfers, hOut]
    exact .hello
  | takePending => exact .take
  | handleRekey now epoch rk salt =>
    simp only [step, handleRekey]
    split <;> exact .idle rfl
  | recvData d epoch seq payload =>
    simp only [step, recvData]
    split
    · exact .idle rfl
    · rename_i hYes
      push Not at hYes
      obtain ⟨hEst, rfl⟩ := hYes
      simp only [ne_eq, Bool.not_eq_false] at hEst
      -- the session is established, so the acknowledgement is sent
      have hAck : (DataPlane.sendAck d (reorderDeliver s.recvSeq s.recvBuf seq payload).2.1
          { s with
            recvBuf := (reorderDeliver s.recvSeq s.recvBuf seq payload).2.2
            recvSeq := (reorderDeliver s.recvSeq s.recvBuf seq payload).2.1 }) =
          some ⟨s.currentKey, d.nonce,
            .ack s.epoch (reorderDeliver s.recvSeq s.recvBuf seq payload).2.1⟩ := by
        simp [sendAck, hEst]
      simp only [Option.bind_some, hAck, Output.transfers]
      exact .recv hEst rfl

/-- A section seals at most one frame. -/
theorem step_sealed (cfg : Config) (C : Crypto Ct) (s : DataPlane) (e : Event) :
    ∃ o : Option Sealing, (s.step cfg C e).2.sealed = o.toList := by
  cases e with
  | buildHello d => exact ⟨_, rfl⟩
  | countPkt now d => exact ⟨_, rfl⟩
  | maybeRekey now d => exact ⟨_, rfl⟩
  | sealData now payload => exact ⟨_, rfl⟩
  | handleAck ack => exact ⟨none, rfl⟩
  | resend now seq =>
    simp only [step]
    split
    · exact ⟨none, rfl⟩
    · split
      · exact ⟨_, rfl⟩
      · exact ⟨none, rfl⟩
  | handleHello now d rk salt => exact ⟨_, rfl⟩
  | takePending => exact ⟨none, rfl⟩
  | handleRekey now epoch rk salt => exact ⟨none, rfl⟩
  | recvData d epoch seq payload => exact ⟨_, rfl⟩

/-- The frames of a section are its handshake frames, or there are none of these. -/
theorem step_sealed_cases (cfg : Config) (C : Crypto Ct) (s : DataPlane) (e : Event) :
    (s.step cfg C e).2.sealed = handshakes (s.step cfg C e).2.sealed ∨
      (handshakes (s.step cfg C e).2.sealed = [] ∧
        ∀ f ∈ (s.step cfg C e).2.sealed, f.plain.handshake = false) := by
  obtain ⟨o, ho⟩ := step_sealed cfg C s e
  rw [ho]
  cases o with
  | none => exact .inl rfl
  | some f =>
    cases hHand : f.plain.handshake with
    | true => exact .inl (by simp [handshakes, hHand])
    | false => exact .inr ⟨by simp [handshakes, hHand], by simp [hHand]⟩

end DataPlane

-- ---------------------------------------------------------------------------
-- Two sample clients
-- ---------------------------------------------------------------------------

/-- The client with the larger public key. -/
def aliceCfg : Config where
  localPub := 2
  localPriv := 2
  localIp := "10.13.13.1"
  holePunchEnabled := true
  rekeyEveryPkts := 0
  relayRecoverStale := 60000
  relayRk := 70
  relayAddr := 90

def bobCfg : Config := { aliceCfg with
  localPub := 1
  localPriv := 1
  localIp := "10.13.13.2"
  relayRk := 71 }

def sampleDraw : Draw := ⟨30, 7, (0, 0)⟩

/-- Alice's session with Bob, her routing key 10 and salt 5. -/
def aliceStart : DataPlane := .new 1 (symbolic.sharedSecret 2 1) 10 10 5 0

end LinkMesh
