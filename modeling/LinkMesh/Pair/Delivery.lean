import LinkMesh.Basis.NumberedLog
import LinkMesh.Client.Reorder
import LinkMesh.Client.SendWindow
import LinkMesh.Pair.World

/-!
# In-order delivery within one incarnation

Without restarts, and no HELLO that renumbers the send window, over a channel
that loses, duplicates and reorders.

* `StreamInv`             — the joint invariant of the sender's window, the
  frames in flight, the reorder buffer and the acknowledgements;
* `in_order_exactly_once` — what reaches the TUN is a prefix of what was stored
  in the send window, in number order and without repetition; nothing honest
  is ever discarded by the buffer's cap, and only delivered packets are
  acknowledged.
-/

namespace LinkMesh.Pair

open NumberedLog

variable {Ct : Type} {C : Crypto Ct} {P : Pair C}

-- ---------------------------------------------------------------------------
-- Runs that renumber nothing
-- ---------------------------------------------------------------------------

/-- Nobody restarts, and no HELLO changes the routing key recorded by an
established session. -/
def KeepsNumbering (C : Crypto Ct) (w : World) (l : Label) : Prop :=
  l.isRestart = false ∧ ∀ rk ∈ arrivingHello C w l, (w.node l.side).dp.established = true →
    (w.node l.side).dp.peerRkPub = some rk

instance (w : World) (l : Label) : Decidable (KeepsNumbering C w l) :=
  inferInstanceAs (Decidable (_ ∧ ∀ rk ∈ arrivingHello C w l, _ → _))

/-- The windows of a session that has carried no data. -/
structure Unused (w : Window) : Prop where
  sendSeq : w.sendSeq = 0
  sendUnacked : w.sendUnacked = ∅
  recvSeq : w.recvSeq = 0
  recvBuf : w.recvBuf = ∅

theorem Unused.acceptHello {w : Window} {now : Instant} {rkChanged : Bool} (h : Unused w) :
    w.acceptHello now true rkChanged = w := by
  obtain ⟨sendSeq, recvSeq, sendUnacked, recvBuf, pending⟩ := w
  obtain ⟨rfl, rfl, rfl, rfl⟩ := h
  rfl

/-- A HELLO that renumbers nothing: the session has carried no data yet, or the
HELLO is a keepalive. -/
theorem acceptHello_eq_self {s : DataPlane} {now : Instant} {rk : RawKey}
    (hUnused : s.established = false → Unused s.toWindow)
    (hHello : s.established = true → s.peerRkPub = some rk) :
    s.toWindow.acceptHello now s.peerKey.isNone (s.peerRkPub != some rk) = s.toWindow := by
  cases hEst : s.established with
  | false =>
    rw [KeyState.not_established_iff.mp hEst]
    exact (hUnused hEst).acceptHello
  | true =>
    obtain ⟨k, hk⟩ := KeyState.established_iff.mp hEst
    rw [hk, hHello hEst]
    simp [Window.acceptHello_keepalive]

-- ---------------------------------------------------------------------------
-- One stream
-- ---------------------------------------------------------------------------

/-- The stream from a sender (its window, what it stored and what was
acknowledged to it, the frames it sealed) to a receiver (its window, what it
handed to the TUN, the frames it sealed). -/
structure StreamInv (sw : Window) (stored acked : List (Nat × Bytes)) (sent : List Sealing)
    (rw : Window) (tun : List Bytes) (replies : List Sealing) : Prop where
  increasing : Increasing stored
  stored_le : ∀ e ∈ stored, e.1 ≤ sw.sendSeq
  window : ∀ (q : Nat) (u : Unacked), sw.sendUnacked[q]? = some u → (q, u.payload) ∈ stored
  room : sw.sendUnacked.size ≤ reliableWindow
  sent : ∀ f ∈ sent, ∀ e q p, f.plain = .data e q p → (q, p) ∈ stored
  unacked : ∀ e ∈ stored, e.1 ∈ sw.sendUnacked ∨ e.1 ≤ rw.recvSeq
  acked : ∀ e ∈ acked, e ∈ stored ∧ e.1 ≤ rw.recvSeq
  filled : Filled stored rw.recvSeq
  delivered : tun = (stored.take rw.recvSeq).map Prod.snd
  buffered : Buffered (fun q p => (q, p) ∈ stored) (rw.recvSeq + 1) rw.recvBuf
  replies : ∀ f ∈ replies, ∀ e a, f.plain = .ack e a → a ≤ rw.recvSeq

namespace StreamInv

variable {sw rw : Window} {stored acked : List (Nat × Bytes)} {sent replies : List Sealing}
  {tun : List Bytes}

/-- Only DATA frames of the sender and ACK frames of the receiver matter. -/
theorem of_frames {sent' replies' : List Sealing}
    (h : StreamInv sw stored acked sent rw tun replies)
    (hSent : ∀ f ∈ sent', f.plain.handshake = false → f ∈ sent)
    (hReplies : ∀ f ∈ replies', f.plain.handshake = false → f ∈ replies) :
    StreamInv sw stored acked sent' rw tun replies' :=
  { h with
    sent := fun f hf e q p hPlain => h.sent f (hSent f hf (by rw [hPlain]; rfl)) e q p hPlain
    replies := fun f hf e a hPlain =>
      h.replies f (hReplies f hf (by rw [hPlain]; rfl)) e a hPlain }

/-- The sender seals one more frame, which carries no packet it never stored. -/
theorem concat_sent {f : Sealing} (h : StreamInv sw stored acked sent rw tun replies)
    (hf : ∀ e q p, f.plain = .data e q p → (q, p) ∈ stored) :
    StreamInv sw stored acked (sent ++ [f]) rw tun replies := by
  refine { h with sent := fun g hg e q p hPlain => ?_ }
  rcases List.mem_append.mp hg with hg | hg
  · exact h.sent g hg e q p hPlain
  · cases List.mem_singleton.mp hg
    exact hf e q p hPlain

/-- The receiver seals one more frame, which acknowledges no packet it lacks. -/
theorem concat_replies {f : Sealing} (h : StreamInv sw stored acked sent rw tun replies)
    (hf : ∀ e a, f.plain = .ack e a → a ≤ rw.recvSeq) :
    StreamInv sw stored acked sent rw tun (replies ++ [f]) := by
  refine { h with replies := fun g hg e a hPlain => ?_ }
  rcases List.mem_append.mp hg with hg | hg
  · exact h.replies g hg e a hPlain
  · cases List.mem_singleton.mp hg
    exact hf e a hPlain

/-- The out-of-order cap is never reached: what the receiver would hold is
still unacknowledged at the sender. -/
theorem insert_le (h : StreamInv sw stored acked sent rw tun replies) {f : Sealing}
    (hf : f ∈ sent) {e q : Nat} {p : Bytes} (hPlain : f.plain = .data e q p)
    (hAhead : rw.recvSeq + 1 < q) : (rw.recvBuf.insert q p).size ≤ reliableWindow := by
  refine Nat.le_trans (SeqMap.size_le_of_subset fun k hk => ?_) h.room
  have hStored : ∃ p', (k, p') ∈ stored ∧ rw.recvSeq + 1 < k := by
    rcases SeqMap.mem_insert.mp hk with rfl | hk
    · exact ⟨p, h.sent f hf e k p hPlain, hAhead⟩
    · obtain ⟨p', hp'⟩ := SeqMap.mem_iff.mp hk
      obtain ⟨hMem, hLt⟩ := h.buffered k p' hp'
      exact ⟨p', hMem, hLt⟩
  obtain ⟨p', hMem, hLt⟩ := hStored
  exact (h.unacked (k, p') hMem).resolve_right (by simp only; omega)

/-- A packet is stored under the next number and sealed: it is the last one, beyond
everything delivered. -/
theorem push (h : StreamInv sw stored acked sent rw tun replies) (now : Instant) {p : Bytes}
    {f : Sealing} (hRoom : sw.sendUnacked.size < reliableWindow)
    (hf : ∀ e q p', f.plain = .data e q p' → (q, p') = (sw.sendSeq + 1, p)) :
    StreamInv (sw.push now p) (stored ++ [(sw.sendSeq + 1, p)]) acked (sent ++ [f]) rw tun
      replies where
  increasing := by
    have hFresh : ∀ e ∈ stored, e.1 < sw.sendSeq + 1 := fun e he =>
      Nat.lt_succ_of_le (h.stored_le e he)
    exact h.increasing.concat (Nat.succ_pos _) hFresh
  stored_le := by
    intro e he
    rcases List.mem_append.mp he with he | he
    · exact Nat.le_succ_of_le (h.stored_le e he)
    · cases List.mem_singleton.mp he
      exact Nat.le_refl _
  window := by
    intro q u hu
    rw [Window.getElem?_push] at hu
    split at hu
    · rename_i hq
      cases hu
      rw [hq]
      exact List.mem_append_right _ (List.mem_singleton_self _)
    · exact List.mem_append_left _ (h.window q u hu)
  room := Nat.le_trans Std.ExtTreeMap.size_insert_le hRoom
  sent := by
    intro g hg e q p' hPlain
    rcases List.mem_append.mp hg with hg | hg
    · exact List.mem_append_left _ (h.sent g hg e q p' hPlain)
    · cases List.mem_singleton.mp hg
      rw [hf e q p' hPlain]
      exact List.mem_append_right _ (List.mem_singleton_self _)
  unacked := by
    intro e he
    rcases List.mem_append.mp he with he | he
    · exact (h.unacked e he).imp_left fun hMem => Window.mem_push.mpr (.inr hMem)
    · cases List.mem_singleton.mp he
      exact .inl (Window.mem_push.mpr (.inl rfl))
  acked := fun e he => ⟨List.mem_append_left _ (h.acked e he).1, (h.acked e he).2⟩
  filled := h.filled.append _
  delivered := by
    rw [List.take_append_of_le_length h.filled.length_le]
    exact h.delivered
  buffered := by
    intro q p' hp'
    obtain ⟨hMem, hLt⟩ := h.buffered q p' hp'
    exact ⟨List.mem_append_left _ hMem, hLt⟩
  replies := h.replies

/-- The receiver has every packet that an acknowledgement removes. -/
theorem handleAck {a : Nat} (h : StreamInv sw stored acked sent rw tun replies) (hLe : a ≤ rw.recvSeq) :
    StreamInv (sw.handleAck a) stored (acked ++ sw.covered a) sent rw tun replies := by
  refine { h with window := ?_, room := ?_, unacked := ?_, acked := ?_ }
  · exact fun q u hu => h.window q u (Window.of_handleAck hu)
  · refine Nat.le_trans (SeqMap.size_le_of_subset fun k hk => ?_) h.room
    exact (Window.mem_handleAck.mp hk).2
  · intro e he
    by_cases hCovered : e.1 ≤ a
    · exact .inr (hCovered.trans hLe)
    · exact (h.unacked e he).imp_left fun hMem =>
        Window.mem_handleAck.mpr ⟨Nat.lt_of_not_le hCovered, hMem⟩
  · intro e he
    rcases List.mem_append.mp he with he | he
    · exact h.acked e he
    · obtain ⟨hCovered, u, hu, hPay⟩ := Window.mem_covered.mp he
      have hStored := h.window e.1 u hu
      rw [hPay] at hStored
      exact ⟨hStored, hCovered.trans hLe⟩

/-- A packet that is sent again stays stored. -/
theorem bump (h : StreamInv sw stored acked sent rw tun replies) (now : Instant) (seq : Nat) :
    StreamInv (sw.bump now seq) stored acked sent rw tun replies := by
  refine { h with
    window := fun q u' hu' => ?_
    room := Nat.le_trans (Nat.le_of_eq Std.ExtTreeMap.size_modify) h.room
    unacked := fun e he => (h.unacked e he).imp_left Window.mem_bump.mpr }
  obtain ⟨u₀, hOld, hPay⟩ := Window.of_bump hu'
  rw [← hPay]
  exact h.window q u₀ hOld

/-- A sender's section. -/
theorem sender (C : Crypto Ct) (cfg : Config) {s : DataPlane} {e : Event}
    (h : StreamInv s.toWindow stored acked sent rw tun replies)
    (hUnused : s.established = false → Unused s.toWindow)
    (hHello : ∀ now d rk salt, e = .handleHello now d rk salt → s.established = true →
      s.peerRkPub = some rk)
    (hAck : ∀ a, e = .handleAck a → a ≤ rw.recvSeq) :
    StreamInv (s.step cfg C e).1.toWindow (stored ++ (s.step cfg C e).2.stored)
      (acked ++ (s.step cfg C e).2.acked) (sent ++ (s.step cfg C e).2.transfers.sealed) rw tun
      replies := by
  have hWin := DataPlane.step_windowStep cfg C s e
  change StreamInv _ (stored ++ (s.step cfg C e).2.transfers.stored)
    (acked ++ (s.step cfg C e).2.transfers.acked) _ rw tun replies
  -- the receiver's window stands still, so only the clauses about the sender's
  -- window and frames have to be shown again
  generalize (s.step cfg C e).1.toWindow = w', (s.step cfg C e).2.transfers = out at hWin ⊢
  cases hWin with
  | idle => simpa using h
  | hold => simpa using { h with }
  | burn =>
    -- the dropped packet's number is in no clause but the bound `send_seq`
    have hLe : ∀ e ∈ stored, e.1 ≤ s.sendSeq + 1 := fun e he => Nat.le_succ_of_le (h.stored_le e he)
    simpa using { h with stored_le := hLe }
  | @store now p hEst hRoom =>
    rw [List.append_nil]
    refine h.push now hRoom fun e q p' hPlain => ?_
    cases hPlain
    rfl
  | @ack a hEst =>
    simp only [List.append_nil]
    exact h.handleAck (hAck a rfl)
  | @resend now seq u hEst hu =>
    simp only [List.append_nil]
    refine (h.bump now seq).concat_sent fun e q p hPlain => ?_
    cases hPlain
    exact h.window seq u hu
  | @hello now d rk salt =>
    rw [acceptHello_eq_self hUnused (hHello now d rk salt rfl)]
    simpa using h
  | take => simpa using { h with }
  | @recv d seq p delivered high buf hEst hDeliver =>
    have hKeep : StreamInv { s.toWindow with recvBuf := buf, recvSeq := high } stored acked sent
      rw tun replies := { h with }
    simp only [List.append_nil]
    exact hKeep.concat_sent fun _ _ _ hPlain => by cases hPlain

/-- A receiver's section: it hands on the packets of the next numbers, and
acknowledges no more than it handed on. -/
theorem receiver (C : Crypto Ct) (cfg : Config) {s : DataPlane} {e : Event}
    (h : StreamInv sw stored acked sent s.toWindow tun replies)
    (hUnused : s.established = false → Unused s.toWindow)
    (hHello : ∀ now d rk salt, e = .handleHello now d rk salt → s.established = true →
      s.peerRkPub = some rk)
    (hData : ∀ d epoch q p, e = .recvData d epoch q p → (q, p) ∈ stored) :
    StreamInv sw stored acked sent (s.step cfg C e).1.toWindow
        (tun ++ (s.step cfg C e).2.delivered)
        (replies ++ (s.step cfg C e).2.transfers.sealed) ∧
      s.recvSeq ≤ (s.step cfg C e).1.recvSeq := by
  have hWin := DataPlane.step_windowStep cfg C s e
  change StreamInv sw stored acked sent _ (tun ++ (s.step cfg C e).2.transfers.delivered) _ ∧
    s.recvSeq ≤ (s.step cfg C e).1.toWindow.recvSeq
  generalize (s.step cfg C e).1.toWindow = w', (s.step cfg C e).2.transfers = out at hWin ⊢
  cases hWin with
  | idle => exact ⟨by simpa using h, Nat.le_refl _⟩
  | hold => exact ⟨by simpa using { h with }, Nat.le_refl _⟩
  | burn => exact ⟨by simpa using { h with }, Nat.le_refl _⟩
  | @store now p =>
    have hKeep : StreamInv sw stored acked sent (s.toWindow.push now p) tun replies := { h with }
    rw [List.append_nil]
    exact ⟨hKeep.concat_replies (fun _ _ hPlain => by cases hPlain), Nat.le_refl _⟩
  | ack => exact ⟨by simpa using { h with }, Nat.le_refl _⟩
  | @resend now seq =>
    have hKeep : StreamInv sw stored acked sent (s.toWindow.bump now seq) tun replies := { h with }
    rw [List.append_nil]
    exact ⟨hKeep.concat_replies (fun _ _ hPlain => by cases hPlain), Nat.le_refl _⟩
  | @hello now d rk salt =>
    rw [acceptHello_eq_self hUnused (hHello now d rk salt rfl)]
    exact ⟨by simpa using h, Nat.le_refl _⟩
  | take => exact ⟨by simpa using { h with }, Nat.le_refl _⟩
  | @recv d seq p delivered high buf hEst hDeliver =>
    -- the packet is a stored one, so what `reorder_deliver` hands on are the
    -- next stored packets
    obtain ⟨ps, buf', hEq, hNum, hBuf⟩ := reorderDeliver_spec h.buffered (hData d _ seq p rfl)
    cases hDeliver.symm.trans hEq
    obtain ⟨hFilled, hTake⟩ := h.filled.extend h.increasing delivered hNum
    -- the clauses against `recv_seq` are bounds from below it, and it goes up
    have hLe : s.recvSeq ≤ s.recvSeq + delivered.length := Nat.le_add_right _ _
    have hTun : tun ++ delivered =
        (stored.take (s.recvSeq + delivered.length)).map Prod.snd := by
      rw [h.delivered]
      exact hTake.symm
    refine ⟨concat_replies ⟨h.increasing, h.stored_le, h.window, h.room, h.sent, ?_, ?_, hFilled,
      hTun, hBuf, ?_⟩ ?_, hLe⟩
    · exact fun e he => (h.unacked e he).imp_right fun hBelow => hBelow.trans hLe
    · exact fun e he => ⟨(h.acked e he).1, (h.acked e he).2.trans hLe⟩
    · exact fun f hf e a hPlain => (h.replies f hf e a hPlain).trans hLe
    · intro e a hPlain
      cases hPlain
      exact Nat.le_refl _

end StreamInv

-- ---------------------------------------------------------------------------
-- Both streams over runs
-- ---------------------------------------------------------------------------

/-- A session that has not completed the handshake has carried no data. -/
theorem unused_step {cfg : Config} {s : DataPlane} {e : Event}
    (hUnused : s.established = false → Unused s.toWindow)
    (hAfter : (s.step cfg C e).1.established = false) : Unused (s.step cfg C e).1.toWindow := by
  have hEst : s.established = false := by
    by_contra hEst
    simp only [Bool.not_eq_false] at hEst
    rw [(DataPlane.step_keyStep cfg C s e).established hEst] at hAfter
    cases hAfter
  have hBefore := hUnused hEst
  have hWin := DataPlane.step_windowStep cfg C s e
  generalize (s.step cfg C e).1.toWindow = w', (s.step cfg C e).2.transfers = out at hWin ⊢
  cases hWin with
  | idle => exact hBefore
  | hold => exact ⟨hBefore.1, hBefore.2, hBefore.3, hBefore.4⟩
  | burn hYes => rw [hEst] at hYes; cases hYes
  | store hYes => rw [hEst] at hYes; cases hYes
  | ack hYes => rw [hEst] at hYes; cases hYes
  | resend hYes => rw [hEst] at hYes; cases hYes
  | hello =>
    rw [KeyState.not_established_iff.mp hEst]
    exact hBefore.acceptHello.symm ▸ hBefore
  | take => exact ⟨hBefore.1, hBefore.2, hBefore.3, hBefore.4⟩
  | recv hYes => rw [hEst] at hYes; cases hYes

/-- The streams of a world: one in each direction. -/
structure Streams (w : World) : Prop where
  unused : ∀ x, (w.node x).dp.established = false → Unused (w.node x).dp.toWindow
  stream : ∀ x, StreamInv (w.node x).dp.toWindow (w.node x).stored (w.node x).acked
    (w.node x).sealed (w.node x.other).dp.toWindow (w.node x.other).tun (w.node x.other).sealed

theorem streams_init {w : World} (h : P.Init w) : Streams w where
  unused x _ := by
    obtain ⟨_, _, _, hNode, -⟩ := h.node x
    rw [hNode]
    exact ⟨rfl, rfl, rfl, rfl⟩
  stream x := by
    obtain ⟨_, _, _, hNode, -⟩ := h.node x
    obtain ⟨_, _, _, hNode', -⟩ := h.node x.other
    rw [hNode, hNode']
    exact ⟨increasing_nil, nofun,
      fun q u hu => by simp [Node.start, freshSession, DataPlane.new] at hu,
      Nat.zero_le _, nofun, nofun, nofun, nofun, rfl,
      fun q p hp => by simp [Node.start, freshSession, DataPlane.new] at hp, nofun⟩

/-- What a step that keeps the numbering does to its node: nothing, or an event
whose ACK or DATA is a frame of the other side. -/
theorem event_of_keepsNumbering (hC : C.Lawful) {w : World} {l : Label} (hEn : Enabled w l)
    (hKeep : KeepsNumbering C w l) : P.nodeNext w l = w.node l.side ∨
    ∃ e, P.nodeNext w l = (w.node l.side).step (P.cfg l.side) C e ∧
      (∀ now d rk salt, e = .handleHello now d rk salt →
        (w.node l.side).dp.established = true → (w.node l.side).dp.peerRkPub = some rk) ∧
      (∀ a, e = .handleAck a → ∃ f ∈ (w.node l.side.other).sealed, ∃ k, f.plain = .ack k a) ∧
      ∀ d k q p, e = .recvData d k q p →
        ∃ f ∈ (w.node l.side.other).sealed, f.plain = .data k q p := by
  have hMoves := moves_nodeNext (P := P) hC hEn
  generalize P.nodeNext w l = n' at hMoves
  cases hMoves with
  | act hLocal =>
    refine .inr ⟨_, rfl, ?_, ?_, ?_⟩
    · rintro now d rk salt rfl
      cases hLocal
    · rintro a rfl
      cases hLocal
    · rintro d k q p rfl
      cases hLocal
  | drop => exact .inl rfl
  | @handle x i now d f e hSome he hOpen =>
    have hf := List.mem_of_getElem? hSome
    rcases Plain.event_cases he with ⟨k, rk, salt, ip, hPlain, rfl⟩ | ⟨k, rk, salt, hPlain, rfl⟩ |
      ⟨k, q, p, hPlain, rfl⟩ | ⟨k, a, hPlain, rfl⟩
    · refine .inr ⟨_, rfl, ?_, nofun, nofun⟩
      rintro _ _ _ _ ⟨⟩ hEst
      exact hKeep.2 rk (arrivingHello_eq hSome hOpen hPlain) hEst
    · exact .inr ⟨_, rfl, nofun, nofun, nofun⟩
    · refine .inr ⟨_, rfl, nofun, nofun, ?_⟩
      rintro _ _ _ _ ⟨⟩
      exact ⟨f, hf, hPlain⟩
    · refine .inr ⟨_, rfl, nofun, ?_, nofun⟩
      rintro _ ⟨⟩
      exact ⟨f, hf, k, hPlain⟩
  | restart => cases hKeep.1

/-- One step keeps both streams, and no high water mark goes down. -/
theorem streams_step (hC : C.Lawful) {w : World} {l : Label} (h : Streams w) (hEn : Enabled w l)
    (hKeep : KeepsNumbering C w l) : Streams (P.next w l) ∧
      ∀ x, (w.node x).dp.recvSeq ≤ ((P.next w l).node x).dp.recvSeq := by
  have hNext : (P.next w l).node l.side = P.nodeNext w l := next_node_side
  have hOther : (P.next w l).node l.side.other = w.node l.side.other := next_node_other
  rcases event_of_keepsNumbering (P := P) hC hEn hKeep with hSame | ⟨e, hStep, hHello, hAck, hData⟩
  · have hAll : ∀ x, (P.next w l).node x = w.node x := by
      intro x
      rcases Side.eq_or_eq_other l.side x with rfl | rfl
      · exact hNext.trans hSame
      · exact hOther
    refine ⟨⟨fun x => ?_, fun x => ?_⟩, fun x => by rw [hAll]⟩
    · rw [hAll]
      exact h.unused x
    · rw [hAll, hAll]
      exact h.stream x
  · rw [hStep] at hNext
    -- the moving node is the sender of one stream and the receiver of the other
    have hSender := (h.stream l.side).sender C (P.cfg l.side) (h.unused l.side) hHello
      fun a ha => by
        obtain ⟨f, hf, k, hPlain⟩ := hAck a ha
        exact (h.stream l.side).replies f hf k a hPlain
    have hReceiver := (Side.other_other l.side ▸ h.stream l.side.other).receiver C
      (P.cfg l.side) (h.unused l.side) hHello fun d k q p hr => by
        obtain ⟨f, hf, hPlain⟩ := hData d k q p hr
        exact (h.stream l.side.other).sent f hf k q p hPlain
    -- the streams are about DATA and ACK frames alone
    have hTransfers : ∀ f ∈ ((P.next w l).node l.side).sealed, f.plain.handshake = false →
        f ∈ (w.node l.side).sealed ++
          ((w.node l.side).dp.step (P.cfg l.side) C e).2.transfers.sealed := by
      intro f hf hHand
      rw [hNext, Node.step_sealed] at hf
      exact List.mem_append.mpr ((List.mem_append.mp hf).imp_right fun hf =>
        List.mem_filter.mpr ⟨hf, by rw [hHand]; rfl⟩)
    refine ⟨⟨fun x => ?_, fun x => ?_⟩, fun x => ?_⟩
    · rcases Side.eq_or_eq_other l.side x with rfl | rfl
      · rw [hNext]
        exact unused_step (h.unused l.side)
      · rw [hOther]
        exact h.unused _
    · rcases Side.eq_or_eq_other l.side x with rfl | rfl
      · have hStream := hSender.of_frames hTransfers fun f hf _ => hf
        rw [hNext] at hStream ⊢
        rw [hOther]
        exact hStream
      · have hStream := hReceiver.1.of_frames (fun f hf _ => hf) hTransfers
        rw [Side.other_other, hOther]
        rw [hNext] at hStream ⊢
        exact hStream
    · rcases Side.eq_or_eq_other l.side x with rfl | rfl
      · rw [hNext]
        exact hReceiver.2
      · rw [hOther]

theorem reach_streams (hC : C.Lawful) {w : World} (h : P.machine.Reach (KeepsNumbering C) w) :
    Streams w := by
  refine h.invariant (fun _ => streams_init) ?_
  rintro w l hw ⟨hEn, -⟩ hKeep
  exact (streams_step hC hw hEn hKeep).1

/--
**In-order exactly-once delivery.** In every run without restarts and without
renumbering HELLO, under any loss, duplication and reordering and any
rotations, in each direction: what the receiver handed to its TUN is a prefix
of what the sender stored in its window, whose numbers strictly increase; the
reorder buffer holds only packets beyond the next one, and every packet in
flight fits into it; the receiver's high water mark never goes down; and every
packet removed by an acknowledgement was handed to the TUN.
-/
theorem in_order_exactly_once (hC : C.Lawful) {w : World}
    (h : P.machine.Reach (KeepsNumbering C) w) (x : Side) :
    (w.node x).stored.Pairwise (fun a b => a.1 < b.1) ∧
      (w.node x.other).tun <+: (w.node x).stored.map Prod.snd ∧
      (∀ q ∈ (w.node x.other).dp.recvBuf, (w.node x.other).dp.recvSeq + 1 < q) ∧
      (∀ f ∈ (w.node x).sealed, ∀ e q p, f.plain = .data e q p →
        (w.node x.other).dp.recvSeq + 1 < q →
        ((w.node x.other).dp.recvBuf.insert q p).size ≤ reliableWindow) ∧
      (∀ l, P.machine.enabled w l → KeepsNumbering C w l →
        (w.node x.other).dp.recvSeq ≤ ((P.next w l).node x.other).dp.recvSeq) ∧
      ∀ e ∈ (w.node x).acked, (w.node x.other).tun[e.1 - 1]? = some e.2 := by
  have hStreams := reach_streams hC h
  have hStream := hStreams.stream x
  refine ⟨hStream.increasing.lt, ?_, ?_, ?_, ?_, ?_⟩
  · rw [hStream.delivered]
    exact (List.take_prefix _ _).map _
  · intro q hq
    obtain ⟨p, hp⟩ := SeqMap.mem_iff.mp hq
    exact (hStream.buffered q p hp).2
  · intro f hf e q p hPlain hAhead
    exact hStream.insert_le hf hPlain hAhead
  · intro l hEn hKeep
    exact (streams_step hC hStreams hEn.1 hKeep).2 x.other
  · intro e he
    obtain ⟨hMem, hLe⟩ := hStream.acked e he
    have hPos := hStream.increasing.pos e hMem
    have hAt := hStream.filled.getElem? hStream.increasing hMem hLe
    rw [hStream.delivered, List.getElem?_map, List.getElem?_take, if_pos (by omega), hAt]
    rfl

-- ---------------------------------------------------------------------------
-- A run that delivers
-- ---------------------------------------------------------------------------

/-- The handshake, a packet from Alice to Bob, and his acknowledgement. -/
def dataRun : List Label := handshakeRun ++
  [.act .left (.sealData 1 [7]), .deliver .right 2 2 sampleDraw, .deliver .left 1 3 sampleDraw]

theorem in_order_exactly_once_sample :
    ((sample.machine.run sampleWorld dataRun).node .left).acked = [(1, [7])] ∧
      ((sample.machine.run sampleWorld dataRun).node .right).tun[0]? = some [7] := by
  have hReach : sample.machine.Reach (KeepsNumbering symbolic)
      (sample.machine.run sampleWorld dataRun) :=
    Machine.reach_run (.init sample_init) (by decide +kernel)
  have hAcked : ((sample.machine.run sampleWorld dataRun).node .left).acked = [(1, [7])] := by
    decide +kernel
  obtain ⟨-, -, -, -, -, hDelivered⟩ := in_order_exactly_once symbolic_lawful hReach .left
  exact ⟨hAcked, hDelivered (1, [7]) (by rw [hAcked]; exact List.mem_singleton_self _)⟩

end LinkMesh.Pair
