import LinkMesh.Pair.Delivery

/-!
# Acknowledged means delivered, across restarts

Two sides exchanging HELLO, DATA and ACK over a channel that loses, duplicates
and reorders, each restarting at any time with a new routing key. A sender
restarts its numbering when it learns a new peer routing key; the receiver's
high water mark goes back to 0 only when the handshake is completed, not when
an established session learns a new routing key.

* `acked_delivered` — in every run in which a HELLO that changes the recorded
  routing key announces one not recorded before and finds the receive side
  unused, every payload removed by an acknowledgement was handed to the TUN;
* `restart_acks_undelivered` — otherwise the first packet of a restarted peer
  is taken for an old duplicate and acknowledged.
-/

namespace LinkMesh.Pair

variable {Ct : Type} {C : Crypto Ct} {P : Pair C}

-- ---------------------------------------------------------------------------
-- Runs that renumber into an unused receive side
-- ---------------------------------------------------------------------------

/-- Whether a frame is a REKEY. -/
def isRekey (f : Sealing) : Bool :=
  match f.plain with
  | .rekey .. => true
  | _ => false

/-- Whether the step sends a REKEY. -/
def sendsRekey (P : Pair C) (w : World) : Label → Bool
  | .act x e => ((w.node x).dp.step (P.cfg x) C e).2.sealed.any isRekey
  | _ => false

/-- No REKEY is sent, and a HELLO that changes the routing key recorded by an
established session announces one it has not recorded before and finds that
nothing was received yet. -/
def RenewsUnused (P : Pair C) (w : World) (l : Label) : Prop :=
  P.sendsRekey w l = false ∧ ∀ rk ∈ arrivingHello C w l,
    (w.node l.side).dp.established = true → (w.node l.side).dp.peerRkPub ≠ some rk →
      rk ∉ (w.node l.side).held ∧ (w.node l.side).dp.recvSeq = 0 ∧
        (w.node l.side).dp.recvBuf.isEmpty = true

instance (w : World) (l : Label) : Decidable (P.RenewsUnused w l) :=
  inferInstanceAs (Decidable (_ ∧ ∀ rk ∈ arrivingHello C w l, _ → _ → _ ∧ _ ∧ _))

-- ---------------------------------------------------------------------------
-- One direction
-- ---------------------------------------------------------------------------

/-- One direction. `S own rk k v` says that side `x` gave number `k` to payload
`v` while its own routing key was `own` and the peer's `rk`; a receiver that
has `rk` and has recorded `own` is in the same numbering. -/
structure Link (P : Pair C) (x : Side) (S : RawKey → RawKey → Nat → Bytes → Prop)
    (mine theirs : List RawKey) (kx : KeyState) (held : List RawKey) (wx : Window)
    (sent : List Sealing) (acked : List (Nat × Bytes)) (ky : KeyState) (wy : Window)
    (tun : List Bytes) (replies : List Sealing) : Prop where
  functional : ∀ own rk k v v', S own rk k v → S own rk k v' → v = v'
  drawn : ∀ own rk k v, S own rk k v → own ∈ mine
  current : ∀ own, kx.rkPub = some own → ∀ rk k v, S own rk k v →
    rk ∈ held ∧ (kx.peerRkPub = some rk → k ≤ wx.sendSeq)
  window : ∀ (k : Nat) (u : Unacked), wx.sendUnacked[k]? = some u → 0 < k ∧ k ≤ wx.sendSeq ∧
    ∀ own rk, kx.rkPub = some own → kx.peerRkPub = some rk → S own rk k u.payload
  sent : ∀ f ∈ sent, ∀ e k v, f.plain = .data e k v →
    ∃ own ∈ mine, ∃ rk, P.SessionKey x own rk f.key ∧ S own rk k v
  passed : ∀ rk own, ky.rkPub = some rk → ky.peerRkPub = some own →
    ∀ k, 0 < k → k ≤ wy.recvSeq → ∃ v ∈ tun, S own rk k v
  buffered : ∀ rk own, ky.rkPub = some rk → ky.peerRkPub = some own →
    Buffered (S own rk) (wy.recvSeq + 1) wy.recvBuf
  replies : ∀ f ∈ replies, ∀ e a, f.plain = .ack e a →
    ∃ rk ∈ theirs, ∃ own, P.SessionKey x.other rk own f.key ∧
      ∀ k, 0 < k → k ≤ a → ∃ v ∈ tun, S own rk k v
  acked : ∀ e ∈ acked, e.2 ∈ tun

namespace Link

variable {x : Side} {S : RawKey → RawKey → Nat → Bytes → Prop} {mine theirs : List RawKey}
  {kx ky : KeyState} {held : List RawKey} {wx wy : Window} {sent replies : List Sealing}
  {acked : List (Nat × Bytes)} {tun : List Bytes}

/-- Only DATA and ACK frames matter. -/
theorem of_frames {sent' replies' : List Sealing}
    (h : P.Link x S mine theirs kx held wx sent acked ky wy tun replies)
    (hSent : ∀ f ∈ sent', f.plain.handshake = false → f ∈ sent)
    (hReplies : ∀ f ∈ replies', f.plain.handshake = false → f ∈ replies) :
    P.Link x S mine theirs kx held wx sent' acked ky wy tun replies' :=
  { h with
    sent := fun f hf e k v hPlain => h.sent f (hSent f hf (by rw [hPlain]; rfl)) e k v hPlain
    replies := fun f hf e a hPlain =>
      h.replies f (hReplies f hf (by rw [hPlain]; rfl)) e a hPlain }

theorem mono {mine' theirs' held' : List RawKey}
    (h : P.Link x S mine theirs kx held wx sent acked ky wy tun replies) (hMine : mine ⊆ mine')
    (hTheirs : theirs ⊆ theirs') (hHeld : held ⊆ held') :
    P.Link x S mine' theirs' kx held' wx sent acked ky wy tun replies :=
  { h with
    drawn := fun own rk k v hS => hMine (h.drawn own rk k v hS)
    current := fun own hOwn rk k v hS =>
      ⟨hHeld (h.current own hOwn rk k v hS).1, (h.current own hOwn rk k v hS).2⟩
    sent := fun f hf e k v hPlain => by
      obtain ⟨own, hOwn, hRest⟩ := h.sent f hf e k v hPlain
      exact ⟨own, hMine hOwn, hRest⟩
    replies := fun f hf e a hPlain => by
      obtain ⟨rk, hRk, hRest⟩ := h.replies f hf e a hPlain
      exact ⟨rk, hTheirs hRk, hRest⟩ }

/-- A numbering may be extended by what the send window holds now, when the
peer's routing key `rk` has just been recorded as well as later on. -/
theorem extend {own rk : RawKey} {kx' : KeyState} {held' : List RawKey} (wx' : Window)
    (h : P.Link x S mine theirs kx held wx sent acked ky wy tun replies)
    (hOwn : kx.rkPub = some own) (hMem : own ∈ mine) (hOwn' : kx'.rkPub = some own)
    (hRk : kx'.peerRkPub = some rk) (hHeld : held ⊆ held') (hRecorded : rk ∈ held')
    (hAgree : ∀ (k : Nat) (u : Unacked) v, wx'.sendUnacked[k]? = some u → S own rk k v →
      u.payload = v)
    (hOld : ∀ k v, S own rk k v → k ≤ wx'.sendSeq)
    (hRange : ∀ (k : Nat) (u : Unacked), wx'.sendUnacked[k]? = some u → 0 < k ∧ k ≤ wx'.sendSeq) :
    P.Link x
      (fun own' rk' k v => S own' rk' k v ∨
        (own' = own ∧ rk' = rk ∧ ∃ u, wx'.sendUnacked[k]? = some u ∧ u.payload = v))
      mine theirs kx' held' wx' sent acked ky wy tun replies where
  functional := by
    rintro own' rk' k v v' (hS | ⟨rfl, rfl, u, hu, rfl⟩) (hS' | ⟨hO, hR, u', hu', rfl⟩)
    · exact h.functional _ _ _ _ _ hS hS'
    · subst hO hR
      exact (hAgree k u' v hu' hS).symm
    · exact hAgree k u v' hu hS'
    · rw [hu] at hu'
      cases hu'
      rfl
  drawn := by
    rintro own' rk' k v (hS | ⟨rfl, -⟩)
    · exact h.drawn _ _ _ _ hS
    · exact hMem
  current := by
    intro own' hIs rk' k v hS
    cases hOwn'.symm.trans hIs
    rcases hS with hS | ⟨-, rfl, u, hu, -⟩
    · refine ⟨hHeld (h.current own hOwn rk' k v hS).1, fun hRk' => ?_⟩
      cases hRk.symm.trans hRk'
      exact hOld k v hS
    · exact ⟨hRecorded, fun _ => (hRange k u hu).2⟩
  window := by
    intro k u hu
    refine ⟨(hRange k u hu).1, (hRange k u hu).2, fun own' rk' hIs hRk' => ?_⟩
    cases hOwn'.symm.trans hIs
    cases hRk.symm.trans hRk'
    exact .inr ⟨rfl, rfl, u, hu, rfl⟩
  sent := by
    intro f hf e k v hPlain
    obtain ⟨own', hOwn', rk', hKey, hS⟩ := h.sent f hf e k v hPlain
    exact ⟨own', hOwn', rk', hKey, .inl hS⟩
  passed := by
    intro rk' own' hRk' hOwn' k hk hLe
    obtain ⟨v, hv, hS⟩ := h.passed rk' own' hRk' hOwn' k hk hLe
    exact ⟨v, hv, .inl hS⟩
  buffered := by
    intro rk' own' hRk' hOwn' k v hv
    obtain ⟨hS, hLt⟩ := h.buffered rk' own' hRk' hOwn' k v hv
    exact ⟨.inl hS, hLt⟩
  replies := by
    intro f hf e a hPlain
    obtain ⟨rk', hRk', own', hKey, hAll⟩ := h.replies f hf e a hPlain
    refine ⟨rk', hRk', own', hKey, fun k hk hLe => ?_⟩
    obtain ⟨v, hv, hS⟩ := hAll k hk hLe
    exact ⟨v, hv, .inl hS⟩
  acked := h.acked

/-- Only the receive side of the receiver matters. -/
theorem of_receiver {ky' : KeyState} {wy' : Window}
    (h : P.Link x S mine theirs kx held wx sent acked ky wy tun replies)
    (hRk : ky'.rkPub = ky.rkPub) (hPeer : ky'.peerRkPub = ky.peerRkPub)
    (hSeq : wy'.recvSeq = wy.recvSeq) (hBuf : wy'.recvBuf = wy.recvBuf) :
    P.Link x S mine theirs kx held wx sent acked ky' wy' tun replies :=
  { h with
    passed := by rw [hRk, hPeer, hSeq]; exact h.passed
    buffered := by rw [hRk, hPeer, hSeq, hBuf]; exact h.buffered }

/-- A receiver that has received nothing. -/
theorem of_unused {ky' : KeyState} {wy' : Window}
    (h : P.Link x S mine theirs kx held wx sent acked ky wy tun replies)
    (hSeq : wy'.recvSeq = 0) (hBuf : wy'.recvBuf = ∅) :
    P.Link x S mine theirs kx held wx sent acked ky' wy' tun replies :=
  { h with
    passed := fun _ _ _ _ k hk hLe => by omega
    buffered := fun _ _ _ _ k v hv => by simp [hBuf] at hv }

/-- The sender seals one more frame, which carries a packet of the numbering of
its key, if it is DATA. -/
theorem add_sent {f : Sealing}
    (h : P.Link x S mine theirs kx held wx sent acked ky wy tun replies)
    (hf : ∀ e k v, f.plain = .data e k v →
      ∃ own ∈ mine, ∃ rk, P.SessionKey x own rk f.key ∧ S own rk k v) :
    P.Link x S mine theirs kx held wx (sent ++ [f]) acked ky wy tun replies :=
  { h with
    sent := fun g hg e k v hPlain => by
      rcases List.mem_append.mp hg with hg | hg
      · exact h.sent g hg e k v hPlain
      · cases List.mem_singleton.mp hg
        exact hf e k v hPlain }

/-- A full window takes a number and stores nothing under it. -/
theorem burn (h : P.Link x S mine theirs kx held wx sent acked ky wy tun replies) :
    P.Link x S mine theirs kx held { wx with sendSeq := wx.sendSeq + 1 } sent acked ky wy tun
      replies := by
  refine { h with current := fun own hOwn rk k v hS => ?_, window := fun k u hu => ?_ }
  · obtain ⟨hIn, hLe⟩ := h.current own hOwn rk k v hS
    exact ⟨hIn, fun hRk => Nat.le_succ_of_le (hLe hRk)⟩
  · obtain ⟨hPos, hLe, hS⟩ := h.window k u hu
    exact ⟨hPos, Nat.le_succ_of_le hLe, hS⟩

/-- The receiver has handed on every packet that an acknowledgement removes. -/
theorem handleAck {a : Nat} {own rk : RawKey}
    (h : P.Link x S mine theirs kx held wx sent acked ky wy tun replies)
    (hOwn : kx.rkPub = some own) (hRk : kx.peerRkPub = some rk)
    (hAck : ∀ k, 0 < k → k ≤ a → ∃ v ∈ tun, S own rk k v) :
    P.Link x S mine theirs kx held (wx.handleAck a) sent (acked ++ wx.covered a) ky wy tun
      replies := by
  refine { h with window := fun k u hu => ?_, acked := fun e he => ?_ }
  · exact h.window k u (Window.of_handleAck hu)
  · rcases List.mem_append.mp he with he | he
    · exact h.acked e he
    · obtain ⟨hLe, u, hu, hPay⟩ := Window.mem_covered.mp he
      obtain ⟨hPos, -, hS⟩ := h.window e.1 u hu
      -- the numbering assigns one payload to a number, so the one handed on is
      -- the one removed
      obtain ⟨v, hv, hS'⟩ := hAck e.1 hPos hLe
      have hSame := h.functional own rk e.1 _ _ (hS own rk hOwn hRk) hS'
      rw [← hPay, hSame]
      exact hv

/-- A packet that is sent again keeps its number. -/
theorem bump (h : P.Link x S mine theirs kx held wx sent acked ky wy tun replies) (now : Instant)
    (seq : Nat) :
    P.Link x S mine theirs kx held (wx.bump now seq) sent acked ky wy tun replies := by
  refine { h with window := fun k u' hu' => ?_ }
  obtain ⟨u₀, hOld, hPay⟩ := Window.of_bump hu'
  rw [← hPay]
  exact h.window k u₀ hOld

/-- A HELLO with a routing key not recorded starts a new numbering. -/
theorem renumbers_of_unrecorded {s : DataPlane} {rk : RawKey}
    (h : ¬ (s.established = true ∧ s.peerRkPub = some rk)) :
    (s.peerKey.isNone || s.peerRkPub != some rk) = true := by
  cases hEst : s.established with
  | false => simp [KeyState.not_established_iff.mp hEst]
  | true =>
    have hRk : s.peerRkPub ≠ some rk := fun hRk => h ⟨hEst, hRk⟩
    simp [hRk]

/-- A sender's section that sends no REKEY. `S` grows by what it stores. -/
theorem sender (cfg : Config) {s : DataPlane} {e : Event} {own : RawKey} {kx' : KeyState}
    {held' : List RawKey}
    (h : P.Link x S mine theirs s.toKeyState held s.toWindow sent acked ky wy tun replies)
    (hOwn : s.rkPub = some own) (hMem : own ∈ mine)
    (hSession : s.established = true → ∃ rk, s.peerRkPub = some rk ∧ rk ∈ held ∧
      P.SessionKey x own rk s.currentKey)
    (hUnused : s.established = false → Unused s.toWindow ∧ held = [])
    (hHeld : held ⊆ held')
    (hKeys : (e.isHello = false ∧ kx' = s.toKeyState) ∨
      ∃ now d rk salt, e = .handleHello now d rk salt ∧ kx'.rkPub = s.rkPub ∧
        kx'.peerRkPub = some rk ∧ rk ∈ held')
    (hHello : ∀ now d rk salt, e = .handleHello now d rk salt → s.established = true →
      s.peerRkPub ≠ some rk → rk ∉ held)
    (hAck : ∀ a, e = .handleAck a → s.established = true → ∀ rk, s.peerRkPub = some rk →
      ∀ k, 0 < k → k ≤ a → ∃ v ∈ tun, S own rk k v) :
    ∃ S', P.Link x S' mine theirs kx' held' (s.step cfg C e).1.toWindow
      (sent ++ (s.step cfg C e).2.transfers.sealed) (acked ++ (s.step cfg C e).2.acked) ky wy tun
      replies := by
  have hWin := DataPlane.step_windowStep cfg C s e
  change ∃ S', P.Link x S' mine theirs kx' held' _ _
    (acked ++ (s.step cfg C e).2.transfers.acked) ky wy tun replies
  have hRecord := h.mono (List.Subset.refl _) (List.Subset.refl _) hHeld
  -- without a HELLO the keys stay as they are
  have hStay : e.isHello = false → kx' = s.toKeyState := by
    intro hNo
    rcases hKeys with ⟨-, hSame⟩ | ⟨_, _, _, _, rfl, -⟩
    · exact hSame
    · cases hNo
  generalize (s.step cfg C e).1.toWindow = w', (s.step cfg C e).2.transfers = out at hWin ⊢
  cases hWin with
  | idle hNo =>
    rw [hStay hNo]
    exact ⟨S, by simpa using hRecord⟩
  | hold =>
    rw [hStay rfl]
    exact ⟨S, by simpa using { hRecord with }⟩
  | burn =>
    rw [hStay rfl, List.append_nil, List.append_nil]
    exact ⟨S, hRecord.burn⟩
  | @store now p hEst =>
    rw [hStay rfl]
    -- the number is new to this numbering, so the new packet joins it
    obtain ⟨rk, hRk, hIn, hKey⟩ := hSession hEst
    have hNew := h.extend (s.toWindow.push now p) hOwn hMem hOwn hRk hHeld (hHeld hIn)
      (fun k u v hu hS => by
        rw [Window.getElem?_push] at hu
        split at hu
        · rename_i hk
          have hLe := (h.current own hOwn rk k v hS).2 hRk
          omega
        · exact h.functional own rk k _ _ ((h.window k u hu).2.2 own rk hOwn hRk) hS)
      (fun k v hS => Nat.le_succ_of_le ((h.current own hOwn rk k v hS).2 hRk))
      (fun k u hu => by
        rw [Window.getElem?_push] at hu
        simp only [Window.push]
        split at hu
        · omega
        · have := h.window k u hu
          omega)
    rw [List.append_nil]
    refine ⟨_, hNew.add_sent fun e k v hPlain => ?_⟩
    cases hPlain
    refine ⟨own, hMem, rk, hKey, .inr ⟨rfl, rfl, ⟨now, 0, p⟩, ?_, rfl⟩⟩
    rw [Window.getElem?_push, if_pos rfl]
  | @ack a hEst =>
    rw [hStay rfl]
    obtain ⟨rk, hRk, -, -⟩ := hSession hEst
    rw [List.append_nil]
    exact ⟨S, hRecord.handleAck hOwn hRk (hAck a rfl hEst rk hRk)⟩
  | @resend now seq u hEst hu =>
    rw [hStay rfl]
    obtain ⟨rk, hRk, -, hKey⟩ := hSession hEst
    obtain ⟨-, -, hS⟩ := h.window seq u hu
    rw [List.append_nil]
    refine ⟨S, (hRecord.bump now seq).add_sent fun e k v hPlain => ?_⟩
    cases hPlain
    exact ⟨own, hMem, rk, hKey, hS own rk hOwn hRk⟩
  | @hello now d rk salt =>
    obtain ⟨hNo, -⟩ | ⟨_, _, _, _, hEq, hOwn', hRk', hIn⟩ := hKeys
    · cases hNo
    cases hEq
    rw [List.append_nil, List.append_nil]
    by_cases hSame : s.established = true ∧ s.peerRkPub = some rk
    · obtain ⟨hEst, hRk⟩ := hSame
      rw [acceptHello_eq_self (fun hNo => (hUnused hNo).1) fun _ => hRk]
      -- a keepalive records the routing key that is recorded already
      exact ⟨S, { hRecord with
        current := by rw [hOwn', hRk', ← hRk]; exact hRecord.current
        window := by rw [hOwn', hRk', ← hRk]; exact hRecord.window }⟩
    · -- a routing key not recorded before: nothing was numbered under it
      have hNone : ∀ k v, ¬ S own rk k v := by
        intro k v hS
        have hOld := (h.current own hOwn rk k v hS).1
        cases hEst : s.established with
        | false =>
          rw [(hUnused hEst).2] at hOld
          cases hOld
        | true => exact hHello now d rk salt rfl hEst (fun hRk => hSame ⟨hEst, hRk⟩) hOld
      have hNew : (s.toWindow.acceptHello now s.peerKey.isNone
          (s.peerRkPub != some rk)).StoredFrom 0 :=
        (Window.acceptHello_renumbers (renumbers_of_unrecorded hSame)).1
      refine ⟨_, h.extend _ hOwn hMem (hOwn'.trans hOwn) hRk' hHeld hIn
        (fun k u v _ hS => absurd hS (hNone k v)) (fun k v hS => absurd hS (hNone k v))
        fun k u hu => (hNew.2 k).mp (SeqMap.mem_iff.mpr ⟨u, hu⟩)⟩
  | take =>
    rw [hStay rfl]
    exact ⟨S, by simpa using { hRecord with }⟩
  | @recv d seq p delivered high buf hEst =>
    have hKeep : P.Link x S mine theirs s.toKeyState held'
        { s.toWindow with recvBuf := buf, recvSeq := high } sent acked ky wy tun replies :=
      { hRecord with }
    rw [hStay rfl, List.append_nil]
    exact ⟨S, hKeep.add_sent fun _ _ _ hPlain => by cases hPlain⟩

/-- A sender that restarts with a routing key not drawn before has numbered
nothing under it. -/
theorem restart_sender {kx' : KeyState} {held' : List RawKey} {wx' : Window}
    (h : P.Link x S mine theirs kx held wx sent acked ky wy tun replies)
    (hFresh : ∀ own, kx'.rkPub = some own → own ∉ mine) (hEmpty : wx'.sendUnacked = ∅) :
    P.Link x S mine theirs kx' held' wx' sent acked ky wy tun replies :=
  { h with
    current := fun own hOwn rk k v hS => absurd (h.drawn own rk k v hS) (hFresh own hOwn)
    window := fun k u hu => by simp [hEmpty] at hu }

/-- More may be handed to the TUN. -/
theorem tun_append (h : P.Link x S mine theirs kx held wx sent acked ky wy tun replies)
    (more : List Bytes) :
    P.Link x S mine theirs kx held wx sent acked ky wy (tun ++ more) replies :=
  { h with
    passed := fun rk own hRk hOwn k hk hLe => by
      obtain ⟨v, hv, hS⟩ := h.passed rk own hRk hOwn k hk hLe
      exact ⟨v, List.mem_append_left _ hv, hS⟩
    replies := fun f hf e a hPlain => by
      obtain ⟨rk, hRk, own, hKey, hAll⟩ := h.replies f hf e a hPlain
      refine ⟨rk, hRk, own, hKey, fun k hk hLe => ?_⟩
      obtain ⟨v, hv, hS⟩ := hAll k hk hLe
      exact ⟨v, List.mem_append_left _ hv, hS⟩
    acked := fun e he => List.mem_append_left _ (h.acked e he) }

/-- Only ACK frames of the receiver matter. -/
theorem add_reply {f : Sealing}
    (h : P.Link x S mine theirs kx held wx sent acked ky wy tun replies)
    (hf : ∀ e a, f.plain ≠ .ack e a) :
    P.Link x S mine theirs kx held wx sent acked ky wy tun (replies ++ [f]) :=
  { h with
    replies := fun g hg e a hPlain => by
      rcases List.mem_append.mp hg with hg | hg
      · exact h.replies g hg e a hPlain
      · cases List.mem_singleton.mp hg
        exact absurd hPlain (hf e a) }

/-- A receiver's section that sends no REKEY. -/
theorem receiver (cfg : Config) {s : DataPlane} {e : Event} {rk : RawKey} {ky' : KeyState}
    (h : P.Link x S mine theirs kx held wx sent acked s.toKeyState s.toWindow tun replies)
    (hRk : s.rkPub = some rk) (hMem : rk ∈ theirs)
    (hSession : s.established = true → ∃ own, s.peerRkPub = some own ∧
      P.SessionKey x.other rk own s.currentKey)
    (hUnused : s.established = false → Unused s.toWindow)
    (hKeys : (e.isHello = false ∧ ky' = s.toKeyState) ∨
      ∃ now d own salt, e = .handleHello now d own salt ∧ ky'.rkPub = s.rkPub ∧
        ky'.peerRkPub = some own)
    (hHello : ∀ now d own salt, e = .handleHello now d own salt → s.established = true →
      s.peerRkPub ≠ some own → s.recvSeq = 0 ∧ s.recvBuf = ∅)
    (hData : ∀ d epoch k v, e = .recvData d epoch k v → s.established = true →
      ∀ own, s.peerRkPub = some own → S own rk k v) :
    P.Link x S mine theirs kx held wx sent acked ky' (s.step cfg C e).1.toWindow
      (tun ++ (s.step cfg C e).2.delivered)
      (replies ++ (s.step cfg C e).2.transfers.sealed) := by
  have hWin := DataPlane.step_windowStep cfg C s e
  change P.Link x S mine theirs kx held wx sent acked ky' _
    (tun ++ (s.step cfg C e).2.transfers.delivered) _
  have hStay : e.isHello = false → ky' = s.toKeyState := by
    intro hNo
    rcases hKeys with ⟨-, hSame⟩ | ⟨_, _, _, _, rfl, -⟩
    · exact hSame
    · cases hNo
  generalize (s.step cfg C e).1.toWindow = w', (s.step cfg C e).2.transfers = out at hWin ⊢
  cases hWin with
  | idle hNo =>
    rw [hStay hNo]
    simpa using h
  | hold =>
    rw [hStay rfl, List.append_nil, List.append_nil]
    exact h.of_receiver rfl rfl rfl rfl
  | burn =>
    rw [hStay rfl, List.append_nil, List.append_nil]
    exact h.of_receiver rfl rfl rfl rfl
  | store =>
    rw [hStay rfl, List.append_nil]
    exact Link.add_reply (h.of_receiver rfl rfl rfl rfl) (by simp)
  | ack =>
    rw [hStay rfl, List.append_nil, List.append_nil]
    exact h.of_receiver rfl rfl rfl rfl
  | resend =>
    rw [hStay rfl, List.append_nil]
    exact Link.add_reply (h.of_receiver rfl rfl rfl rfl) (by simp)
  | @hello now d own salt =>
    obtain ⟨hNo, -⟩ | ⟨_, _, _, _, hEq, hRk', hOwn'⟩ := hKeys
    · cases hNo
    cases hEq
    rw [List.append_nil, List.append_nil]
    obtain ⟨hSeq, hBuf⟩ :=
      s.toWindow.acceptHello_recv now s.peerKey.isNone (s.peerRkPub != some own)
    cases hEst : s.established with
    | false =>
      refine h.of_unused ?_ (hBuf.trans (hUnused hEst).recvBuf)
      rw [hSeq, (hUnused hEst).recvSeq, ite_self]
    | true =>
      have hFirst : s.peerKey.isNone = false := by
        obtain ⟨k, hk⟩ := KeyState.established_iff.mp hEst
        rw [hk]
        rfl
      rw [hFirst] at hSeq hBuf ⊢
      by_cases hSame : s.peerRkPub = some own
      · exact h.of_receiver hRk' (hOwn'.trans hSame.symm) hSeq hBuf
      · obtain ⟨hZero, hEmpty⟩ := hHello now d own salt rfl hEst hSame
        exact h.of_unused (hSeq.trans hZero) (hBuf.trans hEmpty)
  | take =>
    rw [hStay rfl, List.append_nil, List.append_nil]
    exact h.of_receiver rfl rfl rfl rfl
  | @recv d seq p delivered high buf hEst hDeliver =>
    rw [hStay rfl]
    -- the packet belongs to the numbering of the two recorded routing keys
    obtain ⟨own, hOwn, hKey⟩ := hSession hEst
    obtain ⟨ps, buf', hEq, hNum, hBuf⟩ := reorderDeliver_spec (h.buffered rk own hRk hOwn)
      (hData d _ seq p rfl hEst own hOwn)
    cases hDeliver.symm.trans hEq
    have hPassed : ∀ k, 0 < k → k ≤ s.recvSeq + delivered.length →
        ∃ v ∈ tun ++ delivered, S own rk k v := by
      intro k hk hLe
      -- handed on before, or by this section
      by_cases hOld : k ≤ s.recvSeq
      · obtain ⟨v, hv, hS⟩ := h.passed rk own hRk hOwn k hk hOld
        exact ⟨v, List.mem_append_left _ hv, hS⟩
      · have hLt : k - s.recvSeq - 1 < delivered.length := by omega
        have hS := hNum _ _ (List.getElem?_eq_getElem hLt)
        rw [show s.recvSeq + 1 + (k - s.recvSeq - 1) = k by omega] at hS
        exact ⟨_, List.mem_append_right _ (List.getElem_mem hLt), hS⟩
    refine { h.tun_append delivered with passed := ?_, buffered := ?_, replies := ?_ }
    · intro rk' own' hRk' hOwn'
      cases hRk.symm.trans hRk'
      cases hOwn.symm.trans hOwn'
      exact hPassed
    · intro rk' own' hRk' hOwn'
      cases hRk.symm.trans hRk'
      cases hOwn.symm.trans hOwn'
      exact hBuf
    · intro f hf e a hPlain
      rcases List.mem_append.mp hf with hf | hf
      · exact (h.tun_append delivered).replies f hf e a hPlain
      · cases List.mem_singleton.mp hf
        cases hPlain
        exact ⟨rk, hMem, own, hKey, hPassed⟩

end Link

-- ---------------------------------------------------------------------------
-- Both directions over runs
-- ---------------------------------------------------------------------------

/-- What every such run maintains about one node. -/
structure Recorded (n : Node) : Prop where
  unused : n.dp.established = false → Unused n.dp.toWindow ∧ n.held = []
  held : ∀ rk, n.dp.peerRkPub = some rk → rk ∈ n.held
  noRekey : ∀ f ∈ n.sealed, isRekey f = false

/-- Without a REKEY, sent or received, only a HELLO changes what is recorded. -/
theorem keys_of_noRekey {cfg : Config} {s : DataPlane} {e : Event} {priv : RawKey} {salt : Salt}
    (hWell : s.WellKeyed cfg C priv salt)
    (hNo : (s.step cfg C e).2.sealed.any isRekey = false)
    (hFollow : ∀ now epoch rk salt, e ≠ .handleRekey now epoch rk salt) :
    (e.isHello = false ∧ (s.step cfg C e).1.toKeyState = s.toKeyState) ∨
      ∃ now d rk salt, e = .handleHello now d rk salt ∧
        (s.step cfg C e).1.rkPub = s.rkPub ∧ (s.step cfg C e).1.epoch = s.epoch ∧
        (s.step cfg C e).1.peerRkPub = some rk := by
  have hKeys := DataPlane.step_keyStep cfg C s e
  have hFrames : ∀ f ∈ DataPlane.handshakes (s.step cfg C e).2.sealed, isRekey f = false := by
    intro f hf
    rw [List.any_eq_false] at hNo
    simpa using hNo f (List.mem_filter.mp hf).1
  generalize (s.step cfg C e).1.toKeyState = s', DataPlane.handshakes _ = hs at hKeys hFrames ⊢
  cases hKeys with
  | idle hNone =>
    refine .inl ⟨?_, rfl⟩
    cases e <;> first | rfl | cases hNone
  | announce => exact .inl ⟨rfl, rfl⟩
  | rotate hSome =>
    obtain ⟨-, -, _, -, -, rfl⟩ := KeyState.maybeRekey_eq_some.mp hSome
    cases hFrames _ (List.mem_singleton_self _)
  | rotateCount hSome =>
    obtain ⟨-, -, _, -, -, rfl⟩ := KeyState.maybeRekey_eq_some.mp hSome
    cases hFrames _ (List.mem_singleton_self _)
  | @accept now d rk salt' =>
    refine .inr ⟨now, d, rk, salt', rfl, ?_⟩
    rw [hWell.acceptHello_eq]
    exact ⟨rfl, rfl, rfl⟩
  | follow => exact absurd rfl (hFollow _ _ _ _)

theorem Recorded.step {cfg : Config} {n : Node} {e : Event} {priv : RawKey} {salt : Salt}
    (h : Recorded n) (hWell : n.dp.WellKeyed cfg C priv salt)
    (hNo : (n.dp.step cfg C e).2.sealed.any isRekey = false)
    (hFollow : ∀ now epoch rk salt, e ≠ .handleRekey now epoch rk salt) :
    Recorded (n.step cfg C e) ∧ n.held ⊆ (n.step cfg C e).held := by
  have hKeys := keys_of_noRekey hWell hNo hFollow
  have hEpoch : (n.dp.step cfg C e).1.epoch = n.dp.epoch := by
    rcases hKeys with ⟨-, hSame⟩ | ⟨_, _, _, _, -, -, hSame, -⟩
    · exact congrArg KeyState.epoch hSame
    · exact hSame
  have hHeld : (n.step cfg C e).held = (n.step cfg C e).dp.peerRkPub.toList ++ n.held := by
    rw [Node.step_held, if_pos hEpoch, Node.step_dp]
  refine ⟨⟨fun hAfter => ⟨unused_step (fun hEst => (h.unused hEst).1) hAfter, ?_⟩, ?_, ?_⟩, ?_⟩
  · rcases hKeys with ⟨-, hSame⟩ | ⟨_, _, rk, _, rfl, -⟩
    · have hEst : n.dp.established = false := by
        rw [← hAfter, Node.step_dp, hSame]
      rw [hHeld, (h.unused hEst).2, Node.step_dp, hSame, (hWell.of_not_established hEst).2.1]
      rfl
    · cases hAfter
  · intro rk hRk
    rw [hHeld, hRk]
    exact List.mem_append_left _ (List.mem_singleton_self _)
  · intro f hf
    rw [Node.step_sealed, List.mem_append] at hf
    rcases hf with hf | hf
    · exact h.noRekey f hf
    · rw [List.any_eq_false] at hNo
      simpa using hNo f hf
  · rw [hHeld]
    exact List.subset_append_right _ _

/-- Both nodes and both directions. -/
structure Links (P : Pair C) (w : World) : Prop where
  node : ∀ x, Recorded (w.node x)
  link : ∀ x, ∃ S, P.Link x S (w.drawn x) (w.drawn x.other) (w.node x).dp.toKeyState
    (w.node x).held (w.node x).dp.toWindow (w.node x).sealed (w.node x).acked
    (w.node x.other).dp.toKeyState (w.node x.other).dp.toWindow (w.node x.other).tun
    (w.node x.other).sealed

theorem links_init {w : World} (h : P.Init w) : P.Links w where
  node x := by
    obtain ⟨_, _, _, hNode, -⟩ := h.node x
    rw [hNode]
    exact ⟨fun _ => ⟨⟨rfl, rfl, rfl, rfl⟩, rfl⟩, nofun, nofun⟩
  link x := by
    obtain ⟨_, _, _, hNode, -⟩ := h.node x
    obtain ⟨_, _, _, hNode', -⟩ := h.node x.other
    rw [hNode, hNode']
    exact ⟨fun _ _ _ _ => False, nofun, nofun, nofun,
      fun k u hu => by simp [Node.start, freshSession, DataPlane.new] at hu, nofun, nofun, nofun,
      nofun, nofun⟩

/-- A frame that the other side sealed under a session key opens only on a
session with the two routing keys of that session key. -/
theorem recorded_of_opens (hC : C.Lawful) (hF : C.CollisionFree) {x : Side}
    {mine theirs : List RawKey} {n : Node} (hNode : P.KeyedNode x mine theirs n)
    (hDistinct : ∀ rk ∈ mine, rk ∉ theirs) {f : Sealing} {own rk : RawKey}
    (hKey : P.SessionKey x.other own rk f.key) (hOwn : own ∈ theirs)
    (hOpen : Node.Opens C n.dp.toKeyState f) :
    n.dp.rkPub = some rk ∧ n.dp.peerRkPub = some own := by
  -- the frame is not under the handshake key, so it opened under the session key
  have hNotHs : f.key ≠ n.dp.handshakeKey := by
    rw [hNode.handshakeKey]
    exact sessionKey_ne_handshakeKey hF hKey
  have hCur := ((Node.opens_iff hC).mp hOpen).resolve_right hNotHs
  cases hEst : n.dp.established with
  | false => exact absurd (hCur.trans (KeyState.currentKey_of_none
      (KeyState.not_established_iff.mp hEst))) hNotHs
  | true =>
    obtain ⟨own', rk', hRkPub, hPeer, hMine, -, hSession⟩ := hNode.sessionKey hEst
    rw [hCur] at hKey
    rcases sessionKey_inj hF hKey hSession with ⟨rfl, -⟩ | ⟨rfl, rfl⟩
    -- the other match of the two key pairs would need a routing key of both sides
    · exact absurd hOwn (hDistinct own hMine)
    · exact ⟨hRkPub, hPeer⟩

/-- An event without REKEY, for a frame of the other side if it is an ACK or
DATA, keeps both directions. -/
theorem Links.event (hC : C.Lawful) (hF : C.CollisionFree) {w : World} {l : Label} {e : Event}
    (h : P.Links w) (hKeyed : P.Keyed w)
    (hNext : P.nodeNext w l = (w.node l.side).step (P.cfg l.side) C e)
    (hNo : ((w.node l.side).dp.step (P.cfg l.side) C e).2.sealed.any isRekey = false)
    (hFollow : ∀ now epoch rk salt, e ≠ .handleRekey now epoch rk salt)
    (hHello : ∀ now d rk salt, e = .handleHello now d rk salt →
      (w.node l.side).dp.established = true → (w.node l.side).dp.peerRkPub ≠ some rk →
        rk ∉ (w.node l.side).held ∧ (w.node l.side).dp.recvSeq = 0 ∧
          (w.node l.side).dp.recvBuf.isEmpty = true)
    (hAck : ∀ a, e = .handleAck a → ∃ f ∈ (w.node l.side.other).sealed, ∃ k, f.plain = .ack k a ∧
      Node.Opens C (w.node l.side).dp.toKeyState f)
    (hData : ∀ d k q p, e = .recvData d k q p → ∃ f ∈ (w.node l.side.other).sealed,
      f.plain = .data k q p ∧ Node.Opens C (w.node l.side).dp.toKeyState f) :
    P.Links (P.next w l) := by
  have hSide : (P.next w l).node l.side = (w.node l.side).step (P.cfg l.side) C e :=
    next_node_side.trans hNext
  have hOther : (P.next w l).node l.side.other = w.node l.side.other := next_node_other
  have hMine := drawn_subset_next (P := P) w l l.side
  have hTheirs := drawn_subset_next (P := P) w l l.side.other
  have hNode := hKeyed.node l.side
  obtain ⟨priv, salt, hWell, hIn⟩ := hNode.keyed
  obtain ⟨hRecorded, hHeld⟩ := (h.node l.side).step hWell hNo hFollow
  have hKeys := keys_of_noRekey hWell hNo hFollow
  have hTransfers : ∀ f ∈ ((w.node l.side).step (P.cfg l.side) C e).sealed,
      f.plain.handshake = false → f ∈ (w.node l.side).sealed ++
        ((w.node l.side).dp.step (P.cfg l.side) C e).2.transfers.sealed := by
    intro f hf hHand
    rw [Node.step_sealed] at hf
    exact List.mem_append.mpr ((List.mem_append.mp hf).imp_right fun hf =>
      List.mem_filter.mpr ⟨hf, by rw [hHand]; rfl⟩)
  have hSession : (w.node l.side).dp.established = true → ∃ rk,
      (w.node l.side).dp.peerRkPub = some rk ∧
      P.SessionKey l.side (C.publicKey priv) rk (w.node l.side).dp.currentKey := by
    intro hEst
    obtain ⟨own, rk, hRkPub, hPeer, -, -, hKey⟩ := hNode.sessionKey hEst
    cases hRkPub.symm.trans hWell.rkPub
    exact ⟨rk, hPeer, hKey⟩
  refine ⟨fun x => ?_, fun x => ?_⟩
  · rcases Side.eq_or_eq_other l.side x with rfl | rfl
    · rw [hSide]
      exact hRecorded
    · rw [hOther]
      exact h.node _
  -- the moving node sends in one direction and receives in the other
  rcases Side.eq_or_eq_other l.side x with rfl | rfl
  · obtain ⟨S, hLink⟩ := h.link l.side
    rw [hSide, hOther]
    obtain ⟨S', hLink'⟩ := hLink.sender (P.cfg l.side) (e := e) hWell.rkPub hIn
      (fun hEst => by
        obtain ⟨rk, hPeer, hKey⟩ := hSession hEst
        exact ⟨rk, hPeer, (h.node l.side).held rk hPeer, hKey⟩)
      (h.node l.side).unused hHeld
      (hKeys.imp id fun ⟨now, d, rk, salt, he, hRk, _, hPeer⟩ =>
        ⟨now, d, rk, salt, he, hRk, hPeer, hRecorded.held rk hPeer⟩)
      (fun now d rk salt he hEst hNew => (hHello now d rk salt he hEst hNew).1)
      -- an ACK that opens is about the numbering in use
      (fun a ha _ rk hPeer k hk hLe => by
        obtain ⟨f, hf, k', hPlain, hOpen⟩ := hAck a ha
        obtain ⟨rk', hRk', own', hKey, hAll⟩ := hLink.replies f hf k' a hPlain
        obtain ⟨hOwn', hPeer'⟩ := recorded_of_opens hC hF hNode (hKeyed.distinct l.side) hKey hRk'
          hOpen
        cases hPeer.symm.trans hPeer'
        cases hWell.rkPub.symm.trans hOwn'
        exact hAll k hk hLe)
    exact ⟨S', (hLink'.of_frames hTransfers fun f hf _ => hf).mono hMine hTheirs
      (List.Subset.refl _)⟩
  · obtain ⟨S, hLink⟩ := h.link l.side.other
    rw [Side.other_other] at hLink ⊢
    rw [hSide, hOther]
    have hLink' := hLink.receiver (P.cfg l.side) (e := e) hWell.rkPub hIn
      (fun hEst => by rw [Side.other_other]; exact hSession hEst)
      (fun hEst => ((h.node l.side).unused hEst).1)
      (hKeys.imp id fun ⟨now, d, rk, salt, he, hRk, _, hPeer⟩ => ⟨now, d, rk, salt, he, hRk, hPeer⟩)
      (fun now d rk salt he hEst hNew => by
        obtain ⟨-, hSeq, hBuf⟩ := hHello now d rk salt he hEst hNew
        exact ⟨hSeq, Std.ExtTreeMap.isEmpty_iff.mp hBuf⟩)
      -- and so is a DATA frame
      (fun d k q p he _ own hPeer => by
        obtain ⟨f, hf, hPlain, hOpen⟩ := hData d k q p he
        obtain ⟨own', hOwn', rk', hKey, hS⟩ := hLink.sent f hf k q p hPlain
        obtain ⟨hRk', hPeer'⟩ := recorded_of_opens hC hF hNode (hKeyed.distinct l.side) hKey hOwn'
          hOpen
        cases hPeer.symm.trans hPeer'
        cases hWell.rkPub.symm.trans hRk'
        exact hS)
    exact ⟨S, (hLink'.of_frames (fun f hf _ => hf) hTransfers).mono hTheirs hMine
      (List.Subset.refl _)⟩

/-- Handling a received frame sends no REKEY. -/
theorem noRekey_of_received {cfg : Config} {s : DataPlane} {now : Instant} {d : Draw} {p : Plain}
    {e : Event} (he : p.event now d = some e) :
    (s.step cfg C e).2.sealed.any isRekey = false := by
  rw [List.any_eq_false]
  intro f hf
  have hNone := Plain.drawnRk_event he
  cases DataPlane.step_emits hf with
  | hello => simp [isRekey]
  | reply => simp [isRekey]
  | rekey hDrawn => cases hNone.symm.trans hDrawn
  | transfer _ _ _ hHand => cases hPlain : f.plain <;> simp_all [isRekey, Plain.handshake]

theorem links_step (hC : C.Lawful) (hF : C.CollisionFree) {w : World} {l : Label}
    (h : P.Links w) (hKeyed : P.Keyed w) (hEn : P.machine.enabled w l)
    (hGuard : P.RenewsUnused w l) : P.Links (P.next w l) := by
  have hMoves := moves_nodeNext (P := P) hC hEn.1
  generalize hNext : P.nodeNext w l = n' at hMoves
  cases hMoves with
  | @act x e hLocal =>
    refine h.event hC hF hKeyed hNext hGuard.1 ?_ ?_ ?_ ?_
    · rintro now epoch rk salt rfl
      cases hLocal
    · rintro now d rk salt rfl
      cases hLocal
    · rintro a rfl
      cases hLocal
    · rintro d k q p rfl
      cases hLocal
  | @drop x i now d =>
    have hAll : ∀ y, (P.next w (.deliver x i now d)).node y = w.node y := by
      intro y
      rcases Side.eq_or_eq_other x y with rfl | rfl
      · exact (next_node_side (l := .deliver y i now d)).trans hNext
      · exact next_node_other (l := .deliver x i now d)
    refine ⟨fun y => ?_, fun y => ?_⟩
    · rw [hAll]
      exact h.node y
    · obtain ⟨S, hLink⟩ := h.link y
      rw [hAll, hAll]
      exact ⟨S, hLink.mono (drawn_subset_next w _ y) (drawn_subset_next w _ y.other)
        (List.Subset.refl _)⟩
  | @handle x i now d f e hSome he hOpen =>
    have hf := List.mem_of_getElem? hSome
    refine h.event hC hF hKeyed hNext (noRekey_of_received he) ?_ ?_ ?_ ?_
    · rintro now' epoch rk salt rfl
      have hNot := (h.node x.other).noRekey f hf
      cases hPlain : f.plain <;> rw [hPlain] at he <;> cases he
      rw [isRekey, hPlain] at hNot
      cases hNot
    · rintro now' d' rk salt rfl hEst hNew
      cases hPlain : f.plain <;> rw [hPlain] at he <;> cases he
      exact hGuard.2 rk (arrivingHello_eq hSome hOpen hPlain) hEst hNew
    · rintro a rfl
      cases hPlain : f.plain <;> rw [hPlain] at he <;> cases he
      exact ⟨f, hf, _, hPlain, hOpen⟩
    · rintro d' k q p rfl
      cases hPlain : f.plain <;> rw [hPlain] at he <;> cases he
      exact ⟨f, hf, hPlain, hOpen⟩
  | @restart x now d =>
    have hSide : (P.next w (.restart x now d)).node x =
        (w.node x).restart (P.freshSession x now d.rk d.salt) :=
      (next_node_side (l := .restart x now d)).trans hNext
    have hOther : (P.next w (.restart x now d)).node x.other = w.node x.other :=
      next_node_other (l := .restart x now d)
    have hMine := drawn_subset_next (P := P) w (.restart x now d)
    have hFresh := hEn.2.notMem (l := .restart x now d) rfl x
    refine ⟨fun y => ?_, fun y => ?_⟩
    · rcases Side.eq_or_eq_other x y with rfl | rfl
      · rw [hSide]
        exact ⟨fun _ => ⟨⟨rfl, rfl, rfl, rfl⟩, rfl⟩, nofun, (h.node y).noRekey⟩
      · rw [hOther]
        exact h.node _
    · rcases Side.eq_or_eq_other x y with rfl | rfl
      · obtain ⟨S, hLink⟩ := h.link y
        rw [hSide, hOther]
        refine ⟨S, (hLink.restart_sender ?_ rfl).mono (hMine y) (hMine y.other)
          (List.Subset.refl _)⟩
        -- the routing key of the restart was drawn in this step
        rintro own hOwn
        cases hOwn
        exact hFresh
      · obtain ⟨S, hLink⟩ := h.link x.other
        rw [Side.other_other] at hLink ⊢
        rw [hSide, hOther]
        exact ⟨S, (hLink.of_unused rfl rfl).mono (hMine x.other) (hMine x) (List.Subset.refl _)⟩

/--
**Acknowledged means delivered.** In every run, with any restarts, in which no
REKEY is sent and every HELLO that changes the routing key recorded by an
established session announces one not recorded before and finds that nothing
was received yet, every payload removed from the send window by an
acknowledgement was handed to the TUN of the other side.
-/
theorem acked_delivered (hC : C.Lawful) (hF : C.CollisionFree) {w : World}
    (h : P.machine.Reach P.RenewsUnused w) (x : Side) :
    ∀ e ∈ (w.node x).acked, e.2 ∈ (w.node x.other).tun := by
  have hInv : P.Keyed w ∧ P.Links w := by
    refine h.invariant (I := fun w => P.Keyed w ∧ P.Links w)
      (fun w hInit => ⟨keyed_init hInit, links_init hInit⟩) ?_
    rintro w l ⟨hKeyed, hLinks⟩ hEn hGuard
    exact ⟨keyed_step hC hKeyed hEn.1 hEn.2, links_step hC hF hLinks hKeyed hEn hGuard⟩
  obtain ⟨S, hLink⟩ := hInv.2.link x
  exact hLink.acked

-- ---------------------------------------------------------------------------
-- A receiver and a sender that restart
-- ---------------------------------------------------------------------------

/-- After the handshake a packet of Alice is lost and Bob restarts; Alice
renumbers on his HELLO, resends, and he acknowledges. -/
def restartedReceiverRun : List Label := handshakeRun ++
  [.act .left (.sealData 1 [7]), .restart .right 2 ⟨40, 8, (0, 0)⟩,
    .act .right (.buildHello sampleDraw), .deliver .left 1 3 sampleDraw,
    .deliver .right 3 4 sampleDraw, .act .left (.resend 1000 1), .deliver .right 4 1001 sampleDraw,
    .deliver .left 3 1002 sampleDraw]

theorem acked_delivered_sample :
    (1, [7]) ∈ ((sample.machine.run sampleWorld restartedReceiverRun).node .left).acked ∧
      [7] ∈ ((sample.machine.run sampleWorld restartedReceiverRun).node .right).tun := by
  have hReach : sample.machine.Reach sample.RenewsUnused
      (sample.machine.run sampleWorld restartedReceiverRun) :=
    Machine.reach_run (.init sample_init) (by decide +kernel)
  have hAcked : (1, [7]) ∈
      ((sample.machine.run sampleWorld restartedReceiverRun).node .left).acked := by
    decide +kernel
  exact ⟨hAcked, acked_delivered symbolic_lawful symbolic_collisionFree hReach .left _ hAcked⟩

/-- After the handshake Alice has a packet delivered, restarts, completes the
handshake again and sends another packet: number 1, which Bob has seen. -/
def restartedSenderRun : List Label := handshakeRun ++
  [.act .left (.sealData 1 [7]), .deliver .right 2 2 sampleDraw,
    .restart .left 3 ⟨40, 8, (0, 0)⟩, .act .left (.buildHello sampleDraw),
    .deliver .right 3 4 sampleDraw, .deliver .left 2 5 sampleDraw, .act .left (.sealData 6 [9]),
    .deliver .right 5 7 sampleDraw, .deliver .left 3 8 sampleDraw]

/-- The packet of a restarted peer is acknowledged and never delivered. -/
theorem restart_acks_undelivered : ∃ w, sample.machine.Reach (fun _ _ => True) w ∧
    (∀ x f, f ∈ (w.node x).sealed → isRekey f = false) ∧
    (1, [9]) ∈ (w.node .left).acked ∧ [9] ∉ (w.node .right).tun ∧
    (w.node .left).dp.established = true ∧ (w.node .left).dp.sendUnacked.isEmpty = true := by
  refine ⟨sample.machine.run sampleWorld restartedSenderRun,
    Machine.reach_run (.init sample_init) (by decide +kernel), ?_, by decide +kernel,
    by decide +kernel, by decide +kernel, by decide +kernel⟩
  intro x
  cases x <;> decide +kernel

end LinkMesh.Pair
