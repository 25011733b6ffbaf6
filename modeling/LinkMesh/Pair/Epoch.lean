import LinkMesh.Pair.Rekey

/-!
# Keys and epochs across restarts

Over a channel that loses, duplicates and reorders, either side restarting at
any time. The epoch counts the rotations of the initiator's routing key, so it
is a function of that key; `handle_hello` keeps the epoch of an established
session, which fits the announced routing key only while it is 0.

* `sameKey_sameEpoch` — in every run in which a HELLO that changes the recorded
  routing key reaches an established session at epoch 0 only, sessions with the
  same key have the same epoch;
* `restart_after_rekey_splits_epochs` — after one rotation and a restart of the
  other side, both hold one key at epochs 1 and 0.
-/

namespace LinkMesh.Pair

variable {Ct : Type} {C : Crypto Ct} {P : Pair C}

-- ---------------------------------------------------------------------------
-- The epoch as a function of the routing key
-- ---------------------------------------------------------------------------

/-- A HELLO that changes the routing key recorded by an established session
finds it at epoch 0. -/
def RenewsAtEpochZero (C : Crypto Ct) (w : World) (l : Label) : Prop :=
  ∀ rk ∈ arrivingHello C w l, (w.node l.side).dp.established = true →
    (w.node l.side).dp.peerRkPub ≠ some rk → (w.node l.side).dp.epoch = 0

instance (w : World) (l : Label) : Decidable (RenewsAtEpochZero C w l) :=
  inferInstanceAs (Decidable (∀ rk ∈ arrivingHello C w l, _ → _ → _))

/-- The epoch is a function `ep` of the initiator's routing key, on the
initiator, on the side that recorded it, and in the frames that announce it. -/
structure EpochInv (P : Pair C) (ep : RawKey → Nat) (sI : KeyState) (framesI : List Sealing)
    (sR : KeyState) (framesR : List Sealing) : Prop where
  own : ∀ rk, sI.rkPub = some rk → sI.epoch = ep rk
  recorded : ∀ rk, sR.peerRkPub = some rk → sR.epoch = ep rk
  hello : ∀ f ∈ framesI, ∀ e rk salt ip, f.key = P.handshakeKey P.initiator →
    f.plain = .hello e rk salt ip → ep rk = 0
  rekey : ∀ f ∈ framesI, ∀ e rk salt, f.plain = .rekey e rk salt → ep rk = e + 1
  quiet : ∀ f ∈ framesR, ∀ e rk salt, f.plain ≠ .rekey e rk salt

namespace EpochInv

variable {ep : RawKey → Nat} {sI sR : KeyState} {framesI framesR : List Sealing}

/-- Only the handshake frames matter. -/
theorem of_handshakes {framesI' : List Sealing} (h : P.EpochInv ep sI framesI sR framesR)
    (hSub : ∀ f ∈ framesI', f.plain.handshake = true → f ∈ framesI) :
    P.EpochInv ep sI framesI' sR framesR where
  own := h.own
  recorded := h.recorded
  hello f hf e rk salt ip hKey hPlain :=
    h.hello f (hSub f hf (by rw [hPlain]; rfl)) e rk salt ip hKey hPlain
  rekey f hf e rk salt hPlain := h.rekey f (hSub f hf (by rw [hPlain]; rfl)) e rk salt hPlain
  quiet := h.quiet

/-- A new routing key `rk₀` of the initiator, at epoch `k`; the epochs of those
named so far do not depend on it. -/
theorem renew (rk₀ : RawKey) {k : Nat} (sI' : KeyState) (h : P.EpochInv ep sI framesI sR framesR)
    (hHeard : ∀ rk, sR.peerRkPub = some rk → rk ≠ rk₀)
    (hFrames : ∀ f ∈ framesI, ∀ rk salt, f.plain.announced = some (rk, salt) → rk ≠ rk₀)
    (hRk : sI'.rkPub = some rk₀) (hEpoch : sI'.epoch = k) :
    P.EpochInv (Function.update ep rk₀ k) sI' framesI sR framesR where
  own rk h' := by
    cases hRk.symm.trans h'
    rw [Function.update_self, hEpoch]
  recorded rk h' := by
    rw [Function.update_of_ne (hHeard rk h')]
    exact h.recorded rk h'
  hello f hf e rk salt ip hKey hPlain := by
    rw [Function.update_of_ne (hFrames f hf rk salt (by rw [hPlain]; rfl))]
    exact h.hello f hf e rk salt ip hKey hPlain
  rekey f hf e rk salt hPlain := by
    rw [Function.update_of_ne (hFrames f hf rk salt (by rw [hPlain]; rfl))]
    exact h.rekey f hf e rk salt hPlain
  quiet := h.quiet

/-- A further frame of the initiator. -/
theorem concat {f : Sealing} (h : P.EpochInv ep sI framesI sR framesR)
    (hHello : ∀ e rk salt ip, f.key = P.handshakeKey P.initiator →
      f.plain = .hello e rk salt ip → ep rk = 0)
    (hRekey : ∀ e rk salt, f.plain = .rekey e rk salt → ep rk = e + 1) :
    P.EpochInv ep sI (framesI ++ [f]) sR framesR where
  own := h.own
  recorded := h.recorded
  hello g hg e rk salt ip hKey hPlain := by
    rcases List.mem_append.mp hg with hg | hg
    · exact h.hello g hg e rk salt ip hKey hPlain
    · cases List.mem_singleton.mp hg
      exact hHello e rk salt ip hKey hPlain
  rekey g hg e rk salt hPlain := by
    rcases List.mem_append.mp hg with hg | hg
    · exact h.rekey g hg e rk salt hPlain
    · cases List.mem_singleton.mp hg
      exact hRekey e rk salt hPlain
  quiet := h.quiet

/-- A section of the initiator: a rotation gives the new routing key the next
epoch, and a HELLO is sealed under the handshake key at epoch 0 only. -/
theorem initiator (hF : C.CollisionFree) {n : Node} {e : Event} {mine theirs : List RawKey}
    (h : P.EpochInv ep n.dp.toKeyState n.sealed sR framesR)
    (hNode : P.KeyedNode P.initiator mine theirs n)
    (hHeard : ∀ rk, sR.peerRkPub = some rk → rk ∈ mine)
    (hFresh : ∀ rk, e.drawnRk = some rk → C.publicKey rk ∉ mine)
    (hEvent : e.announced = none ∨ ∃ now d rk salt, e = .handleHello now d rk salt ∧
      (n.dp.established = true → n.dp.peerRkPub ≠ some rk → n.dp.epoch = 0)) :
    ∃ ep', P.EpochInv ep' (n.step (P.cfg P.initiator) C e).dp.toKeyState
      (n.step (P.cfg P.initiator) C e).sealed sR framesR := by
  obtain ⟨priv, salt, hWell, hMem⟩ := hNode.keyed
  have hKeys := DataPlane.step_keyStep (P.cfg P.initiator) C n.dp e
  have hFrames : ∀ f ∈ (n.step (P.cfg P.initiator) C e).sealed, f.plain.handshake = true →
      f ∈ n.sealed ++ DataPlane.handshakes (n.dp.step (P.cfg P.initiator) C e).2.sealed := by
    intro f hf hHand
    rw [Node.step_sealed] at hf
    exact List.mem_append.mpr ((List.mem_append.mp hf).imp_right fun hf =>
      List.mem_filter.mpr ⟨hf, hHand⟩)
  have hOwn := h.own _ hWell.rkPub
  -- a rotation extends the function by the new routing key
  have hRotate : ∀ {d : Draw} {s' : KeyState} {f : Sealing}, e.drawnRk = some d.rk →
      n.dp.toKeyState.maybeRekey (P.cfg P.initiator) C d = some (s', f) →
      ∃ ep', P.EpochInv ep' s' (n.sealed ++ [f]) sR framesR := by
    intro d s' f hd hSome
    obtain ⟨-, -, _, -, hKeys, rfl⟩ := KeyState.maybeRekey_eq_some.mp hSome
    have hNew := h.renew (C.publicKey d.rk) s' (k := n.dp.epoch + 1)
      (fun rk hRk hEq => hFresh d.rk hd (hEq ▸ hHeard rk hRk))
      (fun f hf rk salt hAnn hEq => hFresh d.rk hd (hEq ▸ hNode.announced f hf rk salt hAnn))
      (by rw [hKeys]) (by rw [hKeys])
    refine ⟨_, hNew.concat ?_ ?_⟩
    · intro e' rk salt' ip _ hPlain
      cases hPlain
    · intro e' rk salt' hPlain
      cases hPlain
      exact Function.update_self ..
  -- only the handshake frames of the section count
  suffices hGoal : ∃ ep', P.EpochInv ep' (n.dp.step (P.cfg P.initiator) C e).1.toKeyState
      (n.sealed ++ DataPlane.handshakes (n.dp.step (P.cfg P.initiator) C e).2.sealed) sR framesR by
    obtain ⟨ep', hInv⟩ := hGoal
    exact ⟨ep', hInv.of_handshakes hFrames⟩
  generalize (n.dp.step (P.cfg P.initiator) C e).1.toKeyState = s', DataPlane.handshakes _ = hs
    at hKeys ⊢
  cases hKeys with
  | idle => exact ⟨ep, by rw [List.append_nil]; exact h⟩
  | announce hSome =>
    obtain ⟨rk, mySalt, hRk, -, rfl⟩ := KeyState.buildHelloCt_eq_some.mp hSome
    cases hRk.symm.trans hWell.rkPub
    refine ⟨ep, h.concat ?_ ?_⟩
    · intro e' rk salt' ip hKey hPlain
      cases hPlain
      -- under the handshake key only before the handshake, at epoch 0
      cases hEst : n.dp.established with
      | false => rw [← hOwn, (hWell.of_not_established hEst).2.2]
      | true =>
        obtain ⟨own, rk', -, -, -, -, hSession⟩ := hNode.sessionKey hEst
        exact absurd hKey (sessionKey_ne_handshakeKey hF hSession)
    · intro e' rk salt' hPlain
      cases hPlain
  | rotate hSome => exact hRotate rfl hSome
  | rotateCount hSome => exact hRotate rfl hSome
  | @accept now d rk peerSalt _ hReply =>
    -- a reply goes out for a first or a changed routing key, at epoch 0 both times
    have hZero : n.dp.peerKey.isNone = true ∨ n.dp.peerRkPub ≠ some rk → n.dp.epoch = 0 := by
      intro hNew
      cases hEst : n.dp.established with
      | false => exact (hWell.of_not_established hEst).2.2
      | true =>
        obtain ⟨k, hk⟩ := KeyState.established_iff.mp hEst
        rcases hEvent with hNone | ⟨_, _, _, _, hHello, hZero⟩
        · cases hNone
        · cases hHello
          exact hZero hEst (hNew.resolve_left (by simp [hk]))
    have hSame : P.EpochInv ep (n.dp.toKeyState.acceptHello (P.cfg P.initiator) C d rk peerSalt)
        n.sealed sR framesR := by
      rw [hWell.acceptHello_eq]
      exact ⟨h.own, h.recorded, h.hello, h.rekey, h.quiet⟩
    refine ⟨ep, ?_⟩
    rw [hReply]
    split
    · rename_i hNew
      rw [hWell.acceptHello_eq] at hSame ⊢
      simp only [KeyState.replyHello, hWell.rkPub, hWell.mySalt, Option.toList_some] at hSame ⊢
      refine hSame.concat ?_ ?_
      · intro e' rk' salt' ip _ hPlain
        cases hPlain
        rw [← hOwn]
        exact hZero (by simpa using hNew)
      · intro e' rk' salt' hPlain
        cases hPlain
    · rw [List.append_nil]
      exact hSame
  | follow =>
    rcases hEvent with hNone | ⟨_, _, _, _, hHello, -⟩
    · cases hNone
    · cases hHello

/-- A section of the other side: what it records is at the epoch it has then. -/
theorem responder {n : Node} {e : Event} {mine theirs : List RawKey} {priv : RawKey} {salt : Salt}
    (h : P.EpochInv ep sI framesI n.dp.toKeyState n.sealed)
    (hNode : P.KeyedNode P.initiator.other mine theirs n)
    (hWell : n.dp.WellKeyed (P.cfg P.initiator.other) C priv salt)
    (hEvent : e.announced = none ∨
      (∃ now d rk salt, e = .handleHello now d rk salt ∧ (n.dp.peerRkPub = some rk ∨
        (ep rk = 0 ∧ (n.dp.established = true → n.dp.epoch = 0)))) ∨
      ∃ now e' rk salt, e = .handleRekey now e' rk salt ∧ ep rk = e' + 1) :
    P.EpochInv ep sI framesI (n.step (P.cfg P.initiator.other) C e).dp.toKeyState
      (n.step (P.cfg P.initiator.other) C e).sealed := by
  obtain ⟨-, hQuiet, hKeep⟩ := responder_step (e := e) hNode hWell
  have hKeys := DataPlane.step_keyStep (P.cfg P.initiator.other) C n.dp e
  refine ⟨h.own, ?_, h.hello, h.rekey, ?_⟩
  · rcases hEvent with hNone | ⟨now, d, rk, peerSalt, rfl, hEpoch⟩ |
      ⟨now, e', rk, peerSalt, rfl, hEp⟩
    · rw [hKeep hNone]
      exact h.recorded
    · rw [Node.step_dp]
      generalize (n.dp.step _ C _).1.toKeyState = s', DataPlane.handshakes _ = hs at hKeys ⊢
      cases hKeys with
      | idle hNone => cases hNone
      | accept =>
        rw [hWell.acceptHello_eq]
        rintro rk' ⟨⟩
        rcases hEpoch with hSame | ⟨hEp, hZero⟩
        · exact h.recorded rk hSame
        · rw [hEp]
          cases hEst : n.dp.established with
          | false => exact (hWell.of_not_established hEst).2.2
          | true => exact hZero hEst
    · rw [Node.step_dp]
      generalize (n.dp.step _ C _).1.toKeyState = s', DataPlane.handshakes _ = hs at hKeys ⊢
      cases hKeys with
      | idle hNone => cases hNone
      | follow =>
        by_cases hDrop : n.dp.established = false ∨ e' ≠ n.dp.epoch
        · rw [KeyState.handleRekey_drop hDrop]
          exact h.recorded
        · push Not at hDrop
          obtain ⟨hEst, rfl⟩ := hDrop
          rw [hWell.handleRekey_eq (by simpa using hEst)]
          rintro rk' ⟨⟩
          exact hEp.symm
  · intro f hf
    rw [Node.step_sealed] at hf
    exact (List.mem_append.mp hf).elim (h.quiet f) (hQuiet f)

end EpochInv

-- ---------------------------------------------------------------------------
-- Both sides over runs
-- ---------------------------------------------------------------------------

/-- The epochs of the two sides fit the initiator's routing keys. -/
def EpochsFit (P : Pair C) (w : World) : Prop :=
  ∃ ep, P.EpochInv ep (w.node P.initiator).dp.toKeyState (w.node P.initiator).sealed
    (w.node P.initiator.other).dp.toKeyState (w.node P.initiator.other).sealed

theorem epochsFit_init {w : World} (h : P.Init w) : P.EpochsFit w := by
  obtain ⟨_, rk, salt, hNode, -⟩ := h.node P.initiator
  obtain ⟨_, rk', salt', hNode', -⟩ := h.node P.initiator.other
  refine ⟨fun _ => 0, ?_⟩
  rw [hNode, hNode']
  exact ⟨fun _ _ => rfl, nofun, nofun, nofun, nofun⟩

/-- A frame of the initiator that opens on the other side announces a routing
key at the epoch the other side will have. -/
theorem epoch_of_opens (hC : C.Lawful) (hF : C.CollisionFree) {w : World} {ep : RawKey → Nat}
    (hKeyed : P.Keyed w)
    (h : P.EpochInv ep (w.node P.initiator).dp.toKeyState (w.node P.initiator).sealed
      (w.node P.initiator.other).dp.toKeyState (w.node P.initiator.other).sealed)
    {f : Sealing} (hf : f ∈ (w.node P.initiator).sealed)
    (hOpen : Node.Opens C (w.node P.initiator.other).dp.toKeyState f) {e : Nat} {rk : RawKey}
    {salt : Salt} {ip : String} (hPlain : f.plain = .hello e rk salt ip) :
    (w.node P.initiator.other).dp.peerRkPub = some rk ∨ ep rk = 0 := by
  by_cases hKey : f.key = P.handshakeKey P.initiator
  · exact .inr (h.hello f hf e rk salt ip hKey hPlain)
  -- under a session key it opens only where its routing key is recorded
  · left
    have hNode := hKeyed.node P.initiator.other
    obtain ⟨hHk, -⟩ | ⟨own, rk', hSession, hOwn⟩ := (hKeyed.node P.initiator).sealedUnder f hf
    · exact absurd hHk hKey
    · rw [hOwn e rk salt ip hPlain] at hSession
      rcases (Node.opens_iff hC).mp hOpen with hCur | hHk
      · cases hEst : (w.node P.initiator.other).dp.established with
        | false =>
          rw [KeyState.currentKey_of_none (KeyState.not_established_iff.mp hEst),
            hNode.handshakeKey, handshakeKey_comm hC] at hCur
          exact absurd hCur hKey
        | true =>
          obtain ⟨own', rk'', -, hRk, hMem', -, hSession'⟩ := hNode.sessionKey hEst
          rw [← hCur] at hSession'
          rcases sessionKey_inj hF hSession hSession' with ⟨rfl, -⟩ | ⟨rfl, -⟩
          · have hMem := (hKeyed.node P.initiator).announced f hf rk salt (by rw [hPlain]; rfl)
            exact absurd hMem' (hKeyed.distinct P.initiator rk hMem)
          · exact hRk
      · rw [hNode.handshakeKey, handshakeKey_comm hC] at hHk
        exact absurd hHk hKey

theorem epochsFit_step (hC : C.Lawful) (hF : C.CollisionFree) {w : World} {l : Label}
    (h : P.EpochsFit w) (hKeyed : P.Keyed w) (hEn : Enabled w l) (hFresh : Fresh (C := C) w l)
    (hRenew : RenewsAtEpochZero C w l) : P.EpochsFit (P.next w l) := by
  obtain ⟨ep, hInv⟩ := h
  have hNodeI := hKeyed.node P.initiator
  have hNodeR := hKeyed.node P.initiator.other
  have hHeard : ∀ rk, (w.node P.initiator.other).dp.peerRkPub = some rk →
      rk ∈ w.drawn P.initiator := by
    have := hNodeR.heard
    rwa [Side.other_other] at this
  obtain ⟨priv, salt, hWell, -⟩ := hNodeR.keyed
  have hNext : (P.next w l).node l.side = P.nodeNext w l := next_node_side
  have hOther : (P.next w l).node l.side.other = w.node l.side.other := next_node_other
  have hMoves := moves_nodeNext (P := P) hC hEn
  generalize P.nodeNext w l = n' at hMoves hNext
  -- the initiator moves, then the side that never rotates
  rcases Side.eq_or_eq_other P.initiator l.side with hSide | hSide
  · rw [hSide] at hNext hOther
    unfold EpochsFit
    rw [hNext, hOther]
    cases hMoves with
    | @act x e hLocal =>
      cases hSide
      exact hInv.initiator hF hNodeI hHeard (fun rk hRk => hFresh.notMem hRk _)
        (.inl (Event.announced_of_isLocal hLocal))
    | @drop x =>
      cases hSide
      exact ⟨ep, hInv⟩
    | @handle x i now d f e hSome he hOpen =>
      cases hSide
      refine hInv.initiator hF hNodeI hHeard (fun rk hRk => ?_) ?_
      · rw [Plain.drawnRk_event he] at hRk
        cases hRk
      · rcases Plain.event_cases he with ⟨e', rk, salt, ip, hPlain, rfl⟩ |
          ⟨e', rk, salt, hPlain, rfl⟩ | ⟨_, _, _, -, rfl⟩ | ⟨_, _, -, rfl⟩
        · exact .inr ⟨now, d, rk, salt, rfl, hRenew rk (arrivingHello_eq hSome hOpen hPlain)⟩
        · exact absurd hPlain (hInv.quiet f (List.mem_of_getElem? hSome) e' rk salt)
        · exact .inl rfl
        · exact .inl rfl
    | @restart x now d =>
      cases hSide
      have hNew : C.publicKey d.rk ∉ w.drawn P.initiator := hFresh.notMem rfl P.initiator
      exact ⟨_, hInv.renew (C.publicKey d.rk)
        (P.freshSession P.initiator now d.rk d.salt).toKeyState (k := 0)
        (fun rk hRk hEq => hNew (hEq ▸ hHeard rk hRk))
        (fun f hf rk salt hAnn hEq => hNew (hEq ▸ hNodeI.announced f hf rk salt hAnn)) rfl rfl⟩
  · rw [hSide] at hNext hOther
    rw [Side.other_other] at hOther
    refine ⟨ep, ?_⟩
    rw [hNext, hOther]
    cases hMoves with
    | @act x e hLocal =>
      cases hSide
      exact hInv.responder hNodeR hWell (.inl (Event.announced_of_isLocal hLocal))
    | @drop x =>
      cases hSide
      exact hInv
    | @handle x i now d f e hSome he hOpen =>
      cases hSide
      have hf : f ∈ (w.node P.initiator).sealed := by
        rw [← Side.other_other P.initiator]
        exact List.mem_of_getElem? hSome
      refine hInv.responder hNodeR hWell ?_
      rcases Plain.event_cases he with ⟨e', rk, salt, ip, hPlain, rfl⟩ |
        ⟨e', rk, salt, hPlain, rfl⟩ | ⟨_, _, _, -, rfl⟩ | ⟨_, _, -, rfl⟩
      · refine .inr (.inl ⟨now, d, rk, salt, rfl, ?_⟩)
        -- a HELLO with another routing key is from the initiator's epoch 0, and
        -- the guard says that the session is there too
        by_cases hSame : (w.node P.initiator.other).dp.peerRkPub = some rk
        · exact .inl hSame
        · exact .inr ⟨(epoch_of_opens hC hF hKeyed hInv hf hOpen hPlain).resolve_left hSame,
            fun hEst => hRenew rk (arrivingHello_eq hSome hOpen hPlain) hEst hSame⟩
      · exact .inr (.inr ⟨now, e', rk, salt, rfl, hInv.rekey f hf e' rk salt hPlain⟩)
      · exact .inl rfl
      · exact .inl rfl
    | @restart x now d =>
      cases hSide
      exact ⟨hInv.own, nofun, hInv.hello, hInv.rekey, hInv.quiet⟩

/--
**Same key, same epoch.** In every run of HELLO, REKEY and DATA over a lossy
channel, with restarts of either side at any time, in which a HELLO that
changes the recorded routing key reaches an established session at epoch 0
only: two established sessions with the same key have the same epoch.
-/
theorem sameKey_sameEpoch (hC : C.Lawful) (hF : C.CollisionFree) {w : World}
    (h : P.machine.Reach (RenewsAtEpochZero C) w)
    (hEst : ∀ x, (w.node x).dp.established = true)
    (hKey : (w.node .left).dp.peerKey = (w.node .right).dp.peerKey) :
    (w.node .left).dp.epoch = (w.node .right).dp.epoch := by
  obtain ⟨hKeyed, ep, hInv⟩ : P.Keyed w ∧ P.EpochsFit w := by
    refine h.invariant (I := fun w => P.Keyed w ∧ P.EpochsFit w)
      (fun w hw => ⟨keyed_init hw, epochsFit_init hw⟩) ?_
    rintro w l ⟨hK, hE⟩ ⟨hEn, hFresh⟩ hl
    exact ⟨keyed_step hC hK hEn hFresh, epochsFit_step hC hF hE hK hEn hFresh hl⟩
  have hCur : (w.node P.initiator).dp.currentKey = (w.node P.initiator.other).dp.currentKey := by
    rw [KeyState.peerKey_of_established (hEst _), KeyState.peerKey_of_established (hEst _)] at hKey
    cases hx : P.initiator with
    | left => exact Option.some.inj hKey
    | right => exact (Option.some.inj hKey).symm
  obtain ⟨priv, salt, hWell, -⟩ := (hKeyed.node P.initiator).keyed
  have hRk := (recorded_of_currentKey_eq hF hKeyed hEst hCur).trans hWell.rkPub
  have hEq := (hInv.own _ hWell.rkPub).trans (hInv.recorded _ hRk).symm
  cases hx : P.initiator with
  | left =>
    rw [hx] at hEq
    exact hEq
  | right =>
    rw [hx] at hEq
    exact hEq.symm

theorem sameKey_sameEpoch_sample :
    ((sample.machine.run sampleWorld rekeyRun).node .left).dp.epoch =
      ((sample.machine.run sampleWorld rekeyRun).node .right).dp.epoch := by
  have hReach : sample.machine.Reach (RenewsAtEpochZero symbolic)
      (sample.machine.run sampleWorld rekeyRun) :=
    Machine.reach_run (.init sample_init) (by decide +kernel)
  refine sameKey_sameEpoch symbolic_lawful symbolic_collisionFree hReach (fun x => ?_)
    (by decide +kernel)
  cases x <;> decide +kernel

-- ---------------------------------------------------------------------------
-- A restart after a rotation
-- ---------------------------------------------------------------------------

/-- A rotation that Bob follows, his restart, his HELLO and Alice's reply. -/
def restartRun : List Label := rekeyRun ++
  [.restart .right 3 ⟨40, 9, (0, 0)⟩, .act .right (.buildHello sampleDraw),
    .deliver .left 1 4 sampleDraw, .deliver .right 3 5 sampleDraw]

theorem restart_after_rekey_splits_epochs :
    ¬ ∀ w, sample.machine.Reach (fun _ _ => True) w →
      (∀ x, (w.node x).dp.established = true) →
      (w.node .left).dp.peerKey = (w.node .right).dp.peerKey →
      (w.node .left).dp.epoch = (w.node .right).dp.epoch := by
  intro hAll
  have hReach : sample.machine.Reach (fun _ _ => True)
      (sample.machine.run sampleWorld restartRun) :=
    Machine.reach_run (.init sample_init) (by decide +kernel)
  have hEq := hAll _ hReach (fun x => by cases x <;> decide +kernel) (by decide +kernel)
  revert hEq
  decide +kernel

end LinkMesh.Pair
