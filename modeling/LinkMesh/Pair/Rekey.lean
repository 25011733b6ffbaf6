import LinkMesh.Pair.Resync

/-!
# Key rotation over an in-order channel

Without restarts and with every frame delivered once and in order, the side
that never rotates follows the other one: reading the frames in flight takes
it from what it knows of the initiator now (its `View`) to what the initiator
is now.

* `fifo_rekey_agreement` — both established and no REKEY in flight: one key,
  one epoch.
-/

namespace LinkMesh.Pair

variable {Ct : Type} {C : Crypto Ct} {P : Pair C}

-- ---------------------------------------------------------------------------
-- What the responder learns from a frame
-- ---------------------------------------------------------------------------

/-- Frames are delivered once and in order, and nobody restarts. -/
def InOrder (w : World) : Label → Prop
  | .act .. => True
  | .deliver x i _ _ => i = w.received x
  | .restart .. => False

instance (w : World) : ∀ l, Decidable (InOrder w l)
  | .act .. => .isTrue trivial
  | .deliver x i _ _ => inferInstanceAs (Decidable (i = w.received x))
  | .restart .. => .isFalse id

/-- The frames of side `x` that the other side has not received yet. -/
def inFlight (w : World) (x : Side) : List Sealing :=
  (w.node x).sealed.drop (w.received x.other)

/-- What one side knows of the other: its routing key and salt, and the epoch. -/
structure View where
  rk : RawKey
  salt : Salt
  epoch : Nat
  deriving DecidableEq, Repr

/-- What the session has recorded of its peer, nothing before the handshake. -/
def Sees (s : KeyState) : Option View → Prop
  | none => s.established = false
  | some v => s.established = true ∧ s.peerRkPub = some v.rk ∧ s.peerSalt = some v.salt ∧
    s.epoch = v.epoch

/-- How a frame changes the view of its receiver, `key` being the receiver's
session key for a view and `hk` the handshake key. -/
inductive Absorbs (key : View → RawKey) (hk : RawKey) :
    Option View → Sealing → Option View → Prop where
  | greet {v : Option View} {nonce : Nonce} {e : Nat} {rk : RawKey} {salt : Salt} {ip : String} :
      v = none ∨ v = some ⟨rk, salt, 0⟩ →
      Absorbs key hk v ⟨hk, nonce, .hello e rk salt ip⟩ (some ⟨rk, salt, 0⟩)
  | keepalive {v : View} {nonce : Nonce} {e : Nat} {ip : String} :
      Absorbs key hk (some v) ⟨key v, nonce, .hello e v.rk v.salt ip⟩ (some v)
  | rekey {v : View} {nonce : Nonce} {rk : RawKey} {salt : Salt} :
      Absorbs key hk (some v) ⟨key v, nonce, .rekey v.epoch rk salt⟩
        (some ⟨rk, salt, v.epoch + 1⟩)
  | transfer {v : Option View} {f : Sealing} : f.plain.handshake = false → Absorbs key hk v f v

/-- The view the other side is to have of the initiator's keys. -/
def Matches (s : KeyState) (v : Option View) : Prop :=
  ∃ rk salt, s.rkPub = some rk ∧ s.mySalt = some salt ∧
    if s.established then v = some ⟨rk, salt, s.epoch⟩ else v = none ∨ v = some ⟨rk, salt, 0⟩

variable (P) in
/-- The session key of the side that never rotates, for a view of the other. -/
def viewKey (priv : RawKey) (salt : Salt) (v : View) : RawKey :=
  C.derivePeerKey (P.cfg P.initiator.other).localPriv (P.peerPub P.initiator.other) priv v.rk
    (xorSalt salt v.salt)

section Responder

variable {n : Node} {x : Side} {mine theirs : List RawKey} {priv : RawKey} {salt : Salt}

/-- DATA and ACK frames do not touch the keys. -/
theorem receive_transfer {cfg : Config} (hC : C.Lawful) (now : Instant) (d : Draw) {f : Sealing}
    (hHand : f.plain.handshake = false) :
    (n.receive cfg C now d (f.ct C)).dp.toKeyState = n.dp.toKeyState := by
  rcases Node.receive_cases cfg hC now d f n with h | ⟨e, he, -, h⟩
  · rw [h]
  · rw [h]
    have hKeys := DataPlane.step_keyStep cfg C n.dp e
    rw [Node.step_dp]
    generalize (n.dp.step cfg C e).1.toKeyState = s', DataPlane.handshakes _ = hs at hKeys ⊢
    rcases Plain.event_cases he with ⟨_, _, _, _, hPlain, rfl⟩ | ⟨_, _, _, hPlain, rfl⟩ |
      ⟨_, _, _, -, rfl⟩ | ⟨_, _, -, rfl⟩
    · rw [hPlain] at hHand
      cases hHand
    · rw [hPlain] at hHand
      cases hHand
    · cases hKeys
      rfl
    · cases hKeys
      rfl

/-- The responder's view after a frame. -/
theorem Sees.receive (hC : C.Lawful) (now : Instant) (d : Draw) {f : Sealing}
    {v v' : Option View} (hWell : n.dp.WellKeyed (P.cfg P.initiator.other) C priv salt)
    (hPk : n.dp.publicKey = P.peerPub P.initiator.other)
    (hHk : n.dp.handshakeKey = P.handshakeKey P.initiator.other) (hSees : Sees n.dp.toKeyState v)
    (hAbs : Absorbs (P.viewKey priv salt) (P.handshakeKey P.initiator.other) v f v') :
    Sees (n.receive (P.cfg P.initiator.other) C now d (f.ct C)).dp.toKeyState v' := by
  -- a view determines the session key
  have hCur : ∀ v, Sees n.dp.toKeyState (some v) →
      n.dp.currentKey = P.viewKey priv salt v := by
    rintro v ⟨hEst, hRk, hSalt, -⟩
    obtain ⟨rk, peerSalt, hRk', hSalt', hKey⟩ := hWell.of_established hEst
    cases hRk.symm.trans hRk'
    cases hSalt.symm.trans hSalt'
    rw [hKey, hPk]
    rfl
  cases hAbs with
  | @greet _ nonce e rk peerSalt ip hv =>
    rw [Node.receive_of_opens (e := .handleHello now d rk peerSalt)
      ((Node.opens_iff hC).mpr (.inr hHk.symm)) rfl]
    show Sees (n.dp.toKeyState.acceptHello _ C d rk peerSalt) _
    rw [hWell.acceptHello_eq]
    refine ⟨rfl, rfl, rfl, ?_⟩
    rcases hv with rfl | rfl
    · exact (hWell.of_not_established hSees).2.2
    · exact hSees.2.2.2
  | @keepalive v nonce e ip =>
    rw [Node.receive_of_opens (e := .handleHello now d v.rk v.salt)
      ((Node.opens_iff hC).mpr (.inl (hCur v hSees).symm)) rfl]
    show Sees (n.dp.toKeyState.acceptHello _ C d v.rk v.salt) _
    rw [hWell.acceptHello_eq]
    exact ⟨rfl, rfl, rfl, hSees.2.2.2⟩
  | @rekey v nonce rk peerSalt =>
    obtain ⟨hEst, -, -, hEpoch⟩ := id hSees
    rw [Node.receive_of_opens (e := .handleRekey now v.epoch rk peerSalt)
      ((Node.opens_iff hC).mpr (.inl (hCur v hSees).symm)) rfl]
    have hKeys := DataPlane.step_keyStep (P.cfg P.initiator.other) C n.dp
      (.handleRekey now v.epoch rk peerSalt)
    rw [Node.step_dp]
    generalize (n.dp.step _ C _).1.toKeyState = s', DataPlane.handshakes _ = hs at hKeys ⊢
    cases hKeys with
    | idle hNot => cases hNot
    | follow =>
      rw [← hEpoch, hWell.handleRekey_eq hEst]
      exact ⟨rfl, rfl, rfl, rfl⟩
  | transfer hHand =>
    rw [receive_transfer hC now d hHand]
    exact hSees

end Responder

-- ---------------------------------------------------------------------------
-- What the initiator sends
-- ---------------------------------------------------------------------------

/-- The initiator's section keeps the frames in flight leading to its keys.
Every HELLO it receives announces the routing key and salt `priv` and `salt`
of the responder. -/
theorem Matches.step (hC : C.Lawful) {n : Node} {e : Event} (priv : RawKey) (salt : Salt)
    {privI : RawKey} {saltI : Salt} {v v' : Option View} {q : List Sealing}
    (hWell : n.dp.WellKeyed (P.cfg P.initiator) C privI saltI)
    (hPk : n.dp.publicKey = P.peerPub P.initiator)
    (hHk : n.dp.handshakeKey = P.handshakeKey P.initiator)
    (hRecorded : n.dp.established = true →
      n.dp.peerRkPub = some (C.publicKey priv) ∧ n.dp.peerSalt = some salt)
    (hEvent : e.announced = none ∨ ∃ now d, e = .handleHello now d (C.publicKey priv) salt)
    (hMatch : Matches n.dp.toKeyState v')
    (hPath : StepPath (Absorbs (P.viewKey priv salt) (P.handshakeKey P.initiator.other)) v q v') :
    ∃ v'', Matches (n.step (P.cfg P.initiator) C e).dp.toKeyState v'' ∧
      StepPath (Absorbs (P.viewKey priv salt) (P.handshakeKey P.initiator.other)) v
        (q ++ (n.dp.step (P.cfg P.initiator) C e).2.sealed) v'' := by
  have hKeys := DataPlane.step_keyStep (P.cfg P.initiator) C n.dp e
  have hSealed := DataPlane.step_sealed_cases (P.cfg P.initiator) C n.dp e
  rw [Node.step_dp]
  obtain ⟨rk, mySalt, hRk, hSalt, hView⟩ := hMatch
  cases hRk.symm.trans hWell.rkPub
  cases hSalt.symm.trans hWell.mySalt
  have hHk' : n.dp.handshakeKey = P.handshakeKey P.initiator.other :=
    hHk.trans (handshakeKey_comm hC _).symm
  -- the initiator's session key is the one the responder will derive from it
  have hCur : n.dp.established = true →
      n.dp.currentKey = P.viewKey priv salt ⟨C.publicKey privI, saltI, n.dp.epoch⟩ := by
    intro hEst
    obtain ⟨rk, peerSalt, hPeerRk, hPeerSalt, hKey⟩ := hWell.of_established hEst
    cases hPeerRk.symm.trans (hRecorded hEst).1
    cases hPeerSalt.symm.trans (hRecorded hEst).2
    rw [hKey, hPk]
    exact derivePeerKey_comm hC _ _ _ _ _
  -- a rotation is announced under the key the responder has by then
  have hRotate : ∀ {d : Draw} {s' : KeyState} {f : Sealing},
      n.dp.toKeyState.maybeRekey (P.cfg P.initiator) C d = some (s', f) →
      ∃ v'', Matches s' v'' ∧
        StepPath (Absorbs (P.viewKey priv salt) (P.handshakeKey P.initiator.other)) v
          (q ++ [f]) v'' := by
    intro d s' f hSome
    obtain ⟨hEst, -, _, -, rfl, rfl⟩ := KeyState.maybeRekey_eq_some.mp hSome
    rw [if_pos hEst] at hView
    subst hView
    refine ⟨some ⟨C.publicKey d.rk, d.salt, n.dp.epoch + 1⟩, ⟨_, _, rfl, rfl, rfl⟩, hPath.concat ?_⟩
    rw [hCur hEst]
    exact .rekey
  -- a HELLO under the handshake key, sent before the handshake or completing it
  have hGreet : ∀ {nonce : Nonce} {epoch : Nat} {ip : String}, n.dp.established = false →
      StepPath (Absorbs (P.viewKey priv salt) (P.handshakeKey P.initiator.other)) v
        (q ++ [⟨n.dp.handshakeKey, nonce, .hello epoch (C.publicKey privI) saltI ip⟩])
        (some ⟨C.publicKey privI, saltI, 0⟩) := by
    intro nonce epoch ip hEst
    rw [hEst] at hView
    rw [hHk']
    exact hPath.concat (.greet hView)
  generalize (n.dp.step (P.cfg P.initiator) C e).1.toKeyState = s',
    (n.dp.step (P.cfg P.initiator) C e).2.sealed = out at hKeys hSealed ⊢
  -- without a handshake frame the responder's view stays
  have hQuiet : DataPlane.handshakes out = [] →
      StepPath (Absorbs (P.viewKey priv salt) (P.handshakeKey P.initiator.other)) v
        (q ++ out) v' := by
    intro hNone
    refine hPath.append_stay fun f hf => .transfer ?_
    rcases hSealed with hSealed | ⟨-, hHand⟩
    · rw [hSealed, hNone] at hf
      cases hf
    · exact hHand f hf
  have hOne : ∀ f, DataPlane.handshakes out = [f] → out = [f] := by
    intro f hf
    rcases hSealed with hSealed | ⟨hNone, -⟩
    · exact hSealed.trans hf
    · rw [hNone] at hf
      cases hf
  generalize hHand : DataPlane.handshakes out = hs at hKeys
  cases hKeys with
  | idle => exact ⟨v', ⟨_, _, hWell.rkPub, hWell.mySalt, hView⟩, hQuiet hHand⟩
  | announce hSome =>
    obtain ⟨rk, mySalt, hRk', hSalt', rfl⟩ := KeyState.buildHelloCt_eq_some.mp hSome
    cases hRk'.symm.trans hWell.rkPub
    cases hSalt'.symm.trans hWell.mySalt
    rw [hOne _ hHand]
    cases hEst : n.dp.established with
    | false =>
      rw [KeyState.currentKey_of_none (KeyState.not_established_iff.mp hEst)]
      exact ⟨_, ⟨_, _, hWell.rkPub, hWell.mySalt, by rw [hEst]; exact .inr rfl⟩, hGreet hEst⟩
    | true =>
      rw [if_pos hEst] at hView
      subst hView
      refine ⟨_, ⟨_, _, hWell.rkPub, hWell.mySalt, by rw [if_pos hEst]⟩, hPath.concat ?_⟩
      rw [hCur hEst]
      exact .keepalive
  | rotate hSome =>
    rw [hOne _ hHand]
    exact hRotate hSome
  | rotateCount hSome =>
    rw [hOne _ hHand]
    exact hRotate hSome
  | @accept now d rk peerSalt _ hReply =>
    obtain ⟨rfl, rfl⟩ : rk = C.publicKey priv ∧ peerSalt = salt := by
      rcases hEvent with hNone | ⟨_, _, hHello⟩
      · cases hNone
      · cases hHello
        exact ⟨rfl, rfl⟩
    have hAfter := KeyState.WellKeyed.acceptHello_eq d (C.publicKey priv) peerSalt hWell
    cases hEst : n.dp.established with
    | false =>
      have hNone := KeyState.not_established_iff.mp hEst
      have hFrame : hs = [⟨n.dp.handshakeKey, d.nonce,
          .hello n.dp.epoch (C.publicKey privI) saltI (P.cfg P.initiator).localIp⟩] := by
        rw [hReply, hAfter]
        simp [KeyState.replyHello, hNone, hWell.rkPub, hWell.mySalt]
      rw [hOne _ (hHand.trans hFrame), hAfter]
      refine ⟨_, ⟨_, _, hWell.rkPub, hWell.mySalt, ?_⟩, hGreet hEst⟩
      simp [KeyState.established, (hWell.of_not_established hEst).2.2]
    | true =>
      obtain ⟨k, hk⟩ := KeyState.established_iff.mp hEst
      have hNone : hs = [] := by
        rw [hReply, (hRecorded hEst).1]
        simp [hk]
      rw [if_pos hEst] at hView
      refine ⟨v', ⟨C.publicKey privI, saltI, ?_⟩, hQuiet (hHand.trans hNone)⟩
      rw [hAfter]
      simp [KeyState.established, hView, hWell.rkPub, hWell.mySalt]
  | follow =>
    rcases hEvent with hNone | ⟨_, _, hHello⟩
    · cases hNone
    · cases hHello

-- ---------------------------------------------------------------------------
-- Both sides over runs
-- ---------------------------------------------------------------------------

/-- The responder sends no REKEY, and reading what is in flight takes it to the
initiator's keys. -/
structure InSync (P : Pair C) (w : World) : Prop where
  bound : w.received P.initiator.other ≤ (w.node P.initiator).sealed.length
  quiet : ∀ f ∈ (w.node P.initiator.other).sealed, ∀ e rk salt, f.plain ≠ .rekey e rk salt
  follows : ∃ priv salt v v',
    (w.node P.initiator.other).dp.WellKeyed (P.cfg P.initiator.other) C priv salt ∧
      Sees (w.node P.initiator.other).dp.toKeyState v ∧
      Matches (w.node P.initiator).dp.toKeyState v' ∧
      StepPath (Absorbs (P.viewKey priv salt) (P.handshakeKey P.initiator.other)) v
        (inFlight w P.initiator) v'

theorem inSync_init {w : World} (h : P.Init w) : P.InSync w := by
  obtain ⟨_, rk, salt, hNode, -⟩ := h.node P.initiator
  obtain ⟨_, rk', salt', hNode', -⟩ := h.node P.initiator.other
  refine ⟨by rw [h.received]; exact Nat.zero_le _, fun f hf => ?_, ?_⟩
  · rw [hNode'] at hf
    cases hf
  · refine ⟨rk', salt', none, none, ?_, ?_, ?_, ?_⟩
    · rw [hNode']
      exact KeyState.wellKeyed_new
    · rw [hNode']
      rfl
    · rw [hNode]
      exact ⟨_, _, rfl, rfl, .inl rfl⟩
    · rw [inFlight, hNode, h.received]
      rfl

/-- The side that never rotates seals no REKEY, and keeps its routing key and
salt; what it knows of the other changes only by what it is told. -/
theorem responder_step {n : Node} {e : Event} {mine theirs : List RawKey} {priv : RawKey}
    {salt : Salt} (hNode : P.KeyedNode P.initiator.other mine theirs n)
    (hWell : n.dp.WellKeyed (P.cfg P.initiator.other) C priv salt) :
    (n.step (P.cfg P.initiator.other) C e).dp.WellKeyed (P.cfg P.initiator.other) C priv salt ∧
      (∀ f ∈ (n.dp.step (P.cfg P.initiator.other) C e).2.sealed,
        ∀ e rk salt, f.plain ≠ .rekey e rk salt) ∧
      (e.announced = none →
        (n.step (P.cfg P.initiator.other) C e).dp.toKeyState = n.dp.toKeyState) := by
  have hNever := hNode.maybeRekey_ne_some
  have hKeys := DataPlane.step_keyStep (P.cfg P.initiator.other) C n.dp e
  refine ⟨?_, ?_, ?_⟩
  · obtain ⟨-, -, hSame | ⟨d, f, -, hSome, -⟩⟩ := KeyState.wellKeyed_step hWell hKeys
    · exact hSame
    · exact absurd hSome (hNever _ _ _)
  · intro f hf e' rk salt' hPlain
    have hEmit := DataPlane.step_emits hf
    cases hEmit with
    | hello => cases hPlain
    | reply => cases hPlain
    | rekey _ hSome => exact absurd hSome (hNever _ _ _)
    | transfer _ _ _ hHand =>
      rw [hPlain] at hHand
      cases hHand
  · intro hNone
    rw [Node.step_dp]
    generalize (n.dp.step _ C e).1.toKeyState = s', DataPlane.handshakes _ = hs at hKeys ⊢
    cases hKeys with
    | idle => rfl
    | announce => rfl
    | rotate hSome => exact absurd hSome (hNever _ _ _)
    | rotateCount hSome => exact absurd hSome (hNever _ _ _)
    | accept => cases hNone
    | follow => cases hNone

/-- A section of the initiator. -/
theorem InSync.initiator (hC : C.Lawful) {w w' : World} {e : Event} (h : P.InSync w)
    (hKeyed : P.Keyed w) (hAnn : P.Announced w)
    (hI : w'.node P.initiator = (w.node P.initiator).step (P.cfg P.initiator) C e)
    (hR : w'.node P.initiator.other = w.node P.initiator.other)
    (hReceived : w'.received P.initiator.other = w.received P.initiator.other)
    (hEvent : e.announced = none ∨ ∃ now d rk salt, e = .handleHello now d rk salt ∧
      P.Announces P.initiator.other (w.node P.initiator.other) rk salt) : P.InSync w' := by
  obtain ⟨priv, salt, v, v', hWell, hSees, hMatch, hPath⟩ := h.follows
  have hNode := hKeyed.node P.initiator
  obtain ⟨privI, saltI, hWellI, -⟩ := hNode.keyed
  -- the responder has announced one routing key and one salt
  have hConst : ∀ rk salt', P.Announces P.initiator.other (w.node P.initiator.other) rk salt' →
      rk = C.publicKey priv ∧ salt' = salt := by
    intro rk salt' hAnnounces
    have hRk := hAnnounces.2 rfl
    exact ⟨Option.some.inj (hRk.symm.trans hWell.rkPub),
      Option.some.inj ((hAnnounces.1 hRk).symm.trans hWell.mySalt)⟩
  obtain ⟨v'', hMatch', hPath'⟩ := Matches.step hC (e := e) priv salt hWellI
    hNode.publicKey hNode.handshakeKey
    (by
      intro hEst
      obtain ⟨rk, peerSalt, hRk, hSalt, -⟩ := hWellI.of_established hEst
      obtain ⟨rfl, rfl⟩ := hConst rk peerSalt (hAnn.recorded P.initiator rk peerSalt hRk hSalt)
      exact ⟨hRk, hSalt⟩)
    (by
      refine hEvent.imp_right ?_
      rintro ⟨now, d, rk, salt', rfl, hAnnounces⟩
      obtain ⟨rfl, rfl⟩ := hConst rk salt' hAnnounces
      exact ⟨now, d, rfl⟩)
    hMatch hPath
  refine ⟨?_, by rw [hR]; exact h.quiet, priv, salt, v, v'', ?_, ?_, ?_, ?_⟩
  · rw [hI, hReceived, Node.step_sealed, List.length_append]
    exact h.bound.trans (Nat.le_add_right _ _)
  · rw [hR]
    exact hWell
  · rw [hR]
    exact hSees
  · rw [hI]
    exact hMatch'
  · rw [inFlight, hI, hReceived, Node.step_sealed, List.drop_append_of_le_length h.bound]
    exact hPath'

/-- A step that leaves the initiator alone. -/
theorem InSync.responder {w w' : World} {u v' : Option View} {priv : RawKey} {salt : Salt}
    (hI : w'.node P.initiator = w.node P.initiator)
    (hBound : w'.received P.initiator.other ≤ (w.node P.initiator).sealed.length)
    (hQuiet : ∀ f ∈ (w'.node P.initiator.other).sealed, ∀ e rk salt, f.plain ≠ .rekey e rk salt)
    (hWell : (w'.node P.initiator.other).dp.WellKeyed (P.cfg P.initiator.other) C priv salt)
    (hSees : Sees (w'.node P.initiator.other).dp.toKeyState u)
    (hMatch : Matches (w.node P.initiator).dp.toKeyState v')
    (hPath : StepPath (Absorbs (P.viewKey priv salt) (P.handshakeKey P.initiator.other)) u
      ((w.node P.initiator).sealed.drop (w'.received P.initiator.other)) v') : P.InSync w' where
  bound := by rw [hI]; exact hBound
  quiet := hQuiet
  follows := by
    refine ⟨priv, salt, u, v', hWell, hSees, by rw [hI]; exact hMatch, ?_⟩
    rw [inFlight, hI]
    exact hPath

theorem inSync_step (hC : C.Lawful) {w : World} {l : Label} (h : P.InSync w) (hKeyed : P.Keyed w)
    (hAnn : P.Announced w) (hEn : Enabled w l) (hOrder : InOrder w l) : P.InSync (P.next w l) := by
  have hNodeR := hKeyed.node P.initiator.other
  obtain ⟨priv, salt, v, v', hWell, hSees, hMatch, hPath⟩ := h.follows
  have hNext : (P.next w l).node l.side = P.nodeNext w l := next_node_side
  have hOther : (P.next w l).node l.side.other = w.node l.side.other := next_node_other
  have hMoves := moves_nodeNext (P := P) hC hEn
  cases l with
  | act x e =>
    change (P.next w (.act x e)).node x = (w.node x).step (P.cfg x) C e at hNext
    rcases Side.eq_or_eq_other P.initiator x with rfl | rfl
    · exact h.initiator hC hKeyed hAnn hNext hOther rfl (.inl (Event.announced_of_isLocal hEn))
    · change (P.next w _).node P.initiator.other.other = w.node P.initiator.other.other at hOther
      rw [Side.other_other] at hOther
      obtain ⟨hWell', hQuiet, hKeep⟩ := responder_step (e := e) hNodeR hWell
      refine InSync.responder hOther h.bound ?_ (hNext ▸ hWell') ?_ hMatch hPath
      · rw [hNext, Node.step_sealed]
        intro f hf
        exact (List.mem_append.mp hf).elim (h.quiet f) (hQuiet f)
      · rw [hNext, hKeep (Event.announced_of_isLocal hEn)]
        exact hSees
  | deliver x i now d =>
    rcases Side.eq_or_eq_other P.initiator x with rfl | rfl
    · -- the initiator receives: HELLO frames of the responder, DATA and ACK
      change (P.next w _).node P.initiator = P.nodeNext w _ at hNext
      have hReceived : (P.next w (.deliver P.initiator i now d)).received P.initiator.other =
          w.received P.initiator.other := Function.update_of_ne (Side.other_ne _) ..
      generalize hn : P.nodeNext w (.deliver P.initiator i now d) = n at hMoves hNext
      cases hMoves with
      | drop =>
        refine InSync.responder hNext (by rw [hReceived]; exact h.bound) ?_ ?_ ?_ hMatch
          (by rw [hReceived]; exact hPath)
        · rw [show (P.next w _).node P.initiator.other = _ from hOther]
          exact h.quiet
        · rw [show (P.next w _).node P.initiator.other = _ from hOther]
          exact hWell
        · rw [show (P.next w _).node P.initiator.other = _ from hOther]
          exact hSees
      | @handle _ _ _ _ f e hSome he =>
        have hf := List.mem_of_getElem? hSome
        refine h.initiator hC hKeyed hAnn hNext hOther hReceived ?_
        rcases Plain.event_cases he with ⟨e', rk, salt, ip, hPlain, rfl⟩ |
          ⟨e', rk, salt, hPlain, rfl⟩ | ⟨_, _, _, -, rfl⟩ | ⟨_, _, -, rfl⟩
        · exact .inr ⟨now, d, rk, salt, rfl,
            hAnn.frames P.initiator.other f hf rk salt (by rw [hPlain]; rfl)⟩
        · exact absurd hPlain (h.quiet f hf e' rk salt)
        · exact .inl rfl
        · exact .inl rfl
    · -- the responder receives the next frame in flight
      change i = w.received P.initiator.other at hOrder
      subst hOrder
      change (P.next w _).node P.initiator.other.other = w.node P.initiator.other.other at hOther
      change (P.next w _).node P.initiator.other = P.nodeNext w _ at hNext
      have hLt : w.received P.initiator.other < (w.node P.initiator.other.other).sealed.length :=
        hEn
      rw [Side.other_other] at hOther hLt
      have hReceived : (P.next w (.deliver P.initiator.other (w.received P.initiator.other) now
          d)).received P.initiator.other = w.received P.initiator.other + 1 :=
        Function.update_self ..
      -- the path through the frames in flight starts with this one
      rw [inFlight, List.drop_eq_getElem_cons hLt] at hPath
      obtain ⟨u, hAbs, hRest⟩ := hPath
      have hRecv : P.nodeNext w (.deliver P.initiator.other (w.received P.initiator.other) now d) =
          (w.node P.initiator.other).receive (P.cfg P.initiator.other) C now d
            (((w.node P.initiator).sealed[w.received P.initiator.other]).ct C) := by
        simp only [nodeNext, Side.other_other, List.getElem?_eq_getElem hLt]
      have hSees' := hSees.receive hC now d hWell hNodeR.publicKey
        hNodeR.handshakeKey hAbs
      rw [hRecv] at hNext
      have hAfter : ((P.next w (.deliver P.initiator.other (w.received P.initiator.other) now
          d)).node P.initiator.other).dp.WellKeyed (P.cfg P.initiator.other) C priv salt ∧
          ∀ f ∈ ((P.next w (.deliver P.initiator.other (w.received P.initiator.other) now
            d)).node P.initiator.other).sealed, ∀ e rk salt, f.plain ≠ .rekey e rk salt := by
        rw [hNext]
        rcases Node.receive_cases (P.cfg P.initiator.other) hC now d
          (w.node P.initiator).sealed[w.received P.initiator.other] (w.node P.initiator.other) with
          hSame | ⟨e, -, -, hStep⟩
        · rw [hSame]
          exact ⟨hWell, h.quiet⟩
        · rw [hStep]
          obtain ⟨hWell', hQuiet, -⟩ := responder_step (e := e) hNodeR hWell
          refine ⟨hWell', fun f hf => ?_⟩
          rw [Node.step_sealed] at hf
          exact (List.mem_append.mp hf).elim (h.quiet f) (hQuiet f)
      refine InSync.responder hOther (by rw [hReceived]; exact hLt) hAfter.2 hAfter.1 ?_ hMatch
        (by rw [hReceived]; exact hRest)
      rw [hNext]
      exact hSees'
  | restart => exact hOrder.elim

/--
**Agreement over an in-order channel.** In every state reached by any
interleaving of HELLO, REKEY, DATA and ACK from fresh sessions, each frame
delivered once and in order and nobody restarting: when both sessions are
established and no REKEY is in flight, they hold the same key and epoch.
-/
theorem fifo_rekey_agreement (hC : C.Lawful) {w : World} (h : P.machine.Reach InOrder w)
    (hEst : ∀ x, (w.node x).dp.established = true)
    (hNoRekey : ∀ x, ∀ f ∈ inFlight w x, ∀ e rk salt, f.plain ≠ .rekey e rk salt) :
    (w.node .left).dp.peerKey = (w.node .right).dp.peerKey ∧
      (w.node .left).dp.epoch = (w.node .right).dp.epoch := by
  have hNoRestart : ∀ (w : World) l, InOrder w l → l.isRestart = false := by
    intro w l hl
    cases l with
    | restart => exact hl.elim
    | _ => rfl
  obtain ⟨hKeyed, hAnn, hSync⟩ : P.Keyed w ∧ P.Announced w ∧ P.InSync w := by
    refine h.invariant (I := fun w => P.Keyed w ∧ P.Announced w ∧ P.InSync w)
      (fun w hw => ⟨keyed_init hw, announced_init hw, inSync_init hw⟩) ?_
    rintro w l ⟨hK, hA, hS⟩ ⟨hEn, hFresh⟩ hl
    exact ⟨keyed_step hC hK hEn hFresh, announced_step hC hA hK hEn hFresh (hNoRestart w l hl),
      inSync_step hC hS hK hA hEn hl⟩
  obtain ⟨priv, salt, v, v', hWell, hSees, hMatch, hPath⟩ := hSync.follows
  -- without a REKEY in flight the responder's view is already the final one
  cases v with
  | none => exact absurd (hEst P.initiator.other) (by rw [show _ = false from hSees]; decide)
  | some view =>
    have hFinal : v' = some view := by
      refine hPath.eq_of_stay fun f hf u hAbs => ?_
      cases hAbs with
      | greet hv =>
        rcases hv with hv | hv
        · cases hv
        · exact hv.symm
      | keepalive => rfl
      | rekey => exact absurd rfl (hNoRekey _ _ hf _ _ _)
      | transfer => rfl
    obtain ⟨rk, mySalt, hRk, -, hView⟩ := hMatch
    rw [if_pos (hEst _), hFinal] at hView
    cases hView
    obtain ⟨-, hPeerRk, -, hEpoch⟩ := hSees
    have hKey := currentKey_eq_of_recorded hC hKeyed hAnn hEst (hPeerRk.trans hRk.symm)
    have hAgree : (w.node P.initiator).dp.peerKey = (w.node P.initiator.other).dp.peerKey ∧
        (w.node P.initiator).dp.epoch = (w.node P.initiator.other).dp.epoch := by
      rw [KeyState.peerKey_of_established (hEst _), KeyState.peerKey_of_established (hEst _), hKey]
      exact ⟨rfl, hEpoch.symm⟩
    cases hx : P.initiator with
    | left =>
      rw [hx] at hAgree
      exact hAgree
    | right =>
      rw [hx] at hAgree
      exact ⟨hAgree.1.symm, hAgree.2.symm⟩

-- ---------------------------------------------------------------------------
-- A rotation that arrives
-- ---------------------------------------------------------------------------

/-- The handshake, a rotation by Alice, and Bob's receipt of it. -/
def rekeyRun : List Label :=
  handshakeRun ++ [.act .left (.maybeRekey 1 sampleDraw), .deliver .right 2 2 sampleDraw]

theorem fifo_rekey_agreement_sample :
    ((sample.machine.run sampleWorld rekeyRun).node .left).dp.peerKey =
        ((sample.machine.run sampleWorld rekeyRun).node .right).dp.peerKey ∧
      ((sample.machine.run sampleWorld rekeyRun).node .left).dp.epoch =
        ((sample.machine.run sampleWorld rekeyRun).node .right).dp.epoch := by
  have hReach : sample.machine.Reach InOrder (sample.machine.run sampleWorld rekeyRun) :=
    Machine.reach_run (.init sample_init) (by decide +kernel)
  refine fifo_rekey_agreement symbolic_lawful hReach (fun x => ?_) fun x f hf => ?_
  · cases x <;> decide +kernel
  · have hNone : inFlight (sample.machine.run sampleWorld rekeyRun) x = [] := by
      cases x <;> decide +kernel
    rw [hNone] at hf
    cases hf

end LinkMesh.Pair
