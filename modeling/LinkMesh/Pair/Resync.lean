import LinkMesh.Pair.World

/-!
# Re-synchronising after a loss

Without restarts, over a channel that loses, duplicates and reorders.

* `someHello_opens_iff` — one side's next HELLO opens on the other side exactly
  while the handshake is not complete, or the side that never rotates has the
  current routing key of the other one;
* `lost_rekey_strands_pair` — a lost REKEY leaves neither HELLO readable.
-/

namespace LinkMesh.Pair

variable {Ct : Type} {C : Crypto Ct} {P : Pair C}

-- ---------------------------------------------------------------------------
-- What a side has announced
-- ---------------------------------------------------------------------------

/-- `rk` and `salt` may have been announced by the node of side `x`: the salt
goes with the routing key, and a side that never rotates has one of each. -/
def Announces (P : Pair C) (x : Side) (n : Node) (rk : RawKey) (salt : Salt) : Prop :=
  (n.dp.rkPub = some rk → n.dp.mySalt = some salt) ∧
    (x = P.initiator.other → n.dp.rkPub = some rk)

/-- What the frames of a side carry, and what the other side has recorded, is
what it announced. -/
structure Announced (P : Pair C) (w : World) : Prop where
  frames : ∀ x, ∀ f ∈ (w.node x).sealed, ∀ rk salt, f.plain.announced = some (rk, salt) →
    P.Announces x (w.node x) rk salt
  recorded : ∀ x rk salt, (w.node x).dp.peerRkPub = some rk →
    (w.node x).dp.peerSalt = some salt → P.Announces x.other (w.node x.other) rk salt

/-- What was announced stays so, rotations drawing a new routing key. -/
theorem Announces.step {x : Side} {mine theirs : List RawKey} {n : Node} {e : Event} {rk : RawKey}
    {salt : Salt} (h : P.Announces x n rk salt) (hNode : P.KeyedNode x mine theirs n)
    (hMem : rk ∈ mine) (hFresh : ∀ rk', e.drawnRk = some rk' → C.publicKey rk' ∉ mine) :
    P.Announces x (n.step (P.cfg x) C e) rk salt := by
  obtain ⟨priv, mySalt, hWell, -⟩ := hNode.keyed
  have hKeys := DataPlane.step_keyStep (P.cfg x) C n.dp e
  obtain ⟨-, -, hSame | ⟨d, f, hd, hSome, hRot⟩⟩ := KeyState.wellKeyed_step hWell hKeys
  · have hPub := hSame.rkPub.trans hWell.rkPub.symm
    have hSalt := hSame.mySalt.trans hWell.mySalt.symm
    exact ⟨fun hRk => hSalt.trans (h.1 (hPub.symm.trans hRk)), fun hx => hPub.trans (h.2 hx)⟩
  · constructor
    · intro hRk
      cases hRot.rkPub.symm.trans hRk
      exact absurd hMem (hFresh d.rk hd)
    · rintro rfl
      exact absurd hSome (hNode.maybeRekey_ne_some d _ f)

theorem announced_step (hC : C.Lawful) {w : World} {l : Label} (h : P.Announced w)
    (hKeyed : P.Keyed w) (hEn : Enabled w l) (hFresh : Fresh (C := C) w l)
    (hNo : l.isRestart = false) : P.Announced (P.next w l) := by
  have hMoves := moves_nodeNext (P := P) hC hEn
  have hNode := hKeyed.node l.side
  -- the step is an event of one node, and what the event announces is in a frame
  obtain ⟨n', hn'⟩ : ∃ n', P.nodeNext w l = n' := ⟨_, rfl⟩
  have hEvent : n' = w.node l.side ∨ ∃ e, n' = (w.node l.side).step (P.cfg l.side) C e ∧
      (∀ rk, e.drawnRk = some rk → C.publicKey rk ∉ w.drawn l.side) ∧
      ∀ rk salt, e.announced = some (rk, salt) →
        P.Announces l.side.other (w.node l.side.other) rk salt := by
    rw [hn'] at hMoves
    cases hMoves with
    | @act x e hLocal =>
      refine .inr ⟨e, rfl, fun rk hRk => hFresh.notMem hRk x, fun rk salt hAnn => ?_⟩
      rw [Event.announced_of_isLocal hLocal] at hAnn
      cases hAnn
    | drop => exact .inl rfl
    | @handle x i now d f e hSome he =>
      refine .inr ⟨e, rfl, fun rk hRk => ?_, fun rk salt hAnn => ?_⟩
      · rw [Plain.drawnRk_event he] at hRk
        cases hRk
      · rw [Plain.announced_event he] at hAnn
        exact h.frames x.other f (List.mem_of_getElem? hSome) rk salt hAnn
    | restart => cases hNo
  rw [← hn'] at hEvent
  -- what was announced from this side before stays announced
  have hStays : ∀ rk salt, rk ∈ w.drawn l.side → P.Announces l.side (w.node l.side) rk salt →
      P.Announces l.side (P.nodeNext w l) rk salt := by
    intro rk salt hMem hAnn
    rcases hEvent with hSame | ⟨e, hSame, hDrawn, -⟩
    · rwa [hSame]
    · rw [hSame]
      exact hAnn.step hNode hMem hDrawn
  constructor
  · intro x f hf rk salt hAnn
    rcases Side.eq_or_eq_other l.side x with rfl | rfl
    · rw [next_node_side] at hf ⊢
      rcases hEvent with hSame | ⟨e, hSame, hDrawn, -⟩
      · rw [hSame] at hf ⊢
        exact h.frames _ f hf rk salt hAnn
      · by_cases hOld : f ∈ (w.node l.side).sealed
        · exact hStays rk salt (hNode.announced f hOld rk salt hAnn)
            (h.frames _ f hOld rk salt hAnn)
        -- a frame of this very event carries what the node holds after it
        · rw [hSame] at hf ⊢
          rw [Node.step_sealed, List.mem_append] at hf
          have hEmit := DataPlane.step_emits (hf.resolve_left hOld)
          generalize hs : ((w.node l.side).dp.step (P.cfg l.side) C e).1 = s' at hEmit
          have hCarries : s'.rkPub = some rk ∧ s'.mySalt = some salt := by
            cases hEmit with
            | hello hKeep hRk hSalt =>
              cases hAnn
              rw [hKeep]
              exact ⟨hRk, hSalt⟩
            | reply _ _ hRk hSalt =>
              cases hAnn
              exact ⟨hRk, hSalt⟩
            | rekey _ hSome =>
              obtain ⟨-, -, _, -, hKeys, rfl⟩ := KeyState.maybeRekey_eq_some.mp hSome
              cases hAnn
              rw [hKeys]
              exact ⟨rfl, rfl⟩
            | transfer _ _ _ hHand =>
              cases hPlain : f.plain <;> simp_all [Plain.announced, Plain.handshake]
          rw [← hs] at hCarries
          exact ⟨fun _ => hCarries.2, fun _ => hCarries.1⟩
    · rw [next_node_other] at hf ⊢
      exact h.frames _ f hf rk salt hAnn
  · intro x rk salt hRk hSalt
    rcases Side.eq_or_eq_other l.side x with rfl | rfl
    · rw [next_node_side] at hRk hSalt
      rw [next_node_other]
      rcases hEvent with hSame | ⟨e, hSame, -, hFrom⟩
      · rw [hSame] at hRk hSalt
        exact h.recorded _ rk salt hRk hSalt
      · rw [hSame] at hRk hSalt
        obtain ⟨priv, mySalt, hWell, -⟩ := hNode.keyed
        rcases KeyState.recorded_step hWell (DataPlane.step_keyStep (P.cfg l.side) C _ e) with
          ⟨hOldRk, hOldSalt⟩ | ⟨rk', salt', hAnn, hNewRk, hNewSalt⟩
        · exact h.recorded _ rk salt (hOldRk.symm.trans hRk) (hOldSalt.symm.trans hSalt)
        · cases hNewRk.symm.trans hRk
          cases hNewSalt.symm.trans hSalt
          exact hFrom rk salt hAnn
    · rw [next_node_other] at hRk hSalt
      rw [Side.other_other, next_node_side]
      have hHeard := (hKeyed.node l.side.other).heard rk hRk
      have hRec := h.recorded l.side.other rk salt hRk hSalt
      rw [Side.other_other] at hHeard hRec
      exact hStays rk salt hHeard hRec

theorem announced_init {w : World} (h : P.Init w) : P.Announced w where
  frames x f hf := by
    obtain ⟨_, _, _, hNode, -⟩ := h.node x
    rw [hNode] at hf
    cases hf
  recorded x rk salt hRk := by
    obtain ⟨_, _, _, hNode, -⟩ := h.node x
    rw [hNode] at hRk
    cases hRk

theorem reach_announced (hC : C.Lawful) {w : World}
    (h : P.machine.Reach (fun _ l => l.isRestart = false) w) : P.Announced w := by
  have hBoth : P.Keyed w ∧ P.Announced w := by
    refine h.invariant (I := fun w => P.Keyed w ∧ P.Announced w)
      (fun w hw => ⟨keyed_init hw, announced_init hw⟩) ?_
    intro w l hw hEn hNo
    exact ⟨keyed_step hC hw.1 hEn.1 hEn.2, announced_step hC hw.2 hw.1 hEn.1 hEn.2 hNo⟩
  exact hBoth.2

-- ---------------------------------------------------------------------------
-- Which HELLO opens
-- ---------------------------------------------------------------------------

/-- The next HELLO of side `x` opens on the other side. -/
def helloOpens (P : Pair C) (w : World) (d : Draw) (x : Side) : Bool :=
  match (w.node x).dp.buildHelloCt (P.cfg x) d with
  | none => false
  | some f => (w.node x.other).dp.openPeerData C (f.ct C) == some f.plain

/-- A HELLO opens when its sender has no session key yet, or has the key of the
receiver. -/
theorem helloOpens_iff (hC : C.Lawful) (hF : C.CollisionFree) {w : World} (hKeyed : P.Keyed w)
    {d : Draw} {x : Side} : P.helloOpens w d x = true ↔
      (w.node x).dp.established = false ∨
        (w.node x).dp.currentKey = (w.node x.other).dp.currentKey := by
  have hNode := hKeyed.node x
  obtain ⟨priv, salt, hWell, -⟩ := hNode.keyed
  have hHello : (w.node x).dp.buildHelloCt (P.cfg x) d = some ⟨(w.node x).dp.currentKey, d.nonce,
      .hello (w.node x).dp.epoch (C.publicKey priv) salt (P.cfg x).localIp⟩ :=
    KeyState.buildHelloCt_eq_some.mpr ⟨_, _, hWell.rkPub, hWell.mySalt, rfl⟩
  have hHk : (w.node x.other).dp.handshakeKey = P.handshakeKey x :=
    (hKeyed.node x.other).handshakeKey.trans (handshakeKey_comm hC x)
  simp only [helloOpens, hHello, beq_iff_eq]
  change Node.Opens C _ _ ↔ _
  rw [Node.opens_iff hC, hHk]
  cases hEst : (w.node x).dp.established with
  | false =>
    rw [KeyState.currentKey_of_none (KeyState.not_established_iff.mp hEst), hNode.handshakeKey]
    simp
  | true =>
    obtain ⟨own, rk, -, -, -, -, hKey⟩ := hNode.sessionKey hEst
    simp [sessionKey_ne_handshakeKey hF hKey]

/-- Two established sessions have one key when the side that never rotates has
recorded the current routing key of the other one. -/
theorem currentKey_eq_of_recorded (hC : C.Lawful) {w : World} (hKeyed : P.Keyed w)
    (hAnn : P.Announced w) (hEst : ∀ x, (w.node x).dp.established = true)
    (hRk : (w.node P.initiator.other).dp.peerRkPub = (w.node P.initiator).dp.rkPub) :
    (w.node P.initiator).dp.currentKey = (w.node P.initiator.other).dp.currentKey := by
  generalize hx : P.initiator = x at hRk ⊢
  obtain ⟨priv, salt, hWell, -⟩ := (hKeyed.node x).keyed
  obtain ⟨priv', salt', hWell', -⟩ := (hKeyed.node x.other).keyed
  obtain ⟨rk, peerSalt, hPeerRk, hPeerSalt, hKey⟩ := hWell.of_established (hEst x)
  obtain ⟨rk', peerSalt', hPeerRk', hPeerSalt', hKey'⟩ := hWell'.of_established (hEst x.other)
  -- the initiator has what the other side announced, which never changes
  have hOther := hAnn.recorded x rk peerSalt hPeerRk hPeerSalt
  cases (hOther.2 (by rw [hx])).symm.trans hWell'.rkPub
  cases (hOther.1 hWell'.rkPub).symm.trans hWell'.mySalt
  -- and the other side has the initiator's current routing key, hence its salt
  cases hPeerRk'.symm.trans (hRk.trans hWell.rkPub)
  have hMine := hAnn.recorded x.other _ peerSalt' hPeerRk' hPeerSalt'
  rw [Side.other_other] at hMine
  cases (hMine.1 hWell.rkPub).symm.trans hWell.mySalt
  rw [hKey, hKey', (hKeyed.node x).publicKey, (hKeyed.node x.other).publicKey]
  exact derivePeerKey_comm hC x priv priv' salt salt'

theorem recorded_of_currentKey_eq (hF : C.CollisionFree) {w : World} (hKeyed : P.Keyed w)
    {x : Side} (hEst : ∀ x, (w.node x).dp.established = true)
    (hEq : (w.node x).dp.currentKey = (w.node x.other).dp.currentKey) :
    (w.node x.other).dp.peerRkPub = (w.node x).dp.rkPub := by
  obtain ⟨own, rk, hOwn, -, hMem, -, hKey⟩ := (hKeyed.node x).sessionKey (hEst x)
  obtain ⟨own', rk', -, hRk', hMem', -, hKey'⟩ := (hKeyed.node x.other).sessionKey (hEst x.other)
  rw [hEq] at hKey
  rcases sessionKey_inj hF hKey hKey' with ⟨rfl, -⟩ | ⟨rfl, -⟩
  · exact absurd hMem' (hKeyed.distinct x own hMem)
  · rw [hOwn, hRk']

/--
**When the pair can re-synchronise.** In every state reached without restarts,
under any loss, duplication and reordering, the next HELLO of one of the sides
opens on the other if and only if the handshake is not complete on both sides,
or the side that never rotates has recorded the routing key the other one uses.
-/
theorem someHello_opens_iff (hC : C.Lawful) (hF : C.CollisionFree) {w : World}
    (h : P.machine.Reach (fun _ l => l.isRestart = false) w) (d : Draw) :
    (∃ x, P.helloOpens w d x = true) ↔ (∃ x, (w.node x).dp.established = false) ∨
      (w.node P.initiator.other).dp.peerRkPub = (w.node P.initiator).dp.rkPub := by
  have hKeyed := reach_keyed hC h
  have hAnn := reach_announced hC h
  simp only [helloOpens_iff hC hF hKeyed]
  by_cases hAll : ∃ x, (w.node x).dp.established = false
  · obtain ⟨x, hx⟩ := hAll
    exact ⟨fun _ => .inl ⟨x, hx⟩, fun _ => ⟨x, .inl hx⟩⟩
  · simp only [hAll, false_or]
    push Not at hAll
    simp only [ne_eq, Bool.not_eq_false] at hAll
    constructor
    · rintro ⟨x, hx | hx⟩
      · rw [hAll x] at hx
        cases hx
      · refine recorded_of_currentKey_eq hF hKeyed hAll ?_
        rcases Side.eq_or_eq_other P.initiator x with rfl | rfl
        · exact hx
        · rw [Side.other_other] at hx
          exact hx.symm
    · exact fun hRk => ⟨P.initiator, .inr (currentKey_eq_of_recorded hC hKeyed hAnn hAll hRk)⟩

-- ---------------------------------------------------------------------------
-- A REKEY that is lost
-- ---------------------------------------------------------------------------

/-- The handshake, and a rotation whose REKEY is lost. -/
def lostRekeyRun : List Label := handshakeRun ++ [.act .left (.maybeRekey 1 sampleDraw)]

theorem sample_reach (es : List Label)
    (h : sample.machine.Admissible (fun _ l => l.isRestart = false) sampleWorld es) :
    sample.machine.Reach (fun _ l => l.isRestart = false) (sample.machine.run sampleWorld es) :=
  Machine.reach_run (.init sample_init) h

theorem someHello_opens_iff_sample :
    (∃ x, sample.helloOpens (sample.machine.run sampleWorld handshakeRun) sampleDraw x = true) :=
  (someHello_opens_iff symbolic_lawful symbolic_collisionFree
    (sample_reach handshakeRun (by decide +kernel)) sampleDraw).mpr (.inr (by decide +kernel))

theorem lost_rekey_strands_pair :
    ¬ ∀ w, sample.machine.Reach (fun _ l => l.isRestart = false) w →
      ∀ d, ∃ x, sample.helloOpens w d x = true := by
  intro hAll
  obtain ⟨x, hx⟩ := hAll _ (sample_reach lostRekeyRun (by decide +kernel)) sampleDraw
  revert hx
  cases x <;> decide +kernel

end LinkMesh.Pair
