import LinkMesh.Client.Run

/-!
# The session key over runs

* `WellKeyed`           — the session key is the one derived from the current
  routing keys and salts of both sides; every event keeps this
  (`wellKeyed_step`), so a keepalive re-derives the key in use;
* `Emits`, `step_emits` — the frames an event seals, and under which key;
* `keepalive_idempotent` — a HELLO that repeats what is recorded of the peer
  changes nothing and is not answered.
-/

namespace LinkMesh

variable {Ct : Type} {cfg : Config} {C : Crypto Ct}

-- ---------------------------------------------------------------------------
-- The key a session holds
-- ---------------------------------------------------------------------------

namespace KeyState

/-- The session has its own routing key and salt, and is either fresh or holds
the key derived from them and what the peer announced. -/
structure WellKeyed (cfg : Config) (C : Crypto Ct) (s : KeyState) (priv : RawKey) (salt : Salt) :
    Prop where
  rkPriv : s.rkPriv = some priv
  rkPub : s.rkPub = some (C.publicKey priv)
  mySalt : s.mySalt = some salt
  key : (s.peerKey = none ∧ s.peerRkPub = none ∧ s.peerSalt = none ∧ s.epoch = 0) ∨
    ∃ rk peerSalt, s.peerRkPub = some rk ∧ s.peerSalt = some peerSalt ∧
      s.peerKey = some (C.derivePeerKey cfg.localPriv s.publicKey priv rk (xorSalt salt peerSalt))

variable {s s' : KeyState} {priv : RawKey} {salt : Salt}

/-- What an established session holds. -/
theorem WellKeyed.of_established (h : s.WellKeyed cfg C priv salt) (hEst : s.established = true) :
    ∃ rk peerSalt, s.peerRkPub = some rk ∧ s.peerSalt = some peerSalt ∧
      s.currentKey =
        C.derivePeerKey cfg.localPriv s.publicKey priv rk (xorSalt salt peerSalt) := by
  rcases h.key with ⟨hNone, -⟩ | ⟨rk, peerSalt, hRk, hSalt, hKey⟩
  · rw [not_established_iff.mpr hNone] at hEst
    cases hEst
  · exact ⟨rk, peerSalt, hRk, hSalt, currentKey_of_some hKey⟩

theorem WellKeyed.of_not_established (h : s.WellKeyed cfg C priv salt)
    (hEst : s.established = false) : s.peerKey = none ∧ s.peerRkPub = none ∧ s.epoch = 0 := by
  rcases h.key with ⟨hNone, hRk, -, hEpoch⟩ | ⟨_, _, -, -, hKey⟩
  · exact ⟨hNone, hRk, hEpoch⟩
  · rw [established_iff.mpr ⟨_, hKey⟩] at hEst
    cases hEst

theorem wellKeyed_new {pk hk rk : RawKey} {now : Instant} :
    (DataPlane.new pk hk rk (C.publicKey rk) salt now).toKeyState.WellKeyed cfg C rk salt :=
  ⟨rfl, rfl, rfl, .inl ⟨rfl, rfl, rfl, rfl⟩⟩

/-- `handle_hello` keeps the epoch: a fresh session is at epoch 0 already. -/
theorem WellKeyed.acceptHello_eq (d : Draw) (rk : RawKey) (peerSalt : Salt)
    (h : s.WellKeyed cfg C priv salt) : s.acceptHello cfg C d rk peerSalt =
      { s with
        peerKey := some
          (C.derivePeerKey cfg.localPriv s.publicKey priv rk (xorSalt salt peerSalt))
        peerRkPub := some rk
        peerSalt := some peerSalt } := by
  have hEpoch : (if s.peerKey.isNone then 0 else s.epoch) = s.epoch := by
    rcases h.key with ⟨-, -, -, hZero⟩ | ⟨_, _, -, -, hKey⟩
    · rw [hZero, ite_self]
    · rw [hKey]
      rfl
  simp only [KeyState.acceptHello_eq h.rkPriv h.rkPub, h.mySalt, Option.getD_some, hEpoch]

theorem WellKeyed.handleRekey_eq {rk : RawKey} {peerSalt : Salt}
    (h : s.WellKeyed cfg C priv salt) (hEst : s.established = true) :
    s.handleRekey cfg C s.epoch rk peerSalt =
      { s with
        peerKey := some
          (C.derivePeerKey cfg.localPriv s.publicKey priv rk (xorSalt salt peerSalt))
        peerRkPub := some rk
        peerSalt := some peerSalt
        epoch := s.epoch + 1 } := by
  simp only [KeyState.handleRekey_eq hEst rfl h.rkPriv, h.mySalt, Option.getD_some]

-- ---------------------------------------------------------------------------
-- Steps
-- ---------------------------------------------------------------------------

/-- The keys after an event: the same own routing key and salt, or those of a
rotation. -/
theorem wellKeyed_step {e : Event} {hs : List Sealing} (h : s.WellKeyed cfg C priv salt)
    (hStep : s.KeyStep cfg C e s' hs) :
    s'.publicKey = s.publicKey ∧ s'.handshakeKey = s.handshakeKey ∧
      (s'.WellKeyed cfg C priv salt ∨
        ∃ d f, e.drawnRk = some d.rk ∧ s.maybeRekey cfg C d = some (s', f) ∧
          s'.WellKeyed cfg C d.rk d.salt) := by
  -- a rotation, on its own or inside `count_pkt`
  have hRotate : ∀ {d : Draw} {s' : KeyState} {f : Sealing},
      s.maybeRekey cfg C d = some (s', f) →
      s'.publicKey = s.publicKey ∧ s'.handshakeKey = s.handshakeKey ∧
        s'.WellKeyed cfg C d.rk d.salt := by
    intro d s' f hSome
    obtain ⟨hEst, -, rk, hRk, rfl, -⟩ := maybeRekey_eq_some.mp hSome
    obtain ⟨rk', peerSalt, hRk', hSalt, -⟩ := h.of_established hEst
    exact ⟨rfl, rfl, rfl, rfl, rfl, .inr ⟨rk, peerSalt, hRk, hSalt, by simp [hSalt]⟩⟩
  cases hStep with
  | idle => exact ⟨rfl, rfl, .inl h⟩
  | announce => exact ⟨rfl, rfl, .inl h⟩
  | rotate hSome =>
    obtain ⟨hPk, hHk, hWell⟩ := hRotate hSome
    exact ⟨hPk, hHk, .inr ⟨_, _, rfl, hSome, hWell⟩⟩
  | rotateCount hSome =>
    obtain ⟨hPk, hHk, hWell⟩ := hRotate hSome
    exact ⟨hPk, hHk, .inr ⟨_, _, rfl, hSome, hWell⟩⟩
  | @accept now d rk peerSalt =>
    rw [h.acceptHello_eq]
    exact ⟨rfl, rfl, .inl ⟨h.rkPriv, h.rkPub, h.mySalt, .inr ⟨rk, peerSalt, rfl, rfl, rfl⟩⟩⟩
  | @follow now epoch rk peerSalt =>
    -- a REKEY that arrives without a session key or for another epoch is dropped
    by_cases hDrop : s.established = false ∨ epoch ≠ s.epoch
    · rw [handleRekey_drop hDrop]
      exact ⟨rfl, rfl, .inl h⟩
    · push Not at hDrop
      obtain ⟨hEst, rfl⟩ := hDrop
      rw [h.handleRekey_eq (by simpa using hEst)]
      exact ⟨rfl, rfl, .inl ⟨h.rkPriv, h.rkPub, h.mySalt, .inr ⟨rk, peerSalt, rfl, rfl, rfl⟩⟩⟩

/-- What is recorded of the peer after an event: the same, or what the event
announces. -/
theorem recorded_step {e : Event} {hs : List Sealing} (h : s.WellKeyed cfg C priv salt)
    (hStep : s.KeyStep cfg C e s' hs) :
    (s'.peerRkPub = s.peerRkPub ∧ s'.peerSalt = s.peerSalt) ∨
      ∃ rk peerSalt, e.announced = some (rk, peerSalt) ∧ s'.peerRkPub = some rk ∧
        s'.peerSalt = some peerSalt := by
  cases hStep with
  | idle => exact .inl ⟨rfl, rfl⟩
  | announce => exact .inl ⟨rfl, rfl⟩
  | rotate hSome =>
    obtain ⟨-, -, rk, -, rfl, -⟩ := maybeRekey_eq_some.mp hSome
    exact .inl ⟨rfl, rfl⟩
  | rotateCount hSome =>
    obtain ⟨-, -, rk, -, rfl, -⟩ := maybeRekey_eq_some.mp hSome
    exact .inl ⟨rfl, rfl⟩
  | @accept now d rk peerSalt =>
    rw [h.acceptHello_eq]
    exact .inr ⟨rk, peerSalt, rfl, rfl, rfl⟩
  | @follow now epoch rk peerSalt =>
    by_cases hDrop : s.established = false ∨ epoch ≠ s.epoch
    · rw [handleRekey_drop hDrop]
      exact .inl ⟨rfl, rfl⟩
    · push Not at hDrop
      obtain ⟨hEst, rfl⟩ := hDrop
      rw [h.handleRekey_eq (by simpa using hEst)]
      exact .inr ⟨rk, peerSalt, rfl, rfl, rfl⟩

/-- No event takes the session key away. -/
theorem KeyStep.established {e : Event} {hs : List Sealing} (hStep : s.KeyStep cfg C e s' hs)
    (hEst : s.established = true) : s'.established = true := by
  cases hStep with
  | idle => exact hEst
  | announce => exact hEst
  | rotate hSome =>
    obtain ⟨-, -, _, -, rfl, -⟩ := maybeRekey_eq_some.mp hSome
    rfl
  | rotateCount hSome =>
    obtain ⟨-, -, _, -, rfl, -⟩ := maybeRekey_eq_some.mp hSome
    rfl
  | accept => rfl
  | follow =>
    unfold handleRekey
    split
    · exact hEst
    · split
      · exact hEst
      · rfl

-- ---------------------------------------------------------------------------
-- Frames
-- ---------------------------------------------------------------------------

/-- The frames an event can seal. A HELLO announces the own routing key and
salt, under the key in use or, as a reply, under the handshake key; a REKEY is
the rotation's; DATA and ACK are under the session key. -/
inductive Emits (cfg : Config) (C : Crypto Ct) (s s' : KeyState) : Event → Sealing → Prop where
  | hello {d : Draw} {nonce : Nonce} {rk : RawKey} {salt : Salt} : s' = s →
      s.rkPub = some rk → s.mySalt = some salt →
      Emits cfg C s s' (.buildHello d) ⟨s.currentKey, nonce, .hello s.epoch rk salt cfg.localIp⟩
  | reply {now : Instant} {d : Draw} {nonce : Nonce} {rk rk' : RawKey} {salt salt' : Salt} :
      s' = s.acceptHello cfg C d rk' salt' → s.peerKey = none ∨ s.peerRkPub ≠ some rk' →
      s'.rkPub = some rk → s'.mySalt = some salt →
      Emits cfg C s s' (.handleHello now d rk' salt')
        ⟨s'.handshakeKey, nonce, .hello s'.epoch rk salt cfg.localIp⟩
  | rekey {e : Event} {d : Draw} {f : Sealing} : e.drawnRk = some d.rk →
      s.maybeRekey cfg C d = some (s', f) → Emits cfg C s s' e f
  | transfer {e : Event} {f : Sealing} : s' = s → s.established = true → f.key = s.currentKey →
      f.plain.handshake = false → Emits cfg C s s' e f

end KeyState

open KeyState (KeyStep Emits)

theorem DataPlane.step_emits {s : DataPlane} {e : Event} {f : Sealing}
    (hf : f ∈ (s.step cfg C e).2.sealed) :
    Emits cfg C s.toKeyState (s.step cfg C e).1.toKeyState e f := by
  have hKeys := step_keyStep cfg C s e
  -- HELLO and REKEY frames come from the step of the keys, DATA and ACK frames
  -- from the step of the send window
  cases hHand : f.plain.handshake with
  | true =>
    have hf : f ∈ handshakes (s.step cfg C e).2.sealed := List.mem_filter.mpr ⟨hf, hHand⟩
    generalize (s.step cfg C e).1.toKeyState = s', handshakes _ = hs at hKeys hf ⊢
    cases hKeys with
    | idle => cases hf
    | announce hSome =>
      obtain ⟨rk, salt, hRk, hSalt, rfl⟩ := KeyState.buildHelloCt_eq_some.mp hSome
      rw [List.mem_singleton] at hf
      subst hf
      exact .hello rfl hRk hSalt
    | rotate hSome =>
      rw [List.mem_singleton] at hf
      subst hf
      exact .rekey rfl hSome
    | rotateCount hSome =>
      rw [List.mem_singleton] at hf
      subst hf
      exact .rekey rfl hSome
    | accept hReply =>
      subst hReply
      -- only the first HELLO and one with a changed routing key get a reply
      split at hf
      · rename_i hNew
        rw [Option.mem_toList] at hf
        obtain ⟨rk, salt, hRk, hSalt, rfl⟩ := KeyState.replyHello_eq_some.mp hf
        exact .reply rfl (by simpa using hNew) hRk hSalt
      · cases hf
    | follow => cases hf
  | false =>
    have hWin := step_windowStep cfg C s e
    have hf : f ∈ (s.step cfg C e).2.transfers.sealed :=
      List.mem_filter.mpr ⟨hf, by rw [hHand]; rfl⟩
    generalize (s.step cfg C e).1.toKeyState = s', handshakes _ = hs at hKeys ⊢
    generalize (s.step cfg C e).1.toWindow = w', (s.step cfg C e).2.transfers = out at hWin hf
    cases hWin with
    | idle => cases hf
    | hold => cases hf
    | burn => cases hf
    | store hEst =>
      cases hKeys
      rw [List.mem_singleton] at hf
      subst hf
      exact .transfer rfl hEst rfl rfl
    | ack => cases hf
    | resend hEst =>
      cases hKeys
      rw [List.mem_singleton] at hf
      subst hf
      exact .transfer rfl hEst rfl rfl
    | hello => cases hf
    | take => cases hf
    | recv hEst =>
      cases hKeys
      rw [List.mem_singleton] at hf
      subst hf
      exact .transfer rfl hEst rfl rfl

-- ---------------------------------------------------------------------------
-- Keepalives
-- ---------------------------------------------------------------------------

namespace KeyState

/-- The key that the routing keys and salts of both sides give, once the peer has
announced its own. -/
def derivedKey (cfg : Config) (C : Crypto Ct) (s : KeyState) : Option RawKey := do
  let rkPriv ← s.rkPriv
  let peerRk ← s.peerRkPub
  let mySalt ← s.mySalt
  let peerSalt ← s.peerSalt
  return C.derivePeerKey cfg.localPriv s.publicKey rkPriv peerRk (xorSalt mySalt peerSalt)

variable {s : KeyState} {priv rk : RawKey} {salt peerSalt : Salt}

theorem WellKeyed.peerKey_eq (h : s.WellKeyed cfg C priv salt) : s.peerKey = s.derivedKey cfg C := by
  unfold derivedKey
  rw [h.rkPriv, h.mySalt]
  rcases h.key with ⟨hNone, hRk, -, -⟩ | ⟨rk, peerSalt, hRk, hSalt, hKey⟩
  · rw [hNone, hRk]
    rfl
  · rw [hKey, hRk, hSalt]
    rfl

/-- Deriving the key again from what is recorded of the peer gives the key in use. -/
theorem WellKeyed.acceptHello_recorded (d : Draw) (h : s.WellKeyed cfg C priv salt)
    (hRk : s.peerRkPub = some rk) (hSalt : s.peerSalt = some peerSalt) :
    s.acceptHello cfg C d rk peerSalt = s := by
  have hKey : s.peerKey =
      some (C.derivePeerKey cfg.localPriv s.publicKey priv rk (xorSalt salt peerSalt)) := by
    rw [h.peerKey_eq]
    unfold derivedKey
    rw [h.rkPriv, hRk, h.mySalt, hSalt]
    rfl
  rw [h.acceptHello_eq, ← hKey, ← hRk, ← hSalt]

theorem WellKeyed.established_of_recorded (h : s.WellKeyed cfg C priv salt)
    (hRk : s.peerRkPub = some rk) : s.peerKey.isNone = false := by
  rcases h.key with ⟨-, hNone, -⟩ | ⟨_, _, -, -, hKey⟩
  · rw [hNone] at hRk
    cases hRk
  · rw [hKey]
    rfl

end KeyState

/-- Every session that was made by `PeerSession::new` stays well keyed. -/
theorem Node.wellKeyed_reach {pk hk rk : RawKey} {salt : Salt} {now : Instant} {n : Node}
    (h : (machine cfg C (.new pk hk rk (C.publicKey rk) salt now)).Reach (fun _ _ => True) n) :
    ∃ priv salt, n.dp.toKeyState.WellKeyed cfg C priv salt := by
  refine h.invariant (I := fun n => ∃ priv salt, n.dp.toKeyState.WellKeyed cfg C priv salt) ?_ ?_
  · rintro _ rfl
    exact ⟨rk, salt, KeyState.wellKeyed_new⟩
  · rintro n e ⟨priv, salt, hWell⟩ _ _
    obtain ⟨-, -, hSame | ⟨d, _, -, -, hRotated⟩⟩ :=
      KeyState.wellKeyed_step hWell (DataPlane.step_keyStep cfg C n.dp e)
    · exact ⟨priv, salt, hSame⟩
    · exact ⟨d.rk, d.salt, hRotated⟩

/-- **A keepalive HELLO is idempotent.** In every state that a session reaches, by
any HELLOs and rotations of either side, its key is the one derived from the current
routing keys and salts, and a HELLO that repeats those of the peer leaves the data
plane as it is and is not answered. -/
theorem keepalive_idempotent {pk hk rk : RawKey} {salt : Salt} {start : Instant} {n : Node}
    (h : (Node.machine cfg C (.new pk hk rk (C.publicKey rk) salt start)).Reach (fun _ _ => True) n) :
    n.dp.peerKey = n.dp.toKeyState.derivedKey cfg C ∧
      ∀ now d ds peerRk peerSalt, n.dp.peerRkPub = some peerRk → n.dp.peerSalt = some peerSalt →
        n.dp.helloCall cfg C now d ds peerRk peerSalt = (n.dp, []) := by
  obtain ⟨priv, salt, hWell⟩ := Node.wellKeyed_reach h
  refine ⟨hWell.peerKey_eq, fun now d ds peerRk peerSalt hRk hSalt => ?_⟩
  have hFirst : n.dp.peerKey.isNone = false := hWell.established_of_recorded hRk
  have hChanged : (n.dp.peerRkPub != some peerRk) = false := by rw [hRk]; exact bne_self_eq_false _
  have hSection : n.dp.handleHello cfg C now d peerRk peerSalt = (n.dp, false, none) := by
    unfold DataPlane.handleHello
    dsimp only
    rw [hFirst, hChanged, hWell.acceptHello_recorded d hRk hSalt]
    rfl
  unfold DataPlane.helloCall
  rw [hSection]
  rfl

/-- A session that has completed the handshake, rotated its key and followed a
rotation of the peer. -/
def exampleRotated : Node :=
  (Node.machine aliceCfg symbolic (.new 1 90 20 (symbolic.publicKey 20) 4 0)).run
    (.start (.new 1 90 20 (symbolic.publicKey 20) 4 0))
    [.handleHello 0 ⟨21, 5, (0, 1)⟩ 30 6, .maybeRekey 1 ⟨22, 7, (0, 2)⟩, .handleRekey 2 1 31 8]

theorem keepalive_after_rotations :
    exampleRotated.dp.established = true ∧
      exampleRotated.dp.helloCall aliceCfg symbolic 3 ⟨23, 9, (0, 3)⟩ (fun _ => ⟨24, 9, (0, 4)⟩) 31 8 =
        (exampleRotated.dp, []) := by
  refine ⟨rfl, (keepalive_idempotent (Node.reach_run (.init rfl) _)).2 _ _ _ _ _ ?_ ?_⟩
  · rfl
  · rfl

end LinkMesh
