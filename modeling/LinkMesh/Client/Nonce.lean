import LinkMesh.Client.SendWindow

/-!
# Nonces of the data plane

DATA frames are sealed under the deterministic nonce `data_nonce(epoch, seq)`.
A HELLO with a changed routing key restarts `seq` and leaves the epoch, so the
nonce is fresh only as long as the key is.

* `data_nonce_unique` — in every run in which each HELLO that changes the
  recorded routing key announces one the session has not used in its epoch, no
  two DATA frames of different content share key and nonce;
* `replayed_hello_reuses_nonce` — replaying the HELLO of an earlier incarnation
  of the peer brings its key back with `seq` restarted.
-/

namespace LinkMesh

variable {Ct : Type} {cfg : Config} {C : Crypto Ct}

-- ---------------------------------------------------------------------------
-- The invariant
-- ---------------------------------------------------------------------------

/-- `k` is a session key with the peer routing key `rk`, under the own current
routing key and any salt. -/
def KeyState.KeyWith (cfg : Config) (C : Crypto Ct) (s : KeyState) (rk k : RawKey) : Prop :=
  ∃ priv salt, s.rkPriv = some priv ∧ k = C.derivePeerKey cfg.localPriv s.publicKey priv rk salt

/-- A key belongs to one peer routing key. -/
theorem KeyState.KeyWith.inj (hF : C.CollisionFree) {s : KeyState} {rk rk' k : RawKey}
    (h : s.KeyWith cfg C rk k) (h' : s.KeyWith cfg C rk' k) : rk = rk' := by
  obtain ⟨priv, salt, hPriv, hk⟩ := h
  obtain ⟨priv', salt', hPriv', hk'⟩ := h'
  rw [hPriv] at hPriv'
  cases hPriv'
  rcases hF.derivePeerKey_inj (hk.symm.trans hk') with ⟨-, h⟩ | ⟨h₁, h₂⟩
  · exact h
  · exact h₂.trans h₁

/-- What a run maintains about the frames sealed so far. Only frames of the
current epoch can share a nonce with a frame to come; among these, only the
ones under the current peer routing key can share its key, and they agree with
the send window. -/
structure NonceInv (cfg : Config) (C : Crypto Ct) (s : KeyState) (w : Window)
    (held : List RawKey) (sealed : List Sealing) : Prop where
  ownRk : ∃ priv pub, s.rkPriv = some priv ∧ s.rkPub = some pub
  keyed : ∀ k, s.peerKey = some k →
    ∃ rk, s.peerRkPub = some rk ∧ rk ∈ held ∧ s.KeyWith cfg C rk k
  unkeyed : s.peerKey = none → ∀ k nonce e q p, ⟨k, nonce, .data e q p⟩ ∉ sealed
  stored : ∀ (q : Nat) (u : Unacked), w.sendUnacked[q]? = some u → q ≤ w.sendSeq
  framed : ∀ k nonce e q p, ⟨k, nonce, .data e q p⟩ ∈ sealed →
    nonce = dataNonce e q ∧ e ≤ s.epoch
  underHeld : ∀ k nonce q p, ⟨k, nonce, .data s.epoch q p⟩ ∈ sealed →
    ∃ rk ∈ held, s.KeyWith cfg C rk k
  numbered : ∀ rk, s.peerRkPub = some rk → ∀ k nonce q p, s.KeyWith cfg C rk k →
    ⟨k, nonce, .data s.epoch q p⟩ ∈ sealed →
    q ≤ w.sendSeq ∧ ∀ u, w.sendUnacked[q]? = some u → u.payload = p
  unique : ∀ k nonce e q p e' q' p', ⟨k, nonce, .data e q p⟩ ∈ sealed →
    ⟨k, nonce, .data e' q' p'⟩ ∈ sealed → Plain.data e q p = Plain.data e' q' p'

-- ---------------------------------------------------------------------------
-- What the operations do to the invariant
-- ---------------------------------------------------------------------------

namespace NonceInv

variable {s : KeyState} {w : Window} {held : List RawKey} {sealed : List Sealing}

theorem fresh {pk hk rkPriv rkPub : RawKey} {salt : Salt} {now : Instant} {held : List RawKey} :
    NonceInv cfg C (DataPlane.new pk hk rkPriv rkPub salt now).toKeyState
      (DataPlane.new pk hk rkPriv rkPub salt now).toWindow held [] where
  ownRk := ⟨rkPriv, rkPub, rfl, rfl⟩
  keyed := nofun
  unkeyed _ _ _ _ _ _ := List.not_mem_nil
  stored q u h := by simp [DataPlane.new] at h
  framed := nofun
  underHeld := nofun
  numbered := nofun
  unique := nofun

/-- Only the DATA frames matter. -/
theorem of_frames {sealed' : List Sealing} (h : NonceInv cfg C s w held sealed)
    (hSub : ∀ k nonce e q p, ⟨k, nonce, .data e q p⟩ ∈ sealed' →
      ⟨k, nonce, .data e q p⟩ ∈ sealed) : NonceInv cfg C s w held sealed' where
  ownRk := h.ownRk
  keyed := h.keyed
  unkeyed hNone k nonce e q p hf := h.unkeyed hNone k nonce e q p (hSub k nonce e q p hf)
  stored := h.stored
  framed k nonce e q p hf := h.framed k nonce e q p (hSub k nonce e q p hf)
  underHeld k nonce q p hf := h.underHeld k nonce q p (hSub k nonce _ q p hf)
  numbered rk hRk k nonce q p hKey hf := h.numbered rk hRk k nonce q p hKey (hSub k nonce _ q p hf)
  unique k nonce e q p e' q' p' hf hf' :=
    h.unique k nonce e q p e' q' p' (hSub k nonce e q p hf) (hSub k nonce e' q' p' hf')

theorem mono_held {held' : List RawKey} (h : NonceInv cfg C s w held sealed)
    (hSub : ∀ rk ∈ held, rk ∈ held') : NonceInv cfg C s w held' sealed where
  ownRk := h.ownRk
  keyed k hk := by
    obtain ⟨rk, hRk, hHeld, hKey⟩ := h.keyed k hk
    exact ⟨rk, hRk, hSub rk hHeld, hKey⟩
  unkeyed := h.unkeyed
  stored := h.stored
  framed := h.framed
  underHeld k nonce q p hf := by
    obtain ⟨rk, hHeld, hKey⟩ := h.underHeld k nonce q p hf
    exact ⟨rk, hSub rk hHeld, hKey⟩
  numbered := h.numbered
  unique := h.unique

/-- A window may lose entries, and gain entries under new numbers. -/
theorem of_window (w' : Window) (h : NonceInv cfg C s w held sealed)
    (hSeq : w.sendSeq ≤ w'.sendSeq)
    (hOld : ∀ (q : Nat) (u : Unacked), w'.sendUnacked[q]? = some u → q ≤ w'.sendSeq ∧
      (w.sendSeq < q ∨ ∃ u₀, w.sendUnacked[q]? = some u₀ ∧ u₀.payload = u.payload)) :
    NonceInv cfg C s w' held sealed where
  ownRk := h.ownRk
  keyed := h.keyed
  unkeyed := h.unkeyed
  stored q u hu := (hOld q u hu).1
  framed := h.framed
  underHeld := h.underHeld
  numbered rk hRk k nonce q p hKey hf := by
    obtain ⟨hq, hAgree⟩ := h.numbered rk hRk k nonce q p hKey hf
    refine ⟨hq.trans hSeq, fun u hu => ?_⟩
    rcases (hOld q u hu).2 with hNew | ⟨u₀, hu₀, hPay⟩
    -- a number above the old `sendSeq` has sealed no frame under this key
    · omega
    · exact hPay.symm.trans (hAgree u₀ hu₀)
  unique := h.unique

/-- Sealing a packet of the window under the current key. -/
theorem sealFrame {q : Nat} {u : Unacked} (h : NonceInv cfg C s w held sealed)
    (hEst : s.established = true) (hu : w.sendUnacked[q]? = some u) :
    NonceInv cfg C s w held
      (sealed ++ [⟨s.currentKey, dataNonce s.epoch q, .data s.epoch q u.payload⟩]) := by
  obtain ⟨key, hKeySome⟩ := KeyState.established_iff.mp hEst
  obtain ⟨rk, hRk, hHeld, hKey⟩ := h.keyed key hKeySome
  have hCur : s.currentKey = key := KeyState.currentKey_of_some hKeySome
  have hOne : ∀ {f : Sealing}, f ∈ sealed ++
      [⟨s.currentKey, dataNonce s.epoch q, .data s.epoch q u.payload⟩] ↔
      f ∈ sealed ∨ f = ⟨key, dataNonce s.epoch q, .data s.epoch q u.payload⟩ := by
    simp [hCur]
  -- a frame already sealed under the same key and nonce has the same content
  have hSame : ∀ {e q' : Nat} {p' : Bytes},
      ⟨key, dataNonce s.epoch q, .data e q' p'⟩ ∈ sealed →
      Plain.data e q' p' = .data s.epoch q u.payload := by
    intro e q' p' hf
    obtain ⟨hNonce, -⟩ := h.framed _ _ _ _ _ hf
    obtain ⟨rfl, rfl⟩ := Prod.mk.inj hNonce
    rw [(h.numbered rk hRk _ _ _ _ hKey hf).2 u hu]
  -- `unkeyed` is void in an established session; the other clauses split on
  -- whether a frame is the new one
  refine ⟨h.ownRk, h.keyed, ?_, h.stored, ?_, ?_, ?_, ?_⟩
  · intro hNone
    rw [hNone] at hKeySome
    cases hKeySome
  · intro k nonce e q' p' hf
    rcases hOne.mp hf with hf | hf
    · exact h.framed _ _ _ _ _ hf
    · cases hf
      exact ⟨rfl, le_rfl⟩
  · intro k nonce q' p' hf
    rcases hOne.mp hf with hf | hf
    · exact h.underHeld _ _ _ _ hf
    · cases hf
      exact ⟨rk, hHeld, hKey⟩
  · intro rk' hRk' k nonce q' p' hKey' hf
    rcases hOne.mp hf with hf | hf
    · exact h.numbered rk' hRk' _ _ _ _ hKey' hf
    · cases hf
      exact ⟨h.stored q u hu, fun u' hu' => by rw [hu] at hu'; cases hu'; rfl⟩
  · intro k nonce e q' p' e' q'' p'' hf hf'
    rcases hOne.mp hf with hf | hf <;> rcases hOne.mp hf' with hf' | hf'
    · exact h.unique _ _ _ _ _ _ _ _ hf hf'
    · cases hf'
      exact hSame hf
    · cases hf
      exact (hSame hf').symm
    · cases hf
      cases hf'
      rfl

/-- A rotation of either side opens a new epoch. -/
theorem advance {s' : KeyState} {held' : List RawKey} (h : NonceInv cfg C s w held sealed)
    (hEpoch : s'.epoch = s.epoch + 1)
    (hOwn : ∃ priv pub, s'.rkPriv = some priv ∧ s'.rkPub = some pub)
    (hKeyed : ∃ k rk, s'.peerKey = some k ∧ s'.peerRkPub = some rk ∧ rk ∈ held' ∧
      s'.KeyWith cfg C rk k) : NonceInv cfg C s' w held' sealed := by
  obtain ⟨key, rk, hKeySome, hRk, hHeld, hKey⟩ := hKeyed
  -- every frame sealed so far carries an earlier epoch
  have hNoFrame : ∀ k nonce q p, ⟨k, nonce, .data s'.epoch q p⟩ ∉ sealed := by
    intro k nonce q p hf
    have hLe := (h.framed _ _ _ _ _ hf).2
    omega
  refine ⟨hOwn, ?_, ?_, h.stored, ?_, ?_, ?_, h.unique⟩
  · intro k hk
    rw [hKeySome] at hk
    cases hk
    exact ⟨rk, hRk, hHeld, hKey⟩
  · intro hNone
    rw [hKeySome] at hNone
    cases hNone
  · intro k nonce e q p hf
    obtain ⟨hNonce, hLe⟩ := h.framed _ _ _ _ _ hf
    exact ⟨hNonce, by omega⟩
  · exact fun k nonce q p hf => absurd hf (hNoFrame k nonce q p)
  · exact fun _ _ k nonce q p _ hf => absurd hf (hNoFrame k nonce q p)

/-- A HELLO that completes the handshake finds no DATA frame sealed yet; one
that changes the routing key to a new one finds none under its key. -/
theorem hello {now : Instant} {d : Draw} {rk : RawKey} {salt : Salt} {held' : List RawKey}
    (hF : C.CollisionFree) (h : NonceInv cfg C s w held sealed)
    (hFresh : s.established = true → s.peerRkPub ≠ some rk → rk ∉ held)
    (hRk : rk ∈ held') (hHeld : s.established = true → ∀ x ∈ held, x ∈ held') :
    NonceInv cfg C (s.acceptHello cfg C d rk salt)
      (w.acceptHello now s.peerKey.isNone (s.peerRkPub != some rk)) held' sealed := by
  obtain ⟨priv, pub, hPriv, hPub⟩ := h.ownRk
  rw [KeyState.acceptHello_eq hPriv hPub]
  -- renumbered or left alone, the window stores numbers up to its `sendSeq`
  have hStored : ∀ (q : Nat) (u : Unacked),
      (w.acceptHello now s.peerKey.isNone (s.peerRkPub != some rk)).sendUnacked[q]? = some u →
      q ≤ (w.acceptHello now s.peerKey.isNone (s.peerRkPub != some rk)).sendSeq := by
    intro q u hu
    by_cases hNew : (s.peerKey.isNone || s.peerRkPub != some rk) = true
    · exact (((Window.acceptHello_renumbers hNew).1.2 q).mp (SeqMap.mem_iff.mpr ⟨u, hu⟩)).2
    · simp only [Bool.not_eq_true, Bool.or_eq_false_iff] at hNew
      rw [hNew.1, hNew.2, Window.acceptHello_keepalive] at hu ⊢
      exact h.stored q u hu
  have hKeyed : s.KeyWith cfg C rk (C.derivePeerKey cfg.localPriv s.publicKey priv rk
      (xorSalt (s.mySalt.getD 0) salt)) := ⟨priv, _, hPriv, rfl⟩
  cases hKey : s.peerKey with
  | none =>
    have hNone := h.unkeyed hKey
    rw [hKey] at hStored
    -- handshake: without a session key no DATA frame has been sealed
    refine ⟨⟨priv, pub, hPriv, hPub⟩, ?_, nofun, hStored, ?_, ?_, ?_, h.unique⟩
    · rintro k ⟨⟩
      exact ⟨rk, rfl, hRk, hKeyed⟩
    · exact fun k nonce e q p hf => absurd hf (hNone k nonce e q p)
    · exact fun k nonce q p hf => absurd hf (hNone k nonce _ q p)
    · exact fun _ _ k nonce q p _ hf => absurd hf (hNone k nonce _ q p)
  | some key =>
    -- the epoch stays, so the frames of the epoch stay in question
    have hEst : s.established = true := KeyState.established_iff.mpr ⟨key, hKey⟩
    rw [hKey] at hStored
    refine ⟨⟨priv, pub, hPriv, hPub⟩, ?_, nofun, hStored, h.framed, ?_, ?_, h.unique⟩
    · rintro k ⟨⟩
      exact ⟨rk, rfl, hRk, hKeyed⟩
    · intro k nonce q p hf
      obtain ⟨rk', hHeld', hKey'⟩ := h.underHeld k nonce q p hf
      exact ⟨rk', hHeld hEst rk' hHeld', hKey'⟩
    · rintro rk' ⟨⟩ k nonce q p hKey' hf
      by_cases hSame : s.peerRkPub = some rk
      · have hKeep : w.acceptHello now (some key).isNone (s.peerRkPub != some rk) = w := by
          simp only [hSame, bne_self_eq_false]
          exact Window.acceptHello_keepalive
        rw [hKeep]
        exact h.numbered rk hSame k nonce q p hKey' hf
      · obtain ⟨rk', hHeld', hOld⟩ := h.underHeld k nonce q p hf
        -- a frame under the new key would have been sealed while this routing
        -- key was recorded earlier in the epoch
        rw [hOld.inj hF hKey'] at hHeld'
        exact absurd hHeld' (hFresh hEst hSame)

end NonceInv

-- ---------------------------------------------------------------------------
-- Runs
-- ---------------------------------------------------------------------------

/-- A HELLO that changes the recorded routing key announces one that the
session has not used in its current epoch. -/
def AnnouncesFreshRk (n : Node) : Event → Prop
  | .handleHello _ _ rk _ =>
    n.dp.established = true → n.dp.peerRkPub ≠ some rk → rk ∉ n.held
  | _ => True

/-- One event keeps the invariant. -/
theorem nonceInv_step {n : Node} {e : Event} (hF : C.CollisionFree) (hFresh : AnnouncesFreshRk n e)
    (h : NonceInv cfg C n.dp.toKeyState n.dp.toWindow n.held n.sealed) :
    NonceInv cfg C (n.step cfg C e).dp.toKeyState (n.step cfg C e).dp.toWindow
      (n.step cfg C e).held (n.step cfg C e).sealed := by
  have hKeys := DataPlane.step_keyStep cfg C n.dp e
  have hWin := DataPlane.step_windowStep cfg C n.dp e
  have hHeld : (n.step cfg C e).held = (n.dp.step cfg C e).1.peerRkPub.toList ++
      (if (n.dp.step cfg C e).1.epoch = n.dp.epoch then n.held else []) := Node.step_held
  have hFrames : ∀ k nonce e' q p,
      ⟨k, nonce, .data e' q p⟩ ∈ n.sealed ++ (n.dp.step cfg C e).2.sealed →
      ⟨k, nonce, .data e' q p⟩ ∈ n.sealed ++ DataPlane.transfers (n.dp.step cfg C e).2.sealed := by
    intro k nonce e' q p hf
    simpa [DataPlane.transfers, Plain.handshake] using hf
  -- HELLO and REKEY frames do not matter, so the window's step gives the frames
  rw [Node.step_dp, Node.step_sealed, hHeld]
  refine NonceInv.of_frames ?_ hFrames
  change NonceInv cfg C _ _ _ (n.sealed ++ (n.dp.step cfg C e).2.transfers.sealed)
  generalize (n.dp.step cfg C e).1.toWindow = w', (n.dp.step cfg C e).2.transfers = out at hWin ⊢
  generalize (n.dp.step cfg C e).1.toKeyState = s', DataPlane.handshakes _ = hs at hKeys ⊢
  have hKeep : NonceInv cfg C n.dp.toKeyState n.dp.toWindow (n.dp.peerRkPub.toList ++
      (if n.dp.epoch = n.dp.epoch then n.held else [])) n.sealed :=
    h.mono_held fun rk hrk => by simp [hrk]
  -- a rotation, whichever event runs it
  have hRotate : ∀ {d : Draw} {s' : KeyState} {f : Sealing},
      n.dp.toKeyState.maybeRekey cfg C d = some (s', f) →
      NonceInv cfg C s' n.dp.toWindow
        (s'.peerRkPub.toList ++ (if s'.epoch = n.dp.epoch then n.held else [])) n.sealed := by
    intro d s' f hSome
    obtain ⟨-, -, rk, hRk, rfl, -⟩ := KeyState.maybeRekey_eq_some.mp hSome
    exact h.advance rfl ⟨d.rk, C.publicKey d.rk, rfl, rfl⟩
      ⟨_, rk, rfl, hRk, by simp [hRk], d.rk, _, rfl, rfl⟩
  -- by what the event does to the send window; the keys change only when it
  -- is idle or a HELLO is accepted
  cases hWin with
  | idle hNot =>
    rw [List.append_nil]
    cases hKeys with
    | idle => exact hKeep
    | announce => exact hKeep
    | rotate hSome => exact hRotate hSome
    | rotateCount hSome => exact hRotate hSome
    | accept => cases hNot
    | @follow now epoch rk salt =>
      by_cases hDrop : n.dp.established = false ∨ epoch ≠ n.dp.epoch
      · rw [KeyState.handleRekey_drop hDrop]
        exact hKeep
      · push Not at hDrop
        obtain ⟨priv, pub, hPriv, hPub⟩ := h.ownRk
        rw [KeyState.handleRekey_eq (by simpa using hDrop.1) hDrop.2 hPriv]
        exact h.advance rfl ⟨priv, pub, hPriv, hPub⟩
          ⟨_, rk, rfl, rfl, by simp, priv, _, hPriv, rfl⟩
  | hold hEst =>
    cases hKeys
    rw [List.append_nil]
    exact hKeep.of_window _ le_rfl fun q u hu => ⟨h.stored q u hu, .inr ⟨u, hu, rfl⟩⟩
  | burn =>
    cases hKeys
    rw [List.append_nil]
    exact hKeep.of_window _ (Nat.le_succ _) fun q u hu =>
      ⟨(h.stored q u hu).trans (Nat.le_succ _), .inr ⟨u, hu, rfl⟩⟩
  | @store now p hEst =>
    cases hKeys
    refine NonceInv.sealFrame (u := ⟨now, 0, p⟩)
      (hKeep.of_window (n.dp.toWindow.push now p) (Nat.le_succ _) fun q u hu => ?_) hEst
      (by rw [Window.getElem?_push, if_pos rfl])
    rw [Window.getElem?_push] at hu
    split at hu
    · rename_i hq
      exact ⟨hq.le, .inl (by omega)⟩
    · exact ⟨(h.stored q u hu).trans (Nat.le_succ _), .inr ⟨u, hu, rfl⟩⟩
  | ack =>
    cases hKeys
    rw [List.append_nil]
    refine hKeep.of_window _ le_rfl fun q u hu => ?_
    have hOld := Window.of_handleAck hu
    exact ⟨h.stored q u hOld, .inr ⟨u, hOld, rfl⟩⟩
  | @resend now seq u hEst hu =>
    cases hKeys
    refine NonceInv.sealFrame (u := { u with since := now, retries := u.retries + 1 })
      (hKeep.of_window (n.dp.toWindow.bump now seq) le_rfl fun q u' hu' => ?_) hEst
      (by rw [Window.getElem?_bump, if_pos rfl, hu]; rfl)
    obtain ⟨u₀, hOld, hPay⟩ := Window.of_bump hu'
    exact ⟨h.stored q u₀ hOld, .inr ⟨u₀, hOld, hPay⟩⟩
  | hello =>
    cases hKeys with
    | idle hNot => cases hNot
    | @accept now d rk salt =>
      rw [List.append_nil]
      obtain ⟨priv, pub, hPriv, hPub⟩ := h.ownRk
      refine h.hello hF hFresh ?_ ?_
      · simp [KeyState.acceptHello_eq hPriv hPub]
      · intro hEst x hx
        obtain ⟨key, hKey⟩ := KeyState.established_iff.mp hEst
        simp [KeyState.acceptHello_eq hPriv hPub, hKey, hx]
  | take =>
    cases hKeys
    rw [List.append_nil]
    exact hKeep.of_window _ le_rfl fun q u hu => ⟨h.stored q u hu, .inr ⟨u, hu, rfl⟩⟩
  | recv =>
    cases hKeys
    refine NonceInv.of_frames (hKeep.of_window _ le_rfl fun q u hu => ?_)
      fun k nonce e' q p hf => ?_
    · exact ⟨h.stored q u hu, .inr ⟨u, hu, rfl⟩⟩
    · simpa using hf

/-- Alice sends a packet, Bob acknowledges it, restarts and announces routing
key 21, and his first HELLO is replayed before she sends the next packet. -/
def replayRun : List Event :=
  [.handleHello 0 sampleDraw 20 6, .sealData 1 [1], .handleAck 1,
    .handleHello 2 sampleDraw 21 8, .handleHello 3 sampleDraw 20 6, .sealData 4 [2]]

/-- The key of Alice's routing key 10 and salt 5 with Bob's 20 and 6. -/
def replayedKey : RawKey := symbolic.derivePeerKey 2 1 10 20 (xorSalt 5 6)

end LinkMesh
