import Mathlib.Logic.Function.Basic
import LinkMesh.Client.Keys

/-!
# Two clients and a channel

Two clients, each with a session for the other, over a channel that loses,
duplicates and reorders. A side can receive any frame the other side ever
sealed, any number of times, in any order; what it does with it is what
`handle_peer_data` does with a datagram: open it under the current key, then
under the handshake key, and hand the content to the handler of its type.
Either side can restart with a fresh session.

Restrictions of this channel are guards on its runs: no restart
(`Label.isRestart`), or in-order loss-free delivery (`InOrder`).

* `Pair.moves_nodeNext` — a step changes one node: by a local event, by the
  event of a received frame, or by a restart;
* `Pair.reach_keyed`    — the invariant on identities, routing keys and frames
  that every run maintains.
-/

namespace LinkMesh

variable {Ct : Type}

inductive Side where
  | left
  | right
  deriving DecidableEq, Repr

namespace Side

def other : Side → Side
  | left => right
  | right => left

@[simp] theorem other_other (x : Side) : x.other.other = x := by cases x <;> rfl

@[simp] theorem other_ne (x : Side) : x.other ≠ x := by cases x <;> decide

@[simp] theorem ne_other (x : Side) : x ≠ x.other := by cases x <;> decide

theorem eq_or_eq_other (x y : Side) : y = x ∨ y = x.other := by
  cases x <;> cases y <;> simp [other]

end Side

-- ---------------------------------------------------------------------------
-- Receiving a frame
-- ---------------------------------------------------------------------------

/-- The routing key of a HELLO. -/
def Plain.helloRk : Plain → Option RawKey
  | .hello _ rk _ _ => some rk
  | _ => none

/-- The event of a received frame, by the type of the frame. -/
theorem Plain.event_cases {now : Instant} {d : Draw} {p : Plain} {e : Event}
    (h : p.event now d = some e) :
    (∃ k rk salt ip, p = .hello k rk salt ip ∧ e = .handleHello now d rk salt) ∨
      (∃ k rk salt, p = .rekey k rk salt ∧ e = .handleRekey now k rk salt) ∨
      (∃ k q payload, p = .data k q payload ∧ e = .recvData d k q payload) ∨
      ∃ k a, p = .ack k a ∧ e = .handleAck a := by
  cases p with
  | hello k rk salt ip =>
    cases h
    exact .inl ⟨k, rk, salt, ip, rfl, rfl⟩
  | rekey k rk salt =>
    cases h
    exact .inr (.inl ⟨k, rk, salt, rfl, rfl⟩)
  | data k q payload =>
    cases h
    exact .inr (.inr (.inl ⟨k, q, payload, rfl, rfl⟩))
  | ack k a =>
    cases h
    exact .inr (.inr (.inr ⟨k, a, rfl, rfl⟩))
  | malformed => cases h
  | short => cases h

theorem Plain.announced_event {now : Instant} {d : Draw} {p : Plain} {e : Event}
    (h : p.event now d = some e) : e.announced = p.announced := by
  cases p <;> cases h <;> rfl

theorem Plain.drawnRk_event {now : Instant} {d : Draw} {p : Plain} {e : Event}
    (h : p.event now d = some e) : e.drawnRk = none := by
  cases p <;> cases h <;> rfl

theorem Event.announced_of_isLocal {e : Event} (h : e.isLocal = true) : e.announced = none := by
  cases e <;> cases h <;> rfl

namespace Node

/-- Receive a datagram. -/
def receive (cfg : Config) (C : Crypto Ct) (now : Instant) (d : Draw) (ct : Ct) (n : Node) : Node :=
  match (n.dp.toKeyState.openPeerData C ct).bind (Plain.event now d) with
  | none => n
  | some e => n.step cfg C e

/-- Restart with the session `dp`, the history kept. -/
def restart (dp : DataPlane) (n : Node) : Node := { n with dp, held := [] }

/-- The frame opens on this session. -/
def Opens (C : Crypto Ct) (s : KeyState) (f : Sealing) : Prop :=
  s.openPeerData C (f.ct C) = some f.plain

theorem opens_iff {C : Crypto Ct} (hC : C.Lawful) {s : KeyState} {f : Sealing} :
    Opens C s f ↔ f.key = s.currentKey ∨ f.key = s.handshakeKey := by
  simp only [Opens, KeyState.openPeerData, Sealing.ct, hC.decrypt_encrypt]
  by_cases h₁ : s.currentKey = f.key
  · simp [h₁]
  · by_cases h₂ : s.handshakeKey = f.key
    · simp [h₁, h₂]
      grind
    · simp [h₁, h₂, eq_comm (a := f.key)]

/-- A frame that does not open is dropped. -/
theorem open_eq_none {C : Crypto Ct} (hC : C.Lawful) {s : KeyState} {f : Sealing}
    (h : ¬ Opens C s f) : s.openPeerData C (f.ct C) = none := by
  rw [opens_iff hC] at h
  push Not at h
  simp [KeyState.openPeerData, Sealing.ct, hC.decrypt_encrypt, h.1.symm, h.2.symm]

theorem receive_of_opens {cfg : Config} {C : Crypto Ct} {now : Instant} {d : Draw} {f : Sealing}
    {n : Node} {e : Event} (hOpen : Opens C n.dp.toKeyState f) (he : f.plain.event now d = some e) :
    n.receive cfg C now d (f.ct C) = n.step cfg C e := by
  rw [receive, show n.dp.toKeyState.openPeerData C (f.ct C) = some f.plain from hOpen,
    Option.bind_some, he]

/-- A received frame is dropped, or handled after it opened. -/
theorem receive_cases (cfg : Config) {C : Crypto Ct} (hC : C.Lawful) (now : Instant) (d : Draw)
    (f : Sealing) (n : Node) : n.receive cfg C now d (f.ct C) = n ∨
    ∃ e, f.plain.event now d = some e ∧ Opens C n.dp.toKeyState f ∧
      n.receive cfg C now d (f.ct C) = n.step cfg C e := by
  by_cases hOpen : Opens C n.dp.toKeyState f
  · cases he : f.plain.event now d with
    | none =>
      left
      rw [receive, show n.dp.toKeyState.openPeerData C (f.ct C) = some f.plain from hOpen,
        Option.bind_some, he]
    | some e => exact .inr ⟨e, rfl, hOpen, receive_of_opens hOpen he⟩
  · rw [receive, open_eq_none hC hOpen]
    exact .inl rfl

end Node

-- ---------------------------------------------------------------------------
-- The world
-- ---------------------------------------------------------------------------

/-- The two clients. -/
structure Pair (C : Crypto Ct) where
  cfg : Side → Config
  localPub_eq : ∀ x, (cfg x).localPub = C.publicKey (cfg x).localPriv

structure World where
  node : Side → Node
  /-- public halves of the routing keys a side has drawn -/
  drawn : Side → List RawKey
  /-- how many frames a side has received -/
  received : Side → Nat

inductive Label where
  /-- a section run by the side itself -/
  | act (x : Side) (e : Event)
  /-- a frame of the other side arrives, by its position among those sealed -/
  | deliver (x : Side) (i : Nat) (now : Instant) (d : Draw)
  | restart (x : Side) (now : Instant) (d : Draw)
  deriving DecidableEq, Repr

def Label.side : Label → Side
  | .act x _ | .deliver x _ _ _ | .restart x _ _ => x

def Label.drawnRk : Label → Option RawKey
  | .act _ e => e.drawnRk
  | .deliver .. => none
  | .restart _ _ d => some d.rk

def Label.isRestart : Label → Bool
  | .restart .. => true
  | _ => false

namespace Pair

variable {C : Crypto Ct} (P : Pair C)

def peerPub (x : Side) : RawKey := (P.cfg x.other).localPub

def handshakeKey (x : Side) : RawKey := C.sharedSecret (P.cfg x).localPriv (P.peerPub x)

def freshSession (x : Side) (now : Instant) (rk : RawKey) (salt : Salt) : DataPlane :=
  .new (P.peerPub x) (P.handshakeKey x) rk (C.publicKey rk) salt now

/-- The node a step leaves at the side it concerns. -/
def nodeNext (w : World) : Label → Node
  | .act x e => (w.node x).step (P.cfg x) C e
  | .deliver x i now d =>
    match (w.node x.other).sealed[i]? with
    | none => w.node x
    | some f => (w.node x).receive (P.cfg x) C now d (f.ct C)
  | .restart x now d => (w.node x).restart (P.freshSession x now d.rk d.salt)

def next (w : World) (l : Label) : World where
  node := Function.update w.node l.side (P.nodeNext w l)
  drawn := Function.update w.drawn l.side
    ((l.drawnRk.map C.publicKey).toList ++ w.drawn l.side)
  received := match l with
    | .deliver x _ _ _ => Function.update w.received x (w.received x + 1)
    | _ => w.received

/-- A routing key is drawn once. -/
def Fresh (w : World) (l : Label) : Prop :=
  ∀ rk ∈ l.drawnRk, C.publicKey rk ∉ w.drawn .left ∧ C.publicKey rk ∉ w.drawn .right

theorem Fresh.notMem {w : World} {l : Label} (h : Fresh (C := C) w l) {rk : RawKey}
    (hRk : l.drawnRk = some rk) (x : Side) : C.publicKey rk ∉ w.drawn x := by
  cases x with
  | left => exact (h rk hRk).1
  | right => exact (h rk hRk).2

def Enabled (w : World) : Label → Prop
  | .act _ e => e.isLocal = true
  | .deliver x i _ _ => i < (w.node x.other).sealed.length
  | .restart .. => True

/-- Both sides with fresh sessions and different routing keys. -/
structure Init (w : World) : Prop where
  node : ∀ x, ∃ now rk salt, w.node x = Node.start (P.freshSession x now rk salt) ∧
    w.drawn x = [C.publicKey rk]
  distinct : ∀ rk ∈ w.drawn .left, rk ∉ w.drawn .right
  received : ∀ x, w.received x = 0

def machine : Machine World Label where
  init := P.Init
  enabled w l := Enabled w l ∧ Fresh (C := C) w l
  next := P.next

instance (w : World) : ∀ l, Decidable (Enabled w l)
  | .act _ e => inferInstanceAs (Decidable (e.isLocal = true))
  | .deliver x i _ _ => inferInstanceAs (Decidable (i < (w.node x.other).sealed.length))
  | .restart .. => .isTrue trivial

instance (w : World) (l : Label) : Decidable (P.machine.enabled w l) :=
  inferInstanceAs (Decidable (Enabled w l ∧ ∀ rk ∈ l.drawnRk,
    C.publicKey rk ∉ w.drawn .left ∧ C.publicKey rk ∉ w.drawn .right))

/-- The routing key announced by the HELLO that the step delivers, if it
delivers one and the HELLO opens. -/
def arrivingHello (C : Crypto Ct) (w : World) : Label → Option RawKey
  | .deliver x i _ _ => do
    let f ← (w.node x.other).sealed[i]?
    let p ← (w.node x).dp.openPeerData C (f.ct C)
    p.helloRk
  | _ => none

theorem arrivingHello_eq {C : Crypto Ct} {w : World} {x : Side} {i : Nat} {now : Instant} {d : Draw}
    {f : Sealing} {e : Nat} {rk : RawKey} {salt : Salt} {ip : String}
    (hSome : (w.node x.other).sealed[i]? = some f) (hOpen : Node.Opens C (w.node x).dp.toKeyState f)
    (hPlain : f.plain = .hello e rk salt ip) :
    arrivingHello C w (.deliver x i now d) = some rk := by
  simp only [arrivingHello, hSome, Option.bind_eq_bind, Option.bind_some]
  rw [show (w.node x).dp.toKeyState.openPeerData C (f.ct C) = some f.plain from hOpen, hPlain]
  rfl

/-- How a step changes the node it concerns. -/
inductive Moves (w : World) : Label → Node → Prop where
  | act {x : Side} {e : Event} : e.isLocal = true →
      Moves w (.act x e) ((w.node x).step (P.cfg x) C e)
  | drop {x : Side} {i : Nat} {now : Instant} {d : Draw} : Moves w (.deliver x i now d) (w.node x)
  | handle {x : Side} {i : Nat} {now : Instant} {d : Draw} {f : Sealing} {e : Event} :
      (w.node x.other).sealed[i]? = some f → f.plain.event now d = some e →
      Node.Opens C (w.node x).dp.toKeyState f →
      Moves w (.deliver x i now d) ((w.node x).step (P.cfg x) C e)
  | restart {x : Side} {now : Instant} {d : Draw} :
      Moves w (.restart x now d) ((w.node x).restart (P.freshSession x now d.rk d.salt))

variable {P}

theorem moves_nodeNext (hC : C.Lawful) {w : World} {l : Label} (hEn : Enabled w l) :
    P.Moves w l (P.nodeNext w l) := by
  cases l with
  | act x e => exact .act hEn
  | deliver x i now d =>
    cases hSome : (w.node x.other).sealed[i]? with
    | none =>
      simp only [nodeNext, hSome]
      exact .drop
    | some f =>
      simp only [nodeNext, hSome]
      rcases Node.receive_cases (P.cfg x) hC now d f (w.node x) with h | ⟨e, he, hOpen, h⟩
      · rw [h]
        exact .drop
      · rw [h]
        exact .handle hSome he hOpen
  | restart x now d => exact .restart

-- ---------------------------------------------------------------------------
-- Routing keys and frames
-- ---------------------------------------------------------------------------

variable (P) in
/-- `k` is a session key of side `x`, its own routing key having the public
half `own`, the peer's being `rk`. -/
def SessionKey (x : Side) (own rk k : RawKey) : Prop :=
  ∃ priv salt, C.publicKey priv = own ∧
    k = C.derivePeerKey (P.cfg x).localPriv (P.peerPub x) priv rk salt

theorem sessionKey_ne_handshakeKey (hF : C.CollisionFree) {x y : Side} {own rk k : RawKey}
    (h : P.SessionKey x own rk k) : k ≠ P.handshakeKey y := by
  obtain ⟨priv, salt, -, rfl⟩ := h
  exact hF.derivePeerKey_ne

/-- Two sides share a session key only when each has the other's routing key,
unless they drew the same one. -/
theorem sessionKey_inj (hF : C.CollisionFree) {x y : Side} {own rk own' rk' k : RawKey}
    (h : P.SessionKey x own rk k) (h' : P.SessionKey y own' rk' k) :
    (own = own' ∧ rk = rk') ∨ (own = rk' ∧ rk = own') := by
  obtain ⟨priv, salt, rfl, rfl⟩ := h
  obtain ⟨priv', salt', rfl, hEq⟩ := h'
  exact hF.derivePeerKey_inj hEq

/-- Both sides derive one session key from each other's routing keys and salts. -/
theorem derivePeerKey_comm (hC : C.Lawful) (x : Side) (priv priv' : RawKey) (salt salt' : Salt) :
    C.derivePeerKey (P.cfg x).localPriv (P.peerPub x) priv (C.publicKey priv')
        (xorSalt salt salt') =
      C.derivePeerKey (P.cfg x.other).localPriv (P.peerPub x.other) priv' (C.publicKey priv)
        (xorSalt salt' salt) := by
  simp only [peerPub, Side.other_other, P.localPub_eq]
  exact hC.derivePeerKey_comm _ _ _ _ _ _

theorem handshakeKey_comm (hC : C.Lawful) (x : Side) :
    P.handshakeKey x.other = P.handshakeKey x := by
  simp only [handshakeKey, Crypto.sharedSecret, peerPub, Side.other_other, P.localPub_eq]
  exact hC.dh_comm _ _

/-- What every run maintains about the node of side `x`: whom it is for, its
key, and the routing keys it and its frames name, among those its own side
(`mine`) and the other (`theirs`) have drawn. Only HELLO is ever sealed under
the handshake key, and a HELLO under a session key announces the routing key
of that session key. -/
structure KeyedNode (P : Pair C) (x : Side) (mine theirs : List RawKey) (n : Node) : Prop where
  publicKey : n.dp.publicKey = P.peerPub x
  handshakeKey : n.dp.handshakeKey = P.handshakeKey x
  keyed : ∃ priv salt, n.dp.WellKeyed (P.cfg x) C priv salt ∧ C.publicKey priv ∈ mine
  heard : ∀ rk, n.dp.peerRkPub = some rk → rk ∈ theirs
  announced : ∀ f ∈ n.sealed, ∀ rk salt, f.plain.announced = some (rk, salt) → rk ∈ mine
  sealedUnder : ∀ f ∈ n.sealed,
    (f.key = P.handshakeKey x ∧ ∃ e rk salt ip, f.plain = .hello e rk salt ip) ∨
      ∃ own rk', P.SessionKey x own rk' f.key ∧
        ∀ e rk salt ip, f.plain = .hello e rk salt ip → own = rk

namespace KeyedNode

variable {x : Side} {mine theirs mine' theirs' : List RawKey} {n : Node}

theorem mono (h : P.KeyedNode x mine theirs n) (hMine : mine ⊆ mine') (hTheirs : theirs ⊆ theirs') :
    P.KeyedNode x mine' theirs' n where
  publicKey := h.publicKey
  handshakeKey := h.handshakeKey
  keyed := by
    obtain ⟨priv, salt, hWell, hMem⟩ := h.keyed
    exact ⟨priv, salt, hWell, hMine hMem⟩
  heard rk hRk := hTheirs (h.heard rk hRk)
  announced f hf rk salt hAnn := hMine (h.announced f hf rk salt hAnn)
  sealedUnder := h.sealedUnder

/-- The session key of an established node. -/
theorem sessionKey (h : P.KeyedNode x mine theirs n) (hEst : n.dp.established = true) :
    ∃ own rk, n.dp.rkPub = some own ∧ n.dp.peerRkPub = some rk ∧ own ∈ mine ∧ rk ∈ theirs ∧
      P.SessionKey x own rk n.dp.currentKey := by
  obtain ⟨priv, salt, hWell, hMem⟩ := h.keyed
  obtain ⟨rk, peerSalt, hRk, -, hKey⟩ := hWell.of_established hEst
  exact ⟨_, rk, hWell.rkPub, hRk, hMem, h.heard rk hRk, priv, _, rfl, by rw [hKey, h.publicKey]⟩

theorem step {e : Event} (h : P.KeyedNode x mine theirs n)
    (hDrawn : ∀ rk, e.drawnRk = some rk → C.publicKey rk ∈ mine)
    (hHeard : ∀ rk salt, e.announced = some (rk, salt) → rk ∈ theirs) :
    P.KeyedNode x mine theirs (n.step (P.cfg x) C e) := by
  obtain ⟨priv, salt, hWell, hMem⟩ := h.keyed
  have hKeys := DataPlane.step_keyStep (P.cfg x) C n.dp e
  obtain ⟨hPk, hHk, hAfter⟩ := KeyState.wellKeyed_step hWell hKeys
  -- the key in use of an established session is one of its own routing key
  have hCurrent : n.dp.established = true → ∃ rk, P.SessionKey x (C.publicKey priv) rk
      n.dp.currentKey := by
    intro hEst
    obtain ⟨rk, peerSalt, -, -, hKey⟩ := hWell.of_established hEst
    exact ⟨rk, priv, _, rfl, by rw [hKey, h.publicKey]⟩
  -- a frame was there before, or this event sealed it
  have hFrames : ∀ f ∈ (n.step (P.cfg x) C e).sealed, f ∈ n.sealed ∨
      KeyState.Emits (P.cfg x) C n.dp.toKeyState (n.step (P.cfg x) C e).dp.toKeyState e f := by
    intro f hf
    rw [Node.step_sealed, List.mem_append] at hf
    exact hf.imp_right DataPlane.step_emits
  refine ⟨hPk.trans h.publicKey, hHk.trans h.handshakeKey, ?_, ?_, ?_, ?_⟩
  · rcases hAfter with hWell' | ⟨d, f, hd, -, hWell'⟩
    · exact ⟨priv, salt, hWell', hMem⟩
    · exact ⟨d.rk, d.salt, hWell', hDrawn d.rk hd⟩
  · intro rk hRk
    rcases KeyState.recorded_step hWell hKeys with ⟨hSame, -⟩ | ⟨rk', salt', hAnn, hNew, -⟩
    · exact h.heard rk (hSame ▸ hRk)
    · cases hNew.symm.trans hRk
      exact hHeard rk salt' hAnn
  · intro f hf rk salt' hAnn
    rcases hFrames f hf with hf | hf
    · exact h.announced f hf rk salt' hAnn
    · cases hf with
      | hello _ hRk _ =>
        cases hAnn
        cases hRk.symm.trans hWell.rkPub
        exact hMem
      | reply _ _ hRk _ =>
        cases hAnn
        -- the reply announces the routing key that the HELLO left in place
        rcases hAfter with hWell' | ⟨_, _, hd, -, -⟩
        · cases hRk.symm.trans hWell'.rkPub
          exact hMem
        · cases hd
      | rekey hd hSome =>
        obtain ⟨-, -, _, -, -, rfl⟩ := KeyState.maybeRekey_eq_some.mp hSome
        cases hAnn
        exact hDrawn _ hd
      | transfer _ _ _ hHand =>
        cases hPlain : f.plain <;> simp_all [Plain.announced, Plain.handshake]
  · intro f hf
    rcases hFrames f hf with hf | hf
    · exact h.sealedUnder f hf
    · cases hf with
      | hello _ hRk _ =>
        cases hRk.symm.trans hWell.rkPub
        -- an unsolicited HELLO goes out under the key in use, either kind
        cases hEst : n.dp.established with
        | true =>
          obtain ⟨rk', hKey⟩ := hCurrent hEst
          exact .inr ⟨_, rk', hKey, fun _ _ _ _ hPlain => by cases hPlain; rfl⟩
        | false =>
          refine .inl ⟨?_, _, _, _, _, rfl⟩
          rw [← h.handshakeKey]
          exact KeyState.currentKey_of_none (KeyState.not_established_iff.mp hEst)
      | reply => exact .inl ⟨hHk.trans h.handshakeKey, _, _, _, _, rfl⟩
      | rekey _ hSome =>
        obtain ⟨hEst, -, _, -, -, rfl⟩ := KeyState.maybeRekey_eq_some.mp hSome
        obtain ⟨rk', hKey⟩ := hCurrent hEst
        refine .inr ⟨_, rk', hKey, fun _ _ _ _ hPlain => ?_⟩
        cases hPlain
      | transfer _ hEst hKey hHand =>
        obtain ⟨rk', hCur⟩ := hCurrent hEst
        refine .inr ⟨_, rk', hKey ▸ hCur, fun _ _ _ _ hPlain => ?_⟩
        rw [hPlain] at hHand
        cases hHand

theorem start {now : Instant} {rk : RawKey} {salt : Salt} (h : C.publicKey rk ∈ mine) :
    P.KeyedNode x mine theirs (Node.start (P.freshSession x now rk salt)) where
  publicKey := rfl
  handshakeKey := rfl
  keyed := ⟨rk, salt, KeyState.wellKeyed_new, h⟩
  heard := nofun
  announced := nofun
  sealedUnder := nofun

theorem restart {now : Instant} {rk : RawKey} {salt : Salt} (h : P.KeyedNode x mine theirs n)
    (hRk : C.publicKey rk ∈ mine) :
    P.KeyedNode x mine theirs (n.restart (P.freshSession x now rk salt)) where
  publicKey := rfl
  handshakeKey := rfl
  keyed := ⟨rk, salt, KeyState.wellKeyed_new, hRk⟩
  heard := nofun
  announced := h.announced
  sealedUnder := h.sealedUnder

end KeyedNode

/-- Both nodes are keyed, and the two sides have drawn different routing keys. -/
structure Keyed (P : Pair C) (w : World) : Prop where
  node : ∀ x, P.KeyedNode x (w.drawn x) (w.drawn x.other) (w.node x)
  distinct : ∀ x, ∀ rk ∈ w.drawn x, rk ∉ w.drawn x.other

theorem keyed_init {w : World} (h : P.Init w) : P.Keyed w where
  node x := by
    obtain ⟨now, rk, salt, hNode, hDrawn⟩ := h.node x
    rw [hNode, hDrawn]
    exact .start (List.mem_singleton_self _)
  distinct x rk hx hy := by
    cases x with
    | left => exact h.distinct rk hx hy
    | right => exact h.distinct rk hy hx

@[simp] theorem next_node_side {w : World} {l : Label} :
    (P.next w l).node l.side = P.nodeNext w l := Function.update_self ..

@[simp] theorem next_node_other {w : World} {l : Label} :
    (P.next w l).node l.side.other = w.node l.side.other :=
  Function.update_of_ne (Side.other_ne _) ..

@[simp] theorem next_drawn_side {w : World} {l : Label} : (P.next w l).drawn l.side =
    (l.drawnRk.map C.publicKey).toList ++ w.drawn l.side := Function.update_self ..

@[simp] theorem next_drawn_other {w : World} {l : Label} :
    (P.next w l).drawn l.side.other = w.drawn l.side.other :=
  Function.update_of_ne (Side.other_ne _) ..

theorem drawn_subset_next (w : World) (l : Label) (x : Side) :
    w.drawn x ⊆ (P.next w l).drawn x := by
  rcases Side.eq_or_eq_other l.side x with rfl | rfl
  · rw [next_drawn_side]
    exact List.subset_append_right _ _
  · rw [next_drawn_other]
    exact List.Subset.refl _

theorem keyed_step (hC : C.Lawful) {w : World} {l : Label} (h : P.Keyed w) (hEn : Enabled w l)
    (hFresh : Fresh (C := C) w l) : P.Keyed (P.next w l) := by
  have hMine : P.KeyedNode l.side ((P.next w l).drawn l.side) (w.drawn l.side.other)
      (w.node l.side) := (h.node l.side).mono (drawn_subset_next w l _) (List.Subset.refl _)
  constructor
  · intro x
    rcases Side.eq_or_eq_other l.side x with rfl | rfl
    · rw [next_node_side, next_drawn_other]
      have hMoves := moves_nodeNext (P := P) hC hEn
      generalize P.nodeNext w l = n at hMoves
      cases hMoves with
      -- a section of its own learns nothing from the peer
      | @act x e hLocal =>
        refine hMine.step (fun rk hRk => ?_) fun rk salt hAnn => ?_
        · rw [next_drawn_side]
          simp [Label.drawnRk, hRk]
        · rw [Event.announced_of_isLocal hLocal] at hAnn
          cases hAnn
      | drop => exact hMine
      -- what it learns, the other side has announced
      | @handle x i now d f e hSome hEvent =>
        refine hMine.step (fun rk hRk => ?_) fun rk salt hAnn => ?_
        · rw [Plain.drawnRk_event hEvent] at hRk
          cases hRk
        · rw [Plain.announced_event hEvent] at hAnn
          exact (h.node x.other).announced f (List.mem_of_getElem? hSome) rk salt hAnn
      | @restart x now d =>
        refine hMine.restart ?_
        rw [next_drawn_side]
        simp [Label.drawnRk]
    · rw [next_node_other, Side.other_other, next_drawn_other]
      exact (h.node l.side.other).mono (List.Subset.refl _)
        (by rw [Side.other_other]; exact drawn_subset_next w l l.side)
  · intro x rk hx hy
    -- a routing key drawn in this step is new to both sides
    have hNew : ∀ {rk}, rk ∈ (P.next w l).drawn l.side → rk ∈ w.drawn l.side ∨
        ∀ y, rk ∉ w.drawn y := by
      intro rk hrk
      rw [next_drawn_side, List.mem_append, Option.mem_toList, Option.map_eq_some_iff] at hrk
      rcases hrk with ⟨rk₀, hDrawn, rfl⟩ | hrk
      · exact .inr (hFresh.notMem hDrawn)
      · exact .inl hrk
    rcases Side.eq_or_eq_other l.side x with rfl | rfl
    · rw [next_drawn_other] at hy
      exact (hNew hx).elim (fun hx => h.distinct _ rk hx hy) (fun hn => hn _ hy)
    · rw [next_drawn_other] at hx
      rw [Side.other_other] at hy
      refine (hNew hy).elim (fun hy => ?_) (fun hn => hn _ hx)
      exact h.distinct _ rk hy hx

theorem reach_keyed (hC : C.Lawful) {G : World → Label → Prop} {w : World}
    (h : P.machine.Reach G w) : P.Keyed w := by
  refine h.invariant (fun _ => keyed_init) ?_
  intro w l hw hEn _
  exact keyed_step hC hw hEn.1 hEn.2

/-- The side with the larger public key, the only one that rotates. -/
def initiator (P : Pair C) : Side :=
  if (P.cfg .left).localPub ≤ (P.cfg .right).localPub then .right else .left

theorem localPub_le_peerPub (P : Pair C) :
    (P.cfg P.initiator.other).localPub ≤ P.peerPub P.initiator.other := by
  unfold initiator peerPub
  split
  · assumption
  · exact (not_le.mp ‹_›).le

/-- `maybe_rekey` leaves the rotation to the side with the larger public key. -/
theorem KeyedNode.maybeRekey_ne_some {mine theirs : List RawKey} {n : Node}
    (h : P.KeyedNode P.initiator.other mine theirs n) (d : Draw) (s' : KeyState) (f : Sealing) :
    n.dp.toKeyState.maybeRekey (P.cfg P.initiator.other) C d ≠ some (s', f) := by
  intro hSome
  obtain ⟨-, hLt, -⟩ := KeyState.maybeRekey_eq_some.mp hSome
  rw [h.publicKey] at hLt
  exact absurd P.localPub_le_peerPub (not_le.mpr hLt)

-- ---------------------------------------------------------------------------
-- Two sample clients
-- ---------------------------------------------------------------------------

/-- Alice on the left, Bob on the right. -/
def sample : Pair symbolic where
  cfg
    | .left => aliceCfg
    | .right => bobCfg
  localPub_eq x := by cases x <;> rfl

def sampleWorld : World where
  node
    | .left => Node.start (sample.freshSession .left 0 10 5)
    | .right => Node.start (sample.freshSession .right 0 20 6)
  drawn
    | .left => [10]
    | .right => [20]
  received _ := 0

theorem sample_init : sample.Init sampleWorld where
  node
    | .left => ⟨0, 10, 5, rfl, rfl⟩
    | .right => ⟨0, 20, 6, rfl, rfl⟩
  distinct := by decide
  received _ := rfl

/-- The handshake: Alice's HELLO, Bob's reply, Alice's reply to it. -/
def handshakeRun : List Label :=
  [.act .left (.buildHello sampleDraw), .deliver .right 0 0 sampleDraw,
    .deliver .left 0 0 sampleDraw, .deliver .right 1 0 sampleDraw]

end Pair

end LinkMesh
