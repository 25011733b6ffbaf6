import LinkMesh.Client.Handlers

/-!
# Clients and their contacts

Any number of clients, each with its sessions for any number of peers, and the
frames they have sealed. A session may receive any frame of another client,
whomever it was sealed for, any number of times and in any order. What one client
sealed is not returned to it.

A frame is under a key of the two identities of its session, and of the sessions
of other clients it opens on that of its addressee with its sender only. So of
two clients the sessions with each other are those of a `Pair`, and whatever the
others do is no step of it.

## Results

* `bound_reach` — every session and every frame is bound to the identity of its
  client and that of its peer.
* `pair_run`    — the sessions of two clients with each other run as a `Pair`.
-/

namespace LinkMesh

variable {Ct : Type} {C : Crypto Ct}

-- ---------------------------------------------------------------------------
-- Keys and identities
-- ---------------------------------------------------------------------------

/-- `k` is the handshake key of the client with the peer `pk`, or a session key of
the two. -/
def KeyFor (cfg : Config) (C : Crypto Ct) (pk k : RawKey) : Prop :=
  k = C.sharedSecret cfg.localPriv pk ∨
    ∃ salt s, k = C.hkdfExpand salt (C.sharedSecret cfg.localPriv pk, s)

/-- A key belongs to two identities. -/
theorem KeyFor.inj (hF : C.CollisionFree) {cfg cfg' : Config} {pk pk' k : RawKey} (h : KeyFor cfg C pk k)
    (h' : KeyFor cfg' C pk' k) :
    (C.publicKey cfg.localPriv = C.publicKey cfg'.localPriv ∧ pk = pk') ∨
      (C.publicKey cfg.localPriv = pk' ∧ pk = C.publicKey cfg'.localPriv) := by
  rcases h with rfl | ⟨salt, s, rfl⟩
  · rcases h' with hEq | ⟨salt', s', hEq⟩
    · exact hF.dh_inj _ _ _ _ hEq
    · exact absurd hEq.symm (hF.hkdf_ne_dh _ _ _ _)
  · rcases h' with hEq | ⟨salt', s', hEq⟩
    · exact absurd hEq (hF.hkdf_ne_dh _ _ _ _)
    · exact hF.dh_inj _ _ _ _ (Prod.mk.inj (hF.hkdf_inj _ _ _ _ hEq)).1

/-- A frame of a session that was removed is a handshake under a key of the two. -/
def Act.Keyed (cfg : Config) (C : Crypto Ct) : Act → Prop
  | .stale pk f => KeyFor cfg C pk f.key ∧ f.plain.handshake = true
  | _ => True

/-- The session is one of the client with `pk`, and so are the frames it sealed. -/
structure Node.Bound (cfg : Config) (C : Crypto Ct) (pk : RawKey) (n : Node) : Prop where
  publicKey : n.dp.publicKey = pk
  handshakeKey : n.dp.handshakeKey = C.sharedSecret cfg.localPriv pk
  keyed : ∃ priv salt, n.dp.WellKeyed cfg C priv salt
  sealedUnder : ∀ f ∈ n.sealed, KeyFor cfg C pk f.key

namespace Node.Bound

variable {cfg : Config} {pk : RawKey} {n : Node}

/-- The keys that are tried on a frame. -/
theorem currentKey (h : n.Bound cfg C pk) : KeyFor cfg C pk n.dp.currentKey := by
  obtain ⟨priv, salt, hWell⟩ := h.keyed
  cases hEst : n.dp.established with
  | true =>
    obtain ⟨rk, peerSalt, -, -, hKey⟩ := hWell.of_established hEst
    rw [hKey, h.publicKey]
    exact .inr ⟨_, _, rfl⟩
  | false =>
    rw [KeyState.currentKey_of_none (KeyState.not_established_iff.mp hEst), h.handshakeKey]
    exact .inl rfl

/-- A frame that opens is under a key of the two. -/
theorem opens (hC : C.Lawful) (h : n.Bound cfg C pk) {f : Sealing} (hOpen : Opens C n.dp.toKeyState f) :
    KeyFor cfg C pk f.key := by
  rcases (opens_iff hC).mp hOpen with hKey | hKey
  · rw [hKey]
    exact h.currentKey
  · rw [hKey, h.handshakeKey]
    exact .inl rfl

theorem step {e : Event} (h : n.Bound cfg C pk) : (n.step cfg C e).Bound cfg C pk := by
  obtain ⟨priv, salt, hWell⟩ := h.keyed
  have hKeys := DataPlane.step_keyStep cfg C n.dp e
  obtain ⟨hPk, hHk, hAfter⟩ := KeyState.wellKeyed_step hWell hKeys
  refine ⟨hPk.trans h.publicKey, hHk.trans h.handshakeKey, ?_, ?_⟩
  · rcases hAfter with hSame | ⟨d, f, -, -, hNew⟩
    · exact ⟨priv, salt, hSame⟩
    · exact ⟨d.rk, d.salt, hNew⟩
  · intro f hf
    rw [Node.step_sealed, List.mem_append] at hf
    rcases hf with hOld | hNew
    · exact h.sealedUnder f hOld
    · -- the frame is under the key in use, or under the handshake key
      have hEmits := DataPlane.step_emits hNew
      cases hEmits with
      | hello => exact h.currentKey
      | reply => exact .inl (hHk.trans h.handshakeKey)
      | rekey _ hSome =>
        obtain ⟨-, -, _, -, -, rfl⟩ := KeyState.maybeRekey_eq_some.mp hSome
        exact h.currentKey
      | transfer _ _ hKey =>
        rw [hKey]
        exact h.currentKey

theorem start {now : Instant} {d : Draw} : (Node.start (beginning cfg C pk now d)).Bound cfg C pk :=
  ⟨rfl, rfl, ⟨d.rk, d.salt, KeyState.wellKeyed_new⟩, nofun⟩

theorem restart {now : Instant} {d : Draw} (h : n.Bound cfg C pk) :
    (n.restart (beginning cfg C pk now d)).Bound cfg C pk :=
  ⟨rfl, rfl, ⟨d.rk, d.salt, KeyState.wellKeyed_new⟩, h.sealedUnder⟩

/-- A frame of a session that was removed. -/
theorem stale {f : Sealing} (h : n.Bound cfg C pk) (hf : KeyFor cfg C pk f.key) :
    Node.Bound cfg C pk { n with sealed := n.sealed ++ [f] } where
  publicKey := h.publicKey
  handshakeKey := h.handshakeKey
  keyed := h.keyed
  sealedUnder g hg := by
    rcases List.mem_append.mp hg with hOld | hNew
    · exact h.sealedUnder g hOld
    · obtain rfl := List.mem_singleton.mp hNew
      exact hf

end Node.Bound

-- ---------------------------------------------------------------------------
-- The machine
-- ---------------------------------------------------------------------------

/-- A frame arrives at the session with a peer. -/
def Contacts.receive (cfg : Config) (C : Crypto Ct) (pk : RawKey) (now : Instant) (d : Draw) (ct : Ct)
    (l : Contacts) : Contacts :=
  match l.session pk with
  | none => l
  | some n =>
    match (n.dp.toKeyState.openPeerData C ct).bind (Plain.event now d) with
    | none => l
    | some e => l.next cfg C (.run pk e)

/-- The clients, with different identities. -/
structure Parties (C : Crypto Ct) (ι : Type) where
  cfg : ι → Config
  localPub_eq : ∀ x, (cfg x).localPub = C.publicKey (cfg x).localPriv
  distinct : ∀ x y, (cfg x).localPub = (cfg y).localPub → x = y

/-- The contacts of each client, and the public halves of the routing keys drawn. -/
structure Fabric (ι : Type) where
  links : ι → Contacts
  drawn : List RawKey

namespace Fabric

inductive Label (ι : Type) where
  /-- a client acts on its own -/
  | act (x : ι) (a : Act)
  /-- a frame that `y` sealed for `q` arrives at the session of `x` with `pk` -/
  | deliver (x : ι) (pk : RawKey) (y : ι) (q : RawKey) (i : Nat) (now : Instant) (d : Draw)

variable {ι : Type}

def Label.actor : Label ι → ι
  | .act x _ | .deliver x _ _ _ _ _ _ => x

/-- The peer whose session the step is about. -/
def Label.peer : Label ι → RawKey
  | .act _ a => a.peer
  | .deliver _ pk _ _ _ _ _ => pk

def Label.drawnRk : Label ι → Option RawKey
  | .act _ a => a.drawnRk
  | .deliver .. => none

/-- The `i`-th frame that `y` sealed for `q`. -/
def frame (f : Fabric ι) (y : ι) (q : RawKey) (i : Nat) : Option Sealing :=
  ((f.links y).node q).bind fun n => n.sealed[i]?

end Fabric

namespace Parties

variable {ι : Type} [DecidableEq ι] (N : Parties C ι)

/-- The contacts that a step leaves the client that it concerns. -/
def contactsNext (f : Fabric ι) : Fabric.Label ι → Contacts
  | .act x a => (f.links x).next (N.cfg x) C a
  | .deliver x pk y q i now d =>
    match f.frame y q i with
    | none => f.links x
    | some g => (f.links x).receive (N.cfg x) C pk now d (g.ct C)

def next (f : Fabric ι) (l : Fabric.Label ι) : Fabric ι where
  links := Function.update f.links l.actor (N.contactsNext f l)
  drawn := (l.drawnRk.map C.publicKey).toList ++ f.drawn

/-- A routing key is drawn once, and a client does not receive what it sealed. -/
def Enabled (f : Fabric ι) : Fabric.Label ι → Prop
  | .act x a => a.isLocal = true ∧ a.Keyed (N.cfg x) C ∧ ∀ rk ∈ a.drawnRk, C.publicKey rk ∉ f.drawn
  | .deliver x _ y q i _ _ => y ≠ x ∧ (f.frame y q i).isSome = true

def machine : Machine (Fabric ι) (Fabric.Label ι) where
  init f := (∀ x, f.links x = .empty) ∧ f.drawn = []
  enabled := N.Enabled
  next := N.next

end Parties

-- ---------------------------------------------------------------------------
-- Every frame is bound to two identities
-- ---------------------------------------------------------------------------

namespace Contacts

open Node (Opens open_eq_none)

variable {cfg : Config} {pk k : RawKey} {l : Contacts}

def Bound (cfg : Config) (C : Crypto Ct) (l : Contacts) : Prop :=
  ∀ pk n, l.node pk = some n → n.Bound cfg C pk

theorem Bound.next {a : Act} (h : l.Bound cfg C) (hKeyed : a.Keyed cfg C) : (l.next cfg C a).Bound cfg C := by
  refine each_next h (fun _ _ _ => .start) (fun _ _ _ _ hn => hn.restart) (fun _ _ _ _ hn => hn.step) ?_
  rintro pk f n rfl hn
  exact hn.stale hKeyed.1

/-- An act leaves the sessions with others alone. -/
theorem node_next_ne {a : Act} (h : k ≠ a.peer) : (l.next cfg C a).node k = l.node k := by
  cases a with
  | create pk now d =>
    cases hs : l.session pk with
    | some n => simp only [Contacts.next, hs]
    | none => exact (node_create hs).trans (if_neg h)
  | run pk e =>
    cases hs : l.session pk with
    | none => simp only [Contacts.next, hs]
    | some n => exact (node_run hs).trans (if_neg h)
  | remove pk => rfl
  | stale pk f =>
    cases hn : l.node pk with
    | none => simp only [Contacts.next, hn]
    | some n => exact (node_stale hn).trans (if_neg h)

/-- A received frame is an act, or is dropped. -/
theorem receive_eq (cfg : Config) (C : Crypto Ct) (l : Contacts) (pk : RawKey) (now : Instant) (d : Draw) (ct : Ct) :
    l.receive cfg C pk now d ct = l ∨ ∃ e, l.receive cfg C pk now d ct = l.next cfg C (.run pk e) := by
  unfold Contacts.receive
  split
  · exact .inl rfl
  · split
    · exact .inl rfl
    · exact .inr ⟨_, rfl⟩

theorem node_receive_ne {now : Instant} {d : Draw} {ct : Ct} (h : k ≠ pk) :
    (l.receive cfg C pk now d ct).node k = l.node k := by
  rcases receive_eq cfg C l pk now d ct with hEq | ⟨e, hEq⟩
  · rw [hEq]
  · rw [hEq]
    exact node_next_ne h

/-- Only received frames deliver. -/
theorem heard_next {a : Act} (h : a.isLocal = true) : (l.next cfg C a).heard = l.heard := by
  cases a with
  | create pk now d =>
    simp only [Contacts.next]
    split <;> rfl
  | run pk e =>
    have hNothing : ∀ s : DataPlane, (s.step cfg C e).2.delivered = [] := by
      refine fun s => step_delivered fun d k q p hEq => ?_
      rw [hEq] at h
      cases h
    simp only [Contacts.next]
    split
    · rfl
    · simp [hNothing]
  | remove pk => rfl
  | stale pk f =>
    simp only [Contacts.next]
    split <;> rfl

theorem heard_run {acts : List Act} (h : ∀ a ∈ acts, a.isLocal = true) : (l.run cfg C acts).heard = l.heard := by
  induction acts generalizing l with
  | nil => rfl
  | cons a acts ih =>
    have hTail : (l.run cfg C (a :: acts)).heard = (l.next cfg C a).heard :=
      ih fun b hb => h b (List.mem_cons_of_mem _ hb)
    rw [hTail, heard_next (h a (List.mem_cons_self ..))]

/-- What the TUN got from each peer is what its sessions delivered. -/
def Hears (l : Contacts) : Prop := ∀ pk, ofPeer pk l.heard = ((l.node pk).map Node.tun).getD []

theorem Hears.next {a : Act} (h : l.Hears) : (l.next cfg C a).Hears := by
  intro k
  cases a with
  | create pk now d =>
    rw [heard_next rfl, h]
    cases hs : l.session pk with
    | some n => simp only [Contacts.next, hs]
    | none =>
      rw [node_create hs]
      split
      · rename_i hk
        subst hk
        cases hn : l.node k <;> rfl
      · rfl
  | run pk e =>
    cases hs : l.session pk with
    | none =>
      simp only [Contacts.next, hs]
      exact h k
    | some n =>
      rw [node_run hs]
      simp only [Contacts.next, hs]
      rw [ofPeer_append, ofPeer_map, h k]
      by_cases hk : k = pk
      · subst hk
        rw [if_pos rfl, if_pos rfl, node_of_session hs]
        rfl
      · rw [if_neg hk, if_neg (Ne.symm hk), List.append_nil]
  | remove pk => exact h k
  | stale pk f =>
    rw [heard_next rfl, h]
    cases hn : l.node pk with
    | none => simp only [Contacts.next, hn]
    | some n =>
      rw [node_stale hn]
      split
      · rename_i hk
        subst hk
        rw [hn]
        rfl
      · rfl

/-- The session with a peer goes on until it is removed. -/
def Kept (pk : RawKey) (l : Contacts) : Prop := ∀ n, l.node pk = some n → l.session pk = some n

theorem Kept.next {a : Act} (h : l.Kept pk) (ha : a ≠ .remove pk) : (l.next cfg C a).Kept pk := by
  intro n hn
  cases a with
  | create k now d =>
    cases hs : l.session k with
    | some m =>
      simp only [Contacts.next, hs] at hn ⊢
      exact h n hn
    | none =>
      simp only [Contacts.next, hs] at hn ⊢
      by_cases hk : pk = k
      · subst hk
        simpa [session] using hn
      · simp only [session, Function.update_of_ne hk] at hn ⊢
        exact h n hn
  | run k e =>
    cases hs : l.session k with
    | none =>
      simp only [Contacts.next, hs] at hn ⊢
      exact h n hn
    | some m =>
      by_cases hk : pk = k
      · subst hk
        rw [node_of_session (session_run hs)] at hn
        rw [session_run hs, hn]
      · rw [session_run_ne hk]
        rw [node_run hs, if_neg hk] at hn
        exact h n hn
  | remove k =>
    have hk : pk ≠ k := fun hEq => ha (hEq ▸ rfl)
    simp only [Contacts.next, session, Function.update_of_ne hk] at hn ⊢
    exact h n hn
  | stale k f =>
    cases hm : l.node k with
    | none =>
      simp only [Contacts.next, hm] at hn ⊢
      exact h n hn
    | some m =>
      by_cases hk : pk = k
      · subst hk
        have hLive : l.live pk = true := by
          by_contra hNot
          have hNone : l.session pk = none := if_neg hNot
          cases hNone.symm.trans (h m hm)
        simp only [Contacts.next, hm] at hn ⊢
        simpa [session, hLive] using hn
      · simp only [Contacts.next, hm, session, Function.update_of_ne hk] at hn ⊢
        exact h n hn

/-- A frame that opens runs the section of its content. -/
theorem receive_of_opens {now : Instant} {d : Draw} {g : Sealing} {n : Node} {e : Event}
    (hs : l.session pk = some n) (hOpen : Opens C n.dp.toKeyState g) (he : g.plain.event now d = some e) :
    l.receive cfg C pk now d (g.ct C) = l.next cfg C (.run pk e) := by
  simp only [Contacts.receive, hs]
  rw [show n.dp.toKeyState.openPeerData C (g.ct C) = some g.plain from hOpen, Option.bind_some, he]

/-- A frame runs the section of its content, or is dropped. -/
theorem receive_cases (cfg : Config) (hC : C.Lawful) (l : Contacts) (pk : RawKey) (now : Instant) (d : Draw)
    (g : Sealing) : l.receive cfg C pk now d (g.ct C) = l ∨
      ∃ n e, l.session pk = some n ∧ Opens C n.dp.toKeyState g ∧ g.plain.event now d = some e ∧
        l.receive cfg C pk now d (g.ct C) = l.next cfg C (.run pk e) := by
  cases hs : l.session pk with
  | none =>
    left
    simp only [Contacts.receive, hs]
  | some n =>
    by_cases hOpen : Opens C n.dp.toKeyState g
    · cases he : g.plain.event now d with
      | none =>
        left
        simp only [Contacts.receive, hs]
        rw [show n.dp.toKeyState.openPeerData C (g.ct C) = some g.plain from hOpen, Option.bind_some, he]
      | some e => exact .inr ⟨n, e, rfl, hOpen, rfl, receive_of_opens hs hOpen he⟩
    · left
      simp only [Contacts.receive, hs]
      rw [open_eq_none hC hOpen]
      rfl

end Contacts

namespace Parties

variable {ι : Type} [DecidableEq ι] {N : Parties C ι} {f : Fabric ι}

@[simp] theorem next_links_actor {l : Fabric.Label ι} : (N.next f l).links l.actor = N.contactsNext f l :=
  Function.update_self ..

theorem next_links_ne {l : Fabric.Label ι} {x : ι} (h : x ≠ l.actor) : (N.next f l).links x = f.links x :=
  Function.update_of_ne h ..

/-- The invariant rule for what is said of the contacts of each client by itself. -/
theorem contacts_reach {G : Fabric ι → Fabric.Label ι → Prop} {I : ι → Contacts → Prop} (hEmpty : ∀ x, I x .empty)
    (hAct : ∀ f x a, I x (f.links x) → N.Enabled f (.act x a) → G f (.act x a) →
      I x ((f.links x).next (N.cfg x) C a))
    (hRun : ∀ x l pk e, I x l → I x (l.next (N.cfg x) C (.run pk e))) (h : N.machine.Reach G f) (x : ι) :
    I x (f.links x) := by
  revert x
  refine h.invariant (I := fun f => ∀ x, I x (f.links x)) ?_ ?_
  · rintro f ⟨hInit, -⟩ x
    rw [hInit x]
    exact hEmpty x
  · intro f l hI hEn hGuard x
    show I x ((N.next f l).links x)
    by_cases hx : x = l.actor
    · subst hx
      rw [next_links_actor]
      cases l with
      | act x a => exact hAct f x a (hI x) hEn hGuard
      | deliver x pk y q i now d =>
        have hReceived : I x (N.contactsNext f (.deliver x pk y q i now d)) := by
          simp only [contactsNext]
          split
          · exact hI x
          · rename_i g _
            rcases Contacts.receive_eq (N.cfg x) C (f.links x) pk now d (g.ct C) with hEq | ⟨e, hEq⟩
            · rw [hEq]
              exact hI x
            · rw [hEq]
              exact hRun x _ pk e (hI x)
        exact hReceived
    · rw [next_links_ne hx]
      exact hI x

/-- Every session and every frame is one of its client and its peer. -/
theorem bound_reach {G : Fabric ι → Fabric.Label ι → Prop} (h : N.machine.Reach G f) (x : ι) :
    (f.links x).Bound (N.cfg x) C :=
  contacts_reach (I := fun x l => l.Bound (N.cfg x) C) (fun _ _ _ hn => nomatch hn)
    (fun _ _ _ hBound hEn _ => hBound.next hEn.2.1) (fun _ _ _ _ hBound => hBound.next trivial) h x

theorem hears_reach {G : Fabric ι → Fabric.Label ι → Prop} (h : N.machine.Reach G f) (x : ι) : (f.links x).Hears :=
  contacts_reach (I := fun _ l => l.Hears) (fun _ _ => rfl) (fun _ _ _ hHears _ _ => hHears.next)
    (fun _ _ _ _ hHears => hHears.next) h x

-- ---------------------------------------------------------------------------
-- Two of the clients
-- ---------------------------------------------------------------------------

variable (N) in
/-- Two of the clients. -/
def pair (a b : ι) : Pair C where
  cfg
    | .left => N.cfg a
    | .right => N.cfg b
  localPub_eq x := by cases x <;> exact N.localPub_eq _

end Parties

def who {ι : Type} (a b : ι) : Side → ι
  | .left => a
  | .right => b

/-- When a run of two clients may renew a session: whether a session may end and
begin again, whether a task may seal with one that ended, and which HELLOs may
change the routing key that an established session has recorded. -/
structure Policy where
  restarts : Bool
  orphans : Bool
  renews : DataPlane → RawKey → Prop

/-- The policy as a guard on the runs of a pair. -/
def Policy.Allows (C : Crypto Ct) (p : Policy) (w : World) (l : Label) : Prop :=
  (l.isRestart = true → p.restarts = true) ∧
    ∀ rk ∈ Pair.arrivingHello C w l, (w.node l.side).dp.established = true →
      (w.node l.side).dp.peerRkPub ≠ some rk → p.renews (w.node l.side).dp rk

/-- Where no HELLO arrives a policy has a say in restarts only. -/
theorem Policy.Allows.of_quiet {p : Policy} {w : World} {l : Label} (hArriving : Pair.arrivingHello C w l = none)
    (hRestart : l.isRestart = true → p.restarts = true) : p.Allows C w l := by
  refine ⟨hRestart, fun rk hrk => ?_⟩
  rw [hArriving] at hrk
  cases hrk

namespace Parties

variable {ι : Type} {N : Parties C ι} {f : Fabric ι} {a b : ι}

variable (N) in
/-- The session of one of the two with the other. -/
def IsEnd (a b x : ι) (pk : RawKey) : Prop :=
  (x = a ∧ pk = (N.cfg b).localPub) ∨ (x = b ∧ pk = (N.cfg a).localPub)

instance [DecidableEq ι] (x : ι) (pk : RawKey) : Decidable (N.IsEnd a b x pk) :=
  inferInstanceAs (Decidable ((x = a ∧ pk = (N.cfg b).localPub) ∨ (x = b ∧ pk = (N.cfg a).localPub)))

theorem isEnd_who (s : Side) : N.IsEnd a b (who a b s) ((N.pair a b).peerPub s) := by
  cases s with
  | left => exact .inl ⟨rfl, rfl⟩
  | right => exact .inr ⟨rfl, rfl⟩

variable (N) in
/-- The policy as a guard: it is about the sessions of the two with each other. -/
def Allows (p : Policy) (a b : ι) (f : Fabric ι) : Fabric.Label ι → Prop
  | .act x (.remove pk) => N.IsEnd a b x pk → p.restarts = true
  | .act x (.stale pk _) => N.IsEnd a b x pk → p.orphans = true
  | .act _ _ => True
  | .deliver x pk y q i _ _ => N.IsEnd a b x pk → ∀ g n rk, f.frame y q i = some g →
      (f.links x).session pk = some n → (n.dp.toKeyState.openPeerData C (g.ct C)).bind Plain.helloRk = some rk →
      n.dp.established = true → n.dp.peerRkPub ≠ some rk → p.renews n.dp rk

theorem cfg_pair (s : Side) : (N.pair a b).cfg s = N.cfg (who a b s) := by cases s <;> rfl

theorem who_other_ne (hab : a ≠ b) (s : Side) : who a b s.other ≠ who a b s := by
  cases s with
  | left => exact hab.symm
  | right => exact hab

/-- The peer of a side is the other one. -/
theorem peerPub_pair (s : Side) : (N.pair a b).peerPub s = C.publicKey (N.cfg (who a b s.other)).localPriv := by
  rw [Pair.peerPub, cfg_pair, N.localPub_eq]

/-- An end belongs to one side. -/
theorem who_inj (hab : a ≠ b) {s t : Side} (h : who a b s = who a b t) : s = t := by
  rcases Side.eq_or_eq_other t s with rfl | rfl
  · rfl
  · exact absurd h (who_other_ne hab t)

/-- A session with the other begins as those of a pair. -/
theorem beginning_pair (s : Side) (now : Instant) (d : Draw) :
    beginning (N.cfg (who a b s)) C ((N.pair a b).peerPub s) now d =
      (N.pair a b).freshSession s now d.rk d.salt := by
  cases s <;> rfl

/-- The world is that of the two: a side that has had no session yet is about to
begin with the one of `first`. -/
structure Follows (N : Parties C ι) (a b : ι) (first : Side → Instant × Draw) (f : Fabric ι) (w : World) : Prop where
  node : ∀ s, w.node s = ((f.links (who a b s)).node ((N.pair a b).peerPub s)).getD
    (.start ((N.pair a b).freshSession s (first s).1 (first s).2.rk (first s).2.salt))
  drawn : ∀ s, ∀ k ∈ w.drawn s, k ∈ f.drawn ∨
    ((f.links (who a b s)).node ((N.pair a b).peerPub s) = none ∧ k = C.publicKey (first s).2.rk)

namespace Follows

variable {first : Side → Instant × Draw} {f' : Fabric ι} {w : World}

/-- A step that leaves the two ends alone. -/
theorem stay (h : Follows N a b first f w) (hDrawn : ∀ k ∈ f.drawn, k ∈ f'.drawn)
    (hNode : ∀ s, (f'.links (who a b s)).node ((N.pair a b).peerPub s) =
      (f.links (who a b s)).node ((N.pair a b).peerPub s)) : Follows N a b first f' w where
  node s := by
    rw [hNode]
    exact h.node s
  drawn s k hk := by
    rw [hNode]
    exact (h.drawn s k hk).imp_left (hDrawn k)

/-- A step of one end. -/
theorem move {l : Label} {n n' : Node} (h : Follows N a b first f w) (hDrawn : ∀ k ∈ f.drawn, k ∈ f'.drawn)
    (hOld : (f.links (who a b l.side)).node ((N.pair a b).peerPub l.side) = some n)
    (hNew : (f'.links (who a b l.side)).node ((N.pair a b).peerPub l.side) = some n')
    (hOther : (f'.links (who a b l.side.other)).node ((N.pair a b).peerPub l.side.other) =
      (f.links (who a b l.side.other)).node ((N.pair a b).peerPub l.side.other))
    (hNext : (N.pair a b).nodeNext w l = n') (hRk : ∀ rk ∈ l.drawnRk, C.publicKey rk ∈ f'.drawn) :
    Follows N a b first f' ((N.pair a b).next w l) where
  node s := by
    rcases Side.eq_or_eq_other l.side s with rfl | rfl
    · rw [Pair.next_node_side, hNext, hNew]
      rfl
    · rw [Pair.next_node_other, hOther]
      exact h.node _
  drawn s k hk := by
    rcases Side.eq_or_eq_other l.side s with rfl | rfl
    · rw [Pair.next_drawn_side, List.mem_append, Option.mem_toList, Option.map_eq_some_iff] at hk
      left
      rcases hk with ⟨rk, hrk, rfl⟩ | hk
      · exact hRk rk hrk
      · rcases h.drawn _ k hk with hIn | ⟨hNone, -⟩
        · exact hDrawn k hIn
        · rw [hOld] at hNone
          cases hNone
    · rw [Pair.next_drawn_other] at hk
      rw [hOther]
      exact (h.drawn _ k hk).imp_left (hDrawn k)

/-- The first session of one end begins. -/
theorem begin {s : Side} {now : Instant} {d : Draw}
    (h : Follows N a b (Function.update first s (now, d)) f w) (hDrawn : ∀ k ∈ f.drawn, k ∈ f'.drawn)
    (hRk : C.publicKey d.rk ∈ f'.drawn)
    (hOld : (f.links (who a b s)).node ((N.pair a b).peerPub s) = none)
    (hNew : (f'.links (who a b s)).node ((N.pair a b).peerPub s) =
      some (.start ((N.pair a b).freshSession s now d.rk d.salt)))
    (hOther : (f'.links (who a b s.other)).node ((N.pair a b).peerPub s.other) =
      (f.links (who a b s.other)).node ((N.pair a b).peerPub s.other)) : Follows N a b first f' w where
  node t := by
    rcases Side.eq_or_eq_other s t with rfl | rfl
    · rw [h.node, hOld, hNew, Function.update_self]
      rfl
    · rw [h.node, hOther, Function.update_of_ne (Side.other_ne s)]
  drawn t k hk := by
    have hBefore := h.drawn t k hk
    rcases Side.eq_or_eq_other s t with rfl | rfl
    · rw [Function.update_self] at hBefore
      left
      rcases hBefore with hIn | ⟨-, rfl⟩
      · exact hDrawn k hIn
      · exact hRk
    · rw [Function.update_of_ne (Side.other_ne s)] at hBefore
      rw [hOther]
      exact hBefore.imp_left (hDrawn k)

end Follows

variable [DecidableEq ι]

/-- Where no session may end, a client that has had a session with the other still has it. -/
theorem kept_reach {p : Policy} (hNone : p.restarts = false) (h : N.machine.Reach (N.Allows p a b) f) (x : ι) :
    ∀ pk, N.IsEnd a b x pk → (f.links x).Kept pk := by
  refine contacts_reach (I := fun x l => ∀ pk, N.IsEnd a b x pk → l.Kept pk) ?_ ?_ ?_ h x
  · exact fun _ _ _ _ hn => nomatch hn
  · intro f x act hKept _ hGuard pk hEnd
    refine (hKept pk hEnd).next ?_
    rintro rfl
    have hAllowed : p.restarts = true := hGuard hEnd
    rw [hNone] at hAllowed
    cases hAllowed
  · exact fun _ _ _ _ hKept pk hEnd => (hKept pk hEnd).next nofun

/-- A routing key that is drawn is new to the two as well. -/
theorem Follows.fresh {first : Side → Instant × Draw} {w : World} {fl : Fabric.Label ι} {l : Label}
    (h : Follows N a b first f w) (hEn : N.machine.enabled f fl)
    (hFirst : ∀ s, C.publicKey (first s).2.rk ∉ (N.next f fl).drawn) (hRk : l.drawnRk = fl.drawnRk) :
    Pair.Fresh (C := C) w l := by
  intro rk hrk
  rw [hRk] at hrk
  have hNotDrawn : C.publicKey rk ∉ f.drawn := by
    cases fl with
    | act x act => exact hEn.2.2 rk hrk
    | deliver => cases hrk
  have hIn : C.publicKey rk ∈ (N.next f fl).drawn := by
    refine List.mem_append_left _ ?_
    rw [Option.mem_toList, Option.mem_def.mp hrk]
    rfl
  have hNew : ∀ s, C.publicKey rk ∉ w.drawn s := by
    intro s hs
    rcases h.drawn s _ hs with hOld | ⟨-, hEq⟩
    · exact hNotDrawn hOld
    · exact hFirst s (hEq ▸ hIn)
  exact ⟨hNew .left, hNew .right⟩

/-- What a client opens of another, the other sealed for it. -/
theorem sealed_by_peer (hC : C.Lawful) (hF : C.CollisionFree) {G : Fabric ι → Fabric.Label ι → Prop}
    (h : N.machine.Reach G f) {x y : ι} {pk q : RawKey} {n m : Node} {g : Sealing}
    (hn : (f.links x).node pk = some n) (hm : (f.links y).node q = some m) (hy : y ≠ x) (hg : g ∈ m.sealed)
    (hOpen : Node.Opens C n.dp.toKeyState g) : pk = (N.cfg y).localPub ∧ q = (N.cfg x).localPub := by
  have hHere : KeyFor (N.cfg x) C pk g.key := (bound_reach h x pk n hn).opens hC hOpen
  have hThere : KeyFor (N.cfg y) C q g.key := (bound_reach h y q m hm).sealedUnder g hg
  rw [N.localPub_eq, N.localPub_eq]
  rcases hHere.inj hF hThere with ⟨hSame, -⟩ | ⟨hSelf, hPeer⟩
  · rw [← N.localPub_eq, ← N.localPub_eq] at hSame
    exact absurd (N.distinct _ _ hSame).symm hy
  · exact ⟨hPeer, hSelf.symm⟩

/-- What one end opens of another client, the other end sealed. -/
theorem sealed_by_other (hC : C.Lawful) (hF : C.CollisionFree) {G : Fabric ι → Fabric.Label ι → Prop}
    (h : N.machine.Reach G f) {s : Side} {y : ι} {q : RawKey} {n m : Node} {g : Sealing}
    (hn : (f.links (who a b s)).node ((N.pair a b).peerPub s) = some n) (hm : (f.links y).node q = some m)
    (hy : y ≠ who a b s) (hg : g ∈ m.sealed) (hOpen : Node.Opens C n.dp.toKeyState g) :
    y = who a b s.other ∧ q = (N.pair a b).peerPub s.other := by
  obtain ⟨hPeer, hSelf⟩ := sealed_by_peer hC hF h hn hm hy hg hOpen
  rw [peerPub_pair, ← N.localPub_eq] at hPeer
  refine ⟨(N.distinct _ _ hPeer).symm, ?_⟩
  rw [peerPub_pair, Side.other_other, ← N.localPub_eq]
  exact hSelf

variable (N) in
/-- The two ends are as a run of the pair leaves them, whichever sessions the ends
that had none are to begin with. -/
def Matched (p : Policy) (a b : ι) (f : Fabric ι) : Prop :=
  ∀ first : Side → Instant × Draw, (∀ s, C.publicKey (first s).2.rk ∉ f.drawn) →
    (∀ s, C.publicKey (first s).2.rk ≠ C.publicKey (first s.other).2.rk) →
    ∃ w, (N.pair a b).machine.Reach (p.Allows C) w ∧ Follows N a b first f w

namespace Matched

variable {p : Policy}

theorem init (h : N.machine.init f) : N.Matched p a b f := by
  obtain ⟨hEmpty, -⟩ := h
  intro first _ hDistinct
  have hNone : ∀ s, (f.links (who a b s)).node ((N.pair a b).peerPub s) = none := by
    intro s
    rw [hEmpty]
    rfl
  refine ⟨⟨fun s => .start ((N.pair a b).freshSession s (first s).1 (first s).2.rk (first s).2.salt),
    fun s => [C.publicKey (first s).2.rk], fun _ => 0⟩, .init ⟨fun s => ⟨_, _, _, rfl, rfl⟩, ?_, fun _ => rfl⟩, ?_, ?_⟩
  · intro rk hrk hrk'
    obtain rfl := List.mem_singleton.mp hrk
    exact hDistinct .left (List.mem_singleton.mp hrk')
  · intro s
    rw [hNone]
    rfl
  · intro s k hk
    exact .inr ⟨hNone s, List.mem_singleton.mp hk⟩

omit [DecidableEq ι] in
/-- The two ends are left alone. -/
theorem stay {f' : Fabric ι} (h : N.Matched p a b f) (hDrawn : ∀ k ∈ f.drawn, k ∈ f'.drawn)
    (hNode : ∀ s, (f'.links (who a b s)).node ((N.pair a b).peerPub s) =
      (f.links (who a b s)).node ((N.pair a b).peerPub s)) : N.Matched p a b f' := by
  intro first hFresh hDistinct
  obtain ⟨w, hw, hFollows⟩ := h first (fun s hs => hFresh s (hDrawn _ hs)) hDistinct
  exact ⟨w, hw, hFollows.stay hDrawn hNode⟩

theorem drawn_next {l : Fabric.Label ι} : ∀ k ∈ f.drawn, k ∈ (N.next f l).drawn :=
  fun _ hk => List.mem_append_right _ hk

/-- A step that leaves the end that it is about as it is. -/
theorem same {l : Fabric.Label ι} (h : N.Matched p a b f) (hSame : N.contactsNext f l = f.links l.actor) :
    N.Matched p a b (N.next f l) := by
  refine h.stay drawn_next fun s => ?_
  by_cases hActor : who a b s = l.actor
  · rw [hActor, next_links_actor, hSame]
  · rw [next_links_ne hActor]

/-- The first session of an end. -/
theorem begin (hab : a ≠ b) {s : Side} {now : Instant} {d : Draw} (h : N.Matched p a b f)
    (hEn : C.publicKey d.rk ∉ f.drawn) (hNone : (f.links (who a b s)).node ((N.pair a b).peerPub s) = none) :
    N.Matched p a b (N.next f (.act (who a b s) (.create ((N.pair a b).peerPub s) now d))) := by
  intro first hFresh hDistinct
  have hs : (f.links (who a b s)).session ((N.pair a b).peerPub s) = none := by
    cases hs : (f.links (who a b s)).session ((N.pair a b).peerPub s) with
    | none => rfl
    | some n => exact absurd ((Contacts.node_of_session hs).symm.trans hNone) nofun
  have hRk : C.publicKey d.rk ∈
      (N.next f (.act (who a b s) (.create ((N.pair a b).peerPub s) now d))).drawn :=
    List.mem_append_left _ (List.mem_singleton_self _)
  have hFirst : ∀ t, C.publicKey (Function.update first s (now, d) t).2.rk ∉ f.drawn := by
    intro t
    rcases Side.eq_or_eq_other s t with rfl | rfl
    · rw [Function.update_self]
      exact hEn
    · rw [Function.update_of_ne (Side.other_ne s)]
      exact fun hIn => hFresh _ (drawn_next _ hIn)
  have hOthers : C.publicKey d.rk ≠ C.publicKey (first s.other).2.rk := fun hEq => hFresh s.other (hEq ▸ hRk)
  obtain ⟨w, hw, hFollows⟩ := h (Function.update first s (now, d)) hFirst (by
    intro t
    rcases Side.eq_or_eq_other s t with rfl | rfl
    · rw [Function.update_self, Function.update_of_ne (Side.other_ne t)]
      exact hOthers
    · rw [Side.other_other, Function.update_self, Function.update_of_ne (Side.other_ne s)]
      exact hOthers.symm)
  have hSelf : (N.next f (.act (who a b s) (.create ((N.pair a b).peerPub s) now d))).links (who a b s) =
      (f.links (who a b s)).next (N.cfg (who a b s)) C (.create ((N.pair a b).peerPub s) now d) := next_links_actor
  refine ⟨w, hw, hFollows.begin drawn_next hRk hNone ?_ ?_⟩
  · rw [← beginning_pair, hSelf, Contacts.node_create hs, if_pos rfl, hNone]
    rfl
  · rw [next_links_ne (who_other_ne hab s)]

/-- A step of the pair. -/
theorem move (hab : a ≠ b) {s : Side} {l : Fabric.Label ι} (l' : Label) {n n' : Node} (h : N.Matched p a b f)
    (hEn : N.machine.enabled f l) (hActor : l.actor = who a b s) (hSide : l'.side = s)
    (hDrawn : l'.drawnRk = l.drawnRk)
    (hOld : (f.links (who a b s)).node ((N.pair a b).peerPub s) = some n)
    (hNew : (N.contactsNext f l).node ((N.pair a b).peerPub s) = some n')
    (hStep : ∀ w : World, (∀ t m, (f.links (who a b t)).node ((N.pair a b).peerPub t) = some m → w.node t = m) →
      Pair.Enabled w l' ∧ p.Allows C w l' ∧ (N.pair a b).nodeNext w l' = n') :
    N.Matched p a b (N.next f l) := by
  subst hSide
  intro first hFresh hDistinct
  obtain ⟨w, hw, hFollows⟩ := h first (fun t ht => hFresh t (drawn_next _ ht)) hDistinct
  obtain ⟨hEnabled, hAllowed, hNext⟩ := hStep w (by
    intro t m hm
    rw [hFollows.node, hm]
    rfl)
  refine ⟨_, hw.step ⟨hEnabled, hFollows.fresh hEn hFresh hDrawn⟩ hAllowed,
    hFollows.move drawn_next hOld ?_ ?_ hNext ?_⟩
  · rw [← hActor, next_links_actor]
    exact hNew
  · rw [next_links_ne (hActor ▸ who_other_ne hab l'.side)]
  · intro rk hrk
    refine List.mem_append_left _ ?_
    rw [← hDrawn, Option.mem_def.mp hrk]
    exact List.mem_singleton_self _

/-- A client acts on an end. -/
theorem act (hab : a ≠ b) (hOrphans : p.orphans = false) {s : Side} {act : Act} (hReach : N.machine.Reach (N.Allows p a b) f)
    (h : N.Matched p a b f) (hEn : N.machine.enabled f (.act (who a b s) act))
    (hGuard : N.Allows p a b f (.act (who a b s) act)) (hPeer : act.peer = (N.pair a b).peerPub s) :
    N.Matched p a b (N.next f (.act (who a b s) act)) := by
  cases act with
  | create pk now d =>
    obtain rfl : pk = (N.pair a b).peerPub s := hPeer
    cases hs : (f.links (who a b s)).session ((N.pair a b).peerPub s) with
    | some n =>
      refine h.same ?_
      simp only [contactsNext, Contacts.next, Fabric.Label.actor, hs]
    | none =>
      cases hn : (f.links (who a b s)).node ((N.pair a b).peerPub s) with
      | none => exact h.begin hab (hEn.2.2 d.rk rfl) hn
      | some n =>
        -- it ended, so this is a restart
        have hRestarts : p.restarts = true := by
          cases hr : p.restarts with
          | true => rfl
          | false =>
            have hStill := kept_reach hr hReach _ _ (isEnd_who s) n hn
            rw [hs] at hStill
            cases hStill
        refine h.move hab (.restart s now d) hEn rfl rfl rfl hn
          ((Contacts.node_create hs).trans (if_pos rfl)) fun w hw => ⟨trivial, .of_quiet rfl fun _ => hRestarts, ?_⟩
        rw [hn, beginning_pair, Pair.nodeNext, hw s n hn]
        rfl
  | run pk e =>
    obtain rfl : pk = (N.pair a b).peerPub s := hPeer
    cases hs : (f.links (who a b s)).session ((N.pair a b).peerPub s) with
    | none =>
      refine h.same ?_
      simp only [contactsNext, Contacts.next, Fabric.Label.actor, hs]
    | some n =>
      have hn := Contacts.node_of_session hs
      refine h.move hab (.act s e) hEn rfl rfl rfl hn
        ((Contacts.node_run hs).trans (if_pos rfl)) fun w hw => ⟨hEn.1, .of_quiet rfl ?_, ?_⟩
      · intro hRestart
        cases hRestart
      rw [Pair.nodeNext, hw s n hn, cfg_pair]
  | remove pk =>
    refine h.stay drawn_next fun t => ?_
    by_cases hActor : who a b t = who a b s
    · obtain rfl := who_inj hab hActor
      rw [show (N.next f (.act (who a b t) (.remove pk))).links (who a b t) =
        (f.links (who a b t)).next (N.cfg (who a b t)) C (.remove pk) from next_links_actor]
      rfl
    · rw [next_links_ne hActor]
  | stale pk g =>
    obtain rfl : pk = (N.pair a b).peerPub s := hPeer
    have hAllowed : p.orphans = true := hGuard (isEnd_who s)
    rw [hOrphans] at hAllowed
    cases hAllowed

/-- A frame arrives at an end. -/
theorem deliver (hC : C.Lawful) (hF : C.CollisionFree) (hab : a ≠ b) {s : Side} {y : ι} {q : RawKey} {i : Nat}
    {now : Instant} {d : Draw} (hReach : N.machine.Reach (N.Allows p a b) f) (h : N.Matched p a b f)
    (hEn : N.machine.enabled f (.deliver (who a b s) ((N.pair a b).peerPub s) y q i now d))
    (hGuard : N.Allows p a b f (.deliver (who a b s) ((N.pair a b).peerPub s) y q i now d)) :
    N.Matched p a b (N.next f (.deliver (who a b s) ((N.pair a b).peerPub s) y q i now d)) := by
  obtain ⟨hy, hSome⟩ := id hEn
  obtain ⟨g, hg⟩ := Option.isSome_iff_exists.mp hSome
  have hReceived : N.contactsNext f (.deliver (who a b s) ((N.pair a b).peerPub s) y q i now d) =
      (f.links (who a b s)).receive (N.cfg (who a b s)) C ((N.pair a b).peerPub s) now d (g.ct C) := by
    simp only [contactsNext, hg]
  rcases Contacts.receive_cases (N.cfg (who a b s)) hC (f.links (who a b s)) ((N.pair a b).peerPub s) now d g with
    hDropped | ⟨n, e, hs, hOpen, he, hRan⟩
  · exact h.same (hReceived.trans hDropped)
  · have hn := Contacts.node_of_session hs
    obtain ⟨m, hm, hi⟩ := Option.bind_eq_some_iff.mp hg
    obtain ⟨rfl, rfl⟩ := sealed_by_other hC hF hReach hn hm hy (List.mem_of_getElem? hi) hOpen
    have hNew : (N.contactsNext f (.deliver (who a b s) ((N.pair a b).peerPub s) (who a b s.other)
        ((N.pair a b).peerPub s.other) i now d)).node ((N.pair a b).peerPub s) =
          some (n.step (N.cfg (who a b s)) C e) := by
      rw [hReceived, hRan]
      exact (Contacts.node_run hs).trans (if_pos rfl)
    refine h.move hab (.deliver s i now d) hEn rfl rfl rfl hn hNew fun w hw => ?_
    have hSealed : (w.node s.other).sealed[i]? = some g := by
      rw [hw s.other m hm]
      exact hi
    refine ⟨(List.getElem?_eq_some_iff.mp hSealed).1, ⟨nofun, ?_⟩, ?_⟩
    · intro rk hrk hEst hOther
      rw [show (Label.deliver s i now d).side = s from rfl, hw s n hn] at hEst hOther ⊢
      refine hGuard (isEnd_who s) g n rk hg hs ?_ hEst hOther
      simp only [Pair.arrivingHello, hSealed, Option.bind_eq_bind, Option.bind_some] at hrk
      rw [hw s n hn] at hrk
      exact hrk
    · simp only [Pair.nodeNext, hSealed]
      rw [hw s n hn, cfg_pair]
      exact Node.receive_of_opens hOpen he

end Matched

/--
**Two clients are a pair.** Among any number of clients the sessions of two of
them with each other run as those of a `Pair`, whatever the others do.
-/
theorem pair_run (hC : C.Lawful) (hF : C.CollisionFree) (hab : a ≠ b) {p : Policy} (hOrphans : p.orphans = false)
    (h : N.machine.Reach (N.Allows p a b) f) : N.Matched p a b f := by
  induction h with
  | init hInit => exact .init hInit
  | @step f l hReach hEn hGuard ih =>
    by_cases hEnd : ∃ s, l.actor = who a b s ∧ l.peer = (N.pair a b).peerPub s
    · obtain ⟨s, hActor, hPeer⟩ := hEnd
      cases l with
      | act x act =>
        obtain rfl : x = who a b s := hActor
        exact ih.act hab hOrphans hReach hEn hGuard hPeer
      | deliver x pk y q i now d =>
        obtain rfl : x = who a b s := hActor
        obtain rfl : pk = (N.pair a b).peerPub s := hPeer
        exact ih.deliver hC hF hab hReach hEn hGuard
    · -- the step is about the session of another client, or with another peer
      refine ih.stay Matched.drawn_next fun s => ?_
      show ((N.next f l).links (who a b s)).node _ = _
      by_cases hActor : who a b s = l.actor
      · rw [hActor, next_links_actor]
        have hPeer : (N.pair a b).peerPub s ≠ l.peer := fun hEq => hEnd ⟨s, hActor.symm, hEq.symm⟩
        cases l with
        | act x act => exact Contacts.node_next_ne hPeer
        | deliver x pk y q i now d =>
          simp only [contactsNext]
          split
          · rfl
          · exact Contacts.node_receive_ne hPeer
      · rw [next_links_ne hActor]

end Parties

end LinkMesh
