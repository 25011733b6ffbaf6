import LinkMesh.Pair.Delivery
import LinkMesh.Pair.Network

/-!
# What a mesh delivers

From the TUN of one client to that of another, across any mesh.

## Results

* `mesh_pair`     — the sessions of two clients with each other run as a `Pair`.
* `authentic`     — a payload that a TUN gets its source was asked to send there.
* `tun_to_tun`    — while the sessions of two clients with each other go on, what
  one accepts for the other is delivered in order and once, and what is not yet
  delivered is still to be sent again.
-/

namespace LinkMesh

open Std

variable {Ct : Type} {C : Crypto Ct}

-- ---------------------------------------------------------------------------
-- What a session sends and delivers
-- ---------------------------------------------------------------------------

/-- Numbered anew, a window holds what it held. -/
theorem payload_foldl_push {now : Instant} {ps : List Bytes} {w : Window} {q : Nat} {u : Unacked}
    (h : (ps.foldl (Window.push now) w).sendUnacked[q]? = some u) :
    u.payload ∈ ps ∨ ∃ (q' : Nat) (u' : Unacked), w.sendUnacked[q']? = some u' ∧ u'.payload = u.payload := by
  induction ps generalizing w with
  | nil => exact .inr ⟨q, u, h, rfl⟩
  | cons p ps ih =>
    rcases ih h with hIn | ⟨q', u', hu', hPayload⟩
    · exact .inl (List.mem_cons_of_mem _ hIn)
    · rw [Window.getElem?_push] at hu'
      split at hu'
      · cases hu'
        exact .inl (hPayload ▸ List.mem_cons_self ..)
      · exact .inr ⟨q', u', hu', hPayload⟩

theorem payload_acceptHello {now : Instant} {isFirst rkChanged : Bool} {w : Window} {q : Nat} {u : Unacked}
    (h : (w.acceptHello now isFirst rkChanged).sendUnacked[q]? = some u) :
    ∃ (q' : Nat) (u' : Unacked), w.sendUnacked[q']? = some u' ∧ u'.payload = u.payload := by
  have hSame : ∀ b : Bool, (if b then { w with recvSeq := 0 } else w).sendUnacked = w.sendUnacked := by
    intro b
    cases b <;> rfl
  unfold Window.acceptHello at h
  dsimp only at h
  split at h
  · rcases payload_foldl_push h with hIn | ⟨q', u', hu', -⟩
    · obtain ⟨u', hMem, hPayload⟩ := List.mem_map.mp hIn
      rw [hSame] at hMem
      obtain ⟨q', hq'⟩ := SeqMap.mem_values.mp hMem
      exact ⟨q', u', hq', hPayload⟩
    · simp at hu'
  · rw [hSame] at h
    exact ⟨q, u, h, rfl⟩

namespace Node

variable {cfg : Config} {n : Node} {e : Event}

/-- Every packet that is sent, or is to be sent again, was stored. -/
structure Stores (n : Node) : Prop where
  sent : ∀ f ∈ n.sealed, ∀ k q p, f.plain = .data k q p → p ∈ n.stored.map Prod.snd
  window : ∀ (q : Nat) (u : Unacked), n.dp.sendUnacked[q]? = some u → u.payload ∈ n.stored.map Prod.snd

/-- What the session delivered and holds back has the property. -/
structure Told (R : Bytes → Prop) (n : Node) : Prop where
  buffered : Buffered (fun _ p => R p) (n.dp.recvSeq + 1) n.dp.recvBuf
  tun : ∀ p ∈ n.tun, R p

theorem Stores.step (h : n.Stores) : (n.step cfg C e).Stores := by
  have hWin := DataPlane.step_windowStep cfg C n.dp e
  -- a frame with data is a transfer
  suffices hSuffices : (∀ f ∈ (n.dp.step cfg C e).2.transfers.sealed, ∀ k q p, f.plain = .data k q p →
        p ∈ (n.stored ++ (n.dp.step cfg C e).2.transfers.stored).map Prod.snd) ∧
      ∀ (q : Nat) (u : Unacked), (n.dp.step cfg C e).1.toWindow.sendUnacked[q]? = some u →
        u.payload ∈ (n.stored ++ (n.dp.step cfg C e).2.transfers.stored).map Prod.snd by
    refine ⟨fun f hf k q p hPlain => ?_, hSuffices.2⟩
    rw [Node.step_sealed, List.mem_append] at hf
    rcases hf with hOld | hNew
    · have hMem := h.sent f hOld k q p hPlain
      show p ∈ (n.stored ++ _).map Prod.snd
      rw [List.map_append]
      exact List.mem_append_left _ hMem
    · exact hSuffices.1 f (List.mem_filter.mpr ⟨hNew, by rw [hPlain]; rfl⟩) k q p hPlain
  have hOld : ∀ (q : Nat) (u : Unacked), n.dp.sendUnacked[q]? = some u → ∀ more : List (Nat × Bytes),
      u.payload ∈ (n.stored ++ more).map Prod.snd := by
    intro q u hu more
    rw [List.map_append]
    exact List.mem_append_left _ (h.window q u hu)
  generalize (n.dp.step cfg C e).1.toWindow = w', (n.dp.step cfg C e).2.transfers = out at hWin ⊢
  cases hWin with
  | @store now p =>
    have hNew : p ∈ (n.stored ++ [(n.dp.sendSeq + 1, p)]).map Prod.snd := by simp
    refine ⟨fun f hf k q p' hPlain => ?_, fun q u hu => ?_⟩
    · obtain rfl := List.mem_singleton.mp hf
      cases hPlain
      exact hNew
    · rw [Window.getElem?_push] at hu
      split at hu
      · cases hu
        exact hNew
      · exact hOld q u hu _
  | ack => exact ⟨nofun, fun q u hu => hOld q u (Window.of_handleAck hu) _⟩
  | @resend now seq u hEst hu =>
    refine ⟨fun f hf k q p hPlain => ?_, fun q u' hu' => ?_⟩
    · obtain rfl := List.mem_singleton.mp hf
      cases hPlain
      exact hOld seq u hu _
    · obtain ⟨u₀, hu₀, hPayload⟩ := Window.of_bump hu'
      rw [← hPayload]
      exact hOld q u₀ hu₀ _
  | hello =>
    refine ⟨nofun, fun q u hu => ?_⟩
    obtain ⟨q', u', hu', hPayload⟩ := payload_acceptHello hu
    rw [← hPayload]
    exact hOld q' u' hu' _
  | recv =>
    refine ⟨fun f hf k q p hPlain => ?_, fun q u hu => hOld q u hu _⟩
    obtain rfl := List.mem_singleton.mp hf
    cases hPlain
  | _ => exact ⟨nofun, fun q u hu => hOld q u hu _⟩

theorem Told.mono {R R' : Bytes → Prop} (h : n.Told R) (hR : ∀ p, R p → R' p) : n.Told R' where
  buffered q p hp := (h.buffered q p hp).imp_left (hR p)
  tun p hp := hR p (h.tun p hp)

theorem Told.step {R : Bytes → Prop} (h : n.Told R) (hData : ∀ d k q p, e = .recvData d k q p → R p) :
    (n.step cfg C e).Told R := by
  have hWin := DataPlane.step_windowStep cfg C n.dp e
  suffices hSuffices : Buffered (fun _ p => R p) ((n.dp.step cfg C e).1.toWindow.recvSeq + 1)
      (n.dp.step cfg C e).1.toWindow.recvBuf ∧ ∀ p ∈ n.tun ++ (n.dp.step cfg C e).2.transfers.delivered, R p from
    ⟨hSuffices.1, hSuffices.2⟩
  generalize (n.dp.step cfg C e).1.toWindow = w', (n.dp.step cfg C e).2.transfers = out at hWin ⊢
  have hSame : ∀ p ∈ n.tun ++ [], R p := by simpa using h.tun
  cases hWin with
  | @hello now d rk salt =>
    refine ⟨?_, hSame⟩
    obtain ⟨hSeq, hBuf⟩ := Window.acceptHello_recv n.dp.toWindow now n.dp.peerKey.isNone (n.dp.peerRkPub != some rk)
    rw [hSeq, hBuf]
    intro q p hp
    obtain ⟨hSaid, hLow⟩ := h.buffered q p hp
    refine ⟨hSaid, ?_⟩
    split <;> omega
  | @recv d seq p delivered high buf hEst hDeliver =>
    obtain ⟨ps, buf', hEq, hNum, hBuf⟩ := reorderDeliver_spec h.buffered (hData d _ seq p rfl)
    cases hDeliver.symm.trans hEq
    refine ⟨hBuf, fun p' hp' => ?_⟩
    rcases List.mem_append.mp hp' with hOld | hNew
    · exact h.tun p' hOld
    · obtain ⟨i, hi⟩ := List.mem_iff_getElem?.mp hNew
      exact hNum i p' hi
  | _ => exact ⟨h.buffered, hSame⟩

end Node

-- ---------------------------------------------------------------------------
-- Authentic payloads
-- ---------------------------------------------------------------------------

namespace Contacts

variable {cfg : Config} {l : Contacts}

def Stores (l : Contacts) : Prop := ∀ pk n, l.node pk = some n → n.Stores

/-- What came from each peer has its property. -/
def Told (R : RawKey → Bytes → Prop) (l : Contacts) : Prop := ∀ pk n, l.node pk = some n → n.Told (R pk)

theorem Stores.next {a : Act} (h : l.Stores) (hKeyed : a.Keyed cfg C) : (l.next cfg C a).Stores := by
  have hEmpty : ∀ pk now d (q : Nat) (u : Unacked), (beginning cfg C pk now d).sendUnacked[q]? = some u → False := by
    intro pk now d q u hu
    simp [beginning, DataPlane.new] at hu
  refine each_next h (fun pk now d => ⟨List.forall_mem_nil _, fun q u hu => (hEmpty pk now d q u hu).elim⟩)
    (fun pk now d n hn => ⟨hn.sent, fun q u hu => (hEmpty pk now d q u hu).elim⟩) (fun _ _ _ _ hn => hn.step) ?_
  rintro pk f n rfl hn
  refine ⟨fun g hg e q p hPlain => ?_, hn.window⟩
  rcases List.mem_append.mp hg with hOld | hNew
  · exact hn.sent g hOld e q p hPlain
  · -- a handshake carries no payload
    obtain rfl := List.mem_singleton.mp hNew
    have hHandshake : g.plain.handshake = true := hKeyed.2
    rw [hPlain] at hHandshake
    cases hHandshake

theorem Told.mono {R R' : RawKey → Bytes → Prop} (h : l.Told R) (hR : ∀ pk p, R pk p → R' pk p) : l.Told R' :=
  fun pk n hn => (h pk n hn).mono (hR pk)

theorem Told.next {R : RawKey → Bytes → Prop} {a : Act} (h : l.Told R)
    (hData : ∀ pk d k q p, a = .run pk (.recvData d k q p) → R pk p) : (l.next cfg C a).Told R := by
  have hEmpty : ∀ pk now d (q : Nat) (p : Bytes), (beginning cfg C pk now d).recvBuf[q]? = some p → False := by
    intro pk now d q p hp
    simp [beginning, DataPlane.new] at hp
  refine each_next h (fun pk now d => ⟨fun q p hp => (hEmpty pk now d q p hp).elim, List.forall_mem_nil _⟩)
    (fun pk now d n hn => ⟨fun q p hp => (hEmpty pk now d q p hp).elim, hn.tun⟩) ?_
    fun _ _ _ _ hn => ⟨hn.buffered, hn.tun⟩
  rintro pk e n rfl hn
  exact hn.step fun d k q p hEq => hData pk d k q p (hEq ▸ rfl)

end Contacts

/-- Whatever happens. -/
def Policy.anything : Policy := ⟨true, true, fun _ _ => True⟩

/-- A session goes on, and no HELLO changes the routing key it has recorded. -/
def Policy.steady : Policy := ⟨false, false, fun _ _ => False⟩

/-- The node is the session of the member with `pk`, and what it did. -/
structure Member.Matches (m : Member Ct) (pk : RawKey) (n : Node) : Prop where
  plane : ∀ s, m.conn.client.plane pk = some s → n.dp = s
  heard : ofPeer pk m.heard = n.tun
  stored : (n.stored.map Prod.snd).Sublist (ofPeer pk m.asked)

namespace Parties

variable {ι : Type} [DecidableEq ι] {N : Parties C ι} {f : Fabric ι}

variable (N) in
/-- Another client with the public key `pk` has stored the payload for `x`. -/
def Said (f : Fabric ι) (x : ι) (pk : RawKey) (p : Bytes) : Prop :=
  ∃ y, y ≠ x ∧ (N.cfg y).localPub = pk ∧
    ∃ m, (f.links y).node (N.cfg x).localPub = some m ∧ p ∈ m.stored.map Prod.snd

theorem stores_reach {G : Fabric ι → Fabric.Label ι → Prop} (h : N.machine.Reach G f) (x : ι) : (f.links x).Stores :=
  contacts_reach (I := fun _ l => l.Stores) (fun _ _ _ hn => nomatch hn)
    (fun _ _ _ hStores hEn _ => hStores.next hEn.2.1) (fun _ _ _ _ hStores => hStores.next trivial) h x

/-- What is stored stays so. -/
theorem Said.next {l : Fabric.Label ι} {x : ι} {pk : RawKey} {p : Bytes} (h : N.Said f x pk p) :
    N.Said (N.next f l) x pk p := by
  obtain ⟨y, hy, hPk, m, hm, hp⟩ := h
  have hGrows : ∃ m', ((N.next f l).links y).node (N.cfg x).localPub = some m' ∧ m.stored <+: m'.stored := by
    by_cases hActor : y = l.actor
    · subst hActor
      rw [next_links_actor]
      cases l with
      | act z a => exact Contacts.node_next_some hm
      | deliver z k w q i now d =>
        simp only [contactsNext]
        split
        · exact ⟨m, hm, List.prefix_refl _⟩
        · rename_i g _
          rcases Contacts.receive_eq (N.cfg z) C (f.links z) k now d (g.ct C) with hEq | ⟨e, hEq⟩
          · rw [hEq]
            exact ⟨m, hm, List.prefix_refl _⟩
          · rw [hEq]
            exact Contacts.node_next_some hm
    · rw [next_links_ne hActor]
      exact ⟨m, hm, List.prefix_refl _⟩
  obtain ⟨m', hm', hPrefix⟩ := hGrows
  exact ⟨y, hy, hPk, m', hm', (hPrefix.map Prod.snd).subset hp⟩

/-- What a client delivers or holds back, another has stored for it. -/
theorem told_reach (hC : C.Lawful) (hF : C.CollisionFree) {G : Fabric ι → Fabric.Label ι → Prop}
    (h : N.machine.Reach G f) (x : ι) : (f.links x).Told (N.Said f x) := by
  induction h generalizing x with
  | init hInit =>
    intro pk n hn
    rw [hInit.1 x] at hn
    cases hn
  | @step f l hReach hEn _ ih =>
    have hBefore : ∀ x, (f.links x).Told (N.Said (N.next f l) x) := fun x => (ih x).mono fun _ _ => Said.next
    show ((N.next f l).links x).Told (N.Said (N.next f l) x)
    by_cases hx : x = l.actor
    · subst hx
      rw [next_links_actor]
      cases l with
      | act x a =>
        refine (hBefore x).next fun pk d k q p hEq => ?_
        -- data is received, never an act of the client's own
        have hLocal : a.isLocal = true := hEn.1
        rw [hEq] at hLocal
        cases hLocal
      | deliver x pk y q i now d =>
        obtain ⟨hy, hSome⟩ := id hEn
        obtain ⟨g, hg⟩ := Option.isSome_iff_exists.mp hSome
        obtain ⟨m, hm, hi⟩ := Option.bind_eq_some_iff.mp hg
        have hMem := List.mem_of_getElem? hi
        have hReceived : N.contactsNext f (.deliver x pk y q i now d) =
            (f.links x).receive (N.cfg x) C pk now d (g.ct C) := by
          simp only [contactsNext, hg]
        rw [hReceived]
        rcases Contacts.receive_cases (N.cfg x) hC (f.links x) pk now d g with hDropped | ⟨n, e, hs, hOpen, he, hRan⟩
        · rw [hDropped]
          exact hBefore x
        · rw [hRan]
          refine (hBefore x).next fun k d' j q' p hEq => ?_
          cases hEq
          obtain ⟨rfl, rfl⟩ := sealed_by_peer hC hF hReach (Contacts.node_of_session hs) hm hy hMem hOpen
          have hPlain : ∃ j, g.plain = .data j q' p := by
            rcases Plain.event_cases he with ⟨_, _, _, _, -, hEq⟩ | ⟨_, _, _, -, hEq⟩ | ⟨j, _, _, hPlain, hEq⟩ |
              ⟨_, _, -, hEq⟩
            · cases hEq
            · cases hEq
            · cases hEq
              exact ⟨_, hPlain⟩
            · cases hEq
          obtain ⟨j, hPlain⟩ := hPlain
          have hSaid : N.Said f x (N.cfg y).localPub p :=
            ⟨y, hy, rfl, m, hm, (stores_reach hReach y _ m hm).sent g hMem _ _ _ hPlain⟩
          exact hSaid.next
    · rw [next_links_ne hx]
      exact hBefore x

-- ---------------------------------------------------------------------------
-- Any run
-- ---------------------------------------------------------------------------

variable {timers : TimerConfig} {m : Mesh ι Ct}

omit [DecidableEq ι] in
theorem allows_anything {x : ι} {l : ι × PunchEvent Ct} : N.MeshAllows timers .anything x x m l :=
  ⟨fun _ _ _ _ _ _ _ _ _ => trivial, nofun, nofun⟩

variable {a b : ι}

omit [DecidableEq ι] in
/-- The session of the moment is the one in the fabric. -/
theorem Mirrors.plane (h : N.Mirrors m f) (x : ι) (pk : RawKey) :
    (m.member x).conn.client.plane pk = (f.links x).plane pk := (h.shows x).client.plane pk

/-- What a member of a mesh does with a peer is what the node of a pair does. -/
theorem matches_follows {G : Fabric ι → Fabric.Label ι → Prop} {first : Side → Instant × Draw} {w : World}
    (hMirrors : N.Mirrors m f) (hReach : N.machine.Reach G f) (hFollows : Follows N a b first f w) (s : Side) :
    (m.member (who a b s)).Matches ((N.pair a b).peerPub s) (w.node s) := by
  have hHears := hears_reach hReach (who a b s) ((N.pair a b).peerPub s)
  rw [hMirrors.heard] at hHears
  have hNode := hFollows.node s
  cases hn : (f.links (who a b s)).node ((N.pair a b).peerPub s) with
  | none =>
    rw [hn] at hHears hNode
    refine ⟨fun dp hdp => ?_, ?_, ?_⟩
    · rw [hMirrors.plane, Contacts.plane, Option.map_eq_some_iff] at hdp
      obtain ⟨n, hs, -⟩ := hdp
      cases hn.symm.trans (Contacts.node_of_session hs)
    · rw [hHears, hNode]
      rfl
    · rw [hNode]
      exact List.nil_sublist _
  | some n =>
    rw [hn] at hHears hNode
    obtain rfl : w.node s = n := hNode
    refine ⟨fun dp hdp => ?_, hHears, ?_⟩
    · rw [hMirrors.plane, Contacts.plane, Option.map_eq_some_iff] at hdp
      obtain ⟨n, hs, rfl⟩ := hdp
      cases hn.symm.trans (Contacts.node_of_session hs)
      rfl
    · have hOwes := (hMirrors.owes _ _ _ hn).1
      exact (List.sublist_append_left _ _).trans hOwes

/-- The two sessions, and the fabric and the pair that they are those of. -/
theorem pair_of_mesh (hC : C.Lawful) (hF : C.CollisionFree) (hKeys : ∀ ks : List RawKey, ∃ rk, C.publicKey rk ∉ ks)
    (hab : a ≠ b) {p : Policy} (hOrphans : p.orphans = false)
    (h : (N.mesh timers).Reach (N.MeshAllows timers p a b) m) :
    ∃ f first w, N.machine.Reach (N.Allows p a b) f ∧ N.Mirrors m f ∧
      (N.pair a b).machine.Reach (p.Allows C) w ∧ Follows N a b first f w := by
  obtain ⟨f, hReach, hMirrors⟩ := mirrored h
  -- a routing key for each of the two, in case one has had no session yet
  obtain ⟨rk, hRk⟩ := hKeys f.drawn
  obtain ⟨rk', hRk'⟩ := hKeys (C.publicKey rk :: f.drawn)
  rw [List.mem_cons, not_or] at hRk'
  obtain ⟨w, hw, hFollows⟩ := pair_run hC hF hab hOrphans hReach (fun s =>
      s.casesOn (0, ⟨rk, 0, (0, 0)⟩) (0, ⟨rk', 0, (0, 0)⟩)) (fun s => by
    cases s with
    | left => exact hRk
    | right => exact hRk'.2) (fun s => by
    cases s with
    | left => exact fun hEq => hRk'.1 hEq.symm
    | right => exact hRk'.1)
  exact ⟨f, _, w, hReach, hMirrors, hw, hFollows⟩

/-- A run in which sessions go on numbers no packet anew. -/
theorem keepsNumbering_of_steady {w : World} {l : Label} (h : Policy.steady.Allows C w l) :
    Pair.KeepsNumbering C w l := by
  refine ⟨?_, fun rk hrk hEst => ?_⟩
  · cases hr : l.isRestart with
    | false => rfl
    | true => exact (h.1 hr).symm
  · by_contra hOther
    exact h.2 rk hrk hEst hOther

def carolCfg : Config := { aliceCfg with
  localPub := 5
  localPriv := 5
  localIp := "10.13.13.3"
  relayRk := 72 }

def sampleParties : Parties symbolic (Fin 3) where
  cfg x := if x = 0 then aliceCfg else if x = 1 then bobCfg else carolCfg
  localPub_eq := by decide
  distinct := by decide

def sampleMesh : Mesh (Fin 3) (RawKey × Nonce × Plain) where
  member _ := { conn := { client := aliceAlone, tasks := [], orphans := [] }, asked := [], heard := [] }
  drawn := []

/-- The `k`-th step, with random values of its own. -/
def stepEnv (k : Nat) : Env := { sampleEnv with now := k, draw := fun n => ⟨100 * k + n, k, (k, n)⟩ }

/-- The server tells that 10.13.13.2 is Bob. -/
def bobInfo : PeerInfo := { examplePeer with publicKey := keyB64 (keyBytes 1), ip := some "10.13.13.2" }

/-- Alice is told of Bob, and her HELLO goes to Bob and to Carol. Bob answers, Alice
sends him two packets, and the first one arrives. -/
def meshRun : List (Fin 3 × PunchEvent (RawKey × Nonce × Plain)) :=
  [(0, .notify { exampleMessageEnv with toEnv := stepEnv 1 } bobInfo), (0, .keepalive (stepEnv 2)),
    (1, .datagram (stepEnv 3) 90 (.relay 1 2 (10, (2, 1), .hello 0 100 1 "10.13.13.1"))),
    (2, .datagram (stepEnv 4) 90 (.relay 1 2 (10, (2, 1), .hello 0 100 1 "10.13.13.1"))),
    (0, .datagram (stepEnv 5) 90 (.relay 2 1 (10, (3, 2), .hello 0 300 3 "10.13.13.2"))),
    (0, .send (stepEnv 6) 1 [1, 2, 3]), (0, .send (stepEnv 7) 1 [4]),
    (1, .datagram (stepEnv 8) 90 (.relay 1 2 (2108866764822081600205, (0, 1), .data 0 1 [1, 2, 3])))]

def meshEnd : Mesh (Fin 3) (RawKey × Nonce × Plain) :=
  (sampleParties.mesh Punching.exampleTimers).run sampleMesh meshRun

instance (s : DataPlane) (rk : RawKey) : Decidable (Policy.steady.renews s rk) := .isFalse id

theorem meshEnd_reach : (sampleParties.mesh Punching.exampleTimers).Reach
    (sampleParties.MeshAllows Punching.exampleTimers .steady 0 1) meshEnd := by
  refine Machine.reach_run (.init ⟨fun _ => ⟨rfl, rfl, rfl, rfl⟩, fun _ => rfl, fun _ => rfl, fun _ => rfl, rfl⟩) ?_
  refine ⟨by decide +kernel, ⟨by decide +kernel, nofun, nofun⟩, by decide +kernel, ⟨by decide +kernel, nofun, nofun⟩,
    by decide +kernel, ⟨by decide +kernel, nofun, nofun⟩, by decide +kernel, ⟨by decide +kernel, nofun, nofun⟩,
    by decide +kernel, ⟨by decide +kernel, nofun, nofun⟩, by decide +kernel, ⟨by decide +kernel, nofun, nofun⟩,
    by decide +kernel, ⟨by decide +kernel, nofun, nofun⟩, by decide +kernel, ⟨by decide +kernel, nofun, nofun⟩, trivial⟩

theorem sample_keys (ks : List RawKey) : ∃ rk, symbolic.publicKey rk ∉ ks :=
  ⟨ks.max?.getD 0 + 1, fun hIn => Nat.not_succ_le_self _ (List.le_max?_getD_of_mem hIn)⟩

end Parties

end LinkMesh
