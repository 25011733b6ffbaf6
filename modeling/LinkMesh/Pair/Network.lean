import LinkMesh.Pair.Connections

/-!
# A mesh of clients

Any number of clients as the code runs them, each with its connection and its
punching tasks, over a channel that loses, duplicates and reorders: a datagram may
hold any ciphertexts that other clients have sent, in any frame, from any address
and any number of times, beside whatever does not open. What a client sent is not
returned to it.

Seen from its contacts every step of the mesh is a run of acts and received frames,
so of any two clients the sessions with each other are those of a `Pair`.

## Results

* `mirrored` — the contacts of the clients run as a fabric does.
-/

namespace LinkMesh

variable {Ct : Type} {C : Crypto Ct}

-- ---------------------------------------------------------------------------
-- The machine
-- ---------------------------------------------------------------------------

/-- A client, the packets it was asked to send, each with its peer, and those it
handed to the TUN, each with its source. -/
structure Member (Ct : Type) where
  conn : Punching Ct
  asked : List (RawKey × Bytes)
  heard : List (RawKey × Bytes)

def Member.next (cfg : Config) (C : Crypto Ct) (timers : TimerConfig) (m : Member Ct) (e : PunchEvent Ct) :
    Member Ct where
  conn := m.conn.next cfg C timers e
  asked := m.asked ++ e.asked cfg m.conn.client
  heard := m.heard ++ e.heard cfg C m.conn.client

/-- The members, and the public halves of the routing keys drawn. -/
structure Mesh (ι Ct : Type) where
  member : ι → Member Ct
  drawn : List RawKey

namespace Mesh

variable {ι : Type}

/-- Another client has sent the ciphertext. -/
def FromOther (m : Mesh ι Ct) (x : ι) (ct : Ct) : Prop :=
  ∃ y, y ≠ x ∧ ∃ d ∈ (m.member y).conn.client.sent, ct ∈ d.2.cts

end Mesh

namespace Parties

variable {ι : Type} [DecidableEq ι] (N : Parties C ι) (timers : TimerConfig)

/-- The public halves of the routing keys that the step draws. -/
def draws (m : Mesh ι Ct) (l : ι × PunchEvent Ct) : List RawKey :=
  (l.2.rks (m.member l.1).conn.client ((m.member l.1).conn.next (N.cfg l.1) C timers l.2).client).map C.publicKey

def meshNext (m : Mesh ι Ct) (l : ι × PunchEvent Ct) : Mesh ι Ct where
  member := Function.update m.member l.1 ((m.member l.1).next (N.cfg l.1) C timers l.2)
  drawn := N.draws timers m l ++ m.drawn

/-- What opens of a datagram another client has sent, and a routing key is drawn once. -/
structure MeshEnabled (m : Mesh ι Ct) (l : ι × PunchEvent Ct) : Prop where
  honest : ∀ a ∈ l.2.incoming (N.cfg l.1) C (m.member l.1).conn.client,
    m.FromOther l.1 a.ct ∨ opened (N.cfg l.1) C a.pk a.ct a.client = none
  nodup : (N.draws timers m l).Nodup
  fresh : ∀ k ∈ N.draws timers m l, k ∉ m.drawn

/-- Clients that have done nothing yet. -/
structure MeshInit (m : Mesh ι Ct) : Prop where
  conn : ∀ x, (Punching.machine (N.cfg x) C timers).init (m.member x).conn
  tun : ∀ x, (m.member x).conn.client.tun = []
  asked : ∀ x, (m.member x).asked = []
  heard : ∀ x, (m.member x).heard = []
  drawn : m.drawn = []

def mesh : Machine (Mesh ι Ct) (ι × PunchEvent Ct) where
  init := N.MeshInit timers
  enabled := N.MeshEnabled timers
  next := N.meshNext timers

/-- A policy as a guard on the runs of a mesh: the sessions of `a` and `b` with each
other are renewed as it allows, and no task goes on with one that ended unless it may. -/
structure MeshAllows (p : Policy) (a b : ι) (m : Mesh ι Ct) (l : ι × PunchEvent Ct) : Prop where
  renews : ∀ i ∈ l.2.incoming (N.cfg l.1) C (m.member l.1).conn.client, N.IsEnd a b l.1 i.pk →
    ∀ rk ∈ (opened (N.cfg l.1) C i.pk i.ct i.client).bind Plain.helloRk, ∀ s ∈ i.client.plane i.pk,
      s.established = true → s.peerRkPub ≠ some rk → p.renews s rk
  restarts : p.restarts = false → ∀ now, l.2 = .prune now → ∀ pk, N.IsEnd a b l.1 pk →
    pk ∈ (m.member l.1).conn.client.peers →
      pk ∈ ((m.member l.1).conn.client.prunePeers now timers.punchTimeoutMs).peers
  orphans : p.orphans = false → ∀ env i probeError t, l.2 = .punch env i probeError → (m.member l.1).conn.tasks[i]? = some t →
    N.IsEnd a b l.1 t.pk → t.held = none

instance {n : Nat} [DecidableEq Ct] (m : Mesh (Fin n) Ct) (x : Fin n) (ct : Ct) : Decidable (m.FromOther x ct) :=
  inferInstanceAs (Decidable (∃ y, y ≠ x ∧ ∃ d ∈ (m.member y).conn.client.sent, ct ∈ d.2.cts))

instance {n : Nat} [DecidableEq Ct] (N : Parties C (Fin n)) (m : Mesh (Fin n) Ct) (l : Fin n × PunchEvent Ct) :
    Decidable (N.MeshEnabled timers m l) :=
  decidable_of_iff ((∀ a ∈ l.2.incoming (N.cfg l.1) C (m.member l.1).conn.client,
      m.FromOther l.1 a.ct ∨ opened (N.cfg l.1) C a.pk a.ct a.client = none) ∧
      (N.draws timers m l).Nodup ∧ ∀ k ∈ N.draws timers m l, k ∉ m.drawn)
    ⟨fun ⟨hHonest, hNodup, hFresh⟩ => ⟨hHonest, hNodup, hFresh⟩, fun h => ⟨h.honest, h.nodup, h.fresh⟩⟩

instance {n : Nat} [DecidableEq Ct] (N : Parties C (Fin n)) (m : Mesh (Fin n) Ct) (l : Fin n × PunchEvent Ct) :
    Decidable ((N.mesh timers).enabled m l) :=
  inferInstanceAs (Decidable (N.MeshEnabled timers m l))

end Parties

-- ---------------------------------------------------------------------------
-- Acts in a row
-- ---------------------------------------------------------------------------

namespace Parties

variable {ι : Type} [DecidableEq ι] {N : Parties C ι} {timers : TimerConfig} {f : Fabric ι}
  {G : Fabric ι → Fabric.Label ι → Prop} {x : ι}

/-- Acts of one client, each with a new routing key if it draws one. -/
theorem reach_acts {acts : List Act} (h : N.machine.Reach G f)
    (hActs : ∀ a ∈ acts, a.isLocal = true ∧ a.Keyed (N.cfg x) C ∧ ∀ f, G f (.act x a))
    (hNodup : ((acts.filterMap Act.drawnRk).map C.publicKey).Nodup)
    (hFresh : ∀ k ∈ (acts.filterMap Act.drawnRk).map C.publicKey, k ∉ f.drawn) :
    ∃ f', N.machine.Reach G f' ∧ f'.links = Function.update f.links x ((f.links x).run (N.cfg x) C acts) ∧
      ∀ k ∈ f'.drawn, k ∈ f.drawn ∨ k ∈ (acts.filterMap Act.drawnRk).map C.publicKey := by
  induction acts generalizing f with
  | nil => exact ⟨f, h, (Function.update_eq_self ..).symm, fun k hk => .inl hk⟩
  | cons a acts ih =>
    obtain ⟨hLocal, hKeyed, hGuard⟩ := hActs a (List.mem_cons_self ..)
    have hHead : ((a :: acts).filterMap Act.drawnRk).map C.publicKey =
        (a.drawnRk.map C.publicKey).toList ++ (acts.filterMap Act.drawnRk).map C.publicKey := by
      cases hRk : a.drawnRk <;> simp [hRk]
    rw [hHead] at hNodup hFresh ⊢
    have hNew : ∀ rk ∈ a.drawnRk, C.publicKey rk ∉ f.drawn := by
      intro rk hrk
      refine hFresh _ (List.mem_append_left _ ?_)
      rw [Option.mem_def.mp hrk]
      exact List.mem_singleton_self _
    have hStep : N.machine.Reach G (N.next f (.act x a)) := h.step ⟨hLocal, hKeyed, hNew⟩ (hGuard f)
    obtain ⟨f', hReach, hLinks, hDrawn⟩ := ih hStep (fun b hb => hActs b (List.mem_cons_of_mem _ hb))
      (List.nodup_append.mp hNodup).2.1 (by
        intro k hk hIn
        rcases List.mem_append.mp hIn with hOwn | hOld
        · exact (List.nodup_append.mp hNodup).2.2 k hOwn k hk rfl
        · exact hFresh k (List.mem_append_right _ hk) hOld)
    refine ⟨f', hReach, ?_, fun k hk => ?_⟩
    · have hSelf : (N.next f (.act x a)).links = Function.update f.links x ((f.links x).next (N.cfg x) C a) := rfl
      rw [hLinks, hSelf, Function.update_self, Function.update_idem]
      rfl
    · rcases hDrawn k hk with hIn | hIn
      · rcases List.mem_append.mp hIn with hOwn | hOld
        · exact .inr (List.mem_append_left _ hOwn)
        · exact .inl hOld
      · exact .inr (List.mem_append_right _ hIn)

omit [DecidableEq ι] in
/-- What a client does on its own is allowed. -/
theorem allows_own {p : Policy} {a b : ι} {act : Act} (h : act.isOwn = true) :
    act.isLocal = true ∧ act.Keyed (N.cfg x) C ∧ ∀ f, N.Allows p a b f (.act x act) := by
  cases act with
  | create pk now d => exact ⟨rfl, trivial, fun _ => trivial⟩
  | run pk e => exact ⟨h, trivial, fun _ => trivial⟩
  | remove pk => cases h
  | stale pk g => cases h

-- ---------------------------------------------------------------------------
-- Datagrams
-- ---------------------------------------------------------------------------

/-- From `f` on, client `x` went through these acts and received frames, which took
it from `c` to `c'`. -/
structure Reaches (N : Parties C ι) (G : Fabric ι → Fabric.Label ι → Prop) (x : ι) (env : Env) (f : Fabric ι)
    (c c' : Client Ct) (acts : List Act) (heard : List (RawKey × Bytes)) (f' : Fabric ι) : Prop where
  reach : N.machine.Reach G f'
  links : f'.links = Function.update f.links x ((f.links x).run (N.cfg x) C acts)
  shows : c'.Shows C (f'.links x)
  owes : ∀ xs, (f.links x).Owes xs → (f'.links x).Owes xs
  heard : (f'.links x).heard = (f.links x).heard ++ heard
  draws : c.draws ≤ c'.draws
  drawn : ∀ k ∈ f'.drawn, k ∈ f.drawn ∨ k ∈ (env.rks c.draws c'.draws).map C.publicKey

namespace Reaches

variable {env : Env} {c c' c'' : Client Ct} {acts acts' : List Act} {heard heard' : List (RawKey × Bytes)}
  {f' f'' : Fabric ι}

theorem refl (h : N.machine.Reach G f) (hShows : c.Shows C (f.links x)) : N.Reaches G x env f c c [] [] f where
  reach := h
  links := (Function.update_eq_self ..).symm
  shows := hShows
  owes _ h := h
  heard := (List.append_nil _).symm
  draws := le_rfl
  drawn _ hk := .inl hk

theorem trans (h : N.Reaches G x env f c c' acts heard f') (h' : N.Reaches G x env f' c' c'' acts' heard' f'') :
    N.Reaches G x env f c c'' (acts ++ acts') (heard ++ heard') f'' where
  reach := h'.reach
  links := by
    rw [h'.links, h.links, Function.update_self, Function.update_idem, Contacts.run_append]
  shows := h'.shows
  owes xs hOwes := h'.owes xs (h.owes xs hOwes)
  heard := by rw [h'.heard, h.heard, List.append_assoc]
  draws := h.draws.trans h'.draws
  drawn k hk := by
    rw [← Env.rks_append h.draws h'.draws, List.map_append, List.mem_append]
    rcases h'.drawn k hk with hIn | hIn
    · exact (h.drawn k hIn).imp_right .inl
    · exact .inr (.inr hIn)

/-- The acts of a handler. -/
theorem performs (hReach : N.machine.Reach G f) (hShows : c.Shows C (f.links x))
    (h : Performs (N.cfg x) C env [] acts c c')
    (hActs : ∀ a ∈ acts, a.isLocal = true ∧ a.Keyed (N.cfg x) C ∧ ∀ f, G f (.act x a))
    (hNodup : ((env.rks c.draws c'.draws).map C.publicKey).Nodup)
    (hFresh : ∀ k ∈ (env.rks c.draws c'.draws).map C.publicKey, k ∉ f.drawn) :
    ∃ f', N.Reaches G x env f c c' acts [] f' := by
  have hSub := h.drawn.map C.publicKey
  obtain ⟨f', hReach', hLinks, hDrawn⟩ := reach_acts hReach hActs (hNodup.sublist hSub)
    fun k hk => hFresh k (hSub.subset hk)
  have hSelf : f'.links x = (f.links x).run (N.cfg x) C acts := by
    rw [hLinks, Function.update_self]
  refine ⟨f', hReach', hLinks, ?_, fun xs hOwes => ?_, ?_, h.draws, fun k hk => ?_⟩
  · rw [hSelf]
    exact h.shows _ hShows
  · have hMore := h.owes _ xs hShows hOwes
    rw [hSelf]
    rwa [List.append_nil] at hMore
  · rw [hSelf, List.append_nil]
    exact Contacts.heard_run fun a ha => (hActs a ha).1
  · exact (hDrawn k hk).imp_right fun hIn => hSub.subset hIn

/-- A frame of another client opens on the session with `pk`, and its content is
handled. -/
theorem receive {pk q : RawKey} {y : ι} {i : Nat} {now : Instant} {d : Draw} {g : Sealing} {n : Node} {pl : Plain}
    {e : Event} {post : List Act} (hReach : N.machine.Reach G f) (hShows : c.Shows C (f.links x))
    (hy : y ≠ x) (hg : f.frame y q i = some g) (hs : (f.links x).session pk = some n)
    (hOpens : n.dp.openPeerData C (g.ct C) = some pl) (he : pl.event now d = some e)
    (hGuard : G f (.deliver x pk y q i now d)) (h : Performs (N.cfg x) C env [] (.run pk e :: post) c c')
    (hPost : ∀ a ∈ post, a.isLocal = true ∧ a.Keyed (N.cfg x) C ∧ ∀ f, G f (.act x a))
    (hNodup : ((env.rks c.draws c'.draws).map C.publicKey).Nodup)
    (hFresh : ∀ k ∈ (env.rks c.draws c'.draws).map C.publicKey, k ∉ f.drawn) :
    ∃ f', N.Reaches G x env f c c' (.run pk e :: post)
      ((n.dp.step (N.cfg x) C e).2.delivered.map fun p => (pk, p)) f' := by
  have hStep : N.machine.Reach G (N.next f (.deliver x pk y q i now d)) :=
    hReach.step ⟨hy, by rw [hg]; rfl⟩ hGuard
  have hRan : (N.next f (.deliver x pk y q i now d)).links =
      Function.update f.links x ((f.links x).next (N.cfg x) C (.run pk e)) := by
    refine congrArg (Function.update f.links x) ?_
    simp only [contactsNext, hg, Contacts.receive, hs]
    rw [hOpens, Option.bind_some, he]
  -- the section itself draws no routing key
  have hNone : (Act.run pk e :: post).filterMap Act.drawnRk = post.filterMap Act.drawnRk :=
    List.filterMap_cons_none (Plain.drawnRk_event he)
  have hSub := h.drawn.map C.publicKey
  rw [hNone] at hSub
  obtain ⟨f', hReach', hLinks, hDrawn⟩ := reach_acts hStep hPost (hNodup.sublist hSub)
    fun k hk => hFresh k (hSub.subset hk)
  rw [hRan, Function.update_self, Function.update_idem] at hLinks
  have hSelf : f'.links x = (f.links x).run (N.cfg x) C (.run pk e :: post) := by
    rw [hLinks, Function.update_self]
    rfl
  refine ⟨f', hReach', hLinks, ?_, fun xs hOwes => ?_, ?_, h.draws, fun k hk => ?_⟩
  · rw [hSelf]
    exact h.shows _ hShows
  · have hMore := h.owes _ xs hShows hOwes
    rw [hSelf]
    rwa [List.append_nil] at hMore
  · rw [hLinks, Function.update_self, Contacts.heard_run fun a ha => (hPost a ha).1]
    simp only [Contacts.next, hs]
  · exact (hDrawn k hk).imp_right fun hIn => hSub.subset hIn

/-- What the TUN got. -/
theorem delivered (h : N.Reaches G x env f c c' acts heard f') (hShows : c.Shows C (f.links x)) :
    c'.tun.drop c.tun.length = heard.map Prod.snd := by
  rw [h.shows.tun, h.heard, hShows.tun, List.map_append, List.drop_left]

end Reaches

/-- A tunnel packet of a datagram: what opens of it another client has sealed. -/
theorem reaches_handlePeerData {p : Policy} {a b : ι} {env : Env} {src : SocketAddr} {pk : RawKey} {ct : Ct}
    {direct : Bool} {c : Client Ct} (hReach : N.machine.Reach (N.Allows p a b) f) (hShows : c.Shows C (f.links x))
    (hFrom : (∃ y, y ≠ x ∧ (f.links y).Sealed C ct) ∨ opened (N.cfg x) C pk ct c = none)
    (hRenews : N.IsEnd a b x pk → ∀ rk s, (opened (N.cfg x) C pk ct c).bind Plain.helloRk = some rk →
      c.plane pk = some s → s.established = true → s.peerRkPub ≠ some rk → p.renews s rk)
    (hNodup : ((env.rks c.draws (handlePeerData (N.cfg x) C env pk ct direct src c).draws).map C.publicKey).Nodup)
    (hFresh : ∀ k ∈ (env.rks c.draws (handlePeerData (N.cfg x) C env pk ct direct src c).draws).map C.publicKey,
      k ∉ f.drawn) :
    ∃ acts f', N.Reaches (N.Allows p a b) x env f c (handlePeerData (N.cfg x) C env pk ct direct src c) acts
      (((handlePeerData (N.cfg x) C env pk ct direct src c).tun.drop c.tun.length).map fun p => (pk, p)) f' := by
  obtain ⟨pre, c₁, hPre, hGreeted, hRest⟩ := performs_handlePeerData (N.cfg x) C env pk ct direct src c
  generalize handlePeerData (N.cfg x) C env pk ct direct src c = c' at hRest hNodup hFresh ⊢
  have hAll : c.draws ≤ c₁.draws ∧ c₁.draws ≤ c'.draws := by
    refine ⟨hGreeted.draws, ?_⟩
    rcases hRest with hDropped | ⟨_, _, _, _, _, -, -, -, -, -, -, -, hHandled⟩
    · exact hDropped.draws
    · exact hHandled.draws
  rw [← Env.rks_append hAll.1 hAll.2, List.map_append] at hNodup hFresh
  obtain ⟨f₁, hBefore⟩ : ∃ f₁, N.Reaches (N.Allows p a b) x env f c c₁ pre [] f₁ :=
    Reaches.performs hReach hShows hGreeted (fun act hAct => allows_own (hPre act hAct).1)
      (List.nodup_append.mp hNodup).1 fun k hk => hFresh k (List.mem_append_left _ hk)
  -- the keys that are still to be drawn are new to the fabric as it is by then
  have hNodup₁ : ((env.rks c₁.draws c'.draws).map C.publicKey).Nodup := (List.nodup_append.mp hNodup).2.1
  have hFresh₁ : ∀ k ∈ (env.rks c₁.draws c'.draws).map C.publicKey, k ∉ f₁.drawn := by
    intro k hk hIn
    rcases hBefore.drawn k hIn with hOld | hOwn
    · exact hFresh k (List.mem_append_right _ hk) hOld
    · exact (List.nodup_append.mp hNodup).2.2 k hOwn k hk rfl
  -- what reaches the TUN is what the received frame delivers
  suffices hSuffices : ∃ acts, ∃ ds : List Bytes, ∃ f',
      N.Reaches (N.Allows p a b) x env f c c' acts (ds.map fun p => (pk, p)) f' by
    obtain ⟨acts, ds, f', hReaches⟩ := hSuffices
    have hTun := hReaches.delivered hShows
    rw [List.map_map] at hTun
    refine ⟨acts, f', ?_⟩
    rw [hTun]
    simpa using hReaches
  rcases hRest with hDropped | ⟨s, pl, d, e, post, hs, hSame, hNew, hOpens, hOpened, he, hPost, hHandled⟩
  · obtain ⟨f₂, hAfter⟩ : ∃ f₂, N.Reaches (N.Allows p a b) x env f₁ c₁ c' [] [] f₂ :=
      Reaches.performs hBefore.reach hBefore.shows hDropped nofun hNodup₁ hFresh₁
    exact ⟨_, [], f₂, hBefore.trans hAfter⟩
  · obtain ⟨y, hy, q, m, hm, g, hMem, rfl⟩ := hFrom.resolve_right (by rw [hOpened]; nofun)
    obtain ⟨i, hi, hgi⟩ := List.getElem_of_mem hMem
    have hOther : f₁.links y = f.links y := by
      rw [hBefore.links, Function.update_of_ne hy]
    have hg : f₁.frame y q i = some g := by
      rw [Fabric.frame, hOther, hm, Option.bind_some, List.getElem?_eq_getElem hi, hgi]
    obtain ⟨n, hn, rfl⟩ : ∃ n, (f₁.links x).session pk = some n ∧ n.dp = s :=
      Option.map_eq_some_iff.mp ((hBefore.shows.plane pk).symm.trans hs)
    have hGuard : N.Allows p a b f₁ (.deliver x pk y q i env.now d) := by
      intro hEnd g' n' rk hg' hn' hrk hEst hOld
      cases hg.symm.trans hg'
      cases hn.symm.trans hn'
      rw [show n.dp.toKeyState.openPeerData C (g.ct C) = some pl from hOpens] at hrk
      -- an established session is the one that was there before
      cases hPlane : c.plane pk with
      | none => exact absurd hEst (by rw [hNew hPlane]; nofun)
      | some s₀ =>
        have hSession := hSame s₀ hPlane
        rw [hSession] at hEst hOld ⊢
        exact hRenews hEnd rk s₀ (by rw [hOpened]; exact hrk) hPlane hEst hOld
    obtain ⟨f₂, hAfter⟩ : ∃ f₂, N.Reaches (N.Allows p a b) x env f₁ c₁ c' (.run pk e :: post)
        ((n.dp.step (N.cfg x) C e).2.delivered.map fun p => (pk, p)) f₂ :=
      Reaches.receive hBefore.reach hBefore.shows hy hg hn hOpens he hGuard hHandled
        (fun act hAct => allows_own (hPost act hAct).1) hNodup₁ hFresh₁
    exact ⟨_, _, f₂, hBefore.trans hAfter⟩

/-- Random values are used up. -/
theorem draws_handlePeerData {cfg : Config} {env : Env} {src : SocketAddr} {pk : RawKey} {ct : Ct} {direct : Bool}
    {c : Client Ct} : c.draws ≤ (handlePeerData cfg C env pk ct direct src c).draws := by
  obtain ⟨pre, c₁, -, hGreeted, hRest⟩ := performs_handlePeerData cfg C env pk ct direct src c
  refine hGreeted.draws.trans ?_
  rcases hRest with hDropped | ⟨_, _, _, _, _, -, -, -, -, -, -, -, hHandled⟩
  · exact hDropped.draws
  · exact hHandled.draws

theorem draws_inTurn {cfg : Config} {env : Env} {src : SocketAddr} {is : List (Incoming Ct)} {c c' : Client Ct}
    (h : HandledInTurn cfg C env src is c c') : c.draws ≤ c'.draws := by
  induction is generalizing c with
  | nil =>
    obtain rfl : c' = c := h
    exact le_rfl
  | cons i is ih => exact draws_handlePeerData.trans (ih h.2)

/-- The tunnel packets of a datagram, one after the other. -/
theorem reaches_inTurn {p : Policy} {a b : ι} {env : Env} {src : SocketAddr} (is : List (Incoming Ct))
    {c c' : Client Ct} (hTurn : HandledInTurn (N.cfg x) C env src is c c')
    (hReach : N.machine.Reach (N.Allows p a b) f) (hShows : c.Shows C (f.links x))
    (hFrom : ∀ i ∈ is, (∃ y, y ≠ x ∧ (f.links y).Sealed C i.ct) ∨ opened (N.cfg x) C i.pk i.ct i.client = none)
    (hRenews : ∀ i ∈ is, N.IsEnd a b x i.pk → ∀ rk s,
      (opened (N.cfg x) C i.pk i.ct i.client).bind Plain.helloRk = some rk → i.client.plane i.pk = some s →
        s.established = true → s.peerRkPub ≠ some rk → p.renews s rk)
    (hNodup : ((env.rks c.draws c'.draws).map C.publicKey).Nodup)
    (hFresh : ∀ k ∈ (env.rks c.draws c'.draws).map C.publicKey, k ∉ f.drawn) :
    ∃ acts f', N.Reaches (N.Allows p a b) x env f c c' acts (deliveries (N.cfg x) C env src is) f' := by
  induction is generalizing c f with
  | nil =>
    obtain rfl : c' = c := hTurn
    exact ⟨[], f, .refl hReach hShows⟩
  | cons i is ih =>
    obtain ⟨rfl, hTail⟩ := hTurn
    have hLater := draws_inTurn hTail
    rw [← Env.rks_append draws_handlePeerData hLater, List.map_append] at hNodup hFresh
    obtain ⟨hNodup₁, hNodup₂, hApart⟩ := List.nodup_append.mp hNodup
    obtain ⟨acts, f₁, hHead⟩ := reaches_handlePeerData hReach hShows (hFrom i (List.mem_cons_self ..))
      (hRenews i (List.mem_cons_self ..)) hNodup₁ fun k hk => hFresh k (List.mem_append_left _ hk)
    have hOthers : ∀ y, y ≠ x → f₁.links y = f.links y := by
      intro y hy
      rw [hHead.links, Function.update_of_ne hy]
    obtain ⟨acts', f₂, hRest⟩ := ih hTail hHead.reach hHead.shows (by
        intro j hj
        refine (hFrom j (List.mem_cons_of_mem _ hj)).imp_left ?_
        rintro ⟨y, hy, hSealed⟩
        exact ⟨y, hy, by rwa [hOthers y hy]⟩)
      (fun j hj => hRenews j (List.mem_cons_of_mem _ hj)) hNodup₂ (by
        intro k hk hIn
        rcases hHead.drawn k hIn with hOld | hOwn
        · exact hFresh k (List.mem_append_right _ hk) hOld
        · exact hApart k hOwn k hk rfl)
    exact ⟨_, f₂, hHead.trans hRest⟩

-- ---------------------------------------------------------------------------
-- The mesh and the fabric
-- ---------------------------------------------------------------------------

/-- The fabric is what the contacts of the members are. -/
structure Mirrors (N : Parties C ι) (m : Mesh ι Ct) (f : Fabric ι) : Prop where
  shows : ∀ x, (m.member x).conn.Shows (N.cfg x) C (f.links x)
  owes : ∀ x, (f.links x).Owes (m.member x).asked
  heard : ∀ x, (f.links x).heard = (m.member x).heard
  drawn : ∀ k ∈ f.drawn, k ∈ m.drawn

theorem mirrors_init {m : Mesh ι Ct} (h : N.MeshInit timers m) : ∃ f, N.machine.init f ∧ N.Mirrors m f := by
  refine ⟨⟨fun _ => .empty, []⟩, ⟨fun _ => rfl, rfl⟩, fun x => ⟨⟨fun pk => ?_, ?_, ?_⟩, ?_⟩, fun x => ?_, fun x => ?_,
    List.forall_mem_nil _⟩
  · obtain ⟨hPeers, -⟩ := h.conn x
    rw [Client.plane, hPeers]
    rfl
  · obtain ⟨-, hSent, -⟩ := h.conn x
    rw [hSent]
    exact List.forall_mem_nil _
  · rw [h.tun x]
    rfl
  · obtain ⟨-, -, hTasks, -⟩ := h.conn x
    rw [hTasks]
    exact List.forall_mem_nil _
  · intro pk n hn
    cases hn
  · exact (h.heard x).symm

/-- One member took a step. -/
theorem Mirrors.update {m : Mesh ι Ct} {f' : Fabric ι} {e : PunchEvent Ct} {l : Contacts} (h : N.Mirrors m f)
    (hLinks : f'.links = Function.update f.links x l)
    (hShows : ((m.member x).conn.next (N.cfg x) C timers e).Shows (N.cfg x) C l)
    (hOwes : l.Owes ((m.member x).asked ++ e.asked (N.cfg x) (m.member x).conn.client))
    (hHeard : l.heard = (m.member x).heard ++ e.heard (N.cfg x) C (m.member x).conn.client)
    (hDrawn : ∀ k ∈ f'.drawn, k ∈ f.drawn ∨ k ∈ N.draws timers m (x, e)) :
    N.Mirrors (N.meshNext timers m (x, e)) f' := by
  have hEach : ∀ y, (y = x ∧ f'.links y = l ∧ (N.meshNext timers m (x, e)).member y =
      (m.member x).next (N.cfg x) C timers e) ∨
      (f'.links y = f.links y ∧ (N.meshNext timers m (x, e)).member y = m.member y) := by
    intro y
    by_cases hy : y = x
    · subst hy
      exact .inl ⟨rfl, by rw [hLinks, Function.update_self], Function.update_self ..⟩
    · exact .inr ⟨by rw [hLinks, Function.update_of_ne hy], Function.update_of_ne hy ..⟩
  refine ⟨fun y => ?_, fun y => ?_, fun y => ?_, fun k hk => ?_⟩
  · rcases hEach y with ⟨rfl, hl, hm⟩ | ⟨hl, hm⟩
    · rw [hl, hm]
      exact hShows
    · rw [hl, hm]
      exact h.shows y
  · rcases hEach y with ⟨rfl, hl, hm⟩ | ⟨hl, hm⟩
    · rw [hl, hm]
      exact hOwes
    · rw [hl, hm]
      exact h.owes y
  · rcases hEach y with ⟨rfl, hl, hm⟩ | ⟨hl, hm⟩
    · rw [hl, hm]
      exact hHeard
    · rw [hl, hm]
      exact h.heard y
  · show k ∈ N.draws timers m (x, e) ++ m.drawn
    rw [List.mem_append]
    exact (hDrawn k hk).symm.imp_right (h.drawn k)

omit [DecidableEq ι] in
/-- The acts of a step are allowed where the step is. -/
theorem allows_does {p : Policy} {a b : ι} {m : Mesh ι Ct} {e : PunchEvent Ct} {act : Act}
    (h : (m.member x).conn.Does (N.cfg x) C timers e act) (hGuard : N.MeshAllows timers p a b m (x, e)) :
    act.isLocal = true ∧ act.Keyed (N.cfg x) C ∧ ∀ f, N.Allows p a b f (.act x act) := by
  cases h with
  | own hOwn => exact allows_own hOwn
  | remove hIn hGone =>
    refine ⟨rfl, trivial, fun f hEnd => ?_⟩
    cases hr : p.restarts with
    | true => rfl
    | false => exact absurd (hGuard.restarts hr _ rfl _ hEnd hIn) hGone
  | stale ht hHeld hKey hHello =>
    refine ⟨rfl, ⟨hKey, hHello⟩, fun f hEnd => ?_⟩
    cases ho : p.orphans with
    | true => rfl
    | false =>
      rw [hGuard.orphans ho _ _ _ _ rfl ht hEnd] at hHeld
      cases hHeld

/-- A step of a member is acts and received frames. -/
theorem mirrors_step {p : Policy} {a b : ι} {m : Mesh ι Ct} {l : ι × PunchEvent Ct} (h : N.Mirrors m f)
    (hReach : N.machine.Reach (N.Allows p a b) f) (hEn : N.MeshEnabled timers m l)
    (hGuard : N.MeshAllows timers p a b m l) :
    ∃ f', N.machine.Reach (N.Allows p a b) f' ∧ N.Mirrors (N.meshNext timers m l) f' := by
  obtain ⟨x, e⟩ := l
  have hShows := h.shows x
  have hFresh : ∀ k ∈ N.draws timers m (x, e), k ∉ f.drawn := fun k hk hIn => hEn.fresh k hk (h.drawn k hIn)
  by_cases hDatagram : ∃ env src pkt, e = .datagram env src pkt
  · obtain ⟨env, src, pkt, rfl⟩ := hDatagram
    obtain ⟨acts, f', hReaches⟩ := reaches_inTurn _
      (handledInTurn_handleUdp (N.cfg x) C env src pkt (m.member x).conn.client) hReach hShows.client (by
        intro i hi
        refine (hEn.honest i hi).imp_left ?_
        rintro ⟨y, hy, d, hd, hct⟩
        exact ⟨y, hy, (h.shows y).client.sent d hd _ hct⟩)
      (fun i hi hEnd rk s hrk hs => hGuard.renews i hi hEnd rk hrk s hs) hEn.nodup hFresh
    have hSelf : f'.links x = (f.links x).run (N.cfg x) C acts := by
      rw [hReaches.links, Function.update_self]
    refine ⟨f', hReaches.reach, h.update hReaches.links ⟨?_, fun t ht => ?_⟩ ?_ ?_ hReaches.drawn⟩
    · rw [← hSelf]
      exact hReaches.shows
    · exact (hShows.tasks t ht).run acts
    · rw [← hSelf]
      exact (hReaches.owes _ (h.owes x)).mono
    · rw [← hSelf, hReaches.heard, h.heard]
      rfl
  · push Not at hDatagram
    obtain ⟨acts, hDoes, hAdvances⟩ := hShows.next timers (bound_reach hReach x) hDatagram
    have hActs : ∀ act ∈ acts, act.isLocal = true ∧ act.Keyed (N.cfg x) C ∧ ∀ f, N.Allows p a b f (.act x act) :=
      fun act hAct => allows_does (hDoes act hAct) hGuard
    have hSub := hAdvances.drawn.map C.publicKey
    obtain ⟨f', hReach', hLinks, hDrawn⟩ := reach_acts hReach hActs (hEn.nodup.sublist hSub)
      fun k hk => hFresh k (hSub.subset hk)
    have hQuiet : e.heard (N.cfg x) C (m.member x).conn.client = [] := by
      cases e with
      | datagram env src pkt => exact absurd rfl (hDatagram env src pkt)
      | _ => rfl
    refine ⟨f', hReach', h.update hLinks hAdvances.shows (hAdvances.owes _ (h.owes x)) ?_ fun k hk =>
      (hDrawn k hk).imp_right fun hIn => hSub.subset hIn⟩
    rw [hQuiet, List.append_nil, Contacts.heard_run fun act hAct => (hActs act hAct).1, h.heard]

/--
**A mesh is a fabric.** The contacts of the members of a mesh run as a fabric does.
-/
theorem mirrored {p : Policy} {a b : ι} {m : Mesh ι Ct}
    (h : (N.mesh timers).Reach (N.MeshAllows timers p a b) m) :
    ∃ f, N.machine.Reach (N.Allows p a b) f ∧ N.Mirrors m f :=
  h.forward N.Mirrors (fun _ => mirrors_init) fun _ _ _ hMirrors hReach => mirrors_step hMirrors hReach

end Parties

end LinkMesh
