import LinkMesh.Pair.Fabric

/-!
# A connection and its contacts

A connection with its punching tasks, seen from its contacts. A task sends HELLOs
of the session it works on, past the locks of the handlers: a HELLO it has sealed
is sent once more later, and a task whose session was pruned goes on with the
orphan.

## Results

* `Punching.Shows.next` — every step of a connection but a datagram is acts of its
  own, a pruning ends sessions, and an orphan seals frames under its last key.
-/

namespace LinkMesh

variable {Ct : Type}

-- ---------------------------------------------------------------------------
-- What a step is asked to send, and what it draws
-- ---------------------------------------------------------------------------

namespace PunchEvent

/-- The random values at hand. -/
def env : PunchEvent Ct → Option Env
  | .datagram env _ _ => some env
  | .notify env _ => some env.toEnv
  | .answer env _ => some env.toEnv
  | .forward env _ _ => some env
  | .send env _ _ => some env
  | .prune _ => none
  | .rekey env => some env
  | .keepalive env => some env
  | .timer env => some env
  | .punch env _ _ => some env

/-- The packets that the step is asked to send, each with its peer. -/
def asked (cfg : Config) (c : Client Ct) : PunchEvent Ct → List (RawKey × Bytes)
  | .forward _ netmask pkt => c.forwarded cfg netmask pkt
  | .send _ pk pkt => [(pk, pkt)]
  | _ => []

/-- The tunnel packets of a datagram. -/
def incoming (cfg : Config) (C : Crypto Ct) (c : Client Ct) : PunchEvent Ct → List (Incoming Ct)
  | .datagram env src pkt => arrivals cfg C env src pkt c
  | _ => []

/-- What the step hands to the TUN, each payload with the source it is taken to be
from. -/
def heard (cfg : Config) (C : Crypto Ct) (c : Client Ct) : PunchEvent Ct → List (RawKey × Bytes)
  | .datagram env src pkt => deliveries cfg C env src (arrivals cfg C env src pkt c)
  | _ => []

/-- The private routing keys among the random values that a step used. -/
def rks (e : PunchEvent Ct) (c c' : Client Ct) : List RawKey :=
  match e.env with
  | none => []
  | some env => env.rks c.draws c'.draws

end PunchEvent

variable {cfg : Config} {C : Crypto Ct} {timers : TimerConfig} {env : Env} {pk k : RawKey} {l : Contacts}

-- ---------------------------------------------------------------------------
-- Tasks
-- ---------------------------------------------------------------------------

/-- The session of an orphan was one with the peer of its task, and seals under a
key of the two. -/
def Orphaned (cfg : Config) (C : Crypto Ct) (l : Contacts) (pk : RawKey) (s : PeerSession) : Prop :=
  (∃ n, l.node pk = some n) ∧ KeyFor cfg C pk s.currentKey

/-- A task is at work: the HELLO it is about to send again was sealed, and the
orphan it holds is one. -/
structure PunchTask.Shows (cfg : Config) (C : Crypto Ct) (orphans : List PeerSession) (t : PunchTask Ct)
    (l : Contacts) : Prop where
  probing : ∀ hello, t.phase = .probing hello → l.Sealed C hello
  held : ∀ i, t.held = some i → ∃ s, orphans[i]? = some s ∧ Orphaned cfg C l t.pk s

/-- The connection has these contacts. -/
structure Punching.Shows (cfg : Config) (C : Crypto Ct) (p : Punching Ct) (l : Contacts) : Prop where
  client : p.client.Shows C l
  tasks : ∀ t ∈ p.tasks, t.Shows cfg C p.orphans l

/-- A peer with which there has been a session, and what was stored for it. -/
theorem Contacts.node_next_some {n : Node} {a : Act} (h : l.node k = some n) :
    ∃ n', (l.next cfg C a).node k = some n' ∧ n.stored <+: n'.stored := by
  cases a with
  | create pk now d =>
    cases hs : l.session pk with
    | some m => exact ⟨n, by simp only [Contacts.next, hs, h], List.prefix_refl _⟩
    | none =>
      rw [node_create hs]
      split
      · rename_i hk
        subst hk
        rw [h]
        exact ⟨_, rfl, List.prefix_refl _⟩
      · exact ⟨n, h, List.prefix_refl _⟩
  | run pk e =>
    cases hs : l.session pk with
    | none => exact ⟨n, by simp only [Contacts.next, hs, h], List.prefix_refl _⟩
    | some m =>
      rw [node_run hs]
      split
      · rename_i hk
        subst hk
        cases h.symm.trans (node_of_session hs)
        exact ⟨_, rfl, List.prefix_append _ _⟩
      · exact ⟨n, h, List.prefix_refl _⟩
  | remove pk => exact ⟨n, h, List.prefix_refl _⟩
  | stale pk f =>
    cases hm : l.node pk with
    | none => exact ⟨n, by simp only [Contacts.next, hm, h], List.prefix_refl _⟩
    | some m =>
      rw [node_stale hm]
      split
      · rename_i hk
        subst hk
        cases h.symm.trans hm
        exact ⟨_, rfl, List.prefix_refl _⟩
      · exact ⟨n, h, List.prefix_refl _⟩

theorem Contacts.node_run_some {acts : List Act} (h : ∃ n, l.node k = some n) :
    ∃ n, (l.run cfg C acts).node k = some n := by
  induction acts generalizing l with
  | nil => exact h
  | cons a acts ih =>
    obtain ⟨n, hn⟩ := h
    obtain ⟨n', hn', -⟩ := node_next_some hn
    exact ih ⟨n', hn'⟩

/-- A frame of a session that was removed. -/
theorem Contacts.sealed_stale {f : Sealing} (h : ∃ n, l.node pk = some n) :
    (l.next cfg C (.stale pk f)).Sealed C (f.ct C) := by
  obtain ⟨n, hn⟩ := h
  refine ⟨pk, _, (node_stale hn).trans (if_pos rfl), f, ?_, rfl⟩
  exact List.mem_append_right _ (List.mem_singleton_self f)

/-- A frame of a session that was removed changes no other. -/
theorem Contacts.plane_stale {f : Sealing} : (l.next cfg C (.stale pk f)).plane k = l.plane k := by
  cases hn : l.node pk with
  | none => simp only [Contacts.next, hn]
  | some n =>
    simp only [Contacts.next, hn]
    by_cases hk : k = pk
    · subst hk
      simp only [Contacts.plane, Contacts.session, Function.update_self, hn]
      split <;> rfl
    · simp only [Contacts.plane, Contacts.session, Function.update_of_ne hk]

theorem Contacts.Owes.stale {f : Sealing} {xs : List (RawKey × Bytes)} (h : l.Owes xs) :
    (l.next cfg C (.stale pk f)).Owes xs := by
  intro k m hm
  cases hn : l.node pk with
  | none =>
    simp only [Contacts.next, hn] at hm
    exact h k m hm
  | some n =>
    rw [Contacts.node_stale hn] at hm
    split at hm
    · rename_i hk
      subst hk
      cases hm
      exact h k n hn
    · exact h k m hm

theorem Client.Shows.stale {c : Client Ct} {f : Sealing} (h : c.Shows C l) :
    c.Shows C (l.next cfg C (.stale pk f)) where
  plane k := (h.plane k).trans Contacts.plane_stale.symm
  sent d hd ct hct := (h.sent d hd ct hct).next _
  tun := by
    have hHeard : (l.next cfg C (.stale pk f)).heard = l.heard := by
      simp only [Contacts.next]
      split <;> rfl
    rw [hHeard, h.tun]

/-- The session of the moment, were it to end now. -/
theorem Client.Shows.orphaned {c : Client Ct} {s : PeerSession} (h : c.Shows C l) (hBound : l.Bound cfg C)
    (hs : c.peers[pk]? = some s) : Orphaned cfg C l pk s := by
  have hPlane : l.plane pk = some s.toDataPlane := by
    rw [← h.plane, Client.plane, hs]
    rfl
  obtain ⟨n, hn, hDp⟩ := Option.map_eq_some_iff.mp hPlane
  have hNode := Contacts.node_of_session hn
  refine ⟨⟨n, hNode⟩, ?_⟩
  rw [← hDp]
  exact (hBound pk n hNode).currentKey

namespace Punching

variable {removed : List (RawKey × PeerSession)} {n i : Nat} {t : PunchTask Ct}

@[simp] theorem hold_pk : (hold removed n t).pk = t.pk := by
  unfold hold
  split <;> rfl

@[simp] theorem hold_phase : (hold removed n t).phase = t.phase := by
  unfold hold
  split <;> rfl

/-- The orphan that a task holds after a pruning: the one before, or its session. -/
theorem hold_held (h : (hold removed n t).held = some i) :
    t.held = some i ∨ ∃ j s, i = n + j ∧ removed[j]? = some (t.pk, s) := by
  unfold hold at h
  split at h
  · exact .inl h
  · exact .inl h
  · right
    obtain ⟨j, hj, rfl⟩ := Option.map_eq_some_iff.mp h
    obtain ⟨hLt, hIs, -⟩ := List.findIdx?_eq_some_iff_getElem.mp hj
    refine ⟨j, removed[j].2, rfl, ?_⟩
    rw [List.getElem?_eq_getElem hLt]
    exact congrArg some (Prod.ext (of_decide_eq_true hIs) rfl)

end Punching

/-- What a task shows stays so. -/
theorem PunchTask.Shows.run {orphans : List PeerSession} {t : PunchTask Ct} (h : t.Shows cfg C orphans l)
    (acts : List Act) : t.Shows cfg C orphans (l.run cfg C acts) where
  probing hello hPhase := (h.probing hello hPhase).run acts
  held i hi := by
    obtain ⟨s, hs, hSome, hKey⟩ := h.held i hi
    exact ⟨s, hs, Contacts.node_run_some hSome, hKey⟩

-- ---------------------------------------------------------------------------
-- Steps
-- ---------------------------------------------------------------------------

/-- The connection goes from `p` to `p'` by these acts, with routing keys of its own
draws. -/
structure Punching.Advances (cfg : Config) (C : Crypto Ct) (e : PunchEvent Ct) (l : Contacts) (acts : List Act)
    (p p' : Punching Ct) : Prop where
  shows : p'.Shows cfg C (l.run cfg C acts)
  owes : ∀ xs, l.Owes xs → (l.run cfg C acts).Owes (xs ++ e.asked cfg p.client)
  drawn : (acts.filterMap Act.drawnRk).Sublist (e.rks p.client p'.client)

/-- An act of a step: one of the client's own, the end of a session in a pruning, or
a frame that a task seals with the orphan it holds. -/
inductive Punching.Does (cfg : Config) (C : Crypto Ct) (timers : TimerConfig) (p : Punching Ct) :
    PunchEvent Ct → Act → Prop where
  | own {e : PunchEvent Ct} {a : Act} : a.isOwn = true → Does cfg C timers p e a
  | remove {now : Instant} {pk : RawKey} : pk ∈ p.client.peers →
      pk ∉ (p.client.prunePeers now timers.punchTimeoutMs).peers → Does cfg C timers p (.prune now) (.remove pk)
  | stale {env : Env} {i : Nat} {probeError : Bool} {t : PunchTask Ct} {f : Sealing} : p.tasks[i]? = some t →
      t.held.isSome = true → KeyFor cfg C t.pk f.key → f.plain.handshake = true →
        Does cfg C timers p (.punch env i probeError) (.stale t.pk f)

namespace Punching

variable {p p' : Punching Ct} {e : PunchEvent Ct}

/-- The client acts on its own; tasks may be spawned. -/
theorem Shows.performsOwn {asked : List (RawKey × Bytes)} (h : p.Shows cfg C l)
    (hOwn : PerformsOwn cfg C env asked p.client p'.client)
    (hTasks : ∀ t ∈ p'.tasks, t ∈ p.tasks ∨ (t.phase = .spawned ∧ t.held = none)) (hOrphans : p'.orphans = p.orphans)
    (hEnv : e.env = some env) (hAsked : e.asked cfg p.client = asked) :
    ∃ acts, (∀ a ∈ acts, Does cfg C timers p e a) ∧ Advances cfg C e l acts p p' := by
  obtain ⟨acts, hActs, hPerforms⟩ := hOwn
  refine ⟨acts, fun a ha => .own (hActs a ha), ⟨hPerforms.shows l h.client, fun t ht => ?_⟩, fun xs hOwes => ?_, ?_⟩
  · rw [hOrphans]
    rcases hTasks t ht with hOld | ⟨hSpawned, hNone⟩
    · exact (h.tasks t hOld).run acts
    · refine ⟨fun hello hPhase => ?_, fun i hi => ?_⟩
      · rw [hSpawned] at hPhase
        cases hPhase
      · rw [hNone] at hi
        cases hi
  · rw [hAsked]
    exact hPerforms.owes l xs h.client hOwes
  · unfold PunchEvent.rks
    rw [hEnv]
    exact hPerforms.drawn

/-- A pruning: the tasks keep the sessions that end. -/
theorem Shows.prune (h : p.Shows cfg C l) (hBound : l.Bound cfg C) (now : Instant) :
    ∃ acts, (∀ a ∈ acts, Does cfg C timers p (.prune now) a) ∧
      Advances cfg C (.prune now) l acts p (p.prune timers now) := by
  obtain ⟨dead, hDead, hShows⟩ := h.client.prunePeers cfg now timers.punchTimeoutMs
  have hNothing : (dead.map Act.remove).filterMap Act.drawnRk = [] := by
    rw [List.filterMap_map]
    exact List.filterMap_eq_nil_iff.mpr fun _ _ => rfl
  refine ⟨dead.map .remove, fun a ha => ?_, ⟨hShows, fun t ht => ?_⟩, fun xs hOwes => ?_, ?_⟩
  · obtain ⟨pk, hpk, rfl⟩ := List.mem_map.mp ha
    exact .remove (hDead pk hpk).1 (hDead pk hpk).2
  · obtain ⟨t₀, ht₀, rfl⟩ := List.mem_map.mp ht
    have hTask : t₀.Shows cfg C p.orphans (l.run cfg C (dead.map .remove)) := (h.tasks t₀ ht₀).run _
    refine ⟨fun hello hPhase => hTask.probing hello ?_, fun i hi => ?_⟩
    · rwa [hold_phase] at hPhase
    · have hKept : t₀.held = some i → ∃ s, (p.prune timers now).orphans[i]? = some s ∧
          Orphaned cfg C (l.run cfg C (dead.map .remove)) t₀.pk s := by
        intro hHeld
        obtain ⟨s, hs, hOrphaned⟩ := hTask.held i hHeld
        refine ⟨s, ?_, hOrphaned⟩
        show (p.orphans ++ _)[i]? = some s
        rw [List.getElem?_append_left (List.getElem?_eq_some_iff.mp hs).1, hs]
      rw [hold_pk]
      rcases hold_held hi with hBefore | ⟨j, s, rfl, hj⟩
      · exact hKept hBefore
      · -- the session of the task is among those that end
        have hMem := List.mem_of_getElem? hj
        have hPeer : p.client.peers[t₀.pk]? = some s :=
          Std.ExtTreeMap.mem_toList_iff_getElem?_eq_some.mp (List.mem_filter.mp hMem).1
        obtain ⟨hNode, hKey⟩ := h.client.orphaned hBound hPeer
        refine ⟨s, ?_, Contacts.node_run_some hNode, hKey⟩
        show (p.orphans ++ _)[p.orphans.length + j]? = some s
        rw [List.getElem?_append_right (Nat.le_add_right _ _), Nat.add_sub_cancel_left, List.getElem?_map, hj]
        rfl
  · rw [show PunchEvent.asked cfg p.client (.prune now) = [] from rfl, List.append_nil]
    exact hOwes.remove dead
  · rw [hNothing]
    exact List.nil_sublist _

/-- The orphans keep their keys. -/
def SameKeys (p p' : Punching Ct) : Prop :=
  ∀ (j : Nat) (s : PeerSession), p.orphans[j]? = some s →
    ∃ s' : PeerSession, p'.orphans[j]? = some s' ∧ s'.currentKey = s.currentKey

/-- The `i`-th task takes a step to `r`. -/
def Takes (cfg : Config) (C : Crypto Ct) (timers : TimerConfig) (l : Contacts) (p : Punching Ct)
    (env : Env) (i : Nat) (probeError : Bool) (r : Punching Ct × PunchTask Ct) : Prop :=
  ∃ acts, (∀ a ∈ acts, Does cfg C timers p (.punch env i probeError) a) ∧
    Advances cfg C (.punch env i probeError) l acts p { r.1 with tasks := r.1.tasks.set i r.2 }

/-- The task has sealed what it is to send again. -/
theorem Shows.takes {i : Nat} {t : PunchTask Ct} {probeError : Bool} {r : Punching Ct × PunchTask Ct}
    (h : p.Shows cfg C l) (acts : List Act) (ht : p.tasks[i]? = some t)
    (hDoes : ∀ a ∈ acts, Does cfg C timers p (.punch env i probeError) a)
    (hClient : r.1.client.Shows C (l.run cfg C acts)) (hOwes : ∀ xs, l.Owes xs → (l.run cfg C acts).Owes xs)
    (hDrawn : (acts.filterMap Act.drawnRk).Sublist (env.rks p.client.draws r.1.client.draws))
    (hTasks : r.1.tasks = p.tasks) (hOrphans : SameKeys p r.1) (hPk : r.2.pk = t.pk) (hHeld : r.2.held = t.held)
    (hProbing : ∀ hello, r.2.phase = .probing hello → (l.run cfg C acts).Sealed C hello) :
    Takes cfg C timers l p env i probeError r := by
  -- the other orphans are as they were, up to their link
  have hKept : ∀ u : PunchTask Ct, u ∈ p.tasks → ∀ j, u.held = some j →
      ∃ s, r.1.orphans[j]? = some s ∧ Orphaned cfg C (l.run cfg C acts) u.pk s := by
    intro u hu j hj
    obtain ⟨s, hs, hSome, hKey⟩ := ((h.tasks u hu).run acts).held j hj
    obtain ⟨s', hs', hSame⟩ := hOrphans j s hs
    exact ⟨s', hs', hSome, hSame ▸ hKey⟩
  refine ⟨acts, hDoes, ⟨hClient, fun u hu => ?_⟩, fun xs hXs => ?_, hDrawn⟩
  · rcases List.mem_or_eq_of_mem_set hu with hOld | rfl
    · rw [hTasks] at hOld
      exact ⟨((h.tasks u hOld).run acts).probing, hKept u hOld⟩
    · refine ⟨hProbing, fun j hj => ?_⟩
      rw [hPk]
      exact hKept t (List.mem_of_getElem? ht) j (hHeld ▸ hj)
  · rw [show PunchEvent.asked cfg p.client (.punch env i probeError) = [] from rfl, List.append_nil]
    exact hOwes xs hXs

/-- The link of a session changes, be it an orphan. -/
theorem change_client {t : PunchTask Ct} {f : PeerSession → PeerSession}
    (hf : ∀ s, (f s).toDataPlane = s.toDataPlane) (h : p.client.Shows C l) : (p.change t f).client.Shows C l := by
  unfold change
  split
  · exact h.update hf
  · exact h

theorem sameKeys_change {t : PunchTask Ct} {f : PeerSession → PeerSession}
    (hf : ∀ s, (f s).toDataPlane = s.toDataPlane) : SameKeys p (p.change t f) := by
  intro j s hs
  unfold change
  split
  · exact ⟨s, hs, rfl⟩
  · rename_i i _
    dsimp only
    rw [List.getElem?_modify, hs]
    by_cases hi : i = j
    · refine ⟨f s, by simp [hi], ?_⟩
      rw [hf]
    · exact ⟨s, by simp [hi], rfl⟩

/-- Nothing is done to the sessions but to their links. -/
theorem Shows.idle {i : Nat} {t : PunchTask Ct} {probeError : Bool} {r : Punching Ct × PunchTask Ct}
    (h : p.Shows cfg C l) (ht : p.tasks[i]? = some t) (hClient : r.1.client.Shows C l) (hTasks : r.1.tasks = p.tasks)
    (hOrphans : SameKeys p r.1) (hPk : r.2.pk = t.pk) (hHeld : r.2.held = t.held)
    (hProbing : ∀ hello, r.2.phase = .probing hello → l.Sealed C hello) :
    Takes cfg C timers l p env i probeError r :=
  h.takes [] ht nofun hClient (fun _ hOwes => hOwes) (List.nil_sublist _) hTasks hOrphans hPk hHeld hProbing

/-- A HELLO of the session that the task works on, straight to the endpoint. -/
theorem Shows.greet {i : Nat} {t : PunchTask Ct} {ep : SocketAddr} {probeError : Bool} (h : p.Shows cfg C l)
    (ht : p.tasks[i]? = some t) :
    Takes cfg C timers l p env i probeError (Punching.greet cfg C env t ep p) := by
  have hRefl : SameKeys p p := fun _ s hs => ⟨s, hs, rfl⟩
  have hDrawn : (p.client.draw env).2.Shows C l := h.client.draw
  unfold Punching.greet
  dsimp only
  cases hHello : (p.session t).bind fun s => s.buildHelloCt cfg (p.client.draw env).1 with
  | none => exact h.idle ht hDrawn rfl hRefl rfl rfl nofun
  | some hello =>
    cases hHeld : t.held with
    | none =>
      -- on the session of the moment
      have hBuilt : (p.client.draw env).2.Shows C (l.next cfg C (.run t.pk (.buildHello (p.client.draw env).1))) :=
        hDrawn.buildHello
      have hSealed : (l.next cfg C (.run t.pk (.buildHello (p.client.draw env).1))).Sealed C (hello.ct C) := by
        unfold session at hHello
        rw [hHeld] at hHello
        exact h.client.sealed_buildHello hHello
      refine h.takes [.run t.pk (.buildHello (p.client.draw env).1)] ht (fun a ha => ?_)
        (hBuilt.sendTo env fun ct hct => ?_) (fun xs hOwes => hOwes.quiet rfl) (List.nil_sublist _) rfl hRefl rfl
        hHeld.symm ?_
      · obtain rfl := List.mem_singleton.mp ha
        exact .own rfl
      · obtain rfl := List.mem_singleton.mp hct
        exact hSealed
      · rintro ct ⟨⟩
        exact hSealed
    | some j =>
      -- on the orphan
      obtain ⟨s, hs, hNode, hKey⟩ := (h.tasks t (List.mem_of_getElem? ht)).held j hHeld
      unfold session at hHello
      rw [hHeld] at hHello
      obtain ⟨s', hs', hBuild⟩ := Option.bind_eq_some_iff.mp hHello
      cases hs.symm.trans hs'
      have hUnder : KeyFor cfg C t.pk hello.key ∧ hello.plain.handshake = true := by
        obtain ⟨rk, salt, -, -, rfl⟩ := KeyState.buildHelloCt_eq_some.mp hBuild
        exact ⟨hKey, rfl⟩
      have hSealed : (l.next cfg C (.stale t.pk hello)).Sealed C (hello.ct C) := Contacts.sealed_stale hNode
      have hOwes : ∀ xs, l.Owes xs → (l.next cfg C (.stale t.pk hello)).Owes xs := fun xs h => h.stale
      have hShows : (p.client.draw env).2.Shows C (l.next cfg C (.stale t.pk hello)) := hDrawn.stale
      refine h.takes [.stale t.pk hello] ht (fun a ha => ?_) (hShows.sendTo env fun ct hct => ?_)
        hOwes (List.nil_sublist _) rfl hRefl rfl hHeld.symm ?_
      · obtain rfl := List.mem_singleton.mp ha
        exact .stale ht (by rw [hHeld]; rfl) hUnder.1 hUnder.2
      · obtain rfl := List.mem_singleton.mp hct
        exact hSealed
      · rintro ct ⟨⟩
        exact hSealed

theorem change_tasks {t : PunchTask Ct} {f : PeerSession → PeerSession} : (p.change t f).tasks = p.tasks := by
  unfold change
  split <;> rfl

/-- A step of a task. -/
theorem Shows.punch {i : Nat} {t : PunchTask Ct} (h : p.Shows cfg C l) (ht : p.tasks[i]? = some t)
    (probeError : Bool) :
    Takes cfg C timers l p env i probeError (Punching.punch cfg C timers env t probeError p) := by
  have hRefl : SameKeys p p := fun _ s hs => ⟨s, hs, rfl⟩
  have hTask := h.tasks t (List.mem_of_getElem? ht)
  unfold Punching.punch
  split
  · -- the task begins
    unfold begin
    split
    · exact h.idle ht h.client rfl hRefl rfl rfl nofun
    · split
      · have hUpdated : (p.client.update t.pk fun s => { s with transport := .relay }).Shows C l :=
          h.client.update fun _ => rfl
        have hPerforms : ∀ c : Client Ct, Performs cfg C env [] [.run t.pk (.buildHello (env.draw c.draws))] c
            (relayHello cfg C env t.pk c) := fun _ => performs_relayHello
        refine h.takes _ ht (fun a ha => ?_) ((hPerforms _).shows l hUpdated) (fun xs hOwes => hOwes.quiet rfl)
          (List.nil_sublist _) rfl hRefl rfl rfl nofun
        obtain rfl := List.mem_singleton.mp ha
        exact .own rfl
      · exact h.idle ht h.client rfl hRefl rfl rfl nofun
  · split
    · exact h.idle ht h.client rfl hRefl rfl rfl nofun
    · refine h.idle ht h.client rfl hRefl rfl rfl fun hello hPhase => ?_
      unfold look at hPhase
      split at hPhase
      · cases hPhase
      · cases hPhase
      · split at hPhase
        · cases hPhase
        · split at hPhase <;> cases hPhase
  · exact h.greet ht
  · -- the same HELLO again
    rename_i hello hPhase
    have hSealed : l.Sealed C hello := hTask.probing hello hPhase
    have hCounted : ∀ p₁, p₁ = (if probeError then p.change t fun s => { s with errorCount := s.errorCount + 1 } else p) →
        p₁.client.Shows C l ∧ p₁.tasks = p.tasks ∧ SameKeys p p₁ := by
      rintro p₁ rfl
      split
      · exact ⟨change_client (fun _ => rfl) h.client, change_tasks, sameKeys_change fun _ => rfl⟩
      · exact ⟨h.client, rfl, hRefl⟩
    obtain ⟨hClient, hTasks, hOrphans⟩ := hCounted _ rfl
    refine h.idle ht (hClient.sendTo env fun ct hct => ?_) hTasks hOrphans rfl rfl nofun
    obtain rfl := List.mem_singleton.mp hct
    exact hSealed
  · exact h.idle ht (change_client (fun _ => rfl) h.client) change_tasks (sameKeys_change fun _ => rfl) rfl rfl nofun
  · exact h.idle ht (change_client (fun _ => rfl) h.client) change_tasks (sameKeys_change fun _ => rfl) rfl rfl nofun
  · exact h.idle ht h.client rfl hRefl rfl rfl hTask.probing

/-- Every step of a connection but a datagram. -/
theorem Shows.next (timers : TimerConfig) (h : p.Shows cfg C l) (hBound : l.Bound cfg C) {e : PunchEvent Ct}
    (hOther : ∀ env src pkt, e ≠ .datagram env src pkt) :
    ∃ acts, (∀ a ∈ acts, Does cfg C timers p e a) ∧ Advances cfg C e l acts p (p.next cfg C timers e) := by
  have hSpawned : ∀ (pk : Option RawKey) (t : PunchTask Ct), t ∈ p.tasks ++ spawn pk →
      t ∈ p.tasks ∨ (t.phase = .spawned ∧ t.held = none) := by
    intro pk t ht
    refine (List.mem_append.mp ht).imp_right fun hNew => ?_
    obtain ⟨k, -, rfl⟩ := List.mem_map.mp hNew
    exact ⟨rfl, rfl⟩
  unfold Punching.next
  cases e with dsimp only
  | datagram env src pkt => exact absurd rfl (hOther env src pkt)
  | notify menv peer =>
    have hOwn : PerformsOwn cfg C menv.toEnv [] p.client (p.client.handleNotify cfg C menv peer) :=
      performsOwn_handleNotify
    generalize p.client.handleNotify cfg C menv peer = c at hOwn ⊢
    exact h.performsOwn hOwn (hSpawned _) rfl rfl rfl
  | answer menv info =>
    have hOwn : PerformsOwn cfg C menv.toEnv [] p.client (p.client.queryAnswered cfg C menv info) :=
      performsOwn_queryAnswered
    generalize p.client.queryAnswered cfg C menv info = c at hOwn ⊢
    exact h.performsOwn hOwn (hSpawned _) rfl rfl rfl
  | forward env netmask pkt =>
    have hOwn : PerformsOwn cfg C env (p.client.forwarded cfg netmask pkt) p.client
        (p.client.routeForward cfg C env netmask pkt) := performsOwn_routeForward
    exact h.performsOwn hOwn (fun _ => .inl) rfl rfl rfl
  | send env pk pkt =>
    have hOwn : PerformsOwn cfg C env [(pk, pkt)] p.client (sendData cfg C env pk pkt p.client) :=
      performsOwn_sendData
    exact h.performsOwn hOwn (fun _ => .inl) rfl rfl rfl
  | prune now => exact h.prune hBound now
  | rekey env =>
    have hOwn : PerformsOwn cfg C env [] p.client (rekeyDue cfg C timers env p.client) := performsOwn_rekeyDue
    exact h.performsOwn hOwn (fun _ => .inl) rfl rfl rfl
  | keepalive env =>
    have hOwn : PerformsOwn cfg C env [] p.client (relayKeepalive cfg C env p.client) := performsOwn_relayKeepalive
    exact h.performsOwn hOwn (fun _ => .inl) rfl rfl rfl
  | timer env =>
    have hOwn : PerformsOwn cfg C env [] p.client (retransmit cfg C env p.client) := performsOwn_retransmit
    exact h.performsOwn hOwn (fun _ => .inl) rfl rfl rfl
  | punch env i probeError =>
    cases ht : p.tasks[i]? with
    | none => exact h.performsOwn .refl (fun _ => .inl) rfl rfl rfl
    | some t =>
      have hTakes : Takes cfg C timers l p env i probeError (Punching.punch cfg C timers env t probeError p) :=
        h.punch ht probeError
      exact hTakes

end Punching

end LinkMesh
