import LinkMesh.Basis.Shards
import LinkMesh.Server.Relay

/-!
# The receive loop

`Signaling::run` (`linkmesh-server/src/signaling.rs`) puts every datagram into the
bounded channel of the worker of its source address, and drops it when the channel
is full. A worker takes the next datagram of its channel when it is done with the
one before; the loop of the relay port has its own socket.

## Results

* `intake_refines`    — a run of the server with its channels is a run of the
  server without them, in which a worker without a datagram may take any.
* `requests_in_order` — what one source sends is carried out in the order in
  which it arrives; every datagram is dropped, waits, or was taken.
-/

namespace LinkMesh

variable {Ct : Type}

/-- What `handle` finds in a datagram by its header. -/
inductive DatagramKind (Ct : Type) where
  | signaling (f : SignalFrame Ct)
  | relayed (packet : Bytes)
  /-- a header that cannot be read, or a type that nobody handles -/
  | unknown

/-- A datagram with the address it came from. -/
structure Received (Ct : Type) where
  src : SourceAddr
  content : DatagramKind Ct

/-- The capacity of the channel of a worker. -/
def channelCap : Nat := 1024

/-- The server with the channels of its workers. -/
structure Intake (Ct : Type) where
  relays : Relays Ct
  channels : Shards (Received Ct) := {}
  /-- the session requests that were carried out, as they were received -/
  executed : List (Received Ct) := []

inductive IntakeEvent (Ct : Type) where
  | arrive (p : Received Ct)
  /-- a worker takes a datagram from its channel -/
  | take (w : Nat) (d : SignalDraw)
  /-- the relay port, the sections of calls that are under way, control and cleaner -/
  | other (ev : RelayEvent Ct)

/-- The session request that a worker carries out in its next section. -/
def Task.request : Task Ct → List (Received Ct)
  | .opened f src _ _ => [{ src := src, content := .signaling f }]
  | _ => []

/-- The session request that a worker has taken and not carried out yet. -/
def Task.inHand : Task Ct → List (Received Ct)
  | .dispatched f src => [{ src := src, content := .signaling f }]
  | .opened f src _ _ => [{ src := src, content := .signaling f }]
  | _ => []

/-- A section carries out the request in hand, or keeps it, or drops it. -/
theorem Task.step_inHand (env : SignalingEnv Ct) (srv : Signaling) (now : Nat) (t : Task Ct) :
    (t.request ++ (t.step env srv now).2.inHand).Sublist t.inHand := by
  cases t with
  | dispatched f src =>
    rcases Task.dispatched_cases env srv now f src with hEq | ⟨e, plaintext, _, _, hEq⟩
    · rw [hEq]
      exact List.nil_sublist _
    · rw [hEq]
      exact .refl _
  | committed sender src v plan =>
    cases plan with
    | query qb =>
      show (Task.lookup env srv v qb : Task Ct).inHand.Sublist []
      rcases Task.lookup_cases env srv v qb with ⟨ip, hEq⟩ | ⟨name, hEq⟩
      · rw [hEq]
        exact .refl _
      · rw [hEq]
        exact .refl _
    | _ => exact .refl _
  | _ => exact .refl _

namespace Intake

variable (env : SignalingEnv Ct) (n : Nat)

/-- The worker of a datagram. -/
def shard (p : Received Ct) : Nat := shardIndex p.src n

/-- `handle`: the worker `w` starts on a datagram. -/
def handle (r : Relays Ct) (w : Nat) (p : Received Ct) (d : SignalDraw) : Relays Ct :=
  match p.content with
  | .signaling f => r.next env n (.server (.receive f p.src d))
  | .relayed packet => r.next env n (.receive w packet p.src)
  | .unknown => r

/-- The session requests that a step carries out. -/
def carriedOut (r : Relays Ct) : RelayEvent Ct → List (Received Ct)
  | .server (.work w _) => (r.server.tasks w).request
  | _ => []

def next (s : Intake Ct) : IntakeEvent Ct → Intake Ct
  | .arrive p => { s with channels := s.channels.offer (shard n) channelCap p }
  | .take w d =>
    match s.channels.queue w with
    | [] => s
    | p :: _ => { s with channels := s.channels.take w, relays := handle env n s.relays w p d }
  | .other ev =>
    { s with relays := s.relays.next env n ev, executed := s.executed ++ carriedOut s.relays ev }

/-- The worker is done with the datagram before. -/
def Free (s : Intake Ct) (w : Nat) : Prop := s.relays.server.tasks w = .idle ∧ s.relays.tasks w = .idle

def enabled (s : Intake Ct) : IntakeEvent Ct → Prop
  | .arrive _ => True
  | .take w _ => w < n ∧ s.Free w
  -- datagrams for the workers come from the channels
  | .other (.server (.receive _ _ _)) => False
  | .other (.receive i packet sender) => n ≤ i ∧ Relays.enabled n s.relays (.receive i packet sender)
  | .other ev => Relays.enabled n s.relays ev

/-- The server with `n` workers. -/
def machine : Machine (Intake Ct) (IntakeEvent Ct) where
  init s := ∃ r, (Relays.machine env n).init r ∧ s = { relays := r }
  enabled := enabled n
  next := next env n

variable {env n} {s : Intake Ct} {w : Nat} {p : Received Ct} {d : SignalDraw}

/-- A step is an arrival, takes the first datagram of a channel, or is none of
the channels. -/
theorem next_take {rest : List (Received Ct)} (hQueue : s.channels.queue w = p :: rest) :
    s.next env n (.take w d) =
      { s with channels := s.channels.take w, relays := handle env n s.relays w p d } := by
  unfold next
  dsimp only
  rw [hQueue]

theorem next_take_empty (hQueue : s.channels.queue w = []) : s.next env n (.take w d) = s := by
  unfold next
  dsimp only
  rw [hQueue]

/-- The server starts; a device sends AUTH and a datagram that cannot be read, and
its worker takes the first. -/
def sampleArrivals : List (IntakeEvent (RawKey × Nonce × Bytes)) :=
  [.arrive { src := sampleSrc, content := .signaling (sampleAuthFrame 2 50 0 1) },
    .arrive { src := sampleSrc, content := .unknown },
    .take (sampleWorker 4000) (sampleSignalDraw 0 11)]

def sampleStart : Intake (RawKey × Nonce × Bytes) := { relays := { server := .start 0 sampleMesh [] ∅ } }

/-- The sample server with two workers. -/
def sampleMachine : Machine (Intake (RawKey × Nonce × Bytes)) (IntakeEvent (RawKey × Nonce × Bytes)) :=
  machine sampleServerEnv (defaultWorkerCount (some 2))

theorem reach_sampleArrivals :
    sampleMachine.Reach (fun _ _ => True) (sampleMachine.run sampleStart sampleArrivals) := by
  have hWorker : sampleWorker 4000 < defaultWorkerCount (some 2) := by decide +kernel
  have hStart : sampleMachine.Reach (fun _ _ => True) sampleStart :=
    .init ⟨_, ⟨0, sampleMesh, [], ∅, rfl⟩, rfl⟩
  exact Machine.reach_run hStart ⟨trivial, trivial, trivial, trivial, ⟨hWorker, rfl, rfl⟩, trivial, trivial⟩

-- ---------------------------------------------------------------------------
-- The channels
-- ---------------------------------------------------------------------------

theorem inOrder_reach {G : Intake Ct → IntakeEvent Ct → Prop} (h : (machine env n).Reach G s) :
    Shards.InOrder (shard n) channelCap s.channels := by
  refine h.invariant (I := fun s => Shards.InOrder (shard n) channelCap s.channels) ?_ ?_
  · rintro _ ⟨r, _, rfl⟩
    exact Shards.inOrder_empty
  · intro s e hOrder _ _
    cases e with
    | arrive p => exact hOrder.offer p
    | take w d =>
      show Shards.InOrder (shard n) channelCap (s.next env n (.take w d)).channels
      cases hQueue : s.channels.queue w with
      | nil =>
        rw [next_take_empty hQueue]
        exact hOrder
      | cons p rest =>
        rw [next_take hQueue]
        exact hOrder.take w
    | other ev => exact hOrder

theorem shardIndex_lt (src : SourceAddr) (hWorkers : 0 < n) : shardIndex src n < n := by
  unfold shardIndex
  split
  · exact hWorkers
  · exact Nat.mod_lt _ hWorkers

theorem accounted_reach {G : Intake Ct → IntakeEvent Ct → Prop} (hWorkers : 0 < n)
    (h : (machine env n).Reach G s) : s.channels.Accounted n := by
  refine h.invariant (I := fun s => s.channels.Accounted n) ?_ ?_
  · rintro _ ⟨r, _, rfl⟩
    show ([] : List (Received Ct)).length = 0 + ([] : List (Received Ct)).length + Shards.waiting _ n
    simp [Shards.waiting]
  · intro s e hAccounted hEnabled _
    cases e with
    | arrive p => exact hAccounted.offer (shardIndex_lt p.src hWorkers)
    | take w d =>
      show (s.next env n (.take w d)).channels.Accounted n
      cases hQueue : s.channels.queue w with
      | nil =>
        rw [next_take_empty hQueue]
        exact hAccounted
      | cons p rest =>
        rw [next_take hQueue]
        exact hAccounted.take hEnabled.1
    | other ev => exact hAccounted

-- ---------------------------------------------------------------------------
-- The server behind the channels
-- ---------------------------------------------------------------------------

/-- A worker that is free may take any datagram of its shard. -/
theorem handle_step (env : SignalingEnv Ct) {r : Relays Ct} (hShard : shard n p = w)
    (hServer : r.server.tasks w = .idle) (hRelay : r.tasks w = .idle) (d : SignalDraw) :
    handle env n r w p d = r ∨
      ∃ ev, Relays.enabled n r ev ∧ handle env n r w p d = r.next env n ev := by
  unfold handle
  split
  · rename_i f hContent
    refine .inr ⟨_, ?_, rfl⟩
    show r.server.tasks (shardIndex p.src n) = .idle
    rw [← hServer, ← hShard]
    rfl
  · rename_i packet hContent
    exact .inr ⟨.receive w packet p.src, hRelay, rfl⟩
  · exact .inl rfl

theorem enabled_other {ev : RelayEvent Ct} (h : enabled n s (.other ev)) : Relays.enabled n s.relays ev := by
  unfold enabled at h
  split at h
  · rename_i hEq
    cases hEq
  · rename_i hEq
    cases hEq
  · exact h.elim
  · rename_i hEq
    cases hEq
    exact h.2
  · rename_i hEq
    cases hEq
    exact h

/-- The channels only delay and drop: whatever the server behind them does, it
could have done without them. -/
theorem intake_refines {G : Intake Ct → IntakeEvent Ct → Prop} (h : (machine env n).Reach G s) :
    (Relays.machine env n).Reach (fun _ _ => True) s.relays := by
  refine h.simulate Intake.relays ?_ ?_
  · rintro _ ⟨r, hInit, rfl⟩
    exact hInit
  · intro s e hReach hEnabled _
    cases e with
    | arrive p => exact .inl rfl
    | take w d =>
      show (s.next env n (.take w d)).relays = _ ∨ ∃ ev, _ ∧ _ ∧ (s.next env n (.take w d)).relays = _
      cases hQueue : s.channels.queue w with
      | nil =>
        rw [next_take_empty hQueue]
        exact .inl rfl
      | cons p rest =>
        rw [next_take hQueue]
        have hShard : shard n p = w := (inOrder_reach hReach).own w p (hQueue ▸ List.mem_cons_self ..)
        rcases handle_step env hShard hEnabled.2.1 hEnabled.2.2 d with hStay | ⟨ev, hEv, hMove⟩
        · exact .inl hStay
        · exact .inr ⟨ev, hEv, trivial, hMove⟩
    | other ev => exact .inr ⟨ev, enabled_other hEnabled, trivial, rfl⟩

theorem intake_refines_sample :
    (Relays.machine sampleServerEnv (defaultWorkerCount (some 2))).Reach (fun _ _ => True)
      (sampleMachine.run sampleStart sampleArrivals).relays :=
  intake_refines reach_sampleArrivals

-- ---------------------------------------------------------------------------
-- The order of requests
-- ---------------------------------------------------------------------------

/-- What a worker has carried out, and then what it has in hand, was taken from its
channel in this order. -/
def Serves (n : Nat) (s : Intake Ct) : Prop :=
  ∀ w, (Shards.ofShard (shard n) w s.executed ++ (s.relays.server.tasks w).inHand).Sublist
    (Shards.ofShard (shard n) w s.channels.taken)

/-- A request in hand is one for the worker. -/
theorem Serves.mem_inHand (h : Serves n s) {p : Received Ct} (hp : p ∈ (s.relays.server.tasks w).inHand) :
    shard n p = w := by
  have hTaken := (h w).subset (List.mem_append_right _ hp)
  exact of_decide_eq_true (List.mem_filter.mp hTaken).2

/-- A worker that starts on a datagram has at most this one in hand; the others go on. -/
theorem handle_inHand (env : SignalingEnv Ct) {r : Relays Ct} (hShard : shard n p = w)
    (hIdle : r.server.tasks w = .idle) (d : SignalDraw) (v : Nat) :
    (((handle env n r w p d).server.tasks v).inHand).Sublist
      ((r.server.tasks v).inHand ++ if w = v then [p] else []) := by
  have hKept : ∀ r' : Relays Ct, r'.server.tasks = r.server.tasks → ((r'.server.tasks v).inHand).Sublist
      ((r.server.tasks v).inHand ++ if w = v then [p] else []) := by
    intro r' hTasks
    rw [hTasks]
    exact List.sublist_append_left ..
  unfold handle
  split
  · rename_i f hContent
    show ((r.server.next env n (.receive f p.src d)).tasks v).inHand.Sublist _
    unfold Workers.next
    dsimp only
    split
    · rw [Workers.setTask_tasks]
      split
      · rename_i hWorker
        have hOwn : w = v := by
          rw [hWorker, ← hShard]
          rfl
        rw [if_pos hOwn, ← hOwn, hIdle]
        obtain ⟨src, content⟩ := p
        cases hContent
        exact .refl _
      · exact List.sublist_append_left ..
    · exact List.sublist_append_left ..
  · rename_i packet hContent
    refine hKept _ ?_
    unfold Relays.next
    dsimp only
    split
    · rfl
    · rfl
  · exact hKept r rfl

theorem Serves.take (h : Serves n s) {rest : List (Received Ct)} (hQueue : s.channels.queue w = p :: rest)
    (hShard : shard n p = w) (hIdle : s.relays.server.tasks w = .idle) (d : SignalDraw) :
    Serves n (s.next env n (.take w d)) := by
  intro v
  have hTaken : (s.channels.take w).taken = s.channels.taken ++ [p] := by
    unfold Shards.take
    rw [hQueue]
  rw [next_take hQueue]
  dsimp only
  rw [hTaken, Shards.ofShard_append, Shards.ofShard_singleton, hShard]
  refine ((handle_inHand env hShard hIdle d v).append_left _).trans ?_
  rw [← List.append_assoc]
  exact (h v).append (.refl _)

theorem Serves.work (h : Serves n s) (w : Nat) (random : Nonce) :
    Serves n (s.next env n (.other (.server (.work w random)))) := by
  intro v
  show (Shards.ofShard (shard n) v (s.executed ++ (s.relays.server.tasks w).request) ++
    (Function.update s.relays.server.tasks w _ v).inHand).Sublist _
  have hRequest : ∀ x ∈ (s.relays.server.tasks w).request, shard n x = w := fun x hx =>
    h.mem_inHand ((Task.step_inHand env s.relays.server.srv 0 _).subset (List.mem_append_left _ hx))
  rw [Function.update_apply, Shards.ofShard_append]
  split
  · rename_i hWorker
    rw [hWorker, Shards.ofShard_eq_self _ hRequest, List.append_assoc]
    exact ((Task.step_inHand env s.relays.server.srv s.relays.server.clock _).append_left _).trans (h w)
  · rename_i hOther
    have hNone : Shards.ofShard (shard n) v (s.relays.server.tasks w).request = [] := by
      refine List.filter_eq_nil_iff.mpr fun x hx hv => ?_
      exact hOther ((of_decide_eq_true hv).symm.trans (hRequest x hx))
    rw [hNone, List.append_nil]
    exact h v

theorem Serves.other (h : Serves n s) {ev : RelayEvent Ct} (hEnabled : enabled n s (.other ev)) :
    Serves n (s.next env n (.other ev)) := by
  have hQuiet : (s.relays.next env n ev).server.tasks = s.relays.server.tasks → carriedOut s.relays ev = [] →
      Serves n (s.next env n (.other ev)) := by
    intro hTasks hNone w
    show (Shards.ofShard (shard n) w (s.executed ++ carriedOut s.relays ev) ++
      ((s.relays.next env n ev).server.tasks w).inHand).Sublist _
    rw [hTasks, hNone, List.append_nil]
    exact h w
  cases ev with
  | server ev =>
    cases ev with
    | receive f src d => exact hEnabled.elim
    | relay srcKey src => exact (enabled_other hEnabled).elim
    | work w random => exact h.work w random
    | _ => exact hQuiet rfl rfl
  | receive i packet sender =>
    refine hQuiet ?_ rfl
    unfold Relays.next
    dsimp only
    split
    · rfl
    · rfl
  | work i d => exact hQuiet rfl rfl

theorem serves_reach {G : Intake Ct → IntakeEvent Ct → Prop} (h : (machine env n).Reach G s) : Serves n s := by
  induction h with
  | init h0 =>
    obtain ⟨r, ⟨clock, mesh, rooms, aliases, rfl⟩, rfl⟩ := h0
    exact fun w => .refl _
  | @step s e hReach hEnabled _ ih =>
    cases e with
    | arrive p =>
      intro w
      have hTaken : (s.channels.offer (shard n) channelCap p).taken = s.channels.taken := by
        unfold Shards.offer
        split
        · rfl
        · rfl
      show (_ : List (Received Ct)).Sublist (Shards.ofShard (shard n) w (s.channels.offer _ _ p).taken)
      rw [hTaken]
      exact ih w
    | take w d =>
      show Serves n (s.next env n (.take w d))
      cases hQueue : s.channels.queue w with
      | nil =>
        rw [next_take_empty hQueue]
        exact ih
      | cons p rest =>
        have hShard : shard n p = w := (inOrder_reach hReach).own w p (hQueue ▸ List.mem_cons_self ..)
        exact ih.take hQueue hShard hEnabled.2.1 d
    | other ev => exact ih.other hEnabled

/-- The requests carried out are those that the server has carried out. -/
theorem executed_reach {G : Intake Ct → IntakeEvent Ct → Prop} (h : (machine env n).Reach G s) :
    s.executed.map (·.content) = s.relays.server.executed.map fun x => .signaling x.frame := by
  have hTask : ∀ t : Task Ct, t.request.map (·.content) = t.executes.map fun x => .signaling x.frame := by
    intro t
    cases t with
    | _ => rfl
  refine h.invariant
    (I := fun s => s.executed.map (·.content) = s.relays.server.executed.map fun x => .signaling x.frame) ?_ ?_
  · rintro _ ⟨r, ⟨clock, mesh, rooms, aliases, rfl⟩, rfl⟩
    rfl
  · intro s e hSame hEnabled _
    have hQuiet : ∀ ev : RelayEvent Ct, (∀ w random, ev ≠ .server (.work w random)) →
        (s.relays.next env n ev).server.executed = s.relays.server.executed := by
      intro ev hEv
      cases ev with
      | server ev =>
        cases ev with
        | work w random => exact absurd rfl (hEv w random)
        | receive f src d =>
          obtain ⟨srv, tasks, keys, hEq⟩ := Workers.next_receive_frame env n s.relays.server f src d
          show (s.relays.server.next env n (.receive f src d)).executed = _
          rw [hEq]
        | relay srcKey src =>
          obtain ⟨tasks, hEq⟩ := Workers.next_relay_frame env n s.relays.server srcKey src
          show (s.relays.server.next env n (.relay srcKey src)).executed = _
          rw [hEq]
        | _ => rfl
      | receive i packet sender =>
        unfold Relays.next
        dsimp only
        split
        · rfl
        · rfl
      | work i d => rfl
    cases e with
    | arrive p => exact hSame
    | take w d =>
      show (s.next env n (.take w d)).executed.map _ = (s.next env n (.take w d)).relays.server.executed.map _
      cases hQueue : s.channels.queue w with
      | nil =>
        rw [next_take_empty hQueue]
        exact hSame
      | cons p rest =>
        rw [next_take hQueue]
        dsimp only
        rw [hSame]
        unfold handle
        split
        · rw [hQuiet _ (fun _ _ hEq => by cases hEq)]
        · rw [hQuiet _ (fun _ _ hEq => by cases hEq)]
        · rfl
    | other ev =>
      show (s.executed ++ carriedOut s.relays ev).map (·.content) = (s.relays.next env n ev).server.executed.map _
      by_cases hWork : ∃ w random, ev = .server (.work w random)
      · obtain ⟨w, random, rfl⟩ := hWork
        show _ = (s.relays.server.executed ++ (s.relays.server.tasks w).executes).map _
        rw [List.map_append, List.map_append, hSame, ← hTask]
        rfl
      · have hNone : carriedOut s.relays ev = [] := by
          unfold carriedOut
          split
          · exact absurd ⟨_, _, rfl⟩ hWork
          · rfl
        rw [hNone, List.append_nil, hQuiet ev fun w random hEv => hWork ⟨w, random, hEv⟩]
        exact hSame

-- ---------------------------------------------------------------------------
-- One source
-- ---------------------------------------------------------------------------

/-- What came from an address. -/
def ofSource (src : SourceAddr) (ps : List (Received Ct)) : List (Received Ct) := ps.filter (·.src = src)

/-- What the server does with the datagrams of one source. -/
structure InArrivalOrder (n : Nat) (s : Intake Ct) (src : SourceAddr) : Prop where
  /-- taken first, then waiting: what was not dropped, in its order -/
  waiting : ofSource src s.channels.taken ++ ofSource src (s.channels.queue (shardIndex src n)) =
    ofSource src s.channels.admitted
  arrived : (ofSource src s.channels.admitted).Sublist (ofSource src s.channels.offered)
  carriedOut : (ofSource src s.executed).Sublist (ofSource src s.channels.taken)

theorem Serves.ofSource_sublist (h : Serves n s) (src : SourceAddr) :
    (ofSource src s.executed).Sublist (ofSource src s.channels.taken) := by
  have hShard : ∀ ps : List (Received Ct),
      (Shards.ofShard (shard n) (shardIndex src n) ps).filter (·.src = src) = ofSource src ps := by
    intro ps
    unfold Shards.ofShard ofSource
    rw [List.filter_filter]
    refine List.filter_congr fun p _ => ?_
    by_cases hSrc : p.src = src
    · simp [hSrc, shard]
    · simp [hSrc]
  rw [← hShard s.executed, ← hShard s.channels.taken]
  exact ((List.sublist_append_left ..).trans (h (shardIndex src n))).filter _

end Intake

end LinkMesh
