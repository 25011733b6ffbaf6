import LinkMesh.Server.Relay

/-!
# The batcher

`batch_worker` and `flush_batch` (`linkmesh-server/src/signaling.rs`). The parts
for one destination are collected until their bytes reach the limit or the
ticker goes off; the pending batches belong to the worker alone, so that an item
or a tick is one step. Sends are taken to succeed.

## Results

* `batcher_in_order`        — nothing is lost, sent twice, reordered or sent to
  another destination, and no pending batch reaches the limit;
* `batcher_deliverable_iff` — when every datagram can be sent and is accepted.
-/

namespace LinkMesh

open Std KeyMap

/-- Parameters of the batcher in the configuration. -/
structure RelayBatchConfig where
  enabled : Bool := true
  maxBytes : Nat := 1200
  deriving DecidableEq, Repr

/-- `RelayBatcher::spawn`: the limit that the worker is started with. -/
def RelayBatchConfig.spawn (cfg : RelayBatchConfig) : Option Nat :=
  if !cfg.enabled then none else some (max cfg.maxBytes 1)

structure BatchItem where
  dest : RawKey
  addr : SourceAddr
  subframe : Bytes
  deriving DecidableEq, Repr

/-- The parts for one destination, and how many bytes they have. -/
structure PendingBatch where
  addr : SourceAddr
  frames : List Bytes
  bytes : Nat
  deriving DecidableEq, Repr

/-- A batch that was handed to the socket. -/
structure SentBatch where
  dest : RawKey
  addr : SourceAddr
  frames : List Bytes
  deriving DecidableEq, Repr

def SentBatch.datagram (sb : SentBatch) : Bytes := frameRelayBatch sb.dest sb.frames

/-- What the worker holds, and what it has sent. -/
structure Batcher where
  pending : ExtTreeMap RawKey PendingBatch := ∅
  sent : List SentBatch := []

/-- An item from the queue, or the ticker, with the order in which the map gives
its keys. -/
inductive BatchEvent where
  | item (it : BatchItem)
  | tick (order : List RawKey)
  deriving DecidableEq, Repr

namespace Batcher

/-- `flush_batch` -/
def flush (dest : RawKey) (pb : PendingBatch) : List SentBatch :=
  if pb.frames.isEmpty then [] else [{ dest := dest, addr := pb.addr, frames := pb.frames }]

/-- The batch that an item makes of the pending one. -/
def extend (b : Batcher) (it : BatchItem) : PendingBatch :=
  let pb := b.pending[it.dest]?.getD { addr := it.addr, frames := [], bytes := 0 }
  { addr := it.addr, bytes := pb.bytes + it.subframe.length, frames := pb.frames ++ [it.subframe] }

/-- An item goes to the batch of its destination, which is sent when it has
enough bytes. -/
def item (maxBytes : Nat) (b : Batcher) (it : BatchItem) : Batcher :=
  let pb := b.extend it
  let pending := b.pending.insert it.dest pb
  if maxBytes ≤ pb.bytes then
    { pending := pending.erase it.dest, sent := b.sent ++ flush it.dest pb }
  else { b with pending := pending }

/-- The pending batch of a key is sent. -/
def flushKey (b : Batcher) (k : RawKey) : Batcher :=
  match b.pending[k]? with
  | some pb => { pending := b.pending.erase k, sent := b.sent ++ flush k pb }
  | none => b

def tick (b : Batcher) (order : List RawKey) : Batcher := order.foldl flushKey b

def next (maxBytes : Nat) (b : Batcher) : BatchEvent → Batcher
  | .item it => b.item maxBytes it
  | .tick order => b.tick order

/-- `batch_worker`; the ticker visits every key of the map, in any order. -/
def machine (maxBytes : Nat) : Machine Batcher BatchEvent where
  init b := b = {}
  enabled b e := ∀ order, e = .tick order → order.Perm b.pending.keys
  next := next maxBytes

/-- The parts sent to a destination so far. -/
def emitted (b : Batcher) (d : RawKey) : List Bytes :=
  (b.sent.filter fun sb => sb.dest = d).flatMap (·.frames)

def pendingFrames (b : Batcher) (d : RawKey) : List Bytes :=
  (b.pending[d]?.map (·.frames)).getD []

end Batcher

/-- The part that an event brings for a destination. -/
def BatchEvent.partFor (d : RawKey) : BatchEvent → Option Bytes
  | item it => if it.dest = d then some it.subframe else none
  | tick _ => none

/-- The parts that a run brings for a destination. -/
def enqueuedFor (d : RawKey) (es : List BatchEvent) : List Bytes := es.filterMap (BatchEvent.partFor d)

namespace Batcher

variable {maxBytes : Nat} {b : Batcher} {it : BatchItem} {d k : RawKey} {pb : PendingBatch}

-- ---------------------------------------------------------------------------
-- Pending batches
-- ---------------------------------------------------------------------------

/-- A pending batch: its bytes are those of its parts, it is not empty, and it is
below the limit. -/
structure PendingOk (maxBytes : Nat) (pb : PendingBatch) : Prop where
  bytes : pb.bytes = (pb.frames.map List.length).sum
  nonempty : pb.frames ≠ []
  below : pb.bytes < maxBytes

/-- Every pending batch is one, and what was sent was not empty. -/
structure Wf (maxBytes : Nat) (b : Batcher) : Prop where
  pending : ∀ (k : RawKey) (pb : PendingBatch), b.pending[k]? = some pb → PendingOk maxBytes pb
  sent : ∀ sb ∈ b.sent, sb.frames ≠ []

theorem flush_of_nonempty (h : pb.frames ≠ []) :
    flush k pb = [{ dest := k, addr := pb.addr, frames := pb.frames }] := by
  unfold flush
  rw [if_neg (by simpa using h)]

theorem extend_frames : (b.extend it).frames = b.pendingFrames it.dest ++ [it.subframe] := by
  unfold extend pendingFrames
  cases b.pending[it.dest]? <;> rfl

theorem extend_nonempty : (b.extend it).frames ≠ [] := by
  rw [extend_frames]
  exact List.concat_ne_nil _ _

theorem Wf.extend_bytes (h : Wf maxBytes b) :
    (b.extend it).bytes = ((b.extend it).frames.map List.length).sum := by
  have hHeld : ∀ pb, b.pending[it.dest]? = some pb → pb.bytes = (pb.frames.map List.length).sum :=
    fun pb hp => (h.pending it.dest pb hp).bytes
  unfold extend
  cases hp : b.pending[it.dest]? with
  | none => simp
  | some pb => simp [hHeld pb hp]

/-- What an item does: its batch is sent, or is kept pending. -/
theorem item_cases (maxBytes : Nat) (b : Batcher) (it : BatchItem) :
    (maxBytes ≤ (b.extend it).bytes ∧ b.item maxBytes it =
      { pending := b.pending.erase it.dest
        sent := b.sent ++ [{ dest := it.dest, addr := it.addr, frames := (b.extend it).frames }] }) ∨
    ((b.extend it).bytes < maxBytes ∧
      b.item maxBytes it = { b with pending := b.pending.insert it.dest (b.extend it) }) := by
  by_cases hFull : maxBytes ≤ (b.extend it).bytes
  · refine .inl ⟨hFull, ?_⟩
    have hGone : (b.pending.insert it.dest (b.extend it)).erase it.dest = b.pending.erase it.dest := by
      refine ExtTreeMap.ext_getElem? fun {j} => ?_
      rw [getElem?_erase, getElem?_erase, getElem?_insert]
      split <;> rfl
    unfold item
    dsimp only
    rw [if_pos hFull, flush_of_nonempty extend_nonempty, hGone]
    rfl
  · exact .inr ⟨Nat.lt_of_not_le hFull, if_neg hFull⟩

/-- What the ticker does with one key: a pending batch is sent. -/
theorem Wf.flushKey_cases (h : Wf maxBytes b) (k : RawKey) :
    (b.pending[k]? = none ∧ b.flushKey k = b) ∨
    ∃ pb, b.pending[k]? = some pb ∧ b.flushKey k =
      { pending := b.pending.erase k
        sent := b.sent ++ [{ dest := k, addr := pb.addr, frames := pb.frames }] } := by
  unfold flushKey
  cases hp : b.pending[k]? with
  | none => exact .inl ⟨rfl, rfl⟩
  | some pb =>
    dsimp only
    rw [flush_of_nonempty (h.pending k pb hp).nonempty]
    exact .inr ⟨pb, rfl, rfl⟩

theorem Wf.item (h : Wf maxBytes b) (it : BatchItem) : Wf maxBytes (b.item maxBytes it) := by
  rcases item_cases maxBytes b it with ⟨-, hNext⟩ | ⟨hBelow, hNext⟩
  · rw [hNext]
    constructor
    · exact fun k pb hp => h.pending k pb (of_getElem?_erase hp).2
    · rw [List.forall_mem_append]
      exact ⟨h.sent, List.forall_mem_singleton.mpr extend_nonempty⟩
  · rw [hNext]
    refine ⟨fun k pb hp => ?_, h.sent⟩
    rcases insert_cases hp with ⟨-, rfl⟩ | hOld
    · exact ⟨h.extend_bytes, extend_nonempty, hBelow⟩
    · exact h.pending k pb hOld

theorem Wf.flushKey (h : Wf maxBytes b) (k : RawKey) : Wf maxBytes (b.flushKey k) := by
  rcases h.flushKey_cases k with ⟨-, hNext⟩ | ⟨pb, hp, hNext⟩
  · rw [hNext]
    exact h
  · rw [hNext]
    constructor
    · exact fun j pb' hp' => h.pending j pb' (of_getElem?_erase hp').2
    · rw [List.forall_mem_append]
      exact ⟨h.sent, List.forall_mem_singleton.mpr (h.pending k pb hp).nonempty⟩

theorem Wf.tick (h : Wf maxBytes b) (order : List RawKey) : Wf maxBytes (b.tick order) := by
  unfold Batcher.tick
  induction order generalizing b with
  | nil => exact h
  | cons k order ih => exact ih (h.flushKey k)

theorem Wf.next (h : Wf maxBytes b) (e : BatchEvent) : Wf maxBytes (b.next maxBytes e) := by
  cases e with
  | item it => exact h.item it
  | tick order => exact h.tick order

theorem wf_empty (maxBytes : Nat) : Wf maxBytes {} := by
  refine ⟨fun k pb hp => ?_, List.forall_mem_nil _⟩
  rw [ExtTreeMap.getElem?_empty] at hp
  cases hp

theorem Wf.run (h : Wf maxBytes b) (es : List BatchEvent) : Wf maxBytes ((machine maxBytes).run b es) :=
  Machine.run_invariant (fun _ e hb => hb.next e) h es

-- ---------------------------------------------------------------------------
-- In order
-- ---------------------------------------------------------------------------

/-- What was sent to a destination, and then what is pending for it. -/
def total (b : Batcher) (d : RawKey) : List Bytes := b.emitted d ++ b.pendingFrames d

theorem emitted_concat {sb : SentBatch} {pending : ExtTreeMap RawKey PendingBatch} :
    emitted { pending := pending, sent := b.sent ++ [sb] } d =
      b.emitted d ++ if sb.dest = d then sb.frames else [] := by
  unfold emitted
  rw [List.filter_append, List.flatMap_append]
  by_cases hd : sb.dest = d <;> simp [hd]

theorem total_item : (b.item maxBytes it).total d =
    b.total d ++ if it.dest = d then [it.subframe] else [] := by
  unfold total
  by_cases hd : it.dest = d
  · subst hd
    rcases item_cases maxBytes b it with ⟨-, hNext⟩ | ⟨-, hNext⟩
    · have hGone : pendingFrames { pending := b.pending.erase it.dest, sent := (b.item maxBytes it).sent }
          it.dest = [] := by
        unfold pendingFrames
        rw [getElem?_erase, if_pos rfl]
        rfl
      rw [hNext] at hGone ⊢
      rw [hGone, emitted_concat, if_pos rfl, if_pos rfl, extend_frames, List.append_nil,
        List.append_assoc]
    · have hKept : pendingFrames { b with pending := b.pending.insert it.dest (b.extend it) } it.dest =
          b.pendingFrames it.dest ++ [it.subframe] := by
        rw [← extend_frames]
        unfold pendingFrames
        rw [getElem?_insert, if_pos rfl]
        rfl
      rw [hNext, hKept, if_pos rfl, ← List.append_assoc]
      rfl
  · rcases item_cases maxBytes b it with ⟨-, hNext⟩ | ⟨-, hNext⟩
    · rw [hNext, emitted_concat, if_neg hd, if_neg hd, List.append_nil, List.append_nil]
      unfold pendingFrames
      rw [getElem?_erase, if_neg (Ne.symm hd)]
    · rw [hNext, if_neg hd, List.append_nil]
      unfold pendingFrames
      rw [getElem?_insert, if_neg (Ne.symm hd)]
      rfl

theorem Wf.total_flushKey (h : Wf maxBytes b) : (b.flushKey k).total d = b.total d := by
  rcases h.flushKey_cases k with ⟨-, hNext⟩ | ⟨pb, hp, hNext⟩
  · rw [hNext]
  · rw [hNext]
    unfold total
    rw [emitted_concat]
    by_cases hd : k = d
    · subst hd
      rw [if_pos rfl]
      unfold pendingFrames
      rw [getElem?_erase, if_pos rfl, hp]
      exact List.append_nil _
    · rw [if_neg hd, List.append_nil]
      unfold pendingFrames
      rw [getElem?_erase, if_neg (Ne.symm hd)]

theorem Wf.total_tick (h : Wf maxBytes b) (order : List RawKey) : (b.tick order).total d = b.total d := by
  unfold Batcher.tick
  induction order generalizing b with
  | nil => rfl
  | cons k order ih => exact (ih (h.flushKey k)).trans h.total_flushKey

/-- Along a run, what is sent or pending for a destination is what was there,
and then what the items brought. -/
theorem Wf.total_run (h : Wf maxBytes b) (es : List BatchEvent) :
    ((machine maxBytes).run b es).total d = b.total d ++ enqueuedFor d es := by
  induction es generalizing b with
  | nil => exact (List.append_nil _).symm
  | cons e es ih =>
    have hTail : ((machine maxBytes).run b (e :: es)).total d =
        (b.next maxBytes e).total d ++ enqueuedFor d es := ih (h.next e)
    rw [hTail]
    cases e with
    | tick order =>
      show (b.tick order).total d ++ _ = _
      rw [h.total_tick]
      rfl
    | item it =>
      show (b.item maxBytes it).total d ++ _ = _
      rw [total_item, List.append_assoc]
      congr 1
      by_cases hd : it.dest = d
      · have hPart : BatchEvent.partFor d (.item it) = some it.subframe := if_pos hd
        rw [if_pos hd]
        exact (List.filterMap_cons_some hPart).symm
      · have hPart : BatchEvent.partFor d (.item it) = none := if_neg hd
        rw [if_neg hd]
        exact (List.filterMap_cons_none hPart).symm

/-- What is sent to a destination was enqueued for it. -/
theorem mem_enqueuedFor {es : List BatchEvent} {f : Bytes} (h : f ∈ enqueuedFor d es) :
    ∃ it, .item it ∈ es ∧ it.dest = d ∧ it.subframe = f := by
  obtain ⟨e, he, hf⟩ := List.mem_filterMap.mp h
  cases e with
  | tick order => cases hf
  | item it =>
    unfold BatchEvent.partFor at hf
    dsimp only at hf
    split at hf
    · rename_i hd
      exact ⟨it, he, hd, Option.some.inj hf⟩
    · cases hf

theorem sent_of_run {es : List BatchEvent} {sb : SentBatch} {f : Bytes}
    (hsb : sb ∈ ((machine maxBytes).run {} es).sent) (hf : f ∈ sb.frames) :
    ∃ it, .item it ∈ es ∧ it.dest = sb.dest ∧ it.subframe = f := by
  refine mem_enqueuedFor ?_
  have hTotal : ((machine maxBytes).run {} es).total sb.dest = enqueuedFor sb.dest es :=
    (wf_empty maxBytes).total_run es
  rw [← hTotal]
  refine List.mem_append_left _ ?_
  unfold emitted
  rw [List.mem_flatMap]
  exact ⟨sb, List.mem_filter.mpr ⟨hsb, decide_eq_true rfl⟩, hf⟩

/-- Whatever items come and whenever the ticker goes off: for each destination,
the parts that were sent and then the pending ones are those that were
enqueued, in their order; a part that is sent was enqueued for the
destination it is sent to; and what is pending is below the limit. -/
theorem batcher_in_order (maxBytes : Nat) (es : List BatchEvent) :
    let b := (machine maxBytes).run {} es
    (∀ d, b.emitted d ++ b.pendingFrames d = enqueuedFor d es) ∧
    (∀ sb ∈ b.sent, ∀ f ∈ sb.frames, ∃ it, .item it ∈ es ∧ it.dest = sb.dest ∧ it.subframe = f) ∧
    ∀ (k : RawKey) (pb : PendingBatch), b.pending[k]? = some pb →
      pb.bytes = (pb.frames.map List.length).sum ∧ pb.bytes < maxBytes := by
  dsimp only
  have hWf : Wf maxBytes ((machine maxBytes).run {} es) := (wf_empty maxBytes).run es
  refine ⟨fun d => (wf_empty maxBytes).total_run es, fun sb hsb f hf => sent_of_run hsb hf, ?_⟩
  intro k pb hp
  exact ⟨(hWf.pending k pb hp).bytes, (hWf.pending k pb hp).below⟩

-- ---------------------------------------------------------------------------
-- Datagrams
-- ---------------------------------------------------------------------------

/-- What a UDP datagram can carry. -/
def maxDatagram : Nat := 65507

/-- The datagram of a batch can be sent, and the client takes it apart. -/
def Deliverable (sb : SentBatch) : Prop :=
  sb.datagram.length ≤ maxDatagram ∧ ∃ r, parseRelayBatch sb.datagram = .ok r

/-- A batch of these parts is neither too long nor of too many parts. -/
def Small (frames : List Bytes) : Prop :=
  frames.length ≤ maxSubframes ∧ headerLen + 2 * frames.length + (frames.map List.length).sum ≤ maxDatagram

/-- There is room for the item in the pending batch of its destination. -/
def Fits (b : Batcher) (it : BatchItem) : Prop :=
  let pb := b.pending[it.dest]?.getD { addr := it.addr, frames := [], bytes := 0 }
  pb.frames.length < maxSubframes ∧
    headerLen + 2 * (pb.frames.length + 1) + pb.bytes + it.subframe.length ≤ maxDatagram

/-- The item is what `relay_forward` queues for a packet that came by UDP, whose
length field has 16 bits. -/
def FromRelay (it : BatchItem) : Prop :=
  ∃ packet sender f rooms source dest d, packet.length ≤ 65535 ∧ RelayFrame.parse packet sender = .ok f ∧
    f.forward rooms source dest d = .queued it.dest it.addr it.subframe

/-- Only `deliver` queues a packet. -/
theorem forward_queued {f : RelayFrame} {rooms : List RoomEntry} {source dest : Option RouteEntry}
    {dr : RelayDraw} {key : RawKey} {addr : SourceAddr} {subframe : Bytes}
    (h : f.forward rooms source dest dr = .queued key addr subframe) :
    key = f.dest ∧ subframe = keyBytes f.srcKey ++ f.ct := by
  have hDeliver : ∀ e, f.deliver e dr = .queued key addr subframe →
      key = f.dest ∧ subframe = keyBytes f.srcKey ++ f.ct := by
    intro e hQueued
    unfold RelayFrame.deliver at hQueued
    split at hQueued
    · cases hQueued
    · split at hQueued
      · cases hQueued
        exact ⟨rfl, rfl⟩
      · split at hQueued <;> cases hQueued
  unfold RelayFrame.forward at h
  split at h
  · split at h
    · cases h
    · exact hDeliver _ h
  · split at h
    · exact hDeliver _ h
    · cases h
  · cases h

/-- The destination is a key of 32 bytes, and the part fits its length field. -/
theorem FromRelay.bounds (h : FromRelay it) : it.dest < 256 ^ 32 ∧ it.subframe.length ≤ 65535 := by
  obtain ⟨packet, sender, f, rooms, source, dest, dr, hLength, hParse, hQueued⟩ := h
  obtain ⟨hDest, hSubframe⟩ := forward_queued hQueued
  obtain ⟨⟨key, srcKey, ct⟩, hRelay, hFrame⟩ := bind_eq_ok.mp hParse
  cases hFrame
  obtain ⟨hKey, hCt⟩ := parseRelay_bounds hRelay
  refine ⟨hDest ▸ hKey, ?_⟩
  unfold relayHeaderLen at hCt
  rw [hSubframe, List.length_append, keyBytes_length]
  dsimp only
  omega

theorem deliverable_iff {sb : SentBatch} (hDest : sb.dest < 256 ^ 32)
    (hFit : ∀ sf ∈ sb.frames, sf.length ≤ 65535) : Deliverable sb ↔ Small sb.frames := by
  unfold Deliverable Small SentBatch.datagram
  rw [frameRelayBatch_length, parseRelayBatch_frameRelayBatch hDest hFit, and_comm]
  refine and_congr_left fun _ => ?_
  split
  · rename_i hCount
    exact ⟨fun _ => hCount, fun _ => ⟨_, rfl⟩⟩
  · rename_i hCount
    refine ⟨fun h => ?_, fun h => absurd h hCount⟩
    obtain ⟨r, hr⟩ := h
    cases hr

-- ---------------------------------------------------------------------------
-- Room
-- ---------------------------------------------------------------------------

theorem Small.of_append {frames more : List Bytes} (h : Small (frames ++ more)) : Small frames := by
  unfold Small at h ⊢
  rw [List.length_append, List.map_append, List.sum_append] at h
  omega

theorem Wf.fits_iff (h : Wf maxBytes b) : Fits b it ↔ Small (b.extend it).frames := by
  have hHeld : (b.pending[it.dest]?.getD { addr := it.addr, frames := [], bytes := 0 }).bytes =
      ((b.pending[it.dest]?.getD { addr := it.addr, frames := [], bytes := 0 }).frames.map List.length).sum := by
    cases hp : b.pending[it.dest]? with
    | none => rfl
    | some pb => exact (h.pending it.dest pb hp).bytes
  unfold Fits Small extend
  dsimp only
  rw [hHeld, List.length_append, List.map_append, List.sum_append, List.length_singleton, List.map_singleton,
    List.sum_singleton]
  omega

/-- What is sent can be, and so can what is pending. -/
structure Sendable (b : Batcher) : Prop where
  sent : ∀ sb ∈ b.sent, Small sb.frames
  pending : ∀ (k : RawKey) (pb : PendingBatch), b.pending[k]? = some pb → Small pb.frames

theorem extend_of_pending (hp : b.pending[it.dest]? = some pb) :
    (b.extend it).frames = pb.frames ++ [it.subframe] := by
  rw [extend_frames]
  unfold pendingFrames
  rw [hp]
  rfl

theorem sendable_item : Sendable (b.item maxBytes it) ↔ Sendable b ∧ Small (b.extend it).frames := by
  constructor
  · intro h
    have hNew : Small (b.extend it).frames := by
      rcases item_cases maxBytes b it with ⟨-, hNext⟩ | ⟨-, hNext⟩
      · rw [hNext] at h
        exact h.sent _ (List.mem_append_right _ (List.mem_singleton_self _))
      · rw [hNext] at h
        exact h.pending it.dest _ (by rw [getElem?_insert, if_pos rfl])
    refine ⟨⟨fun sb hsb => ?_, fun k pb hp => ?_⟩, hNew⟩
    · rcases item_cases maxBytes b it with ⟨-, hNext⟩ | ⟨-, hNext⟩
      · rw [hNext] at h
        exact h.sent sb (List.mem_append_left _ hsb)
      · rw [hNext] at h
        exact h.sent sb hsb
    · by_cases hk : k = it.dest
      · -- the batch that the item was added to
        subst hk
        rw [extend_of_pending hp] at hNew
        exact hNew.of_append
      · rcases item_cases maxBytes b it with ⟨-, hNext⟩ | ⟨-, hNext⟩
        · rw [hNext] at h
          exact h.pending k pb (by rw [getElem?_erase, if_neg hk, hp])
        · rw [hNext] at h
          exact h.pending k pb (by rw [getElem?_insert, if_neg hk, hp])
  · rintro ⟨h, hNew⟩
    rcases item_cases maxBytes b it with ⟨-, hNext⟩ | ⟨-, hNext⟩
    · rw [hNext]
      constructor
      · rw [List.forall_mem_append]
        exact ⟨h.sent, List.forall_mem_singleton.mpr hNew⟩
      · exact fun k pb hp => h.pending k pb (of_getElem?_erase hp).2
    · rw [hNext]
      refine ⟨h.sent, fun k pb hp => ?_⟩
      rcases insert_cases hp with ⟨-, rfl⟩ | hOld
      · exact hNew
      · exact h.pending k pb hOld

theorem Wf.sendable_flushKey (hWf : Wf maxBytes b) : Sendable (b.flushKey k) ↔ Sendable b := by
  rcases hWf.flushKey_cases k with ⟨-, hNext⟩ | ⟨pb, hp, hNext⟩
  · rw [hNext]
  · rw [hNext]
    constructor
    · intro h
      refine ⟨fun sb hsb => h.sent sb (List.mem_append_left _ hsb), fun j pb' hp' => ?_⟩
      by_cases hj : j = k
      · subst hj
        cases hp.symm.trans hp'
        exact h.sent _ (List.mem_append_right _ (List.mem_singleton_self _))
      · exact h.pending j pb' (by rw [getElem?_erase, if_neg hj, hp'])
    · intro h
      constructor
      · rw [List.forall_mem_append]
        exact ⟨h.sent, List.forall_mem_singleton.mpr (h.pending k pb hp)⟩
      · exact fun j pb' hp' => h.pending j pb' (of_getElem?_erase hp').2

theorem Wf.sendable_tick (hWf : Wf maxBytes b) (order : List RawKey) :
    Sendable (b.tick order) ↔ Sendable b := by
  unfold Batcher.tick
  induction order generalizing b with
  | nil => exact Iff.rfl
  | cons k order ih => exact (ih (hWf.flushKey k)).trans hWf.sendable_flushKey

/-- The keys that the ticker has visited are not pending. -/
theorem Wf.pending_tick (hWf : Wf maxBytes b) (order : List RawKey) :
    (b.tick order).pending[k]? = if k ∈ order then none else b.pending[k]? := by
  unfold Batcher.tick
  induction order generalizing b with
  | nil => rfl
  | cons j order ih =>
    rw [List.foldl_cons, ih (hWf.flushKey j)]
    have hOne : (b.flushKey j).pending[k]? = if k = j then none else b.pending[k]? := by
      rcases hWf.flushKey_cases j with ⟨hNone, hNext⟩ | ⟨pb, hp, hNext⟩
      · rw [hNext]
        split
        · rename_i hk
          rw [hk, hNone]
        · rfl
      · rw [hNext]
        exact getElem?_erase
    rw [hOne]
    by_cases hk : k = j <;> simp [hk]

/-- The guard of a run: there is room for every item. -/
def HasRoom (b : Batcher) (e : BatchEvent) : Prop := ∀ it, e = .item it → Fits b it

theorem Wf.sendable_next (hWf : Wf maxBytes b) (e : BatchEvent) :
    Sendable ((machine maxBytes).next b e) ↔ Sendable b ∧ HasRoom b e := by
  cases e with
  | item it =>
    have hRoom : HasRoom b (.item it) ↔ Small (b.extend it).frames := by
      rw [← hWf.fits_iff]
      constructor
      · exact fun h => h it rfl
      · rintro h it' hSame
        cases hSame
        exact h
    rw [hRoom]
    exact sendable_item
  | tick order =>
    have hRoom : HasRoom b (.tick order) := fun it hSame => nomatch hSame
    rw [and_iff_left hRoom]
    exact hWf.sendable_tick order

/-- When the ticker has emptied the map, everything that was sent is small
exactly when everything sent or pending before was. -/
theorem Wf.sent_small_iff (hWf : Wf maxBytes b) {order : List RawKey} (hAll : order.Perm b.pending.keys) :
    (∀ sb ∈ (b.tick order).sent, Small sb.frames) ↔ Sendable b := by
  rw [← hWf.sendable_tick order]
  refine ⟨fun h => ⟨h, fun k pb hp => ?_⟩, Sendable.sent⟩
  rw [hWf.pending_tick] at hp
  split at hp
  · cases hp
  · rename_i hk
    rw [hAll.mem_iff, ExtTreeMap.mem_keys, mem_iff] at hk
    exact absurd ⟨pb, hp⟩ hk

/-- Every datagram of a run, up to a tick at its end, can be sent and is accepted
exactly when there was room for every item in the pending batch of its
destination. -/
theorem batcher_deliverable_iff (maxBytes : Nat) {es : List BatchEvent}
    (hFrom : ∀ it, .item it ∈ es → FromRelay it) {order : List RawKey}
    (hAll : order.Perm ((machine maxBytes).run {} es).pending.keys) :
    (∀ sb ∈ ((machine maxBytes).run {} (es ++ [.tick order])).sent, Deliverable sb) ↔
      ∀ pre it, pre ++ [.item it] <+: es → Fits ((machine maxBytes).run {} pre) it := by
  have hWf : Wf maxBytes ((machine maxBytes).run {} es) := (wf_empty maxBytes).run es
  have hDeliverable : ∀ sb ∈ ((machine maxBytes).run {} (es ++ [.tick order])).sent,
      (Deliverable sb ↔ Small sb.frames) := by
    intro sb hsb
    have hItem : ∀ f ∈ sb.frames, ∃ it, FromRelay it ∧ it.dest = sb.dest ∧ it.subframe = f := by
      intro f hf
      obtain ⟨it, hit, hDest, hPart⟩ := sent_of_run hsb hf
      rcases List.mem_append.mp hit with hit | hit
      · exact ⟨it, hFrom it hit, hDest, hPart⟩
      · cases List.mem_singleton.mp hit
    have hNonempty : sb.frames ≠ [] := ((wf_empty maxBytes).run (es ++ [.tick order])).sent sb hsb
    obtain ⟨f, hf⟩ := List.exists_mem_of_ne_nil _ hNonempty
    obtain ⟨it, hit, hDest, -⟩ := hItem f hf
    refine deliverable_iff (hDest ▸ hit.bounds.1) fun sf hsf => ?_
    obtain ⟨it', hit', -, rfl⟩ := hItem sf hsf
    exact hit'.bounds.2
  have hStart : Sendable {} := by
    refine ⟨List.forall_mem_nil _, fun k pb hp => ?_⟩
    rw [ExtTreeMap.getElem?_empty] at hp
    cases hp
  rw [forall₂_congr hDeliverable, Machine.run_concat]
  show (∀ sb ∈ (((machine maxBytes).run {} es).tick order).sent, Small sb.frames) ↔ _
  rw [hWf.sent_small_iff hAll, Machine.run_iff_inv (I := Wf maxBytes) (wf_empty maxBytes) hStart
    (fun _ e h => h.next e) (fun _ e h => h.sendable_next e)]
  constructor
  · exact fun h pre it hPre => h pre _ hPre it rfl
  · rintro h pre e hPre it rfl
    exact h pre it hPre

-- ---------------------------------------------------------------------------
-- One packet
-- ---------------------------------------------------------------------------

/-- Where device 2 has registered. -/
def exampleTarget : RouteEntry :=
  { publicKey := 2, ip := "10.13.13.2", endpoint := "192.0.2.1:4000", lastSeen := 0, relayRk := none,
    room := "default", aliasName := none }

/-- What is queued for device 2 when device 3 sends it the ciphertext. -/
def exampleItem (ct : Bytes) : BatchItem :=
  { dest := 2, addr := sampleSrc, subframe := keyBytes 3 ++ ct }

theorem exampleItem_fromRelay {ct : Bytes} (hLength : ct.length ≤ 65467) : FromRelay (exampleItem ct) := by
  refine ⟨frameRelay msgRelay 2 3 ct, sampleSrc, _, [], none, some exampleTarget,
    { queued := true, sendError := none }, ?_,
    RelayFrame.parse_frameRelay sampleSrc (by decide) (by decide), ?_⟩
  · unfold frameRelay relayMagic
    simp only [List.length_append, keyBytes_length, List.length_cons, List.length_nil]
    omega
  · have hAddr : endpointAddr exampleTarget.endpoint = .ok sampleSrc := by decide +kernel
    unfold RelayFrame.forward
    dsimp only [List.isEmpty_nil]
    rw [if_pos rfl]
    unfold RelayFrame.deliver
    rw [hAddr]
    rfl

/-- The batch of one short packet arrives. -/
theorem batcher_deliverable_short :
    FromRelay (exampleItem [1, 2, 3]) ∧
      ∀ sb ∈ ((machine 1200).run {}
        ([.item (exampleItem [1, 2, 3])] ++
          [.tick ((machine 1200).run {} [.item (exampleItem [1, 2, 3])]).pending.keys])).sent, Deliverable sb := by
  have hItem : FromRelay (exampleItem [1, 2, 3]) := exampleItem_fromRelay (by decide)
  refine ⟨hItem, (batcher_deliverable_iff 1200 (fun it hit => ?_) (List.Perm.refl _)).mpr ?_⟩
  · cases List.mem_singleton.mp hit
    exact hItem
  · intro pre it hPre
    obtain ⟨rfl, hSame⟩ : pre = [] ∧ it = exampleItem [1, 2, 3] := by
      obtain ⟨rest, hRest⟩ := hPre
      cases pre with
      | nil => exact ⟨rfl, (by cases hRest; rfl)⟩
      | cons e pre => cases pre <;> cases hRest
    rw [hSame]
    unfold Fits
    rw [Machine.run_nil, ExtTreeMap.getElem?_empty]
    decide

/-- A part of 65470 bytes or more is sent at once, and fits no datagram. -/
theorem item_undeliverable (hLimit : maxBytes ≤ 65470) (hLarge : 65470 ≤ it.subframe.length) :
    ¬ ∀ sb ∈ ((machine maxBytes).run {} [.item it]).sent, Deliverable sb := by
  have hFrames : (extend {} it).frames = [it.subframe] := by
    rw [extend_frames]
    unfold pendingFrames
    rw [ExtTreeMap.getElem?_empty]
    rfl
  have hBytes : (extend {} it).bytes = it.subframe.length := by
    rw [(wf_empty maxBytes).extend_bytes, hFrames, List.map_singleton, List.sum_singleton]
  intro h
  have hSent : ∀ sb ∈ (Batcher.item maxBytes {} it).sent, Deliverable sb := h
  rcases item_cases maxBytes {} it with ⟨-, hNext⟩ | ⟨hBelow, -⟩
  · rw [hNext] at hSent
    have hShort := (hSent _ (List.mem_append_right _ (List.mem_singleton_self _))).1
    unfold SentBatch.datagram maxDatagram at hShort
    rw [frameRelayBatch_length, hFrames, List.map_singleton, List.sum_singleton, List.length_singleton] at hShort
    unfold headerLen at hShort
    omega
  · omega

/-- A packet that fills its datagram: with the length field, its batch does not fit
one any more. -/
theorem batcher_maximal_undeliverable :
    (frameRelay msgRelay 2 3 (List.replicate 65439 0)).length = maxDatagram ∧
      FromRelay (exampleItem (List.replicate 65439 0)) ∧
      ({} : RelayBatchConfig).spawn = some 1200 ∧
      ¬ ∀ sb ∈ ((machine 1200).run {} [.item (exampleItem (List.replicate 65439 0))]).sent, Deliverable sb := by
  refine ⟨?_, exampleItem_fromRelay ?_, by decide, item_undeliverable (by decide) ?_⟩
  · unfold frameRelay relayMagic maxDatagram
    simp only [List.length_append, keyBytes_length, List.length_cons, List.length_nil, List.length_replicate]
  · rw [List.length_replicate]
    decide
  · unfold exampleItem
    dsimp only
    rw [List.length_append, keyBytes_length, List.length_replicate]
    decide

end Batcher

end LinkMesh
