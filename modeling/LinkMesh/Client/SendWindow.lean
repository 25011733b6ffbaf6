import LinkMesh.Basis.SeqMap
import LinkMesh.Client.Run

/-!
# The reliable send window

Two properties of `send_unacked` over whole runs of a session.

* `sendUnacked_consecutive` — the stored numbers are `a+1 .. send_seq` in every
  run in which `send_data` never finds the window full;
* `full_window_burns_number` — a full window breaks this: `send_data` takes a
  number for the packet it then drops, and the receiver waits for it forever;
* `hello_revives_iff` — a HELLO makes every stored packet eligible for
  retransmission again exactly when it completes the handshake or announces a
  changed routing key, or no packet has used up its retries;
* `keepalive_leaves_exhausted` — after a long outage the keepalive of a peer
  that never restarted leaves a packet dead.
-/

namespace LinkMesh

variable {Ct : Type}

namespace Window

variable {w : Window} {now : Instant}

-- ---------------------------------------------------------------------------
-- The operations on the stored numbers
-- ---------------------------------------------------------------------------

theorem mem_push {p : Bytes} {k : Nat} :
    k ∈ (w.push now p).sendUnacked ↔ k = w.sendSeq + 1 ∨ k ∈ w.sendUnacked :=
  SeqMap.mem_insert

theorem getElem?_push {p : Bytes} {k : Nat} : (w.push now p).sendUnacked[k]? =
    if k = w.sendSeq + 1 then some ⟨now, 0, p⟩ else w.sendUnacked[k]? :=
  SeqMap.getElem?_insert

theorem getElem?_handleAck {ack k : Nat} : (w.handleAck ack).sendUnacked[k]? =
    if ack < k then w.sendUnacked[k]? else none := by
  simp only [handleAck, SeqMap.getElem?_retain (p := fun k => decide (ack < k)),
    decide_eq_true_eq]

/-- What an acknowledgement leaves was there before. -/
theorem of_handleAck {ack k : Nat} {u : Unacked} (h : (w.handleAck ack).sendUnacked[k]? = some u) :
    w.sendUnacked[k]? = some u := by
  rw [getElem?_handleAck] at h
  split at h
  · exact h
  · cases h

theorem mem_handleAck {ack k : Nat} :
    k ∈ (w.handleAck ack).sendUnacked ↔ ack < k ∧ k ∈ w.sendUnacked := by
  simp only [SeqMap.mem_iff, getElem?_handleAck]
  split <;> simp_all

theorem getElem?_bump {seq k : Nat} : (w.bump now seq).sendUnacked[k]? =
    if k = seq then
      w.sendUnacked[k]?.map (fun u => { u with since := now, retries := u.retries + 1 })
    else w.sendUnacked[k]? :=
  SeqMap.getElem?_modify

/-- A packet that is sent again keeps its number and payload. -/
theorem of_bump {seq k : Nat} {u : Unacked} (h : (w.bump now seq).sendUnacked[k]? = some u) :
    ∃ u₀, w.sendUnacked[k]? = some u₀ ∧ u₀.payload = u.payload := by
  rw [getElem?_bump] at h
  split at h
  · obtain ⟨u₀, hOld, rfl⟩ := Option.map_eq_some_iff.mp h
    exact ⟨u₀, hOld, rfl⟩
  · exact ⟨u, h, rfl⟩

theorem mem_bump {seq k : Nat} : k ∈ (w.bump now seq).sendUnacked ↔ k ∈ w.sendUnacked :=
  Std.ExtTreeMap.mem_modify

theorem mem_covered {ack q : Nat} {p : Bytes} : (q, p) ∈ w.covered ack ↔
    q ≤ ack ∧ ∃ u, w.sendUnacked[q]? = some u ∧ u.payload = p := by
  simp only [covered, List.mem_map, List.mem_filter, decide_eq_true_eq, Prod.mk.injEq]
  constructor
  · rintro ⟨⟨k, u⟩, ⟨hMem, hLe⟩, rfl, rfl⟩
    exact ⟨hLe, u, Std.ExtTreeMap.mem_toList_iff_getElem?_eq_some.mp hMem, rfl⟩
  · rintro ⟨hLe, u, hu, rfl⟩
    exact ⟨(q, u), ⟨Std.ExtTreeMap.mem_toList_iff_getElem?_eq_some.mpr hu, hLe⟩, rfl, rfl⟩

/-- The stored numbers are those after `a` up to the last one assigned. -/
def StoredFrom (a : Nat) (w : Window) : Prop :=
  a ≤ w.sendSeq ∧ ∀ k, k ∈ w.sendUnacked ↔ a < k ∧ k ≤ w.sendSeq

theorem StoredFrom.push {a : Nat} {p : Bytes} (h : w.StoredFrom a) :
    (w.push now p).StoredFrom a := by
  obtain ⟨hLe, hMem⟩ := h
  refine ⟨Nat.le_succ_of_le hLe, fun k => ?_⟩
  rw [mem_push, hMem]
  simp only [Window.push]
  omega

theorem StoredFrom.handleAck {a ack : Nat} (h : w.StoredFrom a) :
    (w.handleAck ack).StoredFrom (max a (min ack w.sendSeq)) := by
  obtain ⟨hLe, hMem⟩ := h
  refine ⟨by simp only [Window.handleAck]; omega, fun k => ?_⟩
  rw [mem_handleAck, hMem]
  simp only [Window.handleAck]
  omega

theorem StoredFrom.bump {a seq : Nat} (h : w.StoredFrom a) : (w.bump now seq).StoredFrom a :=
  ⟨h.1, fun k => by rw [mem_bump]; exact h.2 k⟩

/-- Every stored packet is still resent by `retransmit`. -/
def Retransmittable (w : Window) : Prop :=
  ∀ (seq : Nat) (u : Unacked), w.sendUnacked[seq]? = some u → u.retries < maxRetries

theorem Retransmittable.push {p : Bytes} (h : w.Retransmittable) :
    (w.push now p).Retransmittable := by
  intro seq u hu
  rw [getElem?_push] at hu
  split at hu
  · cases hu
    -- a new packet has spent none of its retries
    show 0 < maxRetries
    decide
  · exact h seq u hu

theorem StoredFrom.foldl_push {a : Nat} (h : w.StoredFrom a) (ps : List Bytes) :
    (ps.foldl (Window.push now) w).StoredFrom a := by
  induction ps generalizing w with
  | nil => exact h
  | cons p ps ih => exact ih h.push

theorem Retransmittable.foldl_push (h : w.Retransmittable) (ps : List Bytes) :
    (ps.foldl (Window.push now) w).Retransmittable := by
  induction ps generalizing w with
  | nil => exact h
  | cons p ps ih => exact ih h.push

theorem acceptHello_keepalive : w.acceptHello now false false = w := rfl

/-- Renumbering starts the stored numbers at 1, all retries spent forgotten. -/
theorem acceptHello_renumbers {isFirst rkChanged : Bool} (h : (isFirst || rkChanged) = true) :
    (w.acceptHello now isFirst rkChanged).StoredFrom 0 ∧
      (w.acceptHello now isFirst rkChanged).Retransmittable := by
  simp only [acceptHello, h, if_true]
  constructor
  · refine StoredFrom.foldl_push ⟨Nat.le_refl 0, fun k => ?_⟩ _
    simp only [Std.ExtTreeMap.not_mem_empty, false_iff]
    omega
  · refine Retransmittable.foldl_push (fun seq u hu => ?_) _
    simp at hu

/-- Renumbering leaves the receive side alone. -/
theorem foldl_push_recv (ps : List Bytes) : (ps.foldl (Window.push now) w).recvSeq = w.recvSeq ∧
    (ps.foldl (Window.push now) w).recvBuf = w.recvBuf := by
  induction ps generalizing w with
  | nil => exact ⟨rfl, rfl⟩
  | cons p ps ih => exact ih

theorem acceptHello_recv (w : Window) (now : Instant) (isFirst rkChanged : Bool) :
    (w.acceptHello now isFirst rkChanged).recvSeq = (if isFirst then 0 else w.recvSeq) ∧
      (w.acceptHello now isFirst rkChanged).recvBuf = w.recvBuf := by
  unfold acceptHello
  cases isFirst with
  | true => exact foldl_push_recv _
  | false =>
    cases rkChanged with
    | true => exact foldl_push_recv _
    | false => exact ⟨rfl, rfl⟩

end Window

-- ---------------------------------------------------------------------------
-- No gaps while the window has room
-- ---------------------------------------------------------------------------

/-- `send_data` finds the window below its bound. -/
def WindowHasRoom (n : Node) : Event → Prop
  | .sealData _ _ => n.dp.established = true → n.dp.sendUnacked.size < reliableWindow
  | _ => True

/-- One event keeps the stored numbers consecutive. -/
theorem storedFrom_step {cfg : Config} {C : Crypto Ct} {n : Node} {e : Event} {a : Nat}
    (hRoom : WindowHasRoom n e) (h : n.dp.toWindow.StoredFrom a) :
    ∃ b, (n.step cfg C e).dp.toWindow.StoredFrom b := by
  have hStep := DataPlane.step_windowStep cfg C n.dp e
  rw [Node.step_dp]
  generalize (n.dp.step cfg C e).1.toWindow = w', (n.dp.step cfg C e).2.transfers = out
    at hStep ⊢
  cases hStep with
  | idle => exact ⟨a, h⟩
  | hold => exact ⟨a, h⟩
  -- the guard excludes the one step that takes a number and stores nothing
  | burn hEst hFull => exact absurd (hRoom hEst) (by omega)
  | store => exact ⟨a, h.push⟩
  | ack => exact ⟨_, h.handleAck⟩
  | resend => exact ⟨a, h.bump⟩
  | @hello now d rk salt =>
    by_cases hNew : (n.dp.peerKey.isNone || n.dp.peerRkPub != some rk) = true
    · exact ⟨0, (Window.acceptHello_renumbers hNew).1⟩
    · simp only [Bool.not_eq_true, Bool.or_eq_false_iff] at hNew
      rw [hNew.1, hNew.2, Window.acceptHello_keepalive]
      exact ⟨a, h⟩
  | take => exact ⟨a, h⟩
  | recv => exact ⟨a, h⟩

/--
**Sender window without gaps.** In every run of a session in which
`send_data` never finds the window full, the stored numbers are exactly
`a+1 .. send_seq`: every number assigned under the current numbering is either
acknowledged or still stored for retransmission.
-/
theorem sendUnacked_consecutive {cfg : Config} {C : Crypto Ct} {pk hk rkPriv rkPub : RawKey}
    {salt : Salt} {now : Instant} {n : Node}
    (h : (Node.machine cfg C (DataPlane.new pk hk rkPriv rkPub salt now)).Reach WindowHasRoom n) :
    ∃ a, ∀ k, k ∈ n.dp.sendUnacked ↔ a < k ∧ k ≤ n.dp.sendSeq := by
  have hInv : ∃ a, n.dp.toWindow.StoredFrom a := by
    refine h.invariant (I := fun n => ∃ a, n.dp.toWindow.StoredFrom a) ?_ ?_
    · rintro s rfl
      refine ⟨0, Nat.le_refl 0, fun k => ?_⟩
      simp only [Node.start, DataPlane.new, Std.ExtTreeMap.not_mem_empty, false_iff]
      omega
    · rintro s e ⟨a, ha⟩ - hRoom
      exact storedFrom_step hRoom ha
  obtain ⟨a, -, ha⟩ := hInv
  exact ⟨a, ha⟩

theorem sendUnacked_consecutive_sample : ∃ n : Node,
    (Node.machine aliceCfg symbolic aliceStart).Reach WindowHasRoom n ∧
      ∃ a, ∀ k, k ∈ n.dp.sendUnacked ↔ a < k ∧ k ≤ n.dp.sendSeq := by
  have hStart : (Node.machine aliceCfg symbolic aliceStart).Reach WindowHasRoom
      (Node.start aliceStart) := .init rfl
  have hHello := hStart.step (e := Event.handleHello 0 sampleDraw 20 6) trivial trivial
  have hSend := hHello.step (e := Event.sealData 0 [1]) trivial fun _ => by decide +kernel
  exact ⟨_, hSend, sendUnacked_consecutive hSend⟩

-- ---------------------------------------------------------------------------
-- A full window burns a number
-- ---------------------------------------------------------------------------

/-- Storing `k` packets in a window that has room for them. -/
theorem run_fill (cfg : Config) (C : Crypto Ct) (dp : DataPlane) (k : Nat) {n : Node}
    (hEst : n.dp.established = true) (hFrom : n.dp.toWindow.StoredFrom 0)
    (hSize : n.dp.sendUnacked.size = n.dp.sendSeq) (hRoom : n.dp.sendSeq + k ≤ reliableWindow) :
    let n' := (Node.machine cfg C dp).run n (List.replicate k (.sealData 0 []))
    n'.dp.established = true ∧ n'.dp.toWindow.StoredFrom 0 ∧
      n'.dp.sendUnacked.size = n'.dp.sendSeq ∧ n'.dp.sendSeq = n.dp.sendSeq + k := by
  induction k generalizing n with
  | zero => exact ⟨hEst, hFrom, hSize, rfl⟩
  | succ k ih =>
    -- the window has room, so `send_data` stores its packet
    have hStep : (n.step cfg C (.sealData 0 [])).dp =
        { n.dp with toWindow := n.dp.toWindow.push 0 [] } := by
      have hNotFull : ¬ reliableWindow ≤ n.dp.sendUnacked.size := by omega
      simp [DataPlane.step, DataPlane.sealData, hEst, hNotFull]
    have hNew : n.dp.sendSeq + 1 ∉ n.dp.sendUnacked := by
      rw [hFrom.2]
      omega
    have hSize' : (n.dp.toWindow.push 0 []).sendUnacked.size = n.dp.sendSeq + 1 := by
      simp [Window.push, Std.ExtTreeMap.size_insert, hNew, hSize]
    have hRun := ih (n := n.step cfg C (.sealData 0 []))
      (by rw [hStep]; exact hEst) (by rw [hStep]; exact hFrom.push)
      (by rw [hStep]; exact hSize') (by rw [hStep]; simp only [Window.push]; omega)
    obtain ⟨h1, h2, h3, h4⟩ := hRun
    refine ⟨h1, h2, h3, ?_⟩
    have hSeq : (n.step cfg C (.sealData 0 [])).dp.sendSeq = n.dp.sendSeq + 1 := by rw [hStep]; rfl
    rw [hSeq] at h4
    exact h4.trans (by omega)

/-- Alice after Bob's first HELLO. -/
def aliceReady : Node := (Node.start aliceStart).step aliceCfg symbolic
  (.handleHello 0 sampleDraw 20 6)

/-- A run that fills the window. -/
theorem exists_full_window : ∃ n,
    (Node.machine aliceCfg symbolic aliceStart).Reach (fun _ _ => True) n ∧
      n.dp.established = true ∧ n.dp.toWindow.StoredFrom 0 ∧
      n.dp.sendUnacked.size = reliableWindow ∧ n.dp.sendSeq = reliableWindow := by
  -- 512 packets one by one; the sizes follow from `run_fill`, not by evaluation
  have hReady : aliceReady.dp.sendSeq = 0 := by decide +kernel
  obtain ⟨hEst, hFrom, hSize, hSeq⟩ := run_fill aliceCfg symbolic aliceStart reliableWindow
    (n := aliceReady) (by decide +kernel) (Window.acceptHello_renumbers (by decide +kernel)).1
    (by decide +kernel) (Nat.le_of_eq (by rw [hReady, Nat.zero_add]))
  rw [hReady, Nat.zero_add] at hSeq
  have hReach : (Node.machine aliceCfg symbolic aliceStart).Reach (fun _ _ => True) aliceReady :=
    .step (e := Event.handleHello 0 sampleDraw 20 6) (.init rfl) trivial trivial
  exact ⟨_, Node.reach_run hReach _, hEst, hFrom, hSize.trans hSeq, hSeq⟩

theorem full_window_burns_number :
    ¬ ∀ n, (Node.machine aliceCfg symbolic aliceStart).Reach (fun _ _ => True) n →
      ∃ a, ∀ k, k ∈ n.dp.sendUnacked ↔ a < k ∧ k ≤ n.dp.sendSeq := by
  intro hAll
  obtain ⟨full, hReach, hEst, hFrom, hSize, hSeq⟩ := exists_full_window
  -- the window is full, so the number 513 is taken and its packet dropped
  have hBurn : (full.step aliceCfg symbolic (.sealData 0 [])).dp =
      { full.dp with sendSeq := full.dp.sendSeq + 1 } := by
    simp [DataPlane.step, DataPlane.sealData, hEst, hSize]
  obtain ⟨a, ha⟩ := hAll _ (hReach.step (e := Event.sealData 0 []) trivial trivial)
  replace ha : ∀ k, k ∈ full.dp.sendUnacked ↔ a < k ∧ k ≤ full.dp.sendSeq + 1 := by
    have ha' : ∀ k, k ∈ (full.step aliceCfg symbolic (.sealData 0 [])).dp.sendUnacked ↔
      a < k ∧ k ≤ (full.step aliceCfg symbolic (.sealData 0 [])).dp.sendSeq := ha
    rwa [hBurn] at ha'
  have hPos : 0 < full.dp.sendSeq := by rw [hSeq]; decide
  -- number 1 is still stored, so `a` is 0, and 513 would have to be stored too
  have hFirst := (ha 1).mp ((hFrom.2 1).mpr ⟨by omega, hPos⟩)
  have hBurnt := (hFrom.2 (full.dp.sendSeq + 1)).mp ((ha _).mpr ⟨by omega, by omega⟩)
  omega

-- ---------------------------------------------------------------------------
-- Packets whose retries are spent
-- ---------------------------------------------------------------------------

theorem retransmittable_sendData {cfg : Config} {C : Crypto Ct} {now : Instant} {d : Draw}
    {p : Bytes} {s : DataPlane} (h : s.toWindow.Retransmittable) :
    (s.sendData cfg C now d p).1.toWindow.Retransmittable := by
  have hCount : (s.countPkt cfg C now d).1.toWindow = s.toWindow := by
    simp only [DataPlane.countPkt, DataPlane.maybeRekey]
    split
    · split <;> rfl
    · rfl
  simp only [DataPlane.sendData, DataPlane.sealData]
  split
  · rw [← hCount] at h
    exact h
  · split
    · rw [← hCount] at h
      exact h
    · rw [← hCount] at h
      exact h.push

theorem retransmittable_flushPending {cfg : Config} {C : Crypto Ct} {now : Instant}
    {ds : Nat → Draw} {s : DataPlane} (h : s.toWindow.Retransmittable) :
    (s.flushPending cfg C now ds).1.toWindow.Retransmittable := by
  -- the fold starts from the taken queue, whose window is the same
  have hTaken : (s.takePending.1, ([] : List Sealing)).1.toWindow.Retransmittable := h
  unfold DataPlane.flushPending
  dsimp only
  generalize s.takePending.2.zipIdx = ps, (s.takePending.1, ([] : List Sealing)) = acc at hTaken ⊢
  induction ps generalizing acc with
  | nil => exact hTaken
  | cons p ps ih => exact ih _ (retransmittable_sendData hTaken)

/--
**Eligibility after a HELLO.** After `handle_hello` every stored packet is
eligible for retransmission if and only if the HELLO completes the handshake,
announces a routing key other than the recorded one, or no stored packet had
used up its retries.
-/
theorem hello_revives_iff {cfg : Config} {C : Crypto Ct} {now : Instant} {d : Draw}
    {ds : Nat → Draw} {rk : RawKey} {salt : Salt} {s : DataPlane} :
    (s.helloCall cfg C now d ds rk salt).1.toWindow.Retransmittable ↔
      s.peerKey = none ∨ s.peerRkPub ≠ some rk ∨ s.toWindow.Retransmittable := by
  by_cases hNew : (s.peerKey.isNone || s.peerRkPub != some rk) = true
  · have hWin :
        (s.toWindow.acceptHello now s.peerKey.isNone (s.peerRkPub != some rk)).Retransmittable :=
      (Window.acceptHello_renumbers hNew).2
    have hAfter : (s.helloCall cfg C now d ds rk salt).1.toWindow.Retransmittable := by
      simp only [DataPlane.helloCall, DataPlane.handleHello]
      split
      · exact retransmittable_flushPending hWin
      · exact hWin
    simp only [Bool.or_eq_true, Option.isNone_iff_eq_none, bne_iff_ne] at hNew
    exact ⟨fun _ => hNew.elim .inl (.inr ∘ .inl), fun _ => hAfter⟩
  · simp only [Bool.not_eq_true, Bool.or_eq_false_iff] at hNew
    have hSame : (s.helloCall cfg C now d ds rk salt).1.toWindow = s.toWindow := by
      simp [DataPlane.helloCall, DataPlane.handleHello, hNew, Window.acceptHello_keepalive]
    rw [hSame]
    have hKey : s.peerKey ≠ none := by
      intro h
      simp [h] at hNew
    have hRk : s.peerRkPub = some rk := by simpa using hNew.2
    simp [hKey, hRk]

/-- A packet sent at time 0 and retransmitted until its retries are spent. -/
def outageRun : List Event :=
  .handleHello 0 sampleDraw 20 6 :: .sealData 0 [1] ::
    (List.range maxRetries).map fun i => .resend (retransmitTimeoutMs * (i + 1)) 1

theorem keepalive_leaves_exhausted :
    ¬ ∀ n, (Node.machine aliceCfg symbolic aliceStart).Reach (fun _ _ => True) n →
      ∀ now d ds rk salt,
        (n.dp.helloCall aliceCfg symbolic now d ds rk salt).1.toWindow.Retransmittable := by
  intro hAll
  have hReach : (Node.machine aliceCfg symbolic aliceStart).Reach (fun _ _ => True) _ :=
    Node.reach_run (.init rfl) outageRun
  have hSpent := hAll _ hReach 11000 sampleDraw (fun _ => sampleDraw) 20 6 1 ⟨10000, 20, [1]⟩
    (by decide +kernel)
  exact absurd hSpent (by decide)

end LinkMesh
