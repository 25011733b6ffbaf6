import Mathlib.Tactic.DeriveFintype
import LinkMesh.Basis.Locks

/-!
# The locks of the data plane

The functions of `connection.rs` by what they do to the locks of the data
plane: the peers map, the sessions, the shared send buffer and the indexes.
Which session a key has in the map at a lookup, and which branch is taken, is
left open. The other locks of the source (queries, aliases, signaling) are
never held while one of these is requested.

* `dataPlane_keeps` — every request is for a lock above all locks held, in the
  order `rank`, but one: `send_data` asks for the send buffer while it holds
  its session;
* `no_wait_cycle`   — with any number of tasks, no cycle of tasks waits for one
  another while that request never waits;
* `send_data_deadlock` — two concurrent `send_data` to one peer can block each
  other.
-/

namespace LinkMesh

open Locks Computability

variable {σ : Type}

/-- The locks of a client; `σ` names its sessions. -/
inductive ClientLock (σ : Type) where
  | ipIndex
  | sendBuf
  | peers
  | session (x : σ)
  | rkIndex
  | addrIndex
  deriving DecidableEq, Fintype

abbrev Footprint (σ : Type) := Language (LockOp (ClientLock σ))

namespace Footprint

-- ---------------------------------------------------------------------------
-- The functions of the data plane
-- ---------------------------------------------------------------------------

/-- A statement or block under the lock `l` alone. -/
def under (l : ClientLock σ) : Footprint σ := hold l 1

/-- `peers.get(&pk)` under the map's lock, and the session's lock if there is one. -/
def viewPeer : Footprint σ := hold .peers (1 + ⨆ x, under (.session x))

def bumpTx : Footprint σ := viewPeer

def relaySend : Footprint σ := viewPeer * (1 + bumpTx)

/-- Look up the transport; relay, or check that the direct path is alive and
then fall back to the relay or send. -/
def transportSend : Footprint σ :=
  viewPeer * (relaySend + viewPeer * (viewPeer * relaySend + (1 + bumpTx)))

def buildHelloCt (x : σ) : Footprint σ := under (.session x)

def maybeRekey (x : σ) : Footprint σ := under (.session x)

/-- The send buffer is locked while the session is, and its guard outlives the
session's: it is held during `transport_send`. -/
def sendData (x : σ) : Footprint σ :=
  under (.session x) * under (.session x) * (1 + under (.session x)) *
    under (.session x) * (1 + maybeRekey x * (1 + transportSend)) *
    (under (.session x) +
      acquire (.session x) * acquire .sendBuf * release (.session x) * transportSend *
        release .sendBuf)

def sendAck (x : σ) : Footprint σ := under (.session x) * (1 + transportSend)

def handleAck (x : σ) : Footprint σ := under (.session x)

def retransmit : Footprint σ :=
  under .peers * (viewPeer * (1 + under .peers * (1 + ⨆ x,
    (under (.session x) * (1 + under (.session x) * transportSend))∗)))∗

def getOrCreateSession : Footprint σ := under .peers

def handleHello (x : σ) : Footprint σ :=
  1 + under (.session x) * (1 + under .ipIndex) *
    (1 + under (.session x) * (1 + relaySend) * transportSend) *
    (1 + under (.session x) * (sendData x)∗)

def handleRekey (x : σ) : Footprint σ := 1 + under (.session x) * (1 + under (.session x))

def handlePeerData : Footprint σ :=
  under .peers * ⨆ x,
    (1 + getOrCreateSession *
      (under (.session x) * under .addrIndex + buildHelloCt x * (1 + relaySend))) *
    (1 + under (.session x) * under .addrIndex) * under (.session x) *
    (1 + (1 + under (.session x) * (1 + under (.session x))) *
      (handleHello x + handleRekey x + (1 + handleAck x) + under (.session x) * (1 + sendAck x)))

def prunePeers : Footprint σ :=
  hold .peers (⨆ x, under (.session x))∗ *
    (hold .peers (1 + ⨆ x, hold (.session x) (1 + under .rkIndex)) * (1 + under .ipIndex))∗

/-- The guard of the index lives to the end of the `if let`. -/
def routeForward : Footprint σ :=
  1 + hold .ipIndex (1 + under .peers * (1 + ⨆ x, sendData x))

-- ---------------------------------------------------------------------------
-- What runs beside it
-- ---------------------------------------------------------------------------

/-- A spawned query, with the packet that waits for it. -/
def queryImpl : Footprint σ :=
  1 + getOrCreateSession * (1 + under .addrIndex) * under .ipIndex *
    ⨆ x, (1 + under (.session x) * under .rkIndex) * (1 + sendData x)

def spawnPunch : Footprint σ :=
  under .peers * (1 + ⨆ x, (under (.session x) * buildHelloCt x * (1 + relaySend) +
    (under (.session x) * (1 + buildHelloCt x * (1 + under (.session x))) *
      under (.session x))∗ * under (.session x) * (1 + under (.session x))))

def handleNotify : Footprint σ :=
  1 + getOrCreateSession * ⨆ x, (1 + under (.session x) * under .addrIndex) *
    (1 + under (.session x) * under .rkIndex)

def handleUdp : Footprint σ :=
  handlePeerData + under .rkIndex * (1 + handlePeerData) +
    (under .peers * (handlePeerData + under .rkIndex * handlePeerData))∗ + handleNotify +
    under .addrIndex * (1 + handlePeerData)

def heartbeat : Footprint σ :=
  prunePeers * (1 + under .peers * (viewPeer *
    (1 + under .peers * (1 + ⨆ x, maybeRekey x * (1 + transportSend))))∗)

def relayKeepalive : Footprint σ :=
  under .peers * (viewPeer * (1 + under .peers * (1 + ⨆ x, buildHelloCt x * (1 + relaySend))))∗

def snapshot : Footprint σ := hold .peers (⨆ x, under (.session x))∗

end Footprint

/-- What a task can run. -/
inductive Call (σ : Type) where
  | sendData (x : σ)
  | transportSend
  | relaySend
  | bumpTx
  | sendAck (x : σ)
  | retransmit
  | handlePeerData
  | handleHello (x : σ)
  | prunePeers
  | routeForward
  | queryImpl
  | spawnPunch
  | handleUdp
  | heartbeat
  | relayKeepalive
  | snapshot

def Call.footprint : Call σ → Footprint σ
  | .sendData x => Footprint.sendData x
  | .transportSend => Footprint.transportSend
  | .relaySend => Footprint.relaySend
  | .bumpTx => Footprint.bumpTx
  | .sendAck x => Footprint.sendAck x
  | .retransmit => Footprint.retransmit
  | .handlePeerData => Footprint.handlePeerData
  | .handleHello x => Footprint.handleHello x
  | .prunePeers => Footprint.prunePeers
  | .routeForward => Footprint.routeForward
  | .queryImpl => Footprint.queryImpl
  | .spawnPunch => Footprint.spawnPunch
  | .handleUdp => Footprint.handleUdp
  | .heartbeat => Footprint.heartbeat
  | .relayKeepalive => Footprint.relayKeepalive
  | .snapshot => Footprint.snapshot

def dataPlane (σ : Type) : Footprint σ := ⨆ c : Call σ, c.footprint

-- ---------------------------------------------------------------------------
-- The order of the locks
-- ---------------------------------------------------------------------------

@[simp] def ClientLock.rank : ClientLock σ → Nat
  | .ipIndex => 0
  | .sendBuf => 1
  | .peers => 2
  | .session _ => 3
  | .rkIndex => 4
  | .addrIndex => 4

/-- The request of `send_data` for the send buffer: its session is held. -/
def BufferRequest (H : List (ClientLock σ)) (l : ClientLock σ) : Prop :=
  l = .sendBuf ∧ (∃ x, .session x ∈ H) ∧ .sendBuf ∉ H

variable [DecidableEq σ]

/-- Requests follow `rank`, but for the send buffer. -/
abbrev ClientOrder : List (ClientLock σ) → ClientLock σ → Prop :=
  Ordered ClientLock.rank BufferRequest

/-- All locks held are below the rank `n`. -/
def Below (n : Nat) (H : List (ClientLock σ)) : Prop := ∀ m ∈ H, m.rank < n

namespace Footprint

variable {H : List (ClientLock σ)} {x : σ}

omit [DecidableEq σ] in
theorem below_nil {n : Nat} : Below n ([] : List (ClientLock σ)) := nofun

omit [DecidableEq σ] in
theorem below_cons {n : Nat} {l : ClientLock σ} (hl : l.rank < n) (h : Below n H) :
    Below n (l :: H) := by
  intro m hm
  rcases List.mem_cons.mp hm with rfl | hm
  · exact hl
  · exact h m hm

omit [DecidableEq σ] in
theorem below_mono {n k : Nat} (h : Below n H) (hnk : n ≤ k) : Below k H :=
  fun m hm => Nat.lt_of_lt_of_le (h m hm) hnk

theorem under_keeps {l : ClientLock σ} (h : Below l.rank H) : Keeps ClientOrder H (under l) H :=
  .hold (.inl h) .one

theorem session_keeps (h : Below 3 H) : Keeps ClientOrder H (under (.session x)) H :=
  under_keeps h

theorem peers_keeps (h : Below 2 H) : Keeps ClientOrder H (under .peers) H := under_keeps h

theorem viewPeer_keeps (h : Below 2 H) : Keeps ClientOrder H viewPeer H :=
  .hold (.inl h) (.opt (.iSup fun _ =>
    session_keeps (below_cons (by simp) (below_mono h (by simp)))))

theorem relaySend_keeps (h : Below 2 H) : Keeps ClientOrder H relaySend H :=
  (viewPeer_keeps h).mul (.opt (viewPeer_keeps h))

theorem transportSend_keeps (h : Below 2 H) : Keeps ClientOrder H transportSend H := by
  have hView := viewPeer_keeps h
  have hRelay := relaySend_keeps h
  exact hView.mul (.add hRelay (hView.mul (.add (hView.mul hRelay) (.opt hView))))

/-- The one request out of order is in the last section. -/
theorem sendData_keeps (h : Below 1 H) : Keeps ClientOrder H (sendData x) H := by
  have hSession := session_keeps (x := x) (below_mono h (by simp))
  have hTransport := transportSend_keeps (below_mono h (by simp))
  have hNoBuf : ClientLock.sendBuf ∉ H := fun hMem => absurd (h _ hMem) (by simp)
  -- session, buffer, session released: the buffer's guard outlives the session's
  have hLast : Keeps ClientOrder H (acquire (.session x) * acquire .sendBuf *
      release (.session x) * transportSend * release .sendBuf) H := by
    have hEnter : Keeps ClientOrder H (acquire (.session x) * acquire .sendBuf)
        (.sendBuf :: .session x :: H) := by
      refine (Keeps.acquire (.inl (below_mono h (by simp)))).mul (.acquire (.inr ⟨rfl, ?_, ?_⟩))
      · exact ⟨x, List.mem_cons_self ..⟩
      · simpa using hNoBuf
    have hLeave := hEnter.mul (Keeps.release (l := .session x) (by simp))
    have hSend := hLeave.mul (transportSend_keeps (by
      simpa using below_cons (l := .sendBuf) (by simp) (below_mono h (by simp))))
    have hDone := hSend.mul (Keeps.release (l := .sendBuf) (by simp))
    simpa using hDone
  exact ((((hSession.mul hSession).mul (.opt hSession)).mul hSession).mul
    (.opt (hSession.mul (.opt hTransport)))).mul (.add hSession hLast)

theorem sendAck_keeps : Keeps ClientOrder [] (sendAck x) [] :=
  (session_keeps below_nil).mul (.opt (transportSend_keeps below_nil))

theorem retransmit_keeps : Keeps ClientOrder ([] : List (ClientLock σ)) retransmit [] := by
  have hPeers := peers_keeps (σ := σ) below_nil
  refine hPeers.mul (.kstar ((viewPeer_keeps below_nil).mul (.opt (hPeers.mul (.opt
    (.iSup fun x => .kstar ?_))))))
  exact (session_keeps below_nil).mul
    (.opt ((session_keeps below_nil).mul (transportSend_keeps below_nil)))

theorem handleHello_keeps : Keeps ClientOrder [] (handleHello x) [] := by
  have hSession := session_keeps (x := x) below_nil
  refine .opt (((hSession.mul (.opt (under_keeps below_nil))).mul (.opt ?_)).mul
    (.opt (hSession.mul (.kstar (sendData_keeps below_nil)))))
  exact (hSession.mul (.opt (relaySend_keeps below_nil))).mul (transportSend_keeps below_nil)

theorem handleRekey_keeps : Keeps ClientOrder [] (handleRekey x) [] := by
  have hSession := session_keeps (x := x) below_nil
  exact .opt (hSession.mul (.opt hSession))

theorem handlePeerData_keeps :
    Keeps ClientOrder ([] : List (ClientLock σ)) handlePeerData [] := by
  refine (peers_keeps below_nil).mul (.iSup fun x => ?_)
  have hSession := session_keeps (x := x) below_nil
  have hAddr : Keeps ClientOrder [] (under (.addrIndex : ClientLock σ)) [] := under_keeps below_nil
  -- a session for a stranger, what a direct packet notes, and the handlers
  have hResolve := Keeps.opt ((peers_keeps below_nil).mul (.add (hSession.mul hAddr)
    (hSession.mul (.opt (relaySend_keeps below_nil)))))
  have hHandlers := Keeps.add (.add (.add (handleHello_keeps (x := x)) (handleRekey_keeps (x := x)))
    (.opt hSession)) (hSession.mul (.opt (sendAck_keeps (x := x))))
  exact ((hResolve.mul (.opt (hSession.mul hAddr))).mul hSession).mul
    (.opt ((Keeps.opt (hSession.mul (.opt hSession))).mul hHandlers))

theorem prunePeers_keeps : Keeps ClientOrder ([] : List (ClientLock σ)) prunePeers [] := by
  -- the sessions are visited, and the relay key dropped, under the map's lock
  have hPeers : Below 3 [(.peers : ClientLock σ)] := below_cons (by simp) below_nil
  refine (Keeps.hold (.inl below_nil) (.kstar (.iSup fun x => session_keeps hPeers))).mul
    (.kstar ((Keeps.hold (.inl below_nil) (.opt (.iSup fun x => .hold (.inl hPeers) ?_))).mul
      (.opt (under_keeps below_nil))))
  exact .opt (under_keeps (below_cons (by simp) (below_mono hPeers (by simp))))

theorem routeForward_keeps : Keeps ClientOrder ([] : List (ClientLock σ)) routeForward [] := by
  -- the guard of the index is held through `send_data`
  have hIndex : Below 1 [(.ipIndex : ClientLock σ)] := below_cons (by simp) below_nil
  exact .opt (.hold (.inl below_nil) (.opt ((peers_keeps (below_mono hIndex (by simp))).mul
    (.opt (.iSup fun x => sendData_keeps hIndex)))))

theorem queryImpl_keeps : Keeps ClientOrder ([] : List (ClientLock σ)) queryImpl [] := by
  refine .opt ((((peers_keeps below_nil).mul (.opt (under_keeps below_nil))).mul
    (under_keeps below_nil)).mul (.iSup fun x => ?_))
  exact (Keeps.opt ((session_keeps below_nil).mul (under_keeps below_nil))).mul
    (.opt (sendData_keeps below_nil))

theorem spawnPunch_keeps : Keeps ClientOrder ([] : List (ClientLock σ)) spawnPunch [] := by
  refine (peers_keeps below_nil).mul (.opt (.iSup fun x => ?_))
  have hSession := session_keeps (x := x) below_nil
  refine .add ((hSession.mul hSession).mul (.opt (relaySend_keeps below_nil))) ?_
  exact ((Keeps.kstar ((hSession.mul (.opt (hSession.mul (.opt hSession)))).mul hSession)).mul
    hSession).mul (.opt hSession)

theorem handleUdp_keeps : Keeps ClientOrder ([] : List (ClientLock σ)) handleUdp [] := by
  have hPeers := peers_keeps (σ := σ) below_nil
  have hRk : Keeps ClientOrder [] (under (.rkIndex : ClientLock σ)) [] := under_keeps below_nil
  have hAddr : Keeps ClientOrder [] (under (.addrIndex : ClientLock σ)) [] := under_keeps below_nil
  have hNotify : Keeps ClientOrder ([] : List (ClientLock σ)) handleNotify [] :=
    .opt (hPeers.mul (.iSup fun x => (Keeps.opt ((session_keeps below_nil).mul hAddr)).mul
      (.opt ((session_keeps below_nil).mul hRk))))
  have hData := handlePeerData_keeps (σ := σ)
  exact .add (.add (.add (.add hData (hRk.mul (.opt hData)))
    (.kstar (hPeers.mul (.add hData (hRk.mul hData))))) hNotify) (hAddr.mul (.opt hData))

theorem heartbeat_keeps : Keeps ClientOrder ([] : List (ClientLock σ)) heartbeat [] := by
  have hPeers := peers_keeps (σ := σ) below_nil
  refine prunePeers_keeps.mul (.opt (hPeers.mul (.kstar ((viewPeer_keeps below_nil).mul
    (.opt (hPeers.mul (.opt (.iSup fun x => ?_))))))))
  exact (session_keeps below_nil).mul (.opt (transportSend_keeps below_nil))

theorem relayKeepalive_keeps :
    Keeps ClientOrder ([] : List (ClientLock σ)) relayKeepalive [] := by
  have hPeers := peers_keeps (σ := σ) below_nil
  refine hPeers.mul (.kstar ((viewPeer_keeps below_nil).mul (.opt (hPeers.mul (.opt
    (.iSup fun x => ?_))))))
  exact (session_keeps below_nil).mul (.opt (relaySend_keeps below_nil))

theorem snapshot_keeps : Keeps ClientOrder ([] : List (ClientLock σ)) snapshot [] :=
  .hold (.inl below_nil) (.kstar (.iSup fun _ =>
    session_keeps (below_cons (by simp) below_nil)))

end Footprint

open Footprint

theorem dataPlane_keeps : Keeps ClientOrder [] (dataPlane σ) [] := by
  refine .iSup fun c => ?_
  cases c with
  | sendData x => exact sendData_keeps below_nil
  | transportSend => exact transportSend_keeps below_nil
  | relaySend => exact relaySend_keeps below_nil
  | bumpTx => exact viewPeer_keeps below_nil
  | sendAck x => exact sendAck_keeps
  | retransmit => exact retransmit_keeps
  | handlePeerData => exact handlePeerData_keeps
  | handleHello x => exact handleHello_keeps
  | prunePeers => exact prunePeers_keeps
  | routeForward => exact routeForward_keeps
  | queryImpl => exact queryImpl_keeps
  | spawnPunch => exact spawnPunch_keeps
  | handleUdp => exact handleUdp_keeps
  | heartbeat => exact heartbeat_keeps
  | relayKeepalive => exact relayKeepalive_keeps
  | snapshot => exact snapshot_keeps

/--
**No deadlock while the send buffer is not contended.** With any number of
tasks, each running any of these calls one after another on any sessions, and
under every interleaving of their lock operations: in a run in which a task
that holds its session comes to ask for the send buffer only while it is free,
and no task takes the send buffer while another such request is pending, no
state has a cycle of tasks each holding a lock that the next one waits for.
-/
theorem no_wait_cycle {ι : Type} [DecidableEq ι] {s : ι → Locks.Task (ClientLock σ)}
    (h : (Locks.machine (dataPlane σ)).Reach (Unopposed BufferRequest) s) (t : ι) :
    ¬ Relation.TransGen (WaitsFor s) t t := by
  refine no_cycle dataPlane_keeps ?_ h t
  rintro H l ⟨rfl, ⟨x, hx⟩, hNot⟩
  exact ⟨List.ne_nil_of_mem hx, hNot⟩

-- ---------------------------------------------------------------------------
-- Two tasks that send to one peer
-- ---------------------------------------------------------------------------

section Run

/-- A lock taken and released at once. -/
def touch (l : ClientLock Unit) : List (LockOp (ClientLock Unit)) := [.acquire l, .release l]

def viewPeerOps : List (LockOp (ClientLock Unit)) :=
  [.acquire .peers] ++ touch (.session ()) ++ [.release .peers]

/-- `send_data` of a packet that is numbered, sealed and relayed. -/
def sendDataOps : List (LockOp (ClientLock Unit)) :=
  touch (.session ()) ++ touch (.session ()) ++ [] ++ touch (.session ()) ++ [] ++
    ([.acquire (.session ())] ++ [.acquire .sendBuf] ++ [.release (.session ())] ++
      (viewPeerOps ++ (viewPeerOps ++ viewPeerOps)) ++ [.release .sendBuf])

theorem sendDataOps_mem : sendDataOps ∈ dataPlane Unit := by
  refine Language.mem_iSup.mpr ⟨.sendData (), ?_⟩
  have hTouch : ∀ l, touch l ∈ under l := fun l => hold_mem (Language.nil_mem_one)
  have hSkip : ∀ p : Footprint Unit, [] ∈ 1 + p := fun p => .inl rfl
  have hView : viewPeerOps ∈ viewPeer :=
    hold_mem (.inr (Language.mem_iSup.mpr ⟨(), hTouch _⟩))
  have hSend : viewPeerOps ++ (viewPeerOps ++ viewPeerOps) ∈ transportSend :=
    Language.append_mem_mul hView (.inl (Language.append_mem_mul hView (.inr hView)))
  -- `count_pkt` without a rotation, then the section that numbers and seals
  have hCount := Language.append_mem_mul (Language.append_mem_mul (Language.append_mem_mul
    (hTouch (.session ())) (hTouch (.session ()))) (hSkip (under (.session ()))))
    (hTouch (.session ()))
  have hEnter := Language.append_mem_mul
    (Language.append_mem_mul (acquire_mem (ClientLock.session ())) (acquire_mem .sendBuf))
    (release_mem (.session ()))
  have hLast :=
    Language.append_mem_mul (Language.append_mem_mul hEnter hSend) (release_mem .sendBuf)
  exact Language.append_mem_mul (Language.append_mem_mul hCount (hSkip _)) (.inr hLast)

instance (H : List (ClientLock Unit)) (l : ClientLock Unit) : Decidable (BufferRequest H l) :=
  inferInstanceAs (Decidable (_ ∧ (∃ x, ClientLock.session x ∈ H) ∧ _))

/-- Both tasks send one packet, the first one up to `n` operations, then the
second one up to `m`. -/
def twoSenders (n m : Nat) : List (Locks.Label Bool (ClientLock Unit)) :=
  [.call false sendDataOps, .call true sendDataOps] ++ List.replicate n (.op false) ++
    List.replicate m (.op true)

def idle : Bool → Locks.Task (ClientLock Unit) := fun _ => ⟨[], []⟩

def afterSends (n m : Nat) : Bool → Locks.Task (ClientLock Unit) :=
  (Locks.machine ({sendDataOps} : Footprint Unit)).run idle (twoSenders n m)

/-- One send after the other. -/
theorem no_wait_cycle_sample : (afterSends 22 8 true).held = [.sendBuf, .session ()] ∧
    ∀ t, ¬ Relation.TransGen (WaitsFor (afterSends 22 8)) t t := by
  have hReach : (Locks.machine ({sendDataOps} : Footprint Unit)).Reach (Unopposed BufferRequest)
      (afterSends 22 8) :=
    Machine.reach_run (.init fun _ => rfl) (by decide +kernel)
  have hAll := reach_mono (q := dataPlane Unit)
    (by rintro ops rfl; exact sendDataOps_mem) hReach
  exact ⟨by decide +kernel, no_wait_cycle hAll⟩

/-- The first task holds the send buffer and waits for the session, the second
one holds the session and waits for the send buffer. -/
theorem send_data_deadlock : ∃ s : Bool → Locks.Task (ClientLock Unit),
    (Locks.machine (dataPlane Unit)).Reach (fun _ _ => True) s ∧
      .sendBuf ∈ (s false).held ∧ .session () ∈ (s true).held ∧
      ∀ t, Relation.TransGen (WaitsFor s) t t := by
  have hReach : (Locks.machine ({sendDataOps} : Footprint Unit)).Reach (fun _ _ => True)
      (afterSends 10 7) :=
    Machine.reach_run (.init fun _ => rfl) (by decide +kernel)
  have hAll := reach_mono (q := dataPlane Unit)
    (by rintro ops rfl; exact sendDataOps_mem) hReach
  -- the first task has released the session and is about to look up the peer
  have hFirst : WaitsFor (afterSends 10 7) false true :=
    ⟨.session (), by decide +kernel, by decide +kernel⟩
  have hSecond : WaitsFor (afterSends 10 7) true false :=
    ⟨.sendBuf, by decide +kernel, by decide +kernel⟩
  refine ⟨afterSends 10 7, hAll, by decide +kernel, by decide +kernel, ?_⟩
  rintro (_ | _)
  · exact .tail (.single hFirst) hSecond
  · exact .tail (.single hSecond) hFirst

end Run

end LinkMesh
