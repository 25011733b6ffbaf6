import LinkMesh.Server.Workers

/-!
# Routes of live devices

Routes are kept by identity, while a device may have several sessions. BYE and
the cleaner remove the route together with one session; the cleaner lists the
expired sessions first and removes them one by one afterwards.

## Results

* `ending_spares_live` — a BYE or a step of the cleaner takes no route from an
  identity with another unexpired session, and the cleaner no session refreshed
  since its list was made, in a run in which sessions end as the last unexpired
  ones of their identity and no listed identity comes back before its turn.
-/

namespace LinkMesh

open Std KeyMap

variable {Ct : Type}

/-- The time that the sessions on the cleaner's list are measured by. -/
def Cleaner.time : Cleaner → Nat
  | .sweeping now _ => now
  | .unseating now _ _ => now
  | _ => 0

/-- The sessions on the cleaner's list. -/
def Cleaner.listed : Cleaner → List RawKey
  | .sweeping _ keys => keys
  | .unseating _ _ keys => keys
  | _ => []

namespace Workers

/-- A session that `cleanup_loop` would not take for expired now. -/
def Unexpired (env : SignalingEnv Ct) (clock : Nat) (e : SessionEntry) : Prop :=
  clock - e.lastSeen ≤ max env.routeTtlSec 60

/-- The identity has an unexpired session. -/
def HasLive (env : SignalingEnv Ct) (s : Workers Ct) (ik : RawKey) : Prop :=
  ∃ (k : RawKey) (e : SessionEntry),
    s.srv.sessions[k]? = some e ∧ e.ikX = ik ∧ Unexpired env s.clock e

/-- The step belongs to a BYE or to the cleaner. -/
def Ends (s : Workers Ct) : WorkerEvent Ct → Prop
  | .receive f _ _ => f.msgType = msgBye
  | .work w _ => ∃ sender src v, s.tasks w = .committed sender src v .bye
  | .clean => True
  | _ => False

/-- The session that says BYE. -/
def leaving (s : Workers Ct) : WorkerEvent Ct → Option RawKey
  | .work w _ =>
    match s.tasks w with
    | .committed sender _ _ .bye => some sender
    | _ => none
  | _ => none

/-- A step of a BYE or of the cleaner takes no route from an identity with an
unexpired session besides the one that says BYE, and the cleaner takes no session
that was refreshed after its list was made. -/
structure SparesLive (env : SignalingEnv Ct) (n : Nat) (s : Workers Ct) (ev : WorkerEvent Ct) :
    Prop where
  routes : Ends s ev → ∀ ik, ik ∈ s.srv.routes.byKey →
    ik ∉ (s.next env n ev).srv.routes.byKey → ∀ (k : RawKey) e, s.srv.sessions[k]? = some e →
      e.ikX = ik → Unexpired env s.clock e → s.leaving ev = some k
  sessions : ∀ now k keys e, ev = .clean → s.cleaner = .sweeping now (k :: keys) →
    s.srv.sessions[k]? = some e → max env.routeTtlSec 60 < now - e.lastSeen

/-- The cleaner is going to remove the route of the identity. -/
def Condemned (s : Workers Ct) (ik : RawKey) : Prop :=
  (∃ now keys, s.cleaner = .unseating now ik keys) ∨
    ∃ k ∈ s.cleaner.listed, ∃ e, s.srv.sessions[k]? = some e ∧ e.ikX = ik

/-- Sessions end as the last unexpired ones of their identity, when a BYE or the
cleaner is to remove a route and when the cleaner makes its list; and no session
on the list, or of an identity on it, is refreshed or registered. -/
def EndsLast (env : SignalingEnv Ct) (s : Workers Ct) : WorkerEvent Ct → Prop
  | .receive f src d =>
    (f.sender ∉ s.srv.sessions → Signaling.StaticBye env f → f.sender ∈ s.srv.routes.byKey →
      ¬ HasLive env s f.sender) ∧
    ∀ entry resp, (s.srv.handleSignaling env f src d).2 = .auth (.accepted entry resp) →
      ¬ Condemned s entry.ikX ∧ entry.sessionPub ∉ s.cleaner.listed
  | .work w _ =>
    (∀ sender src v, s.tasks w = .committed sender src v .bye → v.ikX ∈ s.srv.routes.byKey →
      ∀ (k : RawKey) e, s.srv.sessions[k]? = some e → e.ikX = v.ikX → Unexpired env s.clock e →
        k = sender) ∧
    ∀ f src v plaintext e, s.tasks w = .opened f src v plaintext →
      s.srv.sessions[f.sender]? = some e → ¬ Condemned s e.ikX
  | .clean =>
    match s.cleaner with
    | .started now => ∀ ik ∈ s.srv.routes.expired now env.routeTtlSec, ¬ HasLive env s ik
    | .pruned now => ∀ k ∈ s.srv.expiredSessions env now, ∀ e, s.srv.sessions[k]? = some e →
        ¬ HasLive env s e.ikX
    | _ => True
  | _ => True

variable {env : SignalingEnv Ct} {n : Nat} {s s' : Workers Ct} {ev : WorkerEvent Ct} {k ik : RawKey}
  {e : SessionEntry}

-- ---------------------------------------------------------------------------
-- The list of the cleaner
-- ---------------------------------------------------------------------------

/-- The sessions on the list were expired when it was made and have not been
refreshed, and the identities on it have no unexpired session. -/
structure SweepsDead (env : SignalingEnv Ct) (s : Workers Ct) : Prop where
  listed : ∀ k ∈ s.cleaner.listed, ∀ e, s.srv.sessions[k]? = some e →
    max env.routeTtlSec 60 < s.cleaner.time - e.lastSeen
  dead : ∀ ik, Condemned s ik → ¬ HasLive env s ik

/-- Sessions go, and the list gets shorter. -/
theorem SweepsDead.shrink (h : SweepsDead env s) (hClock : s.clock ≤ s'.clock)
    (hSessions : ∀ (k : RawKey) e, s'.srv.sessions[k]? = some e → s.srv.sessions[k]? = some e)
    (hListed : ∀ k ∈ s'.cleaner.listed, k ∈ s.cleaner.listed ∧ s'.cleaner.time = s.cleaner.time)
    (hCondemned : ∀ now ik keys, s'.cleaner = .unseating now ik keys → Condemned s ik) :
    SweepsDead env s' := by
  refine ⟨fun k hk e hEntry => ?_, fun ik hIk => ?_⟩
  · obtain ⟨hOld, hTime⟩ := hListed k hk
    rw [hTime]
    exact h.listed k hOld e (hSessions k e hEntry)
  · rintro ⟨k', e', hEntry', hSame, hLive⟩
    have hBefore : Condemned s ik := by
      rcases hIk with ⟨now, keys, hUnseating⟩ | ⟨k, hk, e, hEntry, hKey⟩
      · exact hCondemned now ik keys hUnseating
      · exact .inr ⟨k, (hListed k hk).1, e, hSessions k e hEntry, hKey⟩
    refine h.dead ik hBefore ⟨k', e', hSessions k' e' hEntry', hSame, ?_⟩
    unfold Unexpired at hLive ⊢
    omega

/-- A session of a condemned identity is as it was. -/
theorem condemned_kept (hGuard : EndsLast env s ev)
    (hEntry : (s.next env n ev).srv.sessions[k]? = some e)
    (hListed : k ∈ s.cleaner.listed ∨ Condemned s e.ikX) : s.srv.sessions[k]? = some e := by
  cases next_sessions hEntry with
  | kept hOld => exact hOld
  | @committed w random f src v plaintext e₀ hEv hTask hKey hBefore hNew =>
    subst hEv hKey hNew
    refine absurd ?_ (hGuard.2 f src v plaintext e₀ hTask hBefore)
    rcases hListed with hListed | hCondemned
    · exact .inr ⟨_, hListed, e₀, hBefore, rfl⟩
    · exact hCondemned
  | registered hEv hAccepted hKey =>
    subst hEv hKey
    obtain ⟨hFree, hNotListed⟩ := hGuard.2 _ _ hAccepted
    rcases hListed with hListed | hCondemned
    · exact absurd hListed hNotListed
    · exact absurd hCondemned hFree

/-- The steps of the others leave the list alone. -/
theorem sweepsDead_other (h : SweepsDead env s) (hGuard : EndsLast env s ev)
    (hClock : s.clock ≤ (s.next env n ev).clock)
    (hCleaner : (s.next env n ev).cleaner = s.cleaner) : SweepsDead env (s.next env n ev) := by
  have hCondemned : ∀ ik, Condemned (s.next env n ev) ik → Condemned s ik := by
    rintro ik (⟨now, keys, hUnseating⟩ | ⟨k, hk, e, hEntry, hKey⟩)
    · rw [hCleaner] at hUnseating
      exact .inl ⟨now, keys, hUnseating⟩
    · rw [hCleaner] at hk
      exact .inr ⟨k, hk, e, condemned_kept hGuard hEntry (.inl hk), hKey⟩
  refine ⟨fun k hk e hEntry => ?_, fun ik hIk => ?_⟩
  · rw [hCleaner] at hk ⊢
    exact h.listed k hk e (condemned_kept hGuard hEntry (.inl hk))
  · rintro ⟨k, e, hEntry, hSame, hLive⟩
    have hOld := condemned_kept hGuard hEntry (.inr (hSame ▸ hCondemned ik hIk))
    refine h.dead ik (hCondemned ik hIk) ⟨k, e, hOld, hSame, ?_⟩
    unfold Unexpired at hLive ⊢
    omega

/-- A cleaner without a list. -/
theorem sweepsDead_of_unlisted (hListed : s.cleaner.listed = [])
    (hCleaner : ∀ now ik keys, s.cleaner ≠ .unseating now ik keys) : SweepsDead env s := by
  refine ⟨fun k hk => ?_, fun ik hIk => ?_⟩
  · rw [hListed] at hk
    cases hk
  · rcases hIk with ⟨now, keys, hUnseating⟩ | ⟨k, hk, _⟩
    · exact absurd hUnseating (hCleaner now ik keys)
    · rw [hListed] at hk
      cases hk

theorem next_clean {c : Cleaner} (hCleaner : s.cleaner = c) :
    s.next env n .clean =
      { s with srv := (c.step env s.srv s.clock).1, cleaner := (c.step env s.srv s.clock).2 } := by
  rw [← hCleaner]
  rfl

/-- The cleaner makes its list of sessions whose identities are all dead, and
works it off. -/
theorem sweepsDead_clean (h : SweepsDead env s) (hGuard : EndsLast env s .clean) :
    SweepsDead env (s.next env n .clean) := by
  unfold EndsLast at hGuard
  cases hCleaner : s.cleaner with
  | idle =>
    rw [next_clean hCleaner]
    exact sweepsDead_of_unlisted rfl fun _ _ _ hEq => by cases hEq
  | started now =>
    rw [next_clean hCleaner]
    exact sweepsDead_of_unlisted rfl fun _ _ _ hEq => by cases hEq
  | routesCleaned now =>
    rw [next_clean hCleaner]
    exact sweepsDead_of_unlisted rfl fun _ _ _ hEq => by cases hEq
  | pruned now =>
    rw [next_clean hCleaner]
    simp only [hCleaner] at hGuard
    dsimp only [Cleaner.step]
    split
    · exact sweepsDead_of_unlisted rfl fun _ _ _ hEq => by cases hEq
    · refine ⟨fun k hk e hEntry => ?_, fun ik hIk => ?_⟩
      · obtain ⟨e', hEntry', hOld⟩ := Signaling.mem_expiredSessions.mp hk
        rw [hEntry] at hEntry'
        cases hEntry'
        exact hOld
      · rcases hIk with ⟨_, _, hUnseating⟩ | ⟨k, hk, e, hEntry, rfl⟩
        · cases hUnseating
        · exact hGuard k hk e hEntry
  | sweeping now keys =>
    rw [next_clean hCleaner]
    cases keys with
    | nil => exact sweepsDead_of_unlisted rfl fun _ _ _ hEq => by cases hEq
    | cons k keys =>
      have hTail : ∀ j ∈ keys, j ∈ s.cleaner.listed := by
        intro j hj
        rw [hCleaner]
        exact List.mem_cons_of_mem _ hj
      dsimp only [Cleaner.step]
      split
      · rename_i e hEntry
        refine h.shrink (Nat.le_refl _)
          (fun _ _ hAfter => (Signaling.shrinks_removeSession s.srv k).sessions _ _ hAfter)
          (fun j hj => ⟨hTail j hj, by rw [hCleaner]; rfl⟩) fun _ ik _ hUnseating => ?_
        cases hUnseating
        refine .inr ⟨k, ?_, e, hEntry, rfl⟩
        rw [hCleaner]
        exact List.mem_cons_self ..
      · exact h.shrink (Nat.le_refl _) (fun _ _ hAfter => hAfter)
          (fun j hj => ⟨hTail j hj, by rw [hCleaner]; rfl⟩) fun _ _ _ hEq => by cases hEq
  | unseating now ik keys =>
    rw [next_clean hCleaner]
    refine h.shrink (Nat.le_refl _) (fun _ _ hAfter => hAfter) (fun j hj => ⟨?_, ?_⟩)
      fun _ _ _ hEq => by cases hEq
    · rw [hCleaner]
      exact hj
    · rw [hCleaner]
      rfl

theorem sweepsDead_next (h : SweepsDead env s) (hEnabled : enabled env n s ev)
    (hGuard : EndsLast env s ev) : SweepsDead env (s.next env n ev) := by
  cases ev with
  | clean => exact sweepsDead_clean h hGuard
  | tick now => exact sweepsDead_other h hGuard hEnabled rfl
  | receive f src d =>
    obtain ⟨srv, tasks, keys, hEq⟩ := next_receive_frame env n s f src d
    refine sweepsDead_other h hGuard ?_ ?_
    · rw [hEq]
    · rw [hEq]
  | relay srcKey src =>
    obtain ⟨tasks, hEq⟩ := next_relay_frame env n s srcKey src
    refine sweepsDead_other h hGuard ?_ ?_
    · rw [hEq]
    · rw [hEq]
  | _ => exact sweepsDead_other h hGuard (Nat.le_refl _) rfl

theorem sweepsDead_reach (h : (machine env n).Reach (EndsLast env) s) : SweepsDead env s := by
  refine h.invariant (I := SweepsDead env) (fun s hInit => ?_)
    fun s ev hInv hEnabled hGuard => sweepsDead_next hInv hEnabled hGuard
  obtain ⟨clock, mesh, rooms, aliases, rfl⟩ := hInit
  exact sweepsDead_of_unlisted rfl fun _ _ _ hEq => by cases hEq

-- ---------------------------------------------------------------------------
-- Routes
-- ---------------------------------------------------------------------------

/-- The cleaner takes routes of identities without an unexpired session. -/
theorem clean_route (h : SweepsDead env s) (hGuard : EndsLast env s .clean)
    (hRoute : ik ∈ s.srv.routes.byKey) (hGone : ik ∉ (s.next env n .clean).srv.routes.byKey) :
    ¬ HasLive env s ik := by
  unfold EndsLast at hGuard
  cases hCleaner : s.cleaner with
  | started now =>
    rw [next_clean hCleaner] at hGone
    simp only [hCleaner] at hGuard
    refine hGuard ik ?_
    by_contra hKept
    exact hGone (RouteTable.mem_foldl_remove.mpr ⟨hKept, hRoute⟩)
  | unseating now ik' keys =>
    rw [next_clean hCleaner] at hGone
    by_cases hSame : ik = ik'
    · subst hSame
      exact h.dead ik (.inl ⟨now, keys, hCleaner⟩)
    · exact absurd (RouteTable.mem_remove.mpr ⟨hSame, hRoute⟩) hGone
  | sweeping now keys =>
    rw [next_clean hCleaner] at hGone
    cases keys with
    | nil => exact absurd hRoute hGone
    | cons k keys =>
      dsimp only [Cleaner.step] at hGone
      split at hGone
      · exact absurd hRoute hGone
      · exact absurd hRoute hGone
  | idle =>
    rw [next_clean hCleaner] at hGone
    exact absurd hRoute hGone
  | routesCleaned =>
    rw [next_clean hCleaner] at hGone
    exact absurd hRoute hGone
  | pruned =>
    rw [next_clean hCleaner] at hGone
    exact absurd hRoute hGone

/-- **Ending one session never disconnects a live one.** In every run in which
sessions end as the last unexpired ones of their identity and nothing on the list
of the cleaner comes back before its turn, no BYE and no step of the cleaner takes
a route from an identity with another unexpired session, and the cleaner takes no
session refreshed since its list was made. -/
theorem ending_spares_live (h : (machine env n).Reach (EndsLast env) s)
    (hGuard : EndsLast env s ev) : SparesLive env n s ev := by
  have hDead := sweepsDead_reach h
  refine ⟨fun hEnds ik hRoute hGone k e hEntry hIk hLive => ?_,
    fun now k keys e hEv hCleaner hEntry => ?_⟩
  · cases ev with
    | clean => exact absurd ⟨k, e, hEntry, hIk, hLive⟩ (clean_route hDead hGuard hRoute hGone)
    | receive f src d =>
      unfold next at hGone
      dsimp only at hGone
      split at hGone
      · exact absurd hRoute hGone
      · rename_i hHandshake
        rcases (Signaling.handleSignaling_handshake env src d hHandshake).routes with
          hSame | ⟨hFree, hBye, hRemoved⟩
        · exact absurd hRoute (hSame ▸ hGone)
        · change ik ∉ (s.srv.handleSignaling env f src d).1.routes.byKey at hGone
          rw [hRemoved] at hGone
          by_cases hSame : ik = f.sender
          · subst hSame
            exact absurd ⟨k, e, hEntry, hIk, hLive⟩ (hGuard.1 hFree hBye hRoute)
          · exact absurd (RouteTable.mem_remove.mpr ⟨hSame, hRoute⟩) hGone
    | work w random =>
      obtain ⟨sender, src, v, hTask⟩ := hEnds
      change ik ∉ ((s.tasks w).step env s.srv s.clock).1.routes.byKey at hGone
      rw [hTask] at hGone
      by_cases hSame : ik = v.ikX
      · subst hSame
        rw [hGuard.1 sender src v hTask hRoute k e hEntry hIk hLive]
        unfold leaving
        simp only [hTask]
      · exact absurd (RouteTable.mem_remove.mpr ⟨hSame, hRoute⟩) hGone
    | _ => exact hEnds.elim
  · have hListed := hDead.listed k (by rw [hCleaner]; exact List.mem_cons_self ..) e hEntry
    rw [hCleaner] at hListed
    exact hListed

-- ---------------------------------------------------------------------------
-- Sample runs
-- ---------------------------------------------------------------------------

/-- While the cleaner is idle, a frame that is not a BYE ends nothing. -/
theorem endsLast_receive {f : SignalFrame Ct} {src : SourceAddr} {d : SignalDraw}
    (hCleaner : s.cleaner = .idle) (hBye : ¬ (f.sender ∉ s.srv.sessions ∧ f.msgType = msgBye)) :
    EndsLast env s (.receive f src d) := by
  refine ⟨fun hFree hStatic => absurd ⟨hFree, hStatic.kind⟩ hBye, fun entry resp _ => ?_⟩
  unfold Condemned
  rw [hCleaner]
  refine ⟨?_, List.not_mem_nil⟩
  rintro (⟨now, keys, hUnseating⟩ | ⟨k, hk, _⟩)
  · cases hUnseating
  · exact absurd hk List.not_mem_nil

/-- While the cleaner is idle, a worker ends a session with the removal of a
route for a BYE only. -/
theorem endsLast_work {w : Nat} {random : Nonce} (hCleaner : s.cleaner = .idle)
    (hBye : ∀ sender src v, s.tasks w = .committed sender src v .bye → ∀ (k : RawKey) e,
      s.srv.sessions[k]? = some e → k = sender) :
    EndsLast env s (.work w random) := by
  refine ⟨fun sender src v hTask _ k e hEntry _ _ => hBye sender src v hTask k e hEntry,
    fun f src v plaintext e _ _ => ?_⟩
  unfold Condemned
  rw [hCleaner]
  rintro (⟨now, keys, hUnseating⟩ | ⟨k, hk, _⟩)
  · cases hUnseating
  · exact absurd hk List.not_mem_nil

theorem endsLast_quiet {w : Nat} {random : Nonce} {t : Task Ct} (hCleaner : s.cleaner = .idle)
    (hTask : s.tasks w = t) (hBye : ∀ sender src v, t ≠ .committed sender src v .bye) :
    EndsLast env s (.work w random) := by
  refine endsLast_work hCleaner fun sender src v hLeaving => ?_
  rw [hTask] at hLeaving
  exact absurd hLeaving (hBye sender src v)

section

variable {s : Workers (RawKey × Nonce × Bytes)} {e e' : SessionEntry}

/-- A worker may take a request of a live session while the cleaner is idle. -/
theorem reach_endsLast_committed {msgType port : Nat} {plaintext : Bytes}
    (h : sampleMachine.Reach (EndsLast sampleServerEnv) s) (hCleaner : s.cleaner = .idle)
    (hIdle : s.tasks (sampleWorker port) = .idle) (hKind : msgType ≠ msgKeyquery)
    (hEntry : s.srv.sessions[e.sessionPub]? = some e) :
    sampleMachine.Reach (EndsLast sampleServerEnv) (sampleCommitted s e msgType plaintext port) := by
  refine reach_sampleCommitted h hIdle hKind hEntry ?_ fun t hBusy => ?_
  · exact endsLast_receive hCleaner fun hBye => hBye.1 (mem_iff.mpr ⟨e, hEntry⟩)
  · exact endsLast_quiet hCleaner (setTask_tasks.trans (if_pos rfl))
      fun sender src v => hBusy sender src v _

/-- One session has registered the route, and the BYE of one has moved its counter
on. -/
def sampleLeaving (s : Workers (RawKey × Nonce × Bytes)) (e e' : SessionEntry) :
    Workers (RawKey × Nonce × Bytes) :=
  sampleCommitted (sampleRegistered (sampleCommitted s e msgRegister sampleRegistrationBytes 4000)
    e.view 4000) e' msgBye [] 4001

theorem sampleLeaving_task :
    (sampleLeaving s e e').tasks (sampleWorker 4001) =
      .committed e'.sessionPub (sampleSource 4001) e'.view .bye :=
  sampleCommitted_task.trans (congrArg _ (Signaling.planRequest_bye_iff.mpr rfl))

theorem sampleLeaving_route (hIk : e.ikX = 2) :
    (2 : RawKey) ∈ (sampleLeaving s e e').srv.routes.byKey := by
  unfold sampleLeaving
  rw [sampleCommitted_routes, ← hIk]
  exact RouteTable.mem_upsert_self

theorem reach_sampleLeaving (h : sampleMachine.Reach (EndsLast sampleServerEnv) s)
    (hIdle : ∀ w, s.tasks w = .idle) (hCleaner : s.cleaner = .idle)
    (hEntry : s.srv.sessions[e.sessionPub]? = some e) (hIp : sampleRegistration.ip = e.ip)
    (hEntry' : (sampleCommitted s e msgRegister sampleRegistrationBytes
      4000).srv.sessions[e'.sessionPub]? = some e') :
    sampleMachine.Reach (EndsLast sampleServerEnv) (sampleLeaving s e e') := by
  have hFlight : sampleMachine.Reach (EndsLast sampleServerEnv)
      (sampleCommitted s e msgRegister sampleRegistrationBytes 4000) :=
    reach_endsLast_committed h hCleaner (hIdle _) (by decide) hEntry
  have hTask : (sampleCommitted s e msgRegister sampleRegistrationBytes 4000).tasks (sampleWorker 4000) =
      .committed e.sessionPub (sampleSource 4000) e.view (.register none none) :=
    sampleCommitted_task.trans (congrArg _ (plan_sampleRegistration hIp))
  have hRegistered := reach_sampleRegistered hFlight hTask
    (endsLast_quiet hCleaner hTask fun _ _ _ hEq => by cases hEq)
    (endsLast_quiet hCleaner (afterRegister_tasks.trans (if_pos rfl)) fun _ _ _ hEq => by cases hEq)
  refine reach_endsLast_committed hRegistered hCleaner ?_ (by decide) hEntry'
  rw [sampleRegistered_other sampleWorker_ne.symm, sampleCommitted_other sampleWorker_ne.symm]
  exact hIdle _

end

/-- The only session of device 2 registers its route and says BYE. -/
theorem ending_spares_live_sample :
    ∃ s, sampleMachine.Reach (EndsLast sampleServerEnv) s ∧
      Ends s (.work (sampleWorker 4001) (0, 0)) ∧ (2 : RawKey) ∈ s.srv.routes.byKey ∧
      SparesLive sampleServerEnv (defaultWorkerCount (some 2)) s (.work (sampleWorker 4001) (0, 0)) := by
  have hUp : sampleMachine.Reach (EndsLast sampleServerEnv) sampleSessionUp :=
    reach_sampleSessionUp (endsLast_receive rfl fun hBye => absurd hBye.2 (by decide))
  have hEntry := Signaling.sampleOneSession_entry
  have hLeaving : sampleMachine.Reach (EndsLast sampleServerEnv)
      (sampleLeaving sampleSessionUp (sampleEntry 2 50 11 0 1 0)
        { sampleEntry 2 50 11 0 1 0 with counterRx := 1, lastSeen := 0 }) := by
    refine reach_sampleLeaving hUp (fun _ => rfl) rfl ((hEntry 50).trans (if_pos rfl))
      (by decide +kernel) (sampleCommitted_sessions.trans ?_)
    show (if (50 : RawKey) = 50 then sampleOneSession.sessions[(50 : RawKey)]?.map _ else _) = _
    rw [hEntry]
    rfl
  refine ⟨_, hLeaving, ⟨_, _, _, sampleLeaving_task⟩, sampleLeaving_route rfl, ?_⟩
  refine ending_spares_live hLeaving (endsLast_work rfl fun sender src v hTask k e hSession => ?_)
  cases sampleLeaving_task.symm.trans hTask
  by_contra hOther
  have hGone := sampleCommitted_sessions.symm.trans hSession
  rw [if_neg hOther] at hGone
  have hNone := sampleCommitted_sessions.symm.trans hGone
  rw [if_neg hOther] at hNone
  cases ((hEntry k).trans (if_neg hOther)).symm.trans hNone

/-- Device 2 has a second session, under the ephemeral key 51. -/
def sampleTwoUp : Workers (RawKey × Nonce × Bytes) :=
  { sampleSessionUp with
    srv := sampleAdd sampleOneSession 2 51 12 0 2 0
    keys := sampleSessionUp.keys ++ [((sampleEntry 2 51 12 0 2 0).sk, 51)] }

theorem sampleTwoUp_sessions (k : RawKey) :
    sampleTwoUp.srv.sessions[k]? =
      if k = 51 then some (sampleEntry 2 51 12 0 2 0)
      else if k = 50 then some (sampleEntry 2 50 11 0 1 0) else none := by
  have hSmall : sampleOneSession.sessions.size < Signaling.maxSessionsPerDevice := by
    rw [sampleOneSession, Signaling.sampleAdd_sessions]
    decide +kernel
  unfold sampleTwoUp
  rw [Signaling.sampleAdd_sessions, Signaling.register_getElem?, Signaling.afterCaps_of_small hSmall,
    Signaling.sampleOneSession_entry]
  rfl

theorem reach_sampleTwoUp : sampleMachine.Reach (EndsLast sampleServerEnv) sampleTwoUp := by
  have hUp : sampleMachine.Reach (EndsLast sampleServerEnv) sampleSessionUp :=
    reach_sampleSessionUp (endsLast_receive rfl fun hBye => absurd hBye.2 (by decide))
  refine reach_sampleAuth hUp (fun _ => rfl) (.inl rfl) (by decide) ?_ ?_ ?_
    (endsLast_receive rfl fun hBye => absurd hBye.2 (by decide))
  · intro hSession
    obtain ⟨e, hEntry⟩ := mem_iff.mp hSession
    rw [sampleSessionUp, Signaling.sampleOneSession_entry] at hEntry
    cases hEntry
  · refine Signaling.sampleAuth_admits Signaling.sampleAdd_mesh Signaling.sampleAdd_rooms (.inl rfl)
      (by decide) (Nat.zero_le _) ?_ (by decide)
    show _ ∉ sampleOneSession.replay[(2 : RawKey)]?.getD []
    rw [sampleOneSession, Signaling.sampleAdd_replay]
    decide +kernel
  · intro q hq
    rw [List.mem_singleton.mp hq]
    decide +kernel

/-- Device 2 has two sessions, registers its route on the second and says BYE on
the first. -/
theorem ending_spares_live_fails :
    ∃ s ev, sampleMachine.Reach (fun _ _ => True) s ∧ sampleMachine.enabled s ev ∧
      ¬ SparesLive sampleServerEnv (defaultWorkerCount (some 2)) s ev := by
  have hLeaving : sampleMachine.Reach (EndsLast sampleServerEnv)
      (sampleLeaving sampleTwoUp (sampleEntry 2 51 12 0 2 0) (sampleEntry 2 50 11 0 1 0)) := by
    refine reach_sampleLeaving reach_sampleTwoUp (fun _ => rfl) rfl
      ((sampleTwoUp_sessions 51).trans (if_pos rfl)) (by decide +kernel) ?_
    exact sampleCommitted_sessions.trans ((if_neg (by decide)).trans (sampleTwoUp_sessions 50))
  have hEnabled : sampleMachine.enabled (sampleLeaving sampleTwoUp (sampleEntry 2 51 12 0 2 0)
      (sampleEntry 2 50 11 0 1 0)) (.work (sampleWorker 4001) (0, 0)) := by
    refine ⟨fun hIdle => ?_, fun v msg hAnswer => ?_⟩
    · cases sampleLeaving_task.symm.trans hIdle
    · cases sampleLeaving_task.symm.trans hAnswer
  refine ⟨_, _, hLeaving.mono fun _ _ _ => trivial, hEnabled, fun hSpares => ?_⟩
  have hGone : (2 : RawKey) ∉ ((sampleLeaving sampleTwoUp (sampleEntry 2 51 12 0 2 0)
      (sampleEntry 2 50 11 0 1 0)).next sampleServerEnv (defaultWorkerCount (some 2))
        (.work (sampleWorker 4001) (0, 0))).srv.routes.byKey := by
    rw [next_work_quiet sampleLeaving_task rfl rfl rfl]
    exact fun hMem => (RouteTable.mem_remove.mp hMem).1 rfl
  have hStays := hSpares.routes ⟨_, _, _, sampleLeaving_task⟩ 2 (sampleLeaving_route rfl) hGone 51
    { sampleEntry 2 51 12 0 2 0 with counterRx := 1, lastSeen := 0 } ?_ rfl (Nat.zero_le _)
  · unfold leaving at hStays
    simp only [sampleLeaving_task] at hStays
    exact absurd (Option.some.inj hStays) (by decide : (50 : RawKey) ≠ 51)
  · refine sampleCommitted_sessions.trans ((if_neg (by decide)).trans ?_)
    refine sampleCommitted_sessions.trans ((if_pos rfl).trans ?_)
    rw [sampleTwoUp_sessions]
    rfl

end Workers

end LinkMesh
