import LinkMesh.Server.Workers
import Mathlib.Logic.Relation

/-!
# Calls without a break

What the server does one call at a time (`Signaling.next`) is what the locked
sections of the call do when nothing runs in between.

## Results

* `sections_handleSession`, `sections_revokeDevice`, `sections_cleanupPass` —
  the sections of a call end where the call ends.
* `reach_call` — from a state in which nothing is going on, the workers can
  handle any call, and nothing is going on afterwards.
-/

namespace LinkMesh

open Std Relation

variable {Ct : Type}

/-- The sections of one thread, from one that has not ended. -/
def Sections {σ τ : Type} (busy : τ → Prop) (step : σ → τ → σ × τ) : σ × τ → σ × τ → Prop :=
  ReflTransGen fun p q => busy p.2 ∧ q = step p.1 p.2

/-- What every section preserves holds where the sections end. -/
theorem Sections.invariant {σ τ : Type} {busy : τ → Prop} {step : σ → τ → σ × τ} {P : σ → τ → Prop}
    {p q : σ × τ} (h : Sections busy step p q) (hStart : P p.1 p.2)
    (hStep : ∀ x t, busy t → P x t → P (step x t).1 (step x t).2) : P q.1 q.2 := by
  induction h with
  | refl => exact hStart
  | tail _ hLast ih =>
    obtain ⟨hBusy, rfl⟩ := hLast
    exact hStep _ _ hBusy ih

/-- A worker has a section ahead of it before it answers. -/
def Task.Busy : Task Ct → Prop
  | .idle => False
  | .answering _ _ => False
  | _ => True

/-- A revocation has a section ahead of it. -/
def Revocation.Busy : Revocation → Prop
  | .idle => False
  | _ => True

/-- The cleaner is in the middle of a pass. -/
def Cleaner.Busy : Cleaner → Prop
  | .idle => False
  | _ => True

/-- A worker is through with a request, with this outcome. -/
def Task.Concludes (env : SignalingEnv Ct) (random : Nonce) (outcome : SessionOutcome Ct) :
    Task Ct → Prop
  | .idle => outcome = .unknownSession ∨ outcome = .notOpened
  | .answering v answer => outcome = sealAnswer env v random answer
  | _ => False

variable {env : SignalingEnv Ct} {srv : Signaling} {now : Nat} {sender : RawKey} {src : SourceAddr}
  {v : SessionView}

-- ---------------------------------------------------------------------------
-- A session request
-- ---------------------------------------------------------------------------

namespace Task

/-- A QUERY looks its IP up. -/
theorem sections_lookup (env : SignalingEnv Ct) (srv : Signaling) (now : Nat) (v : SessionView)
    (qb : QueryBody) :
    Sections Busy (fun srv t => step env srv now t) (srv, lookup env srv v qb)
      (srv, .resolved v qb (srv.queryIp env qb)) := by
  unfold lookup Signaling.queryIp
  cases hName : qb.name with
  | none => exact .refl
  | some raw =>
    dsimp only
    by_cases hEmpty : env.toLowercase (trim raw) = ""
    · rw [if_pos hEmpty, if_pos hEmpty]
      exact .refl
    · rw [if_neg hEmpty, if_neg hEmpty]
      unfold Signaling.resolveAlias
      cases srv.aliases[env.toLowercase (trim raw)]? with
      | some ip => exact .refl
      | none => exact .single ⟨trivial, rfl⟩

/-- The request itself. -/
theorem sections_execute (env : SignalingEnv Ct) (srv : Signaling) (now : Nat) (sender : RawKey)
    (src : SourceAddr) (v : SessionView) (plan : RequestPlan) :
    Sections Busy (fun srv t => step env srv now t) (srv, .committed sender src v plan)
      ((srv.execute env sender v src now plan).1,
        .answering v (srv.execute env sender v src now plan).2) := by
  cases plan with
  | bye =>
    have hRoute : Sections Busy (fun srv t => step env srv now t)
        (srv, .committed sender src v .bye) (srv.removeRoute v.ikX, .unrouted sender v) :=
      .single ⟨trivial, rfl⟩
    have hSession : Sections Busy (fun srv t => step env srv now t)
        (srv.removeRoute v.ikX, .unrouted sender v)
        ((srv.removeRoute v.ikX).removeSession sender, .left v) :=
      .single ⟨trivial, rfl⟩
    exact (hRoute.trans hSession).tail ⟨trivial, rfl⟩
  | query qb =>
    have hLookup : Sections Busy (fun srv t => step env srv now t)
        (srv, .committed sender src v (.query qb)) (srv, lookup env srv v qb) :=
      .single ⟨trivial, rfl⟩
    exact (hLookup.trans (sections_lookup env srv now v qb)).tail ⟨trivial, rfl⟩
  | _ => exact .single ⟨trivial, rfl⟩

/-- The sections of a session request end where the request ends. -/
theorem sections_handleSession (env : SignalingEnv Ct) (srv : Signaling) (f : SignalFrame Ct)
    (src : SourceAddr) {d : RequestDraw} (hNow : d.now = now) (hRoute : d.routeNow = now) :
    ∃ t, Sections Busy (fun srv t => step env srv now t) (srv, .dispatched f src)
        ((srv.handleSession env f src d).1, t) ∧
      t.Concludes env d.random (srv.handleSession env f src d).2 := by
  subst hNow
  have hRead : Sections Busy (fun srv t => step env srv d.now t) (srv, .dispatched f src)
      ((step env srv d.now (.dispatched f src)).1, (step env srv d.now (.dispatched f src)).2) :=
    .single ⟨trivial, rfl⟩
  unfold step at hRead
  cases hEntry : srv.sessions[f.sender]? with
  | none =>
    rw [Signaling.handleSession_unknown hEntry]
    simp only [hEntry] at hRead
    exact ⟨.idle, hRead, .inl rfl⟩
  | some e =>
    cases hOpen : e.view.openFrame env f.payload with
    | none =>
      rw [Signaling.handleSession_not_opened hEntry hOpen]
      simp only [hEntry, hOpen] at hRead
      exact ⟨.idle, hRead, .inr rfl⟩
    | some plaintext =>
      rw [Signaling.handleSession_opened hEntry hOpen, hRoute]
      simp only [hEntry, hOpen] at hRead
      exact ⟨_, (hRead.tail ⟨trivial, rfl⟩).trans (sections_execute ..), rfl⟩

end Task

-- ---------------------------------------------------------------------------
-- A revocation
-- ---------------------------------------------------------------------------

namespace Revocation

/-- The routes go one by one. -/
theorem sections_clearing (srv : Signaling) (deviceId : String) (keys : List RawKey) :
    Sections Busy step (srv, .clearing deviceId keys) (srv.removeRoutes keys, .idle) := by
  induction keys generalizing srv with
  | nil => exact .single ⟨trivial, rfl⟩
  | cons key keys ih => exact .head ⟨trivial, rfl⟩ (ih (srv.removeRoute key))

/-- The sections of a revocation end where the revocation ends. -/
theorem sections_revokeDevice {deviceId : String} {reason : RevokeReason} {crl : Crl}
    (h : (srv.mesh.revoke env.signatures deviceId reason now).2 = .ok crl) :
    Sections Busy step
      ({ srv with mesh := (srv.mesh.revoke env.signatures deviceId reason now).1 }, .listed deviceId)
      ((srv.revokeDevice env deviceId reason now).1, .idle) := by
  unfold Signaling.revokeDevice
  simp only [h]
  refine .head ⟨trivial, rfl⟩ (.head ⟨trivial, rfl⟩ ?_)
  exact sections_clearing _ deviceId _

end Revocation

-- ---------------------------------------------------------------------------
-- A cleanup pass
-- ---------------------------------------------------------------------------

namespace Cleaner

/-- The sessions on the list go one by one. -/
theorem sections_sweeping (env : SignalingEnv Ct) (srv : Signaling) (clock now : Nat)
    (keys : List RawKey) :
    Sections Busy (fun srv c => step env srv clock c) (srv, .sweeping now keys)
      ((keys.foldl Signaling.dropSession srv).rebuildActiveIkX, .idle) := by
  induction keys generalizing srv with
  | nil => exact .single ⟨trivial, rfl⟩
  | cons key keys ih =>
    have hSession : Sections Busy (fun srv c => step env srv clock c)
        (srv, .sweeping now (key :: keys))
        ((step env srv clock (.sweeping now (key :: keys))).1,
          (step env srv clock (.sweeping now (key :: keys))).2) :=
      .single ⟨trivial, rfl⟩
    refine ReflTransGen.trans ?_ (ih (srv.dropSession key))
    unfold step at hSession
    unfold Signaling.dropSession
    cases hEntry : srv.sessions[key]? with
    | none =>
      simp only [hEntry] at hSession
      exact hSession
    | some e =>
      simp only [hEntry] at hSession
      exact hSession.tail ⟨trivial, rfl⟩

/-- The sections of a cleanup pass end where the pass ends. -/
theorem sections_cleanupPass (env : SignalingEnv Ct) (srv : Signaling) (clock now : Nat) :
    Sections Busy (fun srv c => step env srv clock c) (srv, .started now)
      (srv.cleanupPass env now, .idle) := by
  refine .head ⟨trivial, rfl⟩ (.head ⟨trivial, rfl⟩
    (.head ⟨trivial, rfl⟩ ?_))
  unfold Signaling.cleanupPass
  dsimp only [step]
  split
  · rename_i hEmpty
    rw [List.isEmpty_iff.mp hEmpty]
    exact .refl
  · exact sections_sweeping env _ clock now _

end Cleaner

-- ---------------------------------------------------------------------------
-- Calls of the machine
-- ---------------------------------------------------------------------------

/-- The time and the random values of a call fit the state: it reads the clock
once, and what it draws is new. -/
def ServerEvent.Fits (env : SignalingEnv Ct) (s : Workers Ct) : ServerEvent Ct → Prop
  | .datagram f src d =>
    d.request.now = s.clock ∧ d.request.routeNow = s.clock ∧
      (∀ p ∈ (s.srv.handleSignaling env f src d).2.issued, ∀ q ∈ s.keys, q.1 ≠ p.1) ∧
      ∀ key, s.FreshNonce key d.request.random
  | .relay _ now => now = s.clock
  | .revoke _ _ now => now = s.clock
  | .cleanup now => now = s.clock
  | _ => True

namespace Workers

/-- Nothing is going on. -/
structure Resting (s : Workers Ct) : Prop where
  tasks : ∀ w, s.tasks w = .idle
  control : ∀ c, s.control c = .idle
  cleaner : s.cleaner = .idle

variable {n w c : Nat} {s : Workers Ct} {srv' : Signaling} {t t' : Task Ct} {r r' : Revocation}
  {a a' : Cleaner}

/-- A worker runs sections of its own. -/
theorem reach_task_sections (h : (machine env n).Reach (fun _ _ => True) s) (hTask : s.tasks w = t)
    (hSections : Sections Task.Busy (fun srv t => t.step env srv s.clock) (s.srv, t) (srv', t')) :
    ∃ executed registrant, (machine env n).Reach (fun _ _ => True)
      { s with
        srv := srv'
        tasks := Function.update s.tasks w t'
        executed := executed
        registrant := registrant } := by
  refine hSections.invariant (P := fun srv t => ∃ executed registrant,
    (machine env n).Reach (fun _ _ => True)
      { s with
        srv := srv
        tasks := Function.update s.tasks w t
        executed := executed
        registrant := registrant }) ?_ fun srv t hBusy hReach => ?_
  · refine ⟨s.executed, s.registrant, ?_⟩
    rw [← hTask, Function.update_eq_self]
    exact h
  · obtain ⟨executed, registrant, hReach⟩ := hReach
    have hNow : Function.update s.tasks w t w = t := Function.update_self ..
    have hSeals : t.seals env (0, 0) = [] := by
      cases t with
      | answering => exact hBusy.elim
      | _ => rfl
    have hAfter := reach_next (.work w (0, 0)) hReach (enabled_work hNow
      (fun hIdle => by rw [hIdle] at hBusy; exact hBusy)
      fun v msg hAnswer => by rw [hAnswer] at hBusy; exact hBusy) trivial rfl
    unfold next at hAfter
    dsimp only at hAfter
    rw [hNow, hSeals, List.append_nil, Function.update_idem] at hAfter
    exact ⟨_, _, hAfter⟩

/-- A revocation runs sections of its own. -/
theorem reach_control_sections (h : (machine env n).Reach (fun _ _ => True) s)
    (hControl : s.control c = r)
    (hSections : Sections Revocation.Busy Revocation.step (s.srv, r) (srv', r')) :
    ∃ revoked, (machine env n).Reach (fun _ _ => True)
      { s with srv := srv', control := Function.update s.control c r', revoked := revoked } := by
  refine hSections.invariant (P := fun srv r => ∃ revoked, (machine env n).Reach (fun _ _ => True)
    { s with srv := srv, control := Function.update s.control c r, revoked := revoked })
    ?_ fun srv r hBusy hReach => ?_
  · refine ⟨s.revoked, ?_⟩
    rw [← hControl, Function.update_eq_self]
    exact h
  · obtain ⟨revoked, hReach⟩ := hReach
    have hNow : Function.update s.control c r c = r := Function.update_self ..
    have hAfter := reach_next (.proceed c) hReach
      (fun hIdle => by rw [hNow.symm.trans hIdle] at hBusy; exact hBusy) trivial rfl
    unfold next at hAfter
    dsimp only at hAfter
    rw [hNow, Function.update_idem] at hAfter
    exact ⟨_, hAfter⟩

/-- The cleaner runs sections of its own. -/
theorem reach_cleaner_sections (h : (machine env n).Reach (fun _ _ => True) s)
    (hCleaner : s.cleaner = a)
    (hSections : Sections Cleaner.Busy (fun srv a => a.step env srv s.clock) (s.srv, a) (srv', a')) :
    (machine env n).Reach (fun _ _ => True) { s with srv := srv', cleaner := a' } := by
  refine hSections.invariant (P := fun srv a => (machine env n).Reach (fun _ _ => True)
    { s with srv := srv, cleaner := a }) ?_ fun srv a _ hReach => ?_
  · rw [← hCleaner]
    exact h
  · exact reach_next .clean hReach trivial trivial rfl

section

variable {f : SignalFrame Ct} {d : SignalDraw}

/-- A worker answers, and has no task afterwards. -/
theorem reach_concluded (h : (machine env n).Reach (fun _ _ => True) s) {random : Nonce}
    {outcome : SessionOutcome Ct} (hFresh : ∀ key, s.FreshNonce key random) (hTask : s.tasks w = t)
    (hEnd : t.Concludes env random outcome) :
    ∃ sent, (machine env n).Reach (fun _ _ => True)
      { s with tasks := Function.update s.tasks w .idle, sent := sent } := by
  cases t with
  | idle =>
    refine ⟨s.sent, ?_⟩
    rw [← hTask, Function.update_eq_self]
    exact h
  | answering v answer =>
    have hEnabled : enabled env n s (.work w random) := by
      refine ⟨fun hIdle => ?_, fun v' _ _ => hFresh v'.sk⟩
      cases hTask.symm.trans hIdle
    have hAfter := reach_next (.work w random) h hEnabled trivial rfl
    unfold next at hAfter
    simp only [hTask, Task.step, Task.executes, Task.registers, List.append_nil] at hAfter
    exact ⟨_, hAfter⟩
  | _ => exact hEnd.elim

/-- A session request from its datagram to its answer. -/
theorem reach_session (h : (machine env n).Reach (fun _ _ => True) s)
    (hIdle : s.tasks (shardIndex src n) = .idle) (hKind : f.msgType ≠ msgKeyquery)
    (hSession : f.sender ∈ s.srv.sessions) (hNow : d.request.now = s.clock)
    (hRoute : d.request.routeNow = s.clock) (hFresh : ∀ key, s.FreshNonce key d.request.random) :
    ∃ executed registrant sent, (machine env n).Reach (fun _ _ => True)
      { s with
        srv := (s.srv.handleSignaling env f src d).1
        executed := executed
        registrant := registrant
        sent := sent } := by
  have hTaken : (machine env n).Reach (fun _ _ => True)
      (s.setTask (shardIndex src n) (.dispatched f src)) := by
    refine reach_next (.receive f src d) h ⟨hIdle, ?_⟩ trivial ?_
    · rw [Signaling.handleSignaling_session d hKind hSession]
      exact fun p hp => absurd hp List.not_mem_nil
    · unfold next
      dsimp only
      rw [if_pos ⟨hKind, hSession⟩]
  obtain ⟨t, hSections, hOutcome⟩ :=
    Task.sections_handleSession env s.srv f src hNow hRoute
  obtain ⟨executed, registrant, hDone⟩ := reach_task_sections hTaken
    (setTask_tasks.trans (if_pos rfl)) hSections
  have hTask : Function.update (s.setTask (shardIndex src n) (.dispatched f src)).tasks
      (shardIndex src n) t (shardIndex src n) = t := Function.update_self ..
  obtain ⟨sent, hAnswered⟩ := reach_concluded hDone hFresh hTask hOutcome
  refine ⟨executed, registrant, sent, ?_⟩
  rw [Signaling.handleSignaling_session d hKind hSession]
  dsimp only [setTask] at hAnswered
  rw [Function.update_idem, Function.update_idem, ← hIdle, Function.update_eq_self] at hAnswered
  exact hAnswered

/-- A revocation from its request to its end. -/
theorem reach_revocation (h : (machine env n).Reach (fun _ _ => True) s) (deviceId : String)
    (reason : RevokeReason) (hIdle : s.control c = .idle) :
    ∃ revoked, (machine env n).Reach (fun _ _ => True)
      { s with srv := (s.srv.revokeDevice env deviceId reason s.clock).1, revoked := revoked } := by
  have hAsked := reach_next (.revoke c deviceId reason) h hIdle trivial rfl
  unfold next at hAsked
  dsimp only at hAsked
  cases hResult : (s.srv.mesh.revoke env.signatures deviceId reason s.clock).2 with
  | error e =>
    refine ⟨s.revoked, ?_⟩
    unfold Signaling.revokeDevice
    simp only [hResult] at hAsked ⊢
    exact hAsked
  | ok crl =>
    simp only [hResult] at hAsked
    obtain ⟨revoked, hDone⟩ := reach_control_sections hAsked (Function.update_self ..)
      (Revocation.sections_revokeDevice hResult)
    refine ⟨revoked, ?_⟩
    dsimp only at hDone
    rw [Function.update_idem, ← hIdle, Function.update_eq_self] at hDone
    exact hDone

/-- A pass of the cleaner from its start to its end. -/
theorem reach_cleanup (h : (machine env n).Reach (fun _ _ => True) s) (hIdle : s.cleaner = .idle) :
    (machine env n).Reach (fun _ _ => True) { s with srv := s.srv.cleanupPass env s.clock } := by
  have hStarted : (machine env n).Reach (fun _ _ => True) { s with cleaner := .started s.clock } := by
    refine reach_next .clean h trivial trivial ?_
    unfold next
    dsimp only
    rw [hIdle]
    rfl
  have hDone := reach_cleaner_sections hStarted rfl
    (Cleaner.sections_cleanupPass env s.srv s.clock s.clock)
  rw [← hIdle] at hDone
  exact hDone

/-- A relayed packet from its look at the live identities to its end. -/
theorem reach_relayed (h : (machine env n).Reach (fun _ _ => True) s) (srcKey : RawKey)
    (src : SourceAddr) (hIdle : s.tasks (shardIndex src n) = .idle) :
    ∃ executed registrant, (machine env n).Reach (fun _ _ => True)
      { s with
        srv := s.srv.relayRefresh srcKey s.clock
        executed := executed
        registrant := registrant } := by
  unfold Signaling.relayRefresh
  by_cases hLive : srcKey ∈ s.srv.activeIkX
  · rw [if_pos hLive]
    have hTaken : (machine env n).Reach (fun _ _ => True)
        (s.setTask (shardIndex src n) (.relaying srcKey)) := by
      refine reach_next (.relay srcKey src) h hIdle trivial ?_
      unfold next
      dsimp only
      rw [if_pos hLive]
    have hSection : Sections Task.Busy (fun srv t => t.step env srv s.clock)
        (s.srv, .relaying srcKey) (s.srv.refreshRoute srcKey s.clock, .idle) :=
      .single ⟨trivial, rfl⟩
    obtain ⟨executed, registrant, hDone⟩ := reach_task_sections hTaken
      (setTask_tasks.trans (if_pos rfl)) hSection
    refine ⟨executed, registrant, ?_⟩
    dsimp only [setTask] at hDone
    rw [Function.update_idem, ← hIdle, Function.update_eq_self] at hDone
    exact hDone
  · rw [if_neg hLive]
    exact ⟨s.executed, s.registrant, h⟩

/-- **One call at a time.** From a state in which nothing is going on, what the
workers, a control connection and the cleaner do in turn includes every call
handled from its start to its end, with nothing going on afterwards. -/
theorem reach_call (h : (machine env n).Reach (fun _ _ => True) s) (hRest : s.Resting)
    {e : ServerEvent Ct} (hFits : e.Fits env s) :
    ∃ s', (machine env n).Reach (fun _ _ => True) s' ∧ s'.Resting ∧ s'.clock = s.clock ∧
      s'.srv = s.srv.next env e := by
  cases e with
  | datagram f src d =>
    obtain ⟨hNow, hRoute, hKeys, hFresh⟩ := hFits
    by_cases hSession : f.msgType ≠ msgKeyquery ∧ f.sender ∈ s.srv.sessions
    · obtain ⟨executed, registrant, sent, hDone⟩ := reach_session h (hRest.tasks _) hSession.1
        hSession.2 hNow hRoute hFresh
      exact ⟨_, hDone, ⟨hRest.tasks, hRest.control, hRest.cleaner⟩, rfl, rfl⟩
    · have hDone := reach_next (.receive f src d) h ⟨hRest.tasks _, hKeys⟩ trivial rfl
      unfold next at hDone
      dsimp only at hDone
      rw [if_neg hSession] at hDone
      exact ⟨_, hDone, ⟨hRest.tasks, hRest.control, hRest.cleaner⟩, rfl, rfl⟩
  | relay srcKey now =>
    obtain ⟨executed, registrant, hDone⟩ :=
      reach_relayed h srcKey { octets := [], port := 0 } (hRest.tasks _)
    refine ⟨_, hDone, ⟨hRest.tasks, hRest.control, hRest.cleaner⟩, rfl, ?_⟩
    rw [show now = s.clock from hFits]
    rfl
  | revoke deviceId reason now =>
    obtain ⟨revoked, hDone⟩ := reach_revocation h deviceId reason (hRest.control 0)
    refine ⟨_, hDone, ⟨hRest.tasks, hRest.control, hRest.cleaner⟩, rfl, ?_⟩
    rw [show now = s.clock from hFits]
    rfl
  | cleanup now =>
    refine ⟨_, reach_cleanup h hRest.cleaner, ⟨hRest.tasks, hRest.control, hRest.cleaner⟩, rfl, ?_⟩
    rw [show now = s.clock from hFits]
    rfl
  | delPeer key =>
    exact ⟨_, reach_next (.delPeer key) h trivial trivial rfl,
      ⟨hRest.tasks, hRest.control, hRest.cleaner⟩, rfl, rfl⟩
  | administer rooms aliases =>
    exact ⟨_, reach_next (.administer rooms aliases) h trivial trivial rfl,
      ⟨hRest.tasks, hRest.control, hRest.cleaner⟩, rfl, rfl⟩

end

end Workers

end LinkMesh
