import LinkMesh.Server.Workers

/-!
# Routes of revoked devices

`revoke_device` puts the device on the revocation list, removes the sessions it
finds, and then the routes of the identities these sessions had. A route can
outlive the session that made it, and a REGISTER that has read its session
writes its route later.

## Results

* `revoked_no_route` — no route of a revoked device is left or comes back, in a
  run in which every revocation finds a session for every route and REGISTER in
  flight of its device, and no such REGISTER outlasts the removal of its route.
-/

namespace LinkMesh

open Std KeyMap

variable {Ct : Type}

/-- The identity whose route a worker is about to register, with its device. -/
def Task.inFlight (env : SignalingEnv Ct) : Task Ct → Option (RawKey × String)
  | .opened f _ v plaintext =>
    match planRequest env v f.msgType plaintext with
    | .register _ _ => some (v.ikX, v.deviceId)
    | _ => none
  | .committed _ _ v (.register _ _) => some (v.ikX, v.deviceId)
  | _ => none

namespace Workers

/-- The identity has a route, stored by a REGISTER of the device. -/
def RouteOf (s : Workers Ct) (deviceId : String) (ik : RawKey) : Prop :=
  ik ∈ s.srv.routes.byKey ∧ s.registrant[ik]? = some deviceId

/-- No device whose revocation has returned has a route. -/
def NoRevokedRoute (s : Workers Ct) : Prop := ∀ d ∈ s.revoked, ∀ ik, ¬ s.RouteOf d ik

/-- When a revocation takes the sessions of its device, it finds one for every
route of the device and for every REGISTER of it in flight; and when it removes
the route of an identity for the last time, no REGISTER for it is in flight. -/
def RevokesAll (env : SignalingEnv Ct) (s : Workers Ct) : WorkerEvent Ct → Prop
  | .proceed c =>
    match s.control c with
    | .listed d =>
      (∀ ik, s.RouteOf d ik → ∃ (k : RawKey) (e : SessionEntry),
        s.srv.sessions[k]? = some e ∧ e.deviceId = d ∧ e.ikX = ik) ∧
      ∀ w ik, (s.tasks w).inFlight env = some (ik, d) → ∃ (k : RawKey) (e : SessionEntry),
        s.srv.sessions[k]? = some e ∧ e.deviceId = d ∧ e.ikX = ik
    | .clearing d (ik :: keys) => ik ∉ keys → ∀ w, (s.tasks w).inFlight env ≠ some (ik, d)
    | _ => True
  | _ => True

variable {env : SignalingEnv Ct} {n : Nat} {s : Workers Ct} {ev : WorkerEvent Ct} {d : String}
  {keys : List RawKey} {ik : RawKey} {w : Nat} {p : RawKey × String}

-- ---------------------------------------------------------------------------
-- Once the sessions are gone
-- ---------------------------------------------------------------------------

/-- The device is revoked and has no session; its routes, and those about to be
registered, are of the given identities. -/
structure Settled (env : SignalingEnv Ct) (s : Workers Ct) (d : String) (keys : List RawKey) : Prop where
  revoked : s.srv.mesh.isRevoked d
  sessions : ∀ (k : RawKey) e, s.srv.sessions[k]? = some e → e.deviceId ≠ d
  routes : ∀ ik, s.RouteOf d ik → ik ∈ keys
  inFlight : ∀ w ik, (s.tasks w).inFlight env = some (ik, d) → ik ∈ keys

theorem inFlight_of_registers {t : Task Ct} (h : t.registers = some p) : t.inFlight env = some p := by
  cases t with
  | committed sender src v plan =>
    cases plan with
    | register relayRk aliasName => exact h
    | _ => cases h
  | _ => cases h

/-- A REGISTER in flight after a section was so before, or its session was just
read. -/
theorem step_inFlight {t : Task Ct} {srv : Signaling} {now : Nat}
    (h : (t.step env srv now).2.inFlight env = some p) :
    t.inFlight env = some p ∨
      ∃ (k : RawKey) (e : SessionEntry), srv.sessions[k]? = some e ∧ p = (e.ikX, e.deviceId) := by
  cases t with
  | dispatched f src =>
    rcases Task.dispatched_cases env srv now f src with hEq | ⟨e, plaintext, hEntry, _, hEq⟩
    · rw [hEq] at h
      cases h
    · rw [hEq] at h
      unfold Task.inFlight at h
      dsimp only at h
      split at h
      · cases h
        exact .inr ⟨f.sender, e, hEntry, rfl⟩
      · cases h
  | opened f src v plaintext =>
    left
    change (Task.committed f.sender src v (planRequest env v f.msgType plaintext)).inFlight env = _ at h
    unfold Task.inFlight
    dsimp only
    cases hPlan : planRequest env v f.msgType plaintext with
    | register relayRk aliasName =>
      rw [hPlan] at h
      exact h
    | _ =>
      rw [hPlan] at h
      cases h
  | committed sender src v plan =>
    cases plan with
    | query qb =>
      change (Task.lookup env srv v qb : Task Ct).inFlight env = some p at h
      rcases Task.lookup_cases env srv v qb with ⟨ip, hEq⟩ | ⟨name, hEq⟩
      · rw [hEq] at h
        cases h
      · rw [hEq] at h
        cases h
    | _ => cases h
  | _ => cases h

theorem next_inFlight (h : ((s.next env n ev).tasks w).inFlight env = some p) :
    (s.tasks w).inFlight env = some p ∨
      ∃ (k : RawKey) (e : SessionEntry), s.srv.sessions[k]? = some e ∧ p = (e.ikX, e.deviceId) := by
  have hOrigin := next_tasks env n s ev w
  generalize (s.next env n ev).tasks w = t at h hOrigin
  cases hOrigin with
  | kept => exact .inl h
  | dispatched => cases h
  | relaying => cases h
  | stepped => exact step_inFlight h

theorem next_registrant (hEv : ∀ w random, ev ≠ .work w random) :
    (s.next env n ev).registrant = s.registrant := by
  cases ev with
  | receive f src d =>
    obtain ⟨srv, tasks, keys, hEq⟩ := next_receive_frame env n s f src d
    rw [hEq]
  | relay srcKey src =>
    obtain ⟨tasks, hEq⟩ := next_relay_frame env n s srcKey src
    rw [hEq]
  | work w random => exact absurd rfl (hEv w random)
  | _ => rfl

/-- A route of the device was one before, or is registered now. -/
theorem next_routeOf (h : (s.next env n ev).RouteOf d ik) :
    s.RouteOf d ik ∨ ∃ w, (s.tasks w).registers = some (ik, d) := by
  obtain ⟨hRoute, hOwner⟩ := h
  by_cases hWork : ∃ w random, ev = .work w random
  · obtain ⟨w, random, rfl⟩ := hWork
    cases hRegisters : (s.tasks w).registers with
    | none =>
      left
      have hSame : (s.next env n (.work w random)).registrant = s.registrant := by
        unfold next
        simp only [hRegisters]
      rw [hSame] at hOwner
      rcases next_routes hRoute with hOld | ⟨w', _, _, hEv, hNow⟩
      · exact ⟨hOld, hOwner⟩
      · cases hEv
        rw [hRegisters] at hNow
        cases hNow
    | some p =>
      have hInsert : (s.next env n (.work w random)).registrant = s.registrant.insert p.1 p.2 := by
        unfold next
        simp only [hRegisters]
      rw [hInsert, getElem?_insert] at hOwner
      split at hOwner
      · rename_i hKey
        cases hOwner
        subst hKey
        exact .inr ⟨w, hRegisters⟩
      · rename_i hKey
        rcases next_routes hRoute with hOld | ⟨w', _, _, hEv, hNow⟩
        · exact .inl ⟨hOld, hOwner⟩
        · cases hEv
          rw [hRegisters] at hNow
          cases hNow
          exact absurd rfl hKey
  · left
    rw [next_registrant fun w random hEv => hWork ⟨w, random, hEv⟩] at hOwner
    rcases next_routes hRoute with hOld | ⟨w, random, _, hEv, _⟩
    · exact ⟨hOld, hOwner⟩
    · exact absurd ⟨w, random, hEv⟩ hWork

/-- Nothing that happens later brings a session or a route of the device back. -/
theorem settled_next (h : Settled env s d keys) : Settled env (s.next env n ev) d keys := by
  refine ⟨next_isRevoked h.revoked, fun k e hEntry => ?_, fun ik hRoute => ?_, fun w ik hFlight => ?_⟩
  · cases next_sessions hEntry with
    | kept hOld => exact h.sessions k e hOld
    | committed _ _ _ hBefore hNew =>
      have hDevice := h.sessions k _ hBefore
      rw [hNew]
      exact hDevice
    | registered _ hAccepted _ =>
      have hValid := (Signaling.accepted_entry hAccepted).2
      intro hDevice
      rw [hDevice, h.revoked] at hValid
      cases hValid
  · rcases next_routeOf hRoute with hOld | ⟨w, hNow⟩
    · exact h.routes ik hOld
    · exact h.inFlight w ik (inFlight_of_registers hNow)
  · rcases next_inFlight hFlight with hOld | ⟨k, e, hEntry, hEq⟩
    · exact h.inFlight w ik hOld
    · exact absurd (Prod.mk.inj hEq).2.symm (h.sessions k e hEntry)

-- ---------------------------------------------------------------------------
-- Runs
-- ---------------------------------------------------------------------------

/-- What a revocation has achieved where it is. -/
def Progress (env : SignalingEnv Ct) (s : Workers Ct) : Revocation → Prop
  | .idle => True
  | .listed d => s.srv.mesh.isRevoked d
  | .kicked d keys => Settled env s d keys
  | .clearing d keys => Settled env s d keys

structure Revoking (env : SignalingEnv Ct) (s : Workers Ct) : Prop where
  progress : ∀ c, Progress env s (s.control c)
  done : ∀ d ∈ s.revoked, Settled env s d []

/-- Progress is not lost. -/
theorem progress_next {r : Revocation} (h : Progress env s r) :
    Progress env (s.next env n ev) r := by
  cases r with
  | idle => trivial
  | listed d => exact next_isRevoked h
  | kicked d keys => exact settled_next h
  | clearing d keys => exact settled_next h

/-- The sessions of the device are removed. -/
theorem settled_kick {c : Nat} (hControl : s.control c = .listed d) (hRevoked : s.srv.mesh.isRevoked d)
    (hGuard : RevokesAll env s (.proceed c)) :
    Settled env (s.next env n (.proceed c)) d ((s.srv.victims d).map (·.2)) := by
  have hSrv : (s.next env n (.proceed c)).srv =
      s.srv.removeSessions ((s.srv.victims d).map (·.1)) := by
    unfold next
    simp only [hControl, Revocation.step]
  have hFound : ∀ ik, (∃ (k : RawKey) (e : SessionEntry), s.srv.sessions[k]? = some e ∧
      e.deviceId = d ∧ e.ikX = ik) → ik ∈ (s.srv.victims d).map (·.2) := by
    rintro ik ⟨k, e, hEntry, hDevice, hIk⟩
    exact List.mem_map.mpr ⟨(k, ik), Signaling.mem_victims.mpr ⟨e, hEntry, hDevice, hIk⟩, rfl⟩
  unfold RevokesAll at hGuard
  simp only [hControl] at hGuard
  refine ⟨next_isRevoked hRevoked, fun k e hEntry hDevice => ?_, fun ik hRoute => ?_,
    fun w ik hFlight => hFound ik (hGuard.2 w ik hFlight)⟩
  · rw [hSrv] at hEntry
    obtain ⟨hKept, hOld⟩ := of_getElem?_eraseAll hEntry
    refine hKept (List.mem_map.mpr ⟨(k, e.ikX), ?_, rfl⟩)
    exact Signaling.mem_victims.mpr ⟨e, hOld, hDevice, rfl⟩
  · refine hFound ik (hGuard.1 ik ⟨?_, hRoute.2⟩)
    have hMem := hRoute.1
    rw [hSrv] at hMem
    exact hMem

/-- The route of an identity is removed. -/
theorem settled_clear {c : Nat} (hControl : s.control c = .clearing d (ik :: keys))
    (h : Settled env s d (ik :: keys)) (hGuard : RevokesAll env s (.proceed c)) :
    Settled env (s.next env n (.proceed c)) d keys := by
  have hAfter : Settled env (s.next env n (.proceed c)) d (ik :: keys) := settled_next h
  unfold RevokesAll at hGuard
  simp only [hControl] at hGuard
  refine ⟨hAfter.revoked, hAfter.sessions, fun ik' hRoute => ?_, fun w ik' hFlight => ?_⟩
  · rcases List.mem_cons.mp (hAfter.routes ik' hRoute) with rfl | hRest
    · have hMem := hRoute.1
      have hSrv : (s.next env n (.proceed c)).srv = s.srv.removeRoute ik' := by
        unfold next
        simp only [hControl, Revocation.step]
      rw [hSrv] at hMem
      exact absurd rfl (RouteTable.mem_remove.mp hMem).1
    · exact hRest
  · rcases List.mem_cons.mp (h.inFlight w ik' hFlight) with rfl | hRest
    · by_cases hLater : ik' ∈ keys
      · exact hLater
      · exact absurd hFlight (hGuard hLater w)
    · exact hRest

/-- The revocation that goes on makes the progress it should. -/
theorem progress_proceed {c : Nat} (h : Progress env s (s.control c))
    (hGuard : RevokesAll env s (.proceed c)) :
    Progress env (s.next env n (.proceed c)) ((s.control c).step s.srv).2 := by
  cases hControl : s.control c with
  | idle => trivial
  | listed d =>
    rw [hControl] at h
    exact settled_kick hControl h hGuard
  | kicked d keys =>
    rw [hControl] at h
    exact settled_next h
  | clearing d keys =>
    rw [hControl] at h
    cases keys with
    | nil => trivial
    | cons ik keys => exact settled_clear hControl h hGuard

theorem next_revoked (hEv : ∀ c, ev ≠ .proceed c) : (s.next env n ev).revoked = s.revoked := by
  cases ev with
  | receive f src d =>
    obtain ⟨srv, tasks, keys, hEq⟩ := next_receive_frame env n s f src d
    rw [hEq]
  | relay srcKey src =>
    obtain ⟨tasks, hEq⟩ := next_relay_frame env n s srcKey src
    rw [hEq]
  | proceed c => exact absurd rfl (hEv c)
  | _ => rfl

/-- The device whose revocation returns is settled. -/
theorem settled_completes {r : Revocation} (h : Progress env s r) (hd : d ∈ r.completes) :
    Settled env s d [] := by
  match r with
  | .clearing d' [] =>
    cases List.mem_singleton.mp hd
    exact h
  | .clearing d' (ik :: keys) => cases hd
  | .idle => cases hd
  | .listed d' => cases hd
  | .kicked d' keys => cases hd

theorem control_next (env : SignalingEnv Ct) (n : Nat) (s : Workers Ct) (ev : WorkerEvent Ct) (c : Nat) :
    (s.next env n ev).control c = s.control c ∨
    (∃ d reason crl, ev = .revoke c d reason ∧
      (s.srv.mesh.revoke env.signatures d reason s.clock).2 = .ok crl ∧
      (s.next env n ev).control c = .listed d) ∨
    ev = .proceed c ∧ (s.next env n ev).control c = ((s.control c).step s.srv).2 := by
  cases ev with
  | receive f src d =>
    left
    obtain ⟨srv, tasks, keys, hEq⟩ := next_receive_frame env n s f src d
    rw [hEq]
  | relay srcKey src =>
    left
    obtain ⟨tasks, hEq⟩ := next_relay_frame env n s srcKey src
    rw [hEq]
  | revoke c' d reason =>
    cases hRevoke : (s.srv.mesh.revoke env.signatures d reason s.clock).2 with
    | error e =>
      left
      unfold next
      simp only [hRevoke]
    | ok crl =>
      have hNext : (s.next env n (.revoke c' d reason)).control =
          Function.update s.control c' (.listed d) := by
        unfold next
        simp only [hRevoke]
      rw [hNext, Function.update_apply]
      split
      · rename_i hSame
        rw [hSame]
        exact .inr (.inl ⟨d, reason, crl, rfl, hRevoke, rfl⟩)
      · exact .inl rfl
  | proceed c' =>
    unfold next
    dsimp only
    rw [Function.update_apply]
    split
    · rename_i hSame
      rw [hSame]
      exact .inr (.inr ⟨rfl, rfl⟩)
    · exact .inl rfl
  | tick => exact .inl rfl
  | work => exact .inl rfl
  | clean => exact .inl rfl
  | delPeer => exact .inl rfl
  | administer => exact .inl rfl

theorem revoking_next (h : Revoking env s) (hGuard : RevokesAll env s ev) :
    Revoking env (s.next env n ev) := by
  refine ⟨fun c => ?_, fun d hd => ?_⟩
  · rcases control_next env n s ev c with hSame | ⟨d, reason, crl, rfl, hOk, hListed⟩ | ⟨rfl, hStep⟩
    · rw [hSame]
      exact progress_next (h.progress c)
    · rw [hListed]
      exact MeshConfig.revoke_isRevoked hOk
    · rw [hStep]
      exact progress_proceed (h.progress c) hGuard
  · by_cases hProceed : ∃ c, ev = .proceed c
    · obtain ⟨c, rfl⟩ := hProceed
      rcases List.mem_append.mp hd with hOld | hNow
      · exact settled_next (h.done d hOld)
      · exact settled_next (settled_completes (h.progress c) hNow)
    · rw [next_revoked fun c hEv => hProceed ⟨c, hEv⟩] at hd
      exact settled_next (h.done d hd)

/-- **A revoked device has no route.** In every run in which each revocation
finds a session for every route and every REGISTER in flight of its device, and
no such REGISTER outlasts the removal of its route, no device whose revocation
has returned has a route, then or later. -/
theorem revoked_no_route (h : (machine env n).Reach (RevokesAll env) s) : NoRevokedRoute s := by
  have hRevoking : Revoking env s := by
    refine h.invariant (I := Revoking env) (fun s hInit => ?_)
      fun s ev hInv _ hGuard => revoking_next hInv hGuard
    obtain ⟨clock, mesh, rooms, aliases, rfl⟩ := hInit
    exact ⟨fun c => trivial, fun d hd => absurd hd List.not_mem_nil⟩
  intro d hd ik hRoute
  exact absurd ((hRevoking.done d hd).routes ik hRoute) List.not_mem_nil

-- ---------------------------------------------------------------------------
-- Sample runs
-- ---------------------------------------------------------------------------

section

variable {G : Workers Ct → WorkerEvent Ct → Prop} {reason : RevokeReason} {crl : Crl}

/-- A revocation goes on. -/
theorem reach_proceed {r : Revocation} (h : (machine env n).Reach G s) (hControl : s.control 0 = r)
    (hBusy : r ≠ .idle) (hGuard : G s (.proceed 0)) :
    (machine env n).Reach G (s.next env n (.proceed 0)) ∧
      (s.next env n (.proceed 0)).srv = (r.step s.srv).1 ∧
      (s.next env n (.proceed 0)).control 0 = (r.step s.srv).2 ∧
      (s.next env n (.proceed 0)).revoked = s.revoked ++ r.completes := by
  subst hControl
  refine ⟨reach_next (.proceed 0) h hBusy hGuard rfl, rfl, ?_, rfl⟩
  show Function.update s.control 0 ((s.control 0).step s.srv).2 0 = _
  rw [Function.update_self]

/-- A device with one session is revoked, with nothing in between. -/
theorem reach_revoked {k : RawKey} (h : (machine env n).Reach G s) (hControl : s.control 0 = .idle)
    (hListed : (s.srv.mesh.revoke env.signatures d reason s.clock).2 = .ok crl)
    (hVictims : s.srv.victims d = [(k, ik)]) (hRevoke : G s (.revoke 0 d reason))
    (hGuard : ∀ s', s'.tasks = s.tasks → s'.registrant = s.registrant →
      (∀ d', s'.control 0 = .listed d' → d' = d ∧ s'.srv.sessions = s.srv.sessions) →
        G s' (.proceed 0)) :
    ∃ s', (machine env n).Reach G s' ∧ s'.tasks = s.tasks ∧ s'.registrant = s.registrant ∧
      s'.revoked = s.revoked ++ [d] ∧ s'.srv.routes = s.srv.routes.remove ik := by
  have hNext : (s.next env n (.revoke 0 d reason)).control 0 = .listed d := by
    unfold next
    simp only [hListed, Function.update_self]
  have hStart : (machine env n).Reach G (s.next env n (.revoke 0 d reason)) :=
    reach_next (.revoke 0 d reason) h hControl hRevoke rfl
  obtain ⟨hKicked, hSrv, hControl₁, hRevoked₁⟩ := reach_proceed hStart hNext (fun hEq => by cases hEq)
    (hGuard _ rfl rfl fun d' hEq => by
      rw [hNext] at hEq
      cases hEq
      exact ⟨rfl, rfl⟩)
  have hKeys : (s.next env n (.revoke 0 d reason)).srv.victims d = [(k, ik)] := hVictims
  rw [Revocation.step, hKeys] at hSrv hControl₁
  obtain ⟨hRebuilt, hSrv₂, hControl₂, hRevoked₂⟩ := reach_proceed hKicked hControl₁
    (fun hEq => by cases hEq) (hGuard _ rfl rfl fun d' hEq => by
      rw [hControl₁] at hEq
      cases hEq)
  obtain ⟨hCleared, hSrv₃, hControl₃, hRevoked₃⟩ := reach_proceed hRebuilt hControl₂
    (fun hEq => by cases hEq) (hGuard _ rfl rfl fun d' hEq => by
      rw [hControl₂] at hEq
      cases hEq)
  obtain ⟨hDone, hSrv₄, _, hRevoked₄⟩ := reach_proceed hCleared hControl₃
    (fun hEq => by cases hEq) (hGuard _ rfl rfl fun d' hEq => by
      rw [hControl₃] at hEq
      cases hEq)
  refine ⟨_, hDone, rfl, rfl, ?_, ?_⟩
  · rw [hRevoked₄, hRevoked₃, hRevoked₂, hRevoked₁]
    show s.revoked ++ [] ++ [] ++ [] ++ [d] = _
    simp only [List.append_nil]
  · rw [hSrv₄]
    show (next _ _ _ _).srv.routes = _
    rw [hSrv₃]
    show RouteTable.remove (next _ _ _ _).srv.routes ik = _
    rw [hSrv₂]
    show RouteTable.remove (next _ _ _ _).srv.routes ik = _
    rw [hSrv]
    rfl

end

/-- The only session is that of the device. -/
theorem victims_of_single {srv : Signaling} {k : RawKey} {e : SessionEntry}
    (h : ∀ j, srv.sessions[j]? = if j = k then some e else none) (hDevice : e.deviceId = d) :
    srv.victims d = [(k, e.ikX)] := by
  have hMap : srv.sessions = (∅ : SessionMap).insert k e := by
    refine ExtTreeMap.ext_getElem? fun {j} => ?_
    rw [h, getElem?_insert, ExtTreeMap.getElem?_empty]
  have hList : ((∅ : SessionMap).insert k e).toList = [(k, e)] := rfl
  unfold Signaling.victims
  rw [hMap, hList, List.filter_cons_of_pos (by simpa using hDevice)]
  rfl

theorem sampleMesh_revoke (S : Signatures) (d : String) (reason : RevokeReason) (now : Nat) :
    ∃ crl, (sampleMesh.revoke S d reason now).2 = .ok crl := by
  have hSeed : sampleMesh.rootSeed = .ok (keyBytes 1) := b64Fixed_keyB64 (keyBytes_length 1)
  unfold MeshConfig.revoke
  rw [if_neg (by simp [sampleMesh, MeshConfig.isRevoked, Crl.isRevoked]),
    if_neg (by simp [sampleMesh, maxCrlEntries]), hSeed]
  exact ⟨_, rfl⟩

/-- The REGISTER of device 2 is in flight. -/
def sampleInFlight : Workers (RawKey × Nonce × Bytes) :=
  sampleCommitted sampleSessionUp (sampleEntry 2 50 11 0 1 0) msgRegister sampleRegistrationBytes 4000

theorem reach_sampleInFlight {G : Workers (RawKey × Nonce × Bytes) → WorkerEvent _ → Prop}
    (hReceive : ∀ s f src d, G s (.receive f src d)) (hWork : ∀ s w random, G s (.work w random)) :
    sampleMachine.Reach G sampleInFlight :=
  reach_sampleCommitted (reach_sampleSessionUp (hReceive _ _ _ _)) rfl (by decide)
    ((Signaling.sampleOneSession_entry 50).trans (if_pos rfl)) (hReceive _ _ _ _)
    fun _ _ => hWork _ _ _

theorem sampleInFlight_task :
    sampleInFlight.tasks (sampleWorker 4000) = .committed 50 (sampleSource 4000)
      (sampleEntry 2 50 11 0 1 0).view (.register none none) :=
  sampleCommitted_task.trans (congrArg _ (plan_sampleRegistration (by decide +kernel)))

theorem sampleInFlight_sessions (k : RawKey) :
    sampleInFlight.srv.sessions[k]? =
      if k = 50 then some { sampleEntry 2 50 11 0 1 0 with counterRx := 1, lastSeen := 0 }
      else none := by
  refine sampleCommitted_sessions.trans ?_
  show (if k = 50 then sampleOneSession.sessions[k]?.map _ else sampleOneSession.sessions[k]?) = _
  rw [Signaling.sampleOneSession_entry]
  split
  · rfl
  · rfl

theorem sampleInFlight_mesh : sampleInFlight.srv.mesh = sampleMesh := by
  show (sampleOneSession.commitCounter 50 1 0).mesh = _
  obtain ⟨m, hEq⟩ := Signaling.commitCounter_frame sampleOneSession 50 1 0
  rw [hEq]
  exact Signaling.sampleOneSession_mesh

theorem sampleInFlight_victims :
    sampleInFlight.srv.victims (sampleDeviceId 2) = [(50, 2)] :=
  victims_of_single sampleInFlight_sessions rfl

/-- With the REGISTER written and answered, every worker is idle. -/
theorem sampleRegistered_idle {s : Workers (RawKey × Nonce × Bytes)} {v : SessionView}
    (hTasks : s.tasks = sampleInFlight.tasks) (w : Nat) :
    (sampleRegistered s v 4000).tasks w = .idle := by
  by_cases hWorker : w = sampleWorker 4000
  · rw [hWorker]
    exact sampleRegistered_task
  · rw [sampleRegistered_other hWorker, hTasks]
    exact sampleCommitted_other hWorker

/-- Device 2 registers a route and is revoked afterwards. -/
theorem revoked_no_route_sample :
    ∃ s, sampleMachine.Reach (RevokesAll sampleServerEnv) s ∧ s.revoked = [sampleDeviceId 2] ∧
      s.registrant[(2 : RawKey)]? = some (sampleDeviceId 2) ∧ NoRevokedRoute s := by
  have hFlight : sampleMachine.Reach (RevokesAll sampleServerEnv) sampleInFlight :=
    reach_sampleInFlight (fun _ _ _ _ => trivial) fun _ _ _ => trivial
  have hRegistered := reach_sampleRegistered hFlight sampleInFlight_task trivial trivial
  have hOwner : (sampleRegistered sampleInFlight (sampleEntry 2 50 11 0 1 0).view 4000).registrant =
      (∅ : ExtTreeMap RawKey String).insert 2 (sampleDeviceId 2) := rfl
  obtain ⟨crl, hCrl⟩ := sampleMesh_revoke sampleServerEnv.signatures (sampleDeviceId 2) .admin 0
  rw [← sampleInFlight_mesh] at hCrl
  obtain ⟨s, hReach, _, hRegistrant, hRevoked, _⟩ := reach_revoked hRegistered rfl hCrl
    sampleInFlight_victims trivial (by
      intro s' hTasks hRegistrant hListed
      have hNone : ∀ w p, (s'.tasks w).inFlight sampleServerEnv ≠ some p := by
        intro w p hFlight
        rw [hTasks, sampleRegistered_idle rfl] at hFlight
        cases hFlight
      unfold RevokesAll
      dsimp only
      split
      · rename_i d hControl
        obtain ⟨rfl, hSessions⟩ := hListed d hControl
        refine ⟨fun ik hRoute => ?_, fun w ik hFlight => absurd hFlight (hNone w _)⟩
        have hIk := hRoute.2
        rw [hRegistrant, hOwner, getElem?_insert, ExtTreeMap.getElem?_empty] at hIk
        split at hIk
        · rename_i hTwo
          have hEntry : s'.srv.sessions[(50 : RawKey)]? =
              some { sampleEntry 2 50 11 0 1 0 with counterRx := 1, lastSeen := 0 } := by
            rw [hSessions]
            exact (sampleInFlight_sessions 50).trans (if_pos rfl)
          exact ⟨50, _, hEntry, rfl, hTwo.symm⟩
        · cases hIk
      · exact fun _ w => hNone w _
      · trivial)
  refine ⟨s, hReach, hRevoked, ?_, revoked_no_route hReach⟩
  rw [hRegistrant, hOwner, getElem?_insert, if_pos rfl]

/-- Device 2 is revoked while its REGISTER has not yet written the route. -/
theorem revoked_no_route_fails :
    ∃ s, sampleMachine.Reach (fun _ _ => True) s ∧ (∀ w, s.tasks w = .idle) ∧
      s.revoked = [sampleDeviceId 2] ∧ ¬ NoRevokedRoute s := by
  have hFlight : sampleMachine.Reach (fun _ _ => True) sampleInFlight :=
    reach_sampleInFlight (fun _ _ _ _ => trivial) fun _ _ _ => trivial
  obtain ⟨crl, hCrl⟩ := sampleMesh_revoke sampleServerEnv.signatures (sampleDeviceId 2) .admin 0
  rw [← sampleInFlight_mesh] at hCrl
  obtain ⟨s, hReach, hTasks, _, hRevoked, _⟩ := reach_revoked hFlight rfl hCrl
    sampleInFlight_victims trivial fun _ _ _ _ => trivial
  refine ⟨sampleRegistered s (sampleEntry 2 50 11 0 1 0).view 4000,
    reach_sampleRegistered hReach (by rw [hTasks]; exact sampleInFlight_task) trivial trivial,
    sampleRegistered_idle hTasks, hRevoked, fun hNone => ?_⟩
  refine hNone (sampleDeviceId 2) (hRevoked ▸ List.mem_singleton_self _) 2 ⟨?_, ?_⟩
  · exact RouteTable.mem_upsert_self
  · exact getElem?_insert.trans (if_pos rfl)

end Workers

end LinkMesh
