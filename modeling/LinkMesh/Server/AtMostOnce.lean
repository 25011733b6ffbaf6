import LinkMesh.Server.Workers
import Mathlib.Data.List.Nodup

/-!
# Session frames are processed at most once

A handler reads the counter of a session under one lock, opens the frame without
a lock and moves the counter on under another. Frames of one session that come
from two addresses go to two workers.

## Results

* `session_frames_once` — in a run in which no worker reads a session for a
  frame that opens while another one has read it and not yet moved its counter
  on, every frame is processed once, the counters do not go back, and no nonce
  of a response is used twice.
-/

namespace LinkMesh

open Std KeyMap

variable {Ct : Type}

/-- What a task still has to answer. -/
def Task.owes : Task Ct → Option (RawKey × Nat)
  | .committed _ _ v _ => some (v.sk, v.nextSeq)
  | .unrouted _ v => some (v.sk, v.nextSeq)
  | .left v => some (v.sk, v.nextSeq)
  | .searching v _ _ => some (v.sk, v.nextSeq)
  | .resolved v _ _ => some (v.sk, v.nextSeq)
  | .answering v _ => some (v.sk, v.nextSeq)
  | _ => none

/-- Session key and counter of a request that is carried out. -/
def Execution.request (x : Execution Ct) : RawKey × Nat := (x.sk, x.seq)

namespace Workers

/-- The payload was sealed under some key. -/
def SealedFrame (env : SignalingEnv Ct) (f : SignalFrame Ct) : Prop :=
  ∃ key nonce plaintext, f.payload = env.crypto.encryptWithNonce key nonce plaintext

/-- No session sees a counter or a frame twice, no sealed frame is processed
twice at all, and a key and a nonce seal one response. -/
structure ProcessedOnce (env : SignalingEnv Ct) (s : Workers Ct) : Prop where
  requests : (s.executed.map Execution.request).Nodup
  frames : (s.executed.map fun x => (x.sk, x.frame)).Nodup
  sealedFrames : s.executed.Pairwise fun x y => SealedFrame env x.frame → x.frame ≠ y.frame
  responses : ∀ y ∈ s.sent, ∀ y' ∈ s.sent, y.key = y'.key → y.nonce = y'.nonce → y.body = y'.body

/-- No worker reads a session for a frame that opens while another worker has
read this session and not yet moved its counter on. -/
def ReadsAlone (env : SignalingEnv Ct) (s : Workers Ct) : WorkerEvent Ct → Prop
  | .work w _ => ∀ f src e plaintext, s.tasks w = .dispatched f src →
      s.srv.sessions[f.sender]? = some e → e.view.openFrame env f.payload = some plaintext →
      ∀ w' f' src' v' plaintext', s.tasks w' = .opened f' src' v' plaintext' → f'.sender ≠ f.sender
  | _ => True

variable {env : SignalingEnv Ct} {n : Nat} {s : Workers Ct} {ev : WorkerEvent Ct} {k : RawKey}
  {e : SessionEntry} {w w' : Nat} {random : Nonce} {f : SignalFrame Ct} {src : SourceAddr}
  {v : SessionView} {plaintext : Bytes} {x : Execution Ct} {p : RawKey × Nat}

-- ---------------------------------------------------------------------------
-- Keys
-- ---------------------------------------------------------------------------

/-- A session key belongs to one `ek_c`, and what is opened or carried out was
opened under a session key. -/
structure Keyed (env : SignalingEnv Ct) (s : Workers Ct) : Prop where
  unique : ∀ p ∈ s.keys, ∀ q ∈ s.keys, p.1 = q.1 → p.2 = q.2
  session : ∀ (k : RawKey) e, s.srv.sessions[k]? = some e → (e.sk, k) ∈ s.keys
  opened : ∀ w f src v plaintext, s.tasks w = .opened f src v plaintext →
    (v.sk, f.sender) ∈ s.keys ∧ 0 < v.nextSeq ∧ v.openFrame env f.payload = some plaintext
  executed : ∀ x ∈ s.executed, (∃ k, (x.sk, k) ∈ s.keys) ∧
    ∃ plaintext, env.crypto.decryptWithNonce x.sk (sessionNonce x.seq 0) x.frame.payload =
      some plaintext

/-- The keys that a step derives. -/
def issues (env : SignalingEnv Ct) (s : Workers Ct) : WorkerEvent Ct → List (RawKey × RawKey)
  | .receive f src d => (s.srv.handleSignaling env f src d).2.issued
  | _ => []

theorem next_keys : (s.next env n ev).keys = s.keys ++ s.issues env ev := by
  cases ev with
  | receive f src d =>
    unfold next issues
    dsimp only
    split
    · rename_i hSession
      rw [Signaling.handleSignaling_session d hSession.1 hSession.2]
      exact (List.append_nil _).symm
    · rfl
  | relay srcKey src =>
    obtain ⟨tasks, hEq⟩ := next_relay_frame env n s srcKey src
    rw [hEq]
    exact (List.append_nil _).symm
  | _ => exact (List.append_nil _).symm

theorem issued_unique {o : SignalOutcome Ct} {p q : RawKey × RawKey} (hp : p ∈ o.issued)
    (hq : q ∈ o.issued) : p = q := by
  unfold SignalOutcome.issued at hp hq
  split at hp
  · exact (List.mem_singleton.mp hp).trans (List.mem_singleton.mp hq).symm
  · cases hp

/-- The requests that a step commits to. -/
def commits (s : Workers Ct) : WorkerEvent Ct → List (Execution Ct)
  | .work w _ => (s.tasks w).executes
  | _ => []

theorem next_executed : (s.next env n ev).executed = s.executed ++ s.commits ev := by
  cases ev with
  | receive f src d =>
    obtain ⟨srv, tasks, keys, hEq⟩ := next_receive_frame env n s f src d
    rw [hEq]
    exact (List.append_nil _).symm
  | relay srcKey src =>
    obtain ⟨tasks, hEq⟩ := next_relay_frame env n s srcKey src
    rw [hEq]
    exact (List.append_nil _).symm
  | work => rfl
  | _ => exact (List.append_nil _).symm

theorem mem_executes {t : Task Ct} (h : x ∈ t.executes) :
    ∃ src v plaintext, t = .opened x.frame src v plaintext ∧ x.sk = v.sk ∧ x.seq = v.nextSeq := by
  cases t with
  | opened f src v plaintext =>
    cases List.mem_singleton.mp h
    exact ⟨src, v, plaintext, rfl, rfl, rfl⟩
  | _ => cases h

theorem mem_commits (h : x ∈ s.commits ev) :
    ∃ w random src v plaintext, ev = .work w random ∧
      s.tasks w = .opened x.frame src v plaintext ∧ x.sk = v.sk ∧ x.seq = v.nextSeq := by
  cases ev with
  | work w random =>
    obtain ⟨src, v, plaintext, hTask, hSk, hSeq⟩ := mem_executes h
    exact ⟨w, random, src, v, plaintext, rfl, hTask, hSk, hSeq⟩
  | _ => cases h

theorem keyed_next (h : Keyed env s) (hEnabled : enabled env n s ev) :
    Keyed env (s.next env n ev) := by
  have hOld : ∀ p ∈ s.keys, p ∈ (s.next env n ev).keys := by
    intro p hp
    rw [next_keys]
    exact List.mem_append_left _ hp
  -- a key that is derived now is not among the old ones
  have hFresh : ∀ p ∈ s.issues env ev, ∀ q ∈ s.keys, q.1 ≠ p.1 := by
    cases ev with
    | receive f src d => exact hEnabled.2
    | _ => exact fun p hp => absurd hp List.not_mem_nil
  have hOne : ∀ p ∈ s.issues env ev, ∀ q ∈ s.issues env ev, p = q := by
    cases ev with
    | receive f src d => exact fun p hp q hq => issued_unique hp hq
    | _ => exact fun p hp => absurd hp List.not_mem_nil
  refine ⟨?_, ?_, ?_, ?_⟩
  · intro p hp q hq hSk
    rw [next_keys, List.mem_append] at hp hq
    rcases hp with hp | hp
    · rcases hq with hq | hq
      · exact h.unique p hp q hq hSk
      · exact absurd hSk (hFresh q hq p hp)
    · rcases hq with hq | hq
      · exact absurd hSk.symm (hFresh p hp q hq)
      · rw [hOne p hp q hq]
  · intro k e hEntry
    cases next_sessions hEntry with
    | kept hKept => exact hOld _ (h.session k e hKept)
    | committed _ _ _ hBefore hNew =>
      have hKey := h.session k _ hBefore
      rw [hNew]
      exact hOld _ hKey
    | registered hEv hAccepted hKey =>
      rw [next_keys, hKey, hEv]
      refine List.mem_append_right _ ?_
      show _ ∈ (s.srv.handleSignaling env _ _ _).2.issued
      rw [hAccepted]
      exact List.mem_singleton_self _
  · intro w f src v plaintext hTask
    rcases next_opened hTask with hKept | ⟨_, e, _, _, hEntry, rfl, hOpen⟩
    · obtain ⟨hKey, hRest⟩ := h.opened w f src v plaintext hKept
      exact ⟨hOld _ hKey, hRest⟩
    · exact ⟨hOld _ (h.session f.sender e hEntry), Nat.succ_pos _, hOpen⟩
  · intro x hx
    rw [next_executed, List.mem_append] at hx
    rcases hx with hx | hx
    · obtain ⟨⟨k, hKey⟩, hOpen⟩ := h.executed x hx
      exact ⟨⟨k, hOld _ hKey⟩, hOpen⟩
    · obtain ⟨w, random, src, v, plaintext, _, hTask, hSk, hSeq⟩ := mem_commits hx
      obtain ⟨hKey, _, hOpen⟩ := h.opened w x.frame src v plaintext hTask
      rw [hSk, hSeq]
      exact ⟨⟨_, hOld _ hKey⟩, plaintext, hOpen⟩

-- ---------------------------------------------------------------------------
-- Counters
-- ---------------------------------------------------------------------------

/-- A session has at most one frame opened for it, which is next in its counter,
and a request carried out is not ahead of the counter of its session. -/
structure Counted (s : Workers Ct) : Prop where
  alone : ∀ w w' f f' src src' v v' plaintext plaintext',
    s.tasks w = .opened f src v plaintext → s.tasks w' = .opened f' src' v' plaintext' →
    f.sender = f'.sender → w = w'
  due : ∀ w f src v plaintext e, s.tasks w = .opened f src v plaintext →
    s.srv.sessions[f.sender]? = some e → e.counterRx < v.nextSeq
  unused : ∀ w f src v plaintext, s.tasks w = .opened f src v plaintext →
    ∀ x ∈ s.executed, x.sk = v.sk → x.seq < v.nextSeq
  behind : ∀ x ∈ s.executed, ∀ (k : RawKey) e, s.srv.sessions[k]? = some e → e.sk = x.sk →
    x.seq ≤ e.counterRx
  requests : (s.executed.map Execution.request).Nodup

/-- The task of a worker after one of its own sections. -/
theorem next_work_tasks :
    (s.next env n (.work w random)).tasks w = ((s.tasks w).step env s.srv s.clock).2 :=
  Function.update_self ..

/-- A worker that commits has no frame opened afterwards. -/
theorem not_opened_after_commit (hTask : s.tasks w = .opened f src v plaintext)
    {f' : SignalFrame Ct} {src' : SourceAddr} {v' : SessionView} {plaintext' : Bytes}
    (h : (s.next env n (.work w random)).tasks w = .opened f' src' v' plaintext') : False := by
  rw [next_work_tasks, hTask] at h
  cases h

/-- The session of a committed request has its counter. -/
theorem commit_counter (hTask : s.tasks w = .opened f src v plaintext)
    (hEntry : (s.next env n (.work w random)).srv.sessions[f.sender]? = some e) :
    e.counterRx = v.nextSeq := by
  change ((s.tasks w).step env s.srv s.clock).1.sessions[f.sender]? = some e at hEntry
  rw [hTask] at hEntry
  change (s.srv.commitCounter f.sender v.nextSeq s.clock).sessions[f.sender]? = some e at hEntry
  rw [Signaling.commitCounter_getElem?, if_pos rfl] at hEntry
  obtain ⟨_, _, hNew⟩ := Option.map_eq_some_iff.mp hEntry
  rw [← hNew]

/-- A request that is committed to was not carried out before. -/
theorem commit_new (h : Counted s) (hx : x ∈ s.commits ev) :
    x.request ∉ s.executed.map Execution.request := by
  intro hMem
  obtain ⟨x', hx', hEq⟩ := List.mem_map.mp hMem
  obtain ⟨w, random, src, v, plaintext, _, hTask, hSk, hSeq⟩ := mem_commits hx
  obtain ⟨hSk', hSeq'⟩ := Prod.mk.inj hEq
  have hLt := h.unused w x.frame src v plaintext hTask x' hx' (hSk'.trans hSk)
  omega

theorem alone_next (h : Counted s) (hGuard : ReadsAlone env s ev) {f' : SignalFrame Ct}
    {src' : SourceAddr} {v' : SessionView} {plaintext' : Bytes}
    (hTask : (s.next env n ev).tasks w = .opened f src v plaintext)
    (hTask' : (s.next env n ev).tasks w' = .opened f' src' v' plaintext')
    (hSender : f.sender = f'.sender) : w = w' := by
  rcases next_opened hTask with hKept | ⟨random, e, rfl, hRead, hEntry, rfl, hOpen⟩
  · rcases next_opened hTask' with hKept' | ⟨random, e, rfl, hRead, hEntry, rfl, hOpen⟩
    · exact h.alone w w' f f' src src' v v' plaintext plaintext' hKept hKept' hSender
    · exact absurd hSender
        (hGuard f' src' e plaintext' hRead hEntry hOpen w f src v plaintext hKept)
  · rcases next_opened hTask' with hKept' | ⟨_, _, hEv, _⟩
    · exact absurd hSender.symm
        (hGuard f src e plaintext hRead hEntry hOpen w' f' src' v' plaintext' hKept')
    · cases hEv
      rfl

theorem due_next (hKeyed : Keyed env s) (h : Counted s)
    (hTask : (s.next env n ev).tasks w = .opened f src v plaintext)
    (hEntry : (s.next env n ev).srv.sessions[f.sender]? = some e) : e.counterRx < v.nextSeq := by
  rcases next_opened hTask with hKept | ⟨random, e₀, rfl, hRead, hBefore, rfl, _⟩
  · cases next_sessions hEntry with
    | kept hOld => exact h.due w f src v plaintext e hKept hOld
    | @committed w' _ f' src' v' plaintext' _ hEv hOther hKey _ _ =>
      subst hEv
      cases h.alone w w' f f' src src' v v' plaintext plaintext' hKept hOther hKey
      exact (not_opened_after_commit hOther hTask).elim
    | registered _ hAccepted _ =>
      rw [(Signaling.accepted_entry hAccepted).1]
      exact (hKeyed.opened w f src v plaintext hKept).2.1
  · change ((s.tasks w).step env s.srv s.clock).1.sessions[f.sender]? = some e at hEntry
    rw [hRead, Task.step_dispatched, hBefore] at hEntry
    cases hEntry
    exact Nat.lt_succ_self _

theorem unused_next (hKeyed : Keyed env s) (h : Counted s)
    (hTask : (s.next env n ev).tasks w = .opened f src v plaintext)
    (hx : x ∈ (s.next env n ev).executed) (hSk : x.sk = v.sk) : x.seq < v.nextSeq := by
  rw [next_executed, List.mem_append] at hx
  rcases next_opened hTask with hKept | ⟨random, e, rfl, hRead, hEntry, rfl, _⟩
  · rcases hx with hx | hx
    · exact h.unused w f src v plaintext hKept x hx hSk
    · -- another request of this session: its frame would be opened as well
      obtain ⟨w', random, src', v', plaintext', rfl, hOther, hSk', _⟩ := mem_commits hx
      have hKey := (hKeyed.opened w f src v plaintext hKept).1
      have hKey' := (hKeyed.opened w' x.frame src' v' plaintext' hOther).1
      have hSender : f.sender = x.frame.sender :=
        hKeyed.unique _ hKey _ hKey' (hSk.symm.trans hSk')
      cases h.alone w w' f x.frame src src' v v' plaintext plaintext' hKept hOther hSender
      exact (not_opened_after_commit hOther hTask).elim
  · rcases hx with hx | hx
    · exact Nat.lt_succ_of_le (h.behind x hx f.sender e hEntry hSk.symm)
    · change x ∈ (s.tasks w).executes at hx
      rw [hRead] at hx
      cases hx

theorem behind_next (hKeyed : Keyed env s) (hEnabled : enabled env n s ev) (h : Counted s)
    (hx : x ∈ (s.next env n ev).executed) (hEntry : (s.next env n ev).srv.sessions[k]? = some e)
    (hSk : e.sk = x.sk) : x.seq ≤ e.counterRx := by
  rw [next_executed, List.mem_append] at hx
  rcases hx with hx | hx
  · cases next_sessions hEntry with
    | kept hOld => exact h.behind x hx k e hOld hSk
    | @committed w random f src v plaintext e₀ _ hTask hKey hBefore hNew =>
      subst hNew hKey
      have hDue := h.due _ _ _ _ _ _ hTask hBefore
      have hOld := h.behind x hx _ _ hBefore hSk
      exact Nat.le_of_lt (Nat.lt_of_le_of_lt hOld hDue)
    | registered hEv hAccepted _ =>
      subst hEv
      obtain ⟨⟨k', hKey⟩, _⟩ := hKeyed.executed x hx
      refine absurd hSk.symm (hEnabled.2 (e.sk, e.sessionPub) ?_ (x.sk, k') hKey)
      rw [hAccepted]
      exact List.mem_singleton_self _
  · obtain ⟨w, random, src, v, plaintext, rfl, hTask, hSk', hSeq⟩ := mem_commits hx
    -- the key of the request belongs to the session it came for
    have hAfter := keyed_next hKeyed hEnabled
    have hKey := (hKeyed.opened w x.frame src v plaintext hTask).1
    have hKeyAfter : (v.sk, x.frame.sender) ∈ (s.next env n (.work w random)).keys := hKey
    have hSender : k = x.frame.sender :=
      hAfter.unique _ (hAfter.session k e hEntry) _ hKeyAfter (hSk.trans hSk')
    subst hSender
    rw [commit_counter hTask hEntry, hSeq]

theorem commits_nodup (s : Workers Ct) (ev : WorkerEvent Ct) :
    ((s.commits ev).map Execution.request).Nodup := by
  cases ev with
  | work w random =>
    show ((s.tasks w).executes.map Execution.request).Nodup
    cases s.tasks w with
    | opened => exact List.nodup_singleton _
    | _ => exact List.nodup_nil
  | _ => exact List.nodup_nil

theorem counted_next (hKeyed : Keyed env s) (hEnabled : enabled env n s ev)
    (hGuard : ReadsAlone env s ev) (h : Counted s) : Counted (s.next env n ev) where
  alone _ _ _ _ _ _ _ _ _ _ hTask hTask' hSender := alone_next h hGuard hTask hTask' hSender
  due _ _ _ _ _ _ hTask hEntry := due_next hKeyed h hTask hEntry
  unused _ _ _ _ _ hTask _ hx hSk := unused_next hKeyed h hTask hx hSk
  behind _ hx _ _ hEntry hSk := behind_next hKeyed hEnabled h hx hEntry hSk
  requests := by
    rw [next_executed, List.map_append]
    refine List.Nodup.append h.requests (commits_nodup s ev) fun p hOld hNew => ?_
    obtain ⟨x, hx, rfl⟩ := List.mem_map.mp hNew
    exact commit_new h hx hOld

-- ---------------------------------------------------------------------------
-- Answers
-- ---------------------------------------------------------------------------

/-- Every answer that is due belongs to a request of its own, and the nonces of
the responses sent so far are different and none of those still due. -/
structure Answered (s : Workers Ct) : Prop where
  owed : ∀ w p, (s.tasks w).owes = some p → p ∈ s.executed.map Execution.request
  apart : ∀ w w' p, (s.tasks w).owes = some p → (s.tasks w').owes = some p → w = w'
  counters : ∀ y ∈ s.sent, ∀ seq, y.nonce = sessionNonce seq 1 →
    (y.key, seq) ∈ s.executed.map Execution.request ∧ ∀ w, (s.tasks w).owes ≠ some (y.key, seq)
  nonces : (s.sent.map fun y => (y.key, y.nonce)).Nodup

/-- What is due after a section was due before, or is the request that the
section commits to. -/
theorem step_owes {t : Task Ct} {srv : Signaling} {now : Nat}
    (h : (t.step env srv now).2.owes = some p) :
    t.owes = some p ∨ ∃ x ∈ t.executes, x.request = p := by
  cases t with
  | opened f src v plaintext =>
    right
    exact ⟨_, List.mem_singleton_self _, Option.some.inj h⟩
  | dispatched f src =>
    rcases Task.dispatched_cases env srv now f src with hEq | ⟨e, plaintext, _, _, hEq⟩
    · rw [hEq] at h
      cases h
    · rw [hEq] at h
      cases h
  | committed sender src v plan =>
    left
    cases plan with
    | query qb =>
      change (Task.lookup env srv v qb : Task Ct).owes = some p at h
      rcases Task.lookup_cases env srv v qb with ⟨ip, hEq⟩ | ⟨name, hEq⟩
      · rw [hEq] at h
        exact h
      · rw [hEq] at h
        exact h
    | _ => exact h
  | idle => cases h
  | relaying => cases h
  | answering => cases h
  | unrouted => exact .inl h
  | left => exact .inl h
  | searching => exact .inl h
  | resolved => exact .inl h

/-- What is due after a step was due before, or was just committed to. -/
theorem next_owes (h : ((s.next env n ev).tasks w).owes = some p) :
    (s.tasks w).owes = some p ∨
      ∃ random x, ev = .work w random ∧ x ∈ (s.tasks w).executes ∧ x.request = p := by
  have hOrigin := next_tasks env n s ev w
  generalize (s.next env n ev).tasks w = t at h hOrigin
  cases hOrigin with
  | kept => exact .inl h
  | dispatched => cases h
  | relaying => cases h
  | @stepped random hEv =>
    rcases step_owes h with hBefore | ⟨x, hx, hp⟩
    · exact .inl hBefore
    · exact .inr ⟨random, x, hEv, hx, hp⟩

/-- The responses that a step sends. -/
def sends (env : SignalingEnv Ct) (s : Workers Ct) : WorkerEvent Ct → List SealedResponse
  | .work w random => (s.tasks w).seals env random
  | _ => []

theorem next_sent : (s.next env n ev).sent = s.sent ++ s.sends env ev := by
  cases ev with
  | receive f src d =>
    obtain ⟨srv, tasks, keys, hEq⟩ := next_receive_frame env n s f src d
    rw [hEq]
    exact (List.append_nil _).symm
  | relay srcKey src =>
    obtain ⟨tasks, hEq⟩ := next_relay_frame env n s srcKey src
    rw [hEq]
    exact (List.append_nil _).symm
  | work => rfl
  | _ => exact (List.append_nil _).symm

/-- A response is sent under the nonce of its counter, or as a refusal under the
random one. -/
theorem mem_seals {t : Task Ct} {y : SealedResponse} (h : y ∈ t.seals env random) :
    ∃ v answer, t = .answering v answer ∧ y.key = v.sk ∧
      (y.nonce = sessionNonce v.nextSeq 1 ∨ (∃ msg, answer = .refused msg) ∧ y.nonce = random) := by
  cases t with
  | answering v answer =>
    refine ⟨v, answer, rfl, ?_⟩
    unfold Task.seals at h
    dsimp only at h
    split at h
    · cases List.mem_singleton.mp h
      refine ⟨rfl, ?_⟩
      cases answer with
      | reply body => exact .inl rfl
      | refused msg => exact .inr ⟨⟨msg, rfl⟩, rfl⟩
      | failed msg =>
        rename_i hSeal
        cases hSeal
    · cases h
  | _ => cases h

theorem mem_sends {y : SealedResponse} (hEnabled : enabled env n s ev) (h : y ∈ s.sends env ev) :
    ∃ w random v answer, ev = .work w random ∧ s.tasks w = .answering v answer ∧ y.key = v.sk ∧
      (y.nonce = sessionNonce v.nextSeq 1 ∨ s.FreshNonce y.key y.nonce) := by
  cases ev with
  | work w random =>
    obtain ⟨v, answer, hTask, hKey, hNonce⟩ := mem_seals h
    refine ⟨w, random, v, answer, rfl, hTask, hKey, ?_⟩
    rcases hNonce with hCounter | ⟨⟨msg, rfl⟩, hRandom⟩
    · exact .inl hCounter
    · right
      rw [hKey, hRandom]
      exact hEnabled.2 v msg hTask
  | _ => cases h

theorem seals_nodup (t : Task Ct) :
    ((t.seals env random).map fun y => (y.key, y.nonce)).Nodup := by
  unfold Task.seals
  split
  · split
    · exact List.nodup_singleton _
    · exact List.nodup_nil
  · exact List.nodup_nil

theorem sends_nodup (env : SignalingEnv Ct) (s : Workers Ct) (ev : WorkerEvent Ct) :
    ((s.sends env ev).map fun y => (y.key, y.nonce)).Nodup := by
  cases ev with
  | work w random => exact seals_nodup _
  | _ => exact List.nodup_nil

/-- A response that is sent uses a nonce that was not used under its key. -/
theorem sends_new (hEnabled : enabled env n s ev) (h : Answered s) {y : SealedResponse}
    (hy : y ∈ s.sends env ev) :
    (y.key, y.nonce) ∉ s.sent.map fun y => (y.key, y.nonce) := by
  intro hMem
  obtain ⟨y', hy', hEq⟩ := List.mem_map.mp hMem
  obtain ⟨hKey', hNonce'⟩ := Prod.mk.inj hEq
  obtain ⟨w, random, v, answer, _, hTask, hKey, hNonce⟩ := mem_sends hEnabled hy
  rcases hNonce with hCounter | hFresh
  · refine (h.counters y' hy' v.nextSeq (hNonce'.trans hCounter)).2 w ?_
    rw [hTask, hKey', hKey]
    rfl
  · exact hFresh.2 y' hy' hKey' hNonce'

theorem answered_next (hEnabled : enabled env n s ev) (hCounted : Counted s) (h : Answered s) :
    Answered (s.next env n ev) := by
  have hOld : ∀ p ∈ s.executed.map Execution.request,
      p ∈ (s.next env n ev).executed.map Execution.request := by
    intro p hp
    rw [next_executed, List.map_append]
    exact List.mem_append_left _ hp
  -- a request committed to now is not due and has not been answered
  have hNew : ∀ {w random x}, ev = .work w random → x ∈ (s.tasks w).executes →
      x.request ∉ s.executed.map Execution.request := by
    intro w random x hEv hx
    have hCommit : x ∈ s.commits ev := by
      rw [hEv]
      exact hx
    exact commit_new hCounted hCommit
  refine ⟨?_, ?_, ?_, ?_⟩
  · intro w p hOwes
    rcases next_owes hOwes with hBefore | ⟨random, x, rfl, hx, rfl⟩
    · exact hOld p (h.owed w p hBefore)
    · rw [next_executed, List.map_append]
      exact List.mem_append_right _ (List.mem_map_of_mem hx)
  · intro w w' p hOwes hOwes'
    rcases next_owes hOwes with hBefore | ⟨random, x, hEv, hx, hp⟩
    · rcases next_owes hOwes' with hBefore' | ⟨random, x, hEv, hx, rfl⟩
      · exact h.apart w w' p hBefore hBefore'
      · exact absurd (h.owed w _ hBefore) (hNew hEv hx)
    · rcases next_owes hOwes' with hBefore' | ⟨_, _, hEv', _⟩
      · rw [← hp] at hBefore'
        exact absurd (h.owed w' _ hBefore') (hNew hEv hx)
      · rw [hEv] at hEv'
        cases hEv'
        rfl
  · intro y hy seq hNonce
    rw [next_sent, List.mem_append] at hy
    rcases hy with hy | hy
    · obtain ⟨hDone, hNotDue⟩ := h.counters y hy seq hNonce
      refine ⟨hOld _ hDone, fun w hOwes => ?_⟩
      rcases next_owes hOwes with hBefore | ⟨random, x, hEv, hx, hp⟩
      · exact hNotDue w hBefore
      · exact hNew hEv hx (hp ▸ hDone)
    · obtain ⟨w, random, v, answer, rfl, hTask, hKey, hCounter⟩ := mem_sends hEnabled hy
      rcases hCounter with hCounter | hFresh
      · have hSeq : v.nextSeq = seq := (sessionNonce_inj (hCounter.symm.trans hNonce)).1
        have hDue : (s.tasks w).owes = some (y.key, seq) := by
          rw [hTask, hKey, ← hSeq]
          rfl
        refine ⟨hOld _ (h.owed w _ hDue), fun w' hOwes => ?_⟩
        rcases next_owes hOwes with hBefore | ⟨_, x, hEv, hx, _⟩
        · cases h.apart w w' _ hDue hBefore
          rw [next_work_tasks, hTask] at hOwes
          cases hOwes
        · cases hEv
          rw [hTask] at hx
          cases hx
      · exact absurd hNonce (hFresh.1 seq)
  · rw [next_sent, List.map_append]
    refine List.Nodup.append h.nonces (sends_nodup env s ev) fun p hOldNonce hNewNonce => ?_
    obtain ⟨y, hy, rfl⟩ := List.mem_map.mp hNewNonce
    exact sends_new hEnabled h hy hOldNonce

-- ---------------------------------------------------------------------------
-- Runs
-- ---------------------------------------------------------------------------

structure Once (env : SignalingEnv Ct) (s : Workers Ct) : Prop where
  keyed : Keyed env s
  counted : Counted s
  answered : Answered s

theorem once_start {clock : Nat} {mesh : MeshConfig} {rooms : List RoomEntry}
    {aliases : ExtTreeMap String String} :
    Once env (start clock mesh rooms aliases : Workers Ct) where
  keyed := by
    refine ⟨fun p hp => absurd hp List.not_mem_nil, fun k e hEntry => ?_,
      fun w f src v plaintext hTask => ?_, fun x hx => absurd hx List.not_mem_nil⟩
    · change (∅ : SessionMap)[k]? = some e at hEntry
      rw [ExtTreeMap.getElem?_empty] at hEntry
      cases hEntry
    · cases hTask
  counted := by
    refine ⟨?_, ?_, ?_, fun x hx => absurd hx List.not_mem_nil, List.nodup_nil⟩
    · intro w w' f f' src src' v v' plaintext plaintext' hTask
      cases hTask
    · intro w f src v plaintext e hTask
      cases hTask
    · intro w f src v plaintext hTask
      cases hTask
  answered := by
    refine ⟨?_, ?_, fun y hy => absurd hy List.not_mem_nil, List.nodup_nil⟩
    · intro w p hOwes
      cases hOwes
    · intro w w' p hOwes
      cases hOwes

theorem once_next (h : Once env s) (hEnabled : enabled env n s ev) (hGuard : ReadsAlone env s ev) :
    Once env (s.next env n ev) :=
  ⟨keyed_next h.keyed hEnabled, counted_next h.keyed hEnabled hGuard h.counted,
    answered_next hEnabled h.counted h.answered⟩

theorem once_reach (h : (machine env n).Reach (ReadsAlone env) s) : Once env s := by
  refine h.invariant (I := Once env) (fun s hInit => ?_)
    fun s ev hOnce hEnabled hGuard => once_next hOnce hEnabled hGuard
  obtain ⟨clock, mesh, rooms, aliases, rfl⟩ := hInit
  exact once_start

/-- The nonce of a frame shows its counter. -/
theorem Keyed.seq_eq (h : Keyed env s) {x y : Execution Ct} (hx : x ∈ s.executed)
    (hy : y ∈ s.executed) (hFrame : x.frame = y.frame) : x.seq = y.seq := by
  obtain ⟨_, _, hOpen⟩ := h.executed x hx
  obtain ⟨_, _, hOpen'⟩ := h.executed y hy
  rw [← hFrame] at hOpen'
  unfold SignalingCrypto.decryptWithNonce at hOpen hOpen'
  split at hOpen
  · cases hOpen
  · rename_i nonce hNonce
    rw [hNonce] at hOpen'
    dsimp only at hOpen'
    split at hOpen
    · cases hOpen
    · rename_i hSame
      split at hOpen'
      · cases hOpen'
      · rename_i hSame'
        exact (sessionNonce_inj ((not_not.mp hSame).symm.trans (not_not.mp hSame'))).1

theorem Once.processedOnce (hC : env.crypto.Lawful) (h : Once env s) : ProcessedOnce env s := by
  have hRequests := h.counted.requests
  have hFrames : s.executed.Pairwise fun x y => (x.sk, x.frame) ≠ (y.sk, y.frame) := by
    refine List.Pairwise.imp_of_mem (fun {x y} hx hy hNe hEq => ?_) (List.pairwise_map.mp hRequests)
    obtain ⟨hSk, hFrame⟩ := Prod.mk.inj hEq
    exact hNe (Prod.ext hSk (h.keyed.seq_eq hx hy hFrame))
  refine ⟨hRequests, List.pairwise_map.mpr hFrames, ?_, ?_⟩
  · refine List.Pairwise.imp_of_mem (fun {x y} hx hy hNe hSealed hFrame => ?_) hFrames
    -- a sealed payload opens under one key only
    obtain ⟨key, nonce, plaintext, hPayload⟩ := hSealed
    have hKey : ∀ z ∈ s.executed, z.frame = x.frame → z.sk = key := by
      intro z hz hSame
      obtain ⟨_, _, hOpen⟩ := h.keyed.executed z hz
      rw [hSame, hPayload, hC.decryptWithNonce_encrypt] at hOpen
      split at hOpen
      · rename_i hBoth
        exact hBoth.2
      · cases hOpen
    have hSk : x.sk = y.sk := (hKey x hx rfl).trans (hKey y hy hFrame.symm).symm
    exact hNe (Prod.ext hSk hFrame)
  · intro y hy y' hy' hKey hNonce
    rw [List.inj_on_of_nodup_map h.answered.nonces hy hy' (Prod.ext hKey hNonce)]

/-- The session key was derived, and the session under `k`, while it has this
key, has reached the counter. -/
def AtLeast (k sk : RawKey) (seq : Nat) (s : Workers Ct) : Prop :=
  (∃ p ∈ s.keys, p.1 = sk) ∧
    ∀ e, s.srv.sessions[k]? = some e → e.sk = sk → seq ≤ e.counterRx

theorem atLeast_next {sk : RawKey} {seq : Nat} (h : Once env s) (hEnabled : enabled env n s ev)
    (hAt : AtLeast k sk seq s) : AtLeast k sk seq (s.next env n ev) := by
  obtain ⟨⟨p, hp, hSkKey⟩, hCounter⟩ := hAt
  refine ⟨⟨p, ?_, hSkKey⟩, fun e hEntry hSk => ?_⟩
  · rw [next_keys]
    exact List.mem_append_left _ hp
  · cases next_sessions hEntry with
    | kept hOld => exact hCounter e hOld hSk
    | @committed w random f src v plaintext e₀ _ hTask hKey hBefore hNew =>
      subst hNew hKey
      have hDue := h.counted.due _ _ _ _ _ _ hTask hBefore
      exact Nat.le_trans (hCounter e₀ hBefore hSk) (Nat.le_of_lt hDue)
    | registered hEv hAccepted _ =>
      subst hEv
      refine absurd (hSkKey.trans hSk.symm) (hEnabled.2 (e.sk, e.sessionPub) ?_ p hp)
      rw [hAccepted]
      exact List.mem_singleton_self _

/-- However the run goes on, the counter of a session does not go back. -/
def NeverBack (env : SignalingEnv Ct) (n : Nat) (s : Workers Ct) : Prop :=
  ∀ es, (machine env n).Admissible (ReadsAlone env) s es → ∀ (k : RawKey) e e',
    s.srv.sessions[k]? = some e → ((machine env n).run s es).srv.sessions[k]? = some e' →
      e'.sk = e.sk → e.counterRx ≤ e'.counterRx

theorem Once.neverBack (h : Once env s) : NeverBack env n s := by
  intro es hes k e e' hEntry hEntry' hSk
  have hInv : Once env s ∧ AtLeast k e.sk e.counterRx s := by
    refine ⟨h, ⟨(e.sk, k), h.keyed.session k e hEntry, rfl⟩, fun e₂ hEntry₂ _ => ?_⟩
    rw [hEntry] at hEntry₂
    cases hEntry₂
    exact Nat.le_refl _
  have hEnd := hes.invariant (I := fun s => Once env s ∧ AtLeast k e.sk e.counterRx s)
    (fun s ev hBoth hEnabled hGuard =>
      ⟨once_next hBoth.1 hEnabled hGuard, atLeast_next hBoth.1 hEnabled hBoth.2⟩) hInv
  exact hEnd.2.2 e' hEntry' hSk

/-- **Session frames are processed at most once.** In every run in which no
worker reads a session for a frame that opens while another worker has read it
and not yet moved its counter on, no request is carried out twice, no two
responses are sealed under one key and nonce, and from every state on the
counters do not go back. -/
theorem session_frames_once (hC : env.crypto.Lawful)
    (h : (machine env n).Reach (ReadsAlone env) s) : ProcessedOnce env s ∧ NeverBack env n s :=
  ⟨(once_reach h).processedOnce hC, (once_reach h).neverBack⟩

/-- The first HEARTBEAT of device 2. -/
def sampleHeartbeat : SignalFrame (RawKey × Nonce × Bytes) :=
  sampleRequest (sampleEntry 2 50 11 0 1 0) msgHeartbeat []

theorem sampleSessionUp_entry :
    sampleSessionUp.srv.sessions[sampleHeartbeat.sender]? = some (sampleEntry 2 50 11 0 1 0) :=
  (Signaling.sampleOneSession_entry 50).trans (if_pos rfl)

/-- One HEARTBEAT on one worker. -/
theorem session_frames_once_sample :
    ∃ s, sampleMachine.Reach (ReadsAlone sampleServerEnv) s ∧
      s.executed.map Execution.request = [((sampleEntry 2 50 11 0 1 0).sk, 1)] ∧
      ProcessedOnce sampleServerEnv s ∧ NeverBack sampleServerEnv (defaultWorkerCount (some 2)) s := by
  have hUp : sampleMachine.Reach (ReadsAlone sampleServerEnv) sampleSessionUp :=
    reach_sampleSessionUp trivial
  have hCommitted : sampleMachine.Reach (ReadsAlone sampleServerEnv)
      (sampleCommitted sampleSessionUp (sampleEntry 2 50 11 0 1 0) msgHeartbeat [] 4000) := by
    refine reach_sampleCommitted hUp rfl (by decide) sampleSessionUp_entry trivial ?_
    intro t _ f src e plaintext hTask _ _ w' f' src' v' plaintext' hTask'
    rw [setTask_tasks, if_pos rfl] at hTask
    rw [setTask_tasks, hTask] at hTask'
    split at hTask'
    · cases hTask'
    · cases hTask'
  exact ⟨_, hCommitted, rfl, session_frames_once sampleCrypto_lawful hCommitted⟩

/-- Two copies of one HEARTBEAT come from two addresses; both workers read the
session before one of them moves its counter on. -/
theorem session_frames_once_fails :
    ∃ s, sampleMachine.Reach (fun _ _ => True) s ∧
      s.executed.map (·.frame) = [sampleHeartbeat, sampleHeartbeat] ∧
      ¬ ProcessedOnce sampleServerEnv s := by
  have hUp : sampleMachine.Reach (fun _ _ => True) sampleSessionUp := reach_sampleSessionUp trivial
  have hFirst := reach_opened hUp (sampleSource 4000) (sampleSignalDraw 0 11)
    (sampleSource_shard 4000) rfl (by decide)
    sampleSessionUp_entry (sampleRequest_opens _ _ _) trivial trivial
  have hSecond := reach_opened hFirst (sampleSource 4001) (sampleSignalDraw 0 11)
    (sampleSource_shard 4001)
    (setTask_tasks.trans (if_neg sampleWorker_ne.symm)) (by decide) sampleSessionUp_entry
    (sampleRequest_opens _ _ _) trivial trivial
  have hCommit := reach_afterCommit hSecond (setTask_tasks.trans (if_pos rfl)) trivial
  have hStale := reach_afterCommit hCommit
    (afterCommit_tasks.trans ((if_neg sampleWorker_ne).trans
      (setTask_tasks.trans ((if_neg sampleWorker_ne).trans (setTask_tasks.trans (if_pos rfl))))))
    trivial
  refine ⟨_, hStale, rfl, fun hOnce => ?_⟩
  have hFrames := hOnce.frames
  change [((sampleEntry 2 50 11 0 1 0).sk, sampleHeartbeat), _].Nodup at hFrames
  exact (List.nodup_cons.mp hFrames).1 (List.mem_singleton_self _)

end Workers

end LinkMesh
