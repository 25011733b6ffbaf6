import LinkMesh.Server.Lifecycle
import LinkMesh.Basis.FixedWindow

/-!
# The rate limit

AUTH and JOIN are counted by source IP in windows of 60 seconds, and
`cleanup_loop` drops the counters whose windows have passed.

* `rateLog_of_ip`      — the answers to one IP are those of a counter of its
  own that is never dropped;
* `rateLog_cleanup`    — the cleanup passes change no answer;
* `rateLimited_bounds` — how many requests are admitted.
-/

namespace LinkMesh

open Std KeyMap FixedWindow

variable {Ct : Type} {env : SignalingEnv Ct} {s s' : Signaling}

/-- What touches the table: a request of an IP and port, and a pass of
`cleanup_loop`. -/
inductive RateEvent where
  | request (src : SourceAddr) (now : Nat)
  | cleanup (now : Nat)
  deriving DecidableEq, Repr

namespace RateEvent

def time : RateEvent → Nat
  | request _ now => now
  | cleanup now => now

def isRequest : RateEvent → Bool
  | request _ _ => true
  | cleanup _ => false

/-- The time of a request of the IP. -/
def timeOf (ip : Bytes) : RateEvent → Option Nat
  | request src now => if src.octets = ip then some now else none
  | cleanup _ => none

end RateEvent

/-- The answer to a request of an IP. -/
structure RateAnswer where
  ip : Bytes
  verdict : Verdict
  deriving DecidableEq, Repr

namespace Signaling

/-- The window that the table holds for the IP. -/
def rateWindow (s : Signaling) (ip : Bytes) (now : Nat) : Nat := (s.rateLimits[ip]?.getD (now, 0)).1

def rateNext (env : SignalingEnv Ct) (s : Signaling) : RateEvent → Signaling
  | .request src now => (s.rateLimited env src now).1
  | .cleanup now => s.cleanupPass env now

def rateAnswer (env : SignalingEnv Ct) (s : Signaling) : RateEvent → Option RateAnswer
  | .request src now =>
    let (s', limited) := s.rateLimited env src now
    some
      { ip := src.octets
        verdict := { time := now, window := s'.rateWindow src.octets now, admitted := !limited } }
  | .cleanup _ => none

/-- The answers along a run, in their order. -/
def rateLog (env : SignalingEnv Ct) : Signaling → List RateEvent → List RateAnswer
  | _, [] => []
  | s, e :: es => (s.rateAnswer env e).toList ++ rateLog env (s.rateNext env e) es

-- ---------------------------------------------------------------------------
-- One event
-- ---------------------------------------------------------------------------

/-- The counter of the IP is used, and no other. -/
theorem rateLimited_eq (hLimit : 1 ≤ env.joinRateLimit) (s : Signaling) (src : SourceAddr) (now : Nat) :
    s.rateLimited env src now =
      ({ s with
          rateLimits := s.rateLimits.insert src.octets
            (FixedWindow.request 60 env.joinRateLimit s.rateLimits[src.octets]? now).1 },
        !(FixedWindow.request 60 env.joinRateLimit s.rateLimits[src.octets]? now).2) := by
  have hOn : ¬ env.joinRateLimit = 0 := by omega
  unfold rateLimited FixedWindow.request
  rw [if_neg hOn]
  obtain ⟨start, count⟩ := s.rateLimits[src.octets]?.getD (now, 0)
  dsimp only
  split
  · rfl
  · rw [← decide_not]
    simp only [Nat.not_le]

theorem rateNext_request (hLimit : 1 ≤ env.joinRateLimit) (s : Signaling) (src : SourceAddr) (now : Nat)
    (ip : Bytes) : (s.rateNext env (.request src now)).rateLimits[ip]? =
      if ip = src.octets then
        some (FixedWindow.request 60 env.joinRateLimit s.rateLimits[src.octets]? now).1
      else s.rateLimits[ip]? := by
  unfold rateNext
  dsimp only
  rw [rateLimited_eq hLimit]
  exact getElem?_insert

theorem rateAnswer_request (hLimit : 1 ≤ env.joinRateLimit) (s : Signaling) (src : SourceAddr) (now : Nat) :
    s.rateAnswer env (.request src now) =
      some
        { ip := src.octets
          verdict :=
            { time := now
              window := (FixedWindow.request 60 env.joinRateLimit s.rateLimits[src.octets]? now).1.1
              admitted := (FixedWindow.request 60 env.joinRateLimit s.rateLimits[src.octets]? now).2 } } := by
  unfold rateAnswer
  dsimp only
  rw [rateLimited_eq hLimit]
  unfold rateWindow
  simp only [ExtTreeMap.getElem?_insert_self, Option.getD_some, Bool.not_not]

/-- A pass of `cleanup_loop` drops the counters whose windows have passed. -/
theorem rateNext_cleanup (env : SignalingEnv Ct) (s : Signaling) (now : Nat) (ip : Bytes) :
    (s.rateNext env (.cleanup now)).rateLimits[ip]? =
      (s.rateLimits[ip]?).filter fun window => decide (now - window.1 < 60) := by
  have hTable : (s.cleanupPass env now).rateLimits = (s.pruneRateLimits now).rateLimits := by
    unfold cleanupPass
    obtain ⟨r, hFold⟩ := foldl_dropSession
      (((s.cleanupRoutes env now).pruneRateLimits now).expiredSessions env now)
      ((s.cleanupRoutes env now).pruneRateLimits now)
    dsimp only
    rw [hFold]
    split <;> rfl
  show (s.cleanupPass env now).rateLimits[ip]? = _
  rw [hTable]
  exact ExtTreeMap.getElem?_filter'

-- ---------------------------------------------------------------------------
-- Runs
-- ---------------------------------------------------------------------------

/-- In one of two tables, counters may be missing whose windows have passed. -/
def RatesAgree (now : Nat) (s s' : Signaling) : Prop :=
  ∀ ip : Bytes, Agrees 60 now s.rateLimits[ip]? s'.rateLimits[ip]?

theorem RatesAgree.request (src : SourceAddr) {now : Nat} (h : RatesAgree now s s')
    (hLimit : 1 ≤ env.joinRateLimit) :
    s.rateAnswer env (.request src now) = s'.rateAnswer env (.request src now) ∧
      RatesAgree now (s.rateNext env (.request src now)) (s'.rateNext env (.request src now)) := by
  have hSame := request_agrees (by decide) hLimit (h src.octets)
  refine ⟨?_, fun ip => ?_⟩
  · rw [rateAnswer_request hLimit, rateAnswer_request hLimit, hSame]
  · rw [rateNext_request hLimit, rateNext_request hLimit, hSame]
    split
    · exact .refl
    · exact h ip

theorem RatesAgree.cleanup {now : Nat} (h : RatesAgree now s s') :
    RatesAgree now (s.rateNext env (.cleanup now)) s' := by
  intro ip
  rw [rateNext_cleanup]
  exact (h ip).drop

/-- The cleanup passes of a run change no answer. -/
theorem rateLog_agrees (hLimit : 1 ≤ env.joinRateLimit) {now : Nat} {es : List RateEvent}
    (hTimes : (now :: es.map RateEvent.time).Pairwise (· ≤ ·)) (h : RatesAgree now s s') :
    rateLog env s es = rateLog env s' (es.filter RateEvent.isRequest) := by
  induction es generalizing now s s' with
  | nil => rfl
  | cons e es ih =>
    obtain ⟨hLater, -, hRest⟩ := sorted_cons hTimes
    have hNow : RatesAgree e.time s s' := fun ip => (h ip).mono hLater
    cases e with
    | request src t =>
      have hHere : RatesAgree t s s' := hNow
      obtain ⟨hAnswer, hAfter⟩ := hHere.request src hLimit
      have hKept : (RateEvent.request src t :: es).filter RateEvent.isRequest =
          RateEvent.request src t :: es.filter RateEvent.isRequest := List.filter_cons_of_pos rfl
      rw [hKept, rateLog, rateLog, hAnswer, ih hRest hAfter]
    | cleanup t =>
      have hGone : (RateEvent.cleanup t :: es).filter RateEvent.isRequest =
          es.filter RateEvent.isRequest := List.filter_cons_of_neg Bool.false_ne_true
      have hAfter : RatesAgree t (s.rateNext env (.cleanup t)) s' := RatesAgree.cleanup hNow
      rw [hGone, rateLog, ih hRest hAfter]
      rfl

/-- The answers to one IP are those of a counter of its own, at the times of its
requests. -/
theorem rateLog_of_ip (hLimit : 1 ≤ env.joinRateLimit) {now : Nat} {es : List RateEvent}
    (hTimes : (now :: es.map RateEvent.time).Pairwise (· ≤ ·)) {ip : Bytes} {c : Option (Nat × Nat)}
    (h : Agrees 60 now s.rateLimits[ip]? c) :
    (rateLog env s es).filter (fun a => a.ip = ip) =
      (verdicts 60 env.joinRateLimit c (es.filterMap (RateEvent.timeOf ip))).map (RateAnswer.mk ip) := by
  induction es generalizing now s c with
  | nil => rfl
  | cons e es ih =>
    obtain ⟨hLater, -, hRest⟩ := sorted_cons hTimes
    have hNow : Agrees 60 e.time s.rateLimits[ip]? c := h.mono hLater
    rw [rateLog, List.filter_append]
    cases e with
    | cleanup t =>
      have hAfter : Agrees 60 t (s.rateNext env (.cleanup t)).rateLimits[ip]? c := by
        rw [rateNext_cleanup]
        exact hNow.drop
      rw [ih hRest hAfter]
      rfl
    | request src t =>
      rw [rateAnswer_request hLimit]
      by_cases hIp : src.octets = ip
      · have hSame : FixedWindow.request 60 env.joinRateLimit s.rateLimits[ip]? t =
            FixedWindow.request 60 env.joinRateLimit c t := request_agrees (by decide) hLimit hNow
        have hAfter : Agrees 60 t (s.rateNext env (.request src t)).rateLimits[ip]?
            (some (FixedWindow.request 60 env.joinRateLimit c t).1) := by
          rw [rateNext_request hLimit, if_pos hIp.symm, hIp]
          exact .inl (congrArg (fun r => some r.1) hSame)
        have hTime : RateEvent.timeOf ip (.request src t) = some t := if_pos hIp
        rw [ih hRest hAfter, List.filterMap_cons_some hTime, verdicts, hIp, hSame]
        simp only [Option.toList_some, List.filter_cons, List.filter_nil, decide_true, if_true,
          List.map_cons, List.singleton_append]
      · have hAfter : Agrees 60 t (s.rateNext env (.request src t)).rateLimits[ip]? c := by
          rw [rateNext_request hLimit, if_neg (Ne.symm hIp)]
          exact hNow
        have hTime : RateEvent.timeOf ip (.request src t) = none := if_neg hIp
        rw [ih hRest hAfter, List.filterMap_cons_none hTime]
        simp only [Option.toList_some, List.filter_cons, List.filter_nil, hIp, decide_false, if_false,
          List.nil_append, Bool.false_eq_true]

-- ---------------------------------------------------------------------------
-- How many are admitted
-- ---------------------------------------------------------------------------

/-- In a run from an empty table, the answers to one IP. -/
theorem rateLog_start (hLimit : 1 ≤ env.joinRateLimit) (hStart : s.rateLimits = ∅) {es : List RateEvent}
    (hTimes : (es.map RateEvent.time).Pairwise (· ≤ ·)) (ip : Bytes) :
    (rateLog env s es).filter (fun a => a.ip = ip) =
      (verdicts 60 env.joinRateLimit none (es.filterMap (RateEvent.timeOf ip))).map (RateAnswer.mk ip) := by
  have hNone : s.rateLimits[ip]? = none := by
    rw [hStart]
    exact ExtTreeMap.getElem?_empty
  have hSorted : (0 :: es.map RateEvent.time).Pairwise (· ≤ ·) :=
    List.pairwise_cons.mpr ⟨fun _ _ => Nat.zero_le _, hTimes⟩
  exact rateLog_of_ip hLimit hSorted (.inl hNone)

/-- The times of the requests of one IP come in order, when all events do. -/
theorem timesOf_sorted {es : List RateEvent} (hTimes : (es.map RateEvent.time).Pairwise (· ≤ ·)) (ip : Bytes) :
    (es.filterMap (RateEvent.timeOf ip)).Pairwise (· ≤ ·) := by
  have hTime : ∀ {e t}, RateEvent.timeOf ip e = some t → e.time = t := by
    intro e t h
    unfold RateEvent.timeOf at h
    split at h
    · split at h
      · exact Option.some.inj h
      · cases h
    · cases h
  rw [List.pairwise_map] at hTimes
  refine List.Pairwise.filterMap _ ?_ hTimes
  intro e e' hLater t ht t' ht'
  rw [← hTime ht, ← hTime ht']
  exact hLater

/-- The admitted requests of one IP that satisfy a condition are counted by its
own counter. -/
theorem rateLog_countP (hLimit : 1 ≤ env.joinRateLimit) (hStart : s.rateLimits = ∅) {es : List RateEvent}
    (hTimes : (es.map RateEvent.time).Pairwise (· ≤ ·)) (ip : Bytes) (p : Verdict → Bool) :
    (rateLog env s es).countP (fun a => a.ip = ip ∧ p a.verdict) =
      (verdicts 60 env.joinRateLimit none (es.filterMap (RateEvent.timeOf ip))).countP p := by
  have hSplit : (rateLog env s es).countP (fun a => a.ip = ip ∧ p a.verdict) =
      ((rateLog env s es).filter (fun a => a.ip = ip)).countP (fun a => p a.verdict) := by
    rw [List.countP_filter]
    refine List.countP_congr fun a _ => ?_
    simp only [decide_eq_true_eq, Bool.and_eq_true, and_comm]
  rw [hSplit, rateLog_start hLimit hStart hTimes, List.countP_map]
  rfl

/-- The rate limit, along every run of requests and cleanup passes whose times do
not go back. The requests of an IP fall into windows that do not overlap, and
at most `limit` are admitted in each; in 60 consecutive seconds at most twice
as many are. The answers to an IP follow from the times of its own requests,
and they are those of the run without the cleanup passes. -/
theorem rateLimited_bounds (hLimit : 1 ≤ env.joinRateLimit) (hStart : s.rateLimits = ∅) {es : List RateEvent}
    (hTimes : (es.map RateEvent.time).Pairwise (· ≤ ·)) :
    (∀ a ∈ rateLog env s es,
      a.verdict.window ≤ a.verdict.time ∧ a.verdict.time < a.verdict.window + 60) ∧
    (∀ ip, ((rateLog env s es).filter (fun a => a.ip = ip)).Pairwise fun a b =>
      a.verdict.window = b.verdict.window ∨ a.verdict.window + 60 ≤ b.verdict.window) ∧
    (∀ ip w, (rateLog env s es).countP
      (fun a => a.ip = ip ∧ (a.verdict.admitted ∧ a.verdict.window = w)) ≤ env.joinRateLimit) ∧
    (∀ ip t, (rateLog env s es).countP
      (fun a => a.ip = ip ∧ (a.verdict.admitted ∧ t ≤ a.verdict.time ∧ a.verdict.time < t + 60)) ≤
        2 * env.joinRateLimit) ∧
    (∀ ip es', (es'.map RateEvent.time).Pairwise (· ≤ ·) →
      es.filterMap (RateEvent.timeOf ip) = es'.filterMap (RateEvent.timeOf ip) →
      (rateLog env s es).filter (fun a => a.ip = ip) = (rateLog env s es').filter (fun a => a.ip = ip)) ∧
    rateLog env s es = rateLog env s (es.filter RateEvent.isRequest) := by
  have hSorted : ∀ ip, (es.filterMap (RateEvent.timeOf ip)).Pairwise (· ≤ ·) := timesOf_sorted hTimes
  have hWindows : ∀ ip,
      (∀ v ∈ verdicts 60 env.joinRateLimit none (es.filterMap (RateEvent.timeOf ip)),
        v.window ≤ v.time ∧ v.time < v.window + 60) ∧
      (verdicts 60 env.joinRateLimit none (es.filterMap (RateEvent.timeOf ip))).Pairwise
        (fun v v' => v.window = v'.window ∨ v.window + 60 ≤ v'.window) := by
    intro ip
    have hWidth : 1 ≤ 60 := by decide
    exact verdicts_none_windows env.joinRateLimit hWidth (hSorted ip)
  refine ⟨?_, ?_, ?_, ?_, ?_, ?_⟩
  · intro a ha
    have hOwn : a ∈ (rateLog env s es).filter (fun b => b.ip = a.ip) :=
      List.mem_filter.mpr ⟨ha, decide_eq_true rfl⟩
    rw [rateLog_start hLimit hStart hTimes, List.mem_map] at hOwn
    obtain ⟨v, hv, hEq⟩ := hOwn
    rw [← hEq]
    exact (hWindows a.ip).1 v hv
  · intro ip
    rw [rateLog_start hLimit hStart hTimes, List.pairwise_map]
    exact (hWindows ip).2
  · intro ip w
    have hCount := rateLog_countP hLimit hStart hTimes ip fun v => v.admitted ∧ v.window = w
    simp only [decide_eq_true_eq] at hCount
    rw [hCount]
    exact countP_none_window_le (by decide) hLimit (hSorted ip) w
  · intro ip t
    have hCount := rateLog_countP hLimit hStart hTimes ip
      fun v => v.admitted ∧ t ≤ v.time ∧ v.time < t + 60
    simp only [decide_eq_true_eq] at hCount
    rw [hCount]
    exact countP_none_span_le hLimit (hSorted ip) t
  · intro ip es' hTimes' hSame
    rw [rateLog_start hLimit hStart hTimes, rateLog_start hLimit hStart hTimes', hSame]
  · have hFrom : (0 :: es.map RateEvent.time).Pairwise (· ≤ ·) :=
      List.pairwise_cons.mpr ⟨fun _ _ => Nat.zero_le _, hTimes⟩
    exact rateLog_agrees hLimit hFrom fun _ => .refl

/-- 20 requests at second 59 and as many at 60: all are admitted, and the pass
that drops the first window between them changes nothing. -/
def exampleBurst : List RateEvent :=
  RateEvent.request sampleSrc 0 :: List.replicate 19 (.request sampleSrc 59) ++
    RateEvent.cleanup 60 :: List.replicate 20 (.request sampleSrc 60)

/-- A server that admits 20 requests in a window. -/
def exampleLimited : SignalingEnv (RawKey × Nonce × Bytes) := { sampleServerEnv with joinRateLimit := 20 }

theorem rateLimited_bounds_burst :
    (rateLog exampleLimited (Signaling.start sampleMesh [] ∅) exampleBurst).countP
        (fun a => a.ip = sampleSrc.octets ∧
          (a.verdict.admitted ∧ 30 ≤ a.verdict.time ∧ a.verdict.time < 30 + 60)) ≤
      2 * exampleLimited.joinRateLimit :=
  (rateLimited_bounds (by decide) rfl (by decide)).2.2.2.1 sampleSrc.octets 30

end Signaling

end LinkMesh
