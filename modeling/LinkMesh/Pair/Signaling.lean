import LinkMesh.Basis.InOrder
import LinkMesh.Server.Lifecycle

/-!
# The two ends of session signaling

What the client does with a session key (`Outbox::send_signaling` and
`decrypt_session_response` in `linkmesh-client/src/connection.rs`) against
`handle_session_signaling`. Counters are taken one after the other, but
datagrams are lost, overtake each other and arrive more than once.

## Results

* `session_response_readable_iff` — the client reads every response to a
  request iff the request is no REGISTER that is refused.
* `session_in_order_iff`          — every frame ahead of all accepted ones is
  accepted iff no frame overtakes a missing one.
-/

namespace LinkMesh

open Std KeyMap Signaling

variable {Ct : Type}

-- ---------------------------------------------------------------------------
-- The client
-- ---------------------------------------------------------------------------

/-- A request before sealing. -/
structure Request where
  msgType : Nat
  body : Bytes
  deriving DecidableEq, Repr

/-- `send_signaling` with an established session: the frame with the counter. -/
def sealFrame (C : SignalingCrypto Ct) (sk ekC : RawKey) (seq : Nat) (r : Request) : SignalFrame Ct :=
  { msgType := r.msgType
    sender := ekC
    payload := C.encryptWithNonce sk (sessionNonce seq 0) r.body }

/-- `SESSION_RESP_WINDOW` -/
def sessionRespWindow : Nat := 32

/-- `decrypt_session_response`: the counters sent last are tried, the newest first. -/
def decryptSessionResponse (C : SignalingCrypto Ct) (sk : RawKey) (lastSendSeq : Nat) (ct : Ct) :
    Option Bytes :=
  let lo := lastSendSeq - sessionRespWindow
  (List.range' lo (lastSendSeq + 1 - lo)).reverse.findSome? fun seq =>
    C.decryptWithNonce sk (sessionNonce seq 1) ct

variable {C : SignalingCrypto Ct} {sk : RawKey} {last seq : Nat} {pt : Bytes}

/-- A response under the counter of one of the last 33 frames opens. -/
theorem decryptSessionResponse_seq (hC : C.Lawful) (hSent : seq ≤ last)
    (hRecent : last ≤ seq + sessionRespWindow) :
    decryptSessionResponse C sk last (C.encryptWithNonce sk (sessionNonce seq 1) pt) = some pt := by
  have hTry : ∀ k, C.decryptWithNonce sk (sessionNonce k 1)
      (C.encryptWithNonce sk (sessionNonce seq 1) pt) = if k = seq then some pt else none := by
    intro k
    rw [hC.decryptWithNonce_encrypt]
    by_cases hk : k = seq
    · subst hk
      rw [if_pos ⟨rfl, rfl⟩, if_pos rfl]
    · rw [if_neg hk, if_neg fun hBoth => hk (sessionNonce_inj hBoth.1).1.symm]
  have hMem : seq ∈ (List.range' (last - sessionRespWindow)
      (last + 1 - (last - sessionRespWindow))).reverse := by
    rw [List.mem_reverse, List.mem_range'_1]
    omega
  unfold decryptSessionResponse
  simp only [hTry]
  generalize (List.range' (last - sessionRespWindow)
    (last + 1 - (last - sessionRespWindow))).reverse = ks at hMem
  induction ks with
  | nil => cases hMem
  | cons k ks ih =>
    rw [List.findSome?_cons]
    by_cases hk : k = seq
    · rw [if_pos hk]
    · rw [if_neg hk]
      exact ih ((List.mem_cons.mp hMem).resolve_left fun hEq => hk hEq.symm)

/-- A response under a nonce that no counter gives does not open. -/
theorem decryptSessionResponse_other (hC : C.Lawful) {nonce : Nonce}
    (hOther : ∀ k, nonce ≠ sessionNonce k 1) :
    decryptSessionResponse C sk last (C.encryptWithNonce sk nonce pt) = none := by
  unfold decryptSessionResponse
  rw [List.findSome?_eq_none_iff]
  intro k _
  rw [hC.decryptWithNonce_encrypt, if_neg fun hBoth => hOther k hBoth.1]

/-- There are such nonces. -/
theorem other_nonce (k : Nat) : ((0, 1) : Nonce) ≠ sessionNonce k 1 := by
  intro h
  have hParts := Prod.mk.inj h
  omega

-- ---------------------------------------------------------------------------
-- Responses
-- ---------------------------------------------------------------------------

section

variable {env : SignalingEnv Ct} {s : Signaling} {f : SignalFrame Ct} {src : SourceAddr}
  {e : SessionEntry} {plaintext : Bytes} {now routeNow : Nat}

/-- The answer to a request that is not refused is one that survives the wire. -/
theorem sessionResponse_execute {sender : RawKey} {v : SessionView} {plan : RequestPlan}
    {body : ResponseBody} (h : s.routes.All CanonicalRk)
    (hReply : (s.execute env sender v src now plan).2 = .reply body) : SessionResponse body := by
  cases plan with
  | fail msg => cases hReply
  | refuse msg => cases hReply
  | register relayRk aliasName =>
    cases hReply
    exact .okEmpty
  | heartbeat =>
    cases hReply
    exact .okEmpty
  | bye =>
    cases hReply
    exact .okEmpty
  | query qb =>
    cases hReply
    unfold queryAnswer
    dsimp only
    split
    · rename_i target hTarget
      refine .hit _ _ _ _ _ _ (isB64Text_keyB64 (keyBytes_length _)) ?_
      -- the target is an entry of the table
      obtain ⟨hIp, _⟩ := Option.filter_eq_some_iff.mp hTarget
      obtain ⟨ip, _, hEntry⟩ := Option.bind_eq_some_iff.mp hIp
      obtain ⟨k, _, hKey⟩ := Option.bind_eq_some_iff.mp hEntry
      exact h k target hKey
    · exact .miss _ _
  | unsupported =>
    cases hReply
    exact .err _

/-- A response that is not a refusal is sealed under the counter of its request. -/
theorem sealAnswer_reply {v : SessionView} {random : Nonce} {body sent : ResponseBody} {payload : Ct}
    (h : sealAnswer env v random (.reply body) = .answered sent payload) :
    sent = body ∧ ∃ pt, encodeResponse body = .ok pt ∧
      payload = env.crypto.encryptWithNonce v.sk (sessionNonce v.nextSeq 1) pt := by
  unfold sealAnswer at h
  dsimp only at h
  split at h
  · cases h
  · rename_i pt hPt
    cases h
    exact ⟨rfl, pt, hPt, rfl⟩

theorem sealAnswer_refused {v : SessionView} {random : Nonce} {msg : String} {pt : Bytes}
    (h : encodeResponse (.err msg) = .ok pt) :
    sealAnswer env v random (.refused msg) =
      .answered (.err msg) (env.crypto.encryptWithNonce v.sk random pt) := by
  unfold sealAnswer
  dsimp only
  rw [h]

/-- Whatever nonce the server draws, a response it emits is opened by the client
while it has sent at most 32 later frames, and decodes to what the server built. -/
def ResponsesReadable (env : SignalingEnv Ct) (s : Signaling) (f : SignalFrame Ct) (src : SourceAddr)
    (now routeNow : Nat) (e : SessionEntry) : Prop :=
  ∀ random body payload,
    (s.handleSession env f src { now := now, routeNow := routeNow, random := random }).2 =
      .answered body payload →
    ∀ last, e.counterRx + 1 ≤ last → last ≤ e.counterRx + 1 + 32 →
      ∃ pt, decryptSessionResponse env.crypto e.sk last payload = some pt ∧
        decodeResponse pt = .ok body

/-- A refusal is sealed under a random nonce, which the client does not try. -/
theorem not_readable_of_refuse {msg : String} {pt : Bytes} (hC : env.crypto.Lawful)
    (hEntry : s.sessions[f.sender]? = some e)
    (hOpen : e.view.openFrame env f.payload = some plaintext)
    (hRefuses : RefusesRegister env e.view f.msgType plaintext msg)
    (hPt : encodeResponse (.err msg) = .ok pt) :
    ¬ ResponsesReadable env s f src now routeNow e := by
  intro hAll
  have hSent : (s.handleSession env f src { now := now, routeNow := routeNow, random := (0, 1) }).2 =
      .answered (.err msg) (env.crypto.encryptWithNonce e.sk (0, 1) pt) := by
    rw [handleSession_opened hEntry hOpen, planRequest_refuse_iff.mpr hRefuses]
    exact sealAnswer_refused (v := e.view) hPt
  obtain ⟨pt', hRead, _⟩ := hAll _ _ _ hSent (e.counterRx + 1) (Nat.le_refl _) (by omega)
  rw [decryptSessionResponse_other hC other_nonce] at hRead
  cases hRead

/-- **Responses are readable.** The client can read whatever the server emits for
a session request if and only if the request is not a REGISTER that is refused
with a text that the response codec takes. -/
theorem session_response_readable_iff (hC : env.crypto.Lawful)
    (hReach : (machine env).Reach (fun _ _ => True) s) (hEntry : s.sessions[f.sender]? = some e)
    (hOpen : e.view.openFrame env f.payload = some plaintext) :
    ResponsesReadable env s f src now routeNow e ↔
      ∀ msg, RefusesRegister env e.view f.msgType plaintext msg →
        ∀ pt, encodeResponse (.err msg) ≠ .ok pt := by
  constructor
  · intro hAll msg hRefuses pt hPt
    exact not_readable_of_refuse hC hEntry hOpen hRefuses hPt hAll
  · intro hNot random body payload hSent last hLow hHigh
    rw [handleSession_opened hEntry hOpen] at hSent
    dsimp only at hSent
    have hCanonical : (s.commitCounter f.sender e.view.nextSeq now).routes.All CanonicalRk := by
      rw [commitCounter_routes]
      exact canonical_reach hReach
    cases hAnswer : ((s.commitCounter f.sender e.view.nextSeq now).execute env f.sender e.view src
        routeNow (planRequest env e.view f.msgType plaintext)).2 with
    | failed msg =>
      rw [hAnswer] at hSent
      cases hSent
    | refused msg =>
      have hPlan : planRequest env e.view f.msgType plaintext = .refuse msg := by
        cases hPlan : planRequest env e.view f.msgType plaintext with
        | refuse msg' =>
          rw [hPlan] at hAnswer
          cases hAnswer
          rfl
        | _ =>
          rw [hPlan] at hAnswer
          cases hAnswer
      rw [hAnswer] at hSent
      unfold sealAnswer at hSent
      dsimp only at hSent
      split at hSent
      · cases hSent
      · rename_i pt hPt
        exact absurd hPt (hNot msg (planRequest_refuse_iff.mp hPlan) pt)
    | reply built =>
      have hBuilt := sessionResponse_execute hCanonical hAnswer
      rw [hAnswer] at hSent
      obtain ⟨rfl, pt, hPt, rfl⟩ := sealAnswer_reply hSent
      exact ⟨pt, decryptSessionResponse_seq hC hLow hHigh, decodeResponse_encodeResponse hBuilt hPt⟩

end

/-- A frame opens when its counter is due. -/
theorem openFrame_sealFrame {env : SignalingEnv Ct} {e : SessionEntry} {ekC : RawKey} {r : Request}
    (hC : env.crypto.Lawful) :
    e.view.openFrame env (sealFrame env.crypto e.sk ekC seq r).payload =
      if seq = e.counterRx + 1 then some r.body else none := by
  show env.crypto.decryptWithNonce e.sk (sessionNonce (e.counterRx + 1) 0)
    (env.crypto.encryptWithNonce e.sk (sessionNonce seq 0) r.body) = _
  rw [hC.decryptWithNonce_encrypt]
  by_cases hSeq : seq = e.counterRx + 1
  · subst hSeq
    rw [if_pos ⟨rfl, rfl⟩, if_pos rfl]
  · rw [if_neg hSeq, if_neg fun hBoth => hSeq (sessionNonce_inj hBoth.1).1]

/-- The first frame of device 2. -/
def sampleFirstFrame (r : Request) : SignalFrame (RawKey × Nonce × Bytes) :=
  sealFrame sampleCrypto (sampleEntry 2 50 11 0 1 0).sk 50 1 r

theorem sampleFirstFrame_opens (r : Request) :
    (sampleEntry 2 50 11 0 1 0).view.openFrame sampleServerEnv (sampleFirstFrame r).payload =
      some r.body :=
  (openFrame_sealFrame (e := sampleEntry 2 50 11 0 1 0)
    sampleCrypto_lawful).trans (if_pos rfl)

theorem session_response_readable_sample :
    ResponsesReadable sampleServerEnv sampleOneSession
      (sampleFirstFrame { msgType := msgHeartbeat, body := [] }) sampleSrc 5 5
      (sampleEntry 2 50 11 0 1 0) := by
  refine (session_response_readable_iff sampleCrypto_lawful
    reach_sampleOneSession (sampleOneSession_entry 50) (sampleFirstFrame_opens _)).mpr ?_
  intro msg hRefuses
  exact absurd hRefuses.1 (by decide : msgHeartbeat ≠ msgRegister)

/-- Device 2 asks for an address that its certificate does not give it; it cannot
read the refusal. -/
theorem session_response_readable_fails :
    ∃ body, decodeRegister body =
        .ok { ip := "10.13.13.9", relayRk := none, token := none, aliasName := none } ∧
      ¬ ResponsesReadable sampleServerEnv sampleOneSession
        (sampleFirstFrame { msgType := msgRegister, body := body }) sampleSrc 5 5
        (sampleEntry 2 50 11 0 1 0) := by
  have hIp : wireStrSet ipLen "10.13.13.9" = .ok (utf8 "10.13.13.9" ++ List.replicate 38 0) :=
    wireStrSet_ok (by decide +kernel) (by decide +kernel)
  have hEncodes : ∃ body, encodeRegister
      { ip := "10.13.13.9", relayRk := none, token := none, aliasName := none } = .ok body :=
    exists_bind_ok hIp (exists_bind_ok rfl (exists_bind_ok rfl (exists_bind_ok rfl ⟨_, rfl⟩)))
  obtain ⟨body, hBody⟩ := hEncodes
  have hDecodes : decodeRegister body =
      .ok { ip := "10.13.13.9", relayRk := none, token := none, aliasName := none } :=
    decodeRegister_encodeRegister (fun _ hRk => by cases hRk) hBody
  let asked := "10.13.13.9"
  let bound := "10.13.13.2"
  let msg := s!"虚拟 IP {asked} 与证书绑定不符（应注册 {bound}），拒绝注册"
  have hMsg : ∃ pt, encodeResponse (.err msg) = .ok pt :=
    exists_bind_ok (wireStrSet_ok (by decide +kernel) (by decide +kernel)) ⟨_, rfl⟩
  obtain ⟨pt, hPt⟩ := hMsg
  refine ⟨body, hDecodes, not_readable_of_refuse sampleCrypto_lawful
    (sampleOneSession_entry 50) (sampleFirstFrame_opens _) ?_ hPt⟩
  refine ⟨rfl, _, hDecodes, .inl ⟨?_, rfl⟩⟩
  decide +kernel

-- ---------------------------------------------------------------------------
-- Loss and reordering
-- ---------------------------------------------------------------------------

/-- The request is processed: the frame opened and the counter moved on. -/
def SessionOutcome.isProcessed : SessionOutcome Ct → Bool
  | .unknownSession => false
  | .notOpened => false
  | _ => true

theorem sealAnswer_isProcessed {env : SignalingEnv Ct} {v : SessionView} {random : Nonce}
    {answer : Answer} : (sealAnswer env v random answer).isProcessed = true := by
  unfold sealAnswer
  split
  · rfl
  · split
    · rfl
    · rfl
  · split
    · rfl
    · rfl

/-- The server, and the counters of the frames of one session that it accepted. -/
structure Uplink where
  srv : Signaling
  accepted : List Nat

/-- What happens at the server as far as one session is concerned. -/
inductive Arrival where
  /-- the frame with this counter arrives, again or for the first time -/
  | frame (seq : Nat) (src : SourceAddr) (d : RequestDraw)
  /-- anything that leaves the session alone -/
  | other (srv : Signaling)

def Arrival.seq? : Arrival → Option Nat
  | .frame seq _ _ => some seq
  | .other _ => none

namespace Uplink

/-- One session with its key and the requests of its client, by counter. -/
structure Session where
  sk : RawKey
  ekC : RawKey
  sent : Nat → Request

/-- The counters of BYE requests. -/
def Session.closes (S : Session) (seq : Nat) : Bool := (S.sent seq).msgType = msgBye

variable (env : SignalingEnv Ct) (S : Session)

def handle (l : Uplink) (seq : Nat) (src : SourceAddr) (d : RequestDraw) :
    Signaling × SessionOutcome Ct :=
  l.srv.handleSession env (sealFrame env.crypto S.sk S.ekC seq (S.sent seq)) src d

def next (l : Uplink) : Arrival → Uplink
  | .frame seq src d =>
    { srv := (l.handle env S seq src d).1
      accepted := if (l.handle env S seq src d).2.isProcessed then l.accepted ++ [seq]
        else l.accepted }
  | .other srv => { l with srv := srv }

def machine : Machine Uplink Arrival where
  init l := l.accepted = [] ∧ ∃ e, l.srv.sessions[S.ekC]? = some e ∧ e.sk = S.sk ∧ e.counterRx = 0
  enabled l
    | .frame seq _ _ => 1 ≤ seq
    | .other srv => srv.sessions[S.ekC]? = l.srv.sessions[S.ekC]?
  next := next env S

/-- The session follows a receiver that accepts in order. -/
def Session.Follows (S : Session) (l : Uplink) : Option Nat → Prop
  | some c => (∃ e, l.srv.sessions[S.ekC]? = some e ∧ e.sk = S.sk ∧ e.counterRx = c) ∧
      (∀ g ∈ l.accepted, g ≤ c) ∧ (c = 0 ∨ c ∈ l.accepted)
  | none => l.srv.sessions[S.ekC]? = none

variable {env} {S} {l : Uplink} {src : SourceAddr} {d : RequestDraw} {c : Nat} {st : Option Nat}

/-- The frame that is due is processed; BYE ends the session. -/
theorem handle_due {e : SessionEntry} (src : SourceAddr) (d : RequestDraw) (hC : env.crypto.Lawful)
    (hEntry : l.srv.sessions[S.ekC]? = some e) (hKey : e.sk = S.sk) (hDue : seq = e.counterRx + 1) :
    (l.handle env S seq src d).2.isProcessed = true ∧
      (l.handle env S seq src d).1.sessions[S.ekC]? =
        if S.closes seq then none
        else some { e with counterRx := seq, lastSeen := d.now } := by
  have hOpen : e.view.openFrame env (sealFrame env.crypto S.sk S.ekC seq (S.sent seq)).payload =
      some (S.sent seq).body := by
    rw [← hKey, openFrame_sealFrame hC, if_pos hDue]
  have hSeq : e.view.nextSeq = seq := hDue.symm
  have hCommit : (l.srv.commitCounter S.ekC seq d.now).sessions[S.ekC]? =
      some { e with counterRx := seq, lastSeen := d.now } := by
    rw [commitCounter_getElem?, if_pos rfl, hEntry]
    rfl
  unfold handle
  rw [handleSession_opened hEntry hOpen, hSeq]
  constructor
  · exact sealAnswer_isProcessed
  · show (execute env (l.srv.commitCounter S.ekC seq d.now) S.ekC e.view src d.routeNow
      (planRequest env e.view (S.sent seq).msgType (S.sent seq).body)).1.sessions[S.ekC]? = _
    by_cases hBye : (S.sent seq).msgType = msgBye
    · have hCloses : S.closes seq = true := decide_eq_true hBye
      rw [planRequest_bye_iff.mpr hBye, if_pos hCloses]
      show ((l.srv.commitCounter S.ekC seq d.now).sessions.erase S.ekC)[S.ekC]? = none
      rw [getElem?_erase, if_pos rfl]
    · have hPlan : planRequest env e.view (S.sent seq).msgType (S.sent seq).body ≠ .bye :=
        fun hPlan => hBye (planRequest_bye_iff.mp hPlan)
      obtain ⟨r, hEq⟩ := execute_frame env (l.srv.commitCounter S.ekC seq d.now) S.ekC e.view src
        d.routeNow hPlan
      have hCloses : ¬ S.closes seq = true := fun hCloses => hBye (of_decide_eq_true hCloses)
      rw [hEq, if_neg hCloses]
      exact hCommit

/-- Any other frame changes nothing. -/
theorem handle_not_due {e : SessionEntry} (hC : env.crypto.Lawful)
    (hEntry : l.srv.sessions[S.ekC]? = some e) (hKey : e.sk = S.sk) (hDue : seq ≠ e.counterRx + 1) :
    l.handle env S seq src d = (l.srv, .notOpened) := by
  have hOpen : e.view.openFrame env (sealFrame env.crypto S.sk S.ekC seq (S.sent seq)).payload =
      none := by
    rw [← hKey, openFrame_sealFrame hC, if_neg hDue]
  exact handleSession_not_opened hEntry hOpen

theorem handle_gone (hGone : l.srv.sessions[S.ekC]? = none) :
    l.handle env S seq src d = (l.srv, .unknownSession) :=
  handleSession_unknown hGone

theorem next_of_ignored {outcome : SessionOutcome Ct}
    (h : l.handle env S seq src d = (l.srv, outcome)) (hIgnored : outcome.isProcessed = false) :
    l.next env S (.frame seq src d) = l := by
  unfold next
  dsimp only
  rw [h, hIgnored]
  rfl

theorem follows_frame (hC : env.crypto.Lawful) (h : S.Follows l st) :
    S.Follows (l.next env S (.frame seq src d)) (InOrder.next S.closes st seq) := by
  cases st with
  | none =>
    rw [next_of_ignored (handle_gone h) rfl]
    exact h
  | some c =>
    obtain ⟨⟨e, hEntry, hKey, hCounter⟩, hBound, hTop⟩ := h
    by_cases hDue : seq = c + 1
    · obtain ⟨hProcessed, hAfter⟩ := handle_due src d hC hEntry hKey (hCounter ▸ hDue)
      have hStep : InOrder.next S.closes (some c) seq = if S.closes seq then none else some seq :=
        if_pos hDue
      rw [hStep]
      by_cases hCloses : S.closes seq
      · rw [if_pos hCloses] at hAfter ⊢
        exact hAfter
      · rw [if_neg hCloses] at hAfter ⊢
        have hAccepted : (l.next env S (.frame seq src d)).accepted = l.accepted ++ [seq] :=
          if_pos hProcessed
        refine ⟨⟨_, hAfter, hKey, rfl⟩, fun g hg => ?_, .inr ?_⟩
        · rw [hAccepted, List.mem_append, List.mem_singleton] at hg
          rcases hg with hOld | hNew
          · have hLe := hBound g hOld
            omega
          · omega
        · rw [hAccepted]
          exact List.mem_append_right _ (List.mem_singleton.mpr rfl)
    · have hStep : InOrder.next S.closes (some c) seq = some c := if_neg hDue
      rw [hStep, next_of_ignored (handle_not_due hC hEntry hKey (hCounter ▸ hDue)) rfl]
      exact ⟨⟨e, hEntry, hKey, hCounter⟩, hBound, hTop⟩

theorem follows_other {srv : Signaling} (h : S.Follows l st)
    (hSession : srv.sessions[S.ekC]? = l.srv.sessions[S.ekC]?) :
    S.Follows { l with srv := srv } st := by
  cases st with
  | none => exact hSession.trans h
  | some c =>
    obtain ⟨⟨e, hEntry, hKey, hCounter⟩, hBound, hTop⟩ := h
    exact ⟨⟨e, hSession.trans hEntry, hKey, hCounter⟩, hBound, hTop⟩

/-- Counters of the frames that arrived. -/
def seqs (es : List Arrival) : List Nat := es.filterMap Arrival.seq?

/-- Along a run the session follows the receiver that accepts in order. -/
theorem follows_run (hC : env.crypto.Lawful) {l₀ : Uplink} (hInit : (machine env S).init l₀)
    {es : List Arrival} (hEs : Machine.Admissible (machine env S) (fun _ _ => True) l₀ es) :
    ∀ pre, pre <+: es →
      S.Follows ((machine env S).run l₀ pre) (InOrder.after S.closes (seqs pre)) := by
  intro pre
  induction pre using List.reverseRecOn with
  | nil =>
    intro _
    obtain ⟨hNone, e, hEntry, hKey, hCounter⟩ := hInit
    refine ⟨⟨e, hEntry, hKey, hCounter⟩, fun g hg => ?_, .inl rfl⟩
    rw [Machine.run_nil, hNone] at hg
    cases hg
  | append_singleton pre a ih =>
    intro hPre
    have hBefore := ih ((List.prefix_append _ _).trans hPre)
    have hEnabled := Machine.admissible_enabled hEs hPre
    rw [Machine.run_concat]
    unfold seqs at hBefore ⊢
    rw [List.filterMap_append]
    cases a with
    | frame seq src d =>
      show S.Follows _ (InOrder.after S.closes (_ ++ [seq]))
      rw [InOrder.after_concat]
      exact follows_frame hC hBefore
    | other srv =>
      show S.Follows _ (InOrder.after S.closes (_ ++ []))
      rw [List.append_nil]
      exact follows_other hBefore hEnabled

/-- An authentic frame ahead of every accepted one is processed, as long as the
session is in the table. -/
def KeepsUp (env : SignalingEnv Ct) (S : Session) (l₀ : Uplink) (es : List Arrival) : Prop :=
  ∀ pre seq src d, pre ++ [.frame seq src d] <+: es →
    S.ekC ∈ ((machine env S).run l₀ pre).srv.sessions →
    (∀ g ∈ ((machine env S).run l₀ pre).accepted, g < seq) →
      (((machine env S).run l₀ pre).handle env S seq src d).2.isProcessed = true

/-- **Loss and reordering.** Every authentic frame whose counter exceeds all
accepted ones is processed if and only if, until the session is closed, no frame
arrives whose counter is more than one above those that arrived before it. -/
theorem session_in_order_iff (hC : env.crypto.Lawful) {l₀ : Uplink}
    (hInit : (machine env S).init l₀) {es : List Arrival}
    (hEs : Machine.Admissible (machine env S) (fun _ _ => True) l₀ es) :
    KeepsUp env S l₀ es ↔
      ∀ pre seq src d, pre ++ [.frame seq src d] <+: es → ¬ InOrder.Closed S.closes (seqs pre) →
        seq ≤ InOrder.top (seqs pre) + 1 := by
  have hFollows := follows_run hC hInit hEs
  have hLift : ∀ p x, p ++ [x] <+: seqs es →
      ∃ pre src d, pre ++ [Arrival.frame x src d] <+: es ∧ seqs pre = p := by
    intro p x hp
    obtain ⟨pre, a, hPre, hSeqs, hSeq⟩ := InOrder.exists_prefix_of_filterMap hp
    cases a with
    | frame seq src d =>
      cases hSeq
      exact ⟨pre, src, d, hPre, hSeqs⟩
    | other srv => cases hSeq
  have hLower : ∀ pre seq src d, pre ++ [Arrival.frame seq src d] <+: es →
      seqs pre ++ [seq] <+: seqs es := by
    intro pre seq src d hPre
    have hMap := hPre.filterMap Arrival.seq?
    rw [List.filterMap_append] at hMap
    exact hMap
  have hStep : KeepsUp env S l₀ es ↔ ∀ p x c, p ++ [x] <+: seqs es →
      InOrder.after S.closes p = some c → x ≤ c + 1 := by
    constructor
    · intro hKeeps p x c hp hAfter
      obtain ⟨pre, src, d, hPre, rfl⟩ := hLift p x hp
      have hNow := hFollows pre ((List.prefix_append _ _).trans hPre)
      rw [hAfter] at hNow
      obtain ⟨⟨e, hEntry, hKey, hCounter⟩, hBound, _⟩ := hNow
      by_contra hAhead
      have hProcessed := hKeeps pre x src d hPre (mem_iff.mpr ⟨e, hEntry⟩) fun g hg => by
        have hLe := hBound g hg
        omega
      rw [handle_not_due hC hEntry hKey (by omega)] at hProcessed
      cases hProcessed
    · intro hNear pre seq src d hPre hLive hAhead
      have hNow := hFollows pre ((List.prefix_append _ _).trans hPre)
      have hEnabled : 1 ≤ seq := Machine.admissible_enabled hEs hPre
      cases hAfter : InOrder.after S.closes (seqs pre) with
      | none =>
        rw [hAfter] at hNow
        obtain ⟨e, hEntry⟩ := mem_iff.mp hLive
        rw [hNow] at hEntry
        cases hEntry
      | some c =>
        rw [hAfter] at hNow
        obtain ⟨⟨e, hEntry, hKey, hCounter⟩, _, hTop⟩ := hNow
        have hBelow : c < seq := by
          rcases hTop with hZero | hMem
          · omega
          · exact hAhead c hMem
        have hLe := hNear (seqs pre) seq c (hLower pre seq src d hPre) hAfter
        exact (handle_due src d hC hEntry hKey (by omega)).1
  rw [hStep, InOrder.keepsUp_iff]
  constructor
  · intro h pre seq src d hPre
    exact h (seqs pre) seq (hLower pre seq src d hPre)
  · intro h p x hp
    obtain ⟨pre, src, d, hPre, rfl⟩ := hLift p x hp
    exact h pre x src d hPre

/-- The session of device 2, whose client sends heartbeats. -/
def sampleSession : Session :=
  { sk := (sampleEntry 2 50 11 0 1 0).sk
    ekC := 50
    sent := fun _ => { msgType := msgHeartbeat, body := [] } }

def sampleUplink : Uplink := { srv := sampleOneSession, accepted := [] }

def sampleArrival (seq : Nat) : Arrival :=
  .frame seq sampleSrc { now := 5, routeNow := 5, random := (0, 1) }

theorem sampleUplink_init : (machine sampleServerEnv sampleSession).init sampleUplink :=
  ⟨rfl, _, sampleOneSession_entry 50, rfl, rfl⟩

/-- The first frame arrives twice, and then the second one. -/
theorem session_in_order_sample :
    KeepsUp sampleServerEnv sampleSession sampleUplink
      [sampleArrival 1, sampleArrival 1, sampleArrival 2] := by
  have hEs : Machine.Admissible (machine sampleServerEnv sampleSession) (fun _ _ => True) sampleUplink
      [sampleArrival 1, sampleArrival 1, sampleArrival 2] :=
    ⟨Nat.le_refl 1, trivial, Nat.le_refl 1, trivial, Nat.le_succ 1, trivial, trivial⟩
  refine (session_in_order_iff sampleCrypto_lawful sampleUplink_init hEs).mpr ?_
  intro pre seq src d hPre _
  have hCases : pre = [] ∧ seq = 1 ∨ pre = [sampleArrival 1] ∧ seq = 1 ∨
      pre = [sampleArrival 1, sampleArrival 1] ∧ seq = 2 := by
    match pre, hPre with
    | [], hPre =>
      obtain ⟨_, h⟩ := hPre
      cases h
      exact .inl ⟨rfl, rfl⟩
    | [a], hPre =>
      obtain ⟨_, h⟩ := hPre
      cases h
      exact .inr (.inl ⟨rfl, rfl⟩)
    | [a, b], hPre =>
      obtain ⟨_, h⟩ := hPre
      cases h
      exact .inr (.inr ⟨rfl, rfl⟩)
    | a :: b :: c :: pre, hPre =>
      have hLength := hPre.length_le
      simp only [List.length_append, List.length_cons, List.length_nil] at hLength
      omega
  rcases hCases with ⟨rfl, rfl⟩ | ⟨rfl, rfl⟩ | ⟨rfl, rfl⟩
  · decide
  · decide
  · decide

/-- The first frame is lost, and the second one is refused. -/
theorem session_in_order_fails :
    ¬ KeepsUp sampleServerEnv sampleSession sampleUplink [sampleArrival 2] := by
  intro hKeeps
  have hProcessed := hKeeps [] 2 sampleSrc { now := 5, routeNow := 5, random := (0, 1) }
    (List.prefix_refl _) (mem_iff.mpr ⟨_, sampleOneSession_entry 50⟩) fun g hg => by cases hg
  rw [Machine.run_nil, handle_not_due sampleCrypto_lawful
    (sampleOneSession_entry 50) rfl (by decide)] at hProcessed
  cases hProcessed

end Uplink

end LinkMesh
