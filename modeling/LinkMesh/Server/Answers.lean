import LinkMesh.Pair.Names
import LinkMesh.Server.AtMostOnce
import LinkMesh.Wire.RoundTrip

/-!
# Answers fit the wire

What REGISTER, HEARTBEAT, QUERY and the certificates of AUTH bring in travels
through the session table and the route table into responses and NOTIFY
messages (`linkmesh-server/src/signaling.rs`). Each slot that a text is read
from is no wider than the slots it is written to, an endpoint is a socket
address, and the error texts leave room for what they quote.

## Results

* `session_answers_encode` — with any interleaving of the workers, the answer to
  a request that decodes is encoded, and so is the NOTIFY about any identity.
-/

namespace LinkMesh

open Std KeyMap

variable {Ct : Type}

-- ---------------------------------------------------------------------------
-- Texts of the standard library
-- ---------------------------------------------------------------------------

/-- The address of a source: four octets, or eight segments. -/
def SourceAddr.addr (src : SourceAddr) : IpAddr.Addr :=
  let octet := fun i => (src.octets.getD i 0).toNat
  if src.octets.length = 4 then .v4 ((List.range 4).map octet)
  else .v6 ((List.range 8).map fun i => octet (2 * i) * 256 + octet (2 * i + 1))

/-- The texts that the server is given are those of the standard library: a
socket address, whose scope the source does not say, and a quoted `str`. -/
structure SignalingEnv.StdTexts (env : SignalingEnv Ct) : Prop where
  addr : ∀ src, ∃ scope < 2 ^ 32, env.addrText src = Display.socketText src.addr (src.port % 2 ^ 16) scope
  debug : ∃ plain, env.debugText = Display.debugText plain

theorem SourceAddr.addr_inRange (src : SourceAddr) : Display.InRange src.addr := by
  have hOctet : ∀ i, (src.octets.getD i 0).toNat < 256 := fun i => (src.octets.getD i 0).toNat_lt
  unfold SourceAddr.addr
  dsimp only
  split
  · refine ⟨rfl, fun octet hMem => ?_⟩
    obtain ⟨i, _, rfl⟩ := List.mem_map.mp hMem
    exact hOctet i
  · refine ⟨rfl, fun segment hMem => ?_⟩
    obtain ⟨i, _, rfl⟩ := List.mem_map.mp hMem
    have hHigh := hOctet (2 * i)
    have hLow := hOctet (2 * i + 1)
    omega

namespace SignalingEnv.StdTexts

variable {env : SignalingEnv Ct}

theorem endpoint_fits (h : env.StdTexts) (src : SourceAddr) : FitsText endpointLen (env.addrText src) := by
  obtain ⟨scope, hScope, hText⟩ := h.addr src
  rw [hText, fitsText_iff]
  exact (Display.socketText_within src.addr_inRange (Nat.mod_lt _ (by decide)) hScope).mono (by decide)

theorem debug_fits (h : env.StdTexts) {n : Nat} {s : String} (hFew : (utf8 s).length ≤ n) :
    FitsText (n * 6 + 2) (env.debugText s) := by
  obtain ⟨plain, hText⟩ := h.debug
  rw [utf8_length] at hFew
  rw [hText, fitsText_iff]
  exact Display.debugText_within plain hFew

end SignalingEnv.StdTexts

-- ---------------------------------------------------------------------------
-- Requests
-- ---------------------------------------------------------------------------

section

variable {env : SignalingEnv Ct} {v : SessionView} {msgType : Nat} {plaintext : Bytes} {s : Signaling}

/-- An alias that is accepted has no byte that is not a letter, a digit, `-` or `_`. -/
theorem validateAlias_fits {raw name : String} (h : validateAlias env raw = .ok name) :
    FitsText nameLen name := by
  unfold validateAlias at h
  dsimp only at h
  generalize env.toLowercase (trim raw) = text at h
  split at h
  · cases h
  · split at h
    · cases h
    · rename_i hFew
      split at h
      · cases h
      · rename_i hPlain
        cases h
        refine ⟨fun hZero => ?_, by unfold nameLen; omega⟩
        obtain ⟨c, hc, hNul⟩ := zero_mem_utf8.mp hZero
        rw [Bool.not_eq_true', Bool.not_eq_false] at hPlain
        have hChar := List.all_eq_true.mp hPlain c hc
        have hEq : c = Char.ofNat 0 := Char.toNat_inj.mp hNul
        rw [hEq] at hChar
        exact absurd hChar (by decide)

/-- The longest refusal quotes 32 bytes, each of them escaped by six. -/
theorem validateAlias_error_fits (hTexts : env.StdTexts) {raw e : String}
    (h : validateAlias env raw = .error e) : FitsText errLen e := by
  unfold validateAlias at h
  dsimp only at h
  generalize env.toLowercase (trim raw) = text at h
  split at h
  · cases h
    decide +kernel
  · split at h
    · cases h
      decide +kernel
    · rename_i hFew
      split at h
      · cases h
        have hHead : FitsText 7 "别名 " := by decide +kernel
        have hTail : FitsText 55 " 非法：只能包含小写字母、数字、- 与 _" := by decide +kernel
        have hQuoted := hTexts.debug_fits (n := 32) (s := text) (by omega)
        exact ((hHead.append hQuoted).append hTail).mono (by decide)
      · cases h

theorem normalizeSelfAlias_fits {raw aliasName : Option String}
    (h : normalizeSelfAlias env raw = .ok aliasName) : FitsOptText nameLen aliasName := by
  unfold normalizeSelfAlias at h
  split at h
  · split at h
    · obtain ⟨name, hName, rfl⟩ := Record.map_eq_ok.mp h
      intro text hText
      cases hText
      exact validateAlias_fits hName
    · cases h
      exact fun _ hNone => nomatch hNone
  · cases h
    exact fun _ hNone => nomatch hNone

theorem normalizeSelfAlias_error_fits (hTexts : env.StdTexts) {raw : Option String} {e : String}
    (h : normalizeSelfAlias env raw = .error e) : FitsText errLen e := by
  unfold normalizeSelfAlias at h
  split at h
  · rename_i a
    split at h
    · cases hAlias : validateAlias env a with
      | error e' =>
        rw [hAlias] at h
        cases h
        exact validateAlias_error_fits hTexts hAlias
      | ok name =>
        rw [hAlias] at h
        cases h
    · cases h
  · cases h

/-- What a request carries fits where it goes. -/
def RequestPlan.FitsWire : RequestPlan → Prop
  | .refuse msg => FitsText errLen msg
  | .register relayRk aliasName => FitsOptB64 32 relayRk ∧ FitsOptText nameLen aliasName
  | .query qb => qb.FitsWire
  | _ => True

theorem planRequest_fits (hTexts : env.StdTexts) (hIp : FitsText ipLen v.ip) :
    (planRequest env v msgType plaintext).FitsWire := by
  unfold planRequest
  split
  · cases hBody : decodeRegister plaintext with
    | error e => trivial
    | ok rb =>
      obtain ⟨hOwn, hRk, _, _⟩ := decodeRegister_fits hBody
      dsimp only
      split
      · have hHead : FitsText 10 "虚拟 IP " := by decide +kernel
        have hMiddle : FitsText 50 " 与证书绑定不符（应注册 " := by decide +kernel
        have hTail : FitsText 50 "），拒绝注册" := by decide +kernel
        exact ((((hHead.append hOwn).append hMiddle).append hIp).append hTail).mono (by decide)
      · cases hAlias : normalizeSelfAlias env rb.aliasName with
        | error e => exact normalizeSelfAlias_error_fits hTexts hAlias
        | ok aliasName => exact ⟨hRk, normalizeSelfAlias_fits hAlias⟩
  · split
    · trivial
    · split
      · trivial
      · split
        · cases hBody : decodeQuery plaintext with
          | error e => trivial
          | ok qb => exact decodeQuery_fits hBody
        · trivial

/-- The request decodes; only REGISTER and QUERY have a body. -/
def Decodes (msgType : Nat) (plaintext : Bytes) : Prop :=
  (msgType = msgRegister → ∃ rb, decodeRegister plaintext = .ok rb) ∧
    (msgType = msgQuery → ∃ qb, decodeQuery plaintext = .ok qb)

theorem planRequest_ne_fail (h : Decodes msgType plaintext) (msg : String) :
    planRequest env v msgType plaintext ≠ .fail msg := by
  unfold planRequest
  split
  · rename_i hKind
    obtain ⟨rb, hBody⟩ := h.1 hKind
    rw [hBody]
    dsimp only
    split
    · nofun
    · split
      · nofun
      · nofun
  · split
    · nofun
    · split
      · nofun
      · split
        · rename_i hKind
          obtain ⟨qb, hBody⟩ := h.2 hKind
          rw [hBody]
          nofun
        · nofun

end

-- ---------------------------------------------------------------------------
-- Answers
-- ---------------------------------------------------------------------------

/-- The slots of a response and of a NOTIFY take the texts of the route. -/
structure RouteEntry.FitsWire (e : RouteEntry) : Prop where
  ip : FitsText ipLen e.ip
  endpoint : FitsText endpointLen e.endpoint
  relayRk : FitsOptB64 32 e.relayRk
  aliasName : FitsOptText nameLen e.aliasName

/-- The answer, if there is one, is built and fits. -/
def Answer.FitsWire : Answer → Prop
  | .failed _ => True
  | .refused msg => FitsText errLen msg
  | .reply body => body.Built ∧ body.FitsWire

theorem queryAnswer_fits {qb : QueryBody} {target : Option RouteEntry} (hQuery : qb.FitsWire)
    (hTarget : ∀ e, target = some e → e.FitsWire) : (Answer.reply (queryAnswer qb target)).FitsWire := by
  have hReq : FitsText nameLen (qb.name.getD qb.ip) := by
    cases hName : qb.name with
    | none => exact hQuery.1.mono (by decide)
    | some name => exact hQuery.2 name hName
  unfold queryAnswer
  cases target with
  | none =>
    have hHead : FitsText 7 "目标 " := by decide +kernel
    have hTail : FitsText 10 " 未上线" := by decide +kernel
    have hError : FitsText errLen s!"目标 {qb.name.getD qb.ip} 未上线" :=
      ((hHead.append hReq).append hTail).mono (by decide)
    refine ⟨.miss _ _, fun e he => ?_, hReq, hError⟩
    cases he
    exact hError
  | some e =>
    have hEntry := hTarget e rfl
    have hAlias : FitsText nameLen ((qb.name.or e.aliasName).getD "") := by
      cases hName : qb.name with
      | some name => exact hQuery.2 name hName
      | none =>
        cases hOwn : e.aliasName with
        | some name => exact hEntry.aliasName name hOwn
        | none => decide +kernel
    have hKey : FitsB64 32 (keyB64 (keyBytes e.publicKey)) := fitsB64_keyB64 (keyBytes_length _)
    have hNone : ∀ error, none = some error → FitsText errLen error := nofun
    refine ⟨.okWithData _ fun _ _ => nofun, ?_⟩
    exact ⟨hNone, hReq, hEntry.ip, hKey, hEntry.endpoint, hEntry.relayRk, hAlias⟩

theorem sealAnswer_of_fits {env : SignalingEnv Ct} {v : SessionView} {answer : Answer} {random : Nonce}
    (h : answer.FitsWire) (hAnswer : ∀ msg, answer ≠ .failed msg) :
    ∃ body payload, sealAnswer env v random answer = .answered body payload := by
  cases answer with
  | failed msg => exact absurd rfl (hAnswer msg)
  | refused msg =>
    have hFits : (ResponseBody.err msg).FitsWire := by
      refine ⟨fun e he => ?_, trivial⟩
      cases he
      exact h
    obtain ⟨bytes, hBytes⟩ := (ResponseBody.encode_ok_iff (.err msg)).mpr hFits
    unfold sealAnswer
    dsimp only
    rw [hBytes]
    exact ⟨_, _, rfl⟩
  | reply body =>
    obtain ⟨bytes, hBytes⟩ := (ResponseBody.encode_ok_iff h.1).mpr h.2
    unfold sealAnswer
    dsimp only
    rw [hBytes]
    exact ⟨_, _, rfl⟩

-- ---------------------------------------------------------------------------
-- The tables
-- ---------------------------------------------------------------------------

namespace Signaling

variable {env : SignalingEnv Ct} {s : Signaling} {v : SessionView} {src : SourceAddr} {now : Nat}
  {sender : RawKey} {plan : RequestPlan}

/-- The texts in the tables of sessions and routes fit the wire. -/
structure FitsWire (s : Signaling) : Prop where
  sessions : ∀ (k : RawKey) e, s.sessions[k]? = some e → FitsText ipLen e.ip
  routes : s.routes.All RouteEntry.FitsWire

theorem queryTarget_fits (h : s.routes.All RouteEntry.FitsWire) {ip : Option String} {e : RouteEntry}
    (hTarget : s.queryTarget v ip = some e) : e.FitsWire := by
  obtain ⟨hFound, _⟩ := Option.filter_eq_some_iff.mp hTarget
  obtain ⟨ip, _, hByIp⟩ := Option.bind_eq_some_iff.mp hFound
  obtain ⟨k, _, hEntry⟩ := Option.bind_eq_some_iff.mp hByIp
  exact h k e hEntry

theorem registerEntry_fits (hTexts : env.StdTexts) (hIp : FitsText ipLen v.ip)
    {relayRk aliasName : Option String} (hPlan : (RequestPlan.register relayRk aliasName).FitsWire) :
    (registerEntry env v src now relayRk aliasName).FitsWire :=
  ⟨hIp, hTexts.endpoint_fits src, hPlan.1, hPlan.2⟩

theorem heartbeatRoute_fits (hTexts : env.StdTexts) (h : s.routes.All RouteEntry.FitsWire) :
    (s.heartbeatRoute env v src now).routes.All RouteEntry.FitsWire := by
  unfold heartbeatRoute
  split
  · rename_i old hOld
    have hFits := h v.ikX old hOld
    exact h.upsert ⟨hFits.ip, hTexts.endpoint_fits src, hFits.relayRk, hFits.aliasName⟩
  · exact h

theorem refreshRoute_fits (h : s.routes.All RouteEntry.FitsWire) {srcKey : RawKey} :
    (s.refreshRoute srcKey now).routes.All RouteEntry.FitsWire := by
  unfold refreshRoute
  split
  · rename_i old hOld
    have hFits := h srcKey old hOld
    exact h.upsert ⟨hFits.ip, hFits.endpoint, hFits.relayRk, hFits.aliasName⟩
  · exact h

/-- What a request stores and what it is answered with. -/
theorem execute_fits (hTexts : env.StdTexts) (h : s.routes.All RouteEntry.FitsWire)
    (hIp : FitsText ipLen v.ip) (hPlan : plan.FitsWire) :
    (s.execute env sender v src now plan).1.routes.All RouteEntry.FitsWire ∧
      (s.execute env sender v src now plan).2.FitsWire := by
  have hOk : (Answer.reply .okEmpty).FitsWire := ⟨.okEmpty, nofun, trivial⟩
  cases plan with
  | fail msg => exact ⟨h, trivial⟩
  | refuse msg => exact ⟨h, hPlan⟩
  | register relayRk aliasName => exact ⟨h.upsert (registerEntry_fits hTexts hIp hPlan), hOk⟩
  | heartbeat => exact ⟨heartbeatRoute_fits hTexts h, hOk⟩
  | bye => exact ⟨h.remove, hOk⟩
  | query qb => exact ⟨h, queryAnswer_fits hPlan fun e hTarget => queryTarget_fits h hTarget⟩
  | unsupported =>
    refine ⟨h, .err _, fun e he => ?_, trivial⟩
    cases he
    decide +kernel

/-- The NOTIFY about an identity, whether it has a route or not. -/
theorem notifyPeer_encodes (hTexts : env.StdTexts) (h : s.routes.All RouteEntry.FitsWire) (key : RawKey)
    (src : SourceAddr) : ∃ bytes, encodeNotify { peer := s.notifyPeer env key src } = .ok bytes := by
  refine (isCodec_notify.fits.trans notifyRecord_fits).mpr ?_
  have hKey : FitsB64 32 (keyB64 (keyBytes key)) := fitsB64_keyB64 (keyBytes_length key)
  unfold notifyPeer
  cases hInfo : s.routes.get key with
  | none => exact ⟨hKey, hTexts.endpoint_fits src, nofun, nofun, nofun⟩
  | some e =>
    have hEntry := h key e hInfo
    refine ⟨hKey, hTexts.endpoint_fits src, hEntry.relayRk, hEntry.aliasName, fun ip hIp => ?_⟩
    cases hIp
    exact hEntry.ip

/-- A request that decodes is answered, whatever it asks for. -/
theorem handleSession_answers (hTexts : env.StdTexts) (h : s.FitsWire) {f : SignalFrame Ct}
    {d : RequestDraw} {e : SessionEntry} {plaintext : Bytes} (hEntry : s.sessions[f.sender]? = some e)
    (hOpen : e.view.openFrame env f.payload = some plaintext) (hDecodes : Decodes f.msgType plaintext) :
    ∃ body payload, (s.handleSession env f src d).2 = .answered body payload := by
  have hIp : FitsText ipLen e.view.ip := h.sessions f.sender e hEntry
  rw [handleSession_opened hEntry hOpen]
  have hRoutes : (s.commitCounter f.sender e.view.nextSeq d.now).routes.All RouteEntry.FitsWire := by
    rw [commitCounter_routes]
    exact h.routes
  refine sealAnswer_of_fits (execute_fits hTexts hRoutes hIp (planRequest_fits hTexts hIp)).2 fun msg => ?_
  have hPlan : planRequest env e.view f.msgType plaintext ≠ .fail msg := planRequest_ne_fail hDecodes msg
  generalize planRequest env e.view f.msgType plaintext = plan at hPlan
  cases plan with
  | fail msg' => exact fun hFailed => hPlan (congrArg RequestPlan.fail (Answer.failed.inj hFailed))
  | _ => nofun

end Signaling

-- ---------------------------------------------------------------------------
-- Runs
-- ---------------------------------------------------------------------------

/-- What a worker has read of its session and of its request fits the wire. -/
def Task.FitsWire : Task Ct → Prop
  | .opened _ _ v _ => FitsText ipLen v.ip
  | .committed _ _ v plan => FitsText ipLen v.ip ∧ plan.FitsWire
  | .searching _ qb _ => qb.FitsWire
  | .resolved _ qb _ => qb.FitsWire
  | .answering _ answer => answer.FitsWire
  | _ => True

theorem Task.step_fits {env : SignalingEnv Ct} (hTexts : env.StdTexts) {srv : Signaling} {now : Nat}
    {t : Task Ct} (hSrv : srv.FitsWire) (hTask : t.FitsWire) :
    (t.step env srv now).1.routes.All RouteEntry.FitsWire ∧ (t.step env srv now).2.FitsWire := by
  cases t with
  | idle => exact ⟨hSrv.routes, trivial⟩
  | relaying srcKey => exact ⟨Signaling.refreshRoute_fits hSrv.routes, trivial⟩
  | dispatched f src =>
    rcases dispatched_cases env srv now f src with hEq | ⟨e, plaintext, hEntry, _, hEq⟩
    · rw [hEq]
      exact ⟨hSrv.routes, trivial⟩
    · rw [hEq]
      exact ⟨hSrv.routes, hSrv.sessions f.sender e hEntry⟩
  | opened f src v plaintext =>
    refine ⟨?_, hTask, planRequest_fits hTexts hTask⟩
    show (srv.commitCounter f.sender v.nextSeq now).routes.All RouteEntry.FitsWire
    rw [Signaling.commitCounter_routes]
    exact hSrv.routes
  | committed sender src v plan =>
    cases plan with
    | bye => exact ⟨hSrv.routes.remove, trivial⟩
    | query qb =>
      refine ⟨hSrv.routes, ?_⟩
      show (lookup env srv v qb : Task Ct).FitsWire
      rcases lookup_cases env srv v qb with ⟨ip, hEq⟩ | ⟨name, hEq⟩
      · rw [hEq]
        exact hTask.2
      · rw [hEq]
        exact hTask.2
    | fail | refuse | register | heartbeat | unsupported =>
      exact Signaling.execute_fits hTexts hSrv.routes hTask.1 hTask.2
  | unrouted sender v => exact ⟨hSrv.routes, trivial⟩
  | left v => exact ⟨hSrv.routes, .okEmpty, nofun, trivial⟩
  | searching v qb name => exact ⟨hSrv.routes, hTask⟩
  | resolved v qb ip =>
    exact ⟨hSrv.routes, queryAnswer_fits hTask fun e hTarget => Signaling.queryTarget_fits hSrv.routes hTarget⟩
  | answering v answer => exact ⟨hSrv.routes, trivial⟩

theorem Revocation.step_all {P : RouteEntry → Prop} {srv : Signaling} (r : Revocation)
    (h : srv.routes.All P) : (r.step srv).1.routes.All P := by
  match r with
  | .idle => exact h
  | .listed deviceId => exact h
  | .kicked deviceId keys => exact h
  | .clearing deviceId (key :: keys) => exact h.remove
  | .clearing deviceId [] => exact h

theorem Cleaner.step_all {P : RouteEntry → Prop} {env : SignalingEnv Ct} {srv : Signaling} {clock : Nat}
    (c : Cleaner) (h : srv.routes.All P) : (c.step env srv clock).1.routes.All P := by
  match c with
  | .idle => exact h
  | .started now => exact h.foldl_remove _
  | .routesCleaned now => exact h
  | .pruned now => exact h
  | .sweeping now (key :: keys) =>
    unfold Cleaner.step
    dsimp only
    split
    · exact h
    · exact h
  | .sweeping now [] => exact h
  | .unseating now ikX keys => exact h.remove

/-- The view is that of a request that was carried out and does not decode. -/
def Undecoded (env : SignalingEnv Ct) (executed : List (Execution Ct)) (v : SessionView) : Prop :=
  ∃ x ∈ executed, x.sk = v.sk ∧ x.seq = v.nextSeq ∧ ∃ plaintext,
    v.openFrame env x.frame.payload = some plaintext ∧ ¬ Decodes x.frame.msgType plaintext

/-- What a worker has opened it has opened, and it fails for a request that does
not decode. -/
def Task.Accounts (env : SignalingEnv Ct) (executed : List (Execution Ct)) : Task Ct → Prop
  | .opened f _ v plaintext => v.openFrame env f.payload = some plaintext
  | .committed _ _ v (.fail _) => Undecoded env executed v
  | .answering v (.failed _) => Undecoded env executed v
  | _ => True

theorem Undecoded.mono {env : SignalingEnv Ct} {executed executed' : List (Execution Ct)} {v : SessionView}
    (h : Undecoded env executed v) (hMore : executed ⊆ executed') : Undecoded env executed' v := by
  obtain ⟨x, hx, hRest⟩ := h
  exact ⟨x, hMore hx, hRest⟩

theorem Task.Accounts.mono {env : SignalingEnv Ct} {executed executed' : List (Execution Ct)} {t : Task Ct}
    (h : t.Accounts env executed) (hMore : executed ⊆ executed') : t.Accounts env executed' := by
  cases t with
  | opened f src v plaintext => exact h
  | committed sender src v plan =>
    cases plan with
    | fail msg => exact Undecoded.mono h hMore
    | _ => trivial
  | answering v answer =>
    cases answer with
    | failed msg => exact Undecoded.mono h hMore
    | _ => trivial
  | _ => trivial

theorem Task.step_accounts {env : SignalingEnv Ct} {srv : Signaling} {now : Nat}
    {executed : List (Execution Ct)} {t : Task Ct} (h : t.Accounts env executed) :
    (t.step env srv now).2.Accounts env (executed ++ t.executes) := by
  cases t with
  | dispatched f src =>
    rcases dispatched_cases env srv now f src with hEq | ⟨e, plaintext, _, hOpen, hEq⟩
    · rw [hEq]
      trivial
    · rw [hEq]
      exact hOpen
  | opened f src v plaintext =>
    show (Task.committed f.sender src v (planRequest env v f.msgType plaintext) : Task Ct).Accounts env _
    cases hPlan : planRequest env v f.msgType plaintext with
    | fail msg =>
      have hNot : ¬ Decodes f.msgType plaintext := fun hDecodes => planRequest_ne_fail hDecodes msg hPlan
      exact ⟨_, List.mem_append_right _ (List.mem_singleton_self _), rfl, rfl, plaintext, h, hNot⟩
    | _ => trivial
  | committed sender src v plan =>
    cases plan with
    | fail msg => exact Undecoded.mono h (List.subset_append_left _ _)
    | query qb =>
      show (lookup env srv v qb : Task Ct).Accounts env _
      rcases lookup_cases env srv v qb with ⟨ip, hEq⟩ | ⟨name, hEq⟩
      · rw [hEq]
        trivial
      · rw [hEq]
        trivial
    | _ => trivial
  | _ => trivial

namespace Workers

variable {env : SignalingEnv Ct} {n : Nat} {s : Workers Ct} {ev : WorkerEvent Ct}

/-- The texts of the tables, and those that the workers have in hand, fit the wire. -/
structure FitsWire (s : Workers Ct) : Prop where
  srv : s.srv.FitsWire
  tasks : ∀ w, (s.tasks w).FitsWire

/-- The IP of a session is that of a certificate, which was decoded. -/
theorem next_sessions_fit (h : s.FitsWire) {k : RawKey} {e : SessionEntry}
    (hEntry : (s.next env n ev).srv.sessions[k]? = some e) : FitsText ipLen e.ip := by
  cases next_sessions hEntry with
  | kept hOld => exact h.srv.sessions k e hOld
  | committed _ _ _ hOld hEq =>
    have hIp := h.srv.sessions k _ hOld
    rw [hEq]
    exact hIp
  | registered _ hAccepted _ =>
    obtain ⟨_, ab, room, nonce, ekC, hCarries, _, hEq, _⟩ := Signaling.accepts_iff.mp hAccepted
    obtain ⟨plaintext, _, hBody⟩ := hCarries.body
    obtain ⟨_, hCert, _⟩ := decodeAuth_fits hBody
    rw [hEq]
    exact hCert.2.2.2.2.1

theorem next_routes_fit (hTexts : env.StdTexts) (h : s.FitsWire) :
    (s.next env n ev).srv.routes.All RouteEntry.FitsWire := by
  cases ev with
  | receive f src d =>
    unfold next
    dsimp only
    split
    · exact h.srv.routes
    · rename_i hHandshake
      show (s.srv.handleSignaling env f src d).1.routes.All RouteEntry.FitsWire
      rcases (Signaling.handleSignaling_handshake env src d hHandshake).routes with hEq | ⟨_, _, hEq⟩
      · rw [hEq]
        exact h.srv.routes
      · rw [hEq]
        exact h.srv.routes.remove
  | relay srcKey src =>
    obtain ⟨tasks, hEq⟩ := next_relay_frame env n s srcKey src
    rw [hEq]
    exact h.srv.routes
  | work w random => exact (Task.step_fits hTexts h.srv (h.tasks w)).1
  | proceed c => exact (s.control c).step_all h.srv.routes
  | clean => exact s.cleaner.step_all h.srv.routes
  | delPeer key => exact h.srv.routes.remove
  | tick => exact h.srv.routes
  | revoke => exact h.srv.routes
  | administer => exact h.srv.routes

theorem fitsWire_next (hTexts : env.StdTexts) (h : s.FitsWire) : (s.next env n ev).FitsWire where
  srv := ⟨fun _ _ hEntry => next_sessions_fit h hEntry, next_routes_fit hTexts h⟩
  tasks w := by
    have hOrigin := next_tasks env n s ev w
    generalize (s.next env n ev).tasks w = t at hOrigin ⊢
    cases hOrigin with
    | kept => exact h.tasks w
    | dispatched => trivial
    | relaying => trivial
    | stepped => exact (Task.step_fits hTexts h.srv (h.tasks w)).2

theorem fitsWire_reach (hTexts : env.StdTexts) (h : (machine env n).Reach (fun _ _ => True) s) : s.FitsWire := by
  refine h.invariant (I := FitsWire) (fun s hInit => ?_) fun s ev hInv _ _ => fitsWire_next hTexts hInv
  obtain ⟨clock, mesh, rooms, aliases, rfl⟩ := hInit
  refine ⟨⟨fun k e hEntry => ?_, fun k e hEntry => ?_⟩, fun _ => trivial⟩
  · rw [start, Signaling.start, ExtTreeMap.getElem?_empty] at hEntry
    cases hEntry
  · rw [start, Signaling.start, ExtTreeMap.getElem?_empty] at hEntry
    cases hEntry

theorem accounts_next (h : ∀ w, (s.tasks w).Accounts env s.executed) (w : Nat) :
    ((s.next env n ev).tasks w).Accounts env (s.next env n ev).executed := by
  have hOrigin := next_tasks env n s ev w
  have hMore : s.executed ⊆ (s.next env n ev).executed := by
    rw [next_executed]
    exact List.subset_append_left _ _
  generalize (s.next env n ev).tasks w = t at hOrigin ⊢
  cases hOrigin with
  | kept => exact (h w).mono hMore
  | dispatched => trivial
  | relaying => trivial
  | stepped hEv =>
    subst hEv
    exact Task.step_accounts (h w)

theorem accounts_reach (h : (machine env n).Reach (fun _ _ => True) s) (w : Nat) :
    (s.tasks w).Accounts env s.executed := by
  refine h.invariant (I := fun s => ∀ w, (s.tasks w).Accounts env s.executed) (fun s hInit => ?_)
    (fun s ev hInv _ _ => accounts_next hInv) w
  obtain ⟨clock, mesh, rooms, aliases, rfl⟩ := hInit
  exact fun _ => trivial

/-- Nothing that the server sends in a session fails to encode. -/
structure AnswersEncode (env : SignalingEnv Ct) (s : Workers Ct) : Prop where
  /-- a worker seals its answer, whatever has run since it took the request -/
  sealed : ∀ w v answer random, s.tasks w = .answering v answer → (∀ msg, answer ≠ .failed msg) →
    ∃ body payload, sealAnswer env v random answer = .answered body payload
  /-- and has none for a request that does not decode only -/
  failed : ∀ w v msg, s.tasks w = .answering v (.failed msg) → Undecoded env s.executed v
  /-- a request that decodes is answered -/
  answered : ∀ (f : SignalFrame Ct) src d e plaintext, s.srv.sessions[f.sender]? = some e →
    e.view.openFrame env f.payload = some plaintext → Decodes f.msgType plaintext →
    ∃ body payload, (s.srv.handleSession env f src d).2 = .answered body payload
  /-- and the device that it asks for is told of the querier -/
  notified : ∀ key src, ∃ bytes, encodeNotify { peer := s.srv.notifyPeer env key src } = .ok bytes

/-- **Session answers always encode.** In every state that the server reaches,
with any interleaving of its workers and any tables of the administrator, the
answer to a request that decodes fits the wire, and so does the NOTIFY about any
identity from any source. -/
theorem session_answers_encode (hTexts : env.StdTexts) (h : (machine env n).Reach (fun _ _ => True) s) :
    s.AnswersEncode env := by
  have hFits := fitsWire_reach hTexts h
  refine ⟨fun w v answer random hTask hAnswer => ?_, fun w v msg hTask => ?_,
    fun f src d e plaintext hEntry hOpen hDecodes => ?_, fun key src => ?_⟩
  · have hAnswering := hFits.tasks w
    rw [hTask] at hAnswering
    exact sealAnswer_of_fits hAnswering hAnswer
  · have hAccounts := accounts_reach h w
    rw [hTask] at hAccounts
    exact hAccounts
  · exact Signaling.handleSession_answers hTexts hFits.srv hEntry hOpen hDecodes
  · exact Signaling.notifyPeer_encodes hTexts hFits.srv.routes key src

/-- The sample server, with the texts of the standard library. -/
def sampleTextEnv : SignalingEnv (RawKey × Nonce × Bytes) :=
  { sampleServerEnv with
    debugText := Display.debugText Char.isAlphanum
    addrText := fun src => Display.socketText src.addr (src.port % 2 ^ 16) 0 }

theorem sampleTextEnv_stdTexts : sampleTextEnv.StdTexts :=
  ⟨fun _ => ⟨0, by decide, rfl⟩, ⟨Char.isAlphanum, rfl⟩⟩

/-- Device 2 has authenticated. -/
theorem session_answers_encode_sample : ∃ s : Workers (RawKey × Nonce × Bytes),
    s.srv.sessions[(50 : RawKey)]?.map (·.ip) = some "10.13.13.2" ∧ s.AnswersEncode sampleTextEnv := by
  have hCarries : Signaling.CarriesAuth sampleTextEnv (sampleAuthFrame 2 50 0 1) (sampleAuth 2 50 0 1) := by
    have hSample := sampleAuthFrame_carries 50 1 (.inl rfl) (show 0 < 256 ^ 8 by decide)
    exact ⟨hSample.kind, hSample.body⟩
  have hAdmits : Signaling.Admits sampleTextEnv (Signaling.start sampleMesh [] ∅) 2 (sampleAuth 2 50 0 1) sampleSrc
      (sampleAuthDraw 0 11) "default" (Layout.beBytes 12 1) 50 := by
    have hSample : Signaling.Admits sampleServerEnv (Signaling.start sampleMesh [] ∅) 2 (sampleAuth 2 50 0 1)
        sampleSrc (sampleAuthDraw 0 11) "default" (Layout.beBytes 12 1) 50 :=
      Signaling.sampleAuth_admits rfl rfl (.inl rfl) (by decide) (Nat.zero_le _) (by decide +kernel) (by decide)
    exact ⟨hSample.rate, hSample.room, hSample.checks, hSample.fresh, hSample.ekC⟩
  have hStart : (machine sampleTextEnv 2).Reach (fun _ _ => True) (start 0 sampleMesh [] ∅) :=
    .init ⟨0, sampleMesh, [], ∅, rfl⟩
  have hReach := reach_auth (d := sampleSignalDraw 0 11) hStart rfl hCarries ExtTreeMap.not_mem_empty hAdmits
    (fun q hq => absurd hq List.not_mem_nil) trivial
  refine ⟨_, ?_, session_answers_encode sampleTextEnv_stdTexts hReach⟩
  have hIp : (sampleCert 2).allowedIp = "10.13.13.2" := by decide +kernel
  rw [Signaling.afterAuth_sessions, ← hIp]
  refine congrArg (Option.map (·.ip)) (Signaling.register_self ?_)
  rfl

end Workers

end LinkMesh
