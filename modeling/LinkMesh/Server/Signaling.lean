import LinkMesh.Server.Join

/-!
# Session signaling

`handle_session_signaling` and the dispatch in `handle_signaling`
(`linkmesh-server/src/signaling.rs`), section by section: each definition is
what the source does under one lock or between two locks. Here a call runs
its sections without a break.

The NOTIFY that a query sends to the queried peer changes no table and is left
out, and so are logs and counters.

## Results

* `handleSession_cases` — what a session request can do to the server.
-/

namespace LinkMesh

open Std KeyMap

variable {Ct : Type}

-- ---------------------------------------------------------------------------
-- Opening a frame
-- ---------------------------------------------------------------------------

/-- What the handler reads of the session under the first lock. -/
structure SessionView where
  sk : RawKey
  ikX : RawKey
  ip : String
  nextSeq : Nat
  deviceId : String
  room : String
  deriving DecidableEq, Repr

def SessionEntry.view (e : SessionEntry) : SessionView :=
  { sk := e.sk, ikX := e.ikX, ip := e.ip, nextSeq := e.counterRx + 1, deviceId := e.deviceId,
    room := e.room }

/-- The frame must carry the counter that is due. -/
def SessionView.openFrame (env : SignalingEnv Ct) (v : SessionView) (payload : Ct) : Option Bytes :=
  env.crypto.decryptWithNonce v.sk (sessionNonce v.nextSeq 0) payload

namespace Signaling

/-- The counter moves on, under a lock of its own; the session may be gone. -/
def commitCounter (s : Signaling) (sender : RawKey) (seq now : Nat) : Signaling :=
  match s.sessions[sender]? with
  | some e => { s with sessions := s.sessions.insert sender { e with counterRx := seq, lastSeen := now } }
  | none => s

def removeRoute (s : Signaling) (key : RawKey) : Signaling := { s with routes := s.routes.remove key }

def removeSession (s : Signaling) (key : RawKey) : Signaling :=
  { s with sessions := s.sessions.erase key }

end Signaling

-- ---------------------------------------------------------------------------
-- Requests
-- ---------------------------------------------------------------------------

/-- What a request asks for, decided before any other table is locked. -/
inductive RequestPlan where
  /-- an error of the handler: no answer -/
  | fail (msg : String)
  /-- answered by `send_error` -/
  | refuse (msg : String)
  | register (relayRk aliasName : Option String)
  | heartbeat
  | bye
  | query (body : QueryBody)
  | unsupported
  deriving DecidableEq, Repr

/-- Decoding and the checks of REGISTER. Its room token is compared with the
room of the session for a log entry only. -/
def planRequest (env : SignalingEnv Ct) (v : SessionView) (msgType : Nat) (plaintext : Bytes) :
    RequestPlan :=
  if msgType = msgRegister then
    match decodeRegister plaintext with
    | .error e => .fail s!"注册消息格式错误: {e}"
    | .ok rb =>
      if rb.ip ≠ v.ip then .refuse s!"虚拟 IP {rb.ip} 与证书绑定不符（应注册 {v.ip}），拒绝注册"
      else
        match normalizeSelfAlias env rb.aliasName with
        | .error e => .refuse e
        | .ok aliasName => .register rb.relayRk aliasName
  else if msgType = msgHeartbeat then .heartbeat
  else if msgType = msgBye then .bye
  else if msgType = msgQuery then
    match decodeQuery plaintext with
    | .error e => .fail s!"查询消息格式错误: {e}"
    | .ok qb => .query qb
  else .unsupported

/-- The route that REGISTER stores. -/
def registerEntry (env : SignalingEnv Ct) (v : SessionView) (src : SourceAddr) (now : Nat)
    (relayRk aliasName : Option String) : RouteEntry :=
  { publicKey := v.ikX
    ip := v.ip
    endpoint := env.addrText src
    lastSeen := now
    relayRk := relayRk
    room := v.room
    aliasName := aliasName }

/-- HEARTBEAT refreshes the route of the identity, if there is one. -/
def heartbeatEntry (env : SignalingEnv Ct) (v : SessionView) (src : SourceAddr) (now : Nat)
    (e : RouteEntry) : RouteEntry :=
  { e with
    publicKey := v.ikX
    endpoint := env.addrText src
    lastSeen := now
    room := v.room }

namespace Signaling

def registerRoute (s : Signaling) (entry : RouteEntry) : Signaling :=
  { s with routes := s.routes.upsert entry }

def heartbeatRoute (env : SignalingEnv Ct) (s : Signaling) (v : SessionView) (src : SourceAddr)
    (now : Nat) : Signaling :=
  match s.routes.get v.ikX with
  | some e => s.registerRoute (heartbeatEntry env v src now e)
  | none => s

/-- Alias → virtual IP: aliases of the administrator, then those that devices
registered. -/
def resolveAlias (s : Signaling) (name : String) : Option String :=
  match s.aliases[name]? with
  | some ip => some ip
  | none => (s.routes.snapshot.find? (·.aliasName = some name)).map (·.ip)

/-- The IP a query is about. -/
def queryIp (env : SignalingEnv Ct) (s : Signaling) (qb : QueryBody) : Option String :=
  match qb.name with
  | some name =>
    let name := env.toLowercase (trim name)
    if name = "" then none else s.resolveAlias name
  | none => some qb.ip

/-- The route of the queried IP, in the same room. -/
def queryTarget (s : Signaling) (v : SessionView) (ip : Option String) : Option RouteEntry :=
  (ip.bind s.routes.getByIp).filter (·.room = v.room)

end Signaling

/-- The answer to a query. -/
def queryAnswer (qb : QueryBody) (target : Option RouteEntry) : ResponseBody :=
  let req := qb.name.getD qb.ip
  match target with
  | some e =>
    .okWithData (.queryHit req e.ip (keyB64 (keyBytes e.publicKey)) e.endpoint e.relayRk
      ((qb.name.or e.aliasName).getD ""))
  | none => .miss req s!"目标 {req} 未上线"

-- ---------------------------------------------------------------------------
-- Answers
-- ---------------------------------------------------------------------------

inductive Answer where
  | failed (msg : String)
  | refused (msg : String)
  | reply (body : ResponseBody)
  deriving DecidableEq, Repr

/-- How a session request ends. -/
inductive SessionOutcome (Ct : Type) where
  | unknownSession
  /-- wrong counter or key: no answer -/
  | notOpened
  /-- the handler fails after the counter has moved on: no answer -/
  | failed (msg : String)
  /-- a response datagram with what the server built it from -/
  | answered (body : ResponseBody) (payload : Ct)
  deriving DecidableEq, Repr

/-- Sealing of the answer: refusals under a random nonce, the others under the
counter of the request. -/
def sealAnswer (env : SignalingEnv Ct) (v : SessionView) (random : Nonce) :
    Answer → SessionOutcome Ct
  | .failed msg => .failed msg
  | .refused msg =>
    match encodeResponse (.err msg) with
    | .error e => .failed s!"序列化失败: {e}"
    | .ok pt => .answered (.err msg) (env.crypto.encryptWithNonce v.sk random pt)
  | .reply body =>
    match encodeResponse body with
    | .error e => .failed s!"响应序列化失败: {e}"
    | .ok pt =>
      .answered body (env.crypto.encryptWithNonce v.sk (sessionNonce v.nextSeq 1) pt)

-- ---------------------------------------------------------------------------
-- The handler
-- ---------------------------------------------------------------------------

/-- What a request reads besides its input: the clock, when the counter moves
on and when a route is stored, and the nonce that `crypto::encrypt` draws. -/
structure RequestDraw where
  now : Nat
  routeNow : Nat
  random : Nonce

namespace Signaling

/-- The request itself, after the counter has moved on. -/
def execute (env : SignalingEnv Ct) (s : Signaling) (sender : RawKey) (v : SessionView)
    (src : SourceAddr) (now : Nat) : RequestPlan → Signaling × Answer
  | .fail msg => (s, .failed msg)
  | .refuse msg => (s, .refused msg)
  | .register relayRk aliasName =>
    (s.registerRoute (registerEntry env v src now relayRk aliasName), .reply .okEmpty)
  | .heartbeat => (s.heartbeatRoute env v src now, .reply .okEmpty)
  | .bye => (((s.removeRoute v.ikX).removeSession sender).rebuildActiveIkX, .reply .okEmpty)
  | .query qb => (s, .reply (queryAnswer qb (s.queryTarget v (s.queryIp env qb))))
  | .unsupported => (s, .reply (.err "不支持的消息类型"))

/-- `handle_session_signaling` -/
def handleSession (env : SignalingEnv Ct) (s : Signaling) (f : SignalFrame Ct) (src : SourceAddr)
    (d : RequestDraw) : Signaling × SessionOutcome Ct :=
  match s.sessions[f.sender]? with
  | none => (s, .unknownSession)
  | some e =>
    match e.view.openFrame env f.payload with
    | none => (s, .notOpened)
    | some plaintext =>
      let s := s.commitCounter f.sender e.view.nextSeq d.now
      let (s, answer) :=
        s.execute env f.sender e.view src d.routeNow (planRequest env e.view f.msgType plaintext)
      (s, sealAnswer env e.view d.random answer)

end Signaling

-- ---------------------------------------------------------------------------
-- Dispatch
-- ---------------------------------------------------------------------------

/-- How a signaling datagram is treated. -/
inductive SignalOutcome (Ct : Type) where
  /-- answered with the signed server information -/
  | keyquery
  | session (outcome : SessionOutcome Ct)
  /-- does not open under the static shared secret -/
  | notOpened
  | malformed (msg : String)
  | join (outcome : JoinOutcome)
  | auth (outcome : AuthOutcome)
  | bye
  /-- refused with an error: not authenticated -/
  | unauthenticated
  deriving DecidableEq, Repr

structure SignalDraw where
  auth : AuthDraw
  request : RequestDraw
  join : JoinDraw

namespace Signaling

/-- `handle_signaling`. A datagram whose sender is the key of a session is a
session request, whatever its type. -/
def handleSignaling (env : SignalingEnv Ct) (s : Signaling) (f : SignalFrame Ct) (src : SourceAddr)
    (d : SignalDraw) : Signaling × SignalOutcome Ct :=
  if f.msgType = msgKeyquery then (s, .keyquery)
  else if f.sender ∈ s.sessions then
    let (s, outcome) := s.handleSession env f src d.request
    (s, .session outcome)
  else
    let shared := env.crypto.sharedSecret env.serverPriv f.sender
    match env.crypto.decrypt shared f.payload with
    | none => (s, .notOpened)
    | some plaintext =>
      if f.msgType = msgJoin then
        match decodeJoin plaintext with
        | .error e => (s, .malformed s!"JOIN 消息格式错误: {e}")
        | .ok jb =>
          let (s, outcome) := s.handleJoin env f.sender jb src d.join
          (s, .join outcome)
      else if f.msgType = msgAuth then
        match decodeAuth plaintext with
        | .error e => (s, .malformed s!"AUTH 消息格式错误: {e}")
        | .ok ab =>
          let (s, outcome) := s.handleAuth env f.sender ab src d.auth
          (s, .auth outcome)
      else if f.msgType = msgBye then (s.removeRoute f.sender, .bye)
      else (s, .unauthenticated)

-- ---------------------------------------------------------------------------
-- What a session request can do
-- ---------------------------------------------------------------------------

/-- REGISTER is refused with the message: another IP than the session's, or an
alias that is not allowed. -/
def RefusesRegister (env : SignalingEnv Ct) (v : SessionView) (msgType : Nat) (plaintext : Bytes)
    (msg : String) : Prop :=
  msgType = msgRegister ∧ ∃ rb, decodeRegister plaintext = .ok rb ∧
    (rb.ip ≠ v.ip ∧ msg = s!"虚拟 IP {rb.ip} 与证书绑定不符（应注册 {v.ip}），拒绝注册" ∨
      rb.ip = v.ip ∧ normalizeSelfAlias env rb.aliasName = .error msg)

variable {env : SignalingEnv Ct} {s : Signaling} {f : SignalFrame Ct} {src : SourceAddr}
  {sender : RawKey} {v : SessionView} {plan : RequestPlan} {now seq : Nat} {e : SessionEntry}

theorem planRequest_refuse_iff {msgType : Nat} {plaintext : Bytes} {msg : String} :
    planRequest env v msgType plaintext = .refuse msg ↔
      RefusesRegister env v msgType plaintext msg := by
  unfold planRequest RefusesRegister
  by_cases hKind : msgType = msgRegister
  · rw [if_pos hKind]
    cases hBody : decodeRegister plaintext with
    | error e => simp
    | ok rb =>
      simp only [hKind, true_and, Except.ok.injEq, exists_eq_left']
      by_cases hIp : rb.ip = v.ip
      · rw [if_neg (not_not_intro hIp)]
        cases hAlias : normalizeSelfAlias env rb.aliasName with
        | error e => simp [hIp]
        | ok a => simp [hIp]
      · rw [if_pos hIp]
        simp [hIp, eq_comm]
  · rw [if_neg hKind]
    simp only [hKind, false_and, iff_false]
    split
    · simp
    · split
      · simp
      · split
        · cases decodeQuery plaintext <;> simp
        · simp

/-- A route is registered with the relay key of the body. -/
theorem planRequest_register {msgType : Nat} {plaintext : Bytes} {relayRk aliasName : Option String}
    (h : planRequest env v msgType plaintext = .register relayRk aliasName) :
    msgType = msgRegister ∧ ∃ rb, decodeRegister plaintext = .ok rb ∧ rb.relayRk = relayRk ∧
      rb.ip = v.ip := by
  unfold planRequest at h
  split at h
  · rename_i hKind
    split at h
    · cases h
    · rename_i rb hBody
      split at h
      · cases h
      · rename_i hIp
        split at h
        · cases h
        · cases h
          exact ⟨hKind, rb, hBody, rfl, not_not.mp hIp⟩
  · split at h
    · cases h
    · split at h
      · cases h
      · split at h
        · split at h
          · cases h
          · cases h
        · cases h

theorem planRequest_bye_iff {msgType : Nat} {plaintext : Bytes} :
    planRequest env v msgType plaintext = .bye ↔ msgType = msgBye := by
  unfold planRequest
  by_cases hBye : msgType = msgBye
  · subst hBye
    rw [if_neg (by decide), if_neg (by decide), if_pos rfl]
    simp
  · simp only [hBye, iff_false, if_false]
    split
    · cases decodeRegister plaintext with
      | error e => simp
      | ok rb =>
        dsimp only
        split
        · simp
        · cases normalizeSelfAlias env rb.aliasName <;> simp
    · split
      · simp
      · split
        · cases decodeQuery plaintext <;> simp
        · simp

theorem commitCounter_getElem? {k : RawKey} :
    (s.commitCounter sender seq now).sessions[k]? =
      if k = sender then
        s.sessions[k]?.map fun e => { e with counterRx := seq, lastSeen := now }
      else s.sessions[k]? := by
  unfold commitCounter
  split
  · rename_i e hEntry
    show (s.sessions.insert sender _)[k]? = _
    rw [getElem?_insert]
    split
    · rename_i hKey
      rw [hKey, hEntry]
      rfl
    · rfl
  · rename_i hNone
    split
    · rename_i hKey
      rw [hKey, hNone]
      rfl
    · rfl

/-- Moving the counter changes one session and nothing else. -/
theorem commitCounter_frame (s : Signaling) (sender : RawKey) (seq now : Nat) :
    ∃ m, s.commitCounter sender seq now = { s with sessions := m } := by
  unfold commitCounter
  split
  · exact ⟨_, rfl⟩
  · exact ⟨_, rfl⟩

@[simp] theorem commitCounter_routes : (s.commitCounter sender seq now).routes = s.routes := by
  obtain ⟨m, hEq⟩ := commitCounter_frame s sender seq now
  rw [hEq]

/-- A request other than BYE changes routes at most. -/
theorem execute_frame (env : SignalingEnv Ct) (s : Signaling) (sender : RawKey) (v : SessionView)
    (src : SourceAddr) (now : Nat) (h : plan ≠ .bye) :
    ∃ r, (s.execute env sender v src now plan).1 = { s with routes := r } := by
  cases plan with
  | bye => exact absurd rfl h
  | heartbeat =>
    unfold execute heartbeatRoute
    dsimp only
    split
    · exact ⟨_, rfl⟩
    · exact ⟨_, rfl⟩
  | _ => exact ⟨_, rfl⟩

/-- A frame of a live session that opens. -/
theorem handleSession_opened {d : RequestDraw} {plaintext : Bytes}
    (hEntry : s.sessions[f.sender]? = some e)
    (hOpen : e.view.openFrame env f.payload = some plaintext) :
    s.handleSession env f src d =
      (((s.commitCounter f.sender e.view.nextSeq d.now).execute env f.sender e.view src d.routeNow
          (planRequest env e.view f.msgType plaintext)).1,
        sealAnswer env e.view d.random
          ((s.commitCounter f.sender e.view.nextSeq d.now).execute env f.sender e.view src d.routeNow
            (planRequest env e.view f.msgType plaintext)).2) := by
  unfold handleSession
  simp only [hEntry, hOpen]

theorem handleSession_not_opened {d : RequestDraw} (hEntry : s.sessions[f.sender]? = some e)
    (hOpen : e.view.openFrame env f.payload = none) :
    s.handleSession env f src d = (s, .notOpened) := by
  unfold handleSession
  simp only [hEntry, hOpen]

theorem handleSession_unknown {d : RequestDraw} (hNone : s.sessions[f.sender]? = none) :
    s.handleSession env f src d = (s, .unknownSession) := by
  unfold handleSession
  simp only [hNone]

/-- A call opens a frame of a live session, or changes nothing. -/
theorem handleSession_cases (env : SignalingEnv Ct) (s : Signaling) (f : SignalFrame Ct)
    (src : SourceAddr) (d : RequestDraw) :
    (s.handleSession env f src d).1 = s ∨
    ∃ e plaintext, s.sessions[f.sender]? = some e ∧
      e.view.openFrame env f.payload = some plaintext := by
  cases hEntry : s.sessions[f.sender]? with
  | none => exact .inl (congrArg Prod.fst (handleSession_unknown hEntry))
  | some e =>
    cases hOpen : e.view.openFrame env f.payload with
    | none => exact .inl (congrArg Prod.fst (handleSession_not_opened hEntry hOpen))
    | some plaintext => exact .inr ⟨e, plaintext, rfl, hOpen⟩

-- ---------------------------------------------------------------------------
-- What a datagram can do
-- ---------------------------------------------------------------------------

/-- The datagram carries the AUTH, sealed for the server. -/
structure CarriesAuth (env : SignalingEnv Ct) (f : SignalFrame Ct) (ab : AuthBody) : Prop where
  kind : f.msgType = msgAuth
  body : ∃ plaintext, env.crypto.decrypt (env.crypto.sharedSecret env.serverPriv f.sender) f.payload =
    some plaintext ∧ decodeAuth plaintext = .ok ab

theorem CarriesAuth.unique {ab ab' : AuthBody} (h : CarriesAuth env f ab)
    (h' : CarriesAuth env f ab') : ab = ab' := by
  obtain ⟨pt, hOpen, hBody⟩ := h.body
  obtain ⟨pt', hOpen', hBody'⟩ := h'.body
  rw [hOpen] at hOpen'
  cases hOpen'
  rw [hBody] at hBody'
  exact Except.ok.inj hBody'

/-- An AUTH whose sender is no session key goes to `handle_auth`. -/
theorem handleSignaling_auth {ab : AuthBody} (src : SourceAddr) (d : SignalDraw)
    (h : CarriesAuth env f ab) (hFree : f.sender ∉ s.sessions) :
    s.handleSignaling env f src d =
      ((s.handleAuth env f.sender ab src d.auth).1,
        .auth (s.handleAuth env f.sender ab src d.auth).2) := by
  obtain ⟨pt, hOpen, hBody⟩ := h.body
  unfold handleSignaling
  have hKind := h.kind
  rw [if_neg (by rw [hKind]; decide), if_neg hFree]
  dsimp only
  rw [hOpen]
  dsimp only
  rw [if_neg (by rw [hKind]; decide), if_pos hKind, hBody]

/-- A datagram whose sender is a session key is a session request. -/
theorem handleSignaling_session (d : SignalDraw) (hKind : f.msgType ≠ msgKeyquery)
    (hSession : f.sender ∈ s.sessions) :
    s.handleSignaling env f src d =
      ((s.handleSession env f src d.request).1, .session (s.handleSession env f src d.request).2) := by
  unfold handleSignaling
  rw [if_neg hKind, if_pos hSession]

/-- The datagram is a BYE under the static key of its sender. -/
structure StaticBye (env : SignalingEnv Ct) (f : SignalFrame Ct) : Prop where
  kind : f.msgType = msgBye
  opens : ∃ plaintext,
    env.crypto.decrypt (env.crypto.sharedSecret env.serverPriv f.sender) f.payload = some plaintext

/-- The datagram neither reaches a session nor asks for one: it changes members,
join codes, rate limits or, as a BYE under the static key, one route. -/
structure Bypasses (env : SignalingEnv Ct) (s s' : Signaling) (f : SignalFrame Ct)
    (outcome : SignalOutcome Ct) : Prop where
  change : (∃ r members invites, s' =
      { s with rateLimits := r, mesh := { s.mesh with members := members, invites := invites } }) ∨
    (StaticBye env f ∧ s' = s.removeRoute f.sender)
  noAuth : ∀ o, outcome ≠ .auth o
  noSession : ∀ o, outcome ≠ .session o

/-- The three ways a datagram can go. -/
theorem handleSignaling_cases (env : SignalingEnv Ct) (s : Signaling) (f : SignalFrame Ct)
    (src : SourceAddr) (d : SignalDraw) :
    (f.sender ∈ s.sessions ∧ f.msgType ≠ msgKeyquery) ∨
    (f.sender ∉ s.sessions ∧ ∃ ab, CarriesAuth env f ab) ∨
    Bypasses env s (s.handleSignaling env f src d).1 f (s.handleSignaling env f src d).2 := by
  by_cases hKeyquery : f.msgType = msgKeyquery
  · right; right
    unfold handleSignaling
    rw [if_pos hKeyquery]
    exact ⟨.inl ⟨s.rateLimits, s.mesh.members, s.mesh.invites, rfl⟩, by simp, by simp⟩
  by_cases hSession : f.sender ∈ s.sessions
  · exact .inl ⟨hSession, hKeyquery⟩
  right
  by_cases hAuth : ∃ ab, CarriesAuth env f ab
  · exact .inl ⟨hSession, hAuth⟩
  right
  have hSame : ∃ r members invites, s =
      { s with rateLimits := r, mesh := { s.mesh with members := members, invites := invites } } :=
    ⟨s.rateLimits, s.mesh.members, s.mesh.invites, rfl⟩
  unfold handleSignaling
  rw [if_neg hKeyquery, if_neg hSession]
  dsimp only
  split
  · exact ⟨.inl hSame, by simp, by simp⟩
  · rename_i pt hOpen
    split
    · -- JOIN
      split
      · exact ⟨.inl hSame, by simp, by simp⟩
      · rename_i jb _
        exact ⟨.inl (handleJoin_frame env s f.sender jb src d.join), by simp, by simp⟩
    · split
      · rename_i hKind
        split
        · exact ⟨.inl hSame, by simp, by simp⟩
        · rename_i ab hBody
          exact absurd ⟨ab, hKind, pt, hOpen, hBody⟩ hAuth
      · split
        · rename_i hKind
          exact ⟨.inr ⟨⟨hKind, pt, hOpen⟩, rfl⟩, by simp, by simp⟩
        · exact ⟨.inl hSame, by simp, by simp⟩

/-- What it takes for a datagram to be accepted as an AUTH. -/
theorem accepts_iff {d : SignalDraw} {resp : Except String AuthRespBody} :
    (s.handleSignaling env f src d).2 = .auth (.accepted e resp) ↔
      f.sender ∉ s.sessions ∧ ∃ ab room nonce ekC, CarriesAuth env f ab ∧
        Admits env s f.sender ab src d.auth room nonce ekC ∧
        e = authEntry env f.sender ab d.auth room nonce ekC ∧
        resp = authResp env (s.afterAuth env f.sender src d.auth nonce e) ab d.auth := by
  constructor
  · intro h
    rcases handleSignaling_cases env s f src d with ⟨hSession, hKind⟩ | ⟨hFree, ab, hCarries⟩ | hBypass
    · rw [handleSignaling_session d hKind hSession] at h
      cases h
    · rw [handleSignaling_auth src d hCarries hFree] at h
      rcases handleAuth_cases env s f.sender ab src d.auth with ⟨_, hNot⟩ | ⟨_, _, _, _, hNot⟩ | hAcc
      · exact absurd (SignalOutcome.auth.inj h) (hNot _ _)
      · exact absurd (SignalOutcome.auth.inj h) (hNot _ _)
      · obtain ⟨room, nonce, ekC, hAdmits, hEq⟩ := hAcc
        rw [hEq] at h
        obtain ⟨hEntry, hResp⟩ := AuthOutcome.accepted.inj (SignalOutcome.auth.inj h)
        rw [hEntry] at hResp
        exact ⟨hFree, ab, room, nonce, ekC, hCarries, hAdmits, hEntry.symm, hResp.symm⟩
    · exact absurd h (hBypass.noAuth _)
  · rintro ⟨hFree, ab, room, nonce, ekC, hCarries, hAdmits, hEntry, hResp⟩
    have hAccepted := congrArg Prod.snd (handleAuth_of_admits hAdmits)
    rw [← hEntry, ← hResp] at hAccepted
    rw [handleSignaling_auth src d hCarries hFree]
    exact congrArg SignalOutcome.auth hAccepted

end Signaling

end LinkMesh
