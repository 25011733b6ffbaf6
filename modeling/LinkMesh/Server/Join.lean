import LinkMesh.Wire.Signal
import LinkMesh.Mesh.Enrolment
import LinkMesh.Server.Auth

/-!
# JOIN

`handle_join` (`linkmesh-server/src/signaling.rs`): a device with a join code
is issued a certificate. The registry is locked from the first look at the
code to the answer.

## Results

* `enroll_cases`     — what a JOIN can do to the registry.
* `handleJoin_frame` — what it can do to the server.
-/

namespace LinkMesh

variable {Ct : Type}

-- ---------------------------------------------------------------------------
-- Aliases
-- ---------------------------------------------------------------------------

/-- `validate_alias`: lower case, 1 to 32 bytes of `[a-z0-9_-]`. -/
def validateAlias (env : SignalingEnv Ct) (raw : String) : Except String String :=
  let name := env.toLowercase (trim raw)
  if name = "" then .error "别名不能为空"
  else if 32 < (utf8 name).length then .error "别名最长 32 个字符"
  else if !name.toList.all fun c => c.isLower || c.isDigit || c == '-' || c == '_' then
    .error s!"别名 {env.debugText name} 非法：只能包含小写字母、数字、- 与 _"
  else .ok name

/-- An alias that is blank counts as none. -/
def normalizeSelfAlias (env : SignalingEnv Ct) : Option String → Except String (Option String)
  | some a => if trim a ≠ "" then (validateAlias env a).map some else .ok none
  | none => .ok none

-- ---------------------------------------------------------------------------
-- The handler
-- ---------------------------------------------------------------------------

/-- The part of the environment that the registry calls. -/
def SignalingEnv.meshEnv (env : SignalingEnv Ct) : MeshEnv :=
  { signatures := env.signatures, sha256 := env.sha256, toUppercase := env.toUppercase }

/-- The clock, when the source is counted, the join code looked at, the
certificate issued and the join code spent. -/
structure JoinDraw where
  rateNow : Nat
  peekNow : Nat
  issueNow : Nat
  consumeNow : Nat

/-- How a call ends. -/
inductive JoinOutcome where
  /-- over the rate limit: no answer -/
  | dropped
  /-- answered by an encrypted error -/
  | refused (msg : String)
  /-- no answer, and the registry is not saved -/
  | noServerInfo (msg : String)
  /-- the registry is saved, but there is no answer -/
  | notEncoded (msg : String)
  | joined (resp : ResponseBody)
  deriving DecidableEq, Repr

namespace Signaling

/-- The checks that come before the certificate; they give the virtual IP. -/
def joinChecks (env : SignalingEnv Ct) (m : MeshConfig) (jb : JoinBody) (now : Nat) :
    Except String String := do
  let boundIp ← (m.peekInvite env.meshEnv jb.code now).mapError fun e => s!"加入失败: {e}"
  let ikX ← parsePublicKey jb.ikX
  let ikSPub ← parseSigPublic jb.ikSPub
  if jb.deviceId ≠ deviceIdB64 env.meshEnv ikX ikSPub then .error "device_id 与设备双公钥不匹配"
  -- the IP bound to the code before the one asked for
  else m.allocateIp (boundIp.or jb.requestedIp)

/-- The alias is set and the code is spent. A code that cannot be spent any
more is logged only. -/
def completeJoin (env : SignalingEnv Ct) (m : MeshConfig) (jb : JoinBody) (deviceId : String)
    (aliasName : Option String) (now : Nat) : MeshConfig :=
  let m := match aliasName with
    | some a => m.setMemberAlias deviceId a
    | none => m
  (m.consumeInvite env.meshEnv jb.code now).1

/-- The answer to a JOIN. -/
def joinAnswer (env : SignalingEnv Ct) (m : MeshConfig) (cert : DeviceCert) (ip : String) :
    JoinOutcome :=
  match buildServerInfo env m with
  | .error e => .noServerInfo e
  | .ok info =>
    let resp : ResponseBody := .okWithData (.join cert.deviceId ip cert info m.crl)
    match encodeResponse resp with
    | .error e => .notEncoded s!"序列化失败: {e}"
    | .ok _ => .joined resp

/-- What `handle_join` does under the lock of the registry. -/
def enroll (env : SignalingEnv Ct) (m : MeshConfig) (jb : JoinBody) (d : JoinDraw) :
    MeshConfig × JoinOutcome :=
  match joinChecks env m jb d.peekNow with
  | .error e => (m, .refused e)
  | .ok ip =>
    match m.issueCert env.meshEnv jb.ikX jb.ikSPub ip (some jb.deviceId) d.issueNow with
    | (m, .error e) => (m, .refused s!"签发证书失败: {e}")
    | (m, .ok cert) =>
      match normalizeSelfAlias env jb.aliasName with
      | .error e => (m, .refused e)
      | .ok aliasName =>
        let m := completeJoin env m jb cert.deviceId aliasName d.consumeNow
        (m, joinAnswer env m cert ip)

/-- `handle_join` -/
def handleJoin (env : SignalingEnv Ct) (s : Signaling) (sender : RawKey) (jb : JoinBody)
    (src : SourceAddr) (d : JoinDraw) : Signaling × JoinOutcome :=
  if keyB64 (keyBytes sender) ≠ jb.ikX then (s, .refused "JOIN 载荷公钥与帧头不一致")
  else
    let (s, limited) := s.rateLimited env src d.rateNow
    if limited then (s, .dropped)
    else
      match s.resolveRoom env jb.token with
      | .error e => (s, .refused e)
      | .ok _ =>
        let (mesh, outcome) := enroll env s.mesh jb d
        ({ s with mesh := mesh }, outcome)

-- ---------------------------------------------------------------------------
-- What a JOIN can do
-- ---------------------------------------------------------------------------

variable {env : SignalingEnv Ct} {s : Signaling} {m : MeshConfig} {jb : JoinBody} {d : JoinDraw}

/-- What the checks ask for. -/
theorem joinChecks_eq_ok {now : Nat} {ip : String} :
    joinChecks env m jb now = .ok ip ↔
      ∃ boundIp ikX ikSPub, m.peekInvite env.meshEnv jb.code now = .ok boundIp ∧
        parsePublicKey jb.ikX = .ok ikX ∧ parseSigPublic jb.ikSPub = .ok ikSPub ∧
        jb.deviceId = deviceIdB64 env.meshEnv ikX ikSPub ∧
        m.allocateIp (boundIp.or jb.requestedIp) = .ok ip := by
  unfold joinChecks
  simp only [bind_eq_ok]
  constructor
  · rintro ⟨boundIp, hPeek, ikX, hX, ikSPub, hS, h⟩
    split at h
    · cases h
    · rename_i hDevice
      refine ⟨boundIp, ikX, ikSPub, ?_, hX, hS, not_not.mp hDevice, h⟩
      cases hInvite : m.peekInvite env.meshEnv jb.code now with
      | error e =>
        rw [hInvite] at hPeek
        cases hPeek
      | ok ip' =>
        rw [hInvite] at hPeek
        cases hPeek
        rfl
  · rintro ⟨boundIp, ikX, ikSPub, hPeek, hX, hS, hDevice, hIp⟩
    refine ⟨boundIp, ?_, ikX, hX, ikSPub, hS, ?_⟩
    · rw [hPeek]
      rfl
    · rw [if_neg (not_not_intro hDevice)]
      exact hIp

/-- The JOIN passes every check up to the certificate: this device gets this
certificate, and `ip` is what the checks granted. -/
structure Issues (env : SignalingEnv Ct) (m : MeshConfig) (jb : JoinBody) (d : JoinDraw)
    (ip granted : String) (seed : Bytes) : Prop where
  checks : joinChecks env m jb d.peekNow = .ok ip
  issue : m.issueChecks env.meshEnv jb.ikX jb.ikSPub ip (some jb.deviceId) =
    .ok (jb.deviceId, granted, seed)

/-- The registry settles what a JOIN is issued. -/
theorem Issues.unique {ip ip' granted granted' : String} {seed seed' : Bytes}
    (h : Issues env m jb d ip granted seed) (h' : Issues env m jb d ip' granted' seed') :
    ip = ip' ∧ granted = granted' ∧ seed = seed' := by
  have hChecks := h.checks.symm.trans h'.checks
  cases hChecks
  have hIssue := h.issue.symm.trans h'.issue
  cases hIssue
  exact ⟨rfl, rfl, rfl⟩

/-- The registry once the certificate is issued. -/
def issued (env : SignalingEnv Ct) (m : MeshConfig) (jb : JoinBody) (d : JoinDraw)
    (granted : String) (seed : Bytes) : MeshConfig :=
  { m with
    members := m.members ++
      [MeshConfig.newMember env.meshEnv m jb.deviceId jb.ikX jb.ikSPub granted seed d.issueNow] }

/-- A JOIN that is not issued a certificate changes nothing. -/
theorem enroll_cases (env : SignalingEnv Ct) (m : MeshConfig) (jb : JoinBody) (d : JoinDraw) :
    ((∃ e, enroll env m jb d = (m, .refused e)) ∧ ∀ ip granted seed, ¬ Issues env m jb d ip granted seed) ∨
    ∃ ip granted seed, Issues env m jb d ip granted seed ∧
      ((∃ e, normalizeSelfAlias env jb.aliasName = .error e ∧
          enroll env m jb d = (issued env m jb d granted seed, .refused e)) ∨
        ∃ aliasName, normalizeSelfAlias env jb.aliasName = .ok aliasName ∧
          enroll env m jb d =
            (completeJoin env (issued env m jb d granted seed) jb jb.deviceId aliasName d.consumeNow,
              joinAnswer env
                (completeJoin env (issued env m jb d granted seed) jb jb.deviceId aliasName d.consumeNow)
                (MeshConfig.newMember env.meshEnv m jb.deviceId jb.ikX jb.ikSPub granted seed
                  d.issueNow).cert ip)) := by
  unfold enroll
  cases hChecks : joinChecks env m jb d.peekNow with
  | error e =>
    refine .inl ⟨⟨e, rfl⟩, fun ip granted seed h => ?_⟩
    rw [h.checks] at hChecks
    cases hChecks
  | ok ip =>
    dsimp only
    rcases MeshConfig.issueCert_cases env.meshEnv m jb.ikX jb.ikSPub ip (some jb.deviceId) d.issueNow with
      ⟨e, hError, hEq⟩ | ⟨deviceId, granted, seed, hIssue, hEq⟩
    · rw [hEq]
      refine .inl ⟨⟨_, rfl⟩, fun ip' granted seed h => ?_⟩
      have hSame := h.checks
      rw [hChecks] at hSame
      cases hSame
      rw [h.issue] at hError
      cases hError
    · obtain ⟨_, _, _, _, hId, _⟩ := MeshConfig.issueChecks_eq_ok.mp hIssue
      have hDevice : deviceId = jb.deviceId := hId.symm
      subst hDevice
      rw [hEq]
      refine .inr ⟨ip, granted, seed, ⟨hChecks, hIssue⟩, ?_⟩
      dsimp only
      cases normalizeSelfAlias env jb.aliasName with
      | error e => exact .inl ⟨e, rfl, rfl⟩
      | ok aliasName => exact .inr ⟨aliasName, rfl, rfl⟩

/-- Completing a JOIN changes aliases and join codes. -/
theorem completeJoin_map {β : Type} (g : MemberEntry → β) (h : ∀ x a, g { x with aliasName := a } = g x)
    (deviceId : String) (aliasName : Option String) (now : Nat) :
    (completeJoin env m jb deviceId aliasName now).members.map g = m.members.map g := by
  unfold completeJoin
  cases aliasName with
  | none =>
    obtain ⟨invites, hEq⟩ := MeshConfig.consumeInvite_frame env.meshEnv m jb.code now
    dsimp only
    rw [hEq]
  | some a =>
    obtain ⟨invites, hEq⟩ :=
      MeshConfig.consumeInvite_frame env.meshEnv (m.setMemberAlias deviceId a) jb.code now
    dsimp only
    rw [hEq]
    exact MeshConfig.setMemberAlias_map g h deviceId a

theorem completeJoin_frame (env : SignalingEnv Ct) (m : MeshConfig) (jb : JoinBody) (deviceId : String)
    (aliasName : Option String) (now : Nat) :
    ∃ members invites, completeJoin env m jb deviceId aliasName now =
      { m with members := members, invites := invites } := by
  unfold completeJoin
  cases aliasName with
  | none =>
    obtain ⟨invites, hEq⟩ := MeshConfig.consumeInvite_frame env.meshEnv m jb.code now
    exact ⟨m.members, invites, hEq⟩
  | some a =>
    obtain ⟨invites, hEq⟩ :=
      MeshConfig.consumeInvite_frame env.meshEnv (m.setMemberAlias deviceId a) jb.code now
    exact ⟨_, invites, hEq⟩

/-- A JOIN changes members and join codes. -/
theorem enroll_frame (env : SignalingEnv Ct) (m : MeshConfig) (jb : JoinBody) (d : JoinDraw) :
    ∃ members invites, (enroll env m jb d).1 = { m with members := members, invites := invites } := by
  rcases enroll_cases env m jb d with
    ⟨⟨e, hEq⟩, _⟩ | ⟨ip, granted, seed, _, ⟨e, _, hEq⟩ | ⟨aliasName, _, hEq⟩⟩
  · exact ⟨m.members, m.invites, congrArg Prod.fst hEq⟩
  · exact ⟨_, m.invites, congrArg Prod.fst hEq⟩
  · obtain ⟨members, invites, hFrame⟩ :=
      completeJoin_frame env (issued env m jb d granted seed) jb jb.deviceId aliasName d.consumeNow
    rw [hEq]
    exact ⟨members, invites, hFrame⟩

theorem enroll_crl (env : SignalingEnv Ct) (m : MeshConfig) (jb : JoinBody) (d : JoinDraw) :
    (enroll env m jb d).1.crl = m.crl := by
  obtain ⟨members, invites, hFrame⟩ := enroll_frame env m jb d
  rw [hFrame]

/-- The JOIN gets as far as the registry. -/
structure ReachesRegistry (env : SignalingEnv Ct) (s : Signaling) (sender : RawKey) (jb : JoinBody)
    (src : SourceAddr) (d : JoinDraw) : Prop where
  header : keyB64 (keyBytes sender) = jb.ikX
  rate : (s.rateLimited env src d.rateNow).2 = false
  room : ∃ room, s.resolveRoom env jb.token = .ok room

theorem handleJoin_cases (env : SignalingEnv Ct) (s : Signaling) (sender : RawKey) (jb : JoinBody)
    (src : SourceAddr) (d : JoinDraw) :
    (¬ ReachesRegistry env s sender jb src d ∧
      ∃ r outcome, s.handleJoin env sender jb src d = ({ s with rateLimits := r }, outcome) ∧
        (outcome = .dropped ∨ ∃ e, outcome = .refused e)) ∨
    (ReachesRegistry env s sender jb src d ∧
      ∃ r, s.handleJoin env sender jb src d =
        ({ s with rateLimits := r, mesh := (enroll env s.mesh jb d).1 }, (enroll env s.mesh jb d).2)) := by
  obtain ⟨r, hRate⟩ := rateLimited_frame env s src d.rateNow
  unfold handleJoin
  by_cases hHeader : keyB64 (keyBytes sender) = jb.ikX
  · rw [if_neg (not_not_intro hHeader)]
    dsimp only
    rw [hRate]
    cases hLimited : (s.rateLimited env src d.rateNow).2 with
    | true =>
      refine .inl ⟨fun h => ?_, r, .dropped, rfl, .inl rfl⟩
      rw [h.rate] at hLimited
      cases hLimited
    | false =>
      have hRoom : ({ s with rateLimits := r } : Signaling).resolveRoom env jb.token =
        s.resolveRoom env jb.token := rfl
      rw [hRoom, if_neg Bool.false_ne_true]
      cases hToken : s.resolveRoom env jb.token with
      | error e =>
        refine .inl ⟨fun h => ?_, r, .refused e, rfl, .inr ⟨e, rfl⟩⟩
        obtain ⟨room, hOk⟩ := h.room
        rw [hToken] at hOk
        cases hOk
      | ok room => exact .inr ⟨⟨hHeader, hLimited, room, hToken⟩, r, rfl⟩
  · rw [if_pos hHeader]
    exact .inl ⟨fun h => hHeader h.header, s.rateLimits, _, rfl, .inr ⟨_, rfl⟩⟩

theorem handleJoin_mesh (h : ReachesRegistry env s sender jb src d) :
    (s.handleJoin env sender jb src d).1.mesh = (enroll env s.mesh jb d).1 := by
  rcases handleJoin_cases env s sender jb src d with ⟨hNot, _⟩ | ⟨_, r, hEq⟩
  · exact absurd h hNot
  · rw [hEq]

/-- A JOIN changes rate limits, members and join codes. -/
theorem handleJoin_frame (env : SignalingEnv Ct) (s : Signaling) (sender : RawKey) (jb : JoinBody)
    (src : SourceAddr) (d : JoinDraw) :
    ∃ r members invites, (s.handleJoin env sender jb src d).1 =
      { s with rateLimits := r, mesh := { s.mesh with members := members, invites := invites } } := by
  rcases handleJoin_cases env s sender jb src d with ⟨_, r, outcome, hEq, _⟩ | ⟨_, r, hEq⟩
  · rw [hEq]
    exact ⟨r, s.mesh.members, s.mesh.invites, rfl⟩
  · obtain ⟨members, invites, hFrame⟩ := enroll_frame env s.mesh jb d
    rw [hEq, hFrame]
    exact ⟨r, members, invites, rfl⟩

end Signaling

end LinkMesh
