import LinkMesh.Wire.Auth
import LinkMesh.Server.Sessions

/-!
# Authentication

`handle_auth` and the classification of datagrams in `handle_signaling`
(`linkmesh-server/src/signaling.rs`). The handler holds the mesh lock from the
certificate checks until the session is registered, and the tables it writes
have locks of their own; here one call is one step.

## Results

* `handleAuth_cases`     — what a call can do to the server.
* `auth_isolation_iff`   — an AUTH leaves the other devices' sessions alone
  iff the client's ephemeral key is not the key of one of them.
-/

namespace LinkMesh

open Std KeyMap

-- ---------------------------------------------------------------------------
-- The timestamp
-- ---------------------------------------------------------------------------

/-- `n as i64` -/
def asI64 (n : Int) : Int := Int.bmod n (2 ^ 64)

/-- `(ts as i64 - now as i64).abs() <= 30` in wrapping arithmetic, as a release
build computes it. -/
def timestampOk (ts now : Nat) : Bool :=
  asI64 (asI64 (asI64 ts - asI64 now)).natAbs ≤ 30

-- ---------------------------------------------------------------------------
-- The handler
-- ---------------------------------------------------------------------------

inductive Refusal where
  /-- answered by an encrypted error -/
  | refused (msg : String)
  /-- an error of the server's own: no answer -/
  | failed (msg : String)
  deriving DecidableEq, Repr

/-- How a call ends. -/
inductive AuthOutcome where
  /-- over the rate limit: no answer -/
  | dropped
  | rejected (reason : Refusal)
  /-- the session is registered; the answer may still fail to build -/
  | accepted (entry : SessionEntry) (resp : Except String AuthRespBody)
  deriving DecidableEq, Repr

/-- What a call reads besides its input: the clock, twice, and the random
values it draws. -/
structure AuthDraw where
  rateNow : Nat
  now : Nat
  ekSPriv : RawKey
  sessionId : String
  order : IterOrder

variable {Ct : Type}

namespace Signaling

/-- `build_server_info`: signed by the mesh root. -/
def buildServerInfo (env : SignalingEnv Ct) (mesh : MeshConfig) : Except String ServerInfo := do
  let rootPub ← mesh.rootPublicRaw
  let info : ServerInfo :=
    { meshId := mesh.meshId
      serverName := env.serverName
      meshRootPub := keyB64 rootPub
      serverIkX := keyB64 (keyBytes env.serverPub)
      serverIkSPub := env.serverIkSPub
      protocolVer := 2
      crlVersion := mesh.crl.version
      authRequired := true
      signature := none }
  let seed ← mesh.rootSeed
  .ok (info.sign env.signatures seed)

/-- Refusals are answered, errors of the server's own are not. -/
def orRefuse {α : Type} (x : Except String α) : Except Refusal α := x.mapError .refused
def orFail {α : Type} (x : Except String α) : Except Refusal α := x.mapError .failed

def refuseUnless (c : Bool) (msg : String) : Except Refusal Unit :=
  if c then .ok () else .error (.refused msg)

/-- Decoding of the nonce text. -/
def authNonce (s : String) : Except String Bytes :=
  b64Fixed 12 "nonce base64 非法" "nonce 长度错误" s

/-- The checks made under the mesh lock before the nonce is looked up; they
give the nonce. -/
def authChecks (env : SignalingEnv Ct) (s : Signaling) (sender : RawKey) (ab : AuthBody)
    (now : Nat) : Except Refusal Bytes := do
  let rootPub ← orFail s.mesh.rootPublicRaw
  -- 1) signature and validity of the certificate
  orRefuse (ab.cert.verify env.signatures rootPub now)
  -- 2) the certificate is about the header key and the device of the body
  let certIkSPub ← orRefuse (parseSigPublic ab.cert.ikSPub)
  orRefuse (ab.cert.matchesKeys sender certIkSPub)
  refuseUnless (ab.deviceId = ab.cert.deviceId) "AUTH 载荷 device_id 与证书不一致"
  -- 3) not revoked
  refuseUnless (!s.mesh.isRevoked ab.deviceId) "设备已被吊销"
  -- 4) timestamp window
  refuseUnless (timestampOk ab.timestamp now) "时间戳超出允许窗口（±30s），请校准设备时钟"
  orRefuse (authNonce ab.nonce)

/-- The session that a successful call registers. -/
def authEntry (env : SignalingEnv Ct) (sender : RawKey) (ab : AuthBody) (d : AuthDraw)
    (room : String) (nonce : Bytes) (ekC : RawKey) : SessionEntry :=
  { sessionPub := ekC
    deviceId := ab.deviceId
    ikX := sender
    ip := ab.cert.allowedIp
    sk := env.crypto.deriveSessionKeyServer d.ekSPriv env.serverPriv ekC sender nonce
    counterRx := 0
    lastSeen := d.now
    room := room }

/-- Registration in the session table and in the set of live identities. -/
def registerSession (s : Signaling) (ord : IterOrder) (entry : SessionEntry) : Signaling :=
  { s with
    sessions := register ord s.sessions entry
    activeIkX := updateActive s.activeIkX (register ord s.sessions entry) entry.ikX
      (evictedIkX ord s.sessions entry.deviceId) }

/-- The answer. -/
def authResp (env : SignalingEnv Ct) (s : Signaling) (ab : AuthBody) (d : AuthDraw) :
    Except String AuthRespBody := do
  let info ← buildServerInfo env s.mesh
  .ok
    { ekS := keyB64 (keyBytes (env.crypto.publicKey d.ekSPriv))
      sessionId := d.sessionId
      crl := s.mesh.crl
      serverInfo := info
      allocatedIp := ab.cert.allowedIp }

/-- `MSG_AUTH`: certificate, timestamp and nonce, then a session key and a
session. -/
def handleAuth (env : SignalingEnv Ct) (s : Signaling) (sender : RawKey) (ab : AuthBody)
    (src : SourceAddr) (d : AuthDraw) : Signaling × AuthOutcome :=
  let (s, limited) := s.rateLimited env src d.rateNow
  if limited then (s, .dropped)
  else
    match s.resolveRoom env ab.token with
    | .error e => (s, .rejected (.refused e))
    | .ok room =>
      match s.authChecks env sender ab d.now with
      | .error reason => (s, .rejected reason)
      | .ok nonce =>
        -- 5) replay cache
        let (s, fresh) := s.replayCheck sender nonce
        if !fresh then (s, .rejected (.refused "nonce 重放，拒绝认证"))
        else
          -- 6) the session key
          match parsePublicKey ab.ekC with
          | .error e => (s, .rejected (.refused e))
          | .ok ekC =>
            -- 7) the session, 8) the answer
            let entry := authEntry env sender ab d room nonce ekC
            let s := s.registerSession d.order entry
            (s, .accepted entry (authResp env s ab d))

-- ---------------------------------------------------------------------------
-- What a call can do
-- ---------------------------------------------------------------------------

variable {env : SignalingEnv Ct} {s : Signaling} {sender : RawKey} {ab : AuthBody}
  {src : SourceAddr} {d : AuthDraw} {room : String} {nonce : Bytes} {ekC : RawKey}

theorem orRefuse_eq_ok {α : Type} {x : Except String α} {a : α} :
    orRefuse x = .ok a ↔ x = .ok a := by
  cases x <;> simp [orRefuse, Except.mapError]

theorem orFail_eq_ok {α : Type} {x : Except String α} {a : α} : orFail x = .ok a ↔ x = .ok a := by
  cases x <;> simp [orFail, Except.mapError]

theorem refuseUnless_eq_ok {c : Bool} {msg : String} {u : Unit} :
    refuseUnless c msg = .ok u ↔ c = true := by
  cases c <;> simp [refuseUnless]

/-- What the checks under the mesh lock establish. -/
theorem authChecks_eq_ok {now : Nat} :
    s.authChecks env sender ab now = .ok nonce ↔
      ∃ rootPub ikSPub, s.mesh.rootPublicRaw = .ok rootPub ∧
        ab.cert.verify env.signatures rootPub now = .ok () ∧
        parseSigPublic ab.cert.ikSPub = .ok ikSPub ∧ ab.cert.matchesKeys sender ikSPub = .ok () ∧
        ab.deviceId = ab.cert.deviceId ∧ s.mesh.isRevoked ab.deviceId = false ∧
        timestampOk ab.timestamp now = true ∧ authNonce ab.nonce = .ok nonce := by
  unfold authChecks
  simp only [bind_eq_ok, orRefuse_eq_ok, orFail_eq_ok, refuseUnless_eq_ok, decide_eq_true_eq,
    Bool.not_eq_true']
  constructor
  · rintro ⟨rootPub, hRoot, _, hVerify, ikSPub, hSig, _, hMatch, _, hId, _, hCrl, _, hTime, hNonce⟩
    exact ⟨rootPub, ikSPub, hRoot, hVerify, hSig, hMatch, hId, hCrl, hTime, hNonce⟩
  · rintro ⟨rootPub, ikSPub, hRoot, hVerify, hSig, hMatch, hId, hCrl, hTime, hNonce⟩
    exact ⟨rootPub, hRoot, (), hVerify, ikSPub, hSig, (), hMatch, (), hId, (), hCrl, (), hTime, hNonce⟩

/-- Every check passes: the source is not rate limited, the token gives a room,
certificate and timestamp are fine, the nonce is new and the ephemeral key is
one. -/
structure Admits (env : SignalingEnv Ct) (s : Signaling) (sender : RawKey) (ab : AuthBody)
    (src : SourceAddr) (d : AuthDraw) (room : String) (nonce : Bytes) (ekC : RawKey) : Prop where
  rate : (s.rateLimited env src d.rateNow).2 = false
  room : s.resolveRoom env ab.token = .ok room
  checks : s.authChecks env sender ab d.now = .ok nonce
  fresh : nonce ∉ s.replay[sender]?.getD []
  ekC : parsePublicKey ab.ekC = .ok ekC

theorem Admits.unique {room' : String} {nonce' : Bytes} {ekC' : RawKey}
    (h' : Admits env s sender ab src d room' nonce' ekC')
    (h : Admits env s sender ab src d room nonce ekC) : room' = room ∧ nonce' = nonce ∧ ekC' = ekC :=
  ⟨Except.ok.inj (h'.room.symm.trans h.room), Except.ok.inj (h'.checks.symm.trans h.checks),
    Except.ok.inj (h'.ekC.symm.trans h.ekC)⟩

/-- The checks up to the nonce pass, and the nonce is remembered. -/
structure Records (env : SignalingEnv Ct) (s : Signaling) (sender : RawKey) (ab : AuthBody)
    (src : SourceAddr) (d : AuthDraw) (nonce : Bytes) : Prop where
  rate : (s.rateLimited env src d.rateNow).2 = false
  room : ∃ room, s.resolveRoom env ab.token = .ok room
  checks : s.authChecks env sender ab d.now = .ok nonce
  fresh : nonce ∉ s.replay[sender]?.getD []

theorem Admits.records (h : Admits env s sender ab src d room nonce ekC) :
    Records env s sender ab src d nonce :=
  ⟨h.rate, ⟨room, h.room⟩, h.checks, h.fresh⟩

@[simp] theorem authEntry_sessionPub :
    (authEntry env sender ab d room nonce ekC).sessionPub = ekC := rfl

/-- The rate limiter touches its own table only. -/
theorem rateLimited_frame (env : SignalingEnv Ct) (s : Signaling) (src : SourceAddr) (now : Nat) :
    ∃ r, (s.rateLimited env src now).1 = { s with rateLimits := r } := by
  unfold rateLimited
  split
  · exact ⟨_, rfl⟩
  · dsimp only
    split
    · exact ⟨_, rfl⟩
    · exact ⟨_, rfl⟩

/-- The server after a registration. -/
def afterAuth (env : SignalingEnv Ct) (s : Signaling) (sender : RawKey) (src : SourceAddr)
    (d : AuthDraw) (nonce : Bytes) (entry : SessionEntry) : Signaling :=
  (((s.rateLimited env src d.rateNow).1.replayCheck sender nonce).1).registerSession d.order entry

theorem replayCheck_snd :
    (s.replayCheck sender nonce).2 = decide (nonce ∉ s.replay[sender]?.getD []) := by
  unfold replayCheck
  dsimp only
  split
  · rename_i h
    simp [h]
  · rename_i h
    simp [h]

/-- Looking a nonce up changes the rings only. -/
theorem replayCheck_frame (s : Signaling) (ikX : RawKey) (nonce : Bytes) :
    ∃ r, (s.replayCheck ikX nonce).1 = { s with replay := r } := by
  unfold replayCheck
  dsimp only
  split
  · exact ⟨_, rfl⟩
  · exact ⟨_, rfl⟩

/-- What a call does: nothing but count the source; or look the nonce up as
well; or register a session, when every check passes. -/
theorem handleAuth_cases (env : SignalingEnv Ct) (s : Signaling) (sender : RawKey) (ab : AuthBody)
    (src : SourceAddr) (d : AuthDraw) :
    ((∃ r, (s.handleAuth env sender ab src d).1 = { s with rateLimits := r }) ∧
      ∀ entry resp, (s.handleAuth env sender ab src d).2 ≠ .accepted entry resp) ∨
    (∃ r nonce, (nonce ∈ s.replay[sender]?.getD [] ∨ Records env s sender ab src d nonce) ∧
      (s.handleAuth env sender ab src d).1 =
        { (s.replayCheck sender nonce).1 with rateLimits := r } ∧
      ∀ entry resp, (s.handleAuth env sender ab src d).2 ≠ .accepted entry resp) ∨
    ∃ room nonce ekC, Admits env s sender ab src d room nonce ekC ∧
      s.handleAuth env sender ab src d =
        (s.afterAuth env sender src d nonce (authEntry env sender ab d room nonce ekC),
          .accepted (authEntry env sender ab d room nonce ekC)
            (authResp env (s.afterAuth env sender src d nonce
              (authEntry env sender ab d room nonce ekC)) ab d)) := by
  obtain ⟨r, hRate⟩ := rateLimited_frame env s src d.rateNow
  unfold handleAuth
  dsimp only
  split
  · left
    exact ⟨⟨r, hRate⟩, fun _ _ => by simp⟩
  · rename_i hLimited
    have hRoom : (s.rateLimited env src d.rateNow).1.resolveRoom env ab.token =
        s.resolveRoom env ab.token := by
      rw [hRate]
      rfl
    have hChecks : (s.rateLimited env src d.rateNow).1.authChecks env sender ab d.now =
        s.authChecks env sender ab d.now := by
      rw [hRate]
      rfl
    split
    · left
      exact ⟨⟨r, hRate⟩, fun _ _ => by simp⟩
    · rename_i room hOkRoom
      split
      · left
        exact ⟨⟨r, hRate⟩, fun _ _ => by simp⟩
      · rename_i nonce hNonce
        rw [hChecks] at hNonce
        have hReplay : ((s.rateLimited env src d.rateNow).1.replayCheck sender nonce).1 =
            { (s.replayCheck sender nonce).1 with rateLimits := r } := by
          rw [hRate]
          unfold replayCheck
          dsimp only
          split
          · rfl
          · rfl
        have hFresh : ((s.rateLimited env src d.rateNow).1.replayCheck sender nonce).2 =
            decide (nonce ∉ s.replay[sender]?.getD []) := by
          rw [replayCheck_snd, hRate]
        rw [hFresh]
        split
        · rename_i hSeen
          right; left
          exact ⟨r, nonce, .inl (by simpa using hSeen), hReplay, fun _ _ => by simp⟩
        · rename_i hNew
          have hNew : nonce ∉ s.replay[sender]?.getD [] := by simpa using hNew
          have hRate' : (s.rateLimited env src d.rateNow).2 = false := by simpa using hLimited
          split
          · right; left
            exact ⟨r, nonce, .inr ⟨hRate', ⟨room, hRoom ▸ hOkRoom⟩, hNonce, hNew⟩, hReplay,
              fun _ _ => by simp⟩
          · rename_i ekC hKey
            right; right
            exact ⟨room, nonce, ekC, ⟨hRate', hRoom ▸ hOkRoom, hNonce, hNew, hKey⟩, rfl⟩

/-- A registration changes the sessions, the live identities, the nonce rings
and the rate limits. -/
theorem afterAuth_eq (env : SignalingEnv Ct) (s : Signaling) (sender : RawKey) (src : SourceAddr)
    (d : AuthDraw) (nonce : Bytes) (entry : SessionEntry) :
    ∃ r, s.afterAuth env sender src d nonce entry =
      { s with
        sessions := register d.order s.sessions entry
        activeIkX := updateActive s.activeIkX (register d.order s.sessions entry) entry.ikX
          (evictedIkX d.order s.sessions entry.deviceId)
        replay := (s.replayCheck sender nonce).1.replay
        rateLimits := r } := by
  obtain ⟨r, hRate⟩ := rateLimited_frame env s src d.rateNow
  refine ⟨r, ?_⟩
  unfold afterAuth registerSession replayCheck
  rw [hRate]
  dsimp only
  split
  · rfl
  · rfl

section

variable {entry : SessionEntry}

@[simp] theorem afterAuth_sessions :
    (s.afterAuth env sender src d nonce entry).sessions = register d.order s.sessions entry := by
  obtain ⟨r, hEq⟩ := afterAuth_eq env s sender src d nonce entry
  rw [hEq]

@[simp] theorem afterAuth_activeIkX :
    (s.afterAuth env sender src d nonce entry).activeIkX =
      updateActive s.activeIkX (register d.order s.sessions entry) entry.ikX
        (evictedIkX d.order s.sessions entry.deviceId) := by
  obtain ⟨r, hEq⟩ := afterAuth_eq env s sender src d nonce entry
  rw [hEq]

theorem afterAuth_replay :
    (s.afterAuth env sender src d nonce entry).replay = (s.replayCheck sender nonce).1.replay := by
  obtain ⟨r, hEq⟩ := afterAuth_eq env s sender src d nonce entry
  rw [hEq]

@[simp] theorem afterAuth_mesh : (s.afterAuth env sender src d nonce entry).mesh = s.mesh := by
  obtain ⟨r, hEq⟩ := afterAuth_eq env s sender src d nonce entry
  rw [hEq]

@[simp] theorem afterAuth_rooms : (s.afterAuth env sender src d nonce entry).rooms = s.rooms := by
  obtain ⟨r, hEq⟩ := afterAuth_eq env s sender src d nonce entry
  rw [hEq]

@[simp] theorem afterAuth_routes :
    (s.afterAuth env sender src d nonce entry).routes = s.routes := by
  obtain ⟨r, hEq⟩ := afterAuth_eq env s sender src d nonce entry
  rw [hEq]

end

/-- A call accepts exactly when every check passes. -/
theorem handleAuth_accepted {s' : Signaling} {entry : SessionEntry}
    {resp : Except String AuthRespBody}
    (h : s.handleAuth env sender ab src d = (s', .accepted entry resp)) :
    ∃ room nonce ekC, Admits env s sender ab src d room nonce ekC ∧
      entry = authEntry env sender ab d room nonce ekC ∧
      s' = s.afterAuth env sender src d nonce entry := by
  rcases handleAuth_cases env s sender ab src d with ⟨_, hNot⟩ | ⟨_, _, _, _, hNot⟩ | hAcc
  · exact absurd (congrArg Prod.snd h) (hNot _ _)
  · exact absurd (congrArg Prod.snd h) (hNot _ _)
  · obtain ⟨room, nonce, ekC, hAdmits, hEq⟩ := hAcc
    rw [h] at hEq
    cases hEq
    exact ⟨room, nonce, ekC, hAdmits, rfl, rfl⟩

theorem handleAuth_of_admits (h : Admits env s sender ab src d room nonce ekC) :
    s.handleAuth env sender ab src d =
      (s.afterAuth env sender src d nonce (authEntry env sender ab d room nonce ekC),
        .accepted (authEntry env sender ab d room nonce ekC)
          (authResp env (s.afterAuth env sender src d nonce
            (authEntry env sender ab d room nonce ekC)) ab d)) := by
  obtain ⟨r, hRate⟩ := rateLimited_frame env s src d.rateNow
  have hRoom : (s.rateLimited env src d.rateNow).1.resolveRoom env ab.token = .ok room := by
    rw [hRate]
    exact h.room
  have hChecks : (s.rateLimited env src d.rateNow).1.authChecks env sender ab d.now = .ok nonce := by
    rw [hRate]
    exact h.checks
  have hFresh : ((s.rateLimited env src d.rateNow).1.replayCheck sender nonce).2 = true := by
    rw [hRate, replayCheck_snd, decide_eq_true_eq]
    exact h.fresh
  unfold handleAuth
  simp only [h.rate, hRoom, hChecks, hFresh, h.ekC, Bool.false_eq_true, if_false, Bool.not_true]
  rfl

theorem handleAuth_sessions (h : Admits env s sender ab src d room nonce ekC) :
    (s.handleAuth env sender ab src d).1.sessions =
      register d.order s.sessions (authEntry env sender ab d room nonce ekC) := by
  rw [handleAuth_of_admits h]
  exact afterAuth_sessions

-- ---------------------------------------------------------------------------
-- Isolation between devices
-- ---------------------------------------------------------------------------

/-- Every session of another device is kept as it is, except the one evicted
because the table was full, which is a globally oldest one. -/
structure IsolatesOthers (m m' : SessionMap) (deviceId : String)
    (evicted : Option (RawKey × SessionEntry)) : Prop where
  evictedOldest : ∀ p, evicted = some p → maxTotalSessions ≤ m.size ∧ m[p.1]? = some p.2 ∧
    ∀ (k : RawKey) e, m[k]? = some e → p.2.lastSeen ≤ e.lastSeen
  kept : ∀ (k : RawKey) e, m[k]? = some e → e.deviceId ≠ deviceId →
    m'[k]? = some e ∨ ∃ p, evicted = some p ∧ p.1 = k

/-- **AUTH isolation between devices.** An accepted AUTH leaves every session of
another device as it is, the one evicted for the global cap apart, if and only
if the client's ephemeral key is not the key of a session of another device
(that one apart). -/
theorem auth_isolation_iff {s' : Signaling} {entry : SessionEntry}
    {resp : Except String AuthRespBody}
    (h : s.handleAuth env sender ab src d = (s', .accepted entry resp)) :
    IsolatesOthers s.sessions s'.sessions ab.deviceId (globalVictim d.order s.sessions) ↔
      ∀ ekC e, parsePublicKey ab.ekC = .ok ekC → s.sessions[ekC]? = some e →
        e.deviceId ≠ ab.deviceId → ∃ p, globalVictim d.order s.sessions = some p ∧ p.1 = ekC := by
  obtain ⟨room, nonce, key, hAdmits, rfl, rfl⟩ := handleAuth_accepted h
  rw [afterAuth_sessions]
  constructor
  · intro hIsolates ekC e hKey hEntry hDevice
    rw [hAdmits.ekC] at hKey
    cases hKey
    rcases hIsolates.kept key e hEntry hDevice with hKept | hVictim
    · rw [register_getElem?, authEntry_sessionPub, if_pos rfl] at hKept
      rw [← Option.some.inj hKept] at hDevice
      exact absurd rfl hDevice
    · exact hVictim
  · intro hFree
    refine ⟨fun p hp => globalVictim_oldest hp, fun k e hEntry hDevice => ?_⟩
    rw [register_getElem?]
    split
    · rename_i hKey
      subst hKey
      exact .inr (hFree _ e hAdmits.ekC hEntry hDevice)
    · rcases afterCaps_of_other d.order hEntry hDevice with hKept | hVictim
      · exact .inl hKept
      · exact .inr (Option.map_eq_some_iff.mp hVictim)

-- ---------------------------------------------------------------------------
-- A sample mesh
-- ---------------------------------------------------------------------------

end Signaling

/-- Primitives that show their inputs, for concrete runs. -/
def sampleCrypto : SignalingCrypto (RawKey × Nonce × Bytes) where
  publicKey a := a
  diffieHellman a p := a * p
  hkdfSession _ ikm := 1000000 + ikm.1 + ikm.2.1 + ikm.2.2
  encryptWithNonce k n p := (k, n, p)
  nonceOf c := some c.2.1
  decryptCt k c := if k = c.1 then some c.2.2 else none

/-- Signatures that verify on the given statements only. -/
def sampleSignatures (issued : List Bytes) : Signatures where
  sign _ _ := List.replicate 64 0
  verify _ msg _ := issued.contains msg

def sampleKeyText (k : RawKey) : String := keyB64 (keyBytes k)

/-- Base64 of 32 bytes, the last one `n`. -/
def sampleDeviceId (n : Nat) : String :=
  String.ofList (List.replicate 41 'A' ++ [Base64.symbol (n / 16), Base64.symbol (n % 16 * 4), '='])

/-- The certificate of device `i`, with the identity key `i`. -/
def sampleCert (i : RawKey) : DeviceCert :=
  { meshId := "mesh"
    version := 1
    deviceId := sampleDeviceId i
    ikX := sampleKeyText i
    ikSPub := sampleKeyText i
    allowedIp := "10.13.13." ++ toString i
    validFrom := 0
    notAfter := 1000000
    signature := some (keyB64 (List.replicate 64 0)) }

def sampleMesh : MeshConfig :=
  { meshId := "mesh"
    root := { publicKey := sampleKeyText 1, privateKey := sampleKeyText 1 }
    crl := { meshId := "mesh", version := 0, entries := [], signature := none }
    members := [] }

/-- A server without a rate limit for the devices 2 and 3. -/
def sampleServerEnv : SignalingEnv (RawKey × Nonce × Bytes) where
  crypto := sampleCrypto
  signatures := sampleSignatures [(sampleCert 2).canonicalBytes, (sampleCert 3).canonicalBytes]
  sha256 bs := bs
  toLowercase s := s
  toUppercase s := s
  debugText s := s
  addrText _ := "192.0.2.1:4000"
  serverPriv := 7
  serverPub := 7
  serverIkSPub := sampleKeyText 7
  serverName := "server"
  joinRateLimit := 0
  routeTtlSec := 60

/-- An AUTH of device `i` with the ephemeral key `ekC` and the nonce `n`. -/
def sampleAuth (i ekC : RawKey) (timestamp n : Nat) : AuthBody :=
  { deviceId := sampleDeviceId i
    cert := sampleCert i
    ekC := sampleKeyText ekC
    timestamp := timestamp
    nonce := keyB64 (Layout.beBytes 12 n)
    token := none }

def sampleSrc : SourceAddr := { octets := [192, 0, 2, 1], port := 4000 }

/-- The clock at `now`, and the ephemeral secret `ekS`. -/
def sampleAuthDraw (now : Nat) (ekS : RawKey) : AuthDraw :=
  { rateNow := now, now := now, ekSPriv := ekS, sessionId := "", order := .byKey }

/-- The session that this AUTH registers. -/
def sampleEntry (i ekC ekS : RawKey) (timestamp n now : Nat) : SessionEntry :=
  Signaling.authEntry sampleServerEnv i (sampleAuth i ekC timestamp n) (sampleAuthDraw now ekS)
    "default" (Layout.beBytes 12 n) ekC

/-- The server after this AUTH. -/
def sampleAdd (s : Signaling) (i ekC ekS : RawKey) (timestamp n now : Nat) : Signaling :=
  s.afterAuth sampleServerEnv i sampleSrc (sampleAuthDraw now ekS) (Layout.beBytes 12 n)
    (sampleEntry i ekC ekS timestamp n now)

/-- Device 2 with a session under the ephemeral key 50. -/
def sampleOneSession : Signaling := sampleAdd { mesh := sampleMesh } 2 50 11 0 1 0

/-- The checks pass for the two devices while the timestamp is in its window. -/
theorem sampleAuth_checks {s : Signaling} {i ekC : RawKey} {timestamp n now : Nat}
    (hMesh : s.mesh = sampleMesh) (hDevice : i = 2 ∨ i = 3) (hTime : timestampOk timestamp now)
    (hNow : now ≤ 1000000) :
    s.authChecks sampleServerEnv i (sampleAuth i ekC timestamp n) now =
      .ok (Layout.beBytes 12 n) := by
  have hKey : parsePublicKey (sampleKeyText i) = .ok i := by
    refine parsePublicKey_keyB64 ?_
    rcases hDevice with rfl | rfl
    · decide
    · decide
  have hIssued : (sampleCert i).canonicalBytes ∈
      [(sampleCert 2).canonicalBytes, (sampleCert 3).canonicalBytes] := by
    rcases hDevice with rfl | rfl
    · exact List.mem_cons_self ..
    · exact List.mem_cons_of_mem _ (List.mem_cons_self ..)
  refine Signaling.authChecks_eq_ok.mpr ⟨keyBytes 1, keyBytes i, ?_, ?_,
    parseSigPublic_keyB64 (keyBytes_length i), ?_, rfl, ?_, hTime,
    b64Fixed_keyB64 (Layout.beBytes_length 12 n)⟩
  · rw [hMesh]
    show parseSigPublic (keyB64 (keyBytes 1)) = _
    exact parseSigPublic_keyB64 (keyBytes_length 1)
  · exact DeviceCert.verify_eq_ok.mpr ⟨_, _, rfl, b64Fixed_keyB64 rfl,
      List.contains_iff_mem.mpr hIssued, Nat.zero_le now, hNow⟩
  · exact DeviceCert.matchesKeys_eq_ok.mpr ⟨hKey, b64Fixed_keyB64 (keyBytes_length i)⟩
  · rw [hMesh]
    rfl

namespace Signaling

section

variable {s : Signaling} {i ekC ekS : RawKey} {timestamp n now : Nat}

/-- The two devices are admitted while their timestamps are in the window. -/
theorem sampleAuth_admits (hMesh : s.mesh = sampleMesh) (hRooms : s.rooms = [])
    (hDevice : i = 2 ∨ i = 3) (hTime : timestampOk timestamp now) (hNow : now ≤ 1000000)
    (hFresh : Layout.beBytes 12 n ∉ s.replay[i]?.getD []) (hKey : ekC < 256 ^ 32) :
    Admits sampleServerEnv s i (sampleAuth i ekC timestamp n) sampleSrc (sampleAuthDraw now ekS)
      "default" (Layout.beBytes 12 n) ekC where
  rate := rfl
  room := by
    unfold resolveRoom
    rw [hRooms]
    rfl
  checks := sampleAuth_checks hMesh hDevice hTime hNow
  fresh := hFresh
  ekC := parsePublicKey_keyB64 hKey

theorem sampleAdd_of_admits
    (h : Admits sampleServerEnv s i (sampleAuth i ekC timestamp n) sampleSrc (sampleAuthDraw now ekS)
      "default" (Layout.beBytes 12 n) ekC) :
    ∃ resp, s.handleAuth sampleServerEnv i (sampleAuth i ekC timestamp n) sampleSrc
        (sampleAuthDraw now ekS) =
      (sampleAdd s i ekC ekS timestamp n now, .accepted (sampleEntry i ekC ekS timestamp n now) resp) :=
  ⟨_, handleAuth_of_admits h⟩

theorem sampleAdd_sessions :
    (sampleAdd s i ekC ekS timestamp n now).sessions =
      register .byKey s.sessions (sampleEntry i ekC ekS timestamp n now) :=
  afterAuth_sessions

theorem sampleAdd_activeIkX :
    (sampleAdd s i ekC ekS timestamp n now).activeIkX =
      updateActive s.activeIkX (register .byKey s.sessions (sampleEntry i ekC ekS timestamp n now)) i
        (evictedIkX .byKey s.sessions (sampleDeviceId i)) :=
  afterAuth_activeIkX

theorem sampleAdd_mesh : (sampleAdd s i ekC ekS timestamp n now).mesh = s.mesh := afterAuth_mesh

theorem sampleAdd_rooms : (sampleAdd s i ekC ekS timestamp n now).rooms = s.rooms := afterAuth_rooms

theorem sampleAdd_replay :
    (sampleAdd s i ekC ekS timestamp n now).replay =
      (s.replayCheck i (Layout.beBytes 12 n)).1.replay :=
  afterAuth_replay

end

/-- Device 3 is admitted beside the session of device 2. -/
theorem sampleOneSession_admits {ekC : RawKey} (h : ekC < 256 ^ 32) :
    Admits sampleServerEnv sampleOneSession 3 (sampleAuth 3 ekC 0 1) sampleSrc
      (sampleAuthDraw 0 12) "default" (Layout.beBytes 12 1) ekC := by
  refine sampleAuth_admits sampleAdd_mesh sampleAdd_rooms (.inr rfl) (by decide) (Nat.zero_le _) ?_ h
  rw [sampleOneSession, sampleAdd_replay]
  decide +kernel

theorem sampleOneSession_entry (k : RawKey) :
    sampleOneSession.sessions[k]? = if k = 50 then some (sampleEntry 2 50 11 0 1 0) else none := by
  rw [sampleOneSession, sampleAdd_sessions, register_getElem?]
  rfl

theorem sampleOneSession_mesh : sampleOneSession.mesh = sampleMesh := by
  rw [sampleOneSession, sampleAdd_mesh]

/-- Device 3 authenticates with an ephemeral key of its own. -/
theorem auth_isolation_sample :
    ∃ s' entry resp, sampleOneSession.handleAuth sampleServerEnv 3 (sampleAuth 3 60 0 1) sampleSrc
        (sampleAuthDraw 0 12) = (s', .accepted entry resp) ∧
      IsolatesOthers sampleOneSession.sessions s'.sessions (sampleAuth 3 60 0 1).deviceId
        (globalVictim .byKey sampleOneSession.sessions) := by
  obtain ⟨resp, h⟩ :=
    sampleAdd_of_admits (sampleOneSession_admits (by decide : (60 : RawKey) < 256 ^ 32))
  refine ⟨_, _, resp, h, (auth_isolation_iff h).mpr fun ekC e hKey hEntry _ => ?_⟩
  rw [(sampleOneSession_admits (by decide : (60 : RawKey) < 256 ^ 32)).ekC] at hKey
  cases hKey
  rw [sampleOneSession_entry] at hEntry
  cases hEntry

/-- Device 3 chooses the session key of device 2 as its ephemeral key, and
device 2 loses its session. -/
theorem auth_isolation_fails :
    ∃ s' entry resp, sampleOneSession.handleAuth sampleServerEnv 3 (sampleAuth 3 50 0 1) sampleSrc
        (sampleAuthDraw 0 12) = (s', .accepted entry resp) ∧
      ¬ IsolatesOthers sampleOneSession.sessions s'.sessions (sampleAuth 3 50 0 1).deviceId
        (globalVictim .byKey sampleOneSession.sessions) := by
  have hAdmits := sampleOneSession_admits (by decide : (50 : RawKey) < 256 ^ 32)
  obtain ⟨resp, h⟩ := sampleAdd_of_admits hAdmits
  refine ⟨_, _, resp, h, fun hIsolates => ?_⟩
  have hOld : sampleOneSession.sessions[(50 : RawKey)]? = some (sampleEntry 2 50 11 0 1 0) := by
    rw [sampleOneSession_entry, if_pos rfl]
  have hNew : (sampleAdd sampleOneSession 3 50 12 0 1 0).sessions[(50 : RawKey)]? =
      some (sampleEntry 3 50 12 0 1 0) := by
    rw [sampleAdd_sessions]
    exact register_self rfl
  have hRoom : ¬ maxTotalSessions ≤ sampleOneSession.sessions.size := by
    rw [sampleOneSession, sampleAdd_sessions]
    decide +kernel
  rcases hIsolates.kept 50 _ hOld (by decide +kernel) with hKept | ⟨p, hVictim, _⟩
  · rw [hNew] at hKept
    exact absurd (congrArg SessionEntry.ikX (Option.some.inj hKept)) (by decide : (3 : RawKey) ≠ 2)
  · exact hRoom (globalVictim_oldest hVictim).1

end Signaling

end LinkMesh
