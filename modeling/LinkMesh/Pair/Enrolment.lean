import LinkMesh.Client.Commands
import LinkMesh.Mesh.WireForm
import LinkMesh.Server.Addresses
import LinkMesh.Server.KeyQuery
import LinkMesh.Server.Preemption
import LinkMesh.Wire.RoundTrip

/-!
# From the join code to a session

Both ends of JOIN and AUTH: `run_join` (`linkmesh-client/src/main.rs`) and
`auth_handshake` (`linkmesh-client/src/connection.rs`) against the handlers of
`linkmesh-server/src/signaling.rs`. Every message is encoded, sealed, opened and
decoded. A datagram that is lost is a run of its own: what is here is one that
arrives, and the answer to it.

## Results

* `issued`               — what a device saves of a JOIN is what the server has
  issued.
* `enrolled_session_iff` — when a device that joined gets a session, and what
  both ends then agree on.
-/

namespace LinkMesh

open Std KeyMap Conn

variable {Ct : Type}

-- ---------------------------------------------------------------------------
-- Frames under the static keys
-- ---------------------------------------------------------------------------

def msgResponse : Nat := 0x03
def msgAuthResp : Nat := 0x0E

namespace SignalingCrypto

/-- `crypto::encrypt` under the static keys of both ends, and `frame_signaling`. -/
def staticFrame (C : SignalingCrypto Ct) (msgType : Nat) (priv pub peer : RawKey) (nonce : Nonce)
    (body : Bytes) : SignalFrame Ct :=
  { msgType := msgType
    sender := pub
    payload := C.encryptWithNonce (C.sharedSecret priv peer) nonce body }

/-- `crypto::decrypt` -/
def openStatic (C : SignalingCrypto Ct) (priv peer : RawKey) (payload : Ct) : Except String Bytes :=
  match C.nonceOf payload with
  | none => .error "密文过短"
  | some _ =>
    match C.decryptCt (C.sharedSecret priv peer) payload with
    | none => .error "解密失败（密钥不匹配或密文被篡改）"
    | some pt => .ok pt

end SignalingCrypto

namespace Signaling

/-- What the server answers a device without a session: the type and the body. -/
def staticAnswer : SignalOutcome Ct → Option (Nat × Except String Bytes)
  | .join (.joined resp) => some (msgResponse, encodeResponse resp)
  | .join (.refused msg) => some (msgResponse, encodeResponse (.err msg))
  | .auth (.accepted _ (.ok resp)) => some (msgAuthResp, encodeAuthResp resp)
  | .auth (.rejected (.refused msg)) => some (msgResponse, encodeResponse (.err msg))
  | .bye => some (msgResponse, encodeResponse .okEmpty)
  | .unauthenticated => some (msgResponse, encodeResponse (.err "尚未认证（请先 --join 并完成 AUTH 握手）"))
  | _ => none

/-- The server takes a frame, and the frame that it sends back. -/
def exchange (env : SignalingEnv Ct) (s : Signaling) (f : SignalFrame Ct) (src : SourceAddr) (d : SignalDraw)
    (nonce : Nonce) : Signaling × Option (SignalFrame Ct) :=
  let (s, outcome) := s.handleSignaling env f src d
  match staticAnswer outcome with
  | some (msgType, .ok body) =>
    (s, some (env.crypto.staticFrame msgType env.serverPriv env.serverPub f.sender nonce body))
  | _ => (s, none)

end Signaling

-- ---------------------------------------------------------------------------
-- What the client reads
-- ---------------------------------------------------------------------------

/-- `fetch_server_info`: what the client reads off the frame. -/
def ServerInfoFrame.read (f : ServerInfoFrame) : Except String ServerInfo := do
  let body ← (decodeServerInfoBody f.payload).mapError ("解析 ServerInfo 失败: " ++ ·)
  .ok body.serverInfo

/-- `fetch_server_key_info` -/
def ServerInfoFrame.readKey (f : ServerInfoFrame) : Except String RawKey := do
  let info ← f.read
  parsePublicKey info.serverIkX

/-- The wait of `run_join` for its answer. -/
def readJoinAnswer (C : SignalingCrypto Ct) (priv peer : RawKey) (f : Option (SignalFrame Ct)) :
    Except String ResponseBody :=
  match f with
  | none => .error "等待 JOIN 响应超时"
  | some f =>
    if f.msgType ≠ msgResponse then .error "等待 JOIN 响应超时"
    else do
      let plain ← C.openStatic priv peer f.payload
      (decodeResponse plain).mapError ("解析失败: " ++ ·)

/-- The wait of `auth_handshake` for its answer. -/
def readAuthAnswer (C : SignalingCrypto Ct) (priv peer : RawKey) (f : Option (SignalFrame Ct)) :
    Except String AuthRespBody :=
  match f with
  | none => .error "等待 AUTH_RESP 超时"
  | some f =>
    if f.msgType = msgAuthResp then do
      let plain ← C.openStatic priv peer f.payload
      (decodeAuthResp plain).mapError ("AUTH_RESP 解析失败: " ++ ·)
    else if f.msgType = msgResponse then
      -- a refusal
      match C.openStatic priv peer f.payload >>= decodeResponse with
      | .ok resp => .error (resp.error.getD "认证被拒绝")
      | .error _ => .error "等待 AUTH_RESP 超时"
    else .error "等待 AUTH_RESP 超时"

-- ---------------------------------------------------------------------------
-- A JOIN
-- ---------------------------------------------------------------------------

/-- The identity is one that `genkey` makes. -/
structure DeviceIdentity.Generated (C : SignalingCrypto Ct) (id : DeviceIdentity) (priv : RawKey)
    (ikSPub : Bytes) : Prop where
  privRange : priv < 256 ^ 32
  pubRange : C.publicKey priv < 256 ^ 32
  ikX : id.ikX = ⟨keyB64 (keyBytes (C.publicKey priv)), keyB64 (keyBytes priv)⟩
  ikSLength : ikSPub.length = 32
  ikS : id.ikS.publicKey = keyB64 ikSPub

/-- `--join` goes through with this server, which answers from `s`; the ServerInfo
may come out of the cache. -/
structure Enrols (cli : CliEnv) (env : SignalingEnv Ct) (c c' : ClientFile) (s s' : Signaling)
    (server : String) : Type where
  vmnic : String
  code : String
  token : Option String
  id : DeviceIdentity
  identity : c.identity = some id
  priv : RawKey
  ikSPub : Bytes
  generated : id.Generated env.crypto priv ikSPub
  x : Joining
  entry : SavedServer
  info : ServerInfo
  body : JoinBody
  cert : DeviceCert
  ip : String
  joins : Joins cli c server vmnic code token x entry info body cert ip
  saved : c' = c.saveJoin server vmnic info cert ip (ClientFile.joinToken entry token)
  frame : ServerInfoFrame
  built : KeyqueryRun.BuiltFrom env s.mesh frame
  fetched : frame.read = .ok info
  bytes : Bytes
  encodes : encodeJoin body = .ok bytes
  src : SourceAddr
  draw : SignalDraw
  nonce : Nonce
  answerNonce : Nonce
  /-- the shared secret is with the key of the ServerInfo -/
  serverKey : RawKey
  parses : parsePublicKey info.serverIkX = .ok serverKey
  after : s' = (s.exchange env
    (env.crypto.staticFrame msgJoin priv (env.crypto.publicKey priv) serverKey nonce bytes) src draw answerNonce).1
  answered : x.answer = readJoinAnswer env.crypto priv serverKey (s.exchange env
    (env.crypto.staticFrame msgJoin priv (env.crypto.publicKey priv) serverKey nonce bytes) src draw answerNonce).2

/-- The keys of the server are generated. -/
structure SignalingEnv.Generated (env : SignalingEnv Ct) : Prop where
  pub : env.serverPub = env.crypto.publicKey env.serverPriv
  pubRange : env.serverPub < 256 ^ 32
  ikS : IsB64Text 32 env.serverIkSPub

-- ---------------------------------------------------------------------------
-- An attempt to connect
-- ---------------------------------------------------------------------------

/-- What a handshake takes from the crates, on the same ones as the server. -/
def SignalingEnv.connEnv (env : SignalingEnv Ct) : ConnEnv Ct :=
  { crypto := env.crypto, signatures := env.signatures, debugText := env.debugText }

/-- What one attempt reads from outside: the answer to KEYQUERY, the clock of the
device, twice, what both ends draw, and the source address that the server sees. -/
structure Attempt where
  frame : ServerInfoFrame
  now : Nat
  timestamp : Nat
  ekCPriv : RawKey
  nonce : Bytes
  sealNonce : Nonce
  src : SourceAddr
  draw : SignalDraw
  answerNonce : Nonce

/-- Keys, nonces and times are of their types. -/
structure Attempt.Typed (C : SignalingCrypto Ct) (y : Attempt) : Prop where
  ekC : C.publicKey y.ekCPriv < 256 ^ 32
  ekS : C.publicKey y.draw.auth.ekSPriv < 256 ^ 32
  nonce : y.nonce.length = 12
  timestamp : y.timestamp < 256 ^ 8
  sessionId : IsB64Text 16 y.draw.auth.sessionId

def Attempt.handshake (y : Attempt) (answer : Except String AuthRespBody) : Handshake :=
  { presented := y.frame.readKey, now := y.now, ekCPriv := y.ekCPriv, nonce := y.nonce, answer := answer }

namespace Conn

/-- The body of AUTH. -/
def authBody (C : SignalingCrypto Ct) (cert : DeviceCert) (token : Option String) (y : Attempt) : AuthBody :=
  { deviceId := cert.deviceId
    cert := cert
    ekC := keyB64 (keyBytes (C.publicKey y.ekCPriv))
    timestamp := y.timestamp
    nonce := keyB64 y.nonce
    token := token }

/-- `run` up to its registration, against the server: the key of the device, and the
token that is saved. -/
def connectTo (env : SignalingEnv Ct) (t : Signaling) (c : Conn) (localPub : RawKey) (token : Option String)
    (y : Attempt) : Signaling × Except String Conn :=
  match c.ensureServerPubkey (y.handshake (.error "")) with
  | .error e => (t, .error e)
  | .ok received =>
    match c.server.deviceCert with
    | none => (t, .error "未加入网格，缺少设备证书")
    | some cert =>
      match encodeAuth (authBody env.crypto cert token y) with
      | .error e => (t, .error s!"序列化失败: {e}")
      | .ok bytes =>
        let frame := env.crypto.staticFrame msgAuth c.localPriv localPub received y.sealNonce bytes
        let (t', answer) := t.exchange env frame y.src y.draw y.answerNonce
        (t', (authHandshake env.connEnv { c with serverPub := received }
          (y.handshake (readAuthAnswer env.crypto c.localPriv received answer))).2)

end Conn

/-- `Conn::new`, with the key of the device and the token of the server. -/
def ClientFile.openConn (c : ClientFile) (k : ConnectionEntry) : Except String (Conn × RawKey × Option String) := do
  let some entry := c.findServer k.server | .error s!"服务器 {k.server} 未配置"
  let some nic := c.findVmnic k.vmNic | .error s!"虚拟网卡 {k.vmNic} 未配置"
  let priv ← c.privateKey
  let pub ← c.publicKey
  failIf (IpAddr.parseSocket entry.endpoint).isNone
    s!"服务器地址 {entry.endpoint} 解析失败: invalid socket address syntax"
  .ok
    (Conn.new
      { server := entry.toServerEntry, vmnicName := nic.name, vmnicIp := nic.ip, privateKey := priv },
      pub, entry.token)

/-- What it takes for a certificate to get a session. -/
structure Opens (env : SignalingEnv Ct) (t : Signaling) (cert : DeviceCert) (pub : RawKey)
    (token : Option String) (y : Attempt) : Prop where
  /-- the certificate is valid on both clocks -/
  clientClock : cert.validFrom ≤ y.now ∧ y.now ≤ cert.notAfter
  serverClock : cert.validFrom ≤ y.draw.auth.now ∧ y.draw.auth.now ≤ cert.notAfter
  timestamp : timestampOk y.timestamp y.draw.auth.now = true
  encodes : FitsOptText tokenLen token
  room : ∃ room, t.resolveRoom env token = .ok room
  rate : (t.rateLimited env y.src y.draw.auth.rateNow).2 = false
  /-- no client has taken the device's key for its ephemeral one -/
  free : pub ∉ t.sessions
  fresh : y.nonce ∉ t.replay[pub]?.getD []
  /-- the device is not revoked; the client reads the list without white space -/
  live : ∀ e ∈ t.mesh.crl.entries, trim e.deviceId ≠ cert.deviceId
  list : ∃ bytes, crlFromDomain t.mesh.crl = .ok bytes
  ip : (IpAddr.parse cert.allowedIp).isSome

/-- Both ends of a session. -/
structure Conn.InSession (t : Signaling) (cert : DeviceCert) (pub ekC : RawKey) (c : Conn) (e : SessionEntry) :
    Prop where
  entry : t.sessions[ekC]? = some e
  sessionPub : c.sessionPub = some ekC
  key : c.sessionSk = some e.sk
  counter : e.counterRx = 0
  identity : e.ikX = pub
  device : e.deviceId = cert.deviceId
  ip : e.ip = cert.allowedIp
  localIp : c.localIp = e.ip
  version : c.server.crlVersion = some t.mesh.crl.version

-- ---------------------------------------------------------------------------
-- The frames are read
-- ---------------------------------------------------------------------------

section

variable {env : SignalingEnv Ct} {C : SignalingCrypto Ct} {priv priv' : RawKey} {nonce : Nonce} {body : Bytes}
  {m m' : MeshConfig} {info : ServerInfo} {msgType : Nat}

/-- Both ends have the same secret. -/
theorem SignalingCrypto.Lawful.shared_comm (hC : C.Lawful) :
    C.sharedSecret priv (C.publicKey priv') = C.sharedSecret priv' (C.publicKey priv) :=
  hC.dh_comm priv priv'

@[simp] theorem staticFrame_sender {pub peer : RawKey} :
    (C.staticFrame msgType priv pub peer nonce body).sender = pub := rfl

theorem SignalingCrypto.Lawful.openStatic (hC : C.Lawful) :
    C.openStatic priv (C.publicKey priv')
      (C.staticFrame msgType priv' (C.publicKey priv') (C.publicKey priv) nonce body).payload = .ok body := by
  unfold SignalingCrypto.openStatic SignalingCrypto.staticFrame
  dsimp only
  rw [hC.nonceOf_encrypt]
  dsimp only
  rw [hC.shared_comm, hC.decrypt_encrypt, if_pos rfl]

theorem b64Text_trim {n : Nat} {s : String} (h : IsB64Text n s) : trim s = s := by
  obtain ⟨bs, _, rfl⟩ := h
  exact trim_keyB64 bs

/-- What the server says about itself. -/
structure ServerInfo.Describes (env : SignalingEnv Ct) (m : MeshConfig) (info : ServerInfo) : Prop where
  root : ∃ rootPub, m.rootPublicRaw = .ok rootPub ∧ info.meshRootPub = keyB64 rootPub
  serverIkX : info.serverIkX = keyB64 (keyBytes env.serverPub)
  version : info.crlVersion = m.crl.version
  protocol : info.protocolVer = 2
  signed : ∃ seed, m.rootSeed = .ok seed ∧
    info.signature = some (keyB64 (env.signatures.sign seed info.canonicalBytes))
  serverIkSPub : info.serverIkSPub = env.serverIkSPub

theorem describes_build (h : Signaling.buildServerInfo env m = .ok info) : info.Describes env m := by
  obtain ⟨rootPub, hRoot, h⟩ := bind_eq_ok.mp h
  obtain ⟨seed, hSeed, h⟩ := bind_eq_ok.mp h
  cases h
  exact ⟨⟨rootPub, hRoot, rfl⟩, rfl, rfl, rfl, ⟨seed, hSeed, rfl⟩, rfl⟩

/-- Its texts are in their wire spelling. -/
theorem ServerInfo.Describes.respelled (h : info.Describes env m) (hKeys : env.Generated) :
    info.respelled = info := by
  obtain ⟨rootPub, _, hRoot⟩ := h.root
  obtain ⟨seed, _, hSig⟩ := h.signed
  have hMesh : trim info.meshRootPub = info.meshRootPub := by rw [hRoot, trim_keyB64]
  have hX : trim info.serverIkX = info.serverIkX := by rw [h.serverIkX, trim_keyB64]
  have hS : trim info.serverIkSPub = info.serverIkSPub := by rw [h.serverIkSPub, b64Text_trim hKeys.ikS]
  have hText : info.signature.map trim = info.signature := by rw [hSig, Option.map_some, trim_keyB64]
  unfold ServerInfo.respelled
  rw [hMesh, hX, hS, hText]

theorem ServerInfo.Describes.inRange (h : info.Describes env m) (hVersion : m.crl.version ≤ maxCrlEntries) :
    info.InRange := by
  unfold maxCrlEntries at hVersion
  refine ⟨?_, ?_⟩
  · rw [h.protocol]
    decide
  · rw [h.version]
    omega

/-- The client reads what the server has encoded. -/
theorem ServerInfoFrame.read_eq (f : ServerInfoFrame) (h : f.info.Describes env m) (hKeys : env.Generated)
    (hVersion : m.crl.version ≤ maxCrlEntries) : f.read = .ok f.info := by
  have hRead := isCodec_serverInfoBody.round_trip
    (serverInfoBodyRecord_typed.mpr (h.inRange hVersion)) f.encoded
  rw [serverInfoBodyRecord_spell] at hRead
  unfold ServerInfoFrame.read
  rw [hRead]
  show Except.ok f.info.respelled = _
  rw [h.respelled hKeys]

theorem ServerInfoFrame.readKey_eq (f : ServerInfoFrame) (h : f.info.Describes env m) (hKeys : env.Generated)
    (hVersion : m.crl.version ≤ maxCrlEntries) : f.readKey = .ok env.serverPub := by
  unfold ServerInfoFrame.readKey
  rw [f.read_eq h hKeys hVersion, Record.ok_bind, h.serverIkX]
  exact parsePublicKey_keyB64 hKeys.pubRange

/-- A frame out of the cache says the same, but for the version. -/
theorem describes_built {f : ServerInfoFrame} (h : KeyqueryRun.BuiltFrom env m f) :
    f.info.Describes env (KeyqueryRun.atVersion m f.info.crlVersion) := describes_build h.build

end

-- ---------------------------------------------------------------------------
-- What a JOIN leaves
-- ---------------------------------------------------------------------------

namespace Signaling

variable {env : SignalingEnv Ct} {s : Signaling} {f : SignalFrame Ct} {src : SourceAddr} {d : SignalDraw}
  {nonce : Nonce} {msgType : Nat} {body : Bytes}

theorem exchange_fst : (s.exchange env f src d nonce).1 = (s.handleSignaling env f src d).1 := by
  unfold exchange
  dsimp only
  split
  · rfl
  · rfl

theorem exchange_snd {g : SignalFrame Ct} : (s.exchange env f src d nonce).2 = some g ↔
    ∃ msgType body, staticAnswer (s.handleSignaling env f src d).2 = some (msgType, .ok body) ∧
      g = env.crypto.staticFrame msgType env.serverPriv env.serverPub f.sender nonce body := by
  unfold exchange
  dsimp only
  constructor
  · intro h
    split at h
    · rename_i msgType body hAnswer
      cases h
      exact ⟨msgType, body, hAnswer, rfl⟩
    · cases h
  · rintro ⟨msgType, body, hAnswer, rfl⟩
    rw [hAnswer]

end Signaling

section

variable {env : SignalingEnv Ct} {s : Signaling} {priv : RawKey} {nonce answerNonce : Nonce} {bytes : Bytes}
  {src : SourceAddr} {d : SignalDraw}

/-- The server opens what the device seals for it. -/
theorem decrypt_staticFrame (hC : env.crypto.Lawful) (hKeys : env.Generated) {msgType : Nat} :
    env.crypto.decrypt (env.crypto.sharedSecret env.serverPriv (env.crypto.publicKey priv))
      (env.crypto.staticFrame msgType priv (env.crypto.publicKey priv) env.serverPub nonce bytes).payload =
        some bytes := by
  rw [hKeys.pub, ← hC.shared_comm]
  exact hC.decrypt_encrypt' _ _ _

/-- And the device opens what the server seals for it. -/
theorem openStatic_answer (hC : env.crypto.Lawful) (hKeys : env.Generated) {msgType : Nat} :
    env.crypto.openStatic priv env.serverPub
      (env.crypto.staticFrame msgType env.serverPriv env.serverPub (env.crypto.publicKey priv) nonce bytes).payload =
        .ok bytes := by
  rw [hKeys.pub]
  exact hC.openStatic

/-- A JOIN of a device that has no session key of its own name. -/
theorem handleSignaling_joinFrame (hC : env.crypto.Lawful) (hKeys : env.Generated) {jb : JoinBody}
    (hBody : decodeJoin bytes = .ok jb) (hFree : env.crypto.publicKey priv ∉ s.sessions) :
    s.handleSignaling env
        (env.crypto.staticFrame msgJoin priv (env.crypto.publicKey priv) env.serverPub nonce bytes) src d =
      ((s.handleJoin env (env.crypto.publicKey priv) jb src d.join).1,
        .join (s.handleJoin env (env.crypto.publicKey priv) jb src d.join).2) :=
  Signaling.handleSignaling_join
    (Signaling.joinOf_of_body src d rfl hFree (decrypt_staticFrame hC hKeys) hBody)

/-- A JOIN whose answer is a success is handled by `handle_join`, which has issued a
certificate. -/
theorem joined_of_answer (hC : env.crypto.Lawful) (hKeys : env.Generated) {jb : JoinBody} {resp : ResponseBody}
    (hBody : decodeJoin bytes = .ok jb) (hOk : resp.ok = true)
    (hAnswer : readJoinAnswer env.crypto priv env.serverPub (s.exchange env
      (env.crypto.staticFrame msgJoin priv (env.crypto.publicKey priv) env.serverPub nonce bytes) src d
      answerNonce).2 = .ok resp) :
    ∃ sent pt, s.handleJoin env (env.crypto.publicKey priv) jb src d.join =
        ((s.exchange env (env.crypto.staticFrame msgJoin priv (env.crypto.publicKey priv) env.serverPub nonce bytes)
          src d answerNonce).1, .joined sent) ∧
      encodeResponse sent = .ok pt ∧ decodeResponse pt = .ok resp := by
  rw [Signaling.exchange_fst]
  cases hSent : (s.exchange env (env.crypto.staticFrame msgJoin priv (env.crypto.publicKey priv) env.serverPub
      nonce bytes) src d answerNonce).2 with
  | none =>
    rw [hSent] at hAnswer
    cases hAnswer
  | some g =>
    obtain ⟨msgType, pt, hStatic, rfl⟩ := Signaling.exchange_snd.mp hSent
    rw [hSent] at hAnswer
    have hRead : decodeResponse pt = .ok resp := by
      unfold readJoinAnswer at hAnswer
      dsimp only at hAnswer
      split at hAnswer
      · cases hAnswer
      · rw [staticFrame_sender, openStatic_answer hC hKeys, Record.ok_bind, mapError_eq_ok] at hAnswer
        exact hAnswer
    by_cases hFree : env.crypto.publicKey priv ∈ s.sessions
    · -- a datagram under a session key is a session request, which this is not
      have hKind : msgJoin ≠ msgKeyquery := by decide
      rw [Signaling.handleSignaling_session d hKind hFree] at hStatic
      cases hStatic
    · rw [handleSignaling_joinFrame hC hKeys hBody hFree] at hStatic ⊢
      generalize s.handleJoin env (env.crypto.publicKey priv) jb src d.join = end_ at *
      obtain ⟨s', outcome⟩ := end_
      cases outcome with
      | joined sent =>
        unfold Signaling.staticAnswer at hStatic
        obtain ⟨_, hEncode⟩ := Prod.mk.inj (Option.some.inj hStatic)
        exact ⟨sent, pt, rfl, hEncode, hRead⟩
      | refused msg =>
        -- a refusal is no success
        unfold Signaling.staticAnswer at hStatic
        obtain ⟨_, hEncode⟩ := Prod.mk.inj (Option.some.inj hStatic)
        have hBack := ResponseBody.decode_encode (r := .err msg) trivial (.err msg) hEncode
        rw [hRead] at hBack
        cases hBack
        cases hOk
      | dropped => cases hStatic
      | noServerInfo msg => cases hStatic
      | notEncoded msg => cases hStatic

end

/-- The certificate is this device's, signed by the root. -/
structure DeviceCert.IssuedTo (env : SignalingEnv Ct) (seed : Bytes) (pub : RawKey) (ikSPub : Bytes)
    (c : DeviceCert) : Prop where
  deviceId : c.deviceId = deviceIdB64 env.meshEnv pub ikSPub
  ikX : c.ikX = keyB64 (keyBytes pub)
  ikSPub : c.ikSPub = keyB64 ikSPub
  signature : c.signature = some (keyB64 (env.signatures.sign seed c.canonicalBytes))
  canonical : c.Canonical
  encodes : ∃ bytes, deviceCertFromDomain c = .ok bytes

/-- What is saved of a server trusts the mesh of this root, and holds this certificate. -/
structure ServerEntry.Enrolled (env : SignalingEnv Ct) (root : Bytes) (m : MeshConfig) (cert : DeviceCert)
    (e : ServerEntry) : Prop where
  root : e.meshRootPub = some (keyB64 root)
  cert : e.deviceCert = some cert
  serverKey : e.publicKey = some (keyB64 (keyBytes env.serverPub))
  version : ∃ v ≤ m.crl.version, e.crlVersion = some v

theorem DeviceCert.Canonical.respelled {c : DeviceCert} (h : c.Canonical) : c.respelled = c := by
  have hSig : c.signature.map trim = c.signature := by
    cases hText : c.signature with
    | none => rfl
    | some sig => rw [Option.map_some, b64Text_trim (h.signature sig hText)]
  unfold DeviceCert.respelled
  rw [b64Text_trim h.deviceId, b64Text_trim h.ikX, b64Text_trim h.ikSPub, hSig]

section

variable {env : SignalingEnv Ct} {m : MeshConfig} {jb : JoinBody} {d : JoinDraw} {ip granted : String}
  {seed ikSPub : Bytes} {pub : RawKey} {verifyingKey : Bytes → Bytes}

/-- What a JOIN is issued. -/
theorem Signaling.Issues.issuedTo (hLawful : env.signatures.Lawful verifyingKey)
    (hSha : ∀ bs, (env.sha256 bs).length = 32) (hPub : pub < 256 ^ 32) (hIkS : ikSPub.length = 32)
    (hX : jb.ikX = keyB64 (keyBytes pub)) (hS : jb.ikSPub = keyB64 ikSPub)
    (hTime : d.issueNow + certValiditySecs < 256 ^ 8) (h : Signaling.Issues env m jb d ip granted seed)
    (hEncodes : ∃ bytes, deviceCertFromDomain (MeshConfig.newMember env.meshEnv m jb.deviceId jb.ikX jb.ikSPub
      granted seed d.issueNow).cert = .ok bytes) :
    (MeshConfig.newMember env.meshEnv m jb.deviceId jb.ikX jb.ikSPub granted seed
      d.issueNow).cert.IssuedTo env seed pub ikSPub := by
  obtain ⟨_, keyX, keyS, _, hKeyX, hKeyS, hDevice, _⟩ := Signaling.joinChecks_eq_ok.mp h.checks
  rw [hX, parsePublicKey_keyB64 hPub] at hKeyX
  rw [hS, parseSigPublic_keyB64 hIkS] at hKeyS
  cases hKeyX
  cases hKeyS
  have hRange : (MeshConfig.newMember env.meshEnv m jb.deviceId jb.ikX jb.ikSPub granted seed
      d.issueNow).cert.InRange := MeshConfig.newCert_inRange m jb.deviceId jb.ikX jb.ikSPub granted hTime
  refine ⟨hDevice, hX, hS, rfl, ?_, hEncodes⟩
  refine ⟨hRange.1, ?_, ?_, ?_, hRange.2.1, hRange.2.2, fun sig hSig => ?_⟩
  · show IsB64Text 32 jb.deviceId
    rw [hDevice]
    refine isB64Text_keyB64 ?_
    rw [List.length_take]
    show min 32 (env.sha256 _).length = 32
    rw [hSha, Nat.min_self]
  · show IsB64Text 32 jb.ikX
    rw [hX]
    exact isB64Text_keyB64 (keyBytes_length _)
  · show IsB64Text 32 jb.ikSPub
    rw [hS]
    exact isB64Text_keyB64 hIkS
  · cases hSig
    exact isB64Text_keyB64 (hLawful.sign_length _ _)

end

theorem respelled_join {deviceId ip : String} {cert : DeviceCert} {info : ServerInfo} {crl : Crl} :
    (ResponseBody.okWithData (.join deviceId ip cert info crl)).respelled.data =
      .join (trim deviceId) ip cert.respelled info.respelled crl.respelled := rfl

/-- What a JOIN is answered, when it is. -/
theorem joined_eq {env : SignalingEnv Ct} {m : MeshConfig} {cert : DeviceCert} {ip : String} {sent : ResponseBody}
    (h : Signaling.joinAnswer env m cert ip = .joined sent) :
    ∃ info, Signaling.buildServerInfo env m = .ok info ∧
      sent = .okWithData (.join cert.deviceId ip cert info m.crl) := by
  unfold Signaling.joinAnswer at h
  split at h
  · cases h
  · rename_i info hInfo
    dsimp only at h
    split at h
    · cases h
    · cases h
      exact ⟨info, hInfo, rfl⟩

/-- What the device reads of it. -/
theorem decode_joined {env : SignalingEnv Ct} {m : MeshConfig} {cert : DeviceCert} {ip : String} {sent : ResponseBody}
    {pt : Bytes} (h : Signaling.joinAnswer env m cert ip = .joined sent) (hRange : cert.InRange)
    (hVersion : m.crl.version ≤ maxCrlEntries) (hCrl : m.crl.InRange) (hEncode : encodeResponse sent = .ok pt) :
    ∃ info, sent = .okWithData (.join cert.deviceId ip cert info m.crl) ∧ decodeResponse pt = .ok sent.respelled := by
  obtain ⟨info, hInfo, rfl⟩ := joined_eq h
  refine ⟨info, rfl, ResponseBody.decode_encode ?_ (.okWithData _ nofun) hEncode⟩
  exact ⟨hRange, (describes_build hInfo).inRange hVersion, hCrl⟩

namespace Enrols

variable {cli : CliEnv} {env : SignalingEnv Ct} {c c' : ClientFile} {s s' : Signaling} {server : String}
  {verifyingKey : Bytes → Bytes} {seed : Bytes}

/-- The public key of the device. -/
def pub (h : Enrols cli env c c' s s' server) : RawKey := env.crypto.publicKey h.priv

/-- What the device asks for has its keys in their wire spelling. -/
theorem body_eq (h : Enrols cli env c c' s s' server) :
    h.body.deviceId = deviceIdB64 cli.mesh h.pub h.ikSPub ∧ h.body.ikX = keyB64 (keyBytes h.pub) ∧
      h.body.ikSPub = keyB64 h.ikSPub := by
  have hPublic : c.publicKey = .ok h.pub := by
    unfold ClientFile.publicKey
    rw [h.identity]
    dsimp only
    rw [h.generated.ikX]
    exact parsePublicKey_keyB64 h.generated.pubRange
  have hDevice : c.deviceId cli = .ok (deviceIdB64 cli.mesh h.pub h.ikSPub) := by
    unfold ClientFile.deviceId
    rw [h.identity]
    dsimp only
    rw [h.generated.ikX, h.generated.ikS, parsePublicKey_keyB64 h.generated.pubRange, Record.ok_bind,
      parseSigPublic_keyB64 h.generated.ikSLength, Record.ok_bind]
    rfl
  have hSigning : c.signingPublicB64 = some (keyB64 h.ikSPub) := by
    unfold ClientFile.signingPublicB64
    rw [h.identity, Option.map_some, h.generated.ikS]
  obtain ⟨localPub, hLocal, hBody⟩ := h.joins.asks
  rw [hPublic] at hLocal
  cases hLocal
  unfold ClientFile.joinBody at hBody
  rw [hDevice, Record.ok_bind, hSigning] at hBody
  rw [← Except.ok.inj hBody]
  exact ⟨rfl, rfl, rfl⟩

/-- The server decodes what the device encodes. -/
theorem decodes (hSha : ∀ bs, (env.sha256 bs).length = 32) (hMesh : cli.mesh = env.meshEnv)
    (h : Enrols cli env c c' s s' server) : decodeJoin h.bytes = .ok h.body := by
  obtain ⟨hDevice, hX, hS⟩ := h.body_eq
  refine decodeJoin_encodeJoin ?_ ?_ ?_ h.encodes
  · rw [hDevice, hMesh]
    refine isB64Text_keyB64 ?_
    rw [List.length_take]
    show min 32 (env.sha256 _).length = 32
    rw [hSha, Nat.min_self]
  · rw [hX]
    exact isB64Text_keyB64 (keyBytes_length _)
  · rw [hS]
    exact isB64Text_keyB64 h.generated.ikSLength

/-- The ServerInfo that the device verifies is the one of the mesh, at the version of
the registry or an earlier one. -/
theorem info_eq (hKeys : env.Generated) (hVersion : s.mesh.crl.version ≤ maxCrlEntries)
    (h : Enrols cli env c c' s s' server) :
    h.info.Describes env (KeyqueryRun.atVersion s.mesh h.info.crlVersion) ∧
      h.info.crlVersion ≤ s.mesh.crl.version := by
  have hDescribes := describes_built h.built
  have hRead := h.frame.read_eq hDescribes hKeys (Nat.le_trans h.built.version hVersion)
  rw [h.fetched] at hRead
  rw [Except.ok.inj hRead]
  exact ⟨hDescribes, h.built.version⟩

/-- So the JOIN is sealed for this server. -/
theorem serverKey_eq (hKeys : env.Generated) (hVersion : s.mesh.crl.version ≤ maxCrlEntries)
    (h : Enrols cli env c c' s s' server) : h.serverKey = env.serverPub := by
  have hParse := h.parses
  rw [(h.info_eq hKeys hVersion).1.serverIkX, parsePublicKey_keyB64 hKeys.pubRange] at hParse
  exact (Except.ok.inj hParse).symm

/-- The server has answered the JOIN from its registry, and the device reads that. -/
theorem handled (hC : env.crypto.Lawful) (hKeys : env.Generated) (hSha : ∀ bs, (env.sha256 bs).length = 32)
    (hMesh : cli.mesh = env.meshEnv) (hVersion : s.mesh.crl.version ≤ maxCrlEntries)
    (h : Enrols cli env c c' s s' server) :
    ∃ sent pt resp deviceId info crl, (Signaling.enroll env s.mesh h.body h.draw.join).2 = .joined sent ∧
      s'.mesh = (Signaling.enroll env s.mesh h.body h.draw.join).1 ∧ encodeResponse sent = .ok pt ∧
      decodeResponse pt = .ok resp ∧ resp.data = .join deviceId h.ip h.cert info crl := by
  obtain ⟨resp, deviceId, info, crl, hAnswer, hOk, hData⟩ := h.joins.answer
  rw [h.answered, h.serverKey_eq hKeys hVersion] at hAnswer
  obtain ⟨sent, pt, hJoin, hEncode, hDecode⟩ :=
    joined_of_answer hC hKeys (h.decodes hSha hMesh) hOk hAnswer
  have hReaches : Signaling.ReachesRegistry env s h.pub h.body h.src h.draw.join := by
    rcases Signaling.handleJoin_cases env s h.pub h.body h.src h.draw.join with
      ⟨_, r, outcome, hEq, hEnd⟩ | ⟨hReaches, _⟩
    · have hSame := congrArg Prod.snd (hEq.symm.trans hJoin)
      dsimp only at hSame
      rcases hEnd with rfl | ⟨e, rfl⟩
      · cases hSame
      · cases hSame
    · exact hReaches
  refine ⟨sent, pt, resp, deviceId, info, crl, Signaling.enroll_of_joined (congrArg Prod.snd hJoin), ?_, hEncode,
    hDecode, hData⟩
  rw [← Signaling.handleJoin_mesh hReaches, show s.handleJoin env h.pub h.body h.src h.draw.join = _ from hJoin,
    ← h.serverKey_eq hKeys hVersion]
  exact congrArg (·.mesh) h.after

/-- The server has issued the certificate that the device saves. -/
theorem issued (hC : env.crypto.Lawful) (hKeys : env.Generated) (hLawful : env.signatures.Lawful verifyingKey)
    (hSha : ∀ bs, (env.sha256 bs).length = 32) (hMesh : cli.mesh = env.meshEnv)
    (hVersion : s.mesh.crl.version ≤ maxCrlEntries) (hTyped : s.mesh.crl.InRange)
    (h : Enrols cli env c c' s s' server) (hTime : h.draw.join.issueNow + certValiditySecs < 256 ^ 8) :
    ∃ seed, s.mesh.rootSeed = .ok seed ∧ h.cert.IssuedTo env seed h.pub h.ikSPub ∧
      h.cert.validFrom = h.draw.join.issueNow ∧ h.cert.notAfter = h.draw.join.issueNow + certValiditySecs ∧
      s'.mesh = (Signaling.enroll env s.mesh h.body h.draw.join).1 ∧ h.cert ∈ s'.mesh.members.map (·.cert) := by
  obtain ⟨_, hX, hS⟩ := h.body_eq
  obtain ⟨sent, pt, resp, deviceId, _, _, hEnroll, hAfter, hEncode, hDecode, hData⟩ :=
    h.handled hC hKeys hSha hMesh hVersion
  rcases Signaling.enroll_cases env s.mesh h.body h.draw.join with
    ⟨⟨e, hEq⟩, _⟩ | ⟨ip, granted, seed, hIssues, ⟨e, _, hEq⟩ | ⟨aliasName, _, hEq⟩⟩
  · rw [hEq] at hEnroll
    cases hEnroll
  · rw [hEq] at hEnroll
    cases hEnroll
  · have hSizes : env.FixedSizes := ⟨hLawful.sign_length, hSha⟩
    obtain ⟨members, invites, hFrame⟩ := Signaling.completeJoin_frame env
      (Signaling.issued env s.mesh h.body h.draw.join granted seed) h.body h.body.deviceId aliasName
      h.draw.join.consumeNow
    have hCerts : (Signaling.completeJoin env (Signaling.issued env s.mesh h.body h.draw.join granted seed) h.body
        h.body.deviceId aliasName h.draw.join.consumeNow).members.map (·.cert) =
          (Signaling.issued env s.mesh h.body h.draw.join granted seed).members.map (·.cert) :=
      Signaling.completeJoin_map _ (fun _ _ => rfl) h.body.deviceId aliasName h.draw.join.consumeNow
    rw [hEq] at hEnroll hAfter
    generalize Signaling.completeJoin env (Signaling.issued env s.mesh h.body h.draw.join granted seed) h.body
      h.body.deviceId aliasName h.draw.join.consumeNow = m' at *
    have hCrl : m'.crl = s.mesh.crl := by
      rw [hFrame]
      rfl
    dsimp only at hEnroll
    obtain ⟨info, hSent, hBack⟩ := decode_joined hEnroll (MeshConfig.newCert_inRange s.mesh _ _ _ _ hTime)
      (by rw [hCrl]; exact hVersion) (by rw [hCrl]; exact hTyped) hEncode
    rw [hSent] at hEncode
    have hFits := ((Signaling.encodeResponse_join_iff (hIssues.cert_encodes_iff hSizes).1).mp ⟨pt, hEncode⟩).2.1
    have hIssued := hIssues.issuedTo hLawful hSha h.generated.pubRange h.generated.ikSLength hX hS hTime hFits
    rw [hDecode, hSent] at hBack
    rw [Except.ok.inj hBack, respelled_join] at hData
    have hCert : h.cert = (MeshConfig.newMember env.meshEnv s.mesh h.body.deviceId h.body.ikX h.body.ikSPub granted
        seed h.draw.join.issueNow).cert := by
      have hSame := (ResponseData.join.inj hData).2.2.1
      rw [← hSame, hIssued.canonical.respelled]
    refine ⟨seed, hIssues.rootSeed, ?_, ?_, ?_, ?_, ?_⟩
    · rw [hCert]
      exact hIssued
    · rw [hCert]
      rfl
    · rw [hCert]
      rfl
    · rw [hEq]
      exact hAfter
    · rw [hAfter]
      dsimp only
      rw [hCerts, hCert]
      unfold Signaling.issued
      rw [List.map_append]
      exact List.mem_append_right _ (List.mem_singleton_self _)

end Enrols

-- ---------------------------------------------------------------------------
-- What an attempt to connect ends in
-- ---------------------------------------------------------------------------

section

variable {env : SignalingEnv Ct} {t : Signaling} {cert : DeviceCert} {seed ikSPub : Bytes} {pub priv : RawKey}
  {token : Option String} {y : Attempt} {bytes : Bytes}

/-- The server reads the AUTH as it was sent. -/
theorem decodeAuth_authBody (hCert : cert.IssuedTo env seed pub ikSPub) (hTyped : y.Typed env.crypto)
    (h : encodeAuth (Conn.authBody env.crypto cert token y) = .ok bytes) :
    decodeAuth bytes = .ok (Conn.authBody env.crypto cert token y) :=
  decodeAuth_encodeAuth hCert.canonical hCert.canonical.deviceId (isB64Text_keyB64 (keyBytes_length _))
    hTyped.timestamp (isB64Text_keyB64 hTyped.nonce) h

/-- The AUTH is encoded unless the token is too long for it. -/
theorem encodeAuth_authBody (hCert : cert.IssuedTo env seed pub ikSPub) (hTyped : y.Typed env.crypto) :
    (∃ bytes, encodeAuth (Conn.authBody env.crypto cert token y) = .ok bytes) ↔ FitsOptText tokenLen token := by
  rw [isCodec_auth.fits, authRecord_fits]
  unfold AuthBody.FitsWire
  have hDevice : FitsB64 32 cert.deviceId := by
    obtain ⟨bs, hLength, hText⟩ := hCert.canonical.deviceId
    rw [hText]
    exact fitsB64_keyB64 hLength
  have hWire : cert.FitsWire := by
    obtain ⟨wire, hEncode⟩ := hCert.encodes
    rw [deviceCertFromDomain_eq] at hEncode
    exact certRecord_fits.mp (certRecord.encode_ok.mp ⟨wire, hEncode⟩)
  exact ⟨fun h => h.2.2.2.2, fun h => ⟨hDevice, hWire, fitsB64_keyB64 (keyBytes_length _),
    fitsB64_keyB64 hTyped.nonce, h⟩⟩

/-- Every check of `handle_auth` that is about the certificate passes in its period. -/
theorem authChecks_iff {verifyingKey : Bytes → Bytes} (hLawful : env.signatures.Lawful verifyingKey)
    (hRoot : t.mesh.rootPublicRaw = .ok (verifyingKey seed)) (hCert : cert.IssuedTo env seed pub ikSPub)
    (hPub : pub < 256 ^ 32) (hIkS : ikSPub.length = 32) (hTyped : y.Typed env.crypto) {now : Nat} {nonce : Bytes} :
    t.authChecks env pub (Conn.authBody env.crypto cert token y) now = .ok nonce ↔
      (cert.validFrom ≤ now ∧ now ≤ cert.notAfter) ∧ t.mesh.isRevoked cert.deviceId = false ∧
        timestampOk y.timestamp now = true ∧ nonce = y.nonce := by
  have hKeyX : parsePublicKey cert.ikX = .ok pub := by
    rw [hCert.ikX]
    exact parsePublicKey_keyB64 hPub
  have hKeyS : parseSigPublic cert.ikSPub = .ok ikSPub := by
    rw [hCert.ikSPub]
    exact parseSigPublic_keyB64 hIkS
  have hMatches : cert.matchesKeys pub ikSPub = .ok () := by
    refine DeviceCert.matchesKeys_eq_ok.mpr ⟨hKeyX, ?_⟩
    rw [hCert.ikSPub]
    exact b64Fixed_keyB64 hIkS
  have hVerify : cert.verify env.signatures (verifyingKey seed) now = .ok () ↔
      cert.validFrom ≤ now ∧ now ≤ cert.notAfter := by
    rw [DeviceCert.verify_signed (hLawful.sign_length _ _) hCert.signature]
    exact and_iff_right (hLawful.verify_sign _ _)
  have hNonce : Signaling.authNonce (keyB64 y.nonce) = .ok nonce ↔ nonce = y.nonce := by
    unfold Signaling.authNonce
    rw [b64Fixed_keyB64 hTyped.nonce]
    exact ⟨fun h => (Except.ok.inj h).symm, fun h => h ▸ rfl⟩
  rw [Signaling.authChecks_eq_ok]
  constructor
  · rintro ⟨rootPub, keyS, hPublic, hOk, _, _, _, hLive, hTime, hText⟩
    rw [hRoot] at hPublic
    cases hPublic
    exact ⟨hVerify.mp hOk, hLive, hTime, hNonce.mp hText⟩
  · rintro ⟨hPeriod, hLive, hTime, hText⟩
    exact ⟨_, ikSPub, hRoot, hVerify.mpr hPeriod, hKeyS, hMatches, rfl, hLive, hTime, hNonce.mpr hText⟩

/-- Only an AUTH_RESP is read as one. -/
theorem readAuthAnswer_some (hC : env.crypto.Lawful) (hKeys : env.Generated) {msgType : Nat} {nonce : Nonce}
    {pt : Bytes} {resp : AuthRespBody}
    (h : readAuthAnswer env.crypto priv env.serverPub (some (env.crypto.staticFrame msgType env.serverPriv
      env.serverPub (env.crypto.publicKey priv) nonce pt)) = .ok resp) :
    msgType = msgAuthResp ∧ decodeAuthResp pt = .ok resp := by
  unfold readAuthAnswer at h
  dsimp only at h
  split at h
  · rename_i hKind
    rw [openStatic_answer hC hKeys, Record.ok_bind, mapError_eq_ok] at h
    exact ⟨hKind, h⟩
  · split at h
    · split at h
      · cases h
      · cases h
    · cases h

/-- The device gets an AUTH_RESP exactly when the server accepts its AUTH and can
encode the answer. -/
theorem readAuthAnswer_iff (hC : env.crypto.Lawful) (hKeys : env.Generated)
    (hCert : cert.IssuedTo env seed pub ikSPub) (hTyped : y.Typed env.crypto) (hPriv : pub = env.crypto.publicKey priv)
    (hBytes : encodeAuth (Conn.authBody env.crypto cert token y) = .ok bytes) {resp : AuthRespBody} :
    readAuthAnswer env.crypto priv env.serverPub (t.exchange env
        (env.crypto.staticFrame msgAuth priv pub env.serverPub y.sealNonce bytes) y.src y.draw y.answerNonce).2 =
      .ok resp ↔
    pub ∉ t.sessions ∧ ∃ entry sent pt,
      (t.handleAuth env pub (Conn.authBody env.crypto cert token y) y.src y.draw.auth).2 =
        .accepted entry (.ok sent) ∧ encodeAuthResp sent = .ok pt ∧ decodeAuthResp pt = .ok resp := by
  subst hPriv
  have hCarries : Signaling.CarriesAuth env
      (env.crypto.staticFrame msgAuth priv (env.crypto.publicKey priv) env.serverPub y.sealNonce bytes)
      (Conn.authBody env.crypto cert token y) :=
    ⟨rfl, bytes, decrypt_staticFrame hC hKeys, decodeAuth_authBody hCert hTyped hBytes⟩
  constructor
  · intro h
    cases hSent : (t.exchange env (env.crypto.staticFrame msgAuth priv (env.crypto.publicKey priv) env.serverPub
        y.sealNonce bytes) y.src y.draw y.answerNonce).2 with
    | none =>
      rw [hSent] at h
      cases h
    | some g =>
      obtain ⟨msgType, pt, hStatic, rfl⟩ := Signaling.exchange_snd.mp hSent
      rw [hSent] at h
      obtain ⟨hKind, hRead⟩ := readAuthAnswer_some hC hKeys h
      by_cases hFree : env.crypto.publicKey priv ∈ t.sessions
      · have hAuth : msgAuth ≠ msgKeyquery := by decide
        rw [Signaling.handleSignaling_session y.draw hAuth hFree] at hStatic
        cases hStatic
      · rw [Signaling.handleSignaling_auth y.src y.draw hCarries hFree, staticFrame_sender] at hStatic
        refine ⟨hFree, ?_⟩
        cases hOutcome : (t.handleAuth env (env.crypto.publicKey priv) (Conn.authBody env.crypto cert token y) y.src
            y.draw.auth).2 with
        | accepted entry answer =>
          rw [hOutcome] at hStatic
          cases answer with
          | ok sent =>
            unfold Signaling.staticAnswer at hStatic
            exact ⟨entry, sent, pt, rfl, (Prod.mk.inj (Option.some.inj hStatic)).2, hRead⟩
          | error e => cases hStatic
        | rejected reason =>
          -- a refusal comes in another frame
          rw [hOutcome] at hStatic
          cases reason with
          | refused msg =>
            unfold Signaling.staticAnswer at hStatic
            rw [hKind] at hStatic
            exact absurd (Prod.mk.inj (Option.some.inj hStatic)).1 (by decide)
          | failed msg => cases hStatic
        | dropped =>
          rw [hOutcome] at hStatic
          cases hStatic
  · rintro ⟨hFree, entry, sent, pt, hOutcome, hEncode, hDecode⟩
    have hStatic : Signaling.staticAnswer (t.handleSignaling env (env.crypto.staticFrame msgAuth priv
        (env.crypto.publicKey priv) env.serverPub y.sealNonce bytes) y.src y.draw).2 =
          some (msgAuthResp, .ok pt) := by
      rw [Signaling.handleSignaling_auth y.src y.draw hCarries hFree, staticFrame_sender, hOutcome, ← hEncode]
      rfl
    rw [Signaling.exchange_snd.mpr ⟨msgAuthResp, pt, hStatic, rfl⟩]
    unfold readAuthAnswer
    dsimp only
    rw [if_pos (by rfl), staticFrame_sender, openStatic_answer hC hKeys, Record.ok_bind, hDecode]
    rfl

/-- The AUTH is admitted exactly when the server finds nothing wrong with it. -/
theorem admits_iff {verifyingKey : Bytes → Bytes} (hLawful : env.signatures.Lawful verifyingKey)
    (hRoot : t.mesh.rootPublicRaw = .ok (verifyingKey seed)) (hCert : cert.IssuedTo env seed pub ikSPub)
    (hPub : pub < 256 ^ 32) (hIkS : ikSPub.length = 32) (hTyped : y.Typed env.crypto) {room : String} {nonce : Bytes}
    {ekC : RawKey} :
    Signaling.Admits env t pub (Conn.authBody env.crypto cert token y) y.src y.draw.auth room nonce ekC ↔
      ((t.rateLimited env y.src y.draw.auth.rateNow).2 = false ∧ t.resolveRoom env token = .ok room ∧
        (cert.validFrom ≤ y.draw.auth.now ∧ y.draw.auth.now ≤ cert.notAfter) ∧
        t.mesh.isRevoked cert.deviceId = false ∧ timestampOk y.timestamp y.draw.auth.now = true ∧
        y.nonce ∉ t.replay[pub]?.getD []) ∧
      nonce = y.nonce ∧ ekC = env.crypto.publicKey y.ekCPriv := by
  have hKey : parsePublicKey (keyB64 (keyBytes (env.crypto.publicKey y.ekCPriv))) =
      .ok (env.crypto.publicKey y.ekCPriv) := parsePublicKey_keyB64 hTyped.ekC
  constructor
  · rintro ⟨hRate, hRoom, hChecks, hFresh, hEkC⟩
    obtain ⟨hPeriod, hLive, hTime, rfl⟩ := (authChecks_iff hLawful hRoot hCert hPub hIkS hTyped).mp hChecks
    have hEkC : parsePublicKey (keyB64 (keyBytes (env.crypto.publicKey y.ekCPriv))) = .ok ekC := hEkC
    rw [hKey] at hEkC
    exact ⟨⟨hRate, hRoom, hPeriod, hLive, hTime, hFresh⟩, rfl, (Except.ok.inj hEkC).symm⟩
  · rintro ⟨⟨hRate, hRoom, hPeriod, hLive, hTime, hFresh⟩, rfl, rfl⟩
    exact ⟨hRate, hRoom, (authChecks_iff hLawful hRoot hCert hPub hIkS hTyped).mpr ⟨hPeriod, hLive, hTime, rfl⟩,
      hFresh, hKey⟩

/-- What the server says about itself fits its frame at every version or at none. -/
theorem describes_fits (hSizes : env.FixedSizes) (hBuilt : KeyqueryRun.BuiltFrom env t.mesh y.frame)
    {info : ServerInfo} (hInfo : Signaling.buildServerInfo env t.mesh = .ok info) : info.FitsWire := by
  have hTexts := (Signaling.serverInfo_encodes_iff hSizes hBuilt.build).mp ⟨_, y.frame.encoded⟩
  obtain ⟨bytes, hEncode⟩ := (Signaling.serverInfo_encodes_iff hSizes hInfo).mpr hTexts
  have hFits := isCodec_serverInfoBody.fits.mp ⟨bytes, hEncode⟩
  exact serverInfoRecord_fits.mp hFits

/-- The answer to an accepted AUTH. -/
def acceptedAnswer (env : SignalingEnv Ct) (t : Signaling) (cert : DeviceCert) (y : Attempt) (info : ServerInfo) :
    AuthRespBody :=
  { ekS := keyB64 (keyBytes (env.crypto.publicKey y.draw.auth.ekSPriv))
    sessionId := y.draw.auth.sessionId
    crl := t.mesh.crl
    serverInfo := info
    allocatedIp := cert.allowedIp }

/-- It is encoded as the revocation list is. -/
theorem encodeAuthResp_iff (hTyped : y.Typed env.crypto) {info : ServerInfo} (hFits : info.FitsWire)
    (hIp : FitsText ipLen cert.allowedIp) :
    (∃ pt, encodeAuthResp (acceptedAnswer env t cert y info) = .ok pt) ↔
      ∃ bytes, crlFromDomain t.mesh.crl = .ok bytes := by
  rw [MeshConfig.crl_fromDomain_iff, isCodec_authResp.fits, authRespRecord_fits]
  obtain ⟨bs, hLength, hText⟩ := hTyped.sessionId
  have hSession : FitsB64 16 y.draw.auth.sessionId := by
    rw [hText]
    exact fitsB64_keyB64 hLength
  exact ⟨fun h => h.2.2.1, fun h => ⟨fitsB64_keyB64 (keyBytes_length _), hSession, h, hFits, hIp⟩⟩

/-- The device reads it with the ids of the list without white space. -/
theorem decodeAuthResp_answer (hKeys : env.Generated) (hTyped : y.Typed env.crypto)
    (hCrl : t.mesh.crl.InRange) (hVersion : t.mesh.crl.version ≤ maxCrlEntries) {info : ServerInfo}
    (hInfo : info.Describes env t.mesh) {pt : Bytes}
    (h : encodeAuthResp (acceptedAnswer env t cert y info) = .ok pt) :
    decodeAuthResp pt = .ok { acceptedAnswer env t cert y info with crl := t.mesh.crl.respelled } := by
  have hBack := isCodec_authResp.round_trip
    (authRespRecord_typed.mpr (show AuthRespBody.InRange _ from ⟨hCrl, hInfo.inRange hVersion⟩)) h
  rw [authRespRecord_spell] at hBack
  have hEkS : trim (keyB64 (keyBytes (env.crypto.publicKey y.draw.auth.ekSPriv))) =
      keyB64 (keyBytes (env.crypto.publicKey y.draw.auth.ekSPriv)) := trim_keyB64 _
  unfold AuthRespBody.respelled acceptedAnswer at hBack
  dsimp only at hBack
  rw [hEkS, b64Text_trim hTyped.sessionId, hInfo.respelled hKeys] at hBack
  exact hBack

end

namespace Conn

variable {env : ConnEnv Ct} {c c' : Conn} {x : Handshake} {cert : DeviceCert} {root : String} {key : RawKey}

/-- The key of the server is the saved one, and the certificate has not run out. -/
theorem ensureServerPubkey_eq_ok {stored : String} (hStored : c.server.publicKey = some stored)
    (hRoot : c.server.meshRootPub = some root) (hCert : c.server.deviceCert = some cert) :
    c.ensureServerPubkey x = .ok key ↔
      x.presented = .ok key ∧ parsePublicKey stored = .ok key ∧ cert.validFrom ≤ x.now ∧ x.now ≤ cert.notAfter := by
  unfold ensureServerPubkey
  rw [hStored, hRoot, hCert]
  simp only [bind_eq_ok, failIf_eq_ok, decide_eq_false_iff_not, not_or, Nat.not_lt, ne_eq, Decidable.not_not]
  constructor
  · rintro ⟨received, hPresented, saved, hSaved, _, hSame, _, _, _, ⟨hFrom, hTo⟩, hEq⟩
    cases hEq
    subst hSame
    exact ⟨hPresented, hSaved, hFrom, hTo⟩
  · rintro ⟨hPresented, hSaved, hFrom, hTo⟩
    exact ⟨key, hPresented, key, hSaved, (), rfl, (), rfl, (), ⟨hFrom, hTo⟩, rfl⟩

/-- A session opens when the answer names a key and an address, its ServerInfo is
accepted, and the device is not on its list. -/
theorem authHandshake_eq_ok {resp : AuthRespBody} (hCert : c.server.deviceCert = some cert)
    (hRoot : c.server.meshRootPub = some root) (hAnswer : x.answer = .ok resp) :
    (authHandshake env c x).2 = .ok c' ↔
      ∃ ekS server, parsePublicKey resp.ekS = .ok ekS ∧ resp.allocatedIp ≠ "" ∧
        (IpAddr.parse resp.allocatedIp).isSome ∧
        acceptServerInfo env.signatures c.server root resp.serverInfo = .ok server ∧
        resp.crl.isRevoked cert.deviceId = false ∧
        c' =
          { c with
            server := server
            sessionSk := some
              (env.crypto.deriveSessionKeyClient x.ekCPriv c.localPriv c.serverPub ekS x.nonce)
            sessionPub := some (env.crypto.publicKey x.ekCPriv)
            localIp := resp.allocatedIp } := by
  have hJoined : c.server.deviceCert ≠ none := by
    rw [hCert]
    exact Option.some_ne_none cert
  unfold authHandshake
  rw [if_neg hJoined, hAnswer]
  dsimp only
  constructor
  · intro h
    split at h
    · cases h
    · rename_i c₁ hSession
      have hServer := openSession_server hSession
      rw [hServer, hRoot] at h
      dsimp only at h
      split at h
      · cases h
      · rename_i server hAccept
        have hSame := (acceptServerInfo_eq_ok.mp hAccept).2.2.2
        unfold openSession at hSession
        simp only [bind_eq_ok, failIf_eq_ok] at hSession
        obtain ⟨ekS, hKey, _, hEmpty, _, hIp, hEq⟩ := hSession
        cases hEq
        have hRevoked : ∀ sk pub ip, ({ c with
            server := server, sessionSk := sk, sessionPub := pub, localIp := ip } : Conn).revokedBy resp.crl =
              resp.crl.isRevoked cert.deviceId := by
          intro sk pub ip
          unfold revokedBy
          rw [hSame]
          dsimp only
          rw [hCert]
          rfl
        rw [hRevoked] at h
        split at h
        · cases h
        · rename_i hLive
          refine ⟨ekS, server, hKey, by simpa using hEmpty, by simpa using hIp, hAccept, by simpa using hLive, ?_⟩
          exact (Except.ok.inj h).symm
  · rintro ⟨ekS, server, hKey, hEmpty, hIp, hAccept, hLive, rfl⟩
    have hSession : openSession env c x resp = .ok
        { c with
          sessionSk := some
            (env.crypto.deriveSessionKeyClient x.ekCPriv c.localPriv c.serverPub ekS x.nonce)
          sessionPub := some (env.crypto.publicKey x.ekCPriv)
          localIp := resp.allocatedIp } := by
      unfold openSession
      simp only [bind_eq_ok, failIf_eq_ok]
      exact ⟨ekS, hKey, (), by simpa using hEmpty, (), by simpa using hIp, rfl⟩
    have hSame := (acceptServerInfo_eq_ok.mp hAccept).2.2.2
    rw [hSession]
    dsimp only
    rw [hRoot]
    dsimp only
    rw [hAccept]
    dsimp only
    rw [if_neg]
    · unfold revokedBy
      rw [hSame]
      dsimp only
      rw [hCert]
      simpa using hLive

/-- An attempt that gets as far as its AUTH. -/
theorem connectTo_eq {Ct : Type} {env : SignalingEnv Ct} {t : Signaling} {pub received : RawKey} {token : Option String}
    {y : Attempt} {bytes : Bytes} (hKey : c.ensureServerPubkey (y.handshake (.error "")) = .ok received)
    (hCert : c.server.deviceCert = some cert) (hBytes : encodeAuth (authBody env.crypto cert token y) = .ok bytes) :
    c.connectTo env t pub token y =
      ((t.exchange env (env.crypto.staticFrame msgAuth c.localPriv pub received y.sealNonce bytes) y.src y.draw
        y.answerNonce).1,
      (authHandshake env.connEnv { c with serverPub := received } (y.handshake (readAuthAnswer env.crypto c.localPriv
        received (t.exchange env (env.crypto.staticFrame msgAuth c.localPriv pub received y.sealNonce bytes) y.src
          y.draw y.answerNonce).2))).2) := by
  unfold connectTo
  rw [hKey]
  dsimp only
  rw [hCert]
  dsimp only
  rw [hBytes]

theorem authHandshake_answer {c' : Conn} (hCert : c.server.deviceCert = some cert)
    (h : (authHandshake env c x).2 = .ok c') : ∃ resp, x.answer = .ok resp := by
  unfold authHandshake at h
  rw [if_neg (by rw [hCert]; exact Option.some_ne_none cert)] at h
  split at h
  · cases h
  · rename_i resp hAnswer
    exact ⟨resp, hAnswer⟩

end Conn

section

variable {env : SignalingEnv Ct} {t : Signaling} {cert : DeviceCert} {seed ikSPub : Bytes} {pub : RawKey}
  {token : Option String} {y : Attempt} {c c' : Conn} {verifyingKey : Bytes → Bytes}

/-- The connection with its session. -/
def Conn.opened (env : SignalingEnv Ct) (t : Signaling) (cert : DeviceCert) (y : Attempt) (c : Conn) : Conn :=
  { c with
    serverPub := env.serverPub
    server := { c.server with crlVersion := some t.mesh.crl.version }
    sessionSk := some (env.crypto.deriveSessionKeyClient y.ekCPriv c.localPriv env.serverPub
      (env.crypto.publicKey y.draw.auth.ekSPriv) y.nonce)
    sessionPub := some (env.crypto.publicKey y.ekCPriv)
    localIp := cert.allowedIp }

theorem isRevoked_respelled {crl : Crl} {d : String} :
    crl.respelled.isRevoked d = false ↔ ∀ e ∈ crl.entries, trim e.deviceId ≠ d := by
  unfold Crl.isRevoked Crl.respelled
  simp [List.any_eq_false]

/-- The server finds no reason to refuse what the device does not, either. -/
theorem not_revoked_of_live (hCert : cert.IssuedTo env seed pub ikSPub)
    (h : ∀ e ∈ t.mesh.crl.entries, trim e.deviceId ≠ cert.deviceId) : t.mesh.isRevoked cert.deviceId = false := by
  unfold MeshConfig.isRevoked Crl.isRevoked
  rw [List.any_eq_false]
  intro e he hSame
  refine h e he ?_
  rw [beq_iff_eq.mp hSame]
  exact b64Text_trim hCert.canonical.deviceId

/-- What the server says about itself verifies under its root. -/
theorem describes_verify {m : MeshConfig} {info : ServerInfo} (hLawful : env.signatures.Lawful verifyingKey)
    (hSeed : m.rootSeed = .ok seed) (hRoot : m.rootPublicRaw = .ok (verifyingKey seed)) (h : info.Describes env m) :
    info.meshRootPub = keyB64 (verifyingKey seed) ∧ info.verify env.signatures (verifyingKey seed) = .ok () := by
  obtain ⟨rootPub, hPub, hText⟩ := h.root
  rw [hRoot] at hPub
  cases hPub
  obtain ⟨seed', hSeed', hSig⟩ := h.signed
  rw [hSeed] at hSeed'
  cases hSeed'
  refine ⟨hText, ?_⟩
  unfold ServerInfo.verify
  rw [hSig]
  dsimp only
  rw [b64Fixed_keyB64 (hLawful.sign_length _ _), Record.ok_bind]
  exact if_pos (hLawful.verify_sign _ _)

theorem acceptServerInfo_describes (hLawful : env.signatures.Lawful verifyingKey)
    (hSeed : t.mesh.rootSeed = .ok seed) (hRoot : t.mesh.rootPublicRaw = .ok (verifyingKey seed))
    (hEnrolled : c.server.Enrolled env (verifyingKey seed) t.mesh cert) {info : ServerInfo}
    (hInfo : info.Describes env t.mesh) {server : ServerEntry} :
    Conn.acceptServerInfo env.signatures c.server (keyB64 (verifyingKey seed)) info = .ok server ↔
      server = { c.server with crlVersion := some t.mesh.crl.version } := by
  obtain ⟨hText, hVerify⟩ := describes_verify hLawful hSeed hRoot hInfo
  rw [Conn.acceptServerInfo_eq_ok, hInfo.version]
  obtain ⟨v, hOld, hSaved⟩ := hEnrolled.version
  constructor
  · exact fun h => h.2.2.2
  · intro h
    refine ⟨⟨_, parseSigPublic_keyB64 (hLawful.key_length seed), hVerify⟩, hText, fun prev hPrev => ?_, h⟩
    rw [hSaved] at hPrev
    cases hPrev
    exact hOld

/-- The device with its certificate, and the server that it was issued by: what an
attempt to connect rests on. -/
structure Meets (env : SignalingEnv Ct) (verifyingKey : Bytes → Bytes) (seed ikSPub : Bytes) (t : Signaling)
    (cert : DeviceCert) (pub : RawKey) (c : Conn) (y : Attempt) : Prop where
  seedLength : seed.length = 32
  coherent : MeshConfig.Coherent env.meshEnv t.mesh
  signed : MeshConfig.RootSigned env.meshEnv verifyingKey seed t.mesh
  crl : t.mesh.crl.InRange
  issued : cert.IssuedTo env seed pub ikSPub
  pubRange : pub < 256 ^ 32
  ikSLength : ikSPub.length = 32
  enrolled : c.server.Enrolled env (verifyingKey seed) t.mesh cert
  localPub : pub = env.crypto.publicKey c.localPriv
  typed : y.Typed env.crypto
  built : KeyqueryRun.BuiltFrom env t.mesh y.frame

namespace Meets

theorem rootSeed (h : Meets env verifyingKey seed ikSPub t cert pub c y) : t.mesh.rootSeed = .ok seed :=
  h.signed.rootSeed h.seedLength

theorem rootPublicRaw (hLawful : env.signatures.Lawful verifyingKey)
    (h : Meets env verifyingKey seed ikSPub t cert pub c y) : t.mesh.rootPublicRaw = .ok (verifyingKey seed) := by
  have hLawful : env.meshEnv.signatures.Lawful verifyingKey := hLawful
  exact h.signed.rootPublicRaw hLawful

theorem version_le (h : Meets env verifyingKey seed ikSPub t cert pub c y) :
    t.mesh.crl.version ≤ maxCrlEntries := by
  rw [h.coherent.version]
  exact h.coherent.cap

/-- The ServerInfo of the answer. -/
theorem info (hLawful : env.signatures.Lawful verifyingKey) (hSha : ∀ bs, (env.sha256 bs).length = 32)
    (h : Meets env verifyingKey seed ikSPub t cert pub c y) :
    ∃ info, Signaling.buildServerInfo env t.mesh = .ok info ∧ info.Describes env t.mesh ∧ info.FitsWire := by
  obtain ⟨info, hInfo⟩ := (Signaling.buildServerInfo_iff h.rootSeed).mpr ⟨_, h.rootPublicRaw hLawful⟩
  exact ⟨info, hInfo, describes_build hInfo, describes_fits ⟨hLawful.sign_length, hSha⟩ h.built hInfo⟩

theorem ip (h : Meets env verifyingKey seed ikSPub t cert pub c y) : FitsText ipLen cert.allowedIp := by
  obtain ⟨wire, hEncode⟩ := h.issued.encodes
  rw [deviceCertFromDomain_eq] at hEncode
  exact (certRecord_fits.mp (certRecord.encode_ok.mp ⟨wire, hEncode⟩)).2.2.2.2.1

/-- What the server asks of the AUTH. -/
theorem admits_iff (hLawful : env.signatures.Lawful verifyingKey)
    (h : Meets env verifyingKey seed ikSPub t cert pub c y) {room : String} :
    Signaling.Admits env t pub (Conn.authBody env.crypto cert token y) y.src y.draw.auth room y.nonce
        (env.crypto.publicKey y.ekCPriv) ↔
      (t.rateLimited env y.src y.draw.auth.rateNow).2 = false ∧ t.resolveRoom env token = .ok room ∧
        (cert.validFrom ≤ y.draw.auth.now ∧ y.draw.auth.now ≤ cert.notAfter) ∧
        t.mesh.isRevoked cert.deviceId = false ∧ timestampOk y.timestamp y.draw.auth.now = true ∧
        y.nonce ∉ t.replay[pub]?.getD [] := by
  rw [LinkMesh.admits_iff hLawful (h.rootPublicRaw hLawful) h.issued h.pubRange h.ikSLength h.typed]
  exact and_iff_left ⟨rfl, rfl⟩

/-- What the attempt asks for is what the server asks for. -/
theorem admits_of_opens (hLawful : env.signatures.Lawful verifyingKey)
    (h : Meets env verifyingKey seed ikSPub t cert pub c y) (hOpens : Opens env t cert pub token y) :
    ∃ room, Signaling.Admits env t pub (Conn.authBody env.crypto cert token y) y.src y.draw.auth room y.nonce
      (env.crypto.publicKey y.ekCPriv) := by
  obtain ⟨room, hRoom⟩ := hOpens.room
  exact ⟨room, (h.admits_iff hLawful).mpr ⟨hOpens.rate, hRoom, hOpens.serverClock,
    not_revoked_of_live h.issued hOpens.live, hOpens.timestamp, hOpens.fresh⟩⟩

/-- The key of the server is the saved one. -/
theorem serverKey (hKeys : env.Generated) (h : Meets env verifyingKey seed ikSPub t cert pub c y) {key : RawKey}
    {answer : Except String AuthRespBody} :
    c.ensureServerPubkey (y.handshake answer) = .ok key ↔
      key = env.serverPub ∧ cert.validFrom ≤ y.now ∧ y.now ≤ cert.notAfter := by
  have hRead : (y.handshake answer).presented = .ok env.serverPub :=
    y.frame.readKey_eq (describes_built h.built) hKeys (Nat.le_trans h.built.version h.version_le)
  rw [Conn.ensureServerPubkey_eq_ok h.enrolled.serverKey h.enrolled.root h.enrolled.cert, hRead,
    parsePublicKey_keyB64 hKeys.pubRange]
  constructor
  · rintro ⟨hKey, _, hClock⟩
    exact ⟨(Except.ok.inj hKey).symm, hClock⟩
  · rintro ⟨rfl, hClock⟩
    exact ⟨rfl, rfl, hClock⟩

/-- The device reads an answer exactly when the server accepts its AUTH and the
revocation list can be sent. -/
theorem answer_iff (hC : env.crypto.Lawful) (hKeys : env.Generated) (hLawful : env.signatures.Lawful verifyingKey)
    (hSha : ∀ bs, (env.sha256 bs).length = 32) (h : Meets env verifyingKey seed ikSPub t cert pub c y)
    {info : ServerInfo} (hInfo : Signaling.buildServerInfo env t.mesh = .ok info) {bytes : Bytes}
    (hBytes : encodeAuth (Conn.authBody env.crypto cert token y) = .ok bytes) (resp : AuthRespBody) :
    readAuthAnswer env.crypto c.localPriv env.serverPub (t.exchange env
        (env.crypto.staticFrame msgAuth c.localPriv pub env.serverPub y.sealNonce bytes) y.src y.draw
        y.answerNonce).2 = .ok resp ↔
      pub ∉ t.sessions ∧ (∃ room, Signaling.Admits env t pub (Conn.authBody env.crypto cert token y) y.src
        y.draw.auth room y.nonce (env.crypto.publicKey y.ekCPriv)) ∧
        (∃ bytes, crlFromDomain t.mesh.crl = .ok bytes) ∧
        resp = { acceptedAnswer env t cert y info with crl := t.mesh.crl.respelled } := by
  have hFits := describes_fits ⟨hLawful.sign_length, hSha⟩ h.built hInfo
  have hDecode : ∀ {pt}, encodeAuthResp (acceptedAnswer env t cert y info) = .ok pt →
      decodeAuthResp pt = .ok { acceptedAnswer env t cert y info with crl := t.mesh.crl.respelled } :=
    decodeAuthResp_answer hKeys h.typed h.crl h.version_le (describes_build hInfo)
  have hSame : ∀ (s' : Signaling), s'.mesh = t.mesh →
      Signaling.authResp env s' (Conn.authBody env.crypto cert token y) y.draw.auth =
        .ok (acceptedAnswer env t cert y info) := by
    intro s' hMesh
    unfold Signaling.authResp
    rw [hMesh, hInfo]
    rfl
  rw [readAuthAnswer_iff hC hKeys h.issued h.typed h.localPub hBytes]
  constructor
  · rintro ⟨hFree, entry, sent, pt, hOutcome, hEncode, hRead⟩
    rcases Signaling.handleAuth_cases env t pub (Conn.authBody env.crypto cert token y) y.src y.draw.auth with
      ⟨_, hNot⟩ | ⟨_, _, _, _, hNot⟩ | ⟨room, nonce, ekC, hAdmits, hEq⟩
    · exact absurd hOutcome (hNot _ _)
    · exact absurd hOutcome (hNot _ _)
    · obtain ⟨_, rfl, rfl⟩ :=
        (LinkMesh.admits_iff hLawful (h.rootPublicRaw hLawful) h.issued h.pubRange h.ikSLength h.typed).mp hAdmits
      rw [hEq] at hOutcome
      dsimp only at hOutcome
      rw [hSame _ Signaling.afterAuth_mesh] at hOutcome
      cases hOutcome
      refine ⟨hFree, ⟨room, hAdmits⟩, (encodeAuthResp_iff h.typed hFits h.ip).mp ⟨pt, hEncode⟩, ?_⟩
      rw [hDecode hEncode] at hRead
      exact (Except.ok.inj hRead).symm
  · rintro ⟨hFree, ⟨room, hAdmits⟩, hList, rfl⟩
    obtain ⟨pt, hEncode⟩ := (encodeAuthResp_iff h.typed hFits h.ip).mpr hList
    have hOutcome : (t.handleAuth env pub (Conn.authBody env.crypto cert token y) y.src y.draw.auth).2 =
        .accepted (Signaling.authEntry env pub (Conn.authBody env.crypto cert token y) y.draw.auth room y.nonce
          (env.crypto.publicKey y.ekCPriv)) (.ok (acceptedAnswer env t cert y info)) := by
      rw [Signaling.handleAuth_of_admits hAdmits, hSame _ Signaling.afterAuth_mesh]
    exact ⟨hFree, _, _, pt, hOutcome, hEncode, hDecode hEncode⟩

/-- The answer of the server opens a session unless the device finds itself on the list. -/
theorem handshake_iff (hLawful : env.signatures.Lawful verifyingKey)
    (h : Meets env verifyingKey seed ikSPub t cert pub c y) {info : ServerInfo}
    (hInfo : info.Describes env t.mesh) {answer : Except String AuthRespBody}
    (hAnswer : answer = .ok { acceptedAnswer env t cert y info with crl := t.mesh.crl.respelled }) :
    (Conn.authHandshake env.connEnv { c with serverPub := env.serverPub } (y.handshake answer)).2 = .ok c' ↔
      cert.allowedIp ≠ "" ∧ (IpAddr.parse cert.allowedIp).isSome ∧
        (∀ e ∈ t.mesh.crl.entries, trim e.deviceId ≠ cert.deviceId) ∧ c' = c.opened env t cert y := by
  have hEkS : parsePublicKey (keyB64 (keyBytes (env.crypto.publicKey y.draw.auth.ekSPriv))) =
      .ok (env.crypto.publicKey y.draw.auth.ekSPriv) := parsePublicKey_keyB64 h.typed.ekS
  have hAccept : ∀ {server}, Conn.acceptServerInfo env.signatures c.server (keyB64 (verifyingKey seed)) info =
      .ok server ↔ server = { c.server with crlVersion := some t.mesh.crl.version } :=
    acceptServerInfo_describes hLawful h.rootSeed (h.rootPublicRaw hLawful) h.enrolled hInfo
  rw [Conn.authHandshake_eq_ok (c := { c with serverPub := env.serverPub }) h.enrolled.cert h.enrolled.root
    (x := y.handshake answer) hAnswer]
  constructor
  · rintro ⟨ekS, server, hText, hEmpty, hIp, hServer, hLive, rfl⟩
    have hSame := Except.ok.inj (hEkS.symm.trans hText)
    rw [← hSame, hAccept.mp hServer]
    exact ⟨hEmpty, hIp, isRevoked_respelled.mp hLive, rfl⟩
  · rintro ⟨hEmpty, hIp, hLive, rfl⟩
    exact ⟨_, _, hEkS, hEmpty, hIp, hAccept.mpr rfl, isRevoked_respelled.mpr hLive, rfl⟩

/-- An attempt succeeds exactly when nothing speaks against the certificate, and the
connection is then the one of this answer. -/
theorem opened_iff (hC : env.crypto.Lawful) (hKeys : env.Generated) (hLawful : env.signatures.Lawful verifyingKey)
    (hSha : ∀ bs, (env.sha256 bs).length = 32) (h : Meets env verifyingKey seed ikSPub t cert pub c y) :
    (c.connectTo env t pub token y).2 = .ok c' ↔ Opens env t cert pub token y ∧ c' = c.opened env t cert y := by
  obtain ⟨info, hInfo, hDescribes, _⟩ := h.info hLawful hSha
  cases hKey : c.ensureServerPubkey (y.handshake (.error "")) with
  | error e =>
    refine ⟨fun hOk => ?_, fun ⟨hOpens, _⟩ => ?_⟩
    · unfold Conn.connectTo at hOk
      rw [hKey] at hOk
      cases hOk
    · rw [(h.serverKey hKeys).mpr ⟨rfl, hOpens.clientClock⟩] at hKey
      cases hKey
  | ok received =>
    obtain ⟨rfl, hClock⟩ := (h.serverKey hKeys).mp hKey
    cases hBytes : encodeAuth (Conn.authBody env.crypto cert token y) with
    | error e =>
      refine ⟨fun hOk => ?_, fun ⟨hOpens, _⟩ => ?_⟩
      · unfold Conn.connectTo at hOk
        rw [hKey] at hOk
        dsimp only at hOk
        rw [h.enrolled.cert] at hOk
        dsimp only at hOk
        rw [hBytes] at hOk
        cases hOk
      · obtain ⟨bytes, hOk⟩ := (encodeAuth_authBody h.issued h.typed).mpr hOpens.encodes
        rw [hBytes] at hOk
        cases hOk
    | ok bytes =>
      rw [Conn.connectTo_eq hKey h.enrolled.cert hBytes]
      dsimp only
      have hFits := (encodeAuth_authBody h.issued h.typed).mp ⟨bytes, hBytes⟩
      have hAnswered := h.answer_iff hC hKeys hLawful hSha hInfo hBytes
      generalize readAuthAnswer env.crypto c.localPriv env.serverPub (t.exchange env
        (env.crypto.staticFrame msgAuth c.localPriv pub env.serverPub y.sealNonce bytes) y.src y.draw
        y.answerNonce).2 = answer at hAnswered ⊢
      constructor
      · intro hOk
        obtain ⟨resp, hAnswer⟩ := Conn.authHandshake_answer (c := { c with serverPub := env.serverPub })
          h.enrolled.cert hOk
        have hAnswer : answer = .ok resp := hAnswer
        obtain ⟨hFree, ⟨room, hAdmits⟩, hList, hResp⟩ := (hAnswered resp).mp hAnswer
        obtain ⟨_, hIp, hLive, hEq⟩ := (h.handshake_iff hLawful hDescribes (hResp ▸ hAnswer)).mp hOk
        obtain ⟨hRate, hRoom, hPeriod, _, hTime, hFresh⟩ := (h.admits_iff hLawful).mp hAdmits
        exact ⟨⟨hClock, hPeriod, hTime, hFits, ⟨room, hRoom⟩, hRate, hFree, hFresh, hLive, hList, hIp⟩, hEq⟩
      · rintro ⟨hOpens, hEq⟩
        have hAnswer := (hAnswered _).mpr ⟨hOpens.free, h.admits_of_opens hLawful hOpens, hOpens.list, rfl⟩
        refine (h.handshake_iff hLawful hDescribes hAnswer).mpr ⟨?_, hOpens.ip, hOpens.live, hEq⟩
        intro hEmpty
        have hSome := hOpens.ip
        rw [hEmpty] at hSome
        exact absurd hSome (by decide)

/-- The server has the session of an attempt that succeeds. -/
theorem session (hC : env.crypto.Lawful) (hKeys : env.Generated) (hLawful : env.signatures.Lawful verifyingKey)
    (h : Meets env verifyingKey seed ikSPub t cert pub c y) (hOpens : Opens env t cert pub token y) :
    ∃ room, (c.connectTo env t pub token y).1.sessions[env.crypto.publicKey y.ekCPriv]? =
        some (Signaling.authEntry env pub (Conn.authBody env.crypto cert token y) y.draw.auth room y.nonce
          (env.crypto.publicKey y.ekCPriv)) ∧
      (c.connectTo env t pub token y).1.mesh = t.mesh := by
  obtain ⟨room, hAdmits⟩ := h.admits_of_opens hLawful hOpens
  obtain ⟨bytes, hBytes⟩ := (encodeAuth_authBody h.issued h.typed).mpr hOpens.encodes
  have hCarries : Signaling.CarriesAuth env
      (env.crypto.staticFrame msgAuth c.localPriv pub env.serverPub y.sealNonce bytes)
      (Conn.authBody env.crypto cert token y) := by
    refine ⟨rfl, bytes, ?_, decodeAuth_authBody h.issued h.typed hBytes⟩
    rw [h.localPub]
    exact decrypt_staticFrame hC hKeys
  have hAfter : (c.connectTo env t pub token y).1 =
      t.afterAuth env pub y.src y.draw.auth y.nonce (Signaling.authEntry env pub
        (Conn.authBody env.crypto cert token y) y.draw.auth room y.nonce (env.crypto.publicKey y.ekCPriv)) := by
    rw [Conn.connectTo_eq ((h.serverKey hKeys).mpr ⟨rfl, hOpens.clientClock⟩) h.enrolled.cert hBytes]
    dsimp only
    rw [Signaling.exchange_fst, Signaling.handleSignaling_auth y.src y.draw hCarries hOpens.free]
    dsimp only
    rw [staticFrame_sender, Signaling.handleAuth_of_admits hAdmits]
  refine ⟨room, ?_, ?_⟩
  · rw [hAfter, Signaling.afterAuth_sessions]
    exact Signaling.register_self rfl
  · rw [hAfter, Signaling.afterAuth_mesh]

/-- Both ends have derived the same key. -/
theorem inSession (hC : env.crypto.Lawful) (hKeys : env.Generated) (hLawful : env.signatures.Lawful verifyingKey)
    (h : Meets env verifyingKey seed ikSPub t cert pub c y) (hOpens : Opens env t cert pub token y) :
    ∃ e, (c.opened env t cert y).InSession (c.connectTo env t pub token y).1 cert pub
      (env.crypto.publicKey y.ekCPriv) e := by
  obtain ⟨room, hEntry, hMesh⟩ := h.session hC hKeys hLawful hOpens
  refine ⟨_, hEntry, rfl, ?_, rfl, rfl, rfl, rfl, rfl, ?_⟩
  · unfold Conn.opened Signaling.authEntry SignalingCrypto.deriveSessionKeyClient
      SignalingCrypto.deriveSessionKeyServer
    dsimp only
    have hEk : env.crypto.sharedSecret y.ekCPriv (env.crypto.publicKey y.draw.auth.ekSPriv) =
        env.crypto.sharedSecret y.draw.auth.ekSPriv (env.crypto.publicKey y.ekCPriv) := hC.shared_comm
    have hIkS : env.crypto.sharedSecret y.ekCPriv (env.crypto.publicKey env.serverPriv) =
        env.crypto.sharedSecret env.serverPriv (env.crypto.publicKey y.ekCPriv) := hC.shared_comm
    have hIkC : env.crypto.sharedSecret c.localPriv (env.crypto.publicKey y.draw.auth.ekSPriv) =
        env.crypto.sharedSecret y.draw.auth.ekSPriv (env.crypto.publicKey c.localPriv) := hC.shared_comm
    rw [hKeys.pub, h.localPub, hEk, hIkS, hIkC]
  · rw [hMesh]
    rfl

end Meets

end

-- ---------------------------------------------------------------------------
-- From the JOIN to the session
-- ---------------------------------------------------------------------------

namespace MeshConfig

variable {env : MeshEnv} {verifyingKey : Bytes → Bytes} {seed : Bytes} {m m' : MeshConfig}

theorem version_apply (hSeed : m.rootSeed = .ok seed) (op : MeshOp) : m.crl.version ≤ (apply env m op).crl.version := by
  cases op with
  | createInvite raw ip ttlSecs now => exact Nat.le_refl _
  | issueCert ikX ikSPub ip note now =>
    unfold apply
    dsimp only
    rcases issueCert_cases env m ikX ikSPub ip note now with ⟨e, _, hEq⟩ | ⟨deviceId, granted, seed, _, hEq⟩
    · rw [hEq]
    · rw [hEq]
  | consumeInvite code now =>
    obtain ⟨invites, hEq⟩ := consumeInvite_frame env m code now
    have hNext : apply env m (.consumeInvite code now) = { m with invites := invites } := hEq
    rw [hNext]
  | setMemberAlias deviceId aliasName => exact Nat.le_refl _
  | revoke deviceId reason now =>
    unfold apply
    dsimp only
    rcases revoke_cases env hSeed deviceId reason now with ⟨e, hEq⟩ | ⟨_, _, hEq⟩
    · rw [hEq]
    · rw [hEq]
      exact Nat.le_succ _

/-- The version only rises. -/
theorem Leads.version_le (hLawful : env.signatures.Lawful verifyingKey) (hSeed : seed.length = 32)
    (hSigned : RootSigned env verifyingKey seed m) (hCoherent : Coherent env m) (h : m.Leads env m') :
    m.crl.version ≤ m'.crl.version := by
  obtain ⟨ops, rfl⟩ := h
  induction ops generalizing m with
  | nil => exact Nat.le_refl _
  | cons op ops ih =>
    obtain ⟨hNext, hNextSigned⟩ := coherent_apply hLawful hSeed hSigned hCoherent op
    exact Nat.le_trans (version_apply (hSigned.rootSeed hSeed) op) (ih hNextSigned hNext)

end MeshConfig

namespace Enrols

variable {cli : CliEnv} {env : SignalingEnv Ct} {c c' c₁ : ClientFile} {s s' t : Signaling} {server : String}
  {verifyingKey : Bytes → Bytes} {seed : Bytes} {conn : Conn} {pub : RawKey} {token : Option String} {y : Attempt}

/-- What the file has of the server after the JOIN. -/
theorem saved_trust (h : Enrols cli env c c' s s' server) :
    (c'.findServer server).map (·.trust) =
      some (some h.info.meshRootPub, some h.cert, some h.info.serverIkX, some h.info.crlVersion) := by
  have hFound : c.servers.find? (·.name = server) = some h.entry := h.joins.found
  have hName := List.find?_some hFound
  have hAfter := find?_modifyFirst_self
    (f := ClientFile.joinedEntry h.info h.cert (ClientFile.joinToken h.entry h.token)) hFound hName
  refine (congrArg (fun file : ClientFile => (file.findServer server).map (·.trust)) h.saved).trans ?_
  unfold ClientFile.findServer ClientFile.saveJoin
  dsimp only
  rw [hAfter]
  rfl

/-- The connection that is made from the file, as long as it keeps what the JOIN has
saved. -/
theorem openConn_eq (h : Enrols cli env c c' s s' server) {k : ConnectionEntry} (hServer : k.server = server)
    (hTrust : (c₁.findServer server).map (·.trust) = (c'.findServer server).map (·.trust))
    (hIdentity : c₁.identity = c.identity) (hOpen : c₁.openConn k = .ok (conn, pub, token)) :
    pub = h.pub ∧ conn.localPriv = h.priv ∧ conn.server.meshRootPub = some h.info.meshRootPub ∧
      conn.server.deviceCert = some h.cert ∧ conn.server.publicKey = some h.info.serverIkX ∧
      conn.server.crlVersion = some h.info.crlVersion := by
  have hPriv : c₁.privateKey = .ok h.priv := by
    unfold ClientFile.privateKey
    rw [hIdentity, h.identity]
    dsimp only
    rw [h.generated.ikX]
    exact parsePublicKey_keyB64 h.generated.privRange
  have hPub : c₁.publicKey = .ok h.pub := by
    unfold ClientFile.publicKey
    rw [hIdentity, h.identity]
    dsimp only
    rw [h.generated.ikX]
    exact parsePublicKey_keyB64 h.generated.pubRange
  unfold ClientFile.openConn at hOpen
  split at hOpen
  · rename_i entry hEntry
    split at hOpen
    · simp only [hPriv, hPub, bind_eq_ok] at hOpen
      obtain ⟨_, hKey, _, hText, _, _, hEq⟩ := hOpen
      cases Except.ok.inj hKey
      cases Except.ok.inj hText
      cases hEq
      rw [hServer] at hEntry
      rw [hEntry, h.saved_trust] at hTrust
      have hSaved := Option.some.inj hTrust
      exact ⟨rfl, rfl, congrArg (·.1) hSaved, congrArg (·.2.1) hSaved, congrArg (·.2.2.1) hSaved,
        congrArg (·.2.2.2) hSaved⟩
    · cases hOpen
  · cases hOpen

/-- The device and a later server meet. -/
theorem meets (hC : env.crypto.Lawful) (hKeys : env.Generated) (hLawful : env.signatures.Lawful verifyingKey)
    (hSha : ∀ bs, (env.sha256 bs).length = 32) (hMesh : cli.mesh = env.meshEnv)
    (hReach : (MeshConfig.machine env.meshEnv verifyingKey).Reach (fun _ _ => True) s.mesh)
    (hCrl : s.mesh.crl.InRange) (h : Enrols cli env c c' s s' server)
    (hTime : h.draw.join.issueNow + certValiditySecs < 256 ^ 8) (hLater : s'.mesh.Leads env.meshEnv t.mesh)
    (hLaterCrl : t.mesh.crl.InRange) {k : ConnectionEntry} (hServer : k.server = server)
    (hTrust : (c₁.findServer server).map (·.trust) = (c'.findServer server).map (·.trust))
    (hIdentity : c₁.identity = c.identity) (hOpen : c₁.openConn k = .ok (conn, pub, token))
    (hTyped : y.Typed env.crypto) (hBuilt : KeyqueryRun.BuiltFrom env t.mesh y.frame) :
    ∃ seed ikSPub, Meets env verifyingKey seed ikSPub t h.cert pub conn y := by
  obtain ⟨hCoherent, seed, hLength, hSigned⟩ := MeshConfig.coherent_reach hLawful hReach
  have hVersion : s.mesh.crl.version ≤ maxCrlEntries := by
    rw [hCoherent.version]
    exact hCoherent.cap
  obtain ⟨seed', hSeed, hIssued, _, _, hAfter, _⟩ := h.issued hC hKeys hLawful hSha hMesh hVersion hCrl hTime
  rw [hSigned.rootSeed hLength] at hSeed
  cases hSeed
  obtain ⟨rfl, hPriv, hRoot, hCert, hSaved, hOld⟩ := h.openConn_eq hServer hTrust hIdentity hOpen
  obtain ⟨hDescribes, hOlder⟩ := h.info_eq hKeys hVersion
  have hJoined : s.mesh.Leads env.meshEnv s'.mesh := by
    rw [hAfter]
    exact (Signaling.revises_enroll (fun bs => (hSha bs).ge) s.mesh h.body h.draw.join).leads
  obtain ⟨hCoherent', hSigned'⟩ := MeshConfig.coherent_leads hLawful hLength hJoined hSigned hCoherent
  obtain ⟨hCoherent'', hSigned''⟩ := MeshConfig.coherent_leads hLawful hLength hLater hSigned' hCoherent'
  have hRaised := Nat.le_trans (hJoined.version_le hLawful hLength hSigned hCoherent)
    (hLater.version_le hLawful hLength hSigned' hCoherent')
  refine ⟨seed, h.ikSPub, ?_⟩
  exact
    { seedLength := hLength
      coherent := hCoherent''
      signed := hSigned''
      crl := hLaterCrl
      issued := hIssued
      pubRange := h.generated.pubRange
      ikSLength := h.generated.ikSLength
      enrolled :=
        { root := by
            obtain ⟨rootPub, hPublic, hText⟩ := hDescribes.root
            have hPublic : s.mesh.rootPublicRaw = .ok rootPub := hPublic
            have hLawful : env.meshEnv.signatures.Lawful verifyingKey := hLawful
            rw [hSigned.rootPublicRaw hLawful] at hPublic
            cases hPublic
            rw [hRoot, hText]
          cert := hCert
          serverKey := by rw [hSaved, hDescribes.serverIkX]
          version := ⟨_, Nat.le_trans hOlder hRaised, hOld⟩ }
      localPub := by rw [hPriv]; rfl
      typed := hTyped
      built := hBuilt }

/-- **From the join code to a session.** A device joins, and the server goes on: any
operations of the registry, restarts and other clients in between. As long as the
device keeps what it has saved, an attempt to connect ends in a session exactly
when the certificate is valid on both clocks, the device is not on the revocation
list as it reads it, the list can be sent, and the AUTH is in time, new, within the
rate limit and with a token for a room. Both ends then have the same key, the
server knows the device by the id, the key and the address of its certificate, and
the client the version of the list. -/
theorem enrolled_session_iff (hC : env.crypto.Lawful) (hKeys : env.Generated)
    (hLawful : env.signatures.Lawful verifyingKey) (hSha : ∀ bs, (env.sha256 bs).length = 32)
    (hMesh : cli.mesh = env.meshEnv)
    (hReach : (MeshConfig.machine env.meshEnv verifyingKey).Reach (fun _ _ => True) s.mesh)
    (hCrl : s.mesh.crl.InRange) (h : Enrols cli env c c' s s' server)
    (hTime : h.draw.join.issueNow + certValiditySecs < 256 ^ 8) (hLater : s'.mesh.Leads env.meshEnv t.mesh)
    (hLaterCrl : t.mesh.crl.InRange) {k : ConnectionEntry} (hServer : k.server = server)
    (hTrust : (c₁.findServer server).map (·.trust) = (c'.findServer server).map (·.trust))
    (hIdentity : c₁.identity = c.identity) (hOpen : c₁.openConn k = .ok (conn, pub, token))
    (hTyped : y.Typed env.crypto) (hBuilt : KeyqueryRun.BuiltFrom env t.mesh y.frame) :
    ((∃ conn', (conn.connectTo env t pub token y).2 = .ok conn') ↔ Opens env t h.cert pub token y) ∧
      ∀ conn', (conn.connectTo env t pub token y).2 = .ok conn' →
        ∃ e, conn'.InSession (conn.connectTo env t pub token y).1 h.cert pub (env.crypto.publicKey y.ekCPriv) e := by
  obtain ⟨seed, ikSPub, hMeets⟩ := h.meets hC hKeys hLawful hSha hMesh hReach hCrl hTime hLater hLaterCrl hServer
    hTrust hIdentity hOpen hTyped hBuilt
  have hOpened : ∀ conn', (conn.connectTo env t pub token y).2 = .ok conn' ↔
      Opens env t h.cert pub token y ∧ conn' = conn.opened env t h.cert y :=
    fun conn' => hMeets.opened_iff hC hKeys hLawful hSha
  constructor
  · constructor
    · rintro ⟨conn', hOk⟩
      exact ((hOpened conn').mp hOk).1
    · intro hOpens
      exact ⟨_, (hOpened _).mpr ⟨hOpens, rfl⟩⟩
  · intro conn' hOk
    obtain ⟨hOpens, rfl⟩ := (hOpened conn').mp hOk
    exact hMeets.inSession hC hKeys hLawful hOpens

end Enrols

-- ---------------------------------------------------------------------------
-- An example
-- ---------------------------------------------------------------------------

/-- A JOIN that the server can complete is answered by a certificate. -/
theorem answered_of_issues {env : SignalingEnv Ct} {s : Signaling} {bytes : Bytes} {jb : JoinBody}
    {ip granted : String} {seed : Bytes} (priv : RawKey) (nonce answerNonce : Nonce) (src : SourceAddr) (d : SignalDraw)
    (hC : env.crypto.Lawful) (hKeys : env.Generated) (hSizes : env.FixedSizes) (hBody : decodeJoin bytes = .ok jb)
    (hFree : env.crypto.publicKey priv ∉ s.sessions)
    (hReaches : Signaling.ReachesRegistry env s (env.crypto.publicKey priv) jb src d.join)
    (hIssues : Signaling.Issues env s.mesh jb d.join ip granted seed)
    (hAlias : ∃ a, normalizeSelfAlias env jb.aliasName = .ok a) (hEncodes : JoinEncodes env s.mesh ip granted)
    (hTime : d.join.issueNow + certValiditySecs < 256 ^ 8) (hCrl : s.mesh.crl.InRange)
    (hVersion : s.mesh.crl.version ≤ maxCrlEntries) :
    ∃ resp deviceId info crl, readJoinAnswer env.crypto priv env.serverPub (s.exchange env
        (env.crypto.staticFrame msgJoin priv (env.crypto.publicKey priv) env.serverPub nonce bytes) src d
        answerNonce).2 = .ok resp ∧ resp.ok = true ∧
      resp.data = .join deviceId ip (MeshConfig.newMember env.meshEnv s.mesh jb.deviceId jb.ikX jb.ikSPub granted
        seed d.join.issueNow).cert.respelled info crl := by
  obtain ⟨sent, hSent⟩ := (Signaling.enroll_issues hSizes hIssues).2.2.mpr ⟨hAlias, hEncodes⟩
  have hHandled : (s.handleJoin env (env.crypto.publicKey priv) jb src d.join).2 = .joined sent := by
    rcases Signaling.handleJoin_cases env s (env.crypto.publicKey priv) jb src d.join with ⟨hNot, _⟩ | ⟨_, r, hEq⟩
    · exact absurd hReaches hNot
    · rw [hEq]
      exact hSent
  rcases Signaling.enroll_cases env s.mesh jb d.join with ⟨_, hNot⟩ | ⟨ip', granted', seed', hIssues', hEnd⟩
  · exact absurd hIssues (hNot _ _ _)
  · obtain ⟨rfl, rfl, rfl⟩ := hIssues.unique hIssues'
    rcases hEnd with ⟨e, _, hEq⟩ | ⟨aliasName, _, hEq⟩
    · rw [hEq] at hSent
      cases hSent
    · obtain ⟨members, invites, hFrame⟩ := Signaling.completeJoin_frame env
        (Signaling.issued env s.mesh jb d.join granted seed) jb jb.deviceId aliasName d.join.consumeNow
      rw [hEq] at hSent
      dsimp only at hSent
      generalize Signaling.completeJoin env (Signaling.issued env s.mesh jb d.join granted seed) jb jb.deviceId
        aliasName d.join.consumeNow = m' at *
      have hList : m'.crl = s.mesh.crl := by
        rw [hFrame]
        rfl
      obtain ⟨info, hInfo, pt, hEncode⟩ := Signaling.joinAnswer_eq_joined.mp ⟨sent, hSent⟩
      have hEncode : encodeResponse sent = .ok pt := by
        obtain ⟨info', hInfo', rfl⟩ := joined_eq hSent
        rw [hInfo] at hInfo'
        cases hInfo'
        exact hEncode
      obtain ⟨info', hEq', hDecode⟩ := decode_joined hSent (MeshConfig.newCert_inRange s.mesh _ _ _ _ hTime)
        (by rw [hList]; exact hVersion) (by rw [hList]; exact hCrl) hEncode
      have hStatic : Signaling.staticAnswer (s.handleSignaling env (env.crypto.staticFrame msgJoin priv
          (env.crypto.publicKey priv) env.serverPub nonce bytes) src d).2 = some (msgResponse, .ok pt) := by
        rw [handleSignaling_joinFrame hC hKeys hBody hFree, hHandled, ← hEncode]
        rfl
      refine ⟨sent.respelled, trim jb.deviceId, info'.respelled, m'.crl.respelled, ?_, ?_, ?_⟩
      · rw [Signaling.exchange_snd.mpr ⟨msgResponse, pt, hStatic, rfl⟩]
        unfold readJoinAnswer
        dsimp only
        split
        · rename_i hKind
          exact absurd rfl hKind
        · rw [staticFrame_sender, openStatic_answer hC hKeys, Record.ok_bind, hDecode]
          rfl
      · rw [hEq']
        rfl
      · rw [hEq', respelled_join]
        rfl

open JoinLog (exampleServerEnv exampleServerEnv_sizes exampleInvited exampleJoin exampleJoin_issues exampleJoin_peek)

def exampleEnrolCli : CliEnv := { exampleCliEnv with mesh := exampleServerEnv.meshEnv }

/-- Device 2 with the server in its configuration. -/
def exampleJoiner : ClientFile :=
  { identity := some ⟨⟨sampleKeyText 2, sampleKeyText 2⟩, ⟨sampleKeyText 2, sampleKeyText 2⟩⟩
    vmNics := [{ name := "lm0", ip := "" }]
    servers := [SavedServer.new "lab" "192.0.2.1:4000"] }

/-- What it asks for. -/
def exampleEnrolBody : JoinBody := { exampleJoin none with requestedIp := none }

theorem exampleServerEnv_generated : exampleServerEnv.Generated where
  pub := rfl
  pubRange := by show 7 < 256 ^ 32; decide
  ikS := ⟨keyBytes 7, keyBytes_length 7, rfl⟩

theorem exampleServerEnv_lawful : exampleServerEnv.signatures.Lawful MeshConfig.exampleVerifyingKey :=
  MeshConfig.exampleSignatures_lawful

theorem exampleEnrolBody_encodes : ∃ bytes, encodeJoin exampleEnrolBody = .ok bytes := by
  have hCode : wireStrSet codeLen (inviteCode (List.replicate 16 1)) = .ok _ :=
    wireStrSet_ok (by decide +kernel) (by decide +kernel)
  have hDevice : b64Key exampleEnrolBody.deviceId = .ok _ :=
    b64Key_keyB64 (by rw [List.length_take]; exact congrArg (min 32) (Layout.beBytes_length 32 _))
  have hKey : b64Key (sampleKeyText 2) = .ok (keyBytes 2) := b64Key_keyB64 (keyBytes_length 2)
  refine exists_bind_ok hCode (exists_bind_ok hDevice (exists_bind_ok hKey (exists_bind_ok hKey ?_)))
  exact exists_bind_ok rfl (exists_bind_ok rfl (exists_bind_ok rfl ⟨_, rfl⟩))

/-- The server can complete it. -/
theorem exampleEnrolBody_issues : Signaling.Issues exampleServerEnv exampleInvited.mesh exampleEnrolBody
    (sampleSignalDraw 0 0).join "10.13.13.2" "10.13.13.2" (List.replicate 32 1) := by
  have hIp : exampleInvited.mesh.allocateIp none = .ok "10.13.13.2" := by decide +kernel
  refine ⟨?_, (exampleJoin_issues none).issue⟩
  rw [Signaling.joinChecks_eq_ok]
  exact ⟨none, 2, keyBytes 2, exampleJoin_peek, parsePublicKey_keyB64 (by decide),
    parseSigPublic_keyB64 (keyBytes_length 2), rfl, hIp⟩

theorem exampleInvited_crl : exampleInvited.mesh.crl.FitsWire := by
  show (Crl.sign exampleServerEnv.signatures
    { meshId := "mesh", version := 0, entries := [], signature := none } (List.replicate 32 1)).FitsWire
  rw [MeshConfig.fitsWire_sign (exampleServerEnv_sizes.sign _ _)]
  exact ⟨by decide +kernel, Nat.zero_le _, fun e he => absurd he List.not_mem_nil⟩

theorem exampleInvited_joinEncodes : JoinEncodes exampleServerEnv exampleInvited.mesh "10.13.13.2" "10.13.13.2" where
  rootPub := ⟨_, parseSigPublic_keyB64 (exampleServerEnv_lawful.key_length _)⟩
  ip := ⟨_, wireStrSet_ok (by decide +kernel) (by decide +kernel)⟩
  granted := ⟨_, wireStrSet_ok (by decide +kernel) (by decide +kernel)⟩
  meshId := ⟨_, wireStrSet_ok (by decide +kernel) (by decide +kernel)⟩
  serverName := ⟨_, wireStrSet_ok (by decide +kernel) (by decide +kernel)⟩
  serverIkSPub := ⟨_, b64Key_keyB64 (keyBytes_length 7)⟩
  crl := MeshConfig.crl_fromDomain_iff.mpr exampleInvited_crl

theorem exampleInvited_seed : exampleInvited.mesh.rootSeed = .ok (List.replicate 32 1) := b64Fixed_keyB64 rfl

theorem exampleInvited_public : exampleInvited.mesh.rootPublicRaw =
    .ok (MeshConfig.exampleVerifyingKey (List.replicate 32 1)) :=
  parseSigPublic_keyB64 (exampleServerEnv_lawful.key_length _)

theorem exampleInvited_frame : ∃ f, serverInfoFrame exampleServerEnv exampleInvited.mesh = .ok f := by
  obtain ⟨info, hInfo⟩ := (Signaling.buildServerInfo_iff exampleInvited_seed).mpr exampleInvited_joinEncodes.rootPub
  obtain ⟨payload, hEncode⟩ := (Signaling.serverInfo_encodes_iff exampleServerEnv_sizes hInfo).mpr
    ⟨exampleInvited_joinEncodes.meshId, exampleInvited_joinEncodes.serverName, exampleInvited_joinEncodes.serverIkSPub⟩
  exact ⟨⟨info, payload, hEncode⟩, KeyqueryRun.serverInfoFrame_eq_ok.mpr hInfo⟩

theorem exampleJoiner_key : parsePublicKey (sampleKeyText 2) = .ok 2 := parsePublicKey_keyB64 (by decide)

theorem exampleJoiner_asks : exampleJoiner.joinBody exampleEnrolCli 2 "lm0" (inviteCode (List.replicate 16 1)) none =
    .ok exampleEnrolBody := by
  have hDevice : exampleJoiner.deviceId exampleEnrolCli = .ok exampleEnrolBody.deviceId := by
    show (do
      let ikX ← parsePublicKey (sampleKeyText 2)
      let ikS ← parseSigPublic (sampleKeyText 2)
      Except.ok (deviceIdB64 exampleEnrolCli.mesh ikX ikS)) = _
    rw [exampleJoiner_key, Record.ok_bind, show parseSigPublic (sampleKeyText 2) = .ok (keyBytes 2) from
      parseSigPublic_keyB64 (keyBytes_length 2)]
    rfl
  have hNoAlias : exampleJoiner.selfAlias "lm0" = none := by decide +kernel
  unfold ClientFile.joinBody
  rw [hDevice, hNoAlias]
  rfl

/-- A connection can be made. -/
theorem openConn_of {c : ClientFile} {k : ConnectionEntry} {entry : SavedServer} {nic : VmNicConfig} {priv pub : RawKey}
    (hEntry : c.findServer k.server = some entry) (hNic : c.findVmnic k.vmNic = some nic)
    (hPriv : c.privateKey = .ok priv) (hPub : c.publicKey = .ok pub)
    (hEndpoint : (IpAddr.parseSocket entry.endpoint).isSome) :
    ∃ conn, c.openConn k = .ok (conn, pub, entry.token) := by
  have hCheck : failIf (IpAddr.parseSocket entry.endpoint).isNone
      s!"服务器地址 {entry.endpoint} 解析失败: invalid socket address syntax" = .ok () := by
    rw [failIf_eq_ok]
    exact Option.isNone_eq_false_iff.mpr hEndpoint
  unfold ClientFile.openConn
  rw [hEntry, hNic, hPriv, hPub]
  dsimp only
  rw [Record.ok_bind, Record.ok_bind, hCheck]
  exact ⟨_, rfl⟩

theorem exampleJoiner_opens (info : ServerInfo) (cert : DeviceCert) :
    ∃ conn, (exampleJoiner.saveJoin "lab" "lm0" info cert "10.13.13.2" none).openConn ⟨"lab", "lm0"⟩ =
      .ok (conn, 2, none) := by
  have hEntry : (exampleJoiner.saveJoin "lab" "lm0" info cert "10.13.13.2" none).findServer "lab" =
    some (ClientFile.joinedEntry info cert none (SavedServer.new "lab" "192.0.2.1:4000")) := rfl
  have hNic : (exampleJoiner.saveJoin "lab" "lm0" info cert "10.13.13.2" none).findVmnic "lm0" =
    some { name := "lm0", ip := "10.13.13.2" } := rfl
  exact @openConn_of _ ⟨"lab", "lm0"⟩ _ _ 2 2 hEntry hNic exampleJoiner_key exampleJoiner_key
    (show (IpAddr.parseSocket "192.0.2.1:4000").isSome by decide +kernel)

/-- Device 2 enrols. -/
theorem exampleEnrols : ∃ c' s', ∃ h : Enrols exampleEnrolCli exampleServerEnv exampleJoiner c' exampleInvited s' "lab",
    h.draw = sampleSignalDraw 0 0 ∧ h.cert.allowedIp = "10.13.13.2" ∧
      KeyqueryRun.BuiltFrom exampleServerEnv exampleInvited.mesh h.frame ∧
      ∃ conn, c'.openConn ⟨"lab", "lm0"⟩ = .ok (conn, 2, none) := by
  obtain ⟨f, hFrame⟩ := exampleInvited_frame
  have hBuilt := KeyqueryRun.BuiltFrom.of_frame hFrame
  have hDescribes := describes_built hBuilt
  have hRead := f.read_eq hDescribes exampleServerEnv_generated (Nat.le_trans hBuilt.version (Nat.zero_le _))
  obtain ⟨bytes, hBytes⟩ := exampleEnrolBody_encodes
  have hBody : decodeJoin bytes = .ok exampleEnrolBody :=
    decodeJoin_encodeJoin
      (isB64Text_keyB64 (by rw [List.length_take]; exact congrArg (min 32) (Layout.beBytes_length 32 _)))
      (isB64Text_keyB64 (keyBytes_length 2)) (isB64Text_keyB64 (keyBytes_length 2)) hBytes
  obtain ⟨resp, deviceId, info, crl, hAnswer, hOk, hData⟩ := answered_of_issues 2 (0, 0) (0, 0) sampleSrc
    (sampleSignalDraw 0 0) sampleCrypto_lawful exampleServerEnv_generated exampleServerEnv_sizes hBody
    ExtTreeMap.not_mem_empty ⟨rfl, rfl, "default", rfl⟩ exampleEnrolBody_issues ⟨none, rfl⟩
    exampleInvited_joinEncodes (by decide) ⟨by decide, fun e he => absurd he List.not_mem_nil⟩ (Nat.zero_le _)
  obtain ⟨hRoot, hVerify⟩ := describes_verify (m := KeyqueryRun.atVersion exampleInvited.mesh f.info.crlVersion)
    exampleServerEnv_lawful exampleInvited_seed exampleInvited_public hDescribes
  refine ⟨_, _,
    { vmnic := "lm0"
      code := inviteCode (List.replicate 16 1)
      token := none
      id := ⟨⟨sampleKeyText 2, sampleKeyText 2⟩, ⟨sampleKeyText 2, sampleKeyText 2⟩⟩
      identity := rfl
      priv := 2
      ikSPub := keyBytes 2
      generated := ⟨by decide, by show 2 < 256 ^ 32; decide, rfl, keyBytes_length 2, rfl⟩
      x :=
        { info := .ok f.info
          trusted := true
          answer := .ok resp }
      entry := SavedServer.new "lab" "192.0.2.1:4000"
      info := f.info
      body := exampleEnrolBody
      cert := _
      ip := "10.13.13.2"
      joins :=
        { identity := rfl
          found := rfl
          endpoint := by decide +kernel
          received := rfl
          root := ⟨_, by rw [hRoot]; exact parseSigPublic_keyB64 (exampleServerEnv_lawful.key_length _), hVerify⟩
          trusted := rfl
          pinned := fun root hPinned => by cases hPinned
          asks := ⟨2, exampleJoiner_key, exampleJoiner_asks⟩
          privateKey := ⟨2, exampleJoiner_key⟩
          serverKey := ⟨7, by rw [hDescribes.serverIkX]; exact parsePublicKey_keyB64 (by decide)⟩
          encodes := ⟨bytes, hBytes⟩
          answer := ⟨resp, deviceId, info, crl, rfl, hOk, hData⟩ }
      saved := rfl
      frame := f
      built := hBuilt
      fetched := hRead
      bytes := bytes
      encodes := hBytes
      src := sampleSrc
      draw := sampleSignalDraw 0 0
      nonce := (0, 0)
      answerNonce := (0, 0)
      serverKey := 7
      parses := by rw [hDescribes.serverIkX]; exact parsePublicKey_keyB64 (by decide)
      after := rfl
      answered := hAnswer.symm }, rfl, rfl, hBuilt, ?_⟩
  exact exampleJoiner_opens f.info _

/-- It connects to a server that has been restarted. -/
def exampleAttempt (f : ServerInfoFrame) : Attempt :=
  { frame := f
    now := 0
    timestamp := 0
    ekCPriv := 50
    nonce := Layout.beBytes 12 1
    sealNonce := (0, 0)
    src := sampleSrc
    draw :=
      { sampleSignalDraw 0 11 with
        auth := { sampleAuthDraw 0 11 with sessionId := keyB64 (List.replicate 16 0) } }
    answerNonce := (0, 0) }

theorem exampleAttempt_typed (f : ServerInfoFrame) : (exampleAttempt f).Typed exampleServerEnv.crypto where
  ekC := by show 50 < 256 ^ 32; decide
  ekS := by show 11 < 256 ^ 32; decide
  nonce := Layout.beBytes_length 12 1
  timestamp := by show 0 < 256 ^ 8; decide
  sessionId := isB64Text_keyB64 (List.length_replicate ..)

theorem enrolled_session_sample : ∃ (c : Conn) (t : Signaling) (y : Attempt) (c' : Conn) (cert : DeviceCert)
    (e : SessionEntry), (c.connectTo exampleServerEnv t 2 none y).2 = .ok c' ∧
      c'.InSession (c.connectTo exampleServerEnv t 2 none y).1 cert 2 50 e := by
  obtain ⟨c', s', h, hDraw, hIp, hBuilt, conn, hOpen⟩ := exampleEnrols
  have hCrl : exampleInvited.mesh.crl.InRange := ⟨by decide, fun e he => absurd he List.not_mem_nil⟩
  have hTime : h.draw.join.issueNow + certValiditySecs < 256 ^ 8 := by
    rw [hDraw]
    decide
  have hSha : ∀ bs, (exampleServerEnv.sha256 bs).length = 32 := fun _ => Layout.beBytes_length 32 _
  obtain ⟨seed, _, hIssued, hFrom, hTo, hMesh, _⟩ := h.issued sampleCrypto_lawful exampleServerEnv_generated
    exampleServerEnv_lawful hSha rfl (Nat.zero_le _) hCrl hTime
  obtain ⟨members, invites, hFrame⟩ := Signaling.enroll_frame exampleServerEnv exampleInvited.mesh h.body h.draw.join
  rw [← hMesh] at hFrame
  rw [hDraw] at hFrom hTo
  have hList : s'.mesh.crl = exampleInvited.mesh.crl := by rw [hFrame]
  have hBuiltNow : KeyqueryRun.BuiltFrom exampleServerEnv s'.mesh h.frame :=
    hBuilt.mono (by rw [hFrame]) (by rw [hFrame]) (by rw [hList])
  have hLaterCrl : s'.mesh.crl.InRange := by
    rw [hList]
    exact hCrl
  have hReach : (MeshConfig.machine exampleServerEnv.meshEnv MeshConfig.exampleVerifyingKey).Reach (fun _ _ => True)
      exampleInvited.mesh :=
    .step (e := MeshOp.createInvite (List.replicate 16 1) none 600 0) MeshConfig.exampleRegistry_reach trivial trivial
  have hEnd := h.enrolled_session_iff (t := { mesh := s'.mesh }) sampleCrypto_lawful exampleServerEnv_generated
    exampleServerEnv_lawful hSha rfl hReach hCrl hTime ⟨[], rfl⟩ hLaterCrl rfl rfl (congrArg (·.identity) h.saved) hOpen
    (exampleAttempt_typed h.frame) hBuiltNow
  obtain ⟨conn', hOk⟩ := hEnd.1.mpr
    { clientClock := by
        rw [hFrom, hTo]
        exact ⟨Nat.le_refl 0, Nat.zero_le _⟩
      serverClock := by
        rw [hFrom, hTo]
        exact ⟨Nat.le_refl 0, Nat.zero_le _⟩
      timestamp := show timestampOk 0 0 = true by decide
      encodes := fun _ hText => by cases hText
      room := ⟨"default", rfl⟩
      rate := rfl
      free := ExtTreeMap.not_mem_empty
      fresh := List.not_mem_nil
      live := by
        rw [hList]
        exact fun e he => absurd he List.not_mem_nil
      list := by
        rw [hList]
        exact MeshConfig.crl_fromDomain_iff.mpr exampleInvited_crl
      ip := by
        rw [hIp]
        decide }
  obtain ⟨e, hSession⟩ := hEnd.2 conn' hOk
  exact ⟨conn, { mesh := s'.mesh }, exampleAttempt h.frame, conn', h.cert, e, hOk, hSession⟩

end LinkMesh
