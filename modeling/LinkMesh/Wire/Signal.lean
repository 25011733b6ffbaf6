import LinkMesh.Wire.Auth

/-!
# Requests and responses

Encoding and decoding of the bodies of REGISTER, QUERY, JOIN, RESPONSE, NOTIFY,
AUTH_RESP and SERVERINFO (`linkmesh-shared/src/wire.rs`). A response is a kind
byte and a record of fixed layout.

## Results

* `decodeJoin_encodeJoin` — a JOIN body with canonical texts is read back.
* `decodeResponse_encodeResponse` — a response that the server builds for a
  session request is read back by the client.
-/

namespace LinkMesh

open Layout

def endpointLen : Nat := 64
def errLen : Nat := 256
def codeLen : Nat := 64

-- ---------------------------------------------------------------------------
-- Requests
-- ---------------------------------------------------------------------------

structure RegisterBody where
  ip : String
  relayRk : Option String
  token : Option String
  aliasName : Option String
  deriving DecidableEq, Repr

/-- By virtual IP, or by alias. -/
structure QueryBody where
  ip : String
  name : Option String
  deriving DecidableEq, Repr

/-- `PeerInfo`, the body of a NOTIFY -/
structure PeerInfo where
  publicKey : String
  endpoint : String
  relayRk : Option String
  aliasName : Option String
  ip : Option String
  deriving DecidableEq, Repr

def wireRegister : List Nat := [ipLen, 1, 32, 1, tokenLen, 1, nameLen]

def decodeRegister (bytes : Bytes) : Except String RegisterBody := do
  match ← decodeImpl wireRegister "RegisterBody" bytes with
  | [ip, hasRelayRk, relayRk, hasToken, token, hasAlias, aliasName] =>
    let ip ← wireStrGet ip
    let token ← optText hasToken token
    let aliasName ← optText hasAlias aliasName
    .ok { ip := ip, relayRk := optB64 hasRelayRk relayRk, token := token, aliasName := aliasName }
  | _ => .error "RegisterBody 长度错误"

def encodeRegister (rb : RegisterBody) : Except String Bytes := do
  let ip ← wireStrSet ipLen rb.ip
  let relayRk ← putOptB64 32 b64Key rb.relayRk
  let token ← putOptStr tokenLen rb.token
  let aliasName ← putOptStr nameLen rb.aliasName
  .ok ([ip] ++ relayRk ++ token ++ aliasName).flatten

/-- A REGISTER body with a canonical relay key is read back. -/
theorem decodeRegister_encodeRegister {rb : RegisterBody} {bytes : Bytes}
    (hRk : ∀ rk, rb.relayRk = some rk → IsB64Text 32 rk) (h : encodeRegister rb = .ok bytes) :
    decodeRegister bytes = .ok rb := by
  obtain ⟨ip, hIp, h⟩ := bind_eq_ok.mp h
  obtain ⟨relayRk, hRelay, h⟩ := bind_eq_ok.mp h
  obtain ⟨token, hToken, h⟩ := bind_eq_ok.mp h
  obtain ⟨aliasName, hAlias, h⟩ := bind_eq_ok.mp h
  cases h
  obtain ⟨rkFlag, rk, rfl, hRkFlag, hRkLength, hRkBack⟩ :=
    optB64_putOptB64 (fun _ => b64Key_keyB64) hRk hRelay
  obtain ⟨tokenFlag, tokenBuf, rfl, hTokenFlag, hTokenLength, hTokenBack⟩ := optText_putOptStr hToken
  obtain ⟨aliasFlag, aliasBuf, rfl, hAliasFlag, hAliasLength, hAliasBack⟩ := optText_putOptStr hAlias
  unfold decodeRegister
  rw [decodeImpl_flatten (by
    simp [wireRegister, wireStrSet_length hIp, hRkFlag, hRkLength, hTokenFlag, hTokenLength,
      hAliasFlag, hAliasLength])]
  show (wireStrGet ip >>= fun ip => _) = _
  rw [wireStr_get_set hIp]
  show (optText tokenFlag tokenBuf >>= fun token => _) = _
  rw [hTokenBack]
  show (optText aliasFlag aliasBuf >>= fun aliasName => _) = _
  rw [hAliasBack, hRkBack]
  rfl

/-- A relay key that REGISTER carries is canonical base64. -/
theorem decodeRegister_relayRk {bytes : Bytes} {rb : RegisterBody} {rk : String}
    (h : decodeRegister bytes = .ok rb) (hRk : rb.relayRk = some rk) : IsB64Text 32 rk := by
  obtain ⟨fields, hFields, h⟩ := bind_eq_ok.mp h
  have hWidths := decodeImpl_lengths hFields
  split at h
  · rename_i ip hasRelayRk relayRk hasToken token hasAlias aliasName
    obtain ⟨_, _, h⟩ := bind_eq_ok.mp h
    obtain ⟨_, _, h⟩ := bind_eq_ok.mp h
    obtain ⟨_, _, h⟩ := bind_eq_ok.mp h
    cases h
    have hLength : relayRk.length = 32 := by
      unfold wireRegister at hWidths
      simp only [List.map_cons, List.cons.injEq] at hWidths
      exact hWidths.2.2.1
    exact isB64Text_optB64 hLength hRk
  · cases h

def wireQuery : List Nat := [ipLen, 1, nameLen]

def decodeQuery (bytes : Bytes) : Except String QueryBody := do
  match ← decodeImpl wireQuery "QueryBody" bytes with
  | [ip, hasName, name] =>
    let ip ← wireStrGet ip
    let name ← optText hasName name
    .ok { ip := ip, name := name }
  | _ => .error "QueryBody 长度错误"

def encodeQuery (qb : QueryBody) : Except String Bytes := do
  let ip ← wireStrSet ipLen qb.ip
  let name ← putOptStr nameLen qb.name
  .ok ([ip] ++ name).flatten

theorem decodeQuery_encodeQuery {qb : QueryBody} {bytes : Bytes} (h : encodeQuery qb = .ok bytes) :
    decodeQuery bytes = .ok qb := by
  obtain ⟨ip, hIp, h⟩ := bind_eq_ok.mp h
  obtain ⟨name, hName, h⟩ := bind_eq_ok.mp h
  cases h
  obtain ⟨flag, buf, rfl, hFlag, hLength, hBack⟩ := optText_putOptStr hName
  unfold decodeQuery
  rw [decodeImpl_flatten (by simp [wireQuery, wireStrSet_length hIp, hFlag, hLength])]
  show (wireStrGet ip >>= fun ip => _) = _
  rw [wireStr_get_set hIp]
  show (optText flag buf >>= fun name => _) = _
  rw [hBack]
  rfl

structure JoinBody where
  /-- the join code, works once -/
  code : String
  deviceId : String
  ikX : String
  ikSPub : String
  requestedIp : Option String
  token : Option String
  aliasName : Option String
  deriving DecidableEq, Repr

def wireJoin : List Nat := [codeLen, 32, 32, 32, 1, ipLen, 1, tokenLen, 1, nameLen]

def encodeJoin (jb : JoinBody) : Except String Bytes := do
  let code ← wireStrSet codeLen jb.code
  let deviceId ← b64Key jb.deviceId
  let ikX ← b64Key jb.ikX
  let ikSPub ← b64Key jb.ikSPub
  let requestedIp ← putOptStr ipLen jb.requestedIp
  let token ← putOptStr tokenLen jb.token
  let aliasName ← putOptStr nameLen jb.aliasName
  .ok ([code, deviceId, ikX, ikSPub] ++ requestedIp ++ token ++ aliasName).flatten

def decodeJoin (bytes : Bytes) : Except String JoinBody := do
  match ← decodeImpl wireJoin "JoinBody" bytes with
  | [code, deviceId, ikX, ikSPub, hasRequestedIp, requestedIp, hasToken, token, hasAlias, aliasName] =>
    let code ← wireStrGet code
    let requestedIp ← optText hasRequestedIp requestedIp
    let token ← optText hasToken token
    let aliasName ← optText hasAlias aliasName
    .ok
      { code := code
        deviceId := keyB64 deviceId
        ikX := keyB64 ikX
        ikSPub := keyB64 ikSPub
        requestedIp := requestedIp
        token := token
        aliasName := aliasName }
  | _ => .error "JoinBody 长度错误"

/-- A JOIN body with canonical texts is read back. -/
theorem decodeJoin_encodeJoin {jb : JoinBody} {bytes : Bytes} (hDevice : IsB64Text 32 jb.deviceId)
    (hIkX : IsB64Text 32 jb.ikX) (hIkS : IsB64Text 32 jb.ikSPub) (h : encodeJoin jb = .ok bytes) :
    decodeJoin bytes = .ok jb := by
  obtain ⟨code, hCode, h⟩ := bind_eq_ok.mp h
  obtain ⟨deviceId, hId, h⟩ := bind_eq_ok.mp h
  obtain ⟨ikX, hX, h⟩ := bind_eq_ok.mp h
  obtain ⟨ikSPub, hS, h⟩ := bind_eq_ok.mp h
  obtain ⟨requestedIp, hIp, h⟩ := bind_eq_ok.mp h
  obtain ⟨token, hToken, h⟩ := bind_eq_ok.mp h
  obtain ⟨aliasName, hAlias, h⟩ := bind_eq_ok.mp h
  cases h
  obtain ⟨hIdLength, hIdBack⟩ := b64Key_isB64Text hDevice hId
  obtain ⟨hXLength, hXBack⟩ := b64Key_isB64Text hIkX hX
  obtain ⟨hSLength, hSBack⟩ := b64Key_isB64Text hIkS hS
  obtain ⟨ipFlag, ipBuf, rfl, hIpFlag, hIpLength, hIpBack⟩ := optText_putOptStr hIp
  obtain ⟨tokenFlag, tokenBuf, rfl, hTokenFlag, hTokenLength, hTokenBack⟩ := optText_putOptStr hToken
  obtain ⟨aliasFlag, aliasBuf, rfl, hAliasFlag, hAliasLength, hAliasBack⟩ := optText_putOptStr hAlias
  unfold decodeJoin
  rw [decodeImpl_flatten (by
    simp [wireJoin, wireStrSet_length hCode, hIdLength, hXLength, hSLength, hIpFlag, hIpLength,
      hTokenFlag, hTokenLength, hAliasFlag, hAliasLength])]
  show (wireStrGet code >>= fun code => _) = _
  rw [wireStr_get_set hCode]
  show (optText ipFlag ipBuf >>= fun requestedIp => _) = _
  rw [hIpBack]
  show (optText tokenFlag tokenBuf >>= fun token => _) = _
  rw [hTokenBack]
  show (optText aliasFlag aliasBuf >>= fun aliasName => _) = _
  rw [hAliasBack, hIdBack, hXBack, hSBack]
  rfl

-- ---------------------------------------------------------------------------
-- Server information and revocation lists on the wire
-- ---------------------------------------------------------------------------

def wireServerInfo : List Nat := [nameLen, nameLen, 32, 32, 32, 4, 8, 1, 1, 64]

/-- `WireServerInfo::from_domain` -/
def serverInfoFromDomain (i : ServerInfo) : Except String Bytes := do
  let meshId ← wireStrSet nameLen i.meshId
  let serverName ← wireStrSet nameLen i.serverName
  let meshRootPub ← b64Key i.meshRootPub
  let serverIkX ← b64Key i.serverIkX
  let serverIkSPub ← b64Key i.serverIkSPub
  let signature ← putOptB64 64 b64Sig i.signature
  .ok ([meshId, serverName, meshRootPub, serverIkX, serverIkSPub, leBytes 4 i.protocolVer,
    leBytes 8 i.crlVersion, [if i.authRequired then 1 else 0]] ++ signature).flatten

/-- `WireServerInfo::to_domain` -/
def serverInfoToDomain (bytes : Bytes) : Except String ServerInfo :=
  match split wireServerInfo bytes with
  | [meshId, serverName, meshRootPub, serverIkX, serverIkSPub, protocolVer, crlVersion,
      authRequired, hasSignature, signature] => do
    let meshId ← wireStrGet meshId
    let serverName ← wireStrGet serverName
    .ok
      { meshId := meshId
        serverName := serverName
        meshRootPub := keyB64 meshRootPub
        serverIkX := keyB64 serverIkX
        serverIkSPub := keyB64 serverIkSPub
        protocolVer := leValue protocolVer
        crlVersion := leValue crlVersion
        authRequired := authRequired ≠ [0]
        signature := optB64 hasSignature signature }
  | _ => .error "ServerInfo 长度错误"

def RevokeReason.toU8 : RevokeReason → UInt8
  | .compromised => 0
  | .leaked => 1
  | .rotated => 2
  | .admin => 3
  | .discontinued => 4

def RevokeReason.fromU8 (v : UInt8) : Option RevokeReason :=
  [compromised, leaked, rotated, admin, discontinued][v.toNat]?

def wireCrlEntry : List Nat := [32, 1, 8, 1, 32]

/-- `WireCrlEntry::from_domain` -/
def crlEntryFromDomain (e : CrlEntry) : Except String Bytes := do
  let deviceId ← b64Key e.deviceId
  let replacement ← putOptB64 32 b64Key e.replacement
  .ok ([deviceId, [e.reason.toU8], leBytes 8 e.revokedAt] ++ replacement).flatten

/-- `WireCrlEntry::to_domain` -/
def crlEntryToDomain (bytes : Bytes) : Except String CrlEntry :=
  match split wireCrlEntry bytes with
  | [deviceId, [reason], revokedAt, hasReplacement, replacement] =>
    match RevokeReason.fromU8 reason with
    | some r =>
      .ok
        { deviceId := keyB64 deviceId
          reason := r
          revokedAt := leValue revokedAt
          replacement := optB64 hasReplacement replacement }
    | none => .error s!"非法吊销原因取值 {reason}"
  | _ => .error "CrlEntry 长度错误"

def wireCrl : List Nat := [nameLen, 8, 2, maxCrlEntries * wireCrlEntry.sum, 1, 64]

/-- `WireCrl::from_domain`: 256 slots, the unused ones zero. -/
def crlFromDomain (c : Crl) : Except String Bytes :=
  if maxCrlEntries < c.entries.length then
    .error s!"CRL 条目数超上限（{c.entries.length} > {maxCrlEntries}）"
  else do
    let meshId ← wireStrSet nameLen c.meshId
    let entries ← c.entries.mapM crlEntryFromDomain
    let signature ← putOptB64 64 b64Sig c.signature
    let slots := entries.flatten ++
      List.replicate ((maxCrlEntries - c.entries.length) * wireCrlEntry.sum) 0
    .ok ([meshId, leBytes 8 c.version, leBytes 2 c.entries.length, slots] ++ signature).flatten

/-- `WireCrl::to_domain` -/
def crlToDomain (bytes : Bytes) : Except String Crl :=
  match split wireCrl bytes with
  | [meshId, version, count, slots, hasSignature, signature] => do
    let n := leValue count
    if maxCrlEntries < n then .error s!"CRL 条目数越界（{n} > {maxCrlEntries}）"
    else
      let entries ← (split (List.replicate n wireCrlEntry.sum) slots).mapM crlEntryToDomain
      let meshId ← wireStrGet meshId
      .ok
        { meshId := meshId
          version := leValue version
          entries := entries
          signature := optB64 hasSignature signature }
  | _ => .error "Crl 长度错误"

-- ---------------------------------------------------------------------------
-- Responses
-- ---------------------------------------------------------------------------

inductive ResponseData where
  | none
  /-- `req` echoes the key of the query -/
  | queryHit (req ip publicKey endpoint : String) (relayRk : Option String) (aliasName : String)
  | queryMiss (req error : String)
  | join (deviceId allocatedIp : String) (cert : DeviceCert) (serverInfo : ServerInfo) (crl : Crl)
  deriving DecidableEq, Repr

structure ResponseBody where
  ok : Bool
  data : ResponseData
  error : Option String
  deriving DecidableEq, Repr

namespace ResponseBody

/-- `ResponseBody::ok` -/
def okEmpty : ResponseBody := { ok := true, data := .none, error := none }

def okWithData (data : ResponseData) : ResponseBody := { ok := true, data := data, error := none }

def err (e : String) : ResponseBody := { ok := false, data := .none, error := some e }

/-- The answer to a query without a result, with its error text twice. -/
def miss (req error : String) : ResponseBody :=
  { ok := false, data := .queryMiss req error, error := some error }

end ResponseBody

def respOk : UInt8 := 1
def respErr : UInt8 := 2
def respQueryHit : UInt8 := 3
def respQueryMiss : UInt8 := 4
def respJoin : UInt8 := 5

def wireRespErr : List Nat := [errLen]
def wireRespQueryHit : List Nat := [nameLen, ipLen, 32, endpointLen, 1, 32, 1, nameLen]
def wireRespQueryMiss : List Nat := [nameLen, errLen]
def wireRespJoin : List Nat := [32, ipLen, wireDeviceCert.sum, wireServerInfo.sum, wireCrl.sum]

def encodeResponse (r : ResponseBody) : Except String Bytes :=
  match r.data with
  | .none =>
    if r.ok then .ok [respOk]
    else do
      let error ← wireStrSet errLen (r.error.getD "")
      .ok (respErr :: error)
  | .queryHit req ip publicKey endpoint relayRk aliasName => do
    let req ← wireStrSet nameLen req
    let ip ← wireStrSet ipLen ip
    let publicKey ← b64Key publicKey
    let endpoint ← wireStrSet endpointLen endpoint
    let relayRk ← putOptB64 32 b64Key relayRk
    let aliasName ← wireStrSet nameLen aliasName
    -- `has_alias` is never set
    .ok (respQueryHit :: ([req, ip, publicKey, endpoint] ++ relayRk ++ [[0], aliasName]).flatten)
  | .queryMiss req error => do
    let req ← wireStrSet nameLen req
    let error ← wireStrSet errLen error
    .ok (respQueryMiss :: [req, error].flatten)
  | .join deviceId allocatedIp cert serverInfo crl => do
    let deviceId ← b64Key deviceId
    let allocatedIp ← wireStrSet ipLen allocatedIp
    let cert ← deviceCertFromDomain cert
    let serverInfo ← serverInfoFromDomain serverInfo
    let crl ← crlFromDomain crl
    .ok (respJoin :: [deviceId, allocatedIp, cert, serverInfo, crl].flatten)

def decodeRespErr (rest : Bytes) : Except String ResponseBody := do
  match ← decodeImpl wireRespErr "RespErr" rest with
  | [error] =>
    let error ← wireStrGet error
    .ok (.err error)
  | _ => .error "RespErr 长度错误"

def decodeRespQueryHit (rest : Bytes) : Except String ResponseBody := do
  match ← decodeImpl wireRespQueryHit "RespQueryHit" rest with
  | [req, ip, publicKey, endpoint, hasRelayRk, relayRk, _hasAlias, aliasName] =>
    let req ← wireStrGet req
    let ip ← wireStrGet ip
    let endpoint ← wireStrGet endpoint
    let aliasName ← wireStrGet aliasName
    .ok (.okWithData
      (.queryHit req ip (keyB64 publicKey) endpoint (optB64 hasRelayRk relayRk) aliasName))
  | _ => .error "RespQueryHit 长度错误"

def decodeRespQueryMiss (rest : Bytes) : Except String ResponseBody := do
  match ← decodeImpl wireRespQueryMiss "RespQueryMiss" rest with
  | [req, error] =>
    let req ← wireStrGet req
    let error ← wireStrGet error
    .ok (.miss req error)
  | _ => .error "RespQueryMiss 长度错误"

def decodeRespJoin (rest : Bytes) : Except String ResponseBody := do
  match ← decodeImpl wireRespJoin "RespJoin" rest with
  | [deviceId, allocatedIp, cert, serverInfo, crl] =>
    let allocatedIp ← wireStrGet allocatedIp
    let cert ← deviceCertToDomain cert
    let serverInfo ← serverInfoToDomain serverInfo
    let crl ← crlToDomain crl
    .ok (.okWithData (.join (keyB64 deviceId) allocatedIp cert serverInfo crl))
  | _ => .error "RespJoin 长度错误"

def decodeResponse (bytes : Bytes) : Except String ResponseBody :=
  match bytes with
  | [] => .error "响应为空"
  | kind :: rest =>
    if kind = respOk then .ok .okEmpty
    else if kind = respErr then decodeRespErr rest
    else if kind = respQueryHit then decodeRespQueryHit rest
    else if kind = respQueryMiss then decodeRespQueryMiss rest
    else if kind = respJoin then decodeRespJoin rest
    else .error s!"未知响应类型 {kind}"

-- ---------------------------------------------------------------------------
-- NOTIFY, AUTH_RESP and SERVERINFO
-- ---------------------------------------------------------------------------

structure NotifyBody where
  peer : PeerInfo
  deriving DecidableEq, Repr

structure ServerInfoBody where
  serverInfo : ServerInfo
  deriving DecidableEq, Repr

def wirePeerInfo : List Nat := [32, endpointLen, 1, 32, 1, nameLen, 1, ipLen]

def fillPeerInfo (p : PeerInfo) : Except String (List Bytes) := do
  let publicKey ← b64Key p.publicKey
  let endpoint ← wireStrSet endpointLen p.endpoint
  let relayRk ← putOptB64 32 b64Key p.relayRk
  let aliasName ← putOptStr nameLen p.aliasName
  let ip ← putOptStr ipLen p.ip
  .ok ([publicKey, endpoint] ++ relayRk ++ aliasName ++ ip)

def peerInfoFromWire : List Bytes → Except String PeerInfo
  | [publicKey, endpoint, hasRelayRk, relayRk, hasAlias, aliasName, hasIp, ip] => do
    let endpoint ← wireStrGet endpoint
    let aliasName ← optText hasAlias aliasName
    let ip ← optText hasIp ip
    .ok
      { publicKey := keyB64 publicKey
        endpoint := endpoint
        relayRk := optB64 hasRelayRk relayRk
        aliasName := aliasName
        ip := ip }
  | _ => .error "NotifyBody 长度错误"

def encodeNotify (nb : NotifyBody) : Except String Bytes := (fillPeerInfo nb.peer).map List.flatten

def decodeNotify (bytes : Bytes) : Except String NotifyBody := do
  let fields ← decodeImpl wirePeerInfo "NotifyBody" bytes
  let peer ← peerInfoFromWire fields
  .ok { peer := peer }

def wireAuthResp : List Nat := [32, 16, wireCrl.sum, wireServerInfo.sum, ipLen]

/-- `b64_sig_to_16` -/
def b64SigTo16 (s : String) : Except String Bytes :=
  b64Fixed 16 "session_id base64 解析失败" "session_id 长度错误，应为 16 字节" s

def encodeAuthResp (b : AuthRespBody) : Except String Bytes := do
  let ekS ← b64Key b.ekS
  let sessionId ← b64SigTo16 b.sessionId
  let crl ← crlFromDomain b.crl
  let serverInfo ← serverInfoFromDomain b.serverInfo
  let allocatedIp ← wireStrSet ipLen b.allocatedIp
  .ok [ekS, sessionId, crl, serverInfo, allocatedIp].flatten

def decodeAuthResp (bytes : Bytes) : Except String AuthRespBody := do
  match ← decodeImpl wireAuthResp "AuthRespBody" bytes with
  | [ekS, sessionId, crl, serverInfo, allocatedIp] =>
    let crl ← crlToDomain crl
    let serverInfo ← serverInfoToDomain serverInfo
    let allocatedIp ← wireStrGet allocatedIp
    .ok
      { ekS := keyB64 ekS
        sessionId := keyB64 sessionId
        crl := crl
        serverInfo := serverInfo
        allocatedIp := allocatedIp }
  | _ => .error "AuthRespBody 长度错误"

def wireServerInfoBody : List Nat := [wireServerInfo.sum]

def encodeServerInfoBody (b : ServerInfoBody) : Except String Bytes := serverInfoFromDomain b.serverInfo

def decodeServerInfoBody (bytes : Bytes) : Except String ServerInfoBody := do
  match ← decodeImpl wireServerInfoBody "ServerInfoBody" bytes with
  | [serverInfo] =>
    let serverInfo ← serverInfoToDomain serverInfo
    .ok { serverInfo := serverInfo }
  | _ => .error "ServerInfoBody 长度错误"

-- ---------------------------------------------------------------------------
-- Round trip
-- ---------------------------------------------------------------------------

/-- The responses that session requests are answered with. -/
inductive SessionResponse : ResponseBody → Prop where
  | okEmpty : SessionResponse .okEmpty
  | err (e : String) : SessionResponse (.err e)
  | hit (req ip publicKey endpoint : String) (relayRk : Option String) (aliasName : String)
      (hKey : IsB64Text 32 publicKey) (hRk : ∀ rk, relayRk = some rk → IsB64Text 32 rk) :
      SessionResponse (.okWithData (.queryHit req ip publicKey endpoint relayRk aliasName))
  | miss (req error : String) : SessionResponse (.miss req error)

theorem decodeRespErr_of_set {e : String} {buf : Bytes} (h : wireStrSet errLen e = .ok buf) :
    decodeRespErr buf = .ok (.err e) := by
  have hFields : decodeImpl wireRespErr "RespErr" buf = .ok [buf] := by
    have hFlat : buf = [buf].flatten := (List.flatten_singleton).symm
    have hWidths : [buf].map List.length = wireRespErr := by simp [wireRespErr, wireStrSet_length h]
    rw [hFlat, decodeImpl_flatten hWidths]
    simp
  unfold decodeRespErr
  rw [hFields]
  show (wireStrGet buf >>= fun error => Except.ok (ResponseBody.err error)) = _
  rw [wireStr_get_set h]
  rfl

/-- **Round trip of session responses.** What the server builds and encodes, the
client decodes to the same response. -/
theorem decodeResponse_encodeResponse {r : ResponseBody} {bytes : Bytes} (hBuilt : SessionResponse r)
    (h : encodeResponse r = .ok bytes) : decodeResponse bytes = .ok r := by
  cases hBuilt with
  | okEmpty =>
    cases h
    rfl
  | err e =>
    obtain ⟨buf, hBuf, hBytes⟩ := bind_eq_ok.mp h
    cases hBytes
    exact decodeRespErr_of_set hBuf
  | hit req ip publicKey endpoint relayRk aliasName hKey hRk =>
    obtain ⟨bReq, hReq, h⟩ := bind_eq_ok.mp h
    obtain ⟨bIp, hIp, h⟩ := bind_eq_ok.mp h
    obtain ⟨bKey, hPub, h⟩ := bind_eq_ok.mp h
    obtain ⟨bEndpoint, hEndpoint, h⟩ := bind_eq_ok.mp h
    obtain ⟨bRk, hRelay, h⟩ := bind_eq_ok.mp h
    obtain ⟨bAlias, hAlias, h⟩ := bind_eq_ok.mp h
    cases h
    obtain ⟨hKeyLength, hKeyBack⟩ := b64Key_isB64Text hKey hPub
    obtain ⟨flag, rk, rfl, hFlag, hRkLength, hRkBack⟩ :=
      optB64_putOptB64 (fun _ => b64Key_keyB64) hRk hRelay
    show decodeRespQueryHit ([bReq, bIp, bKey, bEndpoint, flag, rk, [0], bAlias].flatten) = _
    unfold decodeRespQueryHit
    rw [decodeImpl_flatten (by
      simp [wireRespQueryHit, wireStrSet_length hReq, wireStrSet_length hIp, hKeyLength,
        wireStrSet_length hEndpoint, hFlag, hRkLength, wireStrSet_length hAlias])]
    show (wireStrGet bReq >>= fun req => _) = _
    rw [wireStr_get_set hReq]
    show (wireStrGet bIp >>= fun ip => _) = _
    rw [wireStr_get_set hIp]
    show (wireStrGet bEndpoint >>= fun endpoint => _) = _
    rw [wireStr_get_set hEndpoint]
    show (wireStrGet bAlias >>= fun aliasName => _) = _
    rw [wireStr_get_set hAlias, hKeyBack, hRkBack]
    rfl
  | miss req error =>
    obtain ⟨bReq, hReq, h⟩ := bind_eq_ok.mp h
    obtain ⟨bError, hError, h⟩ := bind_eq_ok.mp h
    cases h
    show decodeRespQueryMiss ([bReq, bError].flatten) = _
    unfold decodeRespQueryMiss
    rw [decodeImpl_flatten (by
      simp [wireRespQueryMiss, wireStrSet_length hReq, wireStrSet_length hError])]
    show (wireStrGet bReq >>= fun req => _) = _
    rw [wireStr_get_set hReq]
    show (wireStrGet bError >>= fun error => _) = _
    rw [wireStr_get_set hError]
    rfl

end LinkMesh
