import LinkMesh.Wire.Records

/-!
# What the wire format takes and how it spells it

The texts of a body have to fit their slots, and its base64 texts come back in
canonical form (`linkmesh-shared/src/wire.rs`). A decoder accepts bytes that it
does not look at; they are strict when these are as an encoder writes them.
-/

namespace LinkMesh

open Layout Record

-- ---------------------------------------------------------------------------
-- Optional fields
-- ---------------------------------------------------------------------------

def FitsOptText (n : Nat) (s : Option String) : Prop := ∀ text, s = some text → FitsText n text

def FitsOptB64 (n : Nat) (s : Option String) : Prop := ∀ text, s = some text → FitsB64 n text

/-- There is a text with zeros behind it, or zeros only. -/
def StrictOptText (n : Nat) (flag buf : Bytes) : Prop :=
  flag = [1] ∧ ZeroPadded buf ∨ flag = [0] ∧ buf = List.replicate n 0

def StrictOptB64 (n : Nat) (flag buf : Bytes) : Prop := flag = [1] ∨ flag = [0] ∧ buf = List.replicate n 0

theorem textField_strict {n : Nat} {b : Bytes} : (textField n).Strict [b] ↔ ZeroPadded b := Iff.rfl

theorem base64Field_strict {n : Nat} {badBase64 badLength : String} {b : Bytes} :
    (base64Field n badBase64 badLength).Strict [b] ↔ True := Iff.rfl

theorem boolField_strict {b : Bytes} : boolField.Strict [b] ↔ b = [0] ∨ b = [1] := Iff.rfl

theorem reasonField_strict {b : Bytes} : reasonField.Strict [b] ↔ True := Iff.rfl

theorem strictOptText_iff {n : Nat} {flag buf : Bytes} :
    (textField n).opt.Strict [flag, buf] ↔ StrictOptText n flag buf := by
  rw [opt_strict, textField_strict]
  unfold StrictOptText
  show _ ∨ flag = [0] ∧ [buf] = [List.replicate n 0] ↔ _
  simp

theorem strictOptB64_iff {n : Nat} {badBase64 badLength : String} {flag buf : Bytes} :
    (base64Field n badBase64 badLength).opt.Strict [flag, buf] ↔ StrictOptB64 n flag buf := by
  rw [opt_strict, base64Field_strict]
  unfold StrictOptB64
  show _ ∨ flag = [0] ∧ [buf] = [List.replicate n 0] ↔ _
  simp

-- ---------------------------------------------------------------------------
-- Statements of the root
-- ---------------------------------------------------------------------------

namespace DeviceCert

def FitsWire (c : DeviceCert) : Prop :=
  FitsText nameLen c.meshId ∧ FitsB64 32 c.deviceId ∧ FitsB64 32 c.ikX ∧ FitsB64 32 c.ikSPub ∧
    FitsText ipLen c.allowedIp ∧ FitsOptB64 64 c.signature

/-- The numbers are of their types. -/
def InRange (c : DeviceCert) : Prop :=
  c.version < 256 ^ 4 ∧ c.validFrom < 256 ^ 8 ∧ c.notAfter < 256 ^ 8

def respelled (c : DeviceCert) : DeviceCert :=
  { c with
    deviceId := trim c.deviceId
    ikX := trim c.ikX
    ikSPub := trim c.ikSPub
    signature := c.signature.map trim }

end DeviceCert

def StrictCert (bytes : Bytes) : Prop :=
  match split wireDeviceCert bytes with
  | [meshId, _, _, _, _, allowedIp, _, _, hasSignature, signature] =>
    ZeroPadded meshId ∧ ZeroPadded allowedIp ∧ StrictOptB64 64 hasSignature signature
  | _ => False

theorem certRecord_fits {c : DeviceCert} : certRecord.Fits c ↔ c.FitsWire := by
  show FitsText _ _ ∧ True ∧ FitsB64 _ _ ∧ FitsB64 _ _ ∧ FitsB64 _ _ ∧ FitsText _ _ ∧ True ∧ True ∧ _ ↔ _
  simp only [true_and]
  rfl

theorem certRecord_typed {c : DeviceCert} : certRecord.Typed c ↔ c.InRange := by
  show True ∧ c.version < 256 ^ 4 ∧ True ∧ True ∧ True ∧ True ∧ c.validFrom < 256 ^ 8 ∧ c.notAfter < 256 ^ 8 ∧
    (∀ text, c.signature = some text → True) ↔ c.InRange
  unfold DeviceCert.InRange
  simp

theorem certRecord_spell (c : DeviceCert) : certRecord.spell c = c.respelled := rfl

theorem certRecord_readsFit : certRecord.ReadsFit :=
  .shape <| .both textField_readsFit <| .both (.number 4) <| .both base64Field_readsFit <|
    .both base64Field_readsFit <| .both base64Field_readsFit <| .both textField_readsFit <|
      .both (.number 8) <| .both (.number 8) (.opt base64Field_readsFit)

theorem certRecord_strict {bytes : Bytes} : certRecord.StrictBytes bytes ↔ StrictCert bytes := by
  unfold StrictBytes StrictCert
  rw [certRecord_widths]
  unfold wireDeviceCert certRecord
  simp only [split, shape_strict, both_strict, textField_length, base64Field_length, number_length, keyField,
    sigField, textField_strict, number_strict, base64Field_strict, strictOptB64_iff, List.take_succ_cons,
    List.take_zero, List.drop_succ_cons, List.drop_zero, true_and]

namespace ServerInfo

def FitsWire (i : ServerInfo) : Prop :=
  FitsText nameLen i.meshId ∧ FitsText nameLen i.serverName ∧ FitsB64 32 i.meshRootPub ∧
    FitsB64 32 i.serverIkX ∧ FitsB64 32 i.serverIkSPub ∧ FitsOptB64 64 i.signature

def InRange (i : ServerInfo) : Prop := i.protocolVer < 256 ^ 4 ∧ i.crlVersion < 256 ^ 8

def respelled (i : ServerInfo) : ServerInfo :=
  { i with
    meshRootPub := trim i.meshRootPub
    serverIkX := trim i.serverIkX
    serverIkSPub := trim i.serverIkSPub
    signature := i.signature.map trim }

end ServerInfo

def StrictServerInfo (bytes : Bytes) : Prop :=
  match split wireServerInfo bytes with
  | [meshId, serverName, _, _, _, _, _, authRequired, hasSignature, signature] =>
    ZeroPadded meshId ∧ ZeroPadded serverName ∧ (authRequired = [0] ∨ authRequired = [1]) ∧
      StrictOptB64 64 hasSignature signature
  | _ => False

theorem serverInfoRecord_fits {i : ServerInfo} : serverInfoRecord.Fits i ↔ i.FitsWire := by
  show FitsText _ _ ∧ FitsText _ _ ∧ FitsB64 _ _ ∧ FitsB64 _ _ ∧ FitsB64 _ _ ∧ True ∧ True ∧ True ∧ _ ↔ _
  simp only [true_and]
  rfl

theorem serverInfoRecord_typed {i : ServerInfo} : serverInfoRecord.Typed i ↔ i.InRange := by
  show True ∧ True ∧ True ∧ True ∧ True ∧ i.protocolVer < 256 ^ 4 ∧ i.crlVersion < 256 ^ 8 ∧ True ∧
    (∀ text, i.signature = some text → True) ↔ i.InRange
  unfold ServerInfo.InRange
  simp

theorem serverInfoRecord_strict {bytes : Bytes} :
    serverInfoRecord.StrictBytes bytes ↔ StrictServerInfo bytes := by
  unfold StrictBytes StrictServerInfo
  rw [serverInfoRecord_widths]
  unfold wireServerInfo serverInfoRecord
  simp only [split, shape_strict, both_strict, textField_length, base64Field_length, number_length,
    boolField_length, keyField, sigField, textField_strict, number_strict, base64Field_strict,
    boolField_strict, strictOptB64_iff, List.take_succ_cons, List.take_zero, List.drop_succ_cons,
    List.drop_zero, true_and]

namespace Crl

def FitsWire (c : Crl) : Prop :=
  FitsText nameLen c.meshId ∧ c.entries.length ≤ maxCrlEntries ∧
    (∀ e ∈ c.entries, FitsB64 32 e.deviceId ∧ FitsOptB64 32 e.replacement) ∧ FitsOptB64 64 c.signature

def InRange (c : Crl) : Prop := c.version < 256 ^ 8 ∧ ∀ e ∈ c.entries, e.revokedAt < 256 ^ 8

def respelled (c : Crl) : Crl :=
  { c with
    entries := c.entries.map fun e =>
      { e with deviceId := trim e.deviceId, replacement := e.replacement.map trim }
    signature := c.signature.map trim }

end Crl

def StrictCrlEntry (row : Bytes) : Prop :=
  match split wireCrlEntry row with
  | [_, _, _, hasReplacement, replacement] => StrictOptB64 32 hasReplacement replacement
  | _ => False

/-- The used slots are strict, and the others zero. -/
def StrictSlots (n : Nat) (slots : Bytes) : Prop :=
  (∀ row ∈ split (List.replicate n wireCrlEntry.sum) slots, StrictCrlEntry row) ∧
    slots.drop (n * wireCrlEntry.sum) = List.replicate ((maxCrlEntries - n) * wireCrlEntry.sum) 0

def StrictCrl (bytes : Bytes) : Prop :=
  match split wireCrl bytes with
  | [meshId, _, count, slots, hasSignature, signature] =>
    ZeroPadded meshId ∧ StrictSlots (leValue count) slots ∧ StrictOptB64 64 hasSignature signature
  | _ => False

theorem crlRecord_fits {c : Crl} : crlRecord.Fits c ↔ c.FitsWire := by
  show FitsText _ _ ∧ True ∧ (_ ≤ _ ∧ ∀ e ∈ c.entries, FitsB64 _ _ ∧ True ∧ True ∧ _) ∧ _ ↔ _
  simp only [true_and, and_assoc]
  rfl

theorem crlRecord_typed {c : Crl} : crlRecord.Typed c ↔ c.InRange := by
  show True ∧ c.version < 256 ^ 8 ∧ (∀ e ∈ c.entries, True ∧ True ∧ e.revokedAt < 256 ^ 8 ∧
    (∀ text, e.replacement = some text → True)) ∧ (∀ text, c.signature = some text → True) ↔ c.InRange
  unfold Crl.InRange
  simp

theorem crlEntryRecord_strict {row : Bytes} : crlEntryRecord.StrictBytes row ↔ StrictCrlEntry row := by
  unfold StrictBytes StrictCrlEntry
  rw [crlEntryRecord_widths]
  unfold wireCrlEntry crlEntryRecord
  simp only [split, shape_strict, both_strict, base64Field_length, number_length, reasonField_length, keyField,
    number_strict, base64Field_strict, reasonField_strict, strictOptB64_iff, List.take_succ_cons,
    List.take_zero, List.drop_succ_cons, List.drop_zero, true_and]

theorem crlRecord_strict {bytes : Bytes} : crlRecord.StrictBytes bytes ↔ StrictCrl bytes := by
  unfold StrictBytes StrictCrl
  rw [crlRecord_widths]
  unfold wireCrl crlRecord
  simp only [split, shape_strict, both_strict, textField_length, number_length, table_length, sigField,
    textField_strict, number_strict, table_strict, strictOptB64_iff, List.take_succ_cons, List.take_zero,
    List.drop_succ_cons, List.drop_zero, true_and]
  unfold StrictRows StrictSlots
  simp only [crlEntryRecord_strict, crlEntryRecord_widths]

-- ---------------------------------------------------------------------------
-- Requests
-- ---------------------------------------------------------------------------

namespace RegisterBody

def FitsWire (b : RegisterBody) : Prop :=
  FitsText ipLen b.ip ∧ FitsOptB64 32 b.relayRk ∧ FitsOptText tokenLen b.token ∧
    FitsOptText nameLen b.aliasName

def respelled (b : RegisterBody) : RegisterBody := { b with relayRk := b.relayRk.map trim }

end RegisterBody

def StrictRegister (bytes : Bytes) : Prop :=
  match split wireRegister bytes with
  | [ip, hasRelayRk, relayRk, hasToken, token, hasAlias, aliasName] =>
    ZeroPadded ip ∧ StrictOptB64 32 hasRelayRk relayRk ∧ StrictOptText tokenLen hasToken token ∧
      StrictOptText nameLen hasAlias aliasName
  | _ => False

theorem optText_spell (s : Option String) {n : Nat} : (textField n).opt.spell s = s := by
  show s.map id = s
  rw [Option.map_id, id]

theorem registerRecord_fits {b : RegisterBody} : registerRecord.Fits b ↔ b.FitsWire := Iff.rfl

theorem registerRecord_typed (b : RegisterBody) : registerRecord.Typed b :=
  ⟨trivial, fun _ _ => trivial, fun _ _ => trivial, fun _ _ => trivial⟩

theorem registerRecord_spell (b : RegisterBody) : registerRecord.spell b = b.respelled := by
  show RegisterBody.mk b.ip _ ((textField tokenLen).opt.spell b.token)
    ((textField nameLen).opt.spell b.aliasName) = _
  rw [optText_spell, optText_spell]
  rfl

theorem registerRecord_strict {bytes : Bytes} : registerRecord.StrictBytes bytes ↔ StrictRegister bytes := by
  unfold StrictBytes StrictRegister
  rw [registerRecord_widths]
  unfold wireRegister registerRecord
  simp only [split, shape_strict, both_strict, textField_length, base64Field_length, opt_length, keyField,
    textField_strict, strictOptB64_iff, strictOptText_iff, List.take_succ_cons, List.take_zero,
    List.drop_succ_cons, List.drop_zero]

def QueryBody.FitsWire (b : QueryBody) : Prop := FitsText ipLen b.ip ∧ FitsOptText nameLen b.name

def StrictQuery (bytes : Bytes) : Prop :=
  match split wireQuery bytes with
  | [ip, hasName, name] => ZeroPadded ip ∧ StrictOptText nameLen hasName name
  | _ => False

theorem queryRecord_fits {b : QueryBody} : queryRecord.Fits b ↔ b.FitsWire := Iff.rfl

theorem queryRecord_typed (b : QueryBody) : queryRecord.Typed b := ⟨trivial, fun _ _ => trivial⟩

theorem queryRecord_spell (b : QueryBody) : queryRecord.spell b = b := by
  show QueryBody.mk b.ip ((textField nameLen).opt.spell b.name) = _
  rw [optText_spell]

theorem queryRecord_strict {bytes : Bytes} : queryRecord.StrictBytes bytes ↔ StrictQuery bytes := by
  unfold StrictBytes StrictQuery
  rw [queryRecord_widths]
  unfold wireQuery queryRecord
  simp only [split, shape_strict, both_strict, textField_length, textField_strict, strictOptText_iff,
    List.take_succ_cons, List.take_zero, List.drop_succ_cons, List.drop_zero]

namespace JoinBody

def FitsWire (b : JoinBody) : Prop :=
  FitsText codeLen b.code ∧ FitsB64 32 b.deviceId ∧ FitsB64 32 b.ikX ∧ FitsB64 32 b.ikSPub ∧
    FitsOptText ipLen b.requestedIp ∧ FitsOptText tokenLen b.token ∧ FitsOptText nameLen b.aliasName

def respelled (b : JoinBody) : JoinBody :=
  { b with deviceId := trim b.deviceId, ikX := trim b.ikX, ikSPub := trim b.ikSPub }

end JoinBody

def StrictJoin (bytes : Bytes) : Prop :=
  match split wireJoin bytes with
  | [code, _, _, _, hasRequestedIp, requestedIp, hasToken, token, hasAlias, aliasName] =>
    ZeroPadded code ∧ StrictOptText ipLen hasRequestedIp requestedIp ∧ StrictOptText tokenLen hasToken token ∧
      StrictOptText nameLen hasAlias aliasName
  | _ => False

theorem joinRecord_fits {b : JoinBody} : joinRecord.Fits b ↔ b.FitsWire := Iff.rfl

theorem joinRecord_typed (b : JoinBody) : joinRecord.Typed b :=
  ⟨trivial, trivial, trivial, trivial, fun _ _ => trivial, fun _ _ => trivial, fun _ _ => trivial⟩

theorem joinRecord_spell (b : JoinBody) : joinRecord.spell b = b.respelled := by
  show JoinBody.mk b.code _ _ _ ((textField ipLen).opt.spell b.requestedIp)
    ((textField tokenLen).opt.spell b.token) ((textField nameLen).opt.spell b.aliasName) = _
  rw [optText_spell, optText_spell, optText_spell]
  rfl

theorem joinRecord_strict {bytes : Bytes} : joinRecord.StrictBytes bytes ↔ StrictJoin bytes := by
  unfold StrictBytes StrictJoin
  rw [joinRecord_widths]
  unfold wireJoin joinRecord
  simp only [split, shape_strict, both_strict, textField_length, base64Field_length, opt_length, keyField,
    textField_strict, base64Field_strict, strictOptText_iff, List.take_succ_cons, List.take_zero,
    List.drop_succ_cons, List.drop_zero, true_and]

namespace AuthBody

def FitsWire (b : AuthBody) : Prop :=
  FitsB64 32 b.deviceId ∧ b.cert.FitsWire ∧ FitsB64 32 b.ekC ∧ FitsB64 12 b.nonce ∧ FitsOptText tokenLen b.token

def InRange (b : AuthBody) : Prop := b.cert.InRange ∧ b.timestamp < 256 ^ 8

def respelled (b : AuthBody) : AuthBody :=
  { b with
    deviceId := trim b.deviceId
    cert := b.cert.respelled
    ekC := trim b.ekC
    nonce := trim b.nonce }

end AuthBody

def StrictAuth (bytes : Bytes) : Prop :=
  match split wireAuth bytes with
  | [_, cert, _, _, _, hasToken, token] => StrictCert cert ∧ StrictOptText tokenLen hasToken token
  | _ => False

theorem authRecord_fits {b : AuthBody} : authRecord.Fits b ↔ b.FitsWire := by
  show FitsB64 _ _ ∧ certRecord.Fits b.cert ∧ FitsB64 _ _ ∧ True ∧ FitsB64 _ _ ∧ _ ↔ _
  rw [certRecord_fits, true_and]
  rfl

theorem authRecord_typed {b : AuthBody} : authRecord.Typed b ↔ b.InRange := by
  show True ∧ certRecord.Typed b.cert ∧ True ∧ b.timestamp < 256 ^ 8 ∧ True ∧
    (∀ text, b.token = some text → True) ↔ b.InRange
  rw [certRecord_typed]
  unfold AuthBody.InRange
  simp

theorem authRecord_spell (b : AuthBody) : authRecord.spell b = b.respelled := by
  show AuthBody.mk _ (certRecord.spell b.cert) _ b.timestamp _ ((textField tokenLen).opt.spell b.token) = _
  rw [optText_spell, certRecord_spell]
  rfl

theorem authRecord_strict {bytes : Bytes} : authRecord.StrictBytes bytes ↔ StrictAuth bytes := by
  unfold StrictAuth
  show authRecord.Strict (split authRecord.widths bytes) ↔ _
  rw [authRecord_widths]
  unfold wireAuth authRecord
  simp only [split, shape_strict, both_strict, nest_length, nest_strict, base64Field_length, number_length,
    keyField, nonceField, number_strict, base64Field_strict, certRecord_strict, strictOptText_iff,
    List.take_succ_cons, List.take_zero, List.drop_succ_cons, List.drop_zero, true_and]

-- ---------------------------------------------------------------------------
-- Answers
-- ---------------------------------------------------------------------------

namespace NotifyBody

def FitsWire (b : NotifyBody) : Prop :=
  FitsB64 32 b.peer.publicKey ∧ FitsText endpointLen b.peer.endpoint ∧ FitsOptB64 32 b.peer.relayRk ∧
    FitsOptText nameLen b.peer.aliasName ∧ FitsOptText ipLen b.peer.ip

def respelled (b : NotifyBody) : NotifyBody :=
  { peer := { b.peer with publicKey := trim b.peer.publicKey, relayRk := b.peer.relayRk.map trim } }

end NotifyBody

def StrictNotify (bytes : Bytes) : Prop :=
  match split wirePeerInfo bytes with
  | [_, endpoint, hasRelayRk, relayRk, hasAlias, aliasName, hasIp, ip] =>
    ZeroPadded endpoint ∧ StrictOptB64 32 hasRelayRk relayRk ∧ StrictOptText nameLen hasAlias aliasName ∧
      StrictOptText ipLen hasIp ip
  | _ => False

theorem notifyRecord_fits {b : NotifyBody} : notifyRecord.Fits b ↔ b.FitsWire := Iff.rfl

theorem notifyRecord_typed (b : NotifyBody) : notifyRecord.Typed b :=
  ⟨trivial, trivial, fun _ _ => trivial, fun _ _ => trivial, fun _ _ => trivial⟩

theorem notifyRecord_spell (b : NotifyBody) : notifyRecord.spell b = b.respelled := by
  show NotifyBody.mk (PeerInfo.mk _ _ _ ((textField nameLen).opt.spell b.peer.aliasName)
    ((textField ipLen).opt.spell b.peer.ip)) = _
  rw [optText_spell, optText_spell]
  rfl

theorem notifyRecord_strict {bytes : Bytes} : notifyRecord.StrictBytes bytes ↔ StrictNotify bytes := by
  unfold StrictBytes StrictNotify
  rw [notifyRecord_widths]
  unfold wirePeerInfo notifyRecord
  simp only [split, shape_strict, both_strict, textField_length, base64Field_length, opt_length, keyField,
    textField_strict, base64Field_strict, strictOptB64_iff, strictOptText_iff, List.take_succ_cons,
    List.take_zero, List.drop_succ_cons, List.drop_zero, true_and]

namespace AuthRespBody

def FitsWire (b : AuthRespBody) : Prop :=
  FitsB64 32 b.ekS ∧ FitsB64 16 b.sessionId ∧ b.crl.FitsWire ∧ b.serverInfo.FitsWire ∧
    FitsText ipLen b.allocatedIp

def InRange (b : AuthRespBody) : Prop := b.crl.InRange ∧ b.serverInfo.InRange

def respelled (b : AuthRespBody) : AuthRespBody :=
  { b with
    ekS := trim b.ekS
    sessionId := trim b.sessionId
    crl := b.crl.respelled
    serverInfo := b.serverInfo.respelled }

end AuthRespBody

def StrictAuthResp (bytes : Bytes) : Prop :=
  match split wireAuthResp bytes with
  | [_, _, crl, serverInfo, allocatedIp] => StrictCrl crl ∧ StrictServerInfo serverInfo ∧ ZeroPadded allocatedIp
  | _ => False

theorem authRespRecord_fits {b : AuthRespBody} : authRespRecord.Fits b ↔ b.FitsWire := by
  show FitsB64 _ _ ∧ FitsB64 _ _ ∧ crlRecord.Fits b.crl ∧ serverInfoRecord.Fits b.serverInfo ∧ FitsText _ _ ↔ _
  rw [crlRecord_fits, serverInfoRecord_fits]
  rfl

theorem authRespRecord_typed {b : AuthRespBody} : authRespRecord.Typed b ↔ b.InRange := by
  show True ∧ True ∧ crlRecord.Typed b.crl ∧ serverInfoRecord.Typed b.serverInfo ∧ True ↔ _
  rw [crlRecord_typed, serverInfoRecord_typed]
  unfold AuthRespBody.InRange
  simp

theorem authRespRecord_spell (b : AuthRespBody) : authRespRecord.spell b = b.respelled := rfl

theorem authRespRecord_strict {bytes : Bytes} : authRespRecord.StrictBytes bytes ↔ StrictAuthResp bytes := by
  unfold StrictAuthResp
  show authRespRecord.Strict (split authRespRecord.widths bytes) ↔ _
  rw [authRespRecord_widths]
  unfold wireAuthResp authRespRecord
  simp only [split, shape_strict, both_strict, nest_length, nest_strict, base64Field_length, keyField,
    sessionIdField, textField_strict, base64Field_strict, crlRecord_strict, serverInfoRecord_strict,
    List.take_succ_cons, List.take_zero, List.drop_succ_cons, List.drop_zero, true_and]

def ServerInfoBody.respelled (b : ServerInfoBody) : ServerInfoBody := { serverInfo := b.serverInfo.respelled }

theorem serverInfoBodyRecord_fits {b : ServerInfoBody} : serverInfoBodyRecord.Fits b ↔ b.serverInfo.FitsWire :=
  serverInfoRecord_fits

theorem serverInfoBodyRecord_typed {b : ServerInfoBody} :
    serverInfoBodyRecord.Typed b ↔ b.serverInfo.InRange :=
  serverInfoRecord_typed

theorem serverInfoBodyRecord_spell (b : ServerInfoBody) : serverInfoBodyRecord.spell b = b.respelled := rfl

theorem serverInfoBodyRecord_strict {bytes : Bytes} (h : bytes.length = wireServerInfo.sum) :
    serverInfoBodyRecord.StrictBytes bytes ↔ StrictServerInfo bytes := by
  show serverInfoBodyRecord.Strict (split serverInfoBodyRecord.widths bytes) ↔ _
  rw [serverInfoBodyRecord_widths]
  unfold wireServerInfoBody serverInfoBodyRecord
  simp only [split, shape_strict, nest_strict, serverInfoRecord_strict]
  rw [← h, List.take_length]

-- ---------------------------------------------------------------------------
-- Encoders and decoders
-- ---------------------------------------------------------------------------

theorem isCodec_register : registerRecord.IsCodec encodeRegister decodeRegister where
  enc_ok := by
    intro b bytes
    rw [encodeRegister_eq]
  dec_ok := decodeRegister_eq_ok

theorem isCodec_query : queryRecord.IsCodec encodeQuery decodeQuery where
  enc_ok := by
    intro b bytes
    rw [encodeQuery_eq]
  dec_ok := decodeQuery_eq_ok

theorem isCodec_notify : notifyRecord.IsCodec encodeNotify decodeNotify where
  enc_ok := by
    intro b bytes
    rw [encodeNotify_eq]
  dec_ok := decodeNotify_eq_ok

theorem isCodec_join : joinRecord.IsCodec encodeJoin decodeJoin where
  enc_ok := by
    intro b bytes
    rw [encodeJoin_eq]
  dec_ok := decodeJoin_eq_ok

theorem isCodec_auth : authRecord.IsCodec encodeAuth decodeAuth where
  enc_ok := by
    intro b bytes
    rw [encodeAuth_eq]
  dec_ok := decodeAuth_eq_ok

theorem isCodec_authResp : authRespRecord.IsCodec encodeAuthResp decodeAuthResp where
  enc_ok := encodeAuthResp_eq_ok
  dec_ok := decodeAuthResp_eq_ok

theorem isCodec_serverInfoBody : serverInfoBodyRecord.IsCodec encodeServerInfoBody decodeServerInfoBody where
  enc_ok := by
    intro b bytes
    rw [encodeServerInfoBody_eq]
  dec_ok := decodeServerInfoBody_eq_ok

-- ---------------------------------------------------------------------------
-- What is accepted
-- ---------------------------------------------------------------------------

/-- What REGISTER brings in fits the slots of its body. -/
theorem decodeRegister_fits {bytes : Bytes} {b : RegisterBody} (h : decodeRegister bytes = .ok b) : b.FitsWire := by
  have hReads : registerRecord.ReadsFit :=
    .shape <| .both textField_readsFit <| .both (.opt base64Field_readsFit) <|
      .both (.opt textField_readsFit) (.opt textField_readsFit)
  exact registerRecord_fits.mp (isCodec_register.decode_fits hReads h)

theorem decodeQuery_fits {bytes : Bytes} {b : QueryBody} (h : decodeQuery bytes = .ok b) : b.FitsWire := by
  have hReads : queryRecord.ReadsFit := .shape (.both textField_readsFit (.opt textField_readsFit))
  exact queryRecord_fits.mp (isCodec_query.decode_fits hReads h)

theorem decodeAuth_fits {bytes : Bytes} {b : AuthBody} (h : decodeAuth bytes = .ok b) : b.FitsWire := by
  have hReads : authRecord.ReadsFit :=
    .shape <| .both base64Field_readsFit <| .both (.nest certRecord_readsFit) <| .both base64Field_readsFit <|
      .both (.number 8) <| .both base64Field_readsFit (.opt textField_readsFit)
  exact authRecord_fits.mp (isCodec_auth.decode_fits hReads h)

end LinkMesh
