import LinkMesh.Wire.Bodies

/-!
# The signaling format

The responses, and with them every body that a signaling packet carries. An
answer is written behind the byte of its kind.

## Results

* `Body.wire_round_trip` — a body is encoded exactly when its fields fit, and decoded to itself.
* `Body.wire_strict_iff` — accepted bytes are encoded again exactly when they are strict.
-/

namespace LinkMesh

open Layout Record

-- ---------------------------------------------------------------------------
-- Answers
-- ---------------------------------------------------------------------------

/-- Values that are answered with, each as its record behind the byte of its kind. -/
structure IsAnswer {α : Type} (kind : UInt8) (R : WireRecord α) (wrap : α → ResponseBody) : Prop where
  enc : ∀ {a bytes}, encodeResponse (wrap a) = .ok bytes ↔ (R.encode a).map (kind :: ·) = .ok bytes
  dec : ∀ {rest r}, decodeResponse (kind :: rest) = .ok r ↔
    rest.length = R.widths.sum ∧ (R.decode rest).map wrap = .ok r

namespace IsAnswer

variable {α : Type} {kind : UInt8} {R : WireRecord α} {wrap : α → ResponseBody} {a : α} {r : ResponseBody}
  {bytes rest : Bytes}

theorem fits (h : IsAnswer kind R wrap) : (∃ bytes, encodeResponse (wrap a) = .ok bytes) ↔ R.Fits a := by
  simp only [h.enc]
  rw [← R.encode_ok]
  constructor
  · rintro ⟨_, hEncode⟩
    obtain ⟨rest, hRest, _⟩ := map_eq_ok.mp hEncode
    exact ⟨rest, hRest⟩
  · rintro ⟨rest, hRest⟩
    exact ⟨_, map_eq_ok.mpr ⟨rest, hRest, rfl⟩⟩

theorem round_trip (h : IsAnswer kind R wrap) (hTyped : R.Typed a)
    (hEncode : encodeResponse (wrap a) = .ok bytes) : decodeResponse bytes = .ok (wrap (R.spell a)) := by
  obtain ⟨rest, hRest, rfl⟩ := map_eq_ok.mp (h.enc.mp hEncode)
  refine h.dec.mpr ⟨R.encode_length hRest, ?_⟩
  rw [R.decode_encode hTyped hRest]
  rfl

theorem strict (h : IsAnswer kind R wrap) (hDecode : decodeResponse (kind :: rest) = .ok r) :
    encodeResponse r = .ok (kind :: rest) ↔ R.StrictBytes rest := by
  obtain ⟨hLength, hRead⟩ := h.dec.mp hDecode
  obtain ⟨a, ha, rfl⟩ := map_eq_ok.mp hRead
  rw [h.enc, ← R.encode_decode hLength ha, map_eq_ok]
  simp

end IsAnswer

theorem isAnswer_err : IsAnswer respErr respErrRecord ResponseBody.err where
  enc := by
    intro e bytes
    show (wireStrSet errLen e >>= fun error => .ok (respErr :: error)) = .ok bytes ↔ _
    unfold respErrRecord
    simp only [map_eq_bind, encode_eq, textField_put, bind_assoc, ok_bind, List.flatten_singleton]
  dec := by
    intro rest r
    show decodeRespErr rest = .ok r ↔ _
    unfold decodeRespErr decode
    rw [decodeImpl_bind_eq_ok]
    refine and_congr_right fun hLength => ?_
    show (wireStrGet (rest.take errLen) >>= _) = .ok r ↔ (wireStrGet (rest.take errLen)).map _ = .ok r
    rw [map_eq_bind]

def QueryHit.wrap (h : QueryHit) : ResponseBody :=
  .okWithData (.queryHit h.req h.ip h.publicKey h.endpoint h.relayRk h.aliasName)

theorem isAnswer_hit : IsAnswer respQueryHit queryHitRecord QueryHit.wrap where
  enc := by
    intro h bytes
    unfold QueryHit.wrap ResponseBody.okWithData encodeResponse queryHitRecord b64Key
    simp only [map_eq_bind, encode_eq, shape_put, both_put, textField_put, keyField, base64Field_put,
      putOptB64_eq, unused_put, bind_assoc, ok_bind, List.cons_append, List.nil_append]
    rfl
  dec := by
    intro rest r
    show decodeRespQueryHit rest = .ok r ↔ _
    unfold decodeRespQueryHit decode
    rw [decodeImpl_bind_eq_ok, queryHitRecord_widths]
    unfold wireRespQueryHit queryHitRecord
    simp only [split, shape_get, both_get, textField_length, base64Field_length, opt_length, keyField, map_eq_bind,
      textField_get, base64Field_get, optB64_eq, unused_length, unused_get, List.take_succ_cons, List.take_zero,
      List.drop_succ_cons, List.drop_zero, bind_assoc, ok_bind]
    rfl

theorem isAnswer_miss : IsAnswer respQueryMiss queryMissRecord fun p => ResponseBody.miss p.1 p.2 where
  enc := by
    intro p bytes
    unfold ResponseBody.miss encodeResponse queryMissRecord
    simp only [map_eq_bind, encode_eq, both_put, textField_put, bind_assoc, ok_bind, List.cons_append,
      List.nil_append]
  dec := by
    intro rest r
    show decodeRespQueryMiss rest = .ok r ↔ _
    unfold decodeRespQueryMiss decode
    rw [decodeImpl_bind_eq_ok, queryMissRecord_widths]
    unfold wireRespQueryMiss queryMissRecord
    simp only [split, both_get, textField_length, textField_get, map_eq_bind, List.take_succ_cons, List.take_zero,
      List.drop_succ_cons, List.drop_zero, bind_assoc, ok_bind]

def ResponseBody.joined (p : String × String × DeviceCert × ServerInfo × Crl) : ResponseBody :=
  .okWithData (.join p.1 p.2.1 p.2.2.1 p.2.2.2.1 p.2.2.2.2)

theorem isAnswer_join : IsAnswer respJoin respJoinRecord ResponseBody.joined where
  enc := by
    intro p bytes
    rw [map_eq_bind, encode_eq]
    unfold ResponseBody.joined ResponseBody.okWithData encodeResponse respJoinRecord b64Key
    simp only [both_put, nest_put, textField_put, keyField, base64Field_put,
      deviceCertFromDomain_eq, serverInfoFromDomain_eq, bind_assoc, ok_bind, List.cons_append, List.nil_append]
    simp only [bind_eq_ok, crlFromDomain_eq_ok]
  dec := by
    intro rest r
    show decodeRespJoin rest = .ok r ↔ _
    unfold decodeRespJoin
    rw [decodeImpl_bind_eq_ok, respJoinRecord_widths]
    refine and_congr_right fun hLength => ?_
    show _ ↔ (respJoinRecord.get (split respJoinRecord.widths rest)).map _ = .ok r
    rw [respJoinRecord_widths]
    have hWidths := split_lengths hLength
    unfold wireRespJoin respJoinRecord at *
    simp only [split, List.map_cons, List.cons.injEq] at hWidths
    obtain ⟨_, _, _, _, hCrl, _⟩ := hWidths
    simp only [serverInfoToDomain_eq, deviceCertToDomain_eq, split, both_get, nest_length, nest_get,
      base64Field_length, textField_length, keyField, textField_get, base64Field_get, map_eq_bind,
      List.take_succ_cons, List.take_zero, List.drop_succ_cons, List.drop_zero, bind_assoc, ok_bind]
    simp only [bind_eq_ok, crlToDomain_eq_ok hCrl]
    rfl

-- ---------------------------------------------------------------------------
-- Responses
-- ---------------------------------------------------------------------------

namespace ResponseData

def FitsWire : ResponseData → Prop
  | .none => True
  | .queryHit req ip publicKey endpoint relayRk aliasName =>
    FitsText nameLen req ∧ FitsText ipLen ip ∧ FitsB64 32 publicKey ∧ FitsText endpointLen endpoint ∧
      FitsOptB64 32 relayRk ∧ FitsText nameLen aliasName
  | .queryMiss req error => FitsText nameLen req ∧ FitsText errLen error
  | .join deviceId allocatedIp cert serverInfo crl =>
    FitsB64 32 deviceId ∧ FitsText ipLen allocatedIp ∧ cert.FitsWire ∧ serverInfo.FitsWire ∧ crl.FitsWire

def InRange : ResponseData → Prop
  | .join _ _ cert serverInfo crl => cert.InRange ∧ serverInfo.InRange ∧ crl.InRange
  | _ => True

def respelled : ResponseData → ResponseData
  | .queryHit req ip publicKey endpoint relayRk aliasName =>
    .queryHit req ip (trim publicKey) endpoint (relayRk.map trim) aliasName
  | .join deviceId allocatedIp cert serverInfo crl =>
    .join (trim deviceId) allocatedIp cert.respelled serverInfo.respelled crl.respelled
  | data => data

end ResponseData

namespace ResponseBody

def FitsWire (r : ResponseBody) : Prop := (∀ e, r.error = some e → FitsText errLen e) ∧ r.data.FitsWire

def InRange (r : ResponseBody) : Prop := r.data.InRange

def respelled (r : ResponseBody) : ResponseBody := { r with data := r.data.respelled }

/-- Built by a constructor, or by the QUERY handler, which alone answers that there is no result. -/
inductive Built : ResponseBody → Prop where
  | okEmpty : Built .okEmpty
  | okWithData (data : ResponseData) (hData : ∀ req error, data ≠ .queryMiss req error) :
    Built (.okWithData data)
  | err (e : String) : Built (.err e)
  | miss (req error : String) : Built (.miss req error)

end ResponseBody

def StrictRespQueryHit (rest : Bytes) : Prop :=
  match split wireRespQueryHit rest with
  | [req, ip, _, endpoint, hasRelayRk, relayRk, hasAlias, aliasName] =>
    ZeroPadded req ∧ ZeroPadded ip ∧ ZeroPadded endpoint ∧ StrictOptB64 32 hasRelayRk relayRk ∧
      hasAlias = [0] ∧ ZeroPadded aliasName
  | _ => False

def StrictRespQueryMiss (rest : Bytes) : Prop :=
  match split wireRespQueryMiss rest with
  | [req, error] => ZeroPadded req ∧ ZeroPadded error
  | _ => False

def StrictRespJoin (rest : Bytes) : Prop :=
  match split wireRespJoin rest with
  | [_, allocatedIp, cert, serverInfo, crl] =>
    ZeroPadded allocatedIp ∧ StrictCert cert ∧ StrictServerInfo serverInfo ∧ StrictCrl crl
  | _ => False

/-- Nothing stands behind the byte of an empty success. -/
def StrictResponse : Bytes → Prop
  | [] => False
  | kind :: rest =>
    if kind = respOk then rest = []
    else if kind = respErr then ZeroPadded rest
    else if kind = respQueryHit then StrictRespQueryHit rest
    else if kind = respQueryMiss then StrictRespQueryMiss rest
    else if kind = respJoin then StrictRespJoin rest
    else False

theorem queryHitRecord_strict {rest : Bytes} : queryHitRecord.StrictBytes rest ↔ StrictRespQueryHit rest := by
  unfold StrictBytes StrictRespQueryHit
  rw [queryHitRecord_widths]
  unfold wireRespQueryHit queryHitRecord
  simp only [split, shape_strict, both_strict, textField_length, base64Field_length, opt_length, unused_length,
    keyField, textField_strict, base64Field_strict, unused_strict, strictOptB64_iff, List.take_succ_cons,
    List.take_zero, List.drop_succ_cons, List.drop_zero, true_and]
  rfl

theorem queryMissRecord_strict {rest : Bytes} : queryMissRecord.StrictBytes rest ↔ StrictRespQueryMiss rest := by
  unfold StrictBytes StrictRespQueryMiss
  rw [queryMissRecord_widths]
  unfold wireRespQueryMiss queryMissRecord
  simp only [split, both_strict, textField_length, textField_strict, List.take_succ_cons,
    List.take_zero, List.drop_succ_cons, List.drop_zero]

theorem respJoinRecord_strict {rest : Bytes} : respJoinRecord.StrictBytes rest ↔ StrictRespJoin rest := by
  unfold StrictRespJoin
  show respJoinRecord.Strict (split respJoinRecord.widths rest) ↔ _
  rw [respJoinRecord_widths]
  unfold wireRespJoin respJoinRecord
  simp only [split, both_strict, nest_length, nest_strict, textField_length, base64Field_length, keyField,
    textField_strict, base64Field_strict, certRecord_strict, serverInfoRecord_strict, crlRecord_strict,
    List.take_succ_cons, List.take_zero, List.drop_succ_cons, List.drop_zero, true_and]

theorem respErrRecord_strict {rest : Bytes} (h : rest.length = errLen) :
    respErrRecord.StrictBytes rest ↔ ZeroPadded rest := by
  show ZeroPadded (rest.take errLen) ↔ _
  rw [← h, List.take_length]

theorem hit_fits {h : QueryHit} : queryHitRecord.Fits h ↔ h.wrap.FitsWire := by
  show FitsText _ _ ∧ FitsText _ _ ∧ FitsB64 _ _ ∧ FitsText _ _ ∧ _ ∧ True ∧ FitsText _ _ ↔ (∀ e, none = some e → _) ∧ _
  simp
  rfl

theorem join_fits {p : String × String × DeviceCert × ServerInfo × Crl} :
    respJoinRecord.Fits p ↔ (ResponseBody.joined p).FitsWire := by
  show FitsB64 _ _ ∧ FitsText _ _ ∧ certRecord.Fits _ ∧ serverInfoRecord.Fits _ ∧ crlRecord.Fits _ ↔
    (∀ e, none = some e → _) ∧ _
  rw [certRecord_fits, serverInfoRecord_fits, crlRecord_fits]
  simp
  rfl

theorem join_typed {p : String × String × DeviceCert × ServerInfo × Crl} (h : (ResponseBody.joined p).InRange) :
    respJoinRecord.Typed p := by
  obtain ⟨hCert, hInfo, hCrl⟩ := h
  exact ⟨trivial, trivial, certRecord_typed.mpr hCert, serverInfoRecord_typed.mpr hInfo, crlRecord_typed.mpr hCrl⟩

namespace ResponseBody

/-- A response with anything in it is the answer of one record. -/
theorem Built.answer {r : ResponseBody} (hBuilt : r.Built) :
    r = .okEmpty ∨ ∃ (α : Type) (kind : UInt8) (R : WireRecord α) (wrap : α → ResponseBody) (a : α),
      IsAnswer kind R wrap ∧ wrap a = r ∧ (R.Fits a ↔ r.FitsWire) ∧ (r.InRange → R.Typed a) ∧
        wrap (R.spell a) = r.respelled := by
  cases hBuilt with
  | okEmpty => exact .inl rfl
  | err e =>
    refine .inr ⟨_, _, _, _, e, isAnswer_err, rfl, ?_, fun _ => trivial, rfl⟩
    show FitsText errLen e ↔ (∀ e', some e = some e' → FitsText errLen e') ∧ True
    simp
  | miss req error =>
    refine .inr ⟨_, _, _, _, (req, error), isAnswer_miss, rfl, ?_, fun _ => ⟨trivial, trivial⟩, rfl⟩
    show FitsText nameLen req ∧ FitsText errLen error ↔
      (∀ e, some error = some e → FitsText errLen e) ∧ FitsText nameLen req ∧ FitsText errLen error
    simp only [Option.some.injEq, forall_eq']
    tauto
  | okWithData data hData =>
    cases data with
    | none => exact .inl rfl
    | queryMiss req error => exact absurd rfl (hData req error)
    | queryHit req ip publicKey endpoint relayRk aliasName =>
      refine .inr ⟨_, _, _, _, ⟨req, ip, publicKey, endpoint, relayRk, aliasName⟩, isAnswer_hit, rfl, hit_fits,
        fun _ => ?_, rfl⟩
      exact ⟨trivial, trivial, trivial, trivial, fun _ _ => trivial, trivial, trivial⟩
    | join deviceId allocatedIp cert serverInfo crl =>
      refine .inr ⟨_, _, _, _, (deviceId, allocatedIp, cert, serverInfo, crl), isAnswer_join, rfl, join_fits,
        fun hTyped => ?_, rfl⟩
      exact join_typed hTyped

theorem encode_ok_iff {r : ResponseBody} (hBuilt : r.Built) :
    (∃ bytes, encodeResponse r = .ok bytes) ↔ r.FitsWire := by
  rcases hBuilt.answer with rfl | ⟨α, kind, R, wrap, a, hAnswer, rfl, hFits, _, _⟩
  · show _ ↔ (∀ e, none = some e → _) ∧ True
    simp only [and_true]
    exact ⟨fun _ => by simp, fun _ => ⟨_, rfl⟩⟩
  · rw [hAnswer.fits, hFits]

theorem decode_encode {r : ResponseBody} {bytes : Bytes} (hTyped : r.InRange) (hBuilt : r.Built)
    (h : encodeResponse r = .ok bytes) : decodeResponse bytes = .ok r.respelled := by
  rcases hBuilt.answer with rfl | ⟨α, kind, R, wrap, a, hAnswer, rfl, _, hTypes, hSpell⟩
  · cases h
    rfl
  · rw [← hSpell]
    exact hAnswer.round_trip (hTypes hTyped) h

theorem encode_decode {r : ResponseBody} {bytes : Bytes} (h : decodeResponse bytes = .ok r) :
    encodeResponse r = .ok bytes ↔ StrictResponse bytes := by
  cases bytes with
  | nil => cases h
  | cons kind rest =>
    unfold StrictResponse
    by_cases hOk : kind = respOk
    · subst hOk
      cases h
      show Except.ok [respOk] = _ ↔ rest = []
      simp [eq_comm]
    by_cases hErr : kind = respErr
    · subst hErr
      rw [isAnswer_err.strict h]
      exact respErrRecord_strict (isAnswer_err.dec.mp h).1
    by_cases hHit : kind = respQueryHit
    · subst hHit
      rw [isAnswer_hit.strict h]
      exact queryHitRecord_strict
    by_cases hMiss : kind = respQueryMiss
    · subst hMiss
      rw [isAnswer_miss.strict h]
      exact queryMissRecord_strict
    by_cases hJoin : kind = respJoin
    · subst hJoin
      rw [isAnswer_join.strict h]
      exact respJoinRecord_strict
    · unfold decodeResponse at h
      simp [hOk, hErr, hHit, hMiss, hJoin] at h

end ResponseBody

-- ---------------------------------------------------------------------------
-- Bodies
-- ---------------------------------------------------------------------------

/-- What a signaling packet carries. -/
inductive Body where
  | register (b : RegisterBody)
  | query (b : QueryBody)
  | notify (b : NotifyBody)
  | response (r : ResponseBody)
  | join (b : JoinBody)
  | auth (b : AuthBody)
  | authResp (b : AuthRespBody)
  | serverInfo (b : ServerInfoBody)
  deriving DecidableEq, Repr

inductive BodyKind where
  | register
  | query
  | notify
  | response
  | join
  | auth
  | authResp
  | serverInfo
  deriving DecidableEq, Repr

namespace BodyKind

/-- The decoder of the kind. -/
def decode (bytes : Bytes) : BodyKind → Except String Body
  | .register => (decodeRegister bytes).map .register
  | .query => (decodeQuery bytes).map .query
  | .notify => (decodeNotify bytes).map .notify
  | .response => (decodeResponse bytes).map .response
  | .join => (decodeJoin bytes).map .join
  | .auth => (decodeAuth bytes).map .auth
  | .authResp => (decodeAuthResp bytes).map .authResp
  | .serverInfo => (decodeServerInfoBody bytes).map .serverInfo

/-- What the decoder does not look at is as the encoder writes it. -/
def Strict (bytes : Bytes) : BodyKind → Prop
  | .register => StrictRegister bytes
  | .query => StrictQuery bytes
  | .notify => StrictNotify bytes
  | .response => StrictResponse bytes
  | .join => StrictJoin bytes
  | .auth => StrictAuth bytes
  | .authResp => StrictAuthResp bytes
  | .serverInfo => StrictServerInfo bytes

end BodyKind

namespace Body

def kind : Body → BodyKind
  | .register _ => .register
  | .query _ => .query
  | .notify _ => .notify
  | .response _ => .response
  | .join _ => .join
  | .auth _ => .auth
  | .authResp _ => .authResp
  | .serverInfo _ => .serverInfo

def encode : Body → Except String Bytes
  | .register b => encodeRegister b
  | .query b => encodeQuery b
  | .notify b => encodeNotify b
  | .response r => encodeResponse r
  | .join b => encodeJoin b
  | .auth b => encodeAuth b
  | .authResp b => encodeAuthResp b
  | .serverInfo b => encodeServerInfoBody b

/-- Every text fits its slot, every base64 text has its length, and a CRL has room. -/
def FitsWire : Body → Prop
  | .register b => b.FitsWire
  | .query b => b.FitsWire
  | .notify b => b.FitsWire
  | .response r => r.FitsWire
  | .join b => b.FitsWire
  | .auth b => b.FitsWire
  | .authResp b => b.FitsWire
  | .serverInfo b => b.serverInfo.FitsWire

/-- The numbers are of their types. -/
def InRange : Body → Prop
  | .response r => r.InRange
  | .auth b => b.InRange
  | .authResp b => b.InRange
  | .serverInfo b => b.serverInfo.InRange
  | _ => True

/-- A response is one that the program builds. -/
def Built : Body → Prop
  | .response r => r.Built
  | _ => True

/-- The same value, with its base64 texts in canonical form. -/
def respelled : Body → Body
  | .register b => .register b.respelled
  | .query b => .query b
  | .notify b => .notify b.respelled
  | .response r => .response r.respelled
  | .join b => .join b.respelled
  | .auth b => .auth b.respelled
  | .authResp b => .authResp b.respelled
  | .serverInfo b => .serverInfo b.respelled

variable {v : Body} {bytes : Bytes}

theorem encode_ok_iff (hBuilt : v.Built) : (∃ bytes, v.encode = .ok bytes) ↔ v.FitsWire := by
  cases v with
  | register b => exact isCodec_register.fits.trans registerRecord_fits
  | query b => exact isCodec_query.fits.trans queryRecord_fits
  | notify b => exact isCodec_notify.fits.trans notifyRecord_fits
  | response r => exact ResponseBody.encode_ok_iff hBuilt
  | join b => exact isCodec_join.fits.trans joinRecord_fits
  | auth b => exact isCodec_auth.fits.trans authRecord_fits
  | authResp b => exact isCodec_authResp.fits.trans authRespRecord_fits
  | serverInfo b => exact isCodec_serverInfoBody.fits.trans serverInfoBodyRecord_fits

theorem decode_encode (hTyped : v.InRange) (hBuilt : v.Built) (h : v.encode = .ok bytes) :
    v.kind.decode bytes = .ok v.respelled := by
  cases v with
  | register b =>
    rw [kind, respelled, ← registerRecord_spell]
    exact congrArg (Except.map Body.register) (isCodec_register.round_trip (registerRecord_typed b) h)
  | query b =>
    have hBack := isCodec_query.round_trip (queryRecord_typed b) h
    rw [queryRecord_spell] at hBack
    exact congrArg (Except.map Body.query) hBack
  | notify b =>
    rw [kind, respelled, ← notifyRecord_spell]
    exact congrArg (Except.map Body.notify) (isCodec_notify.round_trip (notifyRecord_typed b) h)
  | response r => exact congrArg (Except.map Body.response) (ResponseBody.decode_encode hTyped hBuilt h)
  | join b =>
    rw [kind, respelled, ← joinRecord_spell]
    exact congrArg (Except.map Body.join) (isCodec_join.round_trip (joinRecord_typed b) h)
  | auth b =>
    rw [kind, respelled, ← authRecord_spell]
    exact congrArg (Except.map Body.auth) (isCodec_auth.round_trip (authRecord_typed.mpr hTyped) h)
  | authResp b =>
    rw [kind, respelled, ← authRespRecord_spell]
    exact congrArg (Except.map Body.authResp) (isCodec_authResp.round_trip (authRespRecord_typed.mpr hTyped) h)
  | serverInfo b =>
    rw [kind, respelled, ← serverInfoBodyRecord_spell]
    exact congrArg (Except.map Body.serverInfo)
      (isCodec_serverInfoBody.round_trip (serverInfoBodyRecord_typed.mpr hTyped) h)

/-- **Round trip.** A body is encoded exactly when its fields fit, and what was
encoded is decoded to it. -/
theorem wire_round_trip (hTyped : v.InRange) (hBuilt : v.Built) :
    ((∃ bytes, v.encode = .ok bytes) ↔ v.FitsWire) ∧
      ∀ bytes, v.encode = .ok bytes → v.kind.decode bytes = .ok v.respelled :=
  ⟨encode_ok_iff hBuilt, fun _ h => decode_encode hTyped hBuilt h⟩

theorem wire_round_trip_miss :
    ((∃ bytes, (Body.response (.miss "a" "b")).encode = .ok bytes) ↔ (Body.response (.miss "a" "b")).FitsWire) ∧
      ∀ bytes, (Body.response (.miss "a" "b")).encode = .ok bytes →
        BodyKind.response.decode bytes = .ok (Body.response (.miss "a" "b")).respelled :=
  wire_round_trip trivial (.miss "a" "b")

/-- A miss inside a success comes back as the failure that it means. -/
theorem wire_okWithData_miss : ∃ bytes,
    (Body.response (.okWithData (.queryMiss "a" "b"))).encode = .ok bytes ∧
      BodyKind.response.decode bytes ≠ .ok (Body.response (.okWithData (.queryMiss "a" "b"))).respelled := by
  have hFits : (ResponseBody.miss "a" "b").FitsWire := by
    refine ⟨fun e he => ?_, by decide +kernel, by decide +kernel⟩
    cases he
    decide +kernel
  obtain ⟨bytes, hBytes⟩ := (ResponseBody.encode_ok_iff (.miss "a" "b")).mpr hFits
  have hBack : decodeResponse bytes = .ok (.miss "a" "b") :=
    ResponseBody.decode_encode (r := .miss "a" "b") trivial (.miss "a" "b") hBytes
  refine ⟨bytes, hBytes, fun hSame => ?_⟩
  have hEq : (decodeResponse bytes).map Body.response = _ := hSame
  rw [hBack] at hEq
  cases hEq

/-- **Accepted bytes.** They are what the encoder writes exactly when they are strict. -/
theorem wire_strict_iff {k : BodyKind} (h : k.decode bytes = .ok v) : v.encode = .ok bytes ↔ k.Strict bytes := by
  cases k with
  | register =>
    obtain ⟨b, hDecode, rfl⟩ := map_eq_ok.mp h
    exact (isCodec_register.strict hDecode).trans registerRecord_strict
  | query =>
    obtain ⟨b, hDecode, rfl⟩ := map_eq_ok.mp h
    exact (isCodec_query.strict hDecode).trans queryRecord_strict
  | notify =>
    obtain ⟨b, hDecode, rfl⟩ := map_eq_ok.mp h
    exact (isCodec_notify.strict hDecode).trans notifyRecord_strict
  | response =>
    obtain ⟨r, hDecode, rfl⟩ := map_eq_ok.mp h
    exact ResponseBody.encode_decode hDecode
  | join =>
    obtain ⟨b, hDecode, rfl⟩ := map_eq_ok.mp h
    exact (isCodec_join.strict hDecode).trans joinRecord_strict
  | auth =>
    obtain ⟨b, hDecode, rfl⟩ := map_eq_ok.mp h
    exact (isCodec_auth.strict hDecode).trans authRecord_strict
  | authResp =>
    obtain ⟨b, hDecode, rfl⟩ := map_eq_ok.mp h
    exact (isCodec_authResp.strict hDecode).trans authRespRecord_strict
  | serverInfo =>
    obtain ⟨b, hDecode, rfl⟩ := map_eq_ok.mp h
    have hLength : bytes.length = wireServerInfo.sum := (decodeServerInfoBody_eq_ok.mp hDecode).1
    exact (isCodec_serverInfoBody.strict hDecode).trans (serverInfoBodyRecord_strict hLength)

theorem wire_strict_iff_trailing :
    (Body.response .okEmpty).encode = .ok [1, 0] ↔ BodyKind.response.Strict [1, 0] :=
  wire_strict_iff rfl

/-- A byte behind an empty success is not looked at. -/
theorem wire_trailing_accepted : BodyKind.response.decode [1, 0] = .ok (.response .okEmpty) ∧
    (Body.response .okEmpty).encode ≠ .ok [1, 0] := by
  refine ⟨rfl, fun h => ?_⟩
  cases h

end Body

end LinkMesh
