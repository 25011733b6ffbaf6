import LinkMesh.Basis.Display
import LinkMesh.Basis.Record
import LinkMesh.Wire.Signal

/-!
# The layouts of the wire format as records

Every body of `linkmesh-shared/src/wire.rs` is a record of text fields, base64
fields, numbers and presence bytes. Each encoder and decoder of the source is
the encoder and the decoder of its record.
-/

namespace LinkMesh

open Layout Record

-- ---------------------------------------------------------------------------
-- Fields
-- ---------------------------------------------------------------------------

/-- The text fits its slot in bytes, and has no NUL. -/
def FitsText (n : Nat) (s : String) : Prop := 0 ∉ utf8 s ∧ (utf8 s).length ≤ n

instance (n : Nat) (s : String) : Decidable (FitsText n s) := inferInstanceAs (Decidable (_ ∧ _))

/-- A text fits where its characters do. -/
theorem fitsText_iff {n : Nat} {s : String} : FitsText n s ↔ Display.Within n s.toList := by
  unfold FitsText
  rw [utf8_length, zero_mem_utf8]
  constructor
  · rintro ⟨hNul, hFit⟩
    exact ⟨hFit, fun c hc hZero => hNul ⟨c, hc, hZero⟩⟩
  · intro h
    refine ⟨?_, h.bytes⟩
    rintro ⟨c, hc, hZero⟩
    exact h.noNul c hc hZero
theorem FitsText.append {m n : Nat} {s t : String} (h : FitsText m s) (h' : FitsText n t) :
    FitsText (m + n) (s ++ t) := by
  rw [fitsText_iff] at h h' ⊢
  rw [String.toList_append]
  exact h.append h'

theorem FitsText.mono {m n : Nat} {s : String} (h : FitsText m s) (hLe : m ≤ n) : FitsText n s :=
  ⟨h.1, h.2.trans hLe⟩

/-- Trimmed, the text is base64 of `n` bytes. -/
def FitsB64 (n : Nat) (s : String) : Prop := ∃ bs, Base64.decode (trim s) = some bs ∧ bs.length = n

theorem fitsB64_iff {n : Nat} {s : String} :
    FitsB64 n s ↔ (Base64.decode (trim s)).map List.length = some n := by
  unfold FitsB64
  rw [Option.map_eq_some_iff]

instance (n : Nat) (s : String) : Decidable (FitsB64 n s) := decidable_of_iff _ fitsB64_iff.symm

/-- Only zeros from the first NUL on. -/
def ZeroPadded (buf : Bytes) : Prop := ∀ b ∈ buf.dropWhile (· ≠ 0), b = 0

instance (buf : Bytes) : Decidable (ZeroPadded buf) := inferInstanceAs (Decidable (∀ _ ∈ _, _))

theorem wireStrSet_eq_ok {n : Nat} {s : String} {buf : Bytes} : wireStrSet n s = .ok buf ↔
    FitsText n s ∧ utf8 s ++ List.replicate (n - (utf8 s).length) 0 = buf := by
  constructor
  · intro h
    unfold wireStrSet at h
    split at h
    · cases h
    · rename_i hNul
      split at h
      · cases h
      · rename_i hFit
        exact ⟨⟨hNul, by omega⟩, Except.ok.inj h⟩
  · rintro ⟨⟨hNul, hFit⟩, rfl⟩
    exact wireStrSet_ok hNul hFit

/-- A text that was read fits the slot that it was read from. -/
theorem fitsText_of_get {s : String} {buf : Bytes} (h : wireStrGet buf = .ok s) : FitsText buf.length s := by
  unfold FitsText
  rw [utf8_of_wireStrGet h]
  refine ⟨fun hZero => ?_, (List.takeWhile_sublist _).length_le⟩
  have hNot := List.mem_takeWhile_imp hZero
  simp at hNot

/-- A text that was read is written with zeros behind it. -/
theorem wireStr_set_get {s : String} {buf : Bytes} (h : wireStrGet buf = .ok s) :
    wireStrSet buf.length s = .ok buf ↔ ZeroPadded buf := by
  have hText := utf8_of_wireStrGet h
  have hSplit : buf.takeWhile (· ≠ 0) ++ buf.dropWhile (· ≠ 0) = buf := List.takeWhile_append_dropWhile
  have hLength := congrArg List.length hSplit
  rw [List.length_append] at hLength
  have hRest : buf.length - (utf8 s).length = (buf.dropWhile (· ≠ 0)).length := by
    rw [hText]
    omega
  rw [wireStrSet_eq_ok, and_iff_right (fitsText_of_get h), hRest, hText]
  unfold ZeroPadded
  constructor
  · intro hEq
    have hZeros := List.append_cancel_left (hEq.trans hSplit.symm)
    intro b hb
    rw [← hZeros] at hb
    exact List.eq_of_mem_replicate hb
  · intro hZeros
    rw [← List.eq_replicate_of_mem hZeros, hSplit]

theorem b64Fixed_eq_ok {n : Nat} {badBase64 badLength s : String} {bs : Bytes} :
    b64Fixed n badBase64 badLength s = .ok bs ↔ Base64.decode (trim s) = some bs ∧ bs.length = n := by
  unfold b64Fixed
  constructor
  · intro h
    split at h
    · rename_i decoded hDecode
      split at h
      · rename_i hLength
        cases h
        exact ⟨hDecode, hLength⟩
      · cases h
    · cases h
  · rintro ⟨hDecode, hLength⟩
    rw [hDecode]
    exact if_pos hLength

theorem fitsB64_keyB64 {n : Nat} {bs : Bytes} (h : bs.length = n) : FitsB64 n (keyB64 bs) := by
  have hText : b64Fixed n "" "" (keyB64 bs) = .ok bs := b64Fixed_keyB64 h
  exact ⟨bs, b64Fixed_eq_ok.mp hText⟩

abbrev WireRecord (α : Type) := Record String α

/-- `WireStr` -/
def textField (n : Nat) : WireRecord String :=
  single n (wireStrSet n) wireStrGet (fun _ => True) (FitsText n) id ZeroPadded
    (by
      intro s
      simp only [wireStrSet_eq_ok]
      exact ⟨fun ⟨_, hFits, _⟩ => hFits, fun hFits => ⟨_, hFits, rfl⟩⟩)
    wireStrSet_length
    (fun _ h => wireStr_get_set h)
    (by
      rintro s buf rfl h
      exact wireStr_set_get h)

/-- A key, a signature or a nonce, as base64 text in the program. -/
def base64Field (n : Nat) (badBase64 badLength : String) : WireRecord String :=
  single n (b64Fixed n badBase64 badLength) (fun bs => .ok (keyB64 bs)) (fun _ => True) (FitsB64 n) trim
    (fun _ => True)
    (by
      intro s
      simp only [b64Fixed_eq_ok]
      exact Iff.rfl)
    b64Fixed_length
    (by
      intro s bs _ h
      rw [keyB64_of_b64Fixed h])
    (by
      intro s bs hLength h
      rw [← Except.ok.inj h, b64Fixed_keyB64 hLength]
      simp)

def keyField : WireRecord String := base64Field 32 "公钥 base64 解析失败" "公钥长度错误，应为 32 字节"

def sigField : WireRecord String := base64Field 64 "签名 base64 解析失败" "签名长度错误，应为 64 字节"

theorem textField_readsFit {n : Nat} : (textField n).ReadsFit := by
  refine ReadsFit.single fun {b s} hLength hGet => ?_
  rw [← hLength]
  exact fitsText_of_get hGet

theorem base64Field_readsFit {n : Nat} {badBase64 badLength : String} :
    (base64Field n badBase64 badLength).ReadsFit := by
  refine ReadsFit.single fun {b s} hLength hGet => ?_
  rw [← Except.ok.inj hGet]
  exact fitsB64_keyB64 hLength

/-- `auth_required`: anything but zero is read as true. -/
def boolField : WireRecord Bool :=
  single 1 (fun b => .ok [if b then 1 else 0]) (fun bs => .ok (bs ≠ [0])) (fun _ => True) (fun _ => True) id
    (fun bs => bs = [0] ∨ bs = [1])
    ⟨fun _ => trivial, fun _ => ⟨_, rfl⟩⟩
    (by
      intro b bs h
      rw [← Except.ok.inj h]
      rfl)
    (by
      intro b bs _ h
      rw [← Except.ok.inj h]
      cases b <;> rfl)
    (by
      intro b bs _ h
      rw [← Except.ok.inj h, Except.ok.injEq]
      by_cases hZero : bs = [0]
      · simp [hZero]
      · simp [hZero, eq_comm])

theorem fromU8_toU8 (r : RevokeReason) : RevokeReason.fromU8 r.toU8 = some r := by
  cases r <;> rfl

theorem toU8_fromU8 {v : UInt8} {r : RevokeReason} (h : RevokeReason.fromU8 v = some r) : r.toU8 = v := by
  have hAll : ∀ n < 5, ∀ r, [RevokeReason.compromised, .leaked, .rotated, .admin, .discontinued][n]? = some r →
      r.toU8 = UInt8.ofNat n := by decide
  unfold RevokeReason.fromU8 at h
  have hLt : v.toNat < 5 := (List.getElem?_eq_some_iff.mp h).1
  rw [hAll v.toNat hLt r h, UInt8.ofNat_toNat]

/-- The byte of a revocation reason. -/
def reasonField : WireRecord RevokeReason :=
  single 1 (fun r => .ok [r.toU8])
    (fun bs =>
      match RevokeReason.fromU8 (bs.headD 0) with
      | some r => .ok r
      | none => .error s!"非法吊销原因取值 {bs.headD 0}")
    (fun _ => True) (fun _ => True) id (fun _ => True)
    ⟨fun _ => trivial, fun _ => ⟨_, rfl⟩⟩
    (by
      intro r bs h
      rw [← Except.ok.inj h]
      rfl)
    (by
      intro r bs _ h
      rw [← Except.ok.inj h, List.headD_cons, fromU8_toU8]
      rfl)
    (by
      intro r bs hLength h
      obtain ⟨v, rfl⟩ := List.length_eq_one_iff.mp hLength
      rw [List.headD_cons] at h
      split at h
      · rename_i r' hReason
        rw [← Except.ok.inj h, toU8_fromU8 hReason]
        simp
      · cases h)

section Equations

variable {n : Nat} {badBase64 badLength : String}

theorem textField_length : (textField n).widths.length = 1 := rfl

theorem base64Field_length : (base64Field n badBase64 badLength).widths.length = 1 := rfl

theorem textField_put (s : String) : (textField n).put s = wireStrSet n s >>= fun b => .ok [b] :=
  single_put s

theorem textField_get (b : Bytes) : (textField n).get [b] = wireStrGet b := rfl

theorem base64Field_put (s : String) : (base64Field n badBase64 badLength).put s =
    b64Fixed n badBase64 badLength s >>= fun b => .ok [b] :=
  single_put s

theorem base64Field_get (b : Bytes) : (base64Field n badBase64 badLength).get [b] = .ok (keyB64 b) := rfl

theorem putOptStr_eq (s : Option String) : putOptStr n s = (textField n).opt.put s := by
  cases s with
  | none => rfl
  | some s =>
    rw [opt_put_some, textField_put, bind_assoc]
    rfl

theorem putOptB64_eq (s : Option String) :
    putOptB64 n (b64Fixed n badBase64 badLength) s = (base64Field n badBase64 badLength).opt.put s := by
  cases s with
  | none => rfl
  | some s =>
    rw [opt_put_some, base64Field_put, bind_assoc]
    rfl

theorem optText_eq (flag b : Bytes) : (textField n).opt.get [flag, b] = optText flag b := rfl

theorem optB64_eq (flag b : Bytes) :
    (base64Field n badBase64 badLength).opt.get [flag, b] = .ok (optB64 flag b) := by
  unfold optB64
  rw [opt_get, base64Field_get]
  split <;> rfl

theorem boolField_length : boolField.widths.length = 1 := rfl

theorem boolField_put (b : Bool) : boolField.put b = .ok [[if b then 1 else 0]] := rfl

theorem boolField_get (b : Bytes) : boolField.get [b] = .ok (b ≠ [0]) := rfl

theorem reasonField_length : reasonField.widths.length = 1 := rfl

theorem reasonField_get (v : UInt8) : reasonField.get [[v]] =
    match RevokeReason.fromU8 v with
    | some r => .ok r
    | none => .error s!"非法吊销原因取值 {v}" := rfl

theorem reasonField_put (r : RevokeReason) : reasonField.put r = .ok [[r.toU8]] := rfl

end Equations

-- ---------------------------------------------------------------------------
-- Statements of the root
-- ---------------------------------------------------------------------------

/-- `WireDeviceCert` -/
def certRecord : WireRecord DeviceCert :=
  ((textField nameLen).both <| (number String 4).both <| keyField.both <| keyField.both <| keyField.both <|
    (textField ipLen).both <| (number String 8).both <| (number String 8).both sigField.opt).shape
    (fun c => (c.meshId, c.version, c.deviceId, c.ikX, c.ikSPub, c.allowedIp, c.validFrom, c.notAfter,
      c.signature))
    (fun (meshId, version, deviceId, ikX, ikSPub, allowedIp, validFrom, notAfter, signature) =>
      { meshId, version, deviceId, ikX, ikSPub, allowedIp, validFrom, notAfter, signature })
    fun _ => rfl

theorem certRecord_widths : certRecord.widths = wireDeviceCert := rfl

theorem deviceCertFromDomain_eq (c : DeviceCert) : deviceCertFromDomain c = certRecord.encode c := by
  unfold deviceCertFromDomain certRecord b64Key b64Sig
  simp only [encode_eq, shape_put, both_put, textField_put, number_put, keyField, sigField, base64Field_put,
    putOptB64_eq, bind_assoc, ok_bind]
  rfl

theorem deviceCertToDomain_eq (bytes : Bytes) : deviceCertToDomain bytes = certRecord.decode bytes := by
  unfold deviceCertToDomain decode
  rw [certRecord_widths]
  unfold wireDeviceCert certRecord
  simp only [split, shape_get, both_get, textField_length, base64Field_length, number_length, keyField, sigField,
    textField_get, number_get, base64Field_get, optB64_eq, List.take_succ_cons, List.take_zero,
    List.drop_succ_cons, List.drop_zero, bind_assoc, ok_bind]

/-- `WireServerInfo` -/
def serverInfoRecord : WireRecord ServerInfo :=
  ((textField nameLen).both <| (textField nameLen).both <| keyField.both <| keyField.both <| keyField.both <|
    (number String 4).both <| (number String 8).both <| boolField.both sigField.opt).shape
    (fun i => (i.meshId, i.serverName, i.meshRootPub, i.serverIkX, i.serverIkSPub, i.protocolVer, i.crlVersion,
      i.authRequired, i.signature))
    (fun (meshId, serverName, meshRootPub, serverIkX, serverIkSPub, protocolVer, crlVersion, authRequired,
        signature) =>
      { meshId, serverName, meshRootPub, serverIkX, serverIkSPub, protocolVer, crlVersion, authRequired,
        signature })
    fun _ => rfl

theorem serverInfoRecord_widths : serverInfoRecord.widths = wireServerInfo := rfl

theorem serverInfoFromDomain_eq (i : ServerInfo) : serverInfoFromDomain i = serverInfoRecord.encode i := by
  unfold serverInfoFromDomain serverInfoRecord b64Key b64Sig
  simp only [encode_eq, shape_put, both_put, textField_put, number_put, keyField, sigField, base64Field_put,
    boolField_put, putOptB64_eq, bind_assoc, ok_bind]
  rfl

theorem serverInfoToDomain_eq (bytes : Bytes) : serverInfoToDomain bytes = serverInfoRecord.decode bytes := by
  unfold serverInfoToDomain decode
  rw [serverInfoRecord_widths]
  unfold wireServerInfo serverInfoRecord
  simp only [split, shape_get, both_get, textField_length, base64Field_length, number_length, boolField_length,
    keyField, sigField, textField_get, number_get, base64Field_get, boolField_get, optB64_eq,
    List.take_succ_cons, List.take_zero, List.drop_succ_cons, List.drop_zero, bind_assoc, ok_bind]

/-- `WireCrlEntry` -/
def crlEntryRecord : WireRecord CrlEntry :=
  (keyField.both <| reasonField.both <| (number String 8).both keyField.opt).shape
    (fun e => (e.deviceId, e.reason, e.revokedAt, e.replacement))
    (fun (deviceId, reason, revokedAt, replacement) => { deviceId, reason, revokedAt, replacement })
    fun _ => rfl

theorem crlEntryRecord_widths : crlEntryRecord.widths = wireCrlEntry := rfl

theorem crlEntryFromDomain_eq (e : CrlEntry) : crlEntryFromDomain e = crlEntryRecord.encode e := by
  unfold crlEntryFromDomain crlEntryRecord b64Key
  simp only [encode_eq, shape_put, both_put, number_put, keyField, base64Field_put, reasonField_put,
    putOptB64_eq, bind_assoc, ok_bind]
  rfl

theorem crlEntryToDomain_eq {bytes : Bytes} (h : bytes.length = wireCrlEntry.sum) :
    crlEntryToDomain bytes = crlEntryRecord.decode bytes := by
  have hReason : ((bytes.drop 32).take 1).length = 1 := by
    have hSum : wireCrlEntry.sum = 74 := by decide
    rw [List.length_take, List.length_drop]
    omega
  obtain ⟨v, hv⟩ := List.length_eq_one_iff.mp hReason
  unfold crlEntryToDomain decode
  rw [crlEntryRecord_widths]
  unfold wireCrlEntry crlEntryRecord
  simp only [split, hv, shape_get, both_get, base64Field_length, number_length, reasonField_length, keyField,
    number_get, base64Field_get, reasonField_get, optB64_eq, List.take_succ_cons, List.take_zero,
    List.drop_succ_cons, List.drop_zero, bind_assoc, ok_bind]
  cases RevokeReason.fromU8 v <;> rfl

/-- `WireCrl` -/
def crlRecord : WireRecord Crl :=
  ((textField nameLen).both <| (number String 8).both <|
    (crlEntryRecord.table maxCrlEntries (by decide)
      (fun n => s!"CRL 条目数超上限（{n} > {maxCrlEntries}）")
      (fun n => s!"CRL 条目数越界（{n} > {maxCrlEntries}）")).both sigField.opt).shape
    (fun c => (c.meshId, c.version, c.entries, c.signature))
    (fun (meshId, version, entries, signature) => { meshId, version, entries, signature })
    fun _ => rfl

theorem crlRecord_widths : crlRecord.widths = wireCrl := rfl

theorem crlFromDomain_eq_ok {c : Crl} {bytes : Bytes} :
    crlFromDomain c = .ok bytes ↔ crlRecord.encode c = .ok bytes := by
  have hEntry : crlEntryFromDomain = crlEntryRecord.encode := funext crlEntryFromDomain_eq
  unfold crlFromDomain crlRecord b64Sig
  simp only [encode_eq, shape_put, both_put, textField_put, number_put, table_put, sigField, putOptB64_eq,
    bind_assoc, ok_bind, hEntry]
  unfold putRows
  by_cases hMany : maxCrlEntries < c.entries.length
  · simp only [if_pos hMany]
    cases wireStrSet nameLen c.meshId <;> simp [bind, Except.bind]
  · simp only [if_neg hMany, bind_assoc, ok_bind, crlEntryRecord_widths]
    rfl

theorem getRows_eq {count slots : Bytes} (hSlots : slots.length = maxCrlEntries * wireCrlEntry.sum)
    (outOfRange : Nat → String) :
    crlEntryRecord.getRows maxCrlEntries outOfRange count slots =
      if maxCrlEntries < leValue count then .error (outOfRange (leValue count))
      else (split (List.replicate (leValue count) wireCrlEntry.sum) slots).mapM crlEntryToDomain := by
  unfold getRows
  split
  · rfl
  · rename_i hFew
    exact (mapM_congr fun row hRow =>
      crlEntryToDomain_eq (crlEntryRecord.row_length hSlots (Nat.le_of_not_lt hFew) row hRow)).symm

/-- The decoder reads the entries first, and the record the mesh id. -/
theorem crlToDomain_eq_ok {c : Crl} {bytes : Bytes} (h : bytes.length = wireCrl.sum) :
    crlToDomain bytes = .ok c ↔ crlRecord.decode bytes = .ok c := by
  have hWidths := split_lengths h
  unfold crlToDomain decode
  rw [crlRecord_widths]
  unfold wireCrl crlRecord at *
  simp only [split, List.map_cons, List.cons.injEq] at hWidths
  obtain ⟨_, _, _, hSlots, _⟩ := hWidths
  simp only [split, shape_get, both_get, textField_length, number_length, table_length, sigField,
    textField_get, number_get, table_get, optB64_eq, getRows_eq hSlots, List.take_succ_cons, List.take_zero,
    List.drop_succ_cons, List.drop_zero, bind_assoc, ok_bind]
  split
  · cases wireStrGet (bytes.take nameLen) <;> simp [bind, Except.bind]
  · rw [bind_eq_ok, bind_eq_ok]
    constructor
    · rintro ⟨entries, hEntries, hRest⟩
      obtain ⟨meshId, hMesh, hEq⟩ := bind_eq_ok.mp hRest
      exact ⟨meshId, hMesh, bind_eq_ok.mpr ⟨entries, hEntries, hEq⟩⟩
    · rintro ⟨meshId, hMesh, hRest⟩
      obtain ⟨entries, hEntries, hEq⟩ := bind_eq_ok.mp hRest
      exact ⟨entries, hEntries, bind_eq_ok.mpr ⟨meshId, hMesh, hEq⟩⟩

-- ---------------------------------------------------------------------------
-- Bodies
-- ---------------------------------------------------------------------------

theorem decodeImpl_bind_eq_ok {α : Type} {widths : List Nat} {what : String} {bytes : Bytes}
    {f : List Bytes → Except String α} {a : α} : (decodeImpl widths what bytes >>= f) = .ok a ↔
      bytes.length = widths.sum ∧ f (split widths bytes) = .ok a := by
  unfold decodeImpl
  by_cases hShort : bytes.length < widths.sum
  · rw [if_pos hShort]
    constructor
    · intro h
      cases h
    · rintro ⟨hLength, _⟩
      omega
  by_cases hLong : widths.sum < bytes.length
  · rw [if_neg hShort, if_pos hLong]
    constructor
    · intro h
      cases h
    · rintro ⟨hLength, _⟩
      omega
  · rw [if_neg hShort, if_neg hLong, ok_bind]
    exact (and_iff_right (by omega)).symm

/-- `WireRegister` -/
def registerRecord : WireRecord RegisterBody :=
  ((textField ipLen).both <| keyField.opt.both <| (textField tokenLen).opt.both (textField nameLen).opt).shape
    (fun b => (b.ip, b.relayRk, b.token, b.aliasName))
    (fun (ip, relayRk, token, aliasName) => { ip, relayRk, token, aliasName })
    fun _ => rfl

theorem registerRecord_widths : registerRecord.widths = wireRegister := rfl

theorem encodeRegister_eq (b : RegisterBody) : encodeRegister b = registerRecord.encode b := by
  unfold encodeRegister registerRecord b64Key
  simp only [encode_eq, shape_put, both_put, textField_put, keyField, putOptB64_eq, putOptStr_eq, bind_assoc,
    ok_bind, List.append_assoc, List.cons_append, List.nil_append]

theorem decodeRegister_eq_ok {b : RegisterBody} {bytes : Bytes} : decodeRegister bytes = .ok b ↔
    bytes.length = registerRecord.widths.sum ∧ registerRecord.decode bytes = .ok b := by
  unfold decodeRegister decode
  rw [decodeImpl_bind_eq_ok, registerRecord_widths]
  unfold wireRegister registerRecord
  simp only [split, shape_get, both_get, textField_length, base64Field_length, opt_length, keyField,
    textField_get, optText_eq, optB64_eq, List.take_succ_cons, List.take_zero, List.drop_succ_cons,
    List.drop_zero, bind_assoc, ok_bind]

/-- `WireQuery` -/
def queryRecord : WireRecord QueryBody :=
  ((textField ipLen).both (textField nameLen).opt).shape (fun b => (b.ip, b.name))
    (fun (ip, name) => { ip, name }) fun _ => rfl

theorem queryRecord_widths : queryRecord.widths = wireQuery := rfl

theorem encodeQuery_eq (b : QueryBody) : encodeQuery b = queryRecord.encode b := by
  unfold encodeQuery queryRecord
  simp only [encode_eq, shape_put, both_put, textField_put, putOptStr_eq, bind_assoc, ok_bind, List.cons_append,
    List.nil_append]

theorem decodeQuery_eq_ok {b : QueryBody} {bytes : Bytes} : decodeQuery bytes = .ok b ↔
    bytes.length = queryRecord.widths.sum ∧ queryRecord.decode bytes = .ok b := by
  unfold decodeQuery decode
  rw [decodeImpl_bind_eq_ok, queryRecord_widths]
  unfold wireQuery queryRecord
  simp only [split, shape_get, both_get, textField_length, textField_get, optText_eq, List.take_succ_cons,
    List.take_zero, List.drop_succ_cons, List.drop_zero, bind_assoc, ok_bind]

/-- `WireNotify`, a `WirePeerInfo` -/
def notifyRecord : WireRecord NotifyBody :=
  (keyField.both <| (textField endpointLen).both <| keyField.opt.both <| (textField nameLen).opt.both
    (textField ipLen).opt).shape
    (fun b => (b.peer.publicKey, b.peer.endpoint, b.peer.relayRk, b.peer.aliasName, b.peer.ip))
    (fun (publicKey, endpoint, relayRk, aliasName, ip) =>
      { peer := { publicKey, endpoint, relayRk, aliasName, ip } })
    fun _ => rfl

theorem notifyRecord_widths : notifyRecord.widths = wirePeerInfo := rfl

theorem encodeNotify_eq (b : NotifyBody) : encodeNotify b = notifyRecord.encode b := by
  unfold encodeNotify fillPeerInfo notifyRecord b64Key
  simp only [map_eq_bind, encode_eq, shape_put, both_put, textField_put, keyField, base64Field_put,
    putOptB64_eq, putOptStr_eq, bind_assoc, ok_bind,
    List.append_assoc, List.cons_append, List.nil_append]

theorem decodeNotify_eq_ok {b : NotifyBody} {bytes : Bytes} : decodeNotify bytes = .ok b ↔
    bytes.length = notifyRecord.widths.sum ∧ notifyRecord.decode bytes = .ok b := by
  unfold decodeNotify decode
  rw [decodeImpl_bind_eq_ok, notifyRecord_widths]
  unfold wirePeerInfo notifyRecord peerInfoFromWire
  simp only [split, shape_get, both_get, textField_length, base64Field_length, opt_length, keyField,
    textField_get, base64Field_get, optText_eq, optB64_eq, List.take_succ_cons, List.take_zero,
    List.drop_succ_cons, List.drop_zero, bind_assoc, ok_bind]

/-- `WireJoin` -/
def joinRecord : WireRecord JoinBody :=
  ((textField codeLen).both <| keyField.both <| keyField.both <| keyField.both <| (textField ipLen).opt.both <|
    (textField tokenLen).opt.both (textField nameLen).opt).shape
    (fun b => (b.code, b.deviceId, b.ikX, b.ikSPub, b.requestedIp, b.token, b.aliasName))
    (fun (code, deviceId, ikX, ikSPub, requestedIp, token, aliasName) =>
      { code, deviceId, ikX, ikSPub, requestedIp, token, aliasName })
    fun _ => rfl

theorem joinRecord_widths : joinRecord.widths = wireJoin := rfl

theorem encodeJoin_eq (b : JoinBody) : encodeJoin b = joinRecord.encode b := by
  unfold encodeJoin joinRecord b64Key
  simp only [encode_eq, shape_put, both_put, textField_put, keyField, base64Field_put, putOptStr_eq, bind_assoc,
    ok_bind, List.append_assoc, List.cons_append, List.nil_append]

theorem decodeJoin_eq_ok {b : JoinBody} {bytes : Bytes} : decodeJoin bytes = .ok b ↔
    bytes.length = joinRecord.widths.sum ∧ joinRecord.decode bytes = .ok b := by
  unfold decodeJoin decode
  rw [decodeImpl_bind_eq_ok, joinRecord_widths]
  unfold wireJoin joinRecord
  simp only [split, shape_get, both_get, textField_length, base64Field_length, opt_length, keyField,
    textField_get, base64Field_get, optText_eq, List.take_succ_cons, List.take_zero, List.drop_succ_cons,
    List.drop_zero, bind_assoc, ok_bind]

/-- The nonce of an AUTH. -/
def nonceField : WireRecord String := base64Field 12 "nonce base64 解析失败" "nonce 长度错误，应为 12 字节"

/-- `WireAuth` -/
def authRecord : WireRecord AuthBody :=
  (keyField.both <| certRecord.nest.both <| keyField.both <| (number String 8).both <| nonceField.both
    (textField tokenLen).opt).shape
    (fun b => (b.deviceId, b.cert, b.ekC, b.timestamp, b.nonce, b.token))
    (fun (deviceId, cert, ekC, timestamp, nonce, token) => { deviceId, cert, ekC, timestamp, nonce, token })
    fun _ => rfl

theorem authRecord_widths : authRecord.widths = wireAuth := rfl

theorem encodeAuth_eq (b : AuthBody) : encodeAuth b = authRecord.encode b := by
  unfold encodeAuth authRecord b64Key b64Nonce
  simp only [deviceCertFromDomain_eq, encode_eq, shape_put, both_put, nest_put, number_put, keyField, nonceField,
    base64Field_put, putOptStr_eq, bind_assoc, ok_bind, List.cons_append, List.nil_append]

theorem decodeAuth_eq_ok {b : AuthBody} {bytes : Bytes} : decodeAuth bytes = .ok b ↔
    bytes.length = authRecord.widths.sum ∧ authRecord.decode bytes = .ok b := by
  unfold decodeAuth
  rw [decodeImpl_bind_eq_ok, authRecord_widths]
  simp only [deviceCertToDomain_eq]
  show _ ↔ _ ∧ authRecord.get (split authRecord.widths bytes) = .ok b
  rw [authRecord_widths]
  unfold wireAuth authRecord
  simp only [split, shape_get, both_get, nest_length, nest_get, base64Field_length, number_length,
    keyField, nonceField, number_get, base64Field_get, optText_eq, List.take_succ_cons, List.take_zero,
    List.drop_succ_cons, List.drop_zero, bind_assoc, ok_bind]

def sessionIdField : WireRecord String :=
  base64Field 16 "session_id base64 解析失败" "session_id 长度错误，应为 16 字节"

/-- `WireAuthResp` -/
def authRespRecord : WireRecord AuthRespBody :=
  (keyField.both <| sessionIdField.both <| crlRecord.nest.both <| serverInfoRecord.nest.both
    (textField ipLen)).shape
    (fun b => (b.ekS, b.sessionId, b.crl, b.serverInfo, b.allocatedIp))
    (fun (ekS, sessionId, crl, serverInfo, allocatedIp) => { ekS, sessionId, crl, serverInfo, allocatedIp })
    fun _ => rfl

theorem authRespRecord_widths : authRespRecord.widths = wireAuthResp := rfl

theorem encodeAuthResp_eq_ok {b : AuthRespBody} {bytes : Bytes} :
    encodeAuthResp b = .ok bytes ↔ authRespRecord.encode b = .ok bytes := by
  unfold encodeAuthResp
  rw [encode_eq]
  unfold authRespRecord b64Key b64SigTo16
  simp only [serverInfoFromDomain_eq, shape_put, both_put, nest_put, textField_put, keyField, sessionIdField,
    base64Field_put, bind_assoc, ok_bind, List.cons_append, List.nil_append]
  simp only [bind_eq_ok, crlFromDomain_eq_ok]

theorem decodeAuthResp_eq_ok {b : AuthRespBody} {bytes : Bytes} : decodeAuthResp bytes = .ok b ↔
    bytes.length = authRespRecord.widths.sum ∧ authRespRecord.decode bytes = .ok b := by
  unfold decodeAuthResp
  rw [decodeImpl_bind_eq_ok, authRespRecord_widths]
  refine and_congr_right fun hLength => ?_
  show _ ↔ authRespRecord.get (split authRespRecord.widths bytes) = .ok b
  rw [authRespRecord_widths]
  have hWidths := split_lengths hLength
  unfold wireAuthResp authRespRecord at *
  simp only [split, List.map_cons, List.cons.injEq] at hWidths
  obtain ⟨_, _, hCrl, _⟩ := hWidths
  simp only [serverInfoToDomain_eq, split, shape_get, both_get, nest_length, nest_get, base64Field_length,
    keyField, sessionIdField, textField_get, base64Field_get, List.take_succ_cons,
    List.take_zero, List.drop_succ_cons, List.drop_zero, bind_assoc, ok_bind]
  rw [bind_eq_ok, bind_eq_ok]
  simp only [crlToDomain_eq_ok hCrl]

/-- `WireServerInfoBody` -/
def serverInfoBodyRecord : WireRecord ServerInfoBody :=
  serverInfoRecord.nest.shape (·.serverInfo) (fun serverInfo => { serverInfo }) fun _ => rfl

theorem serverInfoBodyRecord_widths : serverInfoBodyRecord.widths = wireServerInfoBody := rfl

theorem encodeServerInfoBody_eq (b : ServerInfoBody) :
    encodeServerInfoBody b = serverInfoBodyRecord.encode b := by
  unfold encodeServerInfoBody
  rw [encode_eq]
  unfold serverInfoBodyRecord
  simp only [serverInfoFromDomain_eq, shape_put, nest_put, bind_assoc, ok_bind, List.flatten_singleton]
  cases serverInfoRecord.encode b.serverInfo <;> rfl

theorem decodeServerInfoBody_eq_ok {b : ServerInfoBody} {bytes : Bytes} : decodeServerInfoBody bytes = .ok b ↔
    bytes.length = serverInfoBodyRecord.widths.sum ∧ serverInfoBodyRecord.decode bytes = .ok b := by
  unfold decodeServerInfoBody
  rw [decodeImpl_bind_eq_ok, serverInfoBodyRecord_widths]
  show _ ↔ _ ∧ serverInfoBodyRecord.get (split serverInfoBodyRecord.widths bytes) = .ok b
  rw [serverInfoBodyRecord_widths]
  unfold wireServerInfoBody serverInfoBodyRecord
  simp only [serverInfoToDomain_eq, split, shape_get, nest_get]

-- ---------------------------------------------------------------------------
-- Responses
-- ---------------------------------------------------------------------------

/-- `WireRespErr` -/
def respErrRecord : WireRecord String := textField errLen

/-- The data of a hit, in their order. -/
structure QueryHit where
  req : String
  ip : String
  publicKey : String
  endpoint : String
  relayRk : Option String
  aliasName : String
  deriving DecidableEq, Repr

/-- `WireRespQueryHit`: `has_alias` is not set, and not read. -/
def queryHitRecord : WireRecord QueryHit :=
  ((textField nameLen).both <| (textField ipLen).both <| keyField.both <| (textField endpointLen).both <|
    keyField.opt.both <| (unused String 1).both (textField nameLen)).shape
    (fun h => (h.req, h.ip, h.publicKey, h.endpoint, h.relayRk, (), h.aliasName))
    (fun (req, ip, publicKey, endpoint, relayRk, _, aliasName) =>
      { req, ip, publicKey, endpoint, relayRk, aliasName })
    fun _ => rfl

/-- `WireRespQueryMiss` -/
def queryMissRecord : WireRecord (String × String) := (textField nameLen).both (textField errLen)

/-- `WireRespJoin` -/
def respJoinRecord : WireRecord (String × String × DeviceCert × ServerInfo × Crl) :=
  keyField.both <| (textField ipLen).both <| certRecord.nest.both <| serverInfoRecord.nest.both crlRecord.nest

theorem queryHitRecord_widths : queryHitRecord.widths = wireRespQueryHit := rfl

theorem queryMissRecord_widths : queryMissRecord.widths = wireRespQueryMiss := rfl

theorem respJoinRecord_widths : respJoinRecord.widths = wireRespJoin := rfl

end LinkMesh
