import LinkMesh.Mesh.Cert

/-!
# The AUTH body

`WireAuth` (`linkmesh-shared/src/wire.rs`): device id, device certificate,
client ephemeral key, timestamp, nonce and optional room token at fixed
offsets. Keys, signatures and the nonce become base64 text.

## Results

* `decodeAuth_encodeAuth` — an AUTH body with canonical texts is read back.
-/

namespace LinkMesh

open Layout

def ipLen : Nat := 48
def nameLen : Nat := 64
def tokenLen : Nat := 64

-- ---------------------------------------------------------------------------
-- Fields
-- ---------------------------------------------------------------------------

/-- `decode_impl`: the byte count must be exactly that of the structure. -/
def decodeImpl (widths : List Nat) (what : String) (bytes : Bytes) : Except String (List Bytes) :=
  if bytes.length < widths.sum then .error s!"{what} 长度错误"
  else if widths.sum < bytes.length then .error s!"{what} 尾部存在多余数据"
  else .ok (split widths bytes)

/-- An optional text field behind its presence byte. -/
def optText (flag : Bytes) (buf : Bytes) : Except String (Option String) :=
  if flag = [1] then (wireStrGet buf).map some else .ok none

/-- An optional 32-byte or 64-byte field behind its presence byte. -/
def optB64 (flag : Bytes) (buf : Bytes) : Option String :=
  if flag = [1] then some (keyB64 buf) else none

/-- `put_opt_str`: presence byte and buffer. -/
def putOptStr (n : Nat) : Option String → Except String (List Bytes)
  | some s => do
    let buf ← wireStrSet n s
    .ok [[1], buf]
  | none => .ok [[0], List.replicate n 0]

/-- A key or a signature behind its presence byte. -/
def putOptB64 (n : Nat) (decode : String → Except String Bytes) :
    Option String → Except String (List Bytes)
  | some s => do
    let bytes ← decode s
    .ok [[1], bytes]
  | none => .ok [[0], List.replicate n 0]

/-- Canonical base64 of `n` bytes, as every decoder makes it. -/
def IsB64Text (n : Nat) (s : String) : Prop := ∃ bs : Bytes, bs.length = n ∧ s = keyB64 bs

theorem isB64Text_keyB64 {n : Nat} {bs : Bytes} (h : bs.length = n) : IsB64Text n (keyB64 bs) :=
  ⟨bs, h, rfl⟩

theorem isB64Text_optB64 {n : Nat} {flag buf : Bytes} {s : String} (hLength : buf.length = n)
    (h : optB64 flag buf = some s) : IsB64Text n s := by
  unfold optB64 at h
  split at h
  · exact ⟨buf, hLength, (Option.some.inj h).symm⟩
  · cases h

/-- Fields that fill their layout are read back. -/
theorem decodeImpl_flatten {fields : List Bytes} {widths : List Nat} {what : String}
    (h : fields.map List.length = widths) : decodeImpl widths what fields.flatten = .ok fields := by
  have hLength : fields.flatten.length = widths.sum := by rw [List.length_flatten, h]
  unfold decodeImpl
  rw [if_neg (by omega), if_neg (by omega), split_of_widths h]

/-- Decoded fields have the widths of their layout. -/
theorem decodeImpl_lengths {widths : List Nat} {what : String} {bytes : Bytes} {fields : List Bytes}
    (h : decodeImpl widths what bytes = .ok fields) : fields.map List.length = widths := by
  unfold decodeImpl at h
  split at h
  · cases h
  · split at h
    · cases h
    · cases h
      exact split_lengths (by omega)

theorem b64Key_isB64Text {s : String} {bs : Bytes} (hText : IsB64Text 32 s) (h : b64Key s = .ok bs) :
    bs.length = 32 ∧ keyB64 bs = s := by
  obtain ⟨key, hLength, rfl⟩ := hText
  rw [b64Key_keyB64 hLength] at h
  cases h
  exact ⟨hLength, rfl⟩

/-- An optional key is written as two fields and read back. -/
theorem optB64_putOptB64 {n : Nat} {decode : String → Except String Bytes} {s : Option String}
    {fields : List Bytes} (hDecode : ∀ bs : Bytes, bs.length = n → decode (keyB64 bs) = .ok bs)
    (hText : ∀ text, s = some text → IsB64Text n text) (h : putOptB64 n decode s = .ok fields) :
    ∃ flag buf, fields = [flag, buf] ∧ flag.length = 1 ∧ buf.length = n ∧ optB64 flag buf = s := by
  cases s with
  | none =>
    cases h
    exact ⟨[0], _, rfl, rfl, List.length_replicate, rfl⟩
  | some text =>
    obtain ⟨key, hLength, rfl⟩ := hText text rfl
    obtain ⟨bs, hKey, hFields⟩ := bind_eq_ok.mp h
    rw [hDecode key hLength] at hKey
    cases hKey
    cases hFields
    exact ⟨[1], key, rfl, rfl, hLength, rfl⟩

/-- So is an optional text. -/
theorem optText_putOptStr {n : Nat} {s : Option String} {fields : List Bytes}
    (h : putOptStr n s = .ok fields) :
    ∃ flag buf, fields = [flag, buf] ∧ flag.length = 1 ∧ buf.length = n ∧ optText flag buf = .ok s := by
  cases s with
  | none =>
    cases h
    exact ⟨[0], _, rfl, rfl, List.length_replicate, rfl⟩
  | some text =>
    obtain ⟨buf, hBuf, hFields⟩ := bind_eq_ok.mp h
    cases hFields
    refine ⟨[1], buf, rfl, rfl, wireStrSet_length hBuf, ?_⟩
    show (wireStrGet buf).map some = .ok (some text)
    rw [wireStr_get_set hBuf]
    rfl

-- ---------------------------------------------------------------------------
-- Certificates
-- ---------------------------------------------------------------------------

def wireDeviceCert : List Nat := [nameLen, 4, 32, 32, 32, ipLen, 8, 8, 1, 64]

/-- `WireDeviceCert::to_domain` -/
def deviceCertToDomain (bytes : Bytes) : Except String DeviceCert :=
  match split wireDeviceCert bytes with
  | [meshId, version, deviceId, ikX, ikSPub, allowedIp, validFrom, notAfter, hasSignature,
      signature] => do
    let meshId ← wireStrGet meshId
    let allowedIp ← wireStrGet allowedIp
    .ok
      { meshId := meshId
        version := leValue version
        deviceId := keyB64 deviceId
        ikX := keyB64 ikX
        ikSPub := keyB64 ikSPub
        allowedIp := allowedIp
        validFrom := leValue validFrom
        notAfter := leValue notAfter
        signature := optB64 hasSignature signature }
  | _ => .error "DeviceCert 长度错误"

/-- `WireDeviceCert::from_domain` -/
def deviceCertFromDomain (c : DeviceCert) : Except String Bytes := do
  let meshId ← wireStrSet nameLen c.meshId
  let deviceId ← b64Key c.deviceId
  let ikX ← b64Key c.ikX
  let ikSPub ← b64Key c.ikSPub
  let allowedIp ← wireStrSet ipLen c.allowedIp
  let signature ← putOptB64 64 b64Sig c.signature
  .ok ([meshId, leBytes 4 c.version, deviceId, ikX, ikSPub, allowedIp, leBytes 8 c.validFrom,
    leBytes 8 c.notAfter] ++ signature).flatten

/-- The certificate has a wire form that spells it back. -/
structure DeviceCert.Canonical (c : DeviceCert) : Prop where
  version : c.version < 256 ^ 4
  deviceId : IsB64Text 32 c.deviceId
  ikX : IsB64Text 32 c.ikX
  ikSPub : IsB64Text 32 c.ikSPub
  validFrom : c.validFrom < 256 ^ 8
  notAfter : c.notAfter < 256 ^ 8
  signature : ∀ s, c.signature = some s → IsB64Text 64 s

theorem deviceCertToDomain_fromDomain {c : DeviceCert} {bytes : Bytes} (hc : c.Canonical)
    (h : deviceCertFromDomain c = .ok bytes) :
    bytes.length = wireDeviceCert.sum ∧ deviceCertToDomain bytes = .ok c := by
  obtain ⟨meshId, hMesh, h⟩ := bind_eq_ok.mp h
  obtain ⟨deviceId, hDevice, h⟩ := bind_eq_ok.mp h
  obtain ⟨ikX, hIkX, h⟩ := bind_eq_ok.mp h
  obtain ⟨ikSPub, hIkS, h⟩ := bind_eq_ok.mp h
  obtain ⟨allowedIp, hIp, h⟩ := bind_eq_ok.mp h
  obtain ⟨signature, hSig, h⟩ := bind_eq_ok.mp h
  cases h
  obtain ⟨hDeviceLength, hDeviceBack⟩ := b64Key_isB64Text hc.deviceId hDevice
  obtain ⟨hIkXLength, hIkXBack⟩ := b64Key_isB64Text hc.ikX hIkX
  obtain ⟨hIkSLength, hIkSBack⟩ := b64Key_isB64Text hc.ikSPub hIkS
  obtain ⟨flag, sig, rfl, hFlag, hSigLength, hSigBack⟩ :=
    optB64_putOptB64 (fun _ => b64Sig_keyB64) hc.signature hSig
  have hWidths : ([meshId, leBytes 4 c.version, deviceId, ikX, ikSPub, allowedIp,
      leBytes 8 c.validFrom, leBytes 8 c.notAfter] ++ [flag, sig]).map List.length =
      wireDeviceCert := by
    simp [wireDeviceCert, wireStrSet_length hMesh, hDeviceLength, hIkXLength, hIkSLength,
      wireStrSet_length hIp, hFlag, hSigLength]
  refine ⟨by rw [List.length_flatten, hWidths], ?_⟩
  unfold deviceCertToDomain
  rw [split_of_widths hWidths]
  show (wireStrGet meshId >>= fun meshId => _) = _
  rw [wireStr_get_set hMesh]
  show (wireStrGet allowedIp >>= fun allowedIp => _) = _
  rw [wireStr_get_set hIp, hDeviceBack, hIkXBack, hIkSBack, hSigBack, leValue_leBytes hc.version,
    leValue_leBytes hc.validFrom, leValue_leBytes hc.notAfter]
  rfl

-- ---------------------------------------------------------------------------
-- The body
-- ---------------------------------------------------------------------------

/-- `AuthBody` of `linkmesh-shared/src/protocol.rs`. -/
structure AuthBody where
  deviceId : String
  cert : DeviceCert
  /-- client ephemeral public key (base64) -/
  ekC : String
  /-- Unix time in seconds, any `u64` -/
  timestamp : Nat
  /-- 12 random bytes (base64) -/
  nonce : String
  token : Option String
  deriving DecidableEq, Repr

/-- `AuthRespBody` -/
structure AuthRespBody where
  ekS : String
  sessionId : String
  crl : Crl
  serverInfo : ServerInfo
  allocatedIp : String
  deriving DecidableEq, Repr

def wireAuth : List Nat := [32, wireDeviceCert.sum, 32, 8, 12, 1, tokenLen]

/-- `b64_12` -/
def b64Nonce (s : String) : Except String Bytes :=
  b64Fixed 12 "nonce base64 解析失败" "nonce 长度错误，应为 12 字节" s

def encodeAuth (ab : AuthBody) : Except String Bytes := do
  let deviceId ← b64Key ab.deviceId
  let cert ← deviceCertFromDomain ab.cert
  let ekC ← b64Key ab.ekC
  let nonce ← b64Nonce ab.nonce
  let token ← putOptStr tokenLen ab.token
  .ok ([deviceId, cert, ekC, leBytes 8 ab.timestamp, nonce] ++ token).flatten

def decodeAuth (bytes : Bytes) : Except String AuthBody := do
  match ← decodeImpl wireAuth "AuthBody" bytes with
  | [deviceId, cert, ekC, timestamp, nonce, hasToken, token] =>
    let cert ← deviceCertToDomain cert
    let token ← optText hasToken token
    .ok
      { deviceId := keyB64 deviceId
        cert := cert
        ekC := keyB64 ekC
        timestamp := leValue timestamp
        nonce := keyB64 nonce
        token := token }
  | _ => .error "AuthBody 长度错误"

/-- An AUTH body with canonical texts is read back. -/
theorem decodeAuth_encodeAuth {ab : AuthBody} {bytes : Bytes} (hCert : ab.cert.Canonical)
    (hDevice : IsB64Text 32 ab.deviceId) (hEkC : IsB64Text 32 ab.ekC)
    (hTime : ab.timestamp < 256 ^ 8) (hNonce : IsB64Text 12 ab.nonce)
    (h : encodeAuth ab = .ok bytes) : decodeAuth bytes = .ok ab := by
  obtain ⟨deviceId, hId, h⟩ := bind_eq_ok.mp h
  obtain ⟨cert, hC, h⟩ := bind_eq_ok.mp h
  obtain ⟨ekC, hEk, h⟩ := bind_eq_ok.mp h
  obtain ⟨nonce, hN, h⟩ := bind_eq_ok.mp h
  obtain ⟨token, hToken, h⟩ := bind_eq_ok.mp h
  cases h
  obtain ⟨hIdLength, hIdBack⟩ := b64Key_isB64Text hDevice hId
  obtain ⟨hCertLength, hCertBack⟩ := deviceCertToDomain_fromDomain hCert hC
  obtain ⟨hEkLength, hEkBack⟩ := b64Key_isB64Text hEkC hEk
  obtain ⟨key, hKeyLength, hText⟩ := hNonce
  have hSame : nonce = key := by
    rw [hText] at hN
    exact (Except.ok.inj ((b64Fixed_keyB64 hKeyLength).symm.trans hN)).symm
  obtain ⟨flag, buf, rfl, hFlag, hBuf, hTokenBack⟩ := optText_putOptStr hToken
  unfold decodeAuth
  rw [decodeImpl_flatten (by
    simp [wireAuth, hIdLength, hCertLength, hEkLength, hSame, hKeyLength, hFlag, hBuf])]
  show (deviceCertToDomain cert >>= fun cert => _) = _
  rw [hCertBack]
  show (optText flag buf >>= fun token => _) = _
  rw [hTokenBack, hIdBack, hEkBack, hSame, ← hText, leValue_leBytes hTime]
  rfl

end LinkMesh
