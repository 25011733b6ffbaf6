import LinkMesh.Basis.Lines
import LinkMesh.Mesh.Enrolment
import LinkMesh.Wire.Auth

/-!
# What a signature on a certificate vouches for

The root signs the canonical bytes of a certificate
(`linkmesh-shared/src/cert.rs`): lines of text in which nothing is escaped,
while the virtual IP is any text. Certificates that arrive in an AUTH have
fields of fixed width, and these leave one reading only.

## Results

* `canonicalBytes_inj` — a certificate off the wire with the canonical bytes of
  an issued one is about its device, its keys and its virtual IP.
* `signedFields_inj` — two certificates off the wire with the same canonical
  bytes have the same fields.
-/

namespace LinkMesh

open Lines

-- ---------------------------------------------------------------------------
-- Fields
-- ---------------------------------------------------------------------------

/-- The line of a field, as characters. -/
def fieldLine (k v : String) : List Char := k.toList ++ '=' :: v.toList

def fieldLines (fields : List (String × String)) : List Char :=
  fields.flatMap fun (k, v) => fieldLine k v ++ ['\n']

theorem fieldLines_cons (k v : String) (fields : List (String × String)) :
    fieldLines ((k, v) :: fields) = fieldLine k v ++ '\n' :: fieldLines fields := by
  unfold fieldLines
  rw [List.flatMap_cons, List.append_assoc, List.singleton_append]

theorem fieldLines_concat (fields : List (String × String)) (k v : String) :
    fieldLines (fields ++ [(k, v)]) = fieldLines fields ++ fieldLine k v ++ ['\n'] := by
  unfold fieldLines
  rw [List.flatMap_append, List.append_assoc, List.flatMap_singleton]

theorem canonical_eq (heading : String) (fields : List (String × String)) :
    canonical heading fields = utf8 (String.ofList (heading.toList ++ '\n' :: fieldLines fields)) := by
  have hEnd : utf8 (String.ofList ['\n']) = [10] := by decide
  have hEquals : utf8 (String.ofList ['=']) = [61] := by decide
  have hFields : (fields.flatMap fun (k, v) => utf8 k ++ [61] ++ utf8 v ++ [10]) =
      utf8 (String.ofList (fieldLines fields)) := by
    induction fields with
    | nil => decide
    | cons f fields ih =>
      obtain ⟨k, v⟩ := f
      rw [List.flatMap_cons, ih, fieldLines_cons]
      unfold fieldLine
      rw [← List.singleton_append (x := '\n'), ← List.singleton_append (x := '=')]
      simp only [String.ofList_append, utf8_append, String.ofList_toList, hEnd, hEquals, List.append_assoc]
  unfold canonical
  rw [hFields, ← List.singleton_append (x := '\n')]
  simp only [String.ofList_append, utf8_append, String.ofList_toList, hEnd, List.append_assoc]

theorem fieldLines_of_canonical {heading : String} {fields fields' : List (String × String)}
    (h : canonical heading fields = canonical heading fields') : fieldLines fields = fieldLines fields' := by
  rw [canonical_eq, canonical_eq] at h
  have hText := String.ofList_injective (utf8_injective h)
  exact (List.cons.inj (List.append_cancel_left hText)).2

section Fields

variable {k v v' : String} {fields fields' : List (String × String)}

theorem not_mem_fieldLine (hk : '\n' ∉ k.toList) (hv : '\n' ∉ v.toList) : '\n' ∉ fieldLine k v := by
  unfold fieldLine
  rw [List.mem_append, List.mem_cons]
  rintro (hKey | hEquals | hValue)
  · exact hk hKey
  · exact absurd hEquals (by decide)
  · exact hv hValue

theorem fieldLine_inj (h : fieldLine k v = fieldLine k v') : v = v' := by
  have hValue := (List.cons.inj (List.append_cancel_left h)).2
  exact String.toList_injective hValue

theorem fieldLine_length : (fieldLine k v).length = k.toList.length + 1 + v.toList.length := by
  unfold fieldLine
  rw [List.length_append, List.length_cons]
  omega

/-- Values of one line each. -/
theorem fieldLines_inj (h : fieldLines ((k, v) :: fields) = fieldLines ((k, v') :: fields'))
    (hk : '\n' ∉ k.toList) (hv : '\n' ∉ v.toList) (hv' : '\n' ∉ v'.toList) :
    v = v' ∧ fieldLines fields = fieldLines fields' := by
  rw [fieldLines_cons, fieldLines_cons] at h
  obtain ⟨hLine, hRest⟩ := line_inj h (not_mem_fieldLine hk hv) (not_mem_fieldLine hk hv')
  exact ⟨fieldLine_inj hLine, hRest⟩

theorem keyB64_plain (bs : Bytes) : '\n' ∉ (keyB64 bs).toList := by
  intro h
  unfold keyB64 Base64.encode at h
  rw [String.toList_ofList] at h
  exact absurd (encodeChars_not_whitespace bs '\n' h) (by decide)

theorem IsB64Text.plain {n : Nat} (h : IsB64Text n v) : '\n' ∉ v.toList := by
  obtain ⟨bs, _, rfl⟩ := h
  exact keyB64_plain bs

theorem IsB64Text.length (h : IsB64Text 32 v) : v.toList.length = 44 := by
  obtain ⟨bs, hLength, rfl⟩ := h
  unfold keyB64 Base64.encode
  rw [String.toList_ofList, encodeChars_length, hLength]

/-- A text that is trimmed and decoded has no line end between two characters
that are not white space. -/
theorem b64Fixed_one_line {n : Nat} {badBase64 badLength : String} {bs : Bytes} {front back : List Char}
    (h : b64Fixed n badBase64 badLength v = .ok bs) (hText : v.toList = front ++ '\n' :: back)
    (hFront : ∃ a ∈ front, isWhitespace a = false) (hBack : ∃ b ∈ back, isWhitespace b = false) :
    False := by
  have hMem := mem_trim_of_between hText hFront hBack
  unfold b64Fixed at h
  split at h
  · rename_i decoded hDecode
    have hNone : Base64.value '\n' = none := by decide
    rcases Base64.symbol_of_decode hDecode '\n' hMem with ⟨n, hValue⟩ | hPad
    · rw [hNone] at hValue
      cases hValue
    · exact absurd hPad (by decide)
  · cases h

/-- A key text may have white space around it, but the next field starts with a
letter. -/
theorem fieldLines_key_inj {n : Nat} {badBase64 badLength : String} {bs : Bytes} {next : Char}
    {rest : List Char} (h : fieldLines ((k, v) :: fields) = fieldLines ((k, v') :: fields'))
    (hk : '\n' ∉ k.toList) (hv : b64Fixed n badBase64 badLength v = .ok bs) (hv' : IsB64Text 32 v')
    (hNext : fieldLines fields' = next :: rest) (hLetter : isWhitespace next = false) :
    v = v' ∧ fieldLines fields = fieldLines fields' := by
  rw [fieldLines_cons, fieldLines_cons] at h
  rcases line_cases h.symm (not_mem_fieldLine hk hv'.plain) with ⟨hLine, hRest⟩ | ⟨q, hLine, hRest⟩
  · exact ⟨(fieldLine_inj hLine).symm, hRest.symm⟩
  exfalso
  have hText : v.toList = v'.toList ++ '\n' :: q := by
    unfold fieldLine at hLine
    rw [List.append_assoc, List.cons_append] at hLine
    exact (List.cons.inj (List.append_cancel_left hLine)).2
  have hFront : ∃ a ∈ v'.toList, isWhitespace a = false := by
    obtain ⟨key, hLength, rfl⟩ := hv'
    have hChars : (keyB64 key).toList = Base64.encodeChars key := String.toList_ofList
    cases hCode : Base64.encodeChars key with
    | nil =>
      have hCount := encodeChars_length key
      rw [hCode, hLength] at hCount
      cases hCount
    | cons a code =>
      refine ⟨a, by rw [hChars, hCode]; exact List.mem_cons_self .., ?_⟩
      exact encodeChars_not_whitespace key a (by rw [hCode]; exact List.mem_cons_self ..)
  have hBack : ∃ b ∈ q, isWhitespace b = false := by
    rw [hNext] at hRest
    cases q with
    | nil =>
      obtain ⟨hHead, _⟩ := List.cons.inj hRest
      rw [hHead] at hLetter
      exact absurd hLetter (by decide)
    | cons b q =>
      obtain ⟨hHead, _⟩ := List.cons.inj hRest
      exact ⟨b, List.mem_cons_self .., hHead ▸ hLetter⟩
  exact b64Fixed_one_line hv hText hFront hBack

/-- Any value, in front of two lines. -/
theorem fieldLines_front_inj {k₂ k₃ v₂ v₃ v₂' v₃' : String}
    (h : fieldLines [(k, v), (k₂, v₂), (k₃, v₃)] = fieldLines [(k, v'), (k₂, v₂'), (k₃, v₃')])
    (h₂ : '\n' ∉ fieldLine k₂ v₂) (h₂' : '\n' ∉ fieldLine k₂ v₂')
    (h₃ : '\n' ∉ fieldLine k₃ v₃) (h₃' : '\n' ∉ fieldLine k₃ v₃') : v = v' := by
  have hNone : '\n' ∉ fieldLines [] := List.not_mem_nil
  simp only [fieldLines_cons, ← List.append_assoc, ← List.cons_append] at h
  obtain ⟨hLast, _⟩ := lastLine_inj h hNone hNone
  obtain ⟨hMiddle, _⟩ := lastLine_inj hLast h₃ h₃'
  obtain ⟨hFirst, _⟩ := lastLine_inj hMiddle h₂ h₂'
  exact fieldLine_inj hFirst

end Fields

-- ---------------------------------------------------------------------------
-- Certificates
-- ---------------------------------------------------------------------------

/-- A text of one line, not empty. -/
def OneLine (s : String) : Prop := '\n' ∉ s.toList ∧ s.toList ≠ []

namespace DeviceCert

/-- The texts of a certificate that `issue_cert` made: the mesh id is one line,
the device id is derived, the keys decode. Nothing is said of the IP. -/
structure Certified (c : DeviceCert) : Prop where
  meshId : OneLine c.meshId
  deviceId : IsB64Text 32 c.deviceId
  ikX : ∃ k, parsePublicKey c.ikX = .ok k
  ikSPub : ∃ k, parseSigPublic c.ikSPub = .ok k

/-- The texts of a certificate off the wire. -/
structure OffWire (c : DeviceCert) : Prop where
  meshId : c.meshId.toList.length ≤ nameLen
  deviceId : IsB64Text 32 c.deviceId
  ikX : IsB64Text 32 c.ikX
  ikSPub : IsB64Text 32 c.ikSPub

theorem offWire_of_toDomain {c : DeviceCert} {bytes : Bytes} (hLength : bytes.length = wireDeviceCert.sum)
    (h : deviceCertToDomain bytes = .ok c) : c.OffWire := by
  have hWidths : (Layout.split wireDeviceCert bytes).map List.length = wireDeviceCert :=
    Layout.split_lengths (by omega)
  unfold deviceCertToDomain at h
  split at h
  · rename_i meshId version deviceId ikX ikSPub allowedIp validFrom notAfter flag signature hSplit
    rw [hSplit] at hWidths
    simp only [wireDeviceCert, List.map_cons, List.map_nil, List.cons.injEq] at hWidths
    obtain ⟨hMesh, _, hDevice, hIkX, hIkS, _⟩ := hWidths
    obtain ⟨meshText, hMeshText, h⟩ := bind_eq_ok.mp h
    obtain ⟨ipText, _, h⟩ := bind_eq_ok.mp h
    cases h
    exact ⟨hMesh ▸ wireStrGet_length hMeshText, isB64Text_keyB64 hDevice, isB64Text_keyB64 hIkX,
      isB64Text_keyB64 hIkS⟩
  · cases h

theorem offWire_of_decodeAuth {ab : AuthBody} {bytes : Bytes} (h : decodeAuth bytes = .ok ab) :
    ab.cert.OffWire := by
  unfold decodeAuth at h
  obtain ⟨fields, hFields, h⟩ := bind_eq_ok.mp h
  have hWidths := decodeImpl_lengths hFields
  split at h
  · rename_i deviceId cert ekC timestamp nonce flag token
    simp only [wireAuth, List.map_cons, List.map_nil, List.cons.injEq] at hWidths
    obtain ⟨_, hCert, _⟩ := hWidths
    obtain ⟨c, hDomain, h⟩ := bind_eq_ok.mp h
    obtain ⟨tokenText, _, h⟩ := bind_eq_ok.mp h
    cases h
    exact offWire_of_toDomain hCert hDomain
  · cases h

/-- The fields in their order. -/
def fields (c : DeviceCert) : List (String × String) :=
  [("mesh_id", c.meshId), ("version", toString c.version), ("device_id", c.deviceId),
    ("ik_x", c.ikX), ("ik_s_pub", c.ikSPub), ("allowed_ip", c.allowedIp),
    ("valid_from", toString c.validFrom), ("not_after", toString c.notAfter)]

theorem fieldLines_fields (c : DeviceCert) :
    fieldLines c.fields = fieldLine "mesh_id" c.meshId ++ '\n' :: fieldLines c.fields.tail :=
  fieldLines_cons "mesh_id" c.meshId c.fields.tail

variable {c c' : DeviceCert}

/-- The mesh id off the wire is too short to swallow the next two lines. -/
theorem meshId_swallows {q : List Char} (hDevice : IsB64Text 32 c.deviceId)
    (hShort : c'.meshId.toList.length ≤ nameLen)
    (hLine : fieldLine "mesh_id" c'.meshId = fieldLine "mesh_id" c.meshId ++ '\n' :: q)
    (hRest : fieldLines c.fields.tail = q ++ '\n' :: fieldLines c'.fields.tail) : False := by
  have hTotal := congrArg List.length hLine
  rw [List.length_append, List.length_cons, fieldLine_length, fieldLine_length] at hTotal
  unfold nameLen at hShort
  unfold fields at hRest
  rw [List.tail_cons, List.tail_cons, fieldLines_cons "version"] at hRest
  rcases line_cases hRest (not_mem_fieldLine (by decide) (toString_plain _)) with
    ⟨_, hVersion⟩ | ⟨q', hVersion, hRest'⟩
  · -- the line of the device id would be that of the version
    rw [fieldLines_cons "device_id", fieldLines_cons "version"] at hVersion
    exact absurd (List.cons.inj hVersion).1 (by decide)
  · have hLine' : (fieldLine "device_id" c.deviceId).length ≤ q'.length := by
      rw [fieldLines_cons "device_id"] at hRest'
      rcases line_cases hRest' (not_mem_fieldLine (by decide) hDevice.plain) with
        ⟨hSame, _⟩ | ⟨q'', hSame, _⟩
      · rw [hSame]
      · rw [hSame, List.length_append]
        omega
    have hLong := congrArg List.length hVersion
    rw [List.length_append, List.length_cons, fieldLine_length] at hLong
    rw [fieldLine_length, hDevice.length] at hLine'
    have hDigits := toString_length_pos c.version
    have hNames : "version".toList.length = 7 ∧ "device_id".toList.length = 9 := by decide
    omega

theorem meshId_inj (hc : c.Certified) (hc' : c'.OffWire)
    (h : fieldLines c.fields = fieldLines c'.fields) : '\n' ∉ c'.meshId.toList := by
  intro hBroken
  rw [fieldLines_fields c, fieldLines_fields c'] at h
  rcases line_cases h (not_mem_fieldLine (by decide) hc.meshId.1) with ⟨hLine, _⟩ | ⟨q, hLine, hRest⟩
  · rw [← fieldLine_inj hLine] at hBroken
    exact hc.meshId.1 hBroken
  · exact meshId_swallows hc.deviceId hc'.meshId hLine hRest

/-- Of two mesh ids off the wire neither goes on where the other ends. -/
theorem meshId_eq (hc : c.OffWire) (hc' : c'.OffWire) (h : fieldLines c.fields = fieldLines c'.fields) :
    c.meshId = c'.meshId ∧ fieldLines c.fields.tail = fieldLines c'.fields.tail := by
  rw [fieldLines_fields c, fieldLines_fields c'] at h
  rcases lines_cases h with ⟨hLine, hRest⟩ | ⟨q, hLine, hRest⟩ | ⟨q, hLine, hRest⟩
  · exact ⟨fieldLine_inj hLine, hRest⟩
  · exact (meshId_swallows hc.deviceId hc'.meshId hLine hRest).elim
  · exact (meshId_swallows hc'.deviceId hc.meshId hLine hRest).elim

/-- **A certificate off the wire with the canonical bytes of an issued one names
its device, its keys and its virtual IP.** -/
theorem canonicalBytes_inj (hc : c.Certified) (hc' : c'.OffWire)
    (h : c.canonicalBytes = c'.canonicalBytes) :
    c.deviceId = c'.deviceId ∧ c.ikX = c'.ikX ∧ c.ikSPub = c'.ikSPub ∧ c.allowedIp = c'.allowedIp := by
  have hLines : fieldLines c.fields = fieldLines c'.fields := fieldLines_of_canonical h
  have hMesh := meshId_inj hc hc' hLines
  obtain ⟨keyX, hIkX⟩ := hc.ikX
  obtain ⟨keyS, hIkS⟩ := hc.ikSPub
  obtain ⟨rawX, hRawX⟩ := b64Key_of_parsePublicKey hIkX
  unfold fields at hLines
  obtain ⟨_, hLines⟩ := fieldLines_inj hLines (by decide) hc.meshId.1 hMesh
  obtain ⟨_, hLines⟩ := fieldLines_inj hLines (by decide) (toString_plain _) (toString_plain _)
  obtain ⟨hDevice, hLines⟩ := fieldLines_inj hLines (by decide) hc.deviceId.plain hc'.deviceId.plain
  obtain ⟨hX, hLines⟩ := fieldLines_key_inj hLines (by decide) hRawX hc'.ikX
    (fieldLines_cons "ik_s_pub" _ _) (by decide)
  obtain ⟨hS, hLines⟩ := fieldLines_key_inj hLines (by decide) hIkS hc'.ikSPub
    (fieldLines_cons "allowed_ip" _ _) (by decide)
  exact ⟨hDevice, hX, hS, fieldLines_front_inj hLines (not_mem_fieldLine (by decide) (toString_plain _))
    (not_mem_fieldLine (by decide) (toString_plain _)) (not_mem_fieldLine (by decide) (toString_plain _))
    (not_mem_fieldLine (by decide) (toString_plain _))⟩

/-- **Two certificates off the wire with the same canonical bytes differ in their
signatures only.** -/
theorem signedFields_inj {bytes bytes' : Bytes} (hLength : bytes.length = wireDeviceCert.sum)
    (hLength' : bytes'.length = wireDeviceCert.sum) (hDomain : deviceCertToDomain bytes = .ok c)
    (hDomain' : deviceCertToDomain bytes' = .ok c') (h : c.canonicalBytes = c'.canonicalBytes) :
    { c with signature := c'.signature } = c' := by
  have hc := offWire_of_toDomain hLength hDomain
  have hc' := offWire_of_toDomain hLength' hDomain'
  have hAll : fieldLines c.fields = fieldLines c'.fields := fieldLines_of_canonical h
  obtain ⟨hMesh, hLines⟩ := meshId_eq hc hc' hAll
  unfold fields at hLines
  rw [List.tail_cons, List.tail_cons] at hLines
  obtain ⟨hVersion, hLines⟩ := fieldLines_inj hLines (by decide) (toString_plain _) (toString_plain _)
  obtain ⟨hDevice, hLines⟩ := fieldLines_inj hLines (by decide) hc.deviceId.plain hc'.deviceId.plain
  obtain ⟨hX, hLines⟩ := fieldLines_inj hLines (by decide) hc.ikX.plain hc'.ikX.plain
  obtain ⟨hS, hLines⟩ := fieldLines_inj hLines (by decide) hc.ikSPub.plain hc'.ikSPub.plain
  have hIp : c.allowedIp = c'.allowedIp :=
    fieldLines_front_inj hLines (not_mem_fieldLine (by decide) (toString_plain _))
      (not_mem_fieldLine (by decide) (toString_plain _)) (not_mem_fieldLine (by decide) (toString_plain _))
      (not_mem_fieldLine (by decide) (toString_plain _))
  rw [hIp, fieldLines_cons "allowed_ip", fieldLines_cons "allowed_ip"] at hLines
  have hPeriod := (List.cons.inj (List.append_cancel_left hLines)).2
  obtain ⟨hFrom, hLast⟩ := fieldLines_inj hPeriod (by decide) (toString_plain _) (toString_plain _)
  obtain ⟨hAfter, _⟩ := fieldLines_inj hLast (by decide) (toString_plain _) (toString_plain _)
  rw [hMesh, toString_inj hVersion, hDevice, hX, hS, hIp, toString_inj hFrom, toString_inj hAfter]

/-- A certificate of blank slots, with the presence byte of its signature. -/
def sampleBlank (hasSignature : UInt8) : Bytes := List.replicate 228 0 ++ hasSignature :: List.replicate 64 0

def sampleBlankCert (signature : Option String) : DeviceCert :=
  let key := keyB64 (List.replicate 32 0)
  { meshId := "", version := 0, deviceId := key, ikX := key, ikSPub := key, allowedIp := ""
    validFrom := 0, notAfter := 0, signature := signature }

theorem signedFields_inj_blank :
    { sampleBlankCert none with signature := some (keyB64 (List.replicate 64 0)) } =
      sampleBlankCert (some (keyB64 (List.replicate 64 0))) := by
  have hUnsigned : deviceCertToDomain (sampleBlank 0) = .ok (sampleBlankCert none) := by decide +kernel
  have hSigned : deviceCertToDomain (sampleBlank 1) =
      .ok (sampleBlankCert (some (keyB64 (List.replicate 64 0)))) := by
    decide +kernel
  exact signedFields_inj (by decide +kernel) (by decide +kernel) hUnsigned hSigned rfl

end DeviceCert

end LinkMesh
