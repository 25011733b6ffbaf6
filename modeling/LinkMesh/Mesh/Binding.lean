import LinkMesh.Mesh.Canonical

/-!
# What the root's other signatures vouch for

The canonical bytes of a `ServerInfo` and of a `Crl` (`linkmesh-shared/src/cert.rs`)
are lines of text like those of a certificate, but their texts are of any
length and content. A statement is *bound* when no other one has its bytes.

## Results

* `ServerInfo.bound_iff` — exactly when no text imitates the field next to it.
* `Crl.bound_iff`        — exactly when nothing is revoked: `replacement` is not
  in the bytes.
* `Crl.signed_inj`       — device ids of one line each: what the bytes do bind.
-/

namespace LinkMesh

open Lines

-- ---------------------------------------------------------------------------
-- Fields
-- ---------------------------------------------------------------------------

/-- The end of the line before a field, and the field's name. -/
def marker (k : String) : List Char := '\n' :: (k.toList ++ ['='])

def marked (fields : List (String × String)) : List (List Char × List Char) :=
  fields.map fun (k, v) => (marker k, v.toList)

theorem isMarker_marker {k : String} (hk : '\n' ∉ k.toList) : IsMarker '\n' (marker k) := by
  refine ⟨k.toList ++ ['='], rfl, ?_⟩
  rw [List.mem_append, List.mem_singleton]
  rintro (hKey | hEquals)
  · exact hk hKey
  · exact absurd hEquals (by decide)

/-- The lines of the first fields are texts joined by markers. -/
theorem fieldLines_append (k v : String) (fields last : List (String × String)) :
    fieldLines ((k, v) :: (fields ++ last)) =
      (k.toList ++ ['=']) ++ (v.toList ++ join (marked fields)) ++ '\n' :: fieldLines last := by
  induction fields generalizing k v with
  | nil =>
    rw [List.nil_append, fieldLines_cons]
    simp [fieldLine, marked, join]
  | cons f fields ih =>
    obtain ⟨k', v'⟩ := f
    rw [List.cons_append, fieldLines_cons, ih]
    simp [fieldLine, marked, join, marker]

/-- Fields of one line each are read off the end. -/
theorem fieldLines_last_inj {p p' : List Char} {last last' : List (String × String)}
    (h : p ++ '\n' :: fieldLines last = p' ++ '\n' :: fieldLines last')
    (hSame : last.map Prod.fst = last'.map Prod.fst) (hPlain : ∀ f ∈ last, '\n' ∉ fieldLine f.1 f.2)
    (hPlain' : ∀ f ∈ last', '\n' ∉ fieldLine f.1 f.2) : p = p' ∧ last = last' := by
  induction last generalizing p p' last' with
  | nil =>
    obtain rfl := List.map_eq_nil_iff.mp hSame.symm
    exact ⟨List.append_cancel_right h, rfl⟩
  | cons f last ih =>
    obtain ⟨k, v⟩ := f
    obtain ⟨⟨k', v'⟩, rest, rfl, hk, hRest⟩ := List.map_eq_cons_iff.mp hSame.symm
    obtain rfl : k' = k := hk
    rw [List.forall_mem_cons] at hPlain hPlain'
    rw [fieldLines_cons, fieldLines_cons, ← List.cons_append, ← List.cons_append, ← List.append_assoc,
      ← List.append_assoc] at h
    obtain ⟨hFront, hEq⟩ := ih h hRest.symm hPlain.2 hPlain'.2
    obtain ⟨hp, hLine⟩ := lastLine_inj hFront hPlain.1 hPlain'.1
    exact ⟨hp, by rw [fieldLine_inj hLine, hEq]⟩

-- ---------------------------------------------------------------------------
-- Server information
-- ---------------------------------------------------------------------------

namespace ServerInfo

/-- The texts behind the mesh id, in their order. -/
def texts (i : ServerInfo) : List (String × String) :=
  [("server_name", i.serverName), ("mesh_root_pub", i.meshRootPub), ("server_ik_x", i.serverIkX),
    ("server_ik_s_pub", i.serverIkSPub)]

def numbers (i : ServerInfo) : List (String × String) :=
  [("protocol_ver", toString i.protocolVer), ("crl_version", toString i.crlVersion),
    ("auth_required", toString i.authRequired)]

/-- No text imitates the field behind it, or the one it is in. -/
def Separate (i : ServerInfo) : Prop := Lines.Separate i.meshId.toList (marked i.texts)

instance (i : ServerInfo) : Decidable i.Separate :=
  inferInstanceAs (Decidable (Lines.Separate i.meshId.toList (marked i.texts)))

/-- The signature is on this statement only. -/
def Bound (i : ServerInfo) : Prop :=
  ∀ i' : ServerInfo, i'.canonicalBytes = i.canonicalBytes → { i' with signature := i.signature } = i

variable {i i' : ServerInfo}

theorem numbers_plain (i : ServerInfo) : ∀ f ∈ i.numbers, '\n' ∉ fieldLine f.1 f.2 := by
  have hBool : '\n' ∉ (toString i.authRequired).toList := by
    cases i.authRequired <;> decide
  unfold numbers
  simp only [List.forall_mem_cons]
  exact ⟨not_mem_fieldLine (by decide) (toString_plain _), not_mem_fieldLine (by decide) (toString_plain _),
    not_mem_fieldLine (by decide) hBool, by simp⟩

theorem numbers_inj (h : i.numbers = i'.numbers) :
    i.protocolVer = i'.protocolVer ∧ i.crlVersion = i'.crlVersion ∧ i.authRequired = i'.authRequired := by
  have hBool : ∀ b b' : Bool, toString b = toString b' → b = b' := by decide
  unfold numbers at h
  simp only [List.cons.injEq, Prod.mk.injEq, true_and, and_true] at h
  exact ⟨toString_inj h.1, toString_inj h.2.1, hBool _ _ h.2.2⟩

theorem marked_texts (i : ServerInfo) : (marked i.texts).map Prod.fst =
    [marker "server_name", marker "mesh_root_pub", marker "server_ik_x", marker "server_ik_s_pub"] := rfl

theorem scheme_texts (i : ServerInfo) : Scheme '\n' ((marked i.texts).map Prod.fst) := by
  rw [marked_texts]
  constructor
  · simp only [List.forall_mem_cons]
    exact ⟨isMarker_marker (by decide), isMarker_marker (by decide), isMarker_marker (by decide),
      isMarker_marker (by decide), by simp⟩
  · unfold Apart
    decide

/-- The bytes are the texts between their markers, then the numbers. -/
theorem canonicalBytes_eq_iff : i.canonicalBytes = i'.canonicalBytes ↔
    i.meshId.toList ++ join (marked i.texts) = i'.meshId.toList ++ join (marked i'.texts) ∧
      i.numbers = i'.numbers := by
  have hLines : ∀ j : ServerInfo, fieldLines (("mesh_id", j.meshId) :: (j.texts ++ j.numbers)) =
      ("mesh_id".toList ++ ['=']) ++ (j.meshId.toList ++ join (marked j.texts)) ++
        '\n' :: fieldLines j.numbers := fun j =>
    fieldLines_append "mesh_id" j.meshId j.texts j.numbers
  constructor
  · intro h
    have hFields := fieldLines_of_canonical h
    have hText := (hLines i).symm.trans (hFields.trans (hLines i'))
    obtain ⟨hFront, hNumbers⟩ := fieldLines_last_inj hText rfl i.numbers_plain i'.numbers_plain
    exact ⟨List.append_cancel_left hFront, hNumbers⟩
  · rintro ⟨hText, hNumbers⟩
    show canonical _ (("mesh_id", i.meshId) :: (i.texts ++ i.numbers)) =
      canonical _ (("mesh_id", i'.meshId) :: (i'.texts ++ i'.numbers))
    rw [canonical_eq, canonical_eq, hLines, hLines, hText, hNumbers]

/-- The statement with other texts. -/
def withTexts (i : ServerInfo) (meshId serverName rootPub ikX ikSPub : List Char) : ServerInfo :=
  { i with
    meshId := String.ofList meshId
    serverName := String.ofList serverName
    meshRootPub := String.ofList rootPub
    serverIkX := String.ofList ikX
    serverIkSPub := String.ofList ikSPub }

theorem bound_iff : i.Bound ↔ i.Separate := by
  unfold Separate
  rw [← join_unique_iff i.scheme_texts]
  constructor
  · intro hBound v' fields' hSame hText
    rw [marked_texts] at hSame
    obtain ⟨⟨k₁, v₁⟩, rest₁, rfl, rfl, hSame₁⟩ := List.map_eq_cons_iff.mp hSame
    obtain ⟨⟨k₂, v₂⟩, rest₂, rfl, rfl, hSame₂⟩ := List.map_eq_cons_iff.mp hSame₁
    obtain ⟨⟨k₃, v₃⟩, rest₃, rfl, rfl, hSame₃⟩ := List.map_eq_cons_iff.mp hSame₂
    obtain ⟨⟨k₄, v₄⟩, rest₄, rfl, rfl, hSame₄⟩ := List.map_eq_cons_iff.mp hSame₃
    obtain rfl := List.map_eq_nil_iff.mp hSame₄
    have hBytes : (i.withTexts v' v₁ v₂ v₃ v₄).canonicalBytes = i.canonicalBytes := by
      rw [canonicalBytes_eq_iff]
      refine ⟨?_, rfl⟩
      simpa [withTexts, texts, marked, String.toList_ofList] using hText.symm
    have hEq := hBound _ hBytes
    unfold withTexts at hEq
    rw [← hEq]
    simp [texts, marked, String.toList_ofList]
  · intro hOne i' hBytes
    obtain ⟨hText, hNumbers⟩ := canonicalBytes_eq_iff.mp hBytes.symm
    obtain ⟨hMesh, hFields⟩ := hOne i'.meshId.toList (marked i'.texts) rfl hText
    obtain ⟨hProtocol, hCrl, hAuth⟩ := numbers_inj hNumbers
    unfold texts marked at hFields
    simp only [List.map_cons, List.map_nil, List.cons.injEq, Prod.mk.injEq, true_and, and_true,
      String.toList_inj] at hFields
    obtain ⟨hName, hRoot, hX, hS⟩ := hFields
    rw [← String.toList_injective hMesh, ← hName, ← hRoot, ← hX, ← hS, ← hProtocol, ← hCrl, ← hAuth]

end ServerInfo

-- ---------------------------------------------------------------------------
-- Revocation lists
-- ---------------------------------------------------------------------------

namespace CrlEntry

/-- The part of an entry that is in the signed bytes. -/
def signed (e : CrlEntry) : CrlEntry := { e with replacement := none }

def text (e : CrlEntry) : String := s!"{e.deviceId}:{e.reason.asStr}:{e.revokedAt}"

variable {e e' : CrlEntry}

/-- The line of an entry in the signed bytes. -/
def line (e : CrlEntry) : String × String := ("revoke", e.text)

theorem text_toList (e : CrlEntry) : e.text.toList =
    e.deviceId.toList ++ ':' :: (e.reason.asStr.toList ++ ':' :: (toString e.revokedAt).toList) := by
  have hColon : (":" : String).toList = [':'] := rfl
  have hText : e.text = e.deviceId ++ ":" ++ e.reason.asStr ++ ":" ++ toString e.revokedAt := by
    unfold text
    simp [toString]
  rw [hText]
  simp [String.toList_append, hColon]

theorem asStr_plain (r : RevokeReason) : '\n' ∉ r.asStr.toList ∧ ':' ∉ r.asStr.toList := by
  cases r <;> decide

theorem asStr_inj {r r' : RevokeReason} (h : r.asStr = r'.asStr) : r = r' := by
  cases r <;> cases r' <;> first | rfl | exact absurd h (by decide)

theorem text_plain (h : '\n' ∉ e.deviceId.toList) : '\n' ∉ e.text.toList := by
  rw [text_toList]
  simp only [List.mem_append, List.mem_cons]
  rintro (hId | hColon | hReason | hColon | hDigits)
  · exact h hId
  · exact absurd hColon (by decide)
  · exact (asStr_plain _).1 hReason
  · exact absurd hColon (by decide)
  · exact toString_plain _ hDigits

/-- An entry is read off the end of its line. -/
theorem text_inj (h : e.text = e'.text) : e.signed = e'.signed := by
  have hText := congrArg String.toList h
  rw [text_toList, text_toList] at hText
  have hSplit : ∀ c : CrlEntry, c.deviceId.toList ++ ':' :: (c.reason.asStr.toList ++ ':' ::
      (toString c.revokedAt).toList) =
        (c.deviceId.toList ++ ':' :: c.reason.asStr.toList) ++ ':' :: (toString c.revokedAt).toList := by
    intro c
    rw [List.append_assoc, List.cons_append]
  rw [hSplit, hSplit] at hText
  obtain ⟨hFront, hAt⟩ := lastLine_inj hText (not_mem_toString (by decide) _)
    (not_mem_toString (by decide) _)
  obtain ⟨hId, hReason⟩ := lastLine_inj hFront (asStr_plain _).2 (asStr_plain _).2
  unfold signed
  rw [String.toList_injective hId, asStr_inj (String.toList_injective hReason),
    toString_inj (String.toList_injective hAt)]

end CrlEntry

namespace Crl

/-- The device ids are distinct. -/
def Distinct (c : Crl) : Prop := (c.entries.map (·.deviceId)).Nodup

instance (c : Crl) : Decidable c.Distinct :=
  inferInstanceAs (Decidable (c.entries.map (·.deviceId)).Nodup)

/-- The signature is on these entries only, in some order. -/
def Bound (c : Crl) : Prop :=
  ∀ c' : Crl, c'.Distinct → c'.canonicalBytes = c.canonicalBytes →
    c'.meshId = c.meshId ∧ c'.version = c.version ∧ c'.entries.Perm c.entries

def sorted (c : Crl) : List CrlEntry := c.entries.mergeSort fun a b => a.deviceId ≤ b.deviceId

variable {c c' : Crl}

theorem fieldLines_of_canonicalBytes (h : c.canonicalBytes = c'.canonicalBytes) :
    fieldLines ([("mesh_id", c.meshId), ("version", toString c.version)] ++ c.sorted.map CrlEntry.line) =
      fieldLines ([("mesh_id", c'.meshId), ("version", toString c'.version)] ++ c'.sorted.map CrlEntry.line) :=
  fieldLines_of_canonical h

/-- What stands in the bytes determines them. -/
theorem canonicalBytes_congr (hMesh : c.meshId = c'.meshId) (hVersion : c.version = c'.version)
    (hEntries : c.entries.map CrlEntry.signed = c'.entries.map CrlEntry.signed) :
    c.canonicalBytes = c'.canonicalBytes := by
  have hLine : ∀ e : CrlEntry, e.line = e.signed.line := fun _ => rfl
  have hSorted : ∀ d : Crl, d.sorted.map CrlEntry.line = ((d.entries.map CrlEntry.signed).mergeSort
      fun a b => decide (a.deviceId ≤ b.deviceId)).map CrlEntry.line := by
    intro d
    unfold sorted
    rw [← List.map_mergeSort (r := fun a b => decide (a.deviceId ≤ b.deviceId)) (fun _ _ _ _ => rfl),
      List.map_map]
    rfl
  have hLines : c.sorted.map CrlEntry.line = c'.sorted.map CrlEntry.line := by rw [hSorted, hSorted, hEntries]
  have hBytes : ∀ d : Crl, d.canonicalBytes = canonical "linkmesh-crl-v1"
      ([("mesh_id", d.meshId), ("version", toString d.version)] ++ d.sorted.map CrlEntry.line) := fun _ => rfl
  rw [hBytes, hBytes, hLines, hMesh, hVersion]

/-- The last line says whether something is revoked: a number behind a colon, or
the version behind an equals sign. -/
theorem colon_ne_equals {p q d d' : List Char} (hd : '=' ∉ d) (hd' : ':' ∉ d') :
    p ++ ':' :: d ≠ q ++ '=' :: d' := by
  have hLast : ∀ {a b : Char} {z t t' : List Char}, a ≠ b → b ∉ t → a :: t ≠ z ++ b :: t' := by
    intro a b z t t' hNe ht hEq
    rcases List.cons_eq_append_iff.mp hEq with ⟨_, hHead⟩ | ⟨z', _, hTail⟩
    · exact hNe (List.cons.inj hHead).1.symm
    · refine ht ?_
      rw [hTail]
      exact List.mem_append_right _ (List.mem_cons_self ..)
  intro h
  rcases List.append_eq_append_iff.mp h with ⟨z, _, hRest⟩ | ⟨z, _, hRest⟩
  · exact hLast (by decide) hd hRest
  · exact hLast (by decide) hd' hRest

theorem entries_eq_nil (h : c.canonicalBytes = c'.canonicalBytes) (hNil : c'.entries = []) :
    c.entries = [] := by
  by_contra hSome
  have hSorted : c.sorted ≠ [] := by
    intro hEmpty
    have hLength := (List.mergeSort_perm c.entries fun a b => decide (a.deviceId ≤ b.deviceId)).length_eq
    rw [show c.entries.mergeSort (fun a b => decide (a.deviceId ≤ b.deviceId)) = [] from hEmpty] at hLength
    exact hSome (List.length_eq_zero_iff.mp hLength.symm)
  obtain ⟨front, e, hFront⟩ : ∃ front e, c.sorted = front ++ [e] :=
    ⟨c.sorted.dropLast, c.sorted.getLast hSorted, (List.dropLast_append_getLast hSorted).symm⟩
  have hNone : c'.sorted = [] := by
    unfold sorted
    rw [hNil, List.mergeSort_nil]
  have hLines := fieldLines_of_canonicalBytes h
  rw [hFront, hNone, List.map_append, ← List.append_assoc] at hLines
  have hSplit := (fieldLines_concat _ _ _).symm.trans
    (hLines.trans (fieldLines_concat [("mesh_id", c'.meshId)] "version" (toString c'.version)))
  have hEnds : _ ++ fieldLine "revoke" e.text = _ ++ fieldLine "version" _ := List.append_cancel_right hSplit
  unfold fieldLine at hEnds
  rw [e.text_toList, ← List.cons_append, ← List.append_assoc, ← List.append_assoc, ← List.cons_append,
    ← List.append_assoc, ← List.append_assoc] at hEnds
  exact colon_ne_equals (not_mem_toString (by decide) _) (not_mem_toString (by decide) _) hEnds

theorem header_inj (h : fieldLines [("mesh_id", c.meshId), ("version", toString c.version)] =
    fieldLines [("mesh_id", c'.meshId), ("version", toString c'.version)]) :
    c.meshId = c'.meshId ∧ c.version = c'.version := by
  have hPlain : ∀ n : Nat, ∀ f ∈ [("version", toString n)], '\n' ∉ fieldLine f.1 f.2 := by
    simp only [List.forall_mem_singleton]
    exact fun n => not_mem_fieldLine (by decide) (toString_plain n)
  have hText := (fieldLines_cons "mesh_id" _ _).symm.trans (h.trans (fieldLines_cons "mesh_id" _ _))
  obtain ⟨hMesh, hVersion⟩ := fieldLines_last_inj hText rfl (hPlain _) (hPlain _)
  exact ⟨fieldLine_inj hMesh, toString_inj (Prod.mk.inj (List.cons.inj hVersion).1).2⟩

theorem bound_iff (hDistinct : c.Distinct) : c.Bound ↔ c.entries = [] := by
  constructor
  · intro hBound
    by_contra hSome
    obtain ⟨e, rest, hEntries⟩ := List.exists_cons_of_ne_nil hSome
    -- the same list, with another replacement in its first entry
    obtain ⟨e', hSigned, hOther⟩ : ∃ e' : CrlEntry, e'.signed = e.signed ∧ e' ≠ e := by
      cases hReplacement : e.replacement with
      | none =>
        refine ⟨{ e with replacement := some "" }, rfl, fun hEq => ?_⟩
        rw [← hEq] at hReplacement
        cases hReplacement
      | some d =>
        refine ⟨{ e with replacement := none }, rfl, fun hEq => ?_⟩
        rw [← hEq] at hReplacement
        cases hReplacement
    have hIds : e'.signed.deviceId = e.signed.deviceId := by rw [hSigned]
    change e'.deviceId = e.deviceId at hIds
    unfold Distinct at hDistinct
    rw [hEntries, List.map_cons, List.nodup_cons] at hDistinct
    have hDistinct' : Distinct { c with entries := e' :: rest } := by
      unfold Distinct
      rw [List.map_cons, List.nodup_cons, hIds]
      exact hDistinct
    have hBytes : canonicalBytes { c with entries := e' :: rest } = c.canonicalBytes := by
      refine canonicalBytes_congr rfl rfl ?_
      rw [hEntries, List.map_cons, List.map_cons, hSigned]
    obtain ⟨_, _, hPerm⟩ := hBound _ hDistinct' hBytes
    rw [hEntries] at hPerm
    rcases List.mem_cons.mp (hPerm.mem_iff.mp (List.mem_cons_self ..)) with hEq | hRest
    · exact hOther hEq
    · refine hDistinct.1 ?_
      rw [← hIds]
      exact List.mem_map_of_mem hRest
  · intro hNil c' _ hBytes
    have hNil' := entries_eq_nil hBytes hNil
    have hLines := fieldLines_of_canonicalBytes hBytes
    unfold sorted at hLines
    rw [hNil, hNil', List.mergeSort_nil, List.map_nil, List.append_nil, List.append_nil] at hLines
    obtain ⟨hMesh, hVersion⟩ := header_inj hLines
    exact ⟨hMesh, hVersion, by rw [hNil, hNil']⟩

theorem lines_inj {es es' : List CrlEntry} (hIds : ∀ e ∈ es, '\n' ∉ e.deviceId.toList)
    (hIds' : ∀ e ∈ es', '\n' ∉ e.deviceId.toList)
    (h : fieldLines (es.map CrlEntry.line) = fieldLines (es'.map CrlEntry.line)) :
    es.map CrlEntry.signed = es'.map CrlEntry.signed := by
  have hLine : ∀ (e : CrlEntry) (rest : List CrlEntry), fieldLines ((e :: rest).map CrlEntry.line) =
      fieldLine "revoke" e.text ++ '\n' :: fieldLines (rest.map CrlEntry.line) := fun e rest =>
    fieldLines_cons "revoke" e.text _
  have hSome : ∀ (e : CrlEntry) (rest : List CrlEntry), fieldLines ((e :: rest).map CrlEntry.line) ≠ [] := by
    intro e rest
    rw [hLine]
    simp
  induction es generalizing es' with
  | nil =>
    cases es' with
    | nil => rfl
    | cons e' rest' => exact absurd h.symm (hSome e' rest')
  | cons e rest ih =>
    cases es' with
    | nil => exact absurd h (hSome e rest)
    | cons e' rest' =>
      rw [List.forall_mem_cons] at hIds hIds'
      rw [hLine, hLine] at h
      obtain ⟨hHead, hTail⟩ := line_inj h (not_mem_fieldLine (by decide) (CrlEntry.text_plain hIds.1))
        (not_mem_fieldLine (by decide) (CrlEntry.text_plain hIds'.1))
      rw [List.map_cons, List.map_cons, CrlEntry.text_inj (fieldLine_inj hHead), ih hIds.2 hIds'.2 hTail]

/-- **The bytes bind the list's name and version, and of each entry all but its
replacement, when no mesh id or device id has a line end.** -/
theorem signed_inj (hMesh : '\n' ∉ c.meshId.toList) (hMesh' : '\n' ∉ c'.meshId.toList)
    (hIds : ∀ e ∈ c.entries, '\n' ∉ e.deviceId.toList) (hIds' : ∀ e ∈ c'.entries, '\n' ∉ e.deviceId.toList)
    (h : c.canonicalBytes = c'.canonicalBytes) :
    c.meshId = c'.meshId ∧ c.version = c'.version ∧
      (c.entries.map CrlEntry.signed).Perm (c'.entries.map CrlEntry.signed) := by
  have hSorted : ∀ d : Crl, d.sorted.Perm d.entries := fun d => List.mergeSort_perm _ _
  have hLines := fieldLines_of_canonicalBytes h
  rw [List.cons_append, List.cons_append, List.cons_append, List.cons_append] at hLines
  obtain ⟨hName, hLines⟩ := fieldLines_inj hLines (by decide) hMesh hMesh'
  obtain ⟨hVersion, hLines⟩ := fieldLines_inj hLines (by decide) (toString_plain _) (toString_plain _)
  have hEntries := lines_inj (fun e he => hIds e ((hSorted c).mem_iff.mp he))
    (fun e he => hIds' e ((hSorted c').mem_iff.mp he)) hLines
  have hSigned := (hSorted c).symm.map CrlEntry.signed
  rw [hEntries] at hSigned
  exact ⟨hName, toString_inj hVersion, hSigned.trans ((hSorted c').map _)⟩

end Crl

-- ---------------------------------------------------------------------------
-- Both
-- ---------------------------------------------------------------------------

/-- **Which statements the root's signature binds**: server information whose
texts are separate, and lists that revoke nothing. -/
theorem statement_bound_iff (i : ServerInfo) (c : Crl) :
    (i.Bound ↔ i.Separate) ∧ (c.Distinct → (c.Bound ↔ c.entries = [])) :=
  ⟨ServerInfo.bound_iff, Crl.bound_iff⟩

def sampleInfo (meshId serverName : String) : ServerInfo :=
  { meshId := meshId, serverName := serverName, meshRootPub := "", serverIkX := "", serverIkSPub := ""
    protocolVer := 2, crlVersion := 1, authRequired := true, signature := none }

def sampleRotated (replacement : Option String) : Crl :=
  { meshId := "m", version := 1, signature := none
    entries := [{ deviceId := "d", reason := .rotated, revokedAt := 5, replacement := replacement }] }

theorem statement_bound_iff_sample :
    (sampleInfo "m" "s").Bound ∧ ¬ (sampleInfo "a" "b\nserver_name=c").Bound ∧
      ¬ (sampleRotated (some "e")).Bound := by
  have hPlain := statement_bound_iff (sampleInfo "m" "s") (sampleRotated (some "e"))
  have hMoved := statement_bound_iff (sampleInfo "a" "b\nserver_name=c") (sampleRotated (some "e"))
  refine ⟨hPlain.1.mpr (by decide), fun hBound => ?_, fun hBound => ?_⟩
  · exact absurd (hMoved.1.mp hBound) (by decide)
  · exact absurd ((hPlain.2 (by decide)).mp hBound) (by decide)

/-- The server's name moves a line, and a replacement is swapped: the same bytes. -/
theorem statement_not_bound :
    ((sampleInfo "a" "b\nserver_name=c").canonicalBytes = (sampleInfo "a\nserver_name=b" "c").canonicalBytes ∧
      (sampleInfo "a" "b\nserver_name=c").meshId ≠ (sampleInfo "a\nserver_name=b" "c").meshId) ∧
    ((sampleRotated (some "e")).Distinct ∧ (sampleRotated (some "f")).Distinct ∧
      (sampleRotated (some "e")).canonicalBytes = (sampleRotated (some "f")).canonicalBytes ∧
        ¬ (sampleRotated (some "e")).entries.Perm (sampleRotated (some "f")).entries) := by
  exact ⟨⟨by decide +kernel, by decide⟩, by decide, by decide, Crl.canonicalBytes_congr rfl rfl rfl, by decide⟩

end LinkMesh
