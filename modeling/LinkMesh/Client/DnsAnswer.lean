import LinkMesh.Basis.Lowercase
import LinkMesh.Client.Dns

/-!
# DNS answers

`encode_name`, `build_response` and `handle_query` (`linkmesh-client/src/dns.rs`).
The question of an answer is written from the name, which the parser has joined
and lowered, and not from the labels of the query.

* `question_echo_iff` — it is the question of the query, up to the case of
  letters, iff each label is UTF-8 without dots and without a character outside
  ASCII that lowering changes.
-/

namespace LinkMesh

open Layout Utf8

-- ---------------------------------------------------------------------------
-- The source
-- ---------------------------------------------------------------------------

/-- A label that is empty or too long is left out. -/
def encodeName (name : String) : Bytes :=
  ((name.toList.splitOn '.').flatMap fun label =>
      let label := encode label
      if label = [] ∨ 63 < label.length then [] else encodeLabel label) ++
    [0]

/-- The record of the address, if there is one. -/
def answerRecord : Option (List Nat) → Bytes
  | some octets =>
    [0xC0, 0x0C] ++ beBytes 2 1 ++ beBytes 2 1 ++ beBytes 4 60 ++ beBytes 2 4 ++ octets.map UInt8.ofNat
  | none => []

def buildResponse (txid : Nat) (qname : String) (qtype : Nat) (ip : Option (List Nat)) (nxdomain : Bool) : Bytes :=
  beBytes 2 txid ++ beBytes 2 (if nxdomain then 0x8183 else 0x8180) ++ beBytes 2 1 ++
    beBytes 2 (if ip.isSome then 1 else 0) ++ [0, 0, 0, 0] ++ encodeName qname ++ beBytes 2 qtype ++ beBytes 2 1 ++
    answerRecord ip

/-- `s.parse::<Ipv4Addr>().ok()` -/
def parseIpv4 (s : String) : Option (List Nat) :=
  match IpAddr.parse s with
  | some (.v4 octets) => some octets
  | _ => none

/-- `handle_query`; `resolve` is what the registry knows at the time. -/
def handleQuery (env : NameEnv) (resolve : String → Option String) (pkt : Bytes) : Option Bytes :=
  match parseQuery env pkt with
  | .error _ => none
  | .ok (txid, name, qtype) =>
    if name = "" then none
    else if qtype ≠ 1 then some (buildResponse txid name qtype none false)
    else
      let ip := (resolve name).bind parseIpv4
      some (buildResponse txid name qtype ip ip.isNone)

-- ---------------------------------------------------------------------------
-- The question of an answer
-- ---------------------------------------------------------------------------

/-- The labels that `encode_name` writes. -/
def nameLabels (name : String) : List Bytes :=
  ((name.toList.splitOn '.').map encode).filter fun label => label ≠ [] ∧ label.length ≤ 63

theorem isLabel_nameLabels {name : String} : ∀ label ∈ nameLabels name, IsLabel label := by
  intro label hMem
  have hKept := (List.mem_filter.mp hMem).2
  rw [decide_eq_true_eq] at hKept
  exact ⟨List.length_pos_iff.mpr hKept.1, hKept.2⟩

theorem encodeName_eq (name : String) : encodeName name = encodeLabels (nameLabels name) := by
  unfold encodeName encodeLabels nameLabels
  congr 1
  induction name.toList.splitOn '.' with
  | nil => rfl
  | cons label rest ih =>
    rw [List.flatMap_cons, ih, List.map_cons, List.filter_cons]
    by_cases hOut : encode label = [] ∨ 63 < (encode label).length
    · have hDropped : ¬ (encode label ≠ [] ∧ (encode label).length ≤ 63) := by
        rcases hOut with hEmpty | hLong
        · exact fun h => h.1 hEmpty
        · exact fun h => absurd h.2 (Nat.not_le.mpr hLong)
      rw [if_pos hOut, if_neg (by rw [decide_eq_true_eq]; exact hDropped), List.nil_append]
    · have hKept : encode label ≠ [] ∧ (encode label).length ≤ 63 := by
        rw [not_or, Nat.not_lt] at hOut
        exact hOut
      rw [if_neg hOut, if_pos (decide_eq_true hKept), List.flatMap_cons]

theorem buildResponse_eq {txid qtype : Nat} (hId : txid < 256 ^ 2) (hType : qtype < 256 ^ 2) (qname : String)
    (ip : Option (List Nat)) (nxdomain : Bool) :
    ∃ q : Question, buildResponse txid qname qtype ip nxdomain = q.bytes ∧ q.id = txid ∧ q.qtype = qtype ∧
      q.labels = nameLabels qname := by
  refine ⟨{ id := txid, flags := if nxdomain then 0x8183 else 0x8180,
            counts := beBytes 2 (if ip.isSome then 1 else 0) ++ [0, 0, 0, 0], labels := nameLabels qname,
            qtype := qtype, qclass := 1, rest := answerRecord ip, id_lt := hId, flags_lt := ?_, counts_length := ?_,
            isLabel := isLabel_nameLabels, qtype_lt := hType, qclass_lt := by decide }, ?_, rfl, rfl, rfl⟩
  · cases nxdomain <;> decide
  · rw [List.length_append, beBytes_length]
    rfl
  · unfold buildResponse Question.bytes Question.header
    rw [encodeName_eq]
    simp only [List.append_assoc]

/-- A query with a name is answered, under its id, and for its type. -/
theorem handleQuery_bytes (env : NameEnv) (resolve : String → Option String) {q : Question} (hQuery : q.flags < 0x8000)
    (hName : q.name env ≠ "") :
    ∃ q' : Question, handleQuery env resolve q.bytes = some q'.bytes ∧ q'.id = q.id ∧ q'.qtype = q.qtype ∧
      q'.labels = nameLabels (q.name env) := by
  unfold handleQuery
  rw [parseQuery_bytes env q hQuery]
  dsimp only
  rw [if_neg hName]
  split
  · obtain ⟨q', hBytes, hSame⟩ := buildResponse_eq q.id_lt q.qtype_lt (q.name env) none false
    exact ⟨q', congrArg some hBytes, hSame⟩
  · obtain ⟨q', hBytes, hSame⟩ := buildResponse_eq q.id_lt q.qtype_lt (q.name env)
      ((resolve (q.name env)).bind parseIpv4) ((resolve (q.name env)).bind parseIpv4).isNone
    exact ⟨q', congrArg some hBytes, hSame⟩

/-- The answer has the question of the query, up to the case of letters. -/
def Echoes (q : Question) (resp : Bytes) : Prop :=
  ∃ q' : Question, resp = q'.bytes ∧ q'.id = q.id ∧ q'.qtype = q.qtype ∧
    q'.labels.map (List.map asciiLower) = q.labels.map (List.map asciiLower)

theorem echoes_bytes_iff {q q' : Question} (hId : q'.id = q.id) (hType : q'.qtype = q.qtype) :
    Echoes q q'.bytes ↔ q'.labels.map (List.map asciiLower) = q.labels.map (List.map asciiLower) := by
  constructor
  · rintro ⟨q'', hBytes, _, _, hLabels⟩
    rwa [q'.labels_of_bytes hBytes]
  · exact fun hLabels => ⟨q', rfl, hId, hType, hLabels⟩

-- ---------------------------------------------------------------------------
-- The name of a query
-- ---------------------------------------------------------------------------

theorem intercalate_append_cons {d : Char} (xs ys : List Char) (texts : List (List Char)) :
    [d].intercalate ((xs ++ ys) :: texts) = xs ++ [d].intercalate (ys :: texts) := by
  cases texts with
  | nil => rw [List.intercalate_singleton, List.intercalate_singleton]
  | cons text texts =>
    rw [List.intercalate_cons_cons, List.intercalate_cons_cons, List.append_assoc, List.append_assoc, List.append_assoc]

theorem foldl_appendLabel {name : List Char} {labels : List Bytes} (hName : name ≠ []) :
    labels.foldl appendLabel name = ['.'].intercalate (name :: labels.map lossy) := by
  induction labels generalizing name with
  | nil => rw [List.foldl_nil, List.map_nil, List.intercalate_singleton]
  | cons label labels ih =>
    have hStep : appendLabel name label = (name ++ ['.']) ++ lossy label := by
      unfold appendLabel
      rw [if_neg hName]
    rw [List.foldl_cons, ih (by rw [hStep]; simp), hStep, intercalate_append_cons, List.map_cons,
      List.intercalate_cons_cons]

theorem Question.text_eq (q : Question) : q.text = ['.'].intercalate (q.labels.map lossy) := by
  unfold Question.text
  cases hLabels : q.labels with
  | nil => rfl
  | cons label labels =>
    have hLabel := (q.isLabel label (by rw [hLabels]; simp)).1
    have hStep : appendLabel [] label = lossy label := rfl
    rw [List.foldl_cons, hStep, foldl_appendLabel (lossy_ne_nil (List.length_pos_iff.mp hLabel)), List.map_cons]

theorem intercalate_ends {texts : List (List Char)} (d : Char) (hTexts : texts ≠ []) :
    ∃ before, ∃ text ∈ texts, [d].intercalate texts = before ++ text := by
  induction texts with
  | nil => exact absurd rfl hTexts
  | cons text texts ih =>
    cases texts with
    | nil => exact ⟨[], text, List.mem_singleton_self text, List.intercalate_singleton⟩
    | cons next rest =>
      obtain ⟨before, last, hMem, hEq⟩ := ih (List.cons_ne_nil _ _)
      refine ⟨text ++ [d] ++ before, last, List.mem_cons_of_mem _ hMem, ?_⟩
      rw [List.intercalate_cons_cons, hEq, List.append_assoc _ before]

/-- Labels without dots leave no dot at the end of the name. -/
theorem trimEndDots_intercalate {texts : List (List Char)} (hTexts : ∀ text ∈ texts, text ≠ [] ∧ '.' ∉ text) :
    trimEndDots (['.'].intercalate texts) = ['.'].intercalate texts := by
  refine List.rdropWhile_eq_self_iff.mpr fun hSome => ?_
  have hNe : texts ≠ [] := by
    rintro rfl
    exact hSome rfl
  obtain ⟨before, text, hMem, hEq⟩ := intercalate_ends '.' hNe
  obtain ⟨hText, hDot⟩ := hTexts text hMem
  have hLast : (['.'].intercalate texts).getLast hSome ∈ text := by
    simp only [hEq, List.getLast_append_of_ne_nil _ hText]
    exact List.getLast_mem hText
  rw [decide_eq_true_eq]
  exact fun hIs => hDot (hIs ▸ hLast)

-- ---------------------------------------------------------------------------
-- The labels of the answer
-- ---------------------------------------------------------------------------

theorem not_mem_of_mem_splitOn {d : Char} {cs piece : List Char} (h : piece ∈ cs.splitOn d) : d ∉ piece := by
  induction cs generalizing piece with
  | nil =>
    rw [List.splitOn_nil, List.mem_singleton] at h
    rw [h]
    exact List.not_mem_nil
  | cons c cs ih =>
    rw [List.splitOn_cons_eq_if_modifyHead] at h
    obtain ⟨first, rest, hSplit⟩ := List.exists_cons_of_ne_nil (List.splitOn_ne_nil d cs)
    rw [hSplit] at h ih
    split at h
    · rcases List.mem_cons.mp h with rfl | hMem
      · exact List.not_mem_nil
      · exact ih hMem
    · rename_i hOther
      rw [List.modifyHead_cons] at h
      rcases List.mem_cons.mp h with rfl | hMem
      · intro hDot
        rcases List.mem_cons.mp hDot with rfl | hTail
        · exact hOther (beq_self_eq_true d)
        · exact ih List.mem_cons_self hTail
      · exact ih (List.mem_cons_of_mem _ hMem)

theorem toLower_eq_dot {c : Char} (h : c.toLower = '.') : c = '.' := by
  have hNat := congrArg Char.toNat h
  rw [toNat_toLower] at hNat
  refine Char.toNat_inj.mp ?_
  have hDot : ('.' : Char).toNat = 46 := rfl
  split at hNat <;> omega

/-- A label that comes back is UTF-8, and has no dot. -/
theorem text_of_echo {labels : List Bytes} {name : String}
    (h : (nameLabels name).map (List.map asciiLower) = labels.map (List.map asciiLower)) :
    ∀ label ∈ labels, encode (lossy label) = label ∧ '.' ∉ lossy label := by
  intro label hMem
  have hBack : label.map asciiLower ∈ (nameLabels name).map (List.map asciiLower) :=
    h ▸ List.mem_map_of_mem hMem
  obtain ⟨written, hWritten, hSame⟩ := List.mem_map.mp hBack
  obtain ⟨piece, hPiece, rfl⟩ := List.mem_map.mp (List.mem_filter.mp hWritten).1
  obtain ⟨text, rfl⟩ := exists_encode_of_lower hSame.symm
  rw [lossy_encode]
  refine ⟨rfl, fun hDot => ?_⟩
  rw [map_asciiLower_encode, map_asciiLower_encode] at hSame
  have hLower : '.' ∈ piece.map Char.toLower := by
    rw [encode_injective hSame]
    exact List.mem_map.mpr ⟨'.', hDot, rfl⟩
  obtain ⟨c, hc, hIs⟩ := List.mem_map.mp hLower
  exact not_mem_of_mem_splitOn hPiece (toLower_eq_dot hIs ▸ hc)

section

variable {t : CaseTables} (hLawful : t.Lawful) {texts lowered : List (List Char)}
include hLawful

/-- The name is split where its labels were joined, each of them lowered. -/
theorem nameLabels_lowered (hTexts : ∀ text ∈ texts, '.' ∉ text) (hNe : texts ≠ []) :
    ∃ lowered, List.Forall₂ t.Lowers texts lowered ∧
      nameLabels (t.toLowercase (String.ofList (['.'].intercalate texts))) =
        (lowered.map encode).filter fun label => label ≠ [] ∧ label.length ≤ 63 := by
  have hLowers := CaseTables.lowers_toLowercase (t := t) (String.ofList (['.'].intercalate texts))
  rw [String.toList_ofList] at hLowers
  obtain ⟨lowered, hText, hAll⟩ := hLowers.of_intercalate hLawful (by decide) (by decide)
  refine ⟨lowered, hAll, ?_⟩
  have hDots : ∀ text ∈ lowered, '.' ∉ text := by
    clear hText hNe hLowers
    induction hAll with
    | nil => exact List.forall_mem_nil _
    | cons hHead _ ih =>
      rw [List.forall_mem_cons] at hTexts ⊢
      exact ⟨hHead.not_mem hLawful hTexts.1 (by decide) (by decide), ih hTexts.2⟩
  have hSome : lowered ≠ [] := by
    rintro rfl
    cases hAll
    exact hNe rfl
  unfold nameLabels
  rw [hText, List.splitOn_intercalate '.' hDots hSome]

theorem lowered_eq_map (hAll : List.Forall₂ t.Lowers texts lowered)
    (hKept : ∀ text ∈ texts, ∀ c ∈ text, 128 ≤ c.toNat → t.Unchanged c) :
    lowered = texts.map (List.map Char.toLower) := by
  induction hAll with
  | nil => rfl
  | cons hHead _ ih =>
    rw [List.forall_mem_cons] at hKept
    rw [hHead.eq_map hLawful hKept.1, ih hKept.2, List.map_cons]

theorem unchanged_of_lowered (hAll : List.Forall₂ t.Lowers texts lowered)
    (hSame : lowered.map (List.map Char.toLower) = texts.map (List.map Char.toLower)) :
    ∀ text ∈ texts, ∀ c ∈ text, 128 ≤ c.toNat → t.Unchanged c := by
  induction hAll with
  | nil => exact List.forall_mem_nil _
  | cons hHead _ ih =>
    obtain ⟨hText, hRest⟩ := List.cons.inj hSame
    rw [List.forall_mem_cons]
    exact ⟨hHead.unchanged hLawful hText, ih hRest⟩

/-- Labels of UTF-8 without dots come back iff no character of them outside
ASCII changes. -/
theorem nameLabels_echo_iff (hTexts : ∀ text ∈ texts, IsLabel (encode text) ∧ '.' ∉ text) (hNe : texts ≠ []) :
    (nameLabels (t.toLowercase (String.ofList (['.'].intercalate texts)))).map (List.map asciiLower) =
        (texts.map encode).map (List.map asciiLower) ↔
      ∀ text ∈ texts, ∀ c ∈ text, 128 ≤ c.toNat → t.Unchanged c := by
  have hLowerEncode : ∀ xs : List (List Char),
      (xs.map encode).map (List.map asciiLower) = (xs.map (List.map Char.toLower)).map encode := by
    intro xs
    rw [List.map_map, List.map_map]
    exact List.map_congr_left fun x _ => map_asciiLower_encode x
  obtain ⟨lowered, hAll, hLabels⟩ := nameLabels_lowered hLawful (fun text hMem => (hTexts text hMem).2) hNe
  rw [hLabels]
  constructor
  · -- as many labels as were asked for: none is left out
    intro hSame
    have hLength := congrArg List.length hSame
    have hCount : texts.length = (lowered.map encode).length := by rw [hAll.length_eq, List.length_map]
    rw [List.length_map, List.length_map, List.length_map, hCount, List.length_filter_eq_length_iff,
      ← List.filter_eq_self] at hLength
    rw [hLength, hLowerEncode, hLowerEncode] at hSame
    exact unchanged_of_lowered hLawful hAll (encode_injective.list_map hSame)
  · intro hKept
    have hLowered := lowered_eq_map hLawful hAll hKept
    have hFit : ∀ label ∈ lowered.map encode, decide (label ≠ [] ∧ label.length ≤ 63) = true := by
      rw [hLowered, ← hLowerEncode]
      intro label hMem
      obtain ⟨written, hWritten, rfl⟩ := List.mem_map.mp hMem
      obtain ⟨text, hText, rfl⟩ := List.mem_map.mp hWritten
      obtain ⟨hPos, hShort⟩ := (hTexts text hText).1
      rw [decide_eq_true_eq, ← List.length_pos_iff, List.length_map]
      exact ⟨hPos, hShort⟩
    rw [List.filter_eq_self.mpr hFit, hLowerEncode, hLowerEncode]
    refine congrArg (List.map encode) ?_
    rw [hLowered, List.map_map]
    refine List.map_congr_left fun text _ => ?_
    rw [Function.comp_apply, List.map_map]
    refine List.map_congr_left fun c _ => ?_
    rw [Function.comp_apply]
    refine Char.toNat_inj.mp ?_
    rw [toNat_toLower c.toLower, if_neg]
    rw [toNat_toLower]
    split <;> omega

end

-- ---------------------------------------------------------------------------
-- The echo of a question
-- ---------------------------------------------------------------------------

/-- A label of UTF-8 without dots, of which lowering changes letters of ASCII
only. -/
def PlainLabel (t : CaseTables) (label : Bytes) : Prop :=
  ∃ s : String, utf8 s = label ∧ '.' ∉ s.toList ∧ ∀ c ∈ s.toList, 128 ≤ c.toNat → t.Unchanged c

theorem plainLabel_iff {t : CaseTables} {label : Bytes} :
    PlainLabel t label ↔ (encode (lossy label) = label ∧ '.' ∉ lossy label) ∧
      ∀ c ∈ lossy label, 128 ≤ c.toNat → t.Unchanged c := by
  constructor
  · rintro ⟨s, rfl, hDot, hKept⟩
    have hText : lossy (utf8 s) = s.toList := by
      rw [utf8_eq_flatMap]
      exact lossy_encode s.toList
    rw [hText]
    exact ⟨⟨(utf8_eq_flatMap s).symm, hDot⟩, hKept⟩
  · rintro ⟨⟨hLabel, hDot⟩, hKept⟩
    refine ⟨String.ofList (lossy label), ?_, ?_, ?_⟩
    · rw [utf8_eq_flatMap, String.toList_ofList]
      exact hLabel
    · rwa [String.toList_ofList]
    · rwa [String.toList_ofList]

/-- The answer to a query with a name has its id, its type and its labels, up to
the case of the letters of ASCII, iff each label is plain. -/
theorem question_echo_iff {t : CaseTables} (hLawful : t.Lawful) (resolve : String → Option String) {q : Question}
    (hQuery : q.flags < 0x8000) (hName : q.name ⟨t.toLowercase⟩ ≠ "") :
    (∃ resp, handleQuery ⟨t.toLowercase⟩ resolve q.bytes = some resp ∧ Echoes q resp) ↔
      ∀ label ∈ q.labels, PlainLabel t label := by
  obtain ⟨q', hResp, hId, hType, hLabels⟩ := handleQuery_bytes ⟨t.toLowercase⟩ resolve hQuery hName
  have hEcho : (∃ resp, handleQuery ⟨t.toLowercase⟩ resolve q.bytes = some resp ∧ Echoes q resp) ↔
      (nameLabels (q.name ⟨t.toLowercase⟩)).map (List.map asciiLower) = q.labels.map (List.map asciiLower) := by
    rw [← hLabels, ← echoes_bytes_iff hId hType]
    constructor
    · rintro ⟨resp, hSome, hEchoes⟩
      rwa [← Option.some.inj (hResp.symm.trans hSome)] at hEchoes
    · exact fun hEchoes => ⟨q'.bytes, hResp, hEchoes⟩
  have hSome : q.labels ≠ [] := by
    intro hNone
    refine hName ?_
    unfold Question.name Question.text
    rw [hNone]
    rfl
  have hIff : (∀ label ∈ q.labels, encode (lossy label) = label ∧ '.' ∉ lossy label) →
      ((nameLabels (q.name ⟨t.toLowercase⟩)).map (List.map asciiLower) = q.labels.map (List.map asciiLower) ↔
        ∀ label ∈ q.labels, ∀ c ∈ lossy label, 128 ≤ c.toNat → t.Unchanged c) := by
    intro hText
    have hBack : (q.labels.map lossy).map encode = q.labels := by
      rw [List.map_map]
      exact (List.map_congr_left fun label hMem => (hText label hMem).1).trans (List.map_id _)
    have hTexts : ∀ text ∈ q.labels.map lossy, IsLabel (encode text) ∧ '.' ∉ text := by
      rw [List.forall_mem_map]
      intro label hMem
      rw [(hText label hMem).1]
      exact ⟨q.isLabel label hMem, (hText label hMem).2⟩
    have hNonempty : ∀ text ∈ q.labels.map lossy, text ≠ [] ∧ '.' ∉ text := by
      rw [List.forall_mem_map]
      intro label hMem
      exact ⟨lossy_ne_nil (List.length_pos_iff.mp (q.isLabel label hMem).1), (hText label hMem).2⟩
    have hMain := nameLabels_echo_iff hLawful hTexts (List.map_eq_nil_iff.not.mpr hSome)
    rw [hBack, List.forall_mem_map] at hMain
    unfold Question.name
    rw [q.text_eq, trimEndDots_intercalate hNonempty]
    exact hMain
  rw [hEcho]
  constructor
  · intro hSame label hMem
    have hText := text_of_echo hSame
    exact plainLabel_iff.mpr ⟨hText label hMem, (hIff hText).mp hSame label hMem⟩
  · intro hPlain
    have hText : ∀ label ∈ q.labels, encode (lossy label) = label ∧ '.' ∉ lossy label := fun label hMem =>
      (plainLabel_iff.mp (hPlain label hMem)).1
    exact (hIff hText).mpr fun label hMem => (plainLabel_iff.mp (hPlain label hMem)).2

/-- `sample_query` -/
def sampleQuery (labels : List Bytes) (isLabel : ∀ label ∈ labels, IsLabel label) : Question where
  id := 0x1234
  flags := 0x0100
  counts := [0, 0, 0, 0, 0, 0]
  labels := labels
  qtype := 1
  qclass := 1
  rest := []
  id_lt := by decide
  flags_lt := by decide
  counts_length := rfl
  isLabel := isLabel
  qtype_lt := by decide
  qclass_lt := by decide

/-- `nas.office` -/
def nasQuery : Question := sampleQuery [[0x6E, 0x61, 0x73], [0x6F, 0x66, 0x66, 0x69, 0x63, 0x65]] (by decide)

theorem question_echo_nas :
    (nasQuery.flags < 0x8000 ∧ nasQuery.name ⟨CaseTables.ascii.toLowercase⟩ ≠ "") ∧
      ((∃ resp, handleQuery ⟨CaseTables.ascii.toLowercase⟩ (fun _ => some "10.13.13.9") nasQuery.bytes = some resp ∧
          Echoes nasQuery resp) ↔
        ∀ label ∈ nasQuery.labels, PlainLabel CaseTables.ascii label) := by
  have hQuery : nasQuery.flags < 0x8000 := by decide
  have hName : nasQuery.name ⟨CaseTables.ascii.toLowercase⟩ ≠ "" := by decide +kernel
  exact ⟨⟨hQuery, hName⟩, question_echo_iff CaseTables.lawful_ascii _ hQuery hName⟩

/-- One label, `a.b`. -/
def dottedQuery : Question := sampleQuery [[0x61, 0x2E, 0x62]] (by decide)

/-- The answer asks for `a` and `b`. -/
theorem dotted_not_echoed :
    CaseTables.ascii.Lawful ∧ dottedQuery.flags < 0x8000 ∧
      dottedQuery.name ⟨CaseTables.ascii.toLowercase⟩ ≠ "" ∧
        ¬ ∃ resp, handleQuery ⟨CaseTables.ascii.toLowercase⟩ (fun _ => some "10.13.13.9") dottedQuery.bytes =
            some resp ∧ Echoes dottedQuery resp := by
  have hQuery : dottedQuery.flags < 0x8000 := by decide
  have hName : dottedQuery.name ⟨CaseTables.ascii.toLowercase⟩ ≠ "" := by decide +kernel
  refine ⟨CaseTables.lawful_ascii, hQuery, hName, ?_⟩
  rintro ⟨resp, hResp, q, rfl, _, _, hLabels⟩
  obtain ⟨q', hAnswer, _, _, hWritten⟩ :=
    handleQuery_bytes ⟨CaseTables.ascii.toLowercase⟩ (fun _ => some "10.13.13.9") hQuery hName
  have hSame := q.labels_of_bytes (Option.some.inj (hResp.symm.trans hAnswer))
  have hTwo : (nameLabels (dottedQuery.name ⟨CaseTables.ascii.toLowercase⟩)).length = 2 := by decide +kernel
  have hLength := congrArg List.length hLabels
  rw [List.length_map, List.length_map, hSame, hWritten, hTwo] at hLength
  exact absurd hLength (by decide)

end LinkMesh
