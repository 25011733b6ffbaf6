import Mathlib.Data.List.DropRight
import LinkMesh.Basis.Utf8
import LinkMesh.Client.Names

/-!
# DNS queries

`parse_query` (`linkmesh-client/src/dns.rs`): a cursor over the bytes of a
datagram, whatever they are. Each access to a byte says whether it is in bounds,
and the loop over the labels is given a number of rounds.

* `parse_query_accepts` — no access is out of bounds, the loop ends, and the
  messages accepted are those of the grammar.
-/

namespace LinkMesh

open Layout

/-- How parsing ends without a query. -/
inductive Stop where
  /-- `None` -/
  | rejected
  /-- an index out of bounds -/
  | panicked
  /-- the loop goes on after its rounds -/
  | endless
  deriving DecidableEq, Repr

-- ---------------------------------------------------------------------------
-- Access to a datagram
-- ---------------------------------------------------------------------------

/-- `pkt[i]` -/
def byteAt (pkt : Bytes) (i : Nat) : Except Stop UInt8 :=
  match pkt[i]? with
  | some b => .ok b
  | none => .error .panicked

/-- `&pkt[i..j]` -/
def slice (pkt : Bytes) (i j : Nat) : Except Stop Bytes :=
  if i ≤ j ∧ j ≤ pkt.length then .ok ((pkt.drop i).take (j - i)) else .error .panicked

/-- `u16::from_be_bytes([pkt[i], pkt[i + 1]])` -/
def u16At (pkt : Bytes) (i : Nat) : Except Stop Nat := do
  let high ← byteAt pkt i
  let low ← byteAt pkt (i + 1)
  return beValue [high, low]

-- ---------------------------------------------------------------------------
-- The parser
-- ---------------------------------------------------------------------------

/-- A label is appended to the name. -/
def appendLabel (name : List Char) (label : Bytes) : List Char :=
  (if name = [] then name else name ++ ['.']) ++ Utf8.lossy label

/-- The loop over the labels, for some rounds: where it ends, and the name. -/
def readLabels (pkt : Bytes) : Nat → Nat → List Char → Except Stop (Nat × List Char)
  | 0, _, _ => .error .endless
  | rounds + 1, pos, name =>
    if pkt.length ≤ pos then .error .rejected
    else do
      let len := (← byteAt pkt pos).toNat
      let pos := pos + 1
      if len = 0 then return (pos, name)
      if 63 < len ∨ pkt.length < pos + len then .error .rejected
      else
        let label ← slice pkt pos (pos + len)
        readLabels pkt rounds (pos + len) (appendLabel name label)

/-- `name.trim_end_matches('.')` -/
def trimEndDots (name : List Char) : List Char := name.rdropWhile (· = '.')

/-- The transaction id, the name and the type. -/
def parseQueryWith (env : NameEnv) (rounds : Nat) (pkt : Bytes) : Except Stop (Nat × String × Nat) :=
  if pkt.length < 12 then .error .rejected
  else do
    let txid ← u16At pkt 0
    let flags ← u16At pkt 2
    if flags &&& 0x8000 ≠ 0 then .error .rejected
    else
      let qdcount ← u16At pkt 4
      if qdcount ≠ 1 then .error .rejected
      else
        let (pos, name) ← readLabels pkt rounds 12 []
        if pkt.length < pos + 4 then .error .rejected
        else
          let qtype ← u16At pkt pos
          return (txid, env.toLowercase (String.ofList (trimEndDots name)), qtype)

/-- `parse_query`; the labels are fewer than the bytes. -/
def parseQuery (env : NameEnv) (pkt : Bytes) : Except Stop (Nat × String × Nat) :=
  parseQueryWith env pkt.length pkt

-- ---------------------------------------------------------------------------
-- The grammar
-- ---------------------------------------------------------------------------

/-- A label of 1 to 63 bytes. -/
def IsLabel (label : Bytes) : Prop := 0 < label.length ∧ label.length ≤ 63

instance (label : Bytes) : Decidable (IsLabel label) := inferInstanceAs (Decidable (_ ∧ _))

def encodeLabel (label : Bytes) : Bytes := UInt8.ofNat label.length :: label

/-- Labels with their lengths, and the empty one. -/
def encodeLabels (labels : List Bytes) : Bytes := labels.flatMap encodeLabel ++ [0]

theorem encodeLabels_cons (label : Bytes) (labels : List Bytes) :
    encodeLabels (label :: labels) = UInt8.ofNat label.length :: (label ++ encodeLabels labels) := by
  unfold encodeLabels
  rw [List.flatMap_cons, encodeLabel, List.append_assoc, List.cons_append]

theorem length_lt_encodeLabels (labels : List Bytes) : labels.length < (encodeLabels labels).length := by
  induction labels with
  | nil => exact Nat.one_pos
  | cons label labels ih =>
    rw [encodeLabels_cons, List.length_cons, List.length_cons, List.length_append]
    omega

theorem ofNat_length_ne_zero {label : Bytes} (h : IsLabel label) : UInt8.ofNat label.length ≠ 0 := by
  intro hZero
  obtain ⟨hPos, hShort⟩ := h
  have hNat := congrArg UInt8.toNat hZero
  rw [UInt8.toNat_ofNat', Nat.mod_eq_of_lt (by omega), UInt8.toNat_zero] at hNat
  omega

/-- What begins with labels has them as its first labels. -/
theorem labels_of_append {labels labels' : List Bytes} {xs ys : Bytes} (h : ∀ label ∈ labels, IsLabel label)
    (h' : ∀ label ∈ labels', IsLabel label) (hEq : labels.flatMap encodeLabel ++ xs = encodeLabels labels' ++ ys) :
    ∃ more, labels' = labels ++ more ∧ xs = encodeLabels more ++ ys := by
  induction labels generalizing labels' with
  | nil => exact ⟨labels', rfl, hEq⟩
  | cons label labels ih =>
    rw [List.forall_mem_cons] at h
    rw [List.flatMap_cons, encodeLabel, List.cons_append, List.cons_append, List.append_assoc] at hEq
    cases labels' with
    | nil => exact absurd (List.cons.inj hEq).1 (ofNat_length_ne_zero h.1)
    | cons label' labels' =>
      rw [List.forall_mem_cons] at h'
      rw [encodeLabels_cons, List.cons_append, List.append_assoc] at hEq
      obtain ⟨hByte, hRest⟩ := List.cons.inj hEq
      have hLength : label.length = label'.length := by
        have hShort := h.1.2
        have hShort' := h'.1.2
        have hNat := congrArg UInt8.toNat hByte
        rw [UInt8.toNat_ofNat', UInt8.toNat_ofNat', Nat.mod_eq_of_lt (by omega), Nat.mod_eq_of_lt (by omega)] at hNat
        exact hNat
      obtain ⟨rfl, hTail⟩ := List.append_inj hRest hLength
      obtain ⟨more, rfl, hMore⟩ := ih h.2 h'.2 hTail
      exact ⟨more, rfl, hMore⟩

theorem encodeLabels_append_inj {labels labels' : List Bytes} {xs ys : Bytes} (h : ∀ label ∈ labels, IsLabel label)
    (h' : ∀ label ∈ labels', IsLabel label) (hEq : encodeLabels labels ++ xs = encodeLabels labels' ++ ys) :
    labels = labels' ∧ xs = ys := by
  have hSplit : labels.flatMap encodeLabel ++ (0 :: xs) = encodeLabels labels' ++ ys := by
    rw [← hEq, encodeLabels, List.append_assoc]
    rfl
  obtain ⟨more, rfl, hMore⟩ := labels_of_append h h' hSplit
  cases more with
  | nil => exact ⟨(List.append_nil labels).symm, (List.cons.inj hMore).2⟩
  | cons label more =>
    rw [encodeLabels_cons, List.cons_append] at hMore
    exact absurd (List.cons.inj hMore).1.symm (ofNat_length_ne_zero (h' label (by simp)))

/-- A message with one question. -/
structure Question where
  id : Nat
  flags : Nat
  /-- the other three counts -/
  counts : Bytes
  labels : List Bytes
  qtype : Nat
  qclass : Nat
  /-- what follows the question -/
  rest : Bytes
  id_lt : id < 256 ^ 2
  flags_lt : flags < 256 ^ 2
  counts_length : counts.length = 6
  isLabel : ∀ label ∈ labels, IsLabel label
  qtype_lt : qtype < 256 ^ 2
  qclass_lt : qclass < 256 ^ 2

namespace Question

def header (q : Question) : Bytes := beBytes 2 q.id ++ beBytes 2 q.flags ++ beBytes 2 1 ++ q.counts

def bytes (q : Question) : Bytes :=
  q.header ++ (encodeLabels q.labels ++ (beBytes 2 q.qtype ++ (beBytes 2 q.qclass ++ q.rest)))

/-- The labels as one text, as the parser joins them. -/
def text (q : Question) : List Char := q.labels.foldl appendLabel []

/-- The name that is asked for. -/
def name (env : NameEnv) (q : Question) : String := env.toLowercase (String.ofList (trimEndDots q.text))

end Question

-- ---------------------------------------------------------------------------
-- The bytes under the cursor
-- ---------------------------------------------------------------------------

section

variable {pkt rest xs ys : Bytes} {b : UInt8} {i v : Nat}

theorem lt_of_drop_cons (h : pkt.drop i = b :: rest) : i < pkt.length := by
  have hLength := congrArg List.length h
  rw [List.length_drop, List.length_cons] at hLength
  omega

theorem drop_add_of_append (h : pkt.drop i = xs ++ ys) : pkt.drop (i + xs.length) = ys := by
  rw [← List.drop_drop, h, List.drop_left]

theorem byteAt_of_drop (h : pkt.drop i = b :: rest) : byteAt pkt i = .ok b := by
  have hSome : pkt[i]? = some b := by rw [← List.head?_drop, h, List.head?_cons]
  unfold byteAt
  rw [hSome]

theorem slice_of_drop (hLe : i ≤ pkt.length) (h : pkt.drop i = xs ++ ys) :
    slice pkt i (i + xs.length) = .ok xs := by
  have hLength := congrArg List.length h
  rw [List.length_drop, List.length_append] at hLength
  unfold slice
  rw [if_pos ⟨Nat.le_add_right _ _, by omega⟩, h, Nat.add_sub_cancel_left, List.take_left]

theorem beBytes_two (v : Nat) : beBytes 2 v = [UInt8.ofNat (v / 256 % 256), UInt8.ofNat (v % 256)] := rfl

theorem u16At_of_drop (hv : v < 256 ^ 2) (h : pkt.drop i = beBytes 2 v ++ rest) : u16At pkt i = .ok v := by
  have hValue := beValue_beBytes hv
  rw [beBytes_two] at h hValue
  have hLow : pkt.drop (i + 1) = UInt8.ofNat (v % 256) :: rest := by
    rw [← List.drop_drop, h]
    rfl
  unfold u16At
  rw [byteAt_of_drop h, byteAt_of_drop hLow]
  exact congrArg Except.ok hValue

/-- Two bytes in bounds are a number. -/
theorem exists_u16 (pkt : Bytes) (i : Nat) (h : i + 2 ≤ pkt.length) :
    ∃ v, v < 256 ^ 2 ∧ pkt.drop i = beBytes 2 v ++ pkt.drop (i + 2) := by
  have hLength : ((pkt.drop i).take 2).length = 2 := by
    rw [List.length_take, List.length_drop]
    omega
  have hValue := beBytes_beValue ((pkt.drop i).take 2)
  have hLt := beValue_lt ((pkt.drop i).take 2)
  rw [hLength] at hValue hLt
  refine ⟨_, hLt, ?_⟩
  rw [hValue, ← List.drop_drop, List.take_append_drop]

end

theorem and_sign_eq_zero_iff {flags : Nat} (h : flags < 256 ^ 2) : flags &&& 0x8000 = 0 ↔ flags < 0x8000 := by
  have hBit := Nat.and_two_pow flags 15
  rw [Nat.testBit_eq_decide_div_mod_eq] at hBit
  rw [show 0x8000 = 2 ^ 15 from rfl, hBit]
  by_cases hSign : flags / 2 ^ 15 % 2 = 1
  · rw [decide_eq_true hSign, Bool.toNat_true]
    omega
  · rw [decide_eq_false hSign, Bool.toNat_false]
    omega

-- ---------------------------------------------------------------------------
-- The loop
-- ---------------------------------------------------------------------------

section

variable {pkt rest : Bytes} {pos rounds : Nat} {labels : List Bytes} {b : UInt8}

/-- A round that does not meet the empty label. -/
theorem readLabels_step (h : pkt.drop pos = b :: rest) (hb : b.toNat ≠ 0) (rounds : Nat) (name : List Char) :
    readLabels pkt (rounds + 1) pos name =
      if 63 < b.toNat ∨ pkt.length < pos + 1 + b.toNat then .error .rejected
      else
        slice pkt (pos + 1) (pos + 1 + b.toNat) >>= fun label =>
          readLabels pkt rounds (pos + 1 + b.toNat) (appendLabel name label) := by
  conv_lhs => unfold readLabels
  rw [if_neg (Nat.not_le.mpr (lt_of_drop_cons h)), byteAt_of_drop h]
  show (if b.toNat = 0 then _ else _) = _
  rw [if_neg hb]

/-- Labels are read up to the empty one. -/
theorem readLabels_encode (hLabels : ∀ label ∈ labels, IsLabel label) (hRounds : labels.length < rounds)
    (h : pkt.drop pos = encodeLabels labels ++ rest) (name : List Char) :
    readLabels pkt rounds pos name = .ok (pos + (encodeLabels labels).length, labels.foldl appendLabel name) := by
  induction labels generalizing rounds pos name with
  | nil =>
    cases rounds with
    | zero => cases hRounds
    | succ rounds =>
      have hIn := lt_of_drop_cons h
      unfold readLabels
      rw [if_neg (by omega), byteAt_of_drop h]
      rfl
  | cons label labels ih =>
    rw [List.forall_mem_cons] at hLabels
    obtain ⟨⟨hPos, hShort⟩, hRest⟩ := hLabels
    cases rounds with
    | zero => cases hRounds
    | succ rounds =>
      rw [encodeLabels_cons, List.cons_append, List.append_assoc] at h
      have hLen : (UInt8.ofNat label.length).toNat = label.length := by
        rw [UInt8.toNat_ofNat', Nat.mod_eq_of_lt (by omega)]
      have hLabel : pkt.drop (pos + 1) = label ++ (encodeLabels labels ++ rest) := by
        rw [← List.drop_drop, h]
        rfl
      have hBound : pos + 1 + label.length ≤ pkt.length := by
        have hLength := congrArg List.length hLabel
        rw [List.length_drop, List.length_append] at hLength
        omega
      have hTail := ih hRest (Nat.lt_of_succ_lt_succ hRounds) (drop_add_of_append hLabel) (appendLabel name label)
      rw [readLabels_step h (by omega), hLen, if_neg (by omega), slice_of_drop (by omega) hLabel]
      refine hTail.trans ?_
      rw [encodeLabels_cons, List.length_cons, List.length_append, List.foldl_cons]
      congr 2
      omega

/-- Whatever the bytes are, the cursor stays among them, each round takes one of
them at least, and the loop either meets the end of the labels or rejects. -/
theorem readLabels_cases (hPos : pos ≤ pkt.length) (hRounds : pkt.length < rounds + pos) (name : List Char) :
    readLabels pkt rounds pos name = .error .rejected ∨
      ∃ labels rest, (∀ label ∈ labels, IsLabel label) ∧ pkt.drop pos = encodeLabels labels ++ rest := by
  induction rounds generalizing pos name with
  | zero => omega
  | succ rounds ih =>
    by_cases hEnd : pkt.length ≤ pos
    · left
      unfold readLabels
      rw [if_pos hEnd]
    · obtain ⟨b, bs, hDrop⟩ : ∃ b bs, pkt.drop pos = b :: bs :=
        List.exists_cons_of_ne_nil (List.drop_eq_nil_iff.not.mpr hEnd)
      by_cases hZero : b.toNat = 0
      · -- the empty label
        right
        refine ⟨[], bs, List.forall_mem_nil _, ?_⟩
        rw [hDrop, UInt8.toNat_inj.mp (hZero.trans UInt8.toNat_zero.symm)]
        rfl
      · have hRead := readLabels_step hDrop hZero rounds name
        by_cases hLong : 63 < b.toNat ∨ pkt.length < pos + 1 + b.toNat
        · left
          rw [hRead, if_pos hLong]
        · have hNext : pkt.drop (pos + 1) = bs := by
            rw [← List.drop_drop, hDrop]
            rfl
          have hLength : (bs.take b.toNat).length = b.toNat := by
            rw [List.length_take, ← hNext, List.length_drop]
            omega
          have hLabel : pkt.drop (pos + 1) = bs.take b.toNat ++ bs.drop b.toNat := by
            rw [hNext, List.take_append_drop]
          have hSlice := slice_of_drop (by omega) hLabel
          rw [hLength] at hSlice
          rw [if_neg hLong, hSlice] at hRead
          have hTail := ih (show pos + 1 + b.toNat ≤ pkt.length by omega) (by omega)
            (appendLabel name (bs.take b.toNat))
          rcases hTail with hRejected | ⟨labels, rest, hLabels, hMore⟩
          · left
            rw [hRead]
            exact hRejected
          · right
            have hAfter := drop_add_of_append hLabel
            rw [hLength, hMore] at hAfter
            refine ⟨bs.take b.toNat :: labels, rest, ?_, ?_⟩
            · rw [List.forall_mem_cons]
              exact ⟨⟨by omega, by omega⟩, hLabels⟩
            · rw [encodeLabels_cons, hLength, UInt8.ofNat_toNat, List.cons_append, List.append_assoc, hAfter,
                List.take_append_drop, hDrop]

end

-- ---------------------------------------------------------------------------
-- Messages
-- ---------------------------------------------------------------------------

namespace Question

variable (q : Question)

theorem length_header : q.header.length = 12 := by
  unfold header
  rw [List.length_append, List.length_append, List.length_append, beBytes_length, beBytes_length, beBytes_length,
    q.counts_length]

theorem drop_header :
    q.bytes.drop 12 = encodeLabels q.labels ++ (beBytes 2 q.qtype ++ (beBytes 2 q.qclass ++ q.rest)) :=
  List.drop_left' q.length_header

/-- The first six bytes: id, flags, and one question. -/
theorem bytes_eq : ∃ more, q.bytes = beBytes 2 q.id ++ (beBytes 2 q.flags ++ (beBytes 2 1 ++ more)) := by
  unfold bytes header
  exact ⟨_, by simp only [List.append_assoc]; rfl⟩

theorem length_bytes : q.bytes.length = 12 + (encodeLabels q.labels).length + 4 + q.rest.length := by
  unfold bytes
  rw [List.length_append, q.length_header, List.length_append, List.length_append, List.length_append, beBytes_length,
    beBytes_length]
  omega

theorem length_labels_lt : q.labels.length < q.bytes.length := by
  have hLt := length_lt_encodeLabels q.labels
  rw [q.length_bytes]
  omega

/-- A message has one list of labels. -/
theorem labels_of_bytes {q' : Question} (h : q.bytes = q'.bytes) : q.labels = q'.labels := by
  have hDrop := congrArg (List.drop 12) h
  rw [q.drop_header, q'.drop_header] at hDrop
  exact (encodeLabels_append_inj q.isLabel q'.isLabel hDrop).1

end Question

variable (env : NameEnv)

theorem parseQueryWith_header {pkt : Bytes} {txid flags qdcount : Nat} (hLength : 12 ≤ pkt.length)
    (hId : u16At pkt 0 = .ok txid) (hFlags : u16At pkt 2 = .ok flags) (hCount : u16At pkt 4 = .ok qdcount)
    (rounds : Nat) :
    parseQueryWith env rounds pkt =
      if flags &&& 0x8000 ≠ 0 then .error .rejected
      else if qdcount ≠ 1 then .error .rejected
      else
        readLabels pkt rounds 12 [] >>= fun (pos, name) =>
          if pkt.length < pos + 4 then .error .rejected
          else
            u16At pkt pos >>= fun qtype =>
              .ok (txid, env.toLowercase (String.ofList (trimEndDots name)), qtype) := by
  unfold parseQueryWith
  rw [if_neg (Nat.not_lt.mpr hLength), hId, hFlags, hCount]
  rfl

/-- A query of the grammar is accepted, with its name. -/
theorem parseQueryWith_bytes {rounds : Nat} (q : Question) (hQuery : q.flags < 0x8000)
    (hRounds : q.labels.length < rounds) : parseQueryWith env rounds q.bytes = .ok (q.id, q.name env, q.qtype) := by
  obtain ⟨more, hBytes⟩ := q.bytes_eq
  have hId : u16At q.bytes 0 = .ok q.id := u16At_of_drop q.id_lt hBytes
  have hFlags : q.bytes.drop 2 = beBytes 2 q.flags ++ (beBytes 2 1 ++ more) := by
    rw [hBytes, List.drop_left' (beBytes_length 2 _)]
  have hCount : q.bytes.drop 4 = beBytes 2 1 ++ more := by
    rw [← List.drop_drop (i := 2) (j := 2), hFlags, List.drop_left' (beBytes_length 2 _)]
  have hName := readLabels_encode q.isLabel hRounds q.drop_header []
  have hType := drop_add_of_append q.drop_header
  have hLength := q.length_bytes
  rw [parseQueryWith_header env (by omega) hId (u16At_of_drop q.flags_lt hFlags) (u16At_of_drop (by decide) hCount),
    if_neg (not_not.mpr ((and_sign_eq_zero_iff q.flags_lt).mpr hQuery)), if_neg (not_not.mpr rfl), hName]
  show (if q.bytes.length < 12 + (encodeLabels q.labels).length + 4 then _ else _) = _
  rw [if_neg (by omega), u16At_of_drop q.qtype_lt hType]
  rfl

theorem parseQuery_bytes (q : Question) (hQuery : q.flags < 0x8000) :
    parseQuery env q.bytes = .ok (q.id, q.name env, q.qtype) :=
  parseQueryWith_bytes env q hQuery q.length_labels_lt

/-- Anything else is rejected. -/
theorem parseQueryWith_cases (rounds : Nat) (pkt : Bytes) (hRounds : pkt.length < rounds + 12) :
    parseQueryWith env rounds pkt = .error .rejected ∨ ∃ q : Question, q.flags < 0x8000 ∧ pkt = q.bytes := by
  by_cases hShort : pkt.length < 12
  · left
    unfold parseQueryWith
    rw [if_pos hShort]
  obtain ⟨txid, hId, hIdBytes⟩ := exists_u16 pkt 0 (by omega)
  obtain ⟨flags, hFlags, hFlagsBytes⟩ := exists_u16 pkt 2 (by omega)
  obtain ⟨qdcount, hCount, hCountBytes⟩ := exists_u16 pkt 4 (by omega)
  have hParse := parseQueryWith_header env (Nat.not_lt.mp hShort) (u16At_of_drop hId hIdBytes)
    (u16At_of_drop hFlags hFlagsBytes) (u16At_of_drop hCount hCountBytes) rounds
  by_cases hSign : flags &&& 0x8000 ≠ 0
  · left
    rw [hParse, if_pos hSign]
  by_cases hOne : qdcount ≠ 1
  · left
    rw [hParse, if_neg hSign, if_pos hOne]
  rw [if_neg hSign, if_neg hOne] at hParse
  rcases readLabels_cases (by omega) hRounds [] with hRejected | ⟨labels, rest, hLabels, hMore⟩
  · left
    rw [hParse, hRejected]
    rfl
  have hFew : labels.length < rounds := by
    have hLength := congrArg List.length hMore
    rw [List.length_drop, List.length_append] at hLength
    have hLt := length_lt_encodeLabels labels
    omega
  rw [readLabels_encode hLabels hFew hMore] at hParse
  have hAfter := drop_add_of_append hMore
  by_cases hCut : pkt.length < 12 + (encodeLabels labels).length + 4
  · left
    rw [hParse]
    exact if_pos hCut
  · right
    obtain ⟨qtype, hType, hTypeBytes⟩ := exists_u16 pkt (12 + (encodeLabels labels).length) (by omega)
    obtain ⟨qclass, hClass, hClassBytes⟩ :=
      exists_u16 pkt (12 + (encodeLabels labels).length + 2) (by omega)
    have hCounts : ((pkt.drop 6).take 6).length = 6 := by
      rw [List.length_take, List.length_drop]
      omega
    refine ⟨{ id := txid, flags := flags, counts := (pkt.drop 6).take 6, labels := labels, qtype := qtype,
              qclass := qclass, rest := pkt.drop (12 + (encodeLabels labels).length + 2 + 2), id_lt := hId,
              flags_lt := hFlags, counts_length := hCounts, isLabel := hLabels, qtype_lt := hType,
              qclass_lt := hClass }, ?_, ?_⟩
    · exact (and_sign_eq_zero_iff hFlags).mp (not_not.mp hSign)
    · have hSix : pkt.drop 6 = (pkt.drop 6).take 6 ++ pkt.drop 12 := by
        rw [← List.drop_drop (i := 6) (j := 6), List.take_append_drop]
      rw [not_not] at hOne
      unfold Question.bytes Question.header
      simp only [List.append_assoc]
      rw [← hClassBytes, ← hTypeBytes, hAfter, ← hMore, ← hSix, ← hOne, ← hCountBytes, ← hFlagsBytes, ← hIdBytes,
        List.drop_zero]

theorem parseQuery_cases (pkt : Bytes) :
    parseQuery env pkt = .error .rejected ∨ ∃ q : Question, q.flags < 0x8000 ∧ pkt = q.bytes :=
  parseQueryWith_cases env pkt.length pkt (by omega)

/-- A length byte above 63, as the first of a compression pointer. -/
theorem parseQuery_pointer {pkt rest : Bytes} {labels : List Bytes} {b : UInt8}
    (hLabels : ∀ label ∈ labels, IsLabel label) (h : pkt.drop 12 = labels.flatMap encodeLabel ++ b :: rest)
    (hb : 63 < b.toNat) : parseQuery env pkt = .error .rejected := by
  rcases parseQuery_cases env pkt with hRejected | ⟨q, _, rfl⟩
  · exact hRejected
  · exfalso
    rw [q.drop_header] at h
    obtain ⟨more, hMore, hByte⟩ := labels_of_append hLabels q.isLabel h.symm
    cases more with
    | nil =>
      rw [(List.cons.inj hByte).1] at hb
      exact absurd hb (by decide)
    | cons label more =>
      rw [encodeLabels_cons, List.cons_append] at hByte
      have hShort := (q.isLabel label (by rw [hMore]; simp)).2
      rw [(List.cons.inj hByte).1, UInt8.toNat_ofNat', Nat.mod_eq_of_lt (by omega)] at hb
      omega

/-- A message that is cut before the end of its question. -/
theorem parseQuery_take (q : Question) {n : Nat} (hn : n < 12 + (encodeLabels q.labels).length + 4) :
    parseQuery env (q.bytes.take n) = .error .rejected := by
  rcases parseQuery_cases env (q.bytes.take n) with hRejected | ⟨q', _, hCut⟩
  · exact hRejected
  · exfalso
    have hWhole : q'.bytes ++ q.bytes.drop n = q.bytes := by rw [← hCut, List.take_append_drop]
    have hLength := congrArg List.length hCut
    rw [List.length_take, q'.length_bytes] at hLength
    have hDrop := congrArg (List.drop 12) hWhole
    rw [List.drop_append_of_le_length (by rw [q'.length_bytes]; omega), q'.drop_header, q.drop_header,
      List.append_assoc] at hDrop
    obtain ⟨hSame, _⟩ := encodeLabels_append_inj q'.isLabel q.isLabel hDrop
    rw [hSame] at hLength
    omega

/-- What is accepted is a query of the grammar. -/
theorem parseQuery_ok_iff {pkt : Bytes} {r : Nat × String × Nat} :
    parseQuery env pkt = .ok r ↔
      ∃ q : Question, q.flags < 0x8000 ∧ pkt = q.bytes ∧ r = (q.id, q.name env, q.qtype) := by
  constructor
  · intro h
    rcases parseQuery_cases env pkt with hRejected | ⟨q, hQuery, rfl⟩
    · exact nomatch h.symm.trans hRejected
    · exact ⟨q, hQuery, rfl, Except.ok.inj (h.symm.trans (parseQuery_bytes env q hQuery))⟩
  · rintro ⟨q, hQuery, rfl, rfl⟩
    exact parseQuery_bytes env q hQuery

/-- More rounds change nothing. -/
theorem parseQueryWith_more (pkt : Bytes) (n : Nat) :
    parseQueryWith env (pkt.length + n) pkt = parseQuery env pkt := by
  rcases parseQueryWith_cases env (pkt.length + n) pkt (by omega) with hRejected | ⟨q, hQuery, rfl⟩
  · rcases parseQuery_cases env pkt with hSame | ⟨q, hQuery, rfl⟩
    · exact hRejected.trans hSame.symm
    · have hParse := parseQueryWith_bytes env q hQuery (Nat.lt_add_right n q.length_labels_lt)
      exact nomatch hParse.symm.trans hRejected
  · rw [parseQuery_bytes env q hQuery]
    exact parseQueryWith_bytes env q hQuery (Nat.lt_add_right n q.length_labels_lt)

/-- `parse_query` is safe on any datagram: the loop ends, however many rounds it
is given, each index is in bounds, and what is accepted is a query with one
question whose labels, type and class are there, and is read as such. Pointers
and messages that are cut are rejected. -/
theorem parse_query_accepts (pkt : Bytes) :
    (∀ n, parseQueryWith env (pkt.length + n) pkt = parseQuery env pkt) ∧
      parseQuery env pkt ≠ .error .endless ∧ parseQuery env pkt ≠ .error .panicked ∧
        (∀ r, parseQuery env pkt = .ok r ↔
          ∃ q : Question, q.flags < 0x8000 ∧ pkt = q.bytes ∧ r = (q.id, q.name env, q.qtype)) ∧
        (∀ (labels : List Bytes) b rest, (∀ label ∈ labels, IsLabel label) →
          pkt.drop 12 = labels.flatMap encodeLabel ++ b :: rest → 63 < b.toNat →
            parseQuery env pkt = .error .rejected) ∧
        ∀ q : Question, pkt = q.bytes → ∀ n < 12 + (encodeLabels q.labels).length + 4,
          parseQuery env (pkt.take n) = .error .rejected := by
  have hTotal : parseQuery env pkt ≠ .error .endless ∧ parseQuery env pkt ≠ .error .panicked := by
    rcases parseQuery_cases env pkt with hRejected | ⟨q, hQuery, rfl⟩
    · rw [hRejected]
      exact ⟨nofun, nofun⟩
    · rw [parseQuery_bytes env q hQuery]
      exact ⟨nofun, nofun⟩
  refine ⟨parseQueryWith_more env pkt, hTotal.1, hTotal.2, fun _ => parseQuery_ok_iff env,
    fun _ _ _ => parseQuery_pointer env, ?_⟩
  rintro q rfl n hn
  exact parseQuery_take env q hn

example :
    parseQuery ⟨id⟩ [0x12, 0x34, 1, 0, 0, 1, 0, 0, 0, 0, 0, 0, 1, 0x78, 2, 0x79, 0x7A, 0, 0, 28, 0, 1] =
      .ok (0x1234, "x.yz", 28) := by decide +kernel

end LinkMesh
