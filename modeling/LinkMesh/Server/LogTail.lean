import LinkMesh.Basis.Utf8
import LinkMesh.Server.LogLimiter
import LinkMesh.Wire.Text

/-!
# Reading the log back

`Logger` writes a record as one line, and `tail` (`linkmesh-server/src/log.rs`, and
the same in the client's) reads the last 64 KiB of the file as UTF-8 and shows the
last lines of these. The first line that it reads may be the end of a record that
the 64 KiB cut; then the bytes that are left of a character show as U+FFFD.

## Results

* `lossy_tail`     — what is read is the end of a record, or none, and then records.
* `tail_whole_iff` — the lines shown are the last of the records that lie in the
  last 64 KiB, exactly when no more are asked for or none is cut.
-/

namespace LinkMesh

variable {l cs front back : List Char}

-- ---------------------------------------------------------------------------
-- Lines of a text
-- ---------------------------------------------------------------------------

/-- A line without the carriage return before its end. -/
def chopCr (line : List Char) : List Char := if line.getLast? = some '\r' then line.dropLast else line

/-- The lines of a text behind the beginning of a line. -/
def linesFrom (line : List Char) : List Char → List (List Char)
  | [] => if line = [] then [] else [line]
  | c :: cs => if c = '\n' then chopCr line :: linesFrom [] cs else linesFrom (line ++ [c]) cs

/-- `str::lines` -/
def strLines (cs : List Char) : List (List Char) := linesFrom [] cs

theorem chopCr_eq (h : '\r' ∉ l) : chopCr l = l := by
  refine if_neg fun hLast => ?_
  exact h (List.mem_of_getLast? hLast)

theorem linesFrom_line (h : '\n' ∉ front) :
    linesFrom l (front ++ '\n' :: back) = chopCr (l ++ front) :: strLines back := by
  induction front generalizing l with
  | nil => rw [List.nil_append, List.append_nil, linesFrom, if_pos rfl, strLines]
  | cons c front ih =>
    rw [List.mem_cons, not_or] at h
    rw [List.cons_append, linesFrom, if_neg (Ne.symm h.1), ih h.2, List.append_assoc, List.singleton_append]

/-- A line that is ended, without control characters. -/
theorem strLines_line (hLine : '\n' ∉ l) (hCr : '\r' ∉ l) : strLines (l ++ '\n' :: cs) = l :: strLines cs := by
  rw [strLines, linesFrom_line hLine, List.nil_append, chopCr_eq hCr]

-- ---------------------------------------------------------------------------
-- The file
-- ---------------------------------------------------------------------------

/-- `Logger::info`, `warn` and `error`; the client's has `debug` as well. -/
inductive LogLevel where
  | info
  | warn
  | debug
  | error
  deriving DecidableEq, Repr

def LogLevel.text : LogLevel → String
  | info => "INFO"
  | warn => "WARN"
  | debug => "DEBUG"
  | error => "ERROR"

/-- A call of the logger, with the time that it reads. -/
structure LogRecord where
  ts : Nat
  level : LogLevel
  msg : String
  deriving DecidableEq, Repr

namespace LogRecord

/-- The line of a record, without its end. -/
def text (r : LogRecord) : String := s!"[{r.ts}] [{r.level.text}] {escapeLog r.msg}"

def line (r : LogRecord) : String := logLine r.ts r.level.text r.msg

theorem line_toList (r : LogRecord) : r.line.toList = r.text.toList ++ ['\n'] := by
  unfold line text logLine
  simp only [String.toList_append, List.append_assoc]
  rfl

theorem printable_of_all {s : String} (h : s.toList.all (fun c => 0x20 ≤ c.toNat) = true) {c : Char}
    (hc : c ∈ s.toList) : 0x20 ≤ c.toNat := of_decide_eq_true (List.all_eq_true.mp h c hc)

/-- There are no control characters in a line, whatever the message is. -/
theorem text_printable {r : LogRecord} {c : Char} (h : c ∈ r.text.toList) : 0x20 ≤ c.toNat := by
  have hDigit : ∀ {n : Nat} {c : Char}, c ∈ (toString n).toList → 0x20 ≤ c.toNat := by
    intro n c hc
    by_contra hLow
    refine Lines.not_mem_toString ?_ n hc
    unfold Char.isDigit
    simp only [Bool.and_eq_false_iff, decide_eq_false_iff_not]
    refine .inl fun hGe => hLow ?_
    have hZero : '0'.toNat ≤ c.toNat := hGe
    exact Nat.le_trans (by decide) hZero
  have hLevel : r.level.text.toList.all (fun c => 0x20 ≤ c.toNat) = true := by
    cases r.level <;> decide +kernel
  unfold text at h
  simp only [String.toList_append, List.mem_append] at h
  rcases h with ((((hOpen | hTs) | hMid) | hLev) | hClose) | hMsg
  · exact printable_of_all (by decide +kernel) hOpen
  · exact hDigit hTs
  · exact printable_of_all (by decide +kernel) hMid
  · exact printable_of_all hLevel hLev
  · exact printable_of_all (by decide +kernel) hClose
  · exact (escapeLog_printable hMsg).1

theorem not_mem_text {r : LogRecord} {c : Char} (h : c.toNat < 0x20) : c ∉ r.text.toList := fun hMem =>
  Nat.not_le.mpr h (text_printable hMem)

end LogRecord

/-- The characters of a log. -/
def logChars (rs : List LogRecord) : List Char := rs.flatMap fun r => r.line.toList

/-- The file after calls of the logger. -/
def logFile (rs : List LogRecord) : Bytes := rs.flatMap fun r => utf8 r.line

/-- How much of the file `tail` reads. -/
def tailBytes : Nat := 64 * 1024

/-- `tail`, where the file can be read. -/
def logTail (file : Bytes) (n : Nat) : List String :=
  let readSize := min file.length tailBytes
  let lines := (strLines (Utf8.lossy (file.drop (file.length - readSize)))).map String.ofList
  if lines.length ≤ n then lines else lines.drop (lines.length - n)

/-- The newest records, as many as lie in what `tail` reads. -/
def newest : List LogRecord → List LogRecord
  | [] => []
  | r :: rs => if (logFile (r :: rs)).length ≤ tailBytes then r :: rs else newest rs

variable {rs older newer : List LogRecord} {r : LogRecord}

theorem logFile_eq (rs : List LogRecord) : logFile rs = Utf8.encode (logChars rs) := by
  unfold logFile logChars Utf8.encode
  rw [List.flatMap_assoc]
  exact List.flatMap_congr fun r _ => utf8_eq_flatMap r.line

theorem logChars_append : logChars (older ++ newer) = logChars older ++ logChars newer := List.flatMap_append

theorem logChars_cons : logChars (r :: rs) = r.text.toList ++ '\n' :: logChars rs := by
  have hHead : logChars (r :: rs) = r.line.toList ++ logChars rs := List.flatMap_cons
  rw [hHead, r.line_toList, List.append_assoc]
  rfl

/-- The lines of a log are its records. -/
theorem strLines_logChars (rs : List LogRecord) : strLines (logChars rs) = rs.map fun r => r.text.toList := by
  induction rs with
  | nil => rfl
  | cons r rs ih =>
    rw [logChars_cons, strLines_line (LogRecord.not_mem_text (by decide)) (LogRecord.not_mem_text (by decide)), ih,
      List.map_cons]

-- ---------------------------------------------------------------------------
-- Where the file is cut
-- ---------------------------------------------------------------------------

/-- A log that is cut is cut between two records or within one. -/
theorem logChars_split (h : logChars rs = front ++ back) :
    (∃ older newer, rs = older ++ newer ∧ front = logChars older ∧ back = logChars newer) ∨
      ∃ (older : List LogRecord) (r : LogRecord) (newer : List LogRecord) (head body : List Char),
        rs = older ++ r :: newer ∧ r.text.toList = head ++ body ∧ head ≠ [] ∧
          front = logChars older ++ head ∧ back = body ++ '\n' :: logChars newer := by
  induction rs generalizing front with
  | nil =>
    obtain ⟨rfl, rfl⟩ := List.append_eq_nil_iff.mp h.symm
    exact .inl ⟨[], [], rfl, rfl, rfl⟩
  | cons r rs ih =>
    by_cases hFront : front = []
    · rw [hFront, List.nil_append] at h
      exact .inl ⟨[], r :: rs, rfl, hFront, h.symm⟩
    rw [logChars_cons] at h
    rcases List.append_eq_append_iff.mp h with ⟨rest, hEq, hRest⟩ | ⟨body, hEq, hBack⟩
    · rcases List.cons_eq_append_iff.mp hRest with ⟨rfl, hTail⟩ | ⟨rest', rfl, hTail⟩
      · -- before the end of the line
        rw [List.append_nil] at hEq
        exact .inr ⟨[], r, rs, r.text.toList, [], rfl, (List.append_nil _).symm, hEq ▸ hFront, hEq, hTail⟩
      · rcases ih hTail with ⟨older, newer, rfl, hOlder, hNewer⟩ |
          ⟨older, s, newer, head, body, rfl, hText, hHead, hOlder, hNewer⟩
        · exact .inl ⟨r :: older, newer, rfl, by rw [hEq, hOlder, logChars_cons], hNewer⟩
        · refine .inr ⟨r :: older, s, newer, head, body, rfl, hText, hHead, ?_, hNewer⟩
          rw [hEq, hOlder, logChars_cons, List.append_assoc, List.cons_append]
    · exact .inr ⟨[], r, rs, front, body, rfl, hEq, hFront, rfl, hBack⟩

theorem logFile_append_length :
    (logFile (older ++ newer)).length = (logFile older).length + (logFile newer).length := by
  have hSplit : logFile (older ++ newer) = logFile older ++ logFile newer := List.flatMap_append
  rw [hSplit, List.length_append]

theorem encode_length_append : (Utf8.encode (front ++ back)).length =
    (Utf8.encode front).length + (Utf8.encode back).length := by
  have hSplit : Utf8.encode (front ++ back) = Utf8.encode front ++ Utf8.encode back := List.flatMap_append
  rw [hSplit, List.length_append]

theorem encode_newline : (Utf8.encode ('\n' :: logChars rs)).length = 1 + (logFile rs).length := by
  have hEnd : (Utf8.encode ['\n']).length = 1 := by decide +kernel
  rw [← List.singleton_append, encode_length_append, hEnd, logFile_eq]

theorem logFile_cons_length :
    (logFile (r :: rs)).length = (Utf8.encode r.text.toList).length + (1 + (logFile rs).length) := by
  rw [logFile_eq, logChars_cons, encode_length_append, encode_newline]

/-- A log ends with the end of a line. -/
theorem logChars_last {c : Char} (h : logChars rs = front ++ [c]) : c = '\n' := by
  rcases List.eq_nil_or_concat rs with rfl | ⟨older, r, rfl⟩
  · exact absurd h.symm (List.append_ne_nil_of_right_ne_nil _ (List.cons_ne_nil _ _))
  · have hEnd : logChars (older ++ [r]) = logChars older ++ r.text.toList ++ ['\n'] := by
      rw [logChars_append, logChars_cons, List.append_assoc]
      rfl
    rw [List.concat_eq_append] at h
    have hSame := congrArg List.getLast? (h.symm.trans hEnd)
    rw [List.getLast?_concat, List.getLast?_concat] at hSame
    exact Option.some.inj hSame

theorem newest_append (h : tailBytes < (logFile (r :: newer)).length) :
    newest (older ++ r :: newer) = newest newer := by
  induction older with
  | nil => exact if_neg (Nat.not_le.mpr h)
  | cons o older ih =>
    have hLarge : ¬ (logFile (o :: (older ++ r :: newer))).length ≤ tailBytes := by
      have hSplit : (logFile ((o :: older) ++ r :: newer)).length = _ := logFile_append_length
      rw [List.cons_append] at hSplit
      omega
    rw [List.cons_append, newest, if_neg hLarge, ih]

/-- The newest records are those that fit, if the one before them does not. -/
theorem newest_eq (hFits : (logFile newer).length ≤ tailBytes)
    (hLast : ∀ r ∈ older.getLast?, tailBytes < (logFile (r :: newer)).length) : newest (older ++ newer) = newer := by
  have hAll : newest newer = newer := by
    cases newer with
    | nil => rfl
    | cons r newer => exact if_pos hFits
  rcases List.eq_nil_or_concat older with rfl | ⟨older', r, rfl⟩
  · exact hAll
  · rw [List.concat_eq_append, List.getLast?_concat] at hLast
    rw [List.concat_eq_append, List.append_assoc, List.singleton_append, newest_append (hLast r rfl), hAll]

/-- What `tail` reads: the newest records, and before them the end of a record or
none. -/
theorem lossy_tail (rs : List LogRecord) : ∃ cut : List (List Char),
    strLines (Utf8.lossy ((logFile rs).drop ((logFile rs).length - min (logFile rs).length tailBytes))) =
        cut ++ (newest rs).map (fun r => r.text.toList) ∧
      ((cut = [] ∧ (logFile (newest rs)).length = min (logFile rs).length tailBytes) ∨
        ∃ (older : List LogRecord) (r : LogRecord) (j : Nat) (body : List Char),
          cut = [List.replicate j '\uFFFD' ++ body] ∧ rs = older ++ r :: newest rs ∧ j < 4 ∧
            body <:+ r.text.toList ∧ (logFile (newest rs)).length < min (logFile rs).length tailBytes) := by
  generalize hStart : (logFile rs).length - min (logFile rs).length tailBytes = k
  have hRead : k ≤ (logFile rs).length := by omega
  rw [logFile_eq] at hRead
  obtain ⟨front, j, back, hChars, hFront, hLossy, hCut⟩ := Utf8.lossy_drop hRead
  have hTotal : (logFile rs).length = k + j + (Utf8.encode back).length := by
    rw [logFile_eq, hChars, encode_length_append, hFront]
  rw [logFile_eq rs, hLossy, ← logFile_eq]
  rcases logChars_split hChars with ⟨older, newer, rfl, rfl, rfl⟩ |
    ⟨older, r, newer, head, body, rfl, hText, hHead, rfl, rfl⟩
  · -- the cut is between two records, so in no character
    have hWhole : j = 0 := by
      rcases hCut with hZero | ⟨front', c, hLast, hInner⟩
      · exact hZero
      · rw [logChars_last hLast] at hInner
        have hOne : Char.utf8Size '\n' = 1 := by decide
        omega
    clear hCut
    rw [← logFile_eq] at hFront hTotal
    have hNewest : newest (older ++ newer) = newer := by
      refine newest_eq (by omega) fun r hr => ?_
      obtain ⟨older', rfl⟩ := List.getLast?_eq_some_iff.mp hr
      have hBefore : (logFile (older' ++ [r])).length = (logFile older').length + (logFile [r]).length :=
        logFile_append_length
      have hOne : (logFile [r]).length = _ := logFile_cons_length
      rw [logFile_cons_length]
      omega
    rw [hNewest]
    refine ⟨[], ?_, .inl ⟨rfl, by omega⟩⟩
    rw [hWhole, List.replicate_zero, List.nil_append, List.nil_append, strLines_logChars]
  · -- it is within the record `r`
    rw [encode_length_append, ← logFile_eq] at hFront
    rw [encode_length_append, encode_newline] at hTotal
    -- the character that is cut is the last one of the head
    obtain ⟨head', d, rfl⟩ := (List.eq_nil_or_concat head).resolve_left hHead
    rw [List.concat_eq_append] at hFront hText hCut
    have hHeadSize : (Utf8.encode (head' ++ [d])).length = (Utf8.encode head').length + d.utf8Size := by
      rw [encode_length_append]
      exact congrArg _ ((congrArg List.length (List.append_nil _)).trans (String.length_utf8EncodeChar d))
    have hCutSize : j < d.utf8Size := by
      rcases hCut with rfl | ⟨front', c, hLast, hInner⟩
      · exact Char.utf8Size_pos d
      · have hSame := congrArg List.getLast? hLast
        rw [← List.append_assoc, List.getLast?_concat, List.getLast?_concat] at hSame
        rwa [← Option.some.inj hSame] at hInner
    have hRecord : (logFile (r :: newer)).length = (Utf8.encode (head' ++ [d])).length +
        (Utf8.encode body).length + (1 + (logFile newer).length) := by
      rw [logFile_cons_length, hText, encode_length_append]
    have hNewest : newest (older ++ r :: newer) = newer := by
      have hEq : newest ((older ++ [r]) ++ newer) = newer := by
        refine newest_eq (by omega) fun r' hr' => ?_
        rw [List.getLast?_concat] at hr'
        obtain rfl := Option.some.inj hr'
        omega
      rwa [List.append_assoc, List.singleton_append] at hEq
    have hSuffix : body <:+ r.text.toList := ⟨_, hText.symm⟩
    have hPlain : ∀ c : Char, c.toNat < 0x20 → c ∉ List.replicate j '\uFFFD' ++ body := by
      intro c hLow hMem
      rcases List.mem_append.mp hMem with hMark | hBody
      · obtain rfl := List.eq_of_mem_replicate hMark
        exact absurd hLow (by decide)
      · exact LogRecord.not_mem_text hLow (hSuffix.subset hBody)
    rw [hNewest]
    refine ⟨[List.replicate j '\uFFFD' ++ body], ?_,
      .inr ⟨older, r, j, body, rfl, rfl, Nat.lt_of_lt_of_le hCutSize (Char.utf8Size_le_four d), hSuffix, by omega⟩⟩
    rw [← List.append_assoc, strLines_line (hPlain _ (by decide)) (hPlain _ (by decide)), strLines_logChars,
      List.singleton_append]

/--
**The log is read back as it was written.** Whatever the messages hold, `tail`
shows the last `n` of the records that lie in the last 64 KiB, each as the one line
that was written, exactly when there are so many or the 64 KiB cut no record.
-/
theorem tail_whole_iff (rs : List LogRecord) (n : Nat) :
    logTail (logFile rs) n = ((newest rs).drop ((newest rs).length - n)).map LogRecord.text ↔
      n ≤ (newest rs).length ∨ (logFile (newest rs)).length = min (logFile rs).length tailBytes := by
  obtain ⟨cut, hLines, hCut⟩ := lossy_tail rs
  have hTail : logTail (logFile rs) n =
      (cut.map String.ofList ++ (newest rs).map LogRecord.text).drop (cut.length + (newest rs).length - n) := by
    have hTexts : ((newest rs).map fun r => r.text.toList).map String.ofList = (newest rs).map LogRecord.text := by
      rw [List.map_map]
      exact List.map_congr_left fun r _ => String.ofList_toList
    unfold logTail
    dsimp only
    rw [hLines, List.map_append, hTexts, List.length_append, List.length_map, List.length_map]
    split
    · rename_i hAll
      rw [Nat.sub_eq_zero_of_le hAll, List.drop_zero]
    · rfl
  rw [hTail, List.map_drop]
  rcases hCut with ⟨rfl, hSame⟩ | ⟨older, r, j, body, rfl, -, -, -, hLess⟩
  · rw [List.length_nil, Nat.zero_add, List.map_nil, List.nil_append]
    exact iff_of_true rfl (.inr hSame)
  · rw [List.length_singleton, List.map_singleton]
    constructor
    · intro hEq
      by_contra hMany
      rw [not_or] at hMany
      -- the end of the cut record is shown as well
      have hLengths := congrArg List.length hEq
      simp only [List.length_drop, List.length_append, List.length_singleton, List.length_map] at hLengths
      omega
    · intro hFew
      have hEnough : n ≤ (newest rs).length := hFew.resolve_right (Nat.ne_of_lt hLess)
      rw [Nat.add_comm, Nat.sub_add_comm hEnough, List.singleton_append, List.drop_succ_cons]

/-- A message with a line end does not begin a line. -/
example : logTail (logFile [⟨3, .info, "起动"⟩, ⟨4, .warn, "a\n[5] [ERROR] b"⟩]) 1 =
    ["[4] [WARN] a\\n[5] [ERROR] b"] := by decide +kernel

end LinkMesh
