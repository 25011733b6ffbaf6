import LinkMesh.Basis.Lines
import LinkMesh.Basis.OncePerWindow

/-!
# The log limiter

`Logger` and `LogLimiter` (`linkmesh-server/src/log.rs`). A warning that anyone
can cause is written once per category and source in each window. The table of
the pairs is bounded; a pair that finds no place in it is not held back.

## Results

* `warn_once_iff` — the table stays within `max_entries`, and each pair has one
  message of its own in a window at most iff every pair that warns twice in a
  window is one of the first `max_entries` pairs of it.
-/

namespace LinkMesh

open Std OncePerWindow

-- ---------------------------------------------------------------------------
-- Lines of the log
-- ---------------------------------------------------------------------------

/-- `{:02x}` -/
def hexByte (n : Nat) : List Char := [Nat.digitChar (n / 16), Nat.digitChar (n % 16)]

def escapeChar (c : Char) : List Char :=
  if c = '\n' then ['\\', 'n']
  else if c = '\r' then ['\\', 'r']
  else if c = '\t' then ['\\', 't']
  else if c = '\x1b' then ['\\', 'x', '1', 'b']
  else if c.toNat < 0x20 ∨ (0x7f ≤ c.toNat ∧ c.toNat ≤ 0x9f) then ['\\', 'x'] ++ hexByte c.toNat
  else [c]

def escapeLog (msg : String) : String := String.ofList (msg.toList.flatMap escapeChar)

/-- What `Logger::write` appends to the file. -/
def logLine (ts : Nat) (level msg : String) : String := s!"[{ts}] [{level}] {escapeLog msg}\n"

/-- No character of an escaped message is a control character. -/
theorem escapeLog_printable {msg : String} {c : Char} (h : c ∈ (escapeLog msg).toList) :
    0x20 ≤ c.toNat ∧ ¬ (0x7f ≤ c.toNat ∧ c.toNat ≤ 0x9f) := by
  unfold escapeLog at h
  rw [String.toList_ofList, List.mem_flatMap] at h
  obtain ⟨d, _, hMem⟩ := h
  have hDigits : ∀ n < 16, 0x20 ≤ (Nat.digitChar n).toNat ∧ (Nat.digitChar n).toNat < 0x7f := by decide
  have hFixed : ∀ e ∈ ['\\', 'n', 'r', 't', 'x', '1', 'b'], 0x20 ≤ e.toNat ∧ e.toNat < 0x7f := by
    simp only [List.forall_mem_cons]
    exact ⟨by decide, by decide, by decide, by decide, by decide, by decide, by decide, List.forall_mem_nil _⟩
  have hAscii : 0x20 ≤ c.toNat ∧ c.toNat < 0x7f → 0x20 ≤ c.toNat ∧ ¬ (0x7f ≤ c.toNat ∧ c.toNat ≤ 0x9f) := by omega
  unfold escapeChar hexByte at hMem
  split at hMem
  · exact hAscii (hFixed c (by grind))
  split at hMem
  · exact hAscii (hFixed c (by grind))
  split at hMem
  · exact hAscii (hFixed c (by grind))
  split at hMem
  · exact hAscii (hFixed c (by grind))
  split at hMem
  · rename_i hControl
    rcases List.mem_append.mp hMem with hMark | hHex
    · exact hAscii (hFixed c (by grind))
    · rcases List.mem_pair.mp hHex with rfl | rfl
      · exact hAscii (hDigits _ (by omega))
      · exact hAscii (hDigits _ (by omega))
  · rename_i hPlain
    rw [List.mem_singleton] at hMem
    rw [hMem]
    omega

/-- A category of warnings and the source they come from. -/
structure LogKey where
  category : String
  source : String
  deriving DecidableEq, Repr

instance : Ord LogKey where
  compare := compareLex (compareOn (·.category)) (compareOn (·.source))

instance : TransOrd LogKey := inferInstanceAs (TransCmp (compareLex _ _))

instance : LawfulEqOrd LogKey where
  eq_of_compare {a b} h := by
    obtain ⟨hCategory, hSource⟩ := compareLex_eq_eq.mp h
    cases a
    cases b
    congr
    · exact LawfulEqCmp.eq_of_compare hCategory
    · exact LawfulEqCmp.eq_of_compare hSource

/-- A call of `LogLimiter::warn` at a time, in seconds. -/
structure LogCall where
  time : Nat
  category : String
  source : String
  msg : String
  deriving DecidableEq, Repr

def LogCall.key (c : LogCall) : LogKey := ⟨c.category, c.source⟩

/-- What a call has the logger write: its message, or the number of messages
that were held back. -/
inductive LogEntry where
  | own (call : LogCall)
  | merged (key : LogKey) (suppressed : Nat)
  deriving DecidableEq, Repr

namespace LogEntry

def text : LogEntry → String
  | own call => call.msg
  | merged key suppressed => s!"[{key.category}] 来自 {key.source} 的同类警告另有 {suppressed} 条已被合并抑制"

/-- The line in the file; the logger looks at the clock again. -/
def line (ts : Nat) (e : LogEntry) : String := logLine ts "WARN" e.text

/-- An entry is one line, whatever its message holds. -/
theorem line_eq (ts : Nat) (e : LogEntry) : ∃ front, (e.line ts).toList = front ++ ['\n'] ∧ '\n' ∉ front := by
  refine ⟨s!"[{ts}] [WARN] {escapeLog e.text}".toList, ?_, ?_⟩
  · unfold line logLine
    simp only [String.toList_append, List.append_assoc]
    rfl
  · have hText : '\n' ∉ (escapeLog e.text).toList := fun hMem =>
      absurd (escapeLog_printable hMem).1 (by decide)
    simp only [String.toList_append, List.mem_append, not_or]
    exact ⟨⟨⟨by decide +kernel, Lines.toString_plain ts⟩, by decide +kernel⟩, hText⟩

/-- The call whose message it is. -/
def call? : LogEntry → Option LogCall
  | own call => some call
  | merged _ _ => none

end LogEntry

-- ---------------------------------------------------------------------------
-- The limiter
-- ---------------------------------------------------------------------------

structure LogLimiter where
  windowSecs : Nat
  maxEntries : Nat
  /-- (category, source) → (window, held back in it) -/
  buckets : ExtTreeMap LogKey (Nat × Nat) := ∅
  windowSecs_pos : 0 < windowSecs
  maxEntries_pos : 0 < maxEntries

namespace LogLimiter

def new (windowSecs maxEntries : Nat) : LogLimiter where
  windowSecs := max windowSecs 1
  maxEntries := max maxEntries 1
  windowSecs_pos := Nat.lt_of_lt_of_le Nat.one_pos (Nat.le_max_right _ _)
  maxEntries_pos := Nat.lt_of_lt_of_le Nat.one_pos (Nat.le_max_right _ _)

/-- `LogLimiter::warn`: the limiter after the call, and what is written. -/
def warn (l : LogLimiter) (c : LogCall) : LogLimiter × List LogEntry :=
  let bucket := c.time / l.windowSecs
  match l.buckets[c.key]? with
  | some (b, suppressed) =>
    if b = bucket then ({ l with buckets := l.buckets.insert c.key (b, suppressed + 1) }, [])
    else
      -- a window is over: what was held back in it is counted first
      ({ l with buckets := l.buckets.insert c.key (bucket, 0) },
        (if 0 < suppressed then [.merged c.key suppressed] else []) ++ [.own c])
  | none =>
    let buckets := if l.maxEntries ≤ l.buckets.size then l.buckets.filter fun _ v => v.1 == bucket else l.buckets
    let buckets := if buckets.size < l.maxEntries then buckets.insert c.key (bucket, 0) else buckets
    -- written with or without an entry
    ({ l with buckets := buckets }, [.own c])

/-- The limiter after calls. -/
def warns (l : LogLimiter) (calls : List LogCall) : LogLimiter := calls.foldl (fun l c => (l.warn c).1) l

/-- What calls write. -/
def written : LogLimiter → List LogCall → List LogEntry
  | _, [] => []
  | l, c :: calls => (l.warn c).2 ++ written (l.warn c).1 calls

variable {l : LogLimiter} {calls : List LogCall}

/-- A call, as a request of its pair in its window. -/
def request (l : LogLimiter) (c : LogCall) : Request LogKey := ⟨c.time / l.windowSecs, c.key⟩

/-- How many messages of its own a pair gets written in a window. -/
def ownCount (l : LogLimiter) (calls : List LogCall) (key : LogKey) (w : Nat) : Nat :=
  ((l.written calls).filterMap LogEntry.call?).countP fun c => l.request c = ⟨w, key⟩

/-- How often a pair warns in a window. -/
def callCount (l : LogLimiter) (calls : List LogCall) (key : LogKey) (w : Nat) : Nat :=
  calls.countP fun c => l.request c = ⟨w, key⟩

/-- The pairs that warn in a window, in the order of their first warnings. -/
def pairs (l : LogLimiter) (calls : List LogCall) (w : Nat) : List LogKey := callers w (calls.map l.request)

-- ---------------------------------------------------------------------------
-- One call
-- ---------------------------------------------------------------------------

/-- A call asks for its request; its message is written iff the request is let
through. -/
theorem warn_spec (l : LogLimiter) (c : LogCall) :
    (l.warn c).1 = { l with buckets := (ask l.maxEntries l.buckets (l.request c)).1 } ∧
      (l.warn c).2.filterMap LogEntry.call? =
        if (ask l.maxEntries l.buckets (l.request c)).2 then [c] else [] := by
  have hKey : (l.request c).key = c.key := rfl
  have hWindow : (l.request c).window = c.time / l.windowSecs := rfl
  unfold warn ask makeRoom
  rw [hKey, hWindow]
  cases l.buckets[c.key]? with
  | none => exact ⟨rfl, rfl⟩
  | some v =>
    obtain ⟨b, suppressed⟩ := v
    dsimp only
    split
    · exact ⟨rfl, rfl⟩
    · refine ⟨rfl, ?_⟩
      -- a count of the window before is nobody's message
      dsimp only
      split <;> rfl

-- ---------------------------------------------------------------------------
-- Runs
-- ---------------------------------------------------------------------------

theorem warns_eq (l : LogLimiter) (calls : List LogCall) :
    l.warns calls = { l with buckets := after l.maxEntries l.buckets (calls.map l.request) } := by
  induction calls generalizing l with
  | nil => rfl
  | cons c calls ih =>
    show (l.warn c).1.warns calls = _
    rw [ih, (warn_spec l c).1]
    rfl

theorem written_own (l : LogLimiter) (calls : List LogCall) :
    ((l.written calls).filterMap LogEntry.call?).map l.request =
      admitted l.maxEntries l.buckets (calls.map l.request) := by
  induction calls generalizing l with
  | nil => rfl
  | cons c calls ih =>
    have hRest := ih (l.warn c).1
    obtain ⟨hNext, hOwn⟩ := warn_spec l c
    rw [hNext] at hRest
    unfold written
    rw [List.filterMap_append, List.map_append, hOwn, List.map_cons, admitted, hNext]
    refine congrArg₂ (· ++ ·) ?_ hRest
    split <;> rfl

theorem ownCount_eq (l : LogLimiter) (calls : List LogCall) (key : LogKey) (w : Nat) :
    l.ownCount calls key w = (admitted l.maxEntries l.buckets (calls.map l.request)).count ⟨w, key⟩ := by
  rw [← written_own, List.count, List.countP_map]
  rfl

theorem callCount_eq (l : LogLimiter) (calls : List LogCall) (key : LogKey) (w : Nat) :
    l.callCount calls key w = (calls.map l.request).count ⟨w, key⟩ := by
  rw [List.count, List.countP_map]
  rfl

theorem sorted_requests (l : LogLimiter) (hTimes : calls.Pairwise (·.time ≤ ·.time)) :
    (calls.map l.request).Pairwise (·.window ≤ ·.window) :=
  List.pairwise_map.mpr (hTimes.imp fun hLe => Nat.div_le_div_right hLe)

/-- The first pairs of a window have one message each, the others have all of
theirs. -/
theorem ownCount_new (windowSecs maxEntries : Nat) (hTimes : calls.Pairwise (·.time ≤ ·.time)) (key : LogKey)
    (w : Nat) :
    (new windowSecs maxEntries).ownCount calls key w =
      if key ∈ ((new windowSecs maxEntries).pairs calls w).take (new windowSecs maxEntries).maxEntries then 1
      else (new windowSecs maxEntries).callCount calls key w := by
  rw [ownCount_eq, callCount_eq]
  exact count_admitted _ (sorted_requests _ hTimes) ⟨w, key⟩

/-- The table never exceeds its bound, and in each window each pair has at most
one message of its own written iff each pair that warns more than once is one of
the first `max_entries` pairs of the window. -/
theorem warn_once_iff (windowSecs maxEntries : Nat) (hTimes : calls.Pairwise (·.time ≤ ·.time)) :
    (∀ n, ((new windowSecs maxEntries).warns (calls.take n)).buckets.size ≤
        (new windowSecs maxEntries).maxEntries) ∧
      ((∀ key w, (new windowSecs maxEntries).ownCount calls key w ≤ 1) ↔
        ∀ key w, 2 ≤ (new windowSecs maxEntries).callCount calls key w →
          key ∈ ((new windowSecs maxEntries).pairs calls w).take (new windowSecs maxEntries).maxEntries) := by
  constructor
  · intro n
    rw [warns_eq]
    exact size_after_le _ (sorted_requests _ (hTimes.sublist (List.take_sublist n calls)))
  · refine forall_congr' fun key => forall_congr' fun w => ?_
    rw [ownCount_new _ _ hTimes]
    split
    · rename_i hFirst
      exact iff_of_true (Nat.le_refl 1) fun _ => hFirst
    · rename_i hLate
      constructor
      · intro hOnce hTwice
        omega
      · intro hFits
        by_contra hMany
        exact hLate (hFits (by omega))

def badPacket : LogKey := ⟨"无法解析的封包", "10.0.0.8:5000"⟩

/-- Two warnings of one source in a window. -/
def twice : List LogCall :=
  [3, 4].map fun time =>
    { time := time, category := badPacket.category, source := badPacket.source, msg := "无法解析的封包" }

theorem warn_once_twice :
    twice.Pairwise (·.time ≤ ·.time) ∧
      (∀ n, ((new 10 4096).warns (twice.take n)).buckets.size ≤ (new 10 4096).maxEntries) ∧
      ((∀ key w, (new 10 4096).ownCount twice key w ≤ 1) ↔
        ∀ key w, 2 ≤ (new 10 4096).callCount twice key w →
          key ∈ ((new 10 4096).pairs twice w).take (new 10 4096).maxEntries) := by
  have hTimes : twice.Pairwise (·.time ≤ ·.time) := by decide
  exact ⟨hTimes, warn_once_iff 10 4096 hTimes⟩

/-- Warnings of many sources in one second. -/
def flood (n : Nat) : List LogCall :=
  (List.range n).map fun i =>
    { time := 0, category := "未知消息类型", source := s!"10.0.0.9:{i}", msg := "未知消息类型 77" }

theorem callers_flood (l : LogLimiter) (n : Nat) :
    callers 0 ((flood n).map l.request) = (flood n).map LogCall.key := by
  have hKeys : ((flood n).map l.request).map Request.key = (flood n).map LogCall.key := List.map_map
  rw [callers_of_nodup, hKeys]
  · rw [hKeys]
    unfold flood
    rw [List.map_map]
    refine List.nodup_range.map fun i j hSame => ?_
    have hSource : "10.0.0.9:" ++ toString i = "10.0.0.9:" ++ toString j := congrArg LogKey.source hSame
    exact Lines.toString_inj ((String.append_right_inj _).mp hSource)
  · unfold flood
    rw [List.map_map, List.forall_mem_map]
    exact fun i _ => Nat.zero_div l.windowSecs

theorem badPacket_not_mem_flood (n : Nat) : badPacket ∉ (flood n).map LogCall.key := by
  unfold flood
  rw [List.map_map, List.mem_map]
  rintro ⟨i, _, hSame⟩
  have hCategory : "未知消息类型" = "无法解析的封包" := congrArg LogKey.category hSame
  exact absurd hCategory (by decide)

/-- The source comes after all those of the flood. -/
theorem pairs_flood_twice (n : Nat) :
    (new 10 4096).pairs (flood n ++ twice) 0 = (flood n).map LogCall.key ++ [badPacket] := by
  have hCalls : (flood n ++ twice).map (new 10 4096).request =
      (flood n).map (new 10 4096).request ++ [⟨0, badPacket⟩] ++ [⟨0, badPacket⟩] := by
    rw [List.map_append, List.append_assoc]
    rfl
  have hOnce : callers 0 ((flood n).map (new 10 4096).request ++ [⟨0, badPacket⟩]) =
      (flood n).map LogCall.key ++ [badPacket] := by
    rw [callers_append, callers_flood, if_pos ⟨rfl, badPacket_not_mem_flood n⟩]
  unfold pairs
  rw [hCalls, callers_append, hOnce]
  exact if_neg fun hNew => hNew.2 List.mem_concat_self

/-- After a flood from 4096 ports, both warnings of a further source are written. -/
theorem flood_not_held :
    (flood 4096 ++ twice).Pairwise (·.time ≤ ·.time) ∧
      ¬ ∀ key w, (new 10 4096).ownCount (flood 4096 ++ twice) key w ≤ 1 := by
  have hTimes : (flood 4096 ++ twice).Pairwise (·.time ≤ ·.time) := by
    unfold flood
    rw [List.pairwise_append, List.pairwise_map]
    refine ⟨List.pairwise_of_forall fun _ _ => Nat.le_refl 0, by decide, ?_⟩
    rw [List.forall_mem_map]
    exact fun i _ c _ => Nat.zero_le c.time
  have hFull : ((flood 4096).map LogCall.key).length = 4096 := by
    unfold flood
    rw [List.length_map, List.length_map, List.length_range]
  have hLate : badPacket ∉ ((flood 4096).map LogCall.key ++ [badPacket]).take (new 10 4096).maxEntries := by
    show badPacket ∉ ((flood 4096).map LogCall.key ++ [badPacket]).take 4096
    rw [List.take_append_of_le_length (Nat.le_of_eq hFull.symm)]
    exact fun hMem => badPacket_not_mem_flood 4096 (List.mem_of_mem_take hMem)
  have hCount : 2 ≤ (new 10 4096).callCount (flood 4096 ++ twice) badPacket 0 := by
    unfold callCount
    rw [List.countP_append]
    exact Nat.le_add_left_of_le (by decide +kernel)
  refine ⟨hTimes, fun hOnce => ?_⟩
  have hTwo := hOnce badPacket 0
  rw [ownCount_new 10 4096 hTimes, pairs_flood_twice, if_neg hLate] at hTwo
  omega

end LogLimiter

end LinkMesh
