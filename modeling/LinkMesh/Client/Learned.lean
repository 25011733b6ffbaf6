import LinkMesh.Client.Names

/-!
# Learned aliases

The names that an `Outbox` learns from its server (`learn_alias` of
`linkmesh-client/src/connection.rs`), and drops again: `resolve_name` removes one
that has gone stale, and a full table makes room for a new one by removing the
key that the hash map yields first.

* `learned_bounded_iff` — the table stays within its bound and evicts the oldest
  name exactly when the first key of a full table is the oldest one.
-/

namespace LinkMesh

open Std KeyMap

/-- The alias tables of one connection, and its clock. -/
structure Learning where
  now : Nat
  aliases : Aliases

/-- `first` is the key that the map yields first once the name is in. -/
inductive LearnEvent where
  | tick (d : Nat)
  | learn (name ip first : String)
  | resolve (name : String)
  deriving DecidableEq, Repr

namespace Learning

variable (env : NameEnv)

/-- Texts that are no address, and blank names, are not learned. -/
def Learns (name ip : String) : Prop := env.normalise name ≠ "" ∧ (IpAddr.parse ip).isSome

/-- `learn_alias` -/
def learnAlias (s : Learning) (name ip first : String) : Learning :=
  let name := env.normalise name
  if name = "" ∨ (IpAddr.parse ip).isNone then s
  else { s with aliases := s.aliases.learn s.now name ip first }

/-- `resolve_name`, up to the question to the server. -/
def resolveName (s : Learning) (name : String) : Learning :=
  let name := env.normalise name
  if name = "" then s
  else
    match s.aliases.find? s.now name with
    | some _ => s
    | none => { s with aliases := s.aliases.forget name }

def next (s : Learning) : LearnEvent → Learning
  | .tick d => { s with now := s.now + d }
  | .learn name ip first => s.learnAlias env name ip first
  | .resolve name => s.resolveName env name

/-- Calls of `learn_alias` and `resolve_name`, for every order in which the map may
yield its keys. -/
def machine : Machine Learning LearnEvent where
  init s := s.aliases.learnedAliases = ∅
  enabled s e :=
    match e with
    | .learn name ip first => first ∈ s.aliases.learnedAliases.insert (env.normalise name) (ip, s.now)
    | _ => True
  next := next env

@[simp] theorem machine_next (s : Learning) (e : LearnEvent) : (machine env).next s e = s.next env e := rfl

-- ---------------------------------------------------------------------------
-- What is asked of the table
-- ---------------------------------------------------------------------------

/-- The table holds no more names than it may. -/
def Bounded (s : Learning) : Prop := s.aliases.learnedAliases.size ≤ maxLearned

/-- No name of the table was learned before this one. -/
def Earliest (s : Learning) (k : String) : Prop :=
  ∃ ip t, s.aliases.learnedAliases[k]? = some (ip, t) ∧
    ∀ (j ip' : String) (t' : Nat), s.aliases.learnedAliases[j]? = some (ip', t') → t ≤ t'

/-- What a step evicts: nothing for a name that is known, and exactly the oldest
name for a new one when the table is full. -/
def EvictsOldest (s : Learning) : LearnEvent → Prop
  | .learn name ip first =>
    Learns env name ip →
      (env.normalise name ∈ s.aliases.learnedAliases →
        ∀ k ∈ s.aliases.learnedAliases, k ∈ (s.learnAlias env name ip first).aliases.learnedAliases) ∧
      (env.normalise name ∉ s.aliases.learnedAliases → s.aliases.learnedAliases.size = maxLearned →
        ∃ k, s.Earliest k ∧ ∀ j, j ∈ (s.learnAlias env name ip first).aliases.learnedAliases ↔
          j ≠ k ∧ (j = env.normalise name ∨ j ∈ s.aliases.learnedAliases))
  | _ => True

/-- The guard: when a new name comes into a full table, the map yields its oldest
key first. -/
def YieldsOldest (s : Learning) : LearnEvent → Prop
  | .learn name ip first =>
    Learns env name ip → env.normalise name ∉ s.aliases.learnedAliases →
      s.aliases.learnedAliases.size = maxLearned → s.Earliest first
  | _ => True

variable {env} {s : Learning}

-- ---------------------------------------------------------------------------
-- One call
-- ---------------------------------------------------------------------------

theorem learnAlias_of_learns {name ip first : String} (h : Learns env name ip) :
    s.learnAlias env name ip first =
      { s with aliases := s.aliases.learn s.now (env.normalise name) ip first } := by
  have hLearned : ¬ (env.normalise name = "" ∨ (IpAddr.parse ip).isNone) := by
    rintro (hBlank | hText)
    · exact h.1 hBlank
    · rw [Option.isNone_iff_eq_none] at hText
      have hSome := h.2
      rw [hText] at hSome
      cases hSome
  exact if_neg hLearned

theorem learnAlias_of_not_learns {name ip first : String} (h : ¬ Learns env name ip) :
    s.learnAlias env name ip first = s := by
  refine if_pos ?_
  by_cases hBlank : env.normalise name = ""
  · exact .inl hBlank
  · refine .inr ?_
    rw [Option.isNone_iff_eq_none, ← Option.not_isSome_iff_eq_none]
    exact fun hText => h ⟨hBlank, hText⟩

/-- The table that a name is learned into. -/
theorem learn_cases (a : Aliases) (now : Nat) (name ip first : String) :
    (maxLearned < (a.learnedAliases.insert name (ip, now)).size ∧ first ≠ name ∧
      (a.learn now name ip first).learnedAliases = (a.learnedAliases.insert name (ip, now)).erase first) ∨
    (((a.learnedAliases.insert name (ip, now)).size ≤ maxLearned ∨ first = name) ∧
      (a.learn now name ip first).learnedAliases = a.learnedAliases.insert name (ip, now)) := by
  unfold Aliases.learn
  by_cases hEvicts : maxLearned < (a.learnedAliases.insert name (ip, now)).size ∧ first ≠ name
  · exact .inl ⟨hEvicts.1, hEvicts.2, if_pos hEvicts⟩
  · refine .inr ⟨?_, if_neg hEvicts⟩
    by_cases hName : first = name
    · exact .inr hName
    · exact .inl (Nat.le_of_not_lt fun hFull => hEvicts ⟨hFull, hName⟩)

theorem size_insert_known {m : ExtTreeMap String (String × Nat)} {name : String} {v : String × Nat}
    (h : name ∈ m) : (m.insert name v).size = m.size := by
  rw [ExtTreeMap.size_insert, if_pos (ExtTreeMap.mem_iff_contains.mp h)]

theorem size_insert_new {m : ExtTreeMap String (String × Nat)} {name : String} {v : String × Nat}
    (h : name ∉ m) : (m.insert name v).size = m.size + 1 := by
  rw [ExtTreeMap.size_insert, if_neg fun hMem => h (ExtTreeMap.mem_iff_contains.mpr hMem)]

theorem mem_insert_iff {m : ExtTreeMap String (String × Nat)} {name j : String} {v : String × Nat} :
    j ∈ m.insert name v ↔ j = name ∨ j ∈ m := by
  rw [mem_iff, mem_iff, getElem?_insert]
  by_cases hj : j = name <;> simp [hj]

theorem mem_erase_iff {m : ExtTreeMap String (String × Nat)} {k j : String} :
    j ∈ m.erase k ↔ j ≠ k ∧ j ∈ m := by
  rw [mem_iff, mem_iff, getElem?_erase]
  by_cases hj : j = k <;> simp [hj]

/-- A name that is known, or that there is room for, is put in, and that is all. -/
theorem learn_room {a : Aliases} {now : Nat} {name ip first : String}
    (h : (a.learnedAliases.insert name (ip, now)).size ≤ maxLearned) :
    (a.learn now name ip first).learnedAliases = a.learnedAliases.insert name (ip, now) := by
  rcases learn_cases a now name ip first with ⟨hFull, _⟩ | ⟨_, hTable⟩
  · omega
  · exact hTable

/-- A new name in a full table: the table stays within its bound and evicts the
oldest name exactly when the first key is that name. -/
theorem learn_full_iff {name ip first : String} (hLearns : Learns env name ip)
    (hFirst : first ∈ s.aliases.learnedAliases.insert (env.normalise name) (ip, s.now))
    (hNew : env.normalise name ∉ s.aliases.learnedAliases) (hFull : s.aliases.learnedAliases.size = maxLearned) :
    (Bounded (s.learnAlias env name ip first) ∧
      ∃ k, s.Earliest k ∧ ∀ j, j ∈ (s.learnAlias env name ip first).aliases.learnedAliases ↔
        j ≠ k ∧ (j = env.normalise name ∨ j ∈ s.aliases.learnedAliases)) ↔ s.Earliest first := by
  have hSize : (s.aliases.learnedAliases.insert (env.normalise name) (ip, s.now)).size = maxLearned + 1 := by
    rw [size_insert_new hNew, hFull]
  have hKnown : ∀ k, s.Earliest k → k ∈ s.aliases.learnedAliases := by
    rintro k ⟨ip', t, hk, _⟩
    exact mem_iff.mpr ⟨_, hk⟩
  rw [learnAlias_of_learns hLearns]
  unfold Bounded
  dsimp only
  rcases learn_cases s.aliases s.now (env.normalise name) ip first with ⟨_, hOther, hTable⟩ | ⟨hKeeps, hTable⟩
  · rw [hTable]
    have hMem : ∀ j, j ∈ (s.aliases.learnedAliases.insert (env.normalise name) (ip, s.now)).erase first ↔
        j ≠ first ∧ (j = env.normalise name ∨ j ∈ s.aliases.learnedAliases) := by
      intro j
      rw [mem_erase_iff, mem_insert_iff]
    constructor
    · rintro ⟨_, k, hk, hAll⟩
      have hGone : k = first := by
        by_contra hNe
        have hStays := (hMem k).mpr ⟨hNe, .inr (hKnown k hk)⟩
        exact ((hAll k).mp hStays).1 rfl
      exact hGone ▸ hk
    · intro hEarliest
      refine ⟨?_, first, hEarliest, hMem⟩
      rw [ExtTreeMap.size_erase, if_pos (ExtTreeMap.mem_iff_contains.mp hFirst), hSize]
      exact Nat.le_refl _
  · -- the new name comes first: nothing is removed
    have hSame : first = env.normalise name := by
      rcases hKeeps with hRoom | hSame
      · omega
      · exact hSame
    rw [hTable]
    refine iff_of_false (fun h => ?_) fun hEarliest => hNew (hSame ▸ hKnown first hEarliest)
    have hBound := h.1
    rw [hSize] at hBound
    omega

/-- One step from a table within its bound. -/
theorem bounded_next_iff {e : LearnEvent} (hEnabled : (machine env).enabled s e) (h : s.Bounded) :
    Bounded (s.next env e) ∧ EvictsOldest env s e ↔ YieldsOldest env s e := by
  unfold Bounded at h
  cases e with
  | tick d => exact iff_of_true ⟨h, trivial⟩ trivial
  | resolve name =>
    refine iff_of_true ⟨?_, trivial⟩ trivial
    show Bounded (s.resolveName env name)
    unfold resolveName Bounded
    dsimp only
    split
    · exact h
    · split
      · exact h
      · exact Nat.le_trans ExtTreeMap.size_erase_le h
  | learn name ip first =>
    show Bounded (s.learnAlias env name ip first) ∧ _ ↔ _
    by_cases hLearns : Learns env name ip
    · by_cases hKnown : env.normalise name ∈ s.aliases.learnedAliases
      · have hRoom : (s.aliases.learnedAliases.insert (env.normalise name) (ip, s.now)).size ≤ maxLearned := by
          rw [size_insert_known hKnown]
          exact h
        refine iff_of_true ⟨?_, fun _ => ⟨fun _ k hk => ?_, fun hNew => absurd hKnown hNew⟩⟩
          fun _ hNew => absurd hKnown hNew
        · unfold Bounded
          rw [learnAlias_of_learns hLearns]
          dsimp only
          rw [learn_room hRoom]
          exact hRoom
        · rw [learnAlias_of_learns hLearns]
          dsimp only
          rw [learn_room hRoom]
          exact mem_insert_iff.mpr (.inr hk)
      · by_cases hFull : s.aliases.learnedAliases.size = maxLearned
        · have hIff := learn_full_iff hLearns hEnabled hKnown hFull
          constructor
          · rintro ⟨hBound, hEvicts⟩ _ _ _
            exact hIff.mp ⟨hBound, (hEvicts hLearns).2 hKnown hFull⟩
          · intro hYields
            obtain ⟨hBound, hEvicts⟩ := hIff.mpr (hYields hLearns hKnown hFull)
            exact ⟨hBound, fun _ => ⟨fun hMem => absurd hMem hKnown, fun _ _ => hEvicts⟩⟩
        · have hRoom : (s.aliases.learnedAliases.insert (env.normalise name) (ip, s.now)).size ≤ maxLearned := by
            rw [size_insert_new hKnown]
            omega
          refine iff_of_true ⟨?_, fun _ => ⟨fun hMem => absurd hMem hKnown, fun _ hSize => absurd hSize hFull⟩⟩
            fun _ _ hSize => absurd hSize hFull
          unfold Bounded
          rw [learnAlias_of_learns hLearns]
          dsimp only
          rw [learn_room hRoom]
          exact hRoom
    · rw [learnAlias_of_not_learns hLearns]
      exact iff_of_true ⟨h, fun hYes => absurd hYes hLearns⟩ fun hYes => absurd hYes hLearns

-- ---------------------------------------------------------------------------
-- Whole runs
-- ---------------------------------------------------------------------------

/-- Along every run, and for every order in which the map yields its keys: the table
never holds more than 256 names, a name that is known evicts nothing and a new
one in a full table exactly the oldest, if and only if the first key of the map
is the oldest whenever a new name comes into a full table. -/
theorem learned_bounded_iff (hStart : (machine env).init s) {es : List LearnEvent}
    (hes : (machine env).Admissible (fun _ _ => True) s es) :
    ((∀ pre, pre <+: es → Bounded ((machine env).run s pre)) ∧
      ∀ pre e, pre ++ [e] <+: es → EvictsOldest env ((machine env).run s pre) e) ↔
      ∀ pre e, pre ++ [e] <+: es → YieldsOldest env ((machine env).run s pre) e := by
  refine Machine.along_steps_iff ?_ (fun s e hEnabled h => bounded_next_iff hEnabled h) hes
  have hEmpty : s.aliases.learnedAliases = ∅ := hStart
  unfold Bounded
  rw [hEmpty, ExtTreeMap.size_empty]
  exact Nat.zero_le _

-- ---------------------------------------------------------------------------
-- The newest name first
-- ---------------------------------------------------------------------------

/-- `n + 1` times the letter a. -/
def exampleName (n : Nat) : String := String.ofList (List.replicate (n + 1) 'a')

theorem exampleName_normalise (n : Nat) : exampleNameEnv.normalise (exampleName n) = exampleName n := by
  refine trim_eq_self fun c hc => ?_
  unfold exampleName at hc
  rw [String.toList_ofList] at hc
  rw [List.eq_of_mem_replicate hc]
  decide

theorem exampleName_inj {n k : Nat} (h : exampleName n = exampleName k) : n = k := by
  have hLength := congrArg (fun s => s.toList.length) h
  simp only [exampleName, String.toList_ofList, List.length_replicate] at hLength
  omega

/-- A new name, which the map yields first. -/
def exampleLearn (n : Nat) : LearnEvent := .learn (exampleName n) "10.13.13.2" (exampleName n)

theorem exampleLearn_learns (n : Nat) : Learns exampleNameEnv (exampleName n) "10.13.13.2" := by
  refine ⟨?_, by decide⟩
  rw [exampleName_normalise]
  intro hBlank
  have hLength := congrArg (fun s => s.toList.length) hBlank
  simp only [exampleName, String.toList_ofList, List.length_replicate] at hLength
  cases hLength

theorem exampleLearn_enabled (s : Learning) (n : Nat) : (machine exampleNameEnv).enabled s (exampleLearn n) := by
  have hFirst : exampleName n ∈
      s.aliases.learnedAliases.insert (exampleNameEnv.normalise (exampleName n)) ("10.13.13.2", s.now) := by
    rw [exampleName_normalise]
    exact mem_insert_iff.mpr (.inl rfl)
  exact hFirst

/-- The name comes in, and none goes out. -/
theorem exampleLearn_next (s : Learning) (n : Nat) :
    (s.next exampleNameEnv (exampleLearn n)).aliases.learnedAliases =
      s.aliases.learnedAliases.insert (exampleName n) ("10.13.13.2", s.now) := by
  have hCall : s.next exampleNameEnv (exampleLearn n) =
      s.learnAlias exampleNameEnv (exampleName n) "10.13.13.2" (exampleName n) := by
    unfold next exampleLearn
    rfl
  rw [hCall, learnAlias_of_learns (exampleLearn_learns n), exampleName_normalise]
  dsimp only
  rcases learn_cases s.aliases s.now (exampleName n) "10.13.13.2" (exampleName n) with ⟨_, hOther, _⟩ | ⟨_, hTable⟩
  · exact absurd rfl hOther
  · exact hTable

theorem exampleLearn_run (n : Nat) :
    let s := (machine exampleNameEnv).run { now := 0, aliases := {} } ((List.range n).map exampleLearn)
    s.aliases.learnedAliases.size = n ∧ ∀ k, exampleName k ∈ s.aliases.learnedAliases → k < n := by
  induction n with
  | zero =>
    refine ⟨ExtTreeMap.size_empty, fun k hk => ?_⟩
    exact absurd hk ExtTreeMap.not_mem_empty
  | succ n ih =>
    obtain ⟨hSize, hNames⟩ := ih
    rw [List.range_succ, List.map_append, List.map_singleton]
    dsimp only
    rw [Machine.run_concat, machine_next, exampleLearn_next]
    refine ⟨?_, fun k hk => ?_⟩
    · rw [size_insert_new fun hMem => Nat.lt_irrefl n (hNames n hMem), hSize]
    · rcases mem_insert_iff.mp hk with hSame | hOld
      · rw [exampleName_inj hSame]
        exact Nat.lt_succ_self n
      · exact Nat.lt_succ_of_lt (hNames k hOld)

/-- 257 names are kept when the map always yields the new one first. -/
theorem learned_unbounded :
    (machine exampleNameEnv).Admissible (fun _ _ => True) { now := 0, aliases := {} }
        ((List.range 257).map exampleLearn) ∧
      ¬ Bounded ((machine exampleNameEnv).run { now := 0, aliases := {} } ((List.range 257).map exampleLearn)) := by
  constructor
  · refine Machine.admissible_of_forall fun e he s => ?_
    obtain ⟨n, _, rfl⟩ := List.mem_map.mp he
    exact ⟨exampleLearn_enabled s n, trivial⟩
  · unfold Bounded
    rw [(exampleLearn_run 257).1]
    decide

/-- One name is kept. -/
theorem learned_bounded_once :
    (machine exampleNameEnv).Admissible (fun _ _ => True) { now := 0, aliases := {} } [exampleLearn 0] ∧
      ∀ pre, pre <+: [exampleLearn 0] →
        Bounded ((machine exampleNameEnv).run { now := 0, aliases := {} } pre) := by
  have hes : (machine exampleNameEnv).Admissible (fun _ _ => True) { now := 0, aliases := {} } [exampleLearn 0] :=
    ⟨exampleLearn_enabled _ 0, trivial, trivial⟩
  have hStart : (machine exampleNameEnv).init { now := 0, aliases := {} } := rfl
  refine ⟨hes, ((learned_bounded_iff hStart hes).mpr fun pre e hPre => ?_).1⟩
  obtain ⟨rfl, rfl⟩ : pre = [] ∧ e = exampleLearn 0 := by
    obtain ⟨rest, hRest⟩ := hPre
    cases pre with
    | nil => exact ⟨rfl, (List.cons.inj hRest).1⟩
    | cons e' pre => cases pre <;> cases hRest
  intro _ _ hFull
  rw [Machine.run_nil, ExtTreeMap.size_empty] at hFull
  cases hFull

end Learning

end LinkMesh
