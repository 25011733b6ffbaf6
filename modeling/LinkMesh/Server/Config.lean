import LinkMesh.Basis.KeyedList
import LinkMesh.Basis.IpAddr
import LinkMesh.Basis.Machine
import LinkMesh.Server.Join

/-!
# The tables of the configuration

`ServerConfig` (`linkmesh-server/src/config.rs`): the rooms with the hashes of
their tokens and the aliases of the administrator. The other settings are read
once, when the server starts.

## Results

* `remove_rooms_access` — removing rooms takes access away as long as one is left.
* `room_tokens_iff`     — when the last token of every room leads to that room.
* `remove_undoes_add_iff` — which names can be removed as they were added.
-/

namespace LinkMesh

open Std KeyMap KeyedList

variable {Ct : Type}

/-- An alias of the administrator. -/
structure AliasEntry where
  /-- lower case, `[a-z0-9_-]`, at most 32 -/
  name : String
  /-- virtual IP -/
  ip : String
  deriving DecidableEq, Repr

structure ServerConfig where
  /-- none, or empty: requests on the control channel are not authenticated -/
  controlToken : Option String := none
  /-- no rooms: one open room -/
  rooms : List RoomEntry := []
  aliases : List AliasEntry := []
  deriving DecidableEq, Repr

namespace ServerConfig

def tokenRequired (c : ServerConfig) : Bool := !c.rooms.isEmpty

/-- Adds or updates a room; only the hash of the token is kept. -/
def addRoom (env : SignalingEnv Ct) (c : ServerConfig) (name token : String) :
    Except String ServerConfig := do
  let name ← validateAlias env name
  if (utf8 (trim token)).length < 6 then .error "房间令牌至少 6 个字符"
  else .ok { c with rooms := upsert RoomEntry.name ⟨name, hashToken env token⟩ c.rooms }

/-- And whether there was such a room. The name is compared as it is given. -/
def removeRoom (c : ServerConfig) (name : String) : ServerConfig × Bool :=
  let rooms := remove RoomEntry.name name c.rooms
  ({ c with rooms := rooms }, rooms.length != c.rooms.length)

def roomByToken (env : SignalingEnv Ct) (c : ServerConfig) (token : String) : Option String :=
  (c.rooms.find? (·.tokenHash = hashToken env token)).map (·.name)

/-- Adds or updates an alias. -/
def addAlias (env : SignalingEnv Ct) (c : ServerConfig) (name ip : String) :
    Except String ServerConfig := do
  let name ← validateAlias env name
  let ip := trim ip
  if ip = "" ∨ (IpAddr.parse ip).isNone then
    .error s!"别名 {name} 的目标 IP {env.debugText ip} 非法（必须为合法 IP）"
  else .ok { c with aliases := upsert AliasEntry.name ⟨name, ip⟩ c.aliases }

/-- And whether there was such an alias. -/
def removeAlias (c : ServerConfig) (name : String) : ServerConfig × Bool :=
  let aliases := remove AliasEntry.name name c.aliases
  ({ c with aliases := aliases }, aliases.length != c.aliases.length)

/-- The aliases as a running server keeps them, a later one of a name before an
earlier one. -/
def aliasMap (l : List AliasEntry) : ExtTreeMap String String :=
  l.foldl (fun m a => m.insert a.name a.ip) ∅

end ServerConfig

/-- A server that runs with these rooms. -/
def Signaling.withRooms (s : Signaling) (rooms : List RoomEntry) : Signaling := { s with rooms := rooms }

variable {env : SignalingEnv Ct} {c c' : ServerConfig} {s : Signaling} {name raw token : String}

-- ---------------------------------------------------------------------------
-- What the operations do
-- ---------------------------------------------------------------------------

/-- The normal form of a name. -/
theorem validateAlias_eq (h : validateAlias env raw = .ok name) : name = env.toLowercase (trim raw) := by
  unfold validateAlias at h
  dsimp only at h
  split at h
  · cases h
  · split at h
    · cases h
    · split at h
      · cases h
      · exact (Except.ok.inj h).symm

namespace ServerConfig

theorem addRoom_eq_ok : c.addRoom env raw token = .ok c' ↔
    ∃ name, validateAlias env raw = .ok name ∧ 6 ≤ (utf8 (trim token)).length ∧
      c' = { c with rooms := upsert RoomEntry.name ⟨name, hashToken env token⟩ c.rooms } := by
  unfold addRoom
  rw [bind_eq_ok]
  refine exists_congr fun name => and_congr_right fun _ => ?_
  split
  · rename_i hShort
    refine ⟨fun h => ?_, fun h => absurd h.1 (Nat.not_le.mpr hShort)⟩
    cases h
  · rename_i hLong
    exact ⟨fun h => ⟨Nat.le_of_not_lt hLong, (Except.ok.inj h).symm⟩, fun h => congrArg _ h.2.symm⟩

theorem addAlias_eq_ok {ip : String} (h : c.addAlias env raw ip = .ok c') :
    ∃ name, validateAlias env raw = .ok name ∧
      c' = { c with aliases := upsert AliasEntry.name ⟨name, trim ip⟩ c.aliases } := by
  unfold addAlias at h
  obtain ⟨name, hName, h⟩ := bind_eq_ok.mp h
  dsimp only at h
  split at h
  · cases h
  · exact ⟨name, hName, (Except.ok.inj h).symm⟩

theorem removeRoom_snd : (c.removeRoom name).2 = true ↔ name ∈ c.rooms.map (·.name) := by
  unfold removeRoom
  rw [← length_remove_ne_iff]
  exact bne_iff_ne

theorem removeAlias_snd : (c.removeAlias name).2 = true ↔ name ∈ c.aliases.map (·.name) := by
  unfold removeAlias
  rw [← length_remove_ne_iff]
  exact bne_iff_ne

-- ---------------------------------------------------------------------------
-- Removing rooms
-- ---------------------------------------------------------------------------

/-- The configuration after these rooms are removed. -/
def removeRooms (c : ServerConfig) (names : List String) : ServerConfig :=
  names.foldl (fun c name => (c.removeRoom name).1) c

/-- What was refused is refused, and so is the token of a room that was removed,
unless it is the token of a room that is left. -/
def NeverWider (env : SignalingEnv Ct) (s : Signaling) (c c' : ServerConfig) : Prop :=
  (∀ token e, (s.withRooms c.rooms).resolveRoom env token = .error e →
    ∃ e', (s.withRooms c'.rooms).resolveRoom env token = .error e') ∧
  ∀ r ∈ c.rooms, r ∉ c'.rooms → (∀ r' ∈ c'.rooms, r'.tokenHash ≠ r.tokenHash) →
    ∀ token, hashToken env token = r.tokenHash →
      ∃ e, (s.withRooms c'.rooms).resolveRoom env (some token) = .error e

theorem mem_removeRooms {names : List String} {r : RoomEntry} :
    r ∈ (c.removeRooms names).rooms ↔ r ∈ c.rooms ∧ r.name ∉ names := by
  induction names generalizing c with
  | nil => simp [removeRooms]
  | cons name names ih =>
    have hNext : c.removeRooms (name :: names) = ((c.removeRoom name).1).removeRooms names := rfl
    have hFirst : r ∈ ((c.removeRoom name).1).rooms ↔ r ∈ c.rooms ∧ r.name ≠ name := mem_remove
    rw [hNext, ih, hFirst, List.mem_cons, not_or, and_assoc]

/-- Without rooms everybody is let in. -/
theorem resolveRoom_open (hOpen : c.tokenRequired = false) (token : Option String) :
    (s.withRooms c.rooms).resolveRoom env token = .ok "default" := by
  unfold tokenRequired at hOpen
  have hEmpty : c.rooms.isEmpty = true := by simpa only [Bool.not_eq_false'] using hOpen
  exact if_pos hEmpty

/-- With rooms, a token is refused iff it is missing or no room has its hash. -/
theorem resolveRoom_error_iff (hRooms : c.rooms ≠ []) {token : Option String} :
    (∃ e, (s.withRooms c.rooms).resolveRoom env token = .error e) ↔
      ∀ t, (token.map trim).filter (· ≠ "") = some t → ∀ r ∈ c.rooms, r.tokenHash ≠ hashToken env t := by
  unfold Signaling.resolveRoom Signaling.withRooms
  rw [if_neg (by simpa using hRooms)]
  cases hText : (token.map trim).filter (· ≠ "") with
  | none => exact ⟨fun _ => nofun, fun _ => ⟨_, rfl⟩⟩
  | some t =>
    dsimp only
    cases hFind : c.rooms.find? (·.tokenHash = hashToken env t) with
    | none =>
      refine ⟨fun _ t' ht' r hr => ?_, fun _ => ⟨_, rfl⟩⟩
      cases ht'
      simpa using List.find?_eq_none.mp hFind r hr
    | some r =>
      constructor
      · rintro ⟨e, hError⟩
        cases hError
      · intro hNone
        have hHash : r.tokenHash = hashToken env t := by simpa using List.find?_some hFind
        exact absurd hHash (hNone t rfl r (List.mem_of_find?_eq_some hFind))

theorem hashToken_trim (env : SignalingEnv Ct) (token : String) :
    hashToken env (trim token) = hashToken env token := by
  unfold hashToken
  rw [trim_trim]

/-- Fewer rooms, but at least one: fewer tokens. -/
theorem neverWider_of_subset (hSubset : c'.rooms ⊆ c.rooms) (hLeft : c'.rooms ≠ []) :
    NeverWider env s c c' := by
  have hRooms : c.rooms ≠ [] := by
    rintro hNil
    exact hLeft (List.subset_nil.mp (hNil ▸ hSubset))
  constructor
  · intro token e hRefused
    rw [resolveRoom_error_iff hLeft]
    intro t hText r hr
    exact (resolveRoom_error_iff hRooms).mp ⟨e, hRefused⟩ t hText r (hSubset hr)
  · intro r _ _ hOther token hHash
    rw [resolveRoom_error_iff hLeft]
    intro t hText r' hr'
    have hTrim : trim token = t := (Option.filter_eq_some_iff.mp hText).1 |> Option.some.inj
    rw [← hTrim, hashToken_trim, hHash]
    exact hOther r' hr'

/-- Removing rooms takes access away and gives none, iff a room is left (or there
was none). When the last one goes, the server is open to everybody. -/
theorem remove_rooms_access (env : SignalingEnv Ct) (s : Signaling) (c : ServerConfig)
    (names : List String) :
    (NeverWider env s c (c.removeRooms names) ↔
      (c.tokenRequired = true → ∃ r ∈ c.rooms, r.name ∉ names)) ∧
    ((∀ r ∈ c.rooms, r.name ∈ names) → ∀ token,
      (s.withRooms (c.removeRooms names).rooms).resolveRoom env token = .ok "default") := by
  have hGone : (∀ r ∈ c.rooms, r.name ∈ names) → (c.removeRooms names).rooms = [] := by
    intro hAll
    refine List.eq_nil_iff_forall_not_mem.mpr fun r hr => ?_
    obtain ⟨hMem, hKept⟩ := mem_removeRooms.mp hr
    exact hKept (hAll r hMem)
  have hOpen : (∀ r ∈ c.rooms, r.name ∈ names) → ∀ token,
      (s.withRooms (c.removeRooms names).rooms).resolveRoom env token = .ok "default" := by
    intro hAll
    refine resolveRoom_open ?_
    unfold tokenRequired
    rw [hGone hAll]
    rfl
  refine ⟨⟨fun hNever hRequired => ?_, fun hLeft => ?_⟩, hOpen⟩
  · by_contra hNone
    push Not at hNone
    have hRooms : c.rooms ≠ [] := by
      unfold tokenRequired at hRequired
      simpa using hRequired
    -- no token at all was refused before
    obtain ⟨e, hRefused⟩ : ∃ e, (s.withRooms c.rooms).resolveRoom env none = .error e :=
      (resolveRoom_error_iff hRooms).mpr nofun
    obtain ⟨e', hStill⟩ := hNever.1 none e hRefused
    rw [hOpen hNone none] at hStill
    cases hStill
  · by_cases hRequired : c.tokenRequired = true
    · obtain ⟨r, hr, hKept⟩ := hLeft hRequired
      exact neverWider_of_subset (fun r' hr' => (mem_removeRooms.mp hr').1)
        (List.ne_nil_of_mem (mem_removeRooms.mpr ⟨hr, hKept⟩))
    · have hNil : c.rooms = [] := by
        unfold tokenRequired at hRequired
        simpa using hRequired
      refine ⟨fun token e hRefused => ?_, fun r hr => absurd hr (hNil ▸ List.not_mem_nil)⟩
      rw [resolveRoom_open (Bool.eq_false_of_not_eq_true hRequired)] at hRefused
      cases hRefused

end ServerConfig

/-- The sample server, with the lower case of ASCII letters. -/
def officeEnv : SignalingEnv (RawKey × Nonce × Bytes) :=
  { sampleServerEnv with toLowercase := fun s => String.ofList (s.toList.map Char.toLower) }

/-- One room. -/
def officeConfig : ServerConfig := { rooms := [⟨"office", hashToken officeEnv "secret-token-1"⟩] }

namespace ServerConfig

/-- When the last room is removed, one is let in without a token, and with the
token of that room. -/
theorem remove_last_room_opens :
    (Signaling.withRooms { mesh := sampleMesh } officeConfig.rooms).resolveRoom officeEnv none =
        .error "缺少房间令牌（服务器启用了令牌验证，请用 --token 指定）" ∧
      officeConfig.removeRoom "office" = ({}, true) ∧
      (Signaling.withRooms { mesh := sampleMesh } []).resolveRoom officeEnv none = .ok "default" ∧
      (Signaling.withRooms { mesh := sampleMesh } []).resolveRoom officeEnv (some "secret-token-1") =
        .ok "default" ∧
      ¬ NeverWider officeEnv { mesh := sampleMesh } officeConfig (officeConfig.removeRooms ["office"]) := by
  refine ⟨by decide, by decide, rfl, rfl, fun hNever => ?_⟩
  obtain ⟨e, hStill⟩ := hNever.1 none "缺少房间令牌（服务器启用了令牌验证，请用 --token 指定）" (by decide)
  cases hStill

-- ---------------------------------------------------------------------------
-- The token of a room
-- ---------------------------------------------------------------------------

/-- What an administrator does to the rooms. -/
inductive RoomOp where
  | add (name token : String)
  | remove (name : String)
  deriving DecidableEq, Repr

/-- The configuration, and the token that was last set for each room in it. -/
structure RoomHistory where
  config : ServerConfig := {}
  lastToken : String → Option String := fun _ => none

namespace RoomHistory

def next (env : SignalingEnv Ct) (h : RoomHistory) : RoomOp → RoomHistory
  | .add raw token =>
    match validateAlias env raw, h.config.addRoom env raw token with
    | .ok name, .ok c => { config := c, lastToken := Function.update h.lastToken name (some token) }
    | _, _ => h
  | .remove name =>
    { config := (h.config.removeRoom name).1, lastToken := Function.update h.lastToken name none }

def machine (env : SignalingEnv Ct) : Machine RoomHistory RoomOp where
  init h := h = {}
  enabled _ _ := True
  next := next env

/-- The token last set for a room leads to it. -/
def TokensLead (env : SignalingEnv Ct) (h : RoomHistory) : Prop :=
  ∀ name token, h.lastToken name = some token →
    h.config.roomByToken env token = some name ∧
    ∀ s : Signaling, (s.withRooms h.config.rooms).resolveRoom env (some token) = .ok name

/-- An accepted token is not that of another room. -/
def OwnToken (env : SignalingEnv Ct) (h : RoomHistory) : RoomOp → Prop
  | .add raw token => ∀ name, validateAlias env raw = .ok name → 6 ≤ (utf8 (trim token)).length →
      ∀ r ∈ h.config.rooms, r.name ≠ name → r.tokenHash ≠ hashToken env token
  | .remove _ => True

/-- Rooms and last tokens belong together. -/
structure Recorded (env : SignalingEnv Ct) (h : RoomHistory) : Prop where
  names : (h.config.rooms.map (·.name)).Nodup
  token_of_room : ∀ r ∈ h.config.rooms, ∃ token, h.lastToken r.name = some token ∧
    r.tokenHash = hashToken env token
  room_of_token : ∀ name token, h.lastToken name = some token →
    ⟨name, hashToken env token⟩ ∈ h.config.rooms ∧ 6 ≤ (utf8 (trim token)).length

variable {h : RoomHistory} {e : RoomOp}

/-- What an operation does. -/
theorem next_add_cases (env : SignalingEnv Ct) (h : RoomHistory) (raw token : String) :
    next env h (.add raw token) = h ∧
        (∀ name, validateAlias env raw = .ok name → (utf8 (trim token)).length < 6) ∨
      ∃ name, validateAlias env raw = .ok name ∧ 6 ≤ (utf8 (trim token)).length ∧
        next env h (.add raw token) =
          { config := { h.config with
              rooms := upsert RoomEntry.name ⟨name, hashToken env token⟩ h.config.rooms }
            lastToken := Function.update h.lastToken name (some token) } := by
  cases hName : validateAlias env raw with
  | error e =>
    refine .inl ⟨?_, nofun⟩
    unfold next
    dsimp only
    rw [hName]
  | ok name =>
    unfold next
    dsimp only
    cases hAdd : h.config.addRoom env raw token with
    | error e =>
      refine .inl ⟨by rw [hName], fun _ _ => Nat.lt_of_not_le fun hLong => ?_⟩
      rw [addRoom_eq_ok.mpr ⟨name, hName, hLong, rfl⟩] at hAdd
      cases hAdd
    | ok c =>
      obtain ⟨name', hName', hLong, hConfig⟩ := addRoom_eq_ok.mp hAdd
      rw [hName] at hName'
      cases hName'
      exact .inr ⟨name, rfl, hLong, by rw [hName, hConfig]⟩

theorem Recorded.init : Recorded env {} where
  names := List.nodup_nil
  token_of_room := fun _ hr => absurd hr List.not_mem_nil
  room_of_token := nofun

/-- Every operation keeps rooms and last tokens together. -/
theorem Recorded.next (hRec : Recorded env h) (e : RoomOp) : Recorded env (next env h e) := by
  cases e with
  | add raw token =>
    rcases next_add_cases env h raw token with ⟨hSame, _⟩ | ⟨name, _, hLong, hNext⟩
    · rw [hSame]
      exact hRec
    · rw [hNext]
      refine ⟨nodup_upsert hRec.names, fun r hr => ?_, fun n t hLast => ?_⟩
      · rcases (mem_upsert hRec.names).mp hr with rfl | ⟨hOld, hOther⟩
        · exact ⟨token, Function.update_self .., rfl⟩
        · obtain ⟨t, hToken, hHash⟩ := hRec.token_of_room r hOld
          exact ⟨t, (Function.update_of_ne hOther ..).trans hToken, hHash⟩
      · by_cases hSame : n = name
        · subst hSame
          have hToken : Function.update h.lastToken n (some token) n = some t := hLast
          rw [Function.update_self] at hToken
          cases hToken
          exact ⟨(mem_upsert hRec.names).mpr (.inl rfl), hLong⟩
        · obtain ⟨hRoom, hOldLong⟩ := hRec.room_of_token n t
            ((Function.update_of_ne hSame ..).symm.trans hLast)
          exact ⟨(mem_upsert hRec.names).mpr (.inr ⟨hRoom, hSame⟩), hOldLong⟩
  | remove name =>
    refine ⟨nodup_remove hRec.names, fun r hr => ?_, fun n t hLast => ?_⟩
    · obtain ⟨hOld, hOther⟩ := mem_remove.mp hr
      obtain ⟨t, hToken, hHash⟩ := hRec.token_of_room r hOld
      exact ⟨t, (Function.update_of_ne hOther ..).trans hToken, hHash⟩
    · have hOther : n ≠ name := by
        rintro rfl
        have hNone : Function.update h.lastToken n none n = some t := hLast
        rw [Function.update_self] at hNone
        cases hNone
      obtain ⟨hRoom, hLong⟩ := hRec.room_of_token n t
        ((Function.update_of_ne hOther ..).symm.trans hLast)
      exact ⟨mem_remove.mpr ⟨hRoom, hOther⟩, hLong⟩

/-- The rooms that a hash leads to have one name. -/
def HashesApart (h : RoomHistory) : Prop :=
  ∀ r ∈ h.config.rooms, ∀ r' ∈ h.config.rooms, r.tokenHash = r'.tokenHash → r.name = r'.name

/-- The last tokens lead to their rooms iff no two rooms have one hash. -/
theorem tokensLead_iff (hRec : Recorded env h) : TokensLead env h ↔ HashesApart h := by
  constructor
  · intro hLead r hr r' hr' hSame
    obtain ⟨t, hToken, hHash⟩ := hRec.token_of_room r hr
    obtain ⟨t', hToken', hHash'⟩ := hRec.token_of_room r' hr'
    have hHere := (hLead r.name t hToken).1
    have hThere := (hLead r'.name t' hToken').1
    unfold roomByToken at hHere hThere
    rw [← hHash, hSame, hHash', hThere] at hHere
    exact (Option.some.inj hHere).symm
  · intro hApart name token hLast
    obtain ⟨hRoom, hLong⟩ := hRec.room_of_token name token hLast
    obtain ⟨r, hFind⟩ : ∃ r, h.config.rooms.find? (·.tokenHash = hashToken env token) = some r := by
      refine Option.isSome_iff_exists.mp (List.find?_isSome.mpr ⟨_, hRoom, ?_⟩)
      exact decide_eq_true rfl
    have hHash : r.tokenHash = hashToken env token := by simpa using List.find?_some hFind
    have hName : r.name = name :=
      hApart r (List.mem_of_find?_eq_some hFind) _ hRoom hHash
    refine ⟨?_, fun s => ?_⟩
    · unfold roomByToken
      rw [hFind, Option.map_some, hName]
    · have hText : (Option.map trim (some token)).filter (· ≠ "") = some (trim token) := by
        refine Option.filter_eq_some_iff.mpr ⟨rfl, decide_eq_true fun hBlank => ?_⟩
        rw [hBlank] at hLong
        exact absurd hLong (by decide)
      unfold Signaling.resolveRoom Signaling.withRooms
      rw [if_neg (by simpa using List.ne_nil_of_mem hRoom), hText]
      dsimp only
      rw [hashToken_trim, hFind]
      exact congrArg _ hName

/-- An operation keeps the hashes apart iff it does not bring one up again. -/
theorem hashesApart_next_iff (hRec : Recorded env h) (hApart : HashesApart h) (e : RoomOp) :
    HashesApart (next env h e) ↔ OwnToken env h e := by
  cases e with
  | add raw token =>
    rcases next_add_cases env h raw token with ⟨hSame, hShort⟩ | ⟨name, hName, hLong, hNext⟩
    · rw [hSame]
      exact ⟨fun _ n hn hLong => absurd hLong (Nat.not_le.mpr (hShort n hn)), fun _ => hApart⟩
    · rw [hNext]
      have hMem := fun r => mem_upsert (b := r) (a := ⟨name, hashToken env token⟩) hRec.names
      constructor
      · intro hAfter n hn _ r hr hOther hSame
        rw [hName] at hn
        cases hn
        exact hOther (hAfter r ((hMem r).mpr (.inr ⟨hr, hOther⟩)) _ ((hMem _).mpr (.inl rfl)) hSame)
      · intro hOwn r hr r' hr' hSame
        rcases (hMem r).mp hr with rfl | ⟨hOld, hNe⟩
        · rcases (hMem r').mp hr' with rfl | ⟨hOld', hNe'⟩
          · rfl
          · exact absurd hSame.symm (hOwn name hName hLong r' hOld' hNe')
        · rcases (hMem r').mp hr' with rfl | ⟨hOld', _⟩
          · exact absurd hSame (hOwn name hName hLong r hOld hNe)
          · exact hApart r hOld r' hOld' hSame
  | remove name =>
    refine ⟨fun _ => trivial, fun _ r hr r' hr' => ?_⟩
    exact hApart r (mem_remove.mp hr).1 r' (mem_remove.mp hr').1

/-- Along a history of additions and removals, the token last set for each room
leads to that room, iff no accepted token has the hash of another room. -/
theorem room_tokens_iff (env : SignalingEnv Ct) (es : List RoomOp) :
    (∀ pre, pre <+: es → TokensLead env ((machine env).run {} pre)) ↔
      ∀ pre e, pre ++ [e] <+: es → OwnToken env ((machine env).run {} pre) e := by
  refine Machine.along_run_iff_inv (I := Recorded env) .init ?_ (fun _ e hRec => hRec.next e) ?_ es
  · exact (tokensLead_iff .init).mpr fun r hr => absurd hr List.not_mem_nil
  · intro h e hRec hLead
    exact (tokensLead_iff (hRec.next e)).trans
      (hashesApart_next_iff hRec ((tokensLead_iff hRec).mp hLead) e)

/-- The same token for a second room: it leads to the first one. -/
theorem shared_token_misleads :
    let h := (machine officeEnv).run {} [.add "office" "secret-token-1", .add "lab" " secret-token-1 "]
    h.lastToken "lab" = some " secret-token-1 " ∧
      h.config.roomByToken officeEnv " secret-token-1 " = some "office" ∧
      (Signaling.withRooms { mesh := sampleMesh } h.config.rooms).resolveRoom officeEnv
        (some " secret-token-1 ") = .ok "office" ∧
      ¬ TokensLead officeEnv h := by
  have hRoom : ((machine officeEnv).run {}
      [.add "office" "secret-token-1", .add "lab" " secret-token-1 "]).config.roomByToken officeEnv
        " secret-token-1 " = some "office" := by decide +kernel
  refine ⟨by decide +kernel, hRoom, by decide +kernel, fun hLead => ?_⟩
  have hLab := (hLead "lab" " secret-token-1 " (by decide +kernel)).1
  rw [hRoom] at hLab
  exact absurd (Option.some.inj hLab) (by decide)

end RoomHistory

-- ---------------------------------------------------------------------------
-- Taking an addition back
-- ---------------------------------------------------------------------------

theorem aliasMap_concat (l : List AliasEntry) (a : AliasEntry) :
    aliasMap (l ++ [a]) = (aliasMap l).insert a.name a.ip := List.foldl_append

theorem mem_aliasMap {l : List AliasEntry} : name ∈ aliasMap l ↔ name ∈ l.map (·.name) := by
  induction l using List.reverseRecOn with
  | nil =>
    rw [KeyMap.mem_iff]
    simp [aliasMap]
  | append_singleton l a ih =>
    have hKey : compare a.name name = .eq ↔ name = a.name := Std.compare_eq_iff_eq.trans eq_comm
    rw [aliasMap_concat, ExtTreeMap.mem_insert, ih, hKey, List.map_append, List.mem_append, or_comm,
      List.map_cons, List.map_nil, List.mem_singleton]

theorem aliasMap_remove (name : String) (l : List AliasEntry) :
    aliasMap (remove AliasEntry.name name l) = (aliasMap l).erase name := by
  induction l using List.reverseRecOn with
  | nil =>
    refine ExtTreeMap.ext_getElem? fun k => ?_
    rw [getElem?_erase]
    split
    · exact ExtTreeMap.getElem?_empty
    · rfl
  | append_singleton l a ih =>
    rw [aliasMap_concat]
    unfold remove at ih ⊢
    rw [List.filter_append, List.filter_cons, List.filter_nil]
    refine ExtTreeMap.ext_getElem? fun k => ?_
    rw [getElem?_erase, getElem?_insert]
    by_cases hSame : a.name = name
    · rw [if_neg (by simpa using hSame), List.append_nil, ih, getElem?_erase, hSame]
      by_cases hKey : k = name
      · rw [if_pos hKey, if_pos hKey]
      · rw [if_neg hKey, if_neg hKey, if_neg hKey]
    · rw [if_pos (by simpa using hSame), aliasMap_concat, ih, getElem?_insert, getElem?_erase]
      by_cases hKey : k = a.name
      · rw [if_pos hKey, if_neg (hKey ▸ hSame), if_pos hKey]
      · rw [if_neg hKey, if_neg hKey]

/-- The map of a running server with one alias more, and then one less. -/
theorem aliasMap_erase_iff {l : List AliasEntry} {a : AliasEntry} (hNew : a.name ∉ l.map (·.name)) :
    (raw ∈ aliasMap (upsert AliasEntry.name a l) ∧
        (aliasMap (upsert AliasEntry.name a l)).erase raw = aliasMap l) ↔ a.name = raw := by
  rw [upsert_of_notMem hNew, aliasMap_concat]
  have hNone : (aliasMap l)[a.name]? = none := by
    exact ExtTreeMap.getElem?_eq_none (mem_aliasMap.not.mpr hNew)
  constructor
  · rintro ⟨_, hBack⟩
    by_contra hOther
    have hFound : (((aliasMap l).insert a.name a.ip).erase raw)[a.name]? = (aliasMap l)[a.name]? := by
      rw [hBack]
    rw [getElem?_erase, if_neg hOther, getElem?_insert, if_pos rfl, hNone] at hFound
    cases hFound
  · rintro rfl
    refine ⟨ExtTreeMap.mem_insert_self, ExtTreeMap.ext_getElem? fun k => ?_⟩
    rw [getElem?_erase]
    split
    · rename_i hSame
      rw [hSame, hNone]
    · rename_i hOther
      rw [getElem?_insert, if_neg hOther]

/-- An accepted name that was not in the table is removed again by the same
string, iff the string is in normal form: the additions normalise what they are
given, the removals do not. The third part is about the map of a running server. -/
theorem remove_undoes_add_iff (env : SignalingEnv Ct) (c : ServerConfig) (raw : String) :
    (∀ token c', c.addRoom env raw token = .ok c' →
      env.toLowercase (trim raw) ∉ c.rooms.map (·.name) →
        (c'.removeRoom raw = (c, true) ↔ env.toLowercase (trim raw) = raw)) ∧
    (∀ ip c', c.addAlias env raw ip = .ok c' →
      env.toLowercase (trim raw) ∉ c.aliases.map (·.name) →
        (c'.removeAlias raw = (c, true) ↔ env.toLowercase (trim raw) = raw)) ∧
    (∀ ip c', c.addAlias env raw ip = .ok c' →
      env.toLowercase (trim raw) ∉ c.aliases.map (·.name) →
        ((raw ∈ aliasMap c'.aliases ∧ (aliasMap c'.aliases).erase raw = aliasMap c.aliases) ↔
          env.toLowercase (trim raw) = raw)) := by
  refine ⟨fun token c' hAdd hNew => ?_, fun ip c' hAdd hNew => ?_, fun ip c' hAdd hNew => ?_⟩
  · obtain ⟨name, hName, _, rfl⟩ := addRoom_eq_ok.mp hAdd
    rw [← validateAlias_eq hName] at hNew ⊢
    constructor
    · intro hBack
      exact (remove_upsert_eq_iff hNew).mp (congrArg (fun p => p.1.rooms) hBack)
    · rintro rfl
      have hRooms : remove RoomEntry.name name (upsert RoomEntry.name ⟨name, hashToken env token⟩ c.rooms) =
          c.rooms := (remove_upsert_eq_iff hNew).mpr rfl
      refine Prod.ext ?_ (removeRoom_snd.mpr (mem_keys_upsert.mpr (.inl rfl)))
      exact congrArg (fun rooms => { c with rooms := rooms }) hRooms
  · obtain ⟨name, hName, rfl⟩ := addAlias_eq_ok hAdd
    rw [← validateAlias_eq hName] at hNew ⊢
    constructor
    · intro hBack
      exact (remove_upsert_eq_iff hNew).mp (congrArg (fun p => p.1.aliases) hBack)
    · rintro rfl
      have hAliases : remove AliasEntry.name name (upsert AliasEntry.name ⟨name, trim ip⟩ c.aliases) =
          c.aliases := (remove_upsert_eq_iff hNew).mpr rfl
      refine Prod.ext ?_ (removeAlias_snd.mpr (mem_keys_upsert.mpr (.inl rfl)))
      exact congrArg (fun aliases => { c with aliases := aliases }) hAliases
  · obtain ⟨name, hName, rfl⟩ := addAlias_eq_ok hAdd
    rw [← validateAlias_eq hName] at hNew ⊢
    exact aliasMap_erase_iff (a := ⟨name, trim ip⟩) hNew

/-- One alias. -/
def computerConfig : ServerConfig := { aliases := [⟨"computer", "10.13.13.5"⟩] }

/-- Names in normal form. -/
theorem remove_undoes_add_office : officeConfig.removeRoom "office" = ({}, true) ∧
    computerConfig.removeAlias "computer" = ({}, true) :=
  ⟨((remove_undoes_add_iff officeEnv {} "office").1 "secret-token-1" officeConfig
      (by decide +kernel) List.not_mem_nil).mpr (by decide +kernel),
    ((remove_undoes_add_iff officeEnv {} "computer").2.1 "10.13.13.5" computerConfig
      (by decide +kernel) List.not_mem_nil).mpr (by decide +kernel)⟩

/-- With a capital letter the addition is accepted, and the removal finds nothing. -/
theorem capital_not_removed :
    addRoom officeEnv {} "Office" "secret-token-1" = .ok officeConfig ∧
      officeConfig.removeRoom "Office" = (officeConfig, false) ∧
      addAlias officeEnv {} "Computer" "10.13.13.5" = .ok computerConfig ∧
      computerConfig.removeAlias "Computer" = (computerConfig, false) := by
  refine ⟨by decide +kernel, by decide +kernel, by decide +kernel, by decide +kernel⟩

end ServerConfig

end LinkMesh
