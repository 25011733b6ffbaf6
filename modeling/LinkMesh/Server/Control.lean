import LinkMesh.Server.Config

/-!
# The control channel

`handle_conn` (`linkmesh-server/src/control.rs`) and the side that sends
requests to it, `ctrl_ok` (`daemon.rs`). A request is one JSON object that holds
the secret of the channel beside the command and its arguments. The commands on
rooms and aliases change the tables of the running server and the configuration
file; each is here as it runs alone.

## Results

* `handleConn_rooms`   — what a request can do to the rooms.
* `control_secret_iff` — when the secret of the channel opens no room.
-/

namespace LinkMesh

open Std KeyMap KeyedList

variable {Ct : Type}

-- ---------------------------------------------------------------------------
-- JSON
-- ---------------------------------------------------------------------------

/-- `serde_json::Value`; an object has each key once. -/
inductive Json where
  | null
  | bool (b : Bool)
  | number (text : String)
  | string (s : String)
  | array (items : List Json)
  | object (fields : List (String × Json))

abbrev JsonFields := List (String × Json)

/-- `Map::insert` -/
def JsonFields.insert (fields : JsonFields) (key : String) (v : Json) : JsonFields :=
  upsert Prod.fst (key, v) fields

namespace Json

/-- `value[key]`, and `null` where there is no such field. -/
def get : Json → String → Json
  | .object fields, key => ((fields.find? (·.1 = key)).map (·.2)).getD .null
  | _, _ => .null

def asStr : Json → Option String
  | .string s => some s
  | _ => none

/-- `value[key].as_str().unwrap_or("")` -/
def text (v : Json) (key : String) : String := (v.get key).asStr.getD ""

theorem get_insert {fields : JsonFields} {key k : String} {v : Json} :
    (Json.object (fields.insert key v)).get k = if key = k then v else (Json.object fields).get k := by
  show (((upsert Prod.fst (key, v) fields).find? (·.1 = k)).map (·.2)).getD .null = _
  rw [find?_upsert]
  split
  · rfl
  · rfl

theorem text_insert {fields : JsonFields} {key k s : String} :
    (Json.object (fields.insert key (.string s))).text k =
      if key = k then s else (Json.object fields).text k := by
  unfold text
  rw [get_insert]
  split
  · rfl
  · rfl

end Json

-- ---------------------------------------------------------------------------
-- The sender
-- ---------------------------------------------------------------------------

/-- What `ctrl_request` sends: a token that is not empty goes into the object. -/
def ctrlRequest (token : Option String) (fields : JsonFields) : Json :=
  match token with
  | some t => if t = "" then .object fields else .object (fields.insert "token" (.string t))
  | none => .object fields

/-- What `ctrl_ok` sends: the command, the fields of `extra`, and the token. -/
def ctrlOk (token : Option String) (cmd : String) (extra : Json) : Json :=
  let fields : JsonFields := [("cmd", .string cmd)]
  ctrlRequest token <|
    match extra with
    | .object more => more.foldl (fun fields (k, v) => fields.insert k v) fields
    | _ => fields

/-- The token that is sent takes the place of a field `token` of the caller. -/
theorem ctrlOk_token {t cmd : String} {extra : Json} (h : t ≠ "") :
    (ctrlOk (some t) cmd extra).text "token" = t := by
  unfold ctrlOk ctrlRequest
  dsimp only
  rw [if_neg h, Json.text_insert, if_pos rfl]

-- ---------------------------------------------------------------------------
-- Authentication
-- ---------------------------------------------------------------------------

/-- Every byte is looked at. -/
def constantTimeEq (a b : Bytes) : Bool :=
  if a.length ≠ b.length then false
  else ((a.zip b).foldl (fun diff (x, y) => diff ||| (x ^^^ y)) (0 : UInt8)) == 0

theorem foldl_diff_eq_zero {a b : Bytes} (hLength : a.length = b.length) (d : UInt8) :
    (a.zip b).foldl (fun diff (x, y) => diff ||| (x ^^^ y)) d = 0 ↔ d = 0 ∧ a = b := by
  induction a generalizing b d with
  | nil =>
    cases b with
    | nil => simp
    | cons y b => cases hLength
  | cons x a ih =>
    cases b with
    | nil => cases hLength
    | cons y b =>
      rw [List.zip_cons_cons, List.foldl_cons, ih (Nat.succ.inj hLength), UInt8.or_eq_zero_iff,
        UInt8.xor_eq_zero_iff, List.cons.injEq, and_assoc]

theorem constantTimeEq_iff {a b : Bytes} : constantTimeEq a b = true ↔ a = b := by
  unfold constantTimeEq
  split
  · rename_i hLength
    exact ⟨nofun, fun h => absurd (congrArg List.length h) hLength⟩
  · rename_i hLength
    rw [beq_iff_eq, foldl_diff_eq_zero (not_not.mp hLength)]
    exact and_iff_right rfl

/-- A server with a token lets requests pass that carry it. -/
def authenticated (token : Option String) (req : Json) : Bool :=
  match token with
  | some expected => constantTimeEq (utf8 expected) (utf8 (req.text "token"))
  | none => true

theorem authenticated_some {secret : String} {req : Json} :
    authenticated (some secret) req = true ↔ req.text "token" = secret := by
  unfold authenticated
  rw [constantTimeEq_iff]
  exact ⟨fun h => (utf8_injective h).symm, fun h => congrArg utf8 h.symm⟩

-- ---------------------------------------------------------------------------
-- Tables and commands
-- ---------------------------------------------------------------------------

/-- The tables that a running server keeps in memory, each behind a lock. -/
structure Tables where
  rooms : List RoomEntry
  aliases : ExtTreeMap String String

def ServerConfig.tables (c : ServerConfig) : Tables := ⟨c.rooms, ServerConfig.aliasMap c.aliases⟩

inductive TableName where
  | rooms | aliases
  deriving DecidableEq, Repr

inductive CtrlCommand where
  /-- `add-room` -/
  | addRoom (name token : String)
  /-- `alias` -/
  | addAlias (name ip : String)
  /-- `remove-room` and `alias-del` -/
  | remove (table : TableName) (name : String)
  deriving DecidableEq, Repr

/-- The answer to a request. -/
inductive Reply where
  | done (data : String)
  /-- what an inquiry is answered with -/
  | report
  | error (msg : String)
  deriving DecidableEq, Repr

def Reply.ok : Reply → Bool
  | .error _ => false
  | _ => true

namespace TableName

/-- `remove_room` and `remove_alias` -/
def removeFrom (c : ServerConfig) (name : String) : TableName → ServerConfig × Bool
  | .rooms => c.removeRoom name
  | .aliases => c.removeAlias name

/-- The entry is taken out of the table in memory; `none` when there is none. -/
def takeOut (t : Tables) (name : String) : TableName → Option Tables
  | .rooms =>
    let rooms := remove RoomEntry.name name t.rooms
    if rooms.length = t.rooms.length then none else some { t with rooms := rooms }
  | .aliases => if name ∈ t.aliases then some { t with aliases := t.aliases.erase name } else none

/-- The table in memory is replaced by that of another configuration. -/
def publish (t new : Tables) : TableName → Tables
  | .rooms => { t with rooms := new.rooms }
  | .aliases => { t with aliases := new.aliases }

/-- The table is the same in both. -/
def Same (t t' : Tables) : TableName → Prop
  | .rooms => t.rooms = t'.rooms
  | .aliases => t.aliases = t'.aliases

def missing (name : String) : TableName → String
  | .rooms => s!"房间 {name} 不存在"
  | .aliases => s!"别名 {name} 不存在"

def removed (name : String) : TableName → String
  | .rooms => s!"房间 {name} 已删除"
  | .aliases => s!"别名 {name} 已删除"

theorem takeOut_rooms_eq {t t' : Tables} {name : String} (h : TableName.rooms.takeOut t name = some t') :
    name ∈ t.rooms.map (·.name) ∧ t' = { t with rooms := remove RoomEntry.name name t.rooms } := by
  unfold takeOut at h
  dsimp only at h
  split at h
  · cases h
  · rename_i hShorter
    exact ⟨length_remove_ne_iff.mp hShorter, (Option.some.inj h).symm⟩

theorem takeOut_aliases_eq {t t' : Tables} {name : String} (h : TableName.aliases.takeOut t name = some t') :
    name ∈ t.aliases ∧ t' = { t with aliases := t.aliases.erase name } := by
  unfold takeOut at h
  dsimp only at h
  split at h
  · rename_i hMem
    exact ⟨hMem, (Option.some.inj h).symm⟩
  · cases h

end TableName

namespace CtrlCommand

def table : CtrlCommand → TableName
  | .addRoom _ _ => .rooms
  | .addAlias _ _ => .aliases
  | .remove table _ => table

/-- What the command makes of a configuration that it has loaded. Whether there
was an entry to remove is not looked at here. -/
def edit (env : SignalingEnv Ct) (c : ServerConfig) : CtrlCommand → Except String ServerConfig
  | .addRoom name token => c.addRoom env name token
  | .addAlias name ip => c.addAlias env name ip
  | .remove table name => .ok (table.removeFrom c name).1

def saved : CtrlCommand → String
  | .addRoom name _ => s!"房间 {name} 已保存（令牌以哈希存储）"
  | .addAlias name ip => s!"别名 {name} -> {ip} 已保存"
  | .remove table name => table.removed name

end CtrlCommand

-- ---------------------------------------------------------------------------
-- One request at a time
-- ---------------------------------------------------------------------------

/-- What goes wrong with the configuration file during a request. -/
structure FileFaults where
  load : Option String := none
  save : Option String := none
  deriving DecidableEq, Repr

/-- `CtrlContext`: the tables in memory, the configuration file and the token of
the channel. -/
structure Control where
  tables : Tables
  file : ServerConfig
  token : Option String

namespace Control

def load (s : Control) (f : FileFaults) : Except String ServerConfig :=
  match f.load with
  | some e => .error e
  | none => .ok s.file

/-- The file is replaced as a whole, or not at all. -/
def save (s : Control) (f : FileFaults) (c : ServerConfig) : Control × Except String Unit :=
  match f.save with
  | some e => (s, .error e)
  | none => ({ s with file := c }, .ok ())

/-- `add-room` and `alias`: the table in memory is replaced before the file. -/
def add (env : SignalingEnv Ct) (s : Control) (cmd : CtrlCommand) (f : FileFaults) : Control × Reply :=
  match (s.load f).bind fun c => cmd.edit env c with
  | .error e => (s, .error e)
  | .ok c =>
    let s := { s with tables := cmd.table.publish s.tables c.tables }
    match s.save f c with
    | (s, .ok ()) => (s, .done cmd.saved)
    | (s, .error e) => (s, .error e)

/-- `remove-room` and `alias-del`: the entry leaves the table in memory before the
file is loaded. -/
def remove (s : Control) (table : TableName) (name : String) (f : FileFaults) : Control × Reply :=
  match table.takeOut s.tables name with
  | none => (s, .error (table.missing name))
  | some tables =>
    let s := { s with tables := tables }
    match s.load f with
    | .error e => (s, .error s!"已生效但持久化失败: {e}")
    | .ok c =>
      match s.save f (table.removeFrom c name).1 with
      | (s, .ok ()) => (s, .done (table.removed name))
      | (s, .error e) => (s, .error s!"已生效但持久化失败: {e}")

def execute (env : SignalingEnv Ct) (s : Control) (cmd : CtrlCommand) (f : FileFaults) : Control × Reply :=
  match cmd with
  | .remove table name => s.remove table name f
  | _ => s.add env cmd f

/-- `handle_conn`, for one request. The commands that are not about rooms and
aliases leave the tables alone. -/
def handleConn (env : SignalingEnv Ct) (s : Control) (req : Json) (f : FileFaults) : Control × Reply :=
  if !authenticated s.token req then (s, .error "鉴权失败：token 不匹配")
  else
    match req.text "cmd" with
    | "add-room" => s.execute env (.addRoom (req.text "name") (req.text "token")) f
    | "remove-room" => s.execute env (.remove .rooms (req.text "name")) f
    | "alias" => s.execute env (.addAlias (req.text "name") (req.text "ip")) f
    | "alias-del" => s.execute env (.remove .aliases (req.text "name")) f
    | "stop" => (s, .done "服务已停止")
    | "routes" | "status" | "rooms" | "alias-list" => (s, .report)
    | "delpeer" =>
      match parsePublicKey (req.text "key") with
      | .ok _ => (s, .report)
      | .error e => (s, .error e)
    | cmd => (s, .error s!"未知命令 {cmd}")

-- ---------------------------------------------------------------------------
-- What a request does to the rooms
-- ---------------------------------------------------------------------------

variable {env : SignalingEnv Ct} {s : Control} {req : Json} {f : FileFaults} {name token : String}

/-- The tables and the file have no rooms but those that were there before. -/
def RoomsWithin (s' s : Control) : Prop :=
  s'.token = s.token ∧ s'.tables.rooms ⊆ s.tables.rooms ∧ s'.file.rooms ⊆ s.file.rooms

theorem RoomsWithin.refl (s : Control) : RoomsWithin s s := ⟨rfl, List.Subset.refl _, List.Subset.refl _⟩

/-- An addition that can load and is accepted reaches the table in memory, and the
file unless the save fails; any other one changes nothing. -/
theorem add_cases (env : SignalingEnv Ct) (s : Control) (cmd : CtrlCommand) (f : FileFaults) :
    (∃ c, f.load = none ∧ cmd.edit env s.file = .ok c ∧ (s.add env cmd f).1 =
      { s with
        tables := cmd.table.publish s.tables c.tables
        file := if f.save = none then c else s.file }) ∨
    (s.add env cmd f).1 = s ∧ (s.add env cmd f).2.ok = false ∧
      (f.load = none → ∃ e, cmd.edit env s.file = .error e) := by
  unfold add
  cases hLoad : f.load with
  | some e =>
    have hBind : ((s.load f).bind fun c => cmd.edit env c) = .error e := by
      unfold load
      rw [hLoad]
      rfl
    rw [hBind]
    exact .inr ⟨rfl, rfl, nofun⟩
  | none =>
    have hBind : ((s.load f).bind fun c => cmd.edit env c) = cmd.edit env s.file := by
      unfold load
      rw [hLoad]
      rfl
    rw [hBind]
    cases hEdit : cmd.edit env s.file with
    | error e => exact .inr ⟨rfl, rfl, fun _ => ⟨e, rfl⟩⟩
    | ok c =>
      refine .inl ⟨c, rfl, rfl, ?_⟩
      unfold save
      cases f.save with
      | some e => rfl
      | none => rfl

/-- An `add-room` that passes the checks puts its token into the rooms in memory;
any other one changes nothing. -/
theorem addRoom_cases (env : SignalingEnv Ct) (s : Control) (name token : String) (f : FileFaults) :
    (∃ n, validateAlias env name = .ok n ∧ 6 ≤ (utf8 (trim token)).length ∧ f.load = none ∧
      (s.execute env (.addRoom name token) f).1.token = s.token ∧
      (s.execute env (.addRoom name token) f).1.tables.rooms =
        upsert RoomEntry.name ⟨n, hashToken env token⟩ s.file.rooms) ∨
    (s.execute env (.addRoom name token) f).1 = s ∧
      (s.execute env (.addRoom name token) f).2.ok = false ∧
      (f.load = none → ∀ n, validateAlias env name = .ok n → (utf8 (trim token)).length < 6) := by
  have hAdd : s.execute env (.addRoom name token) f = s.add env (.addRoom name token) f := rfl
  rw [hAdd]
  rcases add_cases env s (.addRoom name token) f with ⟨c, hLoad, hEdit, hAfter⟩ | ⟨hSame, hReply, hError⟩
  · obtain ⟨n, hName, hLong, rfl⟩ := ServerConfig.addRoom_eq_ok.mp hEdit
    rw [hAfter]
    exact .inl ⟨n, hName, hLong, hLoad, rfl, rfl⟩
  · refine .inr ⟨hSame, hReply, fun hLoad n hName => Nat.lt_of_not_le fun hLong => ?_⟩
    obtain ⟨e, hEdit⟩ := hError hLoad
    have hRoom : s.file.addRoom env name token = .error e := hEdit
    rw [ServerConfig.addRoom_eq_ok.mpr ⟨n, hName, hLong, rfl⟩] at hRoom
    cases hRoom

/-- An alias is no room. -/
theorem addAlias_within (env : SignalingEnv Ct) (s : Control) (name ip : String) (f : FileFaults) :
    RoomsWithin (s.execute env (.addAlias name ip) f).1 s := by
  have hAdd : s.execute env (.addAlias name ip) f = s.add env (.addAlias name ip) f := rfl
  rw [hAdd]
  rcases add_cases env s (.addAlias name ip) f with ⟨c, _, hEdit, hAfter⟩ | ⟨hSame, _⟩
  · obtain ⟨n, _, rfl⟩ := ServerConfig.addAlias_eq_ok hEdit
    rw [hAfter]
    refine ⟨rfl, List.Subset.refl _, ?_⟩
    dsimp only
    split
    · exact List.Subset.refl _
    · exact List.Subset.refl _
  · rw [hSame]
    exact .refl s

theorem takeOut_rooms {t t' : Tables} {table : TableName} (h : table.takeOut t name = some t') :
    t'.rooms ⊆ t.rooms := by
  cases table with
  | rooms =>
    rw [(TableName.takeOut_rooms_eq h).2]
    exact List.filter_subset_self _
  | aliases =>
    rw [(TableName.takeOut_aliases_eq h).2]
    exact List.Subset.refl _

theorem removeFrom_rooms {c : ServerConfig} {table : TableName} :
    (table.removeFrom c name).1.rooms ⊆ c.rooms := by
  cases table with
  | rooms => exact List.filter_subset_self _
  | aliases => exact List.Subset.refl _

/-- A removal leaves no rooms but those that were there. -/
theorem remove_within (s : Control) (table : TableName) (name : String) (f : FileFaults) :
    RoomsWithin (s.remove table name f).1 s := by
  unfold Control.remove
  cases hTake : table.takeOut s.tables name with
  | none => exact .refl s
  | some tables =>
    have hRooms := takeOut_rooms hTake
    dsimp only
    unfold load save
    cases f.load with
    | some e => exact ⟨rfl, hRooms, List.Subset.refl _⟩
    | none =>
      cases f.save with
      | some e => exact ⟨rfl, hRooms, List.Subset.refl _⟩
      | none => exact ⟨rfl, hRooms, removeFrom_rooms⟩

/-- The request is an `add-room` that gets past authentication and the checks. -/
def AddsRoom (env : SignalingEnv Ct) (s : Control) (req : Json) (f : FileFaults) : Prop :=
  req.text "cmd" = "add-room" ∧ authenticated s.token req = true ∧ f.load = none ∧
    (∃ n, validateAlias env (req.text "name") = .ok n) ∧ 6 ≤ (utf8 (trim (req.text "token"))).length

/-- A request brings a room up only as an `add-room`, and then one that its field
`token` opens. -/
theorem handleConn_rooms (env : SignalingEnv Ct) (s : Control) (req : Json) (f : FileFaults) :
    AddsRoom env s req f ∧ (s.handleConn env req f).1.token = s.token ∧
        (∃ n, ⟨n, hashToken env (req.text "token")⟩ ∈ (s.handleConn env req f).1.tables.rooms) ∨
      ¬ AddsRoom env s req f ∧ RoomsWithin (s.handleConn env req f).1 s ∧
        (req.text "cmd" = "add-room" → (s.handleConn env req f).2.ok = false) := by
  unfold handleConn
  split
  · rename_i hRefused
    refine .inr ⟨fun hAdds => ?_, .refl s, fun _ => rfl⟩
    rw [hAdds.2.1] at hRefused
    cases hRefused
  · rename_i hPassed
    have hAuth : authenticated s.token req = true := by simpa using hPassed
    -- the other commands are not an `add-room`
    have hOther : ∀ {cmd : String} {r : Control × Reply}, req.text "cmd" = cmd → cmd ≠ "add-room" →
        RoomsWithin r.1 s → ¬ AddsRoom env s req f ∧ RoomsWithin r.1 s ∧
          (req.text "cmd" = "add-room" → r.2.ok = false) := by
      intro cmd r hCmd hNe hWithin
      exact ⟨fun hAdds => hNe (hCmd.symm.trans hAdds.1), hWithin, fun h => absurd (hCmd.symm.trans h) hNe⟩
    split
    · rename_i hCmd
      rcases addRoom_cases env s (req.text "name") (req.text "token") f with
        ⟨n, hName, hLong, hLoad, hToken, hRooms⟩ | ⟨hSame, hReply, hShort⟩
      · refine .inl ⟨⟨hCmd, hAuth, hLoad, ⟨n, hName⟩, hLong⟩, hToken, n, ?_⟩
        rw [hRooms]
        exact mem_upsert_self
      · refine .inr ⟨?_, by rw [hSame]; exact .refl s, fun _ => hReply⟩
        rintro ⟨_, _, hLoad, ⟨n, hName⟩, hLong⟩
        exact absurd hLong (Nat.not_le.mpr (hShort hLoad n hName))
    · rename_i hCmd
      exact .inr (hOther hCmd (by decide) (remove_within s .rooms _ f))
    · rename_i hCmd
      exact .inr (hOther hCmd (by decide) (addAlias_within env s _ _ f))
    · rename_i hCmd
      exact .inr (hOther hCmd (by decide) (remove_within s .aliases _ f))
    · rename_i hCmd
      exact .inr (hOther hCmd (by decide) (.refl s))
    · rename_i hCmd
      exact .inr (hOther hCmd (by decide) (.refl s))
    · rename_i hCmd
      exact .inr (hOther hCmd (by decide) (.refl s))
    · rename_i hCmd
      exact .inr (hOther hCmd (by decide) (.refl s))
    · rename_i hCmd
      exact .inr (hOther hCmd (by decide) (.refl s))
    · rename_i hCmd
      split
      · exact .inr (hOther hCmd (by decide) (.refl s))
      · exact .inr (hOther hCmd (by decide) (.refl s))
    · rename_i hCmd _ _ _ _ _ _ _ _ _
      exact .inr (hOther rfl hCmd (.refl s))

end Control

-- ---------------------------------------------------------------------------
-- The secret of the channel
-- ---------------------------------------------------------------------------

/-- A call of `ctrl_ok`, and what goes wrong with the file meanwhile. -/
structure CtrlCall where
  token : Option String
  cmd : String
  extra : Json
  faults : FileFaults := {}

def CtrlCall.request (e : CtrlCall) : Json := ctrlOk e.token e.cmd e.extra

/-- A server, and for each `add-room` that it accepted the token the caller passed
and the hash in the file. -/
structure ControlLog where
  control : Control
  added : List (String × Option String) := []

namespace ControlLog

/-- The hash kept for a room. -/
def storedHash (env : SignalingEnv Ct) (c : ServerConfig) (name : String) : Option String :=
  (c.rooms.find? (·.name = env.toLowercase (trim name))).map (·.tokenHash)

def next (env : SignalingEnv Ct) (d : ControlLog) (e : CtrlCall) : ControlLog :=
  let (control, reply) := d.control.handleConn env e.request e.faults
  { control := control
    added :=
      if e.request.text "cmd" = "add-room" ∧ reply.ok = true then
        d.added ++ [(e.extra.text "token", storedHash env control.file (e.request.text "name"))]
      else d.added }

def machine (env : SignalingEnv Ct) : Machine ControlLog CtrlCall where
  init _ := True
  enabled _ _ := True
  next := next env

/-- The secret opens no room, in memory or in the file, and every room that was
added has the token that the caller passed. -/
structure SecretKept (env : SignalingEnv Ct) (secret : String) (d : ControlLog) : Prop where
  tables : ∀ r ∈ d.control.tables.rooms, r.tokenHash ≠ hashToken env secret
  file : ∀ r ∈ d.control.file.rooms, r.tokenHash ≠ hashToken env secret
  added : ∀ p ∈ d.added, p.2 = some (hashToken env p.1)

variable {env : SignalingEnv Ct} {secret : String} {d : ControlLog}

theorem next_token (env : SignalingEnv Ct) (d : ControlLog) (e : CtrlCall) :
    (next env d e).control.token = d.control.token := by
  rcases Control.handleConn_rooms env d.control e.request e.faults with
    ⟨_, hToken, _⟩ | ⟨_, ⟨hToken, _, _⟩, _⟩
  · exact hToken
  · exact hToken

/-- A call keeps the secret iff it does not get a room added: authentication and
`add-room` read the same field of the request. -/
theorem secretKept_next_iff (hToken : d.control.token = some secret) (hKept : SecretKept env secret d)
    (e : CtrlCall) :
    SecretKept env secret (next env d e) ↔ ¬ d.control.AddsRoom env e.request e.faults := by
  rcases Control.handleConn_rooms env d.control e.request e.faults with
    ⟨hAdds, _, n, hRoom⟩ | ⟨hNot, ⟨_, hTables, hFile⟩, hReply⟩
  · refine ⟨fun hAfter => ?_, fun h => absurd hAdds h⟩
    have hSame : e.request.text "token" = secret := authenticated_some.mp (hToken ▸ hAdds.2.1)
    rw [hSame] at hRoom
    exact absurd rfl (hAfter.tables _ hRoom)
  · refine ⟨fun _ => hNot, fun _ => ⟨?_, ?_, ?_⟩⟩
    · exact fun r hr => hKept.tables r (hTables hr)
    · exact fun r hr => hKept.file r (hFile hr)
    · show ∀ p ∈ (if e.request.text "cmd" = "add-room" ∧
          (d.control.handleConn env e.request e.faults).2.ok = true then _ else d.added), _
      have hNone : ¬ (e.request.text "cmd" = "add-room" ∧
          (d.control.handleConn env e.request e.faults).2.ok = true) := by
        rintro ⟨hCmd, hOk⟩
        rw [hReply hCmd] at hOk
        cases hOk
      rw [if_neg hNone]
      exact hKept.added

/-- Along any calls to a server with a secret, the secret opens no room and every
room added has the token of its caller, iff it opened none at the start and no
`add-room` is let through: the room it adds is one that the secret opens. -/
theorem control_secret_iff (env : SignalingEnv Ct) {secret : String} {start : Control}
    (hToken : start.token = some secret) (es : List CtrlCall) :
    (∀ pre, pre <+: es → SecretKept env secret ((machine env).run { control := start } pre)) ↔
      SecretKept env secret { control := start } ∧ ∀ pre e, pre ++ [e] <+: es →
        ¬ ((machine env).run { control := start } pre).control.AddsRoom env e.request e.faults := by
  have hAlong : SecretKept env secret { control := start } → _ := fun hStart =>
    Machine.along_run_iff_inv (M := machine env) (I := fun d => d.control.token = some secret)
      (G := fun d e => ¬ d.control.AddsRoom env e.request e.faults) hToken hStart
      (fun d e hToken => (next_token env d e).trans hToken)
      (fun _ e hToken hKept => secretKept_next_iff hToken hKept e) es
  constructor
  · intro hKept
    have hStart := hKept [] (List.nil_prefix ..)
    exact ⟨hStart, (hAlong hStart).mp hKept⟩
  · rintro ⟨hStart, hNone⟩
    exact (hAlong hStart).mpr hNone

/-- A server with a secret and no rooms. -/
def exampleControl : Control :=
  { tables := ⟨[], ∅⟩, file := { controlToken := some "control-secret" }, token := some "control-secret" }

theorem exampleControl_kept : SecretKept officeEnv "control-secret" { control := exampleControl } where
  tables := fun _ hr => absurd hr List.not_mem_nil
  file := fun _ hr => absurd hr List.not_mem_nil
  added := fun _ hp => absurd hp List.not_mem_nil

def exampleAlias : CtrlCall :=
  { token := some "control-secret"
    cmd := "alias"
    extra := .object [("name", .string "computer"), ("ip", .string "10.13.13.5")] }

/-- An alias is bound, and the secret is kept. -/
theorem control_secret_alias :
    SecretKept officeEnv "control-secret"
      ((machine officeEnv).run { control := exampleControl } [exampleAlias]) := by
  refine (control_secret_iff officeEnv rfl [exampleAlias]).mpr
    ⟨exampleControl_kept, fun pre e hPre => ?_⟩ _ (List.prefix_refl _)
  have hLength := hPre.length_le
  rw [List.length_append, List.length_singleton, List.length_singleton] at hLength
  obtain rfl : pre = [] := List.eq_nil_of_length_eq_zero (by omega)
  obtain rfl : e = exampleAlias := (List.cons_prefix_cons.mp hPre).1
  rintro ⟨hCmd, _⟩
  exact absurd hCmd (by decide +kernel)

/-- A room is added through the channel: it gets the secret for its token. -/
theorem secret_opens_room :
    let call : CtrlCall :=
      { token := some "control-secret", cmd := "add-room",
        extra := .object [("name", .string "office"), ("token", .string "room-token-1")] }
    (exampleControl.handleConn officeEnv call.request {}).2 =
        .done "房间 office 已保存（令牌以哈希存储）" ∧
      (exampleControl.handleConn officeEnv call.request {}).1.file.rooms =
        [⟨"office", hashToken officeEnv "control-secret"⟩] ∧
      (exampleControl.handleConn officeEnv call.request {}).1.file.roomByToken officeEnv "room-token-1" =
        none ∧
      ¬ SecretKept officeEnv "control-secret" (next officeEnv { control := exampleControl } call) := by
  refine ⟨by decide +kernel, by decide +kernel, by decide +kernel, fun hKept => ?_⟩
  have hRoom : (⟨"office", hashToken officeEnv "control-secret"⟩ : RoomEntry) ∈
      (exampleControl.handleConn officeEnv (ctrlOk (some "control-secret") "add-room"
        (.object [("name", .string "office"), ("token", .string "room-token-1")])) {}).1.tables.rooms := by
    decide +kernel
  exact hKept.tables _ hRoom rfl

end ControlLog

end LinkMesh
