import Mathlib.Data.List.Permutation
import LinkMesh.Basis.SharedFile
import LinkMesh.Server.Control

/-!
# Concurrent commands on the control channel

Each connection of the control channel (`control.rs`) executes its command in
steps of its own: it loads the configuration, changes its table in memory, writes
the temporary file and renames it. Steps of other connections come in between, and
every access to the file can fail.

## Results

* `execute_alone`  — a command that runs alone does what `execute` does.
* `control_serial` — when memory and file are what the commands that were answered
  `ok` make of the tables, one after the other.
-/

namespace LinkMesh

open Std KeyMap KeyedList

variable {Ct : Type}

-- ---------------------------------------------------------------------------
-- Tables in memory and in the file
-- ---------------------------------------------------------------------------

namespace TableName

variable {τ σ : TableName} {t t' t'' new : Tables} {c c' : ServerConfig} {name : String}

theorem Same.refl : τ.Same t t := by
  cases τ with
  | rooms => exact rfl
  | aliases => exact rfl

theorem Same.symm (h : τ.Same t t') : τ.Same t' t := by
  cases τ with
  | rooms => exact Eq.symm h
  | aliases => exact Eq.symm h

theorem Same.trans (h : τ.Same t t') (h' : τ.Same t' t'') : τ.Same t t'' := by
  cases τ with
  | rooms => exact Eq.trans h h'
  | aliases => exact Eq.trans h h'

/-- Tables that are the same, one by one, are equal. -/
theorem eq_of_same (h : ∀ τ : TableName, τ.Same t t') : t = t' := by
  cases t with
  | mk rooms aliases =>
    cases t' with
    | mk rooms' aliases' =>
      have hRooms : rooms = rooms' := h .rooms
      have hAliases : aliases = aliases' := h .aliases
      rw [hRooms, hAliases]

theorem publish_same : τ.Same (τ.publish t new) new := by
  cases τ with
  | rooms => exact rfl
  | aliases => exact rfl

/-- The other table is left alone. -/
theorem publish_other (h : σ ≠ τ) : σ.Same (τ.publish t new) t := by
  cases τ with
  | rooms =>
    cases σ with
    | rooms => exact absurd rfl h
    | aliases => exact rfl
  | aliases =>
    cases σ with
    | rooms => exact rfl
    | aliases => exact absurd rfl h

theorem takeOut_other (hTake : τ.takeOut t name = some t') (h : σ ≠ τ) : σ.Same t' t := by
  cases τ with
  | rooms =>
    obtain ⟨_, rfl⟩ := takeOut_rooms_eq hTake
    cases σ with
    | rooms => exact absurd rfl h
    | aliases => exact rfl
  | aliases =>
    obtain ⟨_, rfl⟩ := takeOut_aliases_eq hTake
    cases σ with
    | rooms => exact rfl
    | aliases => exact absurd rfl h

/-- There is an entry of this name. -/
def Has (t : Tables) (name : String) : TableName → Prop
  | .rooms => name ∈ t.rooms.map (·.name)
  | .aliases => name ∈ t.aliases

def without (t : Tables) (name : String) : TableName → Tables
  | .rooms => { t with rooms := remove RoomEntry.name name t.rooms }
  | .aliases => { t with aliases := t.aliases.erase name }

theorem takeOut_eq_some (h : τ.takeOut t name = some t') : τ.Has t name ∧ t' = τ.without t name := by
  cases τ with
  | rooms => exact takeOut_rooms_eq h
  | aliases => exact takeOut_aliases_eq h

theorem has_congr (h : τ.Same t t') : τ.Has t name ↔ τ.Has t' name := by
  cases τ with
  | rooms =>
    have h : t.rooms = t'.rooms := h
    exact iff_of_eq (congrArg (fun rooms => name ∈ rooms.map (·.name)) h)
  | aliases =>
    have h : t.aliases = t'.aliases := h
    exact iff_of_eq (congrArg (fun aliases => name ∈ aliases) h)

theorem without_congr (h : τ.Same t t') : τ.Same (τ.without t name) (τ.without t' name) := by
  cases τ with
  | rooms => exact congrArg (remove RoomEntry.name name) h
  | aliases => exact congrArg (·.erase name) h

theorem has_without {n : String} : τ.Has (τ.without t name) n ↔ τ.Has t n ∧ n ≠ name := by
  cases τ with
  | rooms =>
    show n ∈ (remove RoomEntry.name name t.rooms).map (·.name) ↔ n ∈ t.rooms.map (·.name) ∧ n ≠ name
    constructor
    · intro h
      obtain ⟨r, hr, rfl⟩ := List.mem_map.mp h
      obtain ⟨hMem, hNe⟩ := mem_remove.mp hr
      exact ⟨List.mem_map_of_mem hMem, hNe⟩
    · rintro ⟨h, hNe⟩
      obtain ⟨r, hr, rfl⟩ := List.mem_map.mp h
      exact List.mem_map_of_mem (mem_remove.mpr ⟨hr, hNe⟩)
  | aliases =>
    show n ∈ t.aliases.erase name ↔ n ∈ t.aliases ∧ n ≠ name
    rw [ExtTreeMap.mem_erase, and_comm]
    refine and_congr_right fun _ => not_congr ?_
    exact Std.compare_eq_iff_eq.trans eq_comm

/-- Removals commute. -/
theorem without_comm {n : String} :
    τ.Same (τ.without (τ.without t name) n) (τ.without (τ.without t n) name) := by
  cases τ with
  | rooms =>
    show remove RoomEntry.name n (remove RoomEntry.name name t.rooms) =
      remove RoomEntry.name name (remove RoomEntry.name n t.rooms)
    unfold KeyedList.remove
    rw [List.filter_filter, List.filter_filter]
    exact List.filter_congr fun _ _ => Bool.and_comm ..
  | aliases => exact KeyMap.erase_comm

theorem removeFrom_snd : (τ.removeFrom c name).2 = true ↔ τ.Has c.tables name := by
  cases τ with
  | rooms => exact ServerConfig.removeRoom_snd
  | aliases => exact ServerConfig.removeAlias_snd.trans ServerConfig.mem_aliasMap.symm

/-- A removal from a configuration is one from its tables. -/
theorem removeFrom_tables : τ.Same (τ.removeFrom c name).1.tables (τ.without c.tables name) := by
  cases τ with
  | rooms => exact rfl
  | aliases => exact ServerConfig.aliasMap_remove name c.aliases

theorem removeFrom_other (h : σ ≠ τ) : σ.Same (τ.removeFrom c name).1.tables c.tables := by
  cases τ with
  | rooms =>
    cases σ with
    | rooms => exact absurd rfl h
    | aliases => exact rfl
  | aliases =>
    cases σ with
    | rooms => exact rfl
    | aliases => exact absurd rfl h

end TableName

-- ---------------------------------------------------------------------------
-- One command after the other
-- ---------------------------------------------------------------------------

namespace CtrlCommand

/-- A command on the configuration, with nothing in between. -/
def exec (env : SignalingEnv Ct) (c : ServerConfig) (cmd : CtrlCommand) : Except String ServerConfig :=
  match cmd with
  | .remove table name =>
    if (table.removeFrom c name).2 then .ok (table.removeFrom c name).1 else .error (table.missing name)
  | _ => cmd.edit env c

/-- Commands one after the other, each of them answered `ok`. -/
def execAll (env : SignalingEnv Ct) (c : ServerConfig) (cmds : List CtrlCommand) :
    Except String ServerConfig := cmds.foldlM (exec env) c

variable {env : SignalingEnv Ct} {c c₀ c' : ServerConfig} {cmd : CtrlCommand} {cmds : List CtrlCommand}

theorem execAll_concat (h : execAll env c₀ cmds = .ok c) (hNext : cmd.exec env c = .ok c') :
    execAll env c₀ (cmds ++ [cmd]) = .ok c' := by
  unfold execAll at h ⊢
  rw [List.foldlM_append, h]
  show (exec env c cmd >>= fun c => pure c) = _
  rw [hNext]
  rfl

theorem exec_remove {table : TableName} {name : String} (h : (table.removeFrom c name).2 = true) :
    (CtrlCommand.remove table name).exec env c = .ok (table.removeFrom c name).1 := if_pos h

theorem exec_add (h : ∀ table name, cmd ≠ .remove table name) : cmd.exec env c = cmd.edit env c := by
  cases cmd with
  | remove table name => exact absurd rfl (h table name)
  | _ => rfl

/-- A command is about one table. -/
theorem exec_other (h : cmd.exec env c = .ok c') {σ : TableName} (hOther : σ ≠ cmd.table) :
    σ.Same c'.tables c.tables := by
  cases cmd with
  | addRoom name token =>
    obtain ⟨n, _, _, rfl⟩ := ServerConfig.addRoom_eq_ok.mp h
    cases σ with
    | rooms => exact absurd rfl hOther
    | aliases => exact rfl
  | addAlias name ip =>
    obtain ⟨n, _, rfl⟩ := ServerConfig.addAlias_eq_ok h
    cases σ with
    | rooms => exact rfl
    | aliases => exact absurd rfl hOther
  | remove table name =>
    unfold exec at h
    dsimp only at h
    split at h
    · cases h
      exact TableName.removeFrom_other hOther
    · cases h

end CtrlCommand

-- ---------------------------------------------------------------------------
-- Steps of the connections
-- ---------------------------------------------------------------------------

/-- How far a connection has come with its command. -/
inductive ControlTask where
  | idle
  | begun (cmd : CtrlCommand)
  /-- `l` is loaded, and the command made `c` of it -/
  | loaded (cmd : CtrlCommand) (l c : ServerConfig)
  /-- the entry has left the table in memory -/
  | taken (table : TableName) (name : String)
  /-- the table in memory is changed, and `c` is being saved -/
  | saving (cmd : CtrlCommand) (l c : ServerConfig)

inductive ControlStep where
  | request (i : Nat) (cmd : CtrlCommand)
  | takeOut (i : Nat)
  | load (i : Nat)
  | loadFails (i : Nat)
  | publish (i : Nat)
  | write (i : Nat)
  /-- something is left in the temporary file -/
  | writeFails (i : Nat) (left : Option (Option ServerConfig))
  | rename (i : Nat)
  | renameFails (i : Nat)
  deriving DecidableEq

/-- The tables in memory, the file (`none` when it cannot be parsed), what each
connection is at, and the commands that were answered `ok`. -/
structure ControlRun where
  tables : Tables
  disk : SharedFile Nat (Option ServerConfig)
  task : Nat → ControlTask := fun _ => .idle
  answered : List CtrlCommand := []

namespace ControlRun

def setTask (d : ControlRun) (i : Nat) (t : ControlTask) : ControlRun :=
  { d with task := Function.update d.task i t }

/-- The connection goes on to save `c`. -/
def save (d : ControlRun) (i : Nat) (cmd : CtrlCommand) (l c : ServerConfig) : ControlRun :=
  { d.setTask i (.saving cmd l c) with disk := d.disk.submit i (some c) }

/-- The save of the connection fails, and the command is answered by an error. -/
def failSave (d : ControlRun) (i : Nat) (left : Option (Option ServerConfig)) : ControlRun :=
  { d.setTask i .idle with disk := d.disk.fail i left }

/-- `load` and what follows it. -/
def loadStep (env : SignalingEnv Ct) (d : ControlRun) (i : Nat) : ControlRun :=
  match d.task i, d.disk.file with
  | .begun (.remove _ _), _ => d
  | .begun cmd, some l =>
    match cmd.edit env l with
    | .ok c => d.setTask i (.loaded cmd l c)
    | .error _ => d.setTask i .idle
  | .taken table name, some l => d.save i (.remove table name) l (table.removeFrom l name).1
  | .begun _, none => d.setTask i .idle
  | .taken _ _, none => d.setTask i .idle
  | _, _ => d

def takeOutStep (d : ControlRun) (i : Nat) : ControlRun :=
  match d.task i with
  | .begun (.remove table name) =>
    match table.takeOut d.tables name with
    | some tables => { d.setTask i (.taken table name) with tables := tables }
    | none => d.setTask i .idle
  | _ => d

/-- A rename publishes what is in the temporary file by then, and fails when there
is none. -/
def renameStep (d : ControlRun) (i : Nat) : ControlRun :=
  match d.task i, d.disk.phase i with
  | .saving cmd _ _, .written =>
    match d.disk.tmp with
    | some _ =>
      { d.setTask i .idle with
        disk := d.disk.step (.rename i)
        answered := d.answered ++ [cmd] }
    | none => d.failSave i none
  | _, _ => d

def next (env : SignalingEnv Ct) (d : ControlRun) : ControlStep → ControlRun
  | .request i cmd =>
    match d.task i with
    | .idle => d.setTask i (.begun cmd)
    | _ => d
  | .takeOut i => d.takeOutStep i
  | .load i => d.loadStep env i
  | .loadFails i =>
    match d.task i with
    | .begun (.remove _ _) => d
    | .begun _ => d.setTask i .idle
    | .taken _ _ => d.setTask i .idle
    | _ => d
  | .publish i =>
    match d.task i with
    | .loaded cmd l c => { d.save i cmd l c with tables := cmd.table.publish d.tables c.tables }
    | _ => d
  | .write i =>
    match d.task i with
    | .saving _ _ _ => { d with disk := d.disk.step (.write i) }
    | _ => d
  | .writeFails i left =>
    match d.task i, d.disk.phase i with
    | .saving _ _ _, .due _ => d.failSave i left
    | _, _ => d
  | .rename i => d.renameStep i
  | .renameFails i =>
    match d.task i, d.disk.phase i with
    | .saving _ _ _, .written => d.failSave i d.disk.tmp
    | _, _ => d

/-- A server with nothing under way; there may be an old temporary file. -/
def machine (env : SignalingEnv Ct) (c : ServerConfig) : Machine ControlRun ControlStep where
  init d := d.tables = c.tables ∧ d.disk.file = some c ∧ d.disk.Settled ∧
    (∀ i, d.task i = .idle) ∧ d.answered = []
  enabled _ _ := True
  next := next env

def Settled (d : ControlRun) : Prop := ∀ i, d.task i = .idle

-- ---------------------------------------------------------------------------
-- What a step does
-- ---------------------------------------------------------------------------

/-- The steps that do something. -/
inductive Move (env : SignalingEnv Ct) (d : ControlRun) : ControlStep → ControlRun → Prop where
  | stay {e} : Move env d e d
  | request {i cmd} : d.task i = .idle → Move env d (.request i cmd) (d.setTask i (.begun cmd))
  | missing {i table name} : d.task i = .begun (.remove table name) →
      Move env d (.takeOut i) (d.setTask i .idle)
  | takeOut {i table name t} : d.task i = .begun (.remove table name) →
      table.takeOut d.tables name = some t →
      Move env d (.takeOut i) { d.setTask i (.taken table name) with tables := t }
  | load {i cmd l c} : d.task i = .begun cmd → d.disk.file = some l →
      (∀ table name, cmd ≠ .remove table name) → cmd.edit env l = .ok c →
      Move env d (.load i) (d.setTask i (.loaded cmd l c))
  | refused {i cmd e} : d.task i = .begun cmd → Move env d e (d.setTask i .idle)
  | loadTaken {i table name l} : d.task i = .taken table name → d.disk.file = some l →
      Move env d (.load i) (d.save i (.remove table name) l (table.removeFrom l name).1)
  | lost {i table name} : d.task i = .taken table name → d.disk.file = none →
      Move env d (.load i) (d.setTask i .idle)
  | loadFails {i table name} : d.task i = .taken table name →
      Move env d (.loadFails i) (d.setTask i .idle)
  | publish {i cmd l c} : d.task i = .loaded cmd l c →
      Move env d (.publish i) { d.save i cmd l c with tables := cmd.table.publish d.tables c.tables }
  | write {i} : Move env d (.write i) { d with disk := d.disk.step (.write i) }
  | writeFails {i cmd l c left} : d.task i = .saving cmd l c →
      Move env d (.writeFails i left) (d.failSave i left)
  | rename {i cmd l c a} : d.task i = .saving cmd l c → d.disk.phase i = .written →
      d.disk.tmp = some a →
      Move env d (.rename i)
        { d.setTask i .idle with
          disk := d.disk.step (.rename i)
          answered := d.answered ++ [cmd] }
  | overtaken {i cmd l c} : d.task i = .saving cmd l c → d.disk.phase i = .written →
      d.disk.tmp = none → Move env d (.rename i) (d.failSave i none)
  | renameFails {i cmd l c} : d.task i = .saving cmd l c →
      Move env d (.renameFails i) (d.failSave i d.disk.tmp)

variable {env : SignalingEnv Ct} {d : ControlRun}

theorem move_load (env : SignalingEnv Ct) (d : ControlRun) (i : Nat) :
    Move env d (.load i) (d.loadStep env i) := by
  unfold loadStep
  split
  · exact .stay
  · rename_i cmd l hAdd hTask hFile
    split
    · rename_i c hEdit
      exact .load hTask hFile (fun table name hCmd => hAdd table name hCmd) hEdit
    · exact .refused hTask
  · rename_i hTask hFile
    exact .loadTaken hTask hFile
  · rename_i hTask _
    exact .refused hTask
  · rename_i hTask hFile
    exact .lost hTask hFile
  · exact .stay

theorem move_next (env : SignalingEnv Ct) (d : ControlRun) (e : ControlStep) :
    Move env d e (next env d e) := by
  cases e with
  | request i cmd =>
    unfold next
    dsimp only
    split
    · rename_i hTask
      exact .request hTask
    · exact .stay
  | takeOut i =>
    show Move env d (.takeOut i) (d.takeOutStep i)
    unfold takeOutStep
    split
    · rename_i hTask
      split
      · rename_i hTake
        exact .takeOut hTask hTake
      · exact .missing hTask
    · exact .stay
  | load i => exact move_load env d i
  | loadFails i =>
    unfold next
    dsimp only
    split
    · exact .stay
    · rename_i hTask
      exact .refused hTask
    · rename_i hTask
      exact .loadFails hTask
    · exact .stay
  | publish i =>
    unfold next
    dsimp only
    split
    · rename_i hTask
      exact .publish hTask
    · exact .stay
  | write i =>
    unfold next
    dsimp only
    split
    · exact .write
    · exact .stay
  | writeFails i left =>
    unfold next
    dsimp only
    split
    · rename_i hTask _
      exact .writeFails hTask
    · exact .stay
  | rename i =>
    show Move env d (.rename i) (d.renameStep i)
    unfold renameStep
    split
    · rename_i hTask hPhase
      split
      · rename_i hTmp
        exact .rename hTask hPhase hTmp
      · rename_i hTmp
        exact .overtaken hTask hPhase hTmp
    · exact .stay
  | renameFails i =>
    unfold next
    dsimp only
    split
    · rename_i hTask _
      exact .renameFails hTask
    · exact .stay

-- ---------------------------------------------------------------------------
-- A command that nobody interrupts
-- ---------------------------------------------------------------------------

/-- A server with nothing under way. -/
def ofControl (s : Control) : ControlRun :=
  { tables := s.tables, disk := { file := some s.file, last := some s.file } }

/-- The steps of a command that runs alone. -/
def aloneSteps (i : Nat) (cmd : CtrlCommand) (f : FileFaults) : List ControlStep :=
  let load := if f.load.isSome then .loadFails i else .load i
  let rename := if f.save.isSome then .renameFails i else .rename i
  match cmd with
  | .remove _ _ => [.request i cmd, .takeOut i, load, .write i, rename]
  | _ => [.request i cmd, load, .publish i, .write i, rename]

theorem execute_add (s : Control) (f : FileFaults) {cmd : CtrlCommand}
    (hAdds : ∀ table name, cmd ≠ .remove table name) : s.execute env cmd f = s.add env cmd f := by
  cases cmd with
  | remove table name => exact absurd rfl (hAdds table name)
  | _ => rfl

/-- An addition that runs alone. -/
theorem add_alone (s : Control) (i : Nat) (f : FileFaults) {cmd : CtrlCommand}
    (hAdds : ∀ table name, cmd ≠ .remove table name) :
    let d := (machine env s.file).run (ofControl s) (aloneSteps i cmd f)
    d.tables = (s.add env cmd f).1.tables ∧ d.disk.file = some (s.add env cmd f).1.file ∧
      d.answered = if (s.add env cmd f).2.ok then [cmd] else [] := by
  obtain ⟨load, save⟩ := f
  cases hEdit : cmd.edit env s.file <;> cases load <;> cases save <;>
    simp [aloneSteps, ofControl, machine, Machine.run, next, loadStep, renameStep, ControlRun.save,
      setTask, failSave, SharedFile.submit, SharedFile.setPhase, SharedFile.step, SharedFile.fail,
      Control.add, Control.load, Control.save, hEdit, Reply.ok, Except.bind]

/-- A command that runs alone leaves tables, file and answer as `execute` does. -/
theorem execute_alone (env : SignalingEnv Ct) (s : Control) (i : Nat) (cmd : CtrlCommand)
    (f : FileFaults) :
    let d := (machine env s.file).run (ofControl s) (aloneSteps i cmd f)
    d.tables = (s.execute env cmd f).1.tables ∧ d.disk.file = some (s.execute env cmd f).1.file ∧
      d.answered = if (s.execute env cmd f).2.ok then [cmd] else [] := by
  by_cases hRemoval : ∃ table name, cmd = .remove table name
  · obtain ⟨table, name, rfl⟩ := hRemoval
    obtain ⟨load, save⟩ := f
    cases hTake : table.takeOut s.tables name <;> cases load <;> cases save <;>
      simp [aloneSteps, ofControl, machine, Machine.run, next, takeOutStep, loadStep, renameStep,
        ControlRun.save, setTask, failSave, SharedFile.submit, SharedFile.setPhase, SharedFile.step,
        SharedFile.fail, Control.execute, Control.remove, Control.load, Control.save, hTake, Reply.ok]
  · have hAdds : ∀ table name, cmd ≠ .remove table name := fun table name hCmd =>
      hRemoval ⟨table, name, hCmd⟩
    rw [execute_add s f hAdds]
    exact add_alone s i f hAdds

end ControlRun

-- ---------------------------------------------------------------------------
-- Tables that are ahead of the file
-- ---------------------------------------------------------------------------

namespace ControlTask

/-- The connection has changed the table in memory, and not in the file. -/
def Ahead (τ : TableName) : ControlTask → Prop
  | .taken table _ => table = τ
  | .saving (.remove table _) _ _ => table = τ
  | .saving cmd l c => cmd.table = τ ∧ ¬ τ.Same l.tables c.tables
  | _ => False

/-- What the connection makes of the table. -/
def Effect (τ : TableName) (t u : Tables) : ControlTask → Prop
  | .taken _ name => τ.Has t name ∧ τ.Same u (τ.without t name)
  | .saving (.remove _ name) _ _ => τ.Has t name ∧ τ.Same u (τ.without t name)
  | .saving _ l c => τ.Same l.tables t ∧ τ.Same c.tables u
  | _ => False

/-- What the command makes of the configuration is what it goes on with. -/
def Edited (env : SignalingEnv Ct) : ControlTask → Prop
  | .loaded cmd l c => (∀ table name, cmd ≠ .remove table name) ∧ cmd.edit env l = .ok c
  | .saving cmd l c => cmd.edit env l = .ok c
  | _ => True

variable {τ : TableName} {t t' u u' : Tables} {task task' : ControlTask} {cmd : CtrlCommand}
  {l c : ServerConfig}

theorem ahead_saving (hAdds : ∀ table name, cmd ≠ .remove table name) :
    (saving cmd l c).Ahead τ ↔ cmd.table = τ ∧ ¬ τ.Same l.tables c.tables := by
  cases cmd with
  | remove table name => exact absurd rfl (hAdds table name)
  | _ => exact Iff.rfl

theorem effect_saving (hAdds : ∀ table name, cmd ≠ .remove table name) :
    (saving cmd l c).Effect τ t u ↔ τ.Same l.tables t ∧ τ.Same c.tables u := by
  cases cmd with
  | remove table name => exact absurd rfl (hAdds table name)
  | _ => exact Iff.rfl

/-- A connection is ahead in the table of its command only. -/
theorem Ahead.table_eq (h : (saving cmd l c).Ahead τ) : cmd.table = τ := by
  cases cmd with
  | remove table name => exact h
  | _ => exact h.1

theorem Effect.congr (h : task.Effect τ t u) (hBefore : τ.Same t' t) (hAfter : τ.Same u' u) :
    task.Effect τ t' u' := by
  have hRemoval : ∀ {name}, τ.Has t name ∧ τ.Same u (τ.without t name) →
      τ.Has t' name ∧ τ.Same u' (τ.without t' name) := fun hEffect =>
    ⟨(TableName.has_congr hBefore).mpr hEffect.1,
      hAfter.trans (hEffect.2.trans (TableName.without_congr hBefore.symm))⟩
  cases task with
  | taken table name => exact hRemoval h
  | saving cmd l c =>
    cases cmd with
    | remove table name => exact hRemoval h
    | _ => exact ⟨h.1.trans hBefore.symm, h.2.trans hAfter.symm⟩
  | _ => exact h

/-- The second task is ahead where the first one is, by the same change. -/
def Alike (τ : TableName) (task task' : ControlTask) : Prop :=
  (task'.Ahead τ ↔ task.Ahead τ) ∧ (task.Ahead τ → ∀ t u, task.Effect τ t u → task'.Effect τ t u)

theorem Alike.refl : Alike τ task task := ⟨Iff.rfl, fun _ _ _ => id⟩

theorem Alike.of_not (h : ¬ task.Ahead τ) (h' : ¬ task'.Ahead τ) : Alike τ task task' :=
  ⟨iff_of_false h' h, fun hAhead => absurd hAhead h⟩

end ControlTask

/-- The changes that these connections make of the table, one after the other. -/
inductive Changes (task : Nat → ControlTask) (τ : TableName) : List Nat → Tables → Tables → Prop where
  | none {t u} : τ.Same u t → Changes task τ [] t u
  | cons {i q t u v} : (task i).Effect τ t u → Changes task τ q u v → Changes task τ (i :: q) t v

namespace Changes

variable {task task' : Nat → ControlTask} {τ : TableName} {q : List Nat} {t t' u u' : Tables} {i : Nat}
  {name : String} {l c : ServerConfig}

theorem congr_left (h : Changes task τ q t u) (hSame : τ.Same t' t) : Changes task τ q t' u := by
  cases h with
  | none hEnd => exact .none (hEnd.trans hSame.symm)
  | cons hEffect hRest => exact .cons (hEffect.congr hSame .refl) hRest

theorem congr_right (h : Changes task τ q t u) (hSame : τ.Same u' u) : Changes task τ q t u' := by
  induction h with
  | none hEnd => exact .none (hSame.trans hEnd)
  | cons hEffect _ ih => exact .cons hEffect (ih hSame)

theorem congr_task (h : Changes task τ q t u)
    (hTasks : ∀ j ∈ q, ∀ t u, (task j).Effect τ t u → (task' j).Effect τ t u) :
    Changes task' τ q t u := by
  induction h with
  | none hEnd => exact .none hEnd
  | cons hEffect _ ih =>
    exact .cons (hTasks _ (List.mem_cons_self ..) _ _ hEffect)
      (ih fun j hj => hTasks j (List.mem_cons_of_mem _ hj))

theorem concat (h : Changes task τ q t u) (hEffect : (task i).Effect τ u u') :
    Changes task τ (q ++ [i]) t u' := by
  induction h with
  | none hEnd => exact .cons (hEffect.congr hEnd.symm .refl) (.none .refl)
  | cons hFirst _ ih => exact .cons hFirst (ih hEffect)

/-- A removal among removals may as well come first. -/
theorem removal_first (h : Changes task τ q t u) (hMem : i ∈ q)
    (hRemoval : ∀ t u, (task i).Effect τ t u → τ.Has t name ∧ τ.Same u (τ.without t name))
    (hOthers : ∀ j ∈ q, j ≠ i → ∃ n, task j = .taken τ n) :
    τ.Has t name ∧ Changes task τ (q.erase i) (τ.without t name) u := by
  induction h with
  | none _ => cases hMem
  | @cons j q t u v hEffect hRest ih =>
    by_cases hSame : j = i
    · subst hSame
      obtain ⟨hHas, hAfter⟩ := hRemoval t u hEffect
      rw [List.erase_cons_head]
      exact ⟨hHas, hRest.congr_left hAfter.symm⟩
    · obtain ⟨n, hTask⟩ := hOthers j (List.mem_cons_self ..) hSame
      rw [hTask] at hEffect
      obtain ⟨hHas, hAfter⟩ := hEffect
      obtain ⟨hLater, hRest⟩ := ih ((List.mem_cons.mp hMem).resolve_left (Ne.symm hSame))
        fun k hk => hOthers k (List.mem_cons_of_mem _ hk)
      -- the entry was there before `j` took out another one
      obtain ⟨hEarlier, hNe⟩ := TableName.has_without.mp ((TableName.has_congr hAfter).mp hLater)
      rw [List.erase_cons_tail (beq_eq_false_iff_ne.mpr hSame ▸ Bool.false_ne_true)]
      refine ⟨hEarlier, .cons ?_ hRest⟩
      rw [hTask]
      exact ⟨TableName.has_without.mpr ⟨hHas, Ne.symm hNe⟩,
        (TableName.without_congr hAfter).trans TableName.without_comm⟩

/-- Removals before an addition leave the entries that it has loaded. -/
theorem has_of_loaded (h : Changes task τ q t u) (hMem : i ∈ q)
    (hAddition : ∀ t u, (task i).Effect τ t u → τ.Same l.tables t ∧ τ.Same c.tables u)
    (hOthers : ∀ j ∈ q, j ≠ i → ∃ n, task j = .taken τ n) (hHas : τ.Has l.tables name) :
    τ.Has t name := by
  induction h with
  | none _ => cases hMem
  | @cons j q t u v hEffect hRest ih =>
    by_cases hSame : j = i
    · subst hSame
      exact (TableName.has_congr (hAddition t u hEffect).1).mp hHas
    · obtain ⟨n, hTask⟩ := hOthers j (List.mem_cons_self ..) hSame
      rw [hTask] at hEffect
      have hLater := ih ((List.mem_cons.mp hMem).resolve_left (Ne.symm hSame))
        fun k hk => hOthers k (List.mem_cons_of_mem _ hk)
      exact (TableName.has_without.mp ((TableName.has_congr hEffect.2).mp hLater)).1

/-- An addition among removals comes first, when the table is as it has loaded it. -/
theorem addition_first (h : Changes task τ q t u) (hMem : i ∈ q) (hLoaded : τ.Same l.tables t)
    (hAddition : ∀ t u, (task i).Effect τ t u → τ.Same l.tables t ∧ τ.Same c.tables u)
    (hOthers : ∀ j ∈ q, j ≠ i → ∃ n, task j = .taken τ n) : Changes task τ (q.erase i) c.tables u := by
  cases h with
  | none _ => cases hMem
  | @cons j q t u v hEffect hRest =>
    by_cases hSame : j = i
    · subst hSame
      rw [List.erase_cons_head]
      exact hRest.congr_left (hAddition t u hEffect).2
    · obtain ⟨n, hTask⟩ := hOthers j (List.mem_cons_self ..) hSame
      rw [hTask] at hEffect
      have hLater : τ.Has u n :=
        hRest.has_of_loaded ((List.mem_cons.mp hMem).resolve_left (Ne.symm hSame)) hAddition
          (fun k hk => hOthers k (List.mem_cons_of_mem _ hk)) ((TableName.has_congr hLoaded).mpr hEffect.1)
      exact absurd rfl (TableName.has_without.mp ((TableName.has_congr hEffect.2).mp hLater)).2

end Changes

/-- The table in memory is what the connections that are ahead make of that in the
file. -/
def InStep (τ : TableName) (t : Tables) (task : Nat → ControlTask) (u : Tables) : Prop :=
  ∃ q : List Nat, q.Nodup ∧ (∀ i, i ∈ q ↔ (task i).Ahead τ) ∧ Changes task τ q t u

namespace InStep

variable {τ : TableName} {t t' u u' : Tables} {task : Nat → ControlTask} {i : Nat} {a : ControlTask}
  {name : String} {l c : ServerConfig}

theorem same_of_none (h : InStep τ t task u) (hNone : ∀ i, ¬ (task i).Ahead τ) : τ.Same u t := by
  obtain ⟨q, _, hMem, hChanges⟩ := h
  cases hChanges with
  | none hSame => exact hSame
  | cons _ _ => exact absurd ((hMem _).mp (List.mem_cons_self ..)) (hNone _)

theorem congr_file (h : InStep τ t task u) (hSame : τ.Same t' t) : InStep τ t' task u := by
  obtain ⟨q, hNodup, hMem, hChanges⟩ := h
  exact ⟨q, hNodup, hMem, hChanges.congr_left hSame⟩

/-- A connection goes on, and is ahead as before. -/
theorem update (h : InStep τ t task u) (hAlike : ControlTask.Alike τ (task i) a) (hSame : τ.Same u' u) :
    InStep τ t (Function.update task i a) u' := by
  obtain ⟨q, hNodup, hMem, hChanges⟩ := h
  have hAll : ∀ j, ControlTask.Alike τ (task j) (Function.update task i a j) :=
    Function.forall_update_iff task (p := fun j a => ControlTask.Alike τ (task j) a) |>.mpr
      ⟨hAlike, fun j _ => .refl⟩
  refine ⟨q, hNodup, fun j => (hMem j).trans (hAll j).1.symm, ?_⟩
  exact (hChanges.congr_task fun j hj => (hAll j).2 ((hMem j).mp hj)).congr_right hSame

/-- A connection gets ahead. -/
theorem join (h : InStep τ t task u) (hOld : ¬ (task i).Ahead τ) (hNew : a.Ahead τ)
    (hEffect : a.Effect τ u u') : InStep τ t (Function.update task i a) u' := by
  obtain ⟨q, hNodup, hMem, hChanges⟩ := h
  have hOut : i ∉ q := fun hIn => hOld ((hMem i).mp hIn)
  have hKeep : ∀ j ∈ q, Function.update task i a j = task j := by
    intro j hj
    refine Function.update_of_ne ?_ ..
    rintro rfl
    exact hOut hj
  refine ⟨q ++ [i], List.nodup_append'.mpr ⟨hNodup, List.nodup_singleton i, ?_⟩, fun j => ?_, ?_⟩
  · exact List.disjoint_singleton.mpr hOut
  · rw [List.mem_append, List.mem_singleton]
    by_cases hSame : j = i
    · subst hSame
      rw [Function.update_self]
      exact iff_of_true (.inr rfl) hNew
    · rw [Function.update_of_ne hSame]
      exact (or_iff_left hSame).trans (hMem j)
  · refine (hChanges.congr_task fun j hj => ?_).concat ?_
    · rw [hKeep j hj]
      exact fun _ _ => id
    · rw [Function.update_self]
      exact hEffect

/-- What a connection does when it has replaced the file. -/
theorem leave {q : List Nat} (hNodup : q.Nodup) (hMem : ∀ i, i ∈ q ↔ (task i).Ahead τ)
    (h : Changes task τ (q.erase i) t u) : InStep τ t (Function.update task i .idle) u := by
  refine ⟨q.erase i, hNodup.erase i, fun j => ?_, h.congr_task fun j hj => ?_⟩
  · rw [hNodup.mem_erase_iff]
    by_cases hSame : j = i
    · subst hSame
      rw [Function.update_self]
      exact iff_of_false (fun hj => hj.1 rfl) id
    · rw [Function.update_of_ne hSame]
      exact (and_iff_right hSame).trans (hMem j)
  · rw [Function.update_of_ne (hNodup.mem_erase_iff.mp hj).1]
    exact fun _ _ => id

/-- A removal replaces the file, while the others that are ahead are removals. -/
theorem leave_removal (h : InStep τ t task u) (hAhead : (task i).Ahead τ)
    (hRemoval : ∀ t u, (task i).Effect τ t u → τ.Has t name ∧ τ.Same u (τ.without t name))
    (hOthers : ∀ j, j ≠ i → (task j).Ahead τ → ∃ n, task j = .taken τ n) :
    τ.Has t name ∧ InStep τ (τ.without t name) (Function.update task i .idle) u := by
  obtain ⟨q, hNodup, hMem, hChanges⟩ := h
  obtain ⟨hHas, hRest⟩ := hChanges.removal_first ((hMem i).mpr hAhead) hRemoval
    fun j hj hOther => hOthers j hOther ((hMem j).mp hj)
  exact ⟨hHas, leave hNodup hMem hRest⟩

/-- An addition replaces the file, while the others that are ahead are removals. -/
theorem leave_addition (h : InStep τ t task u) (hAhead : (task i).Ahead τ) (hLoaded : τ.Same l.tables t)
    (hAddition : ∀ t u, (task i).Effect τ t u → τ.Same l.tables t ∧ τ.Same c.tables u)
    (hOthers : ∀ j, j ≠ i → (task j).Ahead τ → ∃ n, task j = .taken τ n) :
    InStep τ c.tables (Function.update task i .idle) u := by
  obtain ⟨q, hNodup, hMem, hChanges⟩ := h
  exact leave hNodup hMem (hChanges.addition_first ((hMem i).mpr hAhead) hLoaded hAddition
    fun j hj hOther => hOthers j hOther ((hMem j).mp hj))

end InStep

-- ---------------------------------------------------------------------------
-- Commands that do not meet
-- ---------------------------------------------------------------------------

namespace ControlRun

/-- A command replaces its table in memory only while that is as it has loaded it.
It replaces the file only while the file is as it has loaded it, by a temporary
file of its own, and while every other command that has changed the table in memory
is a removal that has yet to load. When its table in memory is changed, it does not
fail any more. -/
def Isolated (d : ControlRun) : ControlStep → Prop
  | .publish i => ∀ cmd l c, d.task i = .loaded cmd l c → cmd.table.Same l.tables d.tables
  | .rename i => ∀ cmd l c, d.task i = .saving cmd l c → d.disk.phase i = .written →
      d.disk.file = some l ∧ d.disk.tmp = some (some c) ∧
        ∀ j, j ≠ i → (d.task j).Ahead cmd.table → ∃ name, d.task j = .taken cmd.table name
  | .loadFails i => ∀ τ, ¬ (d.task i).Ahead τ
  | .writeFails i _ => ∀ τ, ¬ (d.task i).Ahead τ
  | .renameFails i => ∀ τ, ¬ (d.task i).Ahead τ
  | _ => True

variable {env : SignalingEnv Ct} {c₀ f : ServerConfig} {d : ControlRun} {i : Nat}

/-- Memory and file follow the commands answered so far. -/
structure Serial (env : SignalingEnv Ct) (c₀ : ServerConfig) (d : ControlRun) (f : ServerConfig) :
    Prop where
  exec : CtrlCommand.execAll env c₀ d.answered = .ok f
  file : d.disk.file = some f
  edited : ∀ i, (d.task i).Edited env
  inStep : ∀ τ, InStep τ f.tables d.task d.tables

/-- What the tasks have made of their configurations, when one is replaced. -/
theorem Serial.edited_set (h : Serial env c₀ d f) {a : ControlTask} (hNew : a.Edited env) :
    ∀ j, ((d.setTask i a).task j).Edited env :=
  Function.forall_update_iff d.task (p := fun _ a => ControlTask.Edited env a) |>.mpr
    ⟨hNew, fun j _ => h.edited j⟩

/-- A connection that is not ahead goes on to be not ahead. -/
theorem Serial.quiet (h : Serial env c₀ d f) {a : ControlTask} (hOld : ∀ τ, ¬ (d.task i).Ahead τ)
    (hQuiet : ∀ τ, ¬ a.Ahead τ) (hNew : a.Edited env) {disk : SharedFile Nat (Option ServerConfig)}
    (hFile : disk.file = d.disk.file) : Serial env c₀ { d.setTask i a with disk := disk } f where
  exec := h.exec
  file := hFile.trans h.file
  edited := h.edited_set hNew
  inStep τ := (h.inStep τ).update (.of_not (hOld τ) (hQuiet τ)) .refl

/-- A removal takes its entry out of the table in memory. -/
theorem Serial.takeOut (h : Serial env c₀ d f) {table : TableName} {name : String} {t : Tables}
    (hTask : d.task i = .begun (.remove table name)) (hTake : table.takeOut d.tables name = some t) :
    Serial env c₀ { d.setTask i (.taken table name) with tables := t } f where
  exec := h.exec
  file := h.file
  edited := h.edited_set trivial
  inStep σ := by
    have hOld : ¬ (d.task i).Ahead σ := by
      rw [hTask]
      exact id
    by_cases hTable : table = σ
    · subst hTable
      obtain ⟨hHas, rfl⟩ := TableName.takeOut_eq_some hTake
      exact (h.inStep table).join hOld rfl ⟨hHas, .refl⟩
    · exact (h.inStep σ).update (.of_not hOld hTable) (TableName.takeOut_other hTake (Ne.symm hTable))

/-- A removal loads the file, and is ahead as before. -/
theorem Serial.loadTaken (h : Serial env c₀ d f) {table : TableName} {name : String}
    (hTask : d.task i = .taken table name) :
    Serial env c₀ (d.save i (.remove table name) f (table.removeFrom f name).1) f where
  exec := h.exec
  file := h.file
  edited := h.edited_set rfl
  inStep σ := by
    refine (h.inStep σ).update ?_ .refl
    rw [hTask]
    exact ⟨Iff.rfl, fun _ _ _ => id⟩

/-- An addition replaces the table in memory. -/
theorem Serial.publish (h : Serial env c₀ d f) {cmd : CtrlCommand} {l c : ServerConfig}
    (hTask : d.task i = .loaded cmd l c) (hLoaded : cmd.table.Same l.tables d.tables) :
    Serial env c₀ { d.save i cmd l c with tables := cmd.table.publish d.tables c.tables } f := by
  obtain ⟨hAdds, hEdit⟩ : (∀ table name, cmd ≠ .remove table name) ∧ cmd.edit env l = .ok c := by
    have hEdited := h.edited i
    rw [hTask] at hEdited
    exact hEdited
  refine ⟨h.exec, h.file, h.edited_set hEdit, fun σ => ?_⟩
  have hOld : ¬ (d.task i).Ahead σ := by
    rw [hTask]
    exact id
  by_cases hTable : cmd.table = σ
  · subst hTable
    by_cases hChange : cmd.table.Same l.tables c.tables
    · -- the command leaves its table as it is
      refine (h.inStep cmd.table).update (.of_not hOld fun hNew => ?_)
        (TableName.publish_same.trans (hChange.symm.trans hLoaded))
      exact ((ControlTask.ahead_saving hAdds).mp hNew).2 hChange
    · exact (h.inStep cmd.table).join hOld ((ControlTask.ahead_saving hAdds).mpr ⟨rfl, hChange⟩)
        ((ControlTask.effect_saving hAdds).mpr ⟨hLoaded, TableName.publish_same.symm⟩)
  · exact (h.inStep σ).update (.of_not hOld fun hNew => hTable hNew.table_eq)
      (TableName.publish_other (Ne.symm hTable))

/-- A removal replaces the file, which still has its entry. -/
theorem Serial.renameRemove (h : Serial env c₀ d f) {table : TableName} {name : String} {c : ServerConfig}
    (hTask : d.task i = .saving (.remove table name) f c)
    (hOthers : ∀ j, j ≠ i → (d.task j).Ahead table → ∃ n, d.task j = .taken table n)
    {disk : SharedFile Nat (Option ServerConfig)} (hFile : disk.file = some c) :
    Serial env c₀ { d.setTask i .idle with
      disk := disk, answered := d.answered ++ [.remove table name] } c := by
  have hAhead : (d.task i).Ahead table := hTask ▸ rfl
  have hEdit : CtrlCommand.edit env f (.remove table name) = .ok c := by
    have hEdited := h.edited i
    rw [hTask] at hEdited
    exact hEdited
  cases hEdit
  have hRemoval : ∀ t u, (d.task i).Effect table t u →
      table.Has t name ∧ table.Same u (table.without t name) := by
    rw [hTask]
    exact fun _ _ => id
  obtain ⟨hHas, hRest⟩ := (h.inStep table).leave_removal hAhead hRemoval hOthers
  refine ⟨?_, hFile, h.edited_set trivial, fun σ => ?_⟩
  · exact CtrlCommand.execAll_concat h.exec (CtrlCommand.exec_remove (TableName.removeFrom_snd.mpr hHas))
  · by_cases hTable : table = σ
    · subst hTable
      exact hRest.congr_file TableName.removeFrom_tables
    · have hOld : ¬ (d.task i).Ahead σ := by
        rw [hTask]
        exact hTable
      exact ((h.inStep σ).update (.of_not hOld id) .refl).congr_file
        (TableName.removeFrom_other (Ne.symm hTable))

/-- An addition replaces the file. -/
theorem Serial.renameAdd (h : Serial env c₀ d f) {cmd : CtrlCommand} {c : ServerConfig}
    (hAdds : ∀ table name, cmd ≠ .remove table name) (hTask : d.task i = .saving cmd f c)
    (hOthers : ∀ j, j ≠ i → (d.task j).Ahead cmd.table → ∃ n, d.task j = .taken cmd.table n)
    {disk : SharedFile Nat (Option ServerConfig)} (hFile : disk.file = some c) :
    Serial env c₀ { d.setTask i .idle with disk := disk, answered := d.answered ++ [cmd] } c := by
  have hExec : cmd.exec env f = .ok c := by
    have hEdited := h.edited i
    rw [hTask] at hEdited
    exact (CtrlCommand.exec_add hAdds).trans hEdited
  refine ⟨CtrlCommand.execAll_concat h.exec hExec, hFile, h.edited_set trivial, fun σ => ?_⟩
  by_cases hLead : (d.task i).Ahead σ
  · -- it was ahead in this table
    have hTable : cmd.table = σ := by
      rw [hTask] at hLead
      exact hLead.table_eq
    subst hTable
    refine (h.inStep cmd.table).leave_addition hLead .refl (fun t u hEffect => ?_) hOthers
    rw [hTask] at hEffect
    exact (ControlTask.effect_saving hAdds).mp hEffect
  · refine ((h.inStep σ).update (.of_not hLead id) .refl).congr_file ?_
    by_cases hTable : σ = cmd.table
    · subst hTable
      rw [hTask, ControlTask.ahead_saving hAdds] at hLead
      exact (not_not.mp fun hChange => hLead ⟨rfl, hChange⟩).symm
    · exact CtrlCommand.exec_other hExec hTable

/-- The file is replaced, and the command is answered. -/
theorem Serial.rename (h : Serial env c₀ d f) {cmd : CtrlCommand} {c : ServerConfig}
    (hTask : d.task i = .saving cmd f c)
    (hOthers : ∀ j, j ≠ i → (d.task j).Ahead cmd.table → ∃ n, d.task j = .taken cmd.table n)
    {disk : SharedFile Nat (Option ServerConfig)} (hFile : disk.file = some c) :
    Serial env c₀ { d.setTask i .idle with disk := disk, answered := d.answered ++ [cmd] } c := by
  by_cases hRemoval : ∃ table name, cmd = .remove table name
  · obtain ⟨table, name, rfl⟩ := hRemoval
    exact h.renameRemove hTask hOthers hFile
  · exact h.renameAdd (fun table name hCmd => hRemoval ⟨table, name, hCmd⟩) hTask hOthers hFile

/-- A command that has changed nothing ends. -/
theorem Serial.dropped (h : Serial env c₀ d f) (hOld : ∀ τ, ¬ (d.task i).Ahead τ)
    {disk : SharedFile Nat (Option ServerConfig)} (hFile : disk.file = d.disk.file) :
    Serial env c₀ { d.setTask i .idle with disk := disk } f :=
  h.quiet (a := .idle) hOld (fun _ => id) trivial hFile

/-- Every isolated step keeps memory and file in line with the answers. -/
theorem Serial.next (h : Serial env c₀ d f) {e : ControlStep} (hG : Isolated d e) :
    ∃ f', Serial env c₀ (next env d e) f' := by
  have hMove := move_next env d e
  generalize ControlRun.next env d e = d' at hMove
  cases hMove with
  | stay => exact ⟨f, h⟩
  | @request i cmd hTask =>
    exact ⟨f, h.quiet (a := .begun cmd) (by rw [hTask]; exact fun _ => id) (fun _ => id) trivial rfl⟩
  | @missing i table name hTask =>
    exact ⟨f, h.dropped (by rw [hTask]; exact fun _ => id) rfl⟩
  | takeOut hTask hTake => exact ⟨f, h.takeOut hTask hTake⟩
  | @load i cmd l c hTask hFile hAdds hEdit =>
    exact ⟨f, h.quiet (a := .loaded cmd l c) (by rw [hTask]; exact fun _ => id) (fun _ => id)
      ⟨hAdds, hEdit⟩ rfl⟩
  | @refused i cmd _ hTask =>
    exact ⟨f, h.dropped (by rw [hTask]; exact fun _ => id) rfl⟩
  | @loadTaken i table name l hTask hFile =>
    rw [h.file] at hFile
    cases hFile
    exact ⟨f, h.loadTaken hTask⟩
  | @lost i table name hTask hFile =>
    rw [h.file] at hFile
    cases hFile
  | loadFails _ => exact ⟨f, h.dropped hG rfl⟩
  | @publish i cmd l c hTask => exact ⟨f, h.publish hTask (hG cmd l c hTask)⟩
  | @write i =>
    have hFile : (d.disk.step (.write i)).file = d.disk.file := by
      rw [SharedFile.step_file]
      rfl
    exact ⟨f, h.exec, hFile.trans h.file, h.edited, h.inStep⟩
  | writeFails _ => exact ⟨f, h.dropped hG rfl⟩
  | @rename i cmd l c a hTask hPhase hTmp =>
    obtain ⟨hFile, hOwn, hOthers⟩ := hG cmd l c hTask hPhase
    rw [h.file] at hFile
    cases hFile
    refine ⟨c, h.rename hTask hOthers ?_⟩
    rw [SharedFile.step_file]
    unfold SharedFile.publishes
    dsimp only
    rw [hPhase, hOwn]
    rfl
  | @overtaken i cmd l c hTask hPhase hTmp =>
    obtain ⟨_, hOwn, _⟩ := hG cmd l c hTask hPhase
    rw [hTmp] at hOwn
    cases hOwn
  | renameFails _ => exact ⟨f, h.dropped hG rfl⟩

/-- In every run of isolated steps, from any configuration and with any number of
connections, the file is what the commands answered `ok` make of the configuration,
in the order of their answers, and when no command is under way, so is memory. -/
theorem control_serial (env : SignalingEnv Ct) (c₀ : ServerConfig) {d : ControlRun}
    (h : (machine env c₀).Reach Isolated d) :
    ∃ f, CtrlCommand.execAll env c₀ d.answered = .ok f ∧ d.disk.file = some f ∧
      (d.Settled → d.tables = f.tables) := by
  obtain ⟨f, hSerial⟩ : ∃ f, Serial env c₀ d f := by
    refine Machine.Reach.invariant (I := fun d => ∃ f, Serial env c₀ d f) ?_ ?_ h
    · rintro d ⟨hTables, hFile, _, hIdle, hAnswered⟩
      refine ⟨c₀, by rw [hAnswered]; rfl, hFile, fun i => ?_, fun τ => ⟨[], .nil, fun i => ?_, .none ?_⟩⟩
      · rw [hIdle i]
        trivial
      · rw [hIdle i]
        exact iff_of_false List.not_mem_nil id
      · rw [hTables]
        exact .refl
    · rintro d e ⟨f, hSerial⟩ _ hG
      exact hSerial.next hG
  refine ⟨f, hSerial.exec, hSerial.file, fun hSettled => TableName.eq_of_same fun τ => ?_⟩
  refine (hSerial.inStep τ).same_of_none fun i hAhead => ?_
  rw [hSettled i] at hAhead
  exact hAhead

/-- A server that runs with this configuration. -/
def startOf (c : ServerConfig) : ControlRun :=
  ofControl { tables := c.tables, file := c, token := none }

theorem startOf_reach {G : ControlRun → ControlStep → Prop} (env : SignalingEnv Ct) (c : ServerConfig) :
    (machine env c).Reach G (startOf c) := .init ⟨rfl, rfl, fun _ => rfl, fun _ => rfl, rfl⟩

/-- Two rooms. -/
def twoRooms : ServerConfig := { rooms := [⟨"office", "a1"⟩, ⟨"lab", "b2"⟩] }

/-- Both rooms are removed at a time, each by a connection of its own. -/
def removeTwo : List ControlStep :=
  [.request 0 (.remove .rooms "office"), .request 1 (.remove .rooms "lab"), .takeOut 1, .takeOut 0,
    .load 0, .write 0, .rename 0, .load 1, .write 1, .rename 1]

theorem removeTwo_isolated :
    (machine officeEnv twoRooms).Admissible Isolated (startOf twoRooms) removeTwo := by
  refine ⟨trivial, trivial, trivial, trivial, trivial, trivial, trivial, trivial, trivial, trivial,
    trivial, trivial, trivial, ?_, trivial, trivial, trivial, trivial, trivial, ?_, trivial⟩
  · intro cmd l c hTask _
    cases hTask
    refine ⟨rfl, rfl, fun j hj hAhead => ?_⟩
    match j with
    | 0 => exact absurd rfl hj
    | 1 => exact ⟨"lab", rfl⟩
    | _ + 2 => exact hAhead.elim
  · intro cmd l c hTask _
    cases hTask
    refine ⟨rfl, rfl, fun j hj hAhead => ?_⟩
    match j with
    | 0 => exact hAhead.elim
    | 1 => exact absurd rfl hj
    | _ + 2 => exact hAhead.elim

theorem control_serial_rooms :
    ∃ f, CtrlCommand.execAll officeEnv twoRooms [.remove .rooms "office", .remove .rooms "lab"] = .ok f ∧
      ((machine officeEnv twoRooms).run (startOf twoRooms) removeTwo).disk.file = some f ∧
      (((machine officeEnv twoRooms).run (startOf twoRooms) removeTwo).Settled →
        ((machine officeEnv twoRooms).run (startOf twoRooms) removeTwo).tables = f.tables) :=
  control_serial officeEnv twoRooms
    (Machine.reach_run (startOf_reach officeEnv twoRooms) removeTwo_isolated)

/-- Two connections add a room each. Both load the file before either replaces it. -/
def addTwo : List ControlStep :=
  [.request 0 (.addRoom "office" "secret-token-1"), .request 1 (.addRoom "lab" "secret-token-2"),
    .load 0, .load 1, .publish 0, .write 0, .rename 0, .publish 1, .write 1, .rename 1]

/-- A connection adds a room, and its save fails. -/
def addFailing : List ControlStep :=
  [.request 0 (.addRoom "office" "secret-token-1"), .load 0, .publish 0, .write 0, .renameFails 0]

/-- Both additions are answered `ok` and one of the rooms is gone, in memory and in
the file: no order of the two commands ends there. An addition whose save fails is
answered by an error, and its room is there in memory. -/
theorem lost_update :
    (let d := (machine officeEnv {}).run (startOf {}) addTwo
     d.answered = [.addRoom "office" "secret-token-1", .addRoom "lab" "secret-token-2"] ∧
      d.disk.file = some { rooms := [⟨"lab", hashToken officeEnv "secret-token-2"⟩] } ∧
      d.tables.rooms = [⟨"lab", hashToken officeEnv "secret-token-2"⟩] ∧
      ∀ order, order.Perm d.answered → CtrlCommand.execAll officeEnv {} order ≠
        .ok { rooms := [⟨"lab", hashToken officeEnv "secret-token-2"⟩] }) ∧
    (let d := (machine officeEnv {}).run (startOf {}) addFailing
     d.answered = [] ∧ d.disk.file = some {} ∧
      d.tables.rooms = [⟨"office", hashToken officeEnv "secret-token-1"⟩]) := by
  refine ⟨⟨by decide +kernel, by decide +kernel, by decide +kernel, fun order hOrder => ?_⟩,
    by decide +kernel, by decide +kernel, by decide +kernel⟩
  have hOrders : ∀ order ∈ ([.addRoom "office" "secret-token-1", .addRoom "lab" "secret-token-2"] :
      List CtrlCommand).permutations', CtrlCommand.execAll officeEnv {} order ≠
        .ok { rooms := [⟨"lab", hashToken officeEnv "secret-token-2"⟩] } := by decide +kernel
  exact hOrders order (List.mem_permutations'.mpr hOrder)

end ControlRun

end LinkMesh
