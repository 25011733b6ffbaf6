import LinkMesh.Basis.KeyMap
import LinkMesh.Basis.Machine
import LinkMesh.Basis.SeqMap

/-!
# The connection manager

`ConnManager` of `linkmesh-client/src/connection.rs`: `start` and `stop`, which
any number of control connections may call at once, and the task that runs and
remakes the connection of a server. Between two awaits of a call or a task
others run, so that a step is what is done under one lock, or to the quit
channel.

A task stands for its start call too, from the making of its connection, and for
the stop call that took its sender; its number stands for the channel.

## Results

* `told_task_ends`    — a task that is told, and hears it, comes to its end.
* `registry_matches`  — the entries are the running tasks, in every run in which
  no call or task gets in the way of another.
* `reconnects_until_told_iff` — a task that is to reconnect keeps trying until it
  is told, iff no connection fails to be remade before.
-/

namespace LinkMesh

open Std

-- ---------------------------------------------------------------------------
-- The task of a connection
-- ---------------------------------------------------------------------------

inductive ConnExit where
  | stopped
  | error
  deriving DecidableEq, Repr

/-- Where a task is. A connection has missed the signal if its receiver was
subscribed after it. -/
inductive LoopPhase where
  /-- `start` has made the channel and the connection -/
  | made
  | handled
  | entered
  | connecting (missed : Bool)
  | up (missed : Bool)
  | exited (exit : ConnExit)
  | sleeping
  | awake
  /-- the task has not been told to stop, as far as it knows -/
  | checked
  | recreating (missed : Bool)
  | remade (missed : Bool)
  | left
  | unhandled
  | ended
  deriving DecidableEq, Repr

/-- What the stop call has done that took the sender of a task. -/
inductive StopPhase where
  | idle
  | taken
  | told
  | finished
  deriving DecidableEq, Repr

structure LoopTask where
  server : String
  reconnectSecs : Nat
  phase : LoopPhase := .made
  stop : StopPhase := .idle
  deriving DecidableEq, Repr

inductive LoopEvent where
  | handle
  | enter
  | spawn
  /-- the connection is authenticated and registered -/
  | connected
  | failed
  /-- the main loop of the connection notices the signal -/
  | quit
  | judge
  | slept
  | roused
  | look
  | subscribe
  | recreated (ok : Bool)
  | rehandle
  | unhandle
  | unquit
  deriving DecidableEq, Repr

namespace LoopTask

/-- The value of the quit channel. -/
def told (t : LoopTask) : Bool :=
  match t.stop with
  | .told => true
  | .finished => true
  | _ => false

/-- The head of the loop, `running.take()`. -/
def takeRunning : Option Bool → LoopPhase
  | some missed => .connecting missed
  | none => .left

/-- What the task makes of the end of its connection. -/
def judge (exit : ConnExit) (t : LoopTask) : LoopPhase :=
  if t.told ∨ t.reconnectSecs = 0 then .left
  else
    match exit with
    | .stopped => .left
    | .error => .sleeping

/-- Where the task is after an event, if that can happen. -/
def advance (t : LoopTask) (e : LoopEvent) : Option LoopPhase :=
  match e, t.phase with
  | .handle, .made => some .handled
  | .enter, .handled => some .entered
  | .spawn, .entered => some (takeRunning (some false))
  | .connected, .connecting missed => some (.up missed)
  | .failed, .connecting _ => some (.exited .error)
  | .quit, .up missed => if t.told ∧ missed = false then some (.exited .stopped) else none
  | .judge, .exited exit => some (judge exit t)
  | .slept, .sleeping => some .awake
  | .roused, .sleeping => if t.told then some .left else none
  | .look, .awake => some (if t.told then .left else .checked)
  | .subscribe, .checked => some (.recreating t.told)
  -- without a new connection the loop continues with none to take
  | .recreated ok, .recreating missed => some (if ok then .remade missed else takeRunning none)
  | .rehandle, .remade missed => some (takeRunning (some missed))
  | .unhandle, .left => some .unhandled
  | .unquit, .unhandled => some .ended
  | _, _ => none

end LoopTask

-- ---------------------------------------------------------------------------
-- The manager
-- ---------------------------------------------------------------------------

/-- The manager with its calls and tasks. A handle is that of the connection of a task. -/
structure ConnManager where
  quitters : ExtTreeMap String Nat
  handles : ExtTreeMap String Nat
  /-- the start calls that have found no entry -/
  starting : List String
  tasks : ExtTreeMap Nat LoopTask

inductive ManagerEvent where
  /-- a start call looks for an entry -/
  | start (server : String)
  /-- the configuration cannot be read, or the connection not be made -/
  | refuse (server : String)
  /-- the channel and the connection are made; the channel is a new one -/
  | create (server : String) (reconnectSecs i : Nat)
  /-- a stop call takes the sender -/
  | stop (server : String)
  /-- it sends the signal -/
  | tell (i : Nat)
  /-- it removes the handle -/
  | finish (i : Nat)
  | act (i : Nat) (e : LoopEvent)
  deriving DecidableEq, Repr

namespace ConnManager

/-- What a step of a task, or of its start call, does to the two maps. -/
def touch (i : Nat) (server : String) (s : ConnManager) : LoopEvent → ConnManager
  | .handle => { s with handles := s.handles.insert server i }
  | .enter => { s with quitters := s.quitters.insert server i }
  | .rehandle => { s with handles := s.handles.insert server i }
  | .unhandle => { s with handles := s.handles.erase server }
  | .unquit => { s with quitters := s.quitters.erase server }
  | _ => s

def next (s : ConnManager) : ManagerEvent → ConnManager
  | .start server => if server ∈ s.quitters then s else { s with starting := server :: s.starting }
  | .refuse server => { s with starting := s.starting.erase server }
  | .create server reconnectSecs i =>
    if server ∈ s.starting ∧ i ∉ s.tasks then
      { s with
        starting := s.starting.erase server
        tasks := s.tasks.insert i { server, reconnectSecs } }
    else s
  | .stop server =>
    match s.quitters[server]? with
    | some i =>
      { s with
        quitters := s.quitters.erase server
        -- no task has its sender taken twice
        tasks := s.tasks.modify i fun t => if t.stop = .idle then { t with stop := .taken } else t }
    | none => s
  | .tell i =>
    match s.tasks[i]? with
    | none => s
    | some t =>
      if t.stop = .taken then { s with tasks := s.tasks.insert i { t with stop := .told } } else s
  | .finish i =>
    match s.tasks[i]? with
    | none => s
    | some t =>
      if t.stop = .told then
        { s with handles := s.handles.erase t.server, tasks := s.tasks.insert i { t with stop := .finished } }
      else s
  | .act i e =>
    match s.tasks[i]? with
    | none => s
    | some t =>
      match t.advance e with
      | none => s
      | some phase => { s.touch i t.server e with tasks := s.tasks.insert i { t with phase } }

def init : ConnManager := ⟨∅, ∅, [], ∅⟩

def machine : Machine ConnManager ManagerEvent where
  init s := s = init
  enabled _ _ := True
  next := next

@[simp] theorem machine_next (s : ConnManager) (e : ManagerEvent) : machine.next s e = s.next e := rfl

end ConnManager

-- ---------------------------------------------------------------------------
-- Where a task goes
-- ---------------------------------------------------------------------------

namespace LoopPhase

def isStarting : LoopPhase → Bool
  | .made => true
  | .handled => true
  | .entered => true
  | _ => false

/-- The task has been spawned, and has not ended. -/
def isLive (p : LoopPhase) : Bool := !p.isStarting && p ≠ .ended

/-- The connection does not hear its channel, or will not. -/
def missed : LoopPhase → Bool
  | .connecting missed => missed
  | .up missed => missed
  | .recreating missed => missed
  | .remade missed => missed
  | _ => false

/-- The task has left its loop. -/
def hasLeft : LoopPhase → Bool
  | .left => true
  | .unhandled => true
  | .ended => true
  | _ => false

/-- How far a task that has been told is from its end, at most. -/
def rank : LoopPhase → Nat
  | .made => 13
  | .handled => 12
  | .entered => 11
  | .checked => 10
  | .recreating _ => 9
  | .remade _ => 8
  | .connecting _ => 7
  | .up _ => 6
  | .exited _ => 5
  | .sleeping => 4
  | .awake => 3
  | .left => 2
  | .unhandled => 1
  | .ended => 0

end LoopPhase

namespace LoopTask

variable {t : LoopTask} {e : LoopEvent} {p : LoopPhase}

/-- What an event can make of a task. -/
inductive Step (t : LoopTask) : LoopEvent → LoopPhase → Prop where
  | handle : t.phase = .made → Step t .handle .handled
  | enter : t.phase = .handled → Step t .enter .entered
  | spawn : t.phase = .entered → Step t .spawn (.connecting false)
  | connected {missed : Bool} : t.phase = .connecting missed → Step t .connected (.up missed)
  | failed {missed : Bool} : t.phase = .connecting missed → Step t .failed (.exited .error)
  | quit : t.phase = .up false → t.told = true → Step t .quit (.exited .stopped)
  | done {exit : ConnExit} : t.phase = .exited exit →
      t.told = true ∨ t.reconnectSecs = 0 ∨ exit = .stopped → Step t .judge .left
  | again {exit : ConnExit} : t.phase = .exited exit → Step t .judge .sleeping
  | slept : t.phase = .sleeping → Step t .slept .awake
  | roused : t.phase = .sleeping → t.told = true → Step t .roused .left
  | leave : t.phase = .awake → t.told = true → Step t .look .left
  | stay : t.phase = .awake → t.told = false → Step t .look .checked
  | subscribe : t.phase = .checked → Step t .subscribe (.recreating t.told)
  | remade {missed : Bool} : t.phase = .recreating missed → Step t (.recreated true) (.remade missed)
  | lost {missed : Bool} : t.phase = .recreating missed → Step t (.recreated false) .left
  | rehandle {missed : Bool} : t.phase = .remade missed → Step t .rehandle (.connecting missed)
  | unhandle : t.phase = .left → Step t .unhandle .unhandled
  | unquit : t.phase = .unhandled → Step t .unquit .ended

theorem judge_step {exit : ConnExit} (hPhase : t.phase = .exited exit) : t.Step .judge (t.judge exit) := by
  unfold judge
  split
  · rename_i hDone
    exact .done hPhase (hDone.imp_right .inl)
  · split
    · exact .done hPhase (.inr (.inr rfl))
    · exact .again hPhase

/-- An event makes nothing else of a task. -/
theorem advance_step (h : t.advance e = some p) : t.Step e p := by
  unfold advance at h
  split at h
  · rename_i hPhase
    cases h
    exact .handle hPhase
  · rename_i hPhase
    cases h
    exact .enter hPhase
  · rename_i hPhase
    cases h
    exact .spawn hPhase
  · rename_i hPhase
    cases h
    exact .connected hPhase
  · rename_i hPhase
    cases h
    exact .failed hPhase
  · rename_i hPhase
    obtain ⟨⟨hTold, rfl⟩, hSame⟩ := Option.ite_none_right_eq_some.mp h
    cases hSame
    exact .quit hPhase hTold
  · rename_i hPhase
    cases h
    exact judge_step hPhase
  · rename_i hPhase
    cases h
    exact .slept hPhase
  · rename_i hPhase
    obtain ⟨hTold, hSame⟩ := Option.ite_none_right_eq_some.mp h
    cases hSame
    exact .roused hPhase hTold
  · rename_i hPhase
    cases h
    split
    · rename_i hTold
      exact .leave hPhase hTold
    · rename_i hUntold
      exact .stay hPhase (Bool.eq_false_iff.mpr hUntold)
  · rename_i hPhase
    cases h
    exact .subscribe hPhase
  · rename_i ok _ hPhase
    cases h
    cases ok with
    | true => exact .remade hPhase
    | false => exact .lost hPhase
  · rename_i hPhase
    cases h
    exact .rehandle hPhase
  · rename_i hPhase
    cases h
    exact .unhandle hPhase
  · rename_i hPhase
    cases h
    exact .unquit hPhase
  · cases h

/-- Where a task goes: into its loop, out of it, or about in it. -/
theorem advance_cases (h : t.advance e = some p) :
    (e = .handle ∧ t.phase = .made ∧ p = .handled) ∨
    (e = .enter ∧ t.phase = .handled ∧ p = .entered) ∨
    (e = .spawn ∧ t.phase = .entered ∧ p = .connecting false) ∨
    (e = .unquit ∧ t.phase = .unhandled ∧ p = .ended) ∨
    ((e ≠ .enter ∧ e ≠ .spawn ∧ e ≠ .unquit) ∧ t.phase.isLive = true ∧ p.isLive = true) := by
  cases advance_step h with
  | handle hPhase => exact .inl ⟨rfl, hPhase, rfl⟩
  | enter hPhase => exact .inr (.inl ⟨rfl, hPhase, rfl⟩)
  | spawn hPhase => exact .inr (.inr (.inl ⟨rfl, hPhase, rfl⟩))
  | unquit hPhase => exact .inr (.inr (.inr (.inl ⟨rfl, hPhase, rfl⟩)))
  | _ hPhase =>
    right; right; right; right
    rw [hPhase]
    exact ⟨⟨nofun, nofun, nofun⟩, rfl, rfl⟩

/-- What is subscribed before the signal hears it. -/
theorem advance_missed (h : t.advance e = some p) (hHears : t.phase.missed = false)
    (hChecked : t.told = true → t.phase ≠ .checked) : p.missed = false := by
  cases advance_step h with
  | connected hPhase => rwa [hPhase] at hHears
  | remade hPhase => rwa [hPhase] at hHears
  | rehandle hPhase => rwa [hPhase] at hHears
  | subscribe hPhase =>
    rw [LoopPhase.missed, Bool.eq_false_iff]
    exact fun hTold => hChecked hTold hPhase
  | _ => rfl

theorem advance_checked (h : t.advance e = some p) (hTold : t.told = true) : p ≠ .checked := by
  cases advance_step h with
  | stay _ hUntold =>
    rw [hTold] at hUntold
    cases hUntold
  | _ => nofun

theorem advance_rank (h : t.advance e = some p) (hTold : t.told = true) : p.rank < t.phase.rank := by
  cases advance_step h with
  | stay _ hUntold =>
    rw [hTold] at hUntold
    cases hUntold
  | _ hPhase =>
    rw [hPhase]
    simp [LoopPhase.rank]

theorem advance_stopped (h : t.advance e = some p) (hExit : p = .exited .stopped) : t.told = true := by
  cases advance_step h with
  | quit _ hTold => exact hTold
  | _ => cases hExit

theorem advance_left (h : t.advance e = some p) (hIn : t.phase.hasLeft = false) (hLeft : p.hasLeft = true) :
    t.told = true ∨ t.reconnectSecs = 0 ∨ t.phase = .exited .stopped ∨
     (e = .recreated false ∧ ∃ m, t.phase = .recreating m) := by
  cases advance_step h with
  | done hPhase hDone =>
    rcases hDone with hTold | hNever | rfl
    · exact .inl hTold
    · exact .inr (.inl hNever)
    · exact .inr (.inr (.inl hPhase))
  | roused _ hTold => exact .inl hTold
  | leave _ hTold => exact .inl hTold
  | lost hPhase => exact .inr (.inr (.inr ⟨rfl, _, hPhase⟩))
  | unhandle hPhase =>
    rw [hPhase] at hIn
    cases hIn
  | unquit hPhase =>
    rw [hPhase] at hIn
    cases hIn
  | _ => cases hLeft

-- ---------------------------------------------------------------------------
-- The end of a task
-- ---------------------------------------------------------------------------

/-- A step of the task itself. -/
def Moves (t : LoopTask) (e : LoopEvent) (u : LoopTask) : Prop :=
  ∃ p, t.advance e = some p ∧ u = { t with phase := p }

/-- Whatever the task does, it is over after so many steps, and nothing keeps it
from the next one. -/
def ComesToEnd (t : LoopTask) : Prop :=
  ∃ n, ∀ es u, StepPath Moves t es u → es.length ≤ n ∧ (u.phase = .ended ∨ ∃ e v, u.Moves e v)

/-- A task that has been told goes on if it hears its channel. -/
theorem moves_of_told (hTold : t.told = true) (hHears : t.phase.missed = false) :
    t.phase = .ended ∨ ∃ e v, t.Moves e v := by
  have hMoves : ∀ e p, t.advance e = some p → ∃ e v, t.Moves e v := fun e p h => ⟨e, _, p, h, rfl⟩
  cases hPhase : t.phase with
  | made => exact .inr (hMoves .handle .handled (by simp [advance, hPhase]))
  | handled => exact .inr (hMoves .enter .entered (by simp [advance, hPhase]))
  | entered => exact .inr (hMoves .spawn (.connecting false) (by simp [advance, hPhase, takeRunning]))
  | connecting missed => exact .inr (hMoves .failed (.exited .error) (by simp [advance, hPhase]))
  | up missed =>
    rw [hPhase] at hHears
    obtain rfl : missed = false := hHears
    exact .inr (hMoves .quit (.exited .stopped) (by simp [advance, hPhase, hTold]))
  | exited exit => exact .inr (hMoves .judge (judge exit t) (by simp [advance, hPhase]))
  | sleeping => exact .inr (hMoves .slept .awake (by simp [advance, hPhase]))
  | awake => exact .inr (hMoves .look .left (by simp [advance, hPhase, hTold]))
  | checked => exact .inr (hMoves .subscribe (.recreating true) (by simp [advance, hPhase, hTold]))
  | recreating missed => exact .inr (hMoves (.recreated true) (.remade missed) (by simp [advance, hPhase]))
  | remade missed =>
    exact .inr (hMoves .rehandle (.connecting missed) (by simp [advance, hPhase, takeRunning]))
  | left => exact .inr (hMoves .unhandle .unhandled (by simp [advance, hPhase]))
  | unhandled => exact .inr (hMoves .unquit .ended (by simp [advance, hPhase]))
  | ended => exact .inl rfl

/-- A task that has been told, and hears it, comes to its end. -/
theorem told_task_ends (hTold : t.told = true) (hHears : t.phase.missed = false)
    (hChecked : t.phase ≠ .checked) : t.ComesToEnd := by
  refine ⟨t.phase.rank, fun es u hPath => ?_⟩
  have hBound : es.length + u.phase.rank ≤ t.phase.rank ∧
      (u.phase = .ended ∨ ∃ e v, u.Moves e v) := by
    induction es generalizing t with
    | nil =>
      cases hPath
      exact ⟨by simp, moves_of_told hTold hHears⟩
    | cons e es ih =>
      obtain ⟨_, ⟨p, hAdvance, rfl⟩, hRest⟩ := hPath
      have hHears' : p.missed = false := advance_missed hAdvance hHears fun _ => hChecked
      have hRank : p.rank < t.phase.rank := advance_rank hAdvance hTold
      obtain ⟨hLength, hNext⟩ := ih (t := { t with phase := p }) hTold hHears'
        (advance_checked hAdvance hTold) hRest
      dsimp only at hLength
      rw [List.length_cons]
      exact ⟨by omega, hNext⟩
  exact ⟨by omega, hBound.2⟩

-- ---------------------------------------------------------------------------
-- The entries and the tasks
-- ---------------------------------------------------------------------------

/-- The task is live and has not been told to stop. -/
def Running (t : LoopTask) : Prop := t.phase.isLive = true ∧ t.told = false

instance : Decidable t.Running := inferInstanceAs (Decidable (_ ∧ _))

/-- The server under which a task has an entry. -/
def entry (t : LoopTask) : Option String :=
  if (t.phase = .entered ∨ t.phase.isLive = true) ∧ t.stop = .idle then some t.server else none

theorem entry_eq_some {server : String} : t.entry = some server ↔
    ((t.phase = .entered ∨ t.phase.isLive = true) ∧ t.stop = .idle) ∧ t.server = server := by
  unfold entry
  split
  · rename_i hEntered
    rw [Option.some.injEq]
    exact (and_iff_right hEntered).symm
  · rename_i hNot
    refine ⟨nofun, ?_⟩
    rintro ⟨hEntered, _⟩
    exact absurd hEntered hNot

end LoopTask

namespace ConnManager

variable {s : ConnManager} {i : Nat} {t t' : LoopTask} {e : LoopEvent} {server : String}

/-- No call that is about the server is in progress. -/
def Quiet (server : String) (s : ConnManager) : Prop :=
  server ∉ s.starting ∧ ∀ e ∈ s.tasks.toList, e.2.server = server →
    e.2.phase.isStarting = false ∧ (e.2.stop = .idle ∨ e.2.stop = .finished)

/-- At most one task of each server is running. -/
def OneRunning (tasks : ExtTreeMap Nat LoopTask) : Prop :=
  ∀ (i j : Nat) (t u : LoopTask), tasks[i]? = some t → tasks[j]? = some u → t.server = u.server → t.Running → u.Running → i = j

/-- The registry matches the tasks, and a task that has been told stops. -/
structure Matches (s : ConnManager) : Prop where
  one : OneRunning s.tasks
  entry : ∀ server, s.Quiet server → ∀ i, s.quitters[server]? = some i ↔
    ∃ t, s.tasks[i]? = some t ∧ t.server = server ∧ t.Running
  ends : ∀ (i : Nat) (t : LoopTask), s.tasks[i]? = some t → t.told = true → t.ComesToEnd

/-- Nothing gets in the way of a task: it is entered where no other is, and
spawned where no other of its server is running, and what it removes at its end
is no entry but its own. -/
def Clear (i : Nat) (t : LoopTask) (s : ConnManager) : LoopEvent → Prop
  | .enter => t.server ∉ s.quitters
  | .spawn => ∀ e ∈ s.tasks.toList, e.1 ≠ i → e.2.server = t.server → ¬ e.2.Running
  | .unquit => s.quitters[t.server]? = none ∨ s.quitters[t.server]? = some i
  | _ => True

/-- Nothing gets in the way of a task, and none is told between its last look and
its next subscription. -/
def Undisturbed (s : ConnManager) : ManagerEvent → Prop
  | .tell i => ∀ t ∈ s.tasks[i]?, t.phase ≠ .checked
  | .act i e => ∀ t ∈ s.tasks[i]?, ∀ _ ∈ t.advance e, s.Clear i t e
  | _ => True

/-- A task hears its channel, and nothing is sent there before the task is entered. -/
structure InTouch (t : LoopTask) : Prop where
  hears : t.phase.missed = false
  looks : t.told = true → t.phase ≠ .checked
  unasked : t.phase = .made ∨ t.phase = .handled → t.stop = .idle

/-- What carries `Matches`: the map of the senders is an index of the tasks. -/
structure Registered (s : ConnManager) : Prop where
  index : KeyMap.Indexes LoopTask.entry s.tasks s.quitters
  one : OneRunning s.tasks
  task : ∀ (i : Nat) (t : LoopTask), s.tasks[i]? = some t → InTouch t

theorem mem_toList : (i, t) ∈ s.tasks.toList ↔ s.tasks[i]? = some t :=
  ExtTreeMap.mem_toList_iff_getElem?_eq_some

theorem OneRunning.insert {tasks : ExtTreeMap Nat LoopTask} (h : OneRunning tasks)
    (hAlone : t.Running → ∀ (j : Nat) (u : LoopTask), tasks[j]? = some u → j ≠ i → u.server = t.server → ¬ u.Running) :
    OneRunning (tasks.insert i t) := by
  intro j k u v hu hv hServer hRun hRun'
  rcases KeyMap.insert_cases hu with ⟨rfl, rfl⟩ | hOld
  · rcases KeyMap.insert_cases hv with ⟨rfl, rfl⟩ | hOld'
    · rfl
    · by_contra hOther
      exact hAlone hRun k v hOld' (Ne.symm hOther) hServer.symm hRun'
  · rcases KeyMap.insert_cases hv with ⟨rfl, rfl⟩ | hOld'
    · by_contra hOther
      exact hAlone hRun' j u hOld hOther hServer hRun
    · exact h j k u v hOld hOld' hServer hRun hRun'

theorem inTouch_insert {tasks : ExtTreeMap Nat LoopTask}
    (h : ∀ (i : Nat) (t : LoopTask), tasks[i]? = some t → InTouch t) (ht : InTouch t) :
    ∀ (j : Nat) (u : LoopTask), (tasks.insert i t)[j]? = some u → InTouch u := by
  intro j u hu
  rcases KeyMap.insert_cases hu with ⟨_, rfl⟩ | hOld
  · exact ht
  · exact h j u hOld

/-- A task changes that is no more entered or running than before. -/
theorem Registered.change {handles : ExtTreeMap String Nat} (h : s.Registered) (hTask : s.tasks[i]? = some t)
    (hEntry : t'.entry = t.entry) (hServer : t'.server = t.server) (hRun : t'.Running → t.Running)
    (hTouch : InTouch t') : Registered { s with handles, tasks := s.tasks.insert i t' } := by
  refine ⟨h.index.replace hTask hEntry, h.one.insert ?_, inTouch_insert h.task hTouch⟩
  intro hRunning j u hu hj hSame hRunning'
  exact hj (h.one j i u t hu hTask (hSame.trans hServer) hRunning' (hRun hRunning))

theorem Registered.create {reconnectSecs : Nat} (h : s.Registered) (hNew : i ∉ s.tasks) :
    Registered { s with
      starting := s.starting.erase server
      tasks := s.tasks.insert i { server, reconnectSecs } } := by
  have hNone : s.tasks[i]? = none := ExtTreeMap.getElem?_eq_none hNew
  refine ⟨(h.index.erase_of_none ?_).insert_of_none rfl, h.one.insert ?_, inTouch_insert h.task ⟨rfl, nofun, fun _ => rfl⟩⟩
  · intro v hv
    rw [hNone] at hv
    cases hv
  · intro hRunning
    cases hRunning.1

theorem Registered.stop (h : s.Registered) : (s.next (.stop server)).Registered := by
  simp only [next]
  split
  · rename_i i hEntry
    obtain ⟨t, hTask, hKey⟩ := (h.index server i).mp hEntry
    obtain ⟨⟨hEntered, hIdle⟩, _⟩ := LoopTask.entry_eq_some.mp hKey
    rw [SeqMap.modify_eq_insert hTask, if_pos hIdle]
    have hErased : KeyMap.Indexes LoopTask.entry (s.tasks.erase i) (s.quitters.erase server) := by
      have hDropped := h.index.erase hTask
      rw [hKey] at hDropped
      exact hDropped
    refine ⟨hErased.insert_of_none ?_, h.one.insert ?_, inTouch_insert h.task ⟨(h.task i t hTask).hears, nofun, ?_⟩⟩
    · simp [LoopTask.entry]
    · -- the stop call has not yet told the task
      intro hRunning j u hu hj hSame hRunning'
      have hUntold : t.told = false := by
        unfold LoopTask.told
        rw [hIdle]
      exact hj (h.one j i u t hu hTask hSame hRunning' ⟨hRunning.1, hUntold⟩)
    · intro hPhase
      dsimp only at hPhase
      rcases hPhase with hPhase | hPhase
      · simp [hPhase, LoopPhase.isLive, LoopPhase.isStarting] at hEntered
      · simp [hPhase, LoopPhase.isLive, LoopPhase.isStarting] at hEntered
  · exact h

theorem quitters_touch (h : e ≠ .enter ∧ e ≠ .unquit) :
    ∃ handles, s.touch i server e = { s with handles } := by
  unfold touch
  split
  · exact ⟨_, rfl⟩
  · exact absurd rfl h.1
  · exact ⟨_, rfl⟩
  · exact ⟨_, rfl⟩
  · exact absurd rfl h.2
  · exact ⟨s.handles, rfl⟩

/-- A stop call goes on. -/
theorem Registered.stopping {stop : StopPhase} {handles : ExtTreeMap String Nat} (h : s.Registered)
    (hTask : s.tasks[i]? = some t) (hBefore : t.stop ≠ .idle) (hStop : stop = .told ∨ stop = .finished)
    (hLooks : t.phase ≠ .checked) :
    Registered { s with handles, tasks := s.tasks.insert i { t with stop } } := by
  refine h.change hTask ?_ rfl ?_ ⟨(h.task i t hTask).hears, fun _ => hLooks, ?_⟩
  · rcases hStop with rfl | rfl
    · simp [LoopTask.entry, hBefore]
    · simp [LoopTask.entry, hBefore]
  · rintro ⟨_, hUntold⟩
    rcases hStop with rfl | rfl
    · cases hUntold
    · cases hUntold
  · intro hPhase
    exact absurd ((h.task i t hTask).unasked hPhase) hBefore

theorem Registered.enter (h : s.Registered) (hTask : s.tasks[i]? = some t) (hPhase : t.phase = .handled)
    (hFree : t.server ∉ s.quitters) :
    Registered { s with
      quitters := s.quitters.insert t.server i
      tasks := s.tasks.insert i { t with phase := .entered } } := by
  have hNone : t.entry = none := by simp [LoopTask.entry, hPhase, LoopPhase.isLive, LoopPhase.isStarting]
  have hIdle : t.stop = .idle := (h.task i t hTask).unasked (.inr hPhase)
  have hErased : KeyMap.Indexes LoopTask.entry (s.tasks.erase i) s.quitters := by
    refine h.index.erase_of_none fun u hu => ?_
    rw [Option.some.inj (hu.symm.trans hTask)]
    exact hNone
  refine ⟨hErased.insert ?_ (ExtTreeMap.getElem?_eq_none hFree), h.one.insert ?_, inTouch_insert h.task ⟨rfl, fun _ => nofun, nofun⟩⟩
  · simp [LoopTask.entry, hIdle]
  · intro hRunning
    cases hRunning.1

theorem Registered.unquit (h : s.Registered) (hTask : s.tasks[i]? = some t)
    (hOwn : s.quitters[t.server]? = none ∨ s.quitters[t.server]? = some i) :
    Registered { s with
      quitters := s.quitters.erase t.server
      tasks := s.tasks.insert i { t with phase := .ended } } := by
  have hNone : LoopTask.entry { t with phase := .ended } = none := by
    simp [LoopTask.entry, LoopPhase.isLive]
  have hErased : KeyMap.Indexes LoopTask.entry (s.tasks.erase i) (s.quitters.erase t.server) := by
    have hDropped := h.index.erase hTask
    cases hKey : t.entry with
    | some server =>
      obtain ⟨_, rfl⟩ := LoopTask.entry_eq_some.mp hKey
      rw [hKey] at hDropped
      exact hDropped
    | none =>
      -- then the entry is not its own, so there is none
      rw [hKey] at hDropped
      rcases hOwn with hAbsent | hOwn
      · have hSame : s.quitters.erase t.server = s.quitters := by
          refine ExtTreeMap.ext_getElem? fun {server} => ?_
          rw [KeyMap.getElem?_erase]
          split
          · rename_i hServer
            rw [hServer, hAbsent]
          · rfl
        rw [hSame]
        exact hDropped
      · obtain ⟨u, hu, hEntry⟩ := (h.index t.server i).mp hOwn
        rw [Option.some.inj (hu.symm.trans hTask), hKey] at hEntry
        cases hEntry
  refine ⟨hErased.insert_of_none hNone, h.one.insert ?_, inTouch_insert h.task ⟨rfl, fun _ => nofun, nofun⟩⟩
  intro hRunning
  cases hRunning.1

theorem Registered.act {p : LoopPhase} (h : s.Registered) (hTask : s.tasks[i]? = some t)
    (hAdvance : t.advance e = some p) (hClear : s.Clear i t e) :
    Registered { s.touch i t.server e with tasks := s.tasks.insert i { t with phase := p } } := by
  have hOld : InTouch t := h.task i t hTask
  have hHears : p.missed = false :=
    LoopTask.advance_missed hAdvance hOld.hears hOld.looks
  rcases LoopTask.advance_cases hAdvance with ⟨rfl, hPhase, rfl⟩ | ⟨rfl, hPhase, rfl⟩ | ⟨rfl, hPhase, rfl⟩ |
    ⟨rfl, hPhase, rfl⟩ | ⟨hOther, hLive, hLive'⟩
  · refine h.change hTask ?_ rfl ?_ ⟨rfl, fun _ => nofun, fun _ => hOld.unasked (.inl hPhase)⟩
    · simp [LoopTask.entry, hPhase, LoopPhase.isLive, LoopPhase.isStarting]
    · intro hRunning
      cases hRunning.1
  · exact h.enter hTask hPhase hClear
  · -- the start call spawns the task
    refine ⟨h.index.replace hTask ?_, h.one.insert ?_, inTouch_insert h.task ⟨rfl, fun _ => nofun, nofun⟩⟩
    · simp [LoopTask.entry, hPhase, LoopPhase.isLive, LoopPhase.isStarting]
    · intro _ j u hu hj hSame
      exact hClear (j, u) (mem_toList.mpr hu) hj hSame
  · exact h.unquit hTask hClear
  · obtain ⟨handles, hTouch⟩ := quitters_touch ⟨hOther.1, hOther.2.2⟩
    rw [hTouch]
    refine h.change hTask ?_ rfl ?_ ⟨hHears, fun hTold => ?_, ?_⟩
    · simp [LoopTask.entry, hLive, hLive']
    · intro hRunning
      exact ⟨hLive, hRunning.2⟩
    · exact LoopTask.advance_checked hAdvance hTold
    · rintro (rfl | rfl)
      · cases hLive'
      · cases hLive'

theorem registered_next {ev : ManagerEvent} (h : s.Registered) (hG : s.Undisturbed ev) :
    (s.next ev).Registered := by
  match ev with
  | .start server =>
    simp only [next]
    split
    · exact h
    · exact ⟨h.index, h.one, h.task⟩
  | .refuse server => exact ⟨h.index, h.one, h.task⟩
  | .create server reconnectSecs i =>
    simp only [next]
    split
    · rename_i hNew
      exact h.create hNew.2
    · exact h
  | .stop server => exact h.stop
  | .tell i =>
    simp only [next]
    split
    · exact h
    · rename_i t hTask
      split
      · rename_i hTaken
        exact h.stopping hTask (by simp [hTaken]) (.inl rfl) (hG t hTask)
      · exact h
  | .finish i =>
    simp only [next]
    split
    · exact h
    · rename_i t hTask
      split
      · rename_i hStop
        refine h.stopping hTask (by simp [hStop]) (.inr rfl) ((h.task i t hTask).looks ?_)
        unfold LoopTask.told
        rw [hStop]
      · exact h
  | .act i e =>
    simp only [next]
    split
    · exact h
    · rename_i t hTask
      split
      · exact h
      · rename_i p hAdvance
        exact h.act hTask hAdvance (hG t hTask p hAdvance)

theorem Registered.matching (h : s.Registered) : s.Matches := by
  refine ⟨h.one, fun server hQuiet i => ?_, fun i t hTask hTold =>
    LoopTask.told_task_ends hTold (h.task i t hTask).hears ((h.task i t hTask).looks hTold)⟩
  rw [h.index server i]
  refine exists_congr fun t => and_congr_right fun hTask => ?_
  rw [LoopTask.entry_eq_some, and_comm]
  refine and_congr_right fun hServer => ?_
  obtain ⟨hStarted, hStop⟩ := hQuiet.2 (i, t) (mem_toList.mpr hTask) hServer
  dsimp only at hStarted hStop
  have hEntered : t.phase ≠ .entered := by
    intro hPhase
    simp [hPhase, LoopPhase.isStarting] at hStarted
  rw [or_iff_right hEntered]
  refine and_congr_right fun _ => ?_
  unfold LoopTask.told
  rcases hStop with hStop | hStop
  · simp [hStop]
  · simp [hStop]

/--
**The registry matches the tasks.** In every run in which nothing gets in the way
of a task, at most one task of each server is running; whenever no call is in
progress on a server, its entry is that of its running task; and a task that has
been told comes to its end.
-/
theorem registry_matches (h : machine.Reach Undisturbed s) : s.Matches := by
  have hRegistered : s.Registered := by
    refine h.invariant ?_ ?_
    · rintro s rfl
      refine ⟨KeyMap.Indexes.empty, ?_, ?_⟩
      · intro i j t u ht
        simp [init] at ht
      · intro i t ht
        simp [init] at ht
    · intro s ev hRegistered _ hG
      exact registered_next hRegistered hG
  exact hRegistered.matching

instance {ev : ManagerEvent} : Decidable (machine.enabled s ev) := .isTrue trivial

instance {ev : LoopEvent} : Decidable (s.Clear i t ev) := by
  unfold Clear
  split <;> infer_instance

instance {ev : ManagerEvent} : Decidable (s.Undisturbed ev) := by
  unfold Undisturbed
  split <;> infer_instance

/-- The start call of a server, up to the spawning of its task. -/
def started (server : String) (i : Nat) : List ManagerEvent :=
  [.start server, .create server 5 i, .act i .handle, .act i .enter, .act i .spawn]

/-- The stop call of a server. -/
def stopped (server : String) (i : Nat) : List ManagerEvent := [.stop server, .tell i, .finish i]

theorem registry_matches_example :
    machine.Reach Undisturbed (machine.run init (started "home" 0 ++ stopped "home" 0)) ∧
      (machine.run init (started "home" 0 ++ stopped "home" 0)).Matches := by
  have hInit : machine.Reach Undisturbed init := .init rfl
  have hReach : machine.Reach Undisturbed (machine.run init (started "home" 0 ++ stopped "home" 0)) :=
    Machine.reach_run hInit (by decide +kernel)
  exact ⟨hReach, registry_matches hReach⟩

/-- A server is stopped and started again before the old task has ended, which
then removes the entry of the new one. -/
def restarted : List ManagerEvent :=
  started "home" 0 ++ [.act 0 .connected] ++ stopped "home" 0 ++ started "home" 1 ++
    [.act 0 .quit, .act 0 .judge, .act 0 .unhandle, .act 0 .unquit]

instance {server : String} : Decidable (s.Quiet server) := inferInstanceAs (Decidable (_ ∧ _))

/-- No call is in progress, a task of the server runs, and there is no entry. -/
theorem registry_lost : ∃ s, machine.Reach (fun _ _ => True) s ∧ s.Quiet "home" ∧
    (∃ t, s.tasks[1]? = some t ∧ t.server = "home" ∧ t.Running) ∧ s.quitters["home"]? = none ∧ ¬ s.Matches := by
  have hInit : machine.Reach (fun _ _ => True) init := .init rfl
  have hReach : machine.Reach (fun _ _ => True) (machine.run init restarted) :=
    Machine.reach_run hInit (by decide +kernel)
  have hQuiet : (machine.run init restarted).Quiet "home" := by decide +kernel
  have hTask : (machine.run init restarted).tasks[1]? =
      some { server := "home", reconnectSecs := 5, phase := .connecting false } := by
    decide +kernel
  have hNone : (machine.run init restarted).quitters["home"]? = none := by decide +kernel
  refine ⟨_, hReach, hQuiet, ⟨_, hTask, rfl, by decide⟩, hNone, fun hMatches => ?_⟩
  have hEntry := (hMatches.entry "home" hQuiet 1).mpr ⟨_, hTask, rfl, by decide⟩
  rw [hNone] at hEntry
  cases hEntry

end ConnManager

-- ---------------------------------------------------------------------------
-- Reconnecting
-- ---------------------------------------------------------------------------

namespace LoopTask

variable {t t' : LoopTask}

/-- A task that is to reconnect tries again after an error. -/
theorem retries (hUntold : t.told = false) (hSecs : 0 < t.reconnectSecs) (hExit : t.phase = .exited .error) :
    StepPath Moves t [.judge, .slept, .look, .subscribe, .recreated true, .rehandle]
      { t with phase := .connecting false } := by
  have hJudge : t.judge .error = .sleeping := by
    unfold judge
    rw [if_neg]
    rintro (hTold | hNever)
    · rw [hUntold] at hTold
      cases hTold
    · omega
  refine ⟨{ t with phase := .sleeping }, ⟨_, ?_, rfl⟩, { t with phase := .awake }, ⟨_, rfl, rfl⟩,
    { t with phase := .checked }, ⟨_, ?_, rfl⟩, { t with phase := .recreating false }, ⟨_, ?_, rfl⟩,
    { t with phase := .remade false }, ⟨_, rfl, rfl⟩, { t with phase := .connecting false }, ⟨_, rfl, rfl⟩, rfl⟩
  · simp [advance, hExit, hJudge]
  · have hSame : LoopTask.told { t with phase := .awake } = false := hUntold
    simp [advance, hSame]
  · have hSame : LoopTask.told { t with phase := .checked } = false := hUntold
    simp [advance, hSame]

end LoopTask

namespace ConnManager

variable {s : ConnManager} {i : Nat} {t t' : LoopTask} {ev : ManagerEvent}

/-- The connection of a task that is to reconnect is remade, unless the task has been told. -/
def Remade (s : ConnManager) : ManagerEvent → Prop
  | .act i (.recreated false) => ∀ t ∈ s.tasks[i]?, (∃ missed, t.phase = .recreating missed) →
      0 < t.reconnectSecs → t.told = true
  | _ => True

/-- A task is new, or a stop call has got further with it, or it has moved. -/
theorem next_task (h : (s.next ev).tasks[i]? = some t') :
    (∃ server reconnectSecs, t' = { server, reconnectSecs }) ∨
    ∃ t, s.tasks[i]? = some t ∧
      ((∃ stop, t' = { t with stop } ∧ (t.told = true → t'.told = true)) ∨
        ∃ e p, ev = .act i e ∧ t.advance e = some p ∧ t' = { t with phase := p }) := by
  have hStays : s.tasks[i]? = some t' → ∃ t, s.tasks[i]? = some t ∧
      ((∃ stop, t' = { t with stop } ∧ (t.told = true → t'.told = true)) ∨
        ∃ e p, ev = .act i e ∧ t.advance e = some p ∧ t' = { t with phase := p }) :=
    fun hTask => ⟨t', hTask, .inl ⟨t'.stop, rfl, id⟩⟩
  match ev with
  | .start server =>
    simp only [next] at h
    split at h
    · exact .inr (hStays h)
    · exact .inr (hStays h)
  | .refuse server => exact .inr (hStays h)
  | .create server reconnectSecs j =>
    simp only [next] at h
    split at h
    · rcases KeyMap.insert_cases h with ⟨_, rfl⟩ | hOld
      · exact .inl ⟨server, reconnectSecs, rfl⟩
      · exact .inr (hStays hOld)
    · exact .inr (hStays h)
  | .stop server =>
    simp only [next] at h
    split at h
    · rw [SeqMap.getElem?_modify] at h
      split at h
      · obtain ⟨t, hTask, rfl⟩ := Option.map_eq_some_iff.mp h
        refine .inr ⟨t, hTask, .inl ?_⟩
        split
        · rename_i hIdle
          refine ⟨.taken, rfl, fun hTold => ?_⟩
          simp [LoopTask.told, hIdle] at hTold
        · exact ⟨t.stop, rfl, id⟩
      · exact .inr (hStays h)
    · exact .inr (hStays h)
  | .tell j =>
    simp only [next] at h
    split at h
    · exact .inr (hStays h)
    · rename_i t hTask
      split at h
      · rcases KeyMap.insert_cases h with ⟨rfl, rfl⟩ | hOld
        · exact .inr ⟨t, hTask, .inl ⟨.told, rfl, fun _ => rfl⟩⟩
        · exact .inr (hStays hOld)
      · exact .inr (hStays h)
  | .finish j =>
    simp only [next] at h
    split at h
    · exact .inr (hStays h)
    · rename_i t hTask
      split at h
      · rcases KeyMap.insert_cases h with ⟨rfl, rfl⟩ | hOld
        · exact .inr ⟨t, hTask, .inl ⟨.finished, rfl, fun _ => rfl⟩⟩
        · exact .inr (hStays hOld)
      · exact .inr (hStays h)
  | .act j e =>
    simp only [next] at h
    split at h
    · exact .inr (hStays h)
    · rename_i t hTask
      split at h
      · exact .inr (hStays h)
      · rename_i p hAdvance
        rcases KeyMap.insert_cases h with ⟨rfl, rfl⟩ | hOld
        · exact .inr ⟨t, hTask, .inr ⟨e, p, rfl, hAdvance, rfl⟩⟩
        · exact .inr (hStays hOld)

/-- A connection exits as stopped only when the signal is there. -/
def StopsWhenTold (s : ConnManager) : Prop :=
  ∀ (i : Nat) (t : LoopTask), s.tasks[i]? = some t → t.phase = .exited .stopped → t.told = true

/-- The tasks that are to reconnect have left their loops only once they were told. -/
def LeavesWhenTold (s : ConnManager) : Prop :=
  ∀ (i : Nat) (t : LoopTask), s.tasks[i]? = some t → 0 < t.reconnectSecs → t.phase.hasLeft = true → t.told = true

theorem stopsWhenTold_next (h : s.StopsWhenTold) : (s.next ev).StopsWhenTold := by
  intro i t' hTask' hExit
  rcases next_task hTask' with ⟨server, reconnectSecs, rfl⟩ |
    ⟨t, hTask, ⟨stop, rfl, hTold⟩ | ⟨e, p, rfl, hAdvance, rfl⟩⟩
  · cases hExit
  · exact hTold (h i t hTask hExit)
  · show t.told = true
    exact LoopTask.advance_stopped hAdvance hExit

theorem leavesWhenTold_next (hStops : s.StopsWhenTold) (h : s.LeavesWhenTold) :
    (s.next ev).LeavesWhenTold ↔ s.Remade ev := by
  constructor
  · intro hNext
    unfold Remade
    split
    · rename_i i
      rintro t hTask ⟨missed, hPhase⟩ hSecs
      have hMoved : (s.next (.act i (.recreated false))).tasks[i]? = some { t with phase := .left } := by
        have hAdvance : t.advance (.recreated false) = some .left := by
          simp [LoopTask.advance, hPhase, LoopTask.takeRunning]
        have hThere : s.tasks[i]? = some t := hTask
        simp only [next, hThere, hAdvance]
        rw [KeyMap.getElem?_insert, if_pos rfl]
      have hTold : LoopTask.told { t with phase := .left } = true := hNext i _ hMoved hSecs rfl
      exact hTold
    · trivial
  · intro hRemade i t' hTask' hSecs hLeft
    rcases next_task hTask' with ⟨server, reconnectSecs, rfl⟩ |
      ⟨t, hTask, ⟨stop, rfl, hTold⟩ | ⟨e, p, rfl, hAdvance, rfl⟩⟩
    · cases hLeft
    · exact hTold (h i t hTask hSecs hLeft)
    · dsimp only at hSecs hLeft
      show t.told = true
      by_cases hBefore : t.phase.hasLeft = true
      · exact h i t hTask hSecs hBefore
      · rcases LoopTask.advance_left hAdvance (by simpa using hBefore) hLeft with
          hTold | hNever | hExit | ⟨rfl, hPhase⟩
        · exact hTold
        · omega
        · exact hStops i t hTask hExit
        · exact hRemade t hTask hPhase hSecs

/-- Every task that is to reconnect keeps trying, and leaves its loop only once it
has been told. -/
structure Reconnects (s : ConnManager) : Prop where
  leaves : s.LeavesWhenTold
  retries : ∀ (i : Nat) (t : LoopTask), s.tasks[i]? = some t → 0 < t.reconnectSecs → t.told = false →
    t.phase = .exited .error → StepPath LoopTask.Moves t
      [.judge, .slept, .look, .subscribe, .recreated true, .rehandle] { t with phase := .connecting false }

theorem reconnects_iff : s.Reconnects ↔ s.LeavesWhenTold := by
  refine ⟨fun h => h.leaves, fun h => ⟨h, ?_⟩⟩
  intro i t _ hSecs hUntold hExit
  exact LoopTask.retries hUntold hSecs hExit

/-- The tasks that are to reconnect keep trying until they are told, exactly if
every failure to remake the connection of one comes after that. -/
theorem reconnects_until_told_iff (es : List ManagerEvent) :
    (∀ pre, pre <+: es → (machine.run init pre).Reconnects) ↔
      ∀ pre ev, pre ++ [ev] <+: es → (machine.run init pre).Remade ev := by
  simp only [reconnects_iff]
  refine Machine.along_run_iff_inv (I := StopsWhenTold) (P := LeavesWhenTold) ?_ ?_ ?_ ?_ es
  · intro i t hTask
    simp [init] at hTask
  · intro i t hTask
    simp [init] at hTask
  · intro s ev hStops
    exact stopsWhenTold_next hStops
  · intro s ev hStops h
    exact leavesWhenTold_next hStops h

/-- The connection of a task fails, and cannot be remade at the first try. -/
theorem loop_left_untold : ∃ s, machine.Reach (fun _ _ => True) s ∧ ¬ s.Reconnects := by
  have hInit : machine.Reach (fun _ _ => True) init := .init rfl
  have hReach : machine.Reach (fun _ _ => True) (machine.run init (started "home" 0 ++ [.act 0 .failed,
      .act 0 .judge, .act 0 .slept, .act 0 .look, .act 0 .subscribe, .act 0 (.recreated false)])) :=
    Machine.reach_run hInit (by decide +kernel)
  refine ⟨_, hReach, fun h => ?_⟩
  have hTask : (machine.run init (started "home" 0 ++ [.act 0 .failed,
      .act 0 .judge, .act 0 .slept, .act 0 .look, .act 0 .subscribe, .act 0 (.recreated false)])).tasks[0]? =
        some { server := "home", reconnectSecs := 5, phase := .left } := by
    decide +kernel
  exact absurd (h.leaves 0 _ hTask (by decide) rfl) (by decide)

end ConnManager

end LinkMesh
