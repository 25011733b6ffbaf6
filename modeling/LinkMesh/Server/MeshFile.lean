import LinkMesh.Basis.SharedFile
import LinkMesh.Server.Invites

/-!
# mesh.json while several tasks save it

The registry file (`MeshConfig::save` and `save_json` in
`linkmesh-server/src/mesh.rs`) under the handlers of the running server and the
commands of `linkmesh-server/src/main.rs`, step by step: a JOIN takes its
snapshot under the lock of the registry and saves it after the lock is released,
a revocation saves under the lock, and a command saves a copy that it loaded on
its own. All of them write the temporary file `mesh.json.tmp` and rename it.

A write of the temporary file is one step. What the file holds is the registry
whose JSON it is; nobody sees the copy of a command before it is written, so
loading and changing it is one step as well.

Beside the files a state counts what the results speak of: the changes of each
copy, and the changes of the revocation list in the file with the processes that
know of them.

## Results

* `settled_iff`      — when all handlers are done, the file is the registry of
  the server iff the last write was of the snapshot after the last change.
* `revocations_kept` — revocations stay in the file as long as every save is of
  a copy that knows of all of them.
-/

namespace LinkMesh

open Std

variable {Ct : Type}

-- ---------------------------------------------------------------------------
-- The files and the processes
-- ---------------------------------------------------------------------------

/-- A value of a process's copy of the registry, with the number of changes and of
revocations since the process loaded it. -/
structure Copy where
  mesh : MeshConfig
  pid : Nat
  changes : Nat
  revocations : Nat

namespace Copy

def load (c : Copy) (pid : Nat) : Copy := { mesh := c.mesh, pid := pid, changes := 0, revocations := 0 }

def change (c : Copy) (mesh : MeshConfig) : Copy :=
  { c with
    mesh := mesh
    changes := if mesh = c.mesh then c.changes else c.changes + 1
    revocations := if mesh.crl = c.mesh.crl then c.revocations else c.revocations + 1 }

end Copy

/-- Who saves. -/
inductive Writer where
  /-- a task of the running server -/
  | handler (h : Nat)
  | command (c : Nat)
  deriving DecidableEq, Repr

/-- The running server; a revocation holds the lock of the registry until it is saved. -/
structure Daemon where
  server : Signaling
  pid : Nat
  changes : Nat := 0
  revocations : Nat := 0
  lock : Option Nat := none

structure MeshFile where
  disk : SharedFile Writer Copy
  daemon : Option Daemon := none
  nextPid : Nat := 1
  /-- how often the revocation list in the file has changed -/
  listChanges : Nat := 0
  /-- how many of these changes a process knows of -/
  known : Nat → Nat := fun _ => 0
  /-- how many of its revocations a process has saved -/
  released : Nat → Nat := fun _ => 0

inductive FileEvent (Ct : Type) where
  | start (rooms : List RoomEntry) (aliases : ExtTreeMap String String) (now : Nat)
  | stop
  /-- what a task of the server does before it saves -/
  | handle (h : Nat) (e : ServerEvent Ct)
  /-- a command loads the file and changes its copy -/
  | command (c : Nat) (cmd : Command) (now : Nat)
  | save (step : SaveStep Writer)

/-- The event changes the registry under its lock; an AUTH only reads it. -/
def ServerEvent.locksMesh : ServerEvent Ct → Bool
  | .datagram f _ _ => f.msgType = msgJoin
  | .revoke _ _ _ => true
  | _ => false

/-- A revocation is saved under the lock. -/
def ServerEvent.savesLocked : ServerEvent Ct → Bool
  | .revoke _ _ _ => true
  | _ => false

namespace Daemon

def copy (d : Daemon) : Copy :=
  { mesh := d.server.mesh, pid := d.pid, changes := d.changes, revocations := d.revocations }

def handle (env : SignalingEnv Ct) (d : Daemon) (h : Nat) (e : ServerEvent Ct) : Daemon :=
  let server := d.server.next env e
  let copy := d.copy.change server.mesh
  { server := server
    pid := copy.pid
    changes := copy.changes
    revocations := copy.revocations
    lock := if d.server.saves env e && e.savesLocked then some h else d.lock }

/-- The lock is released with the save. -/
def release (d : Daemon) : SaveStep Writer → Daemon
  | .rename (.handler h) => if d.lock = some h then { d with lock := none } else d
  | _ => d

end Daemon

namespace MeshFile

/-- A process loads the file. -/
def load (w : MeshFile) : MeshFile × Copy :=
  ({ w with
      nextPid := w.nextPid + 1
      known := Function.update w.known w.nextPid w.listChanges
      released := Function.update w.released w.nextPid 0 },
    w.disk.file.load w.nextPid)

/-- The copy is in the file from now on. -/
def record (w : MeshFile) (c : Copy) : MeshFile :=
  let w' := { w with released := Function.update w.released c.pid c.revocations }
  if c.mesh.crl = w.disk.file.mesh.crl then w'
  else
    { w' with
      listChanges := w.listChanges + 1
      known := Function.update w.known c.pid (w.known c.pid + 1) }

/-- The tasks of the server end with it, wherever they are. -/
def stopped (disk : SharedFile Writer Copy) : SharedFile Writer Copy :=
  { disk with
    phase := fun w =>
      match w with
      | .handler _ => .idle
      | .command c => disk.phase (.command c) }

def next (env : SignalingEnv Ct) (w : MeshFile) : FileEvent Ct → MeshFile
  | .start rooms aliases now =>
    match w.disk.file.mesh.verifyIntegrity env.meshEnv now with
    | .error _ => w
    | .ok () =>
      let (w', copy) := w.load
      { w' with daemon := some { server := .start copy.mesh rooms aliases, pid := copy.pid } }
  | .stop => { w with daemon := none, disk := stopped w.disk }
  | .handle h e =>
    match w.daemon with
    | none => w
    | some d =>
      let d' := d.handle env h e
      if d.server.saves env e then
        { w with daemon := some d', disk := w.disk.submit (.handler h) d'.copy }
      else { w with daemon := some d' }
  | .command c cmd now =>
    match cmd.run env.meshEnv w.disk.file.mesh now with
    | .error _ => w
    | .ok m =>
      let (w', copy) := w.load
      { w' with disk := w.disk.submit (.command c) (copy.change m) }
  | .save step =>
    let w' := match w.disk.publishes step with
      | some c => w.record c
      | none => w
    { w' with disk := w.disk.step step, daemon := w.daemon.map (·.release step) }

/-- A task or command does one thing at a time, and the registry is locked by one task. -/
def enabled (w : MeshFile) : FileEvent Ct → Prop
  | .start _ _ _ => w.daemon = none
  | .stop => True
  | .handle h e => w.disk.phase (.handler h) = .idle ∧
      ∀ d, w.daemon = some d → e.locksMesh = true → d.lock = none
  | .command c _ _ => w.disk.phase (.command c) = .idle
  | .save _ => True

/-- The file holds the registry, and nobody has loaded it. -/
def saved (m : MeshConfig) : MeshFile :=
  let c : Copy := { mesh := m, pid := 0, changes := 0, revocations := 0 }
  { disk := { file := c, last := c } }

/-- The server has just started with the registry in the file. -/
def running (m : MeshConfig) (rooms : List RoomEntry) (aliases : ExtTreeMap String String) : MeshFile :=
  let (w, copy) := (saved m).load
  { w with
    disk := { file := copy, last := copy }
    daemon := some { server := .start m rooms aliases, pid := copy.pid } }

/-- From any registry in the file, without or with a server just started from it. -/
def machine (env : SignalingEnv Ct) : Machine MeshFile (FileEvent Ct) where
  init w := ∃ m, w = saved m ∨ ∃ rooms aliases, w = running m rooms aliases
  enabled := enabled
  next := next env

@[simp] theorem machine_next (env : SignalingEnv Ct) (w : MeshFile) (ev : FileEvent Ct) :
    (machine env).next w ev = w.next env ev := rfl

end MeshFile

theorem MeshJson.Lawful.encode_inj {τ : Type} {J : MeshJson τ} (h : J.Lawful) {m m' : MeshConfig} :
    J.encode m = J.encode m' ↔ m = m' := by
  constructor
  · intro hText
    have hSame := h m
    rw [hText, h m'] at hSame
    exact (Except.ok.inj hSame).symm
  · exact congrArg J.encode

namespace MeshFile

/-- What `mesh.json` holds. -/
def text {τ : Type} (J : MeshJson τ) (w : MeshFile) : τ := J.encode w.disk.file.mesh

/-- Whoever loads the file gets the registry it was made from. -/
theorem load_text {τ : Type} {J : MeshJson τ} (hJson : J.Lawful) (path : String) (w : MeshFile) :
    MeshConfig.load J path (some (w.text J)) = .ok (some w.disk.file.mesh) := by
  unfold MeshConfig.load text
  dsimp only
  rw [hJson]

end MeshFile

-- ---------------------------------------------------------------------------
-- Revocation lists and registries that grow
-- ---------------------------------------------------------------------------

/-- The version does not fall, and devices stay listed. -/
structure Crl.Extends (c c' : Crl) : Prop where
  version : c.version ≤ c'.version
  listed : ∀ d, c.isRevoked d = true → c'.isRevoked d = true

theorem Crl.Extends.refl (c : Crl) : c.Extends c := ⟨Nat.le_refl _, fun _ h => h⟩

theorem Crl.Extends.trans {c₁ c₂ c₃ : Crl} (h : c₁.Extends c₂) (h' : c₂.Extends c₃) : c₁.Extends c₃ :=
  ⟨Nat.le_trans h.version h'.version, fun d hListed => h'.listed d (h.listed d hListed)⟩

/-- A list without entries extends only such a list. -/
theorem Crl.Extends.entries_nil {c c' : Crl} (h : c.Extends c') (hNone : c'.entries = []) :
    c.entries = [] := by
  rw [List.eq_nil_iff_forall_not_mem]
  intro x hx
  have hListed : c.isRevoked x.deviceId = true := List.any_eq_true.mpr ⟨x, hx, beq_self_eq_true _⟩
  have hLater := h.listed x.deviceId hListed
  unfold Crl.isRevoked at hLater
  rw [hNone] at hLater
  cases hLater

namespace MeshConfig

/-- More revocations, or as many of them and more members. -/
def Precedes (m m' : MeshConfig) : Prop :=
  m.crl.entries.length < m'.crl.entries.length ∨
    (m.crl.entries.length = m'.crl.entries.length ∧ m.members.length < m'.members.length)

variable {m m₁ m₂ : MeshConfig}

theorem Precedes.trans (h : m.Precedes m₁) (h' : m₁.Precedes m₂) : m.Precedes m₂ := by
  unfold Precedes at *
  omega

theorem Precedes.ne (h : m.Precedes m₁) : m ≠ m₁ := by
  rintro rfl
  unfold Precedes at h
  omega

theorem extends_revoke (S : Signatures) (m : MeshConfig) (deviceId : String) (reason : RevokeReason)
    (now : Nat) : m.crl.Extends (m.revoke S deviceId reason now).1.crl := by
  refine ⟨?_, fun d hListed => isRevoked_revoke hListed⟩
  have hPush : m.crl.version ≤ (m.crlPush deviceId reason now).version := Nat.le_succ _
  unfold revoke
  split
  · exact Nat.le_refl _
  · split
    · exact Nat.le_refl _
    · split
      · exact hPush
      · exact hPush

theorem precedes_revoke (S : Signatures) (m : MeshConfig) (deviceId : String) (reason : RevokeReason)
    (now : Nat) : (m.revoke S deviceId reason now).1 = m ∨
      m.Precedes (m.revoke S deviceId reason now).1 := by
  have hPush : m.crl.entries.length < (m.crlPush deviceId reason now).entries.length := by
    rw [crlPush_length]
    exact Nat.lt_succ_self _
  unfold revoke
  split
  · exact .inl rfl
  · split
    · exact .inl rfl
    · split
      · exact .inr (.inl hPush)
      · exact .inr (.inl hPush)

end MeshConfig

namespace Signaling

/-- A JOIN changes the registry by a new member, if at all. -/
theorem precedes_enroll (env : SignalingEnv Ct) (m : MeshConfig) (jb : JoinBody) (d : JoinDraw) :
    (enroll env m jb d).1 = m ∨ m.Precedes (enroll env m jb d).1 := by
  have hCrl : (enroll env m jb d).1.crl = m.crl := enroll_crl env m jb d
  have hIssued : ∀ granted seed, m.members.length <
      (issued env m jb d granted seed).members.length := by
    intro granted seed
    unfold issued
    simp
  rcases enroll_cases env m jb d with
    ⟨⟨e, hEq⟩, _⟩ | ⟨ip, granted, seed, _, ⟨e, _, hEq⟩ | ⟨aliasName, _, hEq⟩⟩
  · left
    rw [hEq]
  · right
    refine .inr ⟨by rw [hCrl], ?_⟩
    rw [hEq]
    exact hIssued granted seed
  · right
    refine .inr ⟨by rw [hCrl], ?_⟩
    rw [hEq]
    dsimp only
    rw [completeJoin_length]
    exact hIssued granted seed

/-- The registry of the server grows, if it changes. -/
theorem precedes_next (env : SignalingEnv Ct) (s : Signaling) (e : ServerEvent Ct) :
    (s.next env e).mesh = s.mesh ∨ s.mesh.Precedes (s.next env e).mesh := by
  rcases mesh_next env s e with hSame | ⟨jb, d, hJoin⟩ | ⟨deviceId, reason, now, _, hRevoke⟩
  · exact .inl hSame
  · rw [hJoin]
    exact precedes_enroll env s.mesh jb d
  · rw [hRevoke]
    exact MeshConfig.precedes_revoke env.signatures s.mesh deviceId reason now

theorem extends_next (env : SignalingEnv Ct) (s : Signaling) (e : ServerEvent Ct) :
    s.mesh.crl.Extends (s.next env e).mesh.crl := by
  rcases mesh_next env s e with hSame | ⟨jb, d, hJoin⟩ | ⟨deviceId, reason, now, _, hRevoke⟩
  · rw [hSame]
    exact .refl _
  · rw [hJoin, enroll_crl]
    exact .refl _
  · rw [hRevoke]
    exact MeshConfig.extends_revoke env.signatures s.mesh deviceId reason now

end Signaling

/-- What a command saves keeps all revocations. -/
theorem Command.extends {env : MeshEnv} {m m' : MeshConfig} {now : Nat} {cmd : Command}
    (h : cmd.run env m now = .ok m') : m.crl.Extends m'.crl := by
  cases cmd with
  | invite ip raw =>
    have h : (Command.checkBoundIp m ip >>= fun _ => _) = .ok m' := h
    obtain ⟨_, _, hEq⟩ := bind_eq_ok.mp h
    cases hEq
    exact .refl _
  | issue ikX ikS ip =>
    have h : Command.succeeded (m.issueCert env ikX ikS (ip.getD "") none now) = .ok m' := h
    obtain ⟨_, hIssue⟩ := Command.succeeded_eq_ok.mp h
    rcases MeshConfig.issueCert_cases env m ikX ikS (ip.getD "") none now with
      ⟨e, _, hEq⟩ | ⟨d, granted, seed, _, hEq⟩
    · rw [hEq] at hIssue
      cases hIssue
    · rw [hEq] at hIssue
      cases hIssue
      exact .refl _
  | revoke target reason =>
    have h : (parseReason reason >>= fun _ => _) = .ok m' := h
    obtain ⟨reason, _, h⟩ := bind_eq_ok.mp h
    obtain ⟨deviceId, _, h⟩ := bind_eq_ok.mp h
    obtain ⟨_, hRevoke⟩ := Command.succeeded_eq_ok.mp h
    have hExtends := MeshConfig.extends_revoke env.signatures m deviceId reason now
    rw [hRevoke] at hExtends
    exact hExtends

-- ---------------------------------------------------------------------------
-- When the handlers are done
-- ---------------------------------------------------------------------------

/-- The event is one of the handlers of the server. -/
def FileEvent.OfServer : FileEvent Ct → Prop
  | .handle _ _ => True
  | .save _ => True
  | _ => False

namespace MeshFile

/-- The file holds the JSON of the server's registry. -/
def OnDisk {τ : Type} (J : MeshJson τ) (w : MeshFile) : Prop :=
  ∃ d, w.daemon = some d ∧ w.text J = J.encode d.server.mesh

/-- What was written last was taken after the last change of the server's registry. -/
def LatestWritten (w : MeshFile) : Prop :=
  ∃ d, w.daemon = some d ∧ w.disk.last.changes = d.changes

/-- The copy is the registry of the server, or one from before its last change. -/
def Follows (c : Copy) (d : Daemon) : Prop :=
  (c.changes = d.changes ∧ c.mesh = d.server.mesh) ∨
    (c.changes < d.changes ∧ c.mesh.Precedes d.server.mesh)

structure Journal (w : MeshFile) (d : Daemon) : Prop where
  daemon : w.daemon = some d
  tidy : w.disk.Tidy
  held : ∀ c, w.disk.Held c → Follows c d
  last : Follows w.disk.last d

variable {env : SignalingEnv Ct} {w : MeshFile} {d : Daemon} {c : Copy} {h : Nat} {e : ServerEvent Ct}

theorem follows_self : Follows d.copy d := .inl ⟨rfl, rfl⟩

/-- A copy falls behind when the registry changes. -/
theorem Follows.handle (hFollows : Follows c d) : Follows c (d.handle env h e) := by
  rcases Signaling.precedes_next env d.server e with hSame | hGrows
  · have hChanges : (d.handle env h e).changes = d.changes := if_pos hSame
    have hMesh : (d.handle env h e).server.mesh = d.server.mesh := hSame
    unfold Follows at *
    rw [hChanges, hMesh]
    exact hFollows
  · have hChanges : (d.handle env h e).changes = d.changes + 1 := if_neg hGrows.ne.symm
    right
    rw [hChanges]
    rcases hFollows with ⟨hCount, hMesh⟩ | ⟨hCount, hBefore⟩
    · exact ⟨by omega, hMesh ▸ hGrows⟩
    · exact ⟨by omega, hBefore.trans hGrows⟩

theorem journal_handle (hJournal : w.Journal d) (hIdle : w.disk.phase (.handler h) = .idle) :
    (w.next env (.handle h e)).Journal (d.handle env h e) := by
  have hHeld : ∀ c, w.disk.Held c → Follows c (d.handle env h e) :=
    fun c hc => (hJournal.held c hc).handle
  unfold next
  dsimp only
  rw [hJournal.daemon]
  dsimp only
  split
  · refine ⟨rfl, SharedFile.tidy_submit hJournal.tidy hIdle, fun c hc => ?_, hJournal.last.handle⟩
    rcases hc.of_submit with hOld | rfl
    · exact hHeld c hOld
    · exact follows_self
  · exact ⟨rfl, hJournal.tidy, hHeld, hJournal.last.handle⟩

theorem release_frame (d : Daemon) (step : SaveStep Writer) :
    ∃ lock, d.release step = { d with lock := lock } := by
  unfold Daemon.release
  split
  · split
    · exact ⟨none, rfl⟩
    · exact ⟨d.lock, rfl⟩
  · exact ⟨d.lock, rfl⟩

theorem journal_save (hJournal : w.Journal d) (step : SaveStep Writer) :
    (w.next env (.save step)).Journal (d.release step) := by
  obtain ⟨lock, hRelease⟩ := release_frame d step
  have hDaemon : (w.next env (.save step)).daemon = some (d.release step) := by
    show w.daemon.map (·.release step) = some (d.release step)
    rw [hJournal.daemon]
    rfl
  rw [hRelease] at hDaemon ⊢
  refine ⟨hDaemon, SharedFile.tidy_step hJournal.tidy, fun c hc => hJournal.held c hc.of_step, ?_⟩
  show Follows (w.disk.step step).last d
  rcases SharedFile.last_step w.disk step with hSame | hHeld
  · rw [hSame]
    exact hJournal.last
  · exact hJournal.held _ hHeld

theorem journal_next {ev : FileEvent Ct} (hJournal : ∃ d, w.Journal d) (hEnabled : w.enabled ev)
    (hServer : ev.OfServer) : ∃ d, (w.next env ev).Journal d := by
  obtain ⟨d, hJournal⟩ := hJournal
  cases ev with
  | handle h e => exact ⟨_, journal_handle hJournal hEnabled.1⟩
  | save step => exact ⟨_, journal_save hJournal step⟩
  | _ => exact hServer.elim

theorem journal_running (m : MeshConfig) (rooms : List RoomEntry) (aliases : ExtTreeMap String String) :
    ∃ d, (running m rooms aliases).Journal d := by
  refine ⟨_, rfl, rfl, fun c hc => ?_, .inl ⟨rfl, rfl⟩⟩
  rcases hc with hTmp | ⟨w, hDue⟩
  · cases hTmp
  · cases hDue

/-- A copy that may still be saved. -/
def Live (w : MeshFile) (c : Copy) : Prop := w.disk.Held c ∨ ∃ d, w.daemon = some d ∧ c = d.copy

/-- What replaces the file is a copy of a process that knows of every change of the
revocation list in the file, and has not saved a later revocation already. -/
def UpToDate (w : MeshFile) : FileEvent Ct → Prop
  | .save step => ∀ c, w.disk.publishes step = some c →
      w.known c.pid = w.listChanges ∧ w.released c.pid ≤ c.revocations
  | _ => True

/-- The copies of a process are ordered by its revocations, and those that are up to
date have all revocations of the file. -/
structure Lineage (w : MeshFile) : Prop where
  pids : ∀ c, w.Live c → c.pid < w.nextPid
  known_le : ∀ p, w.known p ≤ w.listChanges
  released : ∀ d, w.daemon = some d → w.released d.pid ≤ d.revocations
  bounded : ∀ d, w.daemon = some d → ∀ c, w.Live c → c.pid = d.pid → c.revocations ≤ d.revocations
  ordered : ∀ c c', w.Live c → w.Live c' → c.pid = c'.pid → c.revocations ≤ c'.revocations →
    c.mesh.crl.Extends c'.mesh.crl
  current : ∀ c, w.Live c → w.known c.pid = w.listChanges → w.released c.pid ≤ c.revocations →
    w.disk.file.mesh.crl.Extends c.mesh.crl

/-- Copies are given up, and nothing else happens. -/
theorem Lineage.drop {w' : MeshFile} (hLineage : w.Lineage) (hFile : w'.disk.file = w.disk.file)
    (hPids : w'.nextPid = w.nextPid) (hChanges : w'.listChanges = w.listChanges)
    (hKnown : w'.known = w.known) (hReleased : w'.released = w.released)
    (hDaemon : ∀ d', w'.daemon = some d' → ∃ d, w.daemon = some d ∧ d'.copy = d.copy)
    (hHeld : ∀ c, w'.disk.Held c → w.disk.Held c) : w'.Lineage := by
  have hLive : ∀ c, w'.Live c → w.Live c := by
    rintro c (hc | ⟨d', hd', rfl⟩)
    · exact .inl (hHeld c hc)
    · obtain ⟨d, hd, hSame⟩ := hDaemon d' hd'
      exact .inr ⟨d, hd, hSame⟩
  refine ⟨fun c hc => ?_, ?_, fun d' hd' => ?_, fun d' hd' c hc hPid => ?_, fun c c' hc hc' => ?_,
    fun c hc hAll hMost => ?_⟩
  · rw [hPids]
    exact hLineage.pids c (hLive c hc)
  · rw [hKnown, hChanges]
    exact hLineage.known_le
  · obtain ⟨d, hd, hSame⟩ := hDaemon d' hd'
    have hPid : d'.pid = d.pid := congrArg Copy.pid hSame
    have hCount : d'.revocations = d.revocations := congrArg Copy.revocations hSame
    rw [hReleased, hPid, hCount]
    exact hLineage.released d hd
  · obtain ⟨d, hd, hSame⟩ := hDaemon d' hd'
    have hPid' : d'.pid = d.pid := congrArg Copy.pid hSame
    have hCount : d'.revocations = d.revocations := congrArg Copy.revocations hSame
    rw [hCount]
    exact hLineage.bounded d hd c (hLive c hc) (hPid.trans hPid')
  · exact hLineage.ordered c c' (hLive c hc) (hLive c' hc')
  · rw [hKnown, hChanges] at hAll
    rw [hReleased] at hMost
    rw [hFile]
    exact hLineage.current c (hLive c hc) hAll hMost

section

variable {m : MeshConfig}

/-- A change of a copy is a revocation iff its list is another one. -/
theorem change_revocations :
    ((c.change m).revocations = c.revocations ∧ m.crl = c.mesh.crl) ∨
      (c.change m).revocations = c.revocations + 1 := by
  by_cases hSame : m.crl = c.mesh.crl
  · exact .inl ⟨if_pos hSame, hSame⟩
  · exact .inr (if_neg hSame)

/-- The server changes its copy, and may submit it. -/
theorem Lineage.change {w' : MeshFile} {d' : Daemon} (hLineage : w.Lineage) (hd : w.daemon = some d)
    (hd' : w'.daemon = some d') (hCopy : d'.copy = d.copy.change m)
    (hExtends : d.server.mesh.crl.Extends m.crl) (hFile : w'.disk.file = w.disk.file)
    (hPids : w'.nextPid = w.nextPid) (hChanges : w'.listChanges = w.listChanges)
    (hKnown : w'.known = w.known) (hReleased : w'.released = w.released)
    (hHeld : ∀ c, w'.disk.Held c → w.disk.Held c ∨ c = d'.copy) : w'.Lineage := by
  have hSelf : w.Live d.copy := .inr ⟨d, hd, rfl⟩
  have hLive : ∀ c, w'.Live c → w.Live c ∨ c = d'.copy := by
    rintro c (hc | ⟨d'', hd'', rfl⟩)
    · rcases hHeld c hc with hOld | hNew
      · exact .inl (.inl hOld)
      · exact .inr hNew
    · rw [hd'] at hd''
      cases hd''
      exact .inr rfl
  have hPid : d'.pid = d.pid := congrArg Copy.pid hCopy
  have hMesh : d'.copy.mesh = m := congrArg Copy.mesh hCopy
  have hCount : (d'.revocations = d.revocations ∧ m.crl = d.server.mesh.crl) ∨
      d'.revocations = d.revocations + 1 := by
    have hRevocations : d'.revocations = (d.copy.change m).revocations := congrArg Copy.revocations hCopy
    rw [hRevocations]
    exact change_revocations
  have hBounded : ∀ c, w.Live c → c.pid = d.pid → c.revocations ≤ d.revocations :=
    hLineage.bounded d hd
  -- what the server had before is no longer than what it has now
  have hNew : ∀ c, w.Live c → c.pid = d'.pid → c.mesh.crl.Extends d'.copy.mesh.crl := by
    intro c hc hSame
    have hOld := hLineage.ordered c d.copy hc hSelf (hSame.trans hPid)
      (hBounded c hc (hSame.trans hPid))
    rw [hMesh]
    exact hOld.trans hExtends
  refine ⟨fun c hc => ?_, ?_, fun d'' hd'' => ?_, fun d'' hd'' c hc hSame => ?_,
    fun c c' hc hc' hSame hLe => ?_, fun c hc hAll hMost => ?_⟩
  · rw [hPids]
    rcases hLive c hc with hOld | rfl
    · exact hLineage.pids c hOld
    · show d'.pid < w.nextPid
      rw [hPid]
      exact hLineage.pids d.copy hSelf
  · rw [hKnown, hChanges]
    exact hLineage.known_le
  · rw [hd'] at hd''
    cases hd''
    rw [hReleased, hPid]
    have hBefore := hLineage.released d hd
    omega
  · rw [hd'] at hd''
    cases hd''
    rcases hLive c hc with hOld | rfl
    · have hBefore := hBounded c hOld (hSame.trans hPid)
      omega
    · exact Nat.le_refl _
  · rcases hLive c hc with hOld | rfl
    · rcases hLive c' hc' with hOld' | rfl
      · exact hLineage.ordered c c' hOld hOld' hSame hLe
      · exact hNew c hOld hSame
    · rcases hLive c' hc' with hOld' | rfl
      · have hPid' : c'.pid = d.pid := hSame.symm.trans hPid
        have hBefore := hBounded c' hOld' hPid'
        have hLe : d'.revocations ≤ c'.revocations := hLe
        rcases hCount with ⟨_, hCrl⟩ | hMore
        · rw [hMesh, hCrl]
          exact hLineage.ordered d.copy c' hSelf hOld' hPid'.symm (by show d.revocations ≤ _; omega)
        · omega
      · exact .refl _
  · rw [hKnown, hChanges] at hAll
    rw [hReleased] at hMost
    rw [hFile]
    rcases hLive c hc with hOld | rfl
    · exact hLineage.current c hOld hAll hMost
    · have hAll : w.known d'.pid = w.listChanges := hAll
      rw [hPid] at hAll
      have hOld := hLineage.current d.copy hSelf hAll (hLineage.released d hd)
      rw [hMesh]
      exact hOld.trans hExtends

/-- A process loads the file, and what it has then extends the file. -/
theorem Lineage.fresh {w' : MeshFile} (hLineage : w.Lineage) (hPid : c.pid = w.nextPid)
    (hExtends : w.disk.file.mesh.crl.Extends c.mesh.crl) (hFile : w'.disk.file = w.disk.file)
    (hPids : w'.nextPid = w.nextPid + 1) (hChanges : w'.listChanges = w.listChanges)
    (hKnown : w'.known = Function.update w.known w.nextPid w.listChanges)
    (hReleased : w'.released = Function.update w.released w.nextPid 0)
    (hDaemon : w'.daemon = w.daemon ∨ ∃ d, w'.daemon = some d ∧ d.copy = c)
    (hHeld : ∀ x, w'.disk.Held x → w.disk.Held x ∨ x = c) : w'.Lineage := by
  have hLive : ∀ x, w'.Live x → w.Live x ∨ x = c := by
    rintro x (hx | ⟨d, hd, rfl⟩)
    · rcases hHeld x hx with hOld | hNew
      · exact .inl (.inl hOld)
      · exact .inr hNew
    · rcases hDaemon with hSame | ⟨d', hd', hCopy⟩
      · rw [hSame] at hd
        exact .inl (.inr ⟨d, hd, rfl⟩)
      · rw [hd'] at hd
        cases hd
        exact .inr hCopy
  have hOther : ∀ x, w.Live x → x.pid ≠ w.nextPid := by
    intro x hx
    have hLess := hLineage.pids x hx
    omega
  have hOld : ∀ x, w.Live x → w'.known x.pid = w.known x.pid ∧ w'.released x.pid = w.released x.pid := by
    intro x hx
    rw [hKnown, hReleased, Function.update_of_ne (hOther x hx), Function.update_of_ne (hOther x hx)]
    exact ⟨rfl, rfl⟩
  refine ⟨fun x hx => ?_, fun p => ?_, fun d hd => ?_, fun d hd x hx hSame => ?_,
    fun x y hx hy hSame hLe => ?_, fun x hx hAll hMost => ?_⟩
  · rw [hPids]
    rcases hLive x hx with hx | rfl
    · have hLess := hLineage.pids x hx
      omega
    · omega
  · rw [hKnown, hChanges]
    by_cases hp : p = w.nextPid
    · rw [hp, Function.update_self]
    · rw [Function.update_of_ne hp]
      exact hLineage.known_le p
  · rcases hDaemon with hSame | ⟨d', hd', hCopy⟩
    · rw [hSame] at hd
      have hRest := (hOld d.copy (.inr ⟨d, hd, rfl⟩)).2
      have hRest : w'.released d.pid = w.released d.pid := hRest
      rw [hRest]
      exact hLineage.released d hd
    · rw [hd'] at hd
      cases hd
      have hp : d.pid = w.nextPid := (congrArg Copy.pid hCopy).trans hPid
      rw [hReleased, hp, Function.update_self]
      exact Nat.zero_le _
  · rcases hDaemon with hSameDaemon | ⟨d', hd', hCopy⟩
    · rw [hSameDaemon] at hd
      rcases hLive x hx with hx | rfl
      · exact hLineage.bounded d hd x hx hSame
      · exact absurd (hSame.symm.trans hPid) (hOther d.copy (.inr ⟨d, hd, rfl⟩))
    · rw [hd'] at hd
      cases hd
      have hp : d.pid = w.nextPid := (congrArg Copy.pid hCopy).trans hPid
      rcases hLive x hx with hx | rfl
      · exact absurd (hSame.trans hp) (hOther x hx)
      · exact Nat.le_of_eq (congrArg Copy.revocations hCopy).symm
  · rcases hLive x hx with hx | rfl
    · rcases hLive y hy with hy | rfl
      · exact hLineage.ordered x y hx hy hSame hLe
      · exact absurd (hSame.trans hPid) (hOther x hx)
    · rcases hLive y hy with hy | rfl
      · exact absurd (hSame.symm.trans hPid) (hOther y hy)
      · exact .refl _
  · rw [hFile]
    rcases hLive x hx with hx | rfl
    · obtain ⟨hSameKnown, hSameReleased⟩ := hOld x hx
      rw [hSameKnown, hChanges] at hAll
      rw [hSameReleased] at hMost
      exact hLineage.current x hx hAll hMost
    · exact hExtends

/-- A copy that is up to date becomes the file. -/
theorem Lineage.publish {w' : MeshFile} (hLineage : w.Lineage) (hc : w.Live c)
    (hKnows : w.known c.pid = w.listChanges)
    (hFile : w'.disk.file = c) (hPids : w'.nextPid = w.nextPid)
    (hReleased : w'.released = Function.update w.released c.pid c.revocations)
    (hList : (c.mesh.crl = w.disk.file.mesh.crl ∧ w'.listChanges = w.listChanges ∧ w'.known = w.known) ∨
      (w'.listChanges = w.listChanges + 1 ∧
        w'.known = Function.update w.known c.pid (w.known c.pid + 1)))
    (hDaemon : ∀ d', w'.daemon = some d' → ∃ d, w.daemon = some d ∧ d'.copy = d.copy)
    (hHeld : ∀ x, w'.disk.Held x → w.disk.Held x) : w'.Lineage := by
  have hLive : ∀ x, w'.Live x → w.Live x := by
    rintro x (hx | ⟨d', hd', rfl⟩)
    · exact .inl (hHeld x hx)
    · obtain ⟨d, hd, hSame⟩ := hDaemon d' hd'
      exact .inr ⟨d, hd, hSame⟩
  refine ⟨fun x hx => ?_, fun p => ?_, fun d' hd' => ?_, fun d' hd' x hx hPid => ?_,
    fun x y hx hy => hLineage.ordered x y (hLive x hx) (hLive y hy), fun x hx hAll hLeast => ?_⟩
  · rw [hPids]
    exact hLineage.pids x (hLive x hx)
  · have hOld := hLineage.known_le p
    rcases hList with ⟨_, hChanges, hKnown⟩ | ⟨hChanges, hKnown⟩
    · rw [hKnown, hChanges]
      exact hOld
    · rw [hKnown, hChanges]
      by_cases hp : p = c.pid
      · rw [hp, Function.update_self, hKnows]
      · rw [Function.update_of_ne hp]
        omega
  · obtain ⟨d, hd, hSame⟩ := hDaemon d' hd'
    have hPid : d'.pid = d.pid := congrArg Copy.pid hSame
    have hCount : d'.revocations = d.revocations := congrArg Copy.revocations hSame
    rw [hReleased, hPid, hCount]
    by_cases hp : d.pid = c.pid
    · rw [hp, Function.update_self]
      exact hLineage.bounded d hd c hc hp.symm
    · rw [Function.update_of_ne hp]
      exact hLineage.released d hd
  · obtain ⟨d, hd, hSame⟩ := hDaemon d' hd'
    have hPid' : d'.pid = d.pid := congrArg Copy.pid hSame
    have hCount : d'.revocations = d.revocations := congrArg Copy.revocations hSame
    rw [hCount]
    exact hLineage.bounded d hd x (hLive x hx) (hPid.trans hPid')
  · rw [hFile]
    rw [hReleased] at hLeast
    by_cases hp : x.pid = c.pid
    · -- of the same process: a later copy
      rw [hp, Function.update_self] at hLeast
      exact hLineage.ordered c x hc (hLive x hx) hp.symm hLeast
    · rw [Function.update_of_ne hp] at hLeast
      rcases hList with ⟨hCrl, hChanges, hKnown⟩ | ⟨hChanges, hKnown⟩
      · rw [hKnown, hChanges] at hAll
        rw [hCrl]
        exact hLineage.current x (hLive x hx) hAll hLeast
      · -- of another process, which does not know of the change
        rw [hKnown, hChanges, Function.update_of_ne hp] at hAll
        have hOld := hLineage.known_le x.pid
        omega

end

theorem record_frame (w : MeshFile) (c : Copy) :
    (w.record c).nextPid = w.nextPid ∧
      (w.record c).released = Function.update w.released c.pid c.revocations ∧
      ((c.mesh.crl = w.disk.file.mesh.crl ∧ (w.record c).listChanges = w.listChanges ∧
          (w.record c).known = w.known) ∨
        ((w.record c).listChanges = w.listChanges + 1 ∧
          (w.record c).known = Function.update w.known c.pid (w.known c.pid + 1))) := by
  unfold record
  dsimp only
  split
  · rename_i hSame
    exact ⟨rfl, rfl, .inl ⟨hSame, rfl, rfl⟩⟩
  · exact ⟨rfl, rfl, .inr ⟨rfl, rfl⟩⟩

theorem lineage_save (hLineage : w.Lineage) {step : SaveStep Writer}
    (hUpToDate : w.UpToDate (.save step : FileEvent Ct)) : (w.next env (.save step)).Lineage := by
  have hDaemon : ∀ d', (w.next env (.save step)).daemon = some d' →
      ∃ d, w.daemon = some d ∧ d'.copy = d.copy := by
    intro d' hd'
    have hd' : w.daemon.map (·.release step) = some d' := hd'
    obtain ⟨d, hd, rfl⟩ := Option.map_eq_some_iff.mp hd'
    obtain ⟨lock, hRelease⟩ := release_frame d step
    exact ⟨d, hd, by rw [hRelease]; rfl⟩
  have hHeld : ∀ c, (w.next env (.save step)).disk.Held c → w.disk.Held c :=
    fun c hc => SharedFile.Held.of_step hc
  have hFile : (w.next env (.save step)).disk.file = (w.disk.publishes step).getD w.disk.file :=
    SharedFile.step_file
  cases hPublishes : w.disk.publishes step with
  | none =>
    rw [hPublishes] at hFile
    have hRest : ∃ disk daemon, w.next env (.save step) = { w with disk := disk, daemon := daemon } := by
      unfold next
      dsimp only
      rw [hPublishes]
      exact ⟨_, _, rfl⟩
    obtain ⟨disk, daemon, hNext⟩ := hRest
    rw [hNext] at hDaemon hHeld hFile ⊢
    exact hLineage.drop hFile rfl rfl rfl rfl hDaemon hHeld
  | some c =>
    rw [hPublishes] at hFile
    have hRest : ∃ disk daemon, w.next env (.save step) =
        { w.record c with disk := disk, daemon := daemon } := by
      unfold next
      dsimp only
      rw [hPublishes]
      exact ⟨_, _, rfl⟩
    obtain ⟨disk, daemon, hNext⟩ := hRest
    obtain ⟨hPids, hReleased, hList⟩ := record_frame w c
    rw [hNext] at hDaemon hHeld hFile ⊢
    exact hLineage.publish (.inl (.inl (SharedFile.publishes_tmp hPublishes)))
      (hUpToDate c hPublishes).1 hFile hPids hReleased hList hDaemon hHeld

/-- Every event that meets the guard keeps the invariant. -/
theorem lineage_next {ev : FileEvent Ct} (hLineage : w.Lineage) (hUpToDate : w.UpToDate ev) :
    (w.next env ev).Lineage := by
  cases ev with
  | start rooms aliases now =>
    unfold next
    dsimp only
    split
    · exact hLineage
    · exact hLineage.fresh (c := w.load.2) rfl (.refl _) rfl rfl rfl rfl rfl (.inr ⟨_, rfl, rfl⟩) fun x hx => .inl hx
  | stop =>
    refine hLineage.drop rfl rfl rfl rfl rfl (fun d' hd' => nomatch hd') fun c hc => ?_
    rcases hc with hTmp | ⟨writer, hDue⟩
    · exact .inl hTmp
    · cases writer with
      | handler h => cases hDue
      | command n => exact .inr ⟨_, hDue⟩
  | handle h e =>
    unfold next
    dsimp only
    cases hd : w.daemon with
    | none => exact hLineage
    | some d =>
      dsimp only
      have hExtends := Signaling.extends_next env d.server e
      split
      · exact hLineage.change hd rfl rfl hExtends rfl rfl rfl rfl rfl fun c hc => hc.of_submit
      · exact hLineage.change hd rfl rfl hExtends rfl rfl rfl rfl rfl fun c hc => .inl hc
  | command n cmd now =>
    unfold next
    dsimp only
    cases hRun : cmd.run env.meshEnv w.disk.file.mesh now with
    | error e => exact hLineage
    | ok m =>
      exact hLineage.fresh rfl (Command.extends hRun) rfl rfl rfl rfl rfl (.inl rfl)
        fun x hx => hx.of_submit
  | save step => exact lineage_save hLineage hUpToDate

theorem lineage_init (h : (machine env).init w) : w.Lineage := by
  obtain ⟨m, rfl | ⟨rooms, aliases, rfl⟩⟩ := h
  · have hNone : ∀ c, ¬ (saved m).Live c := by
      rintro c ((hTmp | ⟨writer, hDue⟩) | ⟨d, hd, _⟩)
      · cases hTmp
      · cases hDue
      · cases hd
    exact ⟨fun c hc => absurd hc (hNone c), fun p => Nat.le_refl 0, fun d hd => (nomatch hd),
      fun d hd => (nomatch hd), fun c c' hc => absurd hc (hNone c), fun c hc => absurd hc (hNone c)⟩
  · have hOne : ∀ c, (running m rooms aliases).Live c →
        c = { mesh := m, pid := 1, changes := 0, revocations := 0 } := by
      rintro c ((hTmp | ⟨writer, hDue⟩) | ⟨d, hd, rfl⟩)
      · cases hTmp
      · cases hDue
      · cases hd
        rfl
    have hZero : ∀ p, (running m rooms aliases).known p = 0 ∧ (running m rooms aliases).released p = 0 := by
      intro p
      show Function.update (fun _ => 0) 1 0 p = 0 ∧ Function.update (fun _ => 0) 1 0 p = 0
      rw [Function.update_apply]
      simp
    refine ⟨fun c hc => ?_, fun p => ?_, fun d hd => ?_, fun d hd c hc _ => ?_,
      fun c c' hc hc' _ _ => ?_, fun c hc _ _ => ?_⟩
    · rw [hOne c hc]
      exact Nat.lt_succ_self 1
    · rw [(hZero p).1]
      exact Nat.zero_le _
    · rw [(hZero _).2]
      exact Nat.zero_le _
    · rw [hOne c hc]
      exact Nat.zero_le _
    · rw [hOne c hc, hOne c' hc']
      exact .refl _
    · rw [hOne c hc]
      exact .refl _

/-- A step that meets the guard keeps every revocation in the file. -/
theorem extends_step {ev : FileEvent Ct} (hLineage : w.Lineage) (hUpToDate : w.UpToDate ev) :
    w.disk.file.mesh.crl.Extends (w.next env ev).disk.file.mesh.crl := by
  cases ev with
  | save step =>
    have hFile : (w.next env (.save step)).disk.file = (w.disk.publishes step).getD w.disk.file :=
      SharedFile.step_file
    rw [hFile]
    cases hPublishes : w.disk.publishes step with
    | none => exact .refl _
    | some c =>
      obtain ⟨hKnows, hMost⟩ := hUpToDate c hPublishes
      exact hLineage.current c (.inl (.inl (SharedFile.publishes_tmp hPublishes))) hKnows hMost
  | start rooms aliases now =>
    unfold next
    dsimp only
    split
    · exact .refl _
    · exact .refl _
  | stop => exact .refl _
  | handle h e =>
    unfold next
    dsimp only
    split
    · exact .refl _
    · split
      · exact .refl _
      · exact .refl _
  | command n cmd now =>
    unfold next
    dsimp only
    split
    · exact .refl _
    · exact .refl _

/-- **Revocations stay.** In every run in which each save is of a copy that knows of
all changes of the list in the file, whatever commands, handlers and restarts come
in any order, the version in the file does not fall and no device leaves the list. -/
theorem revocations_kept (h : (machine env).Reach UpToDate w) {es : List (FileEvent Ct)}
    (hes : Machine.Admissible (machine env) UpToDate w es) :
    w.disk.file.mesh.crl.Extends ((machine env).run w es).disk.file.mesh.crl := by
  have hLineage : w.Lineage := by
    refine Machine.Reach.invariant (fun w hInit => lineage_init hInit) ?_ h
    intro w ev hLineage _ hUpToDate
    rw [machine_next]
    exact lineage_next hLineage hUpToDate
  have hAlways := Machine.Admissible.invariant (M := machine env) (G := UpToDate)
    (I := fun w' => w'.Lineage ∧ w.disk.file.mesh.crl.Extends w'.disk.file.mesh.crl) ?_
    ⟨hLineage, .refl _⟩ hes
  · exact hAlways.2
  · rintro w' ev ⟨hLineage', hExtends⟩ _ hUpToDate
    rw [machine_next]
    exact ⟨lineage_next hLineage' hUpToDate,
      hExtends.trans (extends_step hLineage' hUpToDate)⟩

-- ---------------------------------------------------------------------------
-- Examples
-- ---------------------------------------------------------------------------

/-- Saves leave the registry of the server alone. -/
theorem run_saves (env : SignalingEnv Ct) (w : MeshFile) (steps : List (SaveStep Writer)) :
    ((machine env).run w (steps.map .save)).disk = steps.foldl SharedFile.step w.disk ∧
      ((machine env).run w (steps.map .save)).daemon.map (·.server) = w.daemon.map (·.server) := by
  induction steps generalizing w with
  | nil => exact ⟨rfl, rfl⟩
  | cons step steps ih =>
    obtain ⟨hDisk, hDaemon⟩ := ih (w.next env (.save step))
    refine ⟨hDisk, hDaemon.trans ?_⟩
    show (w.daemon.map (·.release step)).map (·.server) = w.daemon.map (·.server)
    rw [Option.map_map]
    refine congrArg (w.daemon.map ·) (funext fun d => ?_)
    obtain ⟨lock, hRelease⟩ := release_frame d step
    show (d.release step).server = d.server
    rw [hRelease]

theorem next_handle (hd : w.daemon = some d) (hSaves : d.server.saves env e = true) :
    w.next env (.handle h e) =
      { w with
        daemon := some (d.handle env h e)
        disk := w.disk.submit (.handler h) (d.handle env h e).copy } := by
  unfold next
  dsimp only
  rw [hd]
  dsimp only
  rw [if_pos hSaves]

/-- The saves of two writers, one after the other. -/
def savesOf (x y : Writer) : List (SaveStep Writer) := [.write x, .rename x, .write y, .rename y]

/-- The later save is the one that stays. -/
theorem foldl_savesOf {disk : SharedFile Writer Copy} {x y : Writer} {b c : Copy} (hOther : x ≠ y)
    (hx : disk.phase x = .due b) (hy : disk.phase y = .due c) :
    (savesOf x y).foldl SharedFile.step disk =
      { (disk.setPhase x .idle).setPhase y .idle with file := c, tmp := none, last := c } := by
  unfold savesOf
  rw [List.foldl_cons, List.foldl_cons, SharedFile.step_write_rename hx, List.foldl_cons,
    List.foldl_cons, List.foldl_nil]
  refine (SharedFile.step_write_rename ?_).trans rfl
  exact (SharedFile.phase_setPhase_of_ne (d := disk) (p := .idle) hOther.symm).trans hy

/-- Two handlers, of which the second one saves first. -/
def crossing (e e' : ServerEvent Ct) : List (FileEvent Ct) :=
  [.handle 0 e, .handle 1 e'] ++ (savesOf (.handler 1) (.handler 0)).map .save

/-- What the second handler changed is not in the file. -/
theorem run_crossing {m : MeshConfig} {rooms : List RoomEntry} {aliases : ExtTreeMap String String}
    {e' : ServerEvent Ct} {s s' : Signaling} (hFirst : (Signaling.start m rooms aliases).next env e = s)
    (hSecond : s.next env e' = s') (hSaves : (Signaling.start m rooms aliases).saves env e = true)
    (hSaves' : s.saves env e' = true) (hOpen : e.savesLocked = false) :
    Machine.Admissible (machine env) (fun _ ev => ev.OfServer) (running m rooms aliases) (crossing e e') ∧
      ((machine env).run (running m rooms aliases) (crossing e e')).disk.Settled ∧
      ((machine env).run (running m rooms aliases) (crossing e e')).disk.file.mesh = s.mesh ∧
      ((machine env).run (running m rooms aliases) (crossing e e')).daemon.map (·.server) = some s' := by
  subst hFirst hSecond
  have hOther : Writer.handler 1 ≠ Writer.handler 0 := by decide
  have hRunning : (running m rooms aliases).daemon =
      some { server := .start m rooms aliases, pid := 1 } := rfl
  have hOne := next_handle (h := 0) hRunning hSaves
  have hTwo := next_handle (w := (running m rooms aliases).next env (.handle 0 e)) (h := 1)
    (congrArg MeshFile.daemon hOne) hSaves'
  have hLock : ∀ d, ((running m rooms aliases).next env (.handle 0 e)).daemon = some d → d.lock = none := by
    intro d hd
    rw [hOne] at hd
    cases hd
    show (if (Signaling.saves env _ e && e.savesLocked) = true then some 0 else none) = none
    rw [hOpen, Bool.and_false, if_neg Bool.false_ne_true]
  have hIdle : ((running m rooms aliases).next env (.handle 0 e)).disk.phase (.handler 1) = .idle := by
    rw [hOne]
    exact SharedFile.phase_submit_of_ne hOther
  refine ⟨?_, ?_⟩
  · refine ⟨⟨rfl, fun d hd _ => ?_⟩, trivial, ⟨hIdle, fun d hd _ => hLock d hd⟩, trivial, ?_⟩
    · cases hd
      rfl
    · exact ⟨trivial, trivial, trivial, trivial, trivial, trivial, trivial, trivial, trivial⟩
  · have hRun : (machine env).run (running m rooms aliases) (crossing e e') =
        (machine env).run (((running m rooms aliases).next env (.handle 0 e)).next env (.handle 1 e'))
          ((savesOf (.handler 1) (.handler 0)).map .save) := rfl
    obtain ⟨hDisk, hDaemon⟩ := run_saves env
      (((running m rooms aliases).next env (.handle 0 e)).next env (.handle 1 e'))
      (savesOf (.handler 1) (.handler 0))
    rw [hRun, hDisk, hDaemon, hTwo, hOne]
    dsimp only
    have hFirst := SharedFile.phase_submit_of_ne (d := (running m rooms aliases).disk.submit (.handler 0)
      (Daemon.handle env { server := .start m rooms aliases, pid := 1 } 0 e).copy) (a :=
        (Daemon.handle env (Daemon.handle env { server := .start m rooms aliases, pid := 1 } 0 e) 1 e').copy)
      hOther.symm
    rw [SharedFile.phase_submit_self] at hFirst
    rw [foldl_savesOf hOther SharedFile.phase_submit_self hFirst]
    refine ⟨fun writer => ?_, rfl, rfl⟩
    show Function.update (Function.update (Function.update (Function.update (fun _ => SavePhase.idle)
      (.handler 0) _) (.handler 1) _) (.handler 1) .idle) (.handler 0) .idle writer = .idle
    rw [Function.update_apply, Function.update_apply, Function.update_apply, Function.update_apply]
    split
    · rfl
    · split
      · rfl
      · rfl

open JoinLog

/-- A JOIN that is answered is saved. -/
theorem join_saves {s : Signaling} {sender : RawKey} {jb : JoinBody} {src : SourceAddr} {d : JoinDraw}
    {resp : ResponseBody} (hJoin : Signaling.joinOf env s e = some (sender, jb, src, d))
    (hJoined : (s.handleJoin env sender jb src d).2 = .joined resp) : s.saves env e = true := by
  cases e with
  | datagram f src' draw =>
    unfold Signaling.saves
    dsimp only
    rw [Signaling.handleSignaling_join hJoin, hJoined]
  | _ => cases hJoin

theorem exampleJoin_saves :
    (Signaling.start exampleInvited.mesh [] ∅).saves exampleServerEnv (exampleJoinEvent none) = true := by
  have hEncodes : ∃ bytes, encodeJoin (exampleJoin none) = .ok bytes := exampleJoin_encodes ⟨_, rfl⟩
  obtain ⟨bytes, hBytes⟩ := hEncodes
  have hJoin := exampleJoin_joinOf hBytes (s := .start exampleInvited.mesh [] ∅) ExtTreeMap.not_mem_empty
  have hReaches : Signaling.ReachesRegistry exampleServerEnv (.start exampleInvited.mesh [] ∅) 2
      (exampleJoin none) sampleSrc (sampleSignalDraw 0 0).join := ⟨rfl, rfl, "default", rfl⟩
  have hAlias : ∃ a, normalizeSelfAlias exampleServerEnv (exampleJoin none).aliasName = .ok a :=
    ⟨none, rfl⟩
  obtain ⟨resp, hJoined⟩ := (Signaling.enroll_issues exampleServerEnv_sizes
    (exampleJoin_issues none)).2.2.mpr ⟨hAlias, exampleJoin_wire none⟩
  exact join_saves hJoin ((Signaling.handleJoin_outcome hReaches).trans hJoined)

/-- A revocation is saved when the root key is in order and the device is new to the list. -/
theorem revoke_saves (env : SignalingEnv Ct) {s : Signaling} (deviceId : String) (reason : RevokeReason)
    (now : Nat) {seed : Bytes} (hSeed : s.mesh.rootSeed = .ok seed) (hEmpty : s.mesh.crl.entries = []) :
    s.saves env (.revoke deviceId reason now) = true ∧
      (s.next env (.revoke deviceId reason now)).mesh.crl.entries ≠ [] := by
  have hLive : s.mesh.isRevoked deviceId = false := by
    unfold MeshConfig.isRevoked Crl.isRevoked
    rw [hEmpty]
    rfl
  have hRoom : ¬ maxCrlEntries ≤ s.mesh.crl.entries.length := by
    rw [hEmpty]
    decide
  have hRevoke : s.mesh.revoke env.signatures deviceId reason now =
      ({ s.mesh with
        crl := (s.mesh.crlPush deviceId reason now).sign env.signatures seed
        members := s.mesh.members.filter (·.deviceId != deviceId) },
        .ok ((s.mesh.crlPush deviceId reason now).sign env.signatures seed)) := by
    unfold MeshConfig.revoke
    rw [hLive, if_neg Bool.false_ne_true, if_neg hRoom, hSeed]
  constructor
  · unfold Signaling.saves Signaling.revokeDevice
    simp only [hRevoke]
  · show (s.revokeDevice env deviceId reason now).1.mesh.crl.entries ≠ []
    rw [Signaling.revokeDevice_mesh, hRevoke]
    show s.mesh.crl.entries ++ _ ≠ []
    simp

theorem exampleInvited_seed : exampleInvited.mesh.rootSeed = .ok (List.replicate 32 1) := by
  have hKey : exampleInvited.mesh.root.privateKey = keyB64 (List.replicate 32 1) := rfl
  unfold MeshConfig.rootSeed
  rw [hKey]
  exact b64Fixed_keyB64 rfl


/-- Without a revocation, the list and the root key stay as they are. -/
theorem next_unrevoked (env : SignalingEnv Ct) (s : Signaling) (hOpen : e.savesLocked = false) :
    (s.next env e).mesh.crl = s.mesh.crl ∧ (s.next env e).mesh.rootSeed = s.mesh.rootSeed := by
  rcases Signaling.mesh_next env s e with hSame | ⟨jb, d, hEnroll⟩ | ⟨deviceId, reason, now, rfl, _⟩
  · rw [hSame]
    exact ⟨rfl, rfl⟩
  · obtain ⟨members, invites, hMesh⟩ := Signaling.enroll_frame env s.mesh jb d
    rw [hEnroll, hMesh]
    exact ⟨rfl, rfl⟩
  · cases hOpen

/-- A handler takes its snapshot, a revocation comes and is saved, and then the handler
saves: the file does not hold the revocation. -/
theorem crossing_loses {τ : Type} {J : MeshJson τ} (hJson : J.Lawful) {m : MeshConfig} {seed : Bytes}
    (hSaves : (Signaling.start m [] ∅).saves env e = true) (hOpen : e.savesLocked = false)
    (hSeed : m.rootSeed = .ok seed) (hEntries : m.crl.entries = []) :
    ∃ es : List (FileEvent Ct),
      Machine.Admissible (machine env) (fun _ ev => ev.OfServer) (running m [] ∅) es ∧
        ((machine env).run (running m [] ∅) es).disk.Settled ∧
        ¬ OnDisk J ((machine env).run (running m [] ∅) es) := by
  obtain ⟨hCrl, hRoot⟩ := next_unrevoked env (.start m [] ∅) hOpen
  generalize hFirst : (Signaling.start m [] ∅).next env e = s at hCrl hRoot
  have hNone : s.mesh.crl.entries = [] := (congrArg Crl.entries hCrl).trans hEntries
  obtain ⟨hSaves', hListed⟩ := revoke_saves env "lost" .admin 0 (hRoot.trans hSeed) hNone
  obtain ⟨hAdmissible, hSettled, hFile, hServer⟩ := run_crossing hFirst rfl hSaves hSaves' hOpen
  refine ⟨_, hAdmissible, hSettled, ?_⟩
  rintro ⟨d, hd, hText⟩
  rw [hd] at hServer
  have hServer : d.server = s.next env (.revoke "lost" .admin 0) := Option.some.inj hServer
  have hSame : s.mesh = d.server.mesh := hFile.symm.trans (hJson.encode_inj.mp hText)
  rw [← hServer, ← hSame] at hListed
  exact hListed hNone

theorem exampleJson_lawful : MeshConfig.exampleJson.Lawful := fun _ => rfl

/-- A command has loaded the file when a revocation is saved, and saves its copy then. -/
theorem crossing_forgets {m : MeshConfig} {seed : Bytes} (env : SignalingEnv Ct) (raw : Bytes)
    (hSeed : m.rootSeed = .ok seed) (hEntries : m.crl.entries = []) :
    ∃ w, (machine env).Reach (fun _ _ => True) w ∧ ∃ es : List (FileEvent Ct),
      Machine.Admissible (machine env) (fun _ _ => True) w es ∧
        ¬ w.disk.file.mesh.crl.Extends ((machine env).run w es).disk.file.mesh.crl := by
  have hRunning : (running m [] ∅).daemon = some { server := .start m [] ∅, pid := 1 } := rfl
  obtain ⟨hSaves, hListed⟩ := revoke_saves env (s := .start m [] ∅) "lost" .admin 0 hSeed hEntries
  have hOther : Writer.command 0 ≠ Writer.handler 0 := by decide
  generalize hOne : (running m [] ∅).next env (.command 0 (.invite none raw) 0) = w₁
  have hDaemon : w₁.daemon = some { server := .start m [] ∅, pid := 1 } := by
    rw [← hOne]
    exact hRunning
  have hTwo := next_handle (h := 0) hDaemon hSaves
  generalize hSecond : w₁.next env (.handle 0 (.revoke "lost" .admin 0)) = w₂ at hTwo
  have hHandler : w₂.disk.phase (.handler 0) =
      .due (Daemon.handle env { server := .start m [] ∅, pid := 1 } 0 (.revoke "lost" .admin 0)).copy := by
    rw [hTwo]
    exact SharedFile.phase_submit_self
  have hCommand : ∃ c : Copy, w₂.disk.phase (.command 0) = .due c ∧ c.mesh.crl = m.crl := by
    refine ⟨(running m [] ∅).load.2.change
      (m.createInvite env.meshEnv raw none MeshConfig.inviteTtlSecs 0).1, ?_, rfl⟩
    · rw [hTwo]
      refine (SharedFile.phase_submit_of_ne hOther).trans ?_
      rw [← hOne]
      exact SharedFile.phase_submit_self
  obtain ⟨c, hCommand, hCrl⟩ := hCommand
  have hReach₁ : (machine env).Reach (fun _ _ => True) w₁ := by
    have hStart : (machine env).Reach (fun _ _ => True) (running m [] ∅) := .init ⟨m, .inr ⟨[], ∅, rfl⟩⟩
    rw [← hOne]
    exact .step (M := machine env) (e := .command 0 (.invite none raw) 0) hStart rfl trivial
  have hReach₂ : (machine env).Reach (fun _ _ => True) w₂ := by
    rw [← hSecond]
    refine .step (M := machine env) (e := .handle 0 (.revoke "lost" .admin 0)) hReach₁
      ⟨?_, fun d hd _ => ?_⟩ trivial
    · rw [← hOne]
      exact SharedFile.phase_submit_of_ne hOther.symm
    · rw [hDaemon] at hd
      cases hd
      rfl
  have hReach : (machine env).Reach (fun _ _ => True)
      ((machine env).run w₂ ([.write (.handler 0), .rename (.handler 0)].map .save)) :=
    Machine.reach_run hReach₂ ⟨trivial, trivial, trivial, trivial, trivial⟩
  refine ⟨_, hReach, [.write (.command 0), .rename (.command 0)].map .save,
    ⟨trivial, trivial, trivial, trivial, trivial⟩, fun hExtends => hListed ?_⟩
  have hSaved := (run_saves env w₂ [.write (.handler 0), .rename (.handler 0)]).1.trans
    (SharedFile.step_write_rename hHandler)
  generalize (machine env).run w₂ ([.write (.handler 0), .rename (.handler 0)].map .save) = w₃
    at hSaved hExtends
  have hDue : w₃.disk.phase (.command 0) = .due c := by
    rw [hSaved]
    exact (SharedFile.phase_setPhase_of_ne (d := w₂.disk) (p := .idle) hOther).trans hCommand
  have hLast := (run_saves env w₃ [.write (.command 0), .rename (.command 0)]).1.trans
    (SharedFile.step_write_rename hDue)
  rw [hLast, hSaved] at hExtends
  have hExtends : ((Signaling.start m [] ∅).next env (.revoke "lost" .admin 0)).mesh.crl.Extends
    c.mesh.crl := hExtends
  exact hExtends.entries_nil ((congrArg Crl.entries hCrl).trans hEntries)

/-- `--invite` crosses a revocation. -/
theorem revocations_fail : ∃ w, (machine exampleServerEnv).Reach (fun _ _ => True) w ∧
    ∃ es : List (FileEvent (RawKey × Nonce × Bytes)),
      Machine.Admissible (machine exampleServerEnv) (fun _ _ => True) w es ∧
        ¬ w.disk.file.mesh.crl.Extends ((machine exampleServerEnv).run w es).disk.file.mesh.crl := by
  have hEntries : exampleInvited.mesh.crl.entries = [] := rfl
  exact crossing_forgets exampleServerEnv (List.replicate 16 2) exampleInvited_seed hEntries

/-- A revocation is saved while nothing else happens. -/
theorem revocations_kept_example :
    (running exampleInvited.mesh [] ∅).disk.file.mesh.crl.Extends
      ((machine exampleServerEnv).run (running exampleInvited.mesh [] ∅)
        [.handle 0 (.revoke "lost" .admin 0), .save (.write (.handler 0)),
          .save (.rename (.handler 0))]).disk.file.mesh.crl := by
  have hSeed := exampleInvited_seed
  have hEntries : exampleInvited.mesh.crl.entries = [] := rfl
  generalize exampleInvited.mesh = m at hSeed hEntries ⊢
  have hRunning : (running m [] ∅).daemon = some { server := .start m [] ∅, pid := 1 } := rfl
  obtain ⟨hSaves, _⟩ := revoke_saves exampleServerEnv (s := .start m [] ∅) "lost" .admin 0 hSeed hEntries
  have hHandle := next_handle (h := 0) hRunning hSaves
  generalize hFirst : (running m [] ∅).next exampleServerEnv (.handle 0 (.revoke "lost" .admin 0)) = w
    at hHandle
  have hDue : w.disk.phase (.handler 0) = .due (Daemon.handle exampleServerEnv
      { server := .start m [] ∅, pid := 1 } 0 (.revoke "lost" .admin 0)).copy := by
    rw [hHandle]
    exact SharedFile.phase_submit_self
  have hUpToDate : (w.next exampleServerEnv (.save (.write (.handler 0)))).UpToDate
      (.save (.rename (.handler 0)) : FileEvent (RawKey × Nonce × Bytes)) := by
    intro c hc
    have hTmp : (w.disk.step (.write (.handler 0))).tmp = some c := SharedFile.publishes_tmp hc
    unfold SharedFile.step at hTmp
    dsimp only at hTmp
    rw [hDue] at hTmp
    cases hTmp
    show w.known 1 = w.listChanges ∧ w.released 1 ≤ _
    rw [hHandle]
    exact ⟨rfl, Nat.zero_le _⟩
  refine revocations_kept (.init ⟨m, .inr ⟨[], ∅, rfl⟩⟩) ?_
  refine ⟨⟨rfl, fun d hd _ => ?_⟩, trivial, trivial, fun c hc => ?_, trivial, ?_, trivial⟩
  · cases hd
    rfl
  · cases hc
  · rw [machine_next, machine_next, hFirst]
    exact hUpToDate

end MeshFile

end LinkMesh
