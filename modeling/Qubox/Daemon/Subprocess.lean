import Mathlib.Logic.Function.Basic
import Qubox.Library.Stepping

/-!
# Managed subprocesses

The daemon keeps a registry of subprocesses by label. Each has a task that waits for its child
to exit or for a notification to stop it, and that spawns the child again after a backoff. A
step is what a task or a call does from one point at which it may be suspended to the next;
children exit at any time, and a sleep ends at some time after its deadline. Times are in
nanoseconds. The times of the exits are kept for the statements; no task reads them.
-/

namespace Qubox.Daemon

def milliseconds (n : Nat) : Nat := n * 1000000

def seconds (n : Nat) : Nat := milliseconds (n * 1000)

/-- The settings that the lifecycle reads. -/
structure SubprocessConfig where
  maxRestarts : Nat := 5
  restartWindow : Nat := seconds 60
  deriving DecidableEq

inductive SubprocessEvent where
  | spawned (pid : UInt32)
  | exited (code : Option Int32) (reason : String)
  | restarting (attempt : Nat) (backoffMs : UInt64)
  | giveUp (lastCode : Option Int32) (lastReason : String)
  | stopped
  deriving DecidableEq

/-- A child process that is not reaped yet. -/
structure Child where
  pid : UInt32
  /-- The code of its exit, which a signal does not give, if it has exited. -/
  exit : Option (Option Int32) := none
  deriving DecidableEq

/-- Where a task is suspended. -/
inductive Phase where
  /-- At the head of the loop. -/
  | head
  /-- In `select!`, for a notification or the exit of the child. -/
  | waiting
  /-- `kill_child` has sent `SIGTERM`. -/
  | terminating (deadline : Nat)
  /-- `kill_child` has sent `SIGKILL`. -/
  | killing
  /-- The exit of the child is not counted yet. -/
  | exited (code : Option Int32)
  | backoff (wakes : Nat)
  /-- The new child is not in its slot yet. -/
  | respawned (child : Child)
  | respawnFailed (wakes : Nat)
  | ended
  deriving DecidableEq

structure ManagedSubprocess where
  label : String
  config : SubprocessConfig
  child : Option Child
  currentPid : UInt32
  /-- A notification is stored. -/
  stopFlag : Bool := false
  restartHistory : List Nat := []
  events : List SubprocessEvent := []
  phase : Phase := .head
  /-- When the exits were counted. -/
  exits : List Nat := []
  deriving DecidableEq

/-- Without the checks of a debug build: the shift takes its amount modulo 64. -/
def backoffMs (attempt : Nat) : UInt64 :=
  min ((1000 : UInt64) <<< UInt64.ofNat (attempt - 1)) 30000

def exitReason : Option Int32 → String
  | some code => if code = 0 then "exited successfully" else s!"exited with code {code}"
  | none => "terminated by signal"

namespace ManagedSubprocess

variable (t : ManagedSubprocess)

def emit (event : SubprocessEvent) : ManagedSubprocess := { t with events := t.events ++ [event] }

def goto (phase : Phase) : ManagedSubprocess := { t with phase }

/-- `spawn`, with the child that it gets. -/
def spawn (label : String) (config : SubprocessConfig) (pid : UInt32) : ManagedSubprocess where
  label
  config
  child := some { pid }
  currentPid := pid
  events := [.spawned pid]

/-- The history without the entries outside the window, and the time of this exit. -/
def recorded (now : Nat) : List Nat :=
  t.restartHistory.dropWhile (fun time => t.config.restartWindow < now - time) ++ [now]

def attempt (now : Nat) : Nat := (t.recorded now).length

/-- The child has been killed. -/
def finishStop : ManagedSubprocess := { t.emit .stopped with child := none, phase := .ended }

/-- The branch of `select!` for the exit of the child. -/
def noticeExit (code : Option Int32) : ManagedSubprocess :=
  { t.emit (.exited code (exitReason code)) with
    child := none
    currentPid := 0
    phase := .exited code }

/-- An exit is counted: the task gives up, or goes into its backoff. -/
def record (now : Nat) (code : Option Int32) : ManagedSubprocess :=
  let counted := { t with restartHistory := t.recorded now, exits := t.exits ++ [now] }
  if t.config.maxRestarts < t.attempt now then
    (counted.emit (.giveUp code (exitReason code))).goto .ended
  else
    let backoff := backoffMs (t.attempt now)
    (counted.emit (.restarting (t.attempt now) backoff)).goto
      (.backoff (now + milliseconds backoff.toNat))

/-- `run_to_completion` from one suspension to the next, except that `respawn` spawns. -/
def resume (now : Nat) : Option ManagedSubprocess :=
  match t.phase with
  | .head =>
      match t.child with
      | some _ => some (t.goto .waiting)
      | none => some (t.goto .ended)
  | .waiting =>
      -- A stored notification comes first.
      if t.stopFlag then
        some { t.goto (.terminating (now + seconds 5)) with stopFlag := false }
      else (t.child.bind Child.exit).map t.noticeExit
  | .terminating deadline =>
      if deadline ≤ now then some (t.goto .killing)
      else (t.child.bind Child.exit).map fun _ => t.finishStop
  | .killing => (t.child.bind Child.exit).map fun _ => t.finishStop
  | .exited code => some (t.record now code)
  | .backoff _ => none
  | .respawned child => some { (t.emit (.spawned child.pid)).goto .head with child := some child }
  | .respawnFailed wakes => if wakes ≤ now then some (t.goto .head) else none
  | .ended => none

/-- The end of a backoff, with the child that `spawn_child` gets. -/
def respawn (now : Nat) (pid : Option UInt32) : Option ManagedSubprocess :=
  match t.phase with
  | .backoff wakes =>
      if wakes ≤ now then
        match pid with
        | some pid => some { t.goto (.respawned { pid }) with currentPid := pid }
        | none => some (t.goto (.respawnFailed (now + seconds 5)))
      else none
  | _ => none

/-- The next step goes into a backoff. -/
def Restarts (now : Nat) : Prop :=
  match t.phase with
  | .exited _ => t.attempt now ≤ t.config.maxRestarts
  | _ => False

instance (now : Nat) : Decidable (t.Restarts now) := by
  unfold Restarts
  split <;> infer_instance

/-- `stop`, up to its sleep. -/
def notify : ManagedSubprocess := { t with stopFlag := true }

/-- The children of the task. -/
def children : List Child :=
  t.child.toList ++
    match t.phase with
    | .respawned child => [child]
    | _ => []

def liveChildren : List Child := t.children.filter (·.exit = none)

/-- Some live child exits. -/
def childExits (code : Option Int32) : Option ManagedSubprocess :=
  match t.child, t.phase with
  | some ⟨pid, none⟩, _ => some { t with child := some ⟨pid, some code⟩ }
  | _, .respawned ⟨pid, none⟩ => some (t.goto (.respawned ⟨pid, some code⟩))
  | _, _ => none

end ManagedSubprocess

/-! ## The registry -/

/-- The call that holds the lock of the registry, where it is suspended. -/
inductive RegistryCall where
  /-- `start` has found the label free. -/
  | starting (label : String) (config : SubprocessConfig)
  /-- `stop` sleeps. -/
  | stopping (label : String) (wakes : Nat)
  deriving DecidableEq

def RegistryCall.label : RegistryCall → String
  | .starting label _ | .stopping label _ => label

structure SubprocessManager where
  now : Nat := 0
  /-- The registered subprocesses, by their place among the tasks. -/
  registry : String → Option Nat := fun _ => none
  tasks : List ManagedSubprocess := []
  lock : Option RegistryCall := none

inductive ManagerStep where
  | elapse (duration : Nat)
  /-- A child of a task exits. -/
  | exit (task : Nat) (code : Option Int32)
  | resume (task : Nat)
  /-- A task spawns its child again, or fails to. -/
  | respawn (task : Nat) (pid : Option UInt32)
  | start (label : String) (config : SubprocessConfig)
  /-- The `start` that holds the lock spawns its child, or fails to. -/
  | spawn (pid : Option UInt32)
  | stop (label : String)
  /-- The `stop` that holds the lock returns `Ok`. -/
  | stopReturn

namespace SubprocessManager

variable (m : SubprocessManager)

/-- A step of one task. -/
def onTask (i : Nat) (f : ManagedSubprocess → Option ManagedSubprocess) :
    Option SubprocessManager :=
  (m.tasks[i]?.bind f).map fun t => { m with tasks := m.tasks.set i t }

def register (label : String) (task : ManagedSubprocess) : SubprocessManager :=
  { m with
    registry := Function.update m.registry label (some m.tasks.length)
    tasks := m.tasks ++ [task] }

/-- An error that a call returns changes nothing. -/
def step : ManagerStep → Option SubprocessManager
  | .elapse duration => some { m with now := m.now + duration }
  | .exit i code => m.onTask i (·.childExits code)
  | .resume i => m.onTask i (·.resume m.now)
  | .respawn i pid => m.onTask i (·.respawn m.now pid)
  | .start label config =>
      match m.lock, m.registry label with
      | some _, _ => none
      | none, some _ => some m
      | none, none => some { m with lock := some (.starting label config) }
  | .spawn pid =>
      match m.lock, pid with
      | some (.starting label config), some pid =>
          some { m.register label (.spawn label config pid) with lock := none }
      | some (.starting _ _), none => some { m with lock := none }
      | _, _ => none
  | .stop label =>
      match m.lock, m.registry label with
      | some _, _ => none
      | none, none => some m
      | none, some i =>
          some { m with
            registry := Function.update m.registry label none
            tasks := m.tasks.modify i ManagedSubprocess.notify
            lock := some (.stopping label (m.now + milliseconds 100)) }
  | .stopReturn =>
      match m.lock with
      | some (.stopping _ wakes) => if wakes ≤ m.now then some { m with lock := none } else none
      | _ => none

def isRunning (label : String) : Bool := (m.registry label).isSome

def run : SubprocessManager → List ManagerStep → Option SubprocessManager := Stepping.run step

/-- The live child processes of a label. -/
def liveChildren (label : String) : List Child :=
  m.tasks.flatMap fun t => if t.label = label then t.liveChildren else []

variable {m : SubprocessManager} {next : SubprocessManager}

theorem onTask_eq_some {i : Nat} {f : ManagedSubprocess → Option ManagedSubprocess}
    (stepped : m.onTask i f = some next) : ∃ t t', m.tasks[i]? = some t ∧ f t = some t' ∧
      next = { m with tasks := m.tasks.set i t' } := by
  obtain ⟨t', bound, rfl⟩ := Option.map_eq_some_iff.mp stepped
  obtain ⟨t, found, same⟩ := Option.bind_eq_some_iff.mp bound
  exact ⟨t, t', found, same, rfl⟩

/-- A start waits for the lock, and is over at once for a label that is registered. -/
theorem start_eq_some {label : String} {config : SubprocessConfig}
    (stepped : m.step (.start label config) = some next) :
    m.lock = none ∧ (next = m ∨ m.registry label = none ∧
      next = { m with lock := some (.starting label config) }) := by
  unfold step at stepped
  dsimp only at stepped
  split at stepped
  case h_1 => cases stepped
  case h_2 unlocked _ => exact ⟨unlocked, .inl (Option.some.inj stepped).symm⟩
  case h_3 unlocked free => exact ⟨unlocked, .inr ⟨free, (Option.some.inj stepped).symm⟩⟩

/-- The process of a start that has the lock is registered, or could not be spawned. -/
theorem spawn_eq_some {pid : Option UInt32} (stepped : m.step (.spawn pid) = some next) :
    ∃ label config, m.lock = some (.starting label config) ∧
      ((∃ id, pid = some id ∧
          next = { m.register label (.spawn label config id) with lock := none }) ∨
        pid = none ∧ next = { m with lock := none }) := by
  unfold step at stepped
  dsimp only at stepped
  split at stepped
  case h_1 label config id held =>
    exact ⟨label, config, held, .inl ⟨id, rfl, (Option.some.inj stepped).symm⟩⟩
  case h_2 label config held =>
    exact ⟨label, config, held, .inr ⟨rfl, (Option.some.inj stepped).symm⟩⟩
  case h_3 => cases stepped

/-- A stop waits for the lock, and takes a label that is registered out of the registry. -/
theorem stop_eq_some {label : String} (stepped : m.step (.stop label) = some next) :
    m.lock = none ∧ (next = m ∨ ∃ i, m.registry label = some i ∧ next = { m with
      registry := Function.update m.registry label none
      tasks := m.tasks.modify i ManagedSubprocess.notify
      lock := some (.stopping label (m.now + milliseconds 100)) }) := by
  unfold step at stepped
  dsimp only at stepped
  split at stepped
  case h_1 => cases stepped
  case h_2 unlocked _ => exact ⟨unlocked, .inl (Option.some.inj stepped).symm⟩
  case h_3 i unlocked own => exact ⟨unlocked, .inr ⟨i, own, (Option.some.inj stepped).symm⟩⟩

theorem stopReturn_eq_some (stepped : m.step .stopReturn = some next) :
    ∃ label wakes, m.lock = some (.stopping label wakes) ∧ wakes ≤ m.now ∧
      next = { m with lock := none } := by
  unfold step at stepped
  dsimp only at stepped
  split at stepped
  case h_1 label wakes held =>
    split at stepped
    case isTrue late => exact ⟨label, wakes, held, late, (Option.some.inj stepped).symm⟩
    case isFalse => cases stepped
  case h_2 => cases stepped

/-- A task after a step of one: that one, or another as it was. -/
theorem task_of_set {i j : Nat} {tasks : List ManagedSubprocess} {t' u : ManagedSubprocess}
    (found : (tasks.set i t')[j]? = some u) :
    j = i ∧ u = t' ∨ j ≠ i ∧ tasks[j]? = some u := by
  rw [List.getElem?_set] at found
  split at found
  case isTrue same =>
    split at found
    · exact .inl ⟨same.symm, (Option.some.inj found).symm⟩
    · cases found
  case isFalse other => exact .inr ⟨Ne.symm other, found⟩

/-- An entry of a registry after one label was written. -/
theorem entry_of_update {registry : String → Option Nat} {label l : String} {v : Option Nat}
    {k : Nat} (own : Function.update registry label v l = some k) :
    l = label ∧ v = some k ∨ l ≠ label ∧ registry l = some k := by
  rw [Function.update_apply] at own
  split at own
  case isTrue here => exact .inl ⟨here, own⟩
  case isFalse other => exact .inr ⟨other, own⟩

end SubprocessManager

end Qubox.Daemon
