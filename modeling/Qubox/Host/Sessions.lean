import Qubox.Library.Table
import Qubox.Proto

/-!
# Session tasks

The host spawns a task for each session that it admits, and does not keep a handle
on it. Only a WebRTC session puts itself into a registry, some awaits after it was
spawned. `kill_session` looks there. The message loop and the idle watchdog both
kill; each step is what one of them, or one of the tasks, does up to its next await.
-/

namespace Qubox.Host

/-! ## Tasks -/

inductive Phase where
  | starting
  /-- The WebRTC session exists. -/
  | built
  /-- The registry is locked, and older sessions are closed one by one. -/
  | evicting (stale : List Uuid)
  | running
  /-- The WebRTC producer has ended. -/
  | closing
  /-- The WebRTC session is closed, and still registered. -/
  | leaving
  | ended
  deriving DecidableEq

/-- A task, with its producers and its input backends. A WebRTC session is closed with
its peer connection, which then neither sends nor delivers anything. -/
structure SessionTask where
  session : Uuid
  transport : TransportKind
  phase : Phase := .starting
  media : Bool := false
  input : Bool := false
  closed : Bool := false
  deriving DecidableEq

namespace SessionTask

/-- The task can send media. -/
def sends (task : SessionTask) : Bool := task.media && !task.closed

/-- The task can inject input. -/
def injects (task : SessionTask) : Bool := task.input && !task.closed

end SessionTask

inductive TaskStep where
  | fail
  | connect
  | build
  | lock
  | evict
  | register
  | mediaEnds
  | inputEnds
  | close
  | deregister
  | send
  | inject
  deriving DecidableEq

/-! ## The host -/

inductive KillPhase where
  | removing
  | closing (task : Nat)
  | kicking
  deriving DecidableEq

/-- A call of `kill_session` that has not returned. -/
structure Kill where
  session : Uuid
  phase : KillPhase := .removing
  deriving DecidableEq

/-- The message loop handles one message at a time. -/
inductive Handler where
  | idle
  | gating (session : Uuid) (transport : TransportKind)
  | killing (kill : Kill)
  deriving DecidableEq

structure HostAgent where
  tasks : List SessionTask := []
  registry : AList (fun _ : Uuid => Nat) := ∅
  lock : Option Nat := none
  handler : Handler := .idle
  watchdog : Option Kill := none
  /-- Sessions whose kill has returned, and of which no request was admitted since. -/
  killed : List Uuid := []

inductive Killer where
  | handler
  | watchdog
  deriving DecidableEq

inductive HostStep where
  | requested (session : Uuid) (transport : TransportKind)
  /-- All gates are open. -/
  | admitted
  /-- A gate is shut, with `kill_session` or with a `KickSession` alone. -/
  | refused (kills : Bool)
  | kicked (session : Uuid)
  /-- The envelope is verified. -/
  | signedKill (session : Uuid)
  | stale (session : Uuid)
  | killRuns (killer : Killer)
  | task (index : Nat) (step : TaskStep)
  deriving DecidableEq

namespace HostAgent

def kill (host : HostAgent) : Killer → Option Kill
  | .handler =>
      match host.handler with
      | .killing kill => some kill
      | .idle | .gating _ _ => none
  | .watchdog => host.watchdog

def withKill (host : HostAgent) (killer : Killer) (kill : Option Kill) : HostAgent :=
  match killer with
  | .handler => { host with handler := kill.elim .idle .killing }
  | .watchdog => { host with watchdog := kill }

def setTask (host : HostAgent) (index : Nat) (task : SessionTask) : HostAgent :=
  { host with tasks := host.tasks.set index task }

/-- `WebRtcSession::close`. -/
def close (host : HostAgent) (index : Nat) : HostAgent :=
  match host.tasks[index]? with
  | none => host
  | some task => host.setTask index { task with closed := true }

/-- `kill_session` up to its next await, and what is left of it. -/
def killSession (host : HostAgent) (kill : Kill) : Option (HostAgent × Option Kill) :=
  match kill.phase with
  | .removing =>
      if host.lock = none then
        match host.registry.lookup kill.session with
        | some index => some ({ host with registry := host.registry.erase kill.session },
            some { kill with phase := .closing index })
        | none => some (host, some { kill with phase := .kicking })
      else none
  | .closing index => some (host.close index, some { kill with phase := .kicking })
  | .kicking => some ({ host with killed := kill.session :: host.killed }, none)

/-- The transports for which a task is spawned. -/
def spawns : TransportKind → Bool
  | .nativeQuic | .webRtc | .webTransport => true
  | .relayQuic => false

def admitSession (host : HostAgent) (session : Uuid) (transport : TransportKind) : HostAgent :=
  { host with
    tasks := if spawns transport then host.tasks ++ [{ session, transport }] else host.tasks
    handler := .idle
    killed := host.killed.filter (· ≠ session) }

/-- A task up to its next await. -/
def runTask (host : HostAgent) (index : Nat) (task : SessionTask) (step : TaskStep) : Option HostAgent :=
  match step, task.phase with
  | .fail, .starting => some (host.setTask index { task with phase := .ended })
  | .connect, .starting =>
      if task.transport = .webRtc then none
      else some (host.setTask index { task with phase := .running, media := true, input := true })
  | .build, .starting =>
      if task.transport = .webRtc then some (host.setTask index { task with phase := .built })
      else none
  | .lock, .built =>
      if host.lock = none then
        let stale := host.registry.keys.filter (· ≠ task.session)
        some { host.setTask index { task with phase := .evicting stale } with lock := some index }
      else none
  | .evict, .evicting (session :: stale) =>
      let evicted := host.setTask index { task with phase := .evicting stale }
      match host.registry.lookup session with
      | none => some evicted
      | some old =>
          some { evicted.close old with registry := host.registry.erase session }
  | .register, .evicting [] =>
      let running := { task with phase := .running, media := true, input := true }
      some { host.setTask index running with
        registry := host.registry.insert task.session index
        lock := none }
  | .mediaEnds, .running =>
      if task.transport = .webRtc then some (host.setTask index { task with phase := .closing })
      else some (host.setTask index { task with media := false })
  | .inputEnds, .running =>
      if task.transport = .webRtc then none
      else some (host.setTask index { task with input := false })
  | .close, .closing => some (host.setTask index { task with phase := .leaving, closed := true })
  | .deregister, .leaving =>
      if host.lock = none then
        some { host.setTask index { task with phase := .ended } with
          registry := host.registry.erase task.session }
      else none
  | .send, _ => if task.sends then some host else none
  | .inject, _ => if task.injects then some host else none
  | _, _ => none

def step (host : HostAgent) : HostStep → Option HostAgent
  | .requested session transport =>
      if host.handler = .idle then some { host with handler := .gating session transport }
      else none
  | .admitted =>
      match host.handler with
      | .gating session transport => some (host.admitSession session transport)
      | .idle | .killing _ => none
  | .refused kills =>
      match host.handler with
      | .gating session _ =>
          some { host with handler := if kills then .killing { session } else .idle }
      | .idle | .killing _ => none
  | .kicked session | .signedKill session =>
      if host.handler = .idle then some { host with handler := .killing { session } } else none
  | .stale session =>
      if host.watchdog = none then some { host with watchdog := some { session } } else none
  | .killRuns killer =>
      match host.kill killer with
      | none => none
      | some kill =>
          (host.killSession kill).map fun (host, kill) => host.withKill killer kill
  | .task index step =>
      match host.tasks[index]? with
      | none => none
      | some task => host.runTask index task step

def run (host : HostAgent) : List HostStep → Option HostAgent
  | [] => some host
  | step :: steps => (host.step step).bind fun host => host.run steps

end HostAgent

end Qubox.Host
