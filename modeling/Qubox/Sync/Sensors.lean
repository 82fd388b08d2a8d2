import Qubox.Library.Pool
import Qubox.Sync.Database
import Qubox.Sync.Drain

/-!
# Sensors

The two loops of the host agent that tell the daemon what happens to watched
files: one reports the files that have changed, the other locks the files of
running programs. They and any other requests act on one world. A loop is given
the number of rounds it will make; waits and the registration of directories are
left out.

The daemon serves every connection in a task of its own, and each access to its
tables is a transaction: between two accesses of one request those of others act.
A client that gives up on a request leaves it to a thread of its own. Requests
that write neither files nor jobs are one step.

The order in which a hash set is gone through is up to the environment. Some
actions say what they are for, which the tables do not look at. The log notes which
content was last reported for a path, which jobs were made for the content of a
file, and which jobs are done; no program reads it.
-/

namespace Qubox.Sync.Sensors

open Interaction

/-- What a tracked file is put for: with the content of an event or of a push, which is
for this peer, or to change its state. -/
inductive Purpose where
  | change (targetPeer : PeerId)
  | push (targetPeer : PeerId)
  | state
  deriving DecidableEq

inductive Action where
  | processes
  | connect
  /-- Hand a request to the daemon. -/
  | send (request : SyncRequest)
  | receive (request : SyncRequest) (response : SyncResponse)
  /-- Go through a set of files, in some order. -/
  | arrange (ids : List FileId)
  | recv
  | isFile (path : String)
  | getGlobalIgnores
  /-- `event`: the peer of the event that reports the content. -/
  | contentHashFile (path : String) (event : Option PeerId)
  /-- The tracked file under a path, for an event with this content. -/
  | findTracked (path hash : String)
  | getTrackedFile (fileId : FileId)
  | putTrackedFile (tf : TrackedFile) (purpose : Purpose)
  | getOutboxJob (jobId : JobId)
  | putOutboxJob (job : OutboxJob) (isNew : Bool)
  | deleteOutboxJob (jobId : JobId)
  | findConflict (conflictId : ConflictId)
  | deleteSyncConflict (conflictId : ConflictId)
  /-- New ids, and the time. -/
  | drawIds
  /-- A request that writes neither files nor jobs. -/
  | serve (request : SyncRequest)

@[reducible] def Action.Answer : Action → Type
  | .processes => List String
  | .connect => Except IpcError Unit
  | .send _ => Except IpcError Unit
  | .receive _ _ => Except IpcError SyncResponse
  | .arrange _ => List FileId
  | .recv => Option String
  | .isFile _ => Bool
  | .getGlobalIgnores => Except String (List String)
  | .contentHashFile _ _ => Except String (String × UInt64)
  | .findTracked _ _ => Except String (Option TrackedFile)
  | .getTrackedFile _ => Except String (Option TrackedFile)
  | .putTrackedFile _ _ => Except String Unit
  | .getOutboxJob _ => Except String (Option OutboxJob)
  | .putOutboxJob _ _ => Except String Unit
  | .deleteOutboxJob _ => Except String Unit
  | .findConflict _ => Except String (Option SyncConflict)
  | .deleteSyncConflict _ => Except String Unit
  | .drawIds => DaemonEnv
  | .serve _ => Except String SyncResponse

@[reducible] def signature : Signature := ⟨Action, Action.Answer⟩

@[reducible] def perform {ε : Type} (a : Action) : Program signature ε a.Answer :=
  Program.perform (S := signature) a

/-! ## The daemon's requests -/

/-- `map_err` and `?`. -/
def check {α : Type} (wrap : String → String) : Except String α → Program signature String α
  | .ok value => .done value
  | .error message => .fail (wrap message)

def dbError (message : String) : String := s!"db: {message}"

/-- What is sent for the outcome of a request. -/
def reply (code : Nat) (wrap : String → String) (arm : Program signature String SyncResponse) :
    Program signature Empty SyncResponse := do
  match ← arm.attempt with
  | .ok response => return response
  | .error message => return .error code (wrap message)

def enqueue (wrap : String → String) (fileId : FileId) (targetPeer : PeerId) :
    Program signature String SyncResponse := do
  let env ← perform .drawIds
  let job : OutboxJob := {
    jobId := env.newJobId
    fileId
    targetPeer
    status := .queued
    retryCount := 0
    queuedAtUnix := env.nowUnix
    lastError := none }
  check wrap (← perform (.putOutboxJob job true))
  return .syncJob job

def fileChanged (localPath : String) (ruleId : Option RuleId) (nodeId : NodeId)
    (targetPeer : PeerId) : Program signature String SyncResponse := do
  let ignores ← check dbError (← perform .getGlobalIgnores)
  if shouldIgnorePath localPath ignores then
    return .unit
  else
    let (hash, size) ← check (fun e => s!"hash: {e}")
      (← perform (.contentHashFile localPath (some targetPeer)))
    match ← check dbError (← perform (.findTracked localPath hash)) with
    | some tf =>
        if tf.syncState = .lockedByProcess then
          return .unit
        else if tf.contentHash = hash then
          return .unit
        else
          let env ← perform .drawIds
          let changed := Database.changedFile env tf nodeId hash size
          check dbError (← perform (.putTrackedFile changed (.change targetPeer)))
          enqueue dbError tf.fileId targetPeer
    | none =>
        let env ← perform .drawIds
        let tracked := Database.newTrackedFile env localPath nodeId ruleId hash size
        check dbError (← perform (.putTrackedFile tracked (.change targetPeer)))
        enqueue dbError tracked.fileId targetPeer

def enqueueManualPush (localPath : String) (targetPeer : PeerId) (nodeId : NodeId) :
    Program signature String SyncResponse := do
  let (hash, size) ← check id (← perform (.contentHashFile localPath none))
  let env ← perform .drawIds
  let tracked := Database.newTrackedFile env localPath nodeId none hash size
  check id (← perform (.putTrackedFile tracked (.push targetPeer)))
  enqueue id tracked.fileId targetPeer

def setLock (fileId : FileId) (locked : Bool) : Program signature String SyncResponse := do
  match ← check dbError (← perform (.getTrackedFile fileId)) with
  | none => return .error 404 "file not tracked"
  | some tf =>
      let changed := { tf with syncState := if locked then .lockedByProcess else .pending }
      check dbError (← perform (.putTrackedFile changed .state))
      return .unit

def resolveSyncConflict (conflictId : ConflictId) : Program signature String SyncResponse := do
  match ← check dbError (← perform (.findConflict conflictId)) with
  | none => return .error 404 "conflict not found"
  | some c =>
      match ← check dbError (← perform (.getTrackedFile c.fileId)) with
      | none => pure ()
      | some tf =>
          check dbError (← perform (.putTrackedFile { tf with syncState := .pending } .state))
      check dbError (← perform (.deleteSyncConflict conflictId))
      return .unit

def updateJob (jobId : JobId) (status : OutboxStatus) (lastError : Option String) :
    Program signature String SyncResponse := do
  match ← check dbError (← perform (.getOutboxJob jobId)) with
  | none => return .error 404 "job not found"
  | some job =>
      check dbError (← perform (.putOutboxJob (job.updated status lastError) false))
      return .syncJob (job.updated status lastError)

def retryOutboxJob (jobId : JobId) : Program signature String SyncResponse := do
  match ← check id (← perform (.getOutboxJob jobId)) with
  | none => .fail "outbox job not found"
  | some job =>
      check id (← perform (.putOutboxJob job.retried false))
      return .syncJob job.retried

def dismissJob (jobId : JobId) : Program signature String SyncResponse := do
  check id (← perform (.deleteOutboxJob jobId))
  return .unit

/-- The sync arms of `dispatch`. -/
def dispatch : SyncRequest → Program signature Empty SyncResponse
  | .syncFileChanged localPath ruleId nodeId targetPeer =>
      reply 400 id (fileChanged localPath ruleId nodeId targetPeer)
  | .syncPushNow localPath targetPeer nodeId =>
      reply 400 (fun e => s!"push: {e}") (enqueueManualPush localPath targetPeer nodeId)
  | .syncSetLock fileId locked => reply 500 id (setLock fileId locked)
  | .syncResolveConflict conflictId _ => reply 500 dbError (resolveSyncConflict conflictId)
  | .syncUpdateJob jobId status lastError => reply 500 id (updateJob jobId status lastError)
  | .syncRetryJob jobId => reply 404 (fun e => s!"retry: {e}") (retryOutboxJob jobId)
  | .syncDismissJob jobId => reply 500 (fun e => s!"dismiss: {e}") (dismissJob jobId)
  | .syncApplyIgnorePreset name =>
      reply 400 id (do check id (← perform (.serve (.syncApplyIgnorePreset name))))
  | request => reply 500 dbError (do check id (← perform (.serve request)))

def call (request : SyncRequest) : Program signature Empty (Except IpcError SyncResponse) := do
  match ← perform (.send request) with
  | .error error => return .error error
  | .ok () =>
      let response ← dispatch request
      perform (.receive request response)

/-- A request whose outcome is not looked at. -/
def notify (request : SyncRequest) : Program signature Empty Unit := do
  let _ ← call request
  return

/-! ## Process locks -/

/-- The letters of a name, last first, without the `.exe` they begin with. -/
def trimExe : List Char → List Char
  | 'e' :: 'x' :: 'e' :: '.' :: rest => trimExe rest
  | letters => letters

/-- `trim_end_matches(".exe")`. -/
def stem (name : String) : List Char := (trimExe name.toList.reverse).reverse

def contains (letters piece : List Char) : Bool := letters.tails.any piece.isPrefixOf

def processMatches (runningNames matchers : List String) : Bool :=
  (matchers.map String.toLower).any fun m =>
    (runningNames.map String.toLower).any fun r =>
      r = m || stem r = stem m || contains r.toList (stem m)

/-- Whether a rule that matches a running program is about the file. -/
def ruleCovers (rule : SyncRule) (tf : TrackedFile) : Bool :=
  match tf.ruleId with
  | some ruleId => ruleId = rule.ruleId
  | none => rule.paths.any (UnixPath.startsWith tf.localPath)

/-- The files to be locked, each once. -/
def nowLocked (rules : List SyncRule) (names : List String) (tracked : List TrackedFile) :
    List FileId :=
  let running := rules.filter fun rule => rule.enabled && processMatches names rule.processNames
  (running.flatMap fun rule =>
    (tracked.filter (ruleCovers rule)).map TrackedFile.fileId).dedup

def difference (ids others : List FileId) : List FileId :=
  ids.filter fun id => !others.contains id

def setLocks (locked : Bool) : List FileId → Program signature Empty Unit
  | [] => .done ()
  | fileId :: ids => do
      notify (.syncSetLock fileId locked)
      setLocks locked ids

def processLockLoop (rules : List SyncRule) : Nat → List FileId → Program signature Empty Unit
  | 0, _ => .done ()
  | rounds + 1, previouslyLocked => do
      let names ← perform .processes
      match ← perform .connect with
      | .error _ => processLockLoop rules rounds previouslyLocked
      | .ok () =>
          match ← call .syncListTrackedFiles with
          | .ok (.syncTrackedFiles tracked) =>
              let locked := nowLocked rules names tracked
              setLocks true (← perform (.arrange (difference locked previouslyLocked)))
              setLocks false (← perform (.arrange (difference previouslyLocked locked)))
              processLockLoop rules rounds locked
          | _ => processLockLoop rules rounds previouslyLocked

/-! ## Changed files -/

/-- The first enabled rule about the path, with the peer it names first. -/
def matchingRule (rules : List SyncRule) (path : String) : Option (SyncRule × PeerId) :=
  ((rules.filter SyncRule.enabled).find? fun rule =>
    rule.paths.any (UnixPath.startsWith path)).map fun rule => (rule, rule.peerIds.head?.getD "")

/-- What the watcher does with one event. -/
def reportChange (rules : List SyncRule) (nodeId : NodeId) (globalIgnores : List String)
    (path : String) : Program signature Empty Unit := do
  let extra := globalIgnores ++ rules.flatMap SyncRule.ignoreGlobs
  if shouldIgnorePath path extra then
    return
  else if !(← perform (.isFile path)) then
    return
  else
    match matchingRule rules path with
    | none => return
    | some (rule, targetPeer) =>
        if targetPeer = "" then
          return
        else
          match ← perform .connect with
          | .error _ => return
          | .ok () => notify (.syncFileChanged path (some rule.ruleId) nodeId targetPeer)

def watchEvents (rules : List SyncRule) (nodeId : NodeId) (globalIgnores : List String) :
    Nat → Program signature Empty Unit
  | 0 => .done ()
  | rounds + 1 => do
      match ← perform .recv with
      | none => watchEvents rules nodeId globalIgnores rounds
      | some path =>
          reportChange rules nodeId globalIgnores path
          watchEvents rules nodeId globalIgnores rounds

/-- The ignores are asked for once, when the loop starts. -/
def seedIgnores : Program signature Empty (List String) := do
  match ← perform .connect with
  | .error _ => return []
  | .ok () =>
      match ← call .syncListIgnores with
      | .ok (.syncIgnores patterns) => return patterns
      | _ => return []

def watchLoop (rules : List SyncRule) (nodeId : NodeId) (rounds : Nat) :
    Program signature Empty Unit := do
  let globalIgnores ← seedIgnores
  watchEvents rules nodeId globalIgnores rounds

/-! ## The world -/

structure SensorEnv where
  daemon : DaemonEnv
  /-- Why the next transaction fails, if it does. -/
  dbFault : Option String
  fate : SyncRequest → Fate
  connect : Except IpcError Unit
  processes : List String
  isFile : String → Bool
  arrange : (ids : List FileId) → { order : List FileId // order.Perm ids }

structure Log where
  /-- The content last reported for a path, and the peer that is to get it. -/
  reported : String → Option (String × PeerId)
  /-- A request that reports content of the path has yet to look at the tracked file or to
  write it. -/
  unsettled : String → Bool
  /-- The jobs made for a file since its content was written. -/
  recorded : FileId → List OutboxJob
  /-- The peer for which the request that wrote the content has yet to make a job. -/
  owed : FileId → Option PeerId
  pushed : JobId → Bool

structure World where
  db : Database
  env : SensorEnv
  waiting : List String
  log : Log

namespace Log

variable (log : Log)

def report (path hash : String) (targetPeer : PeerId) : Log :=
  { log with
    reported := Function.update log.reported path (some (hash, targetPeer))
    unsettled := Function.update log.unsettled path true }

def settle (path : String) : Log :=
  { log with unsettled := Function.update log.unsettled path false }

def write (fileId : FileId) (targetPeer : PeerId) : Log :=
  { log with
    recorded := Function.update log.recorded fileId []
    owed := Function.update log.owed fileId (some targetPeer) }

def record (job : OutboxJob) : Log :=
  { log with
    recorded := Function.update log.recorded job.fileId (job :: log.recorded job.fileId)
    owed := if log.owed job.fileId = some job.targetPeer
      then Function.update log.owed job.fileId none else log.owed
    pushed := Function.update log.pushed job.jobId false }

/-- The job of a file could not be made. -/
def miss (job : OutboxJob) : Log :=
  { log with owed := Function.update log.owed job.fileId none }

/-- A job is put back after a change of its status. -/
def update (job : OutboxJob) : Log :=
  if job.status = .done then { log with pushed := Function.update log.pushed job.jobId true }
  else log

end Log

namespace World

variable (w : World)

def faulty : Bool := w.env.dbFault.isSome

/-- A transaction leads to the new state of the database, or fails without a trace. -/
def transact {α : Type} (result : α) (db : Database) : Except String α × World :=
  match w.env.dbFault with
  | some message => (.error message, w)
  | none => (.ok result, { w with db })

/-- The request goes no further, whether the database fails or the tracked file is locked
or has this content. -/
def nothingNew (path hash : String) : Bool :=
  w.faulty || (w.db.fileAt? path).any fun tf =>
    tf.syncState = .lockedByProcess || tf.contentHash = hash

/-- The log after an action. -/
def noted : Action → Log
  | .contentHashFile path (some targetPeer) =>
      match w.env.daemon.contentHashFile path with
      | .error _ => w.log
      | .ok (hash, _) => w.log.report path hash targetPeer
  | .findTracked path hash => if w.nothingNew path hash then w.log.settle path else w.log
  | .putTrackedFile tf (.change targetPeer) =>
      (if w.faulty then w.log else w.log.write tf.fileId targetPeer).settle tf.localPath
  | .putTrackedFile tf (.push targetPeer) =>
      if w.faulty then w.log else w.log.write tf.fileId targetPeer
  | .putOutboxJob job true => if w.faulty then w.log.miss job else w.log.record job
  | .putOutboxJob job false => if w.faulty then w.log else w.log.update job
  | _ => w.log

def result : (a : Action) → a.Answer × World
  | .processes => (w.env.processes, w)
  | .connect => (w.env.connect, w)
  | .send request =>
      (match w.env.fate request with
        | .refused error => .error error
        | _ => .ok (), w)
  | .receive request response =>
      (match w.env.fate request with
        | .unanswered error => .error error
        | _ => .ok response, w)
  | .arrange ids => ((w.env.arrange ids).1, w)
  | .recv => (w.waiting.head?, { w with waiting := w.waiting.tail })
  | .isFile path => (w.env.isFile path, w)
  | .getGlobalIgnores => w.transact w.db.getGlobalIgnores.1 w.db.getGlobalIgnores.2
  | .contentHashFile path _ => (w.env.daemon.contentHashFile path, w)
  | .findTracked path _ => w.transact (w.db.fileAt? path) w.db
  | .getTrackedFile fileId => w.transact (w.db.trackedFiles.get fileId) w.db
  | .putTrackedFile tf _ => w.transact () (w.db.putTrackedFile tf)
  | .getOutboxJob jobId => w.transact (w.db.outbox.get jobId) w.db
  | .putOutboxJob job _ => w.transact () (w.db.putOutboxJob job)
  | .deleteOutboxJob jobId => w.transact () { w.db with outbox := w.db.outbox.remove jobId }
  | .findConflict conflictId => w.transact (w.db.conflicts.get conflictId) w.db
  | .deleteSyncConflict conflictId =>
      w.transact () { w.db with conflicts := w.db.conflicts.remove conflictId }
  | .drawIds => (w.env.daemon, w)
  | .serve request =>
      let (response, db) := w.db.serve w.env.daemon request
      w.transact response
        { w.db with syncRules := db.syncRules, globalIgnores := db.globalIgnores }

def exec (a : Action) (w : World) : a.Answer × World :=
  ((w.result a).1, { (w.result a).2 with log := w.noted a })

end World

inductive Call where
  | watch (rules : List SyncRule) (nodeId : NodeId) (rounds : Nat)
  | pollLocks (rules : List SyncRule) (rounds : Nat)
  /-- A request of the user interface or of a loop that drains the outbox. -/
  | request (request : SyncRequest)

def Call.body : Call → Program signature Empty Unit
  | .watch rules nodeId rounds => watchLoop rules nodeId rounds
  | .pollLocks rules rounds => processLockLoop rules rounds []
  | .request asked => notify asked

/-- The environment changes, or a file event arrives at the watcher. -/
inductive Disturbance where
  | env (env : SensorEnv)
  | event (path : String)

@[reducible] def sensors : System signature World Empty Call Disturbance where
  exec := World.exec
  body := Call.body
  change
    | .env env, w => { w with env }
    | .event path, w => { w with waiting := w.waiting ++ [path] }

abbrev SensorPool := Pool signature World Empty Call

abbrev SensorMove := Move Call Disturbance

def emptyDatabase : Database where
  syncRules := Records.empty
  trackedFiles := Records.empty
  outbox := Records.empty
  conflicts := Records.empty
  globalIgnores := none

/-- The daemon before its first request. -/
def fresh (env : SensorEnv) : SensorPool where
  shared := {
    db := emptyDatabase
    env
    waiting := []
    log := {
      reported := fun _ => none
      unsettled := fun _ => false
      recorded := fun _ => []
      owed := fun _ => none
      pushed := fun _ => false } }
  threads := []

end Qubox.Sync.Sensors
