import Qubox.Library.Records
import Qubox.Library.UnixPath
import Qubox.Sync.Plan

/-!
# The daemon's sync state

The tables behind file synchronisation and the requests on them. A request is
one atomic step of the daemon. What the daemon takes from elsewhere meanwhile
(new ids, the time, the hash of a file) is in a `DaemonEnv`. What
`resolve_sync_conflict` does to the two files of a conflict and the events that
are broadcast to subscribers are left out; neither is read by a request.
-/

namespace Qubox.Sync

abbrev RuleId := String
abbrev JobId := String
abbrev ConflictId := String
abbrev PeerId := String

inductive SyncState where
  | synced
  | lockedByProcess
  | pending
  | conflict
  | disabled
  deriving DecidableEq, Repr

inductive OutboxStatus where
  | queued
  | inFlight
  | failed
  | done
  deriving DecidableEq, Repr

inductive ConflictResolution where
  | keepLocal
  | keepRemote
  | keepBoth
  deriving DecidableEq, Repr

structure SyncRule where
  ruleId : RuleId
  paths : List String
  processNames : List String
  peerIds : List PeerId
  enabled : Bool
  maxFileBytes : UInt64
  ignoreGlobs : List String
  deriving DecidableEq

structure TrackedFile where
  fileId : FileId
  localPath : String
  vectorClock : VectorClock
  contentHash : String
  sizeBytes : UInt64
  syncState : SyncState
  ruleId : Option RuleId
  updatedAtUnix : UInt64

structure OutboxJob where
  jobId : JobId
  fileId : FileId
  targetPeer : PeerId
  status : OutboxStatus
  retryCount : UInt32
  queuedAtUnix : UInt64
  lastError : Option String
  deriving DecidableEq

structure SyncConflict where
  conflictId : ConflictId
  fileId : FileId
  localPath : String
  remotePath : String
  peerId : PeerId
  localClock : VectorClock
  remoteClock : VectorClock
  createdAtUnix : UInt64

/-- `u32::saturating_add`. -/
def saturatingSucc (n : UInt32) : UInt32 := if n.toNat + 1 < 4294967296 then n + 1 else n

/-! ## Ignored paths -/

def defaultIgnoreGlobs : List String :=
  [".git", ".git/**", ".svn", ".hg", "node_modules", "node_modules/**", "target", "target/**",
    "*.tmp", "*.part", "*~", "*.sa~", "*.qubox-partial", ".DS_Store", "Thumbs.db"]

def ignorePreset (name : String) : Option (List String) :=
  match name.toLower with
  | "default" => some defaultIgnoreGlobs
  | "safe" => some defaultIgnoreGlobs
  | "git" => some [".git", ".git/**"]
  | "emulator-saves" =>
      some [".git", ".git/**", "*.gba", "*.nes", "*.sfc", "*.smc", "*.iso", "*.rom", "*.tmp",
        "*.part"]
  | "dev" =>
      some [".git", ".git/**", "node_modules", "node_modules/**", "target", "target/**", ".venv",
        "__pycache__", "*.o", "*.pyc"]
  | _ => none

/-- `merge_ignore_globs`: each glob once, where it comes first. -/
def mergeIgnoreGlobs (first second : List String) : List String :=
  (first ++ second).foldl (fun out g => if out.contains g then out else out ++ [g]) []

def endsWith (name suffix : String) : Bool := suffix.toList.isSuffixOf name.toList

/-- Whether a glob, already in lower case, hits the path or its name. -/
def globHits (path name glob : String) : Bool :=
  match glob.toList with
  | '*' :: suffix => suffix.isSuffixOf name.toList
  | letters => name.toList = letters || path.toList.tails.any letters.isPrefixOf

def shouldIgnorePath (path : String) (extraGlobs : List String) : Bool :=
  let name := ((UnixPath.fileName path).getD "").toLower
  ([".tmp", ".part", "~", ".sa~", ".qubox-partial"].any (endsWith name) || name = ".git") ||
    (UnixPath.components path).any (fun component => component.text = ".git") ||
    extraGlobs.any fun glob => globHits path name glob.toLower

/-! ## Tables -/

structure Database where
  syncRules : Records SyncRule SyncRule.ruleId
  trackedFiles : Records TrackedFile TrackedFile.fileId
  outbox : Records OutboxJob OutboxJob.jobId
  conflicts : Records SyncConflict SyncConflict.conflictId
  globalIgnores : Option (List String)

/-- What the daemon takes from elsewhere while it serves one request. -/
structure DaemonEnv where
  newRuleId : RuleId
  newFileId : FileId
  newJobId : JobId
  nowUnix : UInt64
  contentHashFile : String → Except String (String × UInt64)

inductive SyncRequest where
  | syncAddRule (rule : SyncRule)
  | syncRemoveRule (ruleId : RuleId)
  | syncListRules
  | syncSetEnabled (ruleId : RuleId) (enabled : Bool)
  | syncListJobs
  | syncListConflicts
  | syncResolveConflict (conflictId : ConflictId) (resolution : ConflictResolution)
  | syncListTrackedFiles
  | syncPushNow (localPath : String) (targetPeer : PeerId) (nodeId : NodeId)
  | syncSetLock (fileId : FileId) (locked : Bool)
  | syncFileChanged (localPath : String) (ruleId : Option RuleId) (nodeId : NodeId)
      (targetPeer : PeerId)
  | syncListIgnores
  | syncSetIgnores (patterns : List String)
  | syncAddIgnore (pattern : String)
  | syncRemoveIgnore (pattern : String)
  | syncApplyIgnorePreset (name : String)
  | syncDrainReady
  | syncUpdateJob (jobId : JobId) (status : OutboxStatus) (lastError : Option String)
  | syncRetryJob (jobId : JobId)
  | syncDismissJob (jobId : JobId)
  deriving DecidableEq

inductive SyncResponse where
  | unit
  | syncRules (rules : List SyncRule)
  | syncJobs (jobs : List OutboxJob)
  | syncJob (job : OutboxJob)
  | syncConflicts (conflicts : List SyncConflict)
  | syncTrackedFiles (files : List TrackedFile)
  | syncIgnores (patterns : List String)
  | error (code : Nat) (message : String)

def trackedFilePushable (tf : TrackedFile) : Bool :=
  tf.syncState ≠ .lockedByProcess && tf.syncState ≠ .conflict

/-- Whether the job is among those that `SyncDrainReady` lists. -/
def OutboxJob.Pending (job : OutboxJob) : Prop := job.status = .queued ∨ job.status = .failed

instance : DecidablePred OutboxJob.Pending := fun _ => inferInstanceAs (Decidable (_ ∨ _))

def OutboxJob.updated (job : OutboxJob) (status : OutboxStatus) (lastError : Option String) :
    OutboxJob :=
  { job with
    status
    lastError
    retryCount := if status = .failed then saturatingSucc job.retryCount else job.retryCount }

def OutboxJob.retried (job : OutboxJob) : OutboxJob :=
  { job with
    status := .queued
    retryCount := saturatingSucc job.retryCount
    lastError := none }

namespace Database

variable (env : DaemonEnv) (db : Database)

def putTrackedFile (tf : TrackedFile) : Database :=
  { db with trackedFiles := db.trackedFiles.put tf }

def putOutboxJob (job : OutboxJob) : Database := { db with outbox := db.outbox.put job }

def listPendingOutbox : List OutboxJob := db.outbox.list.filter fun job => job.Pending

/-- The ignores; the defaults are stored when there are none. -/
def getGlobalIgnores : List String × Database :=
  match db.globalIgnores with
  | some globs => (globs, db)
  | none => (defaultIgnoreGlobs, { db with globalIgnores := some defaultIgnoreGlobs })

theorem getGlobalIgnores_outbox : db.getGlobalIgnores.2.outbox = db.outbox := by
  rw [getGlobalIgnores]
  split <;> rfl

theorem getGlobalIgnores_trackedFiles : db.getGlobalIgnores.2.trackedFiles = db.trackedFiles := by
  rw [getGlobalIgnores]
  split <;> rfl

theorem getGlobalIgnores_conflicts : db.getGlobalIgnores.2.conflicts = db.conflicts := by
  rw [getGlobalIgnores]
  split <;> rfl

def setGlobalIgnores (globs : List String) : Database := { db with globalIgnores := some globs }

def addGlobalIgnore (pattern : String) : List String × Database :=
  let (globs, db) := db.getGlobalIgnores
  if globs.contains pattern then (globs, db)
  else (globs ++ [pattern], db.setGlobalIgnores (globs ++ [pattern]))

def removeGlobalIgnore (pattern : String) : List String × Database :=
  let (globs, db) := db.getGlobalIgnores
  let globs := globs.filter (· ≠ pattern)
  (globs, db.setGlobalIgnores globs)

def applyIgnorePreset (name : String) : SyncResponse × Database :=
  match ignorePreset name with
  | none => (.error 400 s!"unknown ignore preset: {name}", db)
  | some preset =>
      let (globs, db) := db.getGlobalIgnores
      let merged := mergeIgnoreGlobs globs preset
      (.syncIgnores merged, db.setGlobalIgnores merged)

/-- A new job for the file. -/
def enqueue (fileId : FileId) (targetPeer : PeerId) : SyncResponse × Database :=
  let job : OutboxJob := {
    jobId := env.newJobId
    fileId
    targetPeer
    status := .queued
    retryCount := 0
    queuedAtUnix := env.nowUnix
    lastError := none }
  (.syncJob job, db.putOutboxJob job)

/-- A file that has not been tracked before. -/
def newTrackedFile (localPath : String) (nodeId : NodeId) (ruleId : Option RuleId)
    (hash : String) (size : UInt64) : TrackedFile where
  fileId := env.newFileId
  localPath
  vectorClock := VectorClock.empty.bump nodeId
  contentHash := hash
  sizeBytes := size
  syncState := .pending
  ruleId
  updatedAtUnix := env.nowUnix

/-- The tracked file with its new content. -/
def changedFile (tf : TrackedFile) (nodeId : NodeId) (hash : String) (size : UInt64) :
    TrackedFile :=
  { tf with
    vectorClock := tf.vectorClock.bump nodeId
    contentHash := hash
    sizeBytes := size
    syncState := .pending
    updatedAtUnix := env.nowUnix }

def enqueueManualPush (localPath : String) (targetPeer : PeerId) (nodeId : NodeId) :
    SyncResponse × Database :=
  match env.contentHashFile localPath with
  | .error e => (.error 400 s!"push: {e}", db)
  | .ok (hash, size) =>
      let tracked := newTrackedFile env localPath nodeId none hash size
      (db.putTrackedFile tracked).enqueue env tracked.fileId targetPeer

def setLock (fileId : FileId) (locked : Bool) : SyncResponse × Database :=
  match db.trackedFiles.get fileId with
  | none => (.error 404 "file not tracked", db)
  | some tf =>
      (.unit, db.putTrackedFile
        { tf with syncState := if locked then .lockedByProcess else .pending })

def resolveSyncConflict (conflictId : ConflictId) : SyncResponse × Database :=
  match db.conflicts.get conflictId with
  | none => (.error 404 "conflict not found", db)
  | some c =>
      let settled := match db.trackedFiles.get c.fileId with
        | some tf => db.putTrackedFile { tf with syncState := .pending }
        | none => db
      (.unit, { settled with conflicts := settled.conflicts.remove conflictId })

def updateJob (jobId : JobId) (status : OutboxStatus) (lastError : Option String) :
    SyncResponse × Database :=
  match db.outbox.get jobId with
  | none => (.error 404 "job not found", db)
  | some job =>
      (.syncJob (job.updated status lastError), db.putOutboxJob (job.updated status lastError))

def retryOutboxJob (jobId : JobId) : SyncResponse × Database :=
  match db.outbox.get jobId with
  | none => (.error 404 "retry: outbox job not found", db)
  | some job => (.syncJob job.retried, db.putOutboxJob job.retried)

/-- The tracked file under a path: the first in the order of the ids. -/
def fileAt? (localPath : String) : Option TrackedFile :=
  db.trackedFiles.list.find? fun tf => tf.localPath = localPath

theorem getGlobalIgnores_fileAt? (localPath : String) :
    db.getGlobalIgnores.2.fileAt? localPath = db.fileAt? localPath := by
  rw [fileAt?, getGlobalIgnores_trackedFiles, fileAt?]

def fileChanged (localPath : String) (ruleId : Option RuleId) (nodeId : NodeId)
    (targetPeer : PeerId) : SyncResponse × Database :=
  let (ignores, db) := db.getGlobalIgnores
  if shouldIgnorePath localPath ignores then (.unit, db)
  else
    match env.contentHashFile localPath with
    | .error e => (.error 400 s!"hash: {e}", db)
    | .ok (hash, size) =>
        match db.fileAt? localPath with
        | some tf =>
            if tf.syncState = .lockedByProcess then (.unit, db)
            else if tf.contentHash = hash then (.unit, db)
            else (db.putTrackedFile (changedFile env tf nodeId hash size)).enqueue env tf.fileId
              targetPeer
        | none =>
            let tf := newTrackedFile env localPath nodeId ruleId hash size
            (db.putTrackedFile tf).enqueue env tf.fileId targetPeer

def addRule (rule : SyncRule) : Database :=
  let named := if rule.ruleId = "" then { rule with ruleId := env.newRuleId } else rule
  { db with syncRules := db.syncRules.put named }

def setSyncRuleEnabled (ruleId : RuleId) (enabled : Bool) : SyncResponse × Database :=
  match db.syncRules.get ruleId with
  | none => (.error 404 "rule not found", db)
  | some rule => (.unit, { db with syncRules := db.syncRules.put { rule with enabled } })

/-- The sync arms of `dispatch`. -/
def serve : SyncRequest → SyncResponse × Database
  | .syncAddRule rule => (.unit, db.addRule env rule)
  | .syncRemoveRule ruleId => (.unit, { db with syncRules := db.syncRules.remove ruleId })
  | .syncListRules => (.syncRules db.syncRules.list, db)
  | .syncSetEnabled ruleId enabled => db.setSyncRuleEnabled ruleId enabled
  | .syncListJobs => (.syncJobs db.outbox.list, db)
  | .syncListConflicts => (.syncConflicts db.conflicts.list, db)
  | .syncResolveConflict conflictId _ => db.resolveSyncConflict conflictId
  | .syncListTrackedFiles => (.syncTrackedFiles db.trackedFiles.list, db)
  | .syncPushNow localPath targetPeer nodeId => db.enqueueManualPush env localPath targetPeer nodeId
  | .syncSetLock fileId locked => db.setLock fileId locked
  | .syncFileChanged localPath ruleId nodeId targetPeer =>
      db.fileChanged env localPath ruleId nodeId targetPeer
  | .syncListIgnores => (.syncIgnores db.getGlobalIgnores.1, db.getGlobalIgnores.2)
  | .syncSetIgnores patterns => (.syncIgnores patterns, db.setGlobalIgnores patterns)
  | .syncAddIgnore pattern =>
      (.syncIgnores (db.addGlobalIgnore pattern).1, (db.addGlobalIgnore pattern).2)
  | .syncRemoveIgnore pattern =>
      (.syncIgnores (db.removeGlobalIgnore pattern).1, (db.removeGlobalIgnore pattern).2)
  | .syncApplyIgnorePreset name => db.applyIgnorePreset name
  | .syncDrainReady => (.syncJobs db.listPendingOutbox, db)
  | .syncUpdateJob jobId status lastError => db.updateJob jobId status lastError
  | .syncRetryJob jobId => db.retryOutboxJob jobId
  | .syncDismissJob jobId => (.unit, { db with outbox := db.outbox.remove jobId })

end Database

end Qubox.Sync
