import Qubox.Library.Pool
import Qubox.Sync.Database

/-!
# Tracked files

Two requests put tracked files into the database. `SyncFileChanged` looks for the
file under a path and writes back what it read, with one more change counted;
`SyncPushNow` makes a new file whether or not the path has one. Each access to the
database is a transaction of its own, and between any two of them the requests of
other connections act. A put notes from which record the file was made, which the
database does not look at. The events that are broadcast are left out.

A put is `Timely` if a new file is for a path without one, and if what replaces a
record counts every change that is stored by then. In a run of timely puts no path
has two files and no clock goes back.
-/

namespace Qubox.Sync.Tracking

open Interaction

inductive Action where
  | getSetting
  | setGlobalIgnores (globs : List String)
  | contentHashFile (path : String)
  | listTrackedFiles
  | newFileId
  | newJobId
  | nowUnix
  /-- Store a file that the node has changed, and the record it was made from. -/
  | putTrackedFile (tf : TrackedFile) (read : Option TrackedFile) (nodeId : NodeId)
  | putOutboxJob (job : OutboxJob)
  | sendResponse (response : SyncResponse)

@[reducible] def Action.Answer : Action → Type
  | .getSetting => Except String (Option (List String))
  | .setGlobalIgnores _ => Except String Unit
  | .contentHashFile _ => Except String (String × UInt64)
  | .listTrackedFiles => Except String (List TrackedFile)
  | .newFileId => FileId
  | .newJobId => JobId
  | .nowUnix => UInt64
  | .putTrackedFile _ _ _ => Except String Unit
  | .putOutboxJob _ => Except String Unit
  | .sendResponse _ => Unit

@[reducible] def signature : Signature := ⟨Action, Action.Answer⟩

@[reducible] def perform {ε : Type} (a : Action) : Program signature ε a.Answer :=
  Program.perform (S := signature) a

/-! ## The requests -/

/-- `map_err` and `?`. -/
def check {α : Type} (wrap : String → String) : Except String α → Program signature String α
  | .ok value => .done value
  | .error message => .fail (wrap message)

def dbError (message : String) : String := s!"db: {message}"

def getGlobalIgnores : Program signature String (List String) := do
  match ← check dbError (← perform .getSetting) with
  | some globs => return globs
  | none =>
      check dbError (← perform (.setGlobalIgnores defaultIgnoreGlobs))
      return defaultIgnoreGlobs

def enqueue (wrap : String → String) (fileId : FileId) (targetPeer : PeerId) :
    Program signature String SyncResponse := do
  let jobId ← perform .newJobId
  let queuedAtUnix ← perform .nowUnix
  let job : OutboxJob := {
    jobId
    fileId
    targetPeer
    status := .queued
    retryCount := 0
    queuedAtUnix
    lastError := none }
  check wrap (← perform (.putOutboxJob job))
  return .syncJob job

/-- Track a file that has not been tracked before. -/
def track (wrap : String → String) (localPath : String) (ruleId : Option RuleId)
    (nodeId : NodeId) (hash : String) (size : UInt64) : Program signature String FileId := do
  let fileId ← perform .newFileId
  let updatedAtUnix ← perform .nowUnix
  let tracked : TrackedFile := {
    fileId
    localPath
    vectorClock := VectorClock.empty.bump nodeId
    contentHash := hash
    sizeBytes := size
    syncState := .pending
    ruleId
    updatedAtUnix }
  check wrap (← perform (.putTrackedFile tracked none nodeId))
  return fileId

/-- Write back a tracked file with its new content. -/
def retrack (tf : TrackedFile) (nodeId : NodeId) (hash : String) (size : UInt64) :
    Program signature String Unit := do
  let updatedAtUnix ← perform .nowUnix
  let changed : TrackedFile := { tf with
    vectorClock := tf.vectorClock.bump nodeId
    contentHash := hash
    sizeBytes := size
    syncState := .pending
    updatedAtUnix }
  check dbError (← perform (.putTrackedFile changed (some tf) nodeId))

def fileChanged (localPath : String) (ruleId : Option RuleId) (nodeId : NodeId)
    (targetPeer : PeerId) : Program signature String SyncResponse := do
  let ignores ← getGlobalIgnores
  if shouldIgnorePath localPath ignores then
    return .unit
  else
    let (hash, size) ← check (fun e => s!"hash: {e}") (← perform (.contentHashFile localPath))
    let files ← check dbError (← perform .listTrackedFiles)
    match files.find? fun tf => tf.localPath = localPath with
    | some tf =>
        if tf.syncState = .lockedByProcess then
          return .unit
        else if tf.contentHash = hash then
          return .unit
        else
          retrack tf nodeId hash size
          enqueue dbError tf.fileId targetPeer
    | none =>
        let fileId ← track dbError localPath ruleId nodeId hash size
        enqueue dbError fileId targetPeer

def enqueueManualPush (localPath : String) (targetPeer : PeerId) (nodeId : NodeId) :
    Program signature String SyncResponse := do
  let (hash, size) ← check id (← perform (.contentHashFile localPath))
  let fileId ← track id localPath none nodeId hash size
  enqueue id fileId targetPeer

/-- What is sent for the outcome of a request. -/
def reply (wrap : String → String) : Except String SyncResponse → SyncResponse
  | .ok response => response
  | .error message => .error 400 (wrap message)

def dispatch (wrap : String → String) (arm : Program signature String SyncResponse) :
    Program signature Empty Unit := do
  perform (.sendResponse (reply wrap (← arm.attempt)))

inductive Call where
  | syncFileChanged (localPath : String) (ruleId : Option RuleId) (nodeId : NodeId)
      (targetPeer : PeerId)
  | syncPushNow (localPath : String) (targetPeer : PeerId) (nodeId : NodeId)

def Call.body : Call → Program signature Empty Unit
  | .syncFileChanged localPath ruleId nodeId targetPeer =>
      dispatch id (fileChanged localPath ruleId nodeId targetPeer)
  | .syncPushNow localPath targetPeer nodeId =>
      dispatch (fun e => s!"push: {e}") (enqueueManualPush localPath targetPeer nodeId)

/-! ## The world -/

/-- What the daemon takes from elsewhere, and why the next transaction fails if it
does. -/
structure Env where
  daemon : DaemonEnv
  dbFault : Option String

structure World where
  db : Database
  env : Env

namespace World

/-- A transaction leads to the new state of the database, or fails without a trace. -/
def transact {α : Type} (w : World) (result : α) (db : Database) : Except String α × World :=
  match w.env.dbFault with
  | some message => (.error message, w)
  | none => (.ok result, { w with db })

def exec : (a : Action) → World → a.Answer × World
  | .getSetting, w => w.transact w.db.globalIgnores w.db
  | .setGlobalIgnores globs, w => w.transact () (w.db.setGlobalIgnores globs)
  | .contentHashFile path, w => (w.env.daemon.contentHashFile path, w)
  | .listTrackedFiles, w => w.transact w.db.trackedFiles.list w.db
  | .newFileId, w => (w.env.daemon.newFileId, w)
  | .newJobId, w => (w.env.daemon.newJobId, w)
  | .nowUnix, w => (w.env.daemon.nowUnix, w)
  | .putTrackedFile tf _ _, w => w.transact () (w.db.putTrackedFile tf)
  | .putOutboxJob job, w => w.transact () (w.db.putOutboxJob job)
  | .sendResponse _, w => ((), w)

end World

/-- The environment may change between any two actions. -/
@[reducible] def tracking : System signature World Empty Call Env where
  exec := World.exec
  body := Call.body
  change env w := { w with env }

abbrev TrackingPool := Pool signature World Empty Call

abbrev TrackingMove := Move Call Env

/-- The daemon with this database, before it serves anyone. -/
def serving (db : Database) (env : Env) : TrackingPool := ⟨⟨db, env⟩, []⟩

/-! ## Requests that nothing comes between

While no transaction fails such a request is the one step of the daemon that
`Database.serve` has for it. -/

/-- The world while no transaction fails. -/
def World.faultless (db : Database) (daemon : DaemonEnv) : World := ⟨db, ⟨daemon, none⟩⟩

section Uninterrupted

variable (db : Database) (daemon : DaemonEnv) (wrap : String → String)

theorem run_getGlobalIgnores :
    tracking.run getGlobalIgnores (.faultless db daemon) =
      (.ok db.getGlobalIgnores.1, .faultless db.getGlobalIgnores.2 daemon) := by
  obtain ⟨syncRules, trackedFiles, outbox, conflicts, globalIgnores⟩ := db
  cases globalIgnores <;> rfl

/-- What a request answers and what it makes of the database. -/
def served (arm : Program signature String SyncResponse) : SyncResponse × Database :=
  (reply wrap (tracking.run arm (.faultless db daemon)).1,
    (tracking.run arm (.faultless db daemon)).2.db)

section Actions

variable {α : Type}

theorem run_contentHashFile (path : String)
    (rest : Except String (String × UInt64) → Program signature String α) :
    tracking.run (perform (.contentHashFile path) >>= rest) (.faultless db daemon) =
      tracking.run (rest (daemon.contentHashFile path)) (.faultless db daemon) := rfl

theorem run_listTrackedFiles
    (rest : Except String (List TrackedFile) → Program signature String α) :
    tracking.run (perform .listTrackedFiles >>= rest) (.faultless db daemon) =
      tracking.run (rest (.ok db.trackedFiles.list)) (.faultless db daemon) := rfl

theorem check_ok {β : Type} (value : β) (rest : β → Program signature String α) :
    (check wrap (.ok value) >>= rest) = rest value := rfl

end Actions

theorem served_enqueueManualPush (localPath : String) (targetPeer : PeerId) (nodeId : NodeId) :
    served db daemon (fun e => s!"push: {e}") (enqueueManualPush localPath targetPeer nodeId) =
      db.serve daemon (.syncPushNow localPath targetPeer nodeId) := by
  rw [served, enqueueManualPush, run_contentHashFile, Database.serve, Database.enqueueManualPush]
  cases daemon.contentHashFile localPath <;> rfl

theorem served_fileChanged (localPath : String) (ruleId : Option RuleId) (nodeId : NodeId)
    (targetPeer : PeerId) :
    served db daemon id (fileChanged localPath ruleId nodeId targetPeer) =
      db.serve daemon (.syncFileChanged localPath ruleId nodeId targetPeer) := by
  rw [served, fileChanged, Machine.run_bind, run_getGlobalIgnores, Machine.resume_ok,
    Database.serve, Database.fileChanged]
  generalize db.getGlobalIgnores = got
  obtain ⟨ignores, db⟩ := got
  dsimp only
  split
  case isTrue => rfl
  case isFalse =>
    rw [run_contentHashFile]
    cases daemon.contentHashFile localPath with
    | error e => rfl
    | ok found =>
        obtain ⟨hash, size⟩ := found
        rw [check_ok, run_listTrackedFiles, check_ok, Database.fileAt?]
        dsimp only
        cases db.trackedFiles.list.find? fun tf => tf.localPath = localPath with
        | none => rfl
        | some tf =>
            dsimp only
            split
            case isTrue => rfl
            case isFalse => split <;> rfl

end Uninterrupted

/-! ## One file per path, with a growing clock -/

abbrev Files := Records TrackedFile TrackedFile.fileId

section Statement

def OneFilePerPath (files : Files) : Prop :=
  ∀ tf ∈ files.list, ∀ other ∈ files.list, other.localPath = tf.localPath →
    other.fileId = tf.fileId

def filesAfter (P : TrackingPool) (moves : List TrackingMove) : Files :=
  (tracking.schedule P moves).shared.db.trackedFiles

/-- At no time of a run a path has two files, and the clock of a path is never behind or in
conflict with one it had before. -/
structure Tracks (P : TrackingPool) (moves : List TrackingMove) : Prop where
  unique : ∀ reached, reached <+: moves → OneFilePerPath (filesAfter P reached)
  grows : ∀ earlier later, earlier <+: later → later <+: moves →
    ∀ old ∈ (filesAfter P earlier).list, ∀ new ∈ (filesAfter P later).list,
      new.localPath = old.localPath → new.vectorClock.Covers old.vectorClock

/-- The stored clock counts a change beyond those of the clock that was read and the next
one of the node. -/
def Overtaken (stored read : VectorClock) (nodeId : NodeId) : Prop :=
  ∃ node ∈ stored.keys read,
    read.count node + (if node = nodeId then 1 else 0) < stored.count node

/-- A new file is under an unused id and for a path without a file. What replaces a
record finds it under its path and not overtaken, and its counter does not wrap. -/
def Timely (files : Files) : Action → Prop
  | .putTrackedFile tf none _ =>
      files.get tf.fileId = none ∧ ∀ other ∈ files.list, other.localPath ≠ tf.localPath
  | .putTrackedFile _ (some read) nodeId =>
      read.vectorClock.count nodeId < UInt64.size - 1 ∧
        ∃ stored ∈ files.get read.fileId, stored.localPath = read.localPath ∧
          ¬ Overtaken stored.vectorClock read.vectorClock nodeId
  | _ => True

def TimelyMove (P : TrackingPool) (m : TrackingMove) : Prop :=
  ∀ a ∈ P.next? m, P.shared.env.dbFault = none → Timely P.shared.db.trackedFiles a

instance (files : Files) : Decidable (OneFilePerPath files) :=
  inferInstanceAs (Decidable (∀ tf ∈ files.list, _))

instance (stored read : VectorClock) (nodeId : NodeId) :
    Decidable (Overtaken stored read nodeId) :=
  inferInstanceAs (Decidable (∃ node ∈ stored.keys read, _))

instance (files : Files) : DecidablePred (Timely files)
  | .putTrackedFile _ none _ => inferInstanceAs (Decidable (_ ∧ _))
  | .putTrackedFile _ (some _) _ => inferInstanceAs (Decidable (_ ∧ _))
  | .getSetting | .setGlobalIgnores _ | .contentHashFile _ | .listTrackedFiles | .newFileId
  | .newJobId | .nowUnix | .putOutboxJob _ | .sendResponse _ => isTrue trivial

instance (P : TrackingPool) (m : TrackingMove) : Decidable (TimelyMove P m) :=
  inferInstanceAs (Decidable (∀ a ∈ P.next? m, P.shared.env.dbFault = none → _))

end Statement

/-! ## What is written -/

/-- The file is as the record it was made from, with one more change of the node. -/
def Based : Action → Prop
  | .putTrackedFile tf (some read) nodeId =>
      tf.fileId = read.fileId ∧ tf.localPath = read.localPath ∧
        tf.vectorClock = read.vectorClock.bump nodeId
  | _ => True

section Programs

variable {wrap : String → String} {assume : (a : Action) → a.Answer → Prop}

theorem check_based {α : Type} (result : Except String α) :
    (check wrap result).Upholds assume Based (fun _ => True) := by
  cases result <;> trivial

theorem getGlobalIgnores_based :
    getGlobalIgnores.Upholds assume Based (fun _ => True) := by
  refine ⟨trivial, fun found _ => (check_based found).bind fun globs _ => ?_⟩
  cases globs with
  | some globs => trivial
  | none => exact ⟨trivial, fun stored _ => (check_based stored).bind fun _ _ => trivial⟩

theorem enqueue_based (fileId : FileId) (targetPeer : PeerId) :
    (enqueue wrap fileId targetPeer).Upholds assume Based (fun _ => True) :=
  ⟨trivial, fun _ _ => ⟨trivial, fun _ _ => ⟨trivial, fun stored _ =>
    (check_based stored).bind fun _ _ => trivial⟩⟩⟩

theorem track_based (localPath : String) (ruleId : Option RuleId) (nodeId : NodeId)
    (hash : String) (size : UInt64) :
    (track wrap localPath ruleId nodeId hash size).Upholds assume Based (fun _ => True) :=
  ⟨trivial, fun _ _ => ⟨trivial, fun _ _ => ⟨trivial, fun stored _ =>
    (check_based stored).bind fun _ _ => trivial⟩⟩⟩

theorem retrack_based (tf : TrackedFile) (nodeId : NodeId) (hash : String) (size : UInt64) :
    (retrack tf nodeId hash size).Upholds assume Based (fun _ => True) :=
  ⟨trivial, fun _ _ => ⟨⟨rfl, rfl, rfl⟩, fun stored _ => check_based stored⟩⟩

theorem fileChanged_based (localPath : String) (ruleId : Option RuleId) (nodeId : NodeId)
    (targetPeer : PeerId) :
    (fileChanged localPath ruleId nodeId targetPeer).Upholds assume Based (fun _ => True) := by
  refine getGlobalIgnores_based.bind fun ignores _ => ?_
  split
  case isTrue => trivial
  case isFalse =>
    refine ⟨trivial, fun content _ => (check_based content).bind fun found _ => ?_⟩
    refine ⟨trivial, fun listed _ => (check_based listed).bind fun files _ => ?_⟩
    split
    case h_1 tf _ =>
      split
      case isTrue => trivial
      case isFalse =>
        split
        case isTrue => trivial
        case isFalse =>
          exact (retrack_based tf nodeId _ _).bind fun _ _ => enqueue_based _ _
    case h_2 =>
      exact (track_based localPath ruleId nodeId _ _).bind fun _ _ => enqueue_based _ _

theorem enqueueManualPush_based (localPath : String) (targetPeer : PeerId) (nodeId : NodeId) :
    (enqueueManualPush localPath targetPeer nodeId).Upholds assume Based (fun _ => True) :=
  ⟨trivial, fun content _ => (check_based content).bind fun _ _ =>
    (track_based localPath none nodeId _ _).bind fun _ _ => enqueue_based _ _⟩

theorem body_based (call : Call) : call.body.Upholds assume Based (fun _ => True) := by
  cases call with
  | syncFileChanged localPath ruleId nodeId targetPeer =>
      exact (fileChanged_based localPath ruleId nodeId targetPeer).attempt.bind
        fun _ _ => ⟨trivial, fun _ _ => trivial⟩
  | syncPushNow localPath targetPeer nodeId =>
      exact (enqueueManualPush_based localPath targetPeer nodeId).attempt.bind
        fun _ _ => ⟨trivial, fun _ _ => trivial⟩

end Programs

/-- An action puts a file, or leaves the tracked files as they are. -/
theorem exec_trackedFiles (a : Action) (w : World) :
    (World.exec a w).2.db.trackedFiles = w.db.trackedFiles ∨
      ∃ tf read nodeId, a = .putTrackedFile tf read nodeId ∧ w.env.dbFault = none ∧
        (World.exec a w).2.db.trackedFiles = w.db.trackedFiles.put tf := by
  have transacted {α : Type} (result : α) (db : Database)
      (same : db.trackedFiles = w.db.trackedFiles) :
      (w.transact result db).2.db.trackedFiles = w.db.trackedFiles := by
    rw [World.transact]
    split
    · rfl
    · exact same
  cases a with
  | putTrackedFile tf read nodeId =>
      cases fault : w.env.dbFault with
      | some message => exact .inl (by simp only [World.exec, World.transact, fault])
      | none =>
          refine .inr ⟨tf, read, nodeId, rfl, rfl, ?_⟩
          simp only [World.exec, World.transact, fault, Database.putTrackedFile]
  | getSetting | setGlobalIgnores globs | listTrackedFiles | putOutboxJob job =>
      exact .inl (transacted _ _ rfl)
  | contentHashFile path | newFileId | newJobId | nowUnix | sendResponse response => exact .inl rfl

/-! ## What a put does to the files -/

/-- Every file is still there, under its path and with all its changes counted. -/
def Extends (files later : Files) : Prop :=
  ∀ fileId tf, files.get fileId = some tf → ∃ tf', later.get fileId = some tf' ∧
    tf'.localPath = tf.localPath ∧ tf'.vectorClock.Covers tf.vectorClock

theorem Extends.refl (files : Files) : Extends files files :=
  fun _ tf found => ⟨tf, found, rfl, .refl _⟩

theorem Extends.trans {first second third : Files} (early : Extends first second)
    (late : Extends second third) : Extends first third := by
  intro fileId tf found
  obtain ⟨tf', found', path', covers'⟩ := early fileId tf found
  obtain ⟨tf'', found'', path'', covers''⟩ := late fileId tf' found'
  exact ⟨tf'', found'', path''.trans path', covers'.trans covers''⟩

/-- The file may be put: its path has no other file, and what it replaces is an
earlier state of it. -/
structure Supersedes (files : Files) (tf : TrackedFile) : Prop where
  sole : ∀ other ∈ files.list, other.localPath = tf.localPath → other.fileId = tf.fileId
  forward : ∀ stored ∈ files.get tf.fileId, tf.localPath = stored.localPath ∧
    tf.vectorClock.Covers stored.vectorClock

section Put

variable {files : Files} {tf : TrackedFile}

theorem Supersedes.unique_put (supersedes : Supersedes files tf) (unique : OneFilePerPath files) :
    OneFilePerPath (files.put tf) := by
  have cases_put (other : TrackedFile) (there : other ∈ (files.put tf).list) :
      other = tf ∨ other ∈ files.list := by
    rw [Records.mem_list, Records.get_put] at there
    split at there
    case isTrue => exact .inl (Option.some.inj there).symm
    case isFalse => exact .inr (Records.mem_list.mpr there)
  intro one oneThere other otherThere same
  rcases cases_put one oneThere with rfl | oneOld <;>
    rcases cases_put other otherThere with rfl | otherOld
  · rfl
  · exact supersedes.sole other otherOld same
  · exact (supersedes.sole one oneOld same.symm).symm
  · exact unique one oneOld other otherOld same

theorem Supersedes.extends_put (supersedes : Supersedes files tf) :
    Extends files (files.put tf) := by
  intro fileId stored found
  rw [Records.get_put]
  split
  case isTrue same =>
    subst same
    exact ⟨tf, rfl, supersedes.forward stored found⟩
  case isFalse => exact ⟨stored, found, rfl, .refl _⟩

/-- One more change of the node covers a clock that has not overtaken. -/
theorem covers_bump {stored read : VectorClock} {nodeId : NodeId}
    (room : read.count nodeId < UInt64.size - 1) (level : ¬ Overtaken stored read nodeId) :
    (read.bump nodeId).Covers stored := by
  rw [VectorClock.covers_iff, VectorClock.bump_count room]
  intro node
  have bound : stored.count node ≤ read.count node + (if node = nodeId then 1 else 0) := by
    by_cases listed : node ∈ stored.keys read
    · exact Nat.not_lt.mp fun less => level ⟨node, listed, less⟩
    · rw [VectorClock.keys, List.mem_dedup, List.mem_append, not_or] at listed
      rw [VectorClock.count, VectorClock.get_of_not_mem listed.1]
      exact Nat.zero_le _
  rw [Function.update_apply]
  split
  case isTrue same =>
    subst same
    rwa [if_pos rfl] at bound
  case isFalse different => rwa [if_neg different] at bound

theorem supersedes_of_timely {read : Option TrackedFile} {nodeId : NodeId}
    (unique : OneFilePerPath files) (based : Based (.putTrackedFile tf read nodeId))
    (timely : Timely files (.putTrackedFile tf read nodeId)) : Supersedes files tf := by
  cases read with
  | none =>
      obtain ⟨unused, elsewhere⟩ := timely
      refine ⟨fun other there same => absurd same (elsewhere other there), fun stored found => ?_⟩
      rw [unused] at found
      cases found
  | some read =>
      obtain ⟨id_eq, path_eq, clock_eq⟩ := based
      obtain ⟨room, stored, found, stored_path, level⟩ := timely
      have under : stored.fileId = tf.fileId := (Records.key_of_get found).trans id_eq.symm
      have there : stored ∈ files.list := by
        rw [Records.mem_list, under, id_eq]
        exact found
      refine ⟨fun other otherThere same => ?_, fun replaced replacedFound => ?_⟩
      · have beside : other.localPath = stored.localPath :=
          same.trans (path_eq.trans stored_path.symm)
        exact (unique stored there other otherThere beside).trans under
      · rw [id_eq, found] at replacedFound
        obtain rfl := Option.some.inj replacedFound
        refine ⟨path_eq.trans stored_path.symm, ?_⟩
        rw [clock_eq]
        exact covers_bump room level

end Put

/-! ## Runs -/

/-- No path has two files, and every request writes files as they are based. -/
def Sound (P : TrackingPool) : Prop :=
  System.Holds (fun w : World => OneFilePerPath w.db.trackedFiles)
    (fun t : Thread signature Empty Call =>
      t.rest.Upholds (fun _ _ => True) Based (fun _ => True)) P

theorem sound_serving {db : Database} (env : Env) (unique : OneFilePerPath db.trackedFiles) :
    Sound (serving db env) :=
  ⟨unique, fun _ member => absurd member List.not_mem_nil⟩

theorem exec_timely {a : Action} {w : World} (unique : OneFilePerPath w.db.trackedFiles)
    (based : Based a) (timely : w.env.dbFault = none → Timely w.db.trackedFiles a) :
    OneFilePerPath (World.exec a w).2.db.trackedFiles ∧
      Extends w.db.trackedFiles (World.exec a w).2.db.trackedFiles := by
  rcases exec_trackedFiles a w with same | ⟨tf, read, nodeId, rfl, steady, put⟩
  · rw [same]
    exact ⟨unique, .refl _⟩
  · rw [put]
    have supersedes := supersedes_of_timely unique based (timely steady)
    exact ⟨supersedes.unique_put unique, supersedes.extends_put⟩

theorem sound_move (P : TrackingPool) (m : TrackingMove) (timely : TimelyMove P m)
    (sound : Sound P) : Sound (tracking.move P m) := by
  refine sound.move tracking (fun call _ => body_based call) (fun _ _ => sound.shared)
    fun i call a k here found => ?_
  subst here
  have contract := sound.threads _ (List.mem_of_getElem? found)
  exact ⟨(exec_timely sound.shared contract.1 (timely a (Pool.next?_step found))).1,
    contract.2 _ trivial⟩

theorem extends_move {P : TrackingPool} {m : TrackingMove} (timely : TimelyMove P m)
    (sound : Sound P) :
    Extends P.shared.db.trackedFiles (tracking.move P m).shared.db.trackedFiles := by
  cases m with
  | call call | disturb env => exact .refl _
  | step i =>
      change Extends _ (tracking.advance P i).shared.db.trackedFiles
      rcases tracking.advance_cases P i with same | ⟨call, a, k, found, moved⟩
      · rw [same]
        exact .refl _
      · rw [moved]
        have contract := sound.threads _ (List.mem_of_getElem? found)
        exact (exec_timely sound.shared contract.1 (timely a (Pool.next?_step found))).2

theorem extends_schedule {P : TrackingPool} {moves : List TrackingMove} (sound : Sound P)
    (timely : tracking.Along TimelyMove P moves) :
    Extends P.shared.db.trackedFiles (filesAfter P moves) := by
  induction moves generalizing P with
  | nil => exact .refl _
  | cons m ms ih =>
      exact (extends_move timely.1 sound).trans (ih (sound_move P m timely.1 sound) timely.2)

/-- In a run of timely puts no path has two files, and no clock goes back. -/
theorem tracks_of_timely (db : Database) (env : Env) (moves : List TrackingMove)
    (unique : OneFilePerPath db.trackedFiles)
    (timely : tracking.Along TimelyMove (serving db env) moves) :
    Tracks (serving db env) moves := by
  have sound (reached : List TrackingMove) (within : reached <+: moves) :
      Sound (tracking.schedule (serving db env) reached) := by
    obtain ⟨rest, rfl⟩ := within
    exact tracking.schedule_invariant sound_move (sound_serving env unique)
      ((tracking.along_append).mp timely).1
  refine ⟨fun reached within => (sound reached within).shared, ?_⟩
  rintro earlier _ ⟨between, rfl⟩ within old oldThere new newThere same
  have timelyBetween : tracking.Along TimelyMove
      (tracking.schedule (serving db env) earlier) between := by
    obtain ⟨rest, rfl⟩ := within
    exact (tracking.along_append.mp (tracking.along_append.mp timely).1).2
  have extended := extends_schedule
    (sound earlier ((List.prefix_append earlier between).trans within)) timelyBetween
  have reached : tracking.schedule (tracking.schedule (serving db env) earlier) between =
      tracking.schedule (serving db env) (earlier ++ between) :=
    (tracking.schedule_append _ earlier between).symm
  obtain ⟨kept, found, path, covers⟩ := extended old.fileId old (Records.mem_list.mp oldThere)
  rw [filesAfter, reached] at found
  have keptThere : kept ∈ (filesAfter (serving db env) (earlier ++ between)).list := by
    rw [Records.mem_list, Records.key_of_get found]
    exact found
  have id_eq := (sound _ within).shared kept keptThere new newThere (same.trans path.symm)
  have newFound := Records.mem_list.mp newThere
  rw [id_eq, Records.key_of_get found] at newFound
  obtain rfl := Option.some.inj (newFound.symm.trans found)
  exact covers

namespace Sample

def noFiles : Database where
  syncRules := Records.empty
  trackedFiles := Records.empty
  outbox := Records.empty
  conflicts := Records.empty
  globalIgnores := none

/-- Every file has this content, and new ids end in this way. -/
def state (hash newId : String) : Env where
  daemon := {
    newRuleId := "rule-" ++ newId
    newFileId := "file-" ++ newId
    newJobId := "job-" ++ newId
    nowUnix := 1
    contentHashFile := fun _ => .ok (hash, 3) }
  dbFault := none

def steps (i count : Nat) : List TrackingMove := List.replicate count (.step i)

def push : TrackingMove := .call (.syncPushNow "/home/me/notes" "peer" "desk")

def change (nodeId : NodeId) : TrackingMove :=
  .call (.syncFileChanged "/home/me/notes" none nodeId "peer")

/-- A file changes for the first time. -/
def changed : List TrackingMove := change "desk" :: steps 0 11

/-- The file changes twice more, and the second request writes back what it has read
before the first one wrote. -/
def crossed : List TrackingMove :=
  changed ++ [.disturb (state "decaf" "2"), change "desk", change "deck"] ++ steps 1 3 ++
    steps 2 3 ++ steps 1 6 ++ steps 2 6

def pushedTwice : List TrackingMove :=
  push :: steps 0 8 ++ [.disturb (state "c0ffee" "2"), push] ++ steps 1 8

def start : TrackingPool := serving noFiles (state "c0ffee" "1")

/-- A path that is pushed twice has two files, and a change that was read too early
takes back another. -/
theorem pushedTwice_not_tracks : ¬ Tracks start pushedTwice ∧ ¬ Tracks start crossed := by
  constructor
  · intro tracks
    have unique := tracks.unique pushedTwice (List.prefix_refl _)
    revert unique
    decide
  · intro tracks
    have grows := tracks.grows (changed ++ [.disturb (state "decaf" "2"), change "desk",
      change "deck"] ++ steps 1 3 ++ steps 2 3 ++ steps 1 6) crossed (List.prefix_append _ _)
      (List.prefix_refl _)
    revert grows
    simp only [VectorClock.Covers]
    decide +kernel

/-- Two requests one after the other keep one file with a growing clock. -/
theorem changedTwice_tracks : Tracks start
    (changed ++ [.disturb (state "decaf" "2"), change "deck"] ++ steps 1 9) :=
  tracks_of_timely noFiles (state "c0ffee" "1") _ (by decide +kernel) (by decide +kernel)

end Sample

end Qubox.Sync.Tracking
