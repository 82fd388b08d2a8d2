import Qubox.FileSync.Transfer
import Qubox.Library.Pool
import Qubox.Sync.Database

/-!
# Draining the outbox

The two loops that push the files of pending jobs to a connected peer, the one
of the host agent and the one of the client, as programs over their requests to
the daemon and what they do to files and streams. Any number of loops and any
other requests act on one world. A loop is given the number of rounds it will
make; waiting between rounds and for the media bitrate is left out.

A request is served, refused with no effect, or served without the answer
arriving. What the files contain, and which operations fail, is up to an
environment that may change between any two actions. The log notes what happens
to jobs and locks; no program reads it.
-/

namespace Qubox.Sync

open Interaction FileSync

/-! ## Pushing a file -/

/-- Text of an error of a request. -/
abbrev IpcError := String

inductive PushError where
  | relativePath (error : FileSyncError)
  | invalidFileId
  | exceedsMax (path : String)
  | io (error : IoError)
  | sentMismatch (sent size : Nat) (path : String)

def PushError.text : PushError → String
  | .relativePath error => error.text
  | .invalidFileId => "invalid file_id"
  | .exceedsMax path => s!"file {path} exceeds MAX_FILESYNC_BYTES ({maxFilesyncBytes})"
  | .io error => error
  | .sentMismatch sent size path => s!"sent {sent} bytes but header size is {size} for {path}"

inductive Action where
  | closeReason
  | connect
  | call (request : SyncRequest)
  /-- `SyncListTrackedFiles`, and the file with this id in the answer. -/
  | readTracked (fileId : FileId)
  | isFile (path : String)
  /-- `push_file_over_connection` is called for a job; it changes nothing. -/
  | startPush (job : OutboxJob) (tf : TrackedFile)
  /-- The call has returned `Ok`; the world only notes it. -/
  | pushed (job : OutboxJob) (stream : Nat) (header : FileTransferHeader)
  | readFile (path : String)
  | openUni
  | write (stream : Nat) (bytes : Bytes)
  | openFile (path : String)
  | copy (path : String) (stream : Nat)
  | finish (stream : Nat)

@[reducible] def Action.Answer : Action → Type
  | .closeReason => Bool
  | .connect => Except IpcError Unit
  | .call _ => Except IpcError SyncResponse
  | .readTracked _ => Except IpcError (Option TrackedFile)
  | .isFile _ => Bool
  | .startPush _ _ => Unit
  | .pushed _ _ _ => Unit
  | .readFile _ => Except IoError Bytes
  | .openUni => Except IoError Nat
  | .write _ _ => Except IoError Unit
  | .openFile _ => Except IoError Unit
  | .copy _ _ => Except IoError Bytes
  | .finish _ => Except IoError Unit

@[reducible] def signature : Signature := ⟨Action, Action.Answer⟩

@[reducible] def perform {ε : Type} (a : Action) : Program signature ε a.Answer :=
  Program.perform (S := signature) a

/-- The `?` operator on an answer of the system. -/
def orFail {α : Type} : Except IoError α → Program signature PushError α
  | .ok a => .done a
  | .error e => .fail (.io e)

section Push

variable (blake3 : Bytes → BitVec 256)

/-- `hash_file_streaming`. -/
def hashFileStreaming (path : String) : Program signature PushError (BitVec 256 × Nat) := do
  let content ← orFail (← perform (.readFile path))
  if content.length > maxFilesyncBytes then
    .fail (.exceedsMax path)
  else
    return (blake3 content, content.length)

/-- The answer of `copy` is what has been put on the stream; the program looks
only at the number of bytes. -/
def sendFileBulk (stream : Nat) (header : FileTransferHeader) (path : String) :
    Program signature PushError Unit := do
  if header.size.toNat > maxFilesyncBytes then
    .fail (.exceedsMax path)
  else
    orFail (← perform (.write stream header.encode))
    orFail (← perform (.openFile path))
    let copied ← orFail (← perform (.copy path stream))
    if copied.length ≠ header.size.toNat then
      .fail (.sentMismatch copied.length header.size.toNat path)
    else
      orFail (← perform (.finish stream))

/-- The result of a push that succeeds, which the program only passes on to
`pushed`, is the stream with the header it carries. -/
def pushFileOverConnection (path : String) (fileId : FileId) (relativePath : String) :
    Program signature PushError (Nat × FileTransferHeader) := do
  match validateRelativePath relativePath with
  | .error error => .fail (.relativePath error)
  | .ok () =>
      if fileId = "" ∨ fileId.utf8ByteSize > maxFileIdBytes ∨
          fileId.toList.contains (Char.ofNat 0) then
        .fail .invalidFileId
      else
        let (digest, size) ← hashFileStreaming blake3 path
        let stream ← orFail (← perform .openUni)
        orFail (← perform (.write stream filesyncEnvelope))
        let header : FileTransferHeader :=
          { fileId, relativePath, size := UInt64.ofNat size, blake3 := digest }
        sendFileBulk stream header path
        return (stream, header)

/-! ## The loops -/

def jobEligibleForPeer (job : OutboxJob) (peerHint : String) : Bool :=
  if job.status = .inFlight || job.status = .done then false
  else !(peerHint ≠ "" && job.targetPeer ≠ "" && job.targetPeer ≠ peerHint)

/-- The name under which the peer is to store the file. -/
def relativeName (localPath : String) : String :=
  (UnixPath.fileName localPath).getD "file.bin"

/-- A request whose outcome is not looked at. -/
def notify {ε : Type} (request : SyncRequest) : Program signature ε Unit := do
  let _ ← perform (.call request)
  return

/-- The end of both loop bodies: mark the job, push the file, note the outcome. -/
def pushJob (job : OutboxJob) (tf : TrackedFile) : Program signature PushError Unit := do
  notify (.syncUpdateJob job.jobId .inFlight none)
  perform (.startPush job tf)
  match ← (pushFileOverConnection blake3 tf.localPath tf.fileId
      (relativeName tf.localPath)).attempt with
  | .ok (stream, header) =>
      perform (.pushed job stream header)
      notify (.syncUpdateJob job.jobId .done none)
  | .error e => notify (.syncUpdateJob job.jobId .failed (some e.text))

/-- What the host does with a job whose file is tracked. -/
def hostPush (job : OutboxJob) (tf : TrackedFile) : Program signature PushError Unit := do
  if !trackedFilePushable tf then
    return
  else if !(← perform (.isFile tf.localPath)) then
    notify (.syncUpdateJob job.jobId .failed (some "path not a file"))
  else
    pushJob blake3 job tf

/-- One round of the inner loop of `run_outbox_drain_with_congestion`. -/
def hostJob (peerHint : String) (job : OutboxJob) : Program signature PushError Unit := do
  if !jobEligibleForPeer job peerHint then
    return
  else
    let file := match ← perform (.readTracked job.fileId) with
      | .ok file => file
      | .error _ => none
    match file with
    | none => notify (.syncUpdateJob job.jobId .failed (some "tracked file missing"))
    | some tf => hostPush blake3 job tf

/-- One round of the inner loop of `run_client_outbox_drain`. -/
def clientJob (peerHint : String) (job : OutboxJob) : Program signature PushError Unit := do
  if !jobEligibleForPeer job peerHint then
    return
  else
    match ← perform (.readTracked job.fileId) with
    | .error _ => return
    | .ok none => return
    | .ok (some tf) =>
        if !(← perform (.isFile tf.localPath)) then
          return
        else
          pushJob blake3 job tf

inductive Side where
  | host
  | client
  deriving DecidableEq

def drainJob : Side → String → OutboxJob → Program signature PushError Unit
  | .host => hostJob blake3
  | .client => clientJob blake3

def drainJobs (side : Side) (peerHint : String) : List OutboxJob → Program signature PushError Unit
  | [] => .done ()
  | job :: jobs => do
      drainJob blake3 side peerHint job
      drainJobs side peerHint jobs

/-- The outer loop, which the two sides share but for the body of the inner one. -/
def outboxDrain (side : Side) (peerHint : String) : Nat → Program signature PushError Unit
  | 0 => .done ()
  | rounds + 1 => do
      if ← perform .closeReason then
        return
      else
        match ← perform .connect with
        | .error _ => outboxDrain side peerHint rounds
        | .ok () =>
            match ← perform (.call .syncDrainReady) with
            | .ok (.syncJobs jobs) =>
                drainJobs blake3 side peerHint jobs
                outboxDrain side peerHint rounds
            | _ => outboxDrain side peerHint rounds

end Push

/-! ## The world -/

inductive Fate where
  | served
  | refused (error : IpcError)
  | unanswered (error : IpcError)

structure DrainEnv where
  daemon : DaemonEnv
  fate : SyncRequest → Fate
  closed : Bool
  connect : Except IpcError Unit
  isFile : String → Bool
  content : String → Except IoError Bytes
  openUni : Option IoError
  /-- A failing write may have put some bytes on the stream before. -/
  writeFault : Option (IoError × Nat)
  openFile : String → Except IoError Unit
  copyFault : Option (IoError × Nat)
  finish : Option IoError

/-- What a sender has put on a stream, and whether it has finished it. -/
structure Stream where
  sent : Bytes
  finished : Bool
  deriving DecidableEq

/-- For each job the pushes since it was last put into the queue, and whether it
is done without having been retried; for each file whether the last request
about its lock has locked it. -/
structure Log where
  pushes : JobId → Nat
  done : JobId → Bool
  locked : FileId → Bool

/-- Besides the log also the last push of each job that has returned `Ok` is
noted, by its stream and header. -/
structure World where
  db : Database
  env : DrainEnv
  streams : List Stream
  log : Log
  ended : JobId → Option (Nat × FileTransferHeader)

namespace Log

/-- The job is in the queue again. -/
def requeue (log : Log) (jobId : JobId) : Log :=
  { log with pushes := Function.update log.pushes jobId 0 }

/-- The job is in the queue because someone asked for it. -/
def enqueue (log : Log) (jobId : JobId) : Log :=
  { log.requeue jobId with done := Function.update log.done jobId false }

def push (log : Log) (jobId : JobId) : Log :=
  { log with pushes := Function.update log.pushes jobId (log.pushes jobId + 1) }

def finish (log : Log) (jobId : JobId) : Log :=
  { log with done := Function.update log.done jobId true }

/-- What a served request does to jobs and locks. -/
def note (log : Log) : SyncRequest → SyncResponse → Log
  | .syncUpdateJob jobId .queued _, .syncJob _ => log.requeue jobId
  | .syncUpdateJob jobId .failed _, .syncJob _ => log.requeue jobId
  | .syncUpdateJob jobId .done _, .syncJob _ => log.finish jobId
  | .syncRetryJob jobId, .syncJob _ => log.enqueue jobId
  | .syncPushNow _ _ _, .syncJob job => log.enqueue job.jobId
  | .syncFileChanged _ _ _ _, .syncJob job => log.enqueue job.jobId
  | .syncSetLock fileId locked, .unit =>
      { log with locked := Function.update log.locked fileId locked }
  | _, _ => log

end Log

namespace World

/-- The daemon serves the request. -/
def serve (w : World) (request : SyncRequest) : SyncResponse × World :=
  let served := w.db.serve w.env.daemon request
  (served.1, { w with db := served.2, log := w.log.note request served.1 })

def ask (w : World) (request : SyncRequest) : Except IpcError SyncResponse × World :=
  match w.env.fate request with
  | .served => (.ok (w.serve request).1, (w.serve request).2)
  | .refused error => (.error error, w)
  | .unanswered error => (.error error, (w.serve request).2)

def send (w : World) (stream : Nat) (bytes : Bytes) : World :=
  { w with streams := w.streams.modify stream fun s => { s with sent := s.sent ++ bytes } }

def exec : (a : Action) → World → a.Answer × World
  | .closeReason, w => (w.env.closed, w)
  | .connect, w => (w.env.connect, w)
  | .call request, w => w.ask request
  | .readTracked fileId, w =>
      match w.ask .syncListTrackedFiles with
      | (.ok (.syncTrackedFiles files), w) => (.ok (files.find? fun tf => tf.fileId = fileId), w)
      | (.ok _, w) => (.error "unexpected response", w)
      | (.error error, w) => (.error error, w)
  | .isFile path, w => (w.env.isFile path, w)
  | .startPush job _, w => ((), { w with log := w.log.push job.jobId })
  | .pushed job stream header, w =>
      ((), { w with ended := Function.update w.ended job.jobId (some (stream, header)) })
  | .readFile path, w => (w.env.content path, w)
  | .openUni, w =>
      match w.env.openUni with
      | some error => (.error error, w)
      | none => (.ok w.streams.length, { w with streams := w.streams ++ [⟨[], false⟩] })
  | .write stream bytes, w =>
      match w.env.writeFault with
      | some (error, count) => (.error error, w.send stream (bytes.take count))
      | none => (.ok (), w.send stream bytes)
  | .openFile path, w => (w.env.openFile path, w)
  | .copy path stream, w =>
      match w.env.content path, w.env.copyFault with
      | .error error, _ => (.error error, w)
      | .ok bytes, some (error, count) => (.error error, w.send stream (bytes.take count))
      | .ok bytes, none => (.ok bytes, w.send stream bytes)
  | .finish stream, w =>
      match w.env.finish with
      | some error => (.error error, w)
      | none =>
          (.ok (), { w with streams := w.streams.modify stream fun s => { s with finished := true } })

/-- The request is not refused. -/
def Effective (w : World) (request : SyncRequest) : Prop :=
  match w.env.fate request with
  | .refused _ => False
  | _ => True

instance (w : World) (request : SyncRequest) : Decidable (w.Effective request) :=
  match h : w.env.fate request with
  | .refused _ => isFalse (by simp [Effective, h])
  | .served | .unanswered _ => isTrue (by simp [Effective, h])

/-- A request has its effect or none. -/
theorem ask_cases (w : World) (request : SyncRequest) :
    w.Effective request ∧ (w.ask request).2 = (w.serve request).2 ∨
      ¬ w.Effective request ∧ (w.ask request).2 = w := by
  rw [Effective, ask]
  cases w.env.fate request with
  | served => exact .inl ⟨trivial, rfl⟩
  | refused error => exact .inr ⟨id, rfl⟩
  | unanswered error => exact .inl ⟨trivial, rfl⟩

theorem Effective.ask {w : World} {request : SyncRequest} (effective : w.Effective request) :
    (w.ask request).2 = (w.serve request).2 := by
  rcases w.ask_cases request with ⟨-, same⟩ | ⟨refused, -⟩
  · exact same
  · exact absurd effective refused

/-- Reading the tracked files changes nothing. -/
theorem exec_readTracked (w : World) (fileId : FileId) :
    (exec (.readTracked fileId) w).2 = w := by
  simp only [exec, ask]
  cases w.env.fate .syncListTrackedFiles <;> rfl

/-- Only requests touch the database, and only they and pushes are logged. -/
theorem exec_cases (a : Action) :
    (∃ request, a = .call request) ∨ (∃ job tf, a = .startPush job tf) ∨
      (∀ request, a ≠ .call request) ∧
        ∀ w, (exec a w).2.db = w.db ∧ (exec a w).2.log = w.log := by
  cases a with
  | call request => exact .inl ⟨request, rfl⟩
  | startPush job tf => exact .inr (.inl ⟨job, tf, rfl⟩)
  | readTracked fileId =>
      refine .inr (.inr ⟨fun request => by simp, fun w => ?_⟩)
      rw [exec_readTracked]
      exact ⟨rfl, rfl⟩
  | openUni | write | copy | finish =>
      refine .inr (.inr ⟨fun request => by simp, fun w => ?_⟩)
      simp only [exec]
      split <;> exact ⟨rfl, rfl⟩
  | closeReason | connect | isFile | pushed | readFile | openFile =>
      exact .inr (.inr ⟨fun request => by simp, fun w => ⟨rfl, rfl⟩⟩)

/-- A file that is read is a stored one. -/
theorem stored_of_readTracked {w : World} {fileId : FileId} {tf : TrackedFile}
    (read : (exec (.readTracked fileId) w).1 = .ok (some tf)) :
    w.db.trackedFiles.get fileId = some tf := by
  simp only [exec, ask] at read
  cases fate : w.env.fate .syncListTrackedFiles with
  | served =>
      simp only [fate, serve, Database.serve, Records.find?_list, Except.ok.injEq] at read
      exact read
  | refused error | unanswered error => simp [fate] at read

end World

/-! ## Any number of loops and requests -/

inductive Call where
  | drain (side : Side) (peerHint : String) (rounds : Nat)
  /-- A request of the user interface or of a watcher. -/
  | request (request : SyncRequest)

def Call.body (blake3 : Bytes → BitVec 256) : Call → Program signature PushError Unit
  | .drain side peerHint rounds => outboxDrain blake3 side peerHint rounds
  | .request asked => notify asked

@[reducible] def drains (blake3 : Bytes → BitVec 256) :
    System signature World PushError Call DrainEnv where
  exec := World.exec
  body := Call.body blake3
  change env w := { w with env }

abbrev DrainPool := Pool signature World PushError Call

abbrev DrainMove := Move Call DrainEnv

/-- The log of a database on which no loop has worked yet. -/
def Log.ofDatabase (db : Database) : Log where
  pushes _ := 0
  done jobId := (db.outbox.get jobId).any fun job => job.status = .done
  locked fileId := (db.trackedFiles.get fileId).any fun tf => tf.syncState = .lockedByProcess

def untouched (db : Database) (env : DrainEnv) : DrainPool where
  shared := { db, env, streams := [], log := Log.ofDatabase db, ended := fun _ => none }
  threads := []

namespace Sample

def save : TrackedFile where
  fileId := "file-1"
  localPath := "/home/me/game.sav"
  vectorClock := VectorClock.empty
  contentHash := "c0ffee"
  sizeBytes := 3
  syncState := .pending
  ruleId := none
  updatedAtUnix := 1

def saveJob : OutboxJob where
  jobId := "job-1"
  fileId := "file-1"
  targetPeer := ""
  status := .queued
  retryCount := 0
  queuedAtUnix := 1
  lastError := none

/-- One tracked file that waits to be pushed. -/
def oneJob : Database where
  syncRules := Records.empty
  trackedFiles := Records.empty.put save
  outbox := Records.empty.put saveJob
  conflicts := Records.empty
  globalIgnores := none

def calm : DrainEnv where
  daemon := {
    newRuleId := "rule-2"
    newFileId := "file-2"
    newJobId := "job-2"
    nowUnix := 2
    contentHashFile := fun _ => .ok ("c0ffee", 3) }
  fate _ := .served
  closed := false
  connect := .ok ()
  isFile _ := true
  content _ := .ok [1, 2, 3]
  openUni := none
  writeFault := none
  openFile _ := .ok ()
  copyFault := none
  finish := none

def noHash : Bytes → BitVec 256 := fun _ => 0

def steps (i count : Nat) : List DrainMove := List.replicate count (.step i)

end Sample

end Qubox.Sync
