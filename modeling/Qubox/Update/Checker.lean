import Qubox.Library.Disk
import Qubox.Library.Pool
import Qubox.Library.UnixPath

/-!
# Installing updates

`UpdateChecker` downloads a binary into a staging directory, moves it over the
running one and leaves a sentinel behind; `check_rollback` looks at the sentinel
when the daemon starts. The functions are programs over the calls they make to
the system, as compiled for Linux.

Which position in the directory tree a path denotes is the parameter `locate`.
Directories are not modelled: what the system answers about them, which operations
fail, what the server sends and what the clock says is up to an environment that
may change between any two calls. A file has a single name. `written` tells whether
a file contains all the bytes of the last write to it; no program can read it.
-/

namespace Qubox.Update

open Interaction

/-- Text of an error of the operating system. -/
abbrev IoError := String

/-- Nanoseconds since the epoch. -/
abbrev SystemTime := Int

/-- A position in the directory tree. -/
abbrev Place := List UnixPath.Component

def restartSentinel : String := "restart-requested"
def rollbackGraceSecs : Nat := 60

structure UpdateInfo where
  version : String
  available : Bool
  sizeBytes : UInt64
  manifestUrl : String
  sha256 : String
  deriving DecidableEq

structure UpdateRecord where
  appliedAt : UInt64
  binaryPath : String
  prevVersion : Option String
  deriving DecidableEq

inductive UpdateError where
  | fetch (url source : String)
  | io (path : String) (source : IoError)
  | hashMismatch (expected actual : String)
  | internal (reason : String)
  /-- `ProjectDirs` cannot be resolved; the task ends with this message. -/
  | panicked (message : String)
  deriving DecidableEq

def UpdateError.text : UpdateError → String
  | .fetch url source => s!"HTTP fetch failed for {url}: {source}"
  | .io path source => s!"I/O error at {path}: {source}"
  | .hashMismatch expected actual => s!"SHA-256 hash mismatch: expected {expected}, got {actual}"
  | .internal reason => s!"internal: {reason}"
  | .panicked message => message

/-- The directories that `ProjectDirs` gives. -/
structure ProjectDirs where
  cacheDir : String
  dataLocalDir : String
  deriving DecidableEq

/-! ## The system -/

inductive Action where
  | pathExists (path : String)
  | createDirAll (path : String)
  | httpGet (url : String)
  | create (path : String)
  | writeAll (file : FileId) (bytes : Bytes)
  | setPermissions (path : String) (mode : Nat)
  | readDir (path : String)
  | removeDirAll (path : String)
  | removeFile (path : String)
  | rename (source target : String)
  | modified (path : String)
  | now
  | recordUpdate (record : UpdateRecord)
  | sendEvent (version : String)
  /-- The return of `download_update`; it changes nothing. -/
  | returned (path : String)
  deriving DecidableEq

@[reducible] def Action.Answer : Action → Type
  | .pathExists _ => Bool
  | .createDirAll _ => Except IoError Unit
  | .httpGet _ => Except String Bytes
  | .create _ => Except IoError FileId
  | .writeAll _ _ => Except IoError Unit
  | .setPermissions _ _ => Except IoError Unit
  | .readDir _ => Except IoError (List (Except IoError UnixPath.EntryName))
  | .removeDirAll _ => Except IoError Unit
  | .removeFile _ => Except IoError Unit
  | .rename _ _ => Except IoError Unit
  | .modified _ => Except IoError SystemTime
  | .now => SystemTime
  | .recordUpdate _ => Except String Unit
  | .sendEvent _ => Unit
  | .returned _ => Unit

@[reducible] def signature : Signature := ⟨Action, Action.Answer⟩

/-- What lies outside the files, and the operations that fail now. A failing
write may have put some bytes into the file before, and a failing removal of a
directory may have removed some of its files. -/
structure FsEnv where
  clock : SystemTime
  /-- The modification time of the directory with this path. -/
  directory : String → Option SystemTime
  statFault : String → Option IoError
  createDirAll : String → Except IoError Unit
  httpGet : String → Except String Bytes
  createFault : String → Option IoError
  writeFault : Option (IoError × Nat)
  permissionFault : String → Option IoError
  readDir : String → Except IoError (List (Except IoError UnixPath.EntryName))
  removeDirFault : String → Option (IoError × (Place → Bool))
  removeFault : String → Option IoError
  renameFault : String → String → Option IoError
  recordUpdate : UpdateRecord → Except String Unit

structure Volume where
  disk : Disk Place
  unlinked : disk.Unlinked
  modified : FileId → SystemTime
  written : FileId → Bool
  env : FsEnv

namespace Volume

variable (locate : String → Place)

def missing : IoError := "No such file or directory (os error 2)"

/-- The modification time of what the path denotes. -/
def metadata (v : Volume) (path : String) : Except IoError SystemTime :=
  match v.env.statFault path with
  | some error => .error error
  | none =>
      match v.disk.names (locate path), v.env.directory path with
      | some file, _ => .ok (v.modified file)
      | none, some time => .ok time
      | none, none => .error missing

/-- A file of that name without content. -/
def create (v : Volume) (path : String) : FileId × Volume :=
  let created := v.disk.create (locate path)
  (created.1, { v with
    disk := created.2
    unlinked := v.unlinked.create _
    modified := Function.update v.modified created.1 v.env.clock
    written := Function.update v.written created.1 false })

/-- Bytes put at the start of a file; `complete` if they are all there are. -/
def write (v : Volume) (file : FileId) (bytes : Bytes) (complete : Bool) : Volume :=
  { v with
    disk := v.disk.write file 0 bytes
    unlinked := v.unlinked
    modified := Function.update v.modified file v.env.clock
    written := Function.update v.written file complete }

def remove (v : Volume) (path : String) : Volume :=
  { v with disk := v.disk.remove (locate path), unlinked := v.unlinked.remove _ }

def removeWhere (v : Volume) (gone : Place → Bool) : Volume :=
  { v with disk := v.disk.removeWhere gone, unlinked := v.unlinked.removeWhere gone }

def rename (v : Volume) (source target : String) : Volume :=
  { v with
    disk := v.disk.rename (locate source) (locate target)
    unlinked := v.unlinked.rename _ _ }

/-- What the system does for a call. The tables hold files only, so a rename answers for
a directory as for a name that is not there: it always fails, where a system may move
the directory. -/
def exec : (a : Action) → Volume → a.Answer × Volume
  | .pathExists path, v => ((v.metadata locate path).toBool, v)
  | .createDirAll path, v => (v.env.createDirAll path, v)
  | .httpGet url, v => (v.env.httpGet url, v)
  | .create path, v =>
      match v.env.createFault path with
      | some error => (.error error, v)
      | none => (.ok (v.create locate path).1, (v.create locate path).2)
  | .writeAll file bytes, v =>
      match v.env.writeFault with
      | some (error, count) => (.error error, v.write file (bytes.take count) false)
      | none => (.ok (), v.write file bytes true)
  | .setPermissions path _, v =>
      match v.env.permissionFault path with
      | some error => (.error error, v)
      | none => (.ok (), v)
  | .readDir path, v => (v.env.readDir path, v)
  | .removeDirAll path, v =>
      match v.env.removeDirFault path with
      | some (error, removed) =>
          (.error error, v.removeWhere fun place => (locate path).isPrefixOf place && removed place)
      | none => (.ok (), v.removeWhere (locate path).isPrefixOf)
  | .removeFile path, v =>
      match v.env.removeFault path with
      | some error => (.error error, v)
      | none =>
          match v.disk.names (locate path) with
          | none => (.error missing, v)
          | some _ => (.ok (), v.remove locate path)
  | .rename source target, v =>
      match v.env.renameFault source target with
      | some error => (.error error, v)
      | none =>
          match v.disk.names (locate source) with
          | none => (.error missing, v)
          | some _ => (.ok (), v.rename locate source target)
  | .modified path, v => (v.metadata locate path, v)
  | .now, v => (v.env.clock, v)
  | .recordUpdate record, v => (v.env.recordUpdate record, v)
  | .sendEvent _, v => ((), v)
  | .returned _, v => ((), v)

end Volume

/-! ## The programs -/

@[reducible] def syscall (a : Action) : Program signature UpdateError a.Answer :=
  Program.perform (S := signature) a

/-- The `?` operator on an answer of the system. -/
def orFail {ε α : Type} (wrap : ε → UpdateError) : Except ε α → Program signature UpdateError α
  | .ok a => .done a
  | .error e => .fail (wrap e)

/-- `std::fs::write`. -/
def fsWrite (path : String) (bytes : Bytes) : Program signature UpdateError Unit := do
  let created ← syscall (.create path)
  let file ← orFail (.io path) created
  let written ← syscall (.writeAll file bytes)
  orFail (.io path) written

/-- `duration_since(UNIX_EPOCH)`, in nanoseconds. -/
def sinceEpoch (time : SystemTime) : Option Nat := if 0 ≤ time then some time.toNat else none

def asSecs (nanos : Nat) : Nat := nanos / 1000000000
def asMillis (nanos : Nat) : Nat := nanos / 1000000

/-- The neighbour of the binary that ends in the given suffix. -/
def sibling (currentBinary suffix : String) : String :=
  UnixPath.withExtension currentBinary
    (match UnixPath.extension currentBinary with
      | some ext => s!"{ext}.{suffix}"
      | none => suffix)

/-- `hex::encode`. -/
def hexEncode (bytes : Bytes) : String :=
  String.ofList (bytes.flatMap fun b => [Nat.digitChar (b.toNat / 16), Nat.digitChar (b.toNat % 16)])

/-- The digest as it is written in an `UpdateInfo`. -/
def hexDigest (digest : BitVec 256) : String := hexEncode (Bytes.ofNatBE 32 digest.toNat)

section Program

variable (sha256 : Bytes → BitVec 256)

structure UpdateChecker where
  projectDirs : Option ProjectDirs
  currentVersion : String
  deriving DecidableEq

namespace UpdateChecker

variable (checker : UpdateChecker)

/-- The directories, where the source expects them to be available. -/
def expectDirs : Program signature UpdateError ProjectDirs :=
  match checker.projectDirs with
  | some dirs => .done dirs
  | none => .fail (.panicked "platform data dirs available")

end UpdateChecker

def stagedRoot (dirs : ProjectDirs) : String := UnixPath.join dirs.cacheDir "staged"

def stagingDir (dirs : ProjectDirs) (version : String) : String :=
  UnixPath.join (stagedRoot dirs) version

/-- The path of the staged binary. -/
def stagedBinary (dirs : ProjectDirs) (version : String) : String :=
  UnixPath.join (stagingDir dirs version) "qubox"

/-- The loop of `cleanup_old_staged` over the entries of the staging directory. -/
def removeOthers (root keepVersion : String) :
    List (Except IoError UnixPath.EntryName) → Program signature UpdateError Unit
  | [] => .done ()
  | .error error :: _ => .fail (.io root error)
  | .ok entry :: entries => do
      if entry.text ≠ keepVersion then
        let _ ← syscall (.removeDirAll (UnixPath.join root entry.text))
      removeOthers root keepVersion entries

def cleanupOldStaged (dirs : ProjectDirs) (keepVersion : String) :
    Program signature UpdateError Unit := do
  let root := stagedRoot dirs
  if ← syscall (.pathExists root) then
    let listed ← syscall (.readDir root)
    let entries ← orFail (.io root) listed
    removeOthers root keepVersion entries
  else
    return

namespace UpdateChecker

variable (checker : UpdateChecker)

/-- What `download_update` does when there is no staged binary. -/
def fetchUpdate (dirs : ProjectDirs) (info : UpdateInfo) : Program signature UpdateError Unit := do
  let stagedDir := stagingDir dirs info.version
  let targetPath := stagedBinary dirs info.version
  let created ← syscall (.createDirAll stagedDir)
  orFail (.io stagedDir) created
  let fetched ← syscall (.httpGet info.manifestUrl)
  let bytes ← orFail (.fetch info.manifestUrl) fetched
  let actualHash := hexDigest (sha256 bytes)
  if actualHash ≠ info.sha256 then
    .fail (.hashMismatch info.sha256 actualHash)
  else
    fsWrite targetPath bytes
    let permitted ← syscall (.setPermissions targetPath 0o755)
    orFail (.io targetPath) permitted
    let _ ← ((cleanupOldStaged dirs info.version).attempt :
      Program signature UpdateError (Except UpdateError Unit))
    return

def downloadUpdate (info : UpdateInfo) : Program signature UpdateError String := do
  let dirs ← checker.expectDirs
  let targetPath := stagedBinary dirs info.version
  if ← syscall (.pathExists targetPath) then
    syscall (.returned targetPath)
    return targetPath
  else
    fetchUpdate sha256 dirs info
    syscall (.returned targetPath)
    return targetPath

/-- The restart sentinel, if there is a directory for it. -/
def writeSentinel : Program signature UpdateError Unit :=
  match checker.projectDirs with
  | none => .done ()
  | some dirs => do
      let dataDir := dirs.dataLocalDir
      let created ← syscall (.createDirAll dataDir)
      orFail (.io dataDir) created
      fsWrite (UnixPath.join dataDir restartSentinel)
        checker.currentVersion.toByteArray.data.toList

def backupCurrent (currentBinary : String) : Program signature UpdateError Unit := do
  let backup := sibling currentBinary "prev"
  if ← syscall (.pathExists currentBinary) then
    let renamed ← syscall (.rename currentBinary backup)
    orFail (.io backup) renamed
  else
    return

/-- The rename in two steps. -/
def installStaged (staged currentBinary : String) : Program signature UpdateError Unit := do
  let newPath := sibling currentBinary "new"
  let renamed ← syscall (.rename staged newPath)
  orFail (.io newPath) renamed
  let renamed ← syscall (.rename newPath currentBinary)
  orFail (.io currentBinary) renamed

def recordApplied (currentBinary : String) : Program signature UpdateError Unit := do
  let now ← syscall .now
  let recorded ← syscall (.recordUpdate {
    appliedAt := UInt64.ofNat (asMillis ((sinceEpoch now).getD 0))
    binaryPath := currentBinary
    prevVersion := some checker.currentVersion })
  orFail .internal recorded

def applyUpdate (staged currentBinary : String) : Program signature UpdateError Unit := do
  if ← syscall (.pathExists staged) then
    backupCurrent currentBinary
    installStaged staged currentBinary
    checker.writeSentinel
    checker.recordApplied currentBinary
  else
    .fail (.io staged "staged binary missing")

end UpdateChecker

/-- Whether the sentinel was modified less than `ROLLBACK_GRACE_SECS` ago. -/
def withinGrace (modified : Except IoError SystemTime) (now : SystemTime) : Bool :=
  match modified.toOption.bind sinceEpoch with
  | some mtime => asSecs ((sinceEpoch now).getD 0) - asSecs mtime < rollbackGraceSecs
  | none => false

/-- The end of `check_rollback`: restore the backup, or give it up. -/
def restoreOrDiscard (currentBinary sentinel backup : String) (restore : Bool) :
    Program signature UpdateError Bool := do
  if restore then
    let restored ← syscall (.rename backup currentBinary)
    orFail (.io currentBinary) restored
    let _ ← syscall (.removeFile sentinel)
    return true
  else
    let _ ← syscall (.removeFile sentinel)
    let _ ← syscall (.removeFile backup)
    return false

def checkRollback (currentBinary dataDir : String) : Program signature UpdateError Bool := do
  let sentinel := UnixPath.join dataDir restartSentinel
  let backup := sibling currentBinary "prev"
  if !(← syscall (.pathExists sentinel)) then
    return false
  else if !(← syscall (.pathExists backup)) then
    let _ ← syscall (.removeFile sentinel)
    return false
  else
    let sentinelMtime ← syscall (.modified sentinel)
    let now ← syscall .now
    restoreOrDiscard currentBinary sentinel backup (withinGrace sentinelMtime now)

/-! ## Callers -/

/-- `current_exe`, with the path used when it fails. -/
def currentBinary (currentExe : Except IoError String) : String :=
  match currentExe with
  | .ok path => path
  | .error _ => "qubox"

inductive IpcResponse where
  | unit
  | error (code : Nat) (message : String)
  deriving DecidableEq

/-- The `ApplyUpdate` arm of `dispatch`. -/
def dispatchApplyUpdate (checker : Option UpdateChecker) (stagedVersion : String)
    (currentExe : Except IoError String) : Program signature UpdateError IpcResponse :=
  match checker with
  | none => .done (.error 501 "update checker not configured")
  | some checker => do
      let info : UpdateInfo := {
        version := stagedVersion
        available := true
        sizeBytes := 0
        manifestUrl := ""
        sha256 := "" }
      match ← (checker.downloadUpdate sha256 info).attempt with
      | .error (.panicked message) => .fail (.panicked message)
      | .error e => return .error 502 s!"download: {e.text}"
      | .ok staged =>
          match ← (checker.applyUpdate staged (currentBinary currentExe)).attempt with
          | .error e => return .error 502 s!"apply: {e.text}"
          | .ok () =>
              syscall (.sendEvent stagedVersion)
              return .unit

/-- The rollback check of a starting daemon, if there is a directory to look in. -/
def startupCheck (projectDirs : Option ProjectDirs) (currentExe : Except IoError String) :
    Program signature UpdateError Bool :=
  match projectDirs with
  | none => .done false
  | some dirs => checkRollback (currentBinary currentExe) dirs.dataLocalDir

end Program

end Qubox.Update
