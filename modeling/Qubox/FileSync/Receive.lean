import Qubox.FileSync.Transfer
import Qubox.Library.Disk
import Qubox.Library.Pool

/-!
# Receiving files

`recv_file_bulk` as a program over its calls to the file system, and any number
of receives as threads over one volume. A receive is given the bytes its stream
will yield; a stream that ends too soon fails the read.

Which position in the directory tree a path denotes is the parameter `locate`,
which covers symbolic links and file systems that ignore case. Directories are
not modelled; what the system answers about them, and which operations fail, is
up to an environment that may change between any two calls.

The answer of a rename also tells the bytes that were moved. The program only
passes them on to `returned`, which stands for the return of the receive and
changes nothing.

A write to a file of the asynchronous runtime returns when the bytes have been
handed to a thread that will write them. What became of them is told by the next
write; `sync_all` waits for them and drops their error. Each write of a receive
lands at a time of its own.
-/

namespace Qubox.FileSync

open Interaction

/-! ## The file system -/

inductive Action where
  | createDirAll (path : String)
  | canonicalize (path : String)
  | pathExists (path : String)
  | create (path : String)
  | writeAll (file : FileId) (offset : Nat) (bytes : Bytes)
  | syncAll (file : FileId)
  | removeFile (path : String)
  | rename (source target : String)
  | returned (header : FileTransferHeader) (target : String) (installed : Bytes)
  deriving DecidableEq

@[reducible] def Action.Answer : Action → Type
  | .createDirAll _ => Except IoError Unit
  | .canonicalize _ => Except IoError String
  | .pathExists _ => Bool
  | .create _ => Except IoError FileId
  | .writeAll _ _ _ => Except IoError Unit
  | .syncAll _ => Except IoError Unit
  | .removeFile _ => Except IoError Unit
  | .rename _ _ => Except IoError Bytes
  | .returned _ _ _ => Unit

@[reducible] def signature : Signature := ⟨Action, Action.Answer⟩

/-- What the system says about directories, and the operations that fail now. A
failing write may have put some bytes into the file before. -/
structure FsEnv where
  createDirAll : String → Except IoError Unit
  canonicalize : String → Except IoError String
  directory : String → Bool
  createFault : String → Option IoError
  writeFault : Option (IoError × Nat)
  syncFault : Option IoError
  removeFault : String → Option IoError
  renameFault : String → String → Option IoError

structure Volume (Location : Type) where
  disk : Disk Location
  env : FsEnv

namespace Volume

variable {Location : Type} [DecidableEq Location] (locate : String → Location)

def missing : IoError := "No such file or directory (os error 2)"

/-- What the system does for a call. A write is done at once and reports its own
failure; `BufferedVolume` is for where the difference matters. -/
def exec : (a : Action) → Volume Location → a.Answer × Volume Location
  | .createDirAll path, v => (v.env.createDirAll path, v)
  | .canonicalize path, v => (v.env.canonicalize path, v)
  | .pathExists path, v => ((v.disk.names (locate path)).isSome || v.env.directory path, v)
  | .create path, v =>
      match v.env.createFault path with
      | some error => (.error error, v)
      | none =>
          let created := v.disk.create (locate path)
          (.ok created.1, { v with disk := created.2 })
  | .writeAll file offset bytes, v =>
      match v.env.writeFault with
      | some (error, count) =>
          (.error error, { v with disk := v.disk.write file offset (bytes.take count) })
      | none => (.ok (), { v with disk := v.disk.write file offset bytes })
  | .syncAll _, v =>
      match v.env.syncFault with
      | some error => (.error error, v)
      | none => (.ok (), v)
  | .removeFile path, v =>
      match v.env.removeFault path with
      | some error => (.error error, v)
      | none =>
          match v.disk.names (locate path) with
          | none => (.error missing, v)
          | some _ => (.ok (), { v with disk := v.disk.remove (locate path) })
  | .rename source target, v =>
      match v.env.renameFault source target with
      | some error => (.error error, v)
      | none =>
          match v.disk.content? (locate source) with
          | none => (.error missing, v)
          | some moved =>
              (.ok moved, { v with disk := v.disk.rename (locate source) (locate target) })
  | .returned _ _ _, v => ((), v)

end Volume

/-! ## The program -/

@[reducible] def syscall (a : Action) : Program signature FileSyncError a.Answer :=
  Program.perform (S := signature) a

/-- The `?` operator on an answer of the system. -/
def orFail {α : Type} (wrap : IoError → FileSyncError) :
    Except IoError α → Program signature FileSyncError α
  | .ok a => .done a
  | .error e => .fail (wrap e)

/-- The loop that looks for an existing ancestor. -/
def deepestExisting : List String → Program signature FileSyncError String
  | [] => .fail .escapedDestDir
  | path :: above => do
      if ← syscall (.pathExists path) then
        return path
      else
        deepestExisting above

def createParent (target : String) : Program signature FileSyncError Unit :=
  match UnixPath.parent target with
  | none => .done ()
  | some parent => do
      let created ← syscall (.createDirAll parent)
      orFail (.createParent parent) created

def resolveSafeTarget (destDir relativePath : String) : Program signature FileSyncError String :=
  match validateRelativePath relativePath with
  | .error error => .fail error
  | .ok () => do
      let created ← syscall (.createDirAll destDir)
      orFail (.createDestDir destDir) created
      let resolved ← syscall (.canonicalize destDir)
      let destCanon ← orFail (.canonicalizeDestDir destDir) resolved
      let target := UnixPath.join destCanon relativePath
      createParent target
      let check ← deepestExisting (UnixPath.ancestors target)
      let resolved ← syscall (.canonicalize check)
      let checkCanon ← orFail (.canonicalize check) resolved
      if UnixPath.startsWith checkCanon destCanon then
        return target
      else
        .fail (.escapes checkCanon destCanon)

def bufLen : Nat := 64 * 1024

/-- The copy loop. The bytes received so far are what the hasher has been fed,
and their number is the position of the file handle. -/
def receiveChunks (file : FileId) (remaining : Nat) (stream received : Bytes) :
    Program signature FileSyncError Bytes :=
  if _ : 0 < remaining then
    let chunk := min remaining bufLen
    match readExact chunk stream with
    | .error error => .fail error
    | .ok (bytes, rest) => do
        let written ← syscall (.writeAll file received.length bytes)
        orFail .io written
        receiveChunks file (remaining - chunk) rest (received ++ bytes)
  else
    .done received
termination_by remaining
decreasing_by
  have : 0 < bufLen := by decide
  omega

def partialPath (target : String) : String := target ++ ".qubox-partial"

section Program

variable (blake3 : Bytes → BitVec 256)

/-- From the creation of the partial file to its renaming. -/
def receiveInto (header : FileTransferHeader) (stream : Bytes) (target : String) :
    Program signature FileSyncError Bytes := do
  let created ← syscall (.create (partialPath target))
  let file ← orFail .io created
  let received ← receiveChunks file header.size.toNat stream []
  let synced ← syscall (.syncAll file)
  orFail .io synced
  if blake3 received ≠ header.blake3 then
    let _ ← syscall (.removeFile (partialPath target))
    .fail (.hashMismatch header.fileId)
  else
    let renamed ← syscall (.rename (partialPath target) target)
    orFail .io renamed

/-- `recv_file_bulk`, with the bytes it has renamed to the target. -/
def recvFileBulk (stream : Bytes) (destDir : String) (maxBytes : Nat) :
    Program signature FileSyncError (FileTransferHeader × String × Bytes) :=
  match readHeader stream maxBytes with
  | .error error => .fail error
  | .ok (header, stream) => do
      let target ← resolveSafeTarget destDir header.relativePath
      let installed ← receiveInto blake3 header stream target
      return (header, target, installed)

end Program

/-! ## Writes that land later -/

/-- What a handle refers to: the write that was handed over and has not landed, with its
position, and the error of a write that has. -/
structure OpenFile where
  file : FileId
  pending : Option (Nat × Bytes) := none
  failed : Option IoError := none

/-- A volume with the files opened on it, also those of receives that have ended. A handle is
a position in their list. -/
structure BufferedVolume (Location : Type) where
  volume : Volume Location
  opened : List OpenFile := []

namespace BufferedVolume

variable {Location : Type}

def badDescriptor : IoError := "Bad file descriptor (os error 9)"

/-- The file a handle refers to. -/
def file? (b : BufferedVolume Location) (handle : Nat) : Option FileId :=
  b.opened[handle]?.map OpenFile.file

/-- The pending write of a handle lands, if there is one. -/
def land (b : BufferedVolume Location) (handle : Nat) : BufferedVolume Location :=
  match b.opened[handle]? with
  | some { file, pending := some (offset, bytes), failed } =>
      match b.volume.env.writeFault with
      | some (error, count) =>
          { volume := { b.volume with disk := b.volume.disk.write file offset (bytes.take count) }
            opened := b.opened.set handle { file, failed := some error } }
      | none =>
          { volume := { b.volume with disk := b.volume.disk.write file offset bytes }
            opened := b.opened.set handle { file, failed } }
  | _ => b

variable [DecidableEq Location] (locate : String → Location)

/-- Hand a write over, after the one before has landed and unless that has failed. -/
def submit (b : BufferedVolume Location) (handle offset : Nat) (bytes : Bytes) :
    Except IoError Unit × BufferedVolume Location :=
  match b.opened[handle]? with
  | none => (.error badDescriptor, b)
  | some { file, failed := some error, .. } =>
      (.error error, { b with opened := b.opened.set handle { file } })
  | some { file, .. } =>
      (.ok (), { b with opened := b.opened.set handle { file, pending := some (offset, bytes) } })

/-- As `Volume.exec`, with handles for files. -/
def exec : (a : Action) → BufferedVolume Location → a.Answer × BufferedVolume Location
  | .create path, b =>
      match b.volume.env.createFault path with
      | some error => (.error error, b)
      | none =>
          let created := b.volume.disk.create (locate path)
          (.ok b.opened.length, {
            volume := { b.volume with disk := created.2 }
            opened := b.opened ++ [{ file := created.1 }] })
  | .writeAll handle offset bytes, b => (b.land handle).submit handle offset bytes
  | .syncAll handle, b =>
      let b := b.land handle
      match b.volume.env.syncFault with
      | some error => (.error error, b)
      | none => (.ok (), b)
  | a, b => ((b.volume.exec locate a).1, { b with volume := (b.volume.exec locate a).2 })

/-- A write that lands at once leaves the volume as `Volume.exec` does; only its failure is
told later. -/
theorem land_written {b : BufferedVolume Location} {handle : Nat} {file : FileId}
    (opened : b.opened[handle]? = some { file }) (offset : Nat) (bytes : Bytes) :
    ((b.exec locate (.writeAll handle offset bytes)).2.land handle).volume =
      (b.volume.exec locate (.writeAll file offset bytes)).2 := by
  have present := (List.getElem?_eq_some_iff.mp opened).1
  simp only [exec, submit, opened, land, List.getElem?_set_self present, Volume.exec]
  cases b.volume.env.writeFault with
  | none | some fault => rfl

end BufferedVolume

/-! ## Concurrent receives -/

/-- A receive with the bytes its stream will yield. -/
structure RecvCall where
  stream : Bytes
  destDir : String
  maxBytes : Nat
  deriving DecidableEq

def RecvCall.body (blake3 : Bytes → BitVec 256) (call : RecvCall) :
    Program signature FileSyncError Unit := do
  let (header, target, installed) ← recvFileBulk blake3 call.stream call.destDir call.maxBytes
  syscall (.returned header target installed)

/-- The environment changes, or a write that was handed over lands. -/
inductive Disturbance where
  | env (env : FsEnv)
  | land (handle : Nat)

section System

variable {Location : Type} [DecidableEq Location] (locate : String → Location)
  (blake3 : Bytes → BitVec 256)

@[reducible] def receives :
    System signature (BufferedVolume Location) FileSyncError RecvCall Disturbance where
  exec := BufferedVolume.exec locate
  body := RecvCall.body blake3
  change
    | .env env, b => { b with volume := { b.volume with env } }
    | .land handle, b => b.land handle

end System

abbrev RecvPool (Location : Type) :=
  Pool signature (BufferedVolume Location) FileSyncError RecvCall

abbrev RecvMove := Move RecvCall Disturbance

/-- A volume with no receive in progress. -/
def idle {Location : Type} (v : Volume Location) : RecvPool Location := ⟨{ volume := v }, []⟩

end Qubox.FileSync
