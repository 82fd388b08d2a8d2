import Qubox.FileSync.Acceptance
import Qubox.Sync.Database
import Qubox.Sync.Plan

/-!
# The end of a conflict

Resolving a conflict moves files, sets the state of the tracked file and forgets
the conflict. The next plan looks at clocks and hashes only, and these stay as
they were. `Ended` is what a resolution promises, of the plan and of the file;
`ClocksSettled` is the condition on the state before under which it keeps the promise.
-/

namespace Qubox.Sync

open Interaction FileSync

/-! ## Resolving -/

/-- The file operations of `resolve_sync_conflict`. Their outcome is not looked at. -/
def settleFiles (c : SyncConflict) : ConflictResolution → Program FileSync.signature Empty Unit
  | .keepLocal => do
      let _ ← Program.perform (S := FileSync.signature) (.removeFile c.remotePath)
      return
  | .keepRemote => do
      if ← Program.perform (S := FileSync.signature) (.pathExists c.remotePath) then
        let _ ← Program.perform (S := FileSync.signature) (.rename c.remotePath c.localPath)
        return
      else
        return
  | .keepBoth => return

/-- The database of a daemon and the files it works on. -/
structure Station (Location : Type) where
  db : Database
  volume : Volume Location

section Resolve

variable {Location : Type} [DecidableEq Location] (locate : String → Location)

def Station.resolveSyncConflict (s : Station Location) (conflictId : ConflictId)
    (resolution : ConflictResolution) : Option SyncConflict × Station Location :=
  match s.db.conflicts.get conflictId with
  | none => (none, s)
  | some c => (some c, {
      db := (s.db.resolveSyncConflict conflictId).2
      volume := ((FileSync.machine locate).eval (settleFiles c resolution) s.volume).2 })

end Resolve

/-! ## The promise -/

def TrackedFile.entry (tf : TrackedFile) : ManifestEntry where
  fileId := tf.fileId
  clock := tf.vectorClock
  hash := tf.contentHash
  size := tf.sizeBytes

/-- What the daemon says of its files to a peer. -/
def Database.manifest (db : Database) : Manifest :=
  db.trackedFiles.table.mapValues TrackedFile.entry

/-- The files of the peer. The one in conflict has the remote clock. -/
def remoteManifest (c : SyncConflict) (hash : String) (size : UInt64) (others : Manifest) :
    Manifest :=
  others.insert c.fileId { fileId := c.fileId, clock := c.remoteClock, hash, size }

section Statement

variable {Location : Type} [DecidableEq Location] (locate : String → Location)

/-- The plan has no conflict left, and the file is the one that was to be kept. -/
structure Ended (s s' : Station Location) (c : SyncConflict) (resolution : ConflictResolution)
    (remoteFiles : Manifest) : Prop where
  no_conflict : .conflict c.fileId ∉ planTransfers s'.db.manifest remoteFiles
  pushed : resolution = .keepLocal → .push c.fileId ∈ planTransfers s'.db.manifest remoteFiles
  taken : resolution = .keepRemote → .skip c.fileId ∈ planTransfers s'.db.manifest remoteFiles ∨
    .pull c.fileId ∈ planTransfers s'.db.manifest remoteFiles
  content : resolution = .keepRemote → ∃ bytes,
    s.volume.disk.content? (locate c.remotePath) = some bytes ∧
      s'.volume.disk.content? (locate c.localPath) = some bytes

/-- The clocks are as the resolution wants them already, and the remote file is
there and can be moved, or the local file has its content. -/
def ClocksSettled (s : Station Location) (c : SyncConflict) (hash : String) : ConflictResolution → Prop
  | .keepLocal => ∃ tf ∈ s.db.trackedFiles.get c.fileId,
      tf.vectorClock.compare c.remoteClock = .ahead
  | .keepRemote =>
      (∀ tf ∈ s.db.trackedFiles.get c.fileId, tf.vectorClock.compare c.remoteClock = .behind ∨
        tf.vectorClock.compare c.remoteClock = .equal ∧ tf.contentHash = hash) ∧
      ∃ bytes, s.volume.disk.content? (locate c.remotePath) = some bytes ∧
        (s.volume.env.renameFault c.remotePath c.localPath = none ∨
          s.volume.disk.content? (locate c.localPath) = some bytes)
  | .keepBoth => ∀ tf ∈ s.db.trackedFiles.get c.fileId,
      tf.vectorClock.compare c.remoteClock ≠ .conflict ∧
        (tf.vectorClock.compare c.remoteClock = .equal → tf.contentHash = hash)

end Statement

/-! ## The plan -/

theorem Database.lookup_manifest (db : Database) (fileId : FileId) :
    db.manifest.lookup fileId = (db.trackedFiles.get fileId).map TrackedFile.entry :=
  AList.lookup_mapValues _ _ _

/-- The entry of a file is the same when its conflict is resolved. -/
theorem Database.resolveSyncConflict_lookup (db : Database) {conflictId : ConflictId}
    {c : SyncConflict} (found : db.conflicts.get conflictId = some c) (fileId : FileId) :
    (db.resolveSyncConflict conflictId).2.manifest.lookup fileId = db.manifest.lookup fileId := by
  rw [lookup_manifest, lookup_manifest]
  simp only [resolveSyncConflict, found]
  cases tracked : db.trackedFiles.get c.fileId with
  | none => rfl
  | some tf =>
      have same := Records.key_of_get tracked
      simp only [putTrackedFile, Records.get_put]
      split
      case isTrue this =>
        rw [this.trans same, tracked]
        rfl
      case isFalse => rfl

section Plan

variable {c : SyncConflict} (hash : String) (size : UInt64) (others : Manifest)

/-- The plan for the file in conflict looks at the tracked file alone. -/
theorem mem_plan_iff {localFiles : Manifest} {action : TransferAction}
    (about : action.fileId = c.fileId) :
    action ∈ planTransfers localFiles (remoteManifest c hash size others) ↔
      planFor c.fileId (localFiles.lookup c.fileId)
        (some { fileId := c.fileId, clock := c.remoteClock, hash, size }) = some action := by
  rw [mem_planTransfers_iff about, remoteManifest, AList.lookup_insert]

/-- Resolving the conflict does not change the plan. -/
theorem resolved_mem_iff {db : Database} {conflictId : ConflictId}
    (found : db.conflicts.get conflictId = some c) {action : TransferAction}
    (about : action.fileId = c.fileId) :
    action ∈ planTransfers (db.resolveSyncConflict conflictId).2.manifest
        (remoteManifest c hash size others) ↔
      action ∈ planTransfers db.manifest (remoteManifest c hash size others) := by
  rw [mem_plan_iff hash size others about, mem_plan_iff hash size others about,
    db.resolveSyncConflict_lookup found]

theorem conflict_mem_iff {db : Database} :
    .conflict c.fileId ∈ planTransfers db.manifest (remoteManifest c hash size others) ↔
      ∃ tf ∈ db.trackedFiles.get c.fileId, tf.vectorClock.compare c.remoteClock = .conflict ∨
        tf.vectorClock.compare c.remoteClock = .equal ∧ tf.contentHash ≠ hash := by
  rw [mem_plan_iff hash size others rfl, Database.lookup_manifest]
  cases db.trackedFiles.get c.fileId with
  | none => simp [planFor]
  | some tf =>
      simp only [Option.map_some, planFor, planCommon, TrackedFile.entry, Option.some.injEq,
        Option.mem_def, exists_eq_left']
      cases tf.vectorClock.compare c.remoteClock with
      | equal => by_cases same : tf.contentHash = hash <;> simp [same]
      | ahead | behind | conflict => simp

theorem pushed_iff {db : Database} :
    .push c.fileId ∈ planTransfers db.manifest (remoteManifest c hash size others) ↔
      ∃ tf ∈ db.trackedFiles.get c.fileId, tf.vectorClock.compare c.remoteClock = .ahead := by
  rw [mem_plan_iff hash size others rfl, Database.lookup_manifest]
  cases db.trackedFiles.get c.fileId with
  | none => simp [planFor]
  | some tf =>
      simp only [Option.map_some, planFor, planCommon, TrackedFile.entry, Option.some.injEq,
        Option.mem_def, exists_eq_left']
      cases tf.vectorClock.compare c.remoteClock with
      | equal => by_cases same : tf.contentHash = hash <;> simp [same]
      | ahead | behind | conflict => simp

theorem taken_iff {db : Database} :
    (.skip c.fileId ∈ planTransfers db.manifest (remoteManifest c hash size others) ∨
      .pull c.fileId ∈ planTransfers db.manifest (remoteManifest c hash size others)) ↔
      ∀ tf ∈ db.trackedFiles.get c.fileId, tf.vectorClock.compare c.remoteClock = .behind ∨
        tf.vectorClock.compare c.remoteClock = .equal ∧ tf.contentHash = hash := by
  rw [mem_plan_iff hash size others rfl, mem_plan_iff hash size others rfl, Database.lookup_manifest]
  cases db.trackedFiles.get c.fileId with
  | none => simp [planFor]
  | some tf =>
      simp only [Option.map_some, planFor, planCommon, TrackedFile.entry, Option.some.injEq,
        Option.mem_def, forall_eq']
      cases tf.vectorClock.compare c.remoteClock with
      | equal => by_cases same : tf.contentHash = hash <;> simp [same]
      | ahead | behind | conflict => simp

end Plan

/-! ## The files -/

section Files

variable {Location : Type} [DecidableEq Location] {locate : String → Location}
  {v : Volume Location}

theorem rename_content? {source target : String} {bytes : Bytes}
    (reads : v.disk.content? (locate source) = some bytes) :
    (v.exec locate (.rename source target)).2.disk.content? (locate target) =
      match v.env.renameFault source target with
      | some _ => v.disk.content? (locate target)
      | none => some bytes := by
  cases fault : v.env.renameFault source target with
  | some error => simp only [Volume.exec, fault]
  | none =>
      obtain ⟨file, named, rfl⟩ := Option.map_eq_some_iff.mp reads
      have held : v.disk.Holds (locate source) file (v.disk.files file) := ⟨named, rfl⟩
      simp only [Volume.exec, fault, reads]
      exact (held.renamed (locate target)).content?

/-- When the remote file is kept, it is under the local name exactly if it could
be moved there, or its content was there before. -/
theorem kept_iff_moved {c : SyncConflict} :
    (∃ bytes, v.disk.content? (locate c.remotePath) = some bytes ∧
      ((FileSync.machine locate).eval (settleFiles c .keepRemote) v).2.disk.content?
        (locate c.localPath) = some bytes) ↔
      ∃ bytes, v.disk.content? (locate c.remotePath) = some bytes ∧
        (v.env.renameFault c.remotePath c.localPath = none ∨
          v.disk.content? (locate c.localPath) = some bytes) := by
  refine exists_congr fun bytes => and_congr_right fun reads => ?_
  have there : (v.disk.names (locate c.remotePath)).isSome := by
    obtain ⟨file, named, -⟩ := Option.map_eq_some_iff.mp reads
    rw [named]
    rfl
  have moved : ((FileSync.machine locate).eval (settleFiles c .keepRemote) v).2 =
      (v.exec locate (.rename c.remotePath c.localPath)).2 := by
    show ((FileSync.machine locate).eval (if ((v.disk.names (locate c.remotePath)).isSome ||
      v.env.directory c.remotePath) = true then _ else _) v).2 = _
    rw [there, Bool.true_or, if_pos rfl]
    rfl
  rw [moved, rename_content? reads]
  cases v.env.renameFault c.remotePath c.localPath with
  | none | some error => simp

end Files

/-! ## Every state and resolution -/

/-- What a resolution promises, said of the database before. -/
theorem ended_iff_planned {Location : Type} [DecidableEq Location] {locate : String → Location}
    {s : Station Location} {v : Volume Location} {conflictId : ConflictId}
    {resolution : ConflictResolution} {c : SyncConflict} {hash : String} {size : UInt64}
    {others : Manifest} (found : s.db.conflicts.get conflictId = some c) :
    Ended locate s { db := (s.db.resolveSyncConflict conflictId).2, volume := v } c resolution
        (remoteManifest c hash size others) ↔
      (¬ ∃ tf ∈ s.db.trackedFiles.get c.fileId,
        tf.vectorClock.compare c.remoteClock = .conflict ∨
          tf.vectorClock.compare c.remoteClock = .equal ∧ tf.contentHash ≠ hash) ∧
      (resolution = .keepLocal → ∃ tf ∈ s.db.trackedFiles.get c.fileId,
        tf.vectorClock.compare c.remoteClock = .ahead) ∧
      (resolution = .keepRemote →
        (∀ tf ∈ s.db.trackedFiles.get c.fileId, tf.vectorClock.compare c.remoteClock = .behind ∨
          tf.vectorClock.compare c.remoteClock = .equal ∧ tf.contentHash = hash) ∧
        ∃ bytes, s.volume.disk.content? (locate c.remotePath) = some bytes ∧
          v.disk.content? (locate c.localPath) = some bytes) := by
  have same {action : TransferAction} (about : action.fileId = c.fileId) :=
    resolved_mem_iff hash size others found about
  rw [← conflict_mem_iff hash size others, ← pushed_iff hash size others,
    ← taken_iff hash size others, ← same rfl, ← same rfl, ← same rfl, ← same rfl]
  exact ⟨fun h => ⟨h.no_conflict, h.pushed, fun kept => ⟨h.taken kept, h.content kept⟩⟩,
    fun ⟨no_conflict, pushed, kept⟩ =>
      ⟨no_conflict, pushed, fun keep => (kept keep).1, fun keep => (kept keep).2⟩⟩

/-- A resolution ends the conflict exactly if the clocks were settled before and
the file to be kept could be moved into place. -/
theorem ended_iff {Location : Type} [DecidableEq Location] (locate : String → Location)
    (s : Station Location) (conflictId : ConflictId) (resolution : ConflictResolution)
    (hash : String) (size : UInt64) (others : Manifest) :
    (∀ c ∈ (s.resolveSyncConflict locate conflictId resolution).1,
      Ended locate s (s.resolveSyncConflict locate conflictId resolution).2 c resolution
        (remoteManifest c hash size others)) ↔
      ∀ c ∈ s.db.conflicts.get conflictId, ClocksSettled locate s c hash resolution := by
  cases found : s.db.conflicts.get conflictId with
  | none => simp [Station.resolveSyncConflict, found]
  | some c =>
      have result : s.resolveSyncConflict locate conflictId resolution = (some c, {
          db := (s.db.resolveSyncConflict conflictId).2
          volume := ((FileSync.machine locate).eval (settleFiles c resolution) s.volume).2 }) := by
        simp only [Station.resolveSyncConflict, found]
      rw [result]
      simp only [Option.mem_def, Option.some.injEq, forall_eq']
      rw [ended_iff_planned found]
      cases resolution with
      | keepLocal =>
          constructor
          · rintro ⟨-, pushed, -⟩
            exact pushed rfl
          · rintro ⟨tf, there, ahead⟩
            refine ⟨?_, fun _ => ⟨tf, there, ahead⟩, by simp⟩
            rintro ⟨tf', there', conflict⟩
            obtain rfl := Option.mem_unique there there'
            simp [ahead] at conflict
      | keepRemote =>
          rw [ClocksSettled, ← kept_iff_moved]
          constructor
          · rintro ⟨-, -, kept⟩
            exact kept rfl
          · rintro ⟨taken, content⟩
            refine ⟨?_, by simp, fun _ => ⟨taken, content⟩⟩
            rintro ⟨tf, there, conflict⟩
            rcases taken tf there with behind | ⟨equal, same⟩
            · simp [behind] at conflict
            · simp [equal, same] at conflict
      | keepBoth =>
          constructor
          · rintro ⟨planned, -⟩ tf there
            refine ⟨fun conflict => planned ⟨tf, there, .inl conflict⟩, fun equal => ?_⟩
            by_contra different
            exact planned ⟨tf, there, .inr ⟨equal, different⟩⟩
          · intro settled
            refine ⟨?_, by simp, by simp⟩
            rintro ⟨tf, there, conflict | ⟨equal, different⟩⟩
            · exact (settled tf there).1 conflict
            · exact different ((settled tf there).2 equal)

namespace Sample

/-- A file that was saved here and on the other side. -/
def forkedSave : TrackedFile where
  fileId := "file-1"
  localPath := "/home/me/game.sav"
  vectorClock := VectorClock.empty.bump "here"
  contentHash := "c0ffee"
  sizeBytes := 3
  syncState := .conflict
  ruleId := none
  updatedAtUnix := 1

def fork : SyncConflict where
  conflictId := "conflict-1"
  fileId := "file-1"
  localPath := "/home/me/game.sav"
  remotePath := "/home/me/game.conflict.peer.1.sav"
  peerId := "peer"
  localClock := VectorClock.empty.bump "here"
  remoteClock := VectorClock.empty.bump "there"
  createdAtUnix := 1

/-- Every path is a place of its own, and every operation succeeds. -/
def desk : Station String where
  db := {
    syncRules := Records.empty
    trackedFiles := Records.empty.put forkedSave
    outbox := Records.empty
    conflicts := Records.empty.put fork
    globalIgnores := none }
  volume := {
    disk := ((Disk.empty.create "/home/me/game.sav").2.create "/home/me/game.conflict.peer.1.sav").2
    env := {
      createDirAll := fun _ => .ok ()
      canonicalize := fun path => .ok path
      directory := fun _ => false
      createFault := fun _ => none
      writeFault := none
      syncFault := none
      removeFault := fun _ => none
      renameFault := fun _ _ => none } }

theorem fork_not_ended :
    fork.localClock.compare fork.remoteClock = .conflict ∧
      ¬ ∀ c ∈ (desk.resolveSyncConflict id "conflict-1" .keepRemote).1,
        Ended id desk (desk.resolveSyncConflict id "conflict-1" .keepRemote).2 c .keepRemote
          (remoteManifest c "decaf" 3 ∅) := by
  refine ⟨by decide, fun ended => ?_⟩
  have planned := (ended fork rfl).no_conflict
  revert planned
  decide

end Sample

end Qubox.Sync
