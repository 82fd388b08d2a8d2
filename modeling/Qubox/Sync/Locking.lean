import Qubox.Sync.DrainContract

/-!
# Locked and disputed files

One field of a tracked file says both that a process has locked it and that a
conflict about it is open, and five requests overwrite it. `Careful` says of a
step that it overwrites neither a lock nor an open conflict, and that a loop of
the client, which does not look at the field, comes upon no such file. Then no
locked file and no file with an open conflict can be pushed, in any state that
any requests and any loops reach.
-/

namespace Qubox.Sync

open Interaction

section Statement

def OpenConflict (db : Database) (fileId : FileId) : Prop :=
  ∃ c ∈ db.conflicts.list, c.fileId = fileId

structure Guarded (w : World) : Prop where
  locked : ∀ fileId, w.log.locked fileId = true →
    ∀ tf ∈ w.db.trackedFiles.get fileId, trackedFilePushable tf = false
  disputed : ∀ fileId, OpenConflict w.db fileId →
    ∀ tf ∈ w.db.trackedFiles.get fileId, trackedFilePushable tf = false

/-- A push is of a file that was pushable when it was read. -/
def PushesPushable : Action → Prop
  | .startPush _ tf => trackedFilePushable tf = true
  | _ => True

structure GuardedMove (P : DrainPool) (m : DrainMove) : Prop where
  state : Guarded P.shared
  push : ∀ a ∈ P.next? m, PushesPushable a

/-- The tracked file that `SyncFileChanged` overwrites. -/
def overwritten? (w : World) (localPath : String) : Option TrackedFile :=
  if shouldIgnorePath localPath w.db.getGlobalIgnores.1 then none
  else match w.env.daemon.contentHashFile localPath with
    | .error _ => none
    | .ok (hash, _) => (w.db.fileAt? localPath).filter fun tf =>
        tf.syncState ≠ .lockedByProcess && tf.contentHash ≠ hash

/-- A new id is one that no file has. -/
def FreshId (w : World) : Prop :=
  w.db.trackedFiles.get w.env.daemon.newFileId = none ∧ ¬ OpenConflict w.db w.env.daemon.newFileId

/-- The request takes neither a lock nor an open conflict from a file. -/
def CarefulRequest (w : World) : SyncRequest → Prop
  | .syncSetLock fileId false => ¬ OpenConflict w.db fileId
  | .syncResolveConflict conflictId _ => ∀ c ∈ w.db.conflicts.get conflictId,
      (∀ tf ∈ w.db.trackedFiles.get c.fileId, tf.syncState ≠ .lockedByProcess) ∧
        ∀ other ∈ w.db.conflicts.list, other.fileId = c.fileId → other.conflictId = conflictId
  | .syncFileChanged localPath _ _ _ =>
      FreshId w ∧ ∀ tf ∈ overwritten? w localPath, ¬ OpenConflict w.db tf.fileId
  | .syncPushNow _ _ _ => FreshId w
  | _ => True

def CarefulAction (w : World) : Action → Call → Prop
  | .call request, _ => w.Effective request → CarefulRequest w request
  | .readTracked fileId, .drain .client _ _ =>
      ∀ tf ∈ w.db.trackedFiles.get fileId, trackedFilePushable tf = true
  | _, _ => True

def Careful (P : DrainPool) : DrainMove → Prop
  | .step i => ∀ t ∈ P.threads[i]?, ∀ a ∈ t.next?, CarefulAction P.shared a t.call
  | _ => True

end Statement

/-! ## What a request does to a tracked file -/

theorem not_pushable {tf : TrackedFile} :
    trackedFilePushable tf = false ↔ tf.syncState = .lockedByProcess ∨ tf.syncState = .conflict := by
  cases state : tf.syncState <;> simp [trackedFilePushable, state]

theorem openConflict_iff {db : Database} {fileId : FileId} :
    OpenConflict db fileId ↔ ∃ conflictId c, db.conflicts.get conflictId = some c ∧
      c.fileId = fileId := by
  constructor
  · rintro ⟨c, member, same⟩
    exact ⟨c.conflictId, c, Records.mem_list.mp member, same⟩
  · rintro ⟨conflictId, c, found, same⟩
    refine ⟨c, Records.mem_list.mpr ?_, same⟩
    rwa [Records.key_of_get found]

/-- The same files with the same locks and conflicts. -/
structure SameFiles (w w' : World) : Prop where
  trackedFiles : w'.db.trackedFiles = w.db.trackedFiles
  conflicts : w'.db.conflicts = w.db.conflicts
  locked : w'.log.locked = w.log.locked

/-- The file that a request writes with new content. -/
def renewed? (w : World) : SyncRequest → Option FileId
  | .syncPushNow _ _ _ => some w.env.daemon.newFileId
  | .syncFileChanged localPath _ _ _ =>
      some (((overwritten? w localPath).map TrackedFile.fileId).getD w.env.daemon.newFileId)
  | _ => none

/-- Everything a served request can do to the files: nothing, a lock is set or
taken away, a conflict is resolved, or a file is written with new content. -/
theorem serve_files (w : World) (request : SyncRequest) :
    SameFiles w (w.serve request).2 ∨
    (∃ tf locked, request = .syncSetLock tf.fileId locked ∧
      w.db.trackedFiles.get tf.fileId = some tf ∧
      (w.serve request).2.db = w.db.putTrackedFile
        { tf with syncState := if locked then .lockedByProcess else .pending } ∧
      (w.serve request).2.log.locked = Function.update w.log.locked tf.fileId locked) ∨
    (∃ c resolution, request = .syncResolveConflict c.conflictId resolution ∧
      w.db.conflicts.get c.conflictId = some c ∧
      (w.serve request).2.db = (w.db.resolveSyncConflict c.conflictId).2 ∧
      (w.serve request).2.log = w.log) ∨
    (∃ tf, renewed? w request = some tf.fileId ∧
      (w.serve request).2.db.trackedFiles = w.db.trackedFiles.put tf ∧
      (w.serve request).2.db.conflicts = w.db.conflicts ∧
      (w.serve request).2.log.locked = w.log.locked) := by
  cases request with
  | syncSetLock fileId locked =>
      cases found : w.db.trackedFiles.get fileId with
      | none =>
          refine .inl ?_
          simp only [World.serve, Database.serve, Database.setLock, found]
          exact ⟨rfl, rfl, rfl⟩
      | some tf =>
          obtain rfl := Records.key_of_get found
          refine .inr (.inl ⟨tf, locked, rfl, found, ?_⟩)
          simp only [World.serve, Database.serve, Database.setLock, found, Log.note, true_and]
  | syncResolveConflict conflictId resolution =>
      cases found : w.db.conflicts.get conflictId with
      | none =>
          refine .inl ?_
          simp only [World.serve, Database.serve, Database.resolveSyncConflict, found]
          exact ⟨rfl, rfl, rfl⟩
      | some c =>
          obtain rfl := Records.key_of_get found
          exact .inr (.inr (.inl ⟨c, resolution, rfl, found, rfl, rfl⟩))
  | syncPushNow localPath targetPeer nodeId =>
      simp only [World.serve, Database.serve, Database.enqueueManualPush]
      split
      · exact .inl ⟨rfl, rfl, rfl⟩
      · exact .inr (.inr (.inr ⟨Database.newTrackedFile _ _ _ _ _ _, rfl, rfl, rfl, rfl⟩))
  | syncFileChanged localPath ruleId nodeId targetPeer =>
      have files := w.db.getGlobalIgnores_trackedFiles
      have conflicts := w.db.getGlobalIgnores_conflicts
      simp only [World.serve, Database.serve, Database.fileChanged]
      split
      case isTrue => exact .inl ⟨files, conflicts, rfl⟩
      case isFalse kept =>
        split
        case h_1 e hash => exact .inl ⟨files, conflicts, rfl⟩
        case h_2 hash size hashed =>
          rw [Database.getGlobalIgnores_fileAt?]
          split
          case h_1 tf found =>
            split
            case isTrue => exact .inl ⟨files, conflicts, rfl⟩
            case isFalse unlocked =>
              split
              case isTrue => exact .inl ⟨files, conflicts, rfl⟩
              case isFalse changed =>
                have renewed : overwritten? w localPath = some tf := by
                  simp [overwritten?, kept, hashed, found, unlocked, changed]
                refine .inr (.inr (.inr ⟨Database.changedFile _ tf nodeId hash size, ?_,
                  congrArg (Records.put · _) files, conflicts, rfl⟩))
                simp [renewed?, renewed, Database.changedFile]
          case h_2 found =>
            have renewed : overwritten? w localPath = none := by
              simp [overwritten?, kept, hashed, found]
            refine .inr (.inr (.inr ⟨Database.newTrackedFile _ localPath nodeId ruleId hash size, ?_,
              congrArg (Records.put · _) files, conflicts, rfl⟩))
            simp [renewed?, renewed, Database.newTrackedFile]
  | syncUpdateJob jobId status lastError =>
      simp only [World.serve, Database.serve, Database.updateJob]
      cases w.db.outbox.get jobId with
      | none | some job => exact .inl ⟨rfl, rfl, by cases status <;> rfl⟩
  | syncRetryJob jobId =>
      simp only [World.serve, Database.serve, Database.retryOutboxJob]
      split <;> exact .inl ⟨rfl, rfl, rfl⟩
  | syncSetEnabled ruleId enabled =>
      simp only [World.serve, Database.serve, Database.setSyncRuleEnabled]
      split <;> exact .inl ⟨rfl, rfl, rfl⟩
  | syncListIgnores =>
      exact .inl ⟨w.db.getGlobalIgnores_trackedFiles, w.db.getGlobalIgnores_conflicts, rfl⟩
  | syncAddIgnore pattern =>
      have files := w.db.getGlobalIgnores_trackedFiles
      have conflicts := w.db.getGlobalIgnores_conflicts
      simp only [World.serve, Database.serve, Database.addGlobalIgnore]
      split <;> exact .inl ⟨files, conflicts, rfl⟩
  | syncRemoveIgnore pattern =>
      exact .inl ⟨w.db.getGlobalIgnores_trackedFiles, w.db.getGlobalIgnores_conflicts, rfl⟩
  | syncApplyIgnorePreset name =>
      have files := w.db.getGlobalIgnores_trackedFiles
      have conflicts := w.db.getGlobalIgnores_conflicts
      simp only [World.serve, Database.serve, Database.applyIgnorePreset]
      split
      · exact .inl ⟨rfl, rfl, rfl⟩
      · exact .inl ⟨files, conflicts, rfl⟩
  | syncAddRule | syncRemoveRule | syncListRules | syncListJobs | syncListConflicts
  | syncListTrackedFiles | syncSetIgnores | syncDrainReady | syncDismissJob =>
      exact .inl ⟨rfl, rfl, rfl⟩

/-! ## One step -/

/-- A file whose lock is set is in the state that says so, and so is one with an
open conflict unless its lock is set. -/
structure Barred (w : World) (fileId : FileId) : Prop where
  locked : w.log.locked fileId = true →
    ∃ tf ∈ w.db.trackedFiles.get fileId, tf.syncState = .lockedByProcess
  disputed : OpenConflict w.db fileId →
    ∀ tf ∈ w.db.trackedFiles.get fileId, trackedFilePushable tf = false

theorem guarded_of_barred {w : World} (h : ∀ fileId, Barred w fileId) : Guarded w := by
  refine ⟨fun fileId locked tf there => ?_, fun fileId => (h fileId).disputed⟩
  obtain ⟨stored, found, state⟩ := (h fileId).locked locked
  obtain rfl : stored = tf := Option.some.inj (found.symm.trans there)
  exact not_pushable.mpr (.inl state)

theorem Barred.same {w w' : World} {fileId : FileId} (h : Barred w fileId)
    (files : w'.db.trackedFiles.get fileId = w.db.trackedFiles.get fileId)
    (conflicts : OpenConflict w'.db fileId → OpenConflict w.db fileId)
    (locked : w'.log.locked fileId = w.log.locked fileId) : Barred w' fileId := by
  refine ⟨?_, fun disputed => ?_⟩
  · rw [files, locked]
    exact h.locked
  · rw [files]
    exact h.disputed (conflicts disputed)

theorem SameFiles.barred {w w' : World} (same : SameFiles w w') {fileId : FileId}
    (h : Barred w fileId) : Barred w' fileId := by
  refine h.same (by rw [same.trackedFiles]) (fun disputed => ?_) (by rw [same.locked])
  rwa [OpenConflict, same.conflicts] at disputed

/-- What is overwritten is stored and not locked. -/
theorem overwritten_unlocked {w : World} {localPath : String} {old : TrackedFile}
    (written : overwritten? w localPath = some old) :
    w.db.trackedFiles.get old.fileId = some old ∧ old.syncState ≠ .lockedByProcess := by
  rw [overwritten?] at written
  split at written
  · cases written
  · split at written
    · cases written
    · obtain ⟨found, unlocked⟩ := Option.filter_eq_some_iff.mp written
      refine ⟨Records.mem_list.mp (List.mem_of_find?_eq_some found), ?_⟩
      rw [Bool.and_eq_true] at unlocked
      simpa using unlocked.1

/-- A file that is written with new content has neither a lock nor a conflict. -/
theorem renewed_free {w : World} {request : SyncRequest} {fileId : FileId}
    (careful : CarefulRequest w request) (renewed : renewed? w request = some fileId) :
    ¬ OpenConflict w.db fileId ∧
      ∀ tf ∈ w.db.trackedFiles.get fileId, tf.syncState ≠ .lockedByProcess := by
  have fresh (fresh : FreshId w) : ¬ OpenConflict w.db w.env.daemon.newFileId ∧
      ∀ tf ∈ w.db.trackedFiles.get w.env.daemon.newFileId, tf.syncState ≠ .lockedByProcess := by
    refine ⟨fresh.2, fun tf there => ?_⟩
    rw [fresh.1] at there
    cases there
  cases request with
  | syncPushNow localPath targetPeer nodeId =>
      obtain rfl := Option.some.inj renewed
      exact fresh careful
  | syncFileChanged localPath ruleId nodeId targetPeer =>
      obtain rfl := Option.some.inj renewed
      cases written : overwritten? w localPath with
      | none => exact fresh careful.1
      | some old =>
          obtain ⟨stored, unlocked⟩ := overwritten_unlocked written
          refine ⟨careful.2 old written, fun tf there => ?_⟩
          obtain rfl := Option.some.inj (stored.symm.trans there)
          exact unlocked
  | _ => cases renewed

theorem barred_of_setLock {w w' : World} {tf : TrackedFile} {locked : Bool}
    (careful : CarefulRequest w (.syncSetLock tf.fileId locked))
    (db : w'.db = w.db.putTrackedFile
      { tf with syncState := if locked then .lockedByProcess else .pending })
    (log : w'.log.locked = Function.update w.log.locked tf.fileId locked) :
    Barred w' tf.fileId := by
  have stored : w'.db.trackedFiles.get tf.fileId =
      some { tf with syncState := if locked then .lockedByProcess else .pending } := by
    simp [db, Database.putTrackedFile]
  have lock : w'.log.locked tf.fileId = locked := by simp [log]
  cases locked with
  | true =>
      refine ⟨fun _ => ⟨_, stored, rfl⟩, fun _ other there => ?_⟩
      obtain rfl := Option.some.inj (stored.symm.trans there)
      rfl
  | false =>
      constructor
      · intro set
        exact absurd (lock.symm.trans set) (by simp)
      · intro disputed
        rw [OpenConflict, db] at disputed
        exact absurd disputed careful

theorem Barred.resolve {w w' : World} {c : SyncConflict} {resolution : ConflictResolution}
    {fileId : FileId} (h : Barred w fileId)
    (careful : CarefulRequest w (.syncResolveConflict c.conflictId resolution))
    (found : w.db.conflicts.get c.conflictId = some c)
    (db : w'.db = (w.db.resolveSyncConflict c.conflictId).2) (log : w'.log = w.log) :
    Barred w' fileId := by
  have conflicts : w'.db.conflicts = w.db.conflicts.remove c.conflictId := by
    simp only [db, Database.resolveSyncConflict, found]
    split <;> rfl
  have remains {fileId : FileId} (disputed : OpenConflict w'.db fileId) :
      ∃ other ∈ w.db.conflicts.list, other.fileId = fileId ∧ other.conflictId ≠ c.conflictId := by
    obtain ⟨conflictId, other, there, same⟩ := openConflict_iff.mp disputed
    rw [conflicts, Records.get_remove] at there
    split at there
    case isTrue => cases there
    case isFalse different =>
      have key := Records.key_of_get there
      refine ⟨other, Records.mem_list.mpr (key.symm ▸ there), same, ?_⟩
      rwa [key]
  obtain ⟨unlocked, alone⟩ := careful c found
  by_cases same : fileId = c.fileId
  · subst same
    constructor
    · intro set
      rw [log] at set
      obtain ⟨tf, there, state⟩ := h.locked set
      exact absurd state (unlocked tf there)
    · intro disputed
      obtain ⟨other, member, same, different⟩ := remains disputed
      exact absurd (alone other member same) different
  · refine h.same ?_ (fun disputed => ?_) (by rw [log])
    · simp only [db, Database.resolveSyncConflict, found]
      split
      case h_1 tf there =>
        have key := Records.key_of_get there
        simp only [Database.putTrackedFile, Records.get_put]
        exact if_neg (key.symm ▸ same)
      case h_2 => rfl
    · obtain ⟨other, member, same, -⟩ := remains disputed
      exact ⟨other, member, same⟩

theorem Barred.serve {w : World} {request : SyncRequest} {fileId : FileId}
    (h : Barred w fileId) (careful : CarefulRequest w request) :
    Barred (w.serve request).2 fileId := by
  rcases serve_files w request with same | ⟨tf, locked, rfl, found, db, log⟩ |
      ⟨c, resolution, rfl, found, db, log⟩ | ⟨tf, renewed, files, conflicts, locked⟩
  · exact same.barred h
  · by_cases same : fileId = tf.fileId
    · subst same
      exact barred_of_setLock careful db log
    · refine h.same ?_ (fun disputed => ?_) ?_
      · simp [db, Database.putTrackedFile, same]
      · rwa [OpenConflict, db] at disputed
      · simp [log, same]
  · exact h.resolve careful found db log
  · by_cases same : fileId = tf.fileId
    · subst same
      obtain ⟨undisputed, unlocked⟩ := renewed_free careful renewed
      constructor
      · intro set
        rw [locked] at set
        obtain ⟨old, found, state⟩ := h.locked set
        exact absurd state (unlocked old found)
      · rw [OpenConflict, conflicts]
        exact fun disputed => absurd disputed undisputed
    · refine h.same ?_ (fun disputed => ?_) (by rw [locked])
      · rw [files, Records.get_put, if_neg same]
      · rwa [OpenConflict, conflicts] at disputed

/-! ## What a loop pushes -/

/-- A loop of the client comes upon no file that is not pushable. -/
def Sees : Call → (a : Action) → a.Answer → Prop
  | .drain .client _ _, .readTracked _, .ok (some tf) => trackedFilePushable tf = true
  | _, _, _ => True

/-- The one phase of a loop that pushes only what is pushable. -/
def guarding (c : Call) : Protocol signature Unit where
  allows _ := PushesPushable
  expects _ := Sees c
  after _ _ _ := ()

section Program

variable {blake3 : Bytes → BitVec 256} {c : Call}

theorem notify_guarded (request : SyncRequest) : Stays (guarding c) () (notify request) :=
  ⟨trivial, fun _ _ => rfl⟩

theorem pushJob_guarded (job : OutboxJob) {tf : TrackedFile}
    (pushable : trackedFilePushable tf = true) :
    Stays (guarding c) () (pushJob blake3 job tf) := by
  refine ⟨trivial, fun marked _ => ⟨pushable, fun _ _ => ?_⟩⟩
  have plain : (pushFileOverConnection blake3 tf.localPath tf.fileId
      (relativeName tf.localPath)).Upholds _ _ _ := pushFileOverConnection_plain _ _ _
  have push := plain.mono (fun _ _ => id)
    (fun a plain => (show (guarding c).allows () a ∧ ∀ r, (guarding c).after () a r = () from ?_))
    (fun _ => id)
  · refine (Program.Upholds.conforms_attempt push).bind fun _ pushed _ => ?_
    cases pushed with
    | ok sent => exact ⟨trivial, fun _ _ => notify_guarded _⟩
    | error e => exact notify_guarded _
  · refine ⟨?_, fun _ => rfl⟩
    cases a with
    | startPush job tf => exact plain.elim
    | _ => trivial

theorem idle_guarded (a : Action) (idle : Idle a) :
    (guarding c).allows () a ∧ ∀ r, (guarding c).after () a r = () := by
  refine ⟨?_, fun _ => rfl⟩
  cases a with
  | startPush job tf => exact idle.elim
  | _ => trivial

theorem body_guarded (c : Call) :
    (c.body blake3).Conforms (guarding c) (fun _ _ => True) () := by
  cases c with
  | drain side peerHint rounds =>
      refine Program.Conforms.imp (outboxDrain_stays idle_guarded (fun job tf found => ?_) rounds)
        fun _ _ _ => trivial
      cases side with
      | host | client => exact pushJob_guarded job found
  | request request => exact ⟨trivial, fun _ _ => trivial⟩

end Program

/-! ## Every schedule -/

section Schedule

variable {blake3 : Bytes → BitVec 256} {P : DrainPool}

def Watched (P : DrainPool) : Prop :=
  System.Holds (fun w => ∀ fileId, Barred w fileId)
    (fun t => t.rest.Conforms (guarding t.call) (fun _ _ => True) ()) P

/-- What a careful loop of the client reads is pushable. -/
theorem sees_of_careful {w : World} {c : Call} {a : Action} (careful : CarefulAction w a c) :
    Sees c a (World.exec a w).1 := by
  cases c with
  | request request => trivial
  | drain side peerHint rounds =>
      cases side with
      | host => trivial
      | client =>
          cases a with
          | readTracked fileId =>
              cases read : (World.exec (.readTracked fileId) w).1 with
              | error e => trivial
              | ok file =>
                  cases file with
                  | none => trivial
                  | some tf => exact careful tf (World.stored_of_readTracked read)
          | _ => trivial

/-- Only a request changes what is known of a file. -/
theorem exec_files {w : World} {c : Call} {a : Action} (careful : CarefulAction w a c)
    (h : ∀ fileId, Barred w fileId) (fileId : FileId) : Barred (World.exec a w).2 fileId := by
  rcases World.exec_cases a with ⟨request, rfl⟩ | ⟨job, tf, rfl⟩ | ⟨-, quiet⟩
  · rcases w.ask_cases request with ⟨effective, served⟩ | ⟨-, same⟩
    · rw [World.exec, served]
      exact (h fileId).serve (careful effective)
    · rw [World.exec, same]
      exact h fileId
  · exact (h fileId).same rfl id rfl
  · obtain ⟨db, log⟩ := quiet w
    refine (h fileId).same (by rw [db]) (fun disputed => ?_) (by rw [log])
    rwa [db] at disputed

theorem Watched.move (h : Watched P) (m : DrainMove) (careful : Careful P m) :
    Watched ((drains blake3).move P m) := by
  refine System.Holds.move (drains blake3) h (fun c _ => body_guarded c)
    (fun env _ fileId => (h.shared fileId).same rfl id rfl) fun i c a k move found => ?_
  subst move
  have careful : CarefulAction P.shared a c := careful ⟨c, .act a k⟩ found a rfl
  have conforms := h.threads _ (List.mem_of_getElem? found)
  exact ⟨exec_files careful h.shared, conforms.2 _ (sees_of_careful careful)⟩

theorem Watched.guarded (h : Watched P) (m : DrainMove) : GuardedMove P m := by
  refine ⟨guarded_of_barred h.shared, fun a next => ?_⟩
  cases m with
  | call c | disturb env => cases next
  | step i =>
      obtain ⟨⟨c, rest⟩, found, next⟩ := Option.bind_eq_some_iff.mp next
      cases rest with
      | done u | fail e => cases next
      | act b k =>
          obtain rfl := Option.some.inj next
          exact (h.threads _ (List.mem_of_getElem? found)).1

/-- Locks and open conflicts keep files from being pushed, in every state that
is reached and by every loop. -/
theorem guarded_of_careful (db : Database) (env : DrainEnv)
    (start : ∀ fileId, OpenConflict db fileId → ∀ tf ∈ db.trackedFiles.get fileId,
      tf.syncState = .conflict ∨ tf.syncState = .lockedByProcess)
    {moves : List DrainMove} (careful : (drains blake3).Along Careful (untouched db env) moves) :
    (drains blake3).Along GuardedMove (untouched db env) moves ∧
      Guarded ((drains blake3).schedule (untouched db env) moves).shared := by
  have watched : Watched (untouched db env) := by
    refine ⟨fun fileId => ⟨fun locked => ?_, fun disputed tf there => ?_⟩, fun t member => ?_⟩
    · obtain ⟨tf, there, state⟩ := (Option.any_eq_true _ _).mp locked
      exact ⟨tf, there, of_decide_eq_true state⟩
    · exact not_pushable.mpr (start fileId disputed tf there).symm
    · cases member
  constructor
  · exact System.Along.imp (drains blake3) (fun P m ok h => h.move m ok)
      (fun P m _ h => h.guarded m) watched careful
  · have last : Watched ((drains blake3).schedule (untouched db env) moves) :=
      System.schedule_invariant (drains blake3) (fun P m ok h => h.move m ok) watched careful
    exact guarded_of_barred last.shared

end Schedule

/-! ## Heedless steps -/

/-- What a guarded world says of one file. -/
theorem Guarded.none_pushable {w : World} (h : Guarded w) (fileId : FileId)
    (barred : w.log.locked fileId = true ∨ OpenConflict w.db fileId) :
    (w.db.trackedFiles.get fileId).any trackedFilePushable = false := by
  cases stored : w.db.trackedFiles.get fileId with
  | none => rfl
  | some tf =>
      rcases barred with locked | disputed
      · exact h.locked fileId locked tf stored
      · exact h.disputed fileId disputed tf stored

instance : DecidablePred PushesPushable
  | .startPush _ tf => inferInstanceAs (Decidable (trackedFilePushable tf = true))
  | .closeReason | .connect | .call _ | .readTracked _ | .isFile _ | .pushed _ _ _ | .readFile _
  | .openUni | .write _ _ | .openFile _ | .copy _ _ | .finish _ => isTrue trivial

instance (P : DrainPool) (m : DrainMove) : Decidable (∀ a ∈ P.next? m, PushesPushable a) :=
  Option.decidableForallMem _

instance (db : Database) (fileId : FileId) : Decidable (OpenConflict db fileId) :=
  inferInstanceAs (Decidable (∃ c ∈ db.conflicts.list, c.fileId = fileId))

instance (w : World) : Decidable (FreshId w) :=
  haveI : Decidable (w.db.trackedFiles.get w.env.daemon.newFileId = none) :=
    decidable_of_iff _ Option.isNone_iff_eq_none
  inferInstanceAs (Decidable (_ ∧ _))

instance decidableCarefulRequest (w : World) : ∀ request, Decidable (CarefulRequest w request)
  | .syncSetLock fileId false => inferInstanceAs (Decidable (¬ OpenConflict w.db fileId))
  | .syncResolveConflict conflictId _ =>
      haveI (c : SyncConflict) : Decidable (∀ tf ∈ w.db.trackedFiles.get c.fileId,
          tf.syncState ≠ .lockedByProcess) := Option.decidableForallMem _
      haveI (c : SyncConflict) : Decidable (∀ other ∈ w.db.conflicts.list,
          other.fileId = c.fileId → other.conflictId = conflictId) := List.decidableBAll _ _
      Option.decidableForallMem _
  | .syncFileChanged localPath _ _ _ =>
      haveI : Decidable (∀ tf ∈ overwritten? w localPath, ¬ OpenConflict w.db tf.fileId) :=
        Option.decidableForallMem _
      inferInstanceAs (Decidable (_ ∧ _))
  | .syncPushNow _ _ _ => inferInstanceAs (Decidable (FreshId w))
  | .syncSetLock _ true | .syncUpdateJob _ _ _ | .syncAddRule _ | .syncRemoveRule _
  | .syncListRules | .syncSetEnabled _ _ | .syncListJobs | .syncListConflicts
  | .syncListTrackedFiles | .syncListIgnores | .syncSetIgnores _ | .syncAddIgnore _
  | .syncRemoveIgnore _ | .syncApplyIgnorePreset _ | .syncDrainReady | .syncRetryJob _
  | .syncDismissJob _ => isTrue trivial

instance decidableCarefulAction (w : World) : ∀ a c, Decidable (CarefulAction w a c)
  | .call request, _ =>
      inferInstanceAs (Decidable (w.Effective request → CarefulRequest w request))
  | .readTracked _, .drain .client _ _ => Option.decidableForallMem _
  | .readTracked _, .drain .host _ _ | .readTracked _, .request _ | .closeReason, _ | .connect, _
  | .isFile _, _ | .startPush _ _, _ | .pushed _ _ _, _ | .readFile _, _ | .openUni, _ | .write _ _, _
  | .openFile _, _ | .copy _ _, _ | .finish _, _ => isTrue trivial

instance (P : DrainPool) : ∀ m, Decidable (Careful P m)
  | .step _ =>
      haveI (t : Thread signature PushError Call) : Decidable (∀ a ∈ t.next?,
          CarefulAction P.shared a t.call) := Option.decidableForallMem _
      Option.decidableForallMem _
  | .call _ | .disturb _ => isTrue trivial

namespace Sample

def quarrel : SyncConflict where
  conflictId := "conflict-1"
  fileId := "file-1"
  localPath := "/home/me/game.sav"
  remotePath := "/home/me/game.sav.remote"
  peerId := "peer"
  localClock := VectorClock.empty
  remoteClock := VectorClock.empty
  createdAtUnix := 1

/-- A file with an open conflict that waits to be pushed. -/
def disputed : Database :=
  { oneJob with
    trackedFiles := Records.empty.put { save with syncState := .conflict }
    conflicts := Records.empty.put quarrel }

/-- The file has another content than the one noted. -/
def edited : DrainEnv :=
  { calm with daemon := { calm.daemon with contentHashFile := fun _ => .ok ("decaf", 4) } }

/-- Requests of the user interface or a watcher, one after the other. -/
def requests (asked : List SyncRequest) : List DrainMove :=
  (asked.mapIdx fun i request => [.call (.request request), .step i]).flatten

def reached (asked : List SyncRequest) : World :=
  ((drains noHash).schedule (untouched disputed edited) (requests asked)).shared

theorem disputed_start (fileId : FileId) (_ : OpenConflict disputed fileId) :
    ∀ tf ∈ disputed.trackedFiles.get fileId,
      tf.syncState = .conflict ∨ tf.syncState = .lockedByProcess := by
  intro tf there
  simp only [disputed, Records.get_put, Records.get_empty] at there
  split at there
  · obtain rfl := Option.some.inj there
    exact .inl rfl
  · cases there

/-- An unlock or an edit forgets the conflict, the end of a conflict forgets the
lock, and the client pushes in spite of either. -/
theorem heedless_not_guarded :
    ¬ Guarded (reached [.syncSetLock "file-1" true, .syncSetLock "file-1" false]) ∧
    ¬ Guarded (reached [.syncFileChanged "/home/me/game.sav" none "node" "peer"]) ∧
    ¬ Guarded (reached [.syncSetLock "file-1" true, .syncResolveConflict "conflict-1" .keepBoth]) ∧
    ¬ (drains noHash).Along GuardedMove (untouched disputed calm)
      (.call (.drain .client "peer" 1) :: steps 0 7) := by
  refine ⟨fun h => ?_, fun h => ?_, fun h => ?_, fun h => ?_⟩
  · have barred := h.none_pushable "file-1" (.inr (by decide))
    revert barred
    decide
  · have barred := h.none_pushable "file-1" (.inr (by decide +kernel))
    revert barred
    decide +kernel
  · have barred := h.none_pushable "file-1" (.inl (by decide))
    revert barred
    decide
  · have pushes := System.Along.imp (drains noHash) (I := fun _ => True) (fun _ _ _ _ => trivial)
      (fun P m guarded _ => guarded.push) trivial h
    revert pushes
    decide

/-- A locked file is passed over while another one is pushed. -/
def passedOver : List DrainMove :=
  requests [.syncSetLock "file-1" true, .syncFileChanged "/home/me/game.sav" none "node" "peer",
      .syncPushNow "/home/me/other.sav" "peer" "node"] ++
    [.call (.drain .host "peer" 1)] ++ steps 3 17

theorem passedOver_guarded :
    (drains noHash).Along GuardedMove (untouched disputed edited) passedOver ∧
      Guarded ((drains noHash).schedule (untouched disputed edited) passedOver).shared :=
  guarded_of_careful disputed edited disputed_start (by decide +kernel)

end Sample

end Qubox.Sync
