import Qubox.Sync.Sensors

/-!
# The last reported change

A change that is reported while its file is locked is answered and forgotten,
and unlocking the file does not look at it again. What a request puts back of a file
that it has read before takes a change away that came between. `Heeded` says of an action
that afterwards every file under a path has the content last reported for the path,
and that no file is cut off from the job that was made for its content. Then, in
every state that is reached, each file that is not locked is as last reported
and its content is queued for the peer that is to get it, or was pushed.
-/

namespace Qubox.Sync.Sensors

open Interaction

section Statement

/-- A job made for the content of the file is for this peer, and it is in the
outbox or has been done. -/
def Queued (w : World) (fileId : FileId) (targetPeer : PeerId) : Prop :=
  ∃ job ∈ w.log.recorded fileId, job.targetPeer = targetPeer ∧
    (w.log.pushed job.jobId = true ∨ ∃ stored ∈ w.db.outbox.get job.jobId,
      stored.fileId = fileId ∧ stored.targetPeer = targetPeer)

/-- The content is queued, or the request that wrote it is about to queue it. -/
def Prepared (w : World) (fileId : FileId) (targetPeer : PeerId) : Prop :=
  w.log.owed fileId = some targetPeer ∨ Queued w fileId targetPeer

/-- When no event waits and none is being served that has yet to look at a file or to write
it, every file that is not locked is as last reported. -/
def UpToDate (w : World) : Prop :=
  w.waiting = [] → ∀ path hash targetPeer, w.log.reported path = some (hash, targetPeer) →
    w.log.unsettled path = false → ∀ fileId, ∀ tf ∈ w.db.trackedFiles.get fileId,
      tf.localPath = path → tf.syncState ≠ .lockedByProcess →
        tf.contentHash = hash ∧ Prepared w fileId targetPeer

/-- Every file under the path but this one has this content, for this peer. -/
def OthersHave (w : World) (path : String) (fileId : Option FileId) (hash : String)
    (targetPeer : PeerId) : Prop :=
  ∀ tf ∈ w.db.trackedFiles.list, tf.localPath = path → some tf.fileId ≠ fileId →
    tf.contentHash = hash ∧ Prepared w tf.fileId targetPeer

/-- Every file under the path, locked or not, is as last reported. -/
def AsReported (w : World) (path : String) : Prop :=
  ∀ last ∈ w.log.reported path, OthersHave w path none last.1 last.2

/-- The path is not reported, or it was last reported with this content for this peer. -/
def Agrees (w : World) (path hash : String) (targetPeer : PeerId) : Prop :=
  ∀ last ∈ w.log.reported path, hash = last.1 ∧ targetPeer = last.2

/-- What an action has to find. A request ends, or writes a file, only when every file under
the path will be as last reported; what a request puts back of a file has not been changed
since it was read; a job that is made can be put into the outbox, under a new id; and no job
is dismissed that is still to be done. -/
def Heeded (w : World) : Action → Prop
  | .findTracked path hash => w.nothingNew path hash = true → AsReported w path
  | .putTrackedFile tf (.change targetPeer) =>
      if w.faulty then AsReported w tf.localPath
      else w.log.reported tf.localPath = some (tf.contentHash, targetPeer) ∧
        OthersHave w tf.localPath tf.fileId tf.contentHash targetPeer
  | .putTrackedFile tf (.push targetPeer) =>
      w.faulty = false → Agrees w tf.localPath tf.contentHash targetPeer
  | .putTrackedFile tf .state => w.faulty = false →
      ∃ stored ∈ w.db.trackedFiles.get tf.fileId,
        stored.localPath = tf.localPath ∧ stored.contentHash = tf.contentHash
  | .putOutboxJob job true =>
      if w.faulty then ∀ tf ∈ w.db.trackedFiles.get job.fileId, w.log.reported tf.localPath = none
      else w.db.outbox.get job.jobId = none ∧ w.log.pushed job.jobId = false
  | .putOutboxJob job false => w.faulty = false → ∀ stored ∈ w.db.outbox.get job.jobId,
      job.fileId = stored.fileId ∧ job.targetPeer = stored.targetPeer
  | .deleteOutboxJob jobId => w.faulty = false → ∀ tf ∈ w.db.trackedFiles.list,
      ∀ job ∈ w.log.recorded tf.fileId, job.jobId = jobId →
        (w.log.reported tf.localPath).isSome → w.log.pushed jobId = true
  | _ => True

def HeededMove (P : SensorPool) (m : SensorMove) : Prop := ∀ a ∈ P.next? m, Heeded P.shared a

end Statement

/-! ## What an action does to files and jobs -/

/-- Every file, locked or not, is as last reported. -/
def Current (w : World) : Prop := ∀ path, w.log.unsettled path = false → AsReported w path

theorem Current.upToDate {w : World} (h : Current w) : UpToDate w := by
  intro _ path hash targetPeer reported settled fileId tf found here _
  obtain rfl := Records.key_of_get found
  exact h path settled _ reported tf (Records.mem_list.mpr found) here (Option.some_ne_none _)

theorem Queued.mono {w w' : World} {fileId : FileId} {targetPeer : PeerId}
    (h : Queued w fileId targetPeer) (recorded : w.log.recorded fileId ⊆ w'.log.recorded fileId)
    (jobs : ∀ job ∈ w.log.recorded fileId, (w.log.pushed job.jobId = true ∨
      ∃ stored ∈ w.db.outbox.get job.jobId,
        stored.fileId = fileId ∧ stored.targetPeer = targetPeer) →
      w'.log.pushed job.jobId = true ∨ ∃ stored ∈ w'.db.outbox.get job.jobId,
        stored.fileId = fileId ∧ stored.targetPeer = targetPeer) :
    Queued w' fileId targetPeer := by
  obtain ⟨job, made, peer, ready⟩ := h
  exact ⟨job, recorded made, peer, jobs job made ready⟩

/-- Nothing is lost when every file there is was there before with the same
content, and what was prepared is. -/
theorem Current.mono {w w' : World} (h : Current w)
    (reported : w'.log.reported = w.log.reported)
    (settled : ∀ path, w'.log.unsettled path = false →
      w.log.unsettled path = false ∨ AsReported w path)
    (files : ∀ tf' ∈ w'.db.trackedFiles.list, ∃ tf ∈ w.db.trackedFiles.list,
      tf.fileId = tf'.fileId ∧ tf.localPath = tf'.localPath ∧ tf.contentHash = tf'.contentHash)
    (prepared : ∀ tf ∈ w.db.trackedFiles.list, (w.log.reported tf.localPath).isSome →
      ∀ targetPeer, Prepared w tf.fileId targetPeer → Prepared w' tf.fileId targetPeer) :
    Current w' := by
  intro path ended last member tf' listed here _
  rw [reported] at member
  obtain ⟨tf, before, same, path_eq, hash_eq⟩ := files tf' listed
  have known : AsReported w path := (settled path ended).elim (h path) id
  obtain ⟨content, ready⟩ :=
    known last member tf before (path_eq.trans here) (Option.some_ne_none _)
  refine ⟨hash_eq ▸ content, same ▸ prepared tf before ?_ _ ready⟩
  rw [path_eq, here, member]
  rfl

/-- Only notes about which request goes on change. -/
theorem Current.notes {w w' : World} (h : Current w)
    (trackedFiles : w'.db.trackedFiles = w.db.trackedFiles) (outbox : w'.db.outbox = w.db.outbox)
    (reported : w'.log.reported = w.log.reported) (recorded : w'.log.recorded = w.log.recorded)
    (owed : w'.log.owed = w.log.owed) (pushed : w'.log.pushed = w.log.pushed)
    (settled : ∀ path, w'.log.unsettled path = false →
      w.log.unsettled path = false ∨ AsReported w path) : Current w' := by
  refine h.mono reported settled (fun tf listed => ?_) fun tf _ _ targetPeer ready => ?_
  · rw [trackedFiles] at listed
    exact ⟨tf, listed, rfl, rfl, rfl⟩
  · rw [Prepared, Queued, owed, recorded, pushed, outbox]
    exact ready

/-- Nothing happens to the files, the jobs and the log. -/
theorem Current.idle {w w' : World} (h : Current w)
    (trackedFiles : w'.db.trackedFiles = w.db.trackedFiles) (outbox : w'.db.outbox = w.db.outbox)
    (log : w'.log = w.log) : Current w' := by
  apply h.notes trackedFiles outbox
  · rw [log]
  · rw [log]
  · rw [log]
  · rw [log]
  · intro path settled
    rw [log] at settled
    exact .inl settled

/-- Content is reported, and the request that reports it goes on. -/
theorem Current.report {w w' : World} (h : Current w) {path hash : String} {targetPeer : PeerId}
    (db : w'.db = w.db) (log : w'.log = w.log.report path hash targetPeer) : Current w' := by
  intro path' ended last member tf listed here apart
  rw [log] at ended member
  have other : path' ≠ path := by
    rintro rfl
    simp [Log.report] at ended
  simp only [Log.report, Function.update_of_ne other] at ended member
  rw [db] at listed
  obtain ⟨content, ready⟩ := h path' ended last member tf listed here apart
  refine ⟨content, ?_⟩
  rw [Prepared, Queued, log, db]
  exact ready

/-- A file is written with the content last reported for its path, if there is one, and a
job for it is to be made. -/
theorem Current.written {w w' : World} (h : Current w) {tf : TrackedFile} {targetPeer : PeerId}
    (trackedFiles : w'.db.trackedFiles = w.db.trackedFiles.put tf)
    (outbox : w'.db.outbox = w.db.outbox) (reported : w'.log.reported = w.log.reported)
    (recorded : w'.log.recorded = Function.update w.log.recorded tf.fileId [])
    (owed : w'.log.owed = Function.update w.log.owed tf.fileId (some targetPeer))
    (pushed : w'.log.pushed = w.log.pushed)
    (agrees : Agrees w tf.localPath tf.contentHash targetPeer)
    (settled : ∀ path, w'.log.unsettled path = false → w.log.unsettled path = false ∨
      ∀ last ∈ w.log.reported path, OthersHave w path tf.fileId last.1 last.2) : Current w' := by
  intro path ended last member other listed here _
  rw [reported] at member
  have found := Records.mem_list.mp listed
  rw [trackedFiles, Records.get_put] at found
  by_cases same : other.fileId = tf.fileId
  · rw [if_pos same] at found
    obtain rfl := Option.some.inj found
    rw [← here] at member
    obtain ⟨content, peer⟩ := agrees last member
    refine ⟨content, .inl ?_⟩
    rw [owed, Function.update_self, peer]
  · rw [if_neg same] at found
    have before := Records.mem_list.mpr found
    have old : other.contentHash = last.1 ∧ Prepared w other.fileId last.2 := by
      obtain settled | others := settled path ended
      · exact h path settled last member other before here (Option.some_ne_none _)
      · exact others last member other before here fun this => same (Option.some.inj this)
    refine ⟨old.1, ?_⟩
    rw [Prepared, Queued, owed, recorded, pushed, outbox, Function.update_of_ne same,
      Function.update_of_ne same]
    exact old.2

/-- A file is put back with its path and its content. -/
theorem Current.restate {w w' : World} (h : Current w) {tf stored : TrackedFile}
    (found : w.db.trackedFiles.get tf.fileId = some stored)
    (path : stored.localPath = tf.localPath) (content : stored.contentHash = tf.contentHash)
    (trackedFiles : w'.db.trackedFiles = w.db.trackedFiles.put tf)
    (outbox : w'.db.outbox = w.db.outbox) (log : w'.log = w.log) : Current w' := by
  refine h.mono (by rw [log]) (fun _ settled => ?_) (fun other listed => ?_)
    fun other _ _ targetPeer ready => ?_
  · rw [log] at settled
    exact .inl settled
  · have there := Records.mem_list.mp listed
    rw [trackedFiles, Records.get_put] at there
    split at there
    case isTrue same =>
      obtain rfl := Option.some.inj there
      have key := Records.key_of_get found
      exact ⟨stored, Records.mem_list.mpr (key.symm ▸ found), key, path, content⟩
    case isFalse => exact ⟨other, Records.mem_list.mpr there, rfl, rfl, rfl⟩
  · rw [Prepared, Queued, log, outbox]
    exact ready

/-- Only the jobs change, and what was prepared is. -/
theorem Current.jobs {w w' : World} (h : Current w)
    (trackedFiles : w'.db.trackedFiles = w.db.trackedFiles)
    (reported : w'.log.reported = w.log.reported)
    (unsettled : w'.log.unsettled = w.log.unsettled)
    (prepared : ∀ tf ∈ w.db.trackedFiles.list, (w.log.reported tf.localPath).isSome →
      ∀ targetPeer, Prepared w tf.fileId targetPeer → Prepared w' tf.fileId targetPeer) :
    Current w' := by
  refine h.mono reported (fun path settled => ?_) (fun tf listed => ?_) prepared
  · rw [unsettled] at settled
    exact .inl settled
  · rw [trackedFiles] at listed
    exact ⟨tf, listed, rfl, rfl, rfl⟩

/-- A job is made under a new id. -/
theorem Current.enqueued {w w' : World} (h : Current w) {job : OutboxJob}
    (unused : w.db.outbox.get job.jobId = none) (fresh : w.log.pushed job.jobId = false)
    (trackedFiles : w'.db.trackedFiles = w.db.trackedFiles)
    (outbox : w'.db.outbox = w.db.outbox.put job) (log : w'.log = w.log.record job) :
    Current w' := by
  have kept {fileId : FileId} {targetPeer : PeerId} (ready : Queued w fileId targetPeer) :
      Queued w' fileId targetPeer := by
    refine ready.mono ?_ fun other _ => ?_
    · simp only [log, Log.record]
      by_cases same : fileId = job.fileId
      · subst same
        rw [Function.update_self]
        exact List.subset_cons_self _ _
      · rw [Function.update_of_ne same]
        exact List.Subset.refl _
    · simp only [log, Log.record, outbox, Records.get_put]
      by_cases same : other.jobId = job.jobId
      · rw [same, fresh, unused]
        rintro (done | ⟨stored, there, _⟩)
        · cases done
        · cases there
      · rw [Function.update_of_ne same, if_neg same]
        exact id
  refine h.jobs trackedFiles (by rw [log]; rfl) (by rw [log]; rfl) fun tf _ _ targetPeer ready => ?_
  obtain owed | queued := ready
  case inr => exact .inr (kept queued)
  by_cases mine : tf.fileId = job.fileId ∧ targetPeer = job.targetPeer
  · obtain ⟨file, rfl⟩ := mine
    refine .inr ⟨job, ?_, rfl, .inr ⟨job, ?_, file.symm, rfl⟩⟩
    · simp only [log, Log.record, file, Function.update_self]
      exact .head _
    · rw [outbox, Records.get_put, if_pos rfl]
      rfl
  · refine .inl ?_
    simp only [log, Log.record]
    split
    case isFalse => exact owed
    case isTrue paid =>
      rw [Function.update_of_ne, owed]
      intro file
      rw [file, paid] at owed
      exact mine ⟨file, (Option.some.inj owed).symm⟩

/-- The job of a file that is not reported could not be made. -/
theorem Current.missed {w w' : World} (h : Current w) {job : OutboxJob}
    (silent : ∀ tf ∈ w.db.trackedFiles.get job.fileId, w.log.reported tf.localPath = none)
    (db : w'.db = w.db) (log : w'.log = w.log.miss job) : Current w' := by
  refine h.jobs (by rw [db]) (by rw [log]; rfl) (by rw [log]; rfl)
    fun tf listed reported targetPeer ready => ?_
  have other : tf.fileId ≠ job.fileId := by
    intro same
    rw [silent tf (same ▸ Records.mem_list.mp listed)] at reported
    cases reported
  rw [Prepared, Queued, log, db]
  simp only [Log.miss, Function.update_of_ne other]
  exact ready

/-- A job that is put back keeps its file and its peer. -/
theorem Current.rejob {w w' : World} (h : Current w) {job : OutboxJob}
    (same : ∀ stored ∈ w.db.outbox.get job.jobId,
      job.fileId = stored.fileId ∧ job.targetPeer = stored.targetPeer)
    (trackedFiles : w'.db.trackedFiles = w.db.trackedFiles)
    (outbox : w'.db.outbox = w.db.outbox.put job) (log : w'.log = w.log.update job) :
    Current w' := by
  have reported : w'.log.reported = w.log.reported := by
    rw [log, Log.update]
    split <;> rfl
  have unsettled : w'.log.unsettled = w.log.unsettled := by
    rw [log, Log.update]
    split <;> rfl
  have recorded : w'.log.recorded = w.log.recorded := by
    rw [log, Log.update]
    split <;> rfl
  have owed : w'.log.owed = w.log.owed := by
    rw [log, Log.update]
    split <;> rfl
  have pushed (jobId : JobId) (done : w.log.pushed jobId = true) :
      w'.log.pushed jobId = true := by
    rw [log, Log.update]
    split
    · exact (Function.update_apply _ _ _ _).trans (by rw [done, ite_self])
    · exact done
  refine h.jobs trackedFiles reported unsettled fun tf _ _ targetPeer ready => ?_
  obtain owing | queued := ready
  · exact .inl (owed ▸ owing)
  · refine .inr (queued.mono (by rw [recorded]; exact List.Subset.refl _) fun other _ there => ?_)
    obtain done | ⟨stored, there, about⟩ := there
    · exact .inl (pushed _ done)
    · refine .inr ?_
      rw [outbox, Records.get_put]
      split
      case isTrue this =>
        rw [this] at there
        obtain ⟨file, peer⟩ := same stored there
        exact ⟨job, rfl, file.trans about.1, peer.trans about.2⟩
      case isFalse => exact ⟨stored, there, about⟩

theorem Current.dismiss {w w' : World} (h : Current w) {jobId : JobId}
    (ended : ∀ tf ∈ w.db.trackedFiles.list, ∀ job ∈ w.log.recorded tf.fileId, job.jobId = jobId →
      (w.log.reported tf.localPath).isSome → w.log.pushed jobId = true)
    (trackedFiles : w'.db.trackedFiles = w.db.trackedFiles)
    (outbox : w'.db.outbox = w.db.outbox.remove jobId) (log : w'.log = w.log) : Current w' := by
  refine h.jobs trackedFiles (by rw [log]) (by rw [log]) fun tf listed reported targetPeer ready => ?_
  obtain owed | queued := ready
  · exact .inl (log ▸ owed)
  · refine .inr (queued.mono (by rw [log]; exact List.Subset.refl _) fun job made there => ?_)
    rw [log, outbox]
    by_cases same : job.jobId = jobId
    · exact .inl (same ▸ ended tf listed job made same reported)
    · rw [Records.get_remove, if_neg same]
      exact there

/-! ## Every schedule -/

section Exec

variable {w : World}

theorem transact_of_faulty {α : Type} (faulty : w.faulty = true) (result : α) (db : Database) :
    (w.transact result db).2 = w := by
  obtain ⟨message, failed⟩ := Option.isSome_iff_exists.mp faulty
  rw [World.transact, failed]

theorem transact_of_sound {α : Type} (sound : w.faulty = false) (result : α) (db : Database) :
    (w.transact result db).2 = { w with db } := by
  have unfailed : w.env.dbFault = none :=
    Option.isNone_iff_eq_none.mp (Option.isSome_eq_false_iff.mp sound)
  rw [World.transact, unfailed]

/-- A transaction that leaves files and jobs alone. -/
theorem Current.transact {α : Type} (h : Current w) {result : α} {db : Database}
    (trackedFiles : db.trackedFiles = w.db.trackedFiles) (outbox : db.outbox = w.db.outbox) :
    Current { (w.transact result db).2 with log := w.log } := by
  cases faulty : w.faulty with
  | true =>
      rw [transact_of_faulty faulty]
      exact h
  | false =>
      rw [transact_of_sound faulty]
      exact h.idle trackedFiles outbox rfl

/-- A request ends that reported content of this path. -/
theorem settled_cases {log : Log} {path path' : String}
    (settled : (log.settle path).unsettled path' = false) :
    log.unsettled path' = false ∨ path' = path := by
  by_cases same : path' = path
  · exact .inr same
  · exact .inl ((Function.update_of_ne same _ _).symm.trans settled)

theorem Current.findTracked {path hash : String} (h : Current w)
    (heeded : Heeded w (.findTracked path hash)) :
    Current (World.exec (.findTracked path hash) w).2 := by
  have db : (World.exec (.findTracked path hash) w).2.db = w.db := by
    simp only [World.exec, World.result, World.transact]
    split <;> rfl
  cases ended : w.nothingNew path hash with
  | false =>
      refine h.idle (by rw [db]) (by rw [db]) ?_
      simp [World.exec, World.noted, ended]
  | true =>
      have log : (World.exec (.findTracked path hash) w).2.log = w.log.settle path := by
        simp [World.exec, World.noted, ended]
      refine h.notes (by rw [db]) (by rw [db]) (by rw [log]; rfl) (by rw [log]; rfl)
        (by rw [log]; rfl) (by rw [log]; rfl) fun path' settled => ?_
      rw [log] at settled
      obtain settled | rfl := settled_cases settled
      · exact .inl settled
      · exact .inr (heeded ended)

theorem Current.putTrackedFile {tf : TrackedFile} {purpose : Purpose} (h : Current w)
    (heeded : Heeded w (.putTrackedFile tf purpose)) :
    Current (World.exec (.putTrackedFile tf purpose) w).2 := by
  cases faulty : w.faulty with
  | true =>
      simp only [World.exec, World.result, transact_of_faulty faulty]
      cases purpose with
      | change targetPeer =>
          simp only [Heeded, faulty, if_true] at heeded
          simp only [World.noted, faulty, if_true]
          refine h.notes rfl rfl rfl rfl rfl rfl fun path settled => ?_
          obtain settled | rfl := settled_cases settled
          · exact .inl settled
          · exact .inr heeded
      | push targetPeer =>
          simp only [World.noted, faulty, if_true]
          exact h
      | state => exact h
  | false =>
      simp only [World.exec, World.result, transact_of_sound faulty]
      cases purpose with
      | change targetPeer =>
          simp only [Heeded, faulty, Bool.false_eq_true, if_false] at heeded
          obtain ⟨last, others⟩ := heeded
          simp only [World.noted, faulty, Bool.false_eq_true, if_false]
          refine h.written rfl rfl rfl rfl rfl rfl ?_ fun path settled => ?_
          · intro report member
            obtain rfl := Option.some.inj (last.symm.trans member)
            exact ⟨rfl, rfl⟩
          · obtain settled | rfl := settled_cases settled
            · exact .inl settled
            · refine .inr fun report member => ?_
              obtain rfl := Option.some.inj (last.symm.trans member)
              exact others
      | push targetPeer =>
          simp only [World.noted, faulty, Bool.false_eq_true, if_false]
          exact h.written rfl rfl rfl rfl rfl rfl (heeded faulty) fun path settled => .inl settled
      | state =>
          obtain ⟨stored, found, path, content⟩ := heeded faulty
          exact h.restate found path content rfl rfl rfl

theorem Current.putOutboxJob {job : OutboxJob} {isNew : Bool} (h : Current w)
    (heeded : Heeded w (.putOutboxJob job isNew)) :
    Current (World.exec (.putOutboxJob job isNew) w).2 := by
  cases faulty : w.faulty with
  | true =>
      simp only [World.exec, World.result, transact_of_faulty faulty]
      cases isNew with
      | true =>
          simp only [Heeded, faulty, if_true] at heeded
          simp only [World.noted, faulty, if_true]
          exact h.missed heeded rfl rfl
      | false =>
          simp only [World.noted, faulty, if_true]
          exact h
  | false =>
      simp only [World.exec, World.result, transact_of_sound faulty]
      cases isNew with
      | true =>
          simp only [Heeded, faulty, Bool.false_eq_true, if_false] at heeded
          simp only [World.noted, faulty, Bool.false_eq_true, if_false]
          exact h.enqueued heeded.1 heeded.2 rfl rfl rfl
      | false =>
          simp only [World.noted, faulty, Bool.false_eq_true, if_false]
          exact h.rejob (heeded faulty) rfl rfl rfl

theorem Current.exec {a : Action} (h : Current w) (heeded : Heeded w a) :
    Current (World.exec a w).2 := by
  cases a with
  | contentHashFile path event =>
      cases event with
      | none => exact h
      | some targetPeer =>
          cases hashed : w.env.daemon.contentHashFile path with
          | error e =>
              refine h.idle rfl rfl ?_
              simp only [World.exec, World.noted, hashed]
          | ok found =>
              have log : (World.exec (.contentHashFile path (some targetPeer)) w).2.log =
                  w.log.report path found.1 targetPeer := by
                simp only [World.exec, World.noted, hashed]
              exact h.report rfl log
  | findTracked path hash => exact h.findTracked heeded
  | putTrackedFile tf purpose => exact h.putTrackedFile heeded
  | putOutboxJob job isNew => exact h.putOutboxJob heeded
  | deleteOutboxJob jobId =>
      cases faulty : w.faulty with
      | true =>
          simp only [World.exec, World.result, transact_of_faulty faulty]
          exact h
      | false =>
          simp only [World.exec, World.result, transact_of_sound faulty]
          exact h.dismiss (heeded faulty) rfl rfl rfl
  | getGlobalIgnores =>
      exact h.transact w.db.getGlobalIgnores_trackedFiles w.db.getGlobalIgnores_outbox
  | getTrackedFile | getOutboxJob | findConflict | deleteSyncConflict | serve =>
      exact h.transact rfl rfl
  | processes | connect | send | receive | arrange | recv | isFile | drawIds => exact h

end Exec

theorem current_of_heeded (env : SensorEnv) {moves : List SensorMove}
    (heeded : sensors.Along HeededMove (fresh env) moves) :
    Current (sensors.schedule (fresh env) moves).shared := by
  have kept (P : SensorPool) (m : SensorMove) (ok : HeededMove P m) (h : Current P.shared) :
      Current (sensors.move P m).shared := by
    cases m with
    | call c => exact h
    | disturb x => cases x <;> exact h
    | step i =>
        show Current (sensors.advance P i).shared
        obtain same | ⟨c, a, k, found, moved⟩ := sensors.advance_cases P i
        · rw [same]
          exact h
        · rw [moved]
          exact h.exec (ok a (Pool.next?_step found))
  have start : Current (fresh env).shared := by
    intro path _ last reported
    cases reported
  exact System.schedule_invariant sensors kept start heeded

instance (w : World) (fileId : FileId) (targetPeer : PeerId) :
    Decidable (Queued w fileId targetPeer) :=
  haveI (job : OutboxJob) : Decidable (∃ stored ∈ w.db.outbox.get job.jobId,
      stored.fileId = fileId ∧ stored.targetPeer = targetPeer) := Option.decidableExistsMem _
  inferInstanceAs (Decidable (∃ job ∈ w.log.recorded fileId, _ ∧ _))

instance (w : World) (fileId : FileId) (targetPeer : PeerId) :
    Decidable (Prepared w fileId targetPeer) :=
  inferInstanceAs (Decidable (_ ∨ _))

instance (w : World) (path : String) (fileId : Option FileId) (hash : String)
    (targetPeer : PeerId) : Decidable (OthersHave w path fileId hash targetPeer) :=
  inferInstanceAs (Decidable (∀ tf ∈ w.db.trackedFiles.list, _))

instance (w : World) (path : String) : Decidable (AsReported w path) :=
  Option.decidableForallMem _

instance (w : World) (path hash : String) (targetPeer : PeerId) :
    Decidable (Agrees w path hash targetPeer) :=
  Option.decidableForallMem _

instance decidableHeeded (w : World) : ∀ a, Decidable (Heeded w a)
  | .findTracked path hash =>
      inferInstanceAs (Decidable (w.nothingNew path hash = true → AsReported w path))
  | .putTrackedFile tf (.change targetPeer) =>
      inferInstanceAs (Decidable (if w.faulty then AsReported w tf.localPath
        else w.log.reported tf.localPath = some (tf.contentHash, targetPeer) ∧
          OthersHave w tf.localPath tf.fileId tf.contentHash targetPeer))
  | .putTrackedFile tf (.push targetPeer) =>
      inferInstanceAs (Decidable (w.faulty = false →
        Agrees w tf.localPath tf.contentHash targetPeer))
  | .putTrackedFile tf .state =>
      haveI : Decidable (∃ stored ∈ w.db.trackedFiles.get tf.fileId,
          stored.localPath = tf.localPath ∧ stored.contentHash = tf.contentHash) :=
        Option.decidableExistsMem _
      inferInstanceAs (Decidable (w.faulty = false → _))
  | .putOutboxJob job true =>
      haveI : Decidable (∀ tf ∈ w.db.trackedFiles.get job.fileId,
          w.log.reported tf.localPath = none) := Option.decidableForallMem _
      haveI : Decidable (w.db.outbox.get job.jobId = none) :=
        decidable_of_iff _ Option.isNone_iff_eq_none
      inferInstanceAs (Decidable (if w.faulty then _ else _ ∧ _))
  | .putOutboxJob job false =>
      haveI : Decidable (∀ stored ∈ w.db.outbox.get job.jobId,
          job.fileId = stored.fileId ∧ job.targetPeer = stored.targetPeer) :=
        Option.decidableForallMem _
      inferInstanceAs (Decidable (w.faulty = false → _))
  | .deleteOutboxJob jobId =>
      inferInstanceAs (Decidable (w.faulty = false → ∀ tf ∈ w.db.trackedFiles.list,
        ∀ job ∈ w.log.recorded tf.fileId, job.jobId = jobId →
          (w.log.reported tf.localPath).isSome → w.log.pushed jobId = true))
  | .processes | .connect | .send _ | .receive _ _ | .arrange _ | .recv | .isFile _
  | .getGlobalIgnores | .contentHashFile _ _ | .getTrackedFile _ | .getOutboxJob _
  | .findConflict _ | .deleteSyncConflict _ | .drawIds | .serve _ => isTrue trivial

instance (P : SensorPool) (m : SensorMove) : Decidable (HeededMove P m) :=
  Option.decidableForallMem _

namespace Sample

def saves : SyncRule where
  ruleId := "rule-1"
  paths := ["/home/me/saves"]
  processNames := ["game"]
  peerIds := ["peer"]
  enabled := true
  maxFileBytes := 0
  ignoreGlobs := []

/-- These programs run, and every file has this content. -/
def state (processes : List String) (hash : String) (newId : String) : SensorEnv where
  daemon := {
    newRuleId := "rule-2"
    newFileId := "file-" ++ newId
    newJobId := "job-" ++ newId
    nowUnix := 1
    contentHashFile := fun _ => .ok (hash, 3) }
  dbFault := none
  fate _ := .served
  connect := .ok ()
  processes := processes
  isFile _ := true
  arrange ids := ⟨ids, .refl _⟩

def steps (i count : Nat) : List SensorMove := List.replicate count (.step i)

/-- The file changes, and the watcher takes this many steps. -/
def changes (processes : List String) (hash : String) (newId : String) (count : Nat) :
    List SensorMove :=
  [.disturb (.env (state processes hash newId)), .disturb (.event "/home/me/saves/slot.sav")] ++
    steps 0 count

/-- Both loops have begun, and a first change has been noted. -/
def begun : List SensorMove :=
  [.call (.watch [saves] "node" 4), .call (.pollLocks [saves] 4)] ++ steps 0 4 ++
    changes [] "c0ffee" "1" 12

/-- The program starts, writes the file, and ends. -/
def playing : List SensorMove :=
  [.disturb (.env (state ["game"] "c0ffee" "2"))] ++ steps 1 11 ++
    changes ["game"] "decaf" "2" 8 ++
    [.disturb (.env (state [] "decaf" "3"))] ++ steps 1 11

/-- Where the loops have got to after these moves. -/
def reached (moves : List SensorMove) : World :=
  (sensors.schedule (fresh (state [] "" "0")) moves).shared

/-- The program writes the file while the poller, which has read its record, waits to lock it. -/
def overlapping : List SensorMove :=
  [.disturb (.env (state ["game"] "c0ffee" "2"))] ++ steps 1 8 ++
    changes ["game"] "decaf" "2" 12 ++ steps 1 3 ++
    [.disturb (.env (state [] "decaf" "3"))] ++ steps 1 11

/-- The program is locked once, and once more after it has written the file, between two
accesses of the request that reports this. -/
def writtenBefore : List SensorMove :=
  [.disturb (.env (state ["game"] "c0ffee" "2"))] ++ steps 1 11 ++
    [.disturb (.env (state [] "c0ffee" "2"))] ++ steps 1 11 ++
    [.disturb (.env (state ["game"] "c0ffee" "2"))] ++ steps 1 7 ++
    changes ["game"] "decaf" "2" 7 ++ steps 1 3 ++ steps 0 5

end Sample

end Qubox.Sync.Sensors
