import Qubox.Sync.DrainContract

/-!
# Pushing a job once

A loop reads the list of pending jobs once a round and works through it. Before
it pushes a job it marks it as being in flight, but it does not look at what the
mark replaces: another loop may have pushed the job in the meantime.

`Rightful` says of a step that a mark is set on a job that is still pending,
that no job which is done by now is reported as failed, and that nobody writes a
job between the mark of a loop and its push. Then a loop that is about to push a
job is the only one, and the job has not been pushed since it was last queued.
-/

namespace Qubox.Sync

open Interaction

section Statement

/-- A push is the first since the job was queued, and the job is not done. -/
def PushesOnce (w : World) : Action → Prop
  | .startPush job _ => w.log.pushes job.jobId = 0 ∧ w.log.done job.jobId = false
  | _ => True

def PushesOnceMove (P : DrainPool) : DrainMove → Prop
  | .step i => ∀ a ∈ P.next? (.step i : DrainMove), PushesOnce P.shared a
  | _ => True

/-- The job of a loop that is about to push. -/
def aboutToPush? (t : Thread signature PushError Call) : Option JobId :=
  match t.next? with
  | some (.startPush job _) => some job.jobId
  | _ => none

/-- The job that a request writes, if it writes one. -/
def written? (w : World) : SyncRequest → Option JobId
  | .syncUpdateJob jobId _ _ => some jobId
  | .syncRetryJob jobId => some jobId
  | .syncPushNow _ _ _ => some w.env.daemon.newJobId
  | .syncFileChanged _ _ _ _ => some w.env.daemon.newJobId
  | _ => none

/-- A mark is set on a pending job, and a job that is done is not put back into
the queue except by a retry. -/
def RightfulStatus (w : World) : SyncRequest → Prop
  | .syncUpdateJob jobId .inFlight lastError =>
      w.Effective (.syncUpdateJob jobId .inFlight lastError) ∧
        ∃ job ∈ w.db.outbox.get jobId, job.Pending
  | .syncUpdateJob jobId .failed _ => ∀ job ∈ w.db.outbox.get jobId, job.status ≠ .done
  | .syncUpdateJob jobId .queued _ => ∀ job ∈ w.db.outbox.get jobId, job.status ≠ .done
  | _ => True

def RightfulRequest (P : DrainPool) (i : Nat) : Action → Prop
  | .call request => RightfulStatus P.shared request ∧
      ∀ jobId ∈ written? P.shared request, ∀ t ∈ P.threads.eraseIdx i,
        aboutToPush? t ≠ some jobId
  | _ => True

def Rightful (P : DrainPool) : DrainMove → Prop
  | .step i => ∀ a ∈ P.next? (.step i : DrainMove), RightfulRequest P i a
  | _ => True

end Statement

/-! ## A push follows its mark -/

inductive Phase where
  | free
  | marked (jobId : JobId)
  deriving DecidableEq

namespace Phase

def Allows : Phase → Action → Prop
  | .free, .startPush _ _ => False
  | .free, _ => True
  | .marked jobId, .startPush job _ => job.jobId = jobId
  | .marked _, _ => False

def after : Phase → (a : Action) → a.Answer → Phase
  | _, .call (.syncUpdateJob jobId .inFlight _), _ => .marked jobId
  | _, _, _ => .free

end Phase

def marking : Protocol signature Phase where
  allows := Phase.Allows
  expects _ _ _ := True
  after := Phase.after

section Program

variable {blake3 : Bytes → BitVec 256}

/-- A report leaves no mark. -/
theorem notify_unmarked {request : SyncRequest}
    (unmarked : ∀ r, Phase.after .free (.call request) r = .free) :
    Stays marking .free (notify request) :=
  ⟨trivial, fun r _ => unmarked r⟩

/-- A push is marked before, and leaves no mark. -/
theorem pushJob_marks (job : OutboxJob) (tf : TrackedFile) :
    Stays marking .free (pushJob blake3 job tf) := by
  refine ⟨trivial, fun marked _ => ⟨rfl, fun _ _ => ?_⟩⟩
  have plain : (pushFileOverConnection blake3 tf.localPath tf.fileId
      (relativeName tf.localPath)).Upholds _ _ _ := pushFileOverConnection_plain _ _ _
  have push := plain.mono (fun _ _ => id)
    (fun a plain => (show marking.allows .free a ∧ ∀ r, marking.after .free a r = .free from ?_))
    (fun _ => id)
  · refine (Program.Upholds.conforms_attempt push).bind ?_
    rintro _ pushed rfl
    cases pushed with
    | ok sent => exact ⟨trivial, fun _ _ => notify_unmarked fun _ => rfl⟩
    | error e => exact notify_unmarked fun _ => rfl
  · cases a with
    | startPush job tf | call request => exact plain.elim
    | _ => exact ⟨trivial, fun _ => rfl⟩

theorem idle_unmarked (a : Action) (idle : Idle a) :
    marking.allows .free a ∧ ∀ r, marking.after .free a r = .free := by
  cases a with
  | call request =>
      cases request with
      | syncUpdateJob jobId status lastError =>
          cases status with
          | failed => exact ⟨trivial, fun _ => rfl⟩
          | _ => exact idle.elim
      | syncDrainReady => exact ⟨trivial, fun _ => rfl⟩
      | _ => exact idle.elim
  | startPush job tf => exact idle.elim
  | _ => exact ⟨trivial, fun _ => rfl⟩

theorem body_conforms (call : Call) :
    (call.body blake3).Conforms marking (fun _ _ => True) .free := by
  cases call with
  | drain side peerHint rounds =>
      have loop : Stays marking .free (outboxDrain blake3 side peerHint rounds) :=
        outboxDrain_stays idle_unmarked (fun job tf _ => pushJob_marks job tf) rounds
      exact loop.imp fun _ _ _ => trivial
  | request request => exact ⟨trivial, fun _ _ => trivial⟩

end Program

/-! ## What a request does to the jobs -/

/-- What the database holds of a job and what the log knows of it. -/
structure JobView where
  stored : Option OutboxJob
  pushes : Nat
  done : Bool

def World.job (w : World) (jobId : JobId) : JobView :=
  ⟨w.db.outbox.get jobId, w.log.pushes jobId, w.log.done jobId⟩

/-- The same jobs with the same past. -/
structure SameJobs (w w' : World) : Prop where
  outbox : w'.db.outbox = w.db.outbox
  pushes : w'.log.pushes = w.log.pushes
  done : w'.log.done = w.log.done

theorem SameJobs.job {w w' : World} (same : SameJobs w w') (jobId : JobId) :
    w'.job jobId = w.job jobId := by
  rw [World.job, same.outbox, same.pushes, same.done]
  rfl

/-- Everything a served request can do to the jobs: nothing, a job is dismissed,
a job is put into the queue, or the status of a job is set. -/
theorem serve_jobs (w : World) (request : SyncRequest) :
    SameJobs w (w.serve request).2 ∨
    (∃ jobId, (w.serve request).2.db.outbox = w.db.outbox.remove jobId ∧
      (w.serve request).2.log = w.log) ∨
    (∃ job, written? w request = some job.jobId ∧ job.status = .queued ∧
      (w.serve request).2.db.outbox = w.db.outbox.put job ∧
      (w.serve request).2.log = w.log.enqueue job.jobId) ∨
    (∃ job old lastError, request = .syncUpdateJob job.jobId job.status lastError ∧
      w.db.outbox.get job.jobId = some old ∧
      (w.serve request).2.db.outbox = w.db.outbox.put job ∧
      (w.serve request).2.log = w.log.note request (.syncJob job)) := by
  cases request with
  | syncDismissJob jobId => exact .inr (.inl ⟨jobId, rfl, rfl⟩)
  | syncUpdateJob jobId status lastError =>
      simp only [World.serve, Database.serve, Database.updateJob]
      cases found : w.db.outbox.get jobId with
      | none => exact .inl ⟨rfl, by cases status <;> rfl, by cases status <;> rfl⟩
      | some old =>
          obtain rfl := Records.key_of_get found
          exact .inr (.inr (.inr ⟨old.updated status lastError, old, lastError, rfl, found, rfl, rfl⟩))
  | syncRetryJob jobId =>
      simp only [World.serve, Database.serve, Database.retryOutboxJob]
      cases found : w.db.outbox.get jobId with
      | none => exact .inl ⟨rfl, rfl, rfl⟩
      | some old =>
          obtain rfl := Records.key_of_get found
          exact .inr (.inr (.inl ⟨old.retried, rfl, rfl, rfl, rfl⟩))
  | syncPushNow localPath targetPeer nodeId =>
      simp only [World.serve, Database.serve, Database.enqueueManualPush]
      split
      · exact .inl ⟨rfl, rfl, rfl⟩
      · exact .inr (.inr (.inl ⟨_, rfl, rfl, rfl, rfl⟩))
  | syncFileChanged localPath ruleId nodeId targetPeer =>
      have ignores := w.db.getGlobalIgnores_outbox
      simp only [World.serve, Database.serve, Database.fileChanged]
      split
      · exact .inl ⟨ignores, rfl, rfl⟩
      · split
        · exact .inl ⟨ignores, rfl, rfl⟩
        · split
          · split
            · exact .inl ⟨ignores, rfl, rfl⟩
            · split
              · exact .inl ⟨ignores, rfl, rfl⟩
              · exact .inr (.inr (.inl ⟨_, rfl, rfl, congrArg (Records.put · _) ignores, rfl⟩))
          · exact .inr (.inr (.inl ⟨_, rfl, rfl, congrArg (Records.put · _) ignores, rfl⟩))
  | syncSetEnabled ruleId enabled =>
      simp only [World.serve, Database.serve, Database.setSyncRuleEnabled]
      split <;> exact .inl ⟨rfl, rfl, rfl⟩
  | syncResolveConflict conflictId resolution =>
      simp only [World.serve, Database.serve, Database.resolveSyncConflict]
      split
      · exact .inl ⟨rfl, rfl, rfl⟩
      · split <;> exact .inl ⟨rfl, rfl, rfl⟩
  | syncSetLock fileId locked =>
      simp only [World.serve, Database.serve, Database.setLock]
      split <;> exact .inl ⟨rfl, rfl, rfl⟩
  | syncListIgnores => exact .inl ⟨w.db.getGlobalIgnores_outbox, rfl, rfl⟩
  | syncAddIgnore pattern =>
      refine .inl ⟨?_, rfl, rfl⟩
      have ignores := w.db.getGlobalIgnores_outbox
      simp only [World.serve, Database.serve, Database.addGlobalIgnore]
      split <;> exact ignores
  | syncRemoveIgnore pattern => exact .inl ⟨w.db.getGlobalIgnores_outbox, rfl, rfl⟩
  | syncApplyIgnorePreset name =>
      have ignores := w.db.getGlobalIgnores_outbox
      simp only [World.serve, Database.serve, Database.applyIgnorePreset]
      split
      · exact .inl ⟨rfl, rfl, rfl⟩
      · exact .inl ⟨ignores, rfl, rfl⟩
  | syncAddRule rule | syncRemoveRule ruleId | syncListRules | syncListJobs | syncListConflicts
  | syncListTrackedFiles | syncSetIgnores patterns | syncDrainReady => exact .inl ⟨rfl, rfl, rfl⟩

/-- The same for one job. -/
theorem serve_job (w : World) (request : SyncRequest) (jobId : JobId) :
    (w.serve request).2.job jobId = w.job jobId ∨
    (w.serve request).2.job jobId = { w.job jobId with stored := none } ∨
    (written? w request = some jobId ∧
      ∃ job : OutboxJob, job.status = .queued ∧ (w.serve request).2.job jobId = ⟨some job, 0, false⟩) ∨
    (∃ (old job : OutboxJob) (lastError : Option String),
      request = .syncUpdateJob jobId job.status lastError ∧ w.db.outbox.get jobId = some old ∧
      (w.serve request).2.job jobId = match job.status with
        | .inFlight => { w.job jobId with stored := some job }
        | .done => { w.job jobId with stored := some job, done := true }
        | _ => { w.job jobId with stored := some job, pushes := 0 }) := by
  rcases serve_jobs w request with same | ⟨gone, outbox, log⟩ | ⟨job, written, queued, outbox, log⟩ |
      ⟨job, old, lastError, rfl, found, outbox, log⟩
  · exact .inl (same.job jobId)
  · by_cases same : jobId = gone
    · exact .inr (.inl (by simp [World.job, outbox, log, same]))
    · exact .inl (by simp [World.job, outbox, log, same])
  · by_cases same : jobId = job.jobId
    · subst same
      refine .inr (.inr (.inl ⟨written, job, queued, ?_⟩))
      simp [World.job, outbox, log, Log.enqueue, Log.requeue]
    · refine .inl ?_
      simp [World.job, outbox, log, Log.enqueue, Log.requeue, same]
  · by_cases same : jobId = job.jobId
    · subst same
      refine .inr (.inr (.inr ⟨old, job, lastError, rfl, found, ?_⟩))
      simp only [World.job, outbox, log, Records.get_put, if_true]
      cases job.status <;> simp [Log.note, Log.requeue, Log.finish]
    · refine .inl ?_
      simp only [World.job, outbox, log, Records.get_put, same, if_false]
      cases job.status <;> simp [Log.note, Log.requeue, Log.finish, same]

/-! ## One step -/

/-- A pending job has not been pushed, and a job that is not done has not been
done since it was last asked for. -/
structure Accounted (v : JobView) : Prop where
  fresh : ∀ job ∈ v.stored, job.Pending → v.pushes = 0
  undone : ∀ job ∈ v.stored, job.status ≠ .done → v.done = false

/-- The job may be pushed, and no loop finds it pending. -/
structure Ready (v : JobView) : Prop where
  unpushed : v.pushes = 0
  undone : v.done = false
  taken : ∀ job ∈ v.stored, ¬ job.Pending

theorem OutboxJob.Pending.ne_done {job : OutboxJob} (pending : job.Pending) :
    job.status ≠ .done := by
  rcases pending with queued | failed
  · simp [queued]
  · simp [failed]

theorem not_pending_of_inFlight {job : OutboxJob} (taken : job.status = .inFlight) :
    ¬ job.Pending := by
  simp [OutboxJob.Pending, taken]

section Request

variable {w : World} {request : SyncRequest} {jobId : JobId}

theorem Accounted.serve (h : Accounted (w.job jobId)) (rightful : RightfulStatus w request) :
    Accounted ((w.serve request).2.job jobId) := by
  rcases serve_job w request jobId with same | gone | ⟨-, job, queued, now⟩ |
      ⟨old, job, lastError, rfl, found, now⟩
  · rw [same]
    exact h
  · rw [gone]
    exact ⟨nofun, nofun⟩
  · rw [now]
    exact ⟨fun _ _ _ => rfl, fun _ _ _ => rfl⟩
  · have before (different : old.status ≠ .done) : w.log.done jobId = false :=
      h.undone old found different
    rw [now]
    cases status : job.status with
    | queued | failed =>
        rw [status] at rightful
        exact ⟨fun _ _ _ => rfl, fun _ _ _ => before (rightful old found)⟩
    | inFlight =>
        rw [status] at rightful
        obtain ⟨-, _, there, pending⟩ := rightful
        obtain rfl : old = _ := Option.some.inj (found.symm.trans there)
        refine ⟨fun other same waiting => ?_, fun _ _ _ => before pending.ne_done⟩
        obtain rfl := Option.some.inj same
        exact absurd waiting (not_pending_of_inFlight status)
    | done =>
        refine ⟨fun other same waiting => ?_, fun other same different => ?_⟩
        · obtain rfl := Option.some.inj same
          exact absurd status waiting.ne_done
        · obtain rfl := Option.some.inj same
          exact absurd status different

theorem Ready.serve (h : Ready (w.job jobId)) (other : written? w request ≠ some jobId) :
    Ready ((w.serve request).2.job jobId) := by
  rcases serve_job w request jobId with same | gone | ⟨written, -⟩ |
      ⟨old, job, lastError, rfl, found, now⟩
  · rw [same]
    exact h
  · rw [gone]
    exact ⟨h.unpushed, h.undone, nofun⟩
  · exact absurd written other
  · exact absurd rfl other

/-- A rightful mark leaves the job to the loop that sets it. -/
theorem ready_of_mark (h : Accounted (w.job jobId)) {lastError : Option String}
    (rightful : RightfulStatus w (.syncUpdateJob jobId .inFlight lastError)) :
    Ready ((w.serve (.syncUpdateJob jobId .inFlight lastError)).2.job jobId) := by
  obtain ⟨-, old, found, pending⟩ := rightful
  have key := Records.key_of_get found
  have unpushed : w.log.pushes jobId = 0 := h.fresh old found pending
  have undone : w.log.done jobId = false := h.undone old found pending.ne_done
  have found : w.db.outbox.get jobId = some old := found
  have stored : ((w.serve (.syncUpdateJob jobId .inFlight lastError)).2.job jobId).stored =
      some (old.updated .inFlight lastError) := by
    simp only [World.job, World.serve, Database.serve, Database.updateJob, found,
      Database.putOutboxJob, Records.get_put]
    exact if_pos key.symm
  refine ⟨?_, ?_, fun job there => ?_⟩
  · simpa [World.job, World.serve, Database.serve, Database.updateJob, found, Log.note] using unpushed
  · simpa [World.job, World.serve, Database.serve, Database.updateJob, found, Log.note] using undone
  · obtain rfl := Option.some.inj (stored.symm.trans there)
    exact not_pending_of_inFlight rfl

theorem Accounted.ask (h : Accounted (w.job jobId)) (rightful : RightfulStatus w request) :
    Accounted ((w.ask request).2.job jobId) := by
  rcases w.ask_cases request with ⟨-, served⟩ | ⟨-, same⟩
  · rw [served]
    exact h.serve rightful
  · rw [same]
    exact h

theorem Ready.ask (h : Ready (w.job jobId)) (other : written? w request ≠ some jobId) :
    Ready ((w.ask request).2.job jobId) := by
  rcases w.ask_cases request with ⟨-, served⟩ | ⟨-, same⟩
  · rw [served]
    exact h.serve other
  · rw [same]
    exact h

end Request

section Step

variable {P : DrainPool} {i : Nat}

theorem marked_of_about {t : Thread signature PushError Call} {phase : Phase}
    (conforms : t.rest.Conforms marking (fun _ _ => True) phase) {jobId : JobId}
    (about : aboutToPush? t = some jobId) : phase = .marked jobId := by
  obtain ⟨c, rest⟩ := t
  cases rest with
  | done u | fail e => cases about
  | act a k =>
      cases a with
      | startPush job tf =>
          obtain rfl : job.jobId = jobId := Option.some.inj about
          cases phase with
          | free => exact conforms.1.elim
          | marked other => exact congrArg Phase.marked (Eq.symm conforms.1)
      | _ => cases about

theorem mark_of_after {phase : Phase} {a : Action} {r : a.Answer} {jobId : JobId}
    (marked : phase.after a r = .marked jobId) :
    ∃ lastError, a = .call (.syncUpdateJob jobId .inFlight lastError) := by
  unfold Phase.after at marked
  split at marked
  · cases marked
    exact ⟨_, rfl⟩
  · cases marked

end Step

/-- A push of a job that is ready. -/
theorem Accounted.push {w : World} (h : ∀ jobId, Accounted (w.job jobId)) {job : OutboxJob}
    (ready : Ready (w.job job.jobId)) (tf : TrackedFile) (jobId : JobId) :
    Accounted ((World.exec (.startPush job tf) w).2.job jobId) := by
  refine ⟨fun stored there pending => ?_, (h jobId).undone⟩
  by_cases same : jobId = job.jobId
  · subst same
    exact absurd pending (ready.taken stored there)
  · simpa [World.job, World.exec, Log.push, same] using (h jobId).fresh stored there pending

theorem Ready.push {w : World} {jobId : JobId} (h : Ready (w.job jobId)) {job : OutboxJob}
    (other : job.jobId ≠ jobId) (tf : TrackedFile) :
    Ready ((World.exec (.startPush job tf) w).2.job jobId) := by
  refine ⟨?_, h.undone, h.taken⟩
  simpa [World.job, World.exec, Log.push, Ne.symm other] using h.unpushed

/-! ## Every schedule -/

section Schedule

variable {blake3 : Bytes → BitVec 256} {P : DrainPool}

/-- A thread follows the marking protocol, and the job it is about to push is
ready. -/
def Prepared (w : World) (phase : Phase) (t : Thread signature PushError Call) : Prop :=
  t.rest.Conforms marking (fun _ _ => True) phase ∧
    ∀ jobId, aboutToPush? t = some jobId → Ready (w.job jobId)

def Claimed (P : DrainPool) : Prop :=
  System.HoldsApart (fun w => ∀ jobId, Accounted (w.job jobId)) Prepared
    (fun _ => aboutToPush?) P

theorem Prepared.same {w w' : World} (same : SameJobs w w') {phase : Phase}
    {t : Thread signature PushError Call} (h : Prepared w phase t) : Prepared w' phase t := by
  refine ⟨h.1, fun jobId about => ?_⟩
  rw [same.job]
  exact h.2 jobId about

/-- A call begins without a claim. -/
theorem call_prepared (w : World) (c : Call) :
    Prepared w .free ⟨c, c.body blake3⟩ ∧ aboutToPush? ⟨c, c.body blake3⟩ = none := by
  have conforms : (c.body blake3).Conforms marking _ .free := body_conforms c
  have unclaimed : aboutToPush? ⟨c, c.body blake3⟩ = none := by
    cases about : aboutToPush? ⟨c, c.body blake3⟩ with
    | none => rfl
    | some jobId => cases marked_of_about (t := ⟨c, c.body blake3⟩) conforms about
  refine ⟨⟨conforms, fun jobId about => ?_⟩, unclaimed⟩
  exact absurd (unclaimed.symm.trans about) (by simp)

/-- An action counts no push and claims no job, or it is a request or a push. -/
theorem Claimed.move (h : Claimed P) (m : DrainMove) (rightful : Rightful P m) :
    Claimed ((drains blake3).move P m) := by
  refine System.HoldsApart.move (drains blake3) h (fun c _ => ⟨.free, call_prepared P.shared c⟩)
    (fun env _ => ⟨h.shared, fun phase t prepared => prepared.same ⟨rfl, rfl, rfl⟩⟩)
    fun i c a k phase move found prepared => ?_
  subst move
  have rightful := rightful a (Pool.next?_step found)
  obtain ⟨conforms, ready⟩ := prepared
  have next : (k (World.exec a P.shared).1).Conforms marking (fun _ _ => True)
      (phase.after a (World.exec a P.shared).1) := conforms.2 _ trivial
  have mark (jobId : JobId)
      (about : aboutToPush? ⟨c, k (World.exec a P.shared).1⟩ = some jobId) :
      ∃ lastError, a = .call (.syncUpdateJob jobId .inFlight lastError) :=
    mark_of_after (marked_of_about (t := ⟨c, k (World.exec a P.shared).1⟩) next about)
  rcases World.exec_cases a with ⟨request, rfl⟩ | ⟨job, tf, rfl⟩ | ⟨notCall, quiet⟩
  · obtain ⟨status, alone⟩ := rightful
    refine ⟨fun jobId => (h.shared jobId).ask status, _, ⟨next, fun jobId about => ?_⟩,
      fun _ u other prepared _ => ⟨⟨prepared.1, fun jobId about => ?_⟩, fun jobId about => ?_⟩⟩
    · obtain ⟨lastError, same⟩ := mark jobId about
      cases same
      have effective : P.shared.Effective (.syncUpdateJob jobId .inFlight lastError) := status.1
      change Ready ((P.shared.ask _).2.job jobId)
      rw [effective.ask]
      exact ready_of_mark (h.shared jobId) status
    · exact (prepared.2 jobId about).ask fun written => alone jobId written u other about
    · obtain ⟨lastError, same⟩ := mark jobId about
      cases same
      exact alone jobId rfl u other
  · refine ⟨Accounted.push h.shared (ready job.jobId rfl) tf, _, ⟨next, fun jobId about => ?_⟩,
      fun _ u other prepared apart => ⟨⟨prepared.1, fun jobId about => ?_⟩, fun jobId about => ?_⟩⟩
    · obtain ⟨lastError, same⟩ := mark jobId about
      cases same
    · refine (prepared.2 jobId about).push (fun same => ?_) tf
      exact apart job.jobId rfl (same ▸ about)
    · obtain ⟨lastError, same⟩ := mark jobId about
      cases same
  · have same : SameJobs P.shared (World.exec a P.shared).2 := by
      obtain ⟨db, log⟩ := quiet P.shared
      exact ⟨by rw [db], by rw [log], by rw [log]⟩
    refine ⟨fun jobId => ?_, _, ⟨next, fun jobId about => ?_⟩,
      fun _ u other prepared _ => ⟨prepared.same same, fun jobId about => ?_⟩⟩
    · change Accounted ((World.exec a P.shared).2.job jobId)
      rw [same.job]
      exact h.shared jobId
    · obtain ⟨lastError, call⟩ := mark jobId about
      exact absurd call (notCall _)
    · obtain ⟨lastError, call⟩ := mark jobId about
      exact absurd call (notCall _)

/-- No job of an untouched database is claimed. -/
theorem untouched_claimed (db : Database) (env : DrainEnv) : Claimed (untouched db env) := by
  refine ⟨fun jobId => ⟨fun _ _ _ => rfl, fun job there different => ?_⟩, fun _ => .free, ?_, ?_⟩
  · have stored : db.outbox.get jobId = some job := there
    change (db.outbox.get jobId).any (fun job => job.status = .done) = false
    simpa [stored] using different
  · intro i t found
    cases found
  · intro i j t u c found
    cases found

theorem Claimed.pushesOnce (h : Claimed P) (m : DrainMove) : PushesOnceMove P m := by
  cases m with
  | call c | disturb env => trivial
  | step i =>
      intro a next
      obtain ⟨t, found, next⟩ := Option.bind_eq_some_iff.mp next
      cases a with
      | startPush job tf =>
          have about : aboutToPush? t = some job.jobId := by
            rw [aboutToPush?, next]
          obtain ⟨phase, prepared⟩ := h.of_mem (List.mem_of_getElem? found)
          have ready := prepared.2 job.jobId about
          exact ⟨ready.unpushed, ready.undone⟩
      | _ => trivial

/-- A job is pushed at most once between two moments at which it is put into the
queue, and never once it is done unless it is asked for again. -/
theorem pushesOnce_of_rightful (db : Database) (env : DrainEnv) {moves : List DrainMove}
    (rightful : (drains blake3).Along Rightful (untouched db env) moves) :
    (drains blake3).Along PushesOnceMove (untouched db env) moves := by
  exact System.Along.imp (drains blake3) (fun P m ok h => h.move m ok)
    (fun P m _ h => h.pushesOnce m) (untouched_claimed db env) rightful

end Schedule

/-! ## Two loops on one job -/

instance decidablePushesOnce (w : World) : ∀ a, Decidable (PushesOnce w a)
  | .startPush job _ =>
      inferInstanceAs (Decidable (w.log.pushes job.jobId = 0 ∧ w.log.done job.jobId = false))
  | .closeReason | .connect | .call _ | .readTracked _ | .isFile _ | .pushed _ _ _ | .readFile _
  | .openUni | .write _ _ | .openFile _ | .copy _ _ | .finish _ => isTrue trivial

instance (P : DrainPool) : ∀ m, Decidable (PushesOnceMove P m)
  | .step _ => Option.decidableForallMem _
  | .call _ | .disturb _ => isTrue trivial

instance decidableRightfulStatus (w : World) : ∀ request, Decidable (RightfulStatus w request)
  | .syncUpdateJob jobId .inFlight lastError =>
      haveI : Decidable (∃ job ∈ w.db.outbox.get jobId, job.Pending) := Option.decidableExistsMem _
      inferInstanceAs (Decidable (w.Effective (.syncUpdateJob jobId .inFlight lastError) ∧
        ∃ job ∈ w.db.outbox.get jobId, job.Pending))
  | .syncUpdateJob _ .failed _ | .syncUpdateJob _ .queued _ => Option.decidableForallMem _
  | .syncUpdateJob _ .done _ | .syncAddRule _ | .syncRemoveRule _ | .syncListRules
  | .syncSetEnabled _ _ | .syncListJobs | .syncListConflicts | .syncResolveConflict _ _
  | .syncListTrackedFiles | .syncPushNow _ _ _ | .syncSetLock _ _ | .syncFileChanged _ _ _ _
  | .syncListIgnores | .syncSetIgnores _ | .syncAddIgnore _ | .syncRemoveIgnore _
  | .syncApplyIgnorePreset _ | .syncDrainReady | .syncRetryJob _ | .syncDismissJob _ => isTrue trivial

instance decidableRightfulRequest (P : DrainPool) (i : Nat) :
    ∀ a, Decidable (RightfulRequest P i a)
  | .call request =>
      haveI : Decidable (∀ jobId ∈ written? P.shared request, ∀ t ∈ P.threads.eraseIdx i,
          aboutToPush? t ≠ some jobId) := Option.decidableForallMem _
      inferInstanceAs (Decidable (RightfulStatus P.shared request ∧
        ∀ jobId ∈ written? P.shared request, ∀ t ∈ P.threads.eraseIdx i,
          aboutToPush? t ≠ some jobId))
  | .closeReason | .connect | .readTracked _ | .isFile _ | .startPush _ _ | .pushed _ _ _
  | .readFile _ | .openUni | .write _ _ | .openFile _ | .copy _ _ | .finish _ => isTrue trivial

instance (P : DrainPool) : ∀ m, Decidable (Rightful P m)
  | .step _ => Option.decidableForallMem _
  | .call _ | .disturb _ => isTrue trivial

namespace Sample

/-- Both loops list the job before either works on it. -/
def bothList : List DrainMove :=
  [.call (.drain .host "peer" 1), .call (.drain .host "peer" 1)] ++ steps 0 3 ++ steps 1 3 ++
    steps 0 13 ++ steps 1 4

theorem bothList_not_pushesOnce :
    ¬ (drains noHash).Along PushesOnceMove (untouched oneJob calm) bothList := by
  decide

/-- The second loop lists the job after a retry. -/
def retryBetween : List DrainMove :=
  [.call (.drain .host "peer" 1)] ++ steps 0 16 ++ [.call (.request (.syncRetryJob "job-1"))] ++
    steps 1 1 ++ [.call (.drain .client "peer" 1)] ++ steps 2 16

theorem retryBetween_pushesOnce :
    (drains noHash).Along PushesOnceMove (untouched oneJob calm) retryBetween :=
  pushesOnce_of_rightful oneJob calm (by decide)

end Sample

end Qubox.Sync
