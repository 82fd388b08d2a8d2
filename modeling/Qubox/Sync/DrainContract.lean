import Qubox.Library.Protocol
import Qubox.Sync.Drain

/-!
# The contract of a loop

Between two pushes a loop of either side only asks and reports. A protocol that
these actions do not disturb is kept by the whole loop, if it is kept by the
push of one job whose file the loop has found.
-/

namespace Qubox.Sync

open Interaction

variable {blake3 : Bytes → BitVec 256}

/-- Neither a push, nor the end of one, nor a request. -/
def Plain : Action → Prop
  | .startPush _ _ => False
  | .pushed _ _ _ => False
  | .call _ => False
  | _ => True

theorem orFail_plain {α : Type} (r : Except FileSync.IoError α) :
    (orFail r).Upholds (fun _ _ => True) Plain (fun _ => True) := by
  cases r <;> trivial

theorem hashFileStreaming_plain (path : String) :
    (hashFileStreaming blake3 path).Upholds (fun _ _ => True) Plain (fun _ => True) := by
  refine ⟨trivial, fun read _ => (orFail_plain read).bind fun content _ => ?_⟩
  split <;> trivial

theorem sendFileBulk_plain (stream : Nat) (header : FileSync.FileTransferHeader) (path : String) :
    (sendFileBulk stream header path).Upholds (fun _ _ => True) Plain (fun _ => True) := by
  rw [sendFileBulk]
  split
  · trivial
  · refine ⟨trivial, fun wrote _ => (orFail_plain wrote).bind fun _ _ => ?_⟩
    refine ⟨trivial, fun opened _ => (orFail_plain opened).bind fun _ _ => ?_⟩
    refine ⟨trivial, fun copied _ => (orFail_plain copied).bind fun _ _ => ?_⟩
    split
    · trivial
    · exact ⟨trivial, fun finished _ => orFail_plain finished⟩

theorem pushFileOverConnection_plain (path : String) (fileId : FileId) (relativePath : String) :
    (pushFileOverConnection blake3 path fileId relativePath).Upholds (fun _ _ => True) Plain
      (fun _ => True) := by
  rw [pushFileOverConnection]
  split
  · trivial
  · split
    · trivial
    · refine (hashFileStreaming_plain path).bind fun hashed _ => ?_
      refine ⟨trivial, fun opened _ => (orFail_plain opened).bind fun stream _ => ?_⟩
      refine ⟨trivial, fun wrote _ => (orFail_plain wrote).bind fun _ _ => ?_⟩
      exact (sendFileBulk_plain stream _ path).bind fun _ _ => trivial

section Loop

variable {Φ : Type} {A : Protocol signature Φ} {phase : Φ} {side : Side} {peerHint : String}

/-- An action of a loop outside of the push of a job. -/
def Idle : Action → Prop
  | .closeReason => True
  | .connect => True
  | .call .syncDrainReady => True
  | .call (.syncUpdateJob _ .failed _) => True
  | .readTracked _ => True
  | .isFile _ => True
  | _ => False

/-- What a loop knows of a tracked file when it decides to push it. -/
def Found (A : Protocol signature Φ) (phase : Φ) (job : OutboxJob) (tf : TrackedFile) :
    Side → Prop
  | .host => trackedFilePushable tf = true
  | .client => A.expects phase (.readTracked job.fileId) (.ok (some tf))

/-- The program leaves the phase as it is. -/
abbrev Stays (A : Protocol signature Φ) (phase : Φ) (p : Program signature PushError Unit) : Prop :=
  p.Conforms A (fun later _ => later = phase) phase

theorem Stays.bind {p : Program signature PushError Unit}
    {f : Unit → Program signature PushError Unit} (first : Stays A phase p)
    (second : Stays A phase (f ())) : Stays A phase (p >>= f) := by
  refine Program.Conforms.bind first ?_
  rintro _ ⟨⟩ rfl
  exact second

/-- An idle action, after which the program goes on in the same phase. -/
theorem stays_act (idle : ∀ a, Idle a → A.allows phase a ∧ ∀ r, A.after phase a r = phase)
    {a : Action} (known : Idle a) {k : a.Answer → Program signature PushError Unit}
    (next : ∀ r, A.expects phase a r → Stays A phase (k r)) :
    Stays A phase (.act a k) := by
  refine ⟨(idle a known).1, fun r expected => ?_⟩
  rw [(idle a known).2 r]
  exact next r expected

variable (idle : ∀ a, Idle a → A.allows phase a ∧ ∀ r, A.after phase a r = phase)

include idle in
theorem notify_failed_stays (jobId : JobId) (lastError : Option String) :
    Stays A phase (notify (.syncUpdateJob jobId .failed lastError)) :=
  stays_act idle (by trivial) fun _ _ => rfl

section Job

variable (push : ∀ job tf, Found A phase job tf side → Stays A phase (pushJob blake3 job tf))
include idle push

theorem hostPush_stays (host : side = .host) (job : OutboxJob) (tf : TrackedFile) :
    Stays A phase (hostPush blake3 job tf) := by
  subst host
  rw [hostPush]
  split
  case isTrue => rfl
  case isFalse pushable =>
    refine stays_act idle (by trivial) fun found _ => ?_
    cases found with
    | false => exact notify_failed_stays idle job.jobId _
    | true => exact push job tf (by simpa [Found] using pushable)

theorem hostJob_stays (host : side = .host) (job : OutboxJob) :
    Stays A phase (hostJob blake3 peerHint job) := by
  rw [hostJob]
  split
  · rfl
  · refine stays_act idle (by trivial) fun read _ => ?_
    cases read with
    | error e => exact notify_failed_stays idle job.jobId _
    | ok file =>
        cases file with
        | none => exact notify_failed_stays idle job.jobId _
        | some tf => exact hostPush_stays idle push host job tf

theorem clientJob_stays (client : side = .client) (job : OutboxJob) :
    Stays A phase (clientJob blake3 peerHint job) := by
  subst client
  rw [clientJob]
  split
  · rfl
  · refine stays_act idle (by trivial) fun read expected => ?_
    cases read with
    | error e => rfl
    | ok file =>
        cases file with
        | none => rfl
        | some tf =>
            refine stays_act idle (by trivial) fun found _ => ?_
            cases found with
            | false => rfl
            | true => exact push job tf expected

theorem drainJobs_stays (jobs : List OutboxJob) :
    Stays A phase (drainJobs blake3 side peerHint jobs) := by
  induction jobs with
  | nil => rfl
  | cons job jobs ih =>
      have first : Stays A phase (drainJob blake3 side peerHint job) := by
        cases side with
        | host => exact hostJob_stays idle push rfl job
        | client => exact clientJob_stays idle push rfl job
      exact first.bind ih

/-- The rule for a loop. -/
theorem outboxDrain_stays (rounds : Nat) :
    Stays A phase (outboxDrain blake3 side peerHint rounds) := by
  induction rounds with
  | zero => rfl
  | succ rounds ih =>
      refine stays_act idle (by trivial) fun closed _ => ?_
      cases closed with
      | true => rfl
      | false =>
          refine stays_act idle (by trivial) fun connected _ => ?_
          cases connected with
          | error e => exact ih
          | ok u =>
              refine stays_act idle (by trivial) fun listed _ => ?_
              have round (jobs : List OutboxJob) : Stays A phase
                  (drainJobs blake3 side peerHint jobs >>= fun _ =>
                    outboxDrain blake3 side peerHint rounds) :=
                (drainJobs_stays idle push jobs).bind ih
              cases listed with
              | error e => exact ih
              | ok response =>
                  cases response with
                  | syncJobs jobs => exact round jobs
                  | _ => exact ih

end Job

end Loop

end Qubox.Sync
