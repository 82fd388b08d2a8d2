import Qubox.FileSync.Acceptance
import Qubox.Sync.DrainContract

/-!
# Done and delivered

A loop sets a job to done when it has finished the stream of the push. What the
peer makes of the stream it does not learn. The peers are given, one for each
stream; `Faithful` says of a step that the file that is copied still has the
announced hash, and of a push that has ended that its stream gets through to a
peer that takes files of this size and at which nothing goes wrong. Then every
push that ends in a job being done also ends in a receive that returns.
-/

namespace Qubox.Sync

open Interaction FileSync

section Statement

variable {Location : Type} [DecidableEq Location] (locate : String → Location)
  (blake3 : Bytes → BitVec 256) (peers : Nat → Peer Location)

/-- The header at the front of what has been sent. -/
def announced? (sent : Bytes) : Option FileTransferHeader :=
  (acceptFilesyncUni sent).bind fun stream =>
    match readHeader stream maxFilesyncBytes with
    | .ok (header, _) => some header
    | .error _ => none

/-- The peer gets all bytes, takes files of this size, and is not disturbed. -/
structure Receptive (peer : Peer Location) (header : FileTransferHeader) (sent : Bytes) : Prop where
  whole : sent.length ≤ peer.delivered
  cap : header.size.toNat ≤ peer.maxBytes
  favoured : ∃ destCanon, ∀ n v,
    Favours locate peer.destDir destCanon header.relativePath v (peer.meanwhile n v)

def FaithfulAction (w : World) : Action → Prop
  | .copy path stream => ∀ s ∈ w.streams[stream]?, ∀ header ∈ announced? s.sent,
      ∀ content ∈ (w.env.content path).toOption, blake3 content = header.blake3
  | .pushed _ stream header => ∀ s ∈ w.streams[stream]?, Receptive locate (peers stream) header s.sent
  | _ => True

def Faithful (P : DrainPool) (m : DrainMove) : Prop :=
  ∀ a ∈ P.next? m, FaithfulAction locate blake3 peers P.shared a

/-- The sender has finished the stream, and the peer's receive of it returns `Ok`
for that header. -/
def Arrives (w : World) (stream : Nat) (header : FileTransferHeader) : Prop :=
  ∃ s ∈ w.streams[stream]?, s.finished = true ∧ ∃ target installed,
    (peers stream).outcome locate blake3 s.sent = some (.ok (header, target, installed))

/-- The last push of the job has returned `Ok`, and what it has sent arrives. -/
def Delivered (w : World) (jobId : JobId) : Prop :=
  ∃ stream header, w.ended jobId = some (stream, header) ∧
    Arrives locate blake3 peers w stream header

/-- The job that a loop is about to set to done. -/
def setsDone? : Action → Call → Option JobId
  | .call (.syncUpdateJob jobId .done _), .drain _ _ _ => some jobId
  | _, _ => none

/-- Whenever a loop sets a job to done, its push is delivered. -/
def DeliveredMove (P : DrainPool) : DrainMove → Prop
  | .step i => ∀ t ∈ P.threads[i]?, ∀ a ∈ t.next?, ∀ jobId ∈ setsDone? a t.call,
      Delivered locate blake3 peers P.shared jobId
  | _ => True

end Statement

/-! ## What the peer makes of a truthful stream -/

/-- The header fits the bytes that follow it, and the checks of the push. -/
structure Announces (blake3 : Bytes → BitVec 256) (header : FileTransferHeader) (body : Bytes) :
    Prop where
  proper : header.Proper
  safe : validateRelativePath header.relativePath = .ok ()
  small : header.size.toNat ≤ maxFilesyncBytes
  length : body.length = header.size.toNat
  hash : blake3 body = header.blake3

theorem acceptFilesyncUni_envelope (stream : Bytes) :
    acceptFilesyncUni (filesyncEnvelope ++ stream) = some stream := by
  have two : filesyncEnvelope.length = 2 := rfl
  rw [acceptFilesyncUni, readExact_append two]
  exact if_pos rfl

theorem announced_header {header : FileTransferHeader} (proper : header.Proper)
    (small : header.size.toNat ≤ maxFilesyncBytes) (rest : Bytes) :
    announced? (filesyncEnvelope ++ (header.encode ++ rest)) = some header := by
  have fits : header.size.toNat ≤ min maxFilesyncBytes maxFilesyncBytes := by simpa using small
  rw [announced?, acceptFilesyncUni_envelope, Option.bind_some, readHeader_encode proper fits]

section Peer

variable {Location : Type} [DecidableEq Location] {locate : String → Location}
  {blake3 : Bytes → BitVec 256}

theorem outcome_of_receptive {peer : Peer Location} {header : FileTransferHeader} {body : Bytes}
    (announces : Announces blake3 header body)
    (receptive : Receptive locate peer header (filesyncEnvelope ++ (header.encode ++ body))) :
    ∃ target installed, peer.outcome locate blake3 (filesyncEnvelope ++ (header.encode ++ body)) =
      some (.ok (header, target, installed)) := by
  obtain ⟨destCanon, favoured⟩ := receptive.favoured
  have cap : header.size.toNat ≤ min peer.maxBytes maxFilesyncBytes :=
    Nat.le_min.mpr ⟨receptive.cap, announces.small⟩
  have succeeds : Succeeds locate peer.destDir destCanon header.relativePath _
      (recvFileBulk blake3 (header.encode ++ body) peer.destDir peer.maxBytes) peer.volume :=
    recvFileBulk_succeeds announces.proper announces.safe cap announces.length announces.hash
  refine ⟨UnixPath.join destCanon header.relativePath, body, ?_⟩
  rw [Peer.outcome, List.take_of_length_le receptive.whole, acceptFilesyncUni_envelope,
    Option.map_some]
  rcases succeeds.runUnder (fun change v => change v) peer.meanwhile favoured with
    ⟨result, v, ran, same, -⟩ | ⟨e, v, -, impossible⟩
  · rw [ran, same]
  · exact impossible.elim

end Peer

/-! ## What a push puts on its stream -/

inductive SendPhase where
  | free
  | sending (stream : Nat) (sent : Bytes)
  | finished (stream : Nat) (sent : Bytes)
  | ended (jobId : JobId)

namespace SendPhase

def stream? : SendPhase → Option Nat
  | .sending stream _ => some stream
  | .finished stream _ => some stream
  | _ => none

def append (bytes : Bytes) : SendPhase → SendPhase
  | .sending stream sent => .sending stream (sent ++ bytes)
  | _ => .free

def finish : SendPhase → SendPhase
  | .sending stream sent => .finished stream sent
  | _ => .free

/-- A thread that is not a loop may set a job to done whenever it likes. -/
def Allows (blake3 : Bytes → BitVec 256) (c : Call) : SendPhase → Action → Prop
  | phase, .write stream _ => ∃ sent, phase = .sending stream sent
  | phase, .copy _ stream => ∃ sent, phase = .sending stream sent
  | phase, .finish stream => ∃ sent, phase = .sending stream sent
  | phase, .pushed _ stream header => ∃ body, Announces blake3 header body ∧
      phase = .finished stream (filesyncEnvelope ++ (header.encode ++ body))
  | phase, .call (.syncUpdateJob jobId .done _) =>
      phase = .ended jobId ∨ ∃ request, c = .request request
  | _, _ => True

/-- What is copied has the hash that has been announced. -/
def Expects (blake3 : Bytes → BitVec 256) : SendPhase → (a : Action) → a.Answer → Prop
  | phase, .copy _ stream, .ok bytes => ∀ sent, phase = .sending stream sent →
      ∀ header ∈ announced? sent, blake3 bytes = header.blake3
  | _, _, _ => True

def after : SendPhase → (a : Action) → a.Answer → SendPhase
  | _, .openUni, .ok stream => .sending stream []
  | phase, .write _ bytes, .ok () => phase.append bytes
  | phase, .openFile _, _ => phase
  | phase, .copy _ _, .ok bytes => phase.append bytes
  | phase, .finish _, .ok () => phase.finish
  | _, .pushed job _ _, _ => .ended job.jobId
  | _, _, _ => .free

end SendPhase

def sending (blake3 : Bytes → BitVec 256) (c : Call) : Protocol signature SendPhase where
  allows := SendPhase.Allows blake3 c
  expects := SendPhase.Expects blake3
  after := SendPhase.after

section Program

variable {blake3 : Bytes → BitVec 256} {c : Call} {phase : SendPhase} {α β : Type}
  {r : Except IoError α}

theorem orFail_bind_sending {f : α → Program signature PushError β} {post : SendPhase → β → Prop}
    (h : ∀ a, r = .ok a → (f a).Conforms (sending blake3 c) post phase) :
    (orFail r >>= f).Conforms (sending blake3 c) post phase := by
  cases r with
  | ok a => exact h a rfl
  | error e => trivial

theorem hashFileStreaming_sends (path : String) :
    (hashFileStreaming blake3 path).Conforms (sending blake3 c) (fun later _ => later = .free)
      .free := by
  refine ⟨trivial, fun read _ => orFail_bind_sending fun content _ => ?_⟩
  split
  · trivial
  · rfl

theorem sendFileBulk_sends {stream : Nat} {header : FileTransferHeader} (path : String)
    (proper : header.Proper) (safe : validateRelativePath header.relativePath = .ok ()) :
    (sendFileBulk stream header path).Conforms (sending blake3 c)
      (fun later _ => ∃ body, Announces blake3 header body ∧
        later = .finished stream (filesyncEnvelope ++ (header.encode ++ body)))
      (.sending stream filesyncEnvelope) := by
  rw [sendFileBulk]
  split
  case isTrue => trivial
  case isFalse small =>
    have small : header.size.toNat ≤ maxFilesyncBytes := Nat.le_of_not_lt small
    refine ⟨⟨_, rfl⟩, fun wrote _ => orFail_bind_sending ?_⟩
    rintro _ rfl
    refine ⟨trivial, fun opened _ => orFail_bind_sending fun _ _ => ?_⟩
    refine ⟨⟨_, rfl⟩, fun copied hashed => orFail_bind_sending ?_⟩
    rintro body rfl
    split
    case isTrue => trivial
    case isFalse length =>
      refine ⟨⟨_, rfl⟩, fun finished _ => ?_⟩
      cases finished with
      | error e => trivial
      | ok u =>
          have length : body.length = header.size.toNat := not_not.mp length
          have front := announced_header proper small []
          rw [List.append_nil] at front
          have hash : blake3 body = header.blake3 := hashed _ rfl header front
          refine ⟨body, ⟨proper, safe, small, length, hash⟩, ?_⟩
          rw [← List.append_assoc]
          rfl

theorem size_of_safe {relativePath : String} (safe : validateRelativePath relativePath = .ok ()) :
    relativePath.utf8ByteSize ≤ maxRelPathBytes := by
  by_contra long
  rw [validateRelativePath] at safe
  split at safe
  · cases safe
  · rw [if_pos (Nat.lt_of_not_le long)] at safe
    cases safe

theorem proper_of_checked {fileId : FileId} {relativePath : String}
    (safe : validateRelativePath relativePath = .ok ())
    (named : ¬ (fileId = "" ∨ fileId.utf8ByteSize > maxFileIdBytes ∨
      fileId.toList.contains (Char.ofNat 0))) (size : UInt64) (digest : BitVec 256) :
    FileTransferHeader.Proper ⟨fileId, relativePath, size, digest⟩ := by
  refine ⟨size_of_safe safe, Nat.le_of_not_lt fun long => named (.inr (.inl long)), ?_⟩
  rintro (empty | null)
  · exact named (.inl empty)
  · exact named (.inr (.inr null))

/-- A push that succeeds has sent a truthful stream and finished it. -/
theorem pushFileOverConnection_sends (path : String) (fileId : FileId) (relativePath : String) :
    (pushFileOverConnection blake3 path fileId relativePath).Conforms (sending blake3 c)
      (fun later result => ∃ body, Announces blake3 result.2 body ∧
        later = .finished result.1 (filesyncEnvelope ++ (result.2.encode ++ body))) .free := by
  rw [pushFileOverConnection]
  split
  case h_1 => trivial
  case h_2 safe =>
    split
    case isTrue => trivial
    case isFalse named =>
      refine (hashFileStreaming_sends path).bind ?_
      rintro _ ⟨digest, size⟩ rfl
      refine ⟨trivial, fun opened _ => ?_⟩
      cases opened with
      | error e => trivial
      | ok stream =>
          refine ⟨⟨_, rfl⟩, fun wrote _ => orFail_bind_sending ?_⟩
          rintro _ rfl
          refine (sendFileBulk_sends path (proper_of_checked safe named _ digest) safe).bind ?_
          rintro _ _ ⟨body, announces, rfl⟩
          exact ⟨body, announces, rfl⟩

theorem pushJob_sends (job : OutboxJob) (tf : TrackedFile) :
    Stays (sending blake3 c) .free (pushJob blake3 job tf) := by
  refine ⟨trivial, fun marked _ => ⟨trivial, fun _ _ => ?_⟩⟩
  refine (pushFileOverConnection_sends _ _ _).attempt.bind fun later result sent => ?_
  cases result with
  | error e => exact ⟨trivial, fun _ _ => rfl⟩
  | ok result =>
      obtain ⟨stream, header⟩ := result
      obtain ⟨body, announces, rfl⟩ := sent
      exact ⟨⟨body, announces, rfl⟩, fun _ _ => ⟨.inl rfl, fun _ _ => rfl⟩⟩

theorem idle_sends (a : Action) (idle : Idle a) :
    (sending blake3 c).allows .free a ∧ ∀ r, (sending blake3 c).after .free a r = .free := by
  cases a with
  | startPush | pushed | readFile | openUni | write | openFile | copy | finish => exact idle.elim
  | call request =>
      refine ⟨?_, fun _ => rfl⟩
      cases request with
      | syncUpdateJob jobId status lastError =>
          cases status with
          | done => exact idle.elim
          | _ => trivial
      | _ => trivial
  | _ => exact ⟨trivial, fun _ => rfl⟩

theorem body_sends (c : Call) :
    (c.body blake3).Conforms (sending blake3 c) (fun _ _ => True) .free := by
  cases c with
  | drain side peerHint rounds =>
      exact Program.Conforms.imp
        (outboxDrain_stays idle_sends (fun job tf _ => pushJob_sends job tf) rounds)
        fun _ _ _ => trivial
  | request request =>
      refine ⟨?_, fun _ _ => trivial⟩
      cases request with
      | syncUpdateJob jobId status lastError =>
          cases status with
          | done => exact .inr ⟨_, rfl⟩
          | _ => trivial
      | _ => trivial

end Program

/-! ## Streams of their own -/

/-- The stream that an action puts bytes on or finishes. -/
def Action.stream? : Action → Option Nat
  | .write stream _ => some stream
  | .copy _ stream => some stream
  | .finish stream => some stream
  | _ => none

theorem ask_streams (w : World) (request : SyncRequest) :
    (w.ask request).2.streams = w.streams := by
  rcases w.ask_cases request with ⟨-, served⟩ | ⟨-, same⟩
  · rw [served]
    rfl
  · rw [same]

theorem getElem?_send_of_ne {w : World} {stream other : Nat} (apart : stream ≠ other)
    (bytes : Bytes) : (w.send stream bytes).streams[other]? = w.streams[other]? := by
  rw [World.send]
  simp [apart]

/-- What an action leaves of a stream that it is not about. -/
theorem exec_stream_of_ne {a : Action} {w : World} {stream : Nat} {s : Stream}
    (apart : a.stream? ≠ some stream) (there : w.streams[stream]? = some s) :
    (World.exec a w).2.streams[stream]? = some s := by
  cases a with
  | call request =>
      rw [World.exec, ask_streams]
      exact there
  | readTracked fileId =>
      rw [World.exec_readTracked]
      exact there
  | openUni =>
      simp only [World.exec]
      split
      · exact there
      · exact (List.getElem?_append_left (List.getElem?_eq_some_iff.mp there).1).trans there
  | write stream' bytes =>
      have apart : stream' ≠ stream := fun same => apart (congrArg some same)
      simp only [World.exec]
      split <;> rw [getElem?_send_of_ne apart, there]
  | copy path stream' =>
      have apart : stream' ≠ stream := fun same => apart (congrArg some same)
      simp only [World.exec]
      split
      · exact there
      · rw [getElem?_send_of_ne apart, there]
      · rw [getElem?_send_of_ne apart, there]
  | finish stream' =>
      have apart : stream' ≠ stream := fun same => apart (congrArg some same)
      simp only [World.exec]
      split
      · exact there
      · simp [apart, there]
  | closeReason | connect | isFile | startPush | pushed | readFile | openFile => exact there

/-- What is noted of the last push of a job changes only when another one ends. -/
theorem exec_ended (a : Action) (w : World) (jobId : JobId) :
    (World.exec a w).2.ended jobId = w.ended jobId ∨
      ∃ job stream header, a = .pushed job stream header ∧
        (World.exec a w).2.ended jobId = some (stream, header) := by
  cases a with
  | pushed job stream header =>
      by_cases same : jobId = job.jobId
      · exact .inr ⟨job, stream, header, rfl, by simp [World.exec, same]⟩
      · exact .inl (by simp [World.exec, same])
  | call request =>
      refine .inl ?_
      rcases w.ask_cases request with ⟨-, served⟩ | ⟨-, same⟩
      · rw [World.exec, served]
        rfl
      · rw [World.exec, same]
  | readTracked fileId => exact .inl (by rw [World.exec_readTracked])
  | openUni | write | copy | finish =>
      refine .inl ?_
      simp only [World.exec]
      split <;> rfl
  | closeReason | connect | isFile | startPush | readFile | openFile => exact .inl rfl

/-- What a phase says of the world. -/
def SendPhase.Fits (w : World) : SendPhase → Prop
  | .free => True
  | .sending stream sent => w.streams[stream]? = some ⟨sent, false⟩
  | .finished stream sent => w.streams[stream]? = some ⟨sent, true⟩
  | .ended jobId => (w.ended jobId).isSome

theorem SendPhase.Fits.of_ne {w : World} {phase : SendPhase} (fits : phase.Fits w) {a : Action}
    (apart : ∀ stream, a.stream? = some stream → phase.stream? ≠ some stream) :
    phase.Fits (World.exec a w).2 := by
  cases phase with
  | free => trivial
  | sending stream sent => exact exec_stream_of_ne (fun same => apart stream same rfl) fits
  | finished stream sent => exact exec_stream_of_ne (fun same => apart stream same rfl) fits
  | ended jobId =>
      change ((World.exec a w).2.ended jobId).isSome
      rcases exec_ended a w jobId with same | ⟨job, stream, header, -, noted⟩
      · rw [same]
        exact fits
      · rw [noted]
        rfl

/-- The stream of a phase is one of those that have been opened. -/
theorem SendPhase.Fits.opened {w : World} {phase : SendPhase} (fits : phase.Fits w) {stream : Nat}
    (about : phase.stream? = some stream) : stream < w.streams.length := by
  cases phase with
  | free | ended jobId => cases about
  | sending stream' sent | finished stream' sent =>
      obtain rfl := Option.some.inj about
      exact (List.getElem?_eq_some_iff.mp fits).1

/-- What an action adds to a stream. -/
theorem getElem?_send {w : World} {stream : Nat} {s : Stream}
    (there : w.streams[stream]? = some s) (bytes : Bytes) :
    (w.send stream bytes).streams[stream]? = some { s with sent := s.sent ++ bytes } := by
  rw [World.send]
  simp [there]

section Step

variable {Location : Type} [DecidableEq Location] {locate : String → Location}
  {blake3 : Bytes → BitVec 256} {peers : Nat → Peer Location} {c : Call} {w : World}
  {phase : SendPhase} {a : Action}

/-- A sender's own action leads to the next phase, on its own stream or on one
that has just been opened. -/
theorem SendPhase.Fits.step (fits : phase.Fits w) (allowed : phase.Allows blake3 c a) :
    (phase.after a (World.exec a w).1).Fits (World.exec a w).2 ∧
      ∀ stream, (phase.after a (World.exec a w).1).stream? = some stream →
        phase.stream? = some stream ∨ stream = w.streams.length := by
  have freed {later : SendPhase} {w' : World} (free : later = .free) : later.Fits w' ∧
      ∀ stream, later.stream? = some stream →
        phase.stream? = some stream ∨ stream = w.streams.length := by
    subst free
    exact ⟨trivial, fun stream about => by cases about⟩
  cases a with
  | openUni =>
      simp only [World.exec]
      split
      · exact freed rfl
      · refine ⟨?_, fun stream about => .inr (Option.some.inj about).symm⟩
        simp [SendPhase.after, SendPhase.Fits]
  | write stream bytes =>
      obtain ⟨sent, rfl⟩ := allowed
      simp only [World.exec]
      split
      · exact freed rfl
      · exact ⟨getElem?_send fits bytes, fun _ => .inl⟩
  | copy path stream =>
      obtain ⟨sent, rfl⟩ := allowed
      simp only [World.exec]
      split
      · exact freed rfl
      · exact freed rfl
      · exact ⟨getElem?_send fits _, fun _ => .inl⟩
  | finish stream =>
      obtain ⟨sent, rfl⟩ := allowed
      have there : w.streams[stream]? = some ⟨sent, false⟩ := fits
      simp only [World.exec]
      split
      · exact freed rfl
      · refine ⟨?_, fun _ => .inl⟩
        simp [SendPhase.after, SendPhase.finish, SendPhase.Fits, there]
  | openFile path => exact ⟨fits.of_ne (fun stream about => by cases about), fun _ => .inl⟩
  | pushed job stream header =>
      refine ⟨?_, fun stream about => by cases about⟩
      simp [SendPhase.after, SendPhase.Fits, World.exec]
  | closeReason | connect | call | readTracked | isFile | startPush | readFile => exact freed rfl

omit [DecidableEq Location] in
/-- A faithful copy is as expected. -/
theorem expects_of_faithful (fits : phase.Fits w)
    (faithful : FaithfulAction locate blake3 peers w a) :
    phase.Expects blake3 a (World.exec a w).1 := by
  cases a with
  | copy path stream =>
      simp only [World.exec]
      split
      case h_1 => trivial
      case h_2 => trivial
      case h_3 content read _ =>
        rintro sent rfl header front
        exact faithful _ fits header front content (by rw [read]; rfl)
  | _ => trivial

/-- An action on a stream is allowed only while its sender has not finished it. -/
theorem stream_of_allows (allowed : phase.Allows blake3 c a) {stream : Nat}
    (about : a.stream? = some stream) : ∃ sent, phase = .sending stream sent := by
  cases a with
  | write stream' bytes | copy path stream' | finish stream' =>
      obtain rfl := Option.some.inj about
      exact allowed
  | _ => cases about

/-- What arrives is not touched any more. -/
theorem Arrives.exec {stream : Nat} {header : FileTransferHeader}
    (h : Arrives locate blake3 peers w stream header) (fits : phase.Fits w)
    (allowed : phase.Allows blake3 c a) :
    Arrives locate blake3 peers (World.exec a w).2 stream header := by
  obtain ⟨s, there, finished, received⟩ := h
  refine ⟨s, exec_stream_of_ne (fun about => ?_) there, finished, received⟩
  obtain ⟨sent, rfl⟩ := stream_of_allows allowed about
  obtain rfl : ⟨sent, false⟩ = s := Option.some.inj (fits.symm.trans there)
  cases finished

/-- The last push of each job is delivered. -/
def Settled (locate : String → Location) (blake3 : Bytes → BitVec 256)
    (peers : Nat → Peer Location) (w : World) : Prop :=
  ∀ jobId stream header, w.ended jobId = some (stream, header) →
    Arrives locate blake3 peers w stream header

theorem Settled.exec (h : Settled locate blake3 peers w) (fits : phase.Fits w)
    (allowed : phase.Allows blake3 c a) (faithful : FaithfulAction locate blake3 peers w a) :
    Settled locate blake3 peers (World.exec a w).2 := by
  intro jobId stream header noted
  rcases exec_ended a w jobId with same | ⟨job, stream', header', rfl, now⟩
  · rw [same] at noted
    exact (h jobId stream header noted).exec fits allowed
  · rw [now] at noted
    cases noted
    obtain ⟨body, announces, rfl⟩ := allowed
    exact ⟨_, fits, rfl, outcome_of_receptive announces (faithful _ fits)⟩

end Step

/-! ## Every schedule -/

section Schedule

variable {Location : Type} [DecidableEq Location] {locate : String → Location}
  {blake3 : Bytes → BitVec 256} {peers : Nat → Peer Location} {P : DrainPool}

/-- A thread follows the sending protocol, and the world is as its phase says. -/
def Sends (blake3 : Bytes → BitVec 256) (w : World) (phase : SendPhase)
    (t : Thread signature PushError Call) : Prop :=
  t.rest.Conforms (sending blake3 t.call) (fun _ _ => True) phase ∧ phase.Fits w

def Streaming (locate : String → Location) (blake3 : Bytes → BitVec 256)
    (peers : Nat → Peer Location) (P : DrainPool) : Prop :=
  System.HoldsApart (Settled locate blake3 peers) (Sends blake3) (fun phase _ => phase.stream?) P

theorem Streaming.move (h : Streaming locate blake3 peers P) (m : DrainMove)
    (faithful : Faithful locate blake3 peers P m) :
    Streaming locate blake3 peers ((drains blake3).move P m) := by
  refine System.HoldsApart.move (drains blake3) h
    (fun c _ => ⟨.free, ⟨body_sends c, trivial⟩, rfl⟩) (fun env _ => ⟨h.shared, ?_⟩)
    fun i c a k phase move found sends => ?_
  · intro phase t sends
    exact ⟨sends.1, by cases phase <;> exact sends.2⟩
  · subst move
    have faithful := faithful a (Pool.next?_step found)
    obtain ⟨conforms, fits⟩ := sends
    have allowed : phase.Allows blake3 c a := conforms.1
    obtain ⟨later, own⟩ := fits.step allowed
    refine ⟨h.shared.exec fits allowed faithful, _,
      ⟨conforms.2 _ (expects_of_faithful fits faithful), later⟩,
      fun ψ u other sends apart => ⟨⟨sends.1, ?_⟩, fun stream about same => ?_⟩⟩
    · refine sends.2.of_ne fun stream about => apart stream ?_
      obtain ⟨sent, rfl⟩ := stream_of_allows allowed about
      rfl
    · rcases own stream about with before | rfl
      · exact apart stream before same
      · exact Nat.lt_irrefl _ (sends.2.opened same)

/-- A loop that sets a job to done has a push of the job behind it. -/
theorem delivered_of_setsDone {w : World} {phase : SendPhase} {c : Call} {a : Action}
    {jobId : JobId} (settled : Settled locate blake3 peers w) (fits : phase.Fits w)
    (allowed : phase.Allows blake3 c a) (sets : setsDone? a c = some jobId) :
    Delivered locate blake3 peers w jobId := by
  unfold setsDone? at sets
  split at sets
  case h_2 => cases sets
  case h_1 =>
    obtain rfl := Option.some.inj sets
    rcases allowed with rfl | ⟨request, impossible⟩
    · obtain ⟨⟨stream, header⟩, noted⟩ := Option.isSome_iff_exists.mp fits
      exact ⟨stream, header, noted, settled _ stream header noted⟩
    · cases impossible

theorem Streaming.delivered (h : Streaming locate blake3 peers P) (m : DrainMove) :
    DeliveredMove locate blake3 peers P m := by
  cases m with
  | call c | disturb env => trivial
  | step i =>
      intro t found a next jobId sets
      obtain ⟨phase, conforms, fits⟩ := h.of_mem (List.mem_of_getElem? found)
      obtain ⟨c, rest⟩ := t
      cases rest with
      | done u | fail e => cases next
      | act b k =>
          obtain rfl := Option.some.inj next
          exact delivered_of_setsDone h.shared fits conforms.1 sets

/-- Done means delivered, in every schedule in which nothing goes wrong on the way
or at the peer. -/
theorem delivered_of_faithful (db : Database) (env : DrainEnv) {moves : List DrainMove}
    (faithful : (drains blake3).Along (Faithful locate blake3 peers) (untouched db env) moves) :
    (drains blake3).Along (DeliveredMove locate blake3 peers) (untouched db env) moves := by
  have start : Streaming locate blake3 peers (untouched db env) := by
    refine ⟨fun jobId stream header noted => ?_, fun _ => .free, fun i t found => ?_,
      fun i j t u stream found => ?_⟩
    · cases noted
    · cases found
    · cases found
  exact System.Along.imp (drains blake3) (fun P m ok h => h.move m ok)
    (fun P m _ h => h.delivered m) start faithful

end Schedule

/-! ## A stream that is cut and a file that is replaced -/

section Received

variable (blake3 : Bytes → BitVec 256) (peers : Nat → Peer String)

/-- The receive of the last push of the job returns. -/
def received (w : World) (jobId : JobId) : Bool :=
  match w.ended jobId with
  | none => false
  | some (stream, _) =>
      match (w.streams[stream]?).bind fun s => (peers stream).outcome id blake3 s.sent with
      | some (.ok _) => true
      | _ => false

def ReceivedMove (P : DrainPool) : DrainMove → Prop
  | .step i => ∀ t ∈ P.threads[i]?, ∀ a ∈ t.next?, ∀ jobId ∈ setsDone? a t.call,
      received blake3 peers P.shared jobId = true
  | _ => True

instance (P : DrainPool) : ∀ m, Decidable (ReceivedMove blake3 peers P m)
  | .step _ =>
      haveI (t : Thread signature PushError Call) (a : Action) : Decidable
          (∀ jobId ∈ setsDone? a t.call, received blake3 peers P.shared jobId = true) :=
        Option.decidableForallMem _
      haveI (t : Thread signature PushError Call) : Decidable (∀ a ∈ t.next?,
          ∀ jobId ∈ setsDone? a t.call, received blake3 peers P.shared jobId = true) :=
        Option.decidableForallMem _
      Option.decidableForallMem _
  | .call _ | .disturb _ => isTrue trivial

variable {blake3 peers}

theorem received_of_delivered {w : World} {jobId : JobId} (h : Delivered id blake3 peers w jobId) :
    received blake3 peers w jobId = true := by
  obtain ⟨stream, header, noted, s, there, -, target, installed, outcome⟩ := h
  have there : w.streams[stream]? = some s := there
  simp only [received, noted, there, Option.bind_some, outcome]

theorem along_received {P : DrainPool} {moves : List DrainMove}
    (delivered : (drains blake3).Along (DeliveredMove id blake3 peers) P moves) :
    (drains blake3).Along (ReceivedMove blake3 peers) P moves := by
  refine System.Along.imp (drains blake3) (I := fun _ => True) (fun _ _ _ _ => trivial)
    (fun P m h _ => ?_) trivial delivered
  cases m with
  | call c | disturb env => trivial
  | step i => exact fun t found a next jobId sets =>
      received_of_delivered (h t found a next jobId sets)

end Received

namespace Sample

/-- A hash that tells short contents apart. -/
def digits (bytes : Bytes) : BitVec 256 := BitVec.ofNat 256 (Bytes.toNatBE bytes)

def downloads : FsEnv where
  createDirAll _ := .ok ()
  canonicalize path := .ok path
  directory path := path = "/dest"
  createFault _ := none
  writeFault := none
  syncFault := none
  removeFault _ := none
  renameFault _ _ := none

/-- A peer at which nothing goes wrong once the bytes are there. -/
def willing (delivered : Nat) : Peer String where
  delivered
  destDir := "/dest"
  maxBytes := maxFilesyncBytes
  volume := ⟨Disk.empty, downloads⟩
  meanwhile _ v := { v with env := downloads }

def oneDrain : List DrainMove := .call (.drain .host "peer" 1) :: steps 0 16

/-- The file is replaced by one of the same length after it has been hashed. -/
def replacedMeanwhile : List DrainMove :=
  .call (.drain .host "peer" 1) :: steps 0 11 ++
    [.disturb { calm with content := fun _ => .ok [4, 5, 6] }] ++ steps 0 5

theorem cut_not_delivered :
    ¬ (drains digits).Along (DeliveredMove id digits fun _ => willing 62) (untouched oneJob calm)
      oneDrain ∧
    ¬ (drains digits).Along (DeliveredMove id digits fun _ => willing 63) (untouched oneJob calm)
      replacedMeanwhile := by
  constructor
  · intro delivered
    have received := along_received delivered
    revert received
    decide +kernel
  · intro delivered
    have received := along_received delivered
    revert received
    decide +kernel

theorem willing_favours (delivered n : Nat) (v : Volume String) :
    Favours id "/dest" "/dest" "game.sav" v ((willing delivered).meanwhile n v) where
  createDirAll _ := rfl
  canonicalize := rfl
  parent := ⟨"/dest", by decide, (by decide : downloads.directory "/dest" = true)⟩
  inside path near := by
    refine ⟨path, rfl, ?_⟩
    have parent : UnixPath.parent (UnixPath.join "/dest" "game.sav") = some "/dest" := by
      decide
    rcases near with rfl | above
    · decide
    · obtain rfl := Option.some.inj (parent.symm.trans above)
      decide
  create _ := rfl
  write := rfl
  sync := rfl
  rename _ _ := rfl
  named := rfl
  kept _ _ := rfl

/-- What is left to check of a step when all peers are willing. -/
def Promised (delivered : Nat) (w : World) : Action → Prop
  | .copy path stream => ∀ s ∈ w.streams[stream]?, ∀ header ∈ announced? s.sent,
      ∀ content ∈ (w.env.content path).toOption, digits content = header.blake3
  | .pushed _ stream header => ∀ s ∈ w.streams[stream]?, s.sent.length ≤ delivered ∧
      header.size.toNat ≤ maxFilesyncBytes ∧ header.relativePath = "game.sav"
  | _ => True

instance (delivered : Nat) (w : World) : DecidablePred (Promised delivered w)
  | .copy path _ =>
      haveI (header : FileTransferHeader) : Decidable
          (∀ content ∈ (w.env.content path).toOption, digits content = header.blake3) :=
        Option.decidableForallMem _
      haveI (s : Stream) : Decidable (∀ header ∈ announced? s.sent,
          ∀ content ∈ (w.env.content path).toOption, digits content = header.blake3) :=
        Option.decidableForallMem _
      Option.decidableForallMem _
  | .pushed _ _ _ => Option.decidableForallMem _
  | .closeReason | .connect | .call _ | .readTracked _ | .isFile _ | .startPush _ _ | .readFile _
  | .openUni | .write _ _ | .openFile _ | .finish _ => isTrue trivial

instance (delivered : Nat) (P : DrainPool) (m : DrainMove) :
    Decidable (∀ a ∈ P.next? m, Promised delivered P.shared a) :=
  Option.decidableForallMem _

theorem faithful_of_promised {delivered : Nat} {w : World} {a : Action}
    (promised : Promised delivered w a) :
    FaithfulAction id digits (fun _ => willing delivered) w a := by
  cases a with
  | copy path stream => exact promised
  | pushed job stream header =>
      intro s there
      obtain ⟨whole, cap, name⟩ := promised s there
      refine ⟨whole, cap, "/dest", fun n v => ?_⟩
      rw [name]
      exact willing_favours delivered n v
  | _ => trivial

theorem oneDrain_delivered :
    (drains digits).Along (DeliveredMove id digits fun _ => willing 63) (untouched oneJob calm)
      oneDrain := by
  have promised : (drains digits).Along (fun P m => ∀ a ∈ P.next? m, Promised 63 P.shared a)
      (untouched oneJob calm) oneDrain := by decide
  exact delivered_of_faithful oneJob calm (System.Along.imp (drains digits) (I := fun _ => True)
    (fun _ _ _ _ => trivial) (fun P m h _ a next => faithful_of_promised (h a next)) trivial
    promised)

end Sample

end Qubox.Sync
