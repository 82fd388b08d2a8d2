import Mathlib.Data.List.Perm.Subperm
import Qubox.Transport.StreamRouter

/-!
# Streams in any order

The streams of a host that writes envelopes, in any order of acceptance. The router
is a function of what has been accepted, so the session does not depend on the
order. What it keeps of file streams is dropped on the way to the session.
-/

namespace Qubox.Transport

/-! ## Envelopes -/

theorem tryReadEnvelope_append (purpose : StreamPurpose) (rest : Bytes) :
    tryReadEnvelope (streamEnvelope purpose ++ rest) = .ok (some purpose, rest) := by
  rw [streamEnvelope, List.cons_append, List.cons_append, List.nil_append, tryReadEnvelope,
    if_neg (not_not.mpr rfl), StreamPurpose.fromByte_asByte]

theorem accept_bi {stream : Incoming} {purpose : StreamPurpose} {rest : Bytes}
    (kind : stream.kind = .bi) (content : stream.content = streamEnvelope purpose ++ rest) :
    acceptNextStreamEnvelope stream = .ok (.bi purpose ⟨stream.id⟩ ⟨stream.id, rest⟩) := by
  rw [acceptNextStreamEnvelope, content, tryReadEnvelope_append]
  simp only [kind]

theorem accept_uni {stream : Incoming} {purpose : StreamPurpose} {rest : Bytes}
    (kind : stream.kind = .uni) (content : stream.content = streamEnvelope purpose ++ rest) :
    acceptNextStreamEnvelope stream = .ok (.uni purpose ⟨stream.id, rest⟩) := by
  rw [acceptNextStreamEnvelope, content, tryReadEnvelope_append]
  simp only [kind]

/-! ## One stream -/

section Accept

variable {control : Codec NativeQuicControlMessage} {audio : Codec WireAudioStreamHeader}
  {sessionId : Uuid} {router router' : StreamRouter} {stream : Incoming} {later : List Incoming}
  {purpose : StreamPurpose} {send : SendStream} {recv : RecvStream} {id : Nat} {rest : Bytes}

theorem acceptStreams_bi (incomplete : router.requiredSatisfied = false)
    (accepted : acceptNextStreamEnvelope stream = .ok (.bi purpose send recv))
    (slotted : router.acceptBi control purpose send recv = .ok router') :
    router.acceptStreams control audio sessionId (stream :: later) =
      router'.acceptStreams control audio sessionId later := by
  rw [StreamRouter.acceptStreams, incomplete, accepted]
  simp only [withContext, Except.mapError, Bool.false_eq_true, if_false, slotted]

theorem acceptStreams_uni (incomplete : router.requiredSatisfied = false)
    (accepted : acceptNextStreamEnvelope stream = .ok (.uni purpose recv))
    (slotted : router.acceptUni audio sessionId purpose recv = .ok router') :
    router.acceptStreams control audio sessionId (stream :: later) =
      router'.acceptStreams control audio sessionId later := by
  rw [StreamRouter.acceptStreams, incomplete, accepted]
  simp only [withContext, Except.mapError, Bool.false_eq_true, if_false, slotted]

theorem acceptBi_videoConfig {video : VideoStreamParams}
    (readable : control.Readable (.videoConfig video)) :
    router.acceptBi control .videoConfig send
        ⟨id, writeJsonPrefixed control (.videoConfig video) ++ rest⟩ =
      .ok { router with videoConfig := some video, controlSend := some send } := by
  simp only [StreamRouter.acceptBi, readJsonPrefixed_append readable.1 readable.2]
  rfl

theorem acceptUni_audio {header : WireAudioStreamHeader} (readable : audio.Readable header)
    (ours : header.sessionId = sessionId) :
    router.acceptUni audio sessionId .audio ⟨id, writeJsonPrefixed audio header ++ rest⟩ =
      .ok { router with audioHeader := some header, audioRecv := some ⟨id, rest⟩ } := by
  simp only [StreamRouter.acceptUni, readJsonPrefixed_append readable.1 readable.2, withContext,
    Except.mapError, ours, ne_eq, not_true, if_false]

end Accept

/-! ## The host -/

/-- A host that opens the four streams of a session and any file streams, each
with its envelope and with anything behind what the client reads first. -/
structure MuxHost (control : Codec NativeQuicControlMessage) (audio : Codec WireAudioStreamHeader)
    (sessionId : Uuid) where
  video : VideoStreamParams
  audioConfig : AudioStreamParams
  videoId : Nat
  audioId : Nat
  mediaId : Nat
  controlId : Nat
  videoMore : Bytes
  audioMore : Bytes
  mediaMore : Bytes
  controlMore : Bytes
  fileSync : List Incoming
  video_readable : control.Readable (.videoConfig video)
  audio_readable : audio.Readable { sessionId, audio := audioConfig }
  fileSync_envelope : ∀ stream ∈ fileSync,
    ∃ rest, stream.content = streamEnvelope .fileSync ++ rest
  distinct : ([videoId, audioId, mediaId, controlId] ++ fileSync.map Incoming.id).Nodup

namespace MuxHost

variable {control : Codec NativeQuicControlMessage} {audio : Codec WireAudioStreamHeader}
  {sessionId : Uuid} (host : MuxHost control audio sessionId)

def audioHeader : WireAudioStreamHeader := { sessionId, audio := host.audioConfig }

def videoStream : Incoming where
  id := host.videoId
  kind := .bi
  content := streamEnvelope .videoConfig ++
    (writeJsonPrefixed control (.videoConfig host.video) ++ host.videoMore)

def audioStream : Incoming where
  id := host.audioId
  kind := .uni
  content := streamEnvelope .audio ++ (writeJsonPrefixed audio host.audioHeader ++ host.audioMore)

def mediaStream : Incoming where
  id := host.mediaId
  kind := .uni
  content := streamEnvelope .media ++ host.mediaMore

def controlStream : Incoming where
  id := host.controlId
  kind := .uni
  content := streamEnvelope .hostControl ++ host.controlMore

def fileIds : List Nat := host.fileSync.map Incoming.id

def required : List Incoming :=
  [host.videoStream, host.audioStream, host.mediaStream, host.controlStream]

def streams : List Incoming := host.required ++ host.fileSync

/-- The session, with each receiver behind what was parsed of its stream. -/
def session : NativeQuicClientSession where
  videoConfig := host.video
  audioConfig := host.audioConfig
  mediaReceiver := ⟨host.mediaId, host.mediaMore⟩
  audioReceiver := ⟨host.audioId, host.audioMore⟩
  inputSender := ⟨host.videoId⟩
  controlReceiver := ⟨host.controlId, host.controlMore⟩

/-- What the router keeps of a file stream. -/
def stashed (stream : Incoming) : AcceptedStream :=
  match stream.kind with
  | .bi => .bi .fileSync ⟨stream.id⟩ ⟨stream.id, stream.content.drop 2⟩
  | .uni => .uni .fileSync ⟨stream.id, stream.content.drop 2⟩

/-- The router when these streams have been accepted. -/
def slots (accepted : List Incoming) : StreamRouter :=
  let ids := accepted.map Incoming.id
  { videoConfig := if host.videoId ∈ ids then some host.video else none
    audioHeader := if host.audioId ∈ ids then some host.audioHeader else none
    audioRecv := if host.audioId ∈ ids then some ⟨host.audioId, host.audioMore⟩ else none
    mediaRecv := if host.mediaId ∈ ids then some ⟨host.mediaId, host.mediaMore⟩ else none
    controlSend := if host.videoId ∈ ids then some ⟨host.videoId⟩ else none
    controlRecv := if host.controlId ∈ ids then some ⟨host.controlId, host.controlMore⟩ else none
    extra := (accepted.filter fun stream => stream.id ∈ host.fileIds).map stashed }

/-- All four streams of the session have been accepted. -/
def Complete (accepted : List Incoming) : Prop :=
  ∀ stream ∈ host.required, stream ∈ accepted

section Step

variable {host} {accepted later : List Incoming} {stream : Incoming}

theorem ids_nodup : (host.streams.map Incoming.id).Nodup := by
  have distinct := host.distinct
  rwa [streams, List.map_append]

theorem id_mem_iff (mem : stream ∈ host.streams) (known : accepted ⊆ host.streams) :
    stream.id ∈ accepted.map Incoming.id ↔ stream ∈ accepted := by
  constructor
  · intro member
    obtain ⟨other, accepted_other, same⟩ := List.mem_map.mp member
    rwa [← List.inj_on_of_nodup_map ids_nodup (known accepted_other) mem same]
  · exact List.mem_map_of_mem

theorem requiredSatisfied_slots (known : accepted ⊆ host.streams) :
    (host.slots accepted).requiredSatisfied = true ↔ host.Complete accepted := by
  have mem (stream) (required : stream ∈ host.required) :
      stream.id ∈ accepted.map Incoming.id ↔ stream ∈ accepted :=
    id_mem_iff (List.mem_append_left _ required) known
  have video := mem host.videoStream (by simp [required])
  have audio := mem host.audioStream (by simp [required])
  have media := mem host.mediaStream (by simp [required])
  have control := mem host.controlStream (by simp [required])
  simp only [videoStream, audioStream, mediaStream, controlStream] at video audio media control
  simp only [StreamRouter.requiredSatisfied, slots, Complete, required, List.forall_mem_cons,
    List.not_mem_nil, false_imp_iff, implies_true, and_true, videoStream, audioStream, mediaStream,
    controlStream, ← video, ← audio, ← media, ← control, Bool.and_eq_true, Option.isSome_ite]
  tauto

theorem distinct_ids : host.videoId ≠ host.audioId ∧ host.videoId ≠ host.mediaId ∧
    host.videoId ≠ host.controlId ∧ host.audioId ≠ host.mediaId ∧ host.audioId ≠ host.controlId ∧
    host.mediaId ≠ host.controlId := by
  have distinct := (List.nodup_append.mp host.distinct).1
  simp only [List.nodup_cons, List.mem_cons, List.not_mem_nil, or_false, not_or] at distinct
  obtain ⟨⟨video_audio, video_media, video_control⟩, ⟨audio_media, audio_control⟩, media_control, -⟩ :=
    distinct
  exact ⟨video_audio, video_media, video_control, audio_media, audio_control, media_control⟩

theorem not_file (stream : Incoming) (required : stream ∈ host.required) : stream.id ∉ host.fileIds := by
  intro file
  have apart := (List.nodup_append.mp host.distinct).2.2
  exact apart stream.id (List.mem_map_of_mem (f := Incoming.id) required) stream.id file rfl

/-- The router when one more stream has been accepted. -/
theorem slots_video : host.slots (accepted ++ [host.videoStream]) =
    { host.slots accepted with
      videoConfig := some host.video, controlSend := some ⟨host.videoId⟩ } := by
  obtain ⟨video_audio, video_media, video_control, -⟩ := host.distinct_ids
  have file : host.videoId ∉ host.fileIds := not_file host.videoStream (.head _)
  simp [slots, videoStream, List.filter_append, file, video_audio.symm,
    video_media.symm, video_control.symm]

theorem slots_audio : host.slots (accepted ++ [host.audioStream]) =
    { host.slots accepted with
      audioHeader := some host.audioHeader
      audioRecv := some ⟨host.audioId, host.audioMore⟩ } := by
  obtain ⟨video_audio, -, -, audio_media, audio_control, -⟩ := host.distinct_ids
  have file : host.audioId ∉ host.fileIds := not_file host.audioStream (.tail _ (.head _))
  simp [slots, audioStream, List.filter_append, file, video_audio,
    audio_media.symm, audio_control.symm]

theorem slots_media : host.slots (accepted ++ [host.mediaStream]) =
    { host.slots accepted with mediaRecv := some ⟨host.mediaId, host.mediaMore⟩ } := by
  obtain ⟨-, video_media, -, audio_media, -, media_control⟩ := host.distinct_ids
  have file : host.mediaId ∉ host.fileIds :=
    not_file host.mediaStream (.tail _ (.tail _ (.head _)))
  simp [slots, mediaStream, List.filter_append, file, video_media, audio_media,
    media_control.symm]

theorem slots_control : host.slots (accepted ++ [host.controlStream]) =
    { host.slots accepted with controlRecv := some ⟨host.controlId, host.controlMore⟩ } := by
  obtain ⟨-, -, video_control, -, audio_control, media_control⟩ := host.distinct_ids
  have file : host.controlId ∉ host.fileIds :=
    not_file host.controlStream (.tail _ (.tail _ (.tail _ (.head _))))
  simp [slots, controlStream, List.filter_append, file, video_control,
    audio_control, media_control]

theorem slots_file (file : stream ∈ host.fileSync) : host.slots (accepted ++ [stream]) =
    { host.slots accepted with extra := (host.slots accepted).extra ++ [stashed stream] } := by
  have id_file : stream.id ∈ host.fileIds := List.mem_map_of_mem file
  have apart (other) (required : other ∈ host.required) : other.id ≠ stream.id :=
    fun same => not_file other required (same ▸ id_file)
  have video : host.videoId ≠ stream.id := apart host.videoStream (.head _)
  have audio : host.audioId ≠ stream.id := apart host.audioStream (.tail _ (.head _))
  have media : host.mediaId ≠ stream.id := apart host.mediaStream (.tail _ (.tail _ (.head _)))
  have control : host.controlId ≠ stream.id :=
    apart host.controlStream (.tail _ (.tail _ (.tail _ (.head _))))
  simp [slots, List.filter_append, id_file, video, audio, media, control]

/-- Accepting a stream of the host. -/
theorem acceptStreams_cons (incomplete : (host.slots accepted).requiredSatisfied = false)
    (mem : stream ∈ host.streams) :
    StreamRouter.acceptStreams control audio sessionId (stream :: later) (host.slots accepted) =
      StreamRouter.acceptStreams control audio sessionId later (host.slots (accepted ++ [stream])) := by
  rw [streams, required] at mem
  simp only [List.cons_append, List.nil_append, List.mem_cons] at mem
  rcases mem with rfl | rfl | rfl | rfl | file
  · rw [slots_video]
    exact acceptStreams_bi incomplete (accept_bi rfl rfl) (acceptBi_videoConfig host.video_readable)
  · rw [slots_audio]
    exact acceptStreams_uni incomplete (accept_uni rfl rfl) (acceptUni_audio host.audio_readable rfl)
  · rw [slots_media]
    exact acceptStreams_uni incomplete (accept_uni rfl rfl) rfl
  · rw [slots_control]
    exact acceptStreams_uni incomplete (accept_uni rfl rfl) rfl
  · obtain ⟨rest, content⟩ := host.fileSync_envelope stream file
    have dropped : stream.content.drop 2 = rest := by
      rw [content]
      rfl
    rw [slots_file file, stashed, dropped]
    cases kind : stream.kind with
    | bi => exact acceptStreams_bi incomplete (accept_bi kind content) rfl
    | uni => exact acceptStreams_uni incomplete (accept_uni kind content) rfl

/-- The router stops as soon as it has the four streams, and not before. -/
theorem acceptStreams_slots (known : accepted ⊆ host.streams)
    (order : (accepted ++ later).Perm host.streams) :
    ∃ more left, later = more ++ left ∧ host.Complete (accepted ++ more) ∧
      (∀ count, host.Complete (accepted ++ later.take count) → more.length ≤ count) ∧
      StreamRouter.acceptStreams control audio sessionId later (host.slots accepted) =
        .ok (host.slots (accepted ++ more), left) := by
  induction later generalizing accepted with
  | nil =>
      rw [List.append_nil] at order
      have complete : host.Complete accepted := fun stream required =>
        order.mem_iff.mpr (List.mem_append_left _ required)
      refine ⟨[], [], rfl, by rwa [List.append_nil], fun _ _ => Nat.zero_le _, ?_⟩
      rw [StreamRouter.acceptStreams, (requiredSatisfied_slots known).mpr complete, List.append_nil]
      rfl
  | cons stream later ih =>
      cases satisfied : (host.slots accepted).requiredSatisfied with
      | true =>
          refine ⟨[], stream :: later, rfl, ?_, fun _ _ => Nat.zero_le _, ?_⟩
          · rw [List.append_nil]
            exact (requiredSatisfied_slots known).mp satisfied
          · rw [StreamRouter.acceptStreams, satisfied, List.append_nil]
            rfl
      | false =>
          have mem : stream ∈ host.streams := order.subset (List.mem_append_right _ (.head _))
          have append (rest : List Incoming) :
              accepted ++ [stream] ++ rest = accepted ++ stream :: rest := List.append_assoc ..
          obtain ⟨more, left, split, complete, least, result⟩ :=
            @ih (accepted ++ [stream])
              (List.append_subset.mpr ⟨known, List.cons_subset.mpr ⟨mem, List.nil_subset _⟩⟩)
              ((append later).symm ▸ order)
          refine ⟨stream :: more, left, congrArg _ split, append more ▸ complete, ?_, ?_⟩
          · intro count complete_early
            cases count with
            | zero =>
                rw [List.take_zero, List.append_nil] at complete_early
                rw [(requiredSatisfied_slots known).mpr complete_early] at satisfied
                cases satisfied
            | succ count =>
                rw [List.take_succ_cons, ← append] at complete_early
                exact Nat.succ_le_succ (least count complete_early)
          · rw [acceptStreams_cons satisfied mem, result, append]

/-- What is in the stash besides the four streams makes no difference. -/
theorem session_slots (known : accepted ⊆ host.streams) (complete : host.Complete accepted)
    (extra : List AcceptedStream) :
    { host.slots accepted with extra }.session = .ok host.session := by
  have mem (stream) (required : stream ∈ host.required) : stream.id ∈ accepted.map Incoming.id :=
    (id_mem_iff (List.mem_append_left _ required) known).mpr (complete stream required)
  have video : host.videoId ∈ accepted.map Incoming.id := mem host.videoStream (.head _)
  have audio : host.audioId ∈ accepted.map Incoming.id := mem host.audioStream (.tail _ (.head _))
  have media : host.mediaId ∈ accepted.map Incoming.id :=
    mem host.mediaStream (.tail _ (.tail _ (.head _)))
  have control : host.controlId ∈ accepted.map Incoming.id :=
    mem host.controlStream (.tail _ (.tail _ (.tail _ (.head _))))
  simp only [StreamRouter.session, slots, if_pos video, if_pos audio, if_pos media, if_pos control]
  rfl

theorem drainExtra_stashed (router : StreamRouter) (files : List Incoming) :
    (files.map stashed).foldlM (StreamRouter.drainExtra control audio sessionId) router =
      .ok router := by
  induction files with
  | nil => rfl
  | cons file files ih =>
      rw [List.map_cons, List.foldlM_cons, stashed]
      cases file.kind with
      | bi | uni => exact ih

theorem drainArrivals_satisfied {router : StreamRouter} (satisfied : router.requiredSatisfied = true)
    (arrivals : List Incoming) :
    router.drainArrivals control audio sessionId arrivals = .ok (router, arrivals) := by
  cases arrivals with
  | nil | cons stream later => rw [StreamRouter.drainArrivals, if_pos satisfied]

/-- What the stash holds of file streams is dropped. -/
theorem drainStash_files {router : StreamRouter} {files : List Incoming}
    (stash : router.extra = files.map stashed) (satisfied : router.requiredSatisfied = true)
    (arrivals : List Incoming) :
    router.drainStash control audio sessionId arrivals =
      .ok ({ router with extra := [] }, arrivals) := by
  rw [StreamRouter.drainStash]
  split
  case isTrue empty =>
    have same : { router with extra := [] } = router := by
      rw [← empty]
    rw [same]
  case isFalse =>
    rw [StreamRouter.drainLegacyStreams, stash, drainExtra_stashed]
    have still : { router with extra := [] }.requiredSatisfied = true := satisfied
    exact drainArrivals_satisfied still arrivals

theorem route_of_parts {arrivals left left' : List Incoming} {router router' : StreamRouter}
    {session : NativeQuicClientSession}
    (accepted : StreamRouter.acceptStreams control audio sessionId arrivals {} = .ok (router, left))
    (drained : router.drainStash control audio sessionId left = .ok (router', left'))
    (assembled : router'.session = .ok session) :
    routePostAuthStreams control audio sessionId arrivals = .ok (session, left') := by
  simp only [routePostAuthStreams, bind, Except.bind, accepted, drained, assembled]
  rfl

/-- Whatever the order, the session is the same; the streams behind the last of the
four can still be accepted. -/
theorem route_eq {arrivals : List Incoming} (order : arrivals.Perm host.streams) :
    ∃ accepted left, arrivals = accepted ++ left ∧ host.Complete accepted ∧
      (∀ count, host.Complete (arrivals.take count) → accepted.length ≤ count) ∧
      routePostAuthStreams control audio sessionId arrivals = .ok (host.session, left) := by
  obtain ⟨accepted, left, split, complete, least, result⟩ :=
    acceptStreams_slots (List.nil_subset host.streams) order
  rw [List.nil_append] at complete result
  have known : accepted ⊆ host.streams := fun stream member =>
    order.subset (split ▸ List.mem_append_left _ member)
  have satisfied := (requiredSatisfied_slots known).mpr complete
  refine ⟨accepted, left, split, complete, least, ?_⟩
  exact route_of_parts result (drainStash_files rfl satisfied left) (session_slots known complete [])

end Step

/-! ## Every order -/

/-- Each stream that the session holds. -/
def held (session : NativeQuicClientSession) : List Nat :=
  [session.mediaReceiver.id, session.audioReceiver.id, session.inputSender.id,
    session.controlReceiver.id]

/-- The client assembles the session of the host. -/
def Assembled (arrivals : List Incoming) : Prop :=
  ∃ left, routePostAuthStreams control audio sessionId arrivals = .ok (host.session, left)

/-- The client assembles the session of the host, and every file stream that it has
accepted on the way is held by the session, or can be accepted again. -/
def Kept (arrivals : List Incoming) : Prop :=
  ∃ accepted left, arrivals = accepted ++ left ∧
    routePostAuthStreams control audio sessionId arrivals = .ok (host.session, left) ∧
      ∀ stream ∈ host.fileSync, stream ∈ accepted → stream.id ∈ held host.session ∨ stream ∈ left

variable {host} {arrivals accepted left : List Incoming}

theorem order_nodup (order : arrivals.Perm host.streams) : arrivals.Nodup :=
  order.nodup_iff.mpr (List.Nodup.of_map _ ids_nodup)

theorem not_held {stream : Incoming} (file : stream ∈ host.fileSync) :
    stream.id ∉ held host.session := by
  intro is_held
  have apart := (List.nodup_append.mp host.distinct).2.2
  have listed : stream.id ∈ [host.videoId, host.audioId, host.mediaId, host.controlId] := by
    simp only [held, session, List.mem_cons, List.not_mem_nil, or_false] at is_held ⊢
    tauto
  exact apart stream.id listed stream.id (List.mem_map_of_mem file) rfl

/-- The streams that are accepted are the first four, if none of these or of those is
a file stream. -/
theorem files_accepted_iff (order : arrivals.Perm host.streams) (split : arrivals = accepted ++ left)
    (complete : host.Complete accepted)
    (least : ∀ count, host.Complete (arrivals.take count) → accepted.length ≤ count) :
    (∀ stream ∈ host.fileSync, stream ∉ accepted) ↔
      ∀ stream ∈ host.fileSync, stream ∉ arrivals.take 4 := by
  have nodup := order_nodup order
  have required_of {stream} (member : stream ∈ arrivals) (other : stream ∉ host.fileSync) :
      stream ∈ host.required :=
    (List.mem_append.mp (order.subset member)).resolve_right other
  have start : accepted = arrivals.take accepted.length := by rw [split, List.take_left]
  constructor
  · intro none
    have accepted_sub : accepted ⊆ host.required := fun stream member =>
      required_of (split ▸ List.mem_append_left _ member) fun file => none stream file member
    have accepted_nodup : accepted.Nodup := (split ▸ nodup).of_append_left
    have short : accepted.length ≤ 4 := (accepted_nodup.subperm accepted_sub).length_le
    have required_nodup : host.required.Nodup :=
      (List.Nodup.of_map _ ids_nodup : host.streams.Nodup).of_append_left
    have long : 4 ≤ accepted.length := (required_nodup.subperm complete).length_le
    have length : accepted.length = 4 := Nat.le_antisymm short long
    rwa [start, length] at none
  · intro none stream file member
    have first_sub : arrivals.take 4 ⊆ host.required := fun stream member =>
      required_of (List.mem_of_mem_take member) fun file => none stream file member
    have length : (arrivals.take 4).length = 4 := by
      rw [List.length_take, order.length_eq, streams, List.length_append]
      exact Nat.min_eq_left (Nat.le_add_right 4 _)
    have first_nodup : (arrivals.take 4).Nodup := nodup.sublist (List.take_sublist 4 arrivals)
    have same : (arrivals.take 4).Perm host.required :=
      (first_nodup.subperm first_sub).perm_of_length_le (Nat.le_of_eq length.symm)
    have short := least 4 fun stream required => same.mem_iff.mpr required
    rw [start] at member
    exact none stream file (arrivals.take_subset_take_left short member)

theorem assembled (order : arrivals.Perm host.streams) : host.Assembled arrivals := by
  obtain ⟨accepted, left, -, -, -, result⟩ := route_eq order
  exact ⟨left, result⟩

theorem file_kept_iff (order : arrivals.Perm host.streams) :
    host.Kept arrivals ↔ ∀ stream ∈ host.fileSync, stream ∉ arrivals.take 4 := by
  obtain ⟨accepted, left, split, complete, least, result⟩ := route_eq order
  rw [← files_accepted_iff order split complete least]
  constructor
  · rintro ⟨accepted', left', split', result', kept⟩ stream file member
    rw [result] at result'
    obtain rfl : left = left' := congrArg Prod.snd (Except.ok.inj result')
    obtain rfl : accepted = accepted' := List.append_cancel_right (split.symm.trans split')
    have apart := (List.nodup_append.mp (split ▸ order_nodup order)).2.2
    rcases kept stream file member with is_held | waiting
    · exact not_held file is_held
    · exact apart stream member stream waiting rfl
  · intro none
    exact ⟨accepted, left, split, result, fun stream file member =>
      absurd member (none stream file)⟩

/-- Every order gives one session; no file stream is lost exactly if none is among the
first four streams that are accepted. -/
theorem routing_iff (host : MuxHost control audio sessionId) (arrivals : List Incoming)
    (order : arrivals.Perm host.streams) :
    host.Assembled arrivals ∧
      (host.Kept arrivals ↔ ∀ stream ∈ host.fileSync, stream ∉ arrivals.take 4) :=
  ⟨assembled order, file_kept_iff order⟩

end MuxHost

namespace Sample

def video : VideoStreamParams where
  codec := .h264
  width := 1280
  height := 720
  framerate := 30

def audioParams : AudioStreamParams where
  codec := .pcmF32
  sampleRate := 48000
  channels := 2

def textBytes (text : String) : Bytes := text.toList.map fun c => UInt8.ofNat c.toNat

def videoConfigText : String :=
  "\x7b\"kind\":\"video_config\",\"video\":\x7b\"codec\":\"h264\",\"width\":1280," ++
    "\"height\":720,\"framerate\":30\x7d\x7d"

def audioHeaderText : String :=
  "\x7b\"session_id\":\"00000000-0000-0000-0000-000000000000\",\"audio\":\x7b" ++
    "\"codec\":\"pcm_f32\",\"sample_rate\":48000,\"channels\":2\x7d\x7d"

/-- The video configuration as JSON. -/
def videoConfigJson : Codec NativeQuicControlMessage where
  toVec _ := textBytes videoConfigText
  fromSlice _ := .ok (.videoConfig video)

/-- The audio header as JSON. -/
def audioHeaderJson : Codec WireAudioStreamHeader where
  toVec _ := textBytes audioHeaderText
  fromSlice _ := .ok { sessionId := Uuid.nil, audio := audioParams }

theorem videoConfig_readable : videoConfigJson.Readable (.videoConfig video) :=
  ⟨rfl, by rw [Codec.Small]; decide⟩

theorem audioHeader_readable : audioHeaderJson.Readable { sessionId := Uuid.nil, audio := audioParams } :=
  ⟨rfl, by rw [Codec.Small]; decide +kernel⟩

def fileStream : Incoming where
  id := 4
  kind := .bi
  content := streamEnvelope .fileSync

def fileHost : MuxHost videoConfigJson audioHeaderJson Uuid.nil where
  video := video
  audioConfig := audioParams
  videoId := 0
  audioId := 1
  mediaId := 2
  controlId := 3
  videoMore := []
  audioMore := []
  mediaMore := []
  controlMore := []
  fileSync := [fileStream]
  video_readable := videoConfig_readable
  audio_readable := audioHeader_readable
  fileSync_envelope := List.forall_mem_singleton.mpr ⟨[], rfl⟩
  distinct := by decide

/-- The file stream comes last. -/
theorem fileLast_kept : fileHost.Kept fileHost.streams :=
  (MuxHost.routing_iff fileHost fileHost.streams (List.Perm.refl _)).2.mpr
    (List.forall_mem_singleton.mpr fun first =>
      have first : fileStream ∈ fileHost.required := first
      MuxHost.not_file fileStream first (List.mem_map_of_mem (.head _)))

/-- The file stream comes first, and is lost. -/
theorem fileFirst_not_kept :
    (fileStream :: fileHost.required).Perm fileHost.streams ∧
      ¬ fileHost.Kept (fileStream :: fileHost.required) := by
  have order : (fileStream :: fileHost.required).Perm fileHost.streams :=
    List.perm_append_singleton fileStream fileHost.required |>.symm
  refine ⟨order, fun kept => ?_⟩
  exact (MuxHost.file_kept_iff order).mp kept fileStream (.head _) (.head _)

end Sample

end Qubox.Transport
