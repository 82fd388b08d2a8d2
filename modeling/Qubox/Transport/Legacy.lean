import Qubox.Transport.Routing

/-!
# Streams of an old host

An old host opens its streams without envelopes. The client has read two bytes of
a stream before it knows, and does not give them back; and it reads a JSON text
from each unidirectional stream to find the audio stream. So whatever it takes for
the media stream has lost its front.
-/

namespace Qubox.Transport

/-- A host that opens its four streams without envelopes. -/
structure LegacyHost (control : Codec NativeQuicControlMessage) (audio : Codec WireAudioStreamHeader)
    (sessionId : Uuid) where
  video : VideoStreamParams
  audioConfig : AudioStreamParams
  videoId : Nat
  audioId : Nat
  mediaId : Nat
  controlId : Nat
  videoMore : Bytes
  audioMore : Bytes
  media : Bytes
  hostControl : Bytes
  video_readable : control.Readable (.videoConfig video)
  audio_readable : audio.Readable { sessionId, audio := audioConfig }
  media_unmarked : media.head? ≠ some streamMagic
  hostControl_unmarked : hostControl.head? ≠ some streamMagic
  distinct : [videoId, audioId, mediaId, controlId].Nodup

/-- A stream that does not begin like an envelope. -/
def Unmarked (stream : Incoming) : Prop := stream.content.head? ≠ some streamMagic

namespace LegacyHost

variable {control : Codec NativeQuicControlMessage} {audio : Codec WireAudioStreamHeader}
  {sessionId : Uuid} (host : LegacyHost control audio sessionId)

def streams : List Incoming :=
  [{ id := host.videoId
     kind := .bi
     content := writeJsonPrefixed control (.videoConfig host.video) ++ host.videoMore },
   { id := host.audioId
     kind := .uni
     content := writeJsonPrefixed audio { sessionId, audio := host.audioConfig } ++ host.audioMore },
   { id := host.mediaId, kind := .uni, content := host.media },
   { id := host.controlId, kind := .uni, content := host.hostControl }]

/-- The client has what the host sent, with its receivers at the first byte of the
media stream and of the control stream. -/
def Read (arrivals : List Incoming) : Prop :=
  ∃ session left, routePostAuthStreams control audio sessionId arrivals = .ok (session, left) ∧
    session.videoConfig = host.video ∧ session.audioConfig = host.audioConfig ∧
      session.mediaReceiver = ⟨host.mediaId, host.media⟩ ∧
        session.controlReceiver = ⟨host.controlId, host.hostControl⟩

end LegacyHost

/-! ## What is read of a stream -/

/-- A length of less than 2^24 begins with a zero byte. -/
theorem writeJsonPrefixed_head {α : Type} {codec : Codec α} {payload : α}
    (small : codec.Small payload) (rest : Bytes) :
    (writeJsonPrefixed codec payload ++ rest).head? = some 0 := by
  rw [Codec.Small, maxJsonFrame] at small
  have front : (codec.toVec payload).length / 256 ^ 3 = 0 := Nat.div_eq_of_lt (by omega)
  rw [writeJsonPrefixed, Bytes.ofNatBE, front]
  rfl

theorem tryReadEnvelope_unmarked {content : Bytes} (unmarked : content.head? ≠ some streamMagic) :
    tryReadEnvelope content = .ok (none, content.drop 2) := by
  match content with
  | [] | [_] => rfl
  | magic :: purpose :: rest =>
      have other : magic ≠ streamMagic := fun same => unmarked (congrArg some same)
      rw [tryReadEnvelope, if_pos other]
      rfl

theorem readExact_length {count : Nat} {stream bytes rest : Bytes}
    (read : readExact count stream = .ok (bytes, rest)) : rest.length + count = stream.length := by
  rw [readExact] at read
  split at read
  case isTrue => cases read
  case isFalse enough =>
    cases read
    rw [List.length_drop]
    omega

theorem readJsonBody_length {α : Type} {codec : Codec α} {len : Nat} {stream rest : Bytes}
    {payload : α} (read : readJsonBody codec len stream = .ok (payload, rest)) :
    rest.length ≤ stream.length := by
  rw [readJsonBody] at read
  split at read
  case isTrue => cases read
  case isFalse =>
    cases body : readExact len stream with
    | error e =>
        rw [body] at read
        cases read
    | ok found =>
        obtain ⟨bytes, behind⟩ := found
        rw [body] at read
        cases parsed : codec.fromSlice bytes with
        | error e =>
            simp only [parsed] at read
            cases read
        | ok payload' =>
            simp only [parsed] at read
            cases read
            have length := readExact_length body
            omega

/-- Reading a JSON text takes at least its length from the stream. -/
theorem readJsonPrefixed_shorter {α : Type} {codec : Codec α} {stream rest : Bytes} {payload : α}
    (read : readJsonPrefixed codec stream = .ok (payload, rest)) : rest.length < stream.length := by
  rw [readJsonPrefixed, readU32] at read
  cases front : readExact 4 stream with
  | error e =>
      rw [front] at read
      cases read
  | ok found =>
      obtain ⟨bytes, behind⟩ := found
      rw [front] at read
      have length := readExact_length front
      have later : rest.length ≤ behind.length := readJsonBody_length read
      omega

/-! ## What becomes the media stream -/

section Drain

variable {control : Codec NativeQuicControlMessage} {audio : Codec WireAudioStreamHeader}
  {sessionId : Uuid} {arrivals : List Incoming} {router router' : StreamRouter}

/-- The media stream, if there is one, has lost its front. -/
def Bitten (arrivals : List Incoming) (router : StreamRouter) : Prop :=
  ∀ recv, router.mediaRecv = some recv →
    ∃ stream ∈ arrivals, stream.id = recv.id ∧ recv.rest.length < stream.content.length

theorem drainBi_mediaRecv {send : SendStream} {recv : RecvStream}
    (drained : router.drainBi control send recv = .ok router') :
    router'.mediaRecv = router.mediaRecv := by
  rw [StreamRouter.drainBi] at drained
  split at drained
  · cases drained
  · split at drained <;> cases drained <;> rfl
  · cases drained
    rfl

/-- A unidirectional stream becomes the audio stream, or goes on as it is left. -/
theorem drainUni_cases {recv : RecvStream} {other : StreamRouter → RecvStream → StreamRouter}
    (drained : router.drainUni audio sessionId recv other = .ok router') :
    router'.mediaRecv = router.mediaRecv ∨
      ∃ rest, rest.length < recv.rest.length ∧ router' = other router { recv with rest } := by
  rw [StreamRouter.drainUni] at drained
  cases read : readJsonPrefixed audio recv.rest with
  | error e =>
      rw [read] at drained
      cases drained
  | ok found =>
      obtain ⟨header, rest⟩ := found
      rw [read] at drained
      simp only [withContext, Except.mapError] at drained
      split at drained
      case isTrue =>
        cases drained
        exact .inl rfl
      case isFalse =>
        cases drained
        exact .inr ⟨rest, readJsonPrefixed_shorter read, rfl⟩

theorem accept_unmarked {stream : Incoming} (unmarked : Unmarked stream) :
    acceptNextStreamEnvelope stream =
      .ok (match stream.kind with
        | .bi => .legacyBi ⟨stream.id⟩ ⟨stream.id, stream.content.drop 2⟩
        | .uni => .legacyUni ⟨stream.id, stream.content.drop 2⟩) := by
  rw [acceptNextStreamEnvelope, tryReadEnvelope_unmarked unmarked]
  cases stream.kind <;> rfl

/-- One stream of the connection. -/
theorem Bitten.arrival {stream : Incoming} (bitten : Bitten arrivals router)
    (mem : stream ∈ arrivals) (unmarked : Unmarked stream) {accepted : AcceptedStream}
    (took : acceptNextStreamEnvelope stream = .ok accepted)
    (drained : router.drainArrival control audio sessionId accepted = .ok router') :
    Bitten arrivals router' := by
  rw [accept_unmarked unmarked] at took
  cases took
  cases kind : stream.kind with
  | bi =>
      rw [kind] at drained
      intro recv
      rw [drainBi_mediaRecv drained]
      exact bitten recv
  | uni =>
      rw [kind] at drained
      rcases drainUni_cases drained with same | ⟨rest, shorter, rfl⟩
      · intro recv
        rw [same]
        exact bitten recv
      · intro recv media
        rw [StreamRouter.asMediaOrControl] at media
        split at media
        case isTrue =>
          cases media
          refine ⟨stream, mem, rfl, Nat.lt_of_lt_of_le shorter ?_⟩
          rw [List.length_drop]
          exact Nat.sub_le _ _
        case isFalse => exact bitten recv media

theorem Bitten.drainArrivals {pending left : List Incoming} (bitten : Bitten arrivals router)
    (known : pending ⊆ arrivals) (unmarked : ∀ stream ∈ pending, Unmarked stream)
    (drained : router.drainArrivals control audio sessionId pending = .ok (router', left)) :
    Bitten arrivals router' := by
  induction pending generalizing router with
  | nil =>
      rw [StreamRouter.drainArrivals] at drained
      split at drained
      · cases drained
        exact bitten
      · cases drained
  | cons stream pending ih =>
      rw [StreamRouter.drainArrivals] at drained
      split at drained
      case isTrue =>
        cases drained
        exact bitten
      case isFalse =>
        cases took : acceptNextStreamEnvelope stream with
        | error e =>
            rw [took] at drained
            cases drained
        | ok accepted =>
            rw [took] at drained
            cases next : router.drainArrival control audio sessionId accepted with
            | error e =>
                simp only [next] at drained
                cases drained
            | ok router'' =>
                simp only [next] at drained
                have mem := known List.mem_cons_self
                have bitten := bitten.arrival mem (unmarked stream List.mem_cons_self) took next
                exact ih bitten (fun _ member => known (.tail _ member))
                  (fun stream member => unmarked stream (.tail _ member)) drained

theorem drainExtra_mediaRecv {stream : AcceptedStream}
    (drained : router.drainExtra control audio sessionId stream = .ok router') :
    router'.mediaRecv = router.mediaRecv := by
  cases stream with
  | bi purpose send recv | uni purpose recv =>
      cases drained
      rfl
  | legacyBi send recv => exact drainBi_mediaRecv drained
  | legacyUni recv =>
      rcases drainUni_cases drained with same | ⟨rest, -, rfl⟩
      · exact same
      · rfl

theorem drainExtras_mediaRecv {extras : List AcceptedStream}
    (drained : extras.foldlM (StreamRouter.drainExtra control audio sessionId) router =
      .ok router') : router'.mediaRecv = router.mediaRecv := by
  induction extras generalizing router with
  | nil =>
      cases drained
      rfl
  | cons stream extras ih =>
      rw [List.foldlM_cons] at drained
      cases first : router.drainExtra control audio sessionId stream with
      | error e =>
          rw [first] at drained
          cases drained
      | ok router'' =>
          rw [first] at drained
          exact (ih drained).trans (drainExtra_mediaRecv first)

/-- The stash has no media stream for the session. -/
theorem Bitten.drainStash {left left' : List Incoming} (none_yet : router.mediaRecv = none)
    (known : left ⊆ arrivals) (unmarked : ∀ stream ∈ left, Unmarked stream)
    (drained : router.drainStash control audio sessionId left = .ok (router', left')) :
    Bitten arrivals router' := by
  have start {router : StreamRouter} (nothing : router.mediaRecv = none) :
      Bitten arrivals router := by
    intro recv media
    rw [nothing] at media
    cases media
  rw [StreamRouter.drainStash] at drained
  split at drained
  case isTrue =>
    cases drained
    exact start none_yet
  case isFalse =>
    rw [StreamRouter.drainLegacyStreams] at drained
    split at drained
    case h_1 => cases drained
    case h_2 stashed extras =>
      have nothing : stashed.mediaRecv = none := (drainExtras_mediaRecv extras).trans none_yet
      exact (start nothing).drainArrivals known unmarked drained

/-- The router stops at the first stream that has no envelope. -/
theorem acceptStreams_unmarked {left : List Incoming}
    (unmarked : ∀ stream ∈ arrivals, Unmarked stream)
    (accepted : StreamRouter.acceptStreams control audio sessionId arrivals {} = .ok (router, left)) :
    router.mediaRecv = none ∧ left ⊆ arrivals := by
  cases arrivals with
  | nil => cases accepted
  | cons stream later =>
      have legacy := accept_unmarked (unmarked stream List.mem_cons_self)
      rw [StreamRouter.acceptStreams, legacy] at accepted
      cases kind : stream.kind with
      | bi | uni =>
          rw [kind] at accepted
          cases accepted
          exact ⟨rfl, List.subset_cons_self _ _⟩

theorem bind_ok {ε α β : Type} {first : Except ε α} {next : α → Except ε β} {b : β}
    (done : first >>= next = .ok b) : ∃ a, first = .ok a ∧ next a = .ok b := by
  cases first with
  | error e => cases done
  | ok a => exact ⟨a, rfl, done⟩

theorem orMissing_ok {α : Type} {what : String} {found : Option α} {a : α}
    (there : orMissing what found = .ok a) : found = some a := by
  cases found with
  | none => cases there
  | some a' =>
      cases there
      rfl

theorem session_mediaReceiver {session : NativeQuicClientSession}
    (assembled : router.session = .ok session) : router.mediaRecv = some session.mediaReceiver := by
  obtain ⟨video, -, assembled⟩ := bind_ok assembled
  obtain ⟨header, -, assembled⟩ := bind_ok assembled
  obtain ⟨media, there, assembled⟩ := bind_ok assembled
  obtain ⟨hostControl, -, assembled⟩ := bind_ok assembled
  obtain ⟨send, -, assembled⟩ := bind_ok assembled
  obtain ⟨recv, -, assembled⟩ := bind_ok assembled
  cases assembled
  exact orMissing_ok there

/-- No session that is made of streams without envelopes has its media stream from the
first byte. -/
theorem route_unmarked {session : NativeQuicClientSession} {left : List Incoming}
    (unmarked : ∀ stream ∈ arrivals, Unmarked stream)
    (routed : routePostAuthStreams control audio sessionId arrivals = .ok (session, left)) :
    ∃ stream ∈ arrivals, stream.id = session.mediaReceiver.id ∧
      session.mediaReceiver.rest.length < stream.content.length := by
  obtain ⟨⟨router, pending⟩, accepted, routed⟩ := bind_ok routed
  obtain ⟨⟨router', left'⟩, drained, routed⟩ := bind_ok routed
  obtain ⟨session', assembled, routed⟩ := bind_ok routed
  cases routed
  obtain ⟨nothing, known⟩ := acceptStreams_unmarked unmarked accepted
  have bitten := Bitten.drainStash nothing known
    (fun stream member => unmarked stream (known member)) drained
  exact bitten session.mediaReceiver (session_mediaReceiver assembled)

end Drain

namespace LegacyHost

variable {control : Codec NativeQuicControlMessage} {audio : Codec WireAudioStreamHeader}
  {sessionId : Uuid}

theorem streams_unmarked (host : LegacyHost control audio sessionId) :
    ∀ stream ∈ host.streams, Unmarked stream := by
  have marked (rest : Option UInt8) (zero : rest = some 0) : rest ≠ some streamMagic := by
    rw [zero]
    decide
  simp only [streams, List.forall_mem_cons, List.not_mem_nil, false_imp_iff, implies_true, and_true]
  exact ⟨marked _ (writeJsonPrefixed_head host.video_readable.2 _),
    marked _ (writeJsonPrefixed_head host.audio_readable.2 _), host.media_unmarked,
    host.hostControl_unmarked⟩

theorem eq_media_of_id (host : LegacyHost control audio sessionId) {stream : Incoming}
    (mem : stream ∈ host.streams) (same : stream.id = host.mediaId) :
    stream.content = host.media := by
  have distinct := host.distinct
  simp only [List.nodup_cons, List.mem_cons, List.not_mem_nil, or_false, not_or] at distinct
  obtain ⟨⟨-, video_media, -⟩, ⟨audio_media, -⟩, media_control, -⟩ := distinct
  simp only [streams, List.mem_cons, List.not_mem_nil, or_false] at mem
  rcases mem with rfl | rfl | rfl | rfl
  · exact absurd same video_media
  · exact absurd same audio_media
  · rfl
  · exact absurd same.symm media_control

/-- No old host is read, whatever the order of its streams. -/
theorem not_read (host : LegacyHost control audio sessionId) (arrivals : List Incoming)
    (order : arrivals.Perm host.streams) : ¬ host.Read arrivals := by
  rintro ⟨session, left, routed, -, -, media, -⟩
  obtain ⟨stream, mem, same, shorter⟩ := route_unmarked
    (fun stream member => host.streams_unmarked stream (order.subset member)) routed
  rw [media] at same shorter
  rw [host.eq_media_of_id (order.subset mem) same] at shorter
  exact Nat.lt_irrefl _ shorter

end LegacyHost

namespace Sample

def oldHost : LegacyHost videoConfigJson audioHeaderJson Uuid.nil where
  video := video
  audioConfig := audioParams
  videoId := 0
  audioId := 1
  mediaId := 2
  controlId := 3
  videoMore := []
  audioMore := [0, 0, 0, 8, 1, 0, 1, 0, 255, 255, 1, 0]
  media := [0, 0, 0, 3, 9, 16, 7]
  hostControl := [0, 0, 0, 2, 123, 125]
  video_readable := videoConfig_readable
  audio_readable := audioHeader_readable
  media_unmarked := by decide
  hostControl_unmarked := by decide
  distinct := by decide

/-- Control, media and audio come before the video configuration. -/
theorem oldHost_not_read : ¬ oldHost.Read oldHost.streams.reverse :=
  LegacyHost.not_read oldHost oldHost.streams.reverse (List.reverse_perm _)

/-- The length of the video configuration is read from its two lower bytes and the
first two bytes of the text. -/
theorem oldHost_refused :
    routePostAuthStreams videoConfigJson audioHeaderJson Uuid.nil oldHost.streams =
        .error (.context "failed to read legacy control message" (.jsonTooLarge 5864226)) ∧
      ¬ oldHost.Read oldHost.streams := by
  have refused : routePostAuthStreams videoConfigJson audioHeaderJson Uuid.nil oldHost.streams =
      .error (.context "failed to read legacy control message" (.jsonTooLarge 5864226)) := rfl
  refine ⟨refused, ?_⟩
  rintro ⟨session, left, routed, -⟩
  rw [refused] at routed
  cases routed

end Sample

end Qubox.Transport
