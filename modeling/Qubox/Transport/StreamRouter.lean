import Qubox.RemoteInput
import Qubox.Transport.Wire

/-!
# Dispatching the streams of a session

After authentication the host opens four streams, each of which starts with an
envelope of two bytes. The client takes the streams as they arrive, reads the
envelope and slots the stream in. A stream without an envelope is the sign of an
old host, whose streams are told apart by what is in them. The connection is
given by the streams that are still to be accepted from it, with all that is
written to them.
-/

namespace Qubox.Transport

/-! ## Envelopes -/

def streamMagic : UInt8 := 0xA1

inductive StreamPurpose where
  | videoConfig
  | audio
  | media
  | hostControl
  | input
  | fileSync
  deriving DecidableEq

namespace StreamPurpose

def asByte : StreamPurpose → UInt8
  | .videoConfig => 0x01
  | .audio => 0x02
  | .media => 0x03
  | .hostControl => 0x04
  | .input => 0x05
  | .fileSync => 0x06

def fromByte : UInt8 → Option StreamPurpose
  | 0x01 => some .videoConfig
  | 0x02 => some .audio
  | 0x03 => some .media
  | 0x04 => some .hostControl
  | 0x05 => some .input
  | 0x06 => some .fileSync
  | _ => none

theorem fromByte_asByte (purpose : StreamPurpose) : fromByte purpose.asByte = some purpose := by
  cases purpose <;> rfl

end StreamPurpose

/-- `StreamEnvelope::encode`. -/
def streamEnvelope (purpose : StreamPurpose) : Bytes := [streamMagic, purpose.asByte]

/-- The purpose, if the stream has one, and what is left of the stream. -/
def tryReadEnvelope : Bytes → Except TransportError (Option StreamPurpose × Bytes)
  | magic :: purpose :: rest =>
      if magic ≠ streamMagic then .ok (none, rest)
      else
        match StreamPurpose.fromByte purpose with
        | some purpose => .ok (some purpose, rest)
        | none => .error (.unknownPurpose purpose)
  | _ => .ok (none, [])

/-! ## Streams -/

inductive StreamKind where
  | bi
  | uni
  deriving DecidableEq

/-- A stream that the peer has opened, with all that it writes. -/
structure Incoming where
  id : Nat
  kind : StreamKind
  content : Bytes
  deriving DecidableEq

structure SendStream where
  id : Nat
  deriving DecidableEq

structure RecvStream where
  id : Nat
  rest : Bytes
  deriving DecidableEq

inductive AcceptedStream where
  | bi (purpose : StreamPurpose) (send : SendStream) (recv : RecvStream)
  | uni (purpose : StreamPurpose) (recv : RecvStream)
  | legacyBi (send : SendStream) (recv : RecvStream)
  | legacyUni (recv : RecvStream)
  deriving DecidableEq

def acceptNextStreamEnvelope (stream : Incoming) : Except TransportError AcceptedStream :=
  match tryReadEnvelope stream.content with
  | .error e => .error e
  | .ok (purpose, rest) =>
      let send : SendStream := ⟨stream.id⟩
      let recv : RecvStream := ⟨stream.id, rest⟩
      match stream.kind, purpose with
      | .bi, some purpose => .ok (.bi purpose send recv)
      | .bi, none => .ok (.legacyBi send recv)
      | .uni, some purpose => .ok (.uni purpose recv)
      | .uni, none => .ok (.legacyUni recv)

/-! ## The router -/

inductive NativeQuicControlMessage where
  | videoConfig (video : VideoStreamParams)
  | input (event : RemoteInputEvent)
  deriving DecidableEq

structure WireAudioStreamHeader where
  sessionId : Uuid
  audio : AudioStreamParams
  deriving DecidableEq

structure StreamRouter where
  videoConfig : Option VideoStreamParams := none
  audioHeader : Option WireAudioStreamHeader := none
  audioRecv : Option RecvStream := none
  mediaRecv : Option RecvStream := none
  controlSend : Option SendStream := none
  controlRecv : Option RecvStream := none
  extra : List AcceptedStream := []
  deriving DecidableEq

namespace StreamRouter

def requiredSatisfied (router : StreamRouter) : Bool :=
  router.videoConfig.isSome && router.audioHeader.isSome && router.audioRecv.isSome &&
    router.mediaRecv.isSome && router.controlSend.isSome && router.controlRecv.isSome

def debugHave (router : StreamRouter) : String :=
  let part (name : String) (have' : Bool) := if have' then [name] else []
  ",".intercalate (part "video_config" router.videoConfig.isSome ++
    part "audio_header" router.audioHeader.isSome ++ part "audio_recv" router.audioRecv.isSome ++
    part "media_recv" router.mediaRecv.isSome ++ part "control_send" router.controlSend.isSome ++
    part "control_recv" router.controlRecv.isSome)

section Json

variable (control : Codec NativeQuicControlMessage) (audio : Codec WireAudioStreamHeader)
  (sessionId : Uuid)

/-- What is done with a bidirectional stream that has an envelope. -/
def acceptBi (router : StreamRouter) (purpose : StreamPurpose) (send : SendStream)
    (recv : RecvStream) : Except TransportError StreamRouter :=
  match purpose with
  | .videoConfig =>
      match withContext "failed to read video config" (readJsonPrefixed control recv.rest) with
      | .error e => .error e
      | .ok (.videoConfig video, _) =>
          .ok { router with videoConfig := some video, controlSend := some send }
      | .ok (.input _, _) => .error .notVideoConfig
  | .fileSync => .ok { router with extra := router.extra ++ [.bi .fileSync send recv] }
  | .audio | .media | .hostControl | .input => .ok router

/-- What is done with a unidirectional stream that has an envelope. -/
def acceptUni (router : StreamRouter) (purpose : StreamPurpose) (recv : RecvStream) :
    Except TransportError StreamRouter :=
  match purpose with
  | .audio =>
      match withContext "failed to read audio header" (readJsonPrefixed audio recv.rest) with
      | .error e => .error e
      | .ok (header, rest) =>
          if header.sessionId ≠ sessionId then
            .error (.audioStreamSession header.sessionId sessionId)
          else .ok { router with
            audioHeader := some header
            audioRecv := some { recv with rest } }
  | .media => .ok { router with mediaRecv := some recv }
  | .hostControl => .ok { router with controlRecv := some recv }
  | .fileSync => .ok { router with extra := router.extra ++ [.uni .fileSync recv] }
  | .input | .videoConfig => .ok router

/-- The loop over the streams, up to the first legacy one. The list has them in the order
in which `accept_next_stream_envelope` accepts them: its select is biased, so a waiting
bidirectional stream comes before the unidirectional ones that wait with it. -/
def acceptStreams : List Incoming → StreamRouter →
    Except TransportError (StreamRouter × List Incoming)
  | [], router =>
      if router.requiredSatisfied then .ok (router, [])
      else .error (.timedOut router.debugHave)
  | stream :: later, router =>
      if router.requiredSatisfied then .ok (router, stream :: later)
      else
        match withContext "failed to accept next stream" (acceptNextStreamEnvelope stream) with
        | .error e => .error e
        | .ok (.bi purpose send recv) =>
            match router.acceptBi control purpose send recv with
            | .error e => .error e
            | .ok router => acceptStreams later router
        | .ok (.uni purpose recv) =>
            match router.acceptUni audio sessionId purpose recv with
            | .error e => .error e
            | .ok router => acceptStreams later router
        | .ok stream => .ok ({ router with extra := router.extra ++ [stream] }, later)

/-! ## Streams without an envelope -/

/-- A legacy bidirectional stream. -/
def drainBi (router : StreamRouter) (send : SendStream) (recv : RecvStream) :
    Except TransportError StreamRouter :=
  match withContext "failed to read legacy control message" (readJsonPrefixed control recv.rest) with
  | .error e => .error e
  | .ok (.videoConfig video, _) =>
      if router.videoConfig.isNone then
        .ok { router with videoConfig := some video, controlSend := some send }
      else .ok router
  | .ok (.input _, _) => .ok router

/-- A legacy unidirectional stream, where `other` is what becomes of a stream that is
not the audio stream. -/
def drainUni (router : StreamRouter) (recv : RecvStream)
    (other : StreamRouter → RecvStream → StreamRouter) : Except TransportError StreamRouter :=
  match withContext "failed to read legacy uni header" (readJsonPrefixed audio recv.rest) with
  | .error e => .error e
  | .ok (header, rest) =>
      if header.sessionId = sessionId ∧ router.audioHeader.isNone then
        .ok { router with audioHeader := some header, audioRecv := some { recv with rest } }
      else .ok (other router { recv with rest })

def asControl (router : StreamRouter) (recv : RecvStream) : StreamRouter :=
  { router with controlRecv := some recv }

def asMediaOrControl (router : StreamRouter) (recv : RecvStream) : StreamRouter :=
  if router.mediaRecv.isNone then { router with mediaRecv := some recv } else router.asControl recv

/-- A stream from the stash. -/
def drainExtra (router : StreamRouter) : AcceptedStream → Except TransportError StreamRouter
  | .legacyBi send recv => router.drainBi control send recv
  | .legacyUni recv => router.drainUni audio sessionId recv asControl
  | .bi _ _ _ | .uni _ _ => .ok router

/-- A stream from the connection. -/
def drainArrival (router : StreamRouter) : AcceptedStream → Except TransportError StreamRouter
  | .legacyUni recv => router.drainUni audio sessionId recv asMediaOrControl
  | .legacyBi send recv => router.drainBi control send recv
  | .bi _ _ _ | .uni _ _ => .ok router

def drainArrivals : List Incoming → StreamRouter →
    Except TransportError (StreamRouter × List Incoming)
  | [], router =>
      if router.requiredSatisfied then .ok (router, [])
      else .error (.legacyTimedOut router.debugHave)
  | stream :: later, router =>
      if router.requiredSatisfied then .ok (router, stream :: later)
      else
        match acceptNextStreamEnvelope stream with
        | .error e => .error e
        | .ok accepted =>
            match router.drainArrival control audio sessionId accepted with
            | .error e => .error e
            | .ok router => drainArrivals later router

def drainLegacyStreams (router : StreamRouter) (arrivals : List Incoming) :
    Except TransportError (StreamRouter × List Incoming) :=
  match router.extra.foldlM (drainExtra control audio sessionId) { router with extra := [] } with
  | .error e => .error e
  | .ok router => router.drainArrivals control audio sessionId arrivals

/-- Streams in the stash are taken for legacy ones. -/
def drainStash (router : StreamRouter) (arrivals : List Incoming) :
    Except TransportError (StreamRouter × List Incoming) :=
  if router.extra = [] then .ok (router, arrivals)
  else router.drainLegacyStreams control audio sessionId arrivals

end Json

end StreamRouter

/-! ## The session -/

/-- The streams of a session, under the names of their handlers. -/
structure NativeQuicClientSession where
  videoConfig : VideoStreamParams
  audioConfig : AudioStreamParams
  mediaReceiver : RecvStream
  audioReceiver : RecvStream
  inputSender : SendStream
  controlReceiver : RecvStream
  deriving DecidableEq

/-- `ok_or_else`. -/
def orMissing {α : Type} (what : String) : Option α → Except TransportError α
  | some a => .ok a
  | none => .error (.missing what)

def StreamRouter.session (router : StreamRouter) :
    Except TransportError NativeQuicClientSession := do
  let videoConfig ← orMissing "VideoConfig stream" router.videoConfig
  let audioHeader ← orMissing "Audio stream" router.audioHeader
  let mediaRecv ← orMissing "Media stream" router.mediaRecv
  let controlRecv ← orMissing "HostControl stream" router.controlRecv
  let controlSend ← orMissing "control bi-stream" router.controlSend
  let audioRecv ← orMissing "audio recv stream" router.audioRecv
  return { videoConfig, audioConfig := audioHeader.audio, mediaReceiver := mediaRecv
           audioReceiver := audioRecv, inputSender := controlSend, controlReceiver := controlRecv }

section Json

variable (control : Codec NativeQuicControlMessage) (audio : Codec WireAudioStreamHeader)
  (sessionId : Uuid)

/-- The session, and the streams that can still be accepted from its connection. -/
def routePostAuthStreams (arrivals : List Incoming) :
    Except TransportError (NativeQuicClientSession × List Incoming) := do
  let (router, arrivals) ← StreamRouter.acceptStreams control audio sessionId arrivals {}
  let (router, arrivals) ← router.drainStash control audio sessionId arrivals
  let session ← router.session
  return (session, arrivals)

end Json

end Qubox.Transport
