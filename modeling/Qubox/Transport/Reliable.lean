import Qubox.Transport.Wire

/-!
# Media, audio and control messages

Three kinds of messages go over reliable streams in one way: a length, a JSON
text of that length, and for the media the bytes that the text announces. The
senders accept any size, the receivers have limits; and a receiver takes fewer
bytes than a length has for the end of the stream.
-/

namespace Qubox.Transport

/-! ## Packets -/

/-- A header in JSON that announces the number of bytes that follow it. -/
structure Packets (H R : Type) where
  json : Codec H
  sessionId : H → Uuid
  byteLen : H → Nat
  maxBytes : Nat
  tooLarge : Nat → TransportError
  wrongSession : Uuid → Uuid → TransportError
  headerText : String
  bytesText : String
  received : H → Bytes → R

namespace Packets

variable {H R : Type} (p : Packets H R)

def write (header : H) (bytes : Bytes) : Bytes := writeJsonPrefixed p.json header ++ bytes

def readHeader (stream : Bytes) : Except TransportError (Option (H × Bytes)) :=
  match maybeReadJsonPrefixed p.json stream with
  | .error e => .error e
  | .ok none => .ok none
  | .ok (some (header, rest)) =>
      if p.maxBytes < p.byteLen header then .error (p.tooLarge (p.byteLen header))
      else .ok (some (header, rest))

/-- What is read behind the header. -/
def readBytes (header : H) (stream : Bytes) : Except TransportError (Option (R × Bytes)) :=
  match withContext p.bytesText (readExact (p.byteLen header) stream) with
  | .error e => .error e
  | .ok (bytes, rest) => .ok (some (p.received header bytes, rest))

def read (sessionId : Uuid) (stream : Bytes) : Except TransportError (Option (R × Bytes)) :=
  match withContext p.headerText (p.readHeader stream) with
  | .error e => .error e
  | .ok none => .ok none
  | .ok (some (header, rest)) =>
      if p.sessionId header ≠ sessionId then .error (p.wrongSession (p.sessionId header) sessionId)
      else p.readBytes header rest

end Packets

/-! ## Access units -/


structure H264NalUnitInfo where
  nalType : UInt8
  offset : Nat
  length : Nat
  deriving DecidableEq

structure EncodedVideoAccessUnit where
  codec : VideoCodec
  frameId : UInt64
  timestampMicros : UInt64
  keyframe : Bool
  nalUnits : List H264NalUnitInfo
  bytes : Bytes
  displayId : UInt32
  streamId : UInt16
  width : UInt32
  height : UInt32
  colorSpace : Option ColorSpace
  bitDepth : UInt8
  deriving DecidableEq

/-- `refreshHz` is given by its bits. -/
structure WireAccessUnitHeader where
  sessionId : Uuid
  frameId : UInt64
  timestampMicros : UInt64
  keyframe : Bool
  byteLen : Nat
  codec : Option VideoCodec
  streamId : UInt16
  displayId : UInt32
  width : UInt32
  height : UInt32
  refreshHz : UInt32
  colorSpaceId : UInt8
  hdrStaticMetadata : Option Bytes
  deriving DecidableEq

/-- The start codes from an index on, with their lengths. -/
def findAnnexBStartCodes : (index : Nat) → Bytes → List (Nat × Nat)
  | index, 0 :: 0 :: 1 :: rest => (index, 3) :: findAnnexBStartCodes (index + 3) rest
  | index, 0 :: 0 :: 0 :: 1 :: rest => (index, 4) :: findAnnexBStartCodes (index + 4) rest
  | index, _ :: rest => findAnnexBStartCodes (index + 1) rest
  | _, [] => []

def inspectH264AnnexBNalUnits (bytes : Bytes) : List H264NalUnitInfo :=
  let startCodes := findAnnexBStartCodes 0 bytes
  startCodes.zipIdx.filterMap fun ((start, prefixLen), index) =>
    let offset := start + prefixLen
    let stop := (startCodes[index + 1]?).elim bytes.length Prod.fst
    if stop ≤ offset then none
    else some { nalType := bytes[offset]?.getD 0 &&& 0x1f, offset, length := stop - offset }

/-- The header that `send_access_unit` writes. -/
def accessUnitHeader (sessionId : Uuid) (accessUnit : EncodedVideoAccessUnit) :
    WireAccessUnitHeader where
  sessionId
  frameId := accessUnit.frameId
  timestampMicros := accessUnit.timestampMicros
  keyframe := accessUnit.keyframe
  byteLen := accessUnit.bytes.length
  codec := some accessUnit.codec
  streamId := 0
  displayId := 0
  width := 0
  height := 0
  refreshHz := 0
  colorSpaceId := 0
  hdrStaticMetadata := none

/-- The access unit that `read_access_unit` makes of what it has read. -/
def receivedAccessUnit (header : WireAccessUnitHeader) (bytes : Bytes) : EncodedVideoAccessUnit :=
  let codec := header.codec.getD .h264
  { codec
    frameId := header.frameId
    timestampMicros := header.timestampMicros
    keyframe := header.keyframe
    nalUnits := match codec with
      | .h264 => inspectH264AnnexBNalUnits bytes
      | .h265 | .av1 => []
    bytes
    displayId := header.displayId
    streamId := header.streamId
    width := header.width
    height := header.height
    colorSpace := none
    bitDepth := 8 }

section Media

variable (json : Codec WireAccessUnitHeader) (sessionId : Uuid)

def mediaPackets : Packets WireAccessUnitHeader EncodedVideoAccessUnit where
  json
  sessionId := WireAccessUnitHeader.sessionId
  byteLen := WireAccessUnitHeader.byteLen
  maxBytes := maxVideoAuBytes
  tooLarge := .accessUnitTooLarge
  wrongSession := .mediaSession
  headerText := "failed to read native QUIC media header"
  bytesText := "failed to read native QUIC media bytes"
  received := receivedAccessUnit

def sendAccessUnit (accessUnit : EncodedVideoAccessUnit) : Bytes :=
  (mediaPackets json).write (accessUnitHeader sessionId accessUnit) accessUnit.bytes

def readAccessUnitHeader (stream : Bytes) :
    Except TransportError (Option (WireAccessUnitHeader × Bytes)) :=
  (mediaPackets json).readHeader stream

def readAccessUnit (stream : Bytes) :
    Except TransportError (Option (EncodedVideoAccessUnit × Bytes)) :=
  (mediaPackets json).read sessionId stream

end Media

/-! ## Audio chunks -/

structure NativeQuicAudioChunk where
  chunkId : UInt64
  bytes : Bytes
  deriving DecidableEq

structure WireAudioChunkHeader where
  sessionId : Uuid
  chunkId : UInt64
  byteLen : Nat
  deriving DecidableEq

section Audio

variable (json : Codec WireAudioChunkHeader) (sessionId : Uuid)

def audioPackets : Packets WireAudioChunkHeader NativeQuicAudioChunk where
  json
  sessionId := WireAudioChunkHeader.sessionId
  byteLen := WireAudioChunkHeader.byteLen
  maxBytes := maxAudioChunkBytes
  tooLarge := .audioChunkTooLarge
  wrongSession := .audioSession
  headerText := "failed to read native QUIC audio header"
  bytesText := "failed to read native QUIC audio bytes"
  received header bytes := { chunkId := header.chunkId, bytes }

def audioChunkHeader (chunk : NativeQuicAudioChunk) : WireAudioChunkHeader where
  sessionId
  chunkId := chunk.chunkId
  byteLen := chunk.bytes.length

/-- What is written for a chunk with its id. -/
def sentAudioChunk (chunk : NativeQuicAudioChunk) : Bytes :=
  (audioPackets json).write (audioChunkHeader sessionId chunk) chunk.bytes

structure NativeQuicAudioSender where
  sessionId : Uuid
  nextChunkId : UInt64
  deriving DecidableEq

namespace NativeQuicAudioSender

def sendAudioChunk (sender : NativeQuicAudioSender) (bytes : Bytes) :
    Bytes × NativeQuicAudioSender :=
  (sentAudioChunk json sender.sessionId { chunkId := sender.nextChunkId, bytes },
    { sender with nextChunkId := sender.nextChunkId + 1 })

def sendAudioChunks (sender : NativeQuicAudioSender) : List Bytes → Bytes
  | [] => []
  | bytes :: later =>
      let (written, sender) := sender.sendAudioChunk json bytes
      written ++ sender.sendAudioChunks later

/-- The chunks as the sender numbers them. -/
def numbered (sender : NativeQuicAudioSender) : List Bytes → List NativeQuicAudioChunk
  | [] => []
  | bytes :: later =>
      { chunkId := sender.nextChunkId, bytes } ::
        { sender with nextChunkId := sender.nextChunkId + 1 }.numbered later

/-- The sender writes its chunks one after the other. -/
theorem sendAudioChunks_eq (sender : NativeQuicAudioSender) (chunks : List Bytes) :
    sender.sendAudioChunks json chunks =
      (sender.numbered chunks).flatMap (sentAudioChunk json sender.sessionId) := by
  induction chunks generalizing sender with
  | nil => rfl
  | cons bytes later ih =>
      rw [numbered, List.flatMap_cons]
      exact congrArg (_ ++ ·) (ih { sender with nextChunkId := sender.nextChunkId + 1 })

end NativeQuicAudioSender

def readAudioChunkHeader (stream : Bytes) :
    Except TransportError (Option (WireAudioChunkHeader × Bytes)) :=
  (audioPackets json).readHeader stream

def readAudioChunk (stream : Bytes) :
    Except TransportError (Option (NativeQuicAudioChunk × Bytes)) :=
  (audioPackets json).read sessionId stream

end Audio

/-! ## Control messages -/

section Control

variable {ControlMsg : Type} (json : Codec ControlMsg)

def sendControl (msg : ControlMsg) : Except TransportError Bytes :=
  let bytes := json.toVec msg
  if bytes.length < 2 ^ 32 then .ok (Bytes.ofNatBE 4 bytes.length ++ bytes)
  else .error (.controlMessageTooLarge bytes.length)

def recvControl (stream : Bytes) : Except TransportError (Option (ControlMsg × Bytes)) :=
  match readU32 stream with
  | .error .unexpectedEof => .ok none
  | .error e => .error e
  | .ok (len, rest) =>
      if maxJsonFrame < len then .error (.frameTooLarge len)
      else
        match readExact len rest with
        | .error e => .error e
        | .ok (bytes, rest) =>
            match json.fromSlice bytes with
            | .error e =>
                .error (.context s!"failed to decode control message of {len} bytes" (.json e))
            | .ok msg => .ok (some (msg, rest))

end Control

end Qubox.Transport
