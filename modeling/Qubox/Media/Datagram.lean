import Qubox.Library.Bytes
import Qubox.Proto

/-!
# Media datagrams

Every datagram starts with a two-byte magic. The byte after it tells gamepad,
pen and media datagrams apart; for media it holds the flags of a 14-byte header,
which is followed by the payload of one chunk.
-/

namespace Qubox.Media

/-- `MEDIA_DATAGRAM_MAGIC`. -/
def mediaDatagramMagic : UInt8 × UInt8 := (0x51, 0x42)

/-- Largest value of the byte after the magic in a media datagram. -/
def mediaDiscriminatorMax : UInt8 := 0x3F

def gamepadDiscriminator : UInt8 := 0x47
def penDiscriminator : UInt8 := 0x50

def flagKeyframe : UInt8 := 0x01
def flagParity : UInt8 := 0x02
def flagLastChunk : UInt8 := 0x04

def wireHeaderSize : Nat := 14
def chunkPayloadMax : Nat := 1200

/-- Length of the big-endian frame length behind the last data chunk. -/
def originalLenTrailer : Nat := 4

structure MediaDatagramHeader where
  magic : UInt8 × UInt8 := mediaDatagramMagic
  flags : UInt8
  codec : UInt8
  streamId : UInt16
  frameId : UInt32
  chunkId : UInt16
  chunkCount : UInt16
  deriving DecidableEq, Repr

inductive MediaDatagramError where
  | short
  | badMagic
  deriving DecidableEq, Repr

namespace MediaDatagramHeader

/-- The header as `send_chunk` serialises it. -/
def bytes (header : MediaDatagramHeader) : Bytes :=
  [header.magic.1, header.magic.2, header.flags, header.codec] ++
    Bytes.ofNatBE 2 header.streamId.toNat ++ Bytes.ofNatBE 4 header.frameId.toNat ++
    Bytes.ofNatBE 2 header.chunkId.toNat ++ Bytes.ofNatBE 2 header.chunkCount.toNat

def fromBytes (buf : Bytes) : Except MediaDatagramError MediaDatagramHeader :=
  match buf with
  | m₀ :: m₁ :: flags :: codec :: s₀ :: s₁ :: f₀ :: f₁ :: f₂ :: f₃ :: c₀ :: c₁ :: n₀ :: n₁ :: _ =>
      if (m₀, m₁) ≠ mediaDatagramMagic then
        .error .badMagic
      else
        .ok {
          magic := (m₀, m₁)
          flags
          codec
          streamId := UInt16.ofNat (Bytes.toNatBE [s₀, s₁])
          frameId := UInt32.ofNat (Bytes.toNatBE [f₀, f₁, f₂, f₃])
          chunkId := UInt16.ofNat (Bytes.toNatBE [c₀, c₁])
          chunkCount := UInt16.ofNat (Bytes.toNatBE [n₀, n₁]) }
  | _ => .error .short

theorem length_bytes (header : MediaDatagramHeader) : header.bytes.length = wireHeaderSize := by
  simp [bytes, wireHeaderSize]

theorem ofNat_toNatBE_two (value : UInt16) :
    UInt16.ofNat (Bytes.toNatBE (Bytes.ofNatBE 2 value.toNat)) = value := by
  rw [Bytes.toNatBE_ofNatBE, Nat.mod_eq_of_lt (by simpa using value.toNat_lt), UInt16.ofNat_toNat]

theorem ofNat_toNatBE_four (value : UInt32) :
    UInt32.ofNat (Bytes.toNatBE (Bytes.ofNatBE 4 value.toNat)) = value := by
  rw [Bytes.toNatBE_ofNatBE, Nat.mod_eq_of_lt (by simpa using value.toNat_lt), UInt32.ofNat_toNat]

theorem fromBytes_bytes (header : MediaDatagramHeader) (payload : Bytes)
    (magic : header.magic = mediaDatagramMagic) :
    fromBytes (header.bytes ++ payload) = .ok header := by
  have parsed : fromBytes (header.bytes ++ payload) = .ok {
      magic := header.magic
      flags := header.flags
      codec := header.codec
      streamId := UInt16.ofNat (Bytes.toNatBE (Bytes.ofNatBE 2 header.streamId.toNat))
      frameId := UInt32.ofNat (Bytes.toNatBE (Bytes.ofNatBE 4 header.frameId.toNat))
      chunkId := UInt16.ofNat (Bytes.toNatBE (Bytes.ofNatBE 2 header.chunkId.toNat))
      chunkCount := UInt16.ofNat (Bytes.toNatBE (Bytes.ofNatBE 2 header.chunkCount.toNat)) } :=
    if_neg (not_not.mpr magic)
  simp only [parsed, ofNat_toNatBE_two, ofNat_toNatBE_four]

end MediaDatagramHeader

/-- Where the dispatcher sends a datagram. -/
inductive Route where
  | media (header : MediaDatagramHeader) (payload : Bytes) (parity : Bool)
  | gamepad (datagram : Bytes)
  | pen (datagram : Bytes)
  | dropped
  deriving DecidableEq, Repr

/-- One round of the loop in `DatagramDispatcher::spawn`. -/
def dispatch (buf : Bytes) : Route :=
  match buf with
  | m₀ :: m₁ :: discriminator :: _ =>
      if (m₀, m₁) ≠ mediaDatagramMagic then .dropped
      else if discriminator = gamepadDiscriminator then .gamepad buf
      else if discriminator = penDiscriminator then .pen buf
      else if discriminator ≤ mediaDiscriminatorMax then
        if buf.length < wireHeaderSize then .dropped
        else
          match MediaDatagramHeader.fromBytes buf with
          | .error _ => .dropped
          | .ok header =>
              .media header (buf.drop wireHeaderSize) (header.flags &&& flagParity ≠ 0)
      else .dropped
  | _ => .dropped

/-- A media datagram is routed with the header and payload it was made of. -/
theorem dispatch_media (header : MediaDatagramHeader) (payload : Bytes)
    (magic : header.magic = mediaDatagramMagic) (flags : header.flags ≤ mediaDiscriminatorMax) :
    dispatch (header.bytes ++ payload) =
      .media header payload (header.flags &&& flagParity ≠ 0) := by
  have notGamepad : header.flags ≠ gamepadDiscriminator := by
    intro same
    exact absurd (same ▸ flags) (by decide)
  have notPen : header.flags ≠ penDiscriminator := by
    intro same
    exact absurd (same ▸ flags) (by decide)
  have long : ¬ (header.bytes ++ payload).length < wireHeaderSize := by
    simp [header.length_bytes]
  have unfolded : dispatch (header.bytes ++ payload) =
      if header.magic ≠ mediaDatagramMagic then .dropped
      else if header.flags = gamepadDiscriminator then .gamepad (header.bytes ++ payload)
      else if header.flags = penDiscriminator then .pen (header.bytes ++ payload)
      else if header.flags ≤ mediaDiscriminatorMax then
        if (header.bytes ++ payload).length < wireHeaderSize then .dropped
        else
          match MediaDatagramHeader.fromBytes (header.bytes ++ payload) with
          | .error _ => .dropped
          | .ok header' => .media header' ((header.bytes ++ payload).drop wireHeaderSize)
              (header'.flags &&& flagParity ≠ 0)
      else .dropped := rfl
  rw [unfolded, if_neg (not_not.mpr magic), if_neg notGamepad, if_neg notPen, if_pos flags,
    if_neg long, header.fromBytes_bytes payload magic]
  simp only [← header.length_bytes, List.drop_left]

/-! ## Codecs -/

def codecFromByte (b : UInt8) : VideoCodec :=
  if b = 1 then .h265 else if b = 2 then .av1 else .h264

def codecToByte : VideoCodec → UInt8
  | .h264 => 0
  | .h265 => 1
  | .av1 => 2

end Qubox.Media
