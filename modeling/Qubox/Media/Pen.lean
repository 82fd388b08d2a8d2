import Qubox.Media.Datagram

/-!
# Pen datagrams

A pen event travels as a 36-byte record behind the magic and the discriminator;
the record repeats both. Coordinates, pressure and angles are single-precision
numbers, which are kept here as their bits: neither side computes with them.
-/

namespace Qubox.Media

inductive PenTool where
  | pen
  | eraser
  | brush
  | airbrush
  | finger
  | mouse
  | lens
  deriving DecidableEq, Repr

def PenTool.wireId : PenTool → UInt8
  | .pen => 0x01
  | .eraser => 0x02
  | .brush => 0x03
  | .airbrush => 0x04
  | .finger => 0x05
  | .mouse => 0x06
  | .lens => 0x07

def PenTool.fromWireId (id : UInt8) : Option PenTool :=
  [PenTool.pen, .eraser, .brush, .airbrush, .finger, .mouse, .lens].find? (·.wireId = id)

theorem PenTool.fromWireId_wireId (tool : PenTool) : fromWireId tool.wireId = some tool := by
  cases tool <;> rfl

def flagLastInBurst : UInt8 := 0x01
def flagHasHover : UInt8 := 0x02
def flagBarrel : UInt8 := 0x04
def flagEraserTip : UInt8 := 0x08

/-- `PenEvent`, its `f32` fields as bits. -/
structure PenEvent where
  deviceId : UInt16
  tool : PenTool
  x : UInt32
  y : UInt32
  pressure : UInt32
  tiltX : UInt32
  tiltY : UInt32
  rotation : UInt32
  buttonState : UInt32
  hoverDistance : UInt16
  timestampUs : UInt32
  flags : UInt8
  deriving DecidableEq, Repr

structure WirePenEvent where
  magic : UInt8 × UInt8 := mediaDatagramMagic
  discriminator : UInt8 := penDiscriminator
  flags : UInt8
  deviceId : UInt16
  toolId : UInt8
  hoverDistance : UInt8
  x : UInt32
  y : UInt32
  pressure : UInt32
  tiltX : UInt32
  tiltY : UInt32
  rotation : UInt32
  timestampUs : UInt32
  deriving DecidableEq, Repr

inductive PenDatagramError where
  | short
  | badMagic
  | badDiscriminator
  | malformed
  deriving DecidableEq, Repr

/-- `PEN_WIRE_SIZE`. -/
def penWireSize : Nat := 36

/-- `to_le_bytes`. -/
def leBytes (width n : Nat) : Bytes := (Bytes.ofNatBE width n).reverse

/-- `from_le_bytes` of the bytes from `offset` on. -/
def leAt (buf : Bytes) (offset width : Nat) : Nat :=
  Bytes.toNatBE ((buf.drop offset).take width).reverse

/-- The flags that `to_wire` passes on, the distance in four bits. -/
def PenEvent.toWire (event : PenEvent) : WirePenEvent where
  flags := event.flags &&& (flagLastInBurst ||| flagHasHover ||| flagBarrel ||| flagEraserTip)
  deviceId := event.deviceId
  toolId := event.tool.wireId
  hoverDistance := if event.hoverDistance = 0xFFFF then 0x0F else (min event.hoverDistance 15).toUInt8
  x := event.x
  y := event.y
  pressure := event.pressure
  tiltX := event.tiltX
  tiltY := event.tiltY
  rotation := event.rotation
  timestampUs := event.timestampUs

namespace WirePenEvent

def toBytes (wire : WirePenEvent) : Bytes :=
  [wire.magic.1, wire.magic.2, wire.discriminator, wire.flags] ++
    leBytes 2 wire.deviceId.toNat ++ [wire.toolId, wire.hoverDistance] ++
    leBytes 4 wire.x.toNat ++ leBytes 4 wire.y.toNat ++ leBytes 4 wire.pressure.toNat ++
    leBytes 4 wire.tiltX.toNat ++ leBytes 4 wire.tiltY.toNat ++ leBytes 4 wire.rotation.toNat ++
    leBytes 4 wire.timestampUs.toNat

def fromBytes (buf : Bytes) : Except PenDatagramError WirePenEvent :=
  match buf with
  | m₀ :: m₁ :: discriminator :: flags :: _ :: _ :: toolId :: hoverDistance :: _ =>
      if buf.length < penWireSize then .error .short
      else if (m₀, m₁) ≠ mediaDatagramMagic then .error .badMagic
      else if discriminator ≠ penDiscriminator then .error .badDiscriminator
      else
        .ok {
          magic := (m₀, m₁)
          discriminator
          flags
          deviceId := .ofNat (leAt buf 4 2)
          toolId
          hoverDistance
          x := .ofNat (leAt buf 8 4)
          y := .ofNat (leAt buf 12 4)
          pressure := .ofNat (leAt buf 16 4)
          tiltX := .ofNat (leAt buf 20 4)
          tiltY := .ofNat (leAt buf 24 4)
          rotation := .ofNat (leAt buf 28 4)
          timestampUs := .ofNat (leAt buf 32 4) }
  | _ => .error .short

theorem length_toBytes (wire : WirePenEvent) : wire.toBytes.length = penWireSize := by
  simp [toBytes, leBytes, penWireSize]

theorem fromBytes_toBytes (wire : WirePenEvent) (magic : wire.magic = mediaDatagramMagic)
    (discriminator : wire.discriminator = penDiscriminator) :
    fromBytes wire.toBytes = .ok wire := by
  have two (n : Nat) : Bytes.toNatBE (leBytes 2 n).reverse = n % 256 ^ 2 := by
    rw [leBytes, List.reverse_reverse, Bytes.toNatBE_ofNatBE]
  have four (n : Nat) : Bytes.toNatBE (leBytes 4 n).reverse = n % 256 ^ 4 := by
    rw [leBytes, List.reverse_reverse, Bytes.toNatBE_ofNatBE]
  have word (value : UInt32) :
      UInt32.ofNat (Bytes.toNatBE (leBytes 4 value.toNat).reverse) = value := by
    rw [four, Nat.mod_eq_of_lt (by simpa using value.toNat_lt), UInt32.ofNat_toNat]
  have half (value : UInt16) :
      UInt16.ofNat (Bytes.toNatBE (leBytes 2 value.toNat).reverse) = value := by
    rw [two, Nat.mod_eq_of_lt (by simpa using value.toNat_lt), UInt16.ofNat_toNat]
  have parsed : fromBytes wire.toBytes =
      if wire.toBytes.length < penWireSize then .error .short
      else if wire.magic ≠ mediaDatagramMagic then .error .badMagic
      else if wire.discriminator ≠ penDiscriminator then .error .badDiscriminator
      else .ok {
        magic := wire.magic
        discriminator := wire.discriminator
        flags := wire.flags
        deviceId := .ofNat (Bytes.toNatBE (leBytes 2 wire.deviceId.toNat).reverse)
        toolId := wire.toolId
        hoverDistance := wire.hoverDistance
        x := .ofNat (Bytes.toNatBE (leBytes 4 wire.x.toNat).reverse)
        y := .ofNat (Bytes.toNatBE (leBytes 4 wire.y.toNat).reverse)
        pressure := .ofNat (Bytes.toNatBE (leBytes 4 wire.pressure.toNat).reverse)
        tiltX := .ofNat (Bytes.toNatBE (leBytes 4 wire.tiltX.toNat).reverse)
        tiltY := .ofNat (Bytes.toNatBE (leBytes 4 wire.tiltY.toNat).reverse)
        rotation := .ofNat (Bytes.toNatBE (leBytes 4 wire.rotation.toNat).reverse)
        timestampUs := .ofNat (Bytes.toNatBE (leBytes 4 wire.timestampUs.toNat).reverse) } := rfl
  rw [parsed, if_neg (by simp [length_toBytes]), if_neg (not_not.mpr magic),
    if_neg (not_not.mpr discriminator)]
  simp only [word, half]

end WirePenEvent

def encodePenDatagram (event : PenEvent) : Bytes :=
  [mediaDatagramMagic.1, mediaDatagramMagic.2, penDiscriminator] ++ event.toWire.toBytes

/-- What a reader makes of a record. An unknown tool counts as a pen. -/
def WirePenEvent.event (wire : WirePenEvent) : PenEvent where
  deviceId := wire.deviceId
  tool := (PenTool.fromWireId wire.toolId).getD .pen
  x := wire.x
  y := wire.y
  pressure := wire.pressure
  tiltX := wire.tiltX
  tiltY := wire.tiltY
  rotation := wire.rotation
  buttonState := (if wire.flags &&& flagBarrel ≠ 0 then 2 else 0) |||
    (if wire.flags &&& flagEraserTip ≠ 0 then 4 else 0)
  hoverDistance := if wire.flags &&& flagHasHover ≠ 0 then wire.hoverDistance.toUInt16 * 8 else 0
  timestampUs := wire.timestampUs
  flags := wire.flags

def decodePenDatagram (payload : Bytes) : Except PenDatagramError PenEvent :=
  match payload with
  | m₀ :: m₁ :: discriminator :: rest =>
      if (m₀, m₁) ≠ mediaDatagramMagic then .error .badMagic
      else if discriminator ≠ penDiscriminator then .error .badDiscriminator
      else
        match WirePenEvent.fromBytes rest with
        | .ok wire => .ok wire.event
        | .error _ => .error .malformed
  | _ => .error .short

/-- The host reads a pen datagram as the record that was sent. -/
theorem decode_encodePenDatagram (event : PenEvent) :
    decodePenDatagram (encodePenDatagram event) = .ok event.toWire.event := by
  have framed : encodePenDatagram event = mediaDatagramMagic.1 :: mediaDatagramMagic.2 ::
      penDiscriminator :: event.toWire.toBytes := rfl
  have magic : ¬ ((mediaDatagramMagic.1, mediaDatagramMagic.2) ≠ mediaDatagramMagic) :=
    fun other => other rfl
  have discriminator : ¬ (penDiscriminator ≠ penDiscriminator) := fun other => other rfl
  rw [framed, decodePenDatagram, if_neg magic, if_neg discriminator,
    WirePenEvent.fromBytes_toBytes event.toWire rfl rfl]

/-- A pen datagram goes to the pen channel as it is. -/
theorem dispatch_pen (event : PenEvent) :
    dispatch (encodePenDatagram event) = .pen (encodePenDatagram event) := rfl

end Qubox.Media
