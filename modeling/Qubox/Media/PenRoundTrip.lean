import Mathlib.Data.Nat.Bitwise
import Qubox.Library.Checked
import Qubox.Media.Pen

/-!
# What a pen datagram carries

The decoder of pen datagrams is given any bytes that arrive, so its indices and
slices are checked here. What it makes of the datagram of an event is the event
with a hover distance that is scaled on one side only, and with the buttons and
flags for which the record has room.
-/

namespace Qubox.Media

/-! ## Any bytes are decoded -/

/-- `f32::from_le_bytes` and its like, of bytes that are indexed one by one. -/
def leAt? (buf : Bytes) (offset width : Nat) : Option Nat := do
  let bytes ← (List.range width).mapM fun i => buf[offset + i]?
  return Bytes.toNatBE bytes.reverse

/-- `WirePenEvent::from_bytes` with its indices: no result stands for a panic. -/
def WirePenEvent.fromBytes? (buf : Bytes) : Option (Except PenDatagramError WirePenEvent) := do
  if buf.length < penWireSize then return .error .short
  if (← buf.slice? 0 2) ≠ [0x51, 0x42] then return .error .badMagic
  if (← buf[2]?) ≠ penDiscriminator then return .error .badDiscriminator
  return .ok {
    magic := (← buf[0]?, ← buf[1]?)
    discriminator := ← buf[2]?
    flags := ← buf[3]?
    deviceId := .ofNat (← leAt? buf 4 2)
    toolId := ← buf[6]?
    hoverDistance := ← buf[7]?
    x := .ofNat (← leAt? buf 8 4)
    y := .ofNat (← leAt? buf 12 4)
    pressure := .ofNat (← leAt? buf 16 4)
    tiltX := .ofNat (← leAt? buf 20 4)
    tiltY := .ofNat (← leAt? buf 24 4)
    rotation := .ofNat (← leAt? buf 28 4)
    timestampUs := .ofNat (← leAt? buf 32 4) }

/-- `decode_pen_datagram` with its indices. -/
def decodePenDatagram? (payload : Bytes) : Option (Except PenDatagramError PenEvent) := do
  if payload.length < 3 then return .error .short
  if (← payload.slice? 0 2) ≠ [mediaDatagramMagic.1, mediaDatagramMagic.2] then
    return .error .badMagic
  if (← payload[2]?) ≠ penDiscriminator then return .error .badDiscriminator
  match ← WirePenEvent.fromBytes? (← payload.slice? 3 payload.length) with
  | .ok wire => return .ok wire.event
  | .error _ => return .error .malformed

theorem leAt?_eq {buf : Bytes} {offset width : Nat} (inside : offset + width ≤ buf.length) :
    leAt? buf offset width = some (leAt buf offset width) := by
  have read : (List.range width).mapM (fun i => buf[offset + i]?) =
      some ((List.range width).map fun i => buf.getD (offset + i) 0) := by
    apply List.mapM_eq_some_map
    intro i member
    have low : offset + i < buf.length := by
      have := List.mem_range.mp member
      omega
    rw [List.getD_eq_getElem?_getD, List.getElem?_eq_getElem low]
    rfl
  have taken : (List.range width).map (fun i => buf.getD (offset + i) 0) =
      (buf.drop offset).take width := by
    apply List.ext_getElem
    · simp only [List.length_map, List.length_range, List.length_take, List.length_drop]
      omega
    · intro i low _
      rw [List.length_map, List.length_range] at low
      have bound : offset + i < buf.length := by omega
      simp [List.getD_eq_getElem?_getD, List.getElem?_eq_getElem bound]
  rw [leAt?, read, taken]
  rfl

theorem WirePenEvent.fromBytes?_eq (buf : Bytes) : fromBytes? buf = some (fromBytes buf) := by
  by_cases short : buf.length < penWireSize
  · rw [fromBytes?, if_pos short, fromBytes.eq_def]
    split
    case h_1 => rw [if_pos short]; rfl
    case h_2 => rfl
  · have long : 36 ≤ buf.length := Nat.le_of_not_lt short
    have words (offset : Nat) (fits : offset + 4 ≤ 36) :
        leAt? buf offset 4 = some (leAt buf offset 4) := leAt?_eq (by omega)
    have half : leAt? buf 4 2 = some (leAt buf 4 2) := leAt?_eq (by omega)
    match buf with
    | m₀ :: m₁ :: discriminator :: flags :: d₀ :: d₁ :: toolId :: hoverDistance :: rest =>
        have magic : (m₀ :: m₁ :: discriminator :: flags :: d₀ :: d₁ :: toolId :: hoverDistance ::
            rest).slice? 0 2 = some [m₀, m₁] := List.slice?_eq (by omega) (by omega)
        rw [fromBytes?, if_neg short, fromBytes, if_neg short, magic]
        simp only [words 8 (by omega), words 12 (by omega), words 16 (by omega),
          words 20 (by omega), words 24 (by omega), words 28 (by omega), words 32 (by omega), half]
        have same : [m₀, m₁] = [0x51, 0x42] ↔ (m₀, m₁) = mediaDatagramMagic := by
          simp [mediaDatagramMagic]
        by_cases known : (m₀, m₁) = mediaDatagramMagic
        · by_cases pen : discriminator = penDiscriminator
          · simp [same.mpr known, known, pen]
          · simp [same.mpr known, known, pen]
        · simp [same, known]

theorem decodePenDatagram?_eq (payload : Bytes) :
    decodePenDatagram? payload = some (decodePenDatagram payload) := by
  match payload with
  | [] => rfl
  | [_] => rfl
  | [_, _] => rfl
  | m₀ :: m₁ :: discriminator :: rest =>
      have long : ¬ (m₀ :: m₁ :: discriminator :: rest).length < 3 := by simp
      have magic : (m₀ :: m₁ :: discriminator :: rest).slice? 0 2 = some [m₀, m₁] :=
        List.slice?_eq (by omega) (by simp)
      have behind : (m₀ :: m₁ :: discriminator :: rest).slice? 3
          (m₀ :: m₁ :: discriminator :: rest).length = some rest := by
        rw [List.slice?_eq (by simp) le_rfl, ← List.length_drop, List.take_length]
        rfl
      have same : [m₀, m₁] = [mediaDatagramMagic.1, mediaDatagramMagic.2] ↔
          (m₀, m₁) = mediaDatagramMagic := by
        simp [mediaDatagramMagic]
      rw [decodePenDatagram?, if_neg long, decodePenDatagram, magic, behind]
      simp only [Option.bind_eq_bind, Option.bind_some, WirePenEvent.fromBytes?_eq]
      by_cases known : (m₀, m₁) = mediaDatagramMagic
      · by_cases pen : discriminator = penDiscriminator
        · simp only [same.mpr known, known, pen]
          cases WirePenEvent.fromBytes rest <;> rfl
        · simp [same.mpr known, known, pen]
      · simp [same, known]

/-! ## What comes back -/

/-- A hover distance of at most 15 mm, which has its flag unless it is zero, and
the same barrel and eraser bits in the buttons and in the flags. -/
structure PenEvent.Regular (event : PenEvent) : Prop where
  near : event.hoverDistance ≤ 15
  hovering : event.flags &&& flagHasHover ≠ 0 ↔ event.hoverDistance ≠ 0
  barrel : event.flags &&& flagBarrel ≠ 0 ↔ event.buttonState &&& 2 ≠ 0
  eraser : event.flags &&& flagEraserTip ≠ 0 ↔ event.buttonState &&& 4 ≠ 0

/-- The pen is in contact, and no buttons or flags are set but those for which the
record has room. -/
structure PenEvent.Carried (event : PenEvent) : Prop where
  contact : event.hoverDistance = 0
  buttons : event.buttonState &&& 0b0110 = event.buttonState
  flags : event.flags &&& 0x0F = event.flags

/-- The datagram is routed to the pen channel and decoded as the event. -/
structure PenEvent.RoundTrips (event : PenEvent) : Prop where
  decoded : decodePenDatagram (encodePenDatagram event) = .ok event
  routed : dispatch (encodePenDatagram event) = .pen (encodePenDatagram event)

/-- A mask of one bit leaves that bit or nothing. -/
theorem and_bit (state bit : UInt32) (i : Nat) (one : bit.toNat = 2 ^ i) :
    (if state &&& bit ≠ 0 then bit else 0) = state &&& bit := by
  have masked : (state &&& bit).toNat = (state.toNat.testBit i).toNat * bit.toNat := by
    rw [UInt32.toNat_and, one, Nat.and_two_pow]
  cases set : state.toNat.testBit i with
  | false =>
      have zero : state &&& bit = 0 := by
        apply UInt32.toNat_inj.mp
        rw [masked, set]
        exact Nat.zero_mul _
      rw [zero, if_neg (not_not.mpr rfl)]
  | true =>
      have full : state &&& bit = bit := by
        apply UInt32.toNat_inj.mp
        rw [masked, set]
        exact Nat.one_mul _
      have some : bit ≠ 0 := by
        rintro rfl
        exact absurd one.symm (Nat.two_pow_pos i).ne'
      rw [full, if_pos some]

namespace PenEvent

variable {event : PenEvent}

theorem toWire_flags (event : PenEvent) : event.toWire.flags = event.flags &&& 0x0F := rfl

/-- A flag that is passed on is read as it was. -/
theorem toWire_flag (event : PenEvent) {flag : UInt8} (known : 0x0F &&& flag = flag) :
    event.toWire.flags &&& flag = event.flags &&& flag := by
  rw [toWire_flags, UInt8.and_assoc, known]

/-- The buttons come back from the flags, as far as these agree with them. -/
theorem decoded_buttonState (regular : event.Regular) :
    event.toWire.event.buttonState = event.buttonState &&& 0b0110 := by
  have barrel : (if event.toWire.flags &&& flagBarrel ≠ 0 then (2 : UInt32) else 0) =
      event.buttonState &&& 2 := by
    rw [event.toWire_flag (by decide), ← and_bit event.buttonState 2 1 rfl]
    exact if_congr regular.barrel rfl rfl
  have eraser : (if event.toWire.flags &&& flagEraserTip ≠ 0 then (4 : UInt32) else 0) =
      event.buttonState &&& 4 := by
    rw [event.toWire_flag (by decide), ← and_bit event.buttonState 4 2 rfl]
    exact if_congr regular.eraser rfl rfl
  have both : event.buttonState &&& 0b0110 =
      event.buttonState &&& 2 ||| event.buttonState &&& 4 := by
    apply UInt32.toBitVec_inj.mp
    exact BitVec.and_or_distrib_left (x := event.buttonState.toBitVec) (y := 2) (z := 4)
  rw [both, ← barrel, ← eraser]
  rfl

/-- The decoder multiplies by 8 a distance that the encoder has not divided. -/
theorem decoded_hoverDistance (regular : event.Regular) :
    event.toWire.event.hoverDistance = event.hoverDistance * 8 := by
  have near := regular.near
  have low : event.hoverDistance.toNat ≤ 15 := UInt16.le_iff_toNat_le.mp near
  have inRange : event.hoverDistance ≠ 0xFFFF := by
    intro far
    rw [far] at low
    exact absurd low (by decide)
  have quantised : event.toWire.hoverDistance.toUInt16 = event.hoverDistance := by
    have narrowed : event.toWire.hoverDistance = event.hoverDistance.toUInt8 :=
      (if_neg inRange).trans (congrArg UInt16.toUInt8 (if_pos near))
    apply UInt16.toNat_inj.mp
    rw [narrowed, UInt8.toNat_toUInt16, UInt16.toNat_toUInt8]
    omega
  change (if event.toWire.flags &&& flagHasHover ≠ 0 then event.toWire.hoverDistance.toUInt16 * 8
    else 0) = event.hoverDistance * 8
  rw [event.toWire_flag (by decide), quantised]
  by_cases contact : event.hoverDistance = 0
  · rw [contact]
    exact ite_self 0
  · exact if_pos (regular.hovering.mpr contact)

/-- The fields that the record does not pass on as they are. -/
theorem eq_of_fields (event : PenEvent) (tool : event.toWire.event.tool = event.tool)
    (buttons : event.toWire.event.buttonState = event.buttonState)
    (hover : event.toWire.event.hoverDistance = event.hoverDistance)
    (flags : event.toWire.event.flags = event.flags) : event.toWire.event = event := by
  have rebuilt : event.toWire.event = { event with
      tool := event.toWire.event.tool
      buttonState := event.toWire.event.buttonState
      hoverDistance := event.toWire.event.hoverDistance
      flags := event.toWire.event.flags } := rfl
  rw [rebuilt, tool, buttons, hover, flags]

theorem eightfold_eq {distance : UInt16} (near : distance ≤ 15) :
    distance * 8 = distance ↔ distance = 0 := by
  have low : distance.toNat ≤ 15 := UInt16.le_iff_toNat_le.mp near
  rw [← UInt16.toNat_inj, ← UInt16.toNat_inj, UInt16.toNat_mul]
  change distance.toNat * 8 % 2 ^ 16 = distance.toNat ↔ distance.toNat = 0
  omega

theorem roundTrips_iff (regular : event.Regular) : event.RoundTrips ↔ event.Carried := by
  have decoded := decode_encodePenDatagram event
  have buttons := decoded_buttonState regular
  have hover := decoded_hoverDistance regular
  constructor
  · intro trips
    have same : event.toWire.event = event := Except.ok.inj (decoded.symm.trans trips.decoded)
    rw [same] at buttons hover
    refine ⟨(eightfold_eq regular.near).mp hover.symm, buttons.symm, ?_⟩
    exact (congrArg flags same : event.toWire.event.flags = event.flags)
  · intro carried
    refine ⟨decoded.trans (congrArg Except.ok ?_), dispatch_pen event⟩
    have tool : event.toWire.event.tool = event.tool := by
      change (PenTool.fromWireId event.tool.wireId).getD .pen = event.tool
      rw [PenTool.fromWireId_wireId]
      rfl
    have flags : event.toWire.event.flags = event.flags := carried.flags
    rw [carried.buttons] at buttons
    rw [(eightfold_eq regular.near).mpr carried.contact] at hover
    -- the other fields are passed on as they are
    exact event.eq_of_fields tool buttons hover flags

end PenEvent

/-- Decoding is total, and an event comes back if the pen is in contact and the
record has room for its buttons and flags. -/
theorem penDatagrams_roundTrip_iff (payload : Bytes) {event : PenEvent} (regular : event.Regular) :
    decodePenDatagram? payload = some (decodePenDatagram payload) ∧
      (event.RoundTrips ↔ event.Carried) :=
  ⟨decodePenDatagram?_eq payload, PenEvent.roundTrips_iff regular⟩

namespace Sample

/-- The pen touches the surface with its barrel button pressed. -/
def barrelStroke : PenEvent :=
  ⟨3, .pen, 0x44202000, 0x43f02000, 0x3f000000, 0, 0, 0, 0b0010, 0, 1234, flagBarrel⟩

/-- The pen hovers 5 mm above the surface. -/
def hoveringPen : PenEvent := { barrelStroke with
  buttonState := 0, hoverDistance := 5, flags := flagHasHover }

theorem barrelStroke_roundTrips : barrelStroke.RoundTrips :=
  (penDatagrams_roundTrip_iff [] ⟨by decide, by decide, by decide, by decide⟩).2.mpr
    ⟨by decide, by decide, by decide⟩

theorem hoveringPen_not_roundTrips :
    ¬ ∀ event : PenEvent, event.Regular → event.RoundTrips := by
  intro always
  have trips := always hoveringPen ⟨by decide, by decide, by decide, by decide⟩
  have decoded : decodePenDatagram (encodePenDatagram hoveringPen) =
      .ok { hoveringPen with hoverDistance := 40 } := by decide
  have same := Except.ok.inj (decoded.symm.trans trips.decoded)
  exact absurd (congrArg PenEvent.hoverDistance same) (by decide)

end Sample

end Qubox.Media
