import Qubox.Media.Datagram
import Qubox.RemoteInput

/-!
# Gamepad states on the wire

The client writes a `WireGamepadState` behind the magic of the media datagrams,
with big-endian sticks. `decode_gamepad_datagram` reads that format back. The host
does not call it: it hands what the dispatcher routed as a gamepad datagram to
`WireGamepadState::from_bytes`, which knows another prefix and little-endian sticks,
and takes the first sixteen bytes of everything else.
-/

namespace Qubox.Gamepad

open Qubox.Media (dispatch gamepadDiscriminator)
open WireGamepadState (fields i16 size)

/-! ## Sticks -/

/-- `to_be_bytes`. -/
def beBytes (value : Int16) : Bytes := Bytes.ofNatBE 2 value.toUInt16.toNat

/-- `read_i16::<BigEndian>`. -/
def ofBE (high low : UInt8) : Int16 := (UInt16.ofNat (Bytes.toNatBE [high, low])).toInt16

theorem ofBE_beBytes (value : Int16) :
    ∃ high low, beBytes value = [high, low] ∧ ofBE high low = value := by
  refine ⟨_, _, rfl, ?_⟩
  have small : value.toUInt16.toNat < 256 ^ 2 := value.toUInt16.toNat_lt
  have read := Bytes.toNatBE_ofNatBE 2 value.toUInt16.toNat
  rw [Nat.mod_eq_of_lt small] at read
  change (UInt16.ofNat (Bytes.toNatBE (Bytes.ofNatBE 2 value.toUInt16.toNat))).toInt16 = value
  rw [read, UInt16.ofNat_toNat]
  rfl

theorem ofBE_inj {a b c d : UInt8} : ofBE a b = ofBE c d ↔ a = c ∧ b = d := by
  constructor
  · intro same
    have words : UInt16.ofNat (Bytes.toNatBE [a, b]) = UInt16.ofNat (Bytes.toNatBE [c, d]) :=
      congrArg Int16.toUInt16 same
    have numbers := congrArg UInt16.toNat words
    simp only [UInt16.toNat_ofNat', Bytes.toNatBE, List.foldl_cons, List.foldl_nil] at numbers
    have := a.toNat_lt
    have := b.toNat_lt
    have := c.toNat_lt
    have := d.toNat_lt
    constructor
    · apply UInt8.toNat_inj.mp
      omega
    · apply UInt8.toNat_inj.mp
      omega
  · rintro ⟨rfl, rfl⟩
    rfl

theorem i16_eq_ofBE (low high : UInt8) : i16 low high = ofBE high low := by
  apply congrArg UInt16.toInt16
  apply UInt16.toNat_inj.mp
  have := low.toNat_lt
  have := high.toNat_lt
  have joined : low.toNat ||| high.toNat <<< 8 = high.toNat <<< 8 + low.toNat := by
    rw [Nat.or_comm, Nat.shiftLeft_add_eq_or_of_lt low.toNat_lt]
  rw [UInt16.toNat_or, UInt16.toNat_shiftLeft, UInt8.toNat_toUInt16, UInt8.toNat_toUInt16,
    UInt16.toNat_ofNat']
  change low.toNat ||| high.toNat <<< 8 % 2 ^ 16 =
    ((0 * 256 + high.toNat) * 256 + low.toNat) % 2 ^ 16
  rw [Nat.mod_eq_of_lt (show high.toNat <<< 8 < 2 ^ 16 by omega), joined]
  omega

/-! ## The two formats -/

/-- `MEDIA_DATAGRAM_MAGIC` and the discriminator of gamepad datagrams. -/
def preamble : Bytes := [0x51, 0x42, gamepadDiscriminator]

def encodeGamepadDatagram (state : WireGamepadState) : Bytes :=
  preamble ++
    [state.gamepadId, state.flags, state.buttonsLo, state.buttonsHi, state.lt, state.rt] ++
    beBytes state.lx ++ beBytes state.ly ++ beBytes state.rx ++ beBytes state.ry ++
    [state.pad.1, state.pad.2]

inductive GamepadDatagramError where
  | short
  | badMagic
  | badDiscriminator
  deriving DecidableEq, Repr

def decodeGamepadDatagram (payload : Bytes) : Except GamepadDatagramError WireGamepadState :=
  if payload.length < 2 + 1 + size then .error .short
  else if payload.take 2 ≠ preamble.take 2 then .error .badMagic
  else if payload[2]? ≠ some gamepadDiscriminator then .error .badDiscriminator
  else
    match fields ofBE ((payload.drop 3).take size) with
    | some state => .ok { state with pad := (0, 0) }
    | none => .error .short

/-! ## What the readers accept -/

theorem exists_fields {data : Bytes} (long : size ≤ data.length) :
    ∃ b₀ b₁ b₂ b₃ b₄ b₅ b₆ b₇ b₈ b₉ b₁₀ b₁₁ b₁₂ b₁₃ b₁₄ b₁₅ rest,
      data = b₀ :: b₁ :: b₂ :: b₃ :: b₄ :: b₅ :: b₆ :: b₇ :: b₈ :: b₉ :: b₁₀ :: b₁₁ :: b₁₂ ::
        b₁₃ :: b₁₄ :: b₁₅ :: rest := by
  match data, long with
  | b₀ :: b₁ :: b₂ :: b₃ :: b₄ :: b₅ :: b₆ :: b₇ :: b₈ :: b₉ :: b₁₀ :: b₁₁ :: b₁₂ :: b₁₃ :: b₁₄ ::
      b₁₅ :: rest, _ =>
      exact ⟨b₀, b₁, b₂, b₃, b₄, b₅, b₆, b₇, b₈, b₉, b₁₀, b₁₁, b₁₂, b₁₃, b₁₄, b₁₅, rest, rfl⟩

theorem isSome_fields (stick : UInt8 → UInt8 → Int16) (data : Bytes) :
    (fields stick (data.take size)).isSome ↔ size ≤ data.length := by
  constructor
  · intro found
    unfold fields at found
    split at found
    case h_1 whole =>
      have taken := congrArg List.length whole
      rw [List.length_take] at taken
      exact min_eq_left_iff.mp taken
    case h_2 => cases found
  · intro long
    obtain ⟨_, _, _, _, _, _, _, _, _, _, _, _, _, _, _, _, rest, rfl⟩ := exists_fields long
    rfl

/-- Every sixteen bytes are a state for the reader of the host. -/
theorem isSome_fromBytes (bytes : Bytes) :
    (WireGamepadState.fromBytes bytes).isSome ↔ size ≤ bytes.length := by
  unfold WireGamepadState.fromBytes
  split
  case isTrue prefixed =>
    have long : size ≤ bytes.length := by omega
    have rest : size ≤ (bytes.drop 3).length := by
      rw [List.length_drop]
      omega
    exact iff_of_true ((isSome_fields i16 _).mpr rest) long
  case isFalse => exact isSome_fields i16 bytes

theorem fromBytes_eq_none (bytes : Bytes) :
    WireGamepadState.fromBytes bytes = none ↔ bytes.length < size := by
  rw [← Option.not_isSome_iff_eq_none, isSome_fromBytes, not_le]

/-- The datagrams that the reader of the wire format accepts. -/
theorem decode_eq_ok {payload : Bytes} {state : WireGamepadState}
    (accepted : decodeGamepadDatagram payload = .ok state) :
    2 + 1 + size ≤ payload.length ∧ payload.take 3 = preamble ∧
      ∃ read, fields ofBE ((payload.drop 3).take size) = some read ∧
        state = { read with pad := (0, 0) } := by
  unfold decodeGamepadDatagram at accepted
  split at accepted
  case isTrue => cases accepted
  case isFalse long =>
    split at accepted
    case isTrue => cases accepted
    case isFalse magic =>
      split at accepted
      case isTrue => cases accepted
      case isFalse discriminator =>
        refine ⟨not_lt.mp long, ?_, ?_⟩
        · rw [List.take_add_one, not_not.mp magic, not_not.mp discriminator]
          rfl
        · split at accepted
          case h_1 read found => exact ⟨read, found, (Except.ok.inj accepted).symm⟩
          case h_2 => cases accepted

/-- Reading what was written, with the padding that the first version prescribes. -/
theorem decode_encode (state : WireGamepadState) :
    decodeGamepadDatagram (encodeGamepadDatagram state) = .ok { state with pad := (0, 0) } := by
  obtain ⟨lx₀, lx₁, lx, lx_eq⟩ := ofBE_beBytes state.lx
  obtain ⟨ly₀, ly₁, ly, ly_eq⟩ := ofBE_beBytes state.ly
  obtain ⟨rx₀, rx₁, rx, rx_eq⟩ := ofBE_beBytes state.rx
  obtain ⟨ry₀, ry₁, ry, ry_eq⟩ := ofBE_beBytes state.ry
  rw [encodeGamepadDatagram, lx, ly, rx, ry]
  change Except.ok _ = Except.ok _
  simp only [lx_eq, ly_eq, rx_eq, ry_eq]

/-- The raw reading of a gamepad datagram and the decoded one differ in more than the id: the
second byte of the magic would have to be every second byte up to the padding. -/
theorem fromBytes_ne_decode {datagram : Bytes} {raw decoded : WireGamepadState}
    (read : WireGamepadState.fromBytes datagram = some raw)
    (accepted : decodeGamepadDatagram datagram = .ok decoded) :
    { raw with gamepadId := decoded.gamepadId } ≠ decoded := by
  obtain ⟨long, start, fielded, found, rfl⟩ := decode_eq_ok accepted
  have rest : size ≤ (datagram.drop 3).length := by
    rw [List.length_drop]
    omega
  have whole : datagram = preamble ++ datagram.drop 3 := by
    rw [← start, List.take_append_drop]
  obtain ⟨b₀, b₁, b₂, b₃, b₄, b₅, b₆, b₇, b₈, b₉, b₁₀, b₁₁, b₁₂, b₁₃, b₁₄, b₁₅, tail, split⟩ :=
    exists_fields rest
  rw [split] at found whole
  obtain rfl := Option.some.inj found
  rw [whole] at read
  obtain rfl := Option.some.inj read
  intro same
  simp only [WireGamepadState.mk.injEq, i16_eq_ofBE, ofBE_inj, true_and] at same
  obtain ⟨flags, -, -, lt, -, ⟨lx, -⟩, ⟨ly, -⟩, ⟨rx, -⟩, ⟨ry, -⟩, pad⟩ := same
  have last : b₁₂ = 0 := congrArg Prod.snd pad
  have magic : (0x42 : UInt8) = 0 := by
    rw [flags, lt, lx, ly, rx, ry, last]
  exact absurd magic (by decide)

/-! ## The host -/

/-- The slot of a session: `NEXT_GAMEPAD_SLOT.fetch_add(1) % 4`. -/
def playerSlot (next : UInt8) : UInt8 := next % 4

theorem withSlot_eq (slot : UInt8) (state : WireGamepadState) :
    ∃ id, state.withSlot slot = { state with gamepadId := id } := by
  unfold WireGamepadState.withSlot
  split
  · exact ⟨slot, rfl⟩
  · exact ⟨state.gamepadId, rfl⟩

/-- What `run_datagram_dispatcher_loop` sends to the gamepad backend for a datagram. -/
def toBackend (slot : UInt8) (datagram : Bytes) : Option WireGamepadState :=
  match dispatch datagram with
  | .gamepad bytes => (WireGamepadState.fromBytes bytes).map (·.withSlot slot)
  | _ => none

/-- The backend gets the state that was sent, with the slot in place of id zero. -/
def Unchanged (next : UInt8) (state : WireGamepadState) : Prop :=
  toBackend (playerSlot next) (encodeGamepadDatagram state) =
    some (state.withSlot (playerSlot next))

instance (next : UInt8) (state : WireGamepadState) : Decidable (Unchanged next state) :=
  inferInstanceAs (Decidable (_ = _))

/-- Both readers reject the datagram, or both read the same state. -/
def ReadersAgree (datagram : Bytes) : Prop :=
  WireGamepadState.fromBytes datagram = (decodeGamepadDatagram datagram).toOption

instance (datagram : Bytes) : Decidable (ReadersAgree datagram) :=
  inferInstanceAs (Decidable (_ = _))

/-- A datagram that the dispatcher does not take for a gamepad's is no state. -/
def OthersRejected (datagram : Bytes) : Prop :=
  dispatch datagram ≠ .gamepad datagram →
    WireGamepadState.fromBytes datagram = none ∧ (decodeGamepadDatagram datagram).toOption = none

theorem not_unchanged (next : UInt8) {state : WireGamepadState} (zero : state.pad = (0, 0)) :
    ¬ Unchanged next state := by
  intro unchanged
  have accepted : decodeGamepadDatagram (encodeGamepadDatagram state) = .ok state := by
    rw [decode_encode, ← zero]
  have routed : toBackend (playerSlot next) (encodeGamepadDatagram state) =
      (WireGamepadState.fromBytes (encodeGamepadDatagram state)).map
        (·.withSlot (playerSlot next)) := rfl
  obtain ⟨raw, read, slotted⟩ := Option.map_eq_some_iff.mp (routed.symm.trans unchanged)
  apply fromBytes_ne_decode read accepted
  obtain ⟨rawId, raw_eq⟩ := withSlot_eq (playerSlot next) raw
  obtain ⟨id, state_eq⟩ := withSlot_eq (playerSlot next) state
  rw [raw_eq, state_eq] at slotted
  calc { raw with gamepadId := state.gamepadId }
      = { ({ raw with gamepadId := rawId } : WireGamepadState) with
          gamepadId := state.gamepadId } := rfl
    _ = { ({ state with gamepadId := id } : WireGamepadState) with
          gamepadId := state.gamepadId } := by rw [slotted]
    _ = state := rfl

theorem decode_toOption_short {datagram : Bytes} (short : datagram.length < size) :
    (decodeGamepadDatagram datagram).toOption = none := by
  rw [decodeGamepadDatagram, if_pos (Nat.lt_add_left _ short)]
  rfl

theorem readersAgree_iff (datagram : Bytes) : ReadersAgree datagram ↔ datagram.length < size := by
  constructor
  · intro agree
    by_contra long
    obtain ⟨raw, read⟩ := Option.isSome_iff_exists.mp
      ((isSome_fromBytes datagram).mpr (not_lt.mp long))
    rw [ReadersAgree, read] at agree
    cases accepted : decodeGamepadDatagram datagram with
    | error e =>
        rw [accepted] at agree
        cases agree
    | ok decoded =>
        rw [accepted] at agree
        obtain rfl : raw = decoded := Option.some.inj agree
        exact fromBytes_ne_decode read accepted rfl
  · intro short
    rw [ReadersAgree, (fromBytes_eq_none datagram).mpr short, decode_toOption_short short]

theorem othersRejected_iff (datagram : Bytes) :
    OthersRejected datagram ↔ datagram.length < size ∨ dispatch datagram = .gamepad datagram := by
  constructor
  · intro rejected
    by_cases gamepad : dispatch datagram = .gamepad datagram
    · exact .inr gamepad
    · exact .inl ((fromBytes_eq_none datagram).mp (rejected gamepad).1)
  · rintro (short | gamepad) other
    · exact ⟨(fromBytes_eq_none datagram).mpr short, decode_toOption_short short⟩
    · exact absurd gamepad other

/-- No state reaches the backend unchanged, the two readers agree on no datagram that one of them
accepts, and the reader of the host accepts every long datagram of another kind. -/
theorem gamepad_datagrams_garbled (next : UInt8) (state : WireGamepadState)
    (zero : state.pad = (0, 0)) (datagram : Bytes) :
    ¬ Unchanged next state ∧ (ReadersAgree datagram ↔ datagram.length < size) ∧
      (OthersRejected datagram ↔
        datagram.length < size ∨ dispatch datagram = .gamepad datagram) :=
  ⟨not_unchanged next zero, readersAgree_iff datagram, othersRejected_iff datagram⟩

namespace Sample

/-- Button A of the first pad. -/
def pressed : WireGamepadState where
  buttonsLo := 1

theorem pressed_garbled :
    pressed.pad = (0, 0) ∧ ¬ Unchanged 0 pressed ∧ ¬ ReadersAgree (encodeGamepadDatagram pressed) := by
  have garbled := gamepad_datagrams_garbled 0 pressed rfl (encodeGamepadDatagram pressed)
  exact ⟨rfl, garbled.1, fun agree => absurd (garbled.2.1.mp agree) (by decide)⟩

/-- The id that the backend sees is the first byte of the magic, and A is lost. -/
theorem pressed_not_unchanged :
    ¬ ∀ (next : UInt8) (state : WireGamepadState) (datagram : Bytes), state.pad = (0, 0) →
        Unchanged next state ∧ ReadersAgree datagram ∧ OthersRejected datagram := by
  intro all
  have wrong := (all 0 pressed [] rfl).1
  exact absurd wrong (by decide)

end Sample

end Qubox.Gamepad
