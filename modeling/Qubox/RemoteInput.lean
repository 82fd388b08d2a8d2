import Qubox.Library.Bytes
import Qubox.Proto

/-!
# Remote input and stream parameters

What a client sends to a host as input, and what a host tells a client about its
streams. Floating-point fields are given by their bits.
-/

namespace Qubox

structure VideoStreamParams where
  codec : VideoCodec
  width : UInt32
  height : UInt32
  framerate : UInt32
  deriving DecidableEq

inductive AudioCodec where
  | pcmF32
  deriving DecidableEq

structure AudioStreamParams where
  codec : AudioCodec
  sampleRate : UInt32
  channels : UInt16
  deriving DecidableEq

inductive InputMouseButton where
  | left
  | right
  | middle
  deriving DecidableEq

inductive PenTool where
  | pen
  | eraser
  | brush
  | airbrush
  | finger
  | mouse
  | lens
  deriving DecidableEq

structure WireGamepadState where
  gamepadId : UInt8 := 0
  flags : UInt8 := 0
  buttonsLo : UInt8 := 0
  buttonsHi : UInt8 := 0
  lt : UInt8 := 0
  rt : UInt8 := 0
  lx : Int16 := 0
  ly : Int16 := 0
  rx : Int16 := 0
  ry : Int16 := 0
  pad : UInt8 × UInt8 := (0, 0)
  deriving DecidableEq, Repr

namespace WireGamepadState

def size : Nat := 16

def btnA : UInt8 := 0x01
def btnB : UInt8 := 0x02
def btnX : UInt8 := 0x04
def btnY : UInt8 := 0x08
def btnLB : UInt8 := 0x10
def btnRB : UInt8 := 0x20
def btnSelect : UInt8 := 0x40
def btnStart : UInt8 := 0x80
def btnL3 : UInt8 := 0x01
def btnR3 : UInt8 := 0x02
def btnGuide : UInt8 := 0x04
def flagDpadUp : UInt8 := 0x01
def flagDpadDown : UInt8 := 0x02
def flagDpadLeft : UInt8 := 0x04
def flagDpadRight : UInt8 := 0x08

/-- The prefix that `from_bytes` skips. -/
def magic : Bytes := [0x52, 0x42, 0x47]

/-- `i16::from_le_bytes`. -/
def i16 (low high : UInt8) : Int16 :=
  (low.toUInt16 ||| high.toUInt16 <<< 8).toInt16

/-- The fields in the order of the wire, the sticks read by `stick`. -/
def fields (stick : UInt8 → UInt8 → Int16) : Bytes → Option WireGamepadState
  | [gamepadId, flags, buttonsLo, buttonsHi, lt, rt, lx0, lx1, ly0, ly1, rx0, rx1, ry0, ry1,
      pad0, pad1] => some
        { gamepadId, flags, buttonsLo, buttonsHi, lt, rt, lx := stick lx0 lx1, ly := stick ly0 ly1,
          rx := stick rx0 rx1, ry := stick ry0 ry1, pad := (pad0, pad1) }
  | _ => none

/-- What `from_bytes` reads of sixteen bytes. -/
def ofData : Bytes → Option WireGamepadState := fields i16

def fromBytes (bytes : Bytes) : Option WireGamepadState :=
  if 3 + size ≤ bytes.length ∧ bytes.take 3 = magic then ofData ((bytes.drop 3).take size)
  else ofData (bytes.take size)

/-- The slot of the session in place of the id zero. -/
def withSlot (slot : UInt8) (state : WireGamepadState) : WireGamepadState :=
  if state.gamepadId = 0 then { state with gamepadId := slot } else state

end WireGamepadState

inductive RemoteInputEvent where
  | mouseMove (x y : UInt32)
  | relativeMouseMove (dx dy : Int32)
  | mouseButton (button : InputMouseButton) (pressed : Bool) (x y : Option UInt32)
  | mouseWheel (dx dy : Int32)
  | keyboard (key : String) (pressed : Bool)
  | gamepad (state : WireGamepadState)
  | hoverDisplay (displayId : UInt32)
  | pen (tool : PenTool) (pressure tiltX tiltY rotation buttonState : UInt32)
      (x y hoverDistance : UInt16)
  deriving DecidableEq

end Qubox
