import Mathlib.Data.List.Induction
import Qubox.Gamepad.Wire

/-!
# The virtual gamepad

The capture loop of the client drains the events of a poll and sends one state, built from a
single event. The host writes a received state to its device as a full snapshot. So the
device shows one input at a time: the one of the latest poll that sent anything.
-/

namespace Qubox.Gamepad

open WireGamepadState

variable {V : Type}

/-! ## Events of the physical pad -/

/-- `gilrs::Button`. -/
inductive Button where
  | south | east | north | west | c | z
  | leftTrigger | leftTrigger2 | rightTrigger | rightTrigger2
  | select | start | mode | leftThumb | rightThumb
  | dPadUp | dPadDown | dPadLeft | dPadRight | unknown
  deriving DecidableEq, Repr

/-- `gilrs::Axis`. -/
inductive Axis where
  | leftStickX | leftStickY | leftZ | rightStickX | rightStickY | rightZ
  | dPadX | dPadY | unknown
  deriving DecidableEq, Repr

/-- `EventType`, without the codes of the driver. -/
inductive Event (V : Type) where
  | buttonPressed (button : Button)
  | buttonReleased (button : Button)
  | axisChanged (axis : Axis) (value : V)
  | other
  deriving DecidableEq, Repr

/-- `axis_to_i16` and `axis_to_u8`. -/
structure Scale (V : Type) where
  axisToI16 : V → Int16
  axisToU8 : V → UInt8

/-- Whether the button is down after the events. -/
def held (history : List (Event V)) (button : Button) : Bool :=
  history.foldl (fun down event =>
    match event with
    | .buttonPressed b => if b = button then true else down
    | .buttonReleased b => if b = button then false else down
    | _ => down) false

/-- The last value that the axis reported. -/
def lastReport (history : List (Event V)) (axis : Axis) : Option V :=
  history.foldl (fun last event =>
    match event with
    | .axisChanged a value => if a = axis then some value else last
    | _ => last) none

/-! ## Client -/

/-- The bit of a button in `map_event`. -/
def Button.bit : Button → UInt8
  | .south => btnA
  | .east => btnB
  | .west => btnX
  | .north => btnY
  | .leftTrigger => btnLB
  | .rightTrigger => btnRB
  | .select => btnSelect
  | .start => btnStart
  | .mode => btnGuide
  | _ => 0

def mapEvent (scale : Scale V) (event : Event V) : Option WireGamepadState :=
  let state : WireGamepadState := {}
  match event with
  | .buttonPressed button =>
      let bit := button.bit
      if bit ≠ 0 then
        if bit ≤ 0x7F then some { state with buttonsLo := state.buttonsLo ||| bit }
        else some { state with buttonsHi := state.buttonsHi ||| bit }
      else some state
  | .buttonReleased button =>
      let bit := button.bit
      if bit ≠ 0 then
        if bit ≤ 0x7F then some { state with buttonsLo := state.buttonsLo &&& ~~~bit }
        else some { state with buttonsHi := state.buttonsHi &&& ~~~bit }
      else some state
  | .axisChanged axis value =>
      match axis with
      | .leftStickX => some { state with lx := scale.axisToI16 value }
      | .leftStickY => some { state with ly := scale.axisToI16 value }
      | .rightStickX => some { state with rx := scale.axisToI16 value }
      | .rightStickY => some { state with ry := scale.axisToI16 value }
      | .leftZ => some { state with lt := scale.axisToU8 value }
      | .rightZ => some { state with rt := scale.axisToU8 value }
      | _ => none
  | .other => none

/-- The state at the end of a poll. -/
def pollState (scale : Scale V) (events : List (Event V)) : WireGamepadState :=
  events.foldl (fun state event => (mapEvent scale event).getD state) {}

/-- One round of the capture loop: what it sends. -/
def poll (scale : Scale V) (events : List (Event V)) : Option WireGamepadState :=
  let state := pollState scale events
  if state ≠ {} then some state else none

/-! ## Host -/

inductive PadButton where
  | south | east | west | north | tl | tr | select | start | thumbL | thumbR | mode
  | dPadUp | dPadDown | dPadLeft | dPadRight
  deriving DecidableEq, Repr

inductive PadAxis where
  | x | y | rx | ry | z | rz
  deriving DecidableEq, Repr

/-- The virtual device. -/
structure Pad where
  pressed : PadButton → Bool
  axis : PadAxis → Int

/-- The device before the first state. -/
def Pad.released : Pad where
  pressed := fun _ => false
  axis := fun _ => 0

def isSet (bits mask : UInt8) : Bool := bits &&& mask ≠ 0

/-- `linux::apply`: every button and every axis of the device is written. -/
def apply (state : WireGamepadState) : Pad where
  pressed
    | .south => isSet state.buttonsLo btnA
    | .east => isSet state.buttonsLo btnB
    | .west => isSet state.buttonsLo btnX
    | .north => isSet state.buttonsLo btnY
    | .tl => isSet state.buttonsLo btnLB
    | .tr => isSet state.buttonsLo btnRB
    | .select => isSet state.buttonsLo btnSelect
    | .start => isSet state.buttonsLo btnStart
    | .thumbL => isSet state.buttonsHi btnL3
    | .thumbR => isSet state.buttonsHi btnR3
    | .mode => isSet state.buttonsHi btnGuide
    | .dPadUp => isSet state.flags flagDpadUp
    | .dPadDown => isSet state.flags flagDpadDown
    | .dPadLeft => isSet state.flags flagDpadLeft
    | .dPadRight => isSet state.flags flagDpadRight
  axis
    | .x => state.lx.toInt
    | .y => state.ly.toInt
    | .rx => state.rx.toInt
    | .ry => state.ry.toInt
    | .z => state.lt.toNat
    | .rz => state.rt.toNat

/-- The device after the polls, each sent state applied in order. -/
def virtualPad (scale : Scale V) (polls : List (List (Event V))) : Pad :=
  (polls.filterMap (poll scale)).foldl (fun _ state => apply state) Pad.released

/-! ## Mirroring -/

/-- The button of the device that stands for a button of the physical pad. -/
def Button.target : Button → Option PadButton
  | .south => some .south
  | .east => some .east
  | .west => some .west
  | .north => some .north
  | .leftTrigger => some .tl
  | .rightTrigger => some .tr
  | .select => some .select
  | .start => some .start
  | .mode => some .mode
  | _ => none

def Axis.target : Axis → Option PadAxis
  | .leftStickX => some .x
  | .leftStickY => some .y
  | .rightStickX => some .rx
  | .rightStickY => some .ry
  | .leftZ => some .z
  | .rightZ => some .rz
  | _ => none

/-- A reported value in the units of the device. -/
def Scale.value (scale : Scale V) (axis : Axis) (value : V) : Int :=
  match axis with
  | .leftZ | .rightZ => (scale.axisToU8 value).toNat
  | _ => (scale.axisToI16 value).toInt

/-- The device has the buttons and the axes of the physical pad after the polls. -/
structure Mirrored (scale : Scale V) (polls : List (List (Event V))) : Prop where
  buttons : ∀ button target, button.target = some target →
    ((virtualPad scale polls).pressed target = true ↔ held polls.flatten button = true)
  axes : ∀ axis target value, axis.target = some target →
    lastReport polls.flatten axis = some value →
    (virtualPad scale polls).axis target = scale.value axis value

/-! ## The input that is shown -/

/-- `map_event` takes the event for a state, maybe an empty one. -/
def Event.Counts : Event V → Prop
  | .buttonPressed _ | .buttonReleased _ => True
  | .axisChanged axis _ => axis.target ≠ none
  | .other => False

/-- The press of a mapped button, or a value of a mapped axis that is not zero. -/
def Event.Tells (scale : Scale V) : Event V → Prop
  | .buttonPressed button => button.target ≠ none
  | .axisChanged axis value => axis.target ≠ none ∧ scale.value axis value ≠ 0
  | _ => False

instance : DecidablePred (Event.Counts (V := V))
  | .buttonPressed _ | .buttonReleased _ => inferInstanceAs (Decidable True)
  | .axisChanged _ _ => inferInstanceAs (Decidable (_ ≠ _))
  | .other => inferInstanceAs (Decidable False)

instance (scale : Scale V) : DecidablePred (Event.Tells scale)
  | .buttonPressed _ => inferInstanceAs (Decidable (_ ≠ _))
  | .axisChanged _ _ => inferInstanceAs (Decidable (_ ∧ _))
  | .buttonReleased _ | .other => inferInstanceAs (Decidable False)

/-- The last event of a poll that counts. -/
def lastCounting (events : List (Event V)) : Option (Event V) :=
  (events.filter (·.Counts)).getLast?

/-- The event that the device shows: of the latest poll whose last counting event tells
something, that event. -/
def shown (scale : Scale V) (polls : List (List (Event V))) : Option (Event V) :=
  (polls.filterMap fun events => (lastCounting events).filter (·.Tells scale)).getLast?

/-- How the press of a button appears on the device: start is in a byte where nothing reads it,
and the bit of the guide button is in the byte where it is X. -/
def Button.appears : Button → Option PadButton
  | .start => none
  | .mode => some .west
  | button => button.target

/-- The button that an event shows. -/
def Event.button : Event V → Option PadButton
  | .buttonPressed button => button.appears
  | _ => none

/-- The value of an axis that an event shows. -/
def Event.value (scale : Scale V) (axis : Axis) : Event V → Int
  | .axisChanged a value => if a = axis then scale.value axis value else 0
  | _ => 0

/-- What the event shows is all there is: no other mapped button is held, and no other mapped
axis is off its zero. -/
structure Sole (scale : Scale V) (history : List (Event V)) (event : Option (Event V)) : Prop where
  buttons : ∀ button target, button.target = some target →
    (event.bind (·.button) = some target ↔ held history button = true)
  axes : ∀ axis value, axis.target ≠ none → lastReport history axis = some value →
    (event.map (·.value scale axis)).getD 0 = scale.value axis value

/-! ## What a poll sends -/

/-- The state of a single event. -/
def image (scale : Scale V) (event : Event V) : WireGamepadState := (mapEvent scale event).getD {}

theorem mapEvent_of_counts (scale : Scale V) {event : Event V} (counts : event.Counts) :
    mapEvent scale event = some (image scale event) := by
  have mapped : (mapEvent scale event).isSome := by
    match event, counts with
    | .buttonPressed button, _ => cases button <;> rfl
    | .buttonReleased button, _ => cases button <;> rfl
    | .axisChanged axis value, counts =>
        cases axis <;> first | rfl | exact absurd rfl counts
  obtain ⟨state, found⟩ := Option.isSome_iff_exists.mp mapped
  rw [image, found]
  rfl

theorem mapEvent_of_not_counts (scale : Scale V) {event : Event V} (ignored : ¬ event.Counts) :
    mapEvent scale event = none := by
  match event, ignored with
  | .buttonPressed _, ignored => exact absurd trivial ignored
  | .buttonReleased _, ignored => exact absurd trivial ignored
  | .axisChanged axis value, ignored =>
      cases axis <;> first | rfl | exact absurd (Option.some_ne_none _) ignored
  | .other, _ => rfl

/-- A poll ends with the state of its last counting event, whatever came before. -/
theorem pollState_eq (scale : Scale V) (events : List (Event V)) :
    pollState scale events = ((lastCounting events).map (image scale)).getD {} := by
  induction events using List.reverseRecOn with
  | nil => rfl
  | append_singleton events event ih =>
      rw [pollState, List.foldl_append]
      change (mapEvent scale event).getD (pollState scale events) = _
      by_cases counts : event.Counts
      · simp [mapEvent_of_counts scale counts, lastCounting, List.filter_append, counts]
      · rw [mapEvent_of_not_counts scale counts, ih]
        simp [lastCounting, List.filter_append, counts]

/-- The state of a press: its bit is in one of the two bytes. -/
theorem image_buttonPressed (scale : Scale V) (button : Button) :
    image scale (.buttonPressed button) =
      if button.bit ≤ 0x7F then { buttonsLo := button.bit } else { buttonsHi := button.bit } := by
  cases button <;> rfl

/-- The bit of a released button was not set in the first place. -/
theorem image_buttonReleased (scale : Scale V) (button : Button) :
    image scale (.buttonReleased button) = {} := by
  cases button <;> simp [image, mapEvent, Button.bit]

theorem toInt16_eq_zero {value : Int16} : value.toInt = 0 ↔ value = 0 := by
  rw [← Int16.toInt_inj]
  rfl

theorem image_ne_iff (scale : Scale V) {event : Event V} (counts : event.Counts) :
    image scale event ≠ {} ↔ event.Tells scale := by
  match event, counts with
  | .buttonPressed button, _ =>
      cases button <;> simp [image, mapEvent, Event.Tells, Button.bit, Button.target] <;> decide
  | .buttonReleased button, _ => simp [image_buttonReleased, Event.Tells]
  | .axisChanged axis value, counts =>
      cases axis <;>
        simp [image, mapEvent, Event.Tells, Axis.target, Scale.value, toInt16_eq_zero,
          ← UInt8.toNat_inj]

/-- Nothing is sent for a release, or for a press of a button the client does not know. -/
theorem poll_eq (scale : Scale V) (events : List (Event V)) :
    poll scale events =
      ((lastCounting events).filter (·.Tells scale)).map (image scale) := by
  unfold poll
  rw [pollState_eq]
  cases last : lastCounting events with
  | none => rfl
  | some event =>
      have counts : event.Counts := by
        have member := List.mem_of_getLast? last
        simpa using (List.mem_filter.mp member).2
      change (if image scale event ≠ {} then some (image scale event) else none) = _
      simp only [image_ne_iff scale counts, Option.filter_some, decide_eq_true_eq]
      split
      · rfl
      · rfl

/-! ## What the device shows -/

theorem getLast?_map_apply (states : List WireGamepadState) (pad : Pad) :
    states.foldl (fun _ state => apply state) pad = (states.getLast?.map apply).getD pad := by
  induction states using List.reverseRecOn with
  | nil => rfl
  | append_singleton states state => simp

theorem virtualPad_eq (scale : Scale V) (polls : List (List (Event V))) :
    virtualPad scale polls =
      ((shown scale polls).map fun event => apply (image scale event)).getD Pad.released := by
  have sent : polls.filterMap (poll scale) =
      (polls.filterMap fun events => (lastCounting events).filter (·.Tells scale)).map
        (image scale) := by
    rw [List.map_filterMap]
    exact List.filterMap_congr fun events _ => poll_eq scale events
  rw [virtualPad, getLast?_map_apply, sent, List.getLast?_map, Option.map_map]
  rfl

theorem pressed_of_no_bits {state : WireGamepadState} (lo : state.buttonsLo = 0)
    (hi : state.buttonsHi = 0) (flags : state.flags = 0) (target : PadButton) :
    (apply state).pressed target = false := by
  cases target <;> simp [apply, isSet, lo, hi, flags]

theorem pressed_image (scale : Scale V) (event : Event V) (target : PadButton) :
    (apply (image scale event)).pressed target = decide (event.button = some target) := by
  match event with
  | .buttonPressed button =>
      rw [image_buttonPressed]
      change _ = decide (button.appears = some target)
      cases button <;> cases target <;> decide
  | .buttonReleased button =>
      rw [image_buttonReleased]
      exact pressed_of_no_bits rfl rfl rfl target
  | .axisChanged axis _ =>
      apply pressed_of_no_bits
      · cases axis <;> rfl
      · cases axis <;> rfl
      · cases axis <;> rfl
  | .other => exact pressed_of_no_bits rfl rfl rfl target

theorem axis_image (scale : Scale V) (event : Event V) {axis : Axis} {target : PadAxis}
    (mapped : axis.target = some target) :
    (apply (image scale event)).axis target = event.value scale axis := by
  match event with
  | .buttonPressed button => cases axis <;> cases mapped <;> cases button <;> rfl
  | .buttonReleased button =>
      rw [image_buttonReleased]
      cases axis <;> cases mapped <;> rfl
  | .axisChanged reported _ => cases axis <;> cases mapped <;> cases reported <;> rfl
  | .other => cases axis <;> cases mapped <;> rfl

theorem virtualPad_pressed (scale : Scale V) (polls : List (List (Event V)))
    (target : PadButton) :
    (virtualPad scale polls).pressed target = true ↔
      (shown scale polls).bind (·.button) = some target := by
  rw [virtualPad_eq]
  cases shows : shown scale polls with
  | none => exact iff_of_false Bool.false_ne_true (by simp)
  | some event =>
      change (apply (image scale event)).pressed target = true ↔ event.button = some target
      rw [pressed_image, decide_eq_true_eq]

theorem virtualPad_axis (scale : Scale V) (polls : List (List (Event V))) {axis : Axis}
    {target : PadAxis} (mapped : axis.target = some target) :
    (virtualPad scale polls).axis target =
      ((shown scale polls).map (·.value scale axis)).getD 0 := by
  rw [virtualPad_eq]
  cases shows : shown scale polls with
  | none => rfl
  | some event => exact axis_image scale event mapped

/-- The device mirrors the pad exactly while the one shown input is the only one. -/
theorem mirrored_iff_sole (scale : Scale V) (polls : List (List (Event V))) :
    Mirrored scale polls ↔ Sole scale polls.flatten (shown scale polls) := by
  constructor
  · intro mirrored
    constructor
    · intro button target mapped
      rw [← virtualPad_pressed]
      exact mirrored.buttons button target mapped
    · intro axis value mapped reported
      obtain ⟨target, mapped⟩ := Option.ne_none_iff_exists'.mp mapped
      rw [← virtualPad_axis scale polls mapped]
      exact mirrored.axes axis target value mapped reported
  · intro sole
    constructor
    · intro button target mapped
      rw [virtualPad_pressed]
      exact sole.buttons button target mapped
    · intro axis target value mapped reported
      rw [virtualPad_axis scale polls mapped]
      exact sole.axes axis value (by simp [mapped]) reported

namespace Sample

/-- Values that are sticks already. -/
def plain : Scale Int16 where
  axisToI16 := id
  axisToU8 := fun value => UInt8.ofNat value.toNatClampNeg

/-- A tap on A, the press and the release in two polls. -/
def tap : List (List (Event Int16)) := [[.buttonPressed .south], [.buttonReleased .south]]

/-- The device keeps the button down. -/
theorem tap_not_mirrored : ¬ ∀ polls, Mirrored plain polls := by
  intro all
  have released := ((all tap).buttons .south .south rfl).mp (by decide)
  exact absurd released (by decide)

end Sample

end Qubox.Gamepad
