import Qubox.Host.Input

/-!
# The three input injectors

Remote input reaches a Linux host through one of three injectors: a virtual device of the kernel,
and two dispatchers onto the same desktop library. Each has its own table of key names. What they
do is compared as logical actions, which leave out where an absolute move goes to.
-/

namespace Qubox.Host

namespace Injectors

/-! ## Keys -/

/-- The keys of the desktop library that the tables name. -/
inductive Key where
  | unicode (c : Char)
  | leftArrow
  | rightArrow
  | upArrow
  | downArrow
  | returnKey
  | escape
  | backspace
  | tab
  | space
  | delete
  | insert
  | home
  | endKey
  | pageUp
  | pageDown
  | lShift
  | rShift
  | lControl
  | rControl
  | alt
  | lMenu
  | metaKey
  | capsLock
  | numlock
  | scrollLock
  | pause
  | f (n : Nat)
  | numpad (n : Nat)
  | decimal
  | divide
  | multiply
  | subtract
  | add
  deriving DecidableEq

/-! ### The kernel's table -/

def parseDigits (total : Nat) : List Char → Option Nat
  | [] => some total
  | c :: rest =>
      if c.isDigit then parseDigits (10 * total + (c.toNat - '0'.toNat)) rest else none

/-- `parse::<u16>`, where two bytes do not overflow. -/
def parseNumber : List Char → Option Nat
  | [] => none
  | ['+'] => none
  | '+' :: digits => parseDigits 0 digits
  | digits => parseDigits 0 digits

def byteLength (chars : List Char) : Nat := (chars.map Char.utf8Size).sum

/-- The named keys of `map_key`, with their codes in `linux_keys`. -/
def keyCodes : List (String × UInt16) :=
  [("ArrowLeft", 105), ("ArrowRight", 106), ("ArrowUp", 103), ("ArrowDown", 108), ("Enter", 28),
    ("Escape", 1), ("Backspace", 14), ("Tab", 15), ("Space", 57), ("Delete", 111), ("Insert", 110),
    ("Home", 102), ("End", 107), ("PageUp", 104), ("PageDown", 109), ("ShiftLeft", 42),
    ("ShiftRight", 54), ("ControlLeft", 29), ("ControlRight", 97), ("AltLeft", 56),
    ("AltRight", 100), ("MetaLeft", 125), ("MetaRight", 126), ("CapsLock", 58), ("NumLock", 69),
    ("ScrollLock", 70), ("Minus", 12), ("Equal", 13), ("BracketLeft", 26), ("BracketRight", 27),
    ("Backslash", 43), ("Semicolon", 39), ("Quote", 40), ("Backquote", 41), ("Comma", 51),
    ("Period", 52), ("Slash", 53)]

def keyA : UInt16 := 30
def key1 : UInt16 := 2
def key0 : UInt16 := 11
def keyF1 : UInt16 := 59

def mapKey (name : String) : Option UInt16 :=
  match name.toList with
  | ['K', 'e', 'y', c] =>
      if c.isUpper then some (keyA + UInt16.ofNat (c.toNat - 'A'.toNat)) else none
  | ['D', 'i', 'g', 'i', 't', c] =>
      if c = '0' then some key0
      else if c.isDigit then some (key1 + UInt16.ofNat (c.toNat - '1'.toNat))
      else none
  | 'F' :: digits =>
      if byteLength digits ≤ 2 then
        (parseNumber digits).bind fun n =>
          if 1 ≤ n ∧ n ≤ 12 then some (keyF1 + UInt16.ofNat (n - 1)) else none
      else keyCodes.lookup name
  | _ => keyCodes.lookup name

/-! ### The tables of the desktop library -/

def apostrophe : Char := Char.ofNat 39
def backslash : Char := Char.ofNat 92
def grave : Char := Char.ofNat 96

def browserKeys : List (String × Key) :=
  [("ArrowLeft", .leftArrow), ("Left", .leftArrow), ("ArrowRight", .rightArrow),
    ("Right", .rightArrow), ("ArrowUp", .upArrow), ("Up", .upArrow), ("ArrowDown", .downArrow),
    ("Down", .downArrow), ("Enter", .returnKey), ("Escape", .escape), ("Backspace", .backspace),
    ("Tab", .tab), ("Space", .space), ("Delete", .delete), ("Home", .home), ("End", .endKey),
    ("PageUp", .pageUp), ("PageDown", .pageDown), ("ShiftLeft", .lShift), ("LeftShift", .lShift),
    ("ShiftRight", .rShift), ("RightShift", .rShift), ("ControlLeft", .lControl),
    ("LeftCtrl", .lControl), ("ControlRight", .rControl), ("RightCtrl", .rControl),
    ("AltLeft", .alt), ("LeftAlt", .alt), ("AltRight", .alt), ("RightAlt", .alt),
    ("MetaLeft", .metaKey), ("MetaRight", .metaKey), ("OSLeft", .metaKey), ("OSRight", .metaKey),
    ("CapsLock", .capsLock), ("Minus", .unicode '-'), ("Equal", .unicode '='),
    ("BracketLeft", .unicode '['), ("BracketRight", .unicode ']'),
    ("Backslash", .unicode backslash), ("Semicolon", .unicode ';'),
    ("Quote", .unicode apostrophe), ("Backquote", .unicode grave),
    ("Comma", .unicode ','), ("Period", .unicode '.'), ("Slash", .unicode '/'), ("F1", .f 1),
    ("F2", .f 2), ("F3", .f 3), ("F4", .f 4), ("F5", .f 5), ("F6", .f 6), ("F7", .f 7),
    ("F8", .f 8), ("F9", .f 9), ("F10", .f 10), ("F11", .f 11), ("F12", .f 12)]

/-- The end of `map_browser_key`. -/
def namedBrowserKey (code : String) : Option Key :=
  match browserKeys.lookup code with
  | some key => some key
  | none =>
      match code.toList with
      | [c] => if c.toNat < 128 then some (.unicode c) else none
      | _ => none

def mapBrowserKey (code : String) : Option Key :=
  match code.toList with
  | ['K', 'e', 'y', c] => if c.isAlpha then some (.unicode c.toLower) else namedBrowserKey code
  | ['D', 'i', 'g', 'i', 't', c] => if c.isDigit then some (.unicode c) else namedBrowserKey code
  | _ => namedBrowserKey code

def characterKeys : List (String × Char) :=
  [("Key0", '0'), ("Key1", '1'), ("Key2", '2'), ("Key3", '3'), ("Key4", '4'), ("Key5", '5'),
    ("Key6", '6'), ("Key7", '7'), ("Key8", '8'), ("Key9", '9'), ("Apostrophe", apostrophe),
    ("Backquote", grave), ("Backslash", backslash), ("Comma", ','), ("Equal", '='),
    ("LeftBracket", '['), ("Minus", '-'), ("Period", '.'), ("RightBracket", ']'),
    ("Semicolon", ';'), ("Slash", '/')]

def singleCharacterKey (key : String) : Option Char :=
  match key.toList with
  | [c] => if c.isAlphanum then some c.toLower else characterKeys.lookup key
  | _ => characterKeys.lookup key

/-- The other names of `map_remote_key`, as a Linux build has them. -/
def remoteKeys : List (String × Key) :=
  [("Down", .downArrow), ("Left", .leftArrow), ("Right", .rightArrow), ("Up", .upArrow),
    ("Backspace", .backspace), ("Delete", .delete), ("End", .endKey), ("Enter", .returnKey),
    ("Escape", .escape), ("Home", .home), ("Insert", .insert), ("Menu", .lMenu),
    ("PageDown", .pageDown), ("PageUp", .pageUp), ("Pause", .pause), ("Space", .space),
    ("Tab", .tab), ("NumLock", .numlock), ("CapsLock", .capsLock), ("ScrollLock", .scrollLock),
    ("LeftShift", .lShift), ("RightShift", .rShift), ("LeftCtrl", .lControl),
    ("RightCtrl", .rControl), ("LeftAlt", .lMenu), ("RightAlt", .alt), ("LeftSuper", .metaKey),
    ("RightSuper", .metaKey), ("NumPad0", .numpad 0), ("NumPad1", .numpad 1),
    ("NumPad2", .numpad 2), ("NumPad3", .numpad 3), ("NumPad4", .numpad 4),
    ("NumPad5", .numpad 5), ("NumPad6", .numpad 6),
    ("NumPad7", .numpad 7), ("NumPad8", .numpad 8), ("NumPad9", .numpad 9),
    ("NumPadDot", .decimal), ("NumPadSlash", .divide), ("NumPadAsterisk", .multiply),
    ("NumPadMinus", .subtract), ("NumPadPlus", .add), ("NumPadEnter", .returnKey), ("F1", .f 1),
    ("F2", .f 2), ("F3", .f 3), ("F4", .f 4), ("F5", .f 5), ("F6", .f 6), ("F7", .f 7),
    ("F8", .f 8), ("F9", .f 9), ("F10", .f 10), ("F11", .f 11), ("F12", .f 12), ("F13", .f 13),
    ("F14", .f 14), ("F15", .f 15)]

def mapRemoteKey (key : String) : Option Key :=
  match singleCharacterKey key with
  | some c => some (.unicode c)
  | none => remoteKeys.lookup key

/-! ## Amounts and places -/

/-- `normalize_wheel`. The absolute value of the least delta overflows. -/
def normalizeWheel (delta : Int32) : Option Int :=
  if delta = 0 then some 0
  else if delta = Int32.minValue then none
  else
    let sign : Int := if 0 < delta.toInt then 1 else -1
    some (sign * (min (max (delta.toInt.natAbs / 40) 1) 5 : Nat))

/-- `EnigoInjector::scale`. -/
def scale (v : UInt32) (extent : Int32) : Nat :=
  if extent.toInt ≤ 1 then 0
  else min v.toNat 65535 * (extent.toInt - 1).toNat / 65535

def scaleInputCoordinate (value sourceExtent : UInt32) (targetExtent : Int32) : Nat :=
  if sourceExtent.toNat ≤ 1 ∨ targetExtent.toInt ≤ 1 then 0
  else min value.toNat (sourceExtent.toNat - 1) * (targetExtent.toInt - 1).toNat /
    (sourceExtent.toNat - 1)

/-! ## Dispatchers -/

/-- What is written to the virtual device. -/
structure InputEvent where
  etype : UInt16
  code : UInt16
  value : Int
  deriving DecidableEq

def evSyn : UInt16 := 0
def evKey : UInt16 := 1
def evRel : UInt16 := 2
def evAbs : UInt16 := 3

def synReport : InputEvent := ⟨evSyn, 0, 0⟩

def level (on : Bool) : Int := if on then 1 else 0

def writeAbsXy (x y : UInt32) : List InputEvent :=
  [⟨evAbs, 0, min x.toNat 65535⟩, ⟨evAbs, 1, min y.toNat 65535⟩, synReport]

def buttonCode : InputMouseButton → UInt16
  | .left => 0x110
  | .right => 0x111
  | .middle => 0x112

def bit (bits : UInt8) (n : UInt8) : Bool := bits &&& (1 <<< n) ≠ 0

/-- A hat axis, from the flags of its two directions. -/
def hat (low high : Bool) : Int := if low then -1 else if high then 1 else 0

def gamepadEvents (state : WireGamepadState) : List InputEvent :=
  [⟨evKey, 0x130, level (bit state.buttonsLo 0)⟩, ⟨evKey, 0x131, level (bit state.buttonsLo 1)⟩,
    ⟨evKey, 0x133, level (bit state.buttonsLo 2)⟩, ⟨evKey, 0x134, level (bit state.buttonsLo 3)⟩,
    ⟨evKey, 0x136, level (bit state.buttonsLo 4)⟩, ⟨evKey, 0x137, level (bit state.buttonsLo 5)⟩,
    ⟨evKey, 0x13a, level (bit state.buttonsLo 6)⟩, ⟨evKey, 0x13b, level (bit state.buttonsLo 7)⟩,
    ⟨evKey, 0x13d, level (bit state.buttonsHi 0)⟩, ⟨evKey, 0x13e, level (bit state.buttonsHi 1)⟩,
    ⟨evKey, 0x13c, level (bit state.buttonsHi 2)⟩,
    ⟨evAbs, 0x10, hat (bit state.flags 2) (bit state.flags 3)⟩,
    ⟨evAbs, 0x11, hat (bit state.flags 0) (bit state.flags 1)⟩,
    ⟨evAbs, 0, state.lx.toInt⟩, ⟨evAbs, 1, state.ly.toInt⟩, ⟨evAbs, 3, state.rx.toInt⟩,
    ⟨evAbs, 4, state.ry.toInt⟩, ⟨evAbs, 2, state.lt.toNat⟩, ⟨evAbs, 5, state.rt.toNat⟩, synReport]

/-- `UinputInjector::dispatch`, where nothing overflows. -/
def uinputDispatch : RemoteInputEvent → Option (List InputEvent)
  | .mouseMove x y => some (writeAbsXy x y)
  | .relativeMouseMove dx dy =>
      some [⟨evRel, 0, dx.toInt⟩, ⟨evRel, 1, dy.toInt⟩, synReport]
  | .mouseButton button pressed x y =>
      let moves := match x, y with
        | some px, some py => writeAbsXy px py
        | _, _ => []
      some (moves ++ [⟨evKey, buttonCode button, level pressed⟩, synReport])
  | .mouseWheel dx dy =>
      (normalizeWheel dy).bind fun notchY => (normalizeWheel dx).bind fun notchX =>
        some ((if notchY ≠ 0 then [⟨evRel, 8, notchY⟩] else []) ++
          (if notchX ≠ 0 then [⟨evRel, 6, notchX⟩] else []) ++ [synReport])
  | .keyboard key pressed =>
      match mapKey key with
      | some code => some [⟨evKey, code, level pressed⟩, synReport]
      | none => some []
  | .gamepad state => some (gamepadEvents state)
  | .hoverDisplay _ => some []
  | .pen _ _ _ _ _ _ _ _ _ => some []

inductive Axis where
  | horizontal
  | vertical
  deriving DecidableEq

/-- A call of the desktop library. -/
inductive EnigoCall where
  | moveAbs (x y : Nat)
  | moveRel (dx dy : Int)
  | button (button : InputMouseButton) (pressed : Bool)
  | scroll (length : Int) (axis : Axis)
  | key (key : Key) (pressed : Bool)
  deriving DecidableEq

structure EnigoInjector where
  displayWidth : Int32
  displayHeight : Int32
  wide : 0 < displayWidth.toInt
  high : 0 < displayHeight.toInt

/-- `EnigoInjector::dispatch`, where nothing overflows. -/
def EnigoInjector.dispatch (injector : EnigoInjector) :
    RemoteInputEvent → Option (List EnigoCall)
  | .mouseMove x y =>
      some [.moveAbs (scale x injector.displayWidth) (scale y injector.displayHeight)]
  | .relativeMouseMove dx dy => some [.moveRel dx.toInt dy.toInt]
  | .mouseButton button pressed x y =>
      let moves := match x, y with
        | some px, some py =>
            [.moveAbs (scale px injector.displayWidth) (scale py injector.displayHeight)]
        | _, _ => []
      some (moves ++ [.button button pressed])
  | .mouseWheel dx dy =>
      (normalizeWheel dy).bind fun notches => (normalizeWheel dx).bind fun h =>
        some ((if notches ≠ 0 then [.scroll notches .vertical] else []) ++
          (if h ≠ 0 then [.scroll h .horizontal] else []))
  | .keyboard key pressed =>
      match mapBrowserKey key with
      | some k => some [.key k pressed]
      | none => some []
  | .gamepad _ => some []
  | .hoverDisplay _ => some []
  | .pen _ _ _ _ _ _ _ _ _ => some []

structure RemoteInputInjector where
  streamWidth : UInt32
  streamHeight : UInt32
  displayWidth : Int32
  displayHeight : Int32

def RemoteInputInjector.move (injector : RemoteInputInjector) (x y : UInt32) : EnigoCall :=
  .moveAbs (scaleInputCoordinate x injector.streamWidth injector.displayWidth)
    (scaleInputCoordinate y injector.streamHeight injector.displayHeight)

def RemoteInputInjector.apply (injector : RemoteInputInjector) :
    RemoteInputEvent → List EnigoCall
  | .mouseMove x y => [injector.move x y]
  | .mouseButton button pressed x y =>
      let moves := match x, y with
        | some px, some py => [injector.move px py]
        | _, _ => []
      moves ++ [.button button pressed]
  | .keyboard key pressed =>
      match mapRemoteKey key with
      | some mappedKey => [.key mappedKey pressed]
      | none => []
  | .hoverDisplay _ => []
  | .relativeMouseMove _ _ => []
  | .mouseWheel _ _ => []
  | .gamepad _ => []
  | .pen _ _ _ _ _ _ _ _ _ => []

/-! ## Logical actions -/

inductive Action where
  | moveTo (axis : Axis)
  | moveBy (axis : Axis) (amount : Int)
  | scroll (axis : Axis) (notches : Int)
  | button (button : InputMouseButton) (pressed : Bool)
  | key (key : Key) (pressed : Bool)
  /-- An input that the desktop library has no call for. -/
  | other (event : InputEvent)
  deriving DecidableEq

/-- The keys of `linux_keys`, as the desktop library names them. -/
def codeKeys : List (UInt16 × Key) :=
  [(1, .escape), (2, .unicode '1'), (3, .unicode '2'), (4, .unicode '3'), (5, .unicode '4'),
    (6, .unicode '5'), (7, .unicode '6'), (8, .unicode '7'), (9, .unicode '8'), (10, .unicode '9'),
    (11, .unicode '0'), (12, .unicode '-'), (13, .unicode '='), (14, .backspace), (15, .tab),
    (16, .unicode 'q'), (17, .unicode 'w'), (18, .unicode 'e'), (19, .unicode 'r'),
    (20, .unicode 't'), (21, .unicode 'y'), (22, .unicode 'u'), (23, .unicode 'i'),
    (24, .unicode 'o'), (25, .unicode 'p'), (26, .unicode '['), (27, .unicode ']'),
    (28, .returnKey), (29, .lControl), (30, .unicode 'a'), (31, .unicode 's'), (32, .unicode 'd'),
    (33, .unicode 'f'), (34, .unicode 'g'), (35, .unicode 'h'), (36, .unicode 'j'),
    (37, .unicode 'k'), (38, .unicode 'l'), (39, .unicode ';'), (40, .unicode apostrophe),
    (41, .unicode grave), (42, .lShift), (43, .unicode backslash), (44, .unicode 'z'),
    (45, .unicode 'x'), (46, .unicode 'c'), (47, .unicode 'v'), (48, .unicode 'b'),
    (49, .unicode 'n'), (50, .unicode 'm'), (51, .unicode ','), (52, .unicode '.'),
    (53, .unicode '/'), (54, .rShift), (55, .multiply), (56, .alt), (57, .space), (58, .capsLock),
    (59, .f 1), (60, .f 2), (61, .f 3), (62, .f 4), (63, .f 5), (64, .f 6), (65, .f 7), (66, .f 8),
    (67, .f 9), (68, .f 10), (69, .numlock), (70, .scrollLock), (71, .numpad 7), (72, .numpad 8),
    (73, .numpad 9), (74, .subtract), (75, .numpad 4), (76, .numpad 5), (77, .numpad 6), (78, .add),
    (79, .numpad 1), (80, .numpad 2), (81, .numpad 3), (82, .numpad 0), (83, .decimal),
    (87, .f 11), (88, .f 12), (97, .rControl), (98, .divide), (102, .home), (103, .upArrow),
    (104, .pageUp), (105, .leftArrow), (106, .rightArrow), (107, .endKey), (108, .downArrow),
    (109, .pageDown), (110, .insert), (111, .delete), (125, .metaKey), (126, .metaKey)]

def keyOfCode (code : UInt16) : Option Key := codeKeys.lookup code

def buttonOfCode (code : UInt16) : Option InputMouseButton :=
  [InputMouseButton.left, .right, .middle].find? fun button => buttonCode button = code

/-- A motion by nothing is no motion. -/
def moves (axis : Axis) (amount : Int) : List Action :=
  if amount = 0 then [] else [.moveBy axis amount]

/-- The relative axes of the device. Its vertical wheel counts upwards. -/
def relActions (event : InputEvent) : List Action :=
  if event.code = 0 then moves .horizontal event.value
  else if event.code = 1 then moves .vertical event.value
  else if event.code = 8 then [.scroll .vertical (-event.value)]
  else if event.code = 6 then [.scroll .horizontal event.value]
  else [.other event]

def keyActions (event : InputEvent) : List Action :=
  match keyOfCode event.code with
  | some key => [.key key (event.value = 1)]
  | none =>
      match buttonOfCode event.code with
      | some button => [.button button (event.value = 1)]
      | none => [.other event]

def InputEvent.actions (event : InputEvent) : List Action :=
  if event.etype = evSyn then []
  else if event.etype = evKey then keyActions event
  else if event.etype = evRel then relActions event
  else if event.code = 0 then [.moveTo .horizontal]
  else if event.code = 1 then [.moveTo .vertical]
  else [.other event]

/-- `downwards` says how far down a vertical scroll of the desktop library goes. -/
def EnigoCall.actions (downwards : Int → Int) : EnigoCall → List Action
  | .moveAbs _ _ => [.moveTo .horizontal, .moveTo .vertical]
  | .moveRel dx dy => moves .horizontal dx ++ moves .vertical dy
  | .button b pressed => [.button b pressed]
  | .scroll length .vertical => [.scroll .vertical (downwards length)]
  | .scroll length .horizontal => [.scroll .horizontal length]
  | .key k pressed => [.key k pressed]

/-! ## What the injectors owe -/

/-- The injector takes positions from 0 to 65535 to the pixels of an axis, in their order and from
the first to the last. -/
structure ScalesOnto (extent : Int32) : Prop where
  monotone : ∀ v w : UInt32, v ≤ w → scale v extent ≤ scale w extent
  first : scale 0 extent = 0
  last : (scale 65535 extent : Int) = extent.toInt - 1

variable (downwards : Int → Int) (enigo : EnigoInjector) (native : RemoteInputInjector)

/-- All injectors do the same, or nothing, and no amount overflows. -/
def Same (event : RemoteInputEvent) : Prop := ∃ actions,
  (uinputDispatch event).map (List.flatMap InputEvent.actions) = some actions ∧
    (enigo.dispatch event).map (List.flatMap (EnigoCall.actions downwards)) = some actions ∧
    (native.apply event).flatMap (EnigoCall.actions downwards) = actions

/-- The products of both scalings fit into 64 bits. -/
def PositionsFit : Prop := ∀ (v source : UInt32) (target : Int32),
  min v.toNat 65535 * (target.toInt - 1).toNat < 2 ^ 64 ∧
    min v.toNat (source.toNat - 1) * (target.toInt - 1).toNat < 2 ^ 64

structure MeanTheSame (event : RemoteInputEvent) : Prop where
  same : Same downwards enigo native event
  fit : PositionsFit
  width : ScalesOnto enigo.displayWidth
  height : ScalesOnto enigo.displayHeight

/-- The names by which all injectors know the same key. -/
def sharedNames : List String :=
  ["Enter", "Escape", "Backspace", "Tab", "Space", "Delete", "Home", "End", "PageUp", "PageDown",
    "CapsLock", "Minus", "Equal", "Backslash", "Semicolon", "Backquote", "Comma", "Period",
    "Slash", "F1", "F2", "F3", "F4", "F5", "F6", "F7", "F8", "F9", "F10"]

def digits : List Char := "0123456789".toList

def letters : List Char := "ABCDEFGHIJKLMNOPQRSTUVWXYZabcdefghijklmnopqrstuvwxyz".toList

/-- The names that some injector knows. -/
def knownNames : List String :=
  keyCodes.map Prod.fst ++ browserKeys.map Prod.fst ++ characterKeys.map Prod.fst ++
    remoteKeys.map Prod.fst ++
    letters.map (fun c => String.ofList ['K', 'e', 'y', c]) ++
    digits.map (fun c => String.ofList ['D', 'i', 'g', 'i', 't', c]) ++
    (List.range 128).map (fun n => String.ofList [Char.ofNat n]) ++
    (digits.drop 1).flatMap fun c => [String.ofList ['F', '0', c], String.ofList ['F', '+', c]]

/-- No injector ignores the event and another does not. -/
def Shared : RemoteInputEvent → Prop
  | .mouseMove _ _ => True
  | .relativeMouseMove dx dy => dx = 0 ∧ dy = 0
  | .mouseButton _ _ _ _ => True
  | .mouseWheel dx dy => dx = 0 ∧ dy = 0
  | .keyboard key _ => key ∈ sharedNames ∨ key ∉ knownNames
  | .gamepad _ => False
  | .hoverDisplay _ => True
  | .pen _ _ _ _ _ _ _ _ _ => True

/-! ## Scaling -/

theorem scale_of_wide {extent : Int32} (wide : 0 < extent.toInt) (v : UInt32) :
    scale v extent = min v.toNat 65535 * (extent.toInt - 1).toNat / 65535 := by
  unfold scale
  split
  next narrow =>
    have none : (extent.toInt - 1).toNat = 0 := by omega
    rw [none, Nat.mul_zero, Nat.zero_div]
  next => rfl

theorem scalesOnto {extent : Int32} (wide : 0 < extent.toInt) : ScalesOnto extent where
  monotone v w order := by
    have order : v.toNat ≤ w.toNat := order
    rw [scale_of_wide wide, scale_of_wide wide]
    exact Nat.div_le_div_right (Nat.mul_le_mul_right _ (by omega))
  first := by
    have none : min (0 : UInt32).toNat 65535 = 0 := rfl
    rw [scale_of_wide wide, none, Nat.zero_mul, Nat.zero_div]
  last := by
    rw [scale_of_wide wide]
    have full : min (65535 : UInt32).toNat 65535 = 65535 := rfl
    rw [full, Nat.mul_div_cancel_left _ (by decide)]
    omega

theorem positionsFit : PositionsFit := by
  intro v source target
  have value : v.toNat < 2 ^ 32 := v.toNat_lt
  have extent : (target.toInt - 1).toNat < 2 ^ 32 := by
    have small := target.toInt_lt
    omega
  have product {w : Nat} (least : w ≤ v.toNat) : w * (target.toInt - 1).toNat < 2 ^ 64 :=
    calc w * (target.toInt - 1).toNat
      _ < 2 ^ 32 * 2 ^ 32 := Nat.mul_lt_mul'' (Nat.lt_of_le_of_lt least value) extent
      _ = 2 ^ 64 := by decide
  exact ⟨product (Nat.min_le_left _ _), product (Nat.min_le_left _ _)⟩

/-! ## Keys -/

/-- All injectors know the name for the same key, or none knows it. -/
def SameKey (name : String) : Prop :=
  (mapKey name).map keyOfCode = (mapBrowserKey name).map some ∧
    mapBrowserKey name = mapRemoteKey name

instance (name : String) : Decidable (SameKey name) := inferInstanceAs (Decidable (_ ∧ _))

/-- All injectors know only shared names for the same key. -/
def OnlyShared (names : List String) : Prop := ∀ name ∈ names, SameKey name → name ∈ sharedNames

/-- The tables are not read for a name that is shared. -/
instance (names : List String) : Decidable (OnlyShared names) :=
  decidable_of_iff (∀ name ∈ names, name ∈ sharedNames ∨ ¬ SameKey name)
    (forall₂_congr fun _ _ => or_comm.trans imp_iff_not_or.symm)

/-- The names of the tables, and the names that are spelled with a letter or a digit. -/
theorem sameKey_names : (∀ name ∈ sharedNames, SameKey name) ∧
    OnlyShared (keyCodes.map Prod.fst ++ browserKeys.map Prod.fst ++ characterKeys.map Prod.fst ++
      remoteKeys.map Prod.fst) ∧
    OnlyShared (letters.map (fun c => String.ofList ['K', 'e', 'y', c]) ++
      digits.map (fun c => String.ofList ['D', 'i', 'g', 'i', 't', c]) ++
      (digits.drop 1).flatMap fun c =>
        [String.ofList ['F', '0', c], String.ofList ['F', '+', c]]) := by
  refine ⟨?_, ?_, ?_⟩
  · decide +kernel
  · decide +kernel
  · decide +kernel

theorem sameKey_of_mem : ∀ name ∈ sharedNames, SameKey name := sameKey_names.1

/-- A table of longer names has none of one character. -/
theorem lookup_character {β : Type} {table : List (String × β)}
    (long : ∀ e ∈ table, 1 < e.1.utf8ByteSize) {c : Char} (ascii : c.toNat < 128) :
    table.lookup (String.ofList [c]) = none := by
  have size : (String.ofList [c]).utf8ByteSize = 1 := by
    rw [← String.singleton_eq_ofList, String.utf8ByteSize_singleton]
    exact if_pos (show c.toNat ≤ 127 by omega)
  apply List.lookup_eq_none_iff.mpr
  intro e member
  apply bne_iff_ne.mpr
  intro same
  have larger := long e member
  rw [← same, size] at larger
  exact absurd larger (Nat.lt_irrefl 1)

/-- Only the desktop knows a name of one character. -/
theorem not_sameKey_character {c : Char} (ascii : c.toNat < 128) :
    ¬ SameKey (String.ofList [c]) := by
  have kernel : mapKey (String.ofList [c]) = none := by
    have long : ∀ e ∈ keyCodes, 1 < e.1.utf8ByteSize := by decide +kernel
    have missing := lookup_character long ascii
    rw [mapKey, String.toList_ofList]
    split
    · cases ‹_ = _›
    · cases ‹_ = _›
    · cases ‹_ = _›
      rfl
    · exact missing
  have browser : mapBrowserKey (String.ofList [c]) = some (.unicode c) := by
    have long : ∀ e ∈ browserKeys, 1 < e.1.utf8ByteSize := by decide +kernel
    have missing := lookup_character long ascii
    have named : namedBrowserKey (String.ofList [c]) = some (.unicode c) := by
      rw [namedBrowserKey, missing, String.toList_ofList]
      exact if_pos ascii
    rw [mapBrowserKey, String.toList_ofList]
    split
    · cases ‹_ = _›
    · cases ‹_ = _›
    · exact named
  intro same
  have first := same.1
  rw [kernel, browser] at first
  cases first

theorem toNat_ofNat_lt {n : Nat} (low : n < 128) : (Char.ofNat n).toNat < 128 := by
  rw [Char.ofNat, dif_pos (.inl (by omega))]
  exact low

theorem onlyShared_characters :
    OnlyShared ((List.range 128).map fun n => String.ofList [Char.ofNat n]) := by
  intro name member same
  obtain ⟨n, low, rfl⟩ := List.mem_map.mp member
  have ascii := toNat_ofNat_lt (List.mem_range.mp low)
  exact absurd same (not_sameKey_character ascii)

theorem onlyShared_knownNames : OnlyShared knownNames := by
  obtain ⟨-, tables, spelled⟩ := sameKey_names
  intro name known
  simp only [knownNames, OnlyShared, List.mem_append] at known tables spelled
  obtain ((((table | letter) | digit) | character) | function) := known
  · exact tables name table
  · exact spelled name (.inl (.inl letter))
  · exact spelled name (.inl (.inr digit))
  · exact onlyShared_characters name character
  · exact spelled name (.inr function)

/-! ### Every known name is listed -/

variable {name : String}

theorem mem_of_lookup {β : Type} {table : List (String × β)} {b : β}
    (found : table.lookup name = some b) : name ∈ table.map Prod.fst := by
  obtain ⟨before, after, rfl, -⟩ := List.lookup_eq_some_iff.mp found
  simp

theorem lt_of_isAlphanum {c : Char} (alphanum : c.isAlphanum = true) : c.toNat < 128 := by
  delta Char.isAlphanum Char.isAlpha Char.isUpper Char.isLower Char.isDigit at alphanum
  simp only [Bool.or_eq_true, Bool.and_eq_true, decide_eq_true_eq, ge_iff_le,
    UInt32.le_iff_toNat_le] at alphanum
  change ((65 ≤ c.toNat ∧ c.toNat ≤ 90) ∨ 97 ≤ c.toNat ∧ c.toNat ≤ 122) ∨
    48 ≤ c.toNat ∧ c.toNat ≤ 57 at alphanum
  omega

theorem of_lt {p : Char → Prop} (holds : ∀ n < 128, p (Char.ofNat n)) {c : Char}
    (ascii : c.toNat < 128) : p c := by
  have found := holds c.toNat ascii
  rwa [Char.ofNat_toNat] at found

theorem mem_of_ascii : ∀ n < 128,
    ((Char.ofNat n).isAlpha = true → Char.ofNat n ∈ letters) ∧
      ((Char.ofNat n).isDigit = true → Char.ofNat n ∈ digits) := by decide +kernel

theorem mem_letters {c : Char} (alpha : c.isAlpha = true) : c ∈ letters := by
  have ascii := lt_of_isAlphanum (c := c) (Bool.or_eq_true_iff.mpr (.inl alpha))
  have listed (n : Nat) (low : n < 128) := (mem_of_ascii n low).1
  exact of_lt (p := fun c => c.isAlpha = true → c ∈ letters) listed ascii alpha

theorem mem_digits {c : Char} (digit : c.isDigit = true) : c ∈ digits := by
  have ascii := lt_of_isAlphanum (c := c) (Bool.or_eq_true_iff.mpr (.inr digit))
  have listed (n : Nat) (low : n < 128) := (mem_of_ascii n low).2
  exact of_lt (p := fun c => c.isDigit = true → c ∈ digits) listed ascii digit

theorem known_letter {c : Char} (letter : c ∈ letters)
    (chars : name.toList = ['K', 'e', 'y', c]) : name ∈ knownNames := by
  have listed : name ∈ letters.map fun c => String.ofList ['K', 'e', 'y', c] :=
    List.mem_map.mpr ⟨c, letter, by rw [← chars, String.ofList_toList]⟩
  simp only [knownNames, List.mem_append, listed, true_or, or_true]

theorem known_digit {c : Char} (digit : c ∈ digits)
    (chars : name.toList = ['D', 'i', 'g', 'i', 't', c]) : name ∈ knownNames := by
  have listed : name ∈ digits.map fun c => String.ofList ['D', 'i', 'g', 'i', 't', c] :=
    List.mem_map.mpr ⟨c, digit, by rw [← chars, String.ofList_toList]⟩
  simp only [knownNames, List.mem_append, listed, true_or, or_true]

theorem known_character {c : Char} (ascii : c.toNat < 128) (chars : name.toList = [c]) :
    name ∈ knownNames := by
  have listed : name ∈ (List.range 128).map fun n => String.ofList [Char.ofNat n] := by
    refine List.mem_map.mpr ⟨c.toNat, List.mem_range.mpr ascii, ?_⟩
    rw [Char.ofNat_toNat, ← chars, String.ofList_toList]
  simp only [knownNames, List.mem_append, listed, true_or, or_true]

/-! ### The function keys of the kernel's table -/

theorem parseDigits_digits {total n : Nat} {chars : List Char}
    (parsed : parseDigits total chars = some n) : ∀ c ∈ chars, c ∈ digits := by
  induction chars generalizing total with
  | nil =>
      intro c member
      cases member
  | cons first rest ih =>
      rw [parseDigits] at parsed
      split at parsed
      next digit =>
        intro c member
        obtain rfl | member := List.mem_cons.mp member
        · exact mem_digits digit
        · exact ih parsed c member
      · cases parsed

theorem length_le_byteLength (chars : List Char) : chars.length ≤ byteLength chars := by
  induction chars with
  | nil => exact Nat.le_refl 0
  | cons first rest ih =>
      have positive := Char.utf8Size_pos first
      rw [byteLength, List.map_cons, List.sum_cons, ← byteLength, List.length_cons]
      omega

theorem parseNumber_digits {chars : List Char} {n : Nat} (parsed : parseNumber chars = some n) :
    ∃ rest, (chars = rest ∨ chars = '+' :: rest) ∧ rest ≠ [] ∧ ∀ c ∈ rest, c ∈ digits := by
  unfold parseNumber at parsed
  split at parsed
  · cases parsed
  · cases parsed
  next rest some => exact ⟨rest, .inr rfl, some, parseDigits_digits parsed⟩
  next some _ _ => exact ⟨chars, .inl rfl, some, parseDigits_digits parsed⟩

theorem known_function {chars : List Char} {n : Nat} (short : byteLength chars ≤ 2)
    (parsed : parseNumber chars = some n) (known : (mapKey name).isSome = true)
    (spelled : name.toList = 'F' :: chars) : name ∈ knownNames := by
  have one : ∀ name ∈ digits.map fun c => String.ofList ['F', c],
      (mapKey name).isSome = true → name ∈ knownNames := by decide +kernel
  have two : ∀ name ∈ ('+' :: digits).flatMap fun c =>
      digits.map fun d => String.ofList ['F', c, d],
      (mapKey name).isSome = true → name ∈ knownNames := by decide +kernel
  have two_of (c : Char) (first : c ∈ '+' :: digits) (d : Char) (second : d ∈ digits) :=
    two _ (List.mem_flatMap.mpr ⟨c, first, List.mem_map.mpr ⟨d, second, rfl⟩⟩)
  have spelling : name = String.ofList ('F' :: chars) := by
    rw [← spelled, String.ofList_toList]
  have length := Nat.le_trans (length_le_byteLength chars) short
  rw [spelling] at known ⊢
  obtain ⟨rest, shape, some, numeric⟩ := parseNumber_digits parsed
  match rest, some with
  | [c], _ =>
      have digit := numeric c (.head _)
      obtain rfl | rfl := shape
      · exact one _ (List.mem_map.mpr ⟨c, digit, rfl⟩) known
      · exact two_of '+' (.head _) c digit known
  | [c, d], _ =>
      obtain rfl | rfl := shape
      · exact two_of c (.tail _ (numeric c (.head _))) d (numeric d (.tail _ (.head _))) known
      · exact absurd length (Nat.not_succ_le_self 2)
  | _ :: _ :: _ :: _, _ =>
      obtain rfl | rfl := shape
      · simp only [List.length_cons] at length
        omega
      · simp only [List.length_cons] at length
        omega

/-! ### The three tables -/

theorem mapKey_known {code : UInt16} (known : mapKey name = some code) : name ∈ knownNames := by
  have named : keyCodes.lookup name = some code → name ∈ knownNames := by
    intro found
    have listed := mem_of_lookup found
    simp only [knownNames, List.mem_append, listed, true_or]
  have is_some : (mapKey name).isSome = true := by rw [known]; rfl
  unfold mapKey at known
  split at known
  next c spelled =>
    split at known
    next upper =>
      exact known_letter (mem_letters (Bool.or_eq_true_iff.mpr (.inl upper))) spelled
    · cases known
  next c spelled =>
    split at known
    next zero =>
      subst zero
      exact known_digit (by decide) spelled
    · split at known
      next digit => exact known_digit (mem_digits digit) spelled
      · cases known
  next chars spelled =>
    split at known
    next short =>
      obtain ⟨n, parsed, -⟩ := Option.bind_eq_some_iff.mp known
      exact known_function short parsed is_some spelled
    · exact named known
  · exact named known

theorem mapBrowserKey_known {key : Key} (known : mapBrowserKey name = some key) :
    name ∈ knownNames := by
  have named : namedBrowserKey name = some key → name ∈ knownNames := by
    intro found
    unfold namedBrowserKey at found
    split at found
    next there =>
      have listed := mem_of_lookup there
      simp only [knownNames, List.mem_append, listed, true_or, or_true]
    · split at found
      next c spelled =>
        split at found
        next ascii => exact known_character ascii spelled
        · cases found
      · cases found
  unfold mapBrowserKey at known
  split at known
  next c spelled =>
    split at known
    next alpha => exact known_letter (mem_letters alpha) spelled
    · exact named known
  next c spelled =>
    split at known
    next digit => exact known_digit (mem_digits digit) spelled
    · exact named known
  · exact named known

theorem mapRemoteKey_known {key : Key} (known : mapRemoteKey name = some key) :
    name ∈ knownNames := by
  unfold mapRemoteKey at known
  split at known
  next c single =>
    have named : characterKeys.lookup name = some c → name ∈ knownNames := by
      intro found
      have listed := mem_of_lookup found
      simp only [knownNames, List.mem_append, listed, true_or, or_true]
    unfold singleCharacterKey at single
    split at single
    next c spelled =>
      split at single
      next alphanum => exact known_character (lt_of_isAlphanum alphanum) spelled
      · exact named single
    · exact named single
  · have listed := mem_of_lookup known
    simp only [knownNames, List.mem_append, listed, true_or, or_true]

/-- A name that is not listed is ignored by all. -/
theorem sameKey_iff : SameKey name ↔ name ∈ sharedNames ∨ name ∉ knownNames := by
  constructor
  · intro same
    by_cases known : name ∈ knownNames
    · exact .inl (onlyShared_knownNames name known same)
    · exact .inr known
  · rintro (shared | unknown)
    · exact sameKey_of_mem name shared
    · have kernel : mapKey name = none :=
        Option.eq_none_iff_forall_ne_some.mpr fun _ known => unknown (mapKey_known known)
      have browser : mapBrowserKey name = none :=
        Option.eq_none_iff_forall_ne_some.mpr fun _ known => unknown (mapBrowserKey_known known)
      have remote : mapRemoteKey name = none :=
        Option.eq_none_iff_forall_ne_some.mpr fun _ known => unknown (mapRemoteKey_known known)
      rw [SameKey, kernel, browser, remote]
      exact ⟨rfl, rfl⟩

/-! ## Events -/

variable {downwards : Int → Int} {enigo : EnigoInjector} {native : RemoteInputInjector}

theorem decide_level (pressed : Bool) : decide (level pressed = 1) = pressed := by
  cases pressed <;> rfl

/-- A delta that is not 0 is at least one notch. -/
theorem eq_zero_of_normalizeWheel {delta : Int32} (normalized : normalizeWheel delta = some 0) :
    delta = 0 := by
  by_contra turned
  unfold normalizeWheel at normalized
  rw [if_neg turned] at normalized
  split at normalized
  · cases normalized
  · have notches := Option.some.inj normalized
    split at notches <;> omega

theorem eq_zero_of_moves {axis : Axis} {delta : Int32} (still : moves axis delta.toInt = []) :
    delta = 0 := by
  unfold moves at still
  split at still
  next zero => exact Int32.toInt_inj.mp zero
  · cases still

theorem same_relativeMouseMove {dx dy : Int32} :
    Same downwards enigo native (.relativeMouseMove dx dy) ↔ dx = 0 ∧ dy = 0 := by
  constructor
  · rintro ⟨actions, -, moved, rfl⟩
    have still : moves .horizontal dx.toInt ++ moves .vertical dy.toInt ++ [] = [] :=
      Option.some.inj moved
    rw [List.append_nil] at still
    obtain ⟨left, right⟩ := List.append_eq_nil_iff.mp still
    exact ⟨eq_zero_of_moves left, eq_zero_of_moves right⟩
  · rintro ⟨rfl, rfl⟩
    exact ⟨[], rfl, rfl, rfl⟩

theorem same_mouseWheel {dx dy : Int32} :
    Same downwards enigo native (.mouseWheel dx dy) ↔ dx = 0 ∧ dy = 0 := by
  constructor
  · rintro ⟨actions, -, scrolled, rfl⟩
    obtain ⟨calls, dispatched, nothing⟩ := Option.map_eq_some_iff.mp scrolled
    obtain ⟨notchY, vertical, dispatched⟩ := Option.bind_eq_some_iff.mp dispatched
    obtain ⟨notchX, horizontal, dispatched⟩ := Option.bind_eq_some_iff.mp dispatched
    obtain rfl := Option.some.inj dispatched
    have silent := List.flatMap_eq_nil_iff.mp nothing
    have stillY : notchY = 0 := by
      by_contra turned
      rw [if_pos turned] at silent
      exact absurd (silent _ (List.mem_append_left _ (.head _))) (List.cons_ne_nil _ _)
    have stillX : notchX = 0 := by
      by_contra turned
      rw [if_pos turned] at silent
      exact absurd (silent _ (List.mem_append_right _ (.head _))) (List.cons_ne_nil _ _)
    rw [stillY] at vertical
    rw [stillX] at horizontal
    exact ⟨eq_zero_of_normalizeWheel horizontal, eq_zero_of_normalizeWheel vertical⟩
  · rintro ⟨rfl, rfl⟩
    exact ⟨[], rfl, rfl, rfl⟩

theorem same_mouseButton {button : InputMouseButton} {pressed : Bool} {x y : Option UInt32} :
    Same downwards enigo native (.mouseButton button pressed x y) := by
  cases button <;> cases pressed <;> cases x <;> cases y <;> exact ⟨_, rfl, rfl, rfl⟩

/-- What a key code of the kernel does. -/
theorem keyActions_eq {code : UInt16} {pressed : Bool} {key : Key} :
    keyActions ⟨evKey, code, level pressed⟩ = [.key key pressed] ↔ keyOfCode code = some key := by
  unfold keyActions
  dsimp only
  rw [decide_level]
  cases keyOfCode code with
  | some found => simp
  | none =>
      dsimp only
      split <;> simp

theorem keyActions_ne_nil (event : InputEvent) : keyActions event ≠ [] := by
  unfold keyActions
  split
  · exact List.cons_ne_nil _ _
  · split <;> exact List.cons_ne_nil _ _

theorem same_keyboard {key : String} {pressed : Bool} :
    Same downwards enigo native (.keyboard key pressed) ↔ SameKey key := by
  have written : (uinputDispatch (.keyboard key pressed)).map (List.flatMap InputEvent.actions) =
      some (((mapKey key).map fun code => keyActions ⟨evKey, code, level pressed⟩).getD []) := by
    dsimp only [uinputDispatch]
    cases mapKey key with
    | none => rfl
    | some code => exact congrArg some (List.append_nil _)
  have called : (enigo.dispatch (.keyboard key pressed)).map
      (List.flatMap (EnigoCall.actions downwards)) =
        some (((mapBrowserKey key).map fun k => [Action.key k pressed]).getD []) := by
    dsimp only [EnigoInjector.dispatch]
    cases mapBrowserKey key <;> rfl
  have applied : (native.apply (.keyboard key pressed)).flatMap (EnigoCall.actions downwards) =
      ((mapRemoteKey key).map fun k => [Action.key k pressed]).getD [] := by
    dsimp only [RemoteInputInjector.apply]
    cases mapRemoteKey key <;> rfl
  have same : Same downwards enigo native (.keyboard key pressed) ↔
      ((mapKey key).map fun code => keyActions ⟨evKey, code, level pressed⟩).getD [] =
        ((mapBrowserKey key).map fun k => [Action.key k pressed]).getD [] ∧
      ((mapBrowserKey key).map fun k => [Action.key k pressed]).getD [] =
        ((mapRemoteKey key).map fun k => [Action.key k pressed]).getD [] := by
    rw [Same, written, called, applied]
    constructor
    · rintro ⟨actions, first, second, rfl⟩
      exact ⟨(Option.some.inj first).trans (Option.some.inj second).symm, Option.some.inj second⟩
    · rintro ⟨first, second⟩
      exact ⟨_, congrArg some (first.trans second), congrArg some second, rfl⟩
  rw [same, SameKey]
  refine and_congr ?_ ?_
  · cases mapKey key with
    | none => cases mapBrowserKey key <;> simp
    | some code =>
        cases mapBrowserKey key with
        | none => simpa using keyActions_ne_nil _
        | some k => simpa using keyActions_eq
  · cases mapBrowserKey key <;> cases mapRemoteKey key <;> simp

theorem not_same_gamepad {state : WireGamepadState} :
    ¬ Same downwards enigo native (.gamepad state) := by
  rintro ⟨actions, written, -, rfl⟩
  have silent := List.flatMap_eq_nil_iff.mp (Option.some.inj written)
  have buttonA := silent _ (.head _)
  cases buttonA

/-- The injectors mean the same thing exactly where all of them know the event or none does. -/
theorem meanTheSame_iff (downwards : Int → Int) (enigo : EnigoInjector)
    (native : RemoteInputInjector) (event : RemoteInputEvent) :
    MeanTheSame downwards enigo native event ↔ Shared event := by
  have same : MeanTheSame downwards enigo native event ↔ Same downwards enigo native event :=
    ⟨fun mean => mean.same,
      fun same => ⟨same, positionsFit, scalesOnto enigo.wide, scalesOnto enigo.high⟩⟩
  rw [same]
  cases event with
  | mouseMove x y => exact iff_of_true ⟨_, rfl, rfl, rfl⟩ trivial
  | relativeMouseMove dx dy => exact same_relativeMouseMove
  | mouseButton button pressed x y => exact iff_of_true same_mouseButton trivial
  | mouseWheel dx dy => exact same_mouseWheel
  | keyboard key pressed => exact same_keyboard.trans sameKey_iff
  | gamepad state => exact iff_of_false not_same_gamepad id
  | hoverDisplay displayId => exact iff_of_true ⟨_, rfl, rfl, rfl⟩ trivial
  | pen tool pressure tiltX tiltY rotation buttonState x y hoverDistance =>
      exact iff_of_true ⟨_, rfl, rfl, rfl⟩ trivial

namespace Sample

def display : EnigoInjector := ⟨1920, 1080, by decide, by decide⟩

def stream : RemoteInputInjector := ⟨1920, 1080, 1920, 1080⟩

/-- The device presses S for B, and the native injector does not know the name. A wheel overflows
at its least delta. -/
theorem keyB_not_meanTheSame : (mapKey "KeyB").map keyOfCode = some (some (.unicode 's')) ∧
    mapBrowserKey "KeyB" = some (.unicode 'b') ∧ mapRemoteKey "KeyB" = none ∧
    ¬ MeanTheSame (- ·) display stream (.keyboard "KeyB" true) ∧
    uinputDispatch (.mouseWheel 0 Int32.minValue) = none ∧
    display.dispatch (.mouseWheel 0 Int32.minValue) = none := by
  have different : ¬ SameKey "KeyB" := by decide +kernel
  refine ⟨by decide +kernel, by decide +kernel, by decide +kernel, fun mean => ?_, rfl, rfl⟩
  exact different (same_keyboard.mp mean.same)

end Sample

end Injectors

end Qubox.Host
