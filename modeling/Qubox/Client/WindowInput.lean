import Mathlib.Data.List.Induction
import Mathlib.Logic.Function.Basic
import Qubox.Host.InputOrder

/-!
# The input of the window

In every frame the client asks the window for the pointer, the buttons and the keys that were
pressed or released, and sends what has changed. It does not ask a window that is not active.
Where the pointer is and which buttons are down the client remembers itself, so it sees later
what has changed meanwhile. Keys it knows from the reports only: a key whose release is reported
while the client does not ask stays down.
-/

namespace Qubox.Client

open Host (Coalesces Supersedes isMouseMove)

/-- What the window reports in a frame. -/
structure WindowFrame where
  active : Bool
  /-- `get_mouse_pos`, in whole pixels. -/
  mouse : Option (UInt32 × UInt32)
  down : InputMouseButton → Bool
  /-- `get_keys_pressed(KeyRepeat::No)` -/
  pressed : List String
  /-- `get_keys_released` -/
  released : List String

/-- What the client remembers between two frames. -/
structure PumpState where
  lastMouse : Option (UInt32 × UInt32) := none
  buttonStates : InputMouseButton → Bool := fun _ => false

/-- The client asks the window. `allowUnfocused` is set by the environment. -/
def WindowFrame.seen (allowUnfocused : Bool) (frame : WindowFrame) : Bool :=
  allowUnfocused || frame.active

def pumpMouse (mouse lastMouse : Option (UInt32 × UInt32)) :
    Option (UInt32 × UInt32) × List RemoteInputEvent :=
  match mouse with
  | some (x, y) =>
      if some (x, y) ≠ lastMouse then (some (x, y), [.mouseMove x y]) else (lastMouse, [])
  | none => (lastMouse, [])

def pumpButtons (down : InputMouseButton → Bool) :
    List InputMouseButton → (InputMouseButton → Bool) →
      (InputMouseButton → Bool) × List RemoteInputEvent
  | [], buttonStates => (buttonStates, [])
  | button :: rest, buttonStates =>
      if down button ≠ buttonStates button then
        let (states, events) := pumpButtons down rest
          (Function.update buttonStates button (down button))
        (states, .mouseButton button (down button) none none :: events)
      else pumpButtons down rest buttonStates

/-- What the window reports of its keys, in the order in which it is asked. -/
def WindowFrame.keyReports (frame : WindowFrame) : List (String × Bool) :=
  frame.pressed.map (·, true) ++ frame.released.map (·, false)

def pumpWindowInput (allowUnfocused : Bool) (frame : WindowFrame) (pump : PumpState) :
    PumpState × List RemoteInputEvent :=
  if frame.seen allowUnfocused then
    let (lastMouse, moves) := pumpMouse frame.mouse pump.lastMouse
    let (buttonStates, buttons) :=
      pumpButtons frame.down [.left, .right, .middle] pump.buttonStates
    let keys := frame.keyReports.map fun (key, pressed) => .keyboard key pressed
    ({ lastMouse, buttonStates }, moves ++ buttons ++ keys)
  else ({ pump with lastMouse := none }, [])

/-! ## What events do -/

/-- The pointer, and what is held down, where events are injected. -/
structure Controls where
  pointer : Option (UInt32 × UInt32) := none
  buttons : InputMouseButton → Bool := fun _ => false
  keys : String → Bool := fun _ => false

namespace Controls

def apply (c : Controls) : RemoteInputEvent → Controls
  | .mouseMove x y => { c with pointer := some (x, y) }
  | .mouseButton button pressed _ _ =>
      { c with buttons := Function.update c.buttons button pressed }
  | .keyboard key pressed => { c with keys := Function.update c.keys key pressed }
  | _ => c

def after (events : List RemoteInputEvent) : Controls := events.foldl apply {}

/-- The clicks and keys among some events, each with the place of the pointer. -/
def acts (pointer : Option (UInt32 × UInt32)) :
    List RemoteInputEvent → List (Option (UInt32 × UInt32) × RemoteInputEvent)
  | [] => []
  | .mouseMove x y :: rest => acts (some (x, y)) rest
  | event :: rest => (pointer, event) :: acts pointer rest

theorem apply_supersedes {event next : RemoteInputEvent} (supersedes : Supersedes event next)
    (c : Controls) : (c.apply event).apply next = c.apply next := by
  obtain ⟨first, second⟩ := supersedes
  cases event <;> cases first
  cases next <;> cases second
  rfl

/-- Superseded moves leave no trace. -/
theorem after_coalesces {events kept : List RemoteInputEvent} (coalesces : Coalesces events kept) :
    after events = after kept :=
  coalesces.foldl_eq (fun _ _ => apply_supersedes) _

/-- Whatever is clicked is clicked where it would have been. -/
theorem acts_coalesces {events kept : List RemoteInputEvent} (coalesces : Coalesces events kept)
    (pointer : Option (UInt32 × UInt32)) : acts pointer events = acts pointer kept := by
  induction coalesces generalizing pointer with
  | nil => rfl
  | @keep event events kept _ ih =>
      cases event with
      | mouseMove x y => exact ih _
      | _ => exact congrArg (List.cons _) (ih _)
  | @drop event next events kept supersedes _ ih =>
      obtain ⟨first, second⟩ := supersedes
      cases event <;> cases first
      cases next <;> cases second
      exact ih pointer

variable {c d : Controls}

theorem foldl_keys_filter (events : List RemoteInputEvent) {p : RemoteInputEvent → Bool}
    (keyboard : ∀ key pressed, p (.keyboard key pressed) = true) (same : c.keys = d.keys) :
    ((events.filter p).foldl apply c).keys = (events.foldl apply d).keys := by
  induction events generalizing c d with
  | nil => exact same
  | cons event events ih =>
      by_cases kept : p event
      case pos =>
        rw [List.filter_cons_of_pos kept]
        apply ih
        cases event <;> simp only [apply, same]
      case neg =>
        rw [List.filter_cons_of_neg kept]
        apply ih
        cases event with
        | keyboard key pressed => exact absurd (keyboard key pressed) kept
        | _ => exact same

theorem foldl_mouse_filter (events : List RemoteInputEvent) {p : RemoteInputEvent → Bool}
    (move : ∀ x y, p (.mouseMove x y) = true)
    (click : ∀ button pressed x y, p (.mouseButton button pressed x y) = true)
    (pointer : c.pointer = d.pointer) (buttons : c.buttons = d.buttons) :
    ((events.filter p).foldl apply c).pointer = (events.foldl apply d).pointer ∧
      ((events.filter p).foldl apply c).buttons = (events.foldl apply d).buttons := by
  induction events generalizing c d with
  | nil => exact ⟨pointer, buttons⟩
  | cons event events ih =>
      by_cases kept : p event
      case pos =>
        rw [List.filter_cons_of_pos kept]
        apply ih
        · cases event <;> simp only [apply, pointer]
        · cases event <;> simp only [apply, buttons]
      case neg =>
        rw [List.filter_cons_of_neg kept]
        cases event with
        | mouseMove x y => exact absurd (move x y) kept
        | mouseButton button pressed x y => exact absurd (click button pressed x y) kept
        | _ => exact ih pointer buttons

end Controls

/-! ## Frames -/

section Frames

variable (allowUnfocused : Bool) (frames : List WindowFrame)

/-- The frames in which the client asks. -/
def seenFrames : List WindowFrame := frames.filter (·.seen allowUnfocused)

/-- Pointer and buttons are as in the last frames that were seen. -/
structure MirrorsMouse (c : Controls) : Prop where
  pointer : c.pointer = ((seenFrames allowUnfocused frames).filterMap (·.mouse)).getLast?
  buttons : ∀ button,
    c.buttons button = ((seenFrames allowUnfocused frames).getLast?.any (·.down button))

/-- The last report of a key. -/
def lastReport (reports : List (String × Bool)) (key : String) : Option Bool :=
  (reports.filter fun report => report.1 = key).getLast?.map Prod.snd

/-- A key is down if it was last reported as pressed, in the frames that were seen. -/
def MirrorsKeys (c : Controls) : Prop :=
  ∀ key, c.keys key =
    (lastReport ((seenFrames allowUnfocused frames).flatMap (·.keyReports)) key).getD false

/-- What was sent puts the controls where the client believes them to be. -/
structure Follows (pump : PumpState) (c : Controls) : Prop where
  mouse : MirrorsMouse allowUnfocused frames c
  keys : MirrorsKeys allowUnfocused frames c
  lastMouse : ∀ place, pump.lastMouse = some place → c.pointer = some place
  buttonStates : pump.buttonStates = c.buttons

end Frames

variable {allowUnfocused : Bool} {frames : List WindowFrame} {frame : WindowFrame}
  {pump : PumpState} {c : Controls}

/-! ### What is sent in a frame -/

theorem foldl_pumpMouse (mouse : Option (UInt32 × UInt32)) {lastMouse : Option (UInt32 × UInt32)}
    (last : ∀ place, lastMouse = some place → c.pointer = some place) :
    (pumpMouse mouse lastMouse).2.foldl Controls.apply c =
        { c with pointer := mouse.or c.pointer } ∧
      (pumpMouse mouse lastMouse).1 = mouse.or lastMouse := by
  rcases mouse with - | ⟨x, y⟩
  · exact ⟨rfl, rfl⟩
  · rw [pumpMouse]
    split
    case isTrue => exact ⟨rfl, rfl⟩
    case isFalse same =>
      have same : some (x, y) = lastMouse := not_not.mp same
      refine ⟨?_, same.symm⟩
      change c = { c with pointer := some (x, y) }
      rw [← last _ same.symm]

theorem pumpButtons_states {down : InputMouseButton → Bool} {list : List InputMouseButton}
    {states : InputMouseButton → Bool} (button : InputMouseButton) :
    (pumpButtons down list states).1 button =
      if button ∈ list then down button else states button := by
  induction list generalizing states with
  | nil => exact (if_neg List.not_mem_nil).symm
  | cons first rest ih =>
      have others : button ≠ first →
          (if button ∈ rest then down button else states button) =
            if button ∈ first :: rest then down button else states button := by
        intro other
        simp only [List.mem_cons, other, false_or]
      rw [pumpButtons]
      split
      case isTrue changed =>
        refine Eq.trans ih ?_
        by_cases same : button = first
        case pos =>
          subst same
          rw [if_pos List.mem_cons_self, Function.update_self, ite_self]
        case neg => rw [Function.update_of_ne same, others same]
      case isFalse unchanged =>
        rw [ih]
        by_cases same : button = first
        case pos =>
          subst same
          rw [if_pos List.mem_cons_self, ← not_not.mp unchanged, ite_self]
        case neg => exact others same

theorem foldl_pumpButtons (down : InputMouseButton → Bool) (list : List InputMouseButton)
    {states : InputMouseButton → Bool} (believed : states = c.buttons) :
    (pumpButtons down list states).2.foldl Controls.apply c =
      { c with buttons := (pumpButtons down list states).1 } := by
  induction list generalizing states c with
  | nil =>
      subst believed
      rfl
  | cons first rest ih =>
      subst believed
      rw [pumpButtons]
      split
      case isTrue changed => exact ih rfl
      case isFalse unchanged => exact ih rfl

theorem lastReport_append (first second : List (String × Bool)) (key : String) :
    lastReport (first ++ second) key = (lastReport second key).or (lastReport first key) := by
  rw [lastReport, lastReport, lastReport, List.filter_append, List.getLast?_append]
  cases (second.filter fun report => report.1 = key).getLast? <;> rfl

/-- A key is where its last report puts it. -/
theorem foldl_keyReports (reports : List (String × Bool)) :
    (reports.map fun (key, pressed) => RemoteInputEvent.keyboard key pressed).foldl
        Controls.apply c =
      { c with keys := fun key => (lastReport reports key).getD (c.keys key) } := by
  induction reports using List.reverseRecOn with
  | nil => rfl
  | append_singleton reports report ih =>
      obtain ⟨last, pressed⟩ := report
      rw [List.map_append, List.foldl_append, ih]
      refine congrArg (Controls.mk c.pointer c.buttons) (funext fun key => ?_)
      rw [lastReport_append]
      by_cases same : key = last
      case pos =>
        subst same
        simp [lastReport, Function.update_self]
      case neg => simp [lastReport, Function.update_of_ne same, Ne.symm same]

/-! ### The loop -/

theorem Follows.start : Follows allowUnfocused [] {} {} where
  mouse := ⟨rfl, fun _ => rfl⟩
  keys _ := rfl
  lastMouse _ remembered := by cases remembered
  buttonStates := rfl

theorem Follows.unseen (follows : Follows allowUnfocused frames pump c)
    (unseen : frame.seen allowUnfocused = false) :
    Follows allowUnfocused (frames ++ [frame]) { pump with lastMouse := none } c := by
  have skipped : seenFrames allowUnfocused (frames ++ [frame]) =
      seenFrames allowUnfocused frames := by
    rw [seenFrames, List.filter_append,
      List.filter_cons_of_neg (by rw [unseen]; exact Bool.false_ne_true), List.filter_nil,
      List.append_nil]
    rfl
  obtain ⟨⟨pointer, buttons⟩, keys, -, states⟩ := follows
  refine ⟨⟨?_, ?_⟩, ?_, ?_, states⟩
  · rw [skipped]
    exact pointer
  · rw [skipped]
    exact buttons
  · unfold MirrorsKeys
    rw [skipped]
    exact keys
  · rintro _ ⟨⟩

theorem Follows.seen (follows : Follows allowUnfocused frames pump c)
    (seen : frame.seen allowUnfocused = true) :
    Follows allowUnfocused (frames ++ [frame]) (pumpWindowInput allowUnfocused frame pump).1
      ((pumpWindowInput allowUnfocused frame pump).2.foldl Controls.apply c) := by
  have kept : seenFrames allowUnfocused (frames ++ [frame]) =
      seenFrames allowUnfocused frames ++ [frame] := by
    rw [seenFrames, List.filter_append, List.filter_cons_of_pos seen, List.filter_nil]
    rfl
  obtain ⟨moved, lastMouse⟩ := foldl_pumpMouse frame.mouse follows.lastMouse
  have clicked := foldl_pumpButtons frame.down [.left, .right, .middle]
    (c := { c with pointer := frame.mouse.or c.pointer }) follows.buttonStates
  have states : (pumpButtons frame.down [.left, .right, .middle] pump.buttonStates).1 =
      frame.down := by
    funext button
    rw [pumpButtons_states]
    apply if_pos
    cases button <;> decide
  have effect : (pumpWindowInput allowUnfocused frame pump).2.foldl Controls.apply c =
      { pointer := frame.mouse.or c.pointer
        buttons := frame.down
        keys := fun key => (lastReport frame.keyReports key).getD (c.keys key) } := by
    rw [pumpWindowInput, if_pos seen]
    dsimp only
    rw [List.foldl_append, List.foldl_append, moved, clicked, foldl_keyReports, states]
  have after : (pumpWindowInput allowUnfocused frame pump).1 =
      ⟨frame.mouse.or pump.lastMouse, frame.down⟩ := by
    rw [pumpWindowInput, if_pos seen]
    dsimp only
    rw [lastMouse, states]
  rw [effect, after]
  refine ⟨⟨?_, ?_⟩, ?_, ?_, rfl⟩
  · rw [kept, List.filterMap_append, List.getLast?_append, ← follows.mouse.pointer]
    cases mouse : frame.mouse <;> simp [mouse]
  · intro button
    rw [kept, List.getLast?_concat]
    rfl
  · intro key
    rw [kept, List.flatMap_append, List.flatMap_singleton, lastReport_append]
    dsimp only
    rw [follows.keys key]
    cases lastReport frame.keyReports key <;> rfl
  · intro place remembered
    dsimp only at remembered ⊢
    cases mouse : frame.mouse with
    | none =>
        rw [mouse] at remembered
        exact follows.lastMouse place remembered
    | some found =>
        rw [mouse] at remembered
        exact remembered

theorem Follows.next (follows : Follows allowUnfocused frames pump c) (frame : WindowFrame) :
    Follows allowUnfocused (frames ++ [frame]) (pumpWindowInput allowUnfocused frame pump).1
      ((pumpWindowInput allowUnfocused frame pump).2.foldl Controls.apply c) := by
  cases seen : frame.seen allowUnfocused with
  | true => exact follows.seen seen
  | false =>
      rw [pumpWindowInput, if_neg (by rw [seen]; exact Bool.false_ne_true)]
      exact follows.unseen seen

end Qubox.Client
