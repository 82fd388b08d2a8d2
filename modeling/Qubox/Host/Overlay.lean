import Mathlib.Logic.Basic

/-!
# The blank overlay

`BlankOverlayManager` tells the client over a control channel to cover a display
with a black window, and remembers whether it did. The client has one such window
for all displays.
-/

namespace Qubox.Host

abbrev DisplayId := UInt32

inductive PrivacyError where
  | channelClosed
  | alreadyShown
  | notShown
  deriving DecidableEq

structure BlankOverlayManager where
  /-- The sender of the control channel, and whether its receiver is still there. -/
  controlTx : Option Bool := none
  visible : Bool := false
  /-- The window of the client: the display for which it was opened. -/
  window : Option DisplayId := none
  deriving DecidableEq

namespace BlankOverlayManager

/-- Send a message that lets the client set its window. Without a channel the
message is only logged. -/
def send (overlay : BlankOverlayManager) (window : Option DisplayId) :
    Except PrivacyError BlankOverlayManager :=
  match overlay.controlTx with
  | some true => .ok { overlay with window }
  | some false => .error .channelClosed
  | none => .ok overlay

/-- `show`. The client opens its window unless it is open, which may fail. -/
def showOn (overlay : BlankOverlayManager) (display : DisplayId) (opens : Bool) :
    Except PrivacyError BlankOverlayManager := do
  if overlay.visible then throw .alreadyShown
  let overlay ← overlay.send
    (if overlay.window.isNone && opens then some display else overlay.window)
  return { overlay with visible := true }

/-- `hide`. -/
def hide (overlay : BlankOverlayManager) : Except PrivacyError BlankOverlayManager := do
  if !overlay.visible then throw .notShown
  let overlay ← overlay.send none
  return { overlay with visible := false }

/-- The client has one window, so a display that is covered stays so. -/
theorem window_showOn {overlay : BlankOverlayManager} {covered : DisplayId}
    (shown : overlay.window = some covered) (display : DisplayId) (opens : Bool) :
    ((overlay.showOn display opens).toOption.getD overlay).window = some covered := by
  rw [showOn, send, shown]
  cases overlay.visible with
  | true => exact shown
  | false =>
      cases overlay.controlTx with
      | none => exact shown
      | some receiver =>
          cases receiver with
          | true => rfl
          | false => exact shown

end BlankOverlayManager

end Qubox.Host
