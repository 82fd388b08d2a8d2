import Qubox.Host.Overlay
import Qubox.Library.Table

/-!
# Displays of an X11 host

The display manager puts a display into privacy mode with the vkms module, a
virtual output and the power switch of the screen; where that fails, the host
covers the display with an overlay. External commands do all of it, and every
call below is given their outcomes. What they change is one state of the machine,
whatever display the call names.
-/

namespace Qubox.Host

/-! ## Commands -/

/-- How a command ended, with its trimmed error output. -/
structure CommandOutput where
  code : Option Int32 := some 0
  stderr : String := ""

/-- A command may not run at all. -/
abbrev CommandResult := Except String CommandOutput

namespace CommandResult

def success : CommandResult → Bool
  | .ok output => output.code = some 0
  | .error _ => false

end CommandResult

/-- The outcomes of the commands that one call may run. -/
structure Commands where
  enumerate : Except String (List DisplayId) := .ok [0, 1]
  modprobe : CommandResult := .ok {}
  newOutput : CommandResult := .ok {}
  /-- `modprobe -r vkms` after `--newoutput` has failed. -/
  rollback : CommandResult := .ok {}
  forceOff : CommandResult := .ok {}
  forceOn : CommandResult := .ok {}
  delOutput : CommandResult := .ok {}
  unload : CommandResult := .ok {}

namespace Commands

/-- The display is one of those that were enumerated. -/
def lists (commands : Commands) (display : DisplayId) : Bool :=
  (commands.enumerate.toOption.getD []).contains display

/-- The virtual output is made. -/
def created (commands : Commands) : Bool :=
  commands.modprobe.success && commands.newOutput.success

/-- The virtual output is gone. -/
def deleted (commands : Commands) : Bool :=
  commands.delOutput.success || commands.unload.success

end Commands

/-- The power of the screen, the vkms module and its outputs. -/
structure Screen where
  poweredOff : Bool := false
  vkmsLoaded : Bool := false
  outputs : List String := []

namespace Screen

variable (screen : Screen)

/-- `xset dpms force`. -/
def force (off : Bool) (result : CommandResult) : Screen :=
  if result.success then { screen with poweredOff := off } else screen

/-- `modprobe -r vkms`, which takes the outputs of the module away. -/
def unload (result : CommandResult) : Screen :=
  if result.success then { screen with vkmsLoaded := false, outputs := [] } else screen

/-- `xrandr --deloutput`. -/
def delOutput (outputName : String) (result : CommandResult) : Screen :=
  if result.success then { screen with outputs := screen.outputs.filter (· ≠ outputName) }
  else screen

end Screen

/-! ## The display manager -/

inductive DisplayError where
  | displayNotFound (display : DisplayId)
  | virtualDisplayFailed (message : String)
  | other (message : String)
  deriving DecidableEq

inductive DisplayState where
  | active
  | privacy
  | blanked
  deriving DecidableEq

def outputNameOf (name : String) : String := if name = "" then "VKMS-1" else name

/-- `try_create_vkms_display`. Where the output is placed does not matter here. -/
def tryCreateVkmsDisplay (screen : Screen) (name : String) (commands : Commands) :
    Except DisplayError String × Screen :=
  match commands.modprobe with
  | .error e => (.error (.virtualDisplayFailed ("modprobe vkms execution failed: " ++ e)), screen)
  | .ok modprobe =>
      if modprobe.code ≠ some 0 then
        (.error (.virtualDisplayFailed ("modprobe vkms failed (exit=" ++
          toString (modprobe.code.getD (-1)) ++ "): " ++ modprobe.stderr)), screen)
      else
        let screen := { screen with vkmsLoaded := true }
        match commands.newOutput with
        | .error e =>
            (.error (.virtualDisplayFailed ("xrandr --newoutput failed: " ++ e)), screen)
        | .ok newOutput =>
            if newOutput.code ≠ some 0 then
              (.error (.virtualDisplayFailed ("xrandr --newoutput failed (exit=" ++
                toString (newOutput.code.getD (-1)) ++ "): " ++ newOutput.stderr)),
                screen.unload commands.rollback)
            else
              (.ok (outputNameOf name),
                { screen with outputs := screen.outputs.insert (outputNameOf name) }.force true
                  commands.forceOff)

def destroyVkmsDisplay (screen : Screen) (outputName : String) (commands : Commands) : Screen :=
  (screen.delOutput outputName commands.delOutput).unload commands.unload

/-- The id of a virtual display that is made on its own. -/
def displayIdOf (outputName : String) : DisplayId :=
  outputName.toUTF8.toList.foldl (fun acc b => acc * 31 + b.toUInt32) 0 % 1000 + 1000

-- The ids come from a hash of 1000 values.
example : displayIdOf "Aa" = displayIdOf "BB" := by decide +kernel

/-- The display manager with the fallback of the host, and what they act on. -/
structure DisplayHost where
  screen : Screen := {}
  /-- The names of the outputs. -/
  virtualDisplays : AList (fun _ : DisplayId => String) := ∅
  overlay : BlankOverlayManager := {}
  /-- Calls of `show` that the fallback has spawned and that have not run. -/
  showing : List DisplayId := []
  /-- Proof-only: the last state that was set on each display. -/
  states : AList (fun _ : DisplayId => DisplayState) := ∅
  /-- Proof-only: the ids of the virtual displays that were made and not destroyed. -/
  live : List DisplayId := []

inductive DisplayCall where
  | setDisplayState (display : DisplayId) (state : DisplayState) (commands : Commands)
  | createVirtualDisplay (name : String) (commands : Commands)
  | destroyVirtualDisplay (display : DisplayId) (commands : Commands)
  /-- A task of the fallback runs; the window of the client may not open. -/
  | shows (index : Nat) (opens : Bool)
  /-- `set_control_channel`. -/
  | connects
  | disconnects

namespace DisplayHost

variable (host : DisplayHost)

def insertHandle (display : DisplayId) (outputName : String) : DisplayHost :=
  { host with
    virtualDisplays := host.virtualDisplays.insert display outputName
    live := host.live ++ [display] }

def removeHandle (display : DisplayId) : DisplayHost :=
  { host with
    virtualDisplays := host.virtualDisplays.erase display
    live := host.live.erase display }

def setActive (display : DisplayId) (commands : Commands) : DisplayHost :=
  let screen := host.screen.force false commands.forceOn
  { host.removeHandle display with
    screen := match host.virtualDisplays.lookup display with
      | some outputName => destroyVkmsDisplay screen outputName commands
      | none => screen }

/-- `fallback` says whether the manager has the fallback of the host, which spawns
a task that shows the overlay and answers at once. -/
def setPrivacy (fallback : Bool) (display : DisplayId) (commands : Commands) :
    Except DisplayError Unit × DisplayHost :=
  match commands.enumerate with
  | .error e => (.error (.other e), host)
  | .ok displays =>
      if display ∉ displays then (.error (.displayNotFound display), host)
      else if (host.virtualDisplays.lookup display).isSome then (.ok (), host)
      else
        match tryCreateVkmsDisplay host.screen ("VKMS-" ++ toString display) commands with
        | (.ok outputName, screen) => (.ok (), { host with screen }.insertHandle display outputName)
        | (.error vkmsErr, screen) =>
            if fallback then (.ok (), { host with screen, showing := host.showing ++ [display] })
            else (.error vkmsErr, { host with screen })

def setDisplayState (fallback : Bool) (display : DisplayId) (state : DisplayState)
    (commands : Commands) : Except DisplayError Unit × DisplayHost :=
  match state with
  | .active => (.ok (), host.setActive display commands)
  | .privacy => host.setPrivacy fallback display commands
  | .blanked => (.ok (), host)

def createVirtualDisplay (name : String) (commands : Commands) :
    Except DisplayError DisplayId × DisplayHost :=
  match tryCreateVkmsDisplay host.screen name commands with
  | (.ok outputName, screen) =>
      (.ok (displayIdOf outputName),
        { host with screen }.insertHandle (displayIdOf outputName) outputName)
  | (.error e, screen) => (.error e, { host with screen })

def destroyVirtualDisplay (display : DisplayId) (commands : Commands) :
    Except DisplayError Unit × DisplayHost :=
  match host.virtualDisplays.lookup display with
  | some outputName =>
      (.ok (), { host.removeHandle display with
        screen := destroyVkmsDisplay host.screen outputName commands })
  | none => (.error (.displayNotFound display), host)

/-- A task of the fallback. -/
def runShow (display : DisplayId) (opens : Bool) : DisplayHost :=
  { host with overlay := (host.overlay.showOn display opens).toOption.getD host.overlay }

def record (display : DisplayId) (state : DisplayState) :
    Except DisplayError Unit × DisplayHost → DisplayHost
  | (.ok (), host) => { host with states := host.states.insert display state }
  | (.error _, host) => host

def step (fallback : Bool) (host : DisplayHost) : DisplayCall → Option DisplayHost
  | .setDisplayState display state commands =>
      some (record display state (host.setDisplayState fallback display state commands))
  | .createVirtualDisplay name commands => some (host.createVirtualDisplay name commands).2
  | .destroyVirtualDisplay display commands =>
      some (host.destroyVirtualDisplay display commands).2
  | .shows index opens =>
      host.showing[index]?.map fun display =>
        { host with showing := host.showing.eraseIdx index }.runShow display opens
  | .connects => some { host with overlay := { host.overlay with controlTx := some true } }
  | .disconnects => some { host with overlay := { host.overlay with
      controlTx := host.overlay.controlTx.map fun _ => false } }

end DisplayHost

end Qubox.Host
