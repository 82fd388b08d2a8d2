import Qubox.Host.Input

/-!
# The mask of a session

Which of the routes apply the permissions of the session. The native input stream
hands nothing to a backend that the mask denies, in whatever order its reads and
its worker take their turns. The other three routes never look at the mask: they
respect it exactly if nothing that it denies arrives on them.
-/

namespace Qubox.Host

/-! ## What the mask permits -/

namespace Injection

/-- A gamepad event for a backend that has a gamepad. -/
def OnGamepad : Injection → Prop
  | .gamepad _ => True
  | .event injector (.gamepad _) => injector = .uinput
  | _ => False

def OfKeyboard : Injection → Prop
  | .event _ (.keyboard _ _) => True
  | _ => False

def OfMouse : Injection → Prop
  | .event _ (.mouseMove _ _) | .event _ (.relativeMouseMove _ _) | .event _ (.mouseButton _ _ _ _)
  | .event _ (.mouseWheel _ _) => True
  | _ => False

/-- The mask permits that this is handed to its backend. -/
structure Permitted (p : SessionPermissions) (injection : Injection) : Prop where
  input : allowInput p
  gamepad : injection.OnGamepad → allowGamepad p
  keyboard : injection.OfKeyboard → allowKeyboard p
  mouse : injection.OfMouse → allowMouse p

end Injection

open Injection (Permitted)

section Mask

variable {p : SessionPermissions}

theorem allowInput_of_gamepad (allowed : allowGamepad p = true) : allowInput p = true := by
  simp only [allowGamepad, allowInput, Bool.and_eq_true, Bool.or_eq_true] at allowed ⊢
  exact ⟨allowed.1, .inl (.inl allowed.2)⟩

theorem permitted_gamepad_iff (state : WireGamepadState) :
    Permitted p (.gamepad state) ↔ allowGamepad p = true := by
  constructor
  · intro permitted
    exact permitted.gamepad trivial
  · intro allowed
    exact ⟨allowInput_of_gamepad allowed, fun _ => allowed, False.elim, False.elim⟩

theorem permitted_pen_iff (event : PenEvent) : Permitted p (.pen event) ↔ allowInput p = true := by
  constructor
  · intro permitted
    exact permitted.input
  · intro allowed
    exact ⟨allowed, False.elim, False.elim, False.elim⟩

/-- Mouse moves are all permitted, or none is. -/
theorem permitted_mouseMove {injector : Injector} {event event' : RemoteInputEvent}
    (move : isMouseMove event = true) (move' : isMouseMove event' = true) :
    Permitted p (.event injector event) ↔ Permitted p (.event injector event') := by
  cases event with
  | mouseMove x y =>
      cases event' with
      | mouseMove x' y' =>
          exact ⟨fun permitted => ⟨permitted.1, permitted.2, permitted.3, permitted.4⟩,
            fun permitted => ⟨permitted.1, permitted.2, permitted.3, permitted.4⟩⟩
      | _ => cases move'
  | _ => cases move

end Mask

/-! ## The worker -/

section Worker

variable {p : SessionPermissions} {worker : InputWorker}

/-- All events that wait for the worker are permitted. -/
def Screened (p : SessionPermissions) (worker : InputWorker) : Prop :=
  ∀ event ∈ worker.waiting, Permitted p (.event .remoteInput event)

theorem coalesce_spec {event : RemoteInputEvent} (move : isMouseMove event = true)
    (queue : List RemoteInputEvent) :
    isMouseMove (coalesce event queue).1 = true ∧
      (coalesce event queue).2.1.toList ++ (coalesce event queue).2.2 ⊆ queue := by
  induction queue generalizing event with
  | nil => exact ⟨move, List.nil_subset _⟩
  | cons next queue ih =>
      rw [coalesce]
      split
      case isTrue moves =>
        obtain ⟨moved, left⟩ := ih moves
        exact ⟨moved, fun other member => .tail _ (left member)⟩
      case isFalse => exact ⟨move, List.Subset.refl _⟩

/-- A worker that has nothing to do hands nothing on. -/
theorem turn_nil (idle : worker.waiting = []) : worker.turn = (worker, []) := by
  rw [InputWorker.turn, InputWorker.nextInjectedInputEvent, idle]

/-- What a turn hands on is as permitted as what was next; the rest was waiting. -/
theorem turn_cons {event : RemoteInputEvent} {queue : List RemoteInputEvent}
    (next : worker.waiting = event :: queue) :
    ((∀ injection ∈ worker.turn.2, Permitted p injection) ↔
      (worker.injector = true → Permitted p (.event .remoteInput event))) ∧
      worker.turn.1.waiting ⊆ queue := by
  have handed {worker' : InputWorker} {event' : RemoteInputEvent}
      (same : worker'.injector = worker.injector)
      (alike : Permitted p (.event .remoteInput event') ↔ Permitted p (.event .remoteInput event)) :
      (∀ injection ∈ if worker'.injector then [Injection.event .remoteInput event'] else [],
        Permitted p injection) ↔
        (worker.injector = true → Permitted p (.event .remoteInput event)) := by
    rw [same]
    cases worker.injector with
    | true => simp [alike]
    | false => simp
  rw [InputWorker.turn, InputWorker.nextInjectedInputEvent, next]
  by_cases move : isMouseMove event = true
  case pos =>
    obtain ⟨moved, left⟩ := coalesce_spec move queue
    simp only [if_pos move]
    exact ⟨handed rfl (permitted_mouseMove moved move), left⟩
  case neg =>
    simp only [if_neg move]
    exact ⟨handed rfl Iff.rfl, List.Subset.refl _⟩

theorem Screened.turn (screened : Screened p worker) :
    (∀ injection ∈ worker.turn.2, Permitted p injection) ∧ Screened p worker.turn.1 := by
  cases waiting : worker.waiting with
  | nil =>
      rw [turn_nil waiting]
      exact ⟨List.forall_mem_nil _, screened⟩
  | cons event queue =>
      obtain ⟨handed, left⟩ := turn_cons (p := p) waiting
      refine ⟨handed.mpr fun _ => screened event (waiting ▸ .head _), ?_⟩
      intro other member
      exact screened other (waiting ▸ .tail _ (left member))

theorem Screened.send {event : RemoteInputEvent} (screened : Screened p worker)
    (permitted : Permitted p (.event .remoteInput event)) : Screened p (worker.send event) := by
  intro other member
  rw [InputWorker.waiting, InputWorker.send, ← List.append_assoc] at member
  rcases List.mem_append.mp member with waited | sent
  · exact screened other waited
  · rwa [List.mem_singleton.mp sent]

end Worker

/-! ## The native input stream -/

section Native

variable {p : SessionPermissions} {stream : InputStream}

def StreamScreened (p : SessionPermissions) (stream : InputStream) : Prop :=
  ∀ worker, stream.worker = some worker → Screened p worker

theorem StreamScreened.send {event : RemoteInputEvent} (screened : StreamScreened p stream)
    (permitted : Permitted p (.event .remoteInput event)) : StreamScreened p (stream.send event) := by
  intro worker' there
  rw [InputStream.send] at there
  split at there
  case h_1 => exact screened worker' there
  case h_2 worker found =>
    split at there
    case isTrue =>
      cases there
      exact (screened worker found).send permitted
    case isFalse => exact screened worker' there

/-- Every event of the stream is checked before it is handed on. -/
theorem StreamScreened.handleEvent (screened : StreamScreened p stream)
    (input : allowInput p = true) (event : RemoteInputEvent) :
    (∀ injection ∈ (stream.handleEvent p event).2, Permitted p injection) ∧
      StreamScreened p (stream.handleEvent p event).1 := by
  have sent {allowed : Bool}
      (permitted : allowed = true → Permitted p (.event .remoteInput event)) :
      StreamScreened p (if allowed then stream.send event else stream) := by
    cases allowed with
    | true => exact screened.send (permitted rfl)
    | false => exact screened
  have by_mouse (no_gamepad : ¬ (Injection.event .remoteInput event).OnGamepad)
      (no_keyboard : ¬ (Injection.event .remoteInput event).OfKeyboard) (allowed : allowMouse p = true) :
      Permitted p (.event .remoteInput event) :=
    ⟨input, fun h => absurd h no_gamepad, fun h => absurd h no_keyboard, fun _ => allowed⟩
  cases event with
  | gamepad state =>
      refine ⟨?_, screened⟩
      intro injection member
      rw [InputStream.handleEvent] at member
      split at member
      case isTrue allowed =>
        rw [List.mem_singleton.mp member]
        exact (permitted_gamepad_iff _).mpr allowed
      case isFalse => cases member
  | keyboard key pressed =>
      exact ⟨List.forall_mem_nil _,
        sent fun allowed => ⟨input, fun h => h.elim, fun _ => allowed, fun h => h.elim⟩⟩
  | mouseMove x y | relativeMouseMove dx dy | mouseButton button pressed x y | mouseWheel dx dy =>
      exact ⟨List.forall_mem_nil _, sent (by_mouse id id)⟩
  | hoverDisplay displayId | pen tool pressure tiltX tiltY rotation buttonState x y hover =>
      exact ⟨List.forall_mem_nil _,
        screened.send ⟨input, fun h => h.elim, fun h => h.elim, fun h => h.elim⟩⟩

theorem StreamScreened.handleRead (screened : StreamScreened p stream)
    (read : Except Transport.TransportError (Option RemoteInputEvent)) :
    (∀ injection ∈ (stream.handleRead p read).2, Permitted p injection) ∧
      StreamScreened p (stream.handleRead p read).1 := by
  cases isOpen : stream.isOpen with
  | false =>
      simp only [InputStream.handleRead, isOpen, Bool.false_eq_true, if_false]
      exact ⟨List.forall_mem_nil _, screened⟩
  | true =>
      simp only [InputStream.handleRead, isOpen, if_true]
      cases read with
      | error e => exact ⟨List.forall_mem_nil _, screened⟩
      | ok found =>
          cases found with
          | none => exact ⟨List.forall_mem_nil _, screened⟩
          | some event =>
              cases input : allowInput p with
              | false =>
                  simp only [decideInput, input]
                  exact ⟨List.forall_mem_nil _, screened⟩
              | true =>
                  simp only [decideInput, input]
                  exact screened.handleEvent input event

end Native

/-! ## The routes without a mask -/

section Unmasked

variable {p : SessionPermissions}

/-- What is next for a route that does not look at the mask is permitted. -/
def Heeded (fromSlice : Bytes → Option RemoteInputEvent) (p : SessionPermissions)
    (routes : InputRoutes) : InputStep → Prop
  | .datagramsTurn injectorOpens =>
      if routes.datagrams.waiting then
        ∀ bytes, routes.datagrams.penQueue.head? = some bytes →
          (decodePenDatagram bytes).isSome = true →
            (routes.datagrams.injector || injectorOpens) = true → allowInput p = true
      else
        ∀ bytes ∈ routes.datagrams.gamepadQueue,
          (WireGamepadState.fromBytes bytes).isSome = true → allowGamepad p = true
  | .channelMessage channel data =>
      ∀ injector event, routes.channels[channel]? = some (some injector) →
        fromSlice data = some event → Permitted p (.event injector event)
  | .webTransportWorker =>
      ∀ event, routes.webTransport.worker.waiting.head? = some event →
        routes.webTransport.worker.injector = true → Permitted p (.event .remoteInput event)
  | _ => True

theorem drainGamepads_iff (datagrams : Datagrams) :
    (∀ injection ∈ datagrams.drainGamepads, Permitted p injection) ↔
      ∀ bytes ∈ datagrams.gamepadQueue,
        (WireGamepadState.fromBytes bytes).isSome = true → allowGamepad p = true := by
  rw [Datagrams.drainGamepads]
  simp only [List.forall_mem_map, List.mem_filterMap, permitted_gamepad_iff,
    Option.isSome_iff_exists]
  constructor
  · rintro all bytes member ⟨state, decoded⟩
    exact all state ⟨bytes, member, decoded⟩
  · rintro all state ⟨bytes, member, decoded⟩
    exact all bytes member ⟨state, decoded⟩

theorem datagramsTurn_iff (fromSlice : Bytes → Option RemoteInputEvent) (routes : InputRoutes)
    (injectorOpens : Bool) :
    (∀ injection ∈ (routes.datagrams.turn injectorOpens).2, Permitted p injection) ↔
      Heeded fromSlice p routes (.datagramsTurn injectorOpens) := by
  rw [Heeded, Datagrams.turn]
  by_cases waiting : routes.datagrams.waiting = true
  case neg =>
    rw [if_neg waiting, if_neg waiting]
    exact drainGamepads_iff routes.datagrams
  case pos =>
    rw [if_pos waiting, if_pos waiting]
    cases routes.datagrams.penQueue with
    | nil => simp
    | cons bytes queue =>
        simp only [List.head?_cons, Option.some.injEq, forall_eq']
        cases decodePenDatagram bytes with
        | none => simp
        | some event =>
            simp only [Option.isSome_some, true_imp_iff]
            cases routes.datagrams.injector || injectorOpens with
            | false => simp
            | true => simp [permitted_pen_iff]

theorem channelMessage_iff (fromSlice : Bytes → Option RemoteInputEvent) (routes : InputRoutes)
    (channel : Nat) (data : Bytes) :
    (∀ injection ∈ (routes.step fromSlice p (.channelMessage channel data)).2,
      Permitted p injection) ↔ Heeded fromSlice p routes (.channelMessage channel data) := by
  rw [Heeded, InputRoutes.step]
  cases routes.channels[channel]? with
  | none => simp
  | some opened =>
      cases opened with
      | none => simp
      | some injector =>
          cases fromSlice data with
          | none | some event => simp

theorem webTransportWorker_iff (fromSlice : Bytes → Option RemoteInputEvent)
    (routes : InputRoutes) :
    (∀ injection ∈ routes.webTransport.worker.turn.2, Permitted p injection) ↔
      Heeded fromSlice p routes .webTransportWorker := by
  rw [Heeded]
  cases waiting : routes.webTransport.worker.waiting with
  | nil =>
      rw [turn_nil waiting]
      simp
  | cons event queue =>
      rw [(turn_cons waiting).1]
      simp

end Unmasked

/-! ## Runs -/

section Run

variable {fromSlice : Bytes → Option RemoteInputEvent} {p : SessionPermissions}
  {routes : InputRoutes}

/-- Every step of the run is heeded where it is taken. -/
def HeededRun (fromSlice : Bytes → Option RemoteInputEvent) (p : SessionPermissions)
    (routes : InputRoutes) : List InputStep → Prop
  | [] => True
  | step :: steps =>
      Heeded fromSlice p routes step ∧ HeededRun fromSlice p (routes.step fromSlice p step).1 steps

/-- A step hands on what is permitted exactly if it is heeded. -/
theorem step_permitted_iff (screened : StreamScreened p routes.native) (step : InputStep) :
    (∀ injection ∈ (routes.step fromSlice p step).2, Permitted p injection) ↔
      Heeded fromSlice p routes step := by
  cases step with
  | nativeRead read => exact iff_of_true (screened.handleRead read).1 trivial
  | nativeWorker =>
      apply iff_of_true _ trivial
      rw [InputRoutes.step]
      split
      case h_1 => exact List.forall_mem_nil _
      case h_2 worker found => exact (screened worker found).turn.1
  | nativeWorkerStops | datagram bytes => exact iff_of_true (List.forall_mem_nil _) trivial
  | datagramsTurn injectorOpens => exact datagramsTurn_iff fromSlice routes injectorOpens
  | channelOpens enigoOpens uinputOpens => exact iff_of_true (List.forall_mem_nil _) trivial
  | channelMessage channel data => exact channelMessage_iff fromSlice routes channel data
  | webTransportRead => exact iff_of_true (List.forall_mem_nil _) trivial
  | webTransportWorker => exact webTransportWorker_iff fromSlice routes

theorem StreamScreened.step (screened : StreamScreened p routes.native) (step : InputStep) :
    StreamScreened p (routes.step fromSlice p step).1.native := by
  cases step with
  | nativeRead read => exact (screened.handleRead read).2
  | nativeWorker =>
      rw [InputRoutes.step]
      split
      case h_1 => exact screened
      case h_2 worker found =>
        intro worker' there
        cases there
        exact (screened worker found).turn.2
  | nativeWorkerStops =>
      intro worker' there
      obtain ⟨worker, -, rfl⟩ := Option.map_eq_some_iff.mp there
      exact List.forall_mem_nil _
  | datagram bytes | datagramsTurn injectorOpens | channelOpens enigoOpens uinputOpens
  | channelMessage channel data | webTransportRead | webTransportWorker => exact screened

theorem injections_permitted_iff (screened : StreamScreened p routes.native)
    (steps : List InputStep) :
    (∀ injection ∈ routes.injections fromSlice p steps, Permitted p injection) ↔
      HeededRun fromSlice p routes steps := by
  induction steps generalizing routes with
  | nil => exact iff_of_true (List.forall_mem_nil _) trivial
  | cons step steps ih =>
      rw [InputRoutes.injections, List.forall_mem_append, step_permitted_iff screened step,
        ih (screened.step step), HeededRun]

/-- The routes of a session before its first step. -/
def InputRoutes.start (playerSlot datagramSlot : UInt8) (nativeWorker : Option Bool)
    (deviceName : Option String) (stream : Bytes) (webTransportInjector : Bool) : InputRoutes where
  native := { isOpen := true, playerSlot, worker := nativeWorker.map fun injector => { injector } }
  datagrams := { deviceName, playerSlot := datagramSlot }
  channels := []
  webTransport := { stream, worker := { injector := webTransportInjector } }

theorem start_screened (playerSlot datagramSlot : UInt8) (nativeWorker : Option Bool)
    (deviceName : Option String) (stream : Bytes) (webTransportInjector : Bool) :
    StreamScreened p (InputRoutes.start playerSlot datagramSlot nativeWorker deviceName stream
      webTransportInjector).native := by
  intro worker there
  obtain ⟨injector, -, rfl⟩ := Option.map_eq_some_iff.mp there
  exact List.forall_mem_nil _

/-- In a run of a session, only what the mask permits is handed to a backend exactly if
nothing else arrives on the three routes that do not look at the mask. -/
theorem run_permitted_iff (fromSlice : Bytes → Option RemoteInputEvent) (p : SessionPermissions)
    (playerSlot datagramSlot : UInt8) (nativeWorker : Option Bool) (deviceName : Option String)
    (stream : Bytes) (webTransportInjector : Bool) (steps : List InputStep) :
    (∀ injection ∈ (InputRoutes.start playerSlot datagramSlot nativeWorker deviceName stream
        webTransportInjector).injections fromSlice p steps, Permitted p injection) ↔
      HeededRun fromSlice p (InputRoutes.start playerSlot datagramSlot nativeWorker deviceName
        stream webTransportInjector) steps :=
  injections_permitted_iff
    (start_screened playerSlot datagramSlot nativeWorker deviceName stream webTransportInjector) steps

end Run

namespace Sample

def viewOnly : SessionPermissions where
  input := false
  gamepad := false
  keyboard := false
  mouse := false

/-- A gamepad datagram with button A. -/
def gamepadDatagram : Bytes :=
  [0x51, 0x42, 0x47, 0, 1, 0, 0, 0, 0, 0, 0, 0, 0, 0, 0, 0, 0, 0, 0]

/-- What becomes of it: the magic of the datagram is not the one that is skipped. -/
def gamepadState : WireGamepadState where
  gamepadId := 0x51
  flags := 0x42
  buttonsLo := 0x47
  buttonsHi := 0
  lt := 1
  rt := 0
  lx := 0
  ly := 0
  rx := 0
  ry := 0
  pad := (0, 0)

/-- The key A goes down. -/
def keyAOperation : Bytes := [0x02, 0xe2, 0xa1, 0x23, 0x00, 1]

def viewOnlyRoutes : InputRoutes := InputRoutes.start 0 0 (some true) none keyAOperation true

def keyAText : String := "\x7b\"kind\":\"keyboard\",\"key\":\"KeyA\",\"pressed\":true\x7d"

/-- The key as a JSON message. -/
def keyAMessage : Bytes := keyAText.toList.map fun c => UInt8.ofNat c.toNat

/-- What the message, which is the only one, is parsed to. -/
def keyAFromSlice (_ : Bytes) : Option RemoteInputEvent := some (.keyboard "KeyA" true)

/-- With a mask that permits nothing, a gamepad state arrives by datagram, a key by data
channel, and a key by WebTransport. -/
theorem viewOnly_injected :
    viewOnlyRoutes.injections keyAFromSlice viewOnly
        [.datagram gamepadDatagram, .datagramsTurn false, .channelOpens true false,
          .channelMessage 0 keyAMessage, .webTransportRead, .webTransportWorker] =
      [.gamepad gamepadState, .event .enigo (.keyboard "KeyA" true), .event .remoteInput (.keyboard "KeyA" true)] ∧
      ∀ injection, ¬ Permitted viewOnly injection := by
  constructor
  · decide
  · intro injection permitted
    cases permitted.input

end Sample

end Qubox.Host
