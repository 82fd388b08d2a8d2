import Qubox.Media.Datagram
import Qubox.RemoteInput
import Qubox.Transport.Wire

/-!
# The input of a session

What a client sends reaches the host by four routes: the native input stream, the
datagrams of the same connection, a data channel, and a WebTransport stream. Each
hands events to backends of its own. The routes are one state with a step for
each thing that a task does between two awaits; a step says what it has handed to
a backend.
-/

namespace Qubox.Host

open Transport (TransportError)

/-! ## Permissions -/

def allowInput (p : SessionPermissions) : Bool := p.input && (p.gamepad || p.keyboard || p.mouse)

def allowGamepad (p : SessionPermissions) : Bool := p.input && p.gamepad

def allowKeyboard (p : SessionPermissions) : Bool := p.input && p.keyboard

def allowMouse (p : SessionPermissions) : Bool := p.input && p.mouse

inductive InputDecision where
  | inject
  | dropStream
  deriving DecidableEq

def decideInput (p : SessionPermissions) : InputDecision :=
  if allowInput p then .inject else .dropStream

/-! ## Backends -/

structure PenEvent where
  deviceId : UInt16
  tool : PenTool
  x : UInt32
  y : UInt32
  pressure : UInt32
  tiltX : UInt32
  tiltY : UInt32
  rotation : UInt32
  buttonState : UInt32
  hoverDistance : UInt16
  timestampUs : UInt32
  flags : UInt8
  deriving DecidableEq

inductive Injector where
  /-- `RemoteInputInjector` -/
  | remoteInput
  | enigo
  | uinput
  deriving DecidableEq

/-- What is handed to a backend. -/
inductive Injection where
  | gamepad (state : WireGamepadState)
  | event (injector : Injector) (event : RemoteInputEvent)
  | pen (event : PenEvent)
  deriving DecidableEq

/-! ## The input worker -/

/-- The thread that applies events, with its queue. The injector is missing if it
could not be opened. -/
structure InputWorker where
  injector : Bool
  running : Bool := true
  pending : Option RemoteInputEvent := none
  queue : List RemoteInputEvent := []
  deriving DecidableEq

def isMouseMove : RemoteInputEvent → Bool
  | .mouseMove _ _ => true
  | _ => false

/-- Of mouse moves in a row the last one counts. -/
def coalesce (event : RemoteInputEvent) :
    List RemoteInputEvent → RemoteInputEvent × Option RemoteInputEvent × List RemoteInputEvent
  | [] => (event, none, [])
  | next :: queue => if isMouseMove next then coalesce next queue else (event, some next, queue)

namespace InputWorker

/-- The event that is next, and those behind it. -/
def waiting (worker : InputWorker) : List RemoteInputEvent :=
  worker.pending.toList ++ worker.queue

def nextInjectedInputEvent (worker : InputWorker) : Option (RemoteInputEvent × InputWorker) :=
  match worker.waiting with
  | [] => none
  | event :: queue =>
      if isMouseMove event then
        let (event, pending, queue) := coalesce event queue
        some (event, { worker with pending, queue })
      else some (event, { worker with pending := none, queue })

def turn (worker : InputWorker) : InputWorker × List Injection :=
  match worker.nextInjectedInputEvent with
  | none => (worker, [])
  | some (event, worker) =>
      (worker, if worker.injector then [.event .remoteInput event] else [])

def send (worker : InputWorker) (event : RemoteInputEvent) : InputWorker :=
  { worker with queue := worker.queue ++ [event] }

end InputWorker

/-! ## The native input stream -/

structure InputStream where
  isOpen : Bool
  playerSlot : UInt8
  worker : Option InputWorker
  deriving DecidableEq

namespace InputStream

def send (stream : InputStream) (event : RemoteInputEvent) : InputStream :=
  match stream.worker with
  | none => stream
  | some worker =>
      if worker.running then { stream with worker := some (worker.send event) }
      else { stream with isOpen := false }

/-- One event in `handle_remote_input_events`. -/
def handleEvent (p : SessionPermissions) (stream : InputStream) (event : RemoteInputEvent) :
    InputStream × List Injection :=
  match event with
  | .gamepad state =>
      (stream, if allowGamepad p then [.gamepad (state.withSlot stream.playerSlot)] else [])
  | .keyboard _ _ => (if allowKeyboard p then stream.send event else stream, [])
  | .mouseMove _ _ | .relativeMouseMove _ _ | .mouseButton _ _ _ _ | .mouseWheel _ _ =>
      (if allowMouse p then stream.send event else stream, [])
  | .hoverDisplay _ | .pen _ _ _ _ _ _ _ _ _ => (stream.send event, [])

/-- What a read of the stream gives, in `handle_remote_input_events`. -/
def handleRead (p : SessionPermissions) (stream : InputStream)
    (read : Except TransportError (Option RemoteInputEvent)) : InputStream × List Injection :=
  if stream.isOpen then
    match read with
    | .ok (some event) =>
        match decideInput p with
        | .dropStream => (stream, [])
        | .inject => stream.handleEvent p event
    | .ok none | .error _ => ({ stream with isOpen := false }, [])
  else (stream, [])

end InputStream

/-! ## Datagrams -/

def u16LE (b0 b1 : UInt8) : UInt16 := b0.toUInt16 ||| b1.toUInt16 <<< 8

def u32LE (b0 b1 b2 b3 : UInt8) : UInt32 :=
  b0.toUInt32 ||| b1.toUInt32 <<< 8 ||| b2.toUInt32 <<< 16 ||| b3.toUInt32 <<< 24

def bytes16LE (x : UInt16) : Bytes := [x.toUInt8, (x >>> 8).toUInt8]

def bytes32LE (x : UInt32) : Bytes :=
  [x.toUInt8, (x >>> 8).toUInt8, (x >>> 16).toUInt8, (x >>> 24).toUInt8]

theorem u16LE_bytes (x : UInt16) : u16LE x.toUInt8 (x >>> 8).toUInt8 = x := by
  apply UInt16.eq_of_toBitVec_eq
  apply BitVec.eq_of_getLsbD_eq
  intro i inside
  simp only [u16LE, UInt16.toBitVec_or, UInt8.toBitVec_toUInt16, UInt16.toBitVec_toUInt8,
    UInt16.toBitVec_shiftLeft, UInt16.toBitVec_shiftRight, UInt16.toBitVec_ofNat,
    BitVec.ofNat_eq_ofNat, BitVec.reduceMod, BitVec.ushiftRight_eq', BitVec.toNat_ofNat,
    Nat.reducePow, Nat.reduceMod, BitVec.shiftLeft_eq', BitVec.getLsbD_or,
    BitVec.getLsbD_setWidth, BitVec.getLsbD_shiftLeft, BitVec.getLsbD_ushiftRight]
  grind

theorem u32LE_bytes (x : UInt32) :
    u32LE x.toUInt8 (x >>> 8).toUInt8 (x >>> 16).toUInt8 (x >>> 24).toUInt8 = x := by
  apply UInt32.eq_of_toBitVec_eq
  apply BitVec.eq_of_getLsbD_eq
  intro i inside
  simp only [u32LE, UInt32.toBitVec_or, UInt8.toBitVec_toUInt32, UInt32.toBitVec_toUInt8,
    UInt32.toBitVec_shiftLeft, UInt32.toBitVec_shiftRight, UInt32.toBitVec_ofNat,
    BitVec.ofNat_eq_ofNat, BitVec.reduceMod, BitVec.ushiftRight_eq', BitVec.toNat_ofNat,
    Nat.reducePow, Nat.reduceMod, BitVec.shiftLeft_eq', BitVec.getLsbD_or,
    BitVec.getLsbD_setWidth, BitVec.getLsbD_shiftLeft, BitVec.getLsbD_ushiftRight]
  grind

def penToolFromWireId : UInt8 → Option PenTool
  | 0x01 => some .pen
  | 0x02 => some .eraser
  | 0x03 => some .brush
  | 0x04 => some .airbrush
  | 0x05 => some .finger
  | 0x06 => some .mouse
  | 0x07 => some .lens
  | _ => none

/-- A pen event behind the three bytes of the datagram, with the magic of its own. -/
def decodePenDatagram : Bytes → Option PenEvent
  | 0x51 :: 0x42 :: 0x50 :: 0x51 :: 0x42 :: 0x50 :: flags :: d0 :: d1 :: toolId :: hover ::
      x0 :: x1 :: x2 :: x3 :: y0 :: y1 :: y2 :: y3 :: p0 :: p1 :: p2 :: p3 ::
      tx0 :: tx1 :: tx2 :: tx3 :: ty0 :: ty1 :: ty2 :: ty3 :: r0 :: r1 :: r2 :: r3 ::
      t0 :: t1 :: t2 :: t3 :: _ => some
        { deviceId := u16LE d0 d1
          tool := (penToolFromWireId toolId).getD .pen
          x := u32LE x0 x1 x2 x3
          y := u32LE y0 y1 y2 y3
          pressure := u32LE p0 p1 p2 p3
          tiltX := u32LE tx0 tx1 tx2 tx3
          tiltY := u32LE ty0 ty1 ty2 ty3
          rotation := u32LE r0 r1 r2 r3
          buttonState := (if flags &&& 4 = 0 then 0 else 2) ||| (if flags &&& 8 = 0 then 0 else 4)
          hoverDistance := if flags &&& 2 = 0 then 0 else hover.toUInt16 * 8
          timestampUs := u32LE t0 t1 t2 t3
          flags }
  | _ => none

/-- `run_datagram_dispatcher_loop` with the queues of its dispatcher. With a pen device
the loop waits for a pen datagram in every turn. -/
structure Datagrams where
  deviceName : Option String
  playerSlot : UInt8
  gamepadQueue : List Bytes := []
  penQueue : List Bytes := []
  injector : Bool := false
  waiting : Bool := false
  deriving DecidableEq

namespace Datagrams

/-- A datagram arrives, and its dispatcher hands it on. -/
def receive (datagrams : Datagrams) (bytes : Bytes) : Datagrams :=
  match Media.dispatch bytes with
  | .gamepad bytes => { datagrams with gamepadQueue := datagrams.gamepadQueue ++ [bytes] }
  | .pen bytes => { datagrams with penQueue := datagrams.penQueue ++ [bytes] }
  | _ => datagrams

/-- All gamepad datagrams that wait. -/
def drainGamepads (datagrams : Datagrams) : List Injection :=
  (datagrams.gamepadQueue.filterMap WireGamepadState.fromBytes).map fun state =>
    .gamepad (state.withSlot datagrams.playerSlot)

/-- From one await to the next. -/
def turn (datagrams : Datagrams) (injectorOpens : Bool) : Datagrams × List Injection :=
  if datagrams.waiting then
    match datagrams.penQueue with
    | [] => (datagrams, [])
    | bytes :: penQueue =>
        match decodePenDatagram bytes with
        | none => ({ datagrams with penQueue, waiting := false }, [])
        | some event =>
            let injector := datagrams.injector || injectorOpens
            ({ datagrams with penQueue, waiting := false, injector },
              if injector then [.pen event] else [])
  else
    (match datagrams.deviceName with
      | some _ => { datagrams with gamepadQueue := [], waiting := true }
      | none => { datagrams with gamepadQueue := [], penQueue := [] },
      datagrams.drainGamepads)

end Datagrams

/-! ## Data channels -/

/-- `HostInputInjector::open_best`. -/
def openBest (enigoOpens uinputOpens : Bool) : Option Injector :=
  if enigoOpens then some .enigo else if uinputOpens then some .uinput else none

/-! ## The WebTransport stream -/

def keyHash (name : String) : UInt32 :=
  name.toList.foldl (fun hash c => (hash <<< 5) - hash + UInt32.ofNat c.toNat) 0

def keyNames : List String :=
  "ABCDEFGHIJKLMNOPQRSTUVWXYZ".toList.map (fun c => "Key" ++ c.toString) ++
    "0123456789".toList.map (fun c => "Digit" ++ c.toString) ++
    (List.range 12).map (fun f => s!"F{f + 1}") ++
    ["ArrowLeft", "ArrowRight", "ArrowUp", "ArrowDown", "Enter", "Escape", "Backspace", "Tab",
      "Space", "Delete", "Insert", "Home", "End", "PageUp", "PageDown", "ShiftLeft", "ShiftRight",
      "ControlLeft", "ControlRight", "AltLeft", "AltRight", "MetaLeft", "MetaRight", "CapsLock",
      "NumLock", "ScrollLock", "Minus", "Equal", "BracketLeft", "BracketRight", "Backslash",
      "Semicolon", "Quote", "Backquote", "Comma", "Period", "Slash"]

def hashToKeyString (hash : UInt32) : Option String := keyNames.find? fun name => keyHash name = hash

/-- One operation of the stream: the event, if it has one, and what is left. -/
def readOperation : Bytes → Option (Option RemoteInputEvent × Bytes)
  | [] => none
  | op :: stream =>
      if op = 0x01 then
        match stream with
        | x0 :: x1 :: x2 :: x3 :: y0 :: y1 :: y2 :: y3 :: rest =>
            some (some (.relativeMouseMove (u32LE x0 x1 x2 x3).toInt32 (u32LE y0 y1 y2 y3).toInt32),
              rest)
        | _ => none
      else if op = 0x02 then
        match stream with
        | h0 :: h1 :: h2 :: h3 :: down :: rest =>
            some ((hashToKeyString (u32LE h0 h1 h2 h3)).map (.keyboard · (down != 0)), rest)
        | _ => none
      else if op = 0x03 then
        match WireGamepadState.ofData (stream.take WireGamepadState.size) with
        | some state => some (some (.gamepad state), stream.drop WireGamepadState.size)
        | none => none
      else some (none, stream)

/-- `run_webtransport_input_loop` with what the client writes and is still to be read. -/
structure WebTransportInput where
  stream : Bytes
  worker : InputWorker
  deriving DecidableEq

def WebTransportInput.read (input : WebTransportInput) : WebTransportInput :=
  match readOperation input.stream with
  | none => { input with stream := [] }
  | some (none, stream) => { input with stream }
  | some (some event, stream) => { input with stream, worker := input.worker.send event }

/-! ## All routes -/

structure InputRoutes where
  native : InputStream
  datagrams : Datagrams
  channels : List (Option Injector)
  webTransport : WebTransportInput
  deriving DecidableEq

inductive InputStep where
  | nativeRead (read : Except TransportError (Option RemoteInputEvent))
  | nativeWorker
  | nativeWorkerStops
  | datagram (bytes : Bytes)
  | datagramsTurn (injectorOpens : Bool)
  | channelOpens (enigoOpens uinputOpens : Bool)
  | channelMessage (channel : Nat) (data : Bytes)
  | webTransportRead
  | webTransportWorker

section Step

-- `fromSlice` is `serde_json` on the messages of a data channel.
variable (fromSlice : Bytes → Option RemoteInputEvent) (p : SessionPermissions)

def InputRoutes.step (routes : InputRoutes) : InputStep → InputRoutes × List Injection
  | .nativeRead read =>
      let (native, injections) := routes.native.handleRead p read
      ({ routes with native }, injections)
  | .nativeWorker =>
      match routes.native.worker with
      | none => (routes, [])
      | some worker =>
          let (worker, injections) := worker.turn
          ({ routes with native := { routes.native with worker := some worker } }, injections)
  | .nativeWorkerStops =>
      let worker := routes.native.worker.map fun worker =>
        { worker with running := false, pending := none, queue := [] }
      ({ routes with native := { routes.native with worker } }, [])
  | .datagram bytes => ({ routes with datagrams := routes.datagrams.receive bytes }, [])
  | .datagramsTurn injectorOpens =>
      let (datagrams, injections) := routes.datagrams.turn injectorOpens
      ({ routes with datagrams }, injections)
  | .channelOpens enigoOpens uinputOpens =>
      ({ routes with channels := routes.channels ++ [openBest enigoOpens uinputOpens] }, [])
  | .channelMessage channel data =>
      (routes,
        match routes.channels[channel]?, fromSlice data with
        | some (some injector), some event => [.event injector event]
        | _, _ => [])
  | .webTransportRead => ({ routes with webTransport := routes.webTransport.read }, [])
  | .webTransportWorker =>
      let (worker, injections) := routes.webTransport.worker.turn
      ({ routes with webTransport := { routes.webTransport with worker } }, injections)

/-- All that is handed to a backend. -/
def InputRoutes.injections (routes : InputRoutes) : List InputStep → List Injection
  | [] => []
  | step :: steps =>
      (routes.step fromSlice p step).2 ++ (routes.step fromSlice p step).1.injections steps

end Step

end Qubox.Host
