import Qubox.Gamepad.Wire
import Qubox.Library.Stepping
import Qubox.Media.Pen
import Qubox.Media.Sender

/-!
# The datagram loop of the host

One task reads the datagrams of a connection and puts each on the channel of its
kind. A second one, the loop, forwards gamepad states and, when a pen device is
configured, injects pen events. Both run at the same time, so a datagram may
arrive between any two steps of the loop.

With a pen device the loop blocks on the pen channel, without one it sleeps. A
gamepad datagram that arrives meanwhile is not read before a pen event comes, or
the timer fires. There is no channel for the microphone, and its discriminator is
above those of media datagrams, so its datagrams are dropped as unknown.
-/

namespace Qubox.Host

open Qubox.Media
open Qubox.Gamepad (encodeGamepadDatagram)

/-! ## What the client sends -/

/-- `MIC_DATAGRAM_DISCRIMINATOR`. -/
def micDiscriminator : UInt8 := 0x4D

structure WireMicHeader where
  magic : UInt8 × UInt8 := mediaDatagramMagic
  discriminator : UInt8 := micDiscriminator
  flags : UInt8 := 0
  sequence : UInt16
  deriving DecidableEq, Repr

/-- `write_into`, with the two reserved bytes. -/
def WireMicHeader.bytes (header : WireMicHeader) : Bytes :=
  [header.magic.1, header.magic.2, header.discriminator, header.flags] ++
    Bytes.ofNatBE 2 header.sequence.toNat ++ [0, 0]

/-- The datagram of one encoded frame, as `run_pipeline_loop` builds it. -/
def encodeMicDatagram (sequence : UInt16) (payload : Bytes) : Bytes :=
  WireMicHeader.bytes { sequence } ++ payload

inductive DatagramKind where
  | gamepad
  | pen
  | microphone
  | media
  deriving DecidableEq, Repr

/-- The header of a data chunk or of a parity chunk. -/
def chunkHeader (sender : MediaDatagramSender) (unit : EncodedVideoAccessUnit)
    (chunkCount : UInt16) (parity : Bool) (i : Nat) : MediaDatagramHeader :=
  if parity then sender.parityHeader unit chunkCount i else sender.dataHeader unit chunkCount i

/-- A datagram, by the encoder that makes it. -/
inductive ClientDatagram where
  | gamepad (state : WireGamepadState)
  | pen (event : PenEvent)
  | microphone (sequence : UInt16) (payload : Bytes)
  | media (sender : MediaDatagramSender) (unit : EncodedVideoAccessUnit) (chunkCount : UInt16)
      (parity : Bool) (i : Nat) (payload : Bytes)
  deriving DecidableEq

namespace ClientDatagram

def kind : ClientDatagram → DatagramKind
  | .gamepad _ => .gamepad
  | .pen _ => .pen
  | .microphone _ _ => .microphone
  | .media _ _ _ _ _ _ => .media

def bytes : ClientDatagram → Bytes
  | .gamepad state => encodeGamepadDatagram state
  | .pen event => encodePenDatagram event
  | .microphone sequence payload => encodeMicDatagram sequence payload
  | .media sender unit chunkCount parity i payload =>
      (chunkHeader sender unit chunkCount parity i).bytes ++ payload

end ClientDatagram

/-! ## The dispatcher -/

/-- The channel a datagram is put on, none if it is dropped. -/
def routeKind? : Route → Option DatagramKind
  | .media _ _ _ => some .media
  | .gamepad _ => some .gamepad
  | .pen _ => some .pen
  | .dropped => none

/-- The channels between the dispatcher and the loop, oldest entry first. `closed`
says that the dispatcher has stopped and dropped its ends. -/
structure Channels where
  media : List (MediaDatagramHeader × Bytes × Bool) := []
  gamepad : List Bytes := []
  pen : List Bytes := []
  closed : Bool := false
  deriving DecidableEq

def Channels.put (channels : Channels) : Route → Channels
  | .media header payload parity =>
      { channels with media := channels.media ++ [(header, payload, parity)] }
  | .gamepad datagram => { channels with gamepad := channels.gamepad ++ [datagram] }
  | .pen datagram => { channels with pen := channels.pen ++ [datagram] }
  | .dropped => channels

/-! ## The loop -/

structure DatagramLoop where
  deviceName : Option String
  playerSlot : UInt8

/-- Where the loop stands: it empties the gamepad channel, takes a pen event,
empties the other two channels when no pen is configured, sleeps, or is over. -/
inductive LoopPhase where
  | gamepads
  | pens
  | clearPens
  | clearMedia
  | asleep
  | over
  deriving DecidableEq, Repr

/-- `forwarded` is what went to the gamepad backend and `injected` what went to the
pen injector, oldest first. -/
structure LoopState where
  channels : Channels := {}
  phase : LoopPhase := .gamepads
  forwarded : List WireGamepadState := []
  injected : List PenEvent := []
  deriving DecidableEq

inductive LoopEvent where
  | received (datagram : ClientDatagram)
  /-- `read_datagram` fails: the connection is gone. -/
  | closed
  /-- The loop takes its next step; for a sleeping loop, the timer fires. -/
  | turn
  deriving DecidableEq

namespace DatagramLoop

variable (loop : DatagramLoop)

/-- The state the loop sends to the gamepad backend for a datagram of the channel. -/
def read (datagram : Bytes) : Option WireGamepadState :=
  (WireGamepadState.fromBytes datagram).map (·.withSlot loop.playerSlot)

/-- One `try_recv` or `recv`, and what follows it. A task that waits takes no step. -/
def turn (s : LoopState) : Option LoopState :=
  match s.phase with
  | .gamepads =>
      match s.channels.gamepad with
      | datagram :: rest => some { s with
          channels := { s.channels with gamepad := rest }
          forwarded := s.forwarded ++ (loop.read datagram).toList }
      | [] => some { s with phase := if loop.deviceName.isSome then .pens else .clearPens }
  | .pens =>
      match s.channels.pen with
      | datagram :: rest => some { s with
          channels := { s.channels with pen := rest }
          phase := .gamepads
          injected := s.injected ++ (decodePenDatagram datagram).toOption.toList }
      | [] => if s.channels.closed then some { s with phase := .over } else none
  | .clearPens =>
      match s.channels.pen with
      | _ :: rest => some { s with channels := { s.channels with pen := rest } }
      | [] => some { s with phase := .clearMedia }
  | .clearMedia =>
      match s.channels.media with
      | _ :: rest => some { s with channels := { s.channels with media := rest } }
      | [] => some { s with phase := .asleep }
  | .asleep => some { s with phase := .gamepads }
  | .over => none

def step (s : LoopState) : LoopEvent → Option LoopState
  | .received datagram =>
      if s.channels.closed then none
      else some { s with channels := s.channels.put (dispatch datagram.bytes) }
  | .closed => some { s with channels := { s.channels with closed := true } }
  | .turn => loop.turn s

end DatagramLoop

/-- The loop is blocked on the pen channel, or asleep. -/
def LoopState.Waiting (s : LoopState) : Prop :=
  (s.phase = .pens ∧ s.channels.pen = [] ∧ s.channels.closed = false) ∨ s.phase = .asleep

instance (s : LoopState) : Decidable s.Waiting := inferInstanceAs (Decidable (_ ∨ _))

/-! ## What is asked of them -/

/-- The gamepad states of a run, in the order in which they came. -/
def gamepadStates (events : List LoopEvent) : List WireGamepadState :=
  events.filterMap fun
    | .received (.gamepad state) => some state
    | _ => none

/-- Every datagram of the run is put on the channel of its kind, and whenever the
loop waits it has read and forwarded all gamepad states that came so far, in order. -/
structure NoKindWaits (loop : DatagramLoop) (events : List LoopEvent) : Prop where
  routed : ∀ past datagram rest s, events = past ++ .received datagram :: rest →
    Stepping.run loop.step {} past = some s → s.channels.closed = false →
    routeKind? (dispatch datagram.bytes) = some datagram.kind
  forwards : ∀ past rest s, events = past ++ rest → Stepping.run loop.step {} past = some s →
    s.Waiting → s.channels.gamepad = [] ∧
      s.forwarded = (gamepadStates past).filterMap fun state =>
        loop.read (encodeGamepadDatagram state)

/-- The event is no microphone datagram, and a gamepad datagram only when the loop
gets to the gamepad channel before it waits: it is emptying that channel, or a pen
event is there for it to take first. -/
def Attended (s : LoopState) : LoopEvent → Prop
  | .received datagram => datagram.kind ≠ .microphone ∧
      (datagram.kind = .gamepad →
        s.phase = .gamepads ∨ (s.phase = .pens ∧ s.channels.pen ≠ []))
  | _ => True

instance (s : LoopState) : (e : LoopEvent) → Decidable (Attended s e)
  | .received _ => inferInstanceAs (Decidable (_ ∧ (_ → _)))
  | .closed | .turn => inferInstanceAs (Decidable True)

/-! ## Routing -/

theorem chunkHeader_low (sender : MediaDatagramSender) (unit : EncodedVideoAccessUnit)
    (chunkCount : UInt16) (parity : Bool) (i : Nat) :
    (chunkHeader sender unit chunkCount parity i).magic = mediaDatagramMagic ∧
      (chunkHeader sender unit chunkCount parity i).flags ≤ mediaDiscriminatorMax := by
  have flags : ∀ keyframe last : Bool,
      (if keyframe then flagKeyframe else 0) ||| (if last then flagLastChunk else 0) ≤
          mediaDiscriminatorMax ∧
        (if keyframe then flagKeyframe else 0) ||| flagParity ≤ mediaDiscriminatorMax := by
    decide
  cases parity with
  | true => exact ⟨rfl, (flags unit.keyframe true).2⟩
  | false => exact ⟨rfl, (flags unit.keyframe _).1⟩

/-- A microphone datagram has the magic, but its discriminator is neither one of
the two typed ones nor small enough for media. -/
theorem dispatch_microphone (sequence : UInt16) (payload : Bytes) :
    dispatch (encodeMicDatagram sequence payload) = .dropped := rfl

/-- The route of every datagram, by its kind. -/
theorem routeKind_bytes (datagram : ClientDatagram) :
    routeKind? (dispatch datagram.bytes) =
      if datagram.kind = .microphone then none else some datagram.kind := by
  cases datagram with
  | gamepad state | pen event | microphone sequence payload => rfl
  | media sender unit chunkCount parity i payload =>
      obtain ⟨magic, low⟩ := chunkHeader_low sender unit chunkCount parity i
      rw [ClientDatagram.bytes, dispatch_media _ payload magic low]
      rfl

/-- Only a gamepad datagram changes the gamepad channel. -/
theorem gamepad_put (channels : Channels) (datagram : ClientDatagram) :
    (channels.put (dispatch datagram.bytes)).gamepad = channels.gamepad ++
      (gamepadStates [.received datagram]).map encodeGamepadDatagram := by
  cases datagram with
  | gamepad state => rfl
  | pen event => simp [gamepadStates, ClientDatagram.bytes, dispatch_pen, Channels.put]
  | microphone sequence payload =>
      simp [gamepadStates, ClientDatagram.bytes, dispatch_microphone, Channels.put]
  | media sender unit chunkCount parity i payload =>
      obtain ⟨magic, low⟩ := chunkHeader_low sender unit chunkCount parity i
      rw [ClientDatagram.bytes, dispatch_media _ payload magic low]
      simp [gamepadStates, Channels.put]

theorem pen_put_ne_nil {channels : Channels} (datagram : ClientDatagram)
    (some : channels.pen ≠ []) : (channels.put (dispatch datagram.bytes)).pen ≠ [] := by
  cases dispatch datagram.bytes with
  | pen bytes => exact List.append_ne_nil_of_left_ne_nil some _
  | gamepad bytes | media header payload parity | dropped => exact some

theorem gamepadStates_other {datagram : ClientDatagram} (other : datagram.kind ≠ .gamepad) :
    gamepadStates [.received datagram] = [] := by
  cases datagram with
  | gamepad state => exact absurd rfl other
  | pen event | microphone sequence payload | media sender unit chunkCount parity i payload => rfl

/-! ## Nothing is lost, and nothing is read twice -/

namespace DatagramLoop

variable {loop : DatagramLoop} {s t : LoopState} {e : LoopEvent}

/-- What has been forwarded, and what the backlog will be forwarded as. -/
def accounted (loop : DatagramLoop) (s : LoopState) : List WireGamepadState :=
  s.forwarded ++ s.channels.gamepad.filterMap loop.read

theorem accounted_turn (stepped : loop.turn s = some t) : loop.accounted t = loop.accounted s := by
  unfold turn at stepped
  split at stepped
  case h_1 =>
    split at stepped
    case h_1 datagram rest more =>
      cases stepped
      rw [accounted, accounted, more, List.filterMap_cons]
      cases loop.read datagram <;> simp
    case h_2 => cases stepped; rfl
  case h_2 =>
    split at stepped
    case h_1 => cases stepped; rfl
    case h_2 =>
      split at stepped
      · cases stepped; rfl
      · cases stepped
  case h_3 => split at stepped <;> (cases stepped; rfl)
  case h_4 => split at stepped <;> (cases stepped; rfl)
  case h_5 => cases stepped; rfl
  case h_6 => cases stepped

theorem accounted_step (stepped : loop.step s e = some t) : loop.accounted t = loop.accounted s ++
    (gamepadStates [e]).filterMap fun state => loop.read (encodeGamepadDatagram state) := by
  cases e with
  | received datagram =>
      rw [step] at stepped
      split at stepped
      · cases stepped
      · cases stepped
        simp only [accounted, gamepad_put, List.filterMap_append, List.append_assoc,
          List.filterMap_map]
        rfl
  | closed =>
      cases stepped
      exact (List.append_nil _).symm
  | turn => exact (accounted_turn stepped).trans (List.append_nil _).symm

theorem gamepadStates_cons (e : LoopEvent) (rest : List LoopEvent) :
    gamepadStates (e :: rest) = gamepadStates [e] ++ gamepadStates rest :=
  List.filterMap_append (l := [e])

/-- What a run has forwarded or still holds are the gamepad states that came. -/
theorem accounted_run {events : List LoopEvent} (ran : Stepping.run loop.step {} events = some s) :
    loop.accounted s = (gamepadStates events).filterMap fun state =>
      loop.read (encodeGamepadDatagram state) := by
  rw [Stepping.run_adds ran accounted_step]
  change [] ++ _ = _
  rw [List.nil_append]
  clear ran
  induction events with
  | nil => rfl
  | cons e rest ih => rw [gamepadStates_cons, List.filterMap_append, ← ih, List.flatMap_cons]

/-! ## When nothing is left unread -/

/-- The loop will get to the gamepad channel before it waits, or the channel is empty. -/
def Served (s : LoopState) : Prop :=
  s.phase = .gamepads ∨ (s.phase = .pens ∧ s.channels.pen ≠ []) ∨ s.channels.gamepad = []

theorem Served.unread (served : Served s) (pens : s.phase = .pens) (none : s.channels.pen = []) :
    s.channels.gamepad = [] := by
  rcases served with gamepads | ⟨-, some⟩ | empty
  · rw [pens] at gamepads
    cases gamepads
  · exact absurd none some
  · exact empty

theorem Served.unread_clearing (served : Served s) (gamepads : s.phase ≠ .gamepads)
    (pens : s.phase ≠ .pens) : s.channels.gamepad = [] := by
  rcases served with on | ⟨on, -⟩ | empty
  · exact absurd on gamepads
  · exact absurd on pens
  · exact empty

theorem Served.turn (served : Served s) (stepped : loop.turn s = some t) : Served t := by
  unfold DatagramLoop.turn at stepped
  split at stepped
  case h_1 =>
    split at stepped
    case h_1 =>
      cases stepped
      exact .inl ‹_›
    case h_2 empty =>
      cases stepped
      exact .inr (.inr empty)
  case h_2 pens =>
    split at stepped
    case h_1 =>
      cases stepped
      exact .inl rfl
    case h_2 none =>
      split at stepped
      · cases stepped
        exact .inr (.inr (served.unread pens none))
      · cases stepped
  case h_3 clearing =>
    have empty := served.unread_clearing (by simp [clearing]) (by simp [clearing])
    split at stepped <;> (cases stepped; exact .inr (.inr empty))
  case h_4 clearing =>
    have empty := served.unread_clearing (by simp [clearing]) (by simp [clearing])
    split at stepped <;> (cases stepped; exact .inr (.inr empty))
  case h_5 =>
    cases stepped
    exact .inl rfl
  case h_6 => cases stepped

theorem Served.step (served : Served s) (attended : Attended s e)
    (stepped : loop.step s e = some t) : Served t := by
  cases e with
  | received datagram =>
      rw [DatagramLoop.step] at stepped
      split at stepped
      · cases stepped
      · cases stepped
        rcases served with gamepads | ⟨pens, some⟩ | empty
        · exact .inl gamepads
        · exact .inr (.inl ⟨pens, pen_put_ne_nil datagram some⟩)
        · by_cases gamepad : datagram.kind = .gamepad
          · rcases attended.2 gamepad with gamepads | ⟨pens, some⟩
            · exact .inl gamepads
            · exact .inr (.inl ⟨pens, pen_put_ne_nil datagram some⟩)
          · refine .inr (.inr ?_)
            rw [gamepad_put, empty, gamepadStates_other gamepad]
            rfl
  | closed =>
      cases stepped
      exact served
  | turn => exact served.turn stepped

end DatagramLoop

theorem noKindWaits_of_attended (loop : DatagramLoop) (events : List LoopEvent)
    (attended : Stepping.Meets loop.step Attended {} events) : NoKindWaits loop events := by
  constructor
  · rintro past datagram rest s rfl ran -
    have kind := (attended.after ran).1.1
    rw [routeKind_bytes, if_neg kind]
  · rintro past rest s rfl ran waiting
    have served : DatagramLoop.Served s :=
      attended.before.invariant (fun served attended stepped => served.step attended stepped)
        (.inl rfl) ran
    have empty : s.channels.gamepad = [] := by
      rcases waiting with ⟨pens, none, -⟩ | asleep
      · exact served.unread pens none
      · exact served.unread_clearing (by simp [asleep]) (by simp [asleep])
    refine ⟨empty, ?_⟩
    have accounted := DatagramLoop.accounted_run ran
    rwa [DatagramLoop.accounted, empty, List.filterMap_nil, List.append_nil] at accounted

/-! ## With a pen device -/

namespace Sample

def pressed : ClientDatagram := .gamepad { buttonsLo := 1 }

def released : ClientDatagram := .gamepad {}

def stroke : ClientDatagram := .pen ⟨0, .pen, 0, 0, 0, 0, 0, 0, 0, 0, 0, 0⟩

def withPen : DatagramLoop := ⟨some "pen", 0⟩

/-- The second gamepad state comes while a pen event is in front of the loop. -/
def strokeBetween : List LoopEvent :=
  [.received pressed, .turn, .turn, .received stroke, .received released, .turn, .turn, .turn]

/-- The pad is pressed while the pen rests. -/
def penRests : List LoopEvent := [.turn, .received pressed]

theorem strokeBetween_noKindWaits :
    (Stepping.run withPen.step {} strokeBetween).any
        (fun s => decide s.Waiting && s.forwarded.length == 2) = true ∧
      NoKindWaits withPen strokeBetween :=
  ⟨by decide, noKindWaits_of_attended withPen strokeBetween (by decide)⟩

theorem penRests_not_noKindWaits : ¬ ∀ loop events, NoKindWaits loop events := by
  intro always
  have waits : (Stepping.run withPen.step {} penRests).any
      (fun s => decide s.Waiting && !s.channels.gamepad.isEmpty) = true := by
    decide
  obtain ⟨s, ran, left⟩ := (Option.any_eq_true _ _).mp waits
  simp only [Bool.and_eq_true, decide_eq_true_eq, Bool.not_eq_true'] at left
  have read := ((always withPen penRests).forwards penRests [] s rfl ran left.1).1
  rw [read] at left
  cases left.2

end Sample

end Qubox.Host
