import Qubox.Host.SessionLoops

/-!
# When the loops of a session end

The native session ends because its thread has fewer and fewer reads left, and its send
loop waits for nothing but the thread. The datagram loop sees that its channels are
closed only where it waits for pen events, so it ends with a pen device and only then.
-/

namespace Qubox.Host

open AnnexB (AnnexBStreamFramer)
open Media (ErasureLibrary)
open Transport (EncodedVideoAccessUnit)

variable {ε : Type}

/-! ## The native session -/

namespace SingleStream

variable {send : Sends ε} {s t : SingleStream}

/-- The access units of some entries of the channel. -/
def delivered (queue : List (Except MediaRuntimeError EncodedVideoAccessUnit)) :
    List EncodedVideoAccessUnit :=
  queue.filterMap (·.toOption)

/-- The access units that the thread has still to read. -/
def ahead (s : SingleStream) : List EncodedVideoAccessUnit :=
  if s.reading then s.pipeline.units else []

theorem delivered_append (queue more : List (Except MediaRuntimeError EncodedVideoAccessUnit)) :
    delivered (queue ++ more) = delivered queue ++ delivered more :=
  List.filterMap_append

theorem delivered_map (units : List EncodedVideoAccessUnit) : delivered (units.map .ok) = units := by
  rw [delivered, List.filterMap_map]
  exact List.filterMap_some

/-- What a turn of the thread does. Before the end it passes on what it has read; at the end
it passes on what is left, or an error. -/
structure ReaderTurned (s t : SingleStream) : Prop where
  sending : t.sending = s.sending
  sent : t.sent = s.sent
  read :
    (∃ units, s.pipeline.units = units ++ t.pipeline.units ∧
      t.pipeline.reads.length < s.pipeline.reads.length ∧
      (s.sending = true → t.reading = true ∧ t.queue = s.queue ++ units.map .ok)) ∨
    (t.reading = false ∧ (s.sending = true → ∃ last, t.queue = s.queue ++ last ∧
      delivered last = s.pipeline.units ∧ last.length ≤ s.pipeline.units.length + 1))

/-- The thread never waits. -/
theorem readerTurn_some (reading : s.reading = true) :
    ∃ t, s.readerTurn = some t ∧ ReaderTurned s t := by
  rw [readerTurn, if_pos reading]
  cases left : s.pipeline.reads with
  | cons chunk rest =>
      obtain ⟨p', units, read, shorter, -, split⟩ := PipelineReader.read_cons left
      have fewer : p'.reads.length < s.pipeline.reads.length := by
        rw [shorter, left]
        exact Nat.lt_succ_self _
      rw [read]
      dsimp only
      split
      case isTrue sending =>
        exact ⟨_, rfl, rfl, rfl, .inl ⟨units, split, fewer, fun _ => ⟨reading, rfl⟩⟩⟩
      case isFalse ended =>
        exact ⟨_, rfl, rfl, rfl, .inl ⟨units, split, fewer, fun sending => absurd sending ended⟩⟩
  | nil =>
      rcases PipelineReader.read_nil left with ⟨-, none, p', e, read⟩ | ⟨-, p', read, -⟩
      · rw [read]
        refine ⟨_, rfl, rfl, rfl, .inr ⟨rfl, fun sending => ⟨[.error e], if_pos sending, ?_, ?_⟩⟩⟩
        · rw [none]
          rfl
        · exact Nat.succ_le_succ (Nat.zero_le _)
      · rw [read]
        refine ⟨_, rfl, rfl, rfl, .inr ⟨rfl, fun sending =>
          ⟨s.pipeline.units.map .ok, if_pos sending, delivered_map _, ?_⟩⟩⟩
        rw [List.length_map]
        exact Nat.le_succ _

theorem readerTurn_spec (turned : s.readerTurn = some t) : s.reading = true ∧ ReaderTurned s t := by
  cases reading : s.reading with
  | false => exact nomatch turned.symm.trans (if_neg (Bool.eq_false_iff.mp reading))
  | true =>
      obtain ⟨t', turned', reads⟩ := readerTurn_some reading
      obtain rfl := Option.some.inj (turned'.symm.trans turned)
      exact ⟨rfl, reads⟩

/-- What a turn of the loop does: it ends, or sends the first access unit of the channel. -/
structure SenderTurned (send : Sends ε) (s t : SingleStream) : Prop where
  sending : s.sending = true
  reading : t.reading = s.reading
  pipeline : t.pipeline = s.pipeline
  sends : (t.sending = false ∧ t.sent = s.sent) ∨
    ∃ unit rest, s.queue = .ok unit :: rest ∧ t.sent = s.sent ++ [unit] ∧
      (t.sending = true → t.queue = rest ∧ (send s.sent unit).toBool = true)

theorem senderTurn_spec (turned : s.senderTurn send = some t) : SenderTurned send s t := by
  rw [senderTurn] at turned
  split at turned
  case isFalse => cases turned
  case isTrue sending =>
    split at turned
    case h_1 =>
      split at turned
      · cases turned
      · cases turned
        exact ⟨sending, rfl, rfl, .inl ⟨rfl, rfl⟩⟩
    case h_2 =>
      cases turned
      exact ⟨sending, rfl, rfl, .inl ⟨rfl, rfl⟩⟩
    case h_3 unit rest queued =>
      split at turned
      case h_1 success =>
        cases turned
        refine ⟨sending, rfl, rfl, .inr ⟨unit, rest, queued, rfl, fun _ => ⟨rfl, ?_⟩⟩⟩
        rw [success]
        rfl
      case h_2 =>
        cases turned
        exact ⟨sending, rfl, rfl, .inr ⟨unit, rest, queued, rfl, nofun⟩⟩

/-- The loop waits only for the thread. -/
theorem senderTurn_some (send : Sends ε) (read : s.reading = false) (sending : s.sending = true) :
    ∃ t, s.senderTurn send = some t := by
  rw [senderTurn, if_pos sending]
  split
  · rw [read]
    exact ⟨_, rfl⟩
  · exact ⟨_, rfl⟩
  · split
    · exact ⟨_, rfl⟩
    · exact ⟨_, rfl⟩

/-! ### It ends -/

/-- Turns of the thread, and of the loop with what can still come to it. -/
def measure (s : SingleStream) : Nat :=
  (if s.reading then s.pipeline.reads.length + 1 else 0) +
    (if s.sending then
      s.queue.length + (if s.reading then s.pipeline.units.length + 1 else 0) + 1
    else 0)

theorem ReaderTurned.lowers (reading : s.reading = true) (turned : ReaderTurned s t) :
    t.measure < s.measure := by
  obtain ⟨sending, -, read⟩ := turned
  rw [measure, measure, sending, if_pos reading, if_pos reading]
  rcases read with ⟨units, split, fewer, passes⟩ | ⟨stopped, passes⟩
  · cases running : s.sending with
    | false =>
        simp only [Bool.false_eq_true, if_false]
        split <;> omega
    | true =>
        obtain ⟨still, queue⟩ := passes running
        rw [if_pos still, if_pos still, queue, split]
        simp only [if_true, List.length_append, List.length_map]
        omega
  · rw [stopped]
    cases running : s.sending with
    | false =>
        simp only [Bool.false_eq_true, if_false]
        omega
    | true =>
        obtain ⟨last, queue, -, short⟩ := passes running
        rw [queue]
        simp only [Bool.false_eq_true, if_false, if_true, List.length_append]
        omega

theorem SenderTurned.lowers (turned : SenderTurned send s t) : t.measure < s.measure := by
  obtain ⟨sending, reading, pipeline, sends⟩ := turned
  rw [measure, measure, reading, pipeline, if_pos sending]
  rcases sends with ⟨ended, -⟩ | ⟨unit, rest, queued, -, goesOn⟩
  · rw [ended]
    simp only [Bool.false_eq_true, if_false]
    omega
  · cases still : t.sending with
    | false =>
        simp only [Bool.false_eq_true, if_false]
        omega
    | true =>
        rw [(goesOn still).1, queued, List.length_cons]
        simp only [if_true]
        omega

theorem step_lowers {task : StreamTask} (stepped : step send s task = some t) :
    t.measure < s.measure := by
  cases task with
  | sender => exact (senderTurn_spec stepped).lowers
  | reader =>
      obtain ⟨reading, reads⟩ := readerTurn_spec stepped
      exact reads.lowers reading

/-! ### It sends in order -/

/-- What has been sent, what is in the channel and what is still to be read are all access
units there are. -/
structure InOrder (all : List EncodedVideoAccessUnit) (s : SingleStream) : Prop where
  before : s.sent <+: all
  rest : s.sending = true → s.sent ++ (delivered s.queue ++ s.ahead) = all

variable {all : List EncodedVideoAccessUnit}

theorem ReaderTurned.inOrder (reading : s.reading = true) (turned : ReaderTurned s t)
    (inOrder : InOrder all s) : InOrder all t := by
  obtain ⟨sending, sent, read⟩ := turned
  constructor
  · rw [sent]
    exact inOrder.before
  · intro still
    have running := sending.symm.trans still
    have whole := inOrder.rest running
    rw [ahead, if_pos reading] at whole
    rw [sent, ← whole, ahead]
    congr 1
    rcases read with ⟨units, split, -, passes⟩ | ⟨stopped, passes⟩
    · obtain ⟨goesOn, queue⟩ := passes running
      rw [if_pos goesOn, queue, split, delivered_append, delivered_map, List.append_assoc]
    · obtain ⟨last, queue, units, -⟩ := passes running
      rw [stopped, queue, delivered_append, units]
      exact List.append_nil _

theorem SenderTurned.inOrder (turned : SenderTurned send s t) (inOrder : InOrder all s) :
    InOrder all t := by
  obtain ⟨sending, reading, pipeline, sends⟩ := turned
  have whole := inOrder.rest sending
  rcases sends with ⟨ended, sent⟩ | ⟨unit, rest, queued, sent, goesOn⟩
  · constructor
    · rw [sent]
      exact inOrder.before
    · intro still
      exact nomatch ended.symm.trans still
  · have next : delivered s.queue = unit :: delivered rest := by
      rw [queued]
      rfl
    rw [next, List.cons_append] at whole
    constructor
    · rw [sent, ← whole]
      exact (List.prefix_append_right_inj s.sent).mpr ⟨_, rfl⟩
    · intro still
      rw [sent, (goesOn still).1, ahead, reading, pipeline, ← whole, List.append_assoc]
      rfl

theorem step_inOrder {task : StreamTask} (inOrder : InOrder all s)
    (stepped : step send s task = some t) : InOrder all t := by
  cases task with
  | sender => exact (senderTurn_spec stepped).inOrder inOrder
  | reader =>
      obtain ⟨reading, reads⟩ := readerTurn_spec stepped
      exact reads.inOrder reading inOrder

/-- On a closed connection nothing is sent, or the loop is over. -/
theorem step_closed (closed : SendsFail send) {task : StreamTask}
    (before : s.sent ≠ [] → s.sending = false) (stepped : step send s task = some t) :
    t.sent ≠ [] → t.sending = false := by
  cases task with
  | reader =>
      obtain ⟨-, reads⟩ := readerTurn_spec stepped
      rw [reads.sending, reads.sent]
      exact before
  | sender =>
      intro _
      rcases (senderTurn_spec stepped).sends with ⟨ended, -⟩ | ⟨unit, rest, -, -, goesOn⟩
      · exact ended
      · apply Bool.eq_false_iff.mpr
        intro still
        exact nomatch (closed s.sent unit).symm.trans (goesOn still).2

end SingleStream

theorem streamEnds (send : Sends ε) (p : PipelineReader) : StreamEnds send p := by
  constructor
  · refine ⟨(SingleStream.start p).measure, fun tasks s ran => ?_⟩
    exact Stepping.length_le (fun _ => SingleStream.step_lowers) ran
  · intro _ s _
    cases reading : s.reading with
    | true =>
        obtain ⟨t, turned, -⟩ := SingleStream.readerTurn_some reading
        exact .inr ⟨.reader, t, turned⟩
    | false =>
        cases sending : s.sending with
        | false => exact .inl ⟨rfl, rfl⟩
        | true =>
            obtain ⟨t, turned⟩ := SingleStream.senderTurn_some send reading sending
            exact .inr ⟨.sender, t, turned⟩
  · intro _ s ran
    have start : SingleStream.InOrder p.units (.start p) := ⟨List.nil_prefix, fun _ => rfl⟩
    exact (Stepping.run_invariant SingleStream.step_inOrder start ran).before
  · intro closed _ s ran
    exact Stepping.run_invariant (SingleStream.step_closed closed) (absurd rfl) ran

/-! ## The datagram loop -/

namespace LoopPhase

/-- How many turns with empty channels are left when there is a pen device. -/
def rank : LoopPhase → Nat
  | .over => 0
  | .pens => 1
  | .gamepads => 2
  | .asleep => 3
  | .clearMedia => 4
  | .clearPens => 5

end LoopPhase

namespace LoopState

def measure (s : LoopState) : Nat :=
  s.channels.gamepad.length + 2 * s.channels.pen.length + s.channels.media.length + s.phase.rank

/-- The loop neither waits for pen events nor is over. -/
def Roams (s : LoopState) : Prop := s.phase ≠ .pens ∧ s.phase ≠ .over

end LoopState

namespace DatagramLoop

variable {loop : DatagramLoop} {s t : LoopState}

/-- A turn leaves the channels as closed as they were. With a pen device it brings the end
nearer; without one it does not lead there. -/
structure Turned (loop : DatagramLoop) (s t : LoopState) : Prop where
  closed : t.channels.closed = s.channels.closed
  lowers : loop.deviceName.isSome = true → t.measure < s.measure
  roams : loop.deviceName.isSome = false → s.Roams → t.Roams

theorem turned_of_turn (turned : loop.turn s = some t) : Turned loop s t := by
  rw [turn] at turned
  split at turned
  case h_1 phase =>
    split at turned
    case h_1 datagram rest more =>
      cases turned
      refine ⟨rfl, fun _ => ?_, fun _ roams => roams⟩
      rw [LoopState.measure, LoopState.measure, more, List.length_cons]
      dsimp only
      omega
    case h_2 =>
      cases turned
      refine ⟨rfl, fun device => ?_, fun none _ => ?_⟩
      · rw [LoopState.measure, LoopState.measure, if_pos device, phase]
        exact Nat.lt_succ_self _
      · rw [none]
        exact ⟨LoopPhase.noConfusion, LoopPhase.noConfusion⟩
  case h_2 phase =>
    have waits : ¬ s.Roams := fun roams => roams.1 phase
    split at turned
    case h_1 datagram rest more =>
      cases turned
      refine ⟨rfl, fun _ => ?_, fun _ roams => absurd roams waits⟩
      rw [LoopState.measure, LoopState.measure, more, phase, List.length_cons]
      simp only [LoopPhase.rank]
      omega
    case h_2 =>
      split at turned
      · cases turned
        refine ⟨rfl, fun _ => ?_, fun _ roams => absurd roams waits⟩
        rw [LoopState.measure, LoopState.measure, phase]
        exact Nat.lt_succ_self _
      · cases turned
  case h_3 phase | h_4 phase =>
    split at turned
    case h_1 datagram rest more =>
      cases turned
      refine ⟨rfl, fun _ => ?_, fun _ roams => roams⟩
      rw [LoopState.measure, LoopState.measure, more, List.length_cons]
      dsimp only
      omega
    case h_2 =>
      cases turned
      refine ⟨rfl, fun _ => ?_, fun _ _ => ⟨LoopPhase.noConfusion, LoopPhase.noConfusion⟩⟩
      rw [LoopState.measure, LoopState.measure, phase]
      exact Nat.lt_succ_self _
  case h_5 phase =>
    cases turned
    refine ⟨rfl, fun _ => ?_, fun _ _ => ⟨LoopPhase.noConfusion, LoopPhase.noConfusion⟩⟩
    rw [LoopState.measure, LoopState.measure, phase]
    exact Nat.lt_succ_self _
  case h_6 => cases turned

/-- A loop that takes no turn waits for a pen event, or is over. -/
theorem turn_eq_none (rests : loop.turn s = none) :
    s.phase = .over ∨ (s.phase = .pens ∧ s.channels.closed = false) := by
  rw [turn] at rests
  split at rests
  case h_1 => split at rests <;> cases rests
  case h_2 phase =>
    split at rests
    · cases rests
    · split at rests
      case isTrue => cases rests
      case isFalse open_ => exact .inr ⟨phase, Bool.eq_false_iff.mpr open_⟩
  case h_3 => split at rests <;> cases rests
  case h_4 => split at rests <;> cases rests
  case h_5 => cases rests
  case h_6 phase => exact .inl phase

theorem roams_step (none : loop.deviceName.isSome = false) {e : LoopEvent} (roams : s.Roams)
    (stepped : loop.step s e = some t) : t.Roams := by
  cases e with
  | turn => exact (turned_of_turn stepped).roams none roams
  | closed =>
      cases stepped
      exact roams
  | received datagram =>
      rw [step] at stepped
      split at stepped
      · cases stepped
      · cases stepped
        exact roams

/-- When the channels have closed, the loop ends if there is a pen device, and only then. -/
theorem ends_iff {events : List LoopEvent} (ran : Stepping.run loop.step {} events = some s)
    (closed : s.channels.closed = true) :
    Ends loop.turn (·.phase = .over) s ↔ loop.deviceName.isSome = true := by
  constructor
  · rintro ⟨n, t, turns, ended⟩
    by_contra device
    have none := Bool.eq_false_iff.mpr device
    have start : LoopState.Roams {} := ⟨by decide, by decide⟩
    have before : s.Roams := Stepping.run_invariant (roams_step none) start ran
    have after : t.Roams := Stepping.run_invariant
      (fun roams turned => (turned_of_turn turned).roams none roams) before turns
    exact after.2 ended
  · intro device
    have lowers : ∀ {s t : LoopState}, loop.turn s = some t → t.measure < s.measure :=
      fun turned => (turned_of_turn turned).lowers device
    obtain ⟨n, t, turns, rests⟩ :
        ∃ n t, Stepping.run (fun s (_ : Unit) => loop.turn s) s (List.replicate n ()) = some t ∧
          loop.turn t = none :=
      Stepping.exists_rest lowers s
    have still := Stepping.run_invariant (I := fun s : LoopState => s.channels.closed = true)
      (fun before turned => (turned_of_turn turned).closed.trans before) closed turns
    rcases turn_eq_none rests with ended | ⟨-, opened⟩
    · exact ⟨n, t, turns, ended⟩
    · exact nomatch still.symm.trans opened

end DatagramLoop

/-! ## All of them -/

/-- The loops end with their input: the native session, the task of a display and the
WebTransport session when the encoder has ended, the datagram loop from a state in which the
channels have closed. -/
structure LoopsEnd (library : ErasureLibrary ε) (send sendExt : Sends String) (p : PipelineReader)
    (loop : DatagramLoop) (s : LoopState) : Prop where
  singleStream : StreamEnds send p
  display : TurnsEnd (SendLoop.displayTurn sendExt) p
  displayClosed : SendsFail sendExt → StopsAtSend (SendLoop.displayTurn sendExt) p
  webTransport : TurnsEnd (SendLoop.webTransportTurn library) p
  datagrams : Ends loop.turn (·.phase = .over) s

/-- The WebTransport loop ends when it cannot read or encode something. -/
theorem webTransport_turnsEnd_iff (library : ErasureLibrary ε) (p : PipelineReader) :
    TurnsEnd (SendLoop.webTransportTurn library) p ↔ SendLoop.Doomed library p :=
  ⟨fun ends => (SendLoop.webTransport_ends_iff library p).mp ends.ends, fun doomed =>
    ⟨(SendLoop.webTransport_ends_iff library p).mpr doomed,
      SendLoop.webTransport_sendsInOrder library p⟩⟩

/-- For every output of an encoder, every connection and every run of the datagram loop in
which the channels have closed: all loops end exactly if there is a pen device and the
output makes the WebTransport loop fail. -/
theorem loopsEnd_iff (library : ErasureLibrary ε) (send sendExt : Sends String)
    {reads : List Chunk} {failure : Option String} {framerate : UInt32} {p : PipelineReader}
    (spawned : PipelineReader.spawn reads failure framerate = .ok p) (loop : DatagramLoop)
    {events : List LoopEvent} {s : LoopState}
    (ran : Stepping.run loop.step {} events = some s) (closed : s.channels.closed = true) :
    LoopsEnd library send sendExt p loop s ↔
      (failure.isSome = true ∨ PipelineReader.Unframed (reads.map (·.1)).flatten ∨
        Refuses library p.units) ∧ loop.deviceName.isSome = true := by
  have doomed : SendLoop.Doomed library p ↔ failure.isSome = true ∨
      PipelineReader.Unframed (reads.map (·.1)).flatten ∨ Refuses library p.units := by
    rw [SendLoop.Doomed, PipelineReader.fails_iff spawned, or_assoc]
  rw [← doomed, ← webTransport_turnsEnd_iff, ← loop.ends_iff ran closed]
  constructor
  · exact fun ends => ⟨ends.webTransport, ends.datagrams⟩
  · rintro ⟨webTransport, datagrams⟩
    exact {
      singleStream := streamEnds send p
      display := ⟨SendLoop.display_ends sendExt p, SendLoop.display_sendsInOrder sendExt p⟩
      displayClosed := fun closed => SendLoop.display_closed closed p
      webTransport
      datagrams }

namespace Sample

/-- A code that takes all shards as they are. -/
def plainCode : ErasureLibrary Unit := fun _ _ => .ok ⟨.ok, .ok⟩

def accepting : Sends String := fun _ _ => .ok ()

def silentFramer : AnnexBStreamFramer := ⟨.h264, [], 0, 0, 16666⟩

/-- An encoder that ends, or breaks, before it has written anything. -/
def silent (failure : Option String) : PipelineReader := ⟨[], failure, silentFramer⟩

def withoutPen : DatagramLoop := ⟨none, 0⟩

def disconnected : LoopState := { channels := { closed := true } }

/-- Two access units, and the delimiter of a third, in two reads before the pipe breaks. -/
def breaking : PipelineReader where
  reads := [⟨[0, 0, 0, 1, 9, 16, 0, 0, 0, 1, 0x65, 1, 0, 0], by decide⟩,
    ⟨[0, 1, 9, 16, 0, 0, 0, 1, 0x41, 2, 0, 0, 0, 1, 9, 16], by decide⟩]
  failure := some "broken pipe"
  framer := silentFramer

/-- The pipe breaks after two access units, the connection after gamepad and pen datagrams. -/
theorem broken_loopsEnd : breaking.units.length = 2 ∧
    ∃ s, Stepping.run withPen.step {} (strokeBetween ++ [.closed]) = some s ∧
      s.forwarded.length = 2 ∧ s.injected.length = 1 ∧
      LoopsEnd plainCode accepting accepting breaking withPen s := by
  have spawned : PipelineReader.spawn breaking.reads (some "broken pipe") 60 = .ok breaking := rfl
  have ran : Stepping.run withPen.step {} (strokeBetween ++ [.closed]) = some _ := rfl
  refine ⟨by decide +kernel, _, ran, by decide, by decide, ?_⟩
  exact (loopsEnd_iff plainCode accepting accepting spawned withPen ran rfl).mpr ⟨.inl rfl, rfl⟩

/-- The encoder ends and nothing fails, or the encoder breaks and there is no pen. -/
theorem silent_not_loopsEnd :
    ¬ LoopsEnd plainCode accepting accepting (silent none) withPen disconnected ∧
      ¬ LoopsEnd plainCode accepting accepting (silent (some "broken pipe")) withoutPen
        disconnected := by
  constructor
  · intro ends
    rcases (webTransport_turnsEnd_iff _ _).mp ends.webTransport with (fails | fails) | refuses
    · cases fails
    · cases fails
    · obtain ⟨unit, member, -⟩ := refuses
      cases member
  · intro ends
    have ran : Stepping.run withoutPen.step {} [.closed] = some disconnected := rfl
    exact nomatch (withoutPen.ends_iff ran rfl).mp ends.datagrams

end Sample

end Qubox.Host
