import Qubox.Host.BrowserVideo
import Qubox.Host.DatagramLoop
import Qubox.Library.Stepping
import Qubox.Media.StreamFramer

/-!
# The loops of a host session

Three loops read the output of an encoder and send its access units. The reader says
that the stream has ended as often as it is asked. The native session reads in a
thread of its own and sends what comes over a channel; the task of a display and the
WebTransport session do both in turn.

The native session and the displays stop. The WebTransport loop treats the end of the
stream like any other read, and does not look at the connection, so only an error
stops it. The datagram loop without a pen device never looks whether its channels are
closed.
-/

namespace Qubox.Host

open AnnexB (AnnexBStreamFramer MediaPacketizeError h264Header)
open BrowserVideo (FecSendError encodeAndSendFecDatagrams)
open Media (ErasureLibrary)
open Transport (EncodedVideoAccessUnit inspectH264AnnexBNalUnits)

/-! ## Reading -/

structure MediaRuntimeError where
  message : String
  deriving DecidableEq, Repr

inductive MediaPipelineRead where
  | accessUnits (units : List EncodedVideoAccessUnit)
  | endOfStream (units : List EncodedVideoAccessUnit)

/-- What a read that is not at the end of the file gives. -/
abbrev Chunk := { bytes : Bytes // bytes ≠ [] }

/-- The reads that are left, with how every read after them ends (an error, or the end
of the file), and the framer. -/
structure PipelineReader where
  reads : List Chunk
  failure : Option String
  framer : AnnexBStreamFramer

namespace PipelineReader

/-- The pipeline of a session, with its framer. -/
def spawn (reads : List Chunk) (failure : Option String) (framerate : UInt32) :
    Except MediaPacketizeError PipelineReader :=
  (AnnexBStreamFramer.new framerate .h264).map fun framer => ⟨reads, failure, framer⟩

def readH264AccessUnits (p : PipelineReader) :
    PipelineReader × Except MediaRuntimeError MediaPipelineRead :=
  match p.reads with
  | chunk :: rest =>
    let pushed := p.framer.pushChunk chunk.1
    ({ p with reads := rest, framer := pushed.1 },
      match pushed.2 with
      | .ok units => .ok (.accessUnits units)
      | .error e => .error ⟨e.message⟩)
  | [] =>
    match p.failure with
    | some message => (p, .error ⟨message⟩)
    | none =>
      let finished := p.framer.finish
      ({ p with framer := finished.1 },
        match finished.2 with
        | .ok tail => .ok (.endOfStream tail.toList)
        | .error e => .error ⟨e.message⟩)

/-- The framer after all reads. -/
def drained (p : PipelineReader) : AnnexBStreamFramer :=
  p.reads.foldl (fun framer chunk => (framer.pushChunk chunk.1).1) p.framer

/-- The end cannot be read, or what is left then is no access unit. -/
def Fails (p : PipelineReader) : Prop :=
  p.failure.isSome ∨ p.drained.finish.2.toBool = false

/-- The access unit that is left at the end of the file. -/
def tail (p : PipelineReader) : List EncodedVideoAccessUnit :=
  match p.failure, p.drained.finish.2 with
  | none, .ok tail => tail.toList
  | _, _ => []

def pushed (framer : AnnexBStreamFramer) : List Chunk → List EncodedVideoAccessUnit
  | [] => []
  | chunk :: rest =>
    (framer.pushChunk chunk.1).2.toOption.getD [] ++ pushed (framer.pushChunk chunk.1).1 rest

/-- The access units of the output, in order. -/
def units (p : PipelineReader) : List EncodedVideoAccessUnit := pushed p.framer p.reads ++ p.tail

/-! ## What a read gives -/

theorem pushChunk_isOk (framer : AnnexBStreamFramer) (chunk : Bytes) :
    ∃ units, (framer.pushChunk chunk).2 = .ok units := by
  rw [AnnexBStreamFramer.pushChunk_eq]
  exact ⟨_, rfl⟩

theorem finish_finish (framer : AnnexBStreamFramer) :
    framer.finish.1.finish = (framer.finish.1, .ok none) := by
  by_cases empty : framer.buffer.isEmpty = true
  · have unchanged : framer.finish = (framer, .ok none) := if_pos empty
    rw [unchanged]
    exact unchanged
  · have taken : framer.finish = _ := if_neg empty
    rw [taken]
    rfl

/-- A read before the end gives the first of the access units that are left. -/
theorem read_cons {p : PipelineReader} {chunk : Chunk} {rest : List Chunk}
    (left : p.reads = chunk :: rest) :
    ∃ p' units, p.readH264AccessUnits = (p', .ok (.accessUnits units)) ∧ p'.reads = rest ∧
      (p'.Fails ↔ p.Fails) ∧ p.units = units ++ p'.units := by
  obtain ⟨reads, failure, framer⟩ := p
  obtain rfl : reads = chunk :: rest := left
  obtain ⟨units, pushed⟩ := pushChunk_isOk framer chunk.1
  refine ⟨⟨rest, failure, (framer.pushChunk chunk.1).1⟩, units, ?_, rfl, Iff.rfl, ?_⟩
  · rw [readH264AccessUnits]
    dsimp only
    rw [pushed]
  · rw [PipelineReader.units, PipelineReader.pushed, pushed, List.append_assoc]
    rfl

/-- At the end there is an error, or the last access unit and after it nothing. -/
theorem read_nil {p : PipelineReader} (left : p.reads = []) :
    (p.Fails ∧ p.units = [] ∧ ∃ p' e, p.readH264AccessUnits = (p', .error e)) ∨
      (¬ p.Fails ∧ ∃ p', p.readH264AccessUnits = (p', .ok (.endOfStream p.units)) ∧
        p'.reads = [] ∧ ¬ p'.Fails ∧ p'.units = []) := by
  obtain ⟨reads, failure, framer⟩ := p
  obtain rfl : reads = [] := left
  cases failure with
  | some message => exact .inl ⟨.inl rfl, rfl, _, _, rfl⟩
  | none =>
      have drained : (⟨[], none, framer⟩ : PipelineReader).drained = framer := rfl
      cases finished : framer.finish.2 with
      | error e =>
          refine .inl ⟨.inr ?_, ?_, ⟨[], none, framer.finish.1⟩, ⟨e.message⟩, ?_⟩
          · rw [drained, finished]
            rfl
          · rw [units, tail, drained, finished]
            rfl
          · rw [readH264AccessUnits]
            dsimp only
            rw [finished]
      | ok last =>
          have nothing : (⟨[], none, framer.finish.1⟩ : PipelineReader).drained.finish.2 =
              .ok none := congrArg Prod.snd (finish_finish framer)
          refine .inr ⟨?_, ⟨[], none, framer.finish.1⟩, ?_, rfl, ?_, ?_⟩
          · rintro (impossible | failed)
            · cases impossible
            · rw [drained, finished] at failed
              cases failed
          · rw [readH264AccessUnits, units, tail, drained, finished]
            dsimp only
            rw [finished]
            rfl
          · rintro (impossible | failed)
            · cases impossible
            · rw [nothing] at failed
              cases failed
          · rw [units, tail, nothing]
            rfl

/-- Output that is no access unit and has none in it. -/
def Unframed (stream : Bytes) : Prop :=
  stream ≠ [] ∧ h264Header.marks.marks stream = [] ∧ inspectH264AnnexBNalUnits stream = []

theorem drained_eq (p : PipelineReader) :
    p.drained = (p.framer.pushAll (p.reads.map (·.1))).1 := by
  obtain ⟨reads, failure, framer⟩ := p
  induction reads generalizing framer with
  | nil => rfl
  | cons chunk rest ih =>
      obtain ⟨units, pushed⟩ := pushChunk_isOk framer chunk.1
      have later := ih (framer.pushChunk chunk.1).1
      rw [List.map_cons, AnnexBStreamFramer.pushAll]
      dsimp only
      rw [pushed]
      exact later

theorem finishRest_fails_iff (frameId timestamp : UInt64) (rest : Bytes) :
    (AnnexB.finishRest .h264 frameId timestamp rest).toBool = false ↔
      rest ≠ [] ∧ inspectH264AnnexBNalUnits rest = [] := by
  rw [AnnexB.finishRest]
  split
  case isTrue empty => exact iff_of_false Bool.noConfusion fun both => both.1 (List.isEmpty_iff.mp empty)
  case isFalse nonempty =>
    rw [List.isEmpty_iff] at nonempty
    rw [AnnexB.packetizeAccessUnit, AnnexB.packetizeH264AnnexBAccessUnit]
    split
    case isTrue none => exact iff_of_true rfl ⟨nonempty, List.isEmpty_iff.mp none⟩
    case isFalse units => exact iff_of_false Bool.noConfusion fun both => units (List.isEmpty_iff.mpr both.2)

/-- When reading the output of an encoder fails, by the output. -/
theorem fails_iff {p : PipelineReader} {reads : List Chunk} {failure : Option String}
    {framerate : UInt32} (spawned : spawn reads failure framerate = .ok p) :
    p.Fails ↔ failure.isSome = true ∨ Unframed (reads.map (·.1)).flatten := by
  rw [spawn, AnnexBStreamFramer.new] at spawned
  split at spawned
  case isTrue => cases spawned
  case isFalse =>
    cases spawned
    apply or_congr Iff.rfl
    have settled : h264Header.marks.drain [] = ([], []) :=
      Marks.drain_nil _ (List.map_eq_nil_iff.mpr rfl)
    have all := AnnexBStreamFramer.pushAll_eq
      { codec := .h264, buffer := [], nextFrameId := 0, nextTimestampMicros := 0,
        frameDurationMicros := 1000000 / framerate.toUInt64 } (reads.map (·.1)) settled
    rw [drained_eq, all, AnnexB.finish_eq]
    refine (finishRest_fails_iff _ _ _).trans ?_
    set stream := (reads.map (·.1)).flatten
    change (h264Header.marks.drain stream).2 ≠ [] ∧
      inspectH264AnnexBNalUnits (h264Header.marks.drain stream).2 = [] ↔ _
    by_cases marked : h264Header.marks.marks stream = []
    · rw [Marks.drain_nil _ marked]
      exact ⟨fun both => ⟨both.1, marked, both.2⟩, fun all => ⟨all.1, all.2.2⟩⟩
    · -- after a delimiter the rest is one, with what follows it
      obtain ⟨_, _, inside⟩ := h264Header.marks.piece_of_drain marked
        (List.mem_append_right _ (List.mem_singleton_self _))
      have units := AnnexB.inspect_ne_nil (h264Header.starts_of_piece inside)
      exact iff_of_false (fun both => units both.2) fun both => marked both.2.1

end PipelineReader

/-! ## Reading and sending in turn -/

/-- A loop that reads and sends, the access units that it gave to the connection, and
whether it is over. -/
structure SendLoop where
  pipeline : PipelineReader
  sent : List EncodedVideoAccessUnit := []
  ended : Bool := false

/-- What becomes of an access unit that is sent after some others. -/
abbrev Sends (ε : Type) := List EncodedVideoAccessUnit → EncodedVideoAccessUnit → Except ε Unit

variable {ε : Type}

/-- An access unit on a WebTransport connection. Its datagrams are sent without looking
whether that succeeds, so only the erasure code can fail. -/
def sendFec (library : ErasureLibrary ε) (unit : EncodedVideoAccessUnit) :
    Except (FecSendError ε) Unit :=
  (encodeAndSendFecDatagrams library unit.frameId.toUInt32 unit.bytes 10 2).map fun _ => ()

/-- Sends one by one until one fails. -/
def sendAll (send : Sends ε) (sent : List EncodedVideoAccessUnit) :
    List EncodedVideoAccessUnit → List EncodedVideoAccessUnit × Except ε Unit
  | [] => (sent, .ok ())
  | unit :: rest =>
    match send sent unit with
    | .ok () => sendAll send (sent ++ [unit]) rest
    | .error e => (sent ++ [unit], .error e)

namespace SendLoop

def start (p : PipelineReader) : SendLoop := { pipeline := p }

/-- An iteration of the task of a display in `start_display_inner`. At the end of the
stream errors of sending are ignored. -/
def displayTurn (send : Sends ε) (s : SendLoop) : Option SendLoop :=
  if s.ended then none
  else
    match s.pipeline.readH264AccessUnits with
    | (p, .ok (.accessUnits units)) =>
      let (sent, result) := sendAll send s.sent units
      some ⟨p, sent, !result.toBool⟩
    | (p, .ok (.endOfStream units)) => some ⟨p, s.sent ++ units, true⟩
    | (p, .error _) => some ⟨p, s.sent, true⟩

/-- An iteration of the loop of `run_webtransport_session_inner`. -/
def webTransportTurn (library : ErasureLibrary ε) (s : SendLoop) : Option SendLoop :=
  if s.ended then none
  else
    match s.pipeline.readH264AccessUnits with
    | (p, .ok (.accessUnits units)) | (p, .ok (.endOfStream units)) =>
      let (sent, result) := sendAll (fun _ => sendFec library) s.sent units
      some ⟨p, sent, !result.toBool⟩
    | (p, .error _) => some ⟨p, s.sent, true⟩

end SendLoop

/-! ## A thread that reads and a loop that sends -/

/-- The reader thread and the send loop of `run_single_stream_session`, with the channel
between them. -/
structure SingleStream where
  pipeline : PipelineReader
  reading : Bool := true
  queue : List (Except MediaRuntimeError EncodedVideoAccessUnit) := []
  sending : Bool := true
  sent : List EncodedVideoAccessUnit := []

inductive StreamTask where
  | reader
  | sender
  deriving DecidableEq, Repr

namespace SingleStream

def start (p : PipelineReader) : SingleStream := { pipeline := p }

/-- An iteration of the thread. It ends when a send finds the channel without its
receiver, and after the end of the stream or an error. -/
def readerTurn (s : SingleStream) : Option SingleStream :=
  if s.reading then
    match s.pipeline.readH264AccessUnits with
    | (p, .ok (.accessUnits units)) =>
      if s.sending then some { s with pipeline := p, queue := s.queue ++ units.map .ok }
      else some { s with pipeline := p, reading := units.isEmpty }
    | (p, .ok (.endOfStream units)) => some { s with
        pipeline := p
        queue := if s.sending then s.queue ++ units.map .ok else []
        reading := false }
    | (p, .error e) => some { s with
        pipeline := p
        queue := if s.sending then s.queue ++ [.error e] else []
        reading := false }
  else none

/-- An iteration of the send loop, which waits while the channel is empty and open. When
it ends, the receiver and what is in the channel are dropped. -/
def senderTurn (send : Sends ε) (s : SingleStream) : Option SingleStream :=
  if s.sending then
    match s.queue with
    | [] => if s.reading then none else some { s with sending := false }
    | .error _ :: _ => some { s with sending := false, queue := [] }
    | .ok unit :: rest =>
      match send s.sent unit with
      | .ok () => some { s with queue := rest, sent := s.sent ++ [unit] }
      | .error _ => some { s with sending := false, queue := [], sent := s.sent ++ [unit] }
  else none

def step (send : Sends ε) (s : SingleStream) : StreamTask → Option SingleStream
  | .reader => s.readerTurn
  | .sender => s.senderTurn send

end SingleStream

/-! ## Ends -/

/-- After finitely many iterations the loop is over. -/
def Ends {S : Type} (turn : S → Option S) (ended : S → Prop) (s : S) : Prop :=
  ∃ n t, Stepping.run (fun s (_ : Unit) => turn s) s (List.replicate n ()) = some t ∧ ended t

/-- Whatever the iterations, the access units are sent in order and none twice. -/
def SendsInOrder (turn : SendLoop → Option SendLoop) (p : PipelineReader) : Prop :=
  ∀ n t, Stepping.run (fun s (_ : Unit) => turn s) (SendLoop.start p) (List.replicate n ()) =
    some t → t.sent <+: p.units

/-- A loop that takes turns ends, and sends in order. -/
structure TurnsEnd (turn : SendLoop → Option SendLoop) (p : PipelineReader) : Prop where
  ends : Ends turn (·.ended = true) (SendLoop.start p)
  inOrder : SendsInOrder turn p

/-- The connection is closed. -/
def SendsFail (send : Sends ε) : Prop := ∀ sent unit, (send sent unit).toBool = false

/-- The loop is over as soon as it has sent something. -/
def StopsAtSend (turn : SendLoop → Option SendLoop) (p : PipelineReader) : Prop :=
  ∀ n t, Stepping.run (fun s (_ : Unit) => turn s) (SendLoop.start p) (List.replicate n ()) =
    some t → t.sent ≠ [] → t.ended = true

/-- In every interleaving of the thread and the loop there are finitely many iterations,
one can go on until both are over, and what is sent is in order and nothing twice. On a
closed connection the loop is over with the first access unit. -/
structure StreamEnds (send : Sends ε) (p : PipelineReader) : Prop where
  bounded : ∃ bound, ∀ tasks s,
    Stepping.run (SingleStream.step send) (.start p) tasks = some s → tasks.length ≤ bound
  goesOn : ∀ tasks s, Stepping.run (SingleStream.step send) (.start p) tasks = some s →
    (s.reading = false ∧ s.sending = false) ∨ ∃ task t, SingleStream.step send s task = some t
  inOrder : ∀ tasks s, Stepping.run (SingleStream.step send) (.start p) tasks = some s →
    s.sent <+: p.units
  closed : SendsFail send → ∀ tasks s,
    Stepping.run (SingleStream.step send) (.start p) tasks = some s → s.sent ≠ [] →
      s.sending = false

/-! ## Sending -/

section Sending

variable {send : Sends ε} {units : List EncodedVideoAccessUnit}

/-- The access units up to the first failure are sent, all if there is none. -/
theorem sendAll_prefix (send : Sends ε) (sent units : List EncodedVideoAccessUnit) :
    ∃ done, done <+: units ∧ (sendAll send sent units).1 = sent ++ done ∧
      ((sendAll send sent units).2.toBool = true → done = units) := by
  induction units generalizing sent with
  | nil => exact ⟨[], List.nil_prefix, (List.append_nil _).symm, fun _ => rfl⟩
  | cons unit rest ih =>
      rw [sendAll]
      cases send sent unit with
      | error e =>
          refine ⟨[unit], ?_, rfl, nofun⟩
          exact (List.prefix_cons_inj unit).mpr List.nil_prefix
      | ok =>
          obtain ⟨done, before, sentEq, whole⟩ := ih (sent ++ [unit])
          refine ⟨unit :: done, (List.prefix_cons_inj unit).mpr before, ?_, ?_⟩
          · rw [sentEq, List.append_assoc]
            rfl
          · intro good
            rw [whole good]

/-- The erasure code fails for one of the access units. -/
def Refuses (library : ErasureLibrary ε) (units : List EncodedVideoAccessUnit) : Prop :=
  ∃ unit ∈ units, (sendFec library unit).toBool = false

theorem refuses_append {library : ErasureLibrary ε} {units more : List EncodedVideoAccessUnit} :
    Refuses library (units ++ more) ↔ Refuses library units ∨ Refuses library more := by
  simp only [Refuses, List.mem_append, or_and_right, exists_or]

/-- Sending through the erasure code stops exactly if it fails for a unit. -/
theorem sendAll_fails_iff (library : ErasureLibrary ε) (sent units : List EncodedVideoAccessUnit) :
    (!(sendAll (fun _ => sendFec library) sent units).2.toBool) = true ↔ Refuses library units := by
  induction units generalizing sent with
  | nil => exact iff_of_false nofun nofun
  | cons unit rest ih =>
      rw [sendAll]
      cases encoded : sendFec library unit with
      | error e => exact iff_of_true rfl ⟨unit, List.mem_cons_self, by rw [encoded]; rfl⟩
      | ok =>
          refine (ih _).trans ⟨?_, ?_⟩
          · rintro ⟨other, member, fails⟩
            exact ⟨other, .tail _ member, fails⟩
          · rintro ⟨other, member, fails⟩
            rcases List.mem_cons.mp member with rfl | member
            · rw [encoded] at fails
              cases fails
            · exact ⟨other, member, fails⟩

end Sending

namespace SendLoop

variable {s t : SendLoop}

/-- An iteration sends the next of the access units that are left. -/
structure Advances (s t : SendLoop) : Prop where
  sends : ∃ done, t.sent = s.sent ++ done ∧ done <+: s.pipeline.units ∧
    (t.ended = false → done ++ t.pipeline.units = s.pipeline.units)

/-- What has been sent and what is left are all access units there are. -/
structure InOrder (all : List EncodedVideoAccessUnit) (s : SendLoop) : Prop where
  before : s.sent <+: all
  rest : s.ended = false → s.sent ++ s.pipeline.units = all

theorem Advances.inOrder {all : List EncodedVideoAccessUnit} (advances : Advances s t)
    (running : s.ended = false) (inOrder : InOrder all s) : InOrder all t := by
  obtain ⟨done, sent, next, rest⟩ := advances.sends
  have whole := inOrder.rest running
  constructor
  · rw [sent, ← whole]
    exact (List.prefix_append_right_inj s.sent).mpr next
  · intro still
    rw [sent, List.append_assoc, rest still, whole]

/-- Of a read before the end, what is sent comes first, and what is left after it. -/
theorem advances_sendAll {p' : PipelineReader} {units : List EncodedVideoAccessUnit} {send : Sends ε}
    (split : s.pipeline.units = units ++ p'.units) :
    Advances s ⟨p', (sendAll send s.sent units).1, !(sendAll send s.sent units).2.toBool⟩ := by
  obtain ⟨done, before, sent, whole⟩ := sendAll_prefix send s.sent units
  refine ⟨done, sent, ?_, ?_⟩
  · rw [split]
    exact before.trans (List.prefix_append _ _)
  · intro good
    rw [whole (by simpa using good), split]

/-- The task of a display goes on with fewer reads left, or is over. -/
theorem displayTurn_some (send : Sends ε) (running : s.ended = false) :
    ∃ t, s.displayTurn send = some t ∧ Advances s t ∧
      (t.ended = true ∨ t.pipeline.reads.length < s.pipeline.reads.length) := by
  rw [displayTurn, running]
  cases left : s.pipeline.reads with
  | cons chunk rest =>
      obtain ⟨p', units, read, shorter, -, split⟩ := PipelineReader.read_cons left
      rw [read]
      refine ⟨_, rfl, advances_sendAll split, .inr ?_⟩
      rw [shorter]
      exact Nat.lt_succ_self _
  | nil =>
      rcases PipelineReader.read_nil left with ⟨-, -, p', e, read⟩ | ⟨-, p', read, -, -, -⟩
      · rw [read]
        exact ⟨_, rfl, ⟨[], (List.append_nil _).symm, List.nil_prefix, nofun⟩, .inl rfl⟩
      · rw [read]
        exact ⟨_, rfl, ⟨_, rfl, List.prefix_rfl, nofun⟩, .inl rfl⟩

/-- On a closed connection the task of a display is over with the first access unit. -/
theorem displayTurn_closed {send : Sends ε} (closed : SendsFail send)
    (before : s.sent ≠ [] → s.ended = true) (turned : s.displayTurn send = some t) :
    t.sent ≠ [] → t.ended = true := by
  rw [displayTurn] at turned
  split at turned
  case isTrue => cases turned
  case isFalse running =>
    split at turned
    case h_1 p units read =>
      cases turned
      cases units with
      | nil => exact fun sent => absurd (before sent) running
      | cons unit rest =>
          have failed := closed s.sent unit
          intro _
          rw [sendAll]
          cases sent : send s.sent unit with
          | error e => rfl
          | ok =>
              rw [sent] at failed
              cases failed
    case h_2 =>
      cases turned
      exact fun _ => rfl
    case h_3 =>
      cases turned
      exact fun _ => rfl

/-- Something stops the WebTransport loop: an error of the reader or of the erasure code. -/
def Doomed (library : ErasureLibrary ε) (p : PipelineReader) : Prop :=
  p.Fails ∨ Refuses library p.units

/-- The loop goes on exactly as long as nothing fails; with an error ahead there are fewer
reads left. -/
theorem webTransportTurn_some (library : ErasureLibrary ε) (running : s.ended = false) :
    ∃ t, s.webTransportTurn library = some t ∧ Advances s t ∧
      (¬ Doomed library s.pipeline → ¬ t.ended = true ∧ ¬ Doomed library t.pipeline) ∧
      (Doomed library s.pipeline → t.ended = true ∨ Doomed library t.pipeline ∧
        t.pipeline.reads.length < s.pipeline.reads.length) := by
  rw [webTransportTurn, running]
  cases left : s.pipeline.reads with
  | cons chunk rest =>
      obtain ⟨p', units, read, shorter, fails, split⟩ := PipelineReader.read_cons left
      have doomed : Doomed library s.pipeline ↔ Refuses library units ∨ Doomed library p' := by
        rw [Doomed, Doomed, split, fails, refuses_append, or_left_comm]
      have stops := sendAll_fails_iff library s.sent units
      rw [read, doomed]
      refine ⟨_, rfl, advances_sendAll split, ?_, ?_⟩
      · intro fine
        obtain ⟨accepts, later⟩ := not_or.mp fine
        exact ⟨mt stops.mp accepts, later⟩
      · rintro (refuses | later)
        · exact .inl (stops.mpr refuses)
        · refine .inr ⟨later, ?_⟩
          rw [shorter]
          exact Nat.lt_succ_self _
  | nil =>
      rcases PipelineReader.read_nil left with
        ⟨fails, -, p', e, read⟩ | ⟨succeeds, p', read, reads, again, none⟩
      · rw [read]
        refine ⟨_, rfl, ⟨[], (List.append_nil _).symm, List.nil_prefix, nofun⟩, ?_, fun _ => .inl rfl⟩
        intro fine
        exact absurd (.inl fails) fine
      · have stops := sendAll_fails_iff library s.sent s.pipeline.units
        rw [read]
        refine ⟨_, rfl, advances_sendAll (by rw [none, List.append_nil]), ?_, ?_⟩
        · intro fine
          refine ⟨mt stops.mp (not_or.mp fine).2, ?_⟩
          rintro (fails | ⟨unit, member, -⟩)
          · exact again fails
          · rw [none] at member
            cases member
        · rintro (fails | refuses)
          · exact absurd fails succeeds
          · exact .inl (stops.mpr refuses)

end SendLoop

/-! ## The loops that take turns -/

/-- One iteration and then others. -/
theorem Ends.of_turn {S : Type} {turn : S → Option S} {ended : S → Prop} {s t : S}
    (turned : turn s = some t) (ends : Ends turn ended t) : Ends turn ended s := by
  obtain ⟨n, last, ran, done⟩ := ends
  refine ⟨n + 1, last, ?_, done⟩
  rw [List.replicate_succ, Stepping.run_cons, turned]
  exact ran

theorem Ends.of_ended {S : Type} {turn : S → Option S} {ended : S → Prop} {s : S} (done : ended s) :
    Ends turn ended s :=
  ⟨0, s, rfl, done⟩

namespace SendLoop

theorem display_ends (send : Sends ε) (p : PipelineReader) :
    Ends (displayTurn send) (·.ended = true) (start p) := by
  suffices ∀ n, ∀ s : SendLoop, s.pipeline.reads.length < n → Ends (displayTurn send) (·.ended = true) s from
    this _ (start p) (Nat.lt_succ_self _)
  intro n
  induction n with
  | zero => exact fun s less => absurd less (Nat.not_lt_zero _)
  | succ n ih =>
      intro s less
      cases running : s.ended with
      | true => exact .of_ended running
      | false =>
          obtain ⟨t, turned, -, done | fewer⟩ := s.displayTurn_some send running
          · exact .of_turn turned (.of_ended done)
          · exact .of_turn turned (ih t (by omega))

theorem webTransport_ends_iff (library : ErasureLibrary ε)
    (p : PipelineReader) :
    Ends (webTransportTurn library) (·.ended = true) (start p) ↔ Doomed library p := by
  constructor
  · rintro ⟨n, last, ran, done⟩
    by_contra fine
    have still := Stepping.run_invariant
      (I := fun s : SendLoop => ¬ s.ended = true ∧ ¬ Doomed library s.pipeline) ?_
      ⟨Bool.false_ne_true, fine⟩ ran
    · exact still.1 done
    · rintro s t _ ⟨running, fine⟩ turned
      obtain ⟨t', turned', -, goesOn, -⟩ :=
        webTransportTurn_some library (Bool.eq_false_iff.mpr running)
      obtain rfl := Option.some.inj (turned.symm.trans turned')
      exact goesOn fine
  · intro doomed
    suffices ∀ n, ∀ s : SendLoop, s.pipeline.reads.length < n → Doomed library s.pipeline →
        Ends (webTransportTurn library) (·.ended = true) s from
      this _ (start p) (Nat.lt_succ_self _) doomed
    intro n
    induction n with
    | zero => exact fun s less => absurd less (Nat.not_lt_zero _)
    | succ n ih =>
        intro s less doomed
        cases running : s.ended with
        | true => exact .of_ended running
        | false =>
            obtain ⟨t, turned, -, -, ahead⟩ := webTransportTurn_some library running
            rcases ahead doomed with done | ⟨doomed, fewer⟩
            · exact .of_turn turned (.of_ended done)
            · exact .of_turn turned (ih t (by omega) doomed)

/-- A loop whose iterations send the next access units sends them in order. -/
theorem sendsInOrder {turn : SendLoop → Option SendLoop} (p : PipelineReader)
    (rests : ∀ s : SendLoop, s.ended = true → turn s = none)
    (advances : ∀ s : SendLoop, s.ended = false → ∃ t, turn s = some t ∧ Advances s t) :
    SendsInOrder turn p := by
  intro n t ran
  have inOrder := Stepping.run_invariant (I := InOrder p.units) ?_ ⟨List.nil_prefix, fun _ => rfl⟩ ran
  · exact inOrder.before
  · intro s t _ inOrder turned
    cases running : s.ended with
    | true => exact nomatch turned.symm.trans (rests s running)
    | false =>
        obtain ⟨t', turned', next⟩ := advances s running
        obtain rfl := Option.some.inj (turned.symm.trans turned')
        exact next.inOrder running inOrder

theorem display_sendsInOrder (send : Sends ε) (p : PipelineReader) :
    SendsInOrder (displayTurn send) p := by
  apply sendsInOrder
  · intro s ended
    rw [displayTurn, if_pos ended]
  · intro s running
    obtain ⟨t, turned, advances, -⟩ := s.displayTurn_some send running
    exact ⟨t, turned, advances⟩

theorem display_closed {send : Sends ε} (closed : SendsFail send) (p : PipelineReader) :
    StopsAtSend (displayTurn send) p := fun _ _ ran =>
  Stepping.run_invariant (displayTurn_closed closed) (absurd rfl) ran

theorem webTransport_sendsInOrder (library : ErasureLibrary ε)
    (p : PipelineReader) : SendsInOrder (webTransportTurn library) p := by
  apply sendsInOrder
  · intro s ended
    rw [webTransportTurn, if_pos ended]
  · intro s running
    obtain ⟨t, turned, advances, -⟩ := webTransportTurn_some library running
    exact ⟨t, turned, advances⟩

end SendLoop

end Qubox.Host
