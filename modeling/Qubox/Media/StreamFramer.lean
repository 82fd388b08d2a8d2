import Qubox.Media.AnnexB

/-!
# Access units of an elementary stream

`AnnexBStreamFramer` collects the chunks of a stream and cuts access units out of its
buffer at the delimiters. Its loop is the `drain` of the marks, each piece made into an
access unit with the next number. Making one fails for H.264 when there is no NAL unit,
which a piece that begins with a delimiter has.
-/

namespace Qubox.AnnexB

open Transport (inspectH264AnnexBNalUnits EncodedVideoAccessUnit H264NalUnitInfo)
open Transport renaming findAnnexBStartCodes → scan

/-- The codecs that are cut at access-unit delimiters. AV1 is cut at its OBUs instead. -/
inductive AnnexBCodec where
  | h264
  | h265
  deriving DecidableEq, Repr

def AnnexBCodec.video : AnnexBCodec → VideoCodec
  | .h264 => .h264
  | .h265 => .h265

def AnnexBCodec.header : AnnexBCodec → DelimiterHeader
  | .h264 => h264Header
  | .h265 => h265Header

structure MediaPacketizeError where
  message : String
  deriving DecidableEq, Repr

/-! ## Packetizing -/

/-- The fields that all codecs fill in the same way. -/
def accessUnit (codec : VideoCodec) (frameId timestampMicros : UInt64) (keyframe : Bool)
    (nalUnits : List H264NalUnitInfo) (bytes : Bytes) : EncodedVideoAccessUnit where
  codec
  frameId
  timestampMicros
  keyframe
  nalUnits
  bytes
  displayId := 0
  streamId := 0
  width := 0
  height := 0
  colorSpace := none
  bitDepth := 8

def packetizeH264AnnexBAccessUnit (frameId timestampMicros : UInt64) (bytes : Bytes) :
    Except MediaPacketizeError EncodedVideoAccessUnit :=
  let nalUnits := inspectH264AnnexBNalUnits bytes
  if nalUnits.isEmpty then
    .error { message := "H.264 Annex B access unit did not contain any NAL units" }
  else
    .ok (accessUnit .h264 frameId timestampMicros (nalUnits.any fun unit => unit.nalType = 5) nalUnits
      bytes)

def packetizeAccessUnit (codec : AnnexBCodec) (frameId timestampMicros : UInt64) (bytes : Bytes) :
    Except MediaPacketizeError EncodedVideoAccessUnit :=
  match codec with
  | .h264 => packetizeH264AnnexBAccessUnit frameId timestampMicros bytes
  | .h265 =>
      if bytes.isEmpty then .error { message := "H.265 access unit was empty" }
      else .ok (accessUnit .h265 frameId timestampMicros false [] bytes)

/-! ## The framer -/

structure AnnexBStreamFramer where
  codec : AnnexBCodec
  buffer : Bytes
  nextFrameId : UInt64
  nextTimestampMicros : UInt64
  frameDurationMicros : UInt64
  deriving DecidableEq

namespace AnnexBStreamFramer

def new (framerate : UInt32) (codec : AnnexBCodec) :
    Except MediaPacketizeError AnnexBStreamFramer :=
  if framerate = 0 then .error { message := "framerate must be greater than zero" }
  else
    .ok {
      codec
      buffer := []
      nextFrameId := 0
      nextTimestampMicros := 0
      frameDurationMicros := 1000000 / framerate.toUInt64 }

def nextAccessUnit (framer : AnnexBStreamFramer) (bytes : Bytes) :
    AnnexBStreamFramer × Except MediaPacketizeError EncodedVideoAccessUnit :=
  ({ framer with
      nextFrameId := framer.nextFrameId + 1
      nextTimestampMicros := framer.nextTimestampMicros + framer.frameDurationMicros },
    packetizeAccessUnit framer.codec framer.nextFrameId framer.nextTimestampMicros bytes)

/-- The loop of `drain_h264` and `drain_h265`, which differ in the delimiters they look for. -/
def drainLoop (header : DelimiterHeader) (framer : AnnexBStreamFramer)
    (accessUnits : List EncodedVideoAccessUnit) :
    AnnexBStreamFramer × Except MediaPacketizeError (List EncodedVideoAccessUnit) :=
  match _found : header.marks.marks framer.buffer with
  | [] => (framer, .ok accessUnits)
  | [first] =>
      if first > 0 then
        drainLoop header { framer with buffer := framer.buffer.drop first } accessUnits
      else (framer, .ok accessUnits)
  | first :: next :: _ =>
      if first > 0 then
        drainLoop header { framer with buffer := framer.buffer.drop first } accessUnits
      else
        let taken := { framer with buffer := framer.buffer.drop next }.nextAccessUnit
          (framer.buffer.take next)
        match taken.2 with
        | .ok unit => drainLoop header taken.1 (accessUnits ++ [unit])
        | .error e => (taken.1, .error e)
  termination_by framer.buffer.length
  decreasing_by
    · have := header.marks.lt_length_of_cons _found
      rw [List.length_drop]
      omega
    · have := header.marks.lt_length_of_cons _found
      rw [List.length_drop]
      omega
    · have := header.marks.lt_length_of_cons _found
      have := header.marks.pos_of_second _found
      change (framer.buffer.drop next).length < framer.buffer.length
      rw [List.length_drop]
      omega

def drainH264 (framer : AnnexBStreamFramer) := drainLoop h264Header framer []

def drainH265 (framer : AnnexBStreamFramer) := drainLoop h265Header framer []

def pushChunk (framer : AnnexBStreamFramer) (chunk : Bytes) :
    AnnexBStreamFramer × Except MediaPacketizeError (List EncodedVideoAccessUnit) :=
  let framer := { framer with buffer := framer.buffer ++ chunk }
  match framer.codec with
  | .h264 => framer.drainH264
  | .h265 => framer.drainH265

def finish (framer : AnnexBStreamFramer) :
    AnnexBStreamFramer × Except MediaPacketizeError (Option EncodedVideoAccessUnit) :=
  if framer.buffer.isEmpty then (framer, .ok none)
  else
    let taken := { framer with buffer := [] }.nextAccessUnit framer.buffer
    (taken.1, taken.2.map some)

/-- The chunks one after the other, until one fails. -/
def pushAll (framer : AnnexBStreamFramer) :
    List Bytes → AnnexBStreamFramer × Except MediaPacketizeError (List EncodedVideoAccessUnit)
  | [] => (framer, .ok [])
  | chunk :: chunks =>
      let pushed := framer.pushChunk chunk
      match pushed.2 with
      | .error e => (pushed.1, .error e)
      | .ok units =>
          let later := pushed.1.pushAll chunks
          (later.1, later.2.map (units ++ ·))

end AnnexBStreamFramer

/-- A framer for the stream, fed with the chunks and finished: the access units of all chunks and
the result of `finish`. -/
def frameStream (framerate : UInt32) (codec : AnnexBCodec) (chunks : List Bytes) :
    Except MediaPacketizeError
      (List EncodedVideoAccessUnit × Except MediaPacketizeError (Option EncodedVideoAccessUnit)) :=
  match AnnexBStreamFramer.new framerate codec with
  | .error e => .error e
  | .ok framer =>
      let pushed := framer.pushAll chunks
      match pushed.2 with
      | .error e => .error e
      | .ok units => .ok (units, pushed.1.finish.2)

/-! ## Packetizing a piece -/

/-- The access unit of some bytes. -/
def AnnexBCodec.unit (codec : AnnexBCodec) (frameId timestampMicros : UInt64) (bytes : Bytes) :
    EncodedVideoAccessUnit :=
  let nalUnits := match codec with
    | .h264 => inspectH264AnnexBNalUnits bytes
    | .h265 => []
  accessUnit codec.video frameId timestampMicros (nalUnits.any fun unit => unit.nalType = 5) nalUnits
    bytes

theorem eq_unit_of_packetize {codec : AnnexBCodec} {frameId timestampMicros : UInt64} {bytes : Bytes}
    {unit : EncodedVideoAccessUnit}
    (made : packetizeAccessUnit codec frameId timestampMicros bytes = .ok unit) :
    unit = codec.unit frameId timestampMicros bytes := by
  match codec with
  | .h264 =>
      rw [packetizeAccessUnit, packetizeH264AnnexBAccessUnit] at made
      split at made
      · cases made
      · exact (Except.ok.inj made).symm
  | .h265 =>
      rw [packetizeAccessUnit] at made
      split at made
      · cases made
      · exact (Except.ok.inj made).symm

theorem DelimiterHeader.Starts.ne_nil {H : DelimiterHeader} {bytes : Bytes} (starts : H.Starts bytes) :
    bytes ≠ [] := by
  obtain ⟨code, header, rest, rfl, -, -⟩ := starts
  simp

/-- Bytes that begin with a delimiter have a NAL unit: the delimiter itself, whose header is not
the start of another start code. -/
theorem inspect_ne_nil {H : DelimiterHeader} {bytes : Bytes} (starts : H.Starts bytes) :
    inspectH264AnnexBNalUnits bytes ≠ [] := by
  obtain ⟨code, header, rest, rfl, known, isAud⟩ := starts
  have scanned : scan 0 (code ++ header :: rest) =
      (0, code.length) :: scan code.length (header :: rest) := by
    rw [scan_code (startCode_append known _), List.drop_left, Nat.zero_add]
  have later : ∀ next ∈ scan code.length (header :: rest), code.length < next.1 := by
    intro next member
    apply Nat.lt_of_le_of_ne (scan_mem member).1
    intro same
    rw [scan_eq_map] at member
    obtain ⟨inner, found, rfl⟩ := List.mem_map.mp member
    have zero := startCode_head (startCode_of_mem found)
    have start : inner.1 = 0 := by
      change code.length = code.length + inner.1 at same
      omega
    rw [start] at zero
    obtain rfl : header = 0 := Option.some.inj zero
    rw [H.zero] at isAud
    cases isAud
  have long : code.length < (code ++ header :: rest).length := by simp
  rw [inspectH264AnnexBNalUnits, scanned]
  match found : scan code.length (header :: rest) with
  | [] => simp [List.zipIdx]
  | next :: others =>
      have beyond := later next (found ▸ List.mem_cons_self)
      simp [List.zipIdx, beyond]

theorem packetize_of_starts {codec : AnnexBCodec} {bytes : Bytes} (frameId timestampMicros : UInt64)
    (starts : codec.header.Starts bytes) :
    packetizeAccessUnit codec frameId timestampMicros bytes =
      .ok (codec.unit frameId timestampMicros bytes) := by
  match codec with
  | .h264 =>
      rw [packetizeAccessUnit, packetizeH264AnnexBAccessUnit, if_neg]
      · rfl
      · rw [List.isEmpty_iff]
        exact inspect_ne_nil starts
  | .h265 =>
      rw [packetizeAccessUnit, if_neg]
      · rfl
      · rw [List.isEmpty_iff]
        exact starts.ne_nil

/-! ## Numbering -/

/-- The pieces as access units, numbered from the given frame id and timestamp on. -/
def AnnexBCodec.units (codec : AnnexBCodec) (duration : UInt64) :
    UInt64 → UInt64 → List Bytes → List EncodedVideoAccessUnit
  | _, _, [] => []
  | frameId, timestamp, bytes :: pieces =>
      codec.unit frameId timestamp bytes ::
        codec.units duration (frameId + 1) (timestamp + duration) pieces

theorem ofNat_succ (n : Nat) : UInt64.ofNat (n + 1) = UInt64.ofNat n + 1 := UInt64.ofNat_add n 1

theorem add_ofNat_succ (a : UInt64) (n : Nat) :
    a + UInt64.ofNat (n + 1) = a + 1 + UInt64.ofNat n := by
  rw [ofNat_succ]
  grind

theorem add_ofNat_succ_mul (a d : UInt64) (n : Nat) :
    a + UInt64.ofNat (n + 1) * d = a + d + UInt64.ofNat n * d := by
  rw [ofNat_succ]
  grind

theorem add_zero_mul (a d : UInt64) : a + UInt64.ofNat 0 * d = a := by
  change a + 0 * d = a
  grind

namespace AnnexBCodec

variable (codec : AnnexBCodec) (duration : UInt64)

theorem units_append (frameId timestamp : UInt64) (pieces more : List Bytes) :
    codec.units duration frameId timestamp (pieces ++ more) =
      codec.units duration frameId timestamp pieces ++
        codec.units duration (frameId + UInt64.ofNat pieces.length)
          (timestamp + UInt64.ofNat pieces.length * duration) more := by
  induction pieces generalizing frameId timestamp with
  | nil =>
      rw [List.nil_append, List.length_nil, add_zero_mul]
      change _ = codec.units duration (frameId + 0) timestamp more
      rw [UInt64.add_zero]
  | cons bytes pieces ih =>
      rw [List.cons_append, units, units, ih, List.length_cons, add_ofNat_succ, add_ofNat_succ_mul,
        List.cons_append]

theorem flatMap_units (frameId timestamp : UInt64) (pieces : List Bytes) :
    (codec.units duration frameId timestamp pieces).flatMap (·.bytes) = pieces.flatten := by
  induction pieces generalizing frameId timestamp with
  | nil => rfl
  | cons bytes pieces ih =>
      rw [units, List.flatMap_cons, ih, List.flatten_cons]
      rfl

theorem mem_units {frameId timestamp : UInt64} {pieces : List Bytes} {unit : EncodedVideoAccessUnit}
    (member : unit ∈ codec.units duration frameId timestamp pieces) : unit.bytes ∈ pieces := by
  induction pieces generalizing frameId timestamp with
  | nil => cases member
  | cons bytes pieces ih =>
      obtain rfl | later := List.mem_cons.mp member
      · exact List.mem_cons_self
      · exact .tail _ (ih later)

theorem getElem?_units {frameId timestamp : UInt64} {pieces : List Bytes}
    {unit : EncodedVideoAccessUnit} {i : Nat}
    (found : (codec.units duration frameId timestamp pieces)[i]? = some unit) :
    unit.frameId = frameId + UInt64.ofNat i ∧
      unit.timestampMicros = timestamp + UInt64.ofNat i * duration := by
  induction pieces generalizing frameId timestamp i with
  | nil => cases found
  | cons bytes pieces ih =>
      match i with
      | 0 =>
          obtain rfl := Option.some.inj found
          rw [add_zero_mul]
          exact ⟨(UInt64.add_zero frameId).symm, rfl⟩
      | i + 1 =>
          rw [add_ofNat_succ, add_ofNat_succ_mul]
          exact ih found

end AnnexBCodec

/-! ## What the framer does -/

namespace AnnexBStreamFramer

/-- The framer after some access units, with what is left in its buffer. -/
def after (framer : AnnexBStreamFramer) (count : Nat) (buffer : Bytes) : AnnexBStreamFramer :=
  { framer with
    buffer
    nextFrameId := framer.nextFrameId + UInt64.ofNat count
    nextTimestampMicros :=
      framer.nextTimestampMicros + UInt64.ofNat count * framer.frameDurationMicros }

/-- The access units that the framer makes of some pieces. -/
def units (framer : AnnexBStreamFramer) (pieces : List Bytes) : List EncodedVideoAccessUnit :=
  framer.codec.units framer.frameDurationMicros framer.nextFrameId framer.nextTimestampMicros pieces

theorem after_zero (framer : AnnexBStreamFramer) (buffer : Bytes) :
    framer.after 0 buffer = { framer with buffer } := by
  rw [after, add_zero_mul]
  change ({ framer with buffer, nextFrameId := framer.nextFrameId + 0 } : AnnexBStreamFramer) = _
  rw [UInt64.add_zero]

theorem after_after (framer : AnnexBStreamFramer) (count more : Nat) (buffer rest : Bytes) :
    (framer.after count buffer).after more rest = framer.after (count + more) rest := by
  simp only [after, mk.injEq, true_and, and_true, UInt64.ofNat_add]
  constructor
  · grind
  · grind

theorem units_after (framer : AnnexBStreamFramer) (pieces more : List Bytes) (buffer : Bytes) :
    framer.units (pieces ++ more) =
      framer.units pieces ++ (framer.after pieces.length buffer).units more :=
  framer.codec.units_append _ _ _ pieces more

theorem nextAccessUnit_of_starts (framer : AnnexBStreamFramer) {bytes : Bytes}
    (starts : framer.codec.header.Starts bytes) :
    framer.nextAccessUnit bytes =
      (framer.after 1 framer.buffer, .ok
        (framer.codec.unit framer.nextFrameId framer.nextTimestampMicros bytes)) := by
  rw [nextAccessUnit, packetize_of_starts _ _ starts, after]
  have one : UInt64.ofNat 1 * framer.frameDurationMicros = framer.frameDurationMicros := by
    change 1 * framer.frameDurationMicros = _
    grind
  rw [one]
  rfl

variable {header : DelimiterHeader}

theorem drainLoop_nil {framer : AnnexBStreamFramer} (found : header.marks.marks framer.buffer = [])
    (accessUnits : List EncodedVideoAccessUnit) :
    drainLoop header framer accessUnits = (framer, .ok accessUnits) := by
  rw [drainLoop]
  split <;> simp_all

theorem drainLoop_skip {framer : AnnexBStreamFramer} {first : Nat} {others : List Nat}
    (found : header.marks.marks framer.buffer = first :: others) (pos : first > 0)
    (accessUnits : List EncodedVideoAccessUnit) :
    drainLoop header framer accessUnits =
      drainLoop header { framer with buffer := framer.buffer.drop first } accessUnits := by
  rw [drainLoop]
  split <;> simp_all

theorem drainLoop_wait {framer : AnnexBStreamFramer} (found : header.marks.marks framer.buffer = [0])
    (accessUnits : List EncodedVideoAccessUnit) :
    drainLoop header framer accessUnits = (framer, .ok accessUnits) := by
  rw [drainLoop]
  split <;> simp_all

theorem drainLoop_cut (framer : AnnexBStreamFramer) {next : Nat} {others : List Nat}
    (found : framer.codec.header.marks.marks framer.buffer = 0 :: next :: others)
    (accessUnits : List EncodedVideoAccessUnit) :
    drainLoop framer.codec.header framer accessUnits =
      drainLoop framer.codec.header (framer.after 1 (framer.buffer.drop next))
        (accessUnits ++ framer.units [framer.buffer.take next]) := by
  have starts := framer.codec.header.starts_of_piece (Marks.piece_first _ found)
  have taken := nextAccessUnit_of_starts { framer with buffer := framer.buffer.drop next } starts
  rw [drainLoop]
  split <;> simp_all [after, units, AnnexBCodec.units]

/-- The loop drains the buffer at its delimiters, and never fails. -/
theorem drainLoop_eq (framer : AnnexBStreamFramer) (accessUnits : List EncodedVideoAccessUnit) :
    drainLoop framer.codec.header framer accessUnits =
      (framer.after (framer.codec.header.marks.drain framer.buffer).1.length
          (framer.codec.header.marks.drain framer.buffer).2,
        .ok (accessUnits ++ framer.units (framer.codec.header.marks.drain framer.buffer).1)) := by
  obtain ⟨codec, buffer, frameId, timestamp, duration⟩ := framer
  induction buffer using codec.header.marks.drain_induction
    generalizing frameId timestamp accessUnits with
  | nil buffer found =>
      rw [drainLoop_nil found, codec.header.marks.drain_nil found, List.length_nil, after_zero, units,
        AnnexBCodec.units, List.append_nil]
  | wait buffer found =>
      rw [drainLoop_wait found, codec.header.marks.drain_wait found, List.length_nil, after_zero,
        units, AnnexBCodec.units, List.append_nil]
  | skip buffer first others found pos ih =>
      rw [drainLoop_skip found pos, ih, codec.header.marks.drain_skip found pos]
      rfl
  | cut buffer next others found ih =>
      let framer : AnnexBStreamFramer := ⟨codec, buffer, frameId, timestamp, duration⟩
      have joined := framer.units_after [buffer.take next]
        (codec.header.marks.drain (buffer.drop next)).1 (buffer.drop next)
      have loop : drainLoop codec.header framer accessUnits =
          drainLoop codec.header (framer.after 1 (buffer.drop next))
            (accessUnits ++ framer.units [buffer.take next]) :=
        drainLoop_cut framer found accessUnits
      rw [codec.header.marks.drain_cut found]
      refine (loop.trans (ih _ _ _)).trans ?_
      change ((framer.after 1 (buffer.drop next)).after _ _,
        Except.ok (accessUnits ++ framer.units [buffer.take next] ++
          (framer.after 1 (buffer.drop next)).units _)) = _
      rw [after_after, List.length_cons, Nat.add_comm 1, List.append_assoc]
      exact congrArg (fun units => (_, Except.ok (accessUnits ++ units))) joined.symm

theorem pushChunk_eq (framer : AnnexBStreamFramer) (chunk : Bytes) :
    framer.pushChunk chunk =
      (framer.after (framer.codec.header.marks.drain (framer.buffer ++ chunk)).1.length
          (framer.codec.header.marks.drain (framer.buffer ++ chunk)).2,
        .ok (framer.units (framer.codec.header.marks.drain (framer.buffer ++ chunk)).1)) := by
  have loop := drainLoop_eq { framer with buffer := framer.buffer ++ chunk } []
  have pushed : framer.pushChunk chunk =
      drainLoop framer.codec.header { framer with buffer := framer.buffer ++ chunk } [] := by
    obtain ⟨codec, buffer, frameId, timestamp, duration⟩ := framer
    cases codec with
    | h264 | h265 => rfl
  rw [pushed, loop, List.nil_append]
  rfl

/-- All chunks together give what one push of the whole gives, if nothing finished was in the
buffer. -/
theorem pushAll_eq (framer : AnnexBStreamFramer) (chunks : List Bytes)
    (settled : framer.codec.header.marks.drain framer.buffer = ([], framer.buffer)) :
    framer.pushAll chunks =
      (framer.after (framer.codec.header.marks.drain (framer.buffer ++ chunks.flatten)).1.length
          (framer.codec.header.marks.drain (framer.buffer ++ chunks.flatten)).2,
        .ok (framer.units (framer.codec.header.marks.drain (framer.buffer ++ chunks.flatten)).1)) := by
  induction chunks generalizing framer with
  | nil =>
      rw [pushAll, List.flatten_nil, List.append_nil, settled, List.length_nil, after_zero]
      rfl
  | cons chunk chunks ih =>
      let M := framer.codec.header.marks
      have first := pushChunk_eq framer chunk
      have rest := ih (framer.after (M.drain (framer.buffer ++ chunk)).1.length
        (M.drain (framer.buffer ++ chunk)).2) (M.drain_drain _)
      have whole := M.drain_append (framer.buffer ++ chunk) chunks.flatten
      rw [List.append_assoc] at whole
      rw [pushAll, first]
      change ((pushAll (framer.after _ _) chunks).1,
        (pushAll (framer.after _ _) chunks).2.map (framer.units _ ++ ·)) = _
      rw [rest, List.flatten_cons, whole]
      change ((framer.after _ _).after _ _, Except.ok (framer.units _ ++ (framer.after _ _).units _)) = _
      rw [after_after, List.length_append, ← framer.units_after]
      rfl

end AnnexBStreamFramer

/-! ## The whole stream -/

/-- The access unit of `finish`, if it makes one. -/
def lastUnit (final : Except MediaPacketizeError (Option EncodedVideoAccessUnit)) :
    List EncodedVideoAccessUnit :=
  match final with
  | .ok (some unit) => [unit]
  | _ => []

/-- What the access units of a stream are: with the one of `finish`, they make up the stream from
its first delimiter on; each is a delimiter and what follows it up to the next; and they are
numbered from zero. The numbers are those of `u64`, which wrap. -/
structure FramesOf (framerate : UInt32) (codec : AnnexBCodec) (stream : Bytes)
    (units : List EncodedVideoAccessUnit)
    (final : Except MediaPacketizeError (Option EncodedVideoAccessUnit)) : Prop where
  content : final.toOption.isSome →
    (units ++ lastUnit final).flatMap (·.bytes) = codec.header.marks.fromFirst stream
  delimited : codec.header.marks.marks stream ≠ [] → ∀ unit ∈ units ++ lastUnit final,
    codec.header.Starts unit.bytes ∧ ∀ p ∈ codec.header.marks.marks unit.bytes, p = 0
  numbered : ∀ i unit, (units ++ lastUnit final)[i]? = some unit →
    unit.frameId = UInt64.ofNat i ∧
      unit.timestampMicros = unit.frameId * (1000000 / framerate.toUInt64)

/-- The result of `finish` for the rest of a stream. -/
def finishRest (codec : AnnexBCodec) (frameId timestamp : UInt64) (rest : Bytes) :
    Except MediaPacketizeError (Option EncodedVideoAccessUnit) :=
  if rest.isEmpty then .ok none
  else (packetizeAccessUnit codec frameId timestamp rest).map some

theorem finish_eq (framer : AnnexBStreamFramer) :
    framer.finish.2 =
      finishRest framer.codec framer.nextFrameId framer.nextTimestampMicros framer.buffer := by
  unfold AnnexBStreamFramer.finish finishRest
  split
  · rfl
  · rfl

theorem frameStream_zero (codec : AnnexBCodec) (chunks : List Bytes) :
    frameStream 0 codec chunks = .error { message := "framerate must be greater than zero" } := rfl

/-- The result is a function of the whole stream. -/
theorem frameStream_eq {framerate : UInt32} (pos : framerate ≠ 0) (codec : AnnexBCodec)
    (chunks : List Bytes) :
    frameStream framerate codec chunks =
      let drained := codec.header.marks.drain chunks.flatten
      let duration := 1000000 / framerate.toUInt64
      .ok (codec.units duration 0 0 drained.1,
        finishRest codec (0 + UInt64.ofNat drained.1.length)
          (0 + UInt64.ofNat drained.1.length * duration) drained.2) := by
  have empty : codec.header.marks.drain [] = ([], []) := by
    apply Marks.drain_nil
    exact List.map_eq_nil_iff.mpr (by rfl)
  have pushed := AnnexBStreamFramer.pushAll_eq
    { codec, buffer := [], nextFrameId := 0, nextTimestampMicros := 0,
      frameDurationMicros := 1000000 / framerate.toUInt64 } chunks empty
  rw [frameStream, AnnexBStreamFramer.new, if_neg pos]
  simp only [pushed, List.nil_append, finish_eq]
  rfl

/-- The rest becomes a last access unit, or there is none: because the rest is empty, or because
`finish` fails. -/
theorem lastUnit_finishRest (codec : AnnexBCodec) (duration frameId timestamp : UInt64)
    (rest : Bytes) :
    ∃ tail, (tail = [] ∨ tail = [rest]) ∧
      lastUnit (finishRest codec frameId timestamp rest) =
        codec.units duration frameId timestamp tail ∧
      ((finishRest codec frameId timestamp rest).toOption.isSome → tail.flatten = rest) := by
  unfold finishRest
  split
  case isTrue empty =>
    refine ⟨[], .inl rfl, rfl, fun _ => ?_⟩
    exact (List.isEmpty_iff.mp empty).symm
  case isFalse =>
    cases made : packetizeAccessUnit codec frameId timestamp rest with
    | error e => exact ⟨[], .inl rfl, rfl, fun impossible => absurd impossible Bool.false_ne_true⟩
    | ok unit =>
        obtain rfl := eq_unit_of_packetize made
        exact ⟨[rest], .inr rfl, rfl, fun _ => List.flatten_singleton⟩

theorem framesOf_frameStream {framerate : UInt32} (codec : AnnexBCodec) (stream : Bytes) :
    let drained := codec.header.marks.drain stream
    let duration := 1000000 / framerate.toUInt64
    FramesOf framerate codec stream (codec.units duration 0 0 drained.1)
      (finishRest codec (0 + UInt64.ofNat drained.1.length)
        (0 + UInt64.ofNat drained.1.length * duration) drained.2) := by
  intro drained duration
  obtain ⟨tail, known, last, whole⟩ := lastUnit_finishRest codec duration
    (0 + UInt64.ofNat drained.1.length) (0 + UInt64.ofNat drained.1.length * duration) drained.2
  have all := codec.units_append duration 0 0 drained.1 tail
  rw [← last] at all
  constructor
  · intro finished
    rw [← all, codec.flatMap_units, List.flatten_append, whole finished]
    exact codec.header.marks.flatten_drain stream
  · intro marked unit member
    rw [← all] at member
    have piece : unit.bytes ∈ drained.1 ++ [drained.2] := by
      obtain inside | inside := List.mem_append.mp (codec.mem_units duration member)
      · exact List.mem_append_left _ inside
      · obtain rfl | rfl := known
        · cases inside
        · exact List.mem_append_right _ inside
    obtain ⟨p, q, inside⟩ := codec.header.marks.piece_of_drain marked piece
    exact ⟨codec.header.starts_of_piece inside, inside.marks_eq_zero⟩
  · intro i unit found
    rw [← all] at found
    obtain ⟨frameId, timestamp⟩ := codec.getElem?_units duration found
    rw [UInt64.zero_add] at frameId timestamp
    exact ⟨frameId, by rw [timestamp, frameId]⟩

/-- Access units do not depend on how the stream is cut into chunks, and they are those of the
stream. -/
theorem access_units_of_stream (framerate : UInt32) (codec : AnnexBCodec) (chunks : List Bytes) :
    frameStream framerate codec chunks = frameStream framerate codec [chunks.flatten] ∧
      ((framerate = 0 ∧ ∃ e, frameStream framerate codec chunks = .error e) ∨
        ∃ units final, frameStream framerate codec chunks = .ok (units, final) ∧
          FramesOf framerate codec chunks.flatten units final) := by
  by_cases zero : framerate = 0
  · subst zero
    exact ⟨rfl, .inl ⟨rfl, _, frameStream_zero codec chunks⟩⟩
  · constructor
    · rw [frameStream_eq zero, frameStream_eq zero, List.flatten_singleton]
    · exact .inr ⟨_, _, frameStream_eq zero codec chunks, framesOf_frameStream codec chunks.flatten⟩

end Qubox.AnnexB
