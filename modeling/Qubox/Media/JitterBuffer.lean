import Qubox.Media.Recovery

/-!
# The jitter buffer

Chunks are collected per frame id until a frame is complete or its deadline has
passed. Instants and durations are natural numbers of nanoseconds, and the
frames are kept in a tree map, whose order is that of the ids.

The buffer adapts its delay to the jitter it observes, in floating point. The
delay decides deadlines only.
-/

namespace Qubox.Media

open Std (TreeMap)

structure PendingFrame where
  chunks : List (Option Bytes)
  parity : List Bytes
  firstArrival : Nat
  deadline : Nat
  codec : VideoCodec
  flags : UInt8
  streamId : UInt16
  frameId : UInt32
  originalLen : Option Nat
  deriving DecidableEq, Repr

structure JitterBufferStats where
  framesReceived : Nat := 0
  framesCompleted : Nat := 0
  framesDroppedDeadline : Nat := 0
  framesRecoveredViaFec : Nat := 0
  chunksReceived : Nat := 0
  deriving DecidableEq, Repr

structure JitterBuffer where
  targetDelay : Nat
  maxInflight : Nat
  frames : TreeMap UInt32 PendingFrame
  jitterEwmaMs : Float
  lastAdaptiveEval : Option Nat
  lowJitterSecs : Float
  lastChunkTs : Option Nat
  stats : JitterBufferStats

structure ReassembledFrame where
  codec : VideoCodec
  streamId : UInt16
  frameId : UInt32
  flags : UInt8
  bytes : Bytes
  reassembledAt : Nat
  deriving DecidableEq, Repr

structure DeadlineFrame where
  codec : VideoCodec
  streamId : UInt16
  frameId : UInt32
  flags : UInt8
  missingChunks : List UInt16
  deriving DecidableEq, Repr

namespace PendingFrame

/-- The entry made for the first datagram of a frame. -/
def opened (header : MediaDatagramHeader) (now deadline : Nat) : PendingFrame where
  chunks := List.replicate header.chunkCount.toNat none
  parity := []
  firstArrival := now
  deadline
  codec := codecFromByte header.codec
  flags := header.flags
  streamId := header.streamId
  frameId := header.frameId
  originalLen := none

/-- Store a chunk whose number is in range. -/
def accept (frame : PendingFrame) (header : MediaDatagramHeader) (payload : Bytes)
    (parity : Bool) : PendingFrame :=
  if parity then { frame with parity := frame.parity ++ [payload] }
  else if header.flags &&& flagLastChunk ≠ 0 ∧ originalLenTrailer ≤ payload.length then
    let split := payload.length - originalLenTrailer
    { frame with
      originalLen := some (Bytes.toNatBE (payload.drop split))
      chunks := frame.chunks.set header.chunkId.toNat (some (payload.take split)) }
  else { frame with chunks := frame.chunks.set header.chunkId.toNat (some payload) }

def complete (frame : PendingFrame) : Bool := frame.chunks.all Option.isSome

end PendingFrame

/-- `assemble_frame`, with the time that `Instant::now()` reads. -/
def assembleFrame (frame : PendingFrame) (wallClock : Nat) : ReassembledFrame :=
  let bytes := (frame.chunks.filterMap id).flatten
  { codec := frame.codec
    streamId := frame.streamId
    frameId := frame.frameId
    flags := frame.flags
    bytes :=
      match frame.originalLen with
      | some originalLen => if originalLen ≤ bytes.length then bytes.take originalLen else bytes
      | none => bytes
    reassembledAt := wallClock }

def deadlineFrame (frame : PendingFrame) : DeadlineFrame where
  codec := frame.codec
  streamId := frame.streamId
  frameId := frame.frameId
  flags := frame.flags
  missingChunks := (missingIn frame.chunks).map UInt16.ofNat

/-- `Duration::as_secs_f64`. -/
def asSecsF64 (nanos : Nat) : Float :=
  Float.ofNat (nanos / 10 ^ 9) + Float.ofNat (nanos % 10 ^ 9) / 1e9

namespace JitterBuffer

def new (targetDelay maxInflight : Nat) : JitterBuffer where
  targetDelay
  maxInflight
  frames := ∅
  jitterEwmaMs := 0.0
  lastAdaptiveEval := none
  lowJitterSecs := 0.0
  lastChunkTs := none
  stats := {}

/-- Update the smoothed jitter with the arrival of a chunk. -/
def noteArrival (buffer : JitterBuffer) (now : Nat) : JitterBuffer :=
  let jitterEwmaMs :=
    match buffer.lastChunkTs with
    | some prev =>
        let deltaMs := asSecsF64 (now - prev) * 1000.0
        let deviation := (deltaMs - 16.67).abs
        0.9 * buffer.jitterEwmaMs + 0.1 * deviation
    | none => buffer.jitterEwmaMs
  { buffer with lastChunkTs := some now, jitterEwmaMs }

/-- At most `rounds` rounds of the loop that drops the oldest frames. -/
def dropOldest : (rounds : Nat) → JitterBuffer → JitterBuffer
  | 0, buffer => buffer
  | rounds + 1, buffer =>
      if buffer.maxInflight < buffer.frames.size then
        match buffer.frames.keys.head? with
        | some key =>
            dropOldest rounds { buffer with
              frames := buffer.frames.erase key
              stats := { buffer.stats with
                framesDroppedDeadline := buffer.stats.framesDroppedDeadline + 1 } }
        | none => buffer
      else buffer

def pushChunk (buffer : JitterBuffer) (header : MediaDatagramHeader) (payload : Bytes)
    (parity : Bool) (now : Nat) : JitterBuffer :=
  let opened := PendingFrame.opened header now (now + buffer.targetDelay)
  let frame := buffer.frames[header.frameId]?.getD opened
  if frame.chunks.length ≤ header.chunkId.toNat then
    -- the entry stays, also when it was made for this chunk
    { buffer with frames := buffer.frames.insert header.frameId frame }
  else
    let stored := { buffer with
      frames := buffer.frames.insert header.frameId (frame.accept header payload parity)
      stats := { buffer.stats with chunksReceived := buffer.stats.chunksReceived + 1 } }
    -- each round removes one frame, so there are at most this many
    dropOldest stored.frames.size (stored.noteArrival now)

/-- The frame after `recover_with_parity`, and whether a chunk was recovered. -/
def recoverFrame (blockSize : Nat) (frame : PendingFrame) : Option (PendingFrame × Bool) :=
  (recoverWithParity frame.chunks frame.parity (max blockSize 1)).map fun (result, chunks) =>
    ({ frame with chunks }, result.isOk)

/-- The frame as recovery leaves it. -/
def recoveredFrame (blockSize : Nat) (frame : PendingFrame) : PendingFrame :=
  ((recoverFrame blockSize frame).map Prod.fst).getD frame

/-- The number of frames recovered, and the buffer; nothing after a panic. -/
def tryFecRecovery (buffer : JitterBuffer) (_now blockSize : Nat) :
    Option (Nat × JitterBuffer) :=
  if buffer.frames.toList.all (fun e => (recoverFrame blockSize e.2).isSome) then
    let recovered := buffer.frames.toList.countP fun e =>
      (recoverFrame blockSize e.2).any Prod.snd
    some (recovered, { buffer with
      frames := buffer.frames.map fun _ frame => recoveredFrame blockSize frame
      stats := { buffer.stats with
        framesRecoveredViaFec := buffer.stats.framesRecoveredViaFec + recovered } })
  else none

def maybeAdaptTargetDelay (buffer : JitterBuffer) (now : Nat) : JitterBuffer :=
  let millis := 10 ^ 6
  if buffer.lastAdaptiveEval.all fun last => now - last ≥ 10 ^ 9 then
    let buffer := { buffer with lastAdaptiveEval := some now }
    if buffer.jitterEwmaMs > 5.0 then
      { buffer with
        targetDelay := min (buffer.targetDelay + 1 * millis) (15 * millis)
        lowJitterSecs := 0.0 }
    else if buffer.jitterEwmaMs < 1.0 then
      let lowJitterSecs := buffer.lowJitterSecs + 1.0
      if lowJitterSecs ≥ 5.0 then
        { buffer with
          targetDelay := max (buffer.targetDelay - 1 * millis) (3 * millis)
          lowJitterSecs := 0.0 }
      else { buffer with lowJitterSecs }
    else { buffer with lowJitterSecs := 0.0 }
  else buffer

/-- The complete frames in the order of their ids, and the buffer without them.
`wallClock` gives the time at which each one is assembled. -/
def popReady (buffer : JitterBuffer) (now : Nat) (wallClock : UInt32 → Nat) :
    List ReassembledFrame × JitterBuffer :=
  let ready := buffer.frames.toList.filter fun e => e.2.complete
  (ready.map fun e => assembleFrame e.2 (wallClock e.1),
    maybeAdaptTargetDelay { buffer with
      frames := buffer.frames.filter fun _ frame => !frame.complete
      stats := { buffer.stats with
        framesCompleted := buffer.stats.framesCompleted + ready.length } } now)

/-- The frames whose deadline has passed, and the buffer without them. -/
def popDeadlinePassed (buffer : JitterBuffer) (now : Nat) : List DeadlineFrame × JitterBuffer :=
  let expired := buffer.frames.toList.filter fun e => e.2.deadline ≤ now
  (expired.map fun e => deadlineFrame e.2,
    { buffer with
      frames := buffer.frames.filter fun _ frame => !(frame.deadline ≤ now)
      stats := { buffer.stats with
        framesDroppedDeadline := buffer.stats.framesDroppedDeadline + expired.length } })

/-! ## What each operation does to the frames -/

section Specs

variable (buffer : JitterBuffer)

@[simp] theorem noteArrival_frames (now : Nat) : (buffer.noteArrival now).frames = buffer.frames :=
  rfl

theorem dropOldest_of_le {buffer : JitterBuffer} (fits : buffer.frames.size ≤ buffer.maxInflight)
    (rounds : Nat) : dropOldest rounds buffer = buffer := by
  cases rounds with
  | zero => rfl
  | succ rounds => rw [dropOldest, if_neg (Nat.not_lt.mpr fits)]

@[simp] theorem dropOldest_maxInflight (rounds : Nat) :
    (dropOldest rounds buffer).maxInflight = buffer.maxInflight := by
  induction rounds generalizing buffer with
  | zero => rfl
  | succ rounds ih =>
      rw [dropOldest]
      split
      · split
        · exact ih _
        · rfl
      · rfl

theorem dropOldest_getElem? {buffer : JitterBuffer} {rounds : Nat} {id : UInt32}
    {frame : PendingFrame} (kept : (dropOldest rounds buffer).frames[id]? = some frame) :
    buffer.frames[id]? = some frame := by
  induction rounds generalizing buffer with
  | zero => exact kept
  | succ rounds ih =>
      rw [dropOldest] at kept
      split at kept
      · split at kept
        · have before := ih kept
          rw [TreeMap.getElem?_erase] at before
          split at before
          · cases before
          · exact before
        · exact kept
      · exact kept

theorem size_dropOldest {buffer : JitterBuffer} {rounds : Nat}
    (enough : buffer.frames.size ≤ buffer.maxInflight + rounds) :
    (dropOldest rounds buffer).frames.size ≤ buffer.maxInflight := by
  induction rounds generalizing buffer with
  | zero => exact enough
  | succ rounds ih =>
      rw [dropOldest]
      split
      case isTrue full =>
        split
        case h_1 key oldest =>
          have inside : buffer.frames.contains key := by
            rw [TreeMap.contains_iff_mem]
            exact TreeMap.mem_of_mem_keys (List.mem_of_head? oldest)
          refine ih ?_
          simp only [TreeMap.size_erase, inside, if_true]
          omega
        case h_2 empty =>
          have none : buffer.frames.keys = [] := List.head?_eq_none_iff.mp empty
          have := buffer.frames.length_keys
          rw [none] at this
          simp only [List.length_nil] at this
          omega
      case isFalse fits => omega

theorem getElem?_of_size_eq_zero {frames : TreeMap UInt32 PendingFrame} (empty : frames.size = 0)
    (id : UInt32) : frames[id]? = none := by
  apply TreeMap.getElem?_of_isEmpty
  rw [TreeMap.isEmpty_eq_size_eq_zero, empty]
  rfl

/-- The frame that a chunk is stored in. -/
def frameFor (header : MediaDatagramHeader) (now : Nat) : PendingFrame :=
  buffer.frames[header.frameId]?.getD (.opened header now (now + buffer.targetDelay))

/-- The frame as a chunk leaves it, if it is kept. -/
def pushed (header : MediaDatagramHeader) (payload : Bytes) (parity : Bool) (now : Nat) :
    PendingFrame :=
  if (buffer.frameFor header now).chunks.length ≤ header.chunkId.toNat then
    buffer.frameFor header now
  else (buffer.frameFor header now).accept header payload parity

section Push

variable {buffer : JitterBuffer} {header : MediaDatagramHeader} {payload : Bytes} {parity : Bool}
  {now : Nat}

@[simp] theorem pushChunk_maxInflight :
    (buffer.pushChunk header payload parity now).maxInflight = buffer.maxInflight := by
  rw [pushChunk]
  split
  · rfl
  · exact dropOldest_maxInflight _ _

/-- A chunk that is stored leaves no more frames than allowed. -/
theorem size_pushChunk
    (inside : ¬ (buffer.frameFor header now).chunks.length ≤ header.chunkId.toNat) :
    (buffer.pushChunk header payload parity now).frames.size ≤ buffer.maxInflight := by
  rw [frameFor] at inside
  rw [pushChunk, if_neg inside]
  exact size_dropOldest (Nat.le_add_left _ _)

/-- A chunk touches its own frame only, apart from frames that are dropped. -/
theorem pushChunk_getElem? {id : UInt32} {frame : PendingFrame}
    (found : (buffer.pushChunk header payload parity now).frames[id]? = some frame) :
    (id = header.frameId ∧ frame = buffer.pushed header payload parity now) ∨
      (id ≠ header.frameId ∧ buffer.frames[id]? = some frame) := by
  have inserted (stored : PendingFrame)
      (found : (buffer.frames.insert header.frameId stored)[id]? = some frame) :
      (id = header.frameId ∧ frame = stored) ∨
        (id ≠ header.frameId ∧ buffer.frames[id]? = some frame) := by
    simp only [TreeMap.getElem?_insert, Std.LawfulEqCmp.compare_eq_iff_eq] at found
    split at found
    case isTrue same => exact .inl ⟨same.symm, (Option.some.inj found).symm⟩
    case isFalse other => exact .inr ⟨fun same => other same.symm, found⟩
  rw [pushChunk] at found
  split at found
  case isTrue out =>
    rw [pushed, frameFor, if_pos out]
    exact inserted _ found
  case isFalse inside =>
    rw [pushed, frameFor, if_neg inside]
    exact inserted _ (dropOldest_getElem? found)

end Push

theorem mem_popReady {now : Nat} {wallClock : UInt32 → Nat} {f : ReassembledFrame} :
    f ∈ (buffer.popReady now wallClock).1 ↔ ∃ id frame, buffer.frames[id]? = some frame ∧
      frame.complete ∧ f = assembleFrame frame (wallClock id) := by
  simp only [popReady, List.mem_map, List.mem_filter, Prod.exists,
    TreeMap.mem_toList_iff_getElem?_eq_some, and_assoc, eq_comm]

theorem maybeAdaptTargetDelay_keeps (now : Nat) :
    (buffer.maybeAdaptTargetDelay now).frames = buffer.frames ∧
      (buffer.maybeAdaptTargetDelay now).maxInflight = buffer.maxInflight := by
  simp only [maybeAdaptTargetDelay]
  split
  · split
    · exact ⟨rfl, rfl⟩
    · split
      · split <;> exact ⟨rfl, rfl⟩
      · exact ⟨rfl, rfl⟩
  · exact ⟨rfl, rfl⟩

theorem popReady_getElem? (now : Nat) (wallClock : UInt32 → Nat) (id : UInt32) :
    (buffer.popReady now wallClock).2.frames[id]? =
      buffer.frames[id]?.filter fun frame => !frame.complete := by
  rw [popReady, (maybeAdaptTargetDelay_keeps _ _).1, TreeMap.getElem?_filter']

theorem mem_popDeadlinePassed {now : Nat} {f : DeadlineFrame} :
    f ∈ (buffer.popDeadlinePassed now).1 ↔
      ∃ (id : UInt32) (frame : PendingFrame), buffer.frames[id]? = some frame ∧
      frame.deadline ≤ now ∧ f = deadlineFrame frame := by
  simp only [popDeadlinePassed, List.mem_map, List.mem_filter, Prod.exists,
    TreeMap.mem_toList_iff_getElem?_eq_some, and_assoc, @eq_comm _ f, decide_eq_true_eq]

theorem popDeadlinePassed_getElem? (now : Nat) (id : UInt32) :
    (buffer.popDeadlinePassed now).2.frames[id]? =
      buffer.frames[id]?.filter fun frame => !(frame.deadline ≤ now) := by
  rw [popDeadlinePassed, TreeMap.getElem?_filter']

theorem tryFecRecovery_getElem? {buffer : JitterBuffer} {now blockSize count : Nat}
    {after : JitterBuffer} (ran : buffer.tryFecRecovery now blockSize = some (count, after)) :
    after.maxInflight = buffer.maxInflight ∧
      ∀ id : UInt32, after.frames[id]? = buffer.frames[id]?.map (recoveredFrame blockSize) := by
  rw [tryFecRecovery] at ran
  split at ran
  · cases ran
    exact ⟨rfl, fun id => TreeMap.getElem?_map⟩
  · cases ran

/-- Recovery does not panic if it panics for no frame. -/
theorem tryFecRecovery_isSome {buffer : JitterBuffer} (now : Nat) {blockSize : Nat}
    (each : ∀ (id : UInt32) (frame : PendingFrame), buffer.frames[id]? = some frame →
      (recoverFrame blockSize frame).isSome) :
    ∃ count after, buffer.tryFecRecovery now blockSize = some (count, after) := by
  refine ⟨_, _, if_pos (List.all_eq_true.mpr ?_)⟩
  rintro ⟨id, frame⟩ member
  exact each id frame (TreeMap.mem_toList_iff_getElem?_eq_some.mp member)

end Specs

/-! ## Runs -/

/-- A datagram is dispatched and, if it is one of media, drained into the buffer. -/
def deliver (buffer : JitterBuffer) (datagram : Bytes) (now : Nat) : JitterBuffer :=
  match dispatch datagram with
  | .media header payload parity => buffer.pushChunk header payload parity now
  | _ => buffer

/-- What the receiver does with its buffer. -/
inductive Op where
  | deliver (datagram : Bytes) (now : Nat)
  | tryFecRecovery (now blockSize : Nat)
  | popReady (now : Nat) (wallClock : UInt32 → Nat)
  | popDeadlinePassed (now : Nat)

def step (buffer : JitterBuffer) : Op → Option JitterBuffer
  | .deliver datagram now => some (buffer.deliver datagram now)
  | .tryFecRecovery now blockSize => (buffer.tryFecRecovery now blockSize).map Prod.snd
  | .popReady now wallClock => some (buffer.popReady now wallClock).2
  | .popDeadlinePassed now => some (buffer.popDeadlinePassed now).2

/-- The frames an operation returns as complete. -/
def emitted (buffer : JitterBuffer) : Op → List ReassembledFrame
  | .popReady now wallClock => (buffer.popReady now wallClock).1
  | _ => []

/-- The frames an operation returns as lost. -/
def reported (buffer : JitterBuffer) : Op → List DeadlineFrame
  | .popDeadlinePassed now => (buffer.popDeadlinePassed now).1
  | _ => []

/-- The buffer after a run, unless the run panics. -/
def run (buffer : JitterBuffer) (ops : List Op) : Option JitterBuffer := ops.foldlM step buffer

/-- The datagrams delivered in a run. -/
def delivered (ops : List Op) : List Bytes :=
  ops.filterMap fun
    | .deliver datagram _ => some datagram
    | _ => none

/-- The ids of the frames that a run has returned as complete. -/
def emittedIds (buffer : JitterBuffer) : List Op → List UInt32
  | [] => []
  | op :: ops => (buffer.emitted op).map ReassembledFrame.frameId ++
      match buffer.step op with
      | some after => emittedIds after ops
      | none => []

theorem run_cons (buffer : JitterBuffer) (op : Op) (ops : List Op) :
    buffer.run (op :: ops) = (buffer.step op).bind fun after => after.run ops :=
  List.foldlM_cons

theorem run_append (buffer : JitterBuffer) (first second : List Op) :
    buffer.run (first ++ second) = (buffer.run first).bind fun after => after.run second :=
  List.foldlM_append

theorem delivered_append (first second : List Op) :
    delivered (first ++ second) = delivered first ++ delivered second :=
  List.filterMap_append

theorem emittedIds_append {buffer after : JitterBuffer} {first : List Op}
    (ran : buffer.run first = some after) (second : List Op) :
    buffer.emittedIds (first ++ second) = buffer.emittedIds first ++ after.emittedIds second := by
  induction first generalizing buffer with
  | nil =>
      cases ran
      rfl
  | cons op first ih =>
      rw [run_cons] at ran
      obtain ⟨next, stepped, ran⟩ := Option.bind_eq_some_iff.mp ran
      simp only [List.cons_append, emittedIds, stepped, ih ran, List.append_assoc]

/-- Each operation of the run satisfies `ok` with the operations before it and
the buffer it is applied to. -/
def Along (ok : List Op → JitterBuffer → Op → Prop) (past : List Op) (buffer : JitterBuffer) :
    List Op → Prop
  | [] => True
  | op :: ops => ok past buffer op ∧
      ∀ after, buffer.step op = some after → Along ok (past ++ [op]) after ops

instance decidableAlong (ok : List Op → JitterBuffer → Op → Prop)
    [∀ past buffer op, Decidable (ok past buffer op)] :
    ∀ past buffer ops, Decidable (Along ok past buffer ops)
  | _, _, [] => isTrue trivial
  | past, buffer, op :: ops =>
      haveI : Decidable (∀ after, buffer.step op = some after →
          Along ok (past ++ [op]) after ops) :=
        match buffer.step op with
        | none => isTrue nofun
        | some after =>
            haveI := decidableAlong ok (past ++ [op]) after ops
            decidable_of_iff (Along ok (past ++ [op]) after ops)
              ⟨fun along _ same => Option.some.inj same ▸ along, fun all => all after rfl⟩
      inferInstanceAs (Decidable (_ ∧ _))

theorem Along.left {ok : List Op → JitterBuffer → Op → Prop} {past first second : List Op}
    {buffer : JitterBuffer} (along : Along ok past buffer (first ++ second)) :
    Along ok past buffer first := by
  induction first generalizing past buffer with
  | nil => trivial
  | cons op first ih => exact ⟨along.1, fun after stepped => ih (along.2 after stepped)⟩

/-- Induction over runs: a run whose operations are permitted does not panic and
keeps an invariant, if no permitted operation panics and each keeps it. -/
theorem run_invariant {ok : List Op → JitterBuffer → Op → Prop}
    {I : List Op → JitterBuffer → Prop} {past ops : List Op} {buffer : JitterBuffer}
    (keeps : ∀ past buffer, ∀ op ∈ ops, ok past buffer op → I past buffer →
      ∃ after, buffer.step op = some after ∧ I (past ++ [op]) after)
    (start : I past buffer) (along : Along ok past buffer ops) :
    ∃ after, buffer.run ops = some after ∧ I (past ++ ops) after := by
  induction ops generalizing past buffer with
  | nil => exact ⟨buffer, rfl, by simpa using start⟩
  | cons op ops ih =>
      obtain ⟨next, stepped, kept⟩ := keeps past buffer op List.mem_cons_self along.1 start
      obtain ⟨after, ran, done⟩ := ih
        (fun past buffer op later => keeps past buffer op (.tail _ later))
        kept (along.2 next stepped)
      refine ⟨after, ?_, by simpa using done⟩
      rw [run_cons, stepped]
      exact ran

/-- A run is permitted in a second sense when each of its operations is, given an
invariant of the run. -/
theorem Along.imp {ok ok' : List Op → JitterBuffer → Op → Prop}
    {I : List Op → JitterBuffer → Prop} {past ops : List Op} {buffer : JitterBuffer}
    (keeps : ∀ past buffer, ∀ op ∈ ops, ok past buffer op → I past buffer →
      ok' past buffer op ∧ ∀ after, buffer.step op = some after → I (past ++ [op]) after)
    (start : I past buffer) (along : Along ok past buffer ops) : Along ok' past buffer ops := by
  induction ops generalizing past buffer with
  | nil => trivial
  | cons op ops ih =>
      obtain ⟨permitted, kept⟩ := keeps past buffer op List.mem_cons_self along.1 start
      refine ⟨permitted, fun after stepped => ?_⟩
      exact ih (fun past buffer op later => keeps past buffer op (.tail _ later))
        (kept after stepped) (along.2 after stepped)

end JitterBuffer

end Qubox.Media
