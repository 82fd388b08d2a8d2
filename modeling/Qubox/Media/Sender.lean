import Qubox.Media.Chunker

/-!
# The datagram sender

`sendFrame` turns an access unit into datagrams: the data chunks in order, the
last one with its length trailer, then the parity chunks. Chunk numbers and the
chunk count are cut to 16 bits. The connection belongs to the environment and
may refuse any datagram; the frame is then left unfinished.
-/

namespace Qubox.Media

/-- What the sender reads of an access unit. -/
structure EncodedVideoAccessUnit where
  codec : VideoCodec
  keyframe : Bool
  bytes : Bytes
  deriving DecidableEq, Repr

inductive MediaDatagramSendError where
  | full
  | tooLarge
  | closed
  deriving DecidableEq, Repr

structure MediaDatagramSender where
  chunker : FrameChunker
  streamId : UInt16
  nextFrameId : UInt32
  deriving DecidableEq, Repr

/-- The answer of the connection to each datagram in turn. -/
abbrev Connection := Nat → Bytes → Except MediaDatagramSendError Unit

/-- A connection that takes every datagram. -/
def Connection.open : Connection := fun _ _ => .ok ()

/-- Hand over prepared datagrams one by one until one fails. -/
def transmit (conn : Connection) :
    Nat → List (Except MediaDatagramSendError Bytes) →
      List Bytes × Except MediaDatagramSendError Unit
  | _, [] => ([], .ok ())
  | _, .error e :: _ => ([], .error e)
  | n, .ok datagram :: rest =>
      match conn n datagram with
      | .error e => ([], .error e)
      | .ok () =>
          let (sent, result) := transmit conn (n + 1) rest
          (datagram :: sent, result)

/-- The datagram made by `send_chunk`. -/
def sendChunk (header : MediaDatagramHeader) (payload : Bytes) :
    Except MediaDatagramSendError Bytes :=
  .ok (header.bytes ++ payload)

/-- The datagram made by `send_chunk_with_original_len`. -/
def sendChunkWithOriginalLen (header : MediaDatagramHeader) (payload : Bytes)
    (originalLen : Nat) : Except MediaDatagramSendError Bytes :=
  if originalLen < 2 ^ 32 then
    .ok (header.bytes ++ (payload ++ Bytes.ofNatBE originalLenTrailer originalLen))
  else .error .tooLarge

namespace MediaDatagramSender

def new (streamId : UInt16) (blockSize : Nat) : MediaDatagramSender :=
  ⟨FrameChunker.new blockSize, streamId, 0⟩

section Headers

variable (sender : MediaDatagramSender) (unit : EncodedVideoAccessUnit) (chunkCount : UInt16)

def baseFlags : UInt8 := if unit.keyframe then flagKeyframe else 0

/-- Whether the chunk number, cut to 16 bits, is the last one. -/
def isLastData (i : Nat) : Bool := UInt16.ofNat i = chunkCount - 1

def dataHeader (i : Nat) : MediaDatagramHeader where
  flags := baseFlags unit ||| if isLastData chunkCount i then flagLastChunk else 0
  codec := codecToByte unit.codec
  streamId := sender.streamId
  frameId := sender.nextFrameId
  chunkId := UInt16.ofNat i
  chunkCount

def parityHeader (i : Nat) : MediaDatagramHeader where
  flags := baseFlags unit ||| flagParity
  codec := codecToByte unit.codec
  streamId := sender.streamId
  frameId := sender.nextFrameId
  chunkId := UInt16.ofNat i
  chunkCount

end Headers

/-- The datagrams that the connection took, the result, and the sender with its
next frame id. -/
def sendFrame (conn : Connection) (sender : MediaDatagramSender) (unit : EncodedVideoAccessUnit) :
    Option (List Bytes × Except MediaDatagramSendError Unit × MediaDatagramSender) := do
  let next := { sender with nextFrameId := sender.nextFrameId + 1 }
  let (data, parity, originalLen) ← sender.chunker.chunkAndEncode unit.bytes
  let chunkCount := UInt16.ofNat data.length
  if chunkCount = 0 then return ([], .ok (), next)
  let dataSends := data.zipIdx.map fun (chunk, i) =>
    let header := sender.dataHeader unit chunkCount i
    if isLastData chunkCount i then sendChunkWithOriginalLen header chunk originalLen
    else sendChunk header chunk
  let paritySends := parity.zipIdx.map fun (p, i) =>
    sendChunk (sender.parityHeader unit chunkCount i) p
  let (sent, result) := transmit conn 0 (dataSends ++ paritySends)
  return (sent, result, next)

/-- The datagrams of a frame over an open connection. -/
def datagrams (sender : MediaDatagramSender) (unit : EncodedVideoAccessUnit) : List Bytes :=
  match sendFrame .open sender unit with
  | some (sent, _) => sent
  | none => []

end MediaDatagramSender

/-! ## What is sent -/

theorem transmit_open {n : Nat} {datagrams : List Bytes} :
    transmit .open n (datagrams.map .ok) = (datagrams, .ok ()) := by
  induction datagrams generalizing n with
  | nil => rfl
  | cons datagram rest ih => simp [transmit, Connection.open, ih]

theorem mem_of_mem_transmit {conn : Connection} {n : Nat}
    {sends : List (Except MediaDatagramSendError Bytes)} {datagram : Bytes}
    (member : datagram ∈ (transmit conn n sends).1) : .ok datagram ∈ sends := by
  induction sends generalizing n with
  | nil => cases member
  | cons send sends ih =>
      cases send with
      | error e => cases member
      | ok first =>
          rw [transmit] at member
          split at member
          · cases member
          · rcases List.mem_cons.mp member with rfl | later
            · exact List.mem_cons_self
            · exact .tail _ (ih later)

/-- A frame on its way: the access unit and the sender's state when it is sent. -/
structure Transfer where
  blockSize : Nat
  streamId : UInt16
  frameId : UInt32
  unit : EncodedVideoAccessUnit
  nonempty : unit.bytes ≠ []

namespace Transfer

variable (t : Transfer)

def sender : MediaDatagramSender := ⟨.new t.blockSize, t.streamId, t.frameId⟩

def frame : Bytes := t.unit.bytes

def datagrams : List Bytes := t.sender.datagrams t.unit

def chunkCount : UInt16 := UInt16.ofNat (chunkTotal t.frame)

def parities : List Bytes := parityChunks (max t.blockSize 1) t.frame

/-- The trailer, behind chunks that are taken for the last one. -/
def trailer (i : Nat) : Bytes :=
  if MediaDatagramSender.isLastData t.chunkCount i then
    Bytes.ofNatBE originalLenTrailer t.frame.length
  else []

def dataDatagram (i : Nat) (chunk : Bytes) : Bytes :=
  (t.sender.dataHeader t.unit t.chunkCount i).bytes ++ (chunk ++ t.trailer i)

def parityDatagram (k : Nat) (p : Bytes) : Bytes :=
  (t.sender.parityHeader t.unit t.chunkCount k).bytes ++ p

/-- What is handed to the connection. -/
def sends : List (Except MediaDatagramSendError Bytes) :=
  ((dataChunks t.frame).zipIdx.map fun (chunk, i) =>
      if MediaDatagramSender.isLastData t.chunkCount i then
        sendChunkWithOriginalLen (t.sender.dataHeader t.unit t.chunkCount i) chunk t.frame.length
      else sendChunk (t.sender.dataHeader t.unit t.chunkCount i) chunk) ++
    t.parities.zipIdx.map fun (p, k) =>
      sendChunk (t.sender.parityHeader t.unit t.chunkCount k) p

theorem datagrams_eq_transmit : t.datagrams =
    if t.chunkCount = 0 then [] else (transmit .open 0 t.sends).1 := by
  have encoded := chunkAndEncode_new t.blockSize t.nonempty
  rw [datagrams, MediaDatagramSender.datagrams, MediaDatagramSender.sendFrame]
  simp only [sender, encoded, Option.bind_eq_bind, Option.bind_some, length_dataChunks]
  split
  case h_1 ran =>
    split at ran
    case isTrue empty =>
      cases ran
      exact (if_pos empty).symm
    case isFalse some =>
      cases ran
      exact (if_neg some).symm
  case h_2 ran => split at ran <;> cases ran

/-- Every datagram is one of a data or a parity chunk. -/
theorem mem_datagrams {datagram : Bytes} (member : datagram ∈ t.datagrams) :
    (∃ i chunk, (dataChunks t.frame)[i]? = some chunk ∧ datagram = t.dataDatagram i chunk) ∨
      ∃ k p, t.parities[k]? = some p ∧ datagram = t.parityDatagram k p := by
  rw [datagrams_eq_transmit] at member
  split at member
  · cases member
  · rcases List.mem_append.mp (mem_of_mem_transmit member) with data | parity
    · obtain ⟨⟨chunk, i⟩, inside, made⟩ := List.mem_map.mp data
      have found := List.mk_mem_zipIdx_iff_getElem?.mp inside
      refine .inl ⟨i, chunk, found, ?_⟩
      simp only [sendChunk, sendChunkWithOriginalLen] at made
      rw [dataDatagram, trailer]
      split at made
      case isTrue last =>
        split at made
        · cases made
          simp [last]
        · cases made
      case isFalse other =>
        cases made
        simp [other]
    · obtain ⟨⟨p, k⟩, inside, made⟩ := List.mem_map.mp parity
      cases made
      exact .inr ⟨k, p, List.mk_mem_zipIdx_iff_getElem?.mp inside, rfl⟩

theorem total_pos : 0 < chunkTotal t.frame := chunkTotal_pos t.nonempty

/-- The frame has fewer chunks than a 16-bit number can count. -/
def Small : Prop := chunkTotal t.frame < 2 ^ 16

instance : Decidable t.Small := inferInstanceAs (Decidable (_ < _))

variable {t}

theorem Small.toNat_chunkCount (small : t.Small) : t.chunkCount.toNat = chunkTotal t.frame := by
  rw [chunkCount, UInt16.toNat_ofNat', Nat.mod_eq_of_lt small]

theorem Small.length_lt (small : t.Small) : t.frame.length < 2 ^ 32 := by
  have covered := length_le_chunkTotal t.frame
  have bound : chunkTotal t.frame * chunkPayloadMax ≤ 2 ^ 16 * chunkPayloadMax :=
    Nat.mul_le_mul_right _ (Nat.le_of_lt small)
  have size : 2 ^ 16 * chunkPayloadMax < 2 ^ 32 := by decide
  omega

/-- In a small frame exactly the last chunk is taken for the last one. -/
theorem Small.isLastData_iff (small : t.Small) {i : Nat} (inside : i < chunkTotal t.frame) :
    MediaDatagramSender.isLastData t.chunkCount i = true ↔ i + 1 = chunkTotal t.frame := by
  have pos := t.total_pos
  have count := small.toNat_chunkCount
  have low : (t.chunkCount - 1).toNat = chunkTotal t.frame - 1 := by
    rw [UInt16.toNat_sub_of_le _ _ (by rw [UInt16.le_iff_toNat_le, count]; exact pos), count]
    rfl
  have narrow : i < 2 ^ 16 := lt_trans inside small
  rw [MediaDatagramSender.isLastData, decide_eq_true_eq, ← UInt16.toNat_inj, low,
    UInt16.toNat_ofNat', Nat.mod_eq_of_lt narrow]
  omega

/-- A small frame is sent as its data datagrams followed by its parity datagrams. -/
theorem Small.datagrams_eq (small : t.Small) : t.datagrams =
    ((dataChunks t.frame).zipIdx.map fun (chunk, i) => t.dataDatagram i chunk) ++
      t.parities.zipIdx.map fun (p, k) => t.parityDatagram k p := by
  have nonzero : t.chunkCount ≠ 0 := by
    rw [Ne, ← UInt16.toNat_inj, small.toNat_chunkCount]
    exact t.total_pos.ne'
  have prepared : t.sends =
      (((dataChunks t.frame).zipIdx.map fun (chunk, i) => t.dataDatagram i chunk) ++
        t.parities.zipIdx.map fun (p, k) => t.parityDatagram k p).map .ok := by
    rw [sends, List.map_append, List.map_map, List.map_map]
    refine congrArg₂ _ (List.map_congr_left ?_) rfl
    rintro ⟨chunk, i⟩ -
    simp only [Function.comp, dataDatagram, trailer, sendChunk, sendChunkWithOriginalLen,
      small.length_lt, if_true]
    split <;> simp
  rw [datagrams_eq_transmit, if_neg nonzero, prepared, transmit_open]

end Transfer

end Qubox.Media
