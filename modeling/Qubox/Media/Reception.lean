import Qubox.Media.JitterBuffer
import Qubox.Media.Sender

/-!
# Datagrams of the sender in the buffer

What the buffer does with a datagram that `send_frame` has made: a data chunk is
stored at its number, with the trailer of the last one stripped, and a parity
chunk is appended to the list of its frame.
-/

namespace Qubox.Media

namespace Transfer

variable (t : Transfer)

def dataHeader (i : Nat) : MediaDatagramHeader := t.sender.dataHeader t.unit t.chunkCount i

def parityHeader (k : Nat) : MediaDatagramHeader := t.sender.parityHeader t.unit t.chunkCount k

/-! ## Dispatch -/

theorem dataHeader_flags (i : Nat) : (t.dataHeader i).flags ≤ mediaDiscriminatorMax ∧
    (t.dataHeader i).flags &&& flagParity = 0 ∧
    ((t.dataHeader i).flags &&& flagLastChunk ≠ 0 ↔
      MediaDatagramSender.isLastData t.chunkCount i = true) := by
  simp only [dataHeader, MediaDatagramSender.dataHeader, MediaDatagramSender.baseFlags]
  cases t.unit.keyframe <;> cases MediaDatagramSender.isLastData t.chunkCount i <;> decide

theorem parityHeader_flags (k : Nat) : (t.parityHeader k).flags ≤ mediaDiscriminatorMax ∧
    (t.parityHeader k).flags &&& flagParity ≠ 0 := by
  simp only [parityHeader, MediaDatagramSender.parityHeader, MediaDatagramSender.baseFlags]
  cases t.unit.keyframe <;> decide

theorem dispatch_data (i : Nat) (chunk : Bytes) : dispatch (t.dataDatagram i chunk) =
    .media (t.dataHeader i) (chunk ++ t.trailer i) false := by
  obtain ⟨low, noParity, -⟩ := t.dataHeader_flags i
  have routed := dispatch_media (t.dataHeader i) (chunk ++ t.trailer i) rfl low
  rwa [noParity, decide_eq_false (not_not.mpr rfl)] at routed

theorem dispatch_parity (k : Nat) (p : Bytes) :
    dispatch (t.parityDatagram k p) = .media (t.parityHeader k) p true := by
  obtain ⟨low, parity⟩ := t.parityHeader_flags k
  have routed := dispatch_media (t.parityHeader k) p rfl low
  rwa [decide_eq_true parity] at routed

/-! ## Storing a chunk -/

theorem accept_parity (frame : PendingFrame) (k : Nat) (p : Bytes) :
    frame.accept (t.parityHeader k) p true = { frame with parity := frame.parity ++ [p] } :=
  rfl

theorem accept_data (frame : PendingFrame) (i : Nat) (chunk : Bytes) :
    frame.accept (t.dataHeader i) (chunk ++ t.trailer i) false =
      { frame with
        chunks := frame.chunks.set (UInt16.ofNat i).toNat (some chunk)
        originalLen :=
          if MediaDatagramSender.isLastData t.chunkCount i then some (t.frame.length % 2 ^ 32)
          else frame.originalLen } := by
  have flag := (t.dataHeader_flags i).2.2
  rw [PendingFrame.accept, if_neg Bool.false_ne_true]
  by_cases last : MediaDatagramSender.isLastData t.chunkCount i = true
  · have trailer : t.trailer i = Bytes.ofNatBE originalLenTrailer t.frame.length := if_pos last
    have size : (chunk ++ t.trailer i).length - originalLenTrailer = chunk.length := by
      simp [trailer]
    rw [if_pos ⟨flag.mpr last, by simp [trailer]⟩, if_pos last]
    simp only [size, List.take_left, List.drop_left]
    rw [trailer, Bytes.toNatBE_ofNatBE]
    rfl
  · have trailer : t.trailer i = [] := if_neg last
    rw [if_neg fun both => last (flag.mp both.1), if_neg last, trailer, List.append_nil]
    rfl

end Transfer

/-! ## Frames under collection -/

/-- What the buffer has of a frame comes from the frame. -/
structure Gathered (t : Transfer) (frame : PendingFrame) : Prop where
  agrees : Agrees (dataChunks t.frame) frame.chunks
  parity : ∀ p ∈ frame.parity, p ∈ t.parities
  frameId : frame.frameId = t.frameId
  originalLen : ∀ n, frame.originalLen = some n → n = t.frame.length

namespace Transfer

/-- The data datagram that carries the trailer. -/
def lastDatagram (t : Transfer) : Bytes :=
  t.dataDatagram (chunkTotal t.frame - 1) ((dataChunks t.frame).getD (chunkTotal t.frame - 1) [])

variable {t : Transfer}

theorem Small.gathered_opened (small : t.Small) {header : MediaDatagramHeader}
    (id : header.frameId = t.frameId) (count : header.chunkCount = t.chunkCount)
    (now deadline : Nat) : Gathered t (.opened header now deadline) := by
  refine ⟨?_, fun p member => absurd member List.not_mem_nil, id, nofun⟩
  rw [PendingFrame.opened, count, small.toNat_chunkCount, ← length_dataChunks]
  exact agrees_replicate_none _

/-- A block has no more parity chunks than data chunks. -/
theorem lt_chunkTotal_of_parities {k : Nat} {p : Bytes} (found : t.parities[k]? = some p) :
    k < chunkTotal t.frame := by
  have inside := (List.getElem?_eq_some_iff.mp found).1
  rw [parities, parityChunks, List.length_map, List.lt_length_pieces (by omega),
    length_dataChunks] at inside
  exact lt_of_le_of_lt (Nat.le_mul_of_pos_right k (by omega)) inside

/-- The parity chunk of a block, in terms of the data chunks. -/
theorem eq_parityOf_of_parities {k : Nat} {p : Bytes} (found : t.parities[k]? = some p) :
    p = parityOf
      (((dataChunks t.frame).drop (k * max t.blockSize 1)).take (max t.blockSize 1)) := by
  rw [parities, parityChunks, List.getElem?_map, List.getElem?_pieces (by omega)] at found
  split at found
  · exact (Option.some.inj found).symm
  · cases found

theorem Small.toNat_ofNat (small : t.Small) {i : Nat} (inside : i < chunkTotal t.frame) :
    (UInt16.ofNat i).toNat = i := by
  rw [UInt16.toNat_ofNat', Nat.mod_eq_of_lt (lt_trans inside small)]

/-- How the buffer takes a datagram of a small frame. -/
structure Taken (t : Transfer) (datagram : Bytes) (header : MediaDatagramHeader)
    (payload : Bytes) (parity : Bool) : Prop where
  routed : dispatch datagram = .media header payload parity
  frameId : header.frameId = t.frameId
  chunkCount : header.chunkCount = t.chunkCount
  inside : header.chunkId.toNat < chunkTotal t.frame
  gathered : ∀ frame, Gathered t frame → Gathered t (frame.accept header payload parity)
  originalLen : ∀ frame : PendingFrame, datagram = t.lastDatagram ∨ frame.originalLen.isSome →
    (frame.accept header payload parity).originalLen.isSome

theorem Small.taken_data (small : t.Small) {i : Nat} {chunk : Bytes}
    (found : (dataChunks t.frame)[i]? = some chunk) :
    Taken t (t.dataDatagram i chunk) (t.dataHeader i) (chunk ++ t.trailer i) false := by
  have inside : i < chunkTotal t.frame := by
    rw [← length_dataChunks]
    exact (List.getElem?_eq_some_iff.mp found).1
  refine ⟨t.dispatch_data i chunk, rfl, rfl, ?_, fun frame gathered => ?_, fun frame known => ?_⟩
  · exact (small.toNat_ofNat inside).trans_lt inside
  · rw [t.accept_data, small.toNat_ofNat inside]
    refine ⟨gathered.agrees.set found, gathered.parity, gathered.frameId, fun n trailer => ?_⟩
    dsimp only at trailer
    split at trailer
    · rw [← Option.some.inj trailer, Nat.mod_eq_of_lt small.length_lt]
    · exact gathered.originalLen n trailer
  · rw [t.accept_data]
    dsimp only
    split
    case isTrue => rfl
    case isFalse other =>
      refine known.resolve_left fun same => other ?_
      have routed := t.dispatch_data i chunk
      rw [same, lastDatagram, t.dispatch_data] at routed
      injection routed with headers
      have pos := t.total_pos
      refine (t.dataHeader_flags i).2.2.mp ?_
      rw [← headers]
      exact (t.dataHeader_flags _).2.2.mpr ((small.isLastData_iff (by omega)).mpr (by omega))

theorem Small.taken_parity (small : t.Small) {k : Nat} {p : Bytes}
    (found : t.parities[k]? = some p) :
    Taken t (t.parityDatagram k p) (t.parityHeader k) p true := by
  have inside := lt_chunkTotal_of_parities found
  refine ⟨t.dispatch_parity k p, rfl, rfl, ?_, fun frame gathered => ?_, fun frame known => ?_⟩
  · exact (small.toNat_ofNat inside).trans_lt inside
  · rw [t.accept_parity]
    refine ⟨gathered.agrees, fun p' member => ?_, gathered.frameId, gathered.originalLen⟩
    rcases List.mem_append.mp member with old | new
    · exact gathered.parity p' old
    · rw [List.mem_singleton.mp new]
      exact List.mem_of_getElem? found
  · refine known.resolve_left fun same => ?_
    have routed := t.dispatch_parity k p
    rw [same, lastDatagram, t.dispatch_data] at routed
    injection routed with _ _ parity
    cases parity

theorem Small.taken (small : t.Small) {datagram : Bytes} (member : datagram ∈ t.datagrams) :
    ∃ header payload parity, Taken t datagram header payload parity := by
  rcases t.mem_datagrams member with ⟨i, chunk, found, rfl⟩ | ⟨k, p, found, rfl⟩
  · exact ⟨_, _, _, small.taken_data found⟩
  · exact ⟨_, _, _, small.taken_parity found⟩

end Transfer

/-! ## Full chunks -/

/-- All chunks and parity chunks of the frame are full. -/
structure Sized (frame : PendingFrame) : Prop where
  chunks : Full frame.chunks
  parity : ∀ p ∈ frame.parity, p.length = chunkPayloadMax

theorem sized_opened (header : MediaDatagramHeader) (now deadline : Nat) :
    Sized (.opened header now deadline) := by
  refine ⟨fun c member => ?_, fun p member => absurd member List.not_mem_nil⟩
  cases (List.mem_replicate.mp member).2

/-- Recovery of a frame with full chunks does not panic. -/
theorem Sized.recoverFrame {frame : PendingFrame} (sized : Sized frame) (blockSize : Nat) :
    (JitterBuffer.recoverFrame blockSize frame).isSome ∧
      Sized (JitterBuffer.recoveredFrame blockSize frame) ∧
      (JitterBuffer.recoveredFrame blockSize frame).chunks.length = frame.chunks.length := by
  obtain ⟨result, chunks, ran, full, length⟩ :=
    recoverWithParity_full sized.chunks sized.parity (max blockSize 1)
  rw [JitterBuffer.recoveredFrame, JitterBuffer.recoverFrame, ran]
  exact ⟨rfl, ⟨full, sized.parity⟩, length⟩

/-- The parity chunks of a frame are full. -/
theorem Transfer.length_of_mem_parities {t : Transfer} {p : Bytes} (member : p ∈ t.parities) :
    p.length = chunkPayloadMax := by
  obtain ⟨block, inside, rfl⟩ := List.mem_map.mp member
  refine Bytes.length_xorRows (List.length_replicate ..) fun chunk of_block => ?_
  exact length_of_mem_dataChunks _ (List.mem_of_mem_pieces inside of_block)

end Qubox.Media
