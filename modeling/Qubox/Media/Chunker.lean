import Qubox.Media.Datagram

/-!
# Chunks and their parity

A frame is cut into data chunks of one size, the last one padded with zeros, and
every block of `blockSize` data chunks gets one parity chunk, the exclusive or of
the block.

No result (`none`) stands for a panic: an index out of bounds, or a cut into
pieces of size 0.
-/

namespace Qubox.Media

structure FrameChunker where
  blockSize : Nat
  maxChunkPayload : Nat
  deriving DecidableEq, Repr

/-- `slice::chunks`, which panics on a size of 0. -/
def chunksOf {α : Type} (size : Nat) (l : List α) : Option (List (List α)) :=
  if size = 0 then none else some (l.pieces size)

/-- The last chunk, if it is short, resized to `max` with zeros. -/
def padLast (max : Nat) (data : List Bytes) : List Bytes :=
  match data.getLast? with
  | some last =>
      if last.length < max then
        data.dropLast ++ [last ++ List.replicate (max - last.length) 0]
      else data
  | none => data

/-- The exclusive or of a block, as long as its longest chunk. -/
def blockParity (block : List Bytes) : Option Bytes :=
  block.foldlM Bytes.xorInto (List.replicate ((block.map List.length).max?.getD 0) 0)

namespace FrameChunker

def new (blockSize : Nat) : FrameChunker := ⟨max blockSize 1, chunkPayloadMax⟩

/-- Data chunks, parity chunks and the length of the frame. -/
def chunkAndEncode (chunker : FrameChunker) (frame : Bytes) :
    Option (List Bytes × List Bytes × Nat) :=
  if frame.isEmpty then some ([], [], 0)
  else do
    let data := padLast chunker.maxChunkPayload (← chunksOf chunker.maxChunkPayload frame)
    let parity ← (← chunksOf chunker.blockSize data).mapM blockParity
    return (data, parity, frame.length)

end FrameChunker

/-! ## What the chunker makes of a frame -/

theorem chunkPayloadMax_pos : 0 < chunkPayloadMax := by decide

/-- Number of data chunks of a frame. -/
def chunkTotal (frame : Bytes) : Nat := (frame.length + chunkPayloadMax - 1) / chunkPayloadMax

/-- The frame, filled up with zeros to whole chunks. -/
def padded (frame : Bytes) : Bytes :=
  frame ++ List.replicate (chunkTotal frame * chunkPayloadMax - frame.length) 0

def dataChunks (frame : Bytes) : List Bytes := (padded frame).pieces chunkPayloadMax

/-- The parity chunk of a block of full chunks. -/
def parityOf (block : List Bytes) : Bytes :=
  Bytes.xorRows (List.replicate chunkPayloadMax 0) block

def parityChunks (blockSize : Nat) (frame : Bytes) : List Bytes :=
  ((dataChunks frame).pieces blockSize).map parityOf

section Frame

variable (frame : Bytes)

theorem length_le_chunkTotal : frame.length ≤ chunkTotal frame * chunkPayloadMax := by
  have covered := Nat.div_add_mod (frame.length + chunkPayloadMax - 1) chunkPayloadMax
  have rest := Nat.mod_lt (frame.length + chunkPayloadMax - 1) chunkPayloadMax_pos
  rw [chunkTotal, Nat.mul_comm]
  omega

/-- All chunks but the last are full. -/
theorem chunkTotal_le_length : chunkTotal frame * chunkPayloadMax ≤
    frame.length + chunkPayloadMax - 1 := Nat.div_mul_le_self _ _

theorem length_padded : (padded frame).length = chunkTotal frame * chunkPayloadMax := by
  have := length_le_chunkTotal frame
  simp only [padded, List.length_append, List.length_replicate]
  omega

theorem take_padded : (padded frame).take frame.length = frame := by
  simp [padded]

theorem length_dataChunks : (dataChunks frame).length = chunkTotal frame := by
  rw [dataChunks, List.length_pieces, length_padded, Nat.add_sub_assoc chunkPayloadMax_pos,
    Nat.mul_comm, Nat.mul_add_div chunkPayloadMax_pos, Nat.div_eq_of_lt, Nat.add_zero]
  exact Nat.sub_lt chunkPayloadMax_pos one_pos

theorem chunkTotal_pos {frame : Bytes} (nonempty : frame ≠ []) : 0 < chunkTotal frame := by
  have := List.length_pos_iff.mpr nonempty
  exact Nat.div_pos (by omega) chunkPayloadMax_pos

theorem flatten_dataChunks : (dataChunks frame).flatten = padded frame :=
  List.flatten_pieces chunkPayloadMax_pos _

theorem getElem?_dataChunks (i : Nat) : (dataChunks frame)[i]? =
    if i < chunkTotal frame then
      some (((padded frame).drop (i * chunkPayloadMax)).take chunkPayloadMax)
    else none := by
  rw [dataChunks, List.getElem?_pieces chunkPayloadMax_pos, length_padded]
  simp only [Nat.mul_lt_mul_right chunkPayloadMax_pos]

/-- All data chunks are full. -/
theorem length_of_mem_dataChunks {chunk : Bytes} (member : chunk ∈ dataChunks frame) :
    chunk.length = chunkPayloadMax := by
  obtain ⟨i, found⟩ := List.mem_iff_getElem?.mp member
  rw [getElem?_dataChunks] at found
  split at found
  case isTrue inside =>
    cases found
    have room : (i + 1) * chunkPayloadMax ≤ chunkTotal frame * chunkPayloadMax :=
      Nat.mul_le_mul_right _ inside
    rw [Nat.succ_mul] at room
    rw [List.length_take, List.length_drop, length_padded]
    omega
  case isFalse => cases found

end Frame

/-- Cutting a frame and padding the last chunk is padding the frame and cutting it. -/
theorem padLast_pieces {frame : Bytes} (nonempty : frame ≠ []) :
    padLast chunkPayloadMax (frame.pieces chunkPayloadMax) = dataChunks frame := by
  obtain ⟨last, total⟩ : ∃ last, chunkTotal frame = last + 1 :=
    Nat.exists_eq_succ_of_ne_zero (chunkTotal_pos nonempty).ne'
  have lower := length_le_chunkTotal frame
  have upper := chunkTotal_le_length frame
  rw [total, Nat.succ_mul] at lower upper
  have pos := chunkPayloadMax_pos
  have cut : frame.pieces chunkPayloadMax =
      ((List.range last).map fun i => (frame.drop (i * chunkPayloadMax)).take chunkPayloadMax) ++
        [frame.drop (last * chunkPayloadMax)] := by
    rw [List.pieces, ← chunkTotal, total, List.range_succ, List.map_append, List.map_singleton,
      List.take_of_length_le (by rw [List.length_drop]; omega)]
  have full (i : Nat) (inside : i < last) :
      ((padded frame).drop (i * chunkPayloadMax)).take chunkPayloadMax =
        (frame.drop (i * chunkPayloadMax)).take chunkPayloadMax := by
    have room : (i + 1) * chunkPayloadMax ≤ last * chunkPayloadMax := Nat.mul_le_mul_right _ inside
    rw [Nat.succ_mul] at room
    rw [padded, List.drop_append_of_le_length (by omega), List.take_append_of_le_length]
    rw [List.length_drop]
    omega
  have rest : ((padded frame).drop (last * chunkPayloadMax)).take chunkPayloadMax =
      frame.drop (last * chunkPayloadMax) ++
        List.replicate (chunkPayloadMax - (frame.length - last * chunkPayloadMax)) 0 := by
    rw [padded, List.drop_append_of_le_length (by omega), total, Nat.succ_mul,
      List.take_of_length_le]
    · congr 2
      omega
    · rw [List.length_append, List.length_drop, List.length_replicate]
      omega
  have padded_cut : dataChunks frame =
      ((List.range last).map fun i => (frame.drop (i * chunkPayloadMax)).take chunkPayloadMax) ++
        [frame.drop (last * chunkPayloadMax) ++
          List.replicate (chunkPayloadMax - (frame.length - last * chunkPayloadMax)) 0] := by
    rw [← List.take_of_length_le (l := dataChunks frame) (i := last + 1)
      (by rw [length_dataChunks, total])]
    apply List.ext_getElem?
    intro i
    rw [List.getElem?_take, getElem?_dataChunks, total]
    rcases Nat.lt_trichotomy i last with inside | rfl | outside
    · rw [if_pos (by omega), if_pos (by omega), List.getElem?_append_left (by simpa using inside)]
      simp [inside, full i inside]
    · rw [if_pos (by omega), if_pos (by omega), List.getElem?_append_right (by simp), rest]
      simp
    · rw [if_neg (by omega), List.getElem?_eq_none]
      simp
      omega
  rw [padLast, cut, padded_cut]
  simp only [List.getLast?_concat, List.dropLast_concat, List.length_drop]
  split
  · rfl
  · rw [show chunkPayloadMax - (frame.length - last * chunkPayloadMax) = 0 by omega]
    simp

theorem blockParity_full {block : List Bytes} (nonempty : block ≠ [])
    (full : ∀ chunk ∈ block, chunk.length = chunkPayloadMax) :
    blockParity block = some (parityOf block) := by
  have longest : (block.map List.length).max? = some chunkPayloadMax := by
    rw [List.map_congr_left full, List.map_const', List.max?_replicate_of_pos]
    exact List.length_pos_iff.mpr nonempty
  rw [blockParity, longest]
  exact Bytes.foldlM_xorInto (List.length_replicate ..) full

theorem chunkAndEncode_new (blockSize : Nat) {frame : Bytes} (nonempty : frame ≠ []) :
    (FrameChunker.new blockSize).chunkAndEncode frame =
      some (dataChunks frame, parityChunks (max blockSize 1) frame, frame.length) := by
  have blocks : ((dataChunks frame).pieces (max blockSize 1)).mapM blockParity =
      some (parityChunks (max blockSize 1) frame) := by
    refine List.mapM_eq_some_map fun block member => blockParity_full ?_ fun chunk inside => ?_
    · exact List.ne_nil_of_mem_pieces (by omega) member
    · exact length_of_mem_dataChunks frame (List.mem_of_mem_pieces member inside)
  have sized : max blockSize 1 ≠ 0 := by omega
  simp [FrameChunker.chunkAndEncode, FrameChunker.new, nonempty, chunksOf, sized,
    chunkPayloadMax_pos.ne', padLast_pieces nonempty, blocks]

end Qubox.Media
