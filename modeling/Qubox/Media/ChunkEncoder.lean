import Qubox.Media.Bounds
import Qubox.Media.FecReassembly

/-!
# The chunk encoder of a sender

A sender cuts its frames with one of two encoders. The one with XOR parity returns
at once on an empty frame. The one with Reed–Solomon parity cuts it into pieces of
its shard length, which is 0 then, and the check for an empty frame comes after
that.
-/

namespace Qubox.Media

variable {ε : Type} {library : ErasureLibrary ε}

inductive ChunkEncoder (library : ErasureLibrary ε) where
  | xor (chunker : FrameChunker)
  | reedSolomon (rs : ReedSolomonFec library)

namespace ChunkEncoder

/-- Data chunks, parity chunks and the length of the frame. The errors are those
that `MediaDatagramSendError::ReedSolomon` wraps. -/
def encode (encoder : ChunkEncoder library) (frame : Bytes) :
    Option (Except (ReedSolomonFecError ε) (List Bytes × List Bytes × Nat)) :=
  match encoder with
  | .xor chunker => (chunker.chunkAndEncode frame).map .ok
  | .reedSolomon rs => (rs.encode frame).map fun
      | .error e => .error e
      | .ok enc => .ok (enc.data, enc.parity, enc.originalLen)

/-- The encoder returns: on the empty frame without chunks or with an error, on
any other frame with data chunks that begin with the frame. -/
def Accepts (encoder : ChunkEncoder library) (frame : Bytes) : Prop :=
  if frame = [] then
    encoder.encode frame = some (.error .emptyFrame) ∨
      ∃ originalLen, encoder.encode frame = some (.ok ([], [], originalLen))
  else ∃ data parity originalLen,
    encoder.encode frame = some (.ok (data, parity, originalLen)) ∧
      data.flatten.take originalLen = frame

/-- No piece of size 0 is asked for. -/
def CutsApart (encoder : ChunkEncoder library) (frame : Bytes) : Prop :=
  match encoder with
  | .xor chunker => frame = [] ∨ (0 < chunker.maxChunkPayload ∧ 0 < chunker.blockSize)
  | .reedSolomon _ => frame ≠ []

/-- What is assumed of the library, where it is used. -/
def LibraryIsMds (encoder : ChunkEncoder library) : Prop :=
  match encoder with
  | .xor _ => True
  | .reedSolomon rs => 0 < rs.parityShards → Media.LibraryIsMds rs

end ChunkEncoder

/-! ## XOR parity -/

theorem flatten_padLast (max : Nat) (data : List Bytes) :
    ∃ zeros, (padLast max data).flatten = data.flatten ++ zeros := by
  rw [padLast]
  cases found : data.getLast? with
  | none => exact ⟨[], (List.append_nil _).symm⟩
  | some last =>
      have whole : data = data.dropLast ++ [last] :=
        (List.dropLast_append_getLast? last found).symm
      dsimp only
      split
      · refine ⟨List.replicate (max - last.length) 0, ?_⟩
        rw [whole, List.dropLast_concat]
        simp only [List.flatten_append, List.flatten_singleton, List.append_assoc]
      · exact ⟨[], (List.append_nil _).symm⟩

/-- The parity chunk is as long as the longest chunk. -/
theorem blockParity_isSome (block : List Bytes) : (blockParity block).isSome := by
  apply Bytes.foldlM_xorInto_isSome.mpr
  intro row member
  rw [List.length_replicate]
  exact List.le_max?_getD_of_mem (List.mem_map_of_mem member)

theorem exists_mapM_blockParity (blocks : List (List Bytes)) :
    ∃ parity, blocks.mapM blockParity = some parity :=
  ⟨_, List.mapM_eq_some_map fun block _ => (Option.some_get (blockParity_isSome block)).symm⟩

section Frame

variable {chunker : FrameChunker} {frame : Bytes}

theorem chunkAndEncode_spec (nonempty : frame ≠ []) (payload : 0 < chunker.maxChunkPayload)
    (block : 0 < chunker.blockSize) :
    ∃ data parity, chunker.chunkAndEncode frame = some (data, parity, frame.length) ∧
      data.flatten.take frame.length = frame := by
  obtain ⟨zeros, filled⟩ := flatten_padLast chunker.maxChunkPayload
    (frame.pieces chunker.maxChunkPayload)
  rw [List.flatten_pieces payload] at filled
  obtain ⟨parity, coded⟩ := exists_mapM_blockParity ((padLast chunker.maxChunkPayload
    (frame.pieces chunker.maxChunkPayload)).pieces chunker.blockSize)
  refine ⟨_, parity, ?_, by rw [filled, List.take_left]⟩
  have full : frame.isEmpty = false := List.isEmpty_eq_false_iff.mpr nonempty
  simp only [FrameChunker.chunkAndEncode, full, Bool.false_eq_true, if_false, chunksOf,
    payload.ne', block.ne', coded, Option.bind_eq_bind, Option.bind_some]
  rfl

/-- A chunk size or a block size of 0 is a panic. -/
theorem chunkAndEncode_eq_none (nonempty : frame ≠ [])
    (zero : chunker.maxChunkPayload = 0 ∨ chunker.blockSize = 0) :
    chunker.chunkAndEncode frame = none := by
  have full : frame.isEmpty = false := List.isEmpty_eq_false_iff.mpr nonempty
  simp only [FrameChunker.chunkAndEncode, full, Bool.false_eq_true, if_false, chunksOf]
  by_cases payload : chunker.maxChunkPayload = 0
  · simp only [payload, if_true, Option.bind_eq_bind, Option.bind_none]
  · have block := zero.resolve_left payload
    simp only [payload, block, if_true, if_false, Option.bind_eq_bind, Option.bind_some,
      Option.bind_none]

end Frame

namespace ChunkEncoder

theorem accepts_xor_iff (chunker : FrameChunker) (frame : Bytes) :
    (ChunkEncoder.xor chunker : ChunkEncoder library).Accepts frame ↔
      frame = [] ∨ (0 < chunker.maxChunkPayload ∧ 0 < chunker.blockSize) := by
  rw [Accepts, encode]
  split
  case isTrue empty =>
    subst empty
    exact iff_of_true (.inr ⟨0, rfl⟩) (.inl rfl)
  case isFalse nonempty =>
    constructor
    · rintro ⟨data, parity, originalLen, encoded, -⟩
      refine .inr ?_
      by_contra sizes
      rw [chunkAndEncode_eq_none nonempty (by omega)] at encoded
      cases encoded
    · intro sizes
      obtain ⟨payload, block⟩ := sizes.resolve_left nonempty
      obtain ⟨data, parity, encoded, whole⟩ := chunkAndEncode_spec nonempty payload block
      exact ⟨data, parity, frame.length, by rw [encoded, Option.map_some], whole⟩

theorem accepts_reedSolomon_iff (rs : ReedSolomonFec library)
    (mds : 0 < rs.parityShards → Media.LibraryIsMds rs) (frame : Bytes) :
    (ChunkEncoder.reedSolomon rs).Accepts frame ↔ frame ≠ [] := by
  rw [Accepts, encode]
  split
  case isTrue empty =>
    subst empty
    rw [encode_nil, Option.map_none]
    refine iff_of_false ?_ fun nonempty => nonempty rfl
    rintro (refused | ⟨originalLen, encoded⟩)
    · cases refused
    · cases encoded
  case isFalse nonempty =>
    refine iff_of_true ?_ nonempty
    by_cases zero : rs.parityShards = 0
    · rw [encode_of_no_parity zero nonempty, Option.map_some]
      refine ⟨_, _, _, rfl, ?_⟩
      rw [List.flatten_pieces (shardLenFor_pos nonempty), List.take_length]
    · have some := Nat.pos_of_ne_zero zero
      obtain ⟨parity, mds⟩ := mds some
      rw [encode_of_parity mds some nonempty, Option.map_some]
      exact ⟨_, _, _, rfl, take_flatten_laidOut nonempty parity⟩

/-- The encoder returns, with the frame in its data chunks, exactly when it asks
for no piece of size 0. -/
theorem accepts_iff_cutsApart (encoder : ChunkEncoder library) (mds : encoder.LibraryIsMds)
    (frame : Bytes) : encoder.Accepts frame ↔ encoder.CutsApart frame := by
  cases encoder with
  | xor chunker => exact accepts_xor_iff chunker frame
  | reedSolomon rs => exact accepts_reedSolomon_iff rs mds frame

theorem oneByte_accepts : (ChunkEncoder.reedSolomon Sample.twice).Accepts [7] := by
  apply (accepts_iff_cutsApart (.reedSolomon Sample.twice) (fun _ => twice_isMds) [7]).mpr
  exact List.cons_ne_nil 7 []

/-- Single shards without parity. -/
def plain : ReedSolomonFec Sample.copies where
  blockSize := 1
  parityShards := 0
  blockSize_pos := Nat.one_pos
  parityShards_le := Nat.zero_le maxParityShards
  total_le := by decide
  instantiated := fun pos => absurd pos (Nat.lt_irrefl 0)

theorem emptyFrame_not_accepts :
    ¬ ∀ (library : ErasureLibrary Unit) (encoder : ChunkEncoder library) (frame : Bytes),
      encoder.LibraryIsMds → encoder.Accepts frame := by
  intro always
  have accepted := always _ (.reedSolomon plain) [] fun pos => absurd pos (Nat.lt_irrefl 0)
  rw [Accepts, if_pos rfl, encode, encode_nil] at accepted
  rcases accepted with refused | ⟨originalLen, encoded⟩
  · cases refused
  · cases encoded

end ChunkEncoder

end Qubox.Media
