import Qubox.Media.Bounds

/-!
# Completeness of recovery

`recover_with_parity` repairs the first block it can among those it looks at, and
it looks at `maxBlocksChecked` blocks only. Within them nothing that can be
repaired is missed, so calling it until it fails restores every block that lost
at most one chunk. A block beyond them is never restored.
-/

namespace Qubox.Media

/-! ## Statement -/

/-- All chunks that are there and all parity chunks have this length. -/
structure Uniform (size : Nat) (chunks : List (Option Bytes)) (parity : List Bytes) : Prop where
  chunks : ∀ c, some c ∈ chunks → c.length = size
  parity : ∀ p ∈ parity, p.length = size

/-- One call succeeds exactly if some block can be repaired. It then repairs one
such block and touches nothing else, and a call that fails touches nothing. -/
structure CompleteCall (chunks : List (Option Bytes)) (parity : List Bytes) (blockSize : Nat) :
    Prop where
  total : (recoverWithParity chunks parity blockSize).isSome
  ok_iff : (∃ i after, recoverWithParity chunks parity blockSize = some (.ok i, after)) ↔
    ∃ k m p, Repairable chunks parity blockSize k m p
  ok : ∀ i after, recoverWithParity chunks parity blockSize = some (.ok i, after) →
    ∃ k m p, Repairable chunks parity blockSize k m p ∧ i = k * blockSize + m ∧
      after = chunks.set i (some (Bytes.xorRows p ((blockAt chunks blockSize k).filterMap id)))
  error : ∀ e after, recoverWithParity chunks parity blockSize = some (.error e, after) →
    after = chunks

/-- The chunks after at most this many calls, the last of which may fail. -/
def recoverRepeatedly (parity : List Bytes) (blockSize : Nat) :
    (calls : Nat) → List (Option Bytes) → Option (List (Option Bytes))
  | 0, chunks => some chunks
  | calls + 1, chunks => do
      match ← recoverWithParity chunks parity blockSize with
      | (.ok _, chunks) => recoverRepeatedly parity blockSize calls chunks
      | (.error _, chunks) => some chunks

/-- Number of chunks that a block has lost. -/
def lostIn (chunks : List (Option Bytes)) (blockSize k : Nat) : Nat :=
  (missingIn (blockAt chunks blockSize k)).length

/-- Enough calls bring back every block that lost at most one chunk. -/
def RestoresBlocks (data parity : List Bytes) (blockSize : Nat) (received : List (Option Bytes)) :
    Prop :=
  ∀ calls, received.length ≤ calls → ∃ restored,
    recoverRepeatedly parity blockSize calls received = some restored ∧
    ∀ k, lostIn received blockSize k ≤ 1 →
      blockAt restored blockSize k = ((data.drop (k * blockSize)).take blockSize).map some

/-! ## One call -/

section Call

variable {chunks : List (Option Bytes)} {parity : List Bytes} {blockSize : Nat}

theorem recoverFrom_of_none {remaining blockIdx : Nat}
    (none : ∀ k, blockIdx ≤ k → k < blockIdx + remaining → ¬ Repairs chunks parity blockSize k) :
    recoverFrom chunks parity blockSize remaining blockIdx =
      some (.error .notRecoverable, chunks) := by
  induction remaining generalizing blockIdx with
  | zero => rfl
  | succ remaining ih =>
      have other : ∀ m p, ¬ Repairable chunks parity blockSize blockIdx m p := by
        intro m p here
        exact none blockIdx le_rfl (by omega) (repairs_iff.mpr ⟨m, p, here⟩)
      rcases recoverFrom_skip remaining other with stops | skips
      · exact stops
      · rw [skips]
        exact ih fun k low high => none k (by omega) (by omega)

theorem Repairs.nonempty {k : Nat} (repairs : Repairs chunks parity blockSize k) :
    ¬ chunks.isEmpty := by
  intro empty
  have inside := repairs.1
  rw [List.isEmpty_iff.mp empty, List.length_nil] at inside
  omega

/-- A call repairs the first block it can among those it looks at. -/
theorem recoverWithParity_of_reach {k m : Nat} {p : Bytes}
    (repairable : Repairable chunks parity blockSize k m p) (reached : k < maxBlocksChecked)
    (first : ∀ k' < k, ¬ Repairs chunks parity blockSize k') :
    recoverWithParity chunks parity blockSize = repair chunks blockSize k m p := by
  rw [recoverWithParity, if_neg (repairs_iff.mpr ⟨m, p, repairable⟩).nonempty]
  exact recoverFrom_first repairable (Nat.zero_le _) (by omega) fun k' _ below => first k' below

theorem recoverWithParity_of_none
    (none : ∀ k < maxBlocksChecked, ¬ Repairs chunks parity blockSize k) :
    ∃ e, recoverWithParity chunks parity blockSize = some (.error e, chunks) := by
  rw [recoverWithParity]
  split
  · exact ⟨_, rfl⟩
  · exact ⟨_, recoverFrom_of_none fun k _ high => none k (by omega)⟩

/-- What a call does, by whether one of the blocks it looks at can be repaired. -/
theorem call_cases (chunks : List (Option Bytes)) (parity : List Bytes) (blockSize : Nat) :
    (∃ k m p, k < maxBlocksChecked ∧ Repairable chunks parity blockSize k m p ∧
        recoverWithParity chunks parity blockSize = repair chunks blockSize k m p) ∨
      (∀ k < maxBlocksChecked, ¬ Repairs chunks parity blockSize k) ∧
        ∃ e, recoverWithParity chunks parity blockSize = some (.error e, chunks) := by
  by_cases found : ∃ k, k < maxBlocksChecked ∧ Repairs chunks parity blockSize k
  · left
    have reached := (Nat.find_spec found).1
    obtain ⟨m, p, repairable⟩ := repairs_iff.mp (Nat.find_spec found).2
    refine ⟨Nat.find found, m, p, reached, repairable, ?_⟩
    apply recoverWithParity_of_reach repairable reached
    exact fun k' below repairs => Nat.find_min found below ⟨below.trans reached, repairs⟩
  · right
    have none : ∀ k < maxBlocksChecked, ¬ Repairs chunks parity blockSize k :=
      fun k reached repairs => found ⟨k, reached, repairs⟩
    exact ⟨none, recoverWithParity_of_none none⟩

theorem Uniform.completeCall_iff {size : Nat} (uniform : Uniform size chunks parity) :
    CompleteCall chunks parity blockSize ↔
      ((∃ k, Repairs chunks parity blockSize k) →
        ∃ k < maxBlocksChecked, Repairs chunks parity blockSize k) := by
  have some_block : (∃ k m p, Repairable chunks parity blockSize k m p) ↔
      ∃ k, Repairs chunks parity blockSize k := exists_congr fun k => repairs_iff.symm
  rcases call_cases chunks parity blockSize with
    ⟨k, m, p, reached, repairable, result⟩ | ⟨none, e, result⟩
  · rw [repair_sized uniform.chunks
      (uniform.parity p (List.mem_of_getElem? repairable.parity))] at result
    refine iff_of_true ?_ fun _ => ⟨k, reached, repairs_iff.mpr ⟨m, p, repairable⟩⟩
    refine ⟨by rw [result]; rfl, iff_of_true ⟨_, _, result⟩ ⟨k, m, p, repairable⟩, ?_, ?_⟩
    · intro i after ran
      rw [result] at ran
      cases ran
      exact ⟨k, m, p, repairable, rfl, rfl⟩
    · intro e after ran
      rw [result] at ran
      cases ran
  · have failed : ¬ ∃ i after, recoverWithParity chunks parity blockSize = some (.ok i, after) := by
      rintro ⟨i, after, ran⟩
      rw [result] at ran
      cases ran
    constructor
    · intro complete repairable
      exact absurd (complete.ok_iff.mpr (some_block.mpr repairable)) failed
    · intro reach
      have unrepairable : ¬ ∃ k, Repairs chunks parity blockSize k := by
        intro found
        obtain ⟨k, reached, repairs⟩ := reach found
        exact none k reached repairs
      refine ⟨by rw [result]; rfl, iff_of_false failed fun found => ?_, ?_, ?_⟩
      · exact unrepairable (some_block.mp found)
      · exact fun i after ran => absurd ⟨i, after, ran⟩ failed
      · intro e after ran
        rw [result] at ran
        cases ran
        rfl

end Call

/-! ## Chunks of a frame -/

theorem length_missingIn (block : List (Option Bytes)) :
    (missingIn block).length = block.countP Option.isNone := by
  induction block with
  | nil => rfl
  | cons c block ih =>
      rw [missingIn_cons, List.length_append, List.length_map, ih, List.countP_cons]
      cases c <;> simp [Nat.add_comm]

theorem length_of_mem_padLast {max : Nat} (pos : 0 < max) {frame chunk : Bytes}
    (member : chunk ∈ padLast max (frame.pieces max)) : chunk.length = max := by
  have piece {i : Nat} (inside : i < (frame.pieces max).length) :
      (frame.pieces max)[i] = (frame.drop (i * max)).take max := by
    have found := List.getElem?_pieces pos frame i
    rw [if_pos ((List.lt_length_pieces pos).mp inside), List.getElem?_eq_getElem inside] at found
    exact Option.some.inj found
  -- a piece with another one behind it is full
  have full {i : Nat} (inside : i < (frame.pieces max).length)
      (behind : i + 1 < (frame.pieces max).length) : (frame.pieces max)[i].length = max := by
    have next := (List.lt_length_pieces pos).mp behind
    rw [Nat.succ_mul] at next
    rw [piece, List.length_take, List.length_drop]
    omega
  have short {last : Bytes} (inside : last ∈ frame.pieces max) : last.length ≤ max := by
    obtain ⟨i, bound, rfl⟩ := List.mem_iff_getElem.mp inside
    rw [piece]
    exact List.length_take_le _ _
  rw [padLast] at member
  split at member
  case h_2 empty =>
    rw [List.getLast?_eq_none_iff.mp empty] at member
    cases member
  case h_1 last found =>
    -- the last piece, padded or not, and the pieces before it
    have before {chunk : Bytes} (inside : chunk ∈ (frame.pieces max).dropLast) :
        chunk.length = max := by
      obtain ⟨i, bound, rfl⟩ := List.mem_iff_getElem.mp inside
      rw [List.length_dropLast] at bound
      rw [List.getElem_dropLast]
      exact full (by omega) (by omega)
    have bounded := short (List.mem_of_getLast? found)
    have last_size : (last ++ List.replicate (max - last.length) 0).length = max := by
      rw [List.length_append, List.length_replicate]
      omega
    split at member
    case isTrue =>
      rcases List.mem_append.mp member with early | final
      · exact before early
      · rw [List.mem_singleton.mp final, last_size]
    case isFalse whole =>
      rw [← List.dropLast_append_getLast? last found] at member
      rcases List.mem_append.mp member with early | final
      · exact before early
      · rw [List.mem_singleton.mp final]
        omega

theorem blockParity_sized {size : Nat} {block : List Bytes} (nonempty : block ≠ [])
    (sized : ∀ chunk ∈ block, chunk.length = size) :
    blockParity block = some (Bytes.xorRows (List.replicate size 0) block) := by
  have longest : (block.map List.length).max? = some size := by
    rw [List.map_congr_left sized, List.map_const', List.max?_replicate_of_pos]
    exact List.length_pos_iff.mpr nonempty
  rw [blockParity, longest]
  exact Bytes.foldlM_xorInto (List.length_replicate ..) sized

/-- The chunks of one size, and the parity of every block at its index. -/
structure Encoded (size blockSize : Nat) (data parity : List Bytes) : Prop where
  sized : ∀ d ∈ data, d.length = size
  parity_sized : ∀ p ∈ parity, p.length = size
  parity : ∀ k, k * blockSize < data.length → parity[k]? =
    some (Bytes.xorRows (List.replicate size 0) ((data.drop (k * blockSize)).take blockSize))

theorem encoded_of_chunkAndEncode {chunker : FrameChunker} {frame : Bytes}
    {data parity : List Bytes} {length : Nat}
    (made : chunker.chunkAndEncode frame = some (data, parity, length)) :
    Encoded chunker.maxChunkPayload chunker.blockSize data parity := by
  rw [FrameChunker.chunkAndEncode] at made
  split at made
  case isTrue =>
    cases made
    exact ⟨List.forall_mem_nil _, List.forall_mem_nil _,
      fun k inside => absurd inside (Nat.not_lt_zero _)⟩
  case isFalse =>
    simp only [chunksOf, Option.bind_eq_bind] at made
    split at made
    case isTrue => cases made
    case isFalse payload =>
      rw [Option.bind_some] at made
      split at made
      case isTrue => cases made
      case isFalse block =>
        have payload := Nat.pos_of_ne_zero payload
        have block := Nat.pos_of_ne_zero block
        rw [Option.bind_some] at made
        have sized : ∀ d ∈ padLast chunker.maxChunkPayload (frame.pieces chunker.maxChunkPayload),
            d.length = chunker.maxChunkPayload := fun d => length_of_mem_padLast payload
        rw [List.mapM_eq_some_map fun piece member => blockParity_sized
          (List.ne_nil_of_mem_pieces block member)
          fun chunk inside => sized chunk (List.mem_of_mem_pieces member inside)] at made
        cases made
        refine ⟨sized, fun p member => ?_, fun k inside => ?_⟩
        · obtain ⟨piece, inside, rfl⟩ := List.mem_map.mp member
          exact Bytes.length_xorRows (List.length_replicate ..)
            fun chunk within => sized chunk (List.mem_of_mem_pieces inside within)
        · rw [List.getElem?_map, List.getElem?_pieces block, if_pos inside]
          rfl

/-! ## Repeated calls -/

section Blocks

variable {chunks before after : List (Option Bytes)} {parity : List Bytes} {blockSize : Nat}

theorem getElem?_blockAt (chunks : List (Option Bytes)) (blockSize k j : Nat) :
    (blockAt chunks blockSize k)[j]? =
      if j < blockSize then chunks[k * blockSize + j]? else none := by
  rw [blockAt, List.getElem?_take, List.getElem?_drop]

/-- The place of the missing chunk. -/
theorem Repairable.place {k m : Nat} {p : Bytes}
    (repairable : Repairable chunks parity blockSize k m p) :
    m < blockSize ∧ chunks[k * blockSize + m]? = some none := by
  obtain ⟨rows, rest, block, rfl⟩ := missingIn_eq_singleton.mp repairable.missing
  have found : (blockAt chunks blockSize k)[rows.length]? = some none := by
    rw [block, List.getElem?_append_right (by simp)]
    simp
  rw [getElem?_blockAt] at found
  split at found
  case isTrue inside => exact ⟨inside, found⟩
  case isFalse => cases found

theorem blockAt_set_of_ne {k k' m : Nat} (inside : m < blockSize) (other : k' ≠ k)
    (c : Option Bytes) :
    blockAt (chunks.set (k * blockSize + m) c) blockSize k' = blockAt chunks blockSize k' := by
  apply List.ext_getElem?
  intro j
  rw [getElem?_blockAt, getElem?_blockAt]
  split
  case isTrue within =>
    rw [List.getElem?_set_ne]
    intro same
    rcases Nat.lt_or_gt_of_ne other with below | above
    · have := Nat.mul_le_mul_right blockSize (Nat.succ_le_of_lt below)
      rw [Nat.succ_mul] at this
      omega
    · have := Nat.mul_le_mul_right blockSize (Nat.succ_le_of_lt above)
      rw [Nat.succ_mul] at this
      omega
  case isFalse => rfl

/-- What is missing afterwards was missing before. -/
def Extends (before after : List (Option Bytes)) : Prop :=
  List.Forall₂ (fun c c' => c'.isNone → c.isNone) before after

theorem Extends.refl (chunks : List (Option Bytes)) : Extends chunks chunks :=
  List.forall₂_same.mpr fun _ _ => id

theorem Extends.of_set {i : Nat} {c : Bytes} (extends_set : Extends (chunks.set i (some c)) after) :
    Extends chunks after := by
  induction chunks generalizing i after with
  | nil => exact extends_set
  | cons first chunks ih =>
      cases i with
      | zero =>
          obtain ⟨d, rest, filled, tail, rfl⟩ := List.forall₂_cons_left_iff.mp extends_set
          exact .cons (fun none => absurd (filled none) Bool.false_ne_true) tail
      | succ i =>
          obtain ⟨d, rest, kept, tail, rfl⟩ := List.forall₂_cons_left_iff.mp extends_set
          exact .cons kept (ih tail)

theorem Extends.lostIn_le (kept : Extends before after) (blockSize k : Nat) :
    lostIn after blockSize k ≤ lostIn before blockSize k := by
  have block : Extends (blockAt before blockSize k) (blockAt after blockSize k) :=
    List.forall₂_take _ (List.forall₂_drop _ kept)
  rw [lostIn, lostIn, length_missingIn, length_missingIn]
  generalize blockAt before blockSize k = old, blockAt after blockSize k = new at block ⊢
  induction block with
  | nil => exact le_rfl
  | @cons c c' before after head tail ih =>
      rw [List.countP_cons, List.countP_cons]
      split
      case isTrue none =>
        rw [if_pos (head none)]
        exact Nat.add_le_add_right ih 1
      case isFalse => exact Nat.le_add_right_of_le ih

/-- A block that has lost nothing is the block of the frame. -/
theorem Agrees.block_eq {data : List Bytes} (agrees : Agrees data chunks) {k : Nat}
    (whole : lostIn chunks blockSize k = 0) :
    blockAt chunks blockSize k = ((data.drop (k * blockSize)).take blockSize).map some := by
  have block : Agrees ((data.drop (k * blockSize)).take blockSize) (blockAt chunks blockSize k) :=
    List.forall₂_take _ (List.forall₂_drop _ agrees)
  apply block.eq_data
  intro c member
  rw [lostIn, length_missingIn, List.countP_eq_zero] at whole
  have := whole c member
  cases c with
  | none => exact absurd rfl this
  | some b => rfl

end Blocks

section Frame

variable {size blockSize : Nat} {data parity : List Bytes} {chunks : List (Option Bytes)}

theorem Encoded.lt_length (encoded : Encoded size blockSize data parity) {k : Nat}
    (inside : k * blockSize < data.length) : k < parity.length :=
  (List.getElem?_eq_some_iff.mp (encoded.parity k inside)).1

theorem Encoded.repairs_iff (encoded : Encoded size blockSize data parity)
    (agrees : Agrees data chunks) {k : Nat} :
    Repairs chunks parity blockSize k ↔ lostIn chunks blockSize k = 1 := by
  refine ⟨fun repairs => repairs.2.1, fun one => ?_⟩
  have inside : k * blockSize < chunks.length := by
    by_contra outside
    have empty : blockAt chunks blockSize k = [] := by
      rw [blockAt, List.drop_eq_nil_of_le (not_lt.mp outside), List.take_nil]
    rw [lostIn, empty] at one
    cases one
  exact ⟨inside, one, encoded.lt_length (agrees.length_eq ▸ inside)⟩

/-- What calling until nothing is missing, or until a call fails, has done. -/
structure Settled (data parity : List Bytes) (blockSize : Nat)
    (received restored : List (Option Bytes)) : Prop where
  agrees : Agrees data restored
  kept : Extends received restored
  none : ∀ k < maxBlocksChecked, lostIn restored blockSize k ≠ 1
  beyond : ∀ k, maxBlocksChecked ≤ k → blockAt restored blockSize k = blockAt received blockSize k

theorem Encoded.settles (encoded : Encoded size blockSize data parity) {calls : Nat}
    (agrees : Agrees data chunks) (enough : chunks.countP Option.isNone ≤ calls) :
    ∃ restored, recoverRepeatedly parity blockSize calls chunks = some restored ∧
      Settled data parity blockSize chunks restored := by
  induction calls generalizing chunks with
  | zero =>
      refine ⟨chunks, rfl, agrees, .refl _, fun k _ one => ?_, fun _ _ => rfl⟩
      have inside : (missingIn (blockAt chunks blockSize k)).length ≤
          chunks.countP Option.isNone := by
        rw [length_missingIn]
        exact ((List.take_sublist _ _).trans (List.drop_sublist _ _)).countP_le
      rw [lostIn] at one
      omega
  | succ calls ih =>
      rcases call_cases chunks parity blockSize with
        ⟨k, m, p, reached, repairable, result⟩ | ⟨none, e, result⟩
      · have own := encoded.parity k (agrees.length_eq ▸ repairable.inside)
        obtain ⟨d, found, repaired⟩ := agrees.repair_sized encoded.sized repairable
          (Option.some.inj (repairable.parity.symm.trans own))
        obtain ⟨within, missing⟩ := repairable.place
        have bound : k * blockSize + m < chunks.length := (List.getElem?_eq_some_iff.mp missing).1
        have fewer : (chunks.set (k * blockSize + m) (some d)).countP Option.isNone ≤ calls := by
          have lost : chunks[k * blockSize + m].isNone = true := by
            rw [List.getElem?_eq_getElem bound] at missing
            rw [Option.some.inj missing]
            rfl
          rw [List.countP_set bound, lost]
          simp only [if_true, Option.isNone_some, Bool.false_eq_true, if_false]
          omega
        obtain ⟨restored, ran, settled⟩ := ih (agrees.set found) fewer
        refine ⟨restored, ?_, settled.agrees, settled.kept.of_set, settled.none, ?_⟩
        · rw [recoverRepeatedly, result, repaired]
          exact ran
        · intro k' beyond
          rw [settled.beyond k' beyond, blockAt_set_of_ne within (by omega)]
      · refine ⟨chunks, ?_, agrees, .refl _, fun k reached one => ?_, fun _ _ => rfl⟩
        · rw [recoverRepeatedly, result]
          rfl
        · exact none k reached ((encoded.repairs_iff agrees).mpr one)

theorem Encoded.restoresBlocks_iff (encoded : Encoded size blockSize data parity)
    {received : List (Option Bytes)} (agrees : Agrees data received) :
    RestoresBlocks data parity blockSize received ↔
      ∀ k, lostIn received blockSize k = 1 → k < maxBlocksChecked := by
  have settles {calls : Nat} (enough : received.length ≤ calls) :=
    encoded.settles agrees (List.countP_le_length.trans enough)
  constructor
  · intro restores k one
    by_contra beyond
    obtain ⟨restored, ran, blocks⟩ := restores received.length le_rfl
    obtain ⟨restored', ran', settled⟩ := settles (le_refl received.length)
    obtain rfl : restored = restored' := Option.some.inj (ran.symm.trans ran')
    have whole := blocks k one.le
    rw [settled.beyond k (not_lt.mp beyond)] at whole
    rw [lostIn, whole, length_missingIn, List.countP_map] at one
    have zero : ((data.drop (k * blockSize)).take blockSize).countP
        (Option.isNone ∘ some) = 0 := List.countP_eq_zero.mpr fun _ _ => Bool.false_ne_true
    omega
  · intro reach calls enough
    obtain ⟨restored, ran, settled⟩ := settles enough
    refine ⟨restored, ran, fun k few => settled.agrees.block_eq ?_⟩
    have fewer := settled.kept.lostIn_le blockSize k
    by_cases one : lostIn received blockSize k = 1
    · have := settled.none k (reach k one)
      omega
    · omega

end Frame

/-- Recovery is complete for one call exactly when a block within reach can be
repaired if any can, and for repeated calls exactly when every block that lost
one chunk is within reach. -/
theorem recovery_complete_iff (chunks : List (Option Bytes)) (parity : List Bytes) :
    (∀ size blockSize, Uniform size chunks parity →
      (CompleteCall chunks parity blockSize ↔
        ((∃ k, Repairs chunks parity blockSize k) →
          ∃ k < maxBlocksChecked, Repairs chunks parity blockSize k))) ∧
    ∀ (chunker : FrameChunker) frame data length,
      chunker.chunkAndEncode frame = some (data, parity, length) → Agrees data chunks →
        (RestoresBlocks data parity chunker.blockSize chunks ↔
          ∀ k, lostIn chunks chunker.blockSize k = 1 → k < maxBlocksChecked) := by
  refine ⟨fun size blockSize uniform => uniform.completeCall_iff, ?_⟩
  intro chunker frame data length made agrees
  exact (encoded_of_chunkAndEncode made).restoresBlocks_iff agrees

namespace Sample

/-- One of two chunks is lost, and the frame they were cut from is restored. -/
theorem twoChunks_complete :
    CompleteCall [some [1], none] [[3]] 2 ∧
      RestoresBlocks [[1], [2]] [[3]] 2 [some [1], none] := by
  obtain ⟨call, blocks⟩ := recovery_complete_iff [some [1], none] [[3]]
  constructor
  · refine (call 1 2 ⟨?_, by decide⟩).mpr fun _ => ⟨0, by decide, by decide⟩
    intro c member
    simp only [List.mem_cons, Option.some.injEq, reduceCtorEq, List.not_mem_nil, or_false] at member
    rw [member]
    rfl
  · refine (blocks ⟨2, 1⟩ [1, 2] [[1], [2]] 2 (by decide) (.cons ?_ (.cons ?_ .nil))).mpr
      fun k one => ?_
    · exact fun b same => (Option.some.inj same).symm
    · exact fun b same => absurd same (Option.some_ne_none b).symm
    · by_contra far
      rw [lostIn, blockAt, List.drop_eq_nil_of_le] at one
      · cases one
      · rw [maxBlocksChecked] at far
        simp only [List.length_cons, List.length_nil]
        omega

/-- Blocks of one chunk, of which the last one is lost. -/
def farChunks : List (Option Bytes) := List.replicate 1025 (some [0]) ++ [none]

def farParity : List Bytes := List.replicate 1026 [0]

theorem lostIn_farChunks {k : Nat} (near : k < 1025) : lostIn farChunks 1 k = 0 := by
  obtain ⟨rest, more⟩ : ∃ rest, 1025 - k = rest + 1 := ⟨1024 - k, by omega⟩
  have block : blockAt farChunks 1 k = [some [0]] := by
    rw [blockAt, farChunks, Nat.mul_one, List.drop_append_of_le_length, List.drop_replicate, more,
      List.replicate_succ]
    · rfl
    · rw [List.length_replicate]
      omega
  rw [lostIn, block]
  rfl

/-- The parity of block 1025 has come and only its one chunk is missing, and the
call does not find it. -/
theorem farBlock_not_complete :
    Uniform 1 farChunks farParity ∧ ¬ CompleteCall farChunks farParity 1 := by
  have uniform : Uniform 1 farChunks farParity := by
    constructor
    · intro c member
      rcases List.mem_append.mp member with early | last
      · rw [Option.some.inj (List.eq_of_mem_replicate early)]
        rfl
      · cases List.mem_singleton.mp last
    · intro p member
      rw [List.eq_of_mem_replicate member]
      rfl
  refine ⟨uniform, fun complete => ?_⟩
  have far : Repairs farChunks farParity 1 1025 := by decide +kernel
  obtain ⟨k, near, repairs⟩ := uniform.completeCall_iff.mp complete ⟨1025, far⟩
  have none := repairs.2.1
  rw [← lostIn, lostIn_farChunks near] at none
  cases none

end Sample

end Qubox.Media
