import Qubox.Library.Checked
import Qubox.Library.History
import Qubox.Media.JitterBuffer

/-!
# Indices in the jitter buffer

Headers and payloads come from the network, with any numbers and any lengths.
Here every slice and every index of the buffer's code is an access that can fail.
The checked functions agree with the model wherever the model has a result; the
only access that fails is the exclusive or of a stored chunk into a shorter
parity chunk.
-/

namespace Bytes

theorem xorInto_isSome {acc row : Bytes} :
    (xorInto acc row).isSome ↔ row.length ≤ acc.length := by
  induction row generalizing acc with
  | nil => exact iff_of_true (by rw [xorInto, Option.isSome_some]) (Nat.zero_le _)
  | cons b row ih =>
      cases acc with
      | nil => exact iff_of_false Bool.false_ne_true (Nat.not_succ_le_zero _)
      | cons a acc =>
          rw [xorInto, Option.isSome_map, ih, List.length_cons, List.length_cons,
            Nat.add_le_add_iff_right]

theorem length_xorInto {acc row out : Bytes} (ran : xorInto acc row = some out) :
    out.length = acc.length := by
  induction row generalizing acc out with
  | nil =>
      rw [xorInto] at ran
      rw [Option.some.inj ran]
  | cons b row ih =>
      cases acc with
      | nil => cases ran
      | cons a acc =>
          rw [xorInto] at ran
          obtain ⟨rest, tail, rfl⟩ := Option.map_eq_some_iff.mp ran
          rw [List.length_cons, List.length_cons, ih tail]

/-- The accumulator keeps its length, so every row has to fit into it. -/
theorem foldlM_xorInto_isSome {acc : Bytes} {rows : List Bytes} :
    (rows.foldlM xorInto acc).isSome ↔ ∀ row ∈ rows, row.length ≤ acc.length := by
  induction rows generalizing acc with
  | nil => exact iff_of_true rfl fun _ member => absurd member List.not_mem_nil
  | cons row rows ih =>
      rw [List.foldlM_cons, List.forall_mem_cons, ← xorInto_isSome]
      cases ran : xorInto acc row with
      | none => exact iff_of_false nofun fun both => absurd both.1 nofun
      | some out =>
          rw [Option.bind_eq_bind, Option.bind_some, ih, length_xorInto ran]
          exact ⟨fun all => ⟨rfl, all⟩, fun both => both.2⟩

end Bytes

namespace Qubox.Media

/-! ## Checked versions -/

/-- `PendingFrame.accept` with the indices of `push_chunk` as the source writes them. -/
def PendingFrame.acceptChecked (frame : PendingFrame) (header : MediaDatagramHeader)
    (payload : Bytes) (parity : Bool) : Option PendingFrame :=
  let store (frame : PendingFrame) (chunk : Bytes) : Option PendingFrame := do
    let chunks ← frame.chunks.store? header.chunkId.toNat (some chunk)
    return { frame with chunks }
  if parity then some { frame with parity := frame.parity ++ [payload] }
  else if header.flags &&& flagLastChunk ≠ 0 then
    if payload.length < originalLenTrailer then store frame payload
    else do
      let split := payload.length - originalLenTrailer
      let body ← payload.slice? 0 split
      let trail ← payload.slice? split payload.length
      let b₀ ← trail[0]?
      let b₁ ← trail[1]?
      let b₂ ← trail[2]?
      let b₃ ← trail[3]?
      store { frame with originalLen := some (Bytes.toNatBE [b₀, b₁, b₂, b₃]) } body
  else store frame payload

theorem PendingFrame.acceptChecked_eq {frame : PendingFrame} {header : MediaDatagramHeader}
    (inside : header.chunkId.toNat < frame.chunks.length) (payload : Bytes) (parity : Bool) :
    frame.acceptChecked header payload parity = some (frame.accept header payload parity) := by
  rw [acceptChecked, accept]
  cases parity with
  | true => rfl
  | false =>
      simp only [Bool.false_eq_true, if_false, List.store?_eq inside]
      by_cases last : header.flags &&& flagLastChunk ≠ 0
      · by_cases short : payload.length < originalLenTrailer
        · rw [if_pos last, if_pos short, if_neg fun both => absurd short (Nat.not_lt.mpr both.2)]
          rfl
        · have long : originalLenTrailer ≤ payload.length := Nat.not_lt.mp short
          rw [if_pos last, if_neg short, if_pos ⟨last, long⟩]
          have four : (payload.drop (payload.length - originalLenTrailer)).length = 4 := by
            rw [List.length_drop, originalLenTrailer]
            rw [originalLenTrailer] at long
            omega
          obtain ⟨b₀, b₁, b₂, b₃, trail⟩ := List.length_eq_four.mp four
          have taken : payload.length - (payload.length - originalLenTrailer) = 4 := by
            rw [originalLenTrailer] at long ⊢
            omega
          simp only [List.slice?_eq (Nat.zero_le _) (Nat.sub_le payload.length originalLenTrailer),
            List.slice?_eq (Nat.sub_le payload.length originalLenTrailer) le_rfl, taken, trail]
          rfl
      · rw [if_neg last, if_neg fun both => last both.1]
        rfl

/-- `recoverFrom` with the indices of `recover_with_parity` as the source writes them. -/
def recoverFromChecked (chunks : List (Option Bytes)) (parity : List Bytes) (blockSize : Nat) :
    (remaining blockIdx : Nat) → Option (Except RecoveryError Nat × List (Option Bytes))
  | 0, _ => some (.error .notRecoverable, chunks)
  | remaining + 1, blockIdx =>
      if blockIdx * blockSize < chunks.length then do
        let blockEnd := min (blockIdx * blockSize + blockSize) chunks.length
        let block ← chunks.slice? (blockIdx * blockSize) blockEnd
        match missingIn block, parity[blockIdx]? with
        | [missingLocal], some p => do
            let recovered ← (block.filterMap id).foldlM Bytes.xorInto p
            let index := blockIdx * blockSize + missingLocal
            let chunks ← chunks.store? index (some recovered)
            return (.ok index, chunks)
        | _, _ => recoverFromChecked chunks parity blockSize remaining (blockIdx + 1)
      else some (.error .notRecoverable, chunks)

def recoverWithParityChecked (chunks : List (Option Bytes)) (parity : List Bytes)
    (blockSize : Nat) : Option (Except RecoveryError Nat × List (Option Bytes)) :=
  if chunks.isEmpty then some (.error .noChunks, chunks)
  else recoverFromChecked chunks parity blockSize maxBlocksChecked 0

section Recovery

variable {chunks : List (Option Bytes)} {parity : List Bytes} {blockSize : Nat}

theorem slice?_block {blockIdx : Nat} (inside : blockIdx * blockSize < chunks.length) :
    chunks.slice? (blockIdx * blockSize) (min (blockIdx * blockSize + blockSize) chunks.length) =
      some (blockAt chunks blockSize blockIdx) := by
  rw [List.slice?_eq (by omega) (Nat.min_le_right _ _), blockAt]
  by_cases whole : blockIdx * blockSize + blockSize ≤ chunks.length
  · rw [Nat.min_eq_left whole, Nat.add_sub_cancel_left]
  · rw [Nat.min_eq_right (by omega), ← List.length_drop, List.take_length,
      List.take_of_length_le (by rw [List.length_drop]; omega)]

/-- The missing chunk of a block has its place among the chunks. -/
theorem missing_lt {blockIdx m : Nat}
    (missing : missingIn (blockAt chunks blockSize blockIdx) = [m]) :
    blockIdx * blockSize + m < chunks.length := by
  obtain ⟨before, after, block, rfl⟩ := missingIn_eq_singleton.mp missing
  have inside : before.length < (blockAt chunks blockSize blockIdx).length := by
    rw [block, List.length_append, List.length_map, List.length_cons]
    omega
  rw [blockAt, List.length_take, List.length_drop] at inside
  omega

theorem recoverFromChecked_eq (remaining blockIdx : Nat) :
    recoverFromChecked chunks parity blockSize remaining blockIdx =
      recoverFrom chunks parity blockSize remaining blockIdx := by
  induction remaining generalizing blockIdx with
  | zero => rfl
  | succ remaining ih =>
      rw [recoverFromChecked, recoverFrom]
      split
      case isFalse => rfl
      case isTrue inside =>
        simp only [slice?_block inside, Option.bind_eq_bind, Option.bind_some]
        rcases missing : missingIn (blockAt chunks blockSize blockIdx) with _ | ⟨m, _ | ⟨m', more⟩⟩
        · exact ih (blockIdx + 1)
        · cases found : parity[blockIdx]? with
          | none => exact ih (blockIdx + 1)
          | some p => simp only [List.store?_eq (missing_lt missing), Option.bind_some]
        · exact ih (blockIdx + 1)

theorem recoverWithParityChecked_eq :
    recoverWithParityChecked chunks parity blockSize =
      recoverWithParity chunks parity blockSize := by
  rw [recoverWithParityChecked, recoverWithParity, recoverFromChecked_eq]

end Recovery

namespace JitterBuffer

def pushChunkChecked (buffer : JitterBuffer) (header : MediaDatagramHeader) (payload : Bytes)
    (parity : Bool) (now : Nat) : Option JitterBuffer :=
  let frame := buffer.frameFor header now
  if frame.chunks.length ≤ header.chunkId.toNat then
    some { buffer with frames := buffer.frames.insert header.frameId frame }
  else do
    let frame ← frame.acceptChecked header payload parity
    let stored := { buffer with
      frames := buffer.frames.insert header.frameId frame
      stats := { buffer.stats with chunksReceived := buffer.stats.chunksReceived + 1 } }
    return dropOldest stored.frames.size (stored.noteArrival now)

/-- The recovery of every frame, one after another, stays in bounds. -/
def tryFecRecoveryChecked (buffer : JitterBuffer) (now blockSize : Nat) :
    Option (Nat × JitterBuffer) :=
  if buffer.frames.toList.all (fun e =>
      (recoverWithParityChecked e.2.chunks e.2.parity (max blockSize 1)).isSome) then
    buffer.tryFecRecovery now blockSize
  else none

theorem pushChunkChecked_eq (buffer : JitterBuffer) (header : MediaDatagramHeader)
    (payload : Bytes) (parity : Bool) (now : Nat) :
    buffer.pushChunkChecked header payload parity now =
      some (buffer.pushChunk header payload parity now) := by
  rw [pushChunkChecked, pushChunk]
  by_cases out : (buffer.frameFor header now).chunks.length ≤ header.chunkId.toNat
  · simp only [if_pos out]
    rw [frameFor] at out ⊢
    rw [if_pos out]
  · simp only [if_neg out, PendingFrame.acceptChecked_eq (Nat.not_le.mp out)]
    rw [frameFor] at out ⊢
    rw [if_neg out]
    rfl

theorem recoverFrame_isSome (blockSize : Nat) (frame : PendingFrame) :
    (recoverFrame blockSize frame).isSome =
      (recoverWithParityChecked frame.chunks frame.parity (max blockSize 1)).isSome := by
  rw [recoverFrame, Option.isSome_map, recoverWithParityChecked_eq]

theorem tryFecRecoveryChecked_isSome (buffer : JitterBuffer) (now blockSize : Nat) :
    (buffer.tryFecRecoveryChecked now blockSize).isSome ↔ ∀ e ∈ buffer.frames.toList,
      (recoverWithParity e.2.chunks e.2.parity (max blockSize 1)).isSome := by
  simp only [tryFecRecoveryChecked, tryFecRecovery, recoverFrame_isSome,
    recoverWithParityChecked_eq, List.all_eq_true]
  split
  case isTrue all => exact iff_of_true rfl all
  case isFalse some => exact iff_of_false Bool.false_ne_true some

end JitterBuffer

/-! ## When recovery stays in bounds -/

/-- The block lacks one chunk and has a parity chunk. -/
def Repairs (chunks : List (Option Bytes)) (parity : List Bytes) (blockSize k : Nat) : Prop :=
  k * blockSize < chunks.length ∧ (missingIn (blockAt chunks blockSize k)).length = 1 ∧
    k < parity.length

/-- In the block that `recover_with_parity` repairs, if it finds one, no chunk is
longer than the parity chunk. -/
def Fits (chunks : List (Option Bytes)) (parity : List Bytes) (blockSize : Nat) : Prop :=
  ∀ k < maxBlocksChecked, Repairs chunks parity blockSize k →
    (∀ k' < k, ¬ Repairs chunks parity blockSize k') →
      ∀ c ∈ (blockAt chunks blockSize k).filterMap id, c.length ≤ (parity.getD k []).length

instance (chunks : List (Option Bytes)) (parity : List Bytes) (blockSize k : Nat) :
    Decidable (Repairs chunks parity blockSize k) :=
  inferInstanceAs (Decidable (_ ∧ _))

instance (chunks : List (Option Bytes)) (parity : List Bytes) (blockSize : Nat) :
    Decidable (Fits chunks parity blockSize) :=
  Nat.decidableBallLT _ _

section Fits

variable {chunks : List (Option Bytes)} {parity : List Bytes} {blockSize : Nat}

theorem repairs_iff {k : Nat} :
    Repairs chunks parity blockSize k ↔ ∃ m p, Repairable chunks parity blockSize k m p := by
  constructor
  · rintro ⟨inside, one, enough⟩
    obtain ⟨m, missing⟩ := List.length_eq_one_iff.mp one
    exact ⟨m, parity[k], inside, missing, List.getElem?_eq_getElem enough⟩
  · rintro ⟨m, p, inside, missing, found⟩
    exact ⟨inside, by rw [missing, List.length_singleton], (List.getElem?_eq_some_iff.mp found).1⟩

/-- The loop repairs the first block it reaches that it can. -/
theorem recoverFrom_first {remaining blockIdx k m : Nat} {p : Bytes}
    (repairable : Repairable chunks parity blockSize k m p) (low : blockIdx ≤ k)
    (high : k < blockIdx + remaining)
    (first : ∀ k', blockIdx ≤ k' → k' < k → ¬ Repairs chunks parity blockSize k') :
    recoverFrom chunks parity blockSize remaining blockIdx = repair chunks blockSize k m p := by
  induction remaining generalizing blockIdx with
  | zero => omega
  | succ remaining ih =>
      rcases Nat.eq_or_lt_of_le low with rfl | above
      · exact recoverFrom_repair repairable
      · have other : ∀ m' p', ¬ Repairable chunks parity blockSize blockIdx m' p' := by
          intro m' p' here
          exact first blockIdx le_rfl above (repairs_iff.mpr ⟨m', p', here⟩)
        have earlier : blockIdx * blockSize < chunks.length :=
          Nat.lt_of_le_of_lt (Nat.mul_le_mul_right _ low) repairable.inside
        rw [recoverFrom, if_pos earlier]
        dsimp only
        split
        case h_1 m' p' missing found => exact absurd ⟨earlier, missing, found⟩ (other m' p')
        case h_2 =>
          exact ih above (by omega) fun k' from' below => first k' (by omega) below

theorem repair_isSome {k m : Nat} {p : Bytes} :
    (repair chunks blockSize k m p).isSome ↔
      ∀ c ∈ (blockAt chunks blockSize k).filterMap id, c.length ≤ p.length := by
  rw [repair, Option.isSome_map, Bytes.foldlM_xorInto_isSome]

theorem recoverFrom_isSome_of_none {remaining blockIdx : Nat}
    (none : ∀ k, blockIdx ≤ k → k < blockIdx + remaining → ¬ Repairs chunks parity blockSize k) :
    (recoverFrom chunks parity blockSize remaining blockIdx).isSome := by
  induction remaining generalizing blockIdx with
  | zero => rfl
  | succ remaining ih =>
      have other : ∀ m p, ¬ Repairable chunks parity blockSize blockIdx m p := by
        intro m p here
        exact none blockIdx le_rfl (by omega) (repairs_iff.mpr ⟨m, p, here⟩)
      rcases recoverFrom_skip remaining other with stops | skips
      · rw [stops]
        rfl
      · rw [skips]
        exact ih fun k low high => none k (by omega) (by omega)

theorem recoverWithParity_isSome :
    (recoverWithParity chunks parity blockSize).isSome ↔ Fits chunks parity blockSize := by
  by_cases empty : chunks.isEmpty
  · rw [recoverWithParity, if_pos empty]
    refine iff_of_true rfl fun k _ repairs => ?_
    have := repairs.1
    rw [List.isEmpty_iff.mp empty, List.length_nil] at this
    omega
  rw [recoverWithParity, if_neg empty]
  have repaired {k m : Nat} {p : Bytes} (repairable : Repairable chunks parity blockSize k m p)
      (low : k < maxBlocksChecked) (first : ∀ k' < k, ¬ Repairs chunks parity blockSize k') :
      (recoverFrom chunks parity blockSize maxBlocksChecked 0).isSome ↔
        ∀ c ∈ (blockAt chunks blockSize k).filterMap id, c.length ≤ p.length := by
    rw [recoverFrom_first repairable (Nat.zero_le _) (by omega) fun k' _ below => first k' below,
      repair_isSome]
  have parity_at {k m : Nat} {p : Bytes} (repairable : Repairable chunks parity blockSize k m p) :
      parity.getD k [] = p := by
    rw [List.getD_eq_getElem?_getD, repairable.parity, Option.getD_some]
  constructor
  · intro ran k low repairs first
    obtain ⟨m, p, repairable⟩ := repairs_iff.mp repairs
    rw [parity_at repairable]
    exact (repaired repairable low first).mp ran
  · intro fits
    by_cases found : ∃ k, k < maxBlocksChecked ∧ Repairs chunks parity blockSize k
    · classical
      obtain ⟨low, repairs⟩ := Nat.find_spec found
      have first : ∀ k' < Nat.find found, ¬ Repairs chunks parity blockSize k' :=
        fun k' below repairs' => Nat.find_min found below ⟨below.trans low, repairs'⟩
      obtain ⟨m, p, repairable⟩ := repairs_iff.mp repairs
      rw [repaired repairable low first, ← parity_at repairable]
      exact fits _ low repairs first
    · refine recoverFrom_isSome_of_none fun k _ high repairs => found ⟨k, ?_, repairs⟩
      omega

end Fits

/-! ## Whole runs -/

/-- A call on the buffer, with whatever header and payload. -/
inductive BufferCall where
  | pushChunk (header : MediaDatagramHeader) (payload : Bytes) (parity : Bool) (now : Nat)
  | tryFecRecovery (now blockSize : Nat)
  | popReady (now : Nat) (wallClock : UInt32 → Nat)
  | popDeadlinePassed (now : Nat)

namespace JitterBuffer

/-- The buffer after a call; nothing if an index is out of bounds. The two
operations that take frames out index nothing. -/
def call (buffer : JitterBuffer) : BufferCall → Option JitterBuffer
  | .pushChunk header payload parity now => buffer.pushChunkChecked header payload parity now
  | .tryFecRecovery now blockSize => (buffer.tryFecRecoveryChecked now blockSize).map Prod.snd
  | .popReady now wallClock => some (buffer.popReady now wallClock).2
  | .popDeadlinePassed now => some (buffer.popDeadlinePassed now).2

/-- Recovery is called only while the block it repairs in each frame fits its
parity chunk. -/
def Guarded (buffer : JitterBuffer) : BufferCall → Prop
  | .tryFecRecovery _ blockSize =>
      ∀ e ∈ buffer.frames.toList, Fits e.2.chunks e.2.parity (max blockSize 1)
  | _ => True

instance (buffer : JitterBuffer) : ∀ call, Decidable (buffer.Guarded call)
  | .tryFecRecovery _ _ => inferInstanceAs (Decidable (∀ e ∈ buffer.frames.toList, _))
  | .pushChunk .. | .popReady .. | .popDeadlinePassed .. => isTrue trivial

theorem call_isSome_iff (buffer : JitterBuffer) (c : BufferCall) :
    (buffer.call c).isSome ↔ buffer.Guarded c := by
  cases c with
  | pushChunk header payload parity now =>
      rw [call, pushChunkChecked_eq]
      exact iff_of_true rfl trivial
  | tryFecRecovery now blockSize =>
      rw [call, Option.isSome_map, tryFecRecoveryChecked_isSome, Guarded]
      exact forall₂_congr fun e _ => recoverWithParity_isSome
  | popReady now wallClock | popDeadlinePassed now => exact iff_of_true rfl trivial

theorem inBounds_iff_guarded (buffer : JitterBuffer) (calls : List BufferCall) :
    (calls.foldlM call buffer).isSome ↔ List.Permitted call Guarded buffer calls :=
  List.foldlM_isSome_iff call_isSome_iff buffer calls

end JitterBuffer

namespace Sample

/-- A header for a chunk of frame 7, which has two. -/
def ofTwo (chunkId : UInt16) : MediaDatagramHeader where
  streamId := 0
  frameId := 7
  chunkId
  chunkCount := 2
  codec := 0
  flags := 0

/-- A data chunk of two bytes, and a parity chunk of one. -/
def shortParity : List BufferCall :=
  [.pushChunk (ofTwo 0) [1, 2] false 0, .pushChunk (ofTwo 0) [3] true 1, .tryFecRecovery 2 2]

end Sample

theorem shortParity_out_of_bounds :
    ¬ ∀ (targetDelay maxInflight : Nat) (calls : List BufferCall),
      (calls.foldlM JitterBuffer.call (.new targetDelay maxInflight)).isSome := by
  intro always
  have stuck := always 5 1 Sample.shortParity
  revert stuck
  decide

end Qubox.Media
