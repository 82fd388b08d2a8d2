import Qubox.Media.FecReassembly

/-!
# Shards that are lost and restored

`encode` and `reconstruct` are inverse as long as no block loses more shards than
it has parity shards: whichever shards these are, they come back as the encoder
made them, and the data shards begin with the frame.
-/

namespace Qubox.Media

variable {ε : Type} {library : ErasureLibrary ε} {rs : ReedSolomonFec library}

/-- The library writes parity shards over shards of the size of the data. -/
def SizedParity (k : Nat) (parity : List Bytes → List Bytes) : Prop :=
  ∀ size data, IsRow k size data → ∀ shard ∈ parity data, shard.length = size

/-- What is assumed of the library, with the size of its parity shards. -/
def LibraryIsSizedMds (rs : ReedSolomonFec library) : Prop :=
  ∃ parityOf, SizedParity rs.blockSize parityOf ∧
    ∀ code, library rs.blockSize rs.parityShards = .ok code →
      Mds code rs.blockSize rs.parityShards parityOf

/-- The shards that a block has lost. -/
def erasedIn (rs : ReedSolomonFec library) (data parity : List (Option Bytes)) (b : Nat) : Nat :=
  (pieceAt data rs.blockSize b).countP Option.isNone +
    (pieceAt parity rs.parityShards b).countP Option.isNone

/-- The frame is encoded in shards of one size, and from what is left of them all
shards are restored, if no block loses more than its number of parity shards. -/
def RestoresErased (rs : ReedSolomonFec library) (frame : Bytes) : Prop :=
  ∃ enc, rs.encode frame = some (.ok enc) ∧
    (∀ shard ∈ enc.data ++ enc.parity, shard.length = enc.shardLen) ∧
    enc.data.flatten.take enc.originalLen = frame ∧
    ∀ data parity, Known enc data parity →
      (∀ b < enc.data.length / rs.blockSize, erasedIn rs data parity b ≤ rs.parityShards) →
      ∃ recovered, rs.reconstruct data parity =
        some (.ok (recovered, enc.data.map some, enc.parity.map some))

theorem countP_isSome_add_isNone {α : Type} (l : List (Option α)) :
    l.countP Option.isSome + l.countP Option.isNone = l.length := by
  have split := l.length_eq_countP_add_countP Option.isSome
  have other : (l.countP fun o => decide ¬ o.isSome = true) = l.countP Option.isNone := by
    refine List.countP_congr fun o _ => ?_
    cases o <;> simp
  rw [other] at split
  exact split.symm

section Frame

variable {parityOf : List Bytes → List Bytes} {blocks : Nat} {enc : EncodedFrame} {frame : Bytes}
  {data parity : List (Option Bytes)}

/-- A block has `k + m` shards, each there or lost. -/
theorem Known.presentIn_add_erasedIn (coded : Coded rs parityOf blocks enc)
    (known : Known enc data parity) {b : Nat} (low : b < blocks) :
    presentIn rs data parity b + erasedIn rs data parity b = rs.blockSize + rs.parityShards := by
  have dataTotal := known.data.length_eq.trans coded.data_length
  have parityTotal := known.parity.length_eq.trans coded.parity_length
  have ofData := countP_isSome_add_isNone (pieceAt data rs.blockSize b)
  have ofParity := countP_isSome_add_isNone (pieceAt parity rs.parityShards b)
  rw [length_pieceAt dataTotal low] at ofData
  rw [length_pieceAt parityTotal low] at ofParity
  rw [presentIn, blockShards_eq low dataTotal parityTotal, List.countP_append, erasedIn]
  omega

theorem length_of_mem_laidOut (sized : SizedParity rs.blockSize parityOf) (nonempty : frame ≠ []) :
    ∀ shard ∈ (laidOut rs parityOf frame).data ++ (laidOut rs parityOf frame).parity,
      shard.length = rs.shardLenFor frame.length := by
  intro shard member
  rcases List.mem_append.mp member with ofData | ofParity
  · rcases List.mem_append.mp ofData with chunk | zeros
    · exact length_of_mem_frameChunks chunk
    · rw [List.eq_of_mem_replicate zeros, List.length_replicate]
  · obtain ⟨b, inside, row⟩ := List.mem_flatMap.mp ofParity
    apply sized _ _ _ shard row
    exact isRow_blockRows (shardLenFor_pos nonempty) (fun _ => length_of_mem_frameChunks)
      (List.mem_range.mp inside)

end Frame

/-- Whichever shards a frame loses, up to the number of parity shards in each
block, `reconstruct` restores them. -/
theorem restoresErased (rs : ReedSolomonFec library) (mds : LibraryIsSizedMds rs)
    (some : 0 < rs.parityShards) {frame : Bytes} (nonempty : frame ≠ []) :
    RestoresErased rs frame := by
  obtain ⟨parityOf, sized, mds⟩ := mds
  obtain ⟨code, made⟩ := rs.instantiated some
  have coded := coded_laidOut (mds code made) nonempty
  refine ⟨laidOut rs parityOf frame, encode_of_parity mds some nonempty,
    length_of_mem_laidOut sized nonempty, take_flatten_laidOut nonempty parityOf, ?_⟩
  intro data parity known few
  rw [coded.data_length, Nat.mul_div_cancel _ rs.blockSize_pos] at few
  apply known.reconstruct_of_enough coded mds some
  intro b low
  have total := known.presentIn_add_erasedIn coded low
  have lost := few b low
  omega

theorem twice_isSizedMds : LibraryIsSizedMds Sample.twice := by
  refine ⟨fun data => data, fun size data row => row.sizes, fun code made => ?_⟩
  cases made
  exact repetition_mds

/-- A frame of one byte whose data shard is lost. -/
theorem twice_restoresErased :
    RestoresErased Sample.twice [7] ∧
      Sample.twice.reconstruct [none] [some (7 :: List.replicate 15 0)] =
        some (.ok (1, [some (7 :: List.replicate 15 0)], [some (7 :: List.replicate 15 0)])) :=
  ⟨restoresErased Sample.twice twice_isSizedMds (by decide) (by decide), rfl⟩

end Qubox.Media
