import Qubox.Library.Checked
import Qubox.Media.Recovery

/-!
# Reed–Solomon shards

`ReedSolomonFec` cuts a frame into blocks of data shards and adds parity shards
to every block. The arithmetic is that of an external library, which stays a
parameter: what the library does with one block is an `ErasureCode`, and `Mds`
says what its documentation promises.

As elsewhere, no result stands for a panic.
-/

namespace Qubox.Media

/-- One instance of the library's `ReedSolomon`: the code of a block. -/
structure ErasureCode (ε : Type) where
  encode : List Bytes → Except ε (List Bytes)
  reconstruct : List (Option Bytes) → Except ε (List (Option Bytes))

/-- `ReedSolomon::new` with the numbers of data and parity shards. -/
abbrev ErasureLibrary (ε : Type) := Nat → Nat → Except ε (ErasureCode ε)

inductive ReedSolomonFecError (ε : Type) where
  | zeroBlockSize
  | tooManyParity (count : Nat)
  | blockTooLarge (count : Nat)
  | emptyFrame
  | library (error : ε)
  deriving DecidableEq, Repr

def maxParityShards : Nat := 4

/-- The counts are private to the source's module, so that every value has passed
the checks of `new`. -/
structure ReedSolomonFec {ε : Type} (library : ErasureLibrary ε) where
  blockSize : Nat
  parityShards : Nat
  blockSize_pos : 0 < blockSize
  parityShards_le : parityShards ≤ maxParityShards
  total_le : blockSize + parityShards ≤ 255
  instantiated : 0 < parityShards → ∃ code, library blockSize parityShards = .ok code

structure EncodedFrame where
  data : List Bytes
  parity : List Bytes
  shardLen : Nat
  originalLen : Nat
  deriving DecidableEq, Repr

namespace ReedSolomonFec

variable {ε : Type} {library : ErasureLibrary ε}

def new (library : ErasureLibrary ε) (blockSize parityShards : Nat) :
    Except (ReedSolomonFecError ε) (ReedSolomonFec library) :=
  if zero : blockSize = 0 then .error .zeroBlockSize
  else if many : maxParityShards < parityShards then .error (.tooManyParity parityShards)
  else if large : 255 < blockSize + parityShards then
    .error (.blockTooLarge (blockSize + parityShards))
  else if some : 0 < parityShards then
    match made : library blockSize parityShards with
    | .error e => .error (.library e)
    | .ok code => .ok ⟨blockSize, parityShards, Nat.pos_of_ne_zero zero, Nat.le_of_not_lt many,
        Nat.le_of_not_lt large, fun _ => ⟨code, made⟩⟩
  else .ok ⟨blockSize, parityShards, Nat.pos_of_ne_zero zero, Nat.le_of_not_lt many,
    Nat.le_of_not_lt large, fun pos => absurd pos some⟩

def targetChunkBytes : Nat := 1200

def shardLenFor (rs : ReedSolomonFec library) (frameLen : Nat) : Nat :=
  if frameLen = 0 then 0
  else
    let neededChunks := (frameLen + targetChunkBytes - 1) / targetChunkBytes
    let totalChunks := max neededChunks rs.blockSize
    let shardLen := (frameLen + totalChunks - 1) / totalChunks
    (shardLen + 15) / 16 * 16

/-- The data shards of a block, filled up with zero shards. -/
def blockRows (rs : ReedSolomonFec library) (frameChunks : List Bytes) (shardLen blockIdx : Nat) :
    List Bytes :=
  let lo := blockIdx * rs.blockSize
  let hi := min (lo + rs.blockSize) frameChunks.length
  (frameChunks.drop lo).take (hi - lo) ++
    List.replicate (lo + rs.blockSize - hi) (List.replicate shardLen 0)

def encode (rs : ReedSolomonFec library) (frame : Bytes) :
    Option (Except (ReedSolomonFecError ε) EncodedFrame) := do
  let shardLen := rs.shardLenFor frame.length
  let pieces ← chunksOf shardLen frame
  if rs.parityShards = 0 then
    return .ok { data := pieces, parity := [], shardLen, originalLen := frame.length }
  else
    let frameChunks := pieces.map fun c => c ++ List.replicate (shardLen - c.length) 0
    if frameChunks.isEmpty then return .error .emptyFrame
    else
      let blocks := (frameChunks.length + rs.blockSize - 1) / rs.blockSize
      -- the zero shards behind the rows are where the library writes the parity
      let laidOut := (List.range blocks).map fun b =>
        rs.blockRows frameChunks shardLen b ++
          List.replicate rs.parityShards (List.replicate shardLen 0)
      match library rs.blockSize rs.parityShards with
      | .error _ => none
      | .ok code =>
          match laidOut.mapM code.encode with
          | .error e => return .error (.library e)
          | .ok coded =>
              let data := coded.flatMap fun block => block.take rs.blockSize
              let parity := coded.flatMap fun block =>
                (block.drop rs.blockSize).take rs.parityShards
              return .ok { data, parity, shardLen, originalLen := frame.length }

/-! ## Reconstruction -/

/-- Fill up with missing shards. -/
def padTo (count : Nat) (shards : List (Option Bytes)) : List (Option Bytes) :=
  shards ++ List.replicate (count - shards.length) none

/-- Copy the shards that `target` lacks, from position `place` on, and count them. -/
def writeBack (place : Nat) : List (Option Bytes) → List (Option Bytes) →
    Option (List (Option Bytes) × Nat)
  | [], target => some (target, 0)
  | shard :: shards, target => do
      let slot ← target[place]?
      if slot.isNone && shard.isSome then
        let target ← target.store? place shard
        let (target, recovered) ← writeBack (place + 1) shards target
        return (target, recovered + 1)
      else writeBack (place + 1) shards target

/-- The data and parity shards with what they lack of a rebuilt block, and how
much that is. -/
def storeBlock (rs : ReedSolomonFec library) (data parity : List (Option Bytes)) (blockIdx : Nat)
    (shards : List (Option Bytes)) :
    Option (List (Option Bytes) × List (Option Bytes) × Nat) := do
  let dLo := blockIdx * rs.blockSize
  let dHi := min (dLo + rs.blockSize) data.length
  let pLo := blockIdx * rs.parityShards
  let pHi := min (pLo + rs.parityShards) parity.length
  let (data, ofData) ← writeBack dLo (shards.take (dHi - dLo)) data
  let (parity, ofParity) ← writeBack pLo ((shards.drop rs.blockSize).take (pHi - pLo)) parity
  return (data, parity, ofData + ofParity)

/-- One round of the loop of `reconstruct`. -/
def reconstructBlock (rs : ReedSolomonFec library) (code : ErasureCode ε)
    (data parity : List (Option Bytes)) (blockIdx : Nat) :
    Option (Except ε (List (Option Bytes) × List (Option Bytes) × Nat)) := do
  let dLo := blockIdx * rs.blockSize
  let dHi := min (dLo + rs.blockSize) data.length
  let pLo := blockIdx * rs.parityShards
  let pHi := min (pLo + rs.parityShards) parity.length
  let dataShards ← data.slice? dLo dHi
  let parityShards ← parity.slice? pLo pHi
  let shards := padTo (rs.blockSize + rs.parityShards)
    (padTo rs.blockSize dataShards ++ parityShards)
  match code.reconstruct shards with
  | .error e => return .error e
  | .ok shards => return .ok (← rs.storeBlock data parity blockIdx shards)

/-- The loop over the remaining blocks. An error leaves the shards in the hands
of the caller, which drops them. -/
def reconstructFrom (rs : ReedSolomonFec library) (code : ErasureCode ε) :
    (remaining blockIdx : Nat) → (data parity : List (Option Bytes)) → (recovered : Nat) →
      Option (Except ε (Nat × List (Option Bytes) × List (Option Bytes)))
  | 0, _, data, parity, recovered => some (.ok (recovered, data, parity))
  | remaining + 1, blockIdx, data, parity, recovered => do
      match ← rs.reconstructBlock code data parity blockIdx with
      | .error e => return .error e
      | .ok (data, parity, more) =>
          reconstructFrom rs code remaining (blockIdx + 1) data parity (recovered + more)

def reconstruct (rs : ReedSolomonFec library) (data parity : List (Option Bytes)) :
    Option (Except (ReedSolomonFecError ε) (Nat × List (Option Bytes) × List (Option Bytes))) :=
  if rs.parityShards = 0 then some (.ok (0, data, parity))
  else if data.isEmpty then some (.error .emptyFrame)
  else
    let blocks := (data.length + rs.blockSize - 1) / rs.blockSize
    match library rs.blockSize rs.parityShards with
    | .error _ => none
    | .ok code => (rs.reconstructFrom code blocks 0 data parity 0).map fun
        | .error e => .error (.library e)
        | .ok result => .ok result

/-! ## The length of shards -/

section Sizing

variable (rs : ReedSolomonFec library)

/-- `total_chunks`. -/
def totalChunks (frameLen : Nat) : Nat :=
  max ((frameLen + targetChunkBytes - 1) / targetChunkBytes) rs.blockSize

theorem totalChunks_pos (frameLen : Nat) : 0 < rs.totalChunks frameLen :=
  Nat.lt_of_lt_of_le rs.blockSize_pos (Nat.le_max_right _ _)

theorem shardLenFor_eq {frameLen : Nat} (pos : 0 < frameLen) :
    rs.shardLenFor frameLen =
      ((frameLen + rs.totalChunks frameLen - 1) / rs.totalChunks frameLen + 15) / 16 * 16 :=
  if_neg pos.ne'

/-- Rounding up to a multiple of 16 does not pass a multiple of 16. -/
theorem roundUp_le {len bound : Nat} (aligned : 16 ∣ bound) (fits : len ≤ bound) :
    (len + 15) / 16 * 16 ≤ bound := by
  obtain ⟨units, rfl⟩ := aligned
  omega

/-- `total_chunks` shards of the target size hold the frame. -/
theorem length_le_target (frameLen : Nat) :
    frameLen ≤ rs.totalChunks frameLen * targetChunkBytes := by
  have needed : (frameLen + targetChunkBytes - 1) / targetChunkBytes ≤ rs.totalChunks frameLen :=
    Nat.le_max_left _ _
  have scaled := Nat.mul_le_mul_right targetChunkBytes needed
  unfold targetChunkBytes at scaled ⊢
  omega

/-- `total_chunks` shards of the length that is chosen hold the frame. -/
theorem length_le_shards {frameLen : Nat} (pos : 0 < frameLen) :
    frameLen ≤ rs.totalChunks frameLen * rs.shardLenFor frameLen := by
  have chunks := rs.totalChunks_pos frameLen
  rw [rs.shardLenFor_eq pos]
  generalize rs.totalChunks frameLen = total at chunks ⊢
  have divided := Nat.div_add_mod (frameLen + total - 1) total
  have rest := Nat.mod_lt (frameLen + total - 1) chunks
  have rounded : (frameLen + total - 1) / total ≤
      ((frameLen + total - 1) / total + 15) / 16 * 16 := by omega
  have scaled := Nat.mul_le_mul_left total rounded
  omega

/-- A frame is cut into shards that fit the datagrams and the SIMD kernels, and
into no more of them than `total_chunks`. The sums of the source stay in `usize`,
since a slice has fewer than 2^63 bytes. -/
structure SizesShards (frame : Bytes) : Prop where
  positive : 0 < rs.shardLenFor frame.length
  aligned : 16 ∣ rs.shardLenFor frame.length
  fits : rs.shardLenFor frame.length ≤ 1200
  few : (frame.pieces (rs.shardLenFor frame.length)).length ≤
    max ((frame.length + 1199) / 1200) rs.blockSize
  covers : (frame.pieces (rs.shardLenFor frame.length)).flatten = frame
  exact : frame.length < 2 ^ 63 → frame.length + targetChunkBytes - 1 < 2 ^ 64 ∧
    frame.length + rs.totalChunks frame.length - 1 < 2 ^ 64

theorem sizesShards {frame : Bytes} (nonempty : 0 < frame.length) : rs.SizesShards frame := by
  have chunks := rs.totalChunks_pos frame.length
  have sized := rs.shardLenFor_eq nonempty
  have target := rs.length_le_target frame.length
  have held := rs.length_le_shards nonempty
  have positive : 0 < rs.shardLenFor frame.length := by
    apply Nat.pos_of_ne_zero
    intro zero
    rw [zero] at held
    omega
  refine ⟨positive, ?_, ?_, ?_, List.flatten_pieces positive frame, ?_⟩
  · rw [sized]
    exact Nat.dvd_mul_left _ _
  · rw [sized]
    apply roundUp_le (by decide)
    apply (Nat.div_le_iff_le_mul_add_pred chunks).mpr
    unfold targetChunkBytes at target
    omega
  · have same : max ((frame.length + 1199) / 1200) rs.blockSize = rs.totalChunks frame.length := rfl
    rw [List.length_pieces, same]
    apply (Nat.div_le_iff_le_mul_add_pred positive).mpr
    rw [Nat.mul_comm]
    omega
  · intro slice
    have block := rs.total_le
    have needed : rs.totalChunks frame.length ≤ frame.length / 1200 + 255 := by
      apply Nat.max_le.mpr
      unfold targetChunkBytes
      omega
    unfold targetChunkBytes
    omega

/-- Blocks of ten shards without parity. -/
def tenPlain : ReedSolomonFec (fun _ _ => .error () : ErasureLibrary Unit) :=
  ⟨10, 0, by decide, by decide, by decide, fun some => absurd some (Nat.lt_irrefl 0)⟩

theorem tenPlain_sizesShards :
    tenPlain.shardLenFor 12001 = 1104 ∧ tenPlain.SizesShards (List.replicate 12001 7) :=
  ⟨by decide, tenPlain.sizesShards (by rw [List.length_replicate]; decide)⟩

end Sizing

/-! ## Indices -/

section Bounds

variable (rs : ReedSolomonFec library) (code : ErasureCode ε)

/-- The shards of a block as the library sees them. -/
def blockShards (data parity : List (Option Bytes)) (blockIdx : Nat) : List (Option Bytes) :=
  padTo (rs.blockSize + rs.parityShards)
    (padTo rs.blockSize ((data.drop (blockIdx * rs.blockSize)).take rs.blockSize) ++
      (parity.drop (blockIdx * rs.parityShards)).take rs.parityShards)

theorem slice?_min {α : Type} {l : List α} {start : Nat} (count : Nat) (inside : start ≤ l.length) :
    l.slice? start (min (start + count) l.length) = some ((l.drop start).take count) := by
  rw [List.slice?_eq (by omega) (Nat.min_le_right _ _)]
  by_cases whole : start + count ≤ l.length
  · rw [Nat.min_eq_left whole, Nat.add_sub_cancel_left]
  · rw [Nat.min_eq_right (by omega), ← List.length_drop, List.take_length,
      List.take_of_length_le (by rw [List.length_drop]; omega)]

/-- Shards that are copied to places that exist change no length, and nothing
behind these places. -/
theorem writeBack_spec {place : Nat} {shards target : List (Option Bytes)}
    (inside : place + shards.length ≤ target.length) :
    ∃ out recovered, writeBack place shards target = some (out, recovered) ∧
      out.length = target.length ∧
      ∀ n, place + shards.length ≤ n → out.drop n = target.drop n := by
  induction shards generalizing place target with
  | nil => exact ⟨target, 0, rfl, rfl, fun _ _ => rfl⟩
  | cons shard shards ih =>
      rw [List.length_cons] at inside
      have here : place < target.length := by omega
      rw [writeBack, List.getElem?_eq_getElem here]
      dsimp only [Option.bind_eq_bind, Option.bind_some]
      split
      · obtain ⟨out, recovered, ran, same, behind⟩ := @ih (place + 1) (target.set place shard) (by
          rw [List.length_set]
          omega)
        rw [List.store?_eq here, Option.bind_some, ran]
        refine ⟨out, recovered + 1, rfl, by rw [same, List.length_set], fun n after => ?_⟩
        rw [List.length_cons] at after
        rw [behind n (by omega), List.drop_set_of_lt (by omega)]
      · obtain ⟨out, recovered, ran, same, behind⟩ := @ih (place + 1) target (by omega)
        refine ⟨out, recovered, ran, same, fun n after => ?_⟩
        rw [List.length_cons] at after
        exact behind n (by omega)

/-- The library refuses the shards of a block. -/
def Refused (data parity : List (Option Bytes)) (blockIdx : Nat) : Prop :=
  ∃ e, code.reconstruct (rs.blockShards data parity blockIdx) = .error e

/-- A block whose parity shards would start behind the last one is out of bounds. -/
theorem reconstructBlock_eq_none {data parity : List (Option Bytes)} {blockIdx : Nat}
    (out : parity.length < blockIdx * rs.parityShards) :
    rs.reconstructBlock code data parity blockIdx = none := by
  have stuck : parity.slice? (blockIdx * rs.parityShards)
      (min (blockIdx * rs.parityShards + rs.parityShards) parity.length) = none :=
    if_neg (by omega)
  simp only [reconstructBlock, stuck, Option.bind_eq_bind, Option.bind_none, Option.bind_fun_none]

theorem reconstructBlock_eq {data parity : List (Option Bytes)} {blockIdx : Nat}
    (dataInside : blockIdx * rs.blockSize ≤ data.length)
    (parityInside : blockIdx * rs.parityShards ≤ parity.length) :
    rs.reconstructBlock code data parity blockIdx =
      match code.reconstruct (rs.blockShards data parity blockIdx) with
      | .error e => some (.error e)
      | .ok shards => (rs.storeBlock data parity blockIdx shards).map .ok := by
  rw [reconstructBlock, slice?_min _ dataInside, slice?_min _ parityInside]
  dsimp only [Option.bind_eq_bind, Option.bind_some]
  rw [blockShards]
  split
  · rfl
  · rw [Option.map_eq_bind]
    rfl

/-- Storing a block stays in bounds and leaves the blocks behind it alone. -/
theorem storeBlock_spec {data parity : List (Option Bytes)} {blockIdx : Nat}
    (dataInside : blockIdx * rs.blockSize ≤ data.length)
    (parityInside : blockIdx * rs.parityShards ≤ parity.length) (shards : List (Option Bytes)) :
    ∃ data' parity' recovered,
      rs.storeBlock data parity blockIdx shards = some (data', parity', recovered) ∧
      data'.length = data.length ∧ parity'.length = parity.length ∧
      ∀ later, blockIdx < later →
        rs.blockShards data' parity' later = rs.blockShards data parity later := by
  obtain ⟨data', ofData, ranData, sameData, behindData⟩ := @writeBack_spec
    (blockIdx * rs.blockSize)
    (shards.take (min (blockIdx * rs.blockSize + rs.blockSize) data.length -
      blockIdx * rs.blockSize)) data (by rw [List.length_take]; omega)
  obtain ⟨parity', ofParity, ranParity, sameParity, behindParity⟩ := @writeBack_spec
    (blockIdx * rs.parityShards) ((shards.drop rs.blockSize).take
      (min (blockIdx * rs.parityShards + rs.parityShards) parity.length -
        blockIdx * rs.parityShards)) parity (by rw [List.length_take]; omega)
  refine ⟨data', parity', ofData + ofParity, ?_, sameData, sameParity, fun later after => ?_⟩
  · simp only [storeBlock, ranData, ranParity, Option.bind_eq_bind, Option.bind_some]
    rfl
  · have next (size : Nat) : blockIdx * size + size ≤ later * size := by
      rw [← Nat.succ_mul]
      exact Nat.mul_le_mul_right size after
    have ofData := next rs.blockSize
    have ofParity := next rs.parityShards
    rw [blockShards, blockShards, behindData _ (by rw [List.length_take]; omega),
      behindParity _ (by rw [List.length_take]; omega)]

/-- The loop stays in bounds exactly when the library refuses a block before it
comes to one whose parity shards would start behind the last one. -/
theorem reconstructFrom_isSome (remaining blockIdx : Nat) (data parity : List (Option Bytes))
    (recovered : Nat) (inside : ∀ b < blockIdx + remaining, b * rs.blockSize ≤ data.length) :
    (rs.reconstructFrom code remaining blockIdx data parity recovered).isSome ↔
      ∀ b, blockIdx ≤ b → b < blockIdx + remaining → parity.length < b * rs.parityShards →
        ∃ b', blockIdx ≤ b' ∧ b' < b ∧ rs.Refused code data parity b' := by
  induction remaining generalizing blockIdx data parity recovered with
  | zero => exact iff_of_true rfl fun b low high => by omega
  | succ remaining ih =>
      rw [reconstructFrom]
      by_cases out : parity.length < blockIdx * rs.parityShards
      · rw [reconstructBlock_eq_none rs code out]
        refine iff_of_false nofun fun covered => ?_
        obtain ⟨b', low, high, -⟩ := covered blockIdx le_rfl (by omega) out
        omega
      · have dataInside := inside blockIdx (by omega)
        rw [reconstructBlock_eq rs code dataInside (Nat.not_lt.mp out)]
        cases rebuilt : code.reconstruct (rs.blockShards data parity blockIdx) with
        | error e =>
            refine iff_of_true rfl fun b low high late => ?_
            have differ : blockIdx ≠ b := fun same => out (same ▸ late)
            exact ⟨blockIdx, le_rfl, by omega, e, rebuilt⟩
        | ok shards =>
            obtain ⟨data', parity', more, stored, sameData, sameParity, behind⟩ :=
              rs.storeBlock_spec dataInside (Nat.not_lt.mp out) shards
            simp only [stored, Option.map_some, Option.bind_eq_bind, Option.bind_some]
            rw [ih _ _ _ _ (by rw [sameData]; exact fun b low => inside b (by omega)), sameParity]
            constructor
            · intro covered b low high late
              have differ : blockIdx ≠ b := fun same => out (same ▸ late)
              obtain ⟨b', low', high', e, refused⟩ := covered b (by omega) (by omega) late
              rw [behind b' low'] at refused
              exact ⟨b', by omega, high', e, refused⟩
            · intro covered b low high late
              obtain ⟨b', low', high', e, refused⟩ := covered b (by omega) (by omega) late
              have differ : blockIdx ≠ b' := by
                rintro rfl
                rw [rebuilt] at refused
                cases refused
              exact ⟨b', by omega, high', e, by rw [behind b' (by omega), refused]⟩

/-- The library refuses a block before the loop comes to one whose parity shards
would start behind the last one. -/
def Covered (data parity : List (Option Bytes)) : Prop :=
  ∀ code, library rs.blockSize rs.parityShards = .ok code →
    ∀ b < (data.length + rs.blockSize - 1) / rs.blockSize, parity.length < b * rs.parityShards →
      ∃ b' < b, rs.Refused code data parity b'

theorem reconstruct_isSome (data parity : List (Option Bytes)) :
    (rs.reconstruct data parity).isSome ↔ rs.Covered data parity := by
  rw [reconstruct]
  by_cases none : rs.parityShards = 0
  · rw [if_pos none]
    refine iff_of_true rfl fun code _ b _ late => ?_
    rw [none, Nat.mul_zero] at late
    omega
  rw [if_neg none]
  by_cases empty : data.isEmpty
  · rw [if_pos empty]
    refine iff_of_true rfl fun code _ b low => ?_
    rw [List.isEmpty_iff.mp empty, List.length_nil, Nat.zero_add,
      Nat.div_eq_of_lt (Nat.sub_lt rs.blockSize_pos one_pos)] at low
    omega
  rw [if_neg empty]
  obtain ⟨code, made⟩ := rs.instantiated (Nat.pos_of_ne_zero none)
  have inside : ∀ b < 0 + (data.length + rs.blockSize - 1) / rs.blockSize,
      b * rs.blockSize ≤ data.length := by
    intro b low
    rw [Nat.zero_add, Nat.lt_div_iff_mul_lt rs.blockSize_pos] at low
    omega
  simp only [made, Option.isSome_map]
  rw [rs.reconstructFrom_isSome code _ _ _ _ _ inside]
  constructor
  · intro covered code' made' b low late
    rw [made] at made'
    cases made'
    obtain ⟨b', -, before, refused⟩ := covered b (Nat.zero_le _) (by omega) late
    exact ⟨b', before, refused⟩
  · intro covered b _ high late
    obtain ⟨b', before, refused⟩ := covered code made b (by omega) late
    exact ⟨b', Nat.zero_le _, before, refused⟩

end Bounds

end ReedSolomonFec

end Qubox.Media
