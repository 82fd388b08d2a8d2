import Qubox.Library.History
import Qubox.Media.ReedSolomon

/-!
# The block decoder

`FecDecoder` collects the shards of each frame id until the frame can be returned,
directly or with the help of parity shards, and reports the frames whose deadline
passes before. A returned frame keeps its entry only until the next drain.
-/

namespace Qubox.Media

open Std (TreeMap)

inductive BlockState where
  | pending
  | emitted
  deriving DecidableEq, Repr

structure PendingBlock where
  data : List (Option Bytes)
  parity : List (Option Bytes)
  chunkCount : UInt16
  firstArrival : Nat
  deadline : Nat
  state : BlockState
  deriving DecidableEq, Repr

structure FecDecoderStats where
  blocksStarted : Nat := 0
  blocksRecoveredViaFec : Nat := 0
  blocksEmittedDirect : Nat := 0
  blocksDiscarded : Nat := 0
  lateShardsDropped : Nat := 0
  deriving DecidableEq, Repr

structure FecDecoder {ε : Type} (library : ErasureLibrary ε) where
  rs : ReedSolomonFec library
  timeout : Nat
  pending : TreeMap UInt32 PendingBlock
  stats : FecDecoderStats

/-- Grow the list to hold the index, and store the shard there unless there is
one; whether it was stored. -/
def placeShard (shards : List (Option Bytes)) (idx : Nat) (shard : Bytes) :
    Option (List (Option Bytes) × Bool) := do
  let shards := if shards.length ≤ idx then ReedSolomonFec.padTo (idx + 1) shards else shards
  let slot ← shards[idx]?
  if slot.isSome then return (shards, false)
  else return (← shards.store? idx (some shard), true)

def assemble (data : List (Option Bytes)) : Bytes := (data.filterMap id).flatten

namespace PendingBlock

variable {ε : Type} {library : ErasureLibrary ε}

/-- The entry made for the first shard of a frame. -/
def opened (chunkCount : UInt16) (now timeout : Nat) : PendingBlock where
  data := []
  parity := []
  chunkCount
  firstArrival := now
  deadline := now + timeout
  state := .pending

/-- Data shards carry the true count. -/
def updateCount (block : PendingBlock) (isParity : Bool) (chunkCount : UInt16) : PendingBlock :=
  if !isParity && block.chunkCount < chunkCount then { block with chunkCount } else block

def place (block : PendingBlock) (isParity : Bool) (idx : Nat) (shard : Bytes) :
    Option (PendingBlock × Bool) :=
  if isParity then
    (placeShard block.parity idx shard).map fun (parity, stored) => ({ block with parity }, stored)
  else
    (placeShard block.data idx shard).map fun (data, stored) => ({ block with data }, stored)

def dataCount (block : PendingBlock) : Nat := block.data.countP Option.isSome

def parityCount (block : PendingBlock) : Nat := block.parity.countP Option.isSome

/-- There are enough shards to try. -/
def Ready (rs : ReedSolomonFec library) (block : PendingBlock) : Prop :=
  rs.blockSize ≤ block.dataCount + block.parityCount ∧ 0 < block.dataCount ∧
    0 < block.chunkCount.toNat

instance (rs : ReedSolomonFec library) (block : PendingBlock) : Decidable (block.Ready rs) :=
  inferInstanceAs (Decidable (_ ∧ _))

/-- The shard lists in their full sizes. -/
def sized (rs : ReedSolomonFec library) (block : PendingBlock) : PendingBlock :=
  let cc := block.chunkCount.toNat
  let numBlocks := (cc + rs.blockSize - 1) / rs.blockSize
  { block with
    data := ReedSolomonFec.padTo cc block.data
    parity := ReedSolomonFec.padTo (numBlocks * rs.parityShards) block.parity }

end PendingBlock

namespace FecDecoder

variable {ε : Type} {library : ErasureLibrary ε}

def new (rs : ReedSolomonFec library) (timeout _maxPending : Nat) : FecDecoder library where
  rs
  timeout
  pending := ∅
  stats := {}

/-- What is tried when a shard has been stored: the frame, if it is complete or
can be recovered, the block, and the counters. -/
def settle (rs : ReedSolomonFec library) (stats : FecDecoderStats) (block : PendingBlock) :
    Option (Option Bytes × PendingBlock × FecDecoderStats) :=
  if block.Ready rs then
    let full := block.sized rs
    if block.dataCount = block.chunkCount.toNat then
      some (some (assemble full.data), { full with state := .emitted },
        { stats with blocksEmittedDirect := stats.blocksEmittedDirect + 1 })
    else do
      match ← rs.reconstruct full.data full.parity with
      | .ok (_, data, parity) =>
          return (some (assemble data), { full with data, parity, state := .emitted },
            { stats with blocksRecoveredViaFec := stats.blocksRecoveredViaFec + 1 })
      | .error _ => return (none, full, stats)
  else some (none, block, stats)

/-- The block of a frame id, as its entry or as it is opened. -/
def entry (decoder : FecDecoder library) (frameId : UInt32) (chunkCount : UInt16) (now : Nat) :
    PendingBlock :=
  decoder.pending[frameId]?.getD (.opened chunkCount now decoder.timeout)

def addShard (decoder : FecDecoder library) (frameId : UInt32) (chunkId chunkCount : UInt16)
    (isParity : Bool) (payload : Bytes) (now : Nat) :
    Option (Option Bytes × FecDecoder library) :=
  let block := decoder.entry frameId chunkCount now
  let stats := if decoder.pending.contains frameId then decoder.stats
    else { decoder.stats with blocksStarted := decoder.stats.blocksStarted + 1 }
  if block.state ≠ .pending then
    some (none, { decoder with
      stats := { stats with lateShardsDropped := stats.lateShardsDropped + 1 } })
  else do
    let (block, stored) ←
      (block.updateCount isParity chunkCount).place isParity chunkId.toNat payload
    let (returned, block, stats) ←
      if stored then settle decoder.rs stats block else some (none, block, stats)
    return (returned, { decoder with pending := decoder.pending.insert frameId block, stats })

/-- The ids of the blocks whose deadline has passed, and the decoder without them
and without those that were returned. -/
def drainExpired (decoder : FecDecoder library) (now : Nat) : List UInt32 × FecDecoder library :=
  let expired := decoder.pending.toList.filter fun e => e.2.state = .pending && e.2.deadline ≤ now
  (expired.map Prod.fst,
    { decoder with
      pending := decoder.pending.filter fun _ block =>
        block.state = .pending && !(block.deadline ≤ now)
      stats := { decoder.stats with
        blocksDiscarded := decoder.stats.blocksDiscarded + expired.length } })

end FecDecoder

/-! ## Runs -/

inductive FecCall where
  | addShard (frameId : UInt32) (chunkId chunkCount : UInt16) (isParity : Bool) (payload : Bytes)
    (now : Nat)
  | drainExpired (now : Nat)
  deriving DecidableEq, Repr

namespace FecDecoder

variable {ε : Type} {library : ErasureLibrary ε}

def step (decoder : FecDecoder library) : FecCall → Option (FecDecoder library)
  | .addShard frameId chunkId chunkCount isParity payload now =>
      (decoder.addShard frameId chunkId chunkCount isParity payload now).map Prod.snd
  | .drainExpired now => some (decoder.drainExpired now).2

def run (decoder : FecDecoder library) (calls : List FecCall) : Option (FecDecoder library) :=
  calls.foldlM step decoder

/-- The frame that a call returns, with its id. -/
def returned (decoder : FecDecoder library) : FecCall → List (UInt32 × Bytes)
  | .addShard frameId chunkId chunkCount isParity payload now =>
      match decoder.addShard frameId chunkId chunkCount isParity payload now with
      | some (some bytes, _) => [(frameId, bytes)]
      | _ => []
  | .drainExpired _ => []

/-- The ids that a call reports as discarded. -/
def discarded (decoder : FecDecoder library) : FecCall → List UInt32
  | .addShard .. => []
  | .drainExpired now => (decoder.drainExpired now).1

end FecDecoder

/-! ## Indices -/

namespace ReedSolomonFec

theorem length_padTo (count : Nat) (shards : List (Option Bytes)) :
    (padTo count shards).length = max shards.length count := by
  rw [padTo, List.length_append, List.length_replicate]
  omega

theorem padTo_of_le {count : Nat} {shards : List (Option Bytes)} (enough : count ≤ shards.length) :
    padTo count shards = shards := by
  rw [padTo, Nat.sub_eq_zero_of_le enough, List.replicate_zero, List.append_nil]

theorem getElem?_padTo {count i : Nat} {shards : List (Option Bytes)} {b : Bytes} :
    (padTo count shards)[i]? = some (some b) ↔ shards[i]? = some (some b) := by
  rw [padTo, List.getElem?_append]
  split
  case isTrue inside => rfl
  case isFalse out =>
    rw [List.getElem?_eq_none (Nat.not_lt.mp out), List.getElem?_replicate]
    split <;> simp

end ReedSolomonFec

open ReedSolomonFec (padTo length_padTo padTo_of_le getElem?_padTo)

/-- A shard that is not there yet is stored. -/
theorem placeShard_cases (shards : List (Option Bytes)) (idx : Nat) (shard : Bytes) :
    ((∃ b, shards[idx]? = some (some b)) ∧ placeShard shards idx shard = some (shards, false)) ∨
    ((∀ b, shards[idx]? ≠ some (some b)) ∧ placeShard shards idx shard =
      some ((padTo (idx + 1) shards).set idx (some shard), true)) := by
  have grown : (if shards.length ≤ idx then padTo (idx + 1) shards else shards) =
      padTo (idx + 1) shards := by
    split
    case isTrue => rfl
    case isFalse inside => rw [padTo_of_le (by omega)]
  have inside : idx < (padTo (idx + 1) shards).length := by
    rw [length_padTo]
    omega
  simp only [placeShard, grown, List.getElem?_eq_getElem inside, Option.bind_eq_bind,
    Option.bind_some]
  cases slot : (padTo (idx + 1) shards)[idx] with
  | some b =>
      have found : shards[idx]? = some (some b) :=
        getElem?_padTo.mp (by rw [List.getElem?_eq_getElem inside, slot])
      refine .inl ⟨⟨b, found⟩, ?_⟩
      rw [padTo_of_le (Nat.succ_le_of_lt (List.getElem?_eq_some_iff.mp found).1)]
      rfl
  | none =>
      refine .inr ⟨fun b found => ?_, ?_⟩
      · have there : (padTo (idx + 1) shards)[idx]? = some (some b) := getElem?_padTo.mpr found
        rw [List.getElem?_eq_getElem inside, slot] at there
        cases there
      · rw [List.store?_eq inside]
        rfl

namespace FecDecoder

variable {ε : Type} {library : ErasureLibrary ε}

/-- The block with the shard, if its frame is pending and lacks the shard. -/
def stored (decoder : FecDecoder library) (frameId : UInt32) (chunkId chunkCount : UInt16)
    (isParity : Bool) (payload : Bytes) (now : Nat) : Option PendingBlock :=
  let block := (decoder.entry frameId chunkCount now).updateCount isParity chunkCount
  if (decoder.entry frameId chunkCount now).state ≠ .pending then none
  else
    match block.place isParity chunkId.toNat payload with
    | some (block, true) => some block
    | _ => none

theorem place_isSome (block : PendingBlock) (isParity : Bool) (idx : Nat) (shard : Bytes) :
    ∃ block' stored, block.place isParity idx shard = some (block', stored) := by
  rw [PendingBlock.place]
  split
  · obtain ⟨-, placed⟩ | ⟨-, placed⟩ := placeShard_cases block.parity idx shard
    · exact ⟨_, _, by rw [placed, Option.map_some]⟩
    · exact ⟨_, _, by rw [placed, Option.map_some]⟩
  · obtain ⟨-, placed⟩ | ⟨-, placed⟩ := placeShard_cases block.data idx shard
    · exact ⟨_, _, by rw [placed, Option.map_some]⟩
    · exact ⟨_, _, by rw [placed, Option.map_some]⟩

theorem settle_isSome (rs : ReedSolomonFec library) (stats : FecDecoderStats)
    (block : PendingBlock) :
    (settle rs stats block).isSome ↔
      (block.Ready rs → block.dataCount ≠ block.chunkCount.toNat →
        rs.Covered (block.sized rs).data (block.sized rs).parity) := by
  rw [settle]
  by_cases ready : block.Ready rs
  · rw [if_pos ready]
    by_cases complete : block.dataCount = block.chunkCount.toNat
    · rw [if_pos complete]
      exact iff_of_true rfl fun _ missing => absurd complete missing
    · rw [if_neg complete]
      have exactly : (rs.reconstruct (block.sized rs).data (block.sized rs).parity).isSome ↔
          (block.Ready rs → block.dataCount ≠ block.chunkCount.toNat →
            rs.Covered (block.sized rs).data (block.sized rs).parity) := by
        rw [rs.reconstruct_isSome]
        exact ⟨fun covered _ _ => covered, fun covered => covered ready complete⟩
      rw [← exactly]
      cases rs.reconstruct (block.sized rs).data (block.sized rs).parity with
      | none => rfl
      | some result => cases result <;> rfl
  · rw [if_neg ready]
    exact iff_of_true rfl fun isReady => absurd isReady ready

/-- A shard leads to a recovery only if the library refuses a block before the
recovery comes to one whose parity shards would start behind the last one. -/
def Guarded (decoder : FecDecoder library) : FecCall → Prop
  | .addShard frameId chunkId chunkCount isParity payload now =>
      ∀ block, decoder.stored frameId chunkId chunkCount isParity payload now = some block →
        block.Ready decoder.rs → block.dataCount ≠ block.chunkCount.toNat →
          decoder.rs.Covered (block.sized decoder.rs).data (block.sized decoder.rs).parity
  | .drainExpired _ => True

theorem step_isSome_iff (decoder : FecDecoder library) (call : FecCall) :
    (decoder.step call).isSome ↔ decoder.Guarded call := by
  cases call with
  | drainExpired now => exact iff_of_true rfl trivial
  | addShard frameId chunkId chunkCount isParity payload now =>
      rw [step, Option.isSome_map, addShard, Guarded, stored]
      by_cases late : (decoder.entry frameId chunkCount now).state ≠ .pending
      · simp only [if_pos late]
        exact iff_of_true rfl nofun
      · simp only [if_neg late]
        obtain ⟨block, placed, there⟩ := place_isSome
          ((decoder.entry frameId chunkCount now).updateCount isParity chunkCount) isParity
          chunkId.toNat payload
        rw [there]
        cases placed with
        | false => exact iff_of_true rfl nofun
        | true =>
            simp only [Option.bind_eq_bind, Option.bind_some, if_true, Option.some.injEq,
              forall_eq']
            rw [← settle_isSome]
            cases settle decoder.rs _ block <;> rfl

theorem inBounds_iff_covered (decoder : FecDecoder library) (calls : List FecCall) :
    (decoder.run calls).isSome ↔ List.Permitted step Guarded decoder calls :=
  List.foldlM_isSome_iff step_isSome_iff decoder calls

end FecDecoder

namespace Sample

/-- The code of one data and one parity shard: the parity shard is a copy. -/
def repetition : ErasureCode Unit where
  encode
    | [d, p] => if d.isEmpty || p.length ≠ d.length then .error () else .ok [d, d]
    | _ => .error ()
  reconstruct
    | [some d, some p] => if d.isEmpty || p.length ≠ d.length then .error () else .ok [d, p]
    | [some d, none] => if d.isEmpty then .error () else .ok [d, d]
    | [none, some p] => if p.isEmpty then .error () else .ok [p, p]
    | _ => .error ()

/-- A library that knows this code only. -/
def copies : ErasureLibrary Unit :=
  fun dataShards parityShards =>
    if dataShards = 1 ∧ parityShards = 1 then .ok repetition else .error ()

/-- One parity shard for every data shard. -/
def twice : ReedSolomonFec copies where
  blockSize := 1
  parityShards := 1
  blockSize_pos := by decide
  parityShards_le := by decide
  total_le := by decide
  instantiated := fun _ => ⟨repetition, rfl⟩

/-- Data shards behind the three that are announced, and parity shards for these. -/
def beyondCount : List FecCall :=
  [.addShard 0 4 3 false [0] 0, .addShard 0 3 3 false [0] 0, .addShard 0 0 3 true [0] 0,
    .addShard 0 1 3 true [0] 0, .addShard 0 2 3 true [0] 0]

end Sample

theorem beyondCount_out_of_bounds :
    ¬ ∀ (library : ErasureLibrary Unit) (rs : ReedSolomonFec library) (timeout maxPending : Nat)
      (calls : List FecCall), ((FecDecoder.new rs timeout maxPending).run calls).isSome := by
  intro always
  have stuck := always Sample.copies Sample.twice 200 16 Sample.beyondCount
  revert stuck
  decide

end Qubox.Media
