import Mathlib.Data.List.Perm.Subperm
import Mathlib.Logic.Function.Basic
import Qubox.Host.Input
import Qubox.Library.Stepping
import Qubox.Media.Erasure

/-!
# Video for a browser

The host sends a frame to a browser as the shards of an erasure code, each in a datagram with the
frame's id, the shard's index and the number of shards. The page collects the shards of each
frame, rebuilds it as soon as enough of them are there or when its timer fires, and then forgets
it. The length of the frame is not sent.
-/

namespace Qubox.Host

open Media (ErasureLibrary ErasureCode Agrees)

namespace BrowserVideo

/-! ## The host -/

inductive FecSendError (ε : Type) where
  | create (error : ε)
  | encode (error : ε)

/-- A data shard, filled up with zeros. -/
def fecShard (payload : Bytes) (shardLen i : Nat) : Bytes :=
  let start := i * shardLen
  let stop := min (start + shardLen) payload.length
  if start < payload.length then
    (payload.drop start).take (stop - start) ++ List.replicate (shardLen - (stop - start)) 0
  else List.replicate shardLen 0

def shardLength (payload : Bytes) (dataShards : Nat) : Nat :=
  (payload.length + dataShards - 1) / dataShards

def fecShards (payload : Bytes) (dataShards : Nat) : List Bytes :=
  (List.range dataShards).map (fecShard payload (shardLength payload dataShards))

def fecPacket (frameId : UInt32) (totalShards : UInt8) (i : Nat) (shard : Bytes) : Bytes :=
  bytes32LE frameId ++ [UInt8.ofNat i, totalShards] ++ shard

/-- The datagrams of a frame. That one cannot be sent is not noticed. -/
def encodeAndSendFecDatagrams {ε : Type} (library : ErasureLibrary ε) (frameId : UInt32)
    (payload : Bytes) (dataShards parityShards : Nat) : Except (FecSendError ε) (List Bytes) :=
  match library dataShards parityShards with
  | .error e => .error (.create e)
  | .ok rs =>
      if payload.isEmpty then .ok []
      else
        let parity := List.replicate parityShards
          (List.replicate (shardLength payload dataShards) 0)
        match rs.encode (fecShards payload dataShards ++ parity) with
        | .error e => .error (.encode e)
        | .ok shards => .ok (shards.mapIdx
            (fecPacket frameId (UInt8.ofNat (dataShards + parityShards))))

/-! ## The page -/

/-- `FEC` after `init`, with what a call of the library leaves in the buffer unless it throws. -/
structure Fec where
  rs : Bytes → Nat → Nat → List Bool → Option Bytes
  dataShards : Nat
  parityShards : Nat

def Fec.reconstruct (fec : Fec) (shards : Bytes) (shardAvailable : List Bool) : Option Bytes :=
  fec.rs shards fec.dataShards fec.parityShards shardAvailable

/-- The shards of a frame with those that are missing, and the number of shards announced. -/
structure FrameBuffer where
  shards : List (Option Bytes)
  received : Nat
  total : Nat
  deriving DecidableEq

/-- `Uint8Array.set`, which throws when the source does not fit. -/
def setBytes (target source : Bytes) (offset : Nat) : Option Bytes :=
  if offset + source.length ≤ target.length then
    some (target.take offset ++ source ++ target.drop (offset + source.length))
  else none

/-- The loop that copies the shards to their places. -/
def copyShards (payloadSize : Nat) : Nat → List (Option Bytes) → Bytes → Option Bytes
  | _, [], buffer => some buffer
  | i, none :: rest, buffer => copyShards payloadSize (i + 1) rest buffer
  | i, some shard :: rest, buffer =>
      (setBytes buffer shard (i * payloadSize)).bind (copyShards payloadSize (i + 1) rest)

namespace FrameBuffer

def opened (total : UInt8) : FrameBuffer where
  shards := List.replicate total.toNat none
  received := 0
  total := total.toNat

variable (buf : FrameBuffer)

def available : List Bool := buf.shards.map Option.isSome

def add (shardIdx : Nat) (payload : Bytes) : FrameBuffer :=
  if (buf.shards[shardIdx]?).join.isSome then buf
  else { buf with
    shards := (Media.ReedSolomonFec.padTo (shardIdx + 1) buf.shards).set shardIdx (some payload)
    received := buf.received + 1 }

def payloadSize : Nat := ((buf.shards.findSome? id).map List.length).getD 0

/-- The chunk that `flush` enqueues, if it enqueues one. -/
def assemble (fec : Fec) : Option Bytes :=
  if buf.payloadSize = 0 then none
  else
    (copyShards buf.payloadSize 0 (buf.shards.take buf.total)
      (List.replicate (buf.payloadSize * buf.total) 0)).bind fun continuousBuffer =>
        (fec.reconstruct continuousBuffer buf.available).map fun continuousBuffer =>
          continuousBuffer.take (buf.payloadSize * fec.dataShards)

end FrameBuffer

/-- `FecTransform` with what it has enqueued, and for which frame. -/
structure FecTransform where
  buffers : UInt32 → Option FrameBuffer
  enqueued : List (UInt32 × Bytes)

inductive FecAction where
  | datagram (chunk : Bytes)
  /-- The 50 ms since the first shard of a frame are over. -/
  | timer (frameId : UInt32)
  deriving DecidableEq

namespace FecTransform

def start : FecTransform where
  buffers _ := none
  enqueued := []

variable (fec : Fec) (s : FecTransform)

def flush (frameId : UInt32) : FecTransform :=
  match s.buffers frameId with
  | none => s
  | some buf =>
      { buffers := Function.update s.buffers frameId none
        enqueued := s.enqueued ++ ((buf.assemble fec).map (frameId, ·)).toList }

/-- A shard arrives. -/
def receive (frameId : UInt32) (shardIdx totalShards : UInt8) (payload : Bytes) : FecTransform :=
  let buf := ((s.buffers frameId).getD (.opened totalShards)).add shardIdx.toNat payload
  let s := { s with buffers := Function.update s.buffers frameId (some buf) }
  if fec.dataShards ≤ buf.received then s.flush fec frameId else s

def transform (chunk : Bytes) : FecTransform :=
  match chunk with
  | b0 :: b1 :: b2 :: b3 :: shardIdx :: totalShards :: payload =>
      s.receive fec (u32LE b0 b1 b2 b3) shardIdx totalShards payload
  | _ => s

/-- A timer that was cleared does not fire. -/
def step (s : FecTransform) : FecAction → Option FecTransform
  | .datagram chunk => some (s.transform fec chunk)
  | .timer frameId => if (s.buffers frameId).isSome then some (s.flush fec frameId) else none

/-- The chunks enqueued for a frame. -/
def chunksOf (frameId : UInt32) : List Bytes :=
  (s.enqueued.filter (·.1 = frameId)).map Prod.snd

end FecTransform

def frameOf : Bytes → Option UInt32
  | b0 :: b1 :: b2 :: b3 :: _ :: _ :: _ => some (u32LE b0 b1 b2 b3)
  | _ => none

/-- The datagrams of a frame in the order in which they arrive. -/
def delivered (frameId : UInt32) (steps : List FecAction) : List Bytes :=
  steps.filterMap fun
    | .datagram chunk => if frameOf chunk = some frameId then some chunk else none
    | .timer _ => none

/-! ## Data shards -/

section Shards

variable {payload : Bytes} {dataShards size i : Nat}

theorem length_fecShard (payload : Bytes) (size i : Nat) :
    (fecShard payload size i).length = size := by
  unfold fecShard
  dsimp only
  split
  · rw [List.length_append, List.length_take, List.length_drop, List.length_replicate]
    omega
  · exact List.length_replicate

/-- A data shard is a piece of the payload with zeros behind it. -/
theorem fecShard_eq {count : Nat} (low : i < count) (covered : payload.length ≤ count * size) :
    fecShard payload size i = ((payload ++
      List.replicate (count * size - payload.length) 0).drop (i * size)).take size := by
  have stop : i * size + size ≤ count * size := by
    rw [← Nat.succ_mul]
    exact Nat.mul_le_mul_right size low
  unfold fecShard
  dsimp only
  split
  next inside =>
    rw [List.drop_append_of_le_length inside.le, List.take_append, List.take_replicate,
      List.length_drop]
    congr 1
    · rw [List.take_eq_take_iff, List.length_drop]
      omega
    · congr 1
      omega
  next outside =>
    rw [List.drop_append, List.drop_eq_nil_of_le (by omega), List.nil_append, List.drop_replicate,
      List.take_replicate]
    congr 1
    omega

theorem length_le_shards (payload : Bytes) (some : 0 < dataShards) :
    payload.length ≤ dataShards * shardLength payload dataShards := by
  have covered := Nat.div_add_mod (payload.length + dataShards - 1) dataShards
  have rest := Nat.mod_lt (payload.length + dataShards - 1) some
  rw [← shardLength] at covered
  omega

theorem shardLength_pos (some : 0 < dataShards) (nonempty : payload ≠ []) :
    0 < shardLength payload dataShards := by
  have := List.length_pos_iff.mpr nonempty
  exact Nat.div_pos (by omega) some

theorem flatten_fecShards (some : 0 < dataShards) :
    (fecShards payload dataShards).flatten = payload ++
      List.replicate (dataShards * shardLength payload dataShards - payload.length) 0 := by
  have covered := length_le_shards payload some
  have pieces : fecShards payload dataShards = (List.range dataShards).map fun i =>
      ((payload ++ List.replicate
        (dataShards * shardLength payload dataShards - payload.length) 0).drop
          (i * shardLength payload dataShards)).take (shardLength payload dataShards) :=
    List.map_congr_left fun i member => fecShard_eq (List.mem_range.mp member) covered
  rw [pieces, List.flatten_map_range_take, List.take_of_length_le]
  rw [List.length_append, List.length_replicate]
  omega

/-- Nothing is filled up when the shards divide the payload. -/
theorem fills_iff (some : 0 < dataShards) :
    dataShards * shardLength payload dataShards = payload.length ↔
      dataShards ∣ payload.length := by
  constructor
  · intro same
    exact ⟨_, same.symm⟩
  · rintro ⟨count, whole⟩
    have quotient : (dataShards * count + (dataShards - 1)) / dataShards = count := by
      rw [Nat.mul_add_div some, Nat.div_eq_of_lt (by omega), Nat.add_zero]
    rw [shardLength, whole, Nat.add_sub_assoc some, quotient]

/-- The data shards together are the payload exactly when they divide it. -/
theorem flatten_fecShards_eq_iff (some : 0 < dataShards) :
    (fecShards payload dataShards).flatten = payload ↔ dataShards ∣ payload.length := by
  have covered := length_le_shards payload some
  rw [flatten_fecShards some, List.append_right_eq_self, List.replicate_eq_nil_iff,
    ← fills_iff some]
  omega

end Shards

/-! ## Buffers -/

/-- Shards of one size with zeros in place of those that are missing. -/
def contiguous (size : Nat) (shards : List (Option Bytes)) : Bytes :=
  shards.flatMap fun shard => shard.getD (List.replicate size 0)

theorem setBytes_append {front source : Bytes} {count : Nat} (fits : source.length ≤ count) :
    setBytes (front ++ List.replicate count 0) source front.length =
      some (front ++ source ++ List.replicate (count - source.length) 0) := by
  rw [setBytes, if_pos (by rw [List.length_append, List.length_replicate]; omega),
    List.take_left, List.drop_append, List.drop_eq_nil_of_le (by omega), List.nil_append,
    List.drop_replicate, Nat.add_sub_cancel_left]

theorem copyShards_eq {size i : Nat} {shards : List (Option Bytes)}
    (sizes : ∀ b, some b ∈ shards → b.length = size) {front : Bytes}
    (reached : front.length = i * size) :
    copyShards size i shards (front ++ List.replicate (size * shards.length) 0) =
      some (front ++ contiguous size shards) := by
  induction shards generalizing i front with
  | nil => simp [copyShards, contiguous]
  | cons shard rest ih =>
      have later : ∀ b, some b ∈ rest → b.length = size := fun b member => sizes b (.tail _ member)
      have room : size * (rest.length + 1) = size + size * rest.length := by
        rw [Nat.mul_succ, Nat.add_comm]
      rw [List.length_cons, room]
      cases shard with
      | none =>
          rw [copyShards, List.replicate_add, ← List.append_assoc, ih later]
          · rw [contiguous, contiguous, List.flatMap_cons, List.append_assoc]
            rfl
          · rw [List.length_append, List.length_replicate, reached, Nat.succ_mul]
      | some b =>
          have length := sizes b (.head _)
          rw [copyShards, ← reached, setBytes_append (by omega), Option.bind_some, length,
            Nat.add_sub_cancel_left, ih later]
          · rw [contiguous, contiguous, List.flatMap_cons, List.append_assoc]
            rfl
          · rw [List.length_append, length, reached, Nat.succ_mul]

/-- The buffer holds these of the shards, and nothing else. -/
structure Collected (shards : List Bytes) (fresh : List Nat) (buf : FrameBuffer) : Prop where
  total : buf.total = shards.length
  length : buf.shards.length = shards.length
  slots : ∀ i < shards.length, buf.shards[i]? = some (if i ∈ fresh then shards[i]? else none)
  received : buf.received = fresh.length
  count : buf.shards.countP Option.isSome = fresh.length

namespace Collected

variable {shards : List Bytes} {fresh : List Nat} {buf : FrameBuffer} {fec : Fec} {size i : Nat}

theorem opened {total : UInt8} (announced : total.toNat = shards.length) :
    Collected shards [] (.opened total) where
  total := announced
  length := by rw [FrameBuffer.opened, List.length_replicate, announced]
  slots i low := by
    rw [FrameBuffer.opened, List.getElem?_replicate, announced, if_pos low]
    rfl
  received := rfl
  count := by
    rw [FrameBuffer.opened, List.countP_replicate]
    rfl

theorem add (collected : Collected shards fresh buf) {shard : Bytes}
    (own : shards[i]? = some shard) (new : i ∉ fresh) :
    Collected shards (fresh ++ [i]) (buf.add i shard) := by
  have low : i < shards.length := (List.getElem?_eq_some_iff.mp own).1
  have inside : i < buf.shards.length := collected.length ▸ low
  have empty : buf.shards[i]? = some none := by rw [collected.slots i low, if_neg new]
  have whole : Media.ReedSolomonFec.padTo (i + 1) buf.shards = buf.shards := by
    rw [Media.ReedSolomonFec.padTo, Nat.sub_eq_zero_of_le inside, List.replicate_zero,
      List.append_nil]
  have added : buf.add i shard = { buf with
      shards := buf.shards.set i (some shard)
      received := buf.received + 1 } := by
    rw [FrameBuffer.add, empty, if_neg (by exact Bool.false_ne_true), whole]
  rw [added]
  refine ⟨collected.total, ?_, fun j bound => ?_, ?_, ?_⟩
  · rw [List.length_set, collected.length]
  · by_cases here : i = j
    · subst here
      rw [List.getElem?_set_self inside, if_pos (by simp), own]
    · rw [List.getElem?_set_ne here, collected.slots j bound]
      simp [Ne.symm here]
  · rw [List.length_append, collected.received]
    rfl
  · have there : buf.shards[i] = none := by
      rw [List.getElem?_eq_getElem inside] at empty
      exact Option.some.inj empty
    rw [List.countP_set inside, there, List.length_append, collected.count]
    rfl

theorem agrees (collected : Collected shards fresh buf) : Agrees shards buf.shards := by
  refine Media.agrees_iff.mpr ⟨collected.length, fun i b found => ?_⟩
  have low : i < shards.length := collected.length ▸ (List.getElem?_eq_some_iff.mp found).1
  rw [collected.slots i low] at found
  split at found
  · exact Option.some.inj found
  · cases found

/-- The chunk of a frame, if the library does not throw. -/
theorem assemble (collected : Collected shards fresh buf) (some : fresh ≠ [])
    (positive : 0 < size) (sizes : ∀ shard ∈ shards, shard.length = size) :
    buf.assemble fec = (fec.reconstruct (contiguous size buf.shards) buf.available).map
      fun whole => whole.take (size * fec.dataShards) := by
  have present : ∀ b, .some b ∈ buf.shards → b.length = size := by
    intro b member
    obtain ⟨i, found⟩ := List.mem_iff_getElem?.mp member
    exact sizes b (List.mem_of_getElem? ((Media.agrees_iff.mp collected.agrees).2 i b found))
  have payloadSize : buf.payloadSize = size := by
    have exists_present : ∃ shard ∈ buf.shards, shard.isSome = true := by
      apply List.countP_pos_iff.mp
      rw [collected.count]
      exact List.length_pos_iff.mpr some
    rw [FrameBuffer.payloadSize]
    cases found : buf.shards.findSome? id with
    | none =>
        obtain ⟨shard, member, there⟩ := exists_present
        have absent := List.findSome?_eq_none_iff.mp found shard member
        rw [id] at absent
        rw [absent] at there
        cases there
    | some b =>
        obtain ⟨shard, member, rfl⟩ := List.exists_of_findSome?_eq_some found
        exact present b member
  have copied : copyShards size 0 (buf.shards.take buf.total)
      (List.replicate (size * buf.total) 0) = .some (contiguous size buf.shards) := by
    have all : copyShards size 0 buf.shards ([] ++ List.replicate (size * buf.shards.length) 0) =
        .some ([] ++ contiguous size buf.shards) := copyShards_eq present (Nat.zero_mul size).symm
    rw [collected.total, ← collected.length, List.take_length]
    exact all
  rw [FrameBuffer.assemble, payloadSize, if_neg positive.ne', copied, Option.bind_some]

end Collected

/-! ## One frame -/

/-- What the two libraries make of the shards of a frame. They implement the same code, of which
any `dataShards` shards determine the others. -/
structure SameCode {ε : Type} (rs : ErasureCode ε) (fec : Fec) (data parity : List Bytes)
    (size : Nat) : Prop where
  encodes : rs.encode (data ++ List.replicate fec.parityShards (List.replicate size 0)) =
    .ok (data ++ parity)
  parities : parity.length = fec.parityShards
  sizes : ∀ shard ∈ parity, shard.length = size
  reconstructs : ∀ shards, Agrees (data ++ parity) shards →
    fec.dataShards ≤ shards.countP Option.isSome →
      fec.reconstruct (contiguous size shards) (shards.map Option.isSome) =
        some (data ++ parity).flatten

/-- Whether the library throws when there are too few shards, instead of returning a result code
that `FEC` ignores. -/
def ThrowsOnFew (fec : Fec) (throws : Prop) : Prop :=
  ∀ size buffer shardAvailable, 0 < size →
    shardAvailable.length = fec.dataShards + fec.parityShards →
    buffer.length = size * shardAvailable.length →
    shardAvailable.countP id < fec.dataShards →
      (fec.reconstruct buffer shardAvailable = none ↔ throws)

def packet (frameId : UInt32) (shards : List Bytes) (i : Nat) (shard : Bytes) : Bytes :=
  fecPacket frameId (UInt8.ofNat shards.length) i shard

namespace FecTransform

variable {fec : Fec} {frameId other : UInt32} {shards : List Bytes} {s t : FecTransform}

theorem chunksOf_append (added : List (UInt32 × Bytes)) :
    chunksOf { s with enqueued := s.enqueued ++ added } frameId =
      s.chunksOf frameId ++ (added.filter (·.1 = frameId)).map Prod.snd := by
  rw [chunksOf, List.filter_append, List.map_append]
  rfl

/-! ### What happens to other frames -/

theorem flush_other (fec : Fec) (different : other ≠ frameId) :
    (s.flush fec other).buffers frameId = s.buffers frameId ∧
      (s.flush fec other).chunksOf frameId = s.chunksOf frameId := by
  unfold flush
  split
  · exact ⟨rfl, rfl⟩
  next buf found =>
    refine ⟨Function.update_of_ne different.symm _ _, ?_⟩
    refine (chunksOf_append (s := s) _).trans ?_
    cases buf.assemble fec with
    | none => exact List.append_nil _
    | some chunk => simp [different]

theorem receive_other (fec : Fec) (different : other ≠ frameId) (shardIdx totalShards : UInt8)
    (payload : Bytes) :
    (s.receive fec other shardIdx totalShards payload).buffers frameId = s.buffers frameId ∧
      (s.receive fec other shardIdx totalShards payload).chunksOf frameId =
        s.chunksOf frameId := by
  unfold receive
  dsimp only
  split
  · obtain ⟨buffers, chunks⟩ := @flush_other _ _ { s with
      buffers := Function.update s.buffers other (some _) } fec different
    exact ⟨buffers.trans (Function.update_of_ne different.symm _ _), chunks⟩
  · exact ⟨Function.update_of_ne different.symm _ _, rfl⟩

theorem transform_other (fec : Fec) {chunk : Bytes} (different : frameOf chunk ≠ some frameId) :
    (s.transform fec chunk).buffers frameId = s.buffers frameId ∧
      (s.transform fec chunk).chunksOf frameId = s.chunksOf frameId := by
  unfold transform
  split
  next b0 b1 b2 b3 shardIdx totalShards payload =>
    exact receive_other fec (fun same => different (congrArg some same)) _ _ _
  · exact ⟨rfl, rfl⟩

/-! ### What happens to the frame -/

theorem flush_own (fec : Fec) {buf : FrameBuffer} (found : s.buffers frameId = some buf) :
    (s.flush fec frameId).buffers frameId = none ∧
      (s.flush fec frameId).chunksOf frameId =
        s.chunksOf frameId ++ (buf.assemble fec).toList := by
  rw [flush, found]
  refine ⟨Function.update_self _ _ _, (chunksOf_append (s := s) _).trans ?_⟩
  cases buf.assemble fec with
  | none => rfl
  | some chunk => simp

/-- The buffer of the frame holds these shards. Without shards there is none. -/
def Holds (s : FecTransform) (frameId : UInt32) (shards : List Bytes) (fresh : List Nat) : Prop :=
  match s.buffers frameId with
  | none => fresh = []
  | some buf => fresh ≠ [] ∧ Collected shards fresh buf

theorem Holds.of_none (none : s.buffers frameId = none) : s.Holds frameId shards [] := by
  rw [Holds, none]

theorem Holds.of_some {buf : FrameBuffer} {fresh : List Nat} (found : s.buffers frameId = some buf)
    (some : fresh ≠ []) (collected : Collected shards fresh buf) :
    s.Holds frameId shards fresh := by
  rw [Holds, found]
  exact ⟨some, collected⟩

theorem Holds.congr {fresh : List Nat} (holds : s.Holds frameId shards fresh)
    (same : t.buffers frameId = s.buffers frameId) : t.Holds frameId shards fresh := by
  rw [Holds, same]
  exact holds

/-- The buffer to which a shard is added. -/
theorem Holds.getD {fresh : List Nat} (holds : s.Holds frameId shards fresh)
    (few : shards.length < 256) :
    Collected shards fresh
      ((s.buffers frameId).getD (.opened (UInt8.ofNat shards.length))) := by
  unfold Holds at holds
  split at holds
  next none =>
    rw [none, holds]
    exact .opened (UInt8.toNat_ofNat_of_lt few)
  next buf found =>
    rw [found]
    exact holds.2

theorem frameOf_packet (shards : List Bytes) (i : Nat) (shard : Bytes) :
    frameOf (packet frameId shards i shard) = some frameId :=
  congrArg some (u32LE_bytes frameId)

/-- A new shard of the frame is added to its buffer, which is flushed when it has enough. -/
theorem transform_packet (fec : Fec) {fresh : List Nat} {i : Nat} {shard : Bytes}
    (holds : s.Holds frameId shards fresh) (few : shards.length < 256)
    (own : shards[i]? = some shard) (new : i ∉ fresh) :
    ∃ buf, Collected shards (fresh ++ [i]) buf ∧
      s.transform fec (packet frameId shards i shard) =
        let s := { s with buffers := Function.update s.buffers frameId (some buf) }
        if fec.dataShards ≤ fresh.length + 1 then s.flush fec frameId else s := by
  have low : i < shards.length := (List.getElem?_eq_some_iff.mp own).1
  have index : (UInt8.ofNat i).toNat = i := UInt8.toNat_ofNat_of_lt (low.trans few)
  have collected := (holds.getD few).add own new
  have received : s.transform fec (packet frameId shards i shard) =
      s.receive fec frameId (UInt8.ofNat i) (UInt8.ofNat shards.length) shard :=
    congrArg (fun id => s.receive fec id _ _ shard) (u32LE_bytes frameId)
  refine ⟨_, collected, ?_⟩
  rw [received, receive, index, collected.received, List.length_append]
  rfl

end FecTransform

/-! ## The run -/

theorem length_flatten_of_sizes {size : Nat} {shards : List Bytes}
    (sizes : ∀ shard ∈ shards, shard.length = size) :
    shards.flatten.length = size * shards.length := by
  induction shards with
  | nil => rfl
  | cons shard rest ih =>
      rw [List.flatten_cons, List.length_append, sizes shard (.head _),
        ih fun shard member => sizes shard (.tail _ member), List.length_cons, Nat.mul_succ,
        Nat.add_comm]

theorem length_contiguous {size : Nat} {shards : List (Option Bytes)}
    (sizes : ∀ b, some b ∈ shards → b.length = size) :
    (contiguous size shards).length = size * shards.length := by
  rw [contiguous, List.flatMap_def, ← List.length_map (f := fun shard : Option Bytes =>
    shard.getD (List.replicate size 0))]
  apply length_flatten_of_sizes
  intro bytes member
  obtain ⟨shard, listed, rfl⟩ := List.mem_map.mp member
  cases shard with
  | none => exact List.length_replicate
  | some b => exact sizes b listed

/-- The shards of a frame, of which `dataShards` are enough for the page. -/
structure FrameShards (fec : Fec) (data parity : List Bytes) (size : Nat) : Prop where
  positive : 0 < size
  data_length : data.length = fec.dataShards
  parity_length : parity.length = fec.parityShards
  fewer : fec.parityShards < fec.dataShards
  total : fec.dataShards + fec.parityShards < 256
  sizes : ∀ shard ∈ data ++ parity, shard.length = size
  reconstructs : ∀ shards, Agrees (data ++ parity) shards →
    fec.dataShards ≤ shards.countP Option.isSome →
      fec.reconstruct (contiguous size shards) (shards.map Option.isSome) =
        some (data ++ parity).flatten

namespace FrameShards

variable {fec : Fec} {data parity : List Bytes} {size : Nat} {fresh : List Nat} {buf : FrameBuffer}
  {throws : Prop}

theorem length_eq (frame : FrameShards fec data parity size) :
    (data ++ parity).length = fec.dataShards + fec.parityShards := by
  rw [List.length_append, frame.data_length, frame.parity_length]

/-- With enough shards the page has the data shards. -/
theorem assemble_enough (frame : FrameShards fec data parity size)
    (collected : Collected (data ++ parity) fresh buf) (enough : fec.dataShards ≤ fresh.length) :
    buf.assemble fec = some data.flatten := by
  have fewer := frame.fewer
  have some_fresh : fresh ≠ [] := List.length_pos_iff.mp (by omega)
  have length : data.flatten.length = size * fec.dataShards := by
    rw [length_flatten_of_sizes fun shard member =>
      frame.sizes shard (List.mem_append_left _ member), frame.data_length]
  rw [collected.assemble some_fresh frame.positive frame.sizes, FrameBuffer.available,
    frame.reconstructs _ collected.agrees (by rw [collected.count]; exact enough), Option.map_some,
    List.flatten_append, List.take_left' length]

/-- With too few shards there is a chunk unless the library throws. -/
theorem assemble_few (frame : FrameShards fec data parity size) (onFew : ThrowsOnFew fec throws)
    (collected : Collected (data ++ parity) fresh buf) (some_fresh : fresh ≠ [])
    (few : fresh.length < fec.dataShards) : buf.assemble fec = none ↔ throws := by
  have present : ∀ b, some b ∈ buf.shards → b.length = size := by
    intro b member
    obtain ⟨i, found⟩ := List.mem_iff_getElem?.mp member
    exact frame.sizes b
      (List.mem_of_getElem? ((Media.agrees_iff.mp collected.agrees).2 i b found))
  have length : buf.available.length = fec.dataShards + fec.parityShards := by
    rw [FrameBuffer.available, List.length_map, collected.length, frame.length_eq]
  rw [collected.assemble some_fresh frame.positive frame.sizes, Option.map_eq_none_iff]
  apply onFew size _ _ frame.positive length
  · rw [length_contiguous present, FrameBuffer.available, List.length_map]
  · rw [FrameBuffer.available, List.countP_map]
    exact collected.count ▸ few

end FrameShards

namespace FecTransform

variable {fec : Fec} {frameId : UInt32} {data parity : List Bytes} {size : Nat} {throws : Prop}
  {s t : FecTransform} {done : List FecAction}

theorem delivered_concat (done : List FecAction) (a : FecAction) :
    delivered frameId (done ++ [a]) = delivered frameId done ++ delivered frameId [a] :=
  List.filterMap_append

theorem delivered_own {chunk : Bytes} (own : frameOf chunk = some frameId) :
    delivered frameId [.datagram chunk] = [chunk] := by
  simp [delivered, own]

theorem delivered_other {chunk : Bytes} (other : frameOf chunk ≠ some frameId) :
    delivered frameId [.datagram chunk] = [] := by
  simp [delivered, other]

/-- The shards with these indices have arrived. -/
def Seen (frameId : UInt32) (shards : List Bytes) (fresh : List Nat) (done : List FecAction) :
    Prop :=
  ∀ i ∈ fresh, ∀ shard, shards[i]? = some shard →
    packet frameId shards i shard ∈ delivered frameId done

theorem Seen.concat {shards : List Bytes} {fresh : List Nat} (seen : Seen frameId shards fresh done)
    (a : FecAction) : Seen frameId shards fresh (done ++ [a]) := by
  intro i member shard own
  rw [delivered_concat]
  exact List.mem_append_left _ (seen i member shard own)

/-- How far a frame has come. Before it is rebuilt its buffer holds all shards that have arrived,
and its timer has not fired. Afterwards the buffer holds late shards, which are too few. -/
inductive Stage (fec : Fec) (frameId : UInt32) (data parity : List Bytes) (throws : Prop)
    (s : FecTransform) (done : List FecAction) : Prop where
  | collecting (fresh : List Nat) (holds : s.Holds frameId (data ++ parity) fresh)
      (seen : Seen frameId (data ++ parity) fresh done)
      (all : fresh.length = (delivered frameId done).length)
      (few : fresh.length < fec.dataShards) (quiet : s.chunksOf frameId = [])
      (waiting : .timer frameId ∉ done)
  | rebuilt (fresh : List Nat) (late : List Bytes)
      (holds : s.Holds frameId (data ++ parity) fresh)
      (seen : Seen frameId (data ++ parity) fresh done)
      (behind : fresh.length + fec.dataShards ≤ (delivered frameId done).length)
      (chunks : s.chunksOf frameId = data.flatten :: late)
      (silent : late = [] ↔ throws ∨ .timer frameId ∉ done)

theorem stage_start (frameId : UInt32) (frame : FrameShards fec data parity size) :
    Stage fec frameId data parity throws start [] :=
  .collecting [] (.of_none rfl) nofun rfl (Nat.zero_lt_of_lt frame.fewer) rfl nofun

/-- What happens to other frames changes nothing. -/
theorem Stage.other (stage : Stage fec frameId data parity throws s done) {a : FecAction}
    (same : t.buffers frameId = s.buffers frameId ∧ t.chunksOf frameId = s.chunksOf frameId)
    (none : delivered frameId [a] = []) (different : a ≠ .timer frameId) :
    Stage fec frameId data parity throws t (done ++ [a]) := by
  have still : delivered frameId (done ++ [a]) = delivered frameId done := by
    rw [delivered_concat, none, List.append_nil]
  have timers : .timer frameId ∈ done ++ [a] ↔ .timer frameId ∈ done := by
    simp [different.symm]
  cases stage with
  | collecting fresh holds seen all few quiet waiting =>
      exact .collecting fresh (holds.congr same.1) (seen.concat a) (still ▸ all) few
        (same.2.trans quiet) (mt timers.mp waiting)
  | rebuilt fresh late holds seen behind chunks silent =>
      exact .rebuilt fresh late (holds.congr same.1) (seen.concat a) (still ▸ behind)
        (same.2.trans chunks) (by rw [silent, timers])

theorem Stage.packet (frame : FrameShards fec data parity size)
    (stage : Stage fec frameId data parity throws s done) {i : Nat} {shard : Bytes}
    (own : (data ++ parity)[i]? = some shard)
    (new : packet frameId (data ++ parity) i shard ∉ delivered frameId done)
    (room : (delivered frameId done).length < fec.dataShards + fec.parityShards) :
    Stage fec frameId data parity throws
      (s.transform fec (packet frameId (data ++ parity) i shard))
      (done ++ [.datagram (packet frameId (data ++ parity) i shard)]) := by
  have fewer := frame.fewer
  have total : (data ++ parity).length < 256 := by
    rw [frame.length_eq]
    exact frame.total
  have arrived : delivered frameId
      (done ++ [.datagram (BrowserVideo.packet frameId (data ++ parity) i shard)]) =
      delivered frameId done ++ [BrowserVideo.packet frameId (data ++ parity) i shard] := by
    rw [delivered_concat, delivered_own (frameOf_packet _ _ _)]
  have count : (delivered frameId
      (done ++ [.datagram (BrowserVideo.packet frameId (data ++ parity) i shard)])).length =
      (delivered frameId done).length + 1 := by
    rw [arrived, List.length_append]
    rfl
  have timers : .timer frameId ∈
      done ++ [.datagram (BrowserVideo.packet frameId (data ++ parity) i shard)] ↔
        .timer frameId ∈ done := by
    simp
  have later {fresh : List Nat} (seen : Seen frameId (data ++ parity) fresh done) :
      Seen frameId (data ++ parity) (fresh ++ [i])
        (done ++ [.datagram (BrowserVideo.packet frameId (data ++ parity) i shard)]) := by
    intro j member other there
    obtain before | last := List.mem_append.mp member
    · exact seen.concat _ j before other there
    · obtain rfl := List.mem_singleton.mp last
      cases own.symm.trans there
      rw [arrived]
      exact List.mem_append_right _ (.head _)
  cases stage with
  | collecting fresh holds seen all few quiet waiting =>
      have apart : i ∉ fresh := fun member => new (seen i member shard own)
      obtain ⟨buf, collected, moved⟩ := transform_packet fec holds total own apart
      rw [moved]
      dsimp only
      split
      next enough =>
        obtain ⟨none, chunks⟩ := @flush_own _ { s with
          buffers := Function.update s.buffers frameId (some buf) } fec _
          (Function.update_self _ _ _)
        rw [frame.assemble_enough collected (by rw [List.length_append]; exact enough)] at chunks
        refine .rebuilt [] [] (.of_none none) nofun (by rw [count, List.length_nil]; omega) ?_ ?_
        · rw [chunks]
          exact congrArg (· ++ [data.flatten]) quiet
        · exact iff_of_true rfl (.inr (mt timers.mp waiting))
      next few =>
        refine .collecting (fresh ++ [i]) (.of_some (Function.update_self _ _ _) (by simp)
          collected) (later seen) ?_ ?_ quiet (mt timers.mp waiting)
        · rw [count, List.length_append, all]
          rfl
        · rw [List.length_append]
          exact Nat.not_le.mp few
  | rebuilt fresh late holds seen behind chunks silent =>
      have apart : i ∉ fresh := fun member => new (seen i member shard own)
      obtain ⟨buf, collected, moved⟩ := transform_packet fec holds total own apart
      rw [moved]
      dsimp only
      rw [if_neg (by omega)]
      refine .rebuilt (fresh ++ [i]) late (.of_some (Function.update_self _ _ _) (by simp)
        collected) (later seen) ?_ chunks (by rw [silent, timers])
      rw [count, List.length_append]
      change fresh.length + 1 + _ ≤ _
      omega

theorem Stage.timer (frame : FrameShards fec data parity size) (onFew : ThrowsOnFew fec throws)
    (stage : Stage fec frameId data parity throws s done)
    (room : (delivered frameId done).length ≤ fec.dataShards + fec.parityShards)
    (after : fec.dataShards ≤ (delivered frameId done).length)
    (set : (s.buffers frameId).isSome) :
    Stage fec frameId data parity throws (s.flush fec frameId) (done ++ [.timer frameId]) := by
  have fewer := frame.fewer
  have still : delivered frameId (done ++ [.timer frameId]) = delivered frameId done := by
    rw [delivered_concat]
    exact List.append_nil _
  obtain ⟨buf, found⟩ := Option.isSome_iff_exists.mp set
  cases stage with
  | collecting fresh holds seen all few quiet waiting => omega
  | rebuilt fresh late holds seen behind chunks silent =>
      rw [Holds, found] at holds
      obtain ⟨some_fresh, collected⟩ := holds
      obtain ⟨none, added⟩ := flush_own fec found
      have fails := frame.assemble_few onFew collected some_fresh (by omega)
      refine .rebuilt [] (late ++ (buf.assemble fec).toList) (.of_none none) nofun ?_ ?_ ?_
      · rw [still, List.length_nil]
        omega
      · rw [added, chunks]
        rfl
      · have fired : ¬ .timer frameId ∉ done ++ [.timer frameId] := by simp
        rw [List.append_eq_nil_iff, Option.toList_eq_nil_iff, fails, silent, or_iff_left fired]
        exact ⟨And.right, fun thrown => ⟨.inl thrown, thrown⟩⟩

end FecTransform

namespace FecTransform

variable {fec : Fec} {frameId : UInt32} {data parity : List Bytes} {size : Nat} {throws : Prop}
  {s t : FecTransform} {done : List FecAction}

theorem Stage.step (frame : FrameShards fec data parity size) (onFew : ThrowsOnFew fec throws)
    (stage : Stage fec frameId data parity throws s done) {a : FecAction}
    (stepped : s.step fec a = some t)
    (own : ∀ chunk ∈ delivered frameId (done ++ [a]),
      chunk ∈ (data ++ parity).mapIdx (BrowserVideo.packet frameId (data ++ parity)))
    (once : (delivered frameId (done ++ [a])).Nodup)
    (inTime : a = .timer frameId → fec.dataShards ≤ (delivered frameId done).length) :
    Stage fec frameId data parity throws t (done ++ [a]) := by
  have bounded := (List.subperm_of_subset once own).length_le
  rw [List.length_mapIdx, frame.length_eq, delivered_concat, List.length_append] at bounded
  cases a with
  | datagram chunk =>
      cases stepped
      by_cases mine : frameOf chunk = some frameId
      · rw [delivered_concat, delivered_own mine] at own once
        rw [delivered_own mine, List.length_singleton] at bounded
        obtain ⟨i, low, rfl⟩ := List.mem_mapIdx.mp (own chunk (by simp))
        refine stage.packet frame (List.getElem?_eq_getElem low) ?_ (by omega)
        exact fun member => (List.nodup_append.mp once).2.2 _ member _ (.head _) rfl
      · exact stage.other (transform_other fec mine) (delivered_other mine) nofun
  | timer id =>
      change (if (s.buffers id).isSome then some (s.flush fec id) else none) = some t at stepped
      split at stepped
      next set =>
        cases stepped
        by_cases mine : id = frameId
        · subst mine
          exact stage.timer frame onFew (by omega) (inTime rfl) set
        · exact stage.other (flush_other fec mine) rfl fun same => mine (FecAction.timer.inj same)
      next => cases stepped

theorem Stage.run (frame : FrameShards fec data parity size) (onFew : ThrowsOnFew fec throws)
    {rest : List FecAction} (stage : Stage fec frameId data parity throws s done)
    (ran : Stepping.run (FecTransform.step fec) s rest = some t)
    (own : ∀ chunk ∈ delivered frameId (done ++ rest),
      chunk ∈ (data ++ parity).mapIdx (BrowserVideo.packet frameId (data ++ parity)))
    (once : (delivered frameId (done ++ rest)).Nodup)
    (inTime : ∀ before after, done ++ rest = before ++ .timer frameId :: after →
      fec.dataShards ≤ (delivered frameId before).length) :
    Stage fec frameId data parity throws t (done ++ rest) := by
  induction rest generalizing s done with
  | nil =>
      cases ran
      rw [List.append_nil]
      exact stage
  | cons a rest ih =>
      obtain ⟨u, stepped, ran⟩ := Option.bind_eq_some_iff.mp ran
      have split : done ++ a :: rest = (done ++ [a]) ++ rest := by
        rw [List.append_assoc]
        rfl
      have first : (delivered frameId (done ++ [a])).Sublist
          (delivered frameId (done ++ a :: rest)) := by
        rw [split]
        exact (List.sublist_append_left _ _).filterMap _
      have next := stage.step frame onFew stepped (fun chunk member => own chunk (first.mem member))
        (once.sublist first) fun timer => inTime done rest (timer ▸ rfl)
      rw [split] at own once inTime ⊢
      exact ih next ran own once inTime

end FecTransform

/-! ## Reassembly -/

/-- `FEC` as the page sets it up. -/
def pageFec (rs : Bytes → Nat → Nat → List Bool → Option Bytes) : Fec where
  rs := rs
  dataShards := 10
  parityShards := 2

/-- The page enqueues the access unit and nothing else for a frame exactly when its shards need no
filling up, and no late shards are left to a library that does not refuse them. -/
theorem reassembles_iff {ε : Type} {library : ErasureLibrary ε} {code : ErasureCode ε}
    {rs : Bytes → Nat → Nat → List Bool → Option Bytes} {throws : Prop} {frameId : UInt32}
    {payload : Bytes} {parity datagrams : List Bytes} {steps : List FecAction} {s : FecTransform}
    (nonempty : payload ≠ []) (made : library 10 2 = .ok code)
    (same : SameCode code (pageFec rs) (fecShards payload 10) parity (shardLength payload 10))
    (onFew : ThrowsOnFew (pageFec rs) throws)
    (sent : encodeAndSendFecDatagrams library frameId payload 10 2 = .ok datagrams)
    (own : ∀ chunk ∈ delivered frameId steps, chunk ∈ datagrams)
    (once : (delivered frameId steps).Nodup) (enough : 10 ≤ (delivered frameId steps).length)
    (inTime : ∀ before after, steps = before ++ .timer frameId :: after →
      10 ≤ (delivered frameId before).length)
    (ran : Stepping.run (FecTransform.step (pageFec rs)) .start steps = some s) :
    s.chunksOf frameId = [payload] ↔
      10 ∣ payload.length ∧ (throws ∨ .timer frameId ∉ steps) := by
  have data_length : (fecShards payload 10).length = 10 := by
    rw [fecShards, List.length_map, List.length_range]
  have frame : FrameShards (pageFec rs) (fecShards payload 10) parity (shardLength payload 10) := by
    have fewer : 2 < 10 := by decide
    have total : 10 + 2 < 256 := by decide
    refine ⟨shardLength_pos (by decide) nonempty, data_length, same.parities, fewer, total,
      fun shard member => ?_, same.reconstructs⟩
    obtain ofData | ofParity := List.mem_append.mp member
    · obtain ⟨i, -, rfl⟩ := List.mem_map.mp ofData
      exact length_fecShard _ _ _
    · exact same.sizes shard ofParity
  have packets : datagrams = (fecShards payload 10 ++ parity).mapIdx
      (packet frameId (fecShards payload 10 ++ parity)) := by
    have some_bytes : payload.isEmpty = false := List.isEmpty_eq_false_iff.mpr nonempty
    have encoded := same.encodes
    change code.encode (_ ++ List.replicate 2 _) = _ at encoded
    rw [encodeAndSendFecDatagrams, made] at sent
    dsimp only at sent
    rw [some_bytes, if_neg (by decide), encoded] at sent
    cases sent
    have total : (fecShards payload 10 ++ parity).length = 10 + 2 := frame.length_eq
    unfold packet
    rw [total]
  have stage := (FecTransform.stage_start frameId frame).run frame onFew ran
    (packets ▸ own) once inTime
  rw [List.nil_append] at stage
  cases stage with
  | collecting fresh holds seen all few quiet waiting =>
      change fresh.length < 10 at few
      omega
  | rebuilt fresh late holds seen behind chunks silent =>
      rw [chunks, List.cons_eq_cons, silent, flatten_fecShards_eq_iff (by decide)]

namespace Sample

/-- The host's library on one frame, whose shards are of one byte. -/
def hostCode (whole : Bytes) : ErasureCode Unit where
  encode _ := .ok (whole.map ([·]))
  reconstruct _ := .ok (whole.map fun b => some [b])

/-- The page's library on this frame. -/
def pageLibrary (whole : Bytes) : Bytes → Nat → Nat → List Bool → Option Bytes :=
  fun _ dataShards _ shardAvailable =>
    if dataShards ≤ shardAvailable.countP id then some whole else none

theorem sameCode {whole payload : Bytes} {parity : List Bytes}
    (shards : fecShards payload 10 ++ parity = whole.map ([·])) (two : parity.length = 2)
    (one : shardLength payload 10 = 1) :
    SameCode (hostCode whole) (pageFec (pageLibrary whole)) (fecShards payload 10) parity
      (shardLength payload 10) where
  encodes := by
    rw [shards]
    rfl
  parities := two
  sizes shard member := by
    have listed : shard ∈ whole.map ([·]) := shards ▸ List.mem_append_right _ member
    obtain ⟨b, -, rfl⟩ := List.mem_map.mp listed
    exact one.symm
  reconstructs received _ enough := by
    have counted : (received.map Option.isSome).countP id = received.countP Option.isSome := by
      rw [List.countP_map]
      rfl
    have whole_eq : (whole.map ([·])).flatten = whole := by
      rw [← List.flatMap_def]
      exact List.flatMap_singleton' whole
    rw [shards, whole_eq]
    exact if_pos (counted ▸ enough)

theorem throwsOnFew (whole : Bytes) : ThrowsOnFew (pageFec (pageLibrary whole)) True :=
  fun _ _ _ _ _ _ few => iff_of_true (if_neg (Nat.not_le.mpr few)) trivial

def datagrams (whole : Bytes) : List Bytes := (whole.map ([·])).mapIdx (fecPacket 7 12)

/-- The parity of the shards of an access unit of ten bytes is 161 and 9. -/
def tenBytes : Bytes := [0, 0, 0, 1, 9, 16, 0, 0, 1, 101]

/-- The last datagrams come first, one of another frame comes between, the one with index 3 is
lost, and the one with index 0 is late. -/
def reversed : List FecAction :=
  (((datagrams (tenBytes ++ [161, 9])).eraseIdx 3).reverse.map .datagram).insertIdx 4
    (.datagram (fecPacket 8 12 5 [1])) ++ [.timer 7]

theorem reassembles_reversed :
    ∃ s, Stepping.run (FecTransform.step (pageFec (pageLibrary (tenBytes ++ [161, 9])))) .start
      reversed = some s ∧ s.chunksOf 7 = [tenBytes] := by
  have finished : (Stepping.run (FecTransform.step (pageFec (pageLibrary (tenBytes ++ [161, 9]))))
      .start reversed).isSome := by decide +kernel
  obtain ⟨s, ran⟩ := Option.isSome_iff_exists.mp finished
  have timers : ∀ n < reversed.length, reversed[n]? = some (.timer 7) →
      10 ≤ (delivered 7 (reversed.take n)).length := by decide
  have same : SameCode (hostCode (tenBytes ++ [161, 9]))
      (pageFec (pageLibrary (tenBytes ++ [161, 9]))) (fecShards tenBytes 10) [[161], [9]]
      (shardLength tenBytes 10) := sameCode (by decide) rfl (by decide)
  have inTime : ∀ before after, reversed = before ++ .timer 7 :: after →
      10 ≤ (delivered 7 before).length := by
    intro before after split
    have enough := timers before.length (by rw [split]; simp) (by rw [split]; simp)
    rwa [split, List.take_left] at enough
  have sent : encodeAndSendFecDatagrams (fun _ _ => .ok (hostCode (tenBytes ++ [161, 9]))) 7
      tenBytes 10 2 = .ok (datagrams (tenBytes ++ [161, 9])) := rfl
  exact ⟨s, ran, (reassembles_iff (by decide) rfl same (throwsOnFew _) sent (by decide)
    (by decide) (by decide) inTime ran).mpr ⟨by decide, .inl trivial⟩⟩

/-- The parity of the shards of a delimiter is 104 and 164. -/
def delimiter : Bytes := [0, 0, 0, 1, 9, 16]

def delimiterShards : Bytes := delimiter ++ [0, 0, 0, 0, 104, 164]

theorem delimiter_not_reassembled :
    SameCode (hostCode delimiterShards) (pageFec (pageLibrary delimiterShards))
        (fecShards delimiter 10) [[104], [164]] (shardLength delimiter 10) ∧
      encodeAndSendFecDatagrams (fun _ _ => .ok (hostCode delimiterShards)) 7 delimiter 10 2 =
        .ok (datagrams delimiterShards) ∧
      (Stepping.run (FecTransform.step (pageFec (pageLibrary delimiterShards))) .start
        (((datagrams delimiterShards).take 10).map .datagram)).map (·.chunksOf 7) =
        some [delimiter ++ [0, 0, 0, 0]] ∧
      [delimiter ++ [0, 0, 0, 0]] ≠ [delimiter] :=
  ⟨sameCode (by decide) rfl (by decide), rfl, by decide, by decide⟩

end Sample

end BrowserVideo

end Qubox.Host
