import Qubox.Media.Reception

/-!
# Exact reassembly

A frame on its way is delivered to a fresh buffer, any of its datagrams in any
order, with recovery and `pop_ready` at any time. Two things can spoil the frame
that is emitted. Parity chunks are stored in the order of their arrival and used
by position, so the loss or the delay of one shifts the others to the wrong
blocks. And a datagram that comes after the frame has left the buffer opens it a
second time, without the length that came with the last data datagram.

As long as neither happens, an emitted frame is the frame that was sent.
-/

namespace Qubox.Media

open JitterBuffer (Op delivered)
open Std (TreeMap)

namespace Transfer

variable (t : Transfer)

/-- The operations of a receiver that gets datagrams of this frame only. -/
def Permits : Op → Prop
  | .deliver datagram _ => datagram ∈ t.datagrams
  | .tryFecRecovery _ blockSize => blockSize = t.blockSize
  | .popReady _ _ => True
  | .popDeadlinePassed _ => False

instance : ∀ op, Decidable (t.Permits op)
  | .deliver datagram _ => inferInstanceAs (Decidable (datagram ∈ t.datagrams))
  | .tryFecRecovery _ blockSize => inferInstanceAs (Decidable (blockSize = t.blockSize))
  | .popReady _ _ => isTrue trivial
  | .popDeadlinePassed _ => isFalse id

/-- Whenever the frame is emitted and its last data datagram has been delivered,
the emitted bytes are those of the frame. -/
def ReassembledExactly (fresh : JitterBuffer) (ops : List Op) : Prop :=
  ∀ before now wallClock after, ops = before ++ .popReady now wallClock :: after →
    ∃ buffer, fresh.run before = some buffer ∧
      ∀ f ∈ (buffer.popReady now wallClock).1, f.frameId = t.frameId →
        t.lastDatagram ∈ delivered before → f.bytes = t.frame

/-- The first block that can be repaired has its own parity chunk at its index. -/
def OwnParity (frame : PendingFrame) : Prop :=
  ∀ k m p, Repairable frame.chunks frame.parity (max t.blockSize 1) k m p →
    (∀ k' < k, ∀ m' p', ¬ Repairable frame.chunks frame.parity (max t.blockSize 1) k' m' p') →
    t.parities[k]? = some p

/-- The trailer, or the fact that there is no padding, is enough for the length. -/
def LengthKnown (past : List Op) (buffer : JitterBuffer) : Prop :=
  chunkPayloadMax ∣ t.frame.length ∨ buffer.maxInflight = 0 ∨
    (t.lastDatagram ∈ delivered past → (buffer.frames[t.frameId]?).isSome)

instance (past : List Op) (buffer : JitterBuffer) : Decidable (t.LengthKnown past buffer) :=
  inferInstanceAs (Decidable (_ ∨ _ ∨ (_ → _)))

/-- Recovery takes parity chunks of the blocks they belong to, and nothing is
delivered to a frame that has left the buffer with its trailer. -/
def InPlace (past : List Op) (buffer : JitterBuffer) : Op → Prop
  | .tryFecRecovery _ _ => ∀ frame, buffer.frames[t.frameId]? = some frame → t.OwnParity frame
  | .deliver _ _ => t.LengthKnown past buffer
  | _ => True

end Transfer

/-! ## The emitted bytes -/

theorem padded_eq_self {frame : Bytes} (whole : chunkPayloadMax ∣ frame.length) :
    padded frame = frame := by
  obtain ⟨n, length⟩ := whole
  have total : chunkTotal frame = n := by
    rw [chunkTotal, length, Nat.add_sub_assoc chunkPayloadMax_pos,
      Nat.mul_add_div chunkPayloadMax_pos, Nat.div_eq_of_lt, Nat.add_zero]
    exact Nat.sub_lt chunkPayloadMax_pos one_pos
  rw [padded, total, length, Nat.mul_comm, Nat.sub_self]
  exact List.append_nil _

/-- A complete frame yields its bytes, cut to the length in the trailer. -/
theorem Gathered.assembleFrame_bytes {t : Transfer} {frame : PendingFrame}
    (gathered : Gathered t frame) (complete : frame.complete) (wallClock : Nat) :
    (assembleFrame frame wallClock).bytes =
      if frame.originalLen.isSome then t.frame else padded t.frame := by
  have chunks := gathered.agrees.eq_data (List.all_eq_true.mp complete)
  have bytes : (frame.chunks.filterMap id).flatten = padded t.frame := by
    rw [chunks, List.filterMap_map, Function.id_comp, List.filterMap_some, flatten_dataChunks]
  simp only [assembleFrame, bytes]
  cases known : frame.originalLen with
  | none => rfl
  | some n =>
      obtain rfl := gathered.originalLen n known
      have fits : t.frame.length ≤ (padded t.frame).length := by
        rw [length_padded]
        exact length_le_chunkTotal _
      simp only [Option.isSome_some, if_true, if_pos fits]
      exact take_padded _

/-- Recovery with the block's own parity chunk keeps to the frame. -/
theorem Gathered.recoveredFrame {t : Transfer} {frame : PendingFrame} (gathered : Gathered t frame)
    (own : t.OwnParity frame) :
    (JitterBuffer.recoverFrame t.blockSize frame).isSome ∧
      Gathered t (JitterBuffer.recoveredFrame t.blockSize frame) ∧
      (JitterBuffer.recoveredFrame t.blockSize frame).originalLen = frame.originalLen := by
  have sized : ∀ d ∈ dataChunks t.frame, d.length = chunkPayloadMax :=
    fun d => length_of_mem_dataChunks t.frame
  rw [JitterBuffer.recoveredFrame, JitterBuffer.recoverFrame]
  rcases recoverWithParity_cases frame.chunks frame.parity (max t.blockSize 1) with
    ⟨e, unchanged⟩ | ⟨k, m, p, repairable, first, repaired⟩
  · rw [unchanged]
    exact ⟨rfl, gathered, rfl⟩
  · have found := own k m p repairable first
    obtain ⟨d, place, result⟩ := gathered.agrees.repair sized repairable
      (Transfer.eq_parityOf_of_parities found)
    rw [repaired, result]
    exact ⟨rfl, ⟨gathered.agrees.set place, gathered.parity, gathered.frameId,
      gathered.originalLen⟩, rfl⟩

/-! ## Runs -/

/-- What is known of the buffer during a run. -/
structure Tracks (t : Transfer) (past : List Op) (buffer : JitterBuffer) : Prop where
  frames : ∀ (id : UInt32) (frame : PendingFrame), buffer.frames[id]? = some frame →
    id = t.frameId ∧ Gathered t frame
  trailer : ¬ chunkPayloadMax ∣ t.frame.length → t.lastDatagram ∈ delivered past →
    ∀ frame, buffer.frames[t.frameId]? = some frame → frame.originalLen.isSome

namespace Tracks

variable {t : Transfer} {past : List Op} {buffer : JitterBuffer}

theorem fresh (t : Transfer) (targetDelay maxInflight : Nat) :
    Tracks t [] (.new targetDelay maxInflight) := by
  refine ⟨fun id frame found => ?_, fun _ member => absurd member List.not_mem_nil⟩
  rw [JitterBuffer.new, TreeMap.getElem?_emptyc] at found
  cases found

/-- Operations that deliver nothing and only take frames away or repair them. -/
theorem mono {op : Op} {after : JitterBuffer} (tracks : Tracks t past buffer)
    (silent : delivered [op] = [])
    (kept : ∀ (id : UInt32) (frame : PendingFrame), after.frames[id]? = some frame →
      ∃ old, buffer.frames[id]? = some old ∧ (Gathered t old → Gathered t frame) ∧
        frame.originalLen = old.originalLen) :
    Tracks t (past ++ [op]) after := by
  refine ⟨fun id frame found => ?_, fun padded last frame found => ?_⟩
  · obtain ⟨old, before, gathered, -⟩ := kept id frame found
    exact ⟨(tracks.frames id old before).1, gathered (tracks.frames id old before).2⟩
  · obtain ⟨old, before, -, same⟩ := kept _ frame found
    rw [JitterBuffer.delivered_append, silent, List.append_nil] at last
    rw [same]
    exact tracks.trailer padded last old before

theorem deliver (small : t.Small) (tracks : Tracks t past buffer) {datagram : Bytes} {now : Nat}
    (member : datagram ∈ t.datagrams) (known : t.LengthKnown past buffer) :
    Tracks t (past ++ [.deliver datagram now]) (buffer.deliver datagram now) := by
  obtain ⟨header, payload, parity, taken⟩ := small.taken member
  have pushed : buffer.deliver datagram now = buffer.pushChunk header payload parity now := by
    rw [JitterBuffer.deliver, taken.routed]
  have base : Gathered t (buffer.frameFor header now) := by
    rw [JitterBuffer.frameFor]
    cases present : buffer.frames[header.frameId]? with
    | none => exact small.gathered_opened taken.frameId taken.chunkCount _ _
    | some frame => exact (tracks.frames _ frame present).2
  have inside : ¬ (buffer.frameFor header now).chunks.length ≤ header.chunkId.toNat := by
    rw [base.agrees.length_eq, length_dataChunks]
    exact Nat.not_le.mpr taken.inside
  have stored : buffer.pushed header payload parity now =
      (buffer.frameFor header now).accept header payload parity := if_neg inside
  rw [pushed]
  refine ⟨fun id frame found => ?_, fun padded last frame found => ?_⟩
  · rcases JitterBuffer.pushChunk_getElem? found with ⟨rfl, rfl⟩ | ⟨-, old⟩
    · rw [stored]
      exact ⟨taken.frameId, taken.gathered _ base⟩
    · exact tracks.frames id frame old
  · rcases JitterBuffer.pushChunk_getElem? found with ⟨-, rfl⟩ | ⟨other, -⟩
    · rw [stored]
      apply taken.originalLen
      rw [JitterBuffer.delivered_append] at last
      rcases List.mem_append.mp last with before | now
      · right
        rcases known with whole | zero | present
        · exact absurd whole padded
        · have none : (buffer.pushChunk header payload parity now).frames.size ≤
              buffer.maxInflight := JitterBuffer.size_pushChunk inside
          rw [zero] at none
          rw [JitterBuffer.getElem?_of_size_eq_zero (Nat.le_zero.mp none)] at found
          cases found
        · obtain ⟨old, present⟩ := Option.isSome_iff_exists.mp (present before)
          rw [JitterBuffer.frameFor, taken.frameId, present]
          exact tracks.trailer padded before old present
      · exact .inl (List.mem_singleton.mp now).symm
    · exact absurd taken.frameId.symm other

theorem step (small : t.Small) (tracks : Tracks t past buffer) {op : Op} (permits : t.Permits op)
    (inPlace : t.InPlace past buffer op) :
    ∃ after, buffer.step op = some after ∧ Tracks t (past ++ [op]) after := by
  cases op with
  | deliver datagram now => exact ⟨_, rfl, tracks.deliver small permits inPlace⟩
  | tryFecRecovery now blockSize =>
      obtain rfl : blockSize = t.blockSize := permits
      have repaired (id : UInt32) (frame : PendingFrame)
          (found : buffer.frames[id]? = some frame) :=
        let known := tracks.frames id frame found
        known.2.recoveredFrame (inPlace frame (known.1 ▸ found))
      obtain ⟨count, after, ran⟩ := JitterBuffer.tryFecRecovery_isSome now
        fun id frame found => (repaired id frame found).1
      refine ⟨after, by rw [JitterBuffer.step, ran]; rfl, tracks.mono rfl fun id frame found => ?_⟩
      rw [(JitterBuffer.tryFecRecovery_getElem? ran).2] at found
      obtain ⟨old, before, rfl⟩ := Option.map_eq_some_iff.mp found
      exact ⟨old, before, fun _ => (repaired id old before).2.1, (repaired id old before).2.2⟩
  | popReady now wallClock =>
      refine ⟨_, rfl, tracks.mono rfl fun id frame found => ?_⟩
      rw [JitterBuffer.popReady_getElem?] at found
      exact ⟨frame, (Option.filter_eq_some_iff.mp found).1, fun gathered => gathered, rfl⟩
  | popDeadlinePassed now => exact permits.elim

/-- What is emitted in such a state. -/
theorem emitted (tracks : Tracks t past buffer) {now : Nat} {wallClock : UInt32 → Nat}
    {f : ReassembledFrame} (emitted : f ∈ (buffer.popReady now wallClock).1)
    (last : t.lastDatagram ∈ delivered past) : f.bytes = t.frame := by
  obtain ⟨id, frame, found, complete, rfl⟩ := (buffer.mem_popReady).mp emitted
  obtain ⟨rfl, gathered⟩ := tracks.frames id frame found
  rw [gathered.assembleFrame_bytes complete]
  by_cases whole : chunkPayloadMax ∣ t.frame.length
  · rw [padded_eq_self whole, ite_self]
  · rw [if_pos (tracks.trailer whole last frame found)]

end Tracks

/-- Parity chunks cannot be in the wrong place in a frame of one block. -/
theorem Gathered.ownParity {t : Transfer} {frame : PendingFrame} (gathered : Gathered t frame)
    (oneBlock : chunkTotal t.frame ≤ max t.blockSize 1) : t.OwnParity frame := by
  intro k m p repairable _
  have member := gathered.parity p (List.mem_of_getElem? repairable.parity)
  obtain ⟨k', found⟩ := List.mem_iff_getElem?.mp member
  have single (j : Nat) (inside : j * max t.blockSize 1 < chunkTotal t.frame) : j = 0 := by
    rcases Nat.eq_zero_or_pos j with zero | pos
    · exact zero
    · have := Nat.le_mul_of_pos_left (max t.blockSize 1) pos
      omega
  have inside := (List.getElem?_eq_some_iff.mp found).1
  rw [Transfer.parities, parityChunks, List.length_map, List.lt_length_pieces (by omega),
    length_dataChunks] at inside
  have first := repairable.inside
  rw [gathered.agrees.length_eq, length_dataChunks] at first
  rw [single k first, ← single k' inside, found]

theorem reassembledExactly_of_inPlace {t : Transfer} (small : t.Small)
    (targetDelay maxInflight : Nat) {ops : List Op} (permitted : ∀ op ∈ ops, t.Permits op)
    (inPlace : JitterBuffer.Along t.InPlace [] (.new targetDelay maxInflight) ops) :
    t.ReassembledExactly (.new targetDelay maxInflight) ops := by
  rintro before now wallClock after rfl
  obtain ⟨buffer, ran, tracks⟩ := JitterBuffer.run_invariant (I := Tracks t)
    (fun past buffer op inside ok tracks =>
      tracks.step small (permitted op (List.mem_append_left _ inside)) ok)
    (Tracks.fresh t targetDelay maxInflight) inPlace.left
  exact ⟨buffer, ran, fun f emitted _ last => tracks.emitted emitted last⟩

/-- In a frame of one block only the second condition matters. -/
theorem inPlace_of_oneBlock {t : Transfer} (small : t.Small)
    (oneBlock : chunkTotal t.frame ≤ max t.blockSize 1) {targetDelay maxInflight : Nat}
    {ops : List Op} (permitted : ∀ op ∈ ops, t.Permits op)
    (known : JitterBuffer.Along (fun past buffer _ => t.LengthKnown past buffer) []
      (.new targetDelay maxInflight) ops) :
    JitterBuffer.Along t.InPlace [] (.new targetDelay maxInflight) ops := by
  refine JitterBuffer.Along.imp (I := Tracks t) (fun past buffer op inside known tracks => ?_)
    (Tracks.fresh t targetDelay maxInflight) known
  have inPlace : t.InPlace past buffer op := by
    cases op with
    | deliver datagram now => exact known
    | tryFecRecovery now blockSize =>
        exact fun frame found => (tracks.frames _ frame found).2.ownParity oneBlock
    | popReady now wallClock | popDeadlinePassed now => trivial
  refine ⟨inPlace, fun after stepped => ?_⟩
  obtain ⟨after', stepped', kept⟩ := tracks.step small (permitted op inside) inPlace
  cases stepped.symm.trans stepped'
  exact kept

namespace Sample

/-- A frame of two chunks, the second of one byte. -/
def twoChunks : Bytes := List.replicate 1200 1 ++ [2]

def transfer (blockSize : Nat) : Transfer where
  blockSize
  streamId := 0
  frameId := 0
  unit := { codec := .h264, keyframe := true, bytes := twoChunks }
  nonempty := by decide

/-- Delivery of the datagram with this number. -/
def deliverNth (blockSize n : Nat) : Op := .deliver ((transfer blockSize).datagrams.getD n []) 0

/-- The first data datagram of one block is lost. -/
def firstLost : List Op :=
  [deliverNth 2 1, deliverNth 2 2, .tryFecRecovery 0 2, .popReady 0 fun _ => 0]

/-- With blocks of one chunk, the first data datagram and its parity are lost. -/
def firstBlockLost : List Op :=
  [deliverNth 1 1, deliverNth 1 3, .tryFecRecovery 0 1, .popReady 0 fun _ => 0]

end Sample

theorem firstLost_reassembledExactly :
    ((JitterBuffer.new 0 1).run Sample.firstLost.dropLast).map
        (fun buffer => (buffer.popReady 0 fun _ => 0).1.map ReassembledFrame.bytes) =
      some [Sample.twoChunks] ∧
    (Sample.transfer 2).ReassembledExactly (.new 0 1) Sample.firstLost := by
  have permitted : ∀ op ∈ Sample.firstLost, (Sample.transfer 2).Permits op := by
    decide +kernel
  refine ⟨by decide +kernel, reassembledExactly_of_inPlace (by decide +kernel) 0 1 permitted
    (inPlace_of_oneBlock (by decide +kernel) (by decide +kernel) permitted (by decide +kernel))⟩

theorem firstBlockLost_not_exact :
    ¬ ∀ (t : Transfer) (targetDelay maxInflight : Nat) (ops : List Op), t.Small →
      1 ≤ t.blockSize → (∀ op ∈ ops, t.Permits op) → (delivered ops).Subperm t.datagrams →
      t.ReassembledExactly (.new targetDelay maxInflight) ops := by
  intro exact_always
  have some_of_them : (delivered Sample.firstBlockLost).Sublist (Sample.transfer 1).datagrams := by
    decide +kernel
  obtain ⟨buffer, ran, emits⟩ := exact_always (Sample.transfer 1) 0 1 Sample.firstBlockLost
    (by decide +kernel) (by decide) (by decide +kernel) some_of_them.subperm
    Sample.firstBlockLost.dropLast 0 (fun _ => 0) [] rfl
  have wrong : ((JitterBuffer.new 0 1).run Sample.firstBlockLost.dropLast).map
      (fun buffer => (buffer.popReady 0 fun _ => 0).1.map
        fun f => (f.frameId, decide (f.bytes = Sample.twoChunks))) = some [(0, false)] := by
    decide +kernel
  rw [ran] at wrong
  obtain ⟨f, emitted, same⟩ := List.mem_map.mp (Option.some.inj wrong ▸ List.mem_singleton.mpr rfl)
  obtain ⟨id, differs⟩ := Prod.mk.inj same
  exact of_decide_eq_false differs (emits f emitted id (by decide +kernel))

end Qubox.Media
