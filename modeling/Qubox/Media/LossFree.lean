import Qubox.Media.Delivery
import Qubox.Media.SingleLoss

/-!
# Delivery without loss

All data datagrams of a frame reach a buffer in some order, next to other frames
that the buffer already holds and with room for one more. `pop_ready` then
returns the frame that was sent, once, and does to the other frames what it would
have done without it. Codec, stream and keyframe flag are those of the datagram
that came first, and every data datagram carries the same.
-/

namespace Qubox.Media

open JitterBuffer (Op)
open Std (TreeMap)

/-- Whether the dispatcher takes the datagram for a data chunk. -/
def carriesData (datagram : Bytes) : Bool :=
  match dispatch datagram with
  | .media _ _ parity => !parity
  | _ => false

/-- The frame that came out is the one that was sent. -/
structure Reproduces (t : Transfer) (f : ReassembledFrame) : Prop where
  frameId : f.frameId = t.frameId
  bytes : f.bytes = t.unit.bytes
  codec : f.codec = t.unit.codec
  streamId : f.streamId = t.streamId
  keyframe : f.flags &&& flagKeyframe ≠ 0 ↔ t.unit.keyframe = true

/-! ## Frames and their ids -/

/-- Pending frames are stored under their ids. -/
def Keyed (buffer : JitterBuffer) : Prop :=
  ∀ (id : UInt32) (frame : PendingFrame), buffer.frames[id]? = some frame → frame.frameId = id

theorem keyed_new (targetDelay maxInflight : Nat) : Keyed (.new targetDelay maxInflight) := by
  intro id frame found
  rw [JitterBuffer.new, TreeMap.getElem?_emptyc] at found
  cases found

theorem Keyed.step {buffer after : JitterBuffer} {op : Op} (keyed : Keyed buffer)
    (stepped : buffer.step op = some after) : Keyed after := by
  intro id frame found
  cases op with
  | deliver datagram now =>
      cases stepped
      rw [JitterBuffer.deliver] at found
      split at found
      case h_1 header payload parity _ =>
        rcases JitterBuffer.pushChunk_getElem? found with ⟨rfl, rfl⟩ | ⟨-, old⟩
        · have base : (buffer.frameFor header now).frameId = header.frameId := by
            rw [JitterBuffer.frameFor]
            cases present : buffer.frames[header.frameId]? with
            | none => rfl
            | some old => exact keyed _ old present
          rw [JitterBuffer.pushed]
          split
          · exact base
          · rw [accept_frameId, base]
        · exact keyed id frame old
      case h_2 => exact keyed id frame found
  | tryFecRecovery now blockSize =>
      obtain ⟨⟨count, next⟩, ran, rfl⟩ := Option.map_eq_some_iff.mp stepped
      rw [(JitterBuffer.tryFecRecovery_getElem? ran).2] at found
      obtain ⟨old, before, rfl⟩ := Option.map_eq_some_iff.mp found
      rw [recoveredFrame_frameId]
      exact keyed id old before
  | popReady now wallClock =>
      cases stepped
      rw [JitterBuffer.popReady_getElem?] at found
      exact keyed id frame (Option.filter_eq_some_iff.mp found).1
  | popDeadlinePassed now =>
      cases stepped
      rw [JitterBuffer.popDeadlinePassed_getElem?] at found
      exact keyed id frame (Option.filter_eq_some_iff.mp found).1

theorem Keyed.run {buffer after : JitterBuffer} {ops : List Op} (keyed : Keyed buffer)
    (ran : buffer.run ops = some after) : Keyed after := by
  induction ops generalizing buffer with
  | nil =>
      cases ran
      exact keyed
  | cons op ops ih =>
      rw [JitterBuffer.run_cons] at ran
      obtain ⟨next, stepped, rest⟩ := Option.bind_eq_some_iff.mp ran
      exact ih (keyed.step stepped) rest

/-! ## A chunk that fits -/

/-- With room for its frame, a chunk displaces no other frame. -/
theorem JitterBuffer.pushChunk_frames {buffer : JitterBuffer} {header : MediaDatagramHeader}
    {payload : Bytes} {parity : Bool} {now : Nat}
    (inside : ¬ (buffer.frameFor header now).chunks.length ≤ header.chunkId.toNat)
    (room : (if header.frameId ∈ buffer.frames then buffer.frames.size
      else buffer.frames.size + 1) ≤ buffer.maxInflight) :
    (buffer.pushChunk header payload parity now).frames =
      buffer.frames.insert header.frameId (buffer.pushed header payload parity now) := by
  rw [pushed, if_neg inside]
  rw [frameFor] at inside
  rw [pushChunk, if_neg inside, dropOldest_of_le]
  · rfl
  · rw [noteArrival_frames]
    simp only [TreeMap.size_insert]
    exact room

/-! ## Collecting a frame next to others -/

/-- Codec, stream and keyframe flag are those of the frame that was sent. -/
structure Stamped (t : Transfer) (frame : PendingFrame) : Prop where
  codec : frame.codec = t.unit.codec
  streamId : frame.streamId = t.streamId
  keyframe : frame.flags &&& flagKeyframe ≠ 0 ↔ t.unit.keyframe = true

theorem codecFromByte_codecToByte (codec : VideoCodec) :
    codecFromByte (codecToByte codec) = codec := by
  cases codec <;> decide

theorem Transfer.stamped_opened (t : Transfer) (i now deadline : Nat) :
    Stamped t (.opened (t.dataHeader i) now deadline) := by
  refine ⟨codecFromByte_codecToByte _, rfl, ?_⟩
  simp only [PendingFrame.opened, dataHeader, MediaDatagramSender.dataHeader,
    MediaDatagramSender.baseFlags]
  cases t.unit.keyframe <;> cases MediaDatagramSender.isLastData t.chunkCount i <;> decide

theorem Stamped.accept {t : Transfer} {frame : PendingFrame} (stamped : Stamped t frame)
    (header : MediaDatagramHeader) (payload : Bytes) (parity : Bool) :
    Stamped t (frame.accept header payload parity) := by
  rw [PendingFrame.accept]
  split
  · exact ⟨stamped.codec, stamped.streamId, stamped.keyframe⟩
  · split <;> exact ⟨stamped.codec, stamped.streamId, stamped.keyframe⟩

namespace Transfer

variable {t : Transfer}

/-- The buffer has collected these parts beside what it held before. -/
structure Beside (t : Transfer) (before : JitterBuffer) (parts : List Part)
    (buffer : JitterBuffer) : Prop where
  others : ∀ id, id ≠ t.frameId → buffer.frames[id]? = before.frames[id]?
  frame : ∀ frame, buffer.frames[t.frameId]? = some frame → Holding t parts frame ∧ Stamped t frame
  absent : buffer.frames[t.frameId]? = none ↔ parts = []
  room : (if t.frameId ∈ buffer.frames then buffer.frames.size else buffer.frames.size + 1) ≤
    buffer.maxInflight

theorem beside_start {buffer : JitterBuffer} (absent : buffer.frames[t.frameId]? = none)
    (room : buffer.frames.size < buffer.maxInflight) : Beside t buffer [] buffer := by
  refine ⟨fun _ _ => rfl, fun frame found => ?_, iff_of_true absent rfl, ?_⟩
  · cases absent.symm.trans found
  · have outside : t.frameId ∉ buffer.frames := by
      rw [TreeMap.mem_iff_isSome_getElem?, absent]
      exact Bool.false_ne_true
    rw [if_neg outside]
    exact room

theorem Beside.deliver {before buffer : JitterBuffer} {parts : List Part} (small : t.Small)
    (beside : Beside t before parts buffer) {i : Nat} (inside : i < chunkTotal t.frame)
    (now : Nat) :
    Beside t before (parts ++ [.data i]) (buffer.deliver (t.datagramOf (.data i)) now) := by
  have pushed : buffer.deliver (t.datagramOf (.data i)) now =
      buffer.pushChunk (t.dataHeader i) (t.chunk i ++ t.trailer i) false now := by
    rw [datagramOf, JitterBuffer.deliver, t.dispatch_data]
  have base : Holding t parts (buffer.frameFor (t.dataHeader i) now) ∧
      Stamped t (buffer.frameFor (t.dataHeader i) now) := by
    rw [JitterBuffer.frameFor]
    change Holding t parts (buffer.frames[t.frameId]?.getD _) ∧
      Stamped t (buffer.frames[t.frameId]?.getD _)
    cases present : buffer.frames[t.frameId]? with
    | none =>
        rw [beside.absent.mp present]
        exact ⟨small.holding_opened rfl rfl _ _, t.stamped_opened i _ _⟩
    | some frame => exact beside.frame frame present
  have within : ¬ (buffer.frameFor (t.dataHeader i) now).chunks.length ≤
      (t.dataHeader i).chunkId.toNat := by
    rw [base.1.size]
    exact Nat.not_le.mpr ((small.toNat_ofNat inside).trans_lt inside)
  have stored : buffer.pushed (t.dataHeader i) (t.chunk i ++ t.trailer i) false now =
      (buffer.frameFor (t.dataHeader i) now).accept (t.dataHeader i)
        (t.chunk i ++ t.trailer i) false := by
    rw [JitterBuffer.pushed, if_neg within]
  have frames : (buffer.pushChunk (t.dataHeader i) (t.chunk i ++ t.trailer i) false now).frames =
      buffer.frames.insert t.frameId _ := JitterBuffer.pushChunk_frames within beside.room
  rw [pushed]
  refine ⟨fun id other => ?_, fun frame found => ?_, iff_of_false ?_ (by simp), ?_⟩
  · have apart : compare t.frameId id ≠ .eq := by
      rw [Ne, Std.LawfulEqCmp.compare_eq_iff_eq]
      exact Ne.symm other
    rw [frames, TreeMap.getElem?_insert, if_neg apart, beside.others id other]
  · rw [frames, TreeMap.getElem?_insert_self] at found
    rw [← Option.some.inj found, stored]
    exact ⟨base.1.data small inside, base.2.accept _ _ _⟩
  · rw [frames, TreeMap.getElem?_insert_self]
    exact Option.some_ne_none _
  · have here : t.frameId ∈ (buffer.pushChunk (t.dataHeader i) (t.chunk i ++ t.trailer i) false
        now).frames := by
      rw [frames]
      exact TreeMap.mem_insert_self
    rw [if_pos here, frames, TreeMap.size_insert, JitterBuffer.pushChunk_maxInflight]
    exact beside.room

/-- Delivering data chunks of a small frame, in any order and at any times. -/
theorem Beside.run {before buffer : JitterBuffer} {past : List Part} (small : t.Small)
    (beside : Beside t before past buffer) (arrivals : List (Nat × Nat))
    (valid : ∀ a ∈ arrivals, a.1 < chunkTotal t.frame) :
    ∃ after, buffer.run (arrivals.map fun a => .deliver (t.datagramOf (.data a.1)) a.2) =
        some after ∧ Beside t before (past ++ arrivals.map fun a => .data a.1) after := by
  induction arrivals generalizing past buffer with
  | nil => exact ⟨buffer, rfl, by simpa using beside⟩
  | cons a arrivals ih =>
      have next := beside.deliver small (valid a List.mem_cons_self) a.2
      obtain ⟨after, ran, done⟩ := ih next fun b later => valid b (.tail _ later)
      exact ⟨after, ran, by simpa using done⟩

theorem Small.filter_datagrams (small : t.Small) : t.datagrams.filter carriesData =
    (List.range (chunkTotal t.frame)).map fun i => t.datagramOf (.data i) := by
  have data : ∀ i, carriesData (t.datagramOf (.data i)) = true := by
    intro i
    rw [datagramOf, carriesData, t.dispatch_data]
    rfl
  have parity : ∀ k, ¬ carriesData (t.datagramOf (.parity k)) = true := by
    intro k
    rw [datagramOf, carriesData, t.dispatch_parity]
    exact Bool.false_ne_true
  rw [small.datagrams_eq_map, parts, List.map_append, List.map_map, List.map_map,
    List.filter_append, List.filter_eq_self.mpr, List.filter_eq_nil_iff.mpr, List.append_nil]
  · rfl
  · intro datagram member
    obtain ⟨k, -, rfl⟩ := List.mem_map.mp member
    exact parity k
  · intro datagram member
    obtain ⟨i, -, rfl⟩ := List.mem_map.mp member
    exact data i

/-- The frame once all data chunks have come. -/
theorem Holding.reproduces {parts : List Part} {frame : PendingFrame}
    (holding : Holding t parts frame) (stamped : Stamped t frame)
    (valid : ∀ part ∈ parts, part ∈ t.parts) (all : ∀ i < chunkTotal t.frame, .data i ∈ parts)
    (wallClock : Nat) : frame.complete = true ∧ Reproduces t (assembleFrame frame wallClock) := by
  have complete : frame.complete = true := by
    refine List.all_eq_true.mpr fun c member => ?_
    obtain ⟨i, bound, rfl⟩ := List.mem_iff_getElem.mp member
    have inside : i < chunkTotal t.frame := holding.size ▸ bound
    have found := holding.chunks i inside
    rw [if_pos (all i inside), List.getElem?_eq_getElem bound] at found
    rw [Option.some.inj found]
    rfl
  have last : .data (chunkTotal t.frame - 1) ∈ parts := all _ (Nat.sub_lt t.total_pos one_pos)
  refine ⟨complete, holding.frameId, ?_, stamped.codec, stamped.streamId, stamped.keyframe⟩
  rw [(holding.gathered valid).assembleFrame_bytes complete, holding.originalLen, if_pos last]
  rfl

end Transfer

/-! ## What comes out -/

/-- Entries under distinct ids, of which one is wanted. -/
theorem filter_id_eq_singleton {entries : List (UInt32 × PendingFrame)} {id : UInt32}
    {frame : PendingFrame} (distinct : entries.Pairwise fun a b => ¬ compare a.1 b.1 = .eq)
    (member : (id, frame) ∈ entries) : entries.filter (fun e => e.1 = id) = [(id, frame)] := by
  induction entries with
  | nil => cases member
  | cons e entries ih =>
      obtain ⟨apart, rest⟩ := List.pairwise_cons.mp distinct
      rcases List.mem_cons.mp member with rfl | later
      · have none : entries.filter (fun e => e.1 = id) = [] := by
          refine List.filter_eq_nil_iff.mpr fun other inside same => ?_
          exact apart other inside (Std.LawfulEqCmp.compare_eq_iff_eq.mpr
            (of_decide_eq_true same).symm)
        simp [none]
      · have other : ¬ e.1 = id := fun same =>
          apart _ later (Std.LawfulEqCmp.compare_eq_iff_eq.mpr same)
        simp [other, ih rest later]

/-- A complete frame is returned once. -/
theorem Keyed.filter_popReady {buffer : JitterBuffer} (keyed : Keyed buffer) {id : UInt32}
    {frame : PendingFrame} (found : buffer.frames[id]? = some frame)
    (complete : frame.complete = true) (now : Nat) (wallClock : UInt32 → Nat) :
    (buffer.popReady now wallClock).1.filter (fun f => f.frameId = id) =
      [assembleFrame frame (wallClock id)] := by
  have ids : ∀ e ∈ buffer.frames.toList.filter (fun e => e.2.complete),
      decide ((assembleFrame e.2 (wallClock e.1)).frameId = id) = decide (e.1 = id) := by
    rintro ⟨id', frame'⟩ member
    have present := TreeMap.mem_toList_iff_getElem?_eq_some.mp (List.mem_filter.mp member).1
    rw [← keyed id' frame' present]
    rfl
  have single := filter_id_eq_singleton buffer.frames.distinct_keys_toList
    (TreeMap.mem_toList_iff_getElem?_eq_some.mpr found)
  rw [JitterBuffer.popReady, List.filter_map, Function.comp_def, List.filter_congr ids,
    List.filter_comm, single]
  simp [complete]

/-- All data datagrams of a frame, delivered in any order, bring out the frame. -/
theorem Transfer.Small.reproducedOnce {t : Transfer} (small : t.Small)
    {targetDelay maxInflight : Nat} {past : List Op} {buffer : JitterBuffer}
    (reached : (JitterBuffer.new targetDelay maxInflight).run past = some buffer)
    (absent : buffer.frames[t.frameId]? = none) (room : buffer.frames.size < buffer.maxInflight)
    {deliveries : List (Bytes × Nat)}
    (order : (deliveries.map Prod.fst).Perm (t.datagrams.filter carriesData))
    (now : Nat) (wallClock : UInt32 → Nat) :
    ∃ collected f,
      buffer.run (deliveries.map fun d => .deliver d.1 d.2) = some collected ∧
      (collected.popReady now wallClock).1.filter (fun g => g.frameId = t.frameId) = [f] ∧
      Reproduces t f ∧
      ∀ id, id ≠ t.frameId → collected.frames[id]? = buffer.frames[id]? ∧
        (collected.popReady now wallClock).2.frames[id]? =
          buffer.frames[id]?.filter fun frame => !frame.complete := by
  rw [small.filter_datagrams] at order
  obtain ⟨numbers, permuted, image⟩ := exists_map_of_perm_map order
  obtain ⟨arrivals, firsts, rfl⟩ : ∃ arrivals : List (Nat × Nat),
      arrivals.map Prod.fst = numbers ∧
        deliveries = arrivals.map fun a => (t.datagramOf (.data a.1), a.2) := by
    have same : numbers.length = (deliveries.map Prod.snd).length := by
      have lengths := congrArg List.length image
      rw [List.length_map, List.length_map] at lengths
      rw [List.length_map, lengths]
    refine ⟨numbers.zip (deliveries.map Prod.snd), List.map_fst_zip same.le, ?_⟩
    have whole : (deliveries.map Prod.fst).zip (deliveries.map Prod.snd) = deliveries :=
      (List.zip_of_prod rfl rfl).symm
    rw [image, List.zip_map_left] at whole
    exact whole.symm
  have inside : ∀ a ∈ arrivals, a.1 < chunkTotal t.frame := by
    intro a member
    have number : a.1 ∈ numbers := firsts ▸ List.mem_map_of_mem member
    exact List.mem_range.mp (permuted.subset number)
  obtain ⟨collected, ran, beside⟩ := (Transfer.beside_start absent room).run small arrivals inside
  rw [List.nil_append] at beside
  have all : ∀ i < chunkTotal t.frame, .data i ∈ arrivals.map fun a => Part.data a.1 := by
    intro i bound
    have number : i ∈ arrivals.map Prod.fst := by
      rw [firsts]
      exact permuted.symm.subset (List.mem_range.mpr bound)
    obtain ⟨a, member, rfl⟩ := List.mem_map.mp number
    exact List.mem_map.mpr ⟨a, member, rfl⟩
  have valid : ∀ part ∈ arrivals.map fun a => Part.data a.1, part ∈ t.parts := by
    intro part member
    obtain ⟨a, arrived, rfl⟩ := List.mem_map.mp member
    exact Transfer.data_mem_parts.mpr (inside a arrived)
  have some_part : (arrivals.map fun a => Part.data a.1) ≠ [] :=
    List.ne_nil_of_mem (all 0 t.total_pos)
  obtain ⟨frame, present⟩ := Option.ne_none_iff_exists'.mp
    fun none => some_part (beside.absent.mp none)
  obtain ⟨holding, stamped⟩ := beside.frame frame present
  obtain ⟨complete, reproduces⟩ := holding.reproduces stamped valid all (wallClock t.frameId)
  have keyed : Keyed collected := ((keyed_new _ _).run reached).run ran
  refine ⟨collected, assembleFrame frame (wallClock t.frameId), ?_,
    keyed.filter_popReady present complete now wallClock, reproduces, fun id other => ?_⟩
  · rw [List.map_map]
    exact ran
  · have kept := beside.others id other
    exact ⟨kept, by rw [JitterBuffer.popReady_getElem?, kept]⟩

namespace Sample

/-- A buffer that holds the first datagram of the frame after the sample. -/
def holdingNext : JitterBuffer :=
  (JitterBuffer.new 0 2).deliver
    (({ transfer 2 with frameId := (transfer 2).frameId + 1 } : Transfer).datagrams.getD 0 []) 0

/-- The data datagrams of the sample, the last one first. -/
def lastFirst : List (Bytes × Nat) :=
  ((transfer 2).datagrams.filter carriesData).reverse.map fun datagram => (datagram, 3)

theorem lastFirst_reproducedOnce : ∃ collected f,
    holdingNext.run (lastFirst.map fun d => .deliver d.1 d.2) = some collected ∧
      (collected.popReady 9 fun _ => 0).1.filter (fun g => g.frameId = (transfer 2).frameId) = [f] ∧
      Reproduces (transfer 2) f ∧
      ∀ id, id ≠ (transfer 2).frameId → collected.frames[id]? = holdingNext.frames[id]? ∧
        (collected.popReady 9 fun _ => 0).2.frames[id]? =
          holdingNext.frames[id]?.filter fun frame => !frame.complete := by
  have small : (transfer 2).Small := by decide +kernel
  have order : (lastFirst.map Prod.fst).Perm ((transfer 2).datagrams.filter carriesData) := by
    rw [lastFirst, List.map_map, Function.comp_def, List.map_id']
    exact List.reverse_perm _
  have reached : (JitterBuffer.new 0 2).run [.deliver _ 0] = some holdingNext := rfl
  exact small.reproducedOnce reached (by decide +kernel) (by decide +kernel) order 9 fun _ => 0

end Sample

end Qubox.Media
