import Mathlib.Data.List.InsertIdx
import Qubox.Media.Collection
import Qubox.Media.Reassembly

/-!
# Loss of one data chunk

All datagrams of a frame of one block arrive except one data datagram. Recovery
then restores the missing chunk, since the only parity chunk cannot be in the
wrong place. Whether the frame gets its length back depends on which chunk was
lost: the length travels with the last data chunk alone, and the parity covers
the padding. Frames whose chunks cannot be counted in 16 bits come out short.
-/

namespace Qubox.Media

open JitterBuffer (Op)
open Std (TreeMap)

/-- Every order of the images is the image of some order. -/
theorem exists_map_of_perm_map {α β : Type} {f : α → β} {l : List α} {m : List β}
    (order : m.Perm (l.map f)) : ∃ l' : List α, l'.Perm l ∧ m = l'.map f := by
  generalize image : l.map f = m' at order
  induction order generalizing l with
  | nil => exact ⟨[], by simp [List.map_eq_nil_iff.mp image], rfl⟩
  | cons b order ih =>
      obtain ⟨a, rest, rfl, rfl, tail⟩ := List.map_eq_cons_iff.mp image
      obtain ⟨l', perm, rfl⟩ := ih tail
      exact ⟨a :: l', perm.cons a, rfl⟩
  | swap b c m =>
      obtain ⟨a, rest, rfl, rfl, tail⟩ := List.map_eq_cons_iff.mp image
      obtain ⟨a', rest', rfl, rfl, rfl⟩ := List.map_eq_cons_iff.mp tail
      exact ⟨a' :: a :: rest', .swap a a' rest', rfl⟩
  | trans _ _ first second =>
      obtain ⟨l', perm, rfl⟩ := second image
      obtain ⟨l'', perm', rfl⟩ := first rfl
      exact ⟨l'', perm'.trans perm, rfl⟩

namespace Transfer

variable {t : Transfer}

/-- What was delivered, then recovery, then `pop_ready`: one frame comes out, and
it is the one that was sent. -/
def RecoversLoss (t : Transfer) (fresh : JitterBuffer) (deliveries : List (Bytes × Nat))
    (now : Nat) (wallClock : UInt32 → Nat) : Prop :=
  ∃ collected count recovered f,
    fresh.run (deliveries.map fun d => .deliver d.1 d.2) = some collected ∧
    collected.tryFecRecovery now t.blockSize = some (count, recovered) ∧
    (recovered.popReady now wallClock).1 = [f] ∧ f.bytes = t.frame

/-! ## Parts but one -/

theorem parities_of_oneBlock (oneBlock : chunkTotal t.frame ≤ t.blockSize) :
    t.parities.length = 1 := by
  have pos := t.total_pos
  have size : max t.blockSize 1 = t.blockSize := by omega
  rw [parities, parityChunks, List.length_map, List.length_pieces, length_dataChunks, size]
  exact Nat.div_eq_of_lt_le (by omega) (by omega)

section Loss

variable {i : Nat} {parts : List Part}

theorem data_mem_of_loss (order : parts.Perm (t.parts.eraseIdx i)) {j : Nat}
    (inside : j < chunkTotal t.frame) : .data j ∈ parts ↔ j ≠ i := by
  rw [order.mem_iff, List.mem_eraseIdx_iff_getElem?]
  have place (m : Nat) : t.parts[m]? = some (.data j) ↔ m = j := by
    rw [Transfer.parts, List.getElem?_append]
    split
    case isTrue first =>
      simp only [List.length_map, List.length_range] at first
      simp [first]
    case isFalse second =>
      simp only [List.length_map, List.length_range] at second
      simp only [List.getElem?_map, Option.map_eq_some_iff, reduceCtorEq, and_false, exists_false,
        false_iff]
      omega
  simp only [place]
  constructor
  · rintro ⟨m, other, rfl⟩
    exact other
  · exact fun other => ⟨j, other, rfl⟩

theorem parity_of_loss (oneBlock : chunkTotal t.frame ≤ t.blockSize)
    (inside : i < chunkTotal t.frame) (order : parts.Perm (t.parts.eraseIdx i)) :
    parts.filterMap t.parityIn = [t.parityChunk 0] := by
  apply List.perm_singleton.mp
  refine (order.filterMap _).trans (List.Perm.of_eq ?_)
  rw [Transfer.parts, List.eraseIdx_append_of_lt_length (by simpa using inside),
    parities_of_oneBlock oneBlock, List.filterMap_append]
  have none : (((List.range (chunkTotal t.frame)).map Part.data).eraseIdx i).filterMap
      t.parityIn = [] := by
    rw [List.filterMap_eq_nil_iff]
    intro part member
    obtain ⟨j, -, rfl⟩ := List.mem_map.mp (List.mem_of_mem_eraseIdx member)
    rfl
  rw [none]
  rfl

end Loss

theorem Holding.gathered {parts : List Part} {frame : PendingFrame}
    (holding : Holding t parts frame)
    (valid : ∀ part ∈ parts, part ∈ t.parts) : Gathered t frame := by
  refine ⟨List.forall₂_iff_get.mpr ⟨?_, fun j low high b => ?_⟩, fun p member => ?_,
    holding.frameId, fun n known => ?_⟩
  · rw [holding.size, length_dataChunks]
  · have inside : j < chunkTotal t.frame := holding.size ▸ high
    have found := holding.chunks j inside
    have place := getElem?_chunk inside
    simp only [List.getElem?_eq_getElem high, List.getElem?_eq_getElem low,
      Option.some.injEq] at found place
    simp only [List.get_eq_getElem, found, place]
    split
    · exact fun same => (Option.some.inj same).symm
    · exact nofun
  · rw [holding.parity] at member
    obtain ⟨part, inside, carries⟩ := List.mem_filterMap.mp member
    cases part with
    | data j => cases carries
    | parity k =>
        cases carries
        exact List.mem_of_getElem? (getElem?_parityChunk (parity_mem_parts.mp (valid _ inside)))
  · rw [holding.originalLen] at known
    split at known
    · exact (Option.some.inj known).symm
    · cases known

section Recovery

variable {i : Nat} {parts : List Part} {frame : PendingFrame}

/-- The chunks of a frame that lacks one of them. -/
theorem Holding.chunks_eq (holding : Holding t parts frame) (inside : i < chunkTotal t.frame)
    (order : parts.Perm (t.parts.eraseIdx i)) : frame.chunks =
      ((dataChunks t.frame).take i).map some ++
        none :: ((dataChunks t.frame).drop (i + 1)).map some := by
  have front : (((dataChunks t.frame).take i).map some).length = i := by
    rw [List.length_map, List.length_take, length_dataChunks]
    omega
  apply List.ext_getElem?
  intro j
  by_cases bound : j < chunkTotal t.frame
  · rw [holding.chunks j bound, List.getElem?_append, front]
    simp only [data_mem_of_loss order bound]
    rcases Nat.lt_trichotomy j i with low | rfl | high
    · simp [low, low.ne, getElem?_chunk bound]
    · simp
    · obtain ⟨m, rfl⟩ := Nat.exists_eq_add_of_lt high
      have place : i + m + 1 - i = m + 1 := by omega
      have shifted : i + 1 + m = i + m + 1 := by omega
      simp [high.ne', high.not_gt, place, List.getElem?_drop, shifted, getElem?_chunk bound]
  · rw [List.getElem?_eq_none (by rw [holding.size]; omega), List.getElem?_eq_none]
    rw [List.length_append, front, List.length_cons, List.length_map, List.length_drop,
      length_dataChunks]
    omega

/-- Recovery restores the missing chunk. -/
theorem Holding.recovered (holding : Holding t parts frame)
    (oneBlock : chunkTotal t.frame ≤ t.blockSize) (inside : i < chunkTotal t.frame)
    (order : parts.Perm (t.parts.eraseIdx i)) :
    (JitterBuffer.recoverFrame t.blockSize frame).isSome ∧
      Gathered t (JitterBuffer.recoveredFrame t.blockSize frame) ∧
      (JitterBuffer.recoveredFrame t.blockSize frame).complete ∧
      (JitterBuffer.recoveredFrame t.blockSize frame).originalLen = frame.originalLen := by
  have gathered : Gathered t frame := holding.gathered fun part member =>
    List.mem_of_mem_eraseIdx (order.subset member)
  obtain ⟨ran, kept, length⟩ := gathered.recoveredFrame (gathered.ownParity (by omega))
  refine ⟨ran, kept, ?_, length⟩
  have chunks := holding.chunks_eq inside order
  have front : ((dataChunks t.frame).take i).length = i := by
    rw [List.length_take, length_dataChunks]
    omega
  have block : blockAt frame.chunks (max t.blockSize 1) 0 = frame.chunks := by
    rw [blockAt, Nat.zero_mul, List.drop_zero, List.take_of_length_le]
    rw [holding.size]
    omega
  have repairable : Repairable frame.chunks frame.parity (max t.blockSize 1) 0 i
      (t.parityChunk 0) := by
    refine ⟨by rw [holding.size]; omega, ?_, ?_⟩
    · rw [block, chunks]
      exact missingIn_eq_singleton.mpr ⟨_, _, rfl, front.symm⟩
    · rw [holding.parity, parity_of_loss oneBlock inside order]
      rfl
  have own := eq_parityOf_of_parities
    (getElem?_parityChunk (t := t) (k := 0) (by rw [parities_of_oneBlock oneBlock]; exact one_pos))
  obtain ⟨d, -, result⟩ := gathered.agrees.repair
    (fun d => length_of_mem_dataChunks t.frame) repairable own
  have nonempty : frame.chunks.isEmpty = false := by
    rw [chunks]
    simp
  have repaired : recoverWithParity frame.chunks frame.parity (max t.blockSize 1) =
      some (.ok (0 * max t.blockSize 1 + i),
        frame.chunks.set (0 * max t.blockSize 1 + i) (some d)) := by
    rw [recoverWithParity, nonempty, if_neg Bool.false_ne_true, maxBlocksChecked,
      recoverFrom_repair repairable, result]
  rw [JitterBuffer.recoveredFrame, JitterBuffer.recoverFrame, repaired]
  simp only [Option.map_some, Option.getD_some, PendingFrame.complete, Nat.zero_mul, Nat.zero_add]
  rw [chunks, List.set_append_right _ _ (by simp), List.length_map, front, Nat.sub_self,
    List.set_cons_zero]
  refine List.all_eq_true.mpr fun c member => ?_
  rcases List.mem_append.mp member with before | later
  · obtain ⟨_, -, rfl⟩ := List.mem_map.mp before
    rfl
  · rcases List.mem_cons.mp later with rfl | after
    · rfl
    · obtain ⟨_, -, rfl⟩ := List.mem_map.mp after
      rfl

/-- Recovery and `pop_ready` in a buffer that has all parts but one. -/
theorem Collected.recovers {buffer : JitterBuffer} (collected : Collected t parts buffer)
    (oneBlock : chunkTotal t.frame ≤ t.blockSize) (inside : i < chunkTotal t.frame)
    (order : parts.Perm (t.parts.eraseIdx i)) (now : Nat) (wallClock : UInt32 → Nat) :
    ∃ count recovered f, buffer.tryFecRecovery now t.blockSize = some (count, recovered) ∧
      (recovered.popReady now wallClock).1 = [f] ∧
      f.bytes = if i + 1 = chunkTotal t.frame then padded t.frame else t.frame := by
  have some_part : parts ≠ [] := by
    intro none
    have := parity_of_loss oneBlock inside order
    rw [none] at this
    cases this
  obtain ⟨frame, present⟩ := Option.ne_none_iff_exists'.mp
    (fun none => some_part (collected.absent.mp none))
  have holding := collected.frame frame present
  obtain ⟨ran, gathered, complete, length⟩ := holding.recovered oneBlock inside order
  have only (id : UInt32) : buffer.frames[id]? = if id = t.frameId then some frame else none := by
    split
    case isTrue same => rw [same, present]
    case isFalse other => exact collected.others id other
  have each (id : UInt32) (entry : PendingFrame) (found : buffer.frames[id]? = some entry) :
      (JitterBuffer.recoverFrame t.blockSize entry).isSome := by
    rw [only] at found
    split at found
    · cases found
      exact ran
    · cases found
  obtain ⟨count, recovered, recovers⟩ := JitterBuffer.tryFecRecovery_isSome now each
  have after (id : UInt32) : recovered.frames[id]? = if id = t.frameId then
      some (JitterBuffer.recoveredFrame t.blockSize frame) else none := by
    rw [(JitterBuffer.tryFecRecovery_getElem? recovers).2, only]
    split <;> rfl
  refine ⟨count, recovered, assembleFrame (JitterBuffer.recoveredFrame t.blockSize frame)
    (wallClock t.frameId), recovers, ?_, ?_⟩
  · rw [JitterBuffer.popReady, toList_eq_singleton after]
    simp only [List.filter_cons, complete, if_true, List.filter_nil, List.map_cons, List.map_nil]
  · have pos := t.total_pos
    rw [gathered.assembleFrame_bytes complete, length, holding.originalLen]
    simp only [data_mem_of_loss order (show chunkTotal t.frame - 1 < chunkTotal t.frame by omega)]
    by_cases last : i + 1 = chunkTotal t.frame
    · have here : chunkTotal t.frame - 1 = i := by omega
      simp [last, here]
    · have other : chunkTotal t.frame - 1 ≠ i := by omega
      simp [last, other]

end Recovery

/-! ## Frames with too many chunks -/

/-- No more chunks than a 16-bit number can count, all of them full. -/
structure Narrow (frame : PendingFrame) : Prop extends Sized frame where
  count : frame.chunks.length < 2 ^ 16

theorem narrow_opened (header : MediaDatagramHeader) (now deadline : Nat) :
    Narrow (.opened header now deadline) :=
  ⟨sized_opened header now deadline,
    by simpa [PendingFrame.opened] using header.chunkCount.toNat_lt⟩

/-- A datagram of any frame keeps the chunks of a pending frame full. -/
theorem accept_sized {datagram : Bytes} (member : datagram ∈ t.datagrams) :
    ∃ header payload parity, dispatch datagram = .media header payload parity ∧
      ∀ frame, Sized frame → Sized (frame.accept header payload parity) ∧
        (frame.accept header payload parity).chunks.length = frame.chunks.length := by
  rcases t.mem_datagrams member with ⟨i, chunk, found, rfl⟩ | ⟨k, p, found, rfl⟩
  · refine ⟨_, _, _, t.dispatch_data i chunk, fun frame sized => ?_⟩
    rw [t.accept_data]
    exact ⟨⟨sized.chunks.set (length_of_mem_dataChunks _ (List.mem_of_getElem? found)) _,
      sized.parity⟩, List.length_set⟩
  · refine ⟨_, _, _, t.dispatch_parity k p, fun frame sized => ?_⟩
    rw [t.accept_parity]
    refine ⟨⟨sized.chunks, fun p' member => ?_⟩, rfl⟩
    rcases List.mem_append.mp member with old | new
    · exact sized.parity p' old
    · rw [List.mem_singleton.mp new]
      exact length_of_mem_parities (List.mem_of_getElem? found)

theorem deliver_narrow {datagram : Bytes} (member : datagram ∈ t.datagrams) {buffer : JitterBuffer}
    (narrow : ∀ (id : UInt32) (frame : PendingFrame), buffer.frames[id]? = some frame →
      Narrow frame)
    (now : Nat) (id : UInt32) (frame : PendingFrame)
    (found : (buffer.deliver datagram now).frames[id]? = some frame) : Narrow frame := by
  obtain ⟨header, payload, parity, routed, keeps⟩ := accept_sized member
  rw [JitterBuffer.deliver, routed] at found
  have base : Narrow (buffer.frameFor header now) := by
    rw [JitterBuffer.frameFor]
    cases present : buffer.frames[header.frameId]? with
    | none => exact narrow_opened _ _ _
    | some old => exact narrow _ old present
  rcases JitterBuffer.pushChunk_getElem? found with ⟨-, rfl⟩ | ⟨-, old⟩
  · rw [JitterBuffer.pushed]
    split
    · exact base
    · obtain ⟨sized, length⟩ := keeps _ base.toSized
      exact ⟨sized, length ▸ base.count⟩
  · exact narrow id frame old

/-- What comes out of a narrow frame is shorter than any frame with more chunks. -/
theorem Narrow.length_bytes {frame : PendingFrame} (narrow : Narrow frame) (wallClock : Nat) :
    (assembleFrame frame wallClock).bytes.length ≤ (2 ^ 16 - 1) * chunkPayloadMax := by
  have total (chunks : List (Option Bytes)) (full : Full chunks) :
      (chunks.filterMap id).flatten.length ≤ chunks.length * chunkPayloadMax := by
    induction chunks with
    | nil => simp
    | cons c chunks ih =>
        have rest := ih fun b member => full b (.tail _ member)
        rw [List.length_cons, Nat.succ_mul]
        cases c with
        | none => exact Nat.le_add_right_of_le rest
        | some b =>
            have size := full b List.mem_cons_self
            have split : ((some b :: chunks).filterMap id).flatten =
                b ++ (chunks.filterMap id).flatten := rfl
            rw [split, List.length_append, size]
            omega
  have bound := total frame.chunks narrow.chunks
  have count := narrow.count
  have scaled : frame.chunks.length * chunkPayloadMax ≤ (2 ^ 16 - 1) * chunkPayloadMax :=
    Nat.mul_le_mul_right _ (by omega)
  simp only [assembleFrame]
  split
  · split
    · rw [List.length_take]
      omega
    · omega
  · omega

/-- Induction over runs that only deliver. -/
theorem run_deliveries {I : JitterBuffer → Prop} {deliveries : List (Bytes × Nat)}
    {buffer after : JitterBuffer}
    (keeps : ∀ d ∈ deliveries, ∀ buffer, I buffer → I (buffer.deliver d.1 d.2)) (start : I buffer)
    (ran : buffer.run (deliveries.map fun d => .deliver d.1 d.2) = some after) : I after := by
  induction deliveries generalizing buffer with
  | nil =>
      cases ran
      exact start
  | cons d rest ih =>
      exact ih (fun d' later => keeps d' (.tail _ later))
        (keeps d List.mem_cons_self buffer start) ran

/-- Frames with too many chunks never come out whole. -/
theorem not_recoversLoss_of_not_small (large : ¬ t.Small) {targetDelay maxInflight : Nat}
    {deliveries : List (Bytes × Nat)} (sent : ∀ d ∈ deliveries, d.1 ∈ t.datagrams) {now : Nat}
    {wallClock : UInt32 → Nat} :
    ¬ t.RecoversLoss (.new targetDelay maxInflight) deliveries now wallClock := by
  rintro ⟨collected, count, recovered, f, ran, recovers, popped, bytes⟩
  have narrow : ∀ (id : UInt32) (frame : PendingFrame), collected.frames[id]? = some frame →
      Narrow frame := by
    refine run_deliveries (I := fun buffer => ∀ (id : UInt32) (frame : PendingFrame),
      buffer.frames[id]? = some frame → Narrow frame)
      (fun d member buffer narrow => deliver_narrow (sent d member) narrow d.2) ?_ ran
    intro id frame found
    rw [JitterBuffer.new, TreeMap.getElem?_emptyc] at found
    cases found
  have out : f ∈ (recovered.popReady now wallClock).1 := popped ▸ List.mem_singleton.mpr rfl
  obtain ⟨id, frame, found, -, rfl⟩ := (recovered.mem_popReady).mp out
  rw [(JitterBuffer.tryFecRecovery_getElem? recovers).2] at found
  obtain ⟨old, before, rfl⟩ := Option.map_eq_some_iff.mp found
  have repaired := (narrow id old before).recoverFrame t.blockSize
  have short := Narrow.length_bytes ⟨repaired.2.1, repaired.2.2 ▸ (narrow id old before).count⟩
    (wallClock id)
  rw [bytes] at short
  have long := chunkTotal_le_length t.frame
  have many : 2 ^ 16 * chunkPayloadMax ≤ chunkTotal t.frame * chunkPayloadMax :=
    Nat.mul_le_mul_right _ (Nat.not_lt.mp large)
  rw [Nat.sub_mul] at short
  have pos := chunkPayloadMax_pos
  omega

/-- Without room for a frame nothing comes out. -/
theorem not_recoversLoss_of_no_room (small : t.Small) {targetDelay : Nat}
    {deliveries : List (Bytes × Nat)} (sent : ∀ d ∈ deliveries, d.1 ∈ t.datagrams) {now : Nat}
    {wallClock : UInt32 → Nat} :
    ¬ t.RecoversLoss (.new targetDelay 0) deliveries now wallClock := by
  rintro ⟨collected, count, recovered, f, ran, recovers, popped, -⟩
  have empty : collected.maxInflight = 0 ∧ collected.frames.size = 0 := by
    refine run_deliveries (I := fun buffer => buffer.maxInflight = 0 ∧ buffer.frames.size = 0)
      (fun d member buffer empty => ?_) ⟨rfl, rfl⟩ ran
    obtain ⟨header, payload, parity, taken⟩ := small.taken (sent d member)
    have inside : ¬ (buffer.frameFor header d.2).chunks.length ≤ header.chunkId.toNat := by
      have opened := small.gathered_opened taken.frameId taken.chunkCount d.2
        (d.2 + buffer.targetDelay)
      rw [JitterBuffer.frameFor, JitterBuffer.getElem?_of_size_eq_zero empty.2, Option.getD_none,
        opened.agrees.length_eq, length_dataChunks]
      exact Nat.not_le.mpr taken.inside
    rw [JitterBuffer.deliver, taken.routed]
    refine ⟨JitterBuffer.pushChunk_maxInflight.trans empty.1, Nat.le_zero.mp ?_⟩
    exact empty.1 ▸ JitterBuffer.size_pushChunk inside
  have out : f ∈ (recovered.popReady now wallClock).1 := popped ▸ List.mem_singleton.mpr rfl
  obtain ⟨id, frame, found, -⟩ := (recovered.mem_popReady).mp out
  rw [(JitterBuffer.tryFecRecovery_getElem? recovers).2,
    JitterBuffer.getElem?_of_size_eq_zero empty.2] at found
  cases found

theorem padded_eq_iff {frame : Bytes} : padded frame = frame ↔ chunkPayloadMax ∣ frame.length := by
  refine ⟨fun same => ⟨chunkTotal frame, ?_⟩, padded_eq_self⟩
  rw [Nat.mul_comm, ← length_padded, same]

end Transfer

theorem recoversLoss_iff (t : Transfer) (oneBlock : chunkTotal t.frame ≤ t.blockSize) {i : Nat}
    (inside : i < chunkTotal t.frame) (targetDelay maxInflight : Nat)
    {deliveries : List (Bytes × Nat)}
    (order : (deliveries.map Prod.fst).Perm (t.datagrams.eraseIdx i)) (now : Nat)
    (wallClock : UInt32 → Nat) :
    t.RecoversLoss (.new targetDelay maxInflight) deliveries now wallClock ↔
      0 < maxInflight ∧ t.Small ∧
        (i + 1 < chunkTotal t.frame ∨ chunkPayloadMax ∣ t.frame.length) := by
  have sent : ∀ d ∈ deliveries, d.1 ∈ t.datagrams := fun d member =>
    List.mem_of_mem_eraseIdx (order.subset (List.mem_map_of_mem member))
  by_cases small : t.Small
  swap
  · exact ⟨fun recovers => absurd recovers (Transfer.not_recoversLoss_of_not_small small sent),
      fun both => absurd both.2.1 small⟩
  rcases Nat.eq_zero_or_pos maxInflight with rfl | room
  · exact ⟨fun recovers => absurd recovers (Transfer.not_recoversLoss_of_no_room small sent),
      fun both => absurd both.1 (Nat.lt_irrefl 0)⟩
  rw [small.datagrams_eq_map, List.eraseIdx_map] at order
  obtain ⟨parts, perm, image⟩ := exists_map_of_perm_map order
  have ops : deliveries.map (fun d => Op.deliver d.1 d.2) =
      List.zipWith (fun part now => Op.deliver (t.datagramOf part) now) parts
        (deliveries.map Prod.snd) := by
    have paired : List.zipWith Op.deliver (parts.map t.datagramOf) (deliveries.map Prod.snd) =
        List.zipWith (fun part now => Op.deliver (t.datagramOf part) now) parts
          (deliveries.map Prod.snd) := List.zipWith_map_left
    rw [← paired, ← image, List.zipWith_map, List.zipWith_self]
  have lengths : (deliveries.map Prod.snd).length = parts.length := by
    simpa using congrArg List.length image
  obtain ⟨collected, ran, state⟩ := Transfer.Collected.run small
    (Transfer.collected_new t targetDelay room)
    (fun part member => List.mem_of_mem_eraseIdx (perm.subset member)) lengths
  obtain ⟨count, recovered, f, recovers, popped, bytes⟩ :=
    state.recovers oneBlock inside perm now wallClock
  have outcome : t.RecoversLoss (.new targetDelay maxInflight) deliveries now wallClock ↔
      f.bytes = t.frame := by
    rw [← ops] at ran
    constructor
    · rintro ⟨collected', count', recovered', f', ran', recovers', popped', bytes'⟩
      cases ran.symm.trans ran'
      cases recovers.symm.trans recovers'
      cases popped.symm.trans popped'
      exact bytes'
    · exact fun same => ⟨collected, count, recovered, f, ran, recovers, popped, same⟩
  rw [outcome, bytes]
  by_cases last : i + 1 = chunkTotal t.frame
  · rw [if_pos last, Transfer.padded_eq_iff]
    simp [room, small, last]
  · have before : i + 1 < chunkTotal t.frame := by omega
    rw [if_neg last]
    simp [room, small, before]

namespace Sample

/-- Everything but the first data datagram, the parity first. -/
def withoutFirst : List (Bytes × Nat) :=
  [((transfer 2).datagrams.getD 2 [], 0), ((transfer 2).datagrams.getD 1 [], 5)]

/-- Everything but the last data datagram. -/
def withoutLast : List (Bytes × Nat) :=
  [((transfer 2).datagrams.getD 0 [], 0), ((transfer 2).datagrams.getD 2 [], 0)]

end Sample

theorem withoutFirst_recovers :
    (Sample.transfer 2).RecoversLoss (.new 0 1) Sample.withoutFirst 9 (fun _ => 0) := by
  refine (recoversLoss_iff (Sample.transfer 2) (by decide +kernel) (i := 0) (by decide +kernel) 0 1
    ?_ 9 fun _ => 0).mpr (by decide +kernel)
  have order : Sample.withoutFirst.map Prod.fst =
      ((Sample.transfer 2).datagrams.eraseIdx 0).reverse := by
    decide +kernel
  rw [order]
  exact List.reverse_perm _

/-- The last data chunk is recovered with its padding, and nothing says so. -/
theorem withoutLast_not_recovers :
    ¬ ∀ (t : Transfer) (i targetDelay maxInflight : Nat) (deliveries : List (Bytes × Nat))
      (now : Nat) (wallClock : UInt32 → Nat), chunkTotal t.frame ≤ t.blockSize →
      i < chunkTotal t.frame → 0 < maxInflight →
      (deliveries.map Prod.fst).Perm (t.datagrams.eraseIdx i) →
      t.RecoversLoss (.new targetDelay maxInflight) deliveries now wallClock := by
  intro always
  have order : Sample.withoutLast.map Prod.fst = (Sample.transfer 2).datagrams.eraseIdx 1 := by
    decide +kernel
  obtain ⟨collected, count, recovered, f, ran, recovers, popped, bytes⟩ :=
    always (Sample.transfer 2) 1 0 1 Sample.withoutLast 0 (fun _ => 0) (by decide +kernel)
      (by decide +kernel) one_pos (order ▸ List.Perm.refl _)
  have outcome : ((JitterBuffer.new 0 1).run
      (Sample.withoutLast.map fun d => .deliver d.1 d.2)).bind (fun collected =>
        (collected.tryFecRecovery 0 (Sample.transfer 2).blockSize).map fun recovered =>
          (recovered.2.popReady 0 fun _ => 0).1.map fun f => decide (f.bytes = Sample.twoChunks)) =
      some [false] := by
    decide +kernel
  rw [ran, Option.bind_some, recovers, Option.map_some, popped] at outcome
  have differs : decide (f.bytes = Sample.twoChunks) = false :=
    (List.cons.inj (Option.some.inj outcome)).1
  exact of_decide_eq_false differs bytes

end Qubox.Media
