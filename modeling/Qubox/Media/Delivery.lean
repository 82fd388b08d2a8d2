import Qubox.Media.SingleLoss

/-!
# Delivery at most once

`pop_ready` forgets the frames it returns. A datagram of such a frame that comes
later, and parity datagrams normally do, opens the frame again; it is then
returned a second time or reported as lost. This is the only way: as long as no
datagram comes late, a frame that was returned is never heard of again.
-/

namespace Qubox.Media

open JitterBuffer (Op delivered)
open Std (TreeMap)

namespace JitterBuffer

/-- The id of the frame that an operation stores a chunk of. -/
def Op.target : Op → Option UInt32
  | .deliver datagram _ =>
      match dispatch datagram with
      | .media header _ _ => some header.frameId
      | _ => none
  | _ => none

/-- The time at which an operation is called. -/
def Op.time : Op → Nat
  | .deliver _ now => now
  | .tryFecRecovery now _ => now
  | .popReady now _ => now
  | .popDeadlinePassed now => now

/-- A frame that has been returned is not returned again and not reported lost. -/
def DeliveredOnce (fresh : JitterBuffer) (ops : List Op) : Prop :=
  ∀ before op after, ops = before ++ op :: after →
    ∃ buffer, fresh.run before = some buffer ∧ ∀ id ∈ fresh.emittedIds before,
      id ∉ (buffer.emitted op).map ReassembledFrame.frameId ∧
        id ∉ (buffer.reported op).map DeadlineFrame.frameId

/-- No datagram comes for a frame that has been returned. -/
def OnTime (fresh : JitterBuffer) (past : List Op) (op : Op) : Prop :=
  ∀ id ∈ op.target, id ∉ fresh.emittedIds past

instance (fresh : JitterBuffer) (past : List Op) (op : Op) : Decidable (fresh.OnTime past op) :=
  Option.decidableForallMem op.target

end JitterBuffer

/-- Some `send_frame` has made the datagram. -/
def FromSender (datagram : Bytes) : Prop := ∃ t : Transfer, datagram ∈ t.datagrams

@[simp] theorem accept_frameId (frame : PendingFrame) (header : MediaDatagramHeader)
    (payload : Bytes) (parity : Bool) :
    (frame.accept header payload parity).frameId = frame.frameId := by
  rw [PendingFrame.accept]
  split
  · rfl
  · split <;> rfl

@[simp] theorem recoveredFrame_frameId (blockSize : Nat) (frame : PendingFrame) :
    (JitterBuffer.recoveredFrame blockSize frame).frameId = frame.frameId := by
  rw [JitterBuffer.recoveredFrame, JitterBuffer.recoverFrame]
  cases recoverWithParity frame.chunks frame.parity (max blockSize 1) <;> rfl

/-- Pending frames are stored under their ids, and none of them has been returned. -/
structure Forgets (fresh : JitterBuffer) (past : List Op) (buffer : JitterBuffer) : Prop where
  reached : fresh.run past = some buffer
  frames : ∀ (id : UInt32) (frame : PendingFrame), buffer.frames[id]? = some frame →
    Sized frame ∧ frame.frameId = id
  gone : ∀ id ∈ fresh.emittedIds past, buffer.frames[id]? = none

namespace Forgets

variable {fresh buffer : JitterBuffer} {past : List Op}

theorem start (targetDelay maxInflight : Nat) :
    Forgets (.new targetDelay maxInflight) [] (.new targetDelay maxInflight) := by
  refine ⟨rfl, fun id frame found => ?_, fun id member => absurd member List.not_mem_nil⟩
  rw [JitterBuffer.new, TreeMap.getElem?_emptyc] at found
  cases found

/-- The next operation leaves the frames stored under their ids, and opens none
that has been returned. -/
theorem next (forgets : Forgets fresh past buffer) {op : Op} {after : JitterBuffer}
    (stepped : buffer.step op = some after)
    (frames : ∀ (id : UInt32) (frame : PendingFrame), after.frames[id]? = some frame →
      (Sized frame ∧ frame.frameId = id) ∧
        (buffer.frames[id]? = none → id ∉ fresh.emittedIds past) ∧
        ∀ f ∈ buffer.emitted op, f.frameId ≠ id) :
    Forgets fresh (past ++ [op]) after := by
  refine ⟨?_, fun id frame found => (frames id frame found).1, fun id member => ?_⟩
  · rw [JitterBuffer.run_append, forgets.reached, Option.bind_some, JitterBuffer.run_cons, stepped]
    rfl
  · rw [JitterBuffer.emittedIds_append forgets.reached] at member
    cases found : after.frames[id]? with
    | none => rfl
    | some frame =>
        obtain ⟨-, opened, others⟩ := frames id frame found
        rcases List.mem_append.mp member with before | now
        · exact absurd before (opened (forgets.gone id before))
        · simp only [JitterBuffer.emittedIds, stepped, List.append_nil] at now
          obtain ⟨f, emitted, same⟩ := List.mem_map.mp now
          exact absurd same (others f emitted)

theorem step (forgets : Forgets fresh past buffer) {op : Op}
    (fed : ∀ datagram ∈ delivered [op], FromSender datagram) (onTime : fresh.OnTime past op) :
    ∃ after, buffer.step op = some after ∧ Forgets fresh (past ++ [op]) after := by
  cases op with
  | deliver datagram now =>
      obtain ⟨t, member⟩ := fed datagram (List.mem_singleton.mpr rfl)
      obtain ⟨header, payload, parity, routed, keeps⟩ := Transfer.accept_sized member
      refine ⟨_, rfl, forgets.next rfl fun id frame found => ?_⟩
      rw [JitterBuffer.deliver, routed] at found
      rcases JitterBuffer.pushChunk_getElem? found with ⟨rfl, rfl⟩ | ⟨-, old⟩
      · have base : Sized (buffer.frameFor header now) ∧
            (buffer.frameFor header now).frameId = header.frameId := by
          rw [JitterBuffer.frameFor]
          cases present : buffer.frames[header.frameId]? with
          | none => exact ⟨sized_opened _ _ _, rfl⟩
          | some old => exact forgets.frames _ old present
        refine ⟨?_, fun _ => onTime header.frameId (by simp [JitterBuffer.Op.target, routed]),
          fun f emitted => absurd emitted List.not_mem_nil⟩
        rw [JitterBuffer.pushed]
        split
        · exact base
        · exact ⟨(keeps _ base.1).1, by rw [accept_frameId, base.2]⟩
      · refine ⟨forgets.frames id frame old, fun none => ?_,
          fun f emitted => absurd emitted List.not_mem_nil⟩
        cases none.symm.trans old
  | tryFecRecovery now blockSize =>
      obtain ⟨count, after, ran⟩ := JitterBuffer.tryFecRecovery_isSome now
        fun id frame found => ((forgets.frames id frame found).1.recoverFrame blockSize).1
      have stepped : buffer.step (.tryFecRecovery now blockSize) = some after := by
        rw [JitterBuffer.step, ran]
        rfl
      refine ⟨after, stepped, forgets.next stepped fun id frame found => ?_⟩
      rw [(JitterBuffer.tryFecRecovery_getElem? ran).2] at found
      obtain ⟨old, before, rfl⟩ := Option.map_eq_some_iff.mp found
      obtain ⟨sized, same⟩ := forgets.frames id old before
      refine ⟨⟨(sized.recoverFrame blockSize).2.1, by rw [recoveredFrame_frameId, same]⟩,
        fun none => ?_, fun f emitted => absurd emitted List.not_mem_nil⟩
      cases none.symm.trans before
  | popReady now wallClock =>
      refine ⟨_, rfl, forgets.next rfl fun id frame found => ?_⟩
      rw [JitterBuffer.popReady_getElem?] at found
      obtain ⟨before, pending⟩ := Option.filter_eq_some_iff.mp found
      refine ⟨forgets.frames id frame before, fun none => ?_, fun f emitted same => ?_⟩
      · cases none.symm.trans before
      · obtain ⟨id', ready, found', complete, rfl⟩ := (buffer.mem_popReady).mp emitted
        obtain rfl : id' = id := (forgets.frames id' ready found').2.symm.trans same
        cases found'.symm.trans before
        rw [complete] at pending
        cases pending
  | popDeadlinePassed now =>
      refine ⟨_, rfl, forgets.next rfl fun id frame found => ?_⟩
      rw [JitterBuffer.popDeadlinePassed_getElem?] at found
      obtain ⟨before, -⟩ := Option.filter_eq_some_iff.mp found
      refine ⟨forgets.frames id frame before, fun none => ?_,
        fun f emitted => absurd emitted List.not_mem_nil⟩
      cases none.symm.trans before

/-- What an operation returns or reports is pending, so it has not been returned. -/
theorem fresh_ids (forgets : Forgets fresh past buffer) (op : Op) {id : UInt32}
    (returned : id ∈ fresh.emittedIds past) :
    id ∉ (buffer.emitted op).map ReassembledFrame.frameId ∧
      id ∉ (buffer.reported op).map DeadlineFrame.frameId := by
  have gone := forgets.gone id returned
  constructor
  · intro member
    obtain ⟨f, emitted, rfl⟩ := List.mem_map.mp member
    cases op with
    | popReady now wallClock =>
        obtain ⟨id', frame, found, -, rfl⟩ := (buffer.mem_popReady).mp emitted
        have same : (assembleFrame frame (wallClock id')).frameId = id' :=
          (forgets.frames id' frame found).2
        rw [same, found] at gone
        cases gone
    | _ => cases emitted
  · intro member
    obtain ⟨f, reported, rfl⟩ := List.mem_map.mp member
    cases op with
    | popDeadlinePassed now =>
        obtain ⟨id', frame, found, -, rfl⟩ := (buffer.mem_popDeadlinePassed).mp reported
        have same : (deadlineFrame frame).frameId = id' := (forgets.frames id' frame found).2
        rw [same, found] at gone
        cases gone
    | _ => cases reported

end Forgets

theorem deliveredOnce_of_onTime (targetDelay maxInflight : Nat) {ops : List Op}
    (fed : ∀ datagram ∈ delivered ops, FromSender datagram)
    (onTime : JitterBuffer.Along
      (fun past _ op => (JitterBuffer.new targetDelay maxInflight).OnTime past op) []
      (.new targetDelay maxInflight) ops) :
    (JitterBuffer.new targetDelay maxInflight).DeliveredOnce ops := by
  rintro before op after rfl
  have known : ∀ op ∈ before, ∀ datagram ∈ delivered [op], FromSender datagram := by
    intro op inside datagram member
    obtain ⟨op', same, carries⟩ := List.mem_filterMap.mp member
    obtain rfl := List.mem_singleton.mp same
    exact fed datagram (List.mem_filterMap.mpr ⟨op', List.mem_append_left _ inside, carries⟩)
  obtain ⟨buffer, ran, forgets⟩ := JitterBuffer.run_invariant
    (I := Forgets (.new targetDelay maxInflight))
    (fun past buffer op inside onTime forgets => forgets.step (known op inside) onTime)
    (Forgets.start targetDelay maxInflight) onTime.left
  exact ⟨buffer, ran, fun id returned => forgets.fresh_ids op returned⟩

namespace Sample

/-- A frame of a single byte. -/
def single : Transfer where
  blockSize := 1
  streamId := 0
  frameId := 3
  unit := { codec := .h264, keyframe := true, bytes := [7] }
  nonempty := by decide

/-- Its data or its parity datagram. -/
def deliverSingle (n now : Nat) : Op := .deliver (single.datagrams.getD n []) now

/-- Everything arrives before the frame is taken. -/
def prompt : List Op :=
  [deliverSingle 0 0, deliverSingle 1 1, .popReady 2 (fun _ => 0), .popDeadlinePassed 9]

/-- The parity datagram comes after the frame was taken. -/
def lateParity : List Op :=
  [deliverSingle 0 0, .popReady 1 (fun _ => 0), deliverSingle 1 2, .tryFecRecovery 3 1,
    .popReady 4 fun _ => 0]

end Sample

theorem prompt_deliveredOnce :
    (JitterBuffer.new 5 1).emittedIds Sample.prompt = [3] ∧
      (JitterBuffer.new 5 1).DeliveredOnce Sample.prompt := by
  have sent : ∀ datagram ∈ delivered Sample.prompt, datagram ∈ Sample.single.datagrams := by
    decide +kernel
  refine ⟨by decide +kernel, deliveredOnce_of_onTime 5 1 (fun datagram member => ?_)
    (by decide +kernel)⟩
  exact ⟨Sample.single, sent datagram member⟩

theorem lateParity_not_deliveredOnce :
    ¬ ∀ (transfers : List Transfer) (targetDelay maxInflight : Nat) (ops : List Op),
      (transfers.map Transfer.frameId).Pairwise (· < ·) →
      (delivered ops).Subperm (transfers.flatMap Transfer.datagrams) →
      (ops.map JitterBuffer.Op.time).Pairwise (· ≤ ·) →
      (JitterBuffer.new targetDelay maxInflight).DeliveredOnce ops := by
  intro always
  have sent : delivered Sample.lateParity = Sample.single.datagrams := by
    decide +kernel
  obtain ⟨buffer, ran, once⟩ := always [Sample.single] 5 1 Sample.lateParity (by decide)
    (by rw [sent, List.flatMap_singleton]) (by decide) Sample.lateParity.dropLast
    (.popReady 4 fun _ => 0) [] rfl
  have again : ((JitterBuffer.new 5 1).run Sample.lateParity.dropLast).map (fun buffer =>
      (buffer.emitted (.popReady 4 fun _ => 0)).map ReassembledFrame.frameId) = some [3] := by
    decide +kernel
  rw [ran, Option.map_some] at again
  exact (once 3 (by decide +kernel)).1 (Option.some.inj again ▸ List.mem_singleton.mpr rfl)

end Qubox.Media
