import Qubox.Media.Reception

/-!
# Collecting the parts of a frame

The datagrams of a frame are numbered: data chunks and parity chunks. After any
of them have been delivered to an empty buffer, in any order, the buffer has one
pending frame, and its contents are determined by which parts have come (and, for
the parity chunks, in which order).
-/

namespace Qubox.Media

open JitterBuffer (Op)
open Std (TreeMap)

/-! ## Buffers with a single frame -/

theorem toList_eq_singleton {frames : TreeMap UInt32 PendingFrame} {id : UInt32}
    {frame : PendingFrame}
    (only : ∀ k : UInt32, frames[k]? = if k = id then some frame else none) :
    frames.toList = [(id, frame)] := by
  have same : ∀ e ∈ frames.toList, e = (id, frame) := by
    rintro ⟨k, v⟩ member
    have found := TreeMap.mem_toList_iff_getElem?_eq_some.mp member
    rw [only] at found
    split at found
    case isTrue here =>
      cases found
      rw [here]
    case isFalse => cases found
  have present : (id, frame) ∈ frames.toList :=
    TreeMap.mem_toList_iff_getElem?_eq_some.mpr (by rw [only, if_pos rfl])
  have distinct := frames.distinct_keys_toList
  match list : frames.toList with
  | [] =>
      rw [list] at present
      cases present
  | [e] => rw [same e (by rw [list]; exact List.mem_singleton.mpr rfl)]
  | e :: e' :: rest =>
      rw [list] at same distinct
      have keys := (List.pairwise_cons.mp distinct).1 e' List.mem_cons_self
      rw [same e List.mem_cons_self, same e' (.tail _ List.mem_cons_self)] at keys
      exact absurd Std.ReflCmp.compare_self keys

theorem pushChunk_single {buffer : JitterBuffer} {header : MediaDatagramHeader} {payload : Bytes}
    {parity : Bool} {now : Nat} (room : 0 < buffer.maxInflight)
    (only : ∀ k, k ≠ header.frameId → buffer.frames[k]? = none) (k : UInt32) :
    (buffer.pushChunk header payload parity now).frames[k]? =
      if k = header.frameId then some (buffer.pushed header payload parity now) else none := by
  have inserted (frame : PendingFrame) (k : UInt32) :
      (buffer.frames.insert header.frameId frame)[k]? =
        if k = header.frameId then some frame else none := by
    simp only [TreeMap.getElem?_insert, Std.LawfulEqCmp.compare_eq_iff_eq,
      @eq_comm _ header.frameId]
    split
    · rfl
    case isFalse other => exact only k other
  rw [JitterBuffer.pushChunk, JitterBuffer.pushed, JitterBuffer.frameFor]
  split
  case isTrue out => exact inserted _ k
  case isFalse inside =>
    rw [JitterBuffer.dropOldest_of_le, JitterBuffer.noteArrival_frames]
    · exact inserted _ k
    · rw [JitterBuffer.noteArrival_frames, ← TreeMap.length_toList,
        toList_eq_singleton (inserted _)]
      exact room

/-! ## Parts -/

inductive Part where
  | data (i : Nat)
  | parity (k : Nat)
  deriving DecidableEq

namespace Transfer

variable (t : Transfer)

def chunk (i : Nat) : Bytes := (dataChunks t.frame).getD i []

def parityChunk (k : Nat) : Bytes := t.parities.getD k []

def datagramOf : Part → Bytes
  | .data i => t.dataDatagram i (t.chunk i)
  | .parity k => t.parityDatagram k (t.parityChunk k)

/-- The parity chunk that a part carries. -/
def parityIn : Part → Option Bytes
  | .parity k => some (t.parityChunk k)
  | .data _ => none

/-- The parts in the order in which they are sent. -/
def parts : List Part :=
  (List.range (chunkTotal t.frame)).map .data ++ (List.range t.parities.length).map .parity

variable {t}

theorem getElem?_chunk {i : Nat} (inside : i < chunkTotal t.frame) :
    (dataChunks t.frame)[i]? = some (t.chunk i) := by
  rw [← length_dataChunks] at inside
  simp [chunk, inside]

theorem getElem?_parityChunk {k : Nat} (inside : k < t.parities.length) :
    t.parities[k]? = some (t.parityChunk k) := by
  simp [parityChunk, inside]

theorem data_mem_parts {i : Nat} : .data i ∈ t.parts ↔ i < chunkTotal t.frame := by
  simp [parts]

theorem parity_mem_parts {k : Nat} : .parity k ∈ t.parts ↔ k < t.parities.length := by
  simp [parts]

theorem Small.datagrams_eq_map (small : t.Small) : t.datagrams = t.parts.map t.datagramOf := by
  have numbered {l : List Bytes} (f : Nat → Bytes → Bytes) :
      (l.zipIdx.map fun numbered => f numbered.2 numbered.1) =
        (List.range l.length).map fun i => f i (l.getD i []) := by
    refine List.ext_getElem (by simp) fun i inside _ => ?_
    have inside : i < l.length := by simpa using inside
    simp [inside]
  rw [small.datagrams_eq, parts, List.map_append, List.map_map, List.map_map,
    numbered t.dataDatagram, numbered t.parityDatagram, length_dataChunks]
  rfl

/-! ## What has come -/

/-- The frame has exactly what the delivered parts carry. -/
structure Holding (t : Transfer) (parts : List Part) (frame : PendingFrame) : Prop where
  size : frame.chunks.length = chunkTotal t.frame
  chunks : ∀ i < chunkTotal t.frame,
    frame.chunks[i]? = some (if .data i ∈ parts then some (t.chunk i) else none)
  parity : frame.parity = parts.filterMap t.parityIn
  originalLen : frame.originalLen =
    if .data (chunkTotal t.frame - 1) ∈ parts then some t.frame.length else none
  frameId : frame.frameId = t.frameId

theorem Small.holding_opened (small : t.Small) {header : MediaDatagramHeader}
    (id : header.frameId = t.frameId) (count : header.chunkCount = t.chunkCount)
    (now deadline : Nat) : Holding t [] (.opened header now deadline) := by
  have length : (PendingFrame.opened header now deadline).chunks.length = chunkTotal t.frame := by
    rw [PendingFrame.opened, count, List.length_replicate, small.toNat_chunkCount]
  refine ⟨length, fun i inside => ?_, rfl, rfl, id⟩
  rw [← length] at inside
  simp only [PendingFrame.opened, List.length_replicate] at inside
  simp [PendingFrame.opened, inside]

theorem Holding.data {parts : List Part} {frame : PendingFrame} (small : t.Small)
    (holding : Holding t parts frame) {i : Nat} (inside : i < chunkTotal t.frame) :
    Holding t (parts ++ [.data i])
      (frame.accept (t.dataHeader i) (t.chunk i ++ t.trailer i) false) := by
  rw [t.accept_data, small.toNat_ofNat inside]
  refine ⟨by simpa using holding.size, fun j bound => ?_, ?_, ?_, holding.frameId⟩
  · simp only [List.getElem?_set, holding.size, holding.chunks j bound, List.mem_append,
      List.mem_singleton, Part.data.injEq]
    by_cases same : i = j
    · subst same
      simp [inside]
    · simp [same, Ne.symm same]
  · simp [holding.parity, parityIn]
  · have last := small.isLastData_iff inside
    have pos := t.total_pos
    simp only [last, holding.originalLen, List.mem_append, List.mem_singleton, Part.data.injEq,
      Nat.mod_eq_of_lt small.length_lt]
    by_cases here : i + 1 = chunkTotal t.frame
    · rw [if_pos here, if_pos (.inr (by omega))]
    · rw [if_neg here]
      have other : ¬ chunkTotal t.frame - 1 = i := by omega
      simp [other]

theorem Holding.parityPart {parts : List Part} {frame : PendingFrame}
    (holding : Holding t parts frame) (k : Nat) :
    Holding t (parts ++ [.parity k]) (frame.accept (t.parityHeader k) (t.parityChunk k) true) := by
  rw [t.accept_parity]
  refine ⟨holding.size, fun i inside => ?_, ?_, ?_, holding.frameId⟩
  · simp [holding.chunks i inside]
  · simp [holding.parity, parityIn]
  · simp [holding.originalLen]

/-- The buffer has collected these parts and nothing else. -/
structure Collected (t : Transfer) (parts : List Part) (buffer : JitterBuffer) : Prop where
  room : 0 < buffer.maxInflight
  others : ∀ id, id ≠ t.frameId → buffer.frames[id]? = none
  frame : ∀ frame, buffer.frames[t.frameId]? = some frame → Holding t parts frame
  absent : buffer.frames[t.frameId]? = none ↔ parts = []

theorem collected_new (t : Transfer) (targetDelay : Nat) {maxInflight : Nat}
    (room : 0 < maxInflight) : Collected t [] (.new targetDelay maxInflight) := by
  have empty (id : UInt32) : (JitterBuffer.new targetDelay maxInflight).frames[id]? = none :=
    TreeMap.getElem?_emptyc
  refine ⟨room, fun id _ => empty id, fun frame found => ?_, fun _ => rfl, fun _ => empty _⟩
  rw [empty] at found
  cases found

theorem Collected.push {parts : List Part} {part : Part} {buffer : JitterBuffer} {now : Nat}
    (small : t.Small) (collected : Collected t parts buffer) {header : MediaDatagramHeader}
    {payload : Bytes} {parity : Bool}
    (routed : dispatch (t.datagramOf part) = .media header payload parity)
    (id : header.frameId = t.frameId) (count : header.chunkCount = t.chunkCount)
    (inside : header.chunkId.toNat < chunkTotal t.frame)
    (accepts : ∀ frame, Holding t parts frame →
      Holding t (parts ++ [part]) (frame.accept header payload parity)) :
    Collected t (parts ++ [part]) (buffer.deliver (t.datagramOf part) now) := by
  have pushed : buffer.deliver (t.datagramOf part) now =
      buffer.pushChunk header payload parity now := by
    rw [JitterBuffer.deliver, routed]
  have base : Holding t parts (buffer.frameFor header now) := by
    rw [JitterBuffer.frameFor, id]
    cases present : buffer.frames[t.frameId]? with
    | none =>
        rw [collected.absent.mp present]
        exact small.holding_opened id count _ _
    | some frame => exact collected.frame frame present
  have stored : buffer.pushed header payload parity now =
      (buffer.frameFor header now).accept header payload parity := by
    rw [JitterBuffer.pushed, base.size, if_neg (Nat.not_le.mpr inside)]
  have frames (k : UInt32) : (buffer.pushChunk header payload parity now).frames[k]? = _ :=
    pushChunk_single collected.room (fun k other => collected.others k (id ▸ other)) k
  rw [id, stored] at frames
  refine ⟨?_, fun k other => ?_, fun frame found => ?_, ?_⟩
  · rw [pushed, JitterBuffer.pushChunk_maxInflight]
    exact collected.room
  · rw [pushed, frames, if_neg other]
  · rw [pushed, frames, if_pos rfl] at found
    cases found
    exact accepts _ base
  · rw [pushed, frames, if_pos rfl]
    simp

theorem Collected.deliver {parts : List Part} {part : Part} {buffer : JitterBuffer}
    (small : t.Small) (collected : Collected t parts buffer) (valid : part ∈ t.parts) (now : Nat) :
    Collected t (parts ++ [part]) (buffer.deliver (t.datagramOf part) now) := by
  cases part with
  | data i =>
      have inside := data_mem_parts.mp valid
      exact collected.push small (t.dispatch_data i _) rfl rfl
        ((small.toNat_ofNat inside).trans_lt inside) fun frame holding => holding.data small inside
  | parity k =>
      have inside := lt_chunkTotal_of_parities (getElem?_parityChunk (parity_mem_parts.mp valid))
      exact collected.push small (t.dispatch_parity k _) rfl rfl
        ((small.toNat_ofNat inside).trans_lt inside) fun frame holding => holding.parityPart k

/-- Delivering parts of a small frame, in any order and at any times. -/
theorem Collected.run {past parts : List Part} {times : List Nat} {buffer : JitterBuffer}
    (small : t.Small) (collected : Collected t past buffer) (valid : ∀ part ∈ parts, part ∈ t.parts)
    (timed : times.length = parts.length) :
    ∃ after, buffer.run (List.zipWith (fun part now => Op.deliver (t.datagramOf part) now)
        parts times) = some after ∧ Collected t (past ++ parts) after := by
  induction parts generalizing past times buffer with
  | nil => exact ⟨buffer, rfl, by simpa using collected⟩
  | cons part parts ih =>
      cases times with
      | nil => cases timed
      | cons now times =>
          have next := collected.deliver small (valid part List.mem_cons_self) now
          obtain ⟨after, ran, done⟩ := ih next (fun p later => valid p (.tail _ later))
            (Nat.succ.inj timed)
          exact ⟨after, ran, by simpa using done⟩

end Transfer

end Qubox.Media
