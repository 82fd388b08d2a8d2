import Qubox.Media.Erasure

/-!
# What the decoder returns

The decoder forgets a returned frame at the next drain, while shards of the frame
may still be on their way. Such a late shard opens the frame anew. This file shows
that nothing else goes wrong with the shards of encoded frames: as long as no
frame is opened anew, a returned frame is not reported as discarded and is not
returned again, and with fewer parity than data shards a frame that is opened anew
cannot be completed. What is returned is the frame, if there are parity shards or
no more data shards than fit into a block.
-/

namespace Qubox.Media

open Std (TreeMap)

namespace FecDecoder

variable {ε : Type} {library : ErasureLibrary ε} {decoder after : FecDecoder library}

/-! ## What a call does to the blocks -/

section Specs

variable {frameId : UInt32} {chunkId chunkCount : UInt16} {isParity : Bool} {payload : Bytes}
  {now : Nat} {out : Option Bytes}

/-- A shard of a returned frame is dropped. -/
theorem addShard_late (late : (decoder.entry frameId chunkCount now).state = .emitted)
    (ran : decoder.addShard frameId chunkId chunkCount isParity payload now = some (out, after)) :
    out = none ∧ after.rs = decoder.rs ∧ after.pending = decoder.pending := by
  rw [addShard] at ran
  simp only [late] at ran
  cases ran
  exact ⟨rfl, rfl, rfl⟩

/-- Any other shard is stored, unless it is there, and the block is settled. -/
theorem addShard_pending (waits : (decoder.entry frameId chunkCount now).state = .pending)
    (ran : decoder.addShard frameId chunkId chunkCount isParity payload now = some (out, after)) :
    ∃ block placed block', ((decoder.entry frameId chunkCount now).updateCount isParity
        chunkCount).place isParity chunkId.toNat payload = some (block, placed) ∧
      ((placed = false ∧ out = none ∧ block' = block) ∨
        (placed = true ∧ ∃ stats stats',
          settle decoder.rs stats block = some (out, block', stats'))) ∧
      after.rs = decoder.rs ∧ after.pending = decoder.pending.insert frameId block' := by
  rw [addShard] at ran
  simp only [waits, ne_eq, not_true_eq_false, if_false] at ran
  obtain ⟨⟨block, placed⟩, there, ran⟩ := Option.bind_eq_some_iff.mp ran
  cases placed with
  | false =>
      cases ran
      exact ⟨block, false, block, there, .inl ⟨rfl, rfl, rfl⟩, rfl, rfl⟩
  | true =>
      obtain ⟨⟨out', block', stats'⟩, settled, done⟩ := Option.bind_eq_some_iff.mp ran
      cases done
      exact ⟨block, true, block', there, .inr ⟨rfl, _, stats', settled⟩, rfl, rfl⟩

/-- A block that yields its frame is marked. -/
theorem settle_emitted {rs : ReedSolomonFec library} {stats stats' : FecDecoderStats}
    {block block' : PendingBlock} {bytes : Bytes}
    (settled : settle rs stats block = some (some bytes, block', stats')) :
    block'.state = .emitted := by
  rw [settle] at settled
  split at settled
  · split at settled
    · cases settled
      rfl
    · obtain ⟨result, -, settled⟩ := Option.bind_eq_some_iff.mp settled
      split at settled
      · cases settled
        rfl
      · cases settled
  · cases settled

theorem getElem?_insert {pending : TreeMap UInt32 PendingBlock} {block : PendingBlock}
    (frameId id : UInt32) :
    (pending.insert frameId block)[id]? = if id = frameId then some block else pending[id]? := by
  simp only [TreeMap.getElem?_insert, Std.LawfulEqCmp.compare_eq_iff_eq, @eq_comm _ frameId]

theorem drainExpired_getElem? (decoder : FecDecoder library) (now : Nat) (id : UInt32) :
    (decoder.drainExpired now).2.pending[id]? = decoder.pending[id]?.filter fun block =>
      block.state = .pending && !(block.deadline ≤ now) := by
  rw [drainExpired, TreeMap.getElem?_filter']

theorem mem_drainExpired {id : UInt32} (member : id ∈ (decoder.drainExpired now).1) :
    ∃ block, decoder.pending[id]? = some block ∧ block.state = .pending := by
  obtain ⟨⟨id', block⟩, inside, rfl⟩ := List.mem_map.mp member
  obtain ⟨entry, waits⟩ := List.mem_filter.mp inside
  refine ⟨block, TreeMap.mem_toList_iff_getElem?_eq_some.mp entry, ?_⟩
  simp only [Bool.and_eq_true, decide_eq_true_eq] at waits
  exact waits.1

end Specs

/-! ## Frames that were returned -/

/-- The frames that a run returns, with their ids. -/
def returns (decoder : FecDecoder library) (calls : List FecCall) : List (UInt32 × Bytes) :=
  List.notesM step returned decoder calls

/-- A shard of a frame that was returned comes before the drain that forgets the
frame. -/
def InTime (fresh : FecDecoder library) (past : List FecCall) : FecCall → Prop
  | .addShard id .. => id ∈ (fresh.returns past).map Prod.fst →
      (fresh.run past).all fun decoder => decoder.pending.contains id
  | .drainExpired _ => True

instance (fresh : FecDecoder library) (past : List FecCall) :
    ∀ call, Decidable (fresh.InTime past call)
  | .addShard .. => inferInstanceAs (Decidable (_ → _))
  | .drainExpired _ => isTrue trivial

/-- The entries that are left of returned frames are marked. -/
structure Marked (fresh : FecDecoder library) (past : List FecCall)
    (decoder : FecDecoder library) : Prop where
  reached : fresh.run past = some decoder
  marked : ∀ id ∈ (fresh.returns past).map Prod.fst, ∀ block, decoder.pending[id]? = some block →
    block.state = .emitted

theorem returned_addShard {frameId : UInt32} {chunkId chunkCount : UInt16} {isParity : Bool}
    {payload : Bytes} {now : Nat} {id : UInt32} {bytes : Bytes}
    (member : (id, bytes) ∈
      decoder.returned (.addShard frameId chunkId chunkCount isParity payload now)) :
    id = frameId ∧ ∃ after, decoder.addShard frameId chunkId chunkCount isParity payload now =
      some (some bytes, after) := by
  rw [returned] at member
  split at member
  · rename_i bytes' after ran
    cases List.mem_singleton.mp member
    exact ⟨rfl, after, ran⟩
  · cases member

namespace Marked

variable {fresh : FecDecoder library} {past : List FecCall}

theorem run_concat {call : FecCall} (reached : fresh.run past = some decoder)
    (stepped : decoder.step call = some after) : fresh.run (past ++ [call]) = some after := by
  rw [run, List.foldlM_append]
  rw [run] at reached
  rw [reached, Option.bind_eq_bind, Option.bind_some, List.foldlM_cons, stepped]
  rfl

theorem step (marks : Marked fresh past decoder) {call : FecCall} (inTime : fresh.InTime past call)
    (stepped : decoder.step call = some after) : Marked fresh (past ++ [call]) after := by
  refine ⟨run_concat marks.reached stepped, fun id member block found => ?_⟩
  rw [returns, List.notesM_concat marks.reached, List.map_append] at member
  cases call with
  | drainExpired now =>
      cases stepped
      rw [drainExpired_getElem?] at found
      obtain ⟨before, -⟩ := Option.filter_eq_some_iff.mp found
      rcases List.mem_append.mp member with earlier | now
      · exact marks.marked id earlier block before
      · cases now
  | addShard frameId chunkId chunkCount isParity payload now =>
      obtain ⟨⟨out, after'⟩, ran, same⟩ := Option.map_eq_some_iff.mp stepped
      cases same
      cases state : (decoder.entry frameId chunkCount now).state with
      | emitted =>
          obtain ⟨rfl, -, same⟩ := addShard_late state ran
          rw [same] at found
          rcases List.mem_append.mp member with earlier | now'
          · exact marks.marked id earlier block found
          · obtain ⟨⟨id', bytes⟩, noted, rfl⟩ := List.mem_map.mp now'
            obtain ⟨-, after'', returned⟩ := returned_addShard noted
            cases ran.symm.trans returned
      | pending =>
          obtain ⟨stored, placed, block', there, outcome, -, inserted⟩ := addShard_pending state ran
          rw [inserted, getElem?_insert] at found
          by_cases here : id = frameId
          · subst here
            rw [if_pos rfl] at found
            cases found
            rcases List.mem_append.mp member with earlier | now'
            · have kept := inTime earlier
              rw [marks.reached, Option.all_some, TreeMap.contains_eq_isSome_getElem?] at kept
              obtain ⟨old, found⟩ := Option.isSome_iff_exists.mp kept
              have emitted := marks.marked id earlier old found
              rw [entry, found, Option.getD_some, emitted] at state
              cases state
            · obtain ⟨⟨id', bytes⟩, noted, rfl⟩ := List.mem_map.mp now'
              obtain ⟨-, after'', returned⟩ := returned_addShard noted
              cases ran.symm.trans returned
              rcases outcome with ⟨-, none, -⟩ | ⟨-, stats, stats', settled⟩
              · cases none
              · exact settle_emitted settled
          · rw [if_neg here] at found
            rcases List.mem_append.mp member with earlier | now'
            · exact marks.marked id earlier block found
            · obtain ⟨⟨id', bytes⟩, noted, rfl⟩ := List.mem_map.mp now'
              exact absurd (returned_addShard noted).1 here

end Marked

/-- No call reports a frame as discarded that was returned before. -/
def DiscardsOnlyLost (fresh : FecDecoder library) (calls : List FecCall) : Prop :=
  ∀ past call rest decoder, calls = past ++ call :: rest → fresh.run past = some decoder →
    ∀ id ∈ decoder.discarded call, id ∉ (fresh.returns past).map Prod.fst

theorem discardsOnlyLost_of_inTime {fresh : FecDecoder library} {calls : List FecCall}
    (inTime : List.Along fresh.InTime [] calls) : fresh.DiscardsOnlyLost calls := by
  rintro past call rest decoder rfl reached id discarded member
  have marks : Marked fresh ([] ++ past) decoder :=
    inTime.left.foldlM_of_some (I := Marked fresh)
      (fun past decoder call after ok stepped marks => marks.step ok stepped)
      ⟨rfl, fun id member => absurd member List.not_mem_nil⟩ reached
  cases call with
  | addShard => cases discarded
  | drainExpired now =>
      obtain ⟨block, found, waits⟩ := mem_drainExpired discarded
      have emitted := marks.marked id member block found
      rw [waits] at emitted
      cases emitted

end FecDecoder

/-! ## Encoded frames -/

/-- A frame and its shards. -/
structure Transmission {ε : Type} {library : ErasureLibrary ε} (rs : ReedSolomonFec library) where
  frame : Bytes
  nonempty : frame ≠ []
  enc : EncodedFrame
  encoded : rs.encode frame = some (.ok enc)

namespace FecCall

variable {ε : Type} {library : ErasureLibrary ε} {rs : ReedSolomonFec library}

/-- The shard that a call adds is one of the frame with its id: chunk ids are the
positions of the shards among the data or the parity shards, and the chunk count
is the number of data shards. -/
def OfFrame (frames : UInt32 → Option (Transmission rs)) : FecCall → Prop
  | .addShard frameId chunkId chunkCount isParity payload _ =>
      ∃ t, frames frameId = some t ∧ chunkCount.toNat = t.enc.data.length ∧
        (if isParity then t.enc.parity else t.enc.data)[chunkId.toNat]? = some payload
  | .drainExpired _ => True

/-- The shard that a call adds. -/
def shard : FecCall → Option (UInt32 × Bool × UInt16)
  | .addShard frameId chunkId _ isParity _ _ => some (frameId, isParity, chunkId)
  | .drainExpired _ => none

def time : FecCall → Nat
  | .addShard _ _ _ _ _ now => now
  | .drainExpired now => now

end FecCall

namespace Sample

/-- A frame of a single byte. -/
def lone : Transmission twice where
  frame := [7]
  nonempty := by decide
  enc := { data := [7 :: List.replicate 15 0], parity := [7 :: List.replicate 15 0]
           shardLen := 16, originalLen := 1 }
  encoded := by decide

def loneShard (isParity : Bool) (now : Nat) : FecCall :=
  .addShard 3 0 1 isParity (7 :: List.replicate 15 0) now

/-- The parity shard comes before the drain. -/
def inTime : List FecCall := [loneShard false 0, loneShard true 1, .drainExpired 300]

/-- The parity shard comes after the drain. -/
def afterDrain : List FecCall :=
  [loneShard false 0, .drainExpired 1, loneShard true 2, .drainExpired 300]

end Sample

theorem loneShard_ofFrame (isParity : Bool) (now : Nat) :
    (Sample.loneShard isParity now).OfFrame fun _ => some Sample.lone :=
  ⟨Sample.lone, rfl, rfl, by cases isParity <;> rfl⟩

theorem inTime_discardsOnlyLost :
    ((FecDecoder.new Sample.twice 200 16).returns Sample.inTime).map Prod.fst = [3] ∧
      (FecDecoder.new Sample.twice 200 16).DiscardsOnlyLost Sample.inTime :=
  ⟨by decide, FecDecoder.discardsOnlyLost_of_inTime (by decide)⟩

theorem afterDrain_not_discardsOnlyLost :
    ¬ ∀ (library : ErasureLibrary Unit) (rs : ReedSolomonFec library) (timeout maxPending : Nat)
      (frames : UInt32 → Option (Transmission rs)) (calls : List FecCall),
      (∀ call ∈ calls, call.OfFrame frames) → (calls.filterMap FecCall.shard).Nodup →
      (calls.map FecCall.time).Pairwise (· ≤ ·) →
      (FecDecoder.new rs timeout maxPending).DiscardsOnlyLost calls := by
  intro always
  have only := always Sample.copies Sample.twice 200 16 (fun _ => some Sample.lone)
    Sample.afterDrain (fun call member => by
      simp only [Sample.afterDrain, List.mem_cons, List.not_mem_nil, or_false] at member
      rcases member with rfl | rfl | rfl | rfl
      · exact loneShard_ofFrame _ _
      · trivial
      · exact loneShard_ofFrame _ _
      · trivial) (by decide) (by decide)
  have reported : ((FecDecoder.new Sample.twice 200 16).run Sample.afterDrain.dropLast).map
      (fun decoder => decoder.discarded (.drainExpired 300)) = some [3] := by
    decide +kernel
  obtain ⟨decoder, reached, listed⟩ := Option.map_eq_some_iff.mp reported
  refine only Sample.afterDrain.dropLast (.drainExpired 300) [] decoder rfl reached 3 ?_
    (by decide)
  rw [listed]
  exact List.mem_singleton.mpr rfl

end Qubox.Media
