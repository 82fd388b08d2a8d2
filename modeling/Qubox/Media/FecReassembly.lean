import Mathlib.Data.List.Perm.Subperm
import Qubox.Media.FecDelivery

/-!
# Frames from shards

The decoder is fed with shards of encoded frames, each at most once. A block
that collects such shards yields the frame or nothing, and a frame takes at least
`k` shards of its first block each time it is returned.
-/

namespace Qubox.Media

open ReedSolomonFec (padTo length_padTo padTo_of_le getElem?_padTo)

variable {ε : Type} {library : ErasureLibrary ε} {rs : ReedSolomonFec library}

/-! ## Shards in their places -/

/-- The shards that are held are at their places. -/
structure Within (shards : List Bytes) (held : List (Option Bytes)) : Prop where
  length_le : held.length ≤ shards.length
  own : ∀ (i : Nat) (b : Bytes), held[i]? = some (some b) → shards[i]? = some b

section Within

variable {shards : List Bytes} {held held' : List (Option Bytes)} {idx : Nat} {payload : Bytes}
  {stored : Bool}

theorem within_nil (shards : List Bytes) : Within shards [] :=
  ⟨Nat.zero_le _, fun i b found => by cases found⟩

theorem Within.place (within : Within shards held) (own : shards[idx]? = some payload)
    (placed : placeShard held idx payload = some (held', stored)) : Within shards held' := by
  have inside : idx < shards.length := (List.getElem?_eq_some_iff.mp own).1
  rcases placeShard_cases held idx payload with ⟨-, same⟩ | ⟨-, same⟩
  · cases same.symm.trans placed
    exact within
  · cases same.symm.trans placed
    refine ⟨?_, fun i b found => ?_⟩
    · rw [List.length_set, length_padTo]
      have := within.length_le
      omega
    · by_cases here : idx = i
      · subst here
        rw [List.getElem?_set_self (by rw [length_padTo]; omega)] at found
        cases found
        exact own
      · rw [List.getElem?_set_ne here, getElem?_padTo] at found
        exact within.own i b found

theorem Within.agrees (within : Within shards held) {count : Nat} (full : count = shards.length) :
    Agrees shards (padTo count held) := by
  refine agrees_iff.mpr ⟨?_, fun i b found => within.own i b (getElem?_padTo.mp found)⟩
  rw [length_padTo, full, Nat.max_eq_right within.length_le]

theorem countP_take_padTo (count k : Nat) (held : List (Option Bytes)) :
    ((padTo count held).take k).countP Option.isSome = (held.take k).countP Option.isSome := by
  rw [padTo, List.take_append, List.countP_append, List.take_replicate, List.countP_replicate]
  rfl

/-- A new shard counts once, if it is one of the first. -/
theorem countP_take_place (placed : placeShard held idx payload = some (held', true)) (k : Nat) :
    (held'.take k).countP Option.isSome =
      (held.take k).countP Option.isSome + if idx < k then 1 else 0 := by
  rcases placeShard_cases held idx payload with ⟨-, same⟩ | ⟨absent, same⟩
  · cases same.symm.trans placed
  · cases same.symm.trans placed
    have inside : idx < (padTo (idx + 1) held).length := by
      rw [length_padTo]
      omega
    rw [List.take_set, ← countP_take_padTo (idx + 1)]
    split
    case isTrue low =>
      have within : idx < ((padTo (idx + 1) held).take k).length := by
        rw [List.length_take]
        omega
      have empty : ((padTo (idx + 1) held).take k)[idx].isSome = false := by
        rw [List.getElem_take]
        cases slot : (padTo (idx + 1) held)[idx] with
        | none => rfl
        | some b =>
            have found : (padTo (idx + 1) held)[idx]? = some (some b) := by
              rw [List.getElem?_eq_getElem inside, slot]
            exact absurd (getElem?_padTo.mp found) (absent b)
      rw [List.countP_set within, empty]
      simp
    case isFalse high =>
      rw [List.set_eq_of_length_le (by rw [List.length_take]; omega)]
      rfl

end Within

/-! ## A block of a frame -/

/-- A block holds shards of the frame. -/
structure Collects (t : Transmission rs) (block : PendingBlock) : Prop where
  count : block.chunkCount.toNat = t.enc.data.length
  data : Within t.enc.data block.data
  parity : Within t.enc.parity block.parity

/-- The shards that a block holds of the first block of its frame. -/
def PendingBlock.heldFirst (rs : ReedSolomonFec library) (block : PendingBlock) : Nat :=
  (block.data.take rs.blockSize).countP Option.isSome +
    (block.parity.take rs.parityShards).countP Option.isSome

/-- What is assumed of the library, for these numbers of shards. -/
def LibraryIsMds (rs : ReedSolomonFec library) : Prop :=
  ∃ parityOf, ∀ code, library rs.blockSize rs.parityShards = .ok code →
    Mds code rs.blockSize rs.parityShards parityOf

/-- Without parity shards a frame has to fit into one block. -/
def FitsWithoutParity (t : Transmission rs) : Prop :=
  rs.parityShards = 0 → t.enc.data.length ≤ rs.blockSize

section Collects

variable {t : Transmission rs} {block : PendingBlock}

theorem collects_opened {chunkCount : UInt16} (count : chunkCount.toNat = t.enc.data.length)
    (now timeout : Nat) : Collects t (.opened chunkCount now timeout) :=
  ⟨count, within_nil _, within_nil _⟩

theorem Collects.updateCount (collects : Collects t block) {chunkCount : UInt16}
    (count : chunkCount.toNat = t.enc.data.length) (isParity : Bool) :
    block.updateCount isParity chunkCount = block := by
  have same : ¬ block.chunkCount < chunkCount := by
    rw [UInt16.lt_iff_toNat_lt, collects.count, count]
    exact Nat.lt_irrefl _
  rw [PendingBlock.updateCount, decide_eq_false same, Bool.and_false, if_neg Bool.false_ne_true]

theorem Collects.place (collects : Collects t block) {isParity : Bool} {idx : Nat}
    {payload : Bytes} {block' : PendingBlock} {stored : Bool}
    (own : (if isParity then t.enc.parity else t.enc.data)[idx]? = some payload)
    (placed : block.place isParity idx payload = some (block', stored)) :
    Collects t block' ∧ block'.state = block.state ∧
      block'.heldFirst rs = block.heldFirst rs +
        if stored ∧ idx < (if isParity then rs.parityShards else rs.blockSize) then 1 else 0 := by
  have unstored {held held' : List (Option Bytes)}
      (placed : placeShard held idx payload = some (held', false)) : held' = held := by
    rcases placeShard_cases held idx payload with ⟨-, same⟩ | ⟨-, same⟩
    · cases same.symm.trans placed
      rfl
    · cases same.symm.trans placed
  cases isParity with
  | true =>
      obtain ⟨⟨parity, stored⟩, ran, same⟩ := Option.map_eq_some_iff.mp placed
      cases same
      refine ⟨⟨collects.count, collects.data, collects.parity.place own ran⟩, rfl, ?_⟩
      cases stored with
      | false => simp [PendingBlock.heldFirst, unstored ran]
      | true =>
          simp only [PendingBlock.heldFirst, countP_take_place ran, true_and, if_true]
          omega
  | false =>
      obtain ⟨⟨data, stored⟩, ran, same⟩ := Option.map_eq_some_iff.mp placed
      cases same
      refine ⟨⟨collects.count, collects.data.place own ran, collects.parity⟩, rfl, ?_⟩
      cases stored with
      | false => simp [PendingBlock.heldFirst, unstored ran]
      | true =>
          simp only [PendingBlock.heldFirst, countP_take_place ran, true_and, Bool.false_eq_true,
            if_false]
          omega

theorem heldFirst_sized (rs : ReedSolomonFec library) (block : PendingBlock) :
    (block.sized rs).heldFirst rs = block.heldFirst rs := by
  rw [PendingBlock.heldFirst, PendingBlock.heldFirst, PendingBlock.sized, countP_take_padTo,
    countP_take_padTo]

theorem assemble_map_some (data : List Bytes) : assemble (data.map some) = data.flatten := by
  rw [assemble, List.filterMap_map, Function.id_comp, List.filterMap_some]

theorem Collects.eq_data (collects : Collects t block)
    (complete : block.dataCount = block.chunkCount.toNat) : block.data = t.enc.data.map some := by
  have within := collects.data.length_le
  have counted := List.countP_le_length (p := Option.isSome) (l := block.data)
  rw [collects.count, PendingBlock.dataCount] at complete
  have full : block.data.length = t.enc.data.length := by omega
  have agrees := collects.data.agrees full
  rw [padTo_of_le le_rfl] at agrees
  exact agrees.eq_data (List.countP_eq_length.mp (complete.trans full.symm))

theorem Collects.heldFirst_of_complete (collects : Collects t block)
    (complete : block.dataCount = block.chunkCount.toNat)
    (enough : rs.blockSize ≤ t.enc.data.length) : rs.blockSize ≤ block.heldFirst rs := by
  have all : (block.data.take rs.blockSize).countP Option.isSome = rs.blockSize := by
    rw [collects.eq_data complete, ← List.map_take, List.countP_map]
    have total : ((t.enc.data.take rs.blockSize).countP fun _ => true) = rs.blockSize := by
      rw [List.countP_true, List.length_take]
      omega
    exact total
  rw [PendingBlock.heldFirst]
  omega

theorem Collects.known (collects : Collects t block) {parityOf : List Bytes → List Bytes}
    {blocks : Nat} (coded : Coded rs parityOf blocks t.enc) :
    Known t.enc (block.sized rs).data (block.sized rs).parity := by
  refine ⟨collects.data.agrees collects.count, collects.parity.agrees ?_⟩
  rw [collects.count, blocks_eq coded, coded.parity_length]

theorem Collects.sized (collects : Collects t block) {parityOf : List Bytes → List Bytes}
    {blocks : Nat} (coded : Coded rs parityOf blocks t.enc) : Collects t (block.sized rs) := by
  have known := collects.known coded
  have data := agrees_iff.mp known.data
  have parity := agrees_iff.mp known.parity
  exact ⟨collects.count, ⟨data.1.le, data.2⟩, ⟨parity.1.le, parity.2⟩⟩

/-- Without parity shards a block that is ready is complete. -/
theorem Collects.complete_of_ready (collects : Collects t block) (none : t.enc.parity = [])
    (small : t.enc.data.length ≤ rs.blockSize) (ready : block.Ready rs) :
    block.dataCount = block.chunkCount.toNat ∧ rs.blockSize ≤ t.enc.data.length := by
  have within := collects.data.length_le
  have counted := List.countP_le_length (p := Option.isSome) (l := block.data)
  have parities : block.parityCount = 0 := by
    have empty := collects.parity.length_le
    rw [none, List.length_nil, Nat.le_zero, List.length_eq_zero_iff] at empty
    rw [PendingBlock.parityCount, empty, List.countP_nil]
  have enough := ready.1
  have count := collects.count
  rw [PendingBlock.dataCount] at enough ⊢
  omega

/-- A block of a frame yields the frame, with `k` shards of its first block, or
nothing. -/
theorem Collects.settle (collects : Collects t block) (mds : LibraryIsMds rs)
    (fits : FitsWithoutParity t) (stats : FecDecoderStats) :
    ∃ out block' stats', FecDecoder.settle rs stats block = some (out, block', stats') ∧
      ((out = none ∧ block'.state = block.state ∧ Collects t block' ∧
          block'.heldFirst rs = block.heldFirst rs) ∨
        (out = some t.enc.data.flatten ∧ rs.blockSize ≤ block.heldFirst rs)) := by
  obtain ⟨parityOf, mds⟩ := mds
  obtain ⟨-, -, none, coded⟩ := encode_spec t.encoded mds
  rw [FecDecoder.settle]
  by_cases ready : block.Ready rs
  · rw [if_pos ready]
    by_cases complete : block.dataCount = block.chunkCount.toNat
    · rw [if_pos complete]
      refine ⟨_, _, _, rfl, .inr ⟨?_, collects.heldFirst_of_complete complete ?_⟩⟩
      · have full : (block.sized rs).data = t.enc.data.map some := by
          rw [PendingBlock.sized, collects.eq_data complete, collects.count,
            padTo_of_le (List.length_map ..).ge]
        rw [full, assemble_map_some]
      · by_cases zero : rs.parityShards = 0
        · exact (collects.complete_of_ready (none zero) (fits zero) ready).2
        · obtain ⟨blocks, coded⟩ := coded (Nat.pos_of_ne_zero zero)
          rw [coded.data_length]
          exact Nat.le_mul_of_pos_left _ coded.pos
    · rw [if_neg complete]
      have some : rs.parityShards ≠ 0 := fun zero =>
        complete (collects.complete_of_ready (none zero) (fits zero) ready).1
      obtain ⟨blocks, coded⟩ := coded (Nat.pos_of_ne_zero some)
      have known := collects.known coded
      obtain ⟨result, ran⟩ := Option.isSome_iff_exists.mp
        ((rs.reconstruct_isSome _ _).mpr (known.covered coded))
      rw [ran]
      cases result with
      | error e =>
          exact ⟨_, _, _, rfl, .inl ⟨rfl, rfl, collects.sized coded, heldFirst_sized rs block⟩⟩
      | ok result =>
          obtain ⟨recovered, data', parity'⟩ := result
          obtain ⟨whole, enough⟩ :=
            known.reconstruct coded mds (Nat.pos_of_ne_zero some) ran
          refine ⟨_, _, _, rfl, .inr ⟨by rw [whole, assemble_map_some], ?_⟩⟩
          have first := enough 0 coded.pos
          rw [presentIn, blockShards_eq coded.pos (known.data.length_eq.trans coded.data_length)
            (known.parity.length_eq.trans coded.parity_length), pieceAt, pieceAt, Nat.zero_mul,
            Nat.zero_mul, List.drop_zero, List.drop_zero, List.countP_append] at first
          rwa [← heldFirst_sized]
  · rw [if_neg ready]
    exact ⟨_, _, _, rfl, .inl ⟨rfl, rfl, collects, rfl⟩⟩

end Collects

/-! ## Runs -/

/-- A call adds a shard of the first block of a frame. -/
def FecCall.ofFirstBlock (rs : ReedSolomonFec library) (id : UInt32) : FecCall → Bool
  | .addShard frameId chunkId _ isParity _ _ =>
      frameId = id && chunkId.toNat < (if isParity then rs.parityShards else rs.blockSize)
  | .drainExpired _ => false

namespace FecDecoder

/-- The shards that a decoder holds of the first block of a frame it waits for. -/
def heldFirst (decoder : FecDecoder library) (id : UInt32) : Nat :=
  match decoder.pending[id]? with
  | some block => if block.state = .pending then block.heldFirst decoder.rs else 0
  | none => 0

/-- Fed with shards of encoded frames, a decoder holds shards of these frames, has
returned these frames, and has taken `k` shards of the first block for each. -/
structure Tracks (fresh : FecDecoder library) (frames : UInt32 → Option (Transmission fresh.rs))
    (past : List FecCall) (decoder : FecDecoder library) : Prop where
  reached : fresh.run past = some decoder
  same : decoder.rs = fresh.rs
  blocks : ∀ (id : UInt32) (block : PendingBlock), decoder.pending[id]? = some block →
    block.state = .pending → ∃ t, frames id = some t ∧ Collects t block
  bytes : ∀ id bytes, (id, bytes) ∈ fresh.returns past →
    ∃ t, frames id = some t ∧ bytes = t.enc.data.flatten
  counted : ∀ id, fresh.rs.blockSize * ((fresh.returns past).countP fun e => e.1 = id) +
    decoder.heldFirst id ≤ past.countP (FecCall.ofFirstBlock fresh.rs id)

section Shard

variable {decoder : FecDecoder library} {frameId : UInt32} {chunkId chunkCount : UInt16}
  {isParity : Bool} {payload : Bytes} {now : Nat}

theorem addShard_eq_late (late : (decoder.entry frameId chunkCount now).state = .emitted) :
    ∃ after, decoder.addShard frameId chunkId chunkCount isParity payload now =
      some (none, after) ∧ after.rs = decoder.rs ∧ after.pending = decoder.pending := by
  rw [addShard]
  simp only [late]
  exact ⟨_, rfl, rfl, rfl⟩

/-- A shard of the frame that a block waits for. -/
theorem addShard_collects (same : decoder.rs = rs) {t : Transmission rs} (mds : LibraryIsMds rs)
    (fits : FitsWithoutParity t) (waits : (decoder.entry frameId chunkCount now).state = .pending)
    (collects : Collects t (decoder.entry frameId chunkCount now))
    (count : chunkCount.toNat = t.enc.data.length)
    (own : (if isParity then t.enc.parity else t.enc.data)[chunkId.toNat]? = some payload) :
    ∃ out block after, decoder.addShard frameId chunkId chunkCount isParity payload now =
        some (out, after) ∧
      after.rs = decoder.rs ∧ after.pending = decoder.pending.insert frameId block ∧
      ∃ more, more ≤ (if (FecCall.addShard frameId chunkId chunkCount isParity payload
          now).ofFirstBlock rs frameId then 1 else 0) ∧
        ((out = none ∧ block.state = .pending ∧ Collects t block ∧ block.heldFirst rs =
            (decoder.entry frameId chunkCount now).heldFirst rs + more) ∨
          (out = some t.enc.data.flatten ∧ block.state = .emitted ∧
            rs.blockSize ≤ (decoder.entry frameId chunkCount now).heldFirst rs + more)) := by
  obtain ⟨block, placed, there⟩ := place_isSome
    ((decoder.entry frameId chunkCount now).updateCount isParity chunkCount) isParity
    chunkId.toNat payload
  have stays := there
  rw [collects.updateCount count isParity] at stays
  obtain ⟨collects', state, held⟩ := collects.place own stays
  have more_le : (if placed ∧ chunkId.toNat < (if isParity then rs.parityShards else rs.blockSize)
      then 1 else 0) ≤ (if (FecCall.addShard frameId chunkId chunkCount isParity payload
        now).ofFirstBlock rs frameId then 1 else 0) := by
    simp only [FecCall.ofFirstBlock, decide_true, Bool.true_and, decide_eq_true_eq]
    generalize (if isParity then rs.parityShards else rs.blockSize) = limit
    split
    case isTrue both => rw [if_pos both.2]
    case isFalse => exact Nat.zero_le _
  rw [addShard]
  simp only [waits, ne_eq, not_true_eq_false, if_false, there, Option.bind_eq_bind,
    Option.bind_some]
  cases placed with
  | false =>
      refine ⟨none, block, _, rfl, rfl, rfl, _, more_le, .inl ⟨rfl, ?_, collects', held⟩⟩
      rw [state, waits]
  | true =>
      simp only [if_true, same]
      generalize (if decoder.pending.contains frameId then decoder.stats else _) = stats
      obtain ⟨out, block', stats', settled, result⟩ := collects'.settle mds fits stats
      rw [settled]
      refine ⟨out, block', _, rfl, rfl, rfl, _, more_le, ?_⟩
      rcases result with ⟨none, state', collects'', held'⟩ | ⟨returned, enough⟩
      · exact .inl ⟨none, by rw [state', state, waits], collects'', by rw [held', held]⟩
      · subst returned
        exact .inr ⟨rfl, settle_emitted settled, by rw [held] at enough; exact enough⟩

end Shard

namespace Tracks

variable {fresh decoder : FecDecoder library} {frames : UInt32 → Option (Transmission fresh.rs)}
  {past : List FecCall}

theorem start (rs : ReedSolomonFec library) (timeout maxPending : Nat)
    (frames : UInt32 → Option (Transmission rs)) :
    Tracks (.new rs timeout maxPending) frames [] (.new rs timeout maxPending) := by
  have empty (id : UInt32) : (FecDecoder.new rs timeout maxPending).pending[id]? = none :=
    Std.TreeMap.getElem?_emptyc
  refine ⟨rfl, rfl, fun id block found => ?_, fun id bytes member => absurd member List.not_mem_nil,
    fun id => ?_⟩
  · rw [empty] at found
    cases found
  · rw [heldFirst, empty]
    exact Nat.le_refl 0

theorem drain (tracks : Tracks fresh frames past decoder) (now : Nat) :
    Tracks fresh frames (past ++ [.drainExpired now]) (decoder.drainExpired now).2 := by
  have noted : fresh.returns (past ++ [.drainExpired now]) = fresh.returns past := by
    rw [returns, List.notesM_concat tracks.reached]
    exact List.append_nil _
  refine ⟨Marked.run_concat tracks.reached rfl, tracks.same, fun id block found waits => ?_,
    fun id bytes member => tracks.bytes id bytes (noted ▸ member), fun id => ?_⟩
  · rw [drainExpired_getElem?] at found
    exact tracks.blocks id block (Option.filter_eq_some_iff.mp found).1 waits
  · have fewer : (decoder.drainExpired now).2.heldFirst id ≤ decoder.heldFirst id := by
      rw [heldFirst, drainExpired_getElem?]
      cases found : decoder.pending[id]?.filter _ with
      | none => exact Nat.zero_le _
      | some block =>
          rw [heldFirst, (Option.filter_eq_some_iff.mp found).1]
          exact Nat.le_refl _
    have counted := tracks.counted id
    rw [noted, List.countP_append]
    omega

/-- The block that a shard is added to is one of its frame. -/
theorem entry_collects (tracks : Tracks fresh frames past decoder) {id : UInt32}
    {t : Transmission fresh.rs} (known : frames id = some t) {chunkCount : UInt16}
    (count : chunkCount.toNat = t.enc.data.length) {now : Nat}
    (waits : (decoder.entry id chunkCount now).state = .pending) :
    Collects t (decoder.entry id chunkCount now) ∧
      (decoder.entry id chunkCount now).heldFirst fresh.rs = decoder.heldFirst id := by
  rw [entry] at waits ⊢
  rw [heldFirst]
  cases found : decoder.pending[id]? with
  | none =>
      exact ⟨collects_opened count now _, by simp [PendingBlock.heldFirst, PendingBlock.opened]⟩
  | some block =>
      rw [found] at waits
      obtain ⟨t', known', collects⟩ := tracks.blocks id block found waits
      cases known.symm.trans known'
      rw [Option.getD_some] at waits ⊢
      refine ⟨collects, ?_⟩
      dsimp only
      rw [if_pos waits, tracks.same]

theorem add (tracks : Tracks fresh frames past decoder) (mds : LibraryIsMds fresh.rs)
    (fits : ∀ id t, frames id = some t → FitsWithoutParity t) {frameId : UInt32}
    {chunkId chunkCount : UInt16} {isParity : Bool} {payload : Bytes} {now : Nat}
    (own : (FecCall.addShard frameId chunkId chunkCount isParity payload now).OfFrame frames) :
    ∃ after, decoder.step (.addShard frameId chunkId chunkCount isParity payload now) = some after ∧
      Tracks fresh frames
        (past ++ [.addShard frameId chunkId chunkCount isParity payload now]) after := by
  obtain ⟨t, known, count, own⟩ := own
  cases state : (decoder.entry frameId chunkCount now).state with
  | emitted =>
      obtain ⟨after, ran, same, kept⟩ := @addShard_eq_late _ _ decoder frameId chunkId chunkCount
        isParity payload now state
      have stepped : decoder.step (.addShard frameId chunkId chunkCount isParity payload now) =
          some after := by
        rw [step, ran]
        rfl
      have noted : fresh.returns (past ++ [.addShard frameId chunkId chunkCount isParity payload
          now]) = fresh.returns past := by
        rw [returns, List.notesM_concat tracks.reached, returned, ran]
        exact List.append_nil _
      have held (id : UInt32) : after.heldFirst id = decoder.heldFirst id := by
        rw [heldFirst, heldFirst, kept, same]
      refine ⟨after, stepped, Marked.run_concat tracks.reached stepped, same.trans tracks.same,
        fun id block found => tracks.blocks id block (kept ▸ found),
        fun id bytes member => tracks.bytes id bytes (noted ▸ member), fun id => ?_⟩
      have counted := tracks.counted id
      rw [noted, held, List.countP_append]
      omega
  | pending =>
      obtain ⟨collects, heldEntry⟩ := tracks.entry_collects known count state
      obtain ⟨out, block, after, ran, same, inserted, more, more_le, result⟩ :=
        addShard_collects tracks.same mds (fits frameId t known) state collects count own
      have stepped : decoder.step (.addShard frameId chunkId chunkCount isParity payload now) =
          some after := by
        rw [step, ran]
        rfl
      refine ⟨after, stepped, Marked.run_concat tracks.reached stepped, same.trans tracks.same,
        fun id block' found waits => ?_, fun id bytes member => ?_, fun id => ?_⟩
      · rw [inserted, getElem?_insert] at found
        split at found
        case isTrue here =>
          subst here
          cases found
          rcases result with ⟨-, -, collects', -⟩ | ⟨-, emitted, -⟩
          · exact ⟨t, known, collects'⟩
          · cases waits.symm.trans emitted
        case isFalse => exact tracks.blocks id block' found waits
      · rw [returns, List.notesM_concat tracks.reached] at member
        rcases List.mem_append.mp member with earlier | now'
        · exact tracks.bytes id bytes earlier
        · obtain ⟨rfl, after', again⟩ := returned_addShard now'
          cases ran.symm.trans again
          rcases result with ⟨none, -⟩ | ⟨returned, -⟩
          · cases none
          · exact ⟨t, known, Option.some.inj returned⟩
      · have counted := tracks.counted id
        rw [returns, List.notesM_concat tracks.reached, ← returns, List.countP_append,
          List.countP_append, List.countP_singleton, returned, ran]
        by_cases here : id = frameId
        · subst here
          have held : after.heldFirst id =
              if block.state = .pending then block.heldFirst fresh.rs else 0 := by
            rw [heldFirst, inserted, getElem?_insert, if_pos rfl, same, tracks.same]
          rcases result with ⟨rfl, waits, -, more_held⟩ | ⟨rfl, emitted, enough⟩
          · rw [held, if_pos waits]
            simp only [List.countP_nil, Nat.add_zero]
            omega
          · rw [held, if_neg (by rw [emitted]; decide)]
            simp only [List.countP_singleton, decide_true, if_true, Nat.mul_add, Nat.mul_one]
            omega
        · have held : after.heldFirst id = decoder.heldFirst id := by
            rw [heldFirst, heldFirst, inserted, getElem?_insert, if_neg here, same]
          have others : frameId ≠ id := fun equal => here equal.symm
          rw [held]
          cases out <;> simp only [List.countP_nil, List.countP_singleton, others, decide_false,
            Bool.false_eq_true, if_false, Nat.add_zero] <;> omega

end Tracks

/-- A frame that was returned is not returned again while it is marked. -/
theorem Marked.returned_eq_nil {fresh decoder : FecDecoder library} {past : List FecCall}
    (marks : Marked fresh past decoder) {call : FecCall} (inTime : fresh.InTime past call)
    {id : UInt32} (before : id ∈ (fresh.returns past).map Prod.fst) (bytes : Bytes) :
    (id, bytes) ∉ decoder.returned call := by
  intro member
  cases call with
  | drainExpired now => cases member
  | addShard frameId chunkId chunkCount isParity payload now =>
      obtain ⟨rfl, after, ran⟩ := returned_addShard member
      have kept := inTime before
      rw [marks.reached, Option.all_some, Std.TreeMap.contains_eq_isSome_getElem?] at kept
      obtain ⟨block, found⟩ := Option.isSome_iff_exists.mp kept
      have emitted : (decoder.entry id chunkCount now).state = .emitted := by
        rw [entry, found, Option.getD_some, marks.marked id before block found]
      cases (addShard_late emitted ran).1

/-- Frames that come in time are returned at most once. -/
theorem returns_le_one_of_inTime {fresh last : FecDecoder library} {calls : List FecCall}
    (inTime : List.Along fresh.InTime [] calls) (ran : fresh.run calls = some last) (id : UInt32) :
    ((fresh.returns calls).countP fun e => e.1 = id) ≤ 1 := by
  have kept : Marked fresh ([] ++ calls) last ∧
      ((fresh.returns ([] ++ calls)).countP fun e => e.1 = id) ≤ 1 := by
    refine inTime.foldlM_of_some (I := fun past decoder => Marked fresh past decoder ∧
      ((fresh.returns past).countP fun e => e.1 = id) ≤ 1) ?_ ?_ ran
    · rintro past decoder call after ok stepped ⟨marks, once⟩
      refine ⟨marks.step ok stepped, ?_⟩
      rw [returns, List.notesM_concat marks.reached, ← returns, List.countP_append]
      have single : ((decoder.returned call).countP fun e => e.1 = id) ≤ 1 := by
        refine List.countP_le_length.trans ?_
        cases call with
        | drainExpired now => exact Nat.zero_le _
        | addShard =>
            rw [returned]
            split
            · exact Nat.le_refl 1
            · exact Nat.zero_le _
      by_cases before : id ∈ (fresh.returns past).map Prod.fst
      · have none : ((decoder.returned call).countP fun e => e.1 = id) = 0 := by
          rw [List.countP_eq_zero]
          rintro ⟨id', bytes⟩ member same
          obtain rfl : id' = id := of_decide_eq_true same
          exact marks.returned_eq_nil ok before bytes member
        omega
      · have none : ((fresh.returns past).countP fun e => e.1 = id) = 0 := by
          rw [List.countP_eq_zero]
          rintro e member same
          exact before (List.mem_map.mpr ⟨e, member, of_decide_eq_true same⟩)
        omega
    · exact ⟨⟨rfl, fun id member => absurd member List.not_mem_nil⟩, Nat.zero_le _⟩
  exact kept.2

end FecDecoder

/-- Of the first block there are only so many shards. -/
theorem countP_ofFirstBlock_le {calls : List FecCall} (once : (calls.filterMap FecCall.shard).Nodup)
    (rs : ReedSolomonFec library) (id : UInt32) :
    calls.countP (FecCall.ofFirstBlock rs id) ≤ rs.blockSize + rs.parityShards := by
  let added := (calls.filter (FecCall.ofFirstBlock rs id)).filterMap FecCall.shard
  let places := ((List.range rs.blockSize).map fun i => (id, false, UInt16.ofNat i)) ++
    (List.range rs.parityShards).map fun i => (id, true, UInt16.ofNat i)
  have distinct : added.Nodup := once.sublist (List.filter_sublist.filterMap _)
  have inside : added ⊆ places := by
    intro s member
    obtain ⟨call, chosen, carries⟩ := List.mem_filterMap.mp member
    have first := (List.mem_filter.mp chosen).2
    cases call with
    | drainExpired now => cases carries
    | addShard frameId chunkId chunkCount isParity payload now =>
        cases carries
        simp only [FecCall.ofFirstBlock, Bool.and_eq_true, decide_eq_true_eq] at first
        obtain ⟨rfl, low⟩ := first
        cases isParity with
        | false =>
            refine List.mem_append_left _ (List.mem_map.mpr ⟨chunkId.toNat, ?_, ?_⟩)
            · exact List.mem_range.mpr low
            · rw [UInt16.ofNat_toNat]
        | true =>
            refine List.mem_append_right _ (List.mem_map.mpr ⟨chunkId.toNat, ?_, ?_⟩)
            · exact List.mem_range.mpr low
            · rw [UInt16.ofNat_toNat]
  have total : added.length = calls.countP (FecCall.ofFirstBlock rs id) := by
    rw [List.countP_eq_length_filter, List.length_filterMap_eq_countP, List.countP_eq_length]
    intro call chosen
    cases call with
    | drainExpired now => cases (List.mem_filter.mp chosen).2
    | addShard => rfl
  have bound := (List.subperm_of_subset distinct inside).length_le
  rw [total, List.length_append, List.length_map, List.length_map, List.length_range,
    List.length_range] at bound
  exact bound

namespace FecDecoder

/-- A run does not panic, and returns each frame at most once and correctly. -/
def ReturnsOnce (fresh : FecDecoder library) (frames : UInt32 → Option (Transmission rs))
    (calls : List FecCall) : Prop :=
  (fresh.run calls).isSome ∧ ∀ id t, frames id = some t →
    ((fresh.returns calls).countP fun e => e.1 = id) ≤ 1 ∧
      ∀ bytes, (id, bytes) ∈ fresh.returns calls → bytes.take t.enc.originalLen = t.frame

theorem returnsOnce_of_inTime (mds : LibraryIsMds rs) (timeout maxPending : Nat)
    {frames : UInt32 → Option (Transmission rs)} {calls : List FecCall}
    (fed : ∀ call ∈ calls, call.OfFrame frames)
    (once : (calls.filterMap FecCall.shard).Nodup)
    (fits : ∀ id t, frames id = some t → FitsWithoutParity t)
    (inTime : List.Along (fun past call => rs.parityShards < rs.blockSize ∨
      (FecDecoder.new rs timeout maxPending).InTime past call) [] calls) :
    (FecDecoder.new rs timeout maxPending).ReturnsOnce frames calls := by
  have own : List.Along (fun _ call => call.OfFrame frames) [] calls := by
    rw [List.along_iff]
    rintro past call rest rfl
    exact fed call (List.mem_append_right _ List.mem_cons_self)
  have keeps (past : List FecCall) (decoder : FecDecoder library) (call : FecCall)
      (own : call.OfFrame frames)
      (tracks : Tracks (.new rs timeout maxPending) frames past decoder) :
      ∃ next, step decoder call = some next ∧
        Tracks (.new rs timeout maxPending) frames (past ++ [call]) next := by
    cases call with
    | addShard => exact tracks.add mds fits own
    | drainExpired now => exact ⟨_, rfl, tracks.drain now⟩
  obtain ⟨last, ran, tracks⟩ := own.foldlM keeps (Tracks.start rs timeout maxPending frames)
  refine ⟨Option.isSome_iff_exists.mpr ⟨last, ran⟩, fun id t known => ⟨?_, fun bytes member => ?_⟩⟩
  · by_cases few : rs.parityShards < rs.blockSize
    · have counted := tracks.counted id
      have bound := countP_ofFirstBlock_le once rs id
      by_contra many
      have twice : rs.blockSize * 2 ≤ rs.blockSize *
          (((FecDecoder.new rs timeout maxPending).returns ([] ++ calls)).countP fun e =>
            e.1 = id) := Nat.mul_le_mul_left _ (Nat.not_le.mp many)
      rw [List.nil_append] at counted twice
      change rs.blockSize * _ + _ ≤ calls.countP (FecCall.ofFirstBlock rs id) at counted
      omega
    · refine returns_le_one_of_inTime ?_ ran id
      rw [List.along_iff] at inTime ⊢
      exact fun past call rest split => (inTime past call rest split).resolve_left few
  · obtain ⟨t', known', rfl⟩ := tracks.bytes id bytes (by rwa [List.nil_append])
    cases known.symm.trans known'
    obtain ⟨parityOf, mds⟩ := mds
    obtain ⟨original, start, -⟩ := encode_spec t.encoded mds
    rw [original, start]

end FecDecoder

theorem repetition_mds : Mds Sample.repetition 1 1 fun data => data := by
  have single {size : Nat} {data : List Bytes} (row : IsRow 1 size data) :
      ∃ d, data = [d] ∧ d ≠ [] ∧ d.length = size := by
    obtain ⟨d, rfl⟩ := List.length_eq_one_iff.mp row.length
    have length := row.sizes d List.mem_cons_self
    refine ⟨d, rfl, ?_, length⟩
    rw [← List.length_pos_iff, length]
    exact row.pos
  refine ⟨fun size data row => row.length, fun size data row => ?_,
    fun size data shards row agrees enough => ?_, fun shards two few => ?_⟩
  · obtain ⟨d, rfl, some, rfl⟩ := single row
    simp [Sample.repetition, some]
  · obtain ⟨d, rfl, some, rfl⟩ := single row
    obtain ⟨two, own⟩ := agrees_iff.mp agrees
    obtain ⟨s₀, s₁, rfl⟩ := List.length_eq_two.mp two
    have first (b : Bytes) (there : s₀ = b) : b = d := by
      have found := own 0 b (by rw [there]; rfl)
      exact (Option.some.inj found).symm
    have second (b : Bytes) (there : s₁ = b) : b = d := by
      have found := own 1 b (by rw [there]; rfl)
      exact (Option.some.inj found).symm
    cases s₀ with
    | none =>
        cases s₁ with
        | none => cases enough
        | some b₁ =>
            obtain rfl := second b₁ rfl
            simp [Sample.repetition, some]
    | some b₀ =>
        obtain rfl := first b₀ rfl
        cases s₁ with
        | none => simp [Sample.repetition, some]
        | some b₁ =>
            obtain rfl := second b₁ rfl
            simp [Sample.repetition, some]
  · obtain ⟨s₀, s₁, rfl⟩ := List.length_eq_two.mp two
    cases s₀ with
    | none =>
        cases s₁ with
        | none => exact ⟨(), rfl⟩
        | some b₁ => exact absurd few (by simp)
    | some b₀ => exact absurd few (by cases s₁ <;> simp)

theorem twice_isMds : LibraryIsMds Sample.twice :=
  ⟨fun data => data, fun code made => by
    cases made
    exact repetition_mds⟩

namespace Sample

/-- A frame of two data shards. -/
def pair : Transmission twice where
  frame := List.replicate 1201 1
  nonempty := by decide
  enc :=
    let shards := [List.replicate 608 1, List.replicate 593 1 ++ List.replicate 15 0]
    { data := shards, parity := shards, shardLen := 608, originalLen := 1201 }
  encoded := by decide +kernel

def pairShard (chunkId : UInt16) (isParity : Bool) (now : Nat) : FecCall :=
  .addShard 5 chunkId 2 isParity (pair.enc.data.getD chunkId.toNat []) now

/-- Half of the shards suffice, and the other half comes after the drain. -/
def halves : List FecCall :=
  [pairShard 0 false 0, pairShard 1 true 1, .drainExpired 2, pairShard 1 false 3,
    pairShard 0 true 4]

end Sample

theorem inTime_returnsOnce :
    (FecDecoder.new Sample.twice 200 16).returns Sample.inTime = [(3, 7 :: List.replicate 15 0)] ∧
      (FecDecoder.new Sample.twice 200 16).ReturnsOnce (fun _ => some Sample.lone)
        Sample.inTime := by
  refine ⟨by decide, FecDecoder.returnsOnce_of_inTime twice_isMds 200 16 ?_ (by decide)
    ?_ (by decide)⟩
  · intro call member
    simp only [Sample.inTime, List.mem_cons, List.not_mem_nil, or_false] at member
    rcases member with rfl | rfl | rfl
    · exact loneShard_ofFrame _ _
    · exact loneShard_ofFrame _ _
    · trivial
  · intro id t known zero
    cases zero

theorem halves_not_returnsOnce :
    ¬ ∀ (library : ErasureLibrary Unit) (rs : ReedSolomonFec library), LibraryIsMds rs →
      ∀ (timeout maxPending : Nat) (frames : UInt32 → Option (Transmission rs))
        (calls : List FecCall), (∀ call ∈ calls, call.OfFrame frames) →
        (calls.filterMap FecCall.shard).Nodup → (calls.map FecCall.time).Pairwise (· ≤ ·) →
        (FecDecoder.new rs timeout maxPending).ReturnsOnce frames calls := by
  intro always
  have own (chunkId : UInt16) (isParity : Bool) (now : Nat) (low : chunkId.toNat < 2) :
      (Sample.pairShard chunkId isParity now).OfFrame fun _ => some Sample.pair := by
    refine ⟨Sample.pair, rfl, rfl, ?_⟩
    have found : Sample.pair.enc.data[chunkId.toNat]? =
        some (Sample.pair.enc.data.getD chunkId.toNat []) := by
      rw [List.getD_eq_getElem?_getD, List.getElem?_eq_getElem low, Option.getD_some]
    cases isParity <;> exact found
  obtain ⟨-, once⟩ := always Sample.copies Sample.twice twice_isMds 200 16
    (fun _ => some Sample.pair) Sample.halves (fun call member => by
      simp only [Sample.halves, List.mem_cons, List.not_mem_nil, or_false] at member
      rcases member with rfl | rfl | rfl | rfl | rfl
      · exact own 0 false 0 (by decide)
      · exact own 1 true 1 (by decide)
      · trivial
      · exact own 1 false 3 (by decide)
      · exact own 0 true 4 (by decide)) (by decide) (by decide)
  have twice : ((FecDecoder.new Sample.twice 200 16).returns Sample.halves).countP
      (fun e => e.1 = 5) = 2 := by
    decide +kernel
  have le := (once 5 Sample.pair rfl).1
  omega

end Qubox.Media
