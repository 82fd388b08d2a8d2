import Mathlib.Data.List.Forall2
import Qubox.Media.Chunker

/-!
# Recovery of a missing chunk

`recoverWithParity` rebuilds the missing chunk of the first block that lacks
exactly one and has a parity chunk. It finds the parity chunk of a block by its
position in a list, so it is only as good as the order of that list.
-/

namespace Qubox.Media

inductive RecoveryError where
  | noChunks
  | notRecoverable
  deriving DecidableEq, Repr

/-- The chunks of the block with this index. -/
def blockAt (chunks : List (Option Bytes)) (blockSize blockIdx : Nat) : List (Option Bytes) :=
  (chunks.drop (blockIdx * blockSize)).take blockSize

/-- Positions of the missing chunks in a block. -/
def missingIn (block : List (Option Bytes)) : List Nat :=
  block.zipIdx.filterMap fun (c, i) => if c.isNone then some i else none

/-- The loop of `recover_with_parity` from a block on, over at most `remaining`
blocks. -/
def recoverFrom (chunks : List (Option Bytes)) (parity : List Bytes) (blockSize : Nat) :
    (remaining blockIdx : Nat) → Option (Except RecoveryError Nat × List (Option Bytes))
  | 0, _ => some (.error .notRecoverable, chunks)
  | remaining + 1, blockIdx =>
      if blockIdx * blockSize < chunks.length then
        let block := blockAt chunks blockSize blockIdx
        match missingIn block, parity[blockIdx]? with
        | [missingLocal], some p => do
            -- the chunks that are there; the one at `missingLocal` is not
            let recovered ← (block.filterMap id).foldlM Bytes.xorInto p
            let index := blockIdx * blockSize + missingLocal
            return (.ok index, chunks.set index (some recovered))
        | _, _ => recoverFrom chunks parity blockSize remaining (blockIdx + 1)
      else some (.error .notRecoverable, chunks)

/-- The loop gives up after this many blocks (`blocks_checked > 1024`). -/
def maxBlocksChecked : Nat := 1025

def recoverWithParity (chunks : List (Option Bytes)) (parity : List Bytes) (blockSize : Nat) :
    Option (Except RecoveryError Nat × List (Option Bytes)) :=
  if chunks.isEmpty then some (.error .noChunks, chunks)
  else recoverFrom chunks parity blockSize maxBlocksChecked 0

/-! ## What the loop finds -/

/-- The block lacks exactly one chunk and has a parity chunk at its index. -/
structure Repairable (chunks : List (Option Bytes)) (parity : List Bytes) (blockSize k m : Nat)
    (p : Bytes) : Prop where
  inside : k * blockSize < chunks.length
  missing : missingIn (blockAt chunks blockSize k) = [m]
  parity : parity[k]? = some p

/-- The chunks of a block with its missing chunk rebuilt, unless that panics. -/
def repair (chunks : List (Option Bytes)) (blockSize k m : Nat) (p : Bytes) :
    Option (Except RecoveryError Nat × List (Option Bytes)) :=
  (((blockAt chunks blockSize k).filterMap id).foldlM Bytes.xorInto p).map fun recovered =>
    (.ok (k * blockSize + m), chunks.set (k * blockSize + m) (some recovered))

section Loop

variable {chunks : List (Option Bytes)} {parity : List Bytes} {blockSize : Nat}

theorem recoverFrom_repair {remaining blockIdx m : Nat} {p : Bytes}
    (repairable : Repairable chunks parity blockSize blockIdx m p) :
    recoverFrom chunks parity blockSize (remaining + 1) blockIdx =
      repair chunks blockSize blockIdx m p := by
  rw [recoverFrom, if_pos repairable.inside]
  simp only [repairable.missing, repairable.parity, repair, Option.map_eq_bind]
  rfl

theorem recoverFrom_skip (remaining : Nat) {blockIdx : Nat}
    (other : ∀ m p, ¬ Repairable chunks parity blockSize blockIdx m p) :
    recoverFrom chunks parity blockSize (remaining + 1) blockIdx =
        some (.error .notRecoverable, chunks) ∨
      recoverFrom chunks parity blockSize (remaining + 1) blockIdx =
        recoverFrom chunks parity blockSize remaining (blockIdx + 1) := by
  rw [recoverFrom]
  split
  case isTrue inside =>
    right
    simp only
    split
    case h_1 m p missing found => exact absurd ⟨inside, missing, found⟩ (other m p)
    case h_2 => rfl
  case isFalse => exact .inl rfl

/-- The loop repairs the first block it can, or changes nothing. -/
theorem recoverFrom_cases (remaining blockIdx : Nat) :
    recoverFrom chunks parity blockSize remaining blockIdx =
        some (.error .notRecoverable, chunks) ∨
      ∃ k m p, Repairable chunks parity blockSize k m p ∧
        (∀ k', blockIdx ≤ k' → k' < k → ∀ m' p', ¬ Repairable chunks parity blockSize k' m' p') ∧
        recoverFrom chunks parity blockSize remaining blockIdx = repair chunks blockSize k m p := by
  induction remaining generalizing blockIdx with
  | zero => exact .inl rfl
  | succ remaining ih =>
      by_cases here : ∃ m p, Repairable chunks parity blockSize blockIdx m p
      · obtain ⟨m, p, repairable⟩ := here
        refine .inr ⟨blockIdx, m, p, repairable, fun k' low high => absurd high (by omega), ?_⟩
        exact recoverFrom_repair repairable
      · simp only [not_exists] at here
        rcases recoverFrom_skip remaining here with stops | skips
        · exact .inl stops
        · rw [skips]
          rcases ih (blockIdx + 1) with none | ⟨k, m, p, repairable, first, result⟩
          · exact .inl none
          · refine .inr ⟨k, m, p, repairable, fun k' low high => ?_, result⟩
            rcases Nat.eq_or_lt_of_le low with rfl | above
            · exact here
            · exact first k' above high

/-- `recover_with_parity` repairs the first block it can, or changes nothing. -/
theorem recoverWithParity_cases (chunks : List (Option Bytes)) (parity : List Bytes)
    (blockSize : Nat) :
    (∃ e, recoverWithParity chunks parity blockSize = some (.error e, chunks)) ∨
      ∃ k m p, Repairable chunks parity blockSize k m p ∧
        (∀ k' < k, ∀ m' p', ¬ Repairable chunks parity blockSize k' m' p') ∧
        recoverWithParity chunks parity blockSize = repair chunks blockSize k m p := by
  rw [recoverWithParity]
  split
  · exact .inl ⟨_, rfl⟩
  · rcases @recoverFrom_cases chunks parity blockSize maxBlocksChecked 0 with
      none | ⟨k, m, p, repairable, first, result⟩
    · exact .inl ⟨_, none⟩
    · exact .inr ⟨k, m, p, repairable, fun k' => first k' (Nat.zero_le _), result⟩

end Loop

/-! ## What a repair yields -/

theorem missingIn_cons (c : Option Bytes) (block : List (Option Bytes)) :
    missingIn (c :: block) = (if c.isNone then [0] else []) ++ (missingIn block).map (· + 1) := by
  have shifted : block.zipIdx 1 = block.zipIdx.map fun (c, i) => (c, i + 1) := by
    rw [List.zipIdx_succ]
  simp only [missingIn, List.zipIdx_cons, Nat.zero_add, shifted, List.filterMap_cons]
  cases c <;> simp [List.filterMap_map, List.map_filterMap, apply_ite]

/-- A block without missing chunks. -/
theorem missingIn_eq_nil {block : List (Option Bytes)} :
    missingIn block = [] ↔ ∃ rows : List Bytes, block = rows.map some := by
  induction block with
  | nil => exact ⟨fun _ => ⟨[], rfl⟩, fun _ => rfl⟩
  | cons c block ih =>
      rw [missingIn_cons]
      cases c with
      | none =>
          refine ⟨fun some => by simp at some, ?_⟩
          rintro ⟨_ | ⟨row, rows⟩, same⟩
          · cases same
          · cases (List.cons.inj same).1
      | some row =>
          simp only [Option.isNone_some, Bool.false_eq_true, if_false, List.nil_append,
            List.map_eq_nil_iff, ih]
          constructor
          · rintro ⟨rows, rfl⟩
            exact ⟨row :: rows, rfl⟩
          · rintro ⟨_ | ⟨row', rows⟩, same⟩
            · cases same
            · exact ⟨rows, (List.cons.inj same).2⟩

/-- A block with one missing chunk. -/
theorem missingIn_eq_singleton {block : List (Option Bytes)} {m : Nat} :
    missingIn block = [m] ↔ ∃ before after : List Bytes,
      block = before.map some ++ none :: after.map some ∧ m = before.length := by
  induction block generalizing m with
  | nil => simp [missingIn]
  | cons c block ih =>
      rw [missingIn_cons]
      cases c with
      | none =>
          simp only [Option.isNone_none, if_true, List.singleton_append, List.cons.injEq,
            List.map_eq_nil_iff, missingIn_eq_nil]
          constructor
          · rintro ⟨rfl, rows, rfl⟩
            exact ⟨[], rows, rfl, rfl⟩
          · rintro ⟨_ | ⟨row, before⟩, after, same, rfl⟩
            · exact ⟨rfl, after, (List.cons.inj same).2⟩
            · cases (List.cons.inj same).1
      | some row =>
          simp only [Option.isNone_some, Bool.false_eq_true, if_false, List.nil_append]
          constructor
          · intro single
            obtain ⟨m', found, rfl⟩ := List.map_eq_singleton_iff.mp single
            obtain ⟨before, after, rfl, rfl⟩ := ih.mp found
            exact ⟨row :: before, after, rfl, rfl⟩
          · rintro ⟨_ | ⟨row', before⟩, after, same, rfl⟩
            · cases (List.cons.inj same).1
            · rw [ih.mpr ⟨before, after, (List.cons.inj same).2, rfl⟩]
              rfl

/-- Every chunk that is there is full. -/
def Full (chunks : List (Option Bytes)) : Prop :=
  ∀ c, some c ∈ chunks → c.length = chunkPayloadMax

theorem Full.set {chunks : List (Option Bytes)} (full : Full chunks) {c : Bytes}
    (sized : c.length = chunkPayloadMax) (i : Nat) : Full (chunks.set i (some c)) := by
  intro c' member
  rcases List.mem_or_eq_of_mem_set member with old | new
  · exact full c' old
  · cases new
    exact sized

/-- The chunks of a block that are there are chunks of the frame. -/
theorem mem_of_mem_blockAt {chunks : List (Option Bytes)} {blockSize k : Nat} {c : Bytes}
    (member : c ∈ (blockAt chunks blockSize k).filterMap id) : some c ∈ chunks := by
  obtain ⟨_, inside, rfl⟩ := List.mem_filterMap.mp member
  exact List.mem_of_mem_drop (List.mem_of_mem_take inside)

theorem repair_sized {chunks : List (Option Bytes)} {blockSize k m size : Nat} {p : Bytes}
    (sized : ∀ c, some c ∈ chunks → c.length = size) (p_size : p.length = size) :
    repair chunks blockSize k m p = some (.ok (k * blockSize + m), chunks.set (k * blockSize + m)
      (some (Bytes.xorRows p ((blockAt chunks blockSize k).filterMap id)))) := by
  rw [repair, Bytes.foldlM_xorInto p_size fun c member => sized c (mem_of_mem_blockAt member)]
  rfl

/-- With full chunks recovery does not panic, and leaves full chunks. -/
theorem recoverWithParity_full {chunks : List (Option Bytes)} {parity : List Bytes}
    (full : Full chunks) (sized : ∀ p ∈ parity, p.length = chunkPayloadMax) (blockSize : Nat) :
    ∃ result chunks', recoverWithParity chunks parity blockSize = some (result, chunks') ∧
      Full chunks' ∧ chunks'.length = chunks.length := by
  rcases recoverWithParity_cases chunks parity blockSize with
    ⟨e, unchanged⟩ | ⟨k, m, p, repairable, -, repaired⟩
  · exact ⟨_, _, unchanged, full, rfl⟩
  · have p_size := sized p (List.mem_of_getElem? repairable.parity)
    rw [repair_sized full p_size] at repaired
    refine ⟨_, _, repaired, full.set (Bytes.length_xorRows p_size fun c member => ?_) _,
      List.length_set⟩
    exact full c (mem_of_mem_blockAt member)

/-- Every chunk that is there is the chunk of the frame at its place. -/
def Agrees (data : List Bytes) (chunks : List (Option Bytes)) : Prop :=
  List.Forall₂ (fun d c => ∀ b, c = some b → b = d) data chunks

section Agrees

variable {data : List Bytes} {chunks : List (Option Bytes)}

theorem agrees_replicate_none (data : List Bytes) :
    Agrees data (List.replicate data.length none) := by
  induction data with
  | nil => exact .nil
  | cons d data ih => exact .cons nofun ih

theorem Agrees.length_eq (agrees : Agrees data chunks) : chunks.length = data.length :=
  (List.Forall₂.length_eq agrees).symm

theorem Agrees.set (agrees : Agrees data chunks) {i : Nat} {d : Bytes} (found : data[i]? = some d) :
    Agrees data (chunks.set i (some d)) := by
  induction agrees generalizing i with
  | nil => cases found
  | cons head tail ih =>
      cases i with
      | zero =>
          cases found
          exact .cons (fun b same => (Option.some.inj same).symm) tail
      | succ i => exact .cons head (ih found)

theorem Agrees.sized {size : Nat} (agrees : Agrees data chunks)
    (sized : ∀ d ∈ data, d.length = size) : ∀ c, some c ∈ chunks → c.length = size := by
  induction agrees with
  | nil => exact nofun
  | cons head tail ih =>
      intro c member
      rcases List.mem_cons.mp member with here | later
      · rw [head c here.symm]
        exact sized _ List.mem_cons_self
      · exact ih (fun d inside => sized d (.tail _ inside)) c later

/-- Chunks that are all there are the chunks of the frame. -/
theorem Agrees.eq_data (agrees : Agrees data chunks) (complete : ∀ c ∈ chunks, c.isSome) :
    chunks = data.map some := by
  induction agrees with
  | nil => rfl
  | @cons d c data chunks head tail ih =>
      obtain ⟨b, rfl⟩ := Option.isSome_iff_exists.mp (complete c List.mem_cons_self)
      rw [List.map_cons, head b rfl, ih fun c member => complete c (.tail _ member)]

theorem Agrees.eq_of_map_some {rows : List Bytes} (agrees : Agrees data (rows.map some)) :
    data = rows := by
  have same := agrees.eq_data (by simp)
  exact (List.map_injective_iff.mpr (Option.some_injective _) same).symm

/-- In a block that lacks one chunk, the parity of the block restores it. -/
theorem Agrees.repair_sized {size : Nat} (agrees : Agrees data chunks)
    (sized : ∀ d ∈ data, d.length = size) {parity : List Bytes} {blockSize k m : Nat}
    {p : Bytes} (repairable : Repairable chunks parity blockSize k m p)
    (own : p = Bytes.xorRows (List.replicate size 0) ((data.drop (k * blockSize)).take blockSize)) :
    ∃ d, data[k * blockSize + m]? = some d ∧
      Media.repair chunks blockSize k m p =
        some (.ok (k * blockSize + m), chunks.set (k * blockSize + m) (some d)) := by
  obtain ⟨before, after, block, rfl⟩ := missingIn_eq_singleton.mp repairable.missing
  have within : Agrees ((data.drop (k * blockSize)).take blockSize)
      (before.map some ++ none :: after.map some) := by
    rw [← block]
    exact List.forall₂_take _ (List.forall₂_drop _ agrees)
  have front := Agrees.eq_of_map_some (List.forall₂_take_append _ _ _ within)
  obtain ⟨d, back, -, rest, here⟩ :=
    List.forall₂_cons_right_iff.mp (List.forall₂_drop_append _ _ _ within)
  rw [Agrees.eq_of_map_some rest] at here
  rw [List.length_map] at front here
  have cut : (data.drop (k * blockSize)).take blockSize = before ++ d :: after := by
    rw [← List.take_append_drop before.length ((data.drop (k * blockSize)).take blockSize), front,
      here]
  have rows : ∀ r ∈ before ++ d :: after, r.length = size := by
    intro r member
    rw [← cut] at member
    exact sized r (List.mem_of_mem_drop (List.mem_of_mem_take member))
  refine ⟨d, ?_, ?_⟩
  · have at_m : ((data.drop (k * blockSize)).take blockSize)[before.length]? = some d := by
      rw [cut]
      simp
    rw [List.getElem?_take] at at_m
    split at at_m
    · rwa [List.getElem?_drop] at at_m
    · cases at_m
  · have p_size : p.length = size := by
      rw [own, cut]
      exact Bytes.length_xorRows (List.length_replicate ..) rows
    have present : (blockAt chunks blockSize k).filterMap id = before ++ after := by
      rw [block]
      simp
    rw [Media.repair_sized (agrees.sized sized) p_size, present, own, cut,
      Bytes.xorRows_recover rows]

theorem Agrees.repair (agrees : Agrees data chunks)
    (sized : ∀ d ∈ data, d.length = chunkPayloadMax) {parity : List Bytes} {blockSize k m : Nat}
    {p : Bytes} (repairable : Repairable chunks parity blockSize k m p)
    (own : p = parityOf ((data.drop (k * blockSize)).take blockSize)) :
    ∃ d, data[k * blockSize + m]? = some d ∧
      Media.repair chunks blockSize k m p =
        some (.ok (k * blockSize + m), chunks.set (k * blockSize + m) (some d)) :=
  agrees.repair_sized sized repairable own

end Agrees

end Qubox.Media
