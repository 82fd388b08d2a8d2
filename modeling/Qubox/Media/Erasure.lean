import Qubox.Media.FecDecoder

/-!
# What the shards of a frame determine

The library is taken to implement a code in which any `k` of the `k + m` shards
of a block determine the others. On this assumption the encoder lays out a frame
as rows of such blocks, and a reconstruction that succeeds yields the data shards
of the encoder.
-/

namespace Qubox.Media

variable {ε : Type} {library : ErasureLibrary ε}

/-- Data shards of one block: `k` shards of one positive size. -/
structure IsRow (k size : Nat) (data : List Bytes) : Prop where
  pos : 0 < size
  length : data.length = k
  sizes : ∀ d ∈ data, d.length = size

/-- A systematic code of `k` data and `m` parity shards: `encode` overwrites the
shards behind the data with their parity, any `k` shards of a block determine the
others, and fewer are refused. -/
structure Mds (code : ErasureCode ε) (k m : Nat) (parity : List Bytes → List Bytes) : Prop where
  length_parity : ∀ size data, IsRow k size data → (parity data).length = m
  encode : ∀ size data, IsRow k size data →
    code.encode (data ++ List.replicate m (List.replicate size 0)) = .ok (data ++ parity data)
  recover : ∀ size data shards, IsRow k size data → Agrees (data ++ parity data) shards →
    k ≤ shards.countP Option.isSome →
      code.reconstruct shards = .ok ((data ++ parity data).map some)
  refuse : ∀ shards, shards.length = k + m → shards.countP Option.isSome < k →
    ∃ e, code.reconstruct shards = .error e

/-- The piece of a list at a block index. -/
def pieceAt {α : Type} (l : List α) (size index : Nat) : List α := (l.drop (index * size)).take size

/-- Data and parity shards of whole blocks. -/
structure Coded (rs : ReedSolomonFec library) (parity : List Bytes → List Bytes) (blocks : Nat)
    (enc : EncodedFrame) : Prop where
  pos : 0 < blocks
  data_length : enc.data.length = blocks * rs.blockSize
  parity_length : enc.parity.length = blocks * rs.parityShards
  rows : ∀ b < blocks, ∃ size, IsRow rs.blockSize size (pieceAt enc.data rs.blockSize b)
  parities : ∀ b < blocks,
    pieceAt enc.parity rs.parityShards b = parity (pieceAt enc.data rs.blockSize b)

/-! ## Encoding -/

section Encode

theorem flatMap_range_pieceAt {α : Type} {size count : Nat} {f : Nat → List α}
    (sizes : ∀ i < count, (f i).length = size) :
    ((List.range count).flatMap f).length = count * size ∧
      ∀ i < count, pieceAt ((List.range count).flatMap f) size i = f i := by
  induction count with
  | zero => simp
  | succ count ih =>
      obtain ⟨total, pieces⟩ := ih fun i low => sizes i (by omega)
      have last := sizes count (by omega)
      rw [List.range_succ, List.flatMap_append, List.flatMap_singleton]
      refine ⟨by rw [List.length_append, total, last, Nat.succ_mul], fun i low => ?_⟩
      rcases Nat.lt_succ_iff_lt_or_eq.mp low with before | rfl
      · have fits : i * size + size ≤ count * size := by
          rw [← Nat.succ_mul]
          exact Nat.mul_le_mul_right size before
        rw [pieceAt, List.drop_append_of_le_length (by omega),
          List.take_append_of_le_length (by rw [List.length_drop]; omega)]
        exact pieces i before
      · rw [pieceAt, ← total, List.drop_left, ← last, List.take_length]

/-- Filling up the last piece appends to the whole. -/
theorem flatten_map_fill {size : Nat} {pieces : List Bytes}
    (full : ∀ c ∈ pieces.dropLast, c.length = size) :
    ∃ zeros, (pieces.map fun c => c ++ List.replicate (size - c.length) 0).flatten =
      pieces.flatten ++ zeros := by
  induction pieces with
  | nil => exact ⟨[], rfl⟩
  | cons c pieces ih =>
      cases pieces with
      | nil => exact ⟨List.replicate (size - c.length) 0, by simp⟩
      | cons c' pieces =>
          rw [List.dropLast_cons_cons] at full
          obtain ⟨zeros, rest⟩ := ih fun d member => full d (.tail _ member)
          refine ⟨zeros, ?_⟩
          rw [List.map_cons, List.flatten_cons, rest, full c List.mem_cons_self, Nat.sub_self,
            List.replicate_zero, List.append_nil, @List.flatten_cons _ c, List.append_assoc]

theorem length_of_mem_dropLast_pieces {size : Nat} (pos : 0 < size) {frame c : Bytes}
    (member : c ∈ (frame.pieces size).dropLast) : c.length = size := by
  obtain ⟨i, found⟩ := List.mem_iff_getElem?.mp member
  have low : i < (frame.pieces size).dropLast.length := (List.getElem?_eq_some_iff.mp found).1
  rw [List.length_dropLast] at low
  rw [List.getElem?_dropLast, if_pos low, List.getElem?_pieces pos] at found
  have next : (i + 1) * size < frame.length :=
    (List.lt_length_pieces pos).mp (by omega)
  rw [Nat.succ_mul] at next
  rw [if_pos (by omega)] at found
  cases found
  rw [List.length_take, List.length_drop]
  omega

/-- The data shards, with zero shards up to whole blocks. -/
def wholeBlocks (rs : ReedSolomonFec library) (chunks : List Bytes) (shardLen : Nat) : List Bytes :=
  chunks ++ List.replicate ((chunks.length + rs.blockSize - 1) / rs.blockSize * rs.blockSize -
    chunks.length) (List.replicate shardLen 0)

variable {rs : ReedSolomonFec library} {chunks : List Bytes} {shardLen b : Nat}

theorem blockRows_eq (low : b < (chunks.length + rs.blockSize - 1) / rs.blockSize) :
    rs.blockRows chunks shardLen b =
      pieceAt (wholeBlocks rs chunks shardLen) rs.blockSize b := by
  have start : b * rs.blockSize < chunks.length := by
    rw [Nat.lt_div_iff_mul_lt rs.blockSize_pos] at low
    omega
  have stop : b * rs.blockSize + rs.blockSize ≤
      (chunks.length + rs.blockSize - 1) / rs.blockSize * rs.blockSize := by
    rw [← Nat.succ_mul]
    exact Nat.mul_le_mul_right _ low
  rw [ReedSolomonFec.blockRows, pieceAt, wholeBlocks, List.drop_append_of_le_length start.le,
    List.take_append, List.take_replicate, List.length_drop]
  congr 1
  · rw [List.take_eq_take_iff, List.length_drop]
    omega
  · congr 1
    omega

theorem length_wholeBlocks :
    (wholeBlocks rs chunks shardLen).length =
      (chunks.length + rs.blockSize - 1) / rs.blockSize * rs.blockSize := by
  have covered := Nat.div_add_mod (chunks.length + rs.blockSize - 1) rs.blockSize
  have rest := Nat.mod_lt (chunks.length + rs.blockSize - 1) rs.blockSize_pos
  rw [Nat.mul_comm] at covered
  rw [wholeBlocks, List.length_append, List.length_replicate]
  omega

theorem isRow_blockRows (pos : 0 < shardLen) (sizes : ∀ c ∈ chunks, c.length = shardLen)
    (low : b < (chunks.length + rs.blockSize - 1) / rs.blockSize) :
    IsRow rs.blockSize shardLen (rs.blockRows chunks shardLen b) := by
  have stop : b * rs.blockSize + rs.blockSize ≤
      (chunks.length + rs.blockSize - 1) / rs.blockSize * rs.blockSize := by
    rw [← Nat.succ_mul]
    exact Nat.mul_le_mul_right _ low
  rw [blockRows_eq low]
  refine ⟨pos, ?_, fun d member => ?_⟩
  · rw [pieceAt, List.length_take, List.length_drop, length_wholeBlocks]
    omega
  · have inside := List.mem_of_mem_drop (List.mem_of_mem_take member)
    rcases List.mem_append.mp inside with chunk | zero
    · exact sizes d chunk
    · rw [List.eq_of_mem_replicate zero, List.length_replicate]

theorem mapM_map_ok {α β γ : Type} {f : β → Except ε γ} {h : α → β} {g : α → γ} {l : List α}
    (each : ∀ a ∈ l, f (h a) = .ok (g a)) : (l.map h).mapM f = .ok (l.map g) := by
  induction l with
  | nil => rfl
  | cons a l ih =>
      rw [List.map_cons, List.mapM_cons, each a List.mem_cons_self,
        ih fun b member => each b (.tail _ member)]
      rfl

/-- The rows of all blocks together. -/
theorem flatMap_blockRows :
    ((List.range ((chunks.length + rs.blockSize - 1) / rs.blockSize)).flatMap
    fun b => rs.blockRows chunks shardLen b) = wholeBlocks rs chunks shardLen := by
  have rows : ((List.range ((chunks.length + rs.blockSize - 1) / rs.blockSize)).flatMap
      fun b => rs.blockRows chunks shardLen b) =
      ((List.range ((chunks.length + rs.blockSize - 1) / rs.blockSize)).map fun b =>
        pieceAt (wholeBlocks rs chunks shardLen) rs.blockSize b).flatten := by
    rw [← List.flatMap_def]
    exact List.flatMap_congr fun b member => blockRows_eq (List.mem_range.mp member)
  rw [rows]
  refine (List.flatten_map_range_take _ _ _).trans (List.take_of_length_le ?_)
  rw [length_wholeBlocks]

theorem coded_blockRows {enc : EncodedFrame} {parity : List Bytes → List Bytes}
    {code : ErasureCode ε} (mds : Mds code rs.blockSize rs.parityShards parity)
    (pos : 0 < shardLen) (sizes : ∀ c ∈ chunks, c.length = shardLen) (some : chunks ≠ [])
    (data : enc.data = wholeBlocks rs chunks shardLen)
    (parities : enc.parity = (List.range ((chunks.length + rs.blockSize - 1) /
      rs.blockSize)).flatMap fun b => parity (rs.blockRows chunks shardLen b)) :
    Coded rs parity ((chunks.length + rs.blockSize - 1) / rs.blockSize) enc := by
  have rows (b : Nat) (low : b < (chunks.length + rs.blockSize - 1) / rs.blockSize) :=
    @isRow_blockRows _ _ rs chunks shardLen b pos sizes low
  obtain ⟨total, pieces⟩ := @flatMap_range_pieceAt _ rs.parityShards
    ((chunks.length + rs.blockSize - 1) / rs.blockSize)
    (fun b => parity (rs.blockRows chunks shardLen b))
    fun b low => mds.length_parity shardLen _ (rows b low)
  refine ⟨?_, by rw [data, length_wholeBlocks], by rw [parities, total], fun b low => ?_,
    fun b low => ?_⟩
  · have := List.length_pos_iff.mpr some
    have := rs.blockSize_pos
    exact Nat.div_pos (by omega) rs.blockSize_pos
  · rw [data, ← blockRows_eq low]
    exact ⟨shardLen, rows b low⟩
  · rw [parities, pieces b low, data, ← blockRows_eq low]

/-- A frame cut into shards, the last one filled up with zeros. -/
def frameChunks (rs : ReedSolomonFec library) (frame : Bytes) : List Bytes :=
  (frame.pieces (rs.shardLenFor frame.length)).map fun c =>
    c ++ List.replicate (rs.shardLenFor frame.length - c.length) 0

/-- The shards of a frame, with the parity of its rows. -/
def laidOut (rs : ReedSolomonFec library) (parity : List Bytes → List Bytes) (frame : Bytes) :
    EncodedFrame where
  data := wholeBlocks rs (frameChunks rs frame) (rs.shardLenFor frame.length)
  parity := (List.range (((frameChunks rs frame).length + rs.blockSize - 1) /
    rs.blockSize)).flatMap fun b =>
      parity (rs.blockRows (frameChunks rs frame) (rs.shardLenFor frame.length) b)
  shardLen := rs.shardLenFor frame.length
  originalLen := frame.length

section Frame

variable {frame : Bytes}

theorem shardLenFor_pos (nonempty : frame ≠ []) : 0 < rs.shardLenFor frame.length := by
  have some := List.length_pos_iff.mpr nonempty
  have blocks := rs.blockSize_pos
  rw [ReedSolomonFec.shardLenFor, if_neg some.ne']
  generalize total : max ((frame.length + ReedSolomonFec.targetChunkBytes - 1) /
    ReedSolomonFec.targetChunkBytes) rs.blockSize = totalChunks
  have shards : 0 < (frame.length + totalChunks - 1) / totalChunks :=
    Nat.div_pos (by omega) (by omega)
  dsimp only
  rw [total]
  omega

theorem length_of_mem_frameChunks {c : Bytes} (member : c ∈ frameChunks rs frame) :
    c.length = rs.shardLenFor frame.length := by
  obtain ⟨piece, cut, rfl⟩ := List.mem_map.mp member
  obtain ⟨i, -, rfl⟩ := List.mem_map.mp cut
  rw [List.length_append, List.length_replicate, List.length_take]
  omega

theorem frameChunks_ne_nil (nonempty : frame ≠ []) : frameChunks rs frame ≠ [] := by
  intro none
  have pos : 0 < rs.shardLenFor frame.length := shardLenFor_pos nonempty
  have flat := List.flatten_pieces pos frame
  rw [List.map_eq_nil_iff.mp none] at flat
  exact nonempty flat.symm

/-- The data shards of a frame begin with the frame. -/
theorem take_flatten_laidOut (nonempty : frame ≠ []) (parity : List Bytes → List Bytes) :
    (laidOut rs parity frame).data.flatten.take frame.length = frame := by
  have pos : 0 < rs.shardLenFor frame.length := shardLenFor_pos nonempty
  obtain ⟨zeros, filled⟩ := flatten_map_fill fun c member =>
    @length_of_mem_dropLast_pieces _ pos frame c member
  rw [List.flatten_pieces pos] at filled
  rw [laidOut, wholeBlocks, List.flatten_append, frameChunks, filled, List.append_assoc,
    List.take_left]

theorem coded_laidOut {code : ErasureCode ε} {parity : List Bytes → List Bytes}
    (mds : Mds code rs.blockSize rs.parityShards parity) (nonempty : frame ≠ []) :
    Coded rs parity (((frameChunks rs frame).length + rs.blockSize - 1) / rs.blockSize)
      (laidOut rs parity frame) :=
  coded_blockRows mds (shardLenFor_pos nonempty) (fun _ => length_of_mem_frameChunks)
    (frameChunks_ne_nil nonempty) rfl rfl

/-- The empty frame is cut into pieces of size 0. -/
theorem encode_nil (rs : ReedSolomonFec library) : rs.encode [] = none := by
  rw [ReedSolomonFec.encode]
  rfl

theorem encode_of_no_parity (zero : rs.parityShards = 0) (nonempty : frame ≠ []) :
    rs.encode frame = some (.ok { data := frame.pieces (rs.shardLenFor frame.length)
                                  parity := []
                                  shardLen := rs.shardLenFor frame.length
                                  originalLen := frame.length }) := by
  have pos : 0 < rs.shardLenFor frame.length := shardLenFor_pos nonempty
  simp only [ReedSolomonFec.encode, chunksOf, if_neg pos.ne', if_pos zero, Option.bind_eq_bind,
    Option.bind_some]
  rfl

theorem encode_of_parity {parity : List Bytes → List Bytes}
    (mds : ∀ code, library rs.blockSize rs.parityShards = .ok code →
      Mds code rs.blockSize rs.parityShards parity)
    (some : 0 < rs.parityShards) (nonempty : frame ≠ []) :
    rs.encode frame = .some (.ok (laidOut rs parity frame)) := by
  have pos : 0 < rs.shardLenFor frame.length := shardLenFor_pos nonempty
  obtain ⟨code, made⟩ := rs.instantiated some
  have mdsCode := mds code made
  have rows (b : Nat)
      (low : b < ((frameChunks rs frame).length + rs.blockSize - 1) / rs.blockSize) :=
    @isRow_blockRows _ _ rs (frameChunks rs frame) _ b pos
      (fun _ => length_of_mem_frameChunks) low
  have blocks := mapM_map_ok (l := List.range (((frameChunks rs frame).length + rs.blockSize - 1) /
    rs.blockSize)) fun b member => mdsCode.encode _ _ (rows b (List.mem_range.mp member))
  have some_chunks : (frameChunks rs frame).isEmpty = false :=
    List.isEmpty_eq_false_iff.mpr (frameChunks_ne_nil nonempty)
  have cut : ((frame.pieces (rs.shardLenFor frame.length)).map fun c =>
      c ++ List.replicate (rs.shardLenFor frame.length - c.length) 0) = frameChunks rs frame := rfl
  simp only [ReedSolomonFec.encode, chunksOf, if_neg pos.ne', if_neg some.ne', Option.bind_eq_bind,
    Option.bind_some, cut, some_chunks, made, blocks, Bool.false_eq_true, if_false, laidOut]
  congr 3
  · rw [List.flatMap_map, ← flatMap_blockRows]
    refine List.flatMap_congr fun b member => ?_
    rw [List.take_left' (rows b (List.mem_range.mp member)).length]
  · rw [List.flatMap_map]
    refine List.flatMap_congr fun b member => ?_
    have row := rows b (List.mem_range.mp member)
    rw [List.drop_left' row.length,
      List.take_of_length_le (mdsCode.length_parity _ _ row).le]

/-- What `encode` makes of a frame. -/
theorem encode_spec {enc : EncodedFrame} (encoded : rs.encode frame = some (.ok enc))
    {parity : List Bytes → List Bytes}
    (mds : ∀ code, library rs.blockSize rs.parityShards = .ok code →
      Mds code rs.blockSize rs.parityShards parity) :
    enc.originalLen = frame.length ∧ enc.data.flatten.take frame.length = frame ∧
      (rs.parityShards = 0 → enc.parity = []) ∧
      (0 < rs.parityShards → ∃ blocks, Coded rs parity blocks enc) := by
  have nonempty : frame ≠ [] := by
    rintro rfl
    rw [encode_nil] at encoded
    cases encoded
  by_cases none : rs.parityShards = 0
  · rw [encode_of_no_parity none nonempty] at encoded
    cases encoded
    refine ⟨rfl, ?_, fun _ => rfl, fun some => absurd none some.ne'⟩
    rw [List.flatten_pieces (shardLenFor_pos nonempty), List.take_length]
  · have some := Nat.pos_of_ne_zero none
    obtain ⟨code, made⟩ := rs.instantiated some
    rw [encode_of_parity mds some nonempty] at encoded
    cases encoded
    exact ⟨rfl, take_flatten_laidOut nonempty parity, fun absent => absurd absent none,
      fun _ => ⟨_, coded_laidOut (mds code made) nonempty⟩⟩

end Frame

end Encode

/-! ## Reconstruction -/

/-- The shard at an index is there. -/
def Present (shards : List (Option Bytes)) (i : Nat) : Prop := ∃ b, shards[i]? = some (some b)

section Agrees

variable {data : List Bytes} {shards : List (Option Bytes)}

theorem agrees_iff : Agrees data shards ↔
    shards.length = data.length ∧
      ∀ (i : Nat) (b : Bytes), shards[i]? = some (some b) → data[i]? = some b := by
  rw [Agrees, List.forall₂_iff_get]
  constructor
  · rintro ⟨same, each⟩
    refine ⟨same.symm, fun i b found => ?_⟩
    obtain ⟨inside, there⟩ := List.getElem?_eq_some_iff.mp found
    rw [List.getElem?_eq_getElem (same ▸ inside)]
    exact congrArg some (each i (same ▸ inside) inside b there).symm
  · rintro ⟨same, each⟩
    refine ⟨same.symm, fun i low inside b there => ?_⟩
    have found := each i b (by rw [List.getElem?_eq_getElem inside]; exact congrArg some there)
    rw [List.getElem?_eq_getElem low] at found
    exact (Option.some.inj found).symm

theorem Agrees.pieceAt (agrees : Agrees data shards) (size b : Nat) :
    Agrees (Media.pieceAt data size b) (Media.pieceAt shards size b) :=
  List.forall₂_take _ (List.forall₂_drop _ agrees)

theorem Agrees.append {data' : List Bytes} {shards' : List (Option Bytes)}
    (first : Agrees data shards) (second : Agrees data' shards') :
    Agrees (data ++ data') (shards ++ shards') :=
  List.rel_append first second

theorem Agrees.eq_of_present (agrees : Agrees data shards)
    (all : ∀ i < data.length, Present shards i) : shards = data.map some := by
  refine agrees.eq_data fun c member => ?_
  obtain ⟨i, found⟩ := List.mem_iff_getElem?.mp member
  have low := (List.getElem?_eq_some_iff.mp found).1
  obtain ⟨b, there⟩ := all i (by rwa [← agrees.length_eq])
  rw [there] at found
  cases found
  rfl

/-- Copying shards of the frame to their places keeps what is there, and leaves
none of the places empty. -/
theorem writeBack_agrees {rows : List Bytes} {place recovered : Nat} {out : List (Option Bytes)}
    (agrees : Agrees data shards) (own : ∀ i < rows.length, data[place + i]? = rows[i]?)
    (ran : ReedSolomonFec.writeBack place (rows.map some) shards = some (out, recovered)) :
    Agrees data out ∧ (∀ i, Present shards i → Present out i) ∧
      ∀ i < rows.length, Present out (place + i) := by
  induction rows generalizing place shards recovered out with
  | nil =>
      cases ran
      exact ⟨agrees, fun _ there => there, fun i low => absurd low (Nat.not_lt_zero i)⟩
  | cons row rows ih =>
      rw [List.map_cons, ReedSolomonFec.writeBack] at ran
      obtain ⟨slot, found, ran⟩ := Option.bind_eq_some_iff.mp ran
      have here : data[place]? = some row := by
        have first := own 0 (Nat.succ_pos _)
        rwa [Nat.add_zero, List.getElem?_cons_zero] at first
      have later : ∀ i < rows.length, data[place + 1 + i]? = rows[i]? := by
        intro i low
        have next := own (i + 1) (Nat.succ_lt_succ low)
        rwa [List.getElem?_cons_succ, Nat.add_comm i 1, ← Nat.add_assoc] at next
      have inside : place < shards.length := (List.getElem?_eq_some_iff.mp found).1
      cases slot with
      | none =>
          simp only [Option.isNone_none, Option.isSome_some, Bool.and_self, if_true,
            List.store?_eq inside, Option.bind_eq_bind, Option.bind_some] at ran
          obtain ⟨⟨out', more⟩, tail, result⟩ := Option.bind_eq_some_iff.mp ran
          cases result
          obtain ⟨kept, stays, filled⟩ := ih (agrees.set here) later tail
          have set : Present (shards.set place (some row)) place :=
            ⟨row, List.getElem?_set_self inside⟩
          refine ⟨kept, fun i there => stays i ?_, fun i low => ?_⟩
          · by_cases same : place = i
            · exact same ▸ set
            · obtain ⟨b, there⟩ := there
              exact ⟨b, by rw [List.getElem?_set_ne same, there]⟩
          · cases i with
            | zero => exact stays place set
            | succ i =>
                rw [Nat.add_comm i 1, ← Nat.add_assoc]
                exact filled i (Nat.lt_of_succ_lt_succ low)
      | some b =>
          simp only [Option.isNone_some, Bool.false_and, Bool.false_eq_true, if_false] at ran
          obtain ⟨kept, stays, filled⟩ := ih agrees later ran
          refine ⟨kept, stays, fun i low => ?_⟩
          cases i with
          | zero => exact stays place ⟨b, found⟩
          | succ i =>
              rw [Nat.add_comm i 1, ← Nat.add_assoc]
              exact filled i (Nat.lt_of_succ_lt_succ low)

end Agrees

section Reconstruct

variable {rs : ReedSolomonFec library} {code : ErasureCode ε} {parityOf : List Bytes → List Bytes}
  {blocks : Nat} {enc : EncodedFrame} {data parity : List (Option Bytes)}

theorem length_pieceAt {α : Type} {l : List α} {size blocks b : Nat}
    (total : l.length = blocks * size) (low : b < blocks) : (pieceAt l size b).length = size := by
  have stop : b * size + size ≤ blocks * size := by
    rw [← Nat.succ_mul]
    exact Nat.mul_le_mul_right size low
  rw [pieceAt, List.length_take, List.length_drop]
  omega

theorem getElem?_pieceAt {α : Type} {l : List α} {size b i : Nat} (low : i < size) :
    (pieceAt l size b)[i]? = l[b * size + i]? := by
  rw [pieceAt, List.getElem?_take, if_pos low, List.getElem?_drop]

/-- Of whole blocks the library sees the shards as they are. -/
theorem blockShards_eq {b : Nat} (low : b < blocks)
    (dataTotal : data.length = blocks * rs.blockSize)
    (parityTotal : parity.length = blocks * rs.parityShards) :
    rs.blockShards data parity b =
      pieceAt data rs.blockSize b ++ pieceAt parity rs.parityShards b := by
  have ofData := length_pieceAt dataTotal low
  have ofParity := length_pieceAt parityTotal low
  rw [pieceAt] at ofData ofParity
  rw [ReedSolomonFec.blockShards, ReedSolomonFec.padTo_of_le ofData.ge,
    ReedSolomonFec.padTo_of_le, pieceAt, pieceAt]
  rw [List.length_append, ofData, ofParity]

/-- The shards of an encoded frame, as far as they are there. -/
structure Known (enc : EncodedFrame) (data parity : List (Option Bytes)) : Prop where
  data : Agrees enc.data data
  parity : Agrees enc.parity parity

theorem Known.blockShards (coded : Coded rs parityOf blocks enc) (known : Known enc data parity)
    {b : Nat} (low : b < blocks) :
    (rs.blockShards data parity b).length = rs.blockSize + rs.parityShards ∧
      Agrees (pieceAt enc.data rs.blockSize b ++ parityOf (pieceAt enc.data rs.blockSize b))
        (rs.blockShards data parity b) := by
  have dataTotal := known.data.length_eq.trans coded.data_length
  have parityTotal := known.parity.length_eq.trans coded.parity_length
  rw [blockShards_eq low dataTotal parityTotal, ← coded.parities b low]
  refine ⟨?_, (known.data.pieceAt _ b).append (known.parity.pieceAt _ b)⟩
  rw [List.length_append, length_pieceAt dataTotal low, length_pieceAt parityTotal low]

/-- The shards of a block are all there, and what was there before still is. -/
structure Filled (size b : Nat) (before after : List (Option Bytes)) : Prop where
  stays : ∀ i, Present before i → Present after i
  filled : ∀ i < size, Present after (b * size + i)

theorem Filled.done {size b : Nat} {before after : List (Option Bytes)}
    (filled : Filled size b before after) (done : ∀ i < b * size, Present before i) :
    ∀ i < (b + 1) * size, Present after i := by
  intro i low
  by_cases earlier : i < b * size
  · exact filled.stays i (done i earlier)
  · rw [Nat.succ_mul] at low
    have here := filled.filled (i - b * size) (by omega)
    rwa [Nat.add_sub_cancel' (Nat.not_lt.mp earlier)] at here

/-- The shards of a block that are there. -/
def presentIn (rs : ReedSolomonFec library) (data parity : List (Option Bytes)) (b : Nat) : Nat :=
  (rs.blockShards data parity b).countP Option.isSome

/-- With `k` of its shards a block is rebuilt, and the blocks behind it are left alone. -/
theorem Known.reconstructBlock (coded : Coded rs parityOf blocks enc)
    (mds : Mds code rs.blockSize rs.parityShards parityOf) (known : Known enc data parity)
    {b : Nat} (low : b < blocks) (enough : rs.blockSize ≤ presentIn rs data parity b) :
    ∃ data' parity' more,
      rs.reconstructBlock code data parity b = some (.ok (data', parity', more)) ∧
      Known enc data' parity' ∧ Filled rs.blockSize b data data' ∧
      Filled rs.parityShards b parity parity' ∧
      ∀ later, b < later → presentIn rs data' parity' later = presentIn rs data parity later := by
  have dataTotal := known.data.length_eq.trans coded.data_length
  have parityTotal := known.parity.length_eq.trans coded.parity_length
  have stop (size : Nat) : b * size + size ≤ blocks * size := by
    rw [← Nat.succ_mul]
    exact Nat.mul_le_mul_right size low
  have dataStop := stop rs.blockSize
  have parityStop := stop rs.parityShards
  obtain ⟨size, row⟩ := coded.rows b low
  have dataInside : b * rs.blockSize ≤ data.length := by omega
  have parityInside : b * rs.parityShards ≤ parity.length := by omega
  obtain ⟨data', parity', more, stored, -, -, behind⟩ := rs.storeBlock_spec dataInside parityInside
    ((pieceAt enc.data rs.blockSize b ++ parityOf (pieceAt enc.data rs.blockSize b)).map some)
  refine ⟨data', parity', more, ?_, ?_⟩
  · rw [rs.reconstructBlock_eq code dataInside parityInside,
      mds.recover size _ _ row (known.blockShards coded low).2 enough]
    dsimp only
    rw [stored, Option.map_some]
  rw [ReedSolomonFec.storeBlock] at stored
  obtain ⟨⟨out, ofData⟩, ranData, stored⟩ := Option.bind_eq_some_iff.mp stored
  obtain ⟨⟨out', ofParity⟩, ranParity, stored⟩ := Option.bind_eq_some_iff.mp stored
  cases stored
  rw [Nat.min_eq_left (by omega), Nat.add_sub_cancel_left, List.map_append,
    List.take_left' (by rw [List.length_map, row.length])] at ranData
  rw [Nat.min_eq_left (by omega), Nat.add_sub_cancel_left, List.map_append,
    List.drop_left' (by rw [List.length_map, row.length]), List.take_of_length_le (by
      rw [List.length_map, mds.length_parity size _ row]), ← coded.parities b low] at ranParity
  obtain ⟨data_agrees, dataStays, dataFilled⟩ := writeBack_agrees known.data (fun i inside => by
    rw [row.length] at inside
    rw [getElem?_pieceAt inside]) ranData
  obtain ⟨parity_agrees, parityStays, parityFilled⟩ :=
    writeBack_agrees known.parity (fun i inside => by
      rw [length_pieceAt coded.parity_length low] at inside
      rw [getElem?_pieceAt inside]) ranParity
  refine ⟨⟨data_agrees, parity_agrees⟩, ⟨dataStays, fun i inside => dataFilled i ?_⟩,
    ⟨parityStays, fun i inside => parityFilled i ?_⟩, fun later after => ?_⟩
  · rwa [row.length]
  · rwa [length_pieceAt coded.parity_length low]
  · rw [presentIn, behind later after, presentIn]

/-- Rebuilding a block takes `k` of its shards. -/
theorem Known.enough_of_reconstructBlock (coded : Coded rs parityOf blocks enc)
    (mds : Mds code rs.blockSize rs.parityShards parityOf) (known : Known enc data parity)
    {b : Nat} (low : b < blocks) {rebuilt : List (Option Bytes) × List (Option Bytes) × Nat}
    (ran : rs.reconstructBlock code data parity b = some (.ok rebuilt)) :
    rs.blockSize ≤ presentIn rs data parity b := by
  have inside (size : Nat) : b * size ≤ blocks * size := Nat.mul_le_mul_right size low.le
  have dataTotal := known.data.length_eq.trans coded.data_length
  have parityTotal := known.parity.length_eq.trans coded.parity_length
  by_contra few
  obtain ⟨e, refused⟩ :=
    mds.refuse _ (known.blockShards coded low).1 (Nat.not_le.mp few)
  rw [rs.reconstructBlock_eq code (dataTotal ▸ inside _) (parityTotal ▸ inside _), refused] at ran
  cases ran

section From

variable {remaining b recovered : Nat}

theorem Known.reconstructFrom (coded : Coded rs parityOf blocks enc)
    (mds : Mds code rs.blockSize rs.parityShards parityOf) (known : Known enc data parity)
    (total : b + remaining = blocks) (dataDone : ∀ i < b * rs.blockSize, Present data i)
    (parityDone : ∀ i < b * rs.parityShards, Present parity i)
    (enough : ∀ b', b ≤ b' → b' < blocks → rs.blockSize ≤ presentIn rs data parity b') :
    ∃ recovered', rs.reconstructFrom code remaining b data parity recovered =
      some (.ok (recovered', enc.data.map some, enc.parity.map some)) := by
  induction remaining generalizing b data parity recovered with
  | zero =>
      have done : b = blocks := total
      rw [done, ← coded.data_length] at dataDone
      rw [done, ← coded.parity_length] at parityDone
      refine ⟨recovered, ?_⟩
      rw [ReedSolomonFec.reconstructFrom, known.data.eq_of_present dataDone,
        known.parity.eq_of_present parityDone]
  | succ remaining ih =>
      obtain ⟨data', parity', more, rebuilt, known', ofData, ofParity, behind⟩ :=
        known.reconstructBlock coded mds (by omega) (enough b le_rfl (by omega))
      rw [ReedSolomonFec.reconstructFrom, rebuilt]
      apply ih known' (by omega) (ofData.done dataDone) (ofParity.done parityDone)
      intro b' after low
      rw [behind b' after]
      exact enough b' (by omega) low

theorem Known.enough_of_reconstructFrom (coded : Coded rs parityOf blocks enc)
    (mds : Mds code rs.blockSize rs.parityShards parityOf) (known : Known enc data parity)
    (total : b + remaining = blocks)
    {result : Nat × List (Option Bytes) × List (Option Bytes)}
    (ran : rs.reconstructFrom code remaining b data parity recovered = some (.ok result)) :
    ∀ b', b ≤ b' → b' < blocks → rs.blockSize ≤ presentIn rs data parity b' := by
  induction remaining generalizing b data parity recovered with
  | zero =>
      intro b' after low
      omega
  | succ remaining ih =>
      rw [ReedSolomonFec.reconstructFrom] at ran
      obtain ⟨block, rebuilt, ran⟩ := Option.bind_eq_some_iff.mp ran
      cases block with
      | error e => cases ran
      | ok block =>
          have enough := known.enough_of_reconstructBlock coded mds (by omega) rebuilt
          obtain ⟨data', parity', more, again, known', -, -, behind⟩ :=
            known.reconstructBlock coded mds (by omega) enough
          cases rebuilt.symm.trans again
          intro b' after low
          by_cases here : b = b'
          · exact here ▸ enough
          · rw [← behind b' (by omega)]
            exact ih known' (by omega) ran b' (by omega) low

end From

theorem blocks_eq (coded : Coded rs parityOf blocks enc) :
    (enc.data.length + rs.blockSize - 1) / rs.blockSize = blocks := by
  have pos := rs.blockSize_pos
  rw [coded.data_length, Nat.add_sub_assoc pos, Nat.add_comm, Nat.add_mul_div_right _ _ pos,
    Nat.div_eq_of_lt (by omega), Nat.zero_add]

/-- Of the shards of a frame, `reconstruct` runs its loop over all blocks. -/
theorem Known.reconstruct_eq (coded : Coded rs parityOf blocks enc) (known : Known enc data parity)
    (pos : 0 < rs.parityShards) (made : library rs.blockSize rs.parityShards = .ok code) :
    rs.reconstruct data parity =
      (rs.reconstructFrom code blocks 0 data parity 0).map (Except.mapError .library) := by
  have some : data.isEmpty = false := by
    have length := known.data.length_eq.trans coded.data_length
    have whole := Nat.mul_pos coded.pos rs.blockSize_pos
    rw [List.isEmpty_eq_false_iff, ← List.length_pos_iff]
    omega
  rw [ReedSolomonFec.reconstruct, if_neg pos.ne', some, if_neg Bool.false_ne_true]
  simp only [made, known.data.length_eq, blocks_eq coded]
  congr 1
  funext result
  cases result with
  | error e | ok result => rfl

/-- With `k` shards of each block, `reconstruct` restores all the others. -/
theorem Known.reconstruct_of_enough (coded : Coded rs parityOf blocks enc)
    (mds : ∀ code, library rs.blockSize rs.parityShards = .ok code →
      Mds code rs.blockSize rs.parityShards parityOf)
    (pos : 0 < rs.parityShards) (known : Known enc data parity)
    (enough : ∀ b < blocks, rs.blockSize ≤ presentIn rs data parity b) :
    ∃ recovered, rs.reconstruct data parity =
      some (.ok (recovered, enc.data.map some, enc.parity.map some)) := by
  obtain ⟨code, made⟩ := rs.instantiated pos
  have none (size : Nat) (shards : List (Option Bytes)) : ∀ i < 0 * size, Present shards i := by
    intro i low
    omega
  obtain ⟨recovered, ran⟩ := known.reconstructFrom coded (mds code made) (Nat.zero_add blocks)
    (none _ _) (none _ _) fun b _ low => enough b low
  refine ⟨recovered, ?_⟩
  rw [known.reconstruct_eq coded pos made, ran]
  rfl

/-- A reconstruction that succeeds yields the data shards of the frame; it takes
`k` shards of each block. -/
theorem Known.reconstruct (coded : Coded rs parityOf blocks enc)
    (mds : ∀ code, library rs.blockSize rs.parityShards = .ok code →
      Mds code rs.blockSize rs.parityShards parityOf)
    (pos : 0 < rs.parityShards) (known : Known enc data parity) {recovered : Nat}
    {data' parity' : List (Option Bytes)}
    (ran : rs.reconstruct data parity = some (.ok (recovered, data', parity'))) :
    data' = enc.data.map some ∧ ∀ b < blocks, rs.blockSize ≤ presentIn rs data parity b := by
  obtain ⟨code, made⟩ := rs.instantiated pos
  have enough : ∀ b < blocks, rs.blockSize ≤ presentIn rs data parity b := by
    rw [known.reconstruct_eq coded pos made] at ran
    obtain ⟨result, looped, same⟩ := Option.map_eq_some_iff.mp ran
    cases result with
    | error e => cases same
    | ok result =>
        intro b low
        exact known.enough_of_reconstructFrom coded (mds code made) (Nat.zero_add blocks) looped
          b (Nat.zero_le b) low
  obtain ⟨recovered', restored⟩ := known.reconstruct_of_enough coded mds pos enough
  cases ran.symm.trans restored
  exact ⟨rfl, enough⟩

theorem Known.covered (coded : Coded rs parityOf blocks enc) (known : Known enc data parity) :
    rs.Covered data parity := by
  intro code _ b low late
  rw [known.data.length_eq, blocks_eq coded] at low
  rw [known.parity.length_eq, coded.parity_length] at late
  exact absurd (Nat.mul_le_mul_right rs.parityShards low.le) (Nat.not_le.mpr late)

end Reconstruct

end Qubox.Media
