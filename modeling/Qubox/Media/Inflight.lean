import Qubox.Library.History
import Qubox.Media.JitterBuffer

/-!
# The frames a jitter buffer holds

A chunk that is stored makes room for its frame: the oldest frames are dropped
until no more than `maxInflight` are left. A chunk whose number is out of range
returns before that, and the entry made for it stays.
-/

namespace Qubox.Media.JitterBuffer

/-- The arguments of a call of `push_chunk`. -/
structure Push where
  header : MediaDatagramHeader
  payload : Bytes
  parity : Bool
  now : Nat
  deriving DecidableEq, Repr

def push (buffer : JitterBuffer) (chunk : Push) : JitterBuffer :=
  buffer.pushChunk chunk.header chunk.payload chunk.parity chunk.now

/-- The buffer after a number of calls. -/
def pushAll (buffer : JitterBuffer) (chunks : List Push) : JitterBuffer := chunks.foldl push buffer

/-- No call leaves more frames than allowed. -/
def StaysBounded (buffer : JitterBuffer) (chunks : List Push) : Prop :=
  ∀ past rest, chunks = past ++ rest → (buffer.pushAll past).frames.size ≤ buffer.maxInflight

/-- The chunk is in the range of its frame, or its frame is there already, or the
buffer has room for one more. -/
def HasRoom (buffer : JitterBuffer) (chunk : Push) : Prop :=
  chunk.header.chunkId.toNat < (buffer.frameFor chunk.header chunk.now).chunks.length ∨
    chunk.header.frameId ∈ buffer.frames ∨ buffer.frames.size < buffer.maxInflight

section Push

variable {buffer : JitterBuffer} {chunk : Push}

@[simp] theorem push_maxInflight : (buffer.push chunk).maxInflight = buffer.maxInflight :=
  pushChunk_maxInflight

@[simp] theorem pushAll_maxInflight (chunks : List Push) :
    (buffer.pushAll chunks).maxInflight = buffer.maxInflight := by
  induction chunks generalizing buffer with
  | nil => rfl
  | cons chunk chunks ih => exact ih.trans push_maxInflight

theorem pushAll_concat (chunks : List Push) :
    buffer.pushAll (chunks ++ [chunk]) = (buffer.pushAll chunks).push chunk := by
  rw [pushAll, List.foldl_concat, pushAll]

/-- A chunk out of range leaves an entry for its frame, and every other frame. -/
theorem size_push_of_out
    (out : (buffer.frameFor chunk.header chunk.now).chunks.length ≤ chunk.header.chunkId.toNat) :
    (buffer.push chunk).frames.size =
      if chunk.header.frameId ∈ buffer.frames then buffer.frames.size
      else buffer.frames.size + 1 := by
  rw [frameFor] at out
  rw [push, pushChunk, if_pos out]
  exact Std.TreeMap.size_insert

/-- A call keeps the bound exactly when there is room for its chunk. -/
theorem size_push_le_iff (bounded : buffer.frames.size ≤ buffer.maxInflight) :
    (buffer.push chunk).frames.size ≤ buffer.maxInflight ↔ buffer.HasRoom chunk := by
  by_cases out : (buffer.frameFor chunk.header chunk.now).chunks.length ≤ chunk.header.chunkId.toNat
  · rw [size_push_of_out out, HasRoom]
    have notInside := Nat.not_lt.mpr out
    split
    case isTrue there => exact iff_of_true bounded (.inr (.inl there))
    case isFalse absent =>
      rw [Nat.add_one_le_iff]
      constructor
      · intro room
        exact .inr (.inr room)
      · rintro (inside | there | room)
        · exact absurd inside notInside
        · exact absurd there absent
        · exact room
  · exact iff_of_true (size_pushChunk out) (.inl (Nat.not_le.mp out))

end Push

/-- From an empty buffer on, the frames stay within the bound exactly when every
chunk finds room. -/
theorem staysBounded_iff {buffer : JitterBuffer} (empty : buffer.frames.isEmpty)
    (chunks : List Push) :
    buffer.StaysBounded chunks ↔
      List.Along (fun past chunk => (buffer.pushAll past).HasRoom chunk) [] chunks := by
  have start : (buffer.pushAll []).frames.size ≤ buffer.maxInflight := by
    have none : buffer.frames.size = 0 := by
      rw [Std.TreeMap.isEmpty_eq_size_eq_zero] at empty
      exact eq_of_beq empty
    show buffer.frames.size ≤ buffer.maxInflight
    omega
  constructor
  · intro bounded
    rw [List.along_iff]
    rintro past chunk rest split
    have before := bounded past (chunk :: rest) split
    have after := bounded (past ++ [chunk]) rest (by rw [split, List.append_assoc]; rfl)
    rw [pushAll_concat] at after
    rw [List.nil_append]
    apply (size_push_le_iff (by rwa [pushAll_maxInflight])).mp
    rwa [pushAll_maxInflight]
  · intro along past rest split
    have room : List.Along (fun past chunk => (buffer.pushAll past).HasRoom chunk) [] past :=
      List.Along.left (split ▸ along)
    refine room.invariant (I := fun past =>
      (buffer.pushAll past).frames.size ≤ buffer.maxInflight) ?_ start
    intro past chunk fits bounded
    rw [pushAll_concat]
    rw [← pushAll_maxInflight past] at bounded ⊢
    exact (size_push_le_iff bounded).mpr fits

instance (buffer : JitterBuffer) (chunk : Push) : Decidable (buffer.HasRoom chunk) :=
  inferInstanceAs (Decidable (_ ∨ _ ∨ _))

/-- A chunk of a frame of `count`. -/
def chunkOf (frameId : UInt32) (chunkId count : UInt16) (now : Nat) : Push where
  header := { flags := 0, codec := 0, streamId := 1, frameId, chunkId, chunkCount := count }
  payload := [1, 2, 3]
  parity := false
  now

/-- A chunk of a frame that has none. -/
def chunkless (frameId : UInt32) : Push := chunkOf frameId 0 0 0

/-- Two frames, one that has no chunks and comes twice, one that displaces the first, and a
chunk out of range of it. -/
def mixedChunks : List Push :=
  [chunkOf 1 0 2 0, chunkOf 2 0 1 3, chunkOf 1 1 2 5, chunkless 3, chunkless 3, chunkOf 4 0 2 9,
    chunkOf 4 7 2 10]

theorem mixedChunks_staysBounded :
    ((new 20 3).pushAll mixedChunks).frames.keys = [2, 3, 4] ∧
      (new 20 3).StaysBounded mixedChunks := by
  refine ⟨by decide, (staysBounded_iff rfl _).mpr ?_⟩
  simp only [List.Along, mixedChunks, List.nil_append, List.cons_append, and_true]
  decide

theorem chunkless_not_staysBounded :
    ¬ ∀ (targetDelay maxInflight : Nat) (chunks : List Push),
      (new targetDelay maxInflight).StaysBounded chunks := by
  intro always
  have bounded := always 0 1 [chunkless 1, chunkless 2] [chunkless 1, chunkless 2] [] rfl
  exact absurd bounded (by decide)

end Qubox.Media.JitterBuffer
