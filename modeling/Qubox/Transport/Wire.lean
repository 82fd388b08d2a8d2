import Qubox.Library.Framing
import Qubox.Proto

/-!
# Values on a reliable stream

A value is written as JSON behind its length. `Codec` is the JSON form of one
type, as `serde_json` writes and reads it. A read takes its bytes from the front
of what is left of a stream, all of which will arrive, and fails at its end.
-/

namespace Qubox.Transport

def maxJsonFrame : Nat := 256 * 1024
def maxVideoAuBytes : Nat := 8 * 1024 * 1024
def maxAudioChunkBytes : Nat := 512 * 1024

inductive TransportError where
  | unexpectedEof
  | jsonTooLarge (len : Nat)
  | json (error : String)
  | accessUnitTooLarge (byteLen : Nat)
  | audioChunkTooLarge (byteLen : Nat)
  | mediaSession (got expected : Uuid)
  | audioSession (got expected : Uuid)
  | controlMessageTooLarge (len : Nat)
  | frameTooLarge (len : Nat)
  | unknownPurpose (byte : UInt8)
  | notVideoConfig
  | audioStreamSession (got expected : Uuid)
  | timedOut (names : String)
  | legacyTimedOut (names : String)
  | missing (what : String)
  | context (text : String) (cause : TransportError)
  deriving DecidableEq

/-- `with_context`. -/
def withContext {α : Type} (text : String) (result : Except TransportError α) :
    Except TransportError α :=
  result.mapError (.context text)

structure Codec (α : Type) where
  toVec : α → Bytes
  fromSlice : Bytes → Except String α

/-- The text of the value is read back as the value. -/
def Codec.Inverts {α : Type} (codec : Codec α) (a : α) : Prop :=
  codec.fromSlice (codec.toVec a) = .ok a

/-- The text is within the limit of the readers. -/
def Codec.Small {α : Type} (codec : Codec α) (a : α) : Prop :=
  (codec.toVec a).length ≤ maxJsonFrame

/-- The readers get the value back. -/
def Codec.Readable {α : Type} (codec : Codec α) (a : α) : Prop :=
  codec.Inverts a ∧ codec.Small a

def readExact (count : Nat) (stream : Bytes) : Except TransportError (Bytes × Bytes) :=
  if stream.length < count then .error .unexpectedEof
  else .ok (stream.take count, stream.drop count)

def readU32 (stream : Bytes) : Except TransportError (Nat × Bytes) :=
  (readExact 4 stream).map fun read => (Bytes.toNatBE read.1, read.2)

section Json

variable {α : Type} (codec : Codec α)

def writeJsonPrefixed (payload : α) : Bytes :=
  Bytes.ofNatBE 4 (codec.toVec payload).length ++ codec.toVec payload

/-- What the readers do once they have the length. -/
def readJsonBody (len : Nat) (stream : Bytes) : Except TransportError (α × Bytes) :=
  if maxJsonFrame < len then .error (.jsonTooLarge len)
  else
    match readExact len stream with
    | .error e => .error e
    | .ok (bytes, rest) =>
        match codec.fromSlice bytes with
        | .error e => .error (.json e)
        | .ok payload => .ok (payload, rest)

def readJsonPrefixed (stream : Bytes) : Except TransportError (α × Bytes) :=
  match readU32 stream with
  | .error e => .error e
  | .ok (len, rest) => readJsonBody codec len rest

def maybeReadJsonPrefixed (stream : Bytes) : Except TransportError (Option (α × Bytes)) :=
  match readU32 stream with
  | .error .unexpectedEof => .ok none
  | .error e => .error e
  | .ok (len, rest) => (readJsonBody codec len rest).map some

end Json

/-! ## Reading what was written -/

theorem readExact_append (bytes rest : Bytes) :
    readExact bytes.length (bytes ++ rest) = .ok (bytes, rest) := by
  rw [readExact, if_neg (by rw [List.length_append]; omega), List.take_left, List.drop_left]

theorem readExact_short {count : Nat} {stream : Bytes} (short : stream.length < count) :
    readExact count stream = .error .unexpectedEof :=
  if_pos short

theorem readU32_append {len : Nat} (bound : len < 2 ^ 32) (rest : Bytes) :
    readU32 (Bytes.ofNatBE 4 len ++ rest) = .ok (len, rest) := by
  have read := readExact_append (Bytes.ofNatBE 4 len) rest
  rw [Bytes.length_ofNatBE] at read
  rw [readU32, read]
  show Except.ok (Bytes.toNatBE (Bytes.ofNatBE 4 len), rest) = _
  rw [Bytes.toNatBE_ofNatBE, Nat.mod_eq_of_lt (show len < 256 ^ 4 from bound)]

theorem readU32_short {stream : Bytes} (short : stream.length < 4) :
    readU32 stream = .error .unexpectedEof := by
  rw [readU32, readExact_short short]
  rfl

section Json

variable {α : Type} {codec : Codec α} {payload : α}

theorem length_writeJsonPrefixed :
    (writeJsonPrefixed codec payload).length = 4 + (codec.toVec payload).length := by
  rw [writeJsonPrefixed, List.length_append, Bytes.length_ofNatBE]

theorem readJsonBody_append (inverts : codec.Inverts payload) (small : codec.Small payload)
    (rest : Bytes) :
    readJsonBody codec (codec.toVec payload).length (codec.toVec payload ++ rest) =
      .ok (payload, rest) := by
  rw [readJsonBody, if_neg (Nat.not_lt.mpr small), readExact_append]
  rw [Codec.Inverts] at inverts
  simp only [inverts]

theorem Codec.Small.length_lt (small : codec.Small payload) :
    (codec.toVec payload).length < 2 ^ 32 := by
  rw [Codec.Small, maxJsonFrame] at small
  omega

theorem readJsonPrefixed_append (inverts : codec.Inverts payload) (small : codec.Small payload)
    (rest : Bytes) :
    readJsonPrefixed codec (writeJsonPrefixed codec payload ++ rest) = .ok (payload, rest) := by
  rw [writeJsonPrefixed, List.append_assoc, readJsonPrefixed, readU32_append small.length_lt]
  exact readJsonBody_append inverts small rest

theorem maybeReadJsonPrefixed_append (inverts : codec.Inverts payload)
    (small : codec.Small payload) (rest : Bytes) :
    maybeReadJsonPrefixed codec (writeJsonPrefixed codec payload ++ rest) =
      .ok (some (payload, rest)) := by
  rw [writeJsonPrefixed, List.append_assoc, maybeReadJsonPrefixed, readU32_append small.length_lt]
  simp only [readJsonBody_append inverts small rest]
  rfl

theorem maybeReadJsonPrefixed_short {stream : Bytes} (short : stream.length < 4) :
    maybeReadJsonPrefixed codec stream = .ok none := by
  rw [maybeReadJsonPrefixed, readU32_short short]

/-- A value that is cut behind its length. -/
theorem take_writeJsonPrefixed (more : Nat) :
    (writeJsonPrefixed codec payload).take (4 + more) =
      Bytes.ofNatBE 4 (codec.toVec payload).length ++ (codec.toVec payload).take more := by
  have width := Bytes.length_ofNatBE 4 (codec.toVec payload).length
  rw [writeJsonPrefixed, List.take_append, width, List.take_of_length_le (by omega),
    Nat.add_sub_cancel_left]

theorem readExact_take {bytes : Bytes} {count : Nat} (within : count < bytes.length) :
    readExact bytes.length (bytes.take count) = .error .unexpectedEof := by
  apply readExact_short
  rw [List.length_take]
  omega

theorem maybeReadJsonPrefixed_cut (small : codec.Small payload) {count : Nat} (long : 4 ≤ count)
    (within : count < (writeJsonPrefixed codec payload).length) :
    ∃ e, maybeReadJsonPrefixed codec ((writeJsonPrefixed codec payload).take count) = .error e := by
  rw [length_writeJsonPrefixed] at within
  obtain ⟨more, rfl⟩ := Nat.exists_eq_add_of_le long
  rw [take_writeJsonPrefixed, maybeReadJsonPrefixed, readU32_append small.length_lt]
  simp only [readJsonBody]
  split
  case isTrue => exact ⟨_, rfl⟩
  case isFalse =>
    rw [readExact_take (Nat.lt_of_add_lt_add_left within)]
    exact ⟨_, rfl⟩

end Json

end Qubox.Transport
