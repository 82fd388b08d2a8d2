import Qubox.Library.Leb128
import Qubox.Media.AnnexB

/-!
# OBUs of an AV1 stream

An OBU begins with a start code and a header byte, maybe a second one, and says how many
bytes of payload follow. `find_av1_obu_boundaries` reads one after the other; what it reads
of one depends only on the bytes up to the size. The payload need not be there yet.
-/

namespace Qubox.Av1

open AnnexB (startCode)

/-! ## Reading -/

def readLeb128 (bytes : Bytes) : Option (Nat × Nat) := Leb128.readLoop 0 0 (bytes.take 8)

/-- The loop of `find_av1_obu_boundaries` ends, panics, or passes an OBU. -/
inductive ObuRead where
  | stop
  | panics
  | obu (temporalDelimiter : Bool) (obuTotal : Nat)
  deriving DecidableEq, Repr

def isTemporalDelimiter (header : UInt8) : Bool := (header >>> 3) &&& 0x0F = 2

/-- The second header byte, if there is one. -/
def extensionLen (header : UInt8) : Nat := if header &&& 0x04 ≠ 0 then 1 else 0

/-- One iteration, for the bytes from its position on. -/
def readObu (bytes : Bytes) : ObuRead :=
  match startCode bytes with
  | none => .stop
  | some prefixLen =>
    match bytes[prefixLen]? with
    | none => .stop
    | some header =>
      if header &&& 0x02 = 0 then .stop
      else
        let sizeOffset := prefixLen + 1 + extensionLen header
        if bytes.length < sizeOffset then .panics
        else
          match readLeb128 (bytes.drop sizeOffset) with
          | none => .stop
          | some (obuSize, consumed) =>
            .obu (isTemporalDelimiter header) (sizeOffset + consumed + obuSize)

theorem readLeb128_eq_some {bytes : Bytes} {v n : Nat} :
    readLeb128 bytes = some (v, n) ↔ ∃ field rest, bytes = field ++ rest ∧
      Leb128.IsField field ∧ field.length ≤ 8 ∧ v = Leb128.value field ∧ n = field.length := by
  rw [readLeb128, Leb128.readLoop_eq_some (by decide)]
  simp only [Nat.zero_mul, Nat.pow_zero, Nat.one_mul, Nat.zero_add]
  constructor
  · rintro ⟨field, rest, split, isField, rfl, rfl⟩
    have short : field.length ≤ 8 := by
      have := congrArg List.length split
      rw [List.length_take, List.length_append] at this
      omega
    refine ⟨field, rest ++ bytes.drop 8, ?_, isField, short, rfl, rfl⟩
    rw [← List.append_assoc, ← split, List.take_append_drop]
  · rintro ⟨field, rest, rfl, isField, short, rfl, rfl⟩
    refine ⟨field, rest.take (8 - field.length), ?_, isField, rfl, rfl⟩
    rw [List.take_append, List.take_of_length_le short]

/-! ## What an OBU is -/

/-- An OBU of any payload, with a size field. -/
structure Obu where
  code : Bytes
  header : UInt8
  extension : Bytes
  size : Bytes
  payload : Bytes
  known : code = [0, 0, 1] ∨ code = [0, 0, 0, 1]
  hasSize : header &&& 0x02 ≠ 0
  extended : extension.length = extensionLen header
  field : Leb128.IsField size
  short : size.length ≤ 8
  sized : Leb128.value size = payload.length

namespace Obu

/-- All before the payload. -/
def front (obu : Obu) : Bytes := obu.code ++ obu.header :: (obu.extension ++ obu.size)

def bytes (obu : Obu) : Bytes := obu.front ++ obu.payload

def IsDelimiter (obu : Obu) : Prop := isTemporalDelimiter obu.header = true

instance (obu : Obu) : Decidable obu.IsDelimiter := inferInstanceAs (Decidable (_ = true))

theorem length_front_pos (obu : Obu) : 0 < obu.front.length := by
  rw [front, List.length_append, List.length_cons]
  omega

theorem length_pos (obu : Obu) : 0 < obu.bytes.length := by
  rw [bytes, List.length_append]
  exact Nat.add_pos_left obu.length_front_pos _

end Obu

/-- A start code and the first of two header bytes, where a size follows the second. -/
def CutHeader (bytes : Bytes) : Prop :=
  ∃ code header, (code = [0, 0, 1] ∨ code = [0, 0, 0, 1]) ∧ bytes = code ++ [header] ∧
    header &&& 0x02 ≠ 0 ∧ header &&& 0x04 ≠ 0

/-- A temporal delimiter with its size, but without all of its payload. -/
def CutDelimiter (bytes : Bytes) : Prop :=
  ∃ obu : Obu, obu.IsDelimiter ∧ obu.front <+: bytes ∧ bytes <+: obu.bytes ∧ bytes ≠ obu.bytes

/-! ## What is read -/

/-- What is read of the bytes after a start code. -/
theorem readObu_code {code : Bytes} (known : code = [0, 0, 1] ∨ code = [0, 0, 0, 1])
    (header : UInt8) (rest : Bytes) :
    readObu (code ++ header :: rest) =
      if header &&& 0x02 = 0 then .stop
      else if rest.length < extensionLen header then .panics
      else
        match readLeb128 (rest.drop (extensionLen header)) with
        | none => .stop
        | some (obuSize, consumed) => .obu (isTemporalDelimiter header)
            (code.length + 1 + extensionLen header + consumed + obuSize) := by
  have there : (code ++ header :: rest)[code.length]? = some header := by
    rw [List.getElem?_append_right (Nat.le_refl _), Nat.sub_self]
    rfl
  rw [readObu, AnnexB.startCode_append known]
  dsimp only
  rw [there]
  dsimp only
  have dropped : (code ++ header :: rest).drop (code.length + 1 + extensionLen header) =
      rest.drop (extensionLen header) := by
    rw [Nat.add_assoc, ← List.drop_drop, List.drop_left, ← List.drop_drop]
    rfl
  have fits : (code ++ header :: rest).length < code.length + 1 + extensionLen header ↔
      rest.length < extensionLen header := by
    rw [List.length_append, List.length_cons]
    omega
  rw [dropped]
  simp only [fits]

/-- Nothing of an OBU is read after its size. -/
theorem readObu_front (obu : Obu) (rest : Bytes) :
    readObu (obu.front ++ rest) = .obu (isTemporalDelimiter obu.header) obu.bytes.length := by
  have read : readLeb128 (obu.size ++ rest) = some (obu.payload.length, obu.size.length) :=
    readLeb128_eq_some.mpr ⟨obu.size, rest, rfl, obu.field, obu.short, obu.sized.symm, rfl⟩
  have behind : (obu.extension ++ (obu.size ++ rest)).drop obu.extension.length = obu.size ++ rest :=
    List.drop_left
  have fits : ¬ (obu.extension ++ (obu.size ++ rest)).length < obu.extension.length := by
    rw [List.length_append]
    exact Nat.not_lt_of_le (Nat.le_add_right _ _)
  rw [Obu.front, List.append_assoc, List.cons_append, List.append_assoc, readObu_code obu.known,
    ← obu.extended, if_neg obu.hasSize, if_neg fits, behind, read]
  show ObuRead.obu _ _ = .obu _ _
  rw [Obu.bytes, Obu.front, List.length_append, List.length_append, List.length_cons,
    List.length_append]
  congr 1
  omega

theorem readObu_bytes (obu : Obu) (rest : Bytes) :
    readObu (obu.bytes ++ rest) = .obu (isTemporalDelimiter obu.header) obu.bytes.length := by
  rw [Obu.bytes, List.append_assoc, readObu_front]
  rfl

/-- Bytes in which something is read begin with a start code and a header. -/
theorem code_of_readObu {bytes : Bytes} (read : readObu bytes ≠ .stop) :
    ∃ code header rest, (code = [0, 0, 1] ∨ code = [0, 0, 0, 1]) ∧
      bytes = code ++ header :: rest ∧ header &&& 0x02 ≠ 0 := by
  cases found : startCode bytes with
  | none =>
      rw [readObu, found] at read
      exact absurd rfl read
  | some prefixLen =>
      obtain ⟨code, rest, rfl, rfl, known⟩ := AnnexB.startCode_eq_some found
      cases rest with
      | nil =>
          rw [readObu, found] at read
          dsimp only at read
          rw [List.append_nil, List.getElem?_eq_none (Nat.le_refl _)] at read
          exact absurd rfl read
      | cons header rest =>
          refine ⟨code, header, rest, known, rfl, ?_⟩
          intro unsized
          rw [readObu_code known, if_pos unsized] at read
          exact absurd rfl read

/-- An iteration that passes something has read an OBU, all of whose bytes are there or not. -/
theorem obu_of_readObu {bytes : Bytes} {temporalDelimiter : Bool} {total : Nat}
    (read : readObu bytes = .obu temporalDelimiter total) :
    ∃ obu : Obu, isTemporalDelimiter obu.header = temporalDelimiter ∧ obu.bytes.length = total ∧
      obu.front <+: bytes ∧ (obu.bytes <+: bytes ∨ bytes <+: obu.bytes) := by
  obtain ⟨code, header, rest, known, rfl, hasSize⟩ := code_of_readObu (by rw [read]; nofun)
  have whole := read
  rw [readObu_code known, if_neg hasSize] at read
  split at read
  case isTrue => cases read
  case isFalse fits =>
    split at read
    case h_1 => cases read
    case h_2 obuSize consumed sizeRead =>
      obtain ⟨size, more, behind, field, short, rfl, rfl⟩ := readLeb128_eq_some.mp sizeRead
      have extended : (rest.take (extensionLen header)).length = extensionLen header := by
        rw [List.length_take]
        omega
      let obu : Obu := {
        code, header, size, known, hasSize, extended, field, short
        extension := rest.take (extensionLen header)
        payload := (more ++ List.replicate (Leb128.value size) 0).take (Leb128.value size)
        sized := by
          rw [List.length_take, List.length_append, List.length_replicate]
          omega }
      have split : code ++ header :: rest = obu.front ++ more := by
        rw [Obu.front, List.append_assoc, List.cons_append, List.append_assoc, ← behind,
          List.take_append_drop]
      have same := readObu_front obu more
      rw [← split, whole] at same
      cases same
      refine ⟨obu, rfl, rfl, ?_, ?_⟩
      · rw [split]
        exact List.prefix_append _ _
      · rw [split, Obu.bytes]
        have payload : obu.payload =
            (more ++ List.replicate (Leb128.value size) 0).take (Leb128.value size) := rfl
        rw [List.prefix_append_right_inj, List.prefix_append_right_inj, payload]
        rcases Nat.le_total (Leb128.value size) more.length with enough | few
        · exact .inl ⟨_, by rw [List.take_append_of_le_length enough, List.take_append_drop]⟩
        · refine .inr ?_
          rw [List.take_append, List.take_of_length_le few]
          exact List.prefix_append _ _

theorem readObu_eq_panics {bytes : Bytes} : readObu bytes = .panics ↔ CutHeader bytes := by
  constructor
  · intro read
    obtain ⟨code, header, rest, known, rfl, hasSize⟩ := code_of_readObu (by rw [read]; nofun)
    rw [readObu_code known, if_neg hasSize] at read
    split at read
    case isTrue none =>
      rw [extensionLen] at none
      split at none
      case isTrue twoBytes =>
        obtain rfl := List.length_eq_zero_iff.mp (Nat.lt_one_iff.mp none)
        exact ⟨code, header, known, rfl, hasSize, twoBytes⟩
      case isFalse => cases none
    case isFalse => split at read <;> cases read
  · rintro ⟨code, header, known, rfl, hasSize, twoBytes⟩
    rw [readObu_code known, if_neg hasSize, extensionLen, if_pos twoBytes]
    rfl

end Qubox.Av1
