import Mathlib.Tactic.Ring
import Qubox.Library.Bytes

/-!
# LEB128

A number written seven bits to a byte, the lowest first. All bytes but the last have the
highest bit set.
-/

namespace Leb128

def value : Bytes → Nat
  | [] => 0
  | b :: rest => b.toNat % 128 + 128 * value rest

/-- The bytes of one number. -/
inductive IsField : Bytes → Prop where
  | last {b : UInt8} (ends : b &&& 0x80 = 0) : IsField [b]
  | more {b : UInt8} {rest : Bytes} (goesOn : b &&& 0x80 ≠ 0) (field : IsField rest) :
      IsField (b :: rest)

/-- A loop that takes the bits of each byte to their place, until one without the highest bit. -/
def readLoop (value i : Nat) : Bytes → Option (Nat × Nat)
  | [] => none
  | b :: rest =>
    let value := value ||| (b &&& 0x7F).toNat <<< (i * 7)
    if b &&& 0x80 = 0 then some (value, i + 1) else readLoop value (i + 1) rest

theorem IsField.ne_nil {field : Bytes} (h : IsField field) : field ≠ [] := by
  cases h with
  | last | more => exact List.cons_ne_nil _ _

/-- The bits of a byte above those of the bytes before it. -/
theorem or_shift {value i : Nat} (below : value < 2 ^ (i * 7)) (b : UInt8) :
    value ||| (b &&& 0x7F).toNat <<< (i * 7) = value + 2 ^ (i * 7) * (b.toNat % 128) := by
  have low : (b &&& 0x7F).toNat = b.toNat % 128 := by
    rw [UInt8.toNat_and]
    exact Nat.and_two_pow_sub_one_eq_mod b.toNat 7
  rw [low, Nat.or_comm, ← Nat.shiftLeft_add_eq_or_of_lt below, Nat.shiftLeft_eq]
  ring

/-- The loop reads a field at the beginning of the bytes, if there is one. -/
theorem readLoop_eq_some {value i : Nat} (below : value < 2 ^ (i * 7)) {bytes : Bytes} {v n : Nat} :
    readLoop value i bytes = some (v, n) ↔
      ∃ field rest, bytes = field ++ rest ∧ IsField field ∧
        v = value + 2 ^ (i * 7) * Leb128.value field ∧ n = i + field.length := by
  induction bytes generalizing value i with
  | nil =>
      refine iff_of_false nofun ?_
      rintro ⟨field, rest, split, field', -⟩
      exact field'.ne_nil (List.append_eq_nil_iff.mp split.symm).1
  | cons b bytes ih =>
      rw [readLoop, or_shift below]
      split
      case isTrue ends =>
        constructor
        · intro read
          cases read
          refine ⟨[b], bytes, rfl, .last ends, ?_, rfl⟩
          rw [Leb128.value, Leb128.value, Nat.mul_zero, Nat.add_zero]
        · rintro ⟨field, rest, split, isField, rfl, rfl⟩
          cases isField with
          | last =>
              obtain ⟨rfl, -⟩ := List.cons.inj split
              rw [Leb128.value, Leb128.value, Nat.mul_zero, Nat.add_zero]
              rfl
          | more goesOn =>
              obtain ⟨rfl, -⟩ := List.cons.inj split
              exact absurd ends goesOn
      case isFalse goesOn =>
        have next : value + 2 ^ (i * 7) * (b.toNat % 128) < 2 ^ ((i + 1) * 7) := by
          have bits : b.toNat % 128 < 128 := Nat.mod_lt _ (by decide)
          have power : 2 ^ ((i + 1) * 7) = 2 ^ (i * 7) * 128 := by rw [Nat.succ_mul, Nat.pow_add]
          rw [power]
          calc value + 2 ^ (i * 7) * (b.toNat % 128)
              < 2 ^ (i * 7) + 2 ^ (i * 7) * (b.toNat % 128) := Nat.add_lt_add_right below _
            _ = 2 ^ (i * 7) * (b.toNat % 128 + 1) := by ring
            _ ≤ 2 ^ (i * 7) * 128 := Nat.mul_le_mul_left _ bits
        have shifted (field : Bytes) :
            value + 2 ^ (i * 7) * (b.toNat % 128) + 2 ^ ((i + 1) * 7) * Leb128.value field =
              value + 2 ^ (i * 7) * Leb128.value (b :: field) := by
          rw [Leb128.value, Nat.succ_mul, Nat.pow_add]
          ring
        rw [ih next]
        constructor
        · rintro ⟨field, rest, rfl, isField, rfl, rfl⟩
          refine ⟨b :: field, rest, rfl, .more goesOn isField, shifted field, ?_⟩
          rw [List.length_cons]
          omega
        · rintro ⟨field, rest, split, isField, rfl, rfl⟩
          cases isField with
          | last ends =>
              obtain ⟨rfl, -⟩ := List.cons.inj split
              exact absurd ends goesOn
          | more _ isField =>
              obtain ⟨rfl, tail⟩ := List.cons.inj split
              refine ⟨_, rest, tail, isField, (shifted _).symm, ?_⟩
              rw [List.length_cons]
              omega

end Leb128
