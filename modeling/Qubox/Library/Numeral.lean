import Mathlib.Algebra.Group.Nat.Defs
import Mathlib.Data.List.Basic

/-!
# Unsigned numerals

How a decimal numeral is read into a machine word. The word only decides which
numbers are accepted: a text denotes one number or none, whatever the width.
-/

namespace Numeral

/-- Why a text is not a number of the type. -/
inductive ParseIntError where
  | empty
  | invalidDigit
  | posOverflow
  deriving DecidableEq, Repr

def ParseIntError.text : ParseIntError → String
  | .empty => "cannot parse integer from empty string"
  | .invalidDigit => "invalid digit found in string"
  | .posOverflow => "number too large to fit in target type"

/-- The number whose digits come after those of `total`. -/
def digits (bits total : Nat) : List Char → Except ParseIntError Nat
  | [] => .ok total
  | c :: rest =>
      if c.isDigit then
        if 10 * total + (c.toNat - '0'.toNat) < 2 ^ bits then
          digits bits (10 * total + (c.toNat - '0'.toNat)) rest
        else .error .posOverflow
      else .error .invalidDigit

/-- `str::parse` for an unsigned type of `bits` bits. -/
def parse (bits : Nat) : List Char → Except ParseIntError Nat
  | [] => .error .empty
  | ['+'] => .error .invalidDigit
  | '+' :: numeral => digits bits 0 numeral
  | numeral => digits bits 0 numeral

/-- The text is a numeral, perhaps with a sign, for the number. -/
def Denotes (text : List Char) (n : Nat) : Prop :=
  ∃ numeral, numeral ≠ [] ∧ (text = numeral ∨ text = '+' :: numeral) ∧
    (∀ c ∈ numeral, c.isDigit = true) ∧ Nat.ofDigitChars 10 numeral 0 = n

variable {bits total n : Nat} {text numeral : List Char}

theorem le_ofDigitChars (total : Nat) (numeral : List Char) :
    total ≤ Nat.ofDigitChars 10 numeral total := by
  induction numeral generalizing total with
  | nil => exact Nat.le_of_eq Nat.ofDigitChars_nil.symm
  | cons c rest ih =>
      rw [Nat.ofDigitChars_cons]
      have more := ih (10 * total + (c.toNat - '0'.toNat))
      omega

theorem digits_eq_ok (fits : total < 2 ^ bits) :
    digits bits total numeral = .ok n ↔
      ((∀ c ∈ numeral, c.isDigit = true) ∧ Nat.ofDigitChars 10 numeral total = n) ∧
        n < 2 ^ bits := by
  induction numeral generalizing total with
  | nil =>
      rw [digits, Nat.ofDigitChars_nil, Except.ok.injEq]
      constructor
      · rintro rfl
        exact ⟨⟨fun _ member => absurd member List.not_mem_nil, rfl⟩, fits⟩
      · rintro ⟨⟨-, same⟩, -⟩
        exact same
  | cons c rest ih =>
      have more := le_ofDigitChars (10 * total + (c.toNat - '0'.toNat)) rest
      rw [digits, Nat.ofDigitChars_cons, List.forall_mem_cons]
      by_cases digit : c.isDigit = true
      · rw [if_pos digit]
        split
        case isTrue next =>
          rw [ih next]
          simp only [digit, true_and]
        case isFalse large =>
          refine iff_of_false nofun ?_
          rintro ⟨⟨-, rfl⟩, small⟩
          omega
      · rw [if_neg digit]
        refine iff_of_false nofun ?_
        rintro ⟨⟨⟨yes, -⟩, -⟩, -⟩
        exact digit yes

theorem parse_eq_ok : parse bits text = .ok n ↔ Denotes text n ∧ n < 2 ^ bits := by
  have zero : 0 < 2 ^ bits := Nat.two_pow_pos bits
  rw [Denotes]
  unfold parse
  split
  · refine iff_of_false nofun ?_
    rintro ⟨⟨numeral, some, rfl | cons, -⟩, -⟩
    · exact some rfl
    · exact nomatch cons
  · refine iff_of_false nofun ?_
    rintro ⟨⟨numeral, some, rfl | cons, all, -⟩, -⟩
    · exact absurd (all '+' (List.mem_singleton_self _)) (by decide)
    · exact some (List.cons.inj cons).2.symm
  · rename_i numeral single
    rw [digits_eq_ok zero]
    constructor
    · rintro ⟨⟨all, same⟩, fits⟩
      refine ⟨⟨numeral, ?_, .inr rfl, all, same⟩, fits⟩
      rintro rfl
      exact single rfl
    · rintro ⟨⟨numeral', some, rfl | cons, all, same⟩, fits⟩
      · exact absurd (all '+' List.mem_cons_self) (by decide)
      · obtain rfl := (List.cons.inj cons).2
        exact ⟨⟨all, same⟩, fits⟩
  · rename_i nonempty _ unsigned
    rw [digits_eq_ok zero]
    constructor
    · rintro ⟨⟨all, same⟩, fits⟩
      exact ⟨⟨text, nonempty, .inl rfl, all, same⟩, fits⟩
    · rintro ⟨⟨numeral, some, rfl | rfl, all, same⟩, fits⟩
      · exact ⟨⟨all, same⟩, fits⟩
      · exact absurd rfl (unsigned numeral)

theorem parse_lt (read : parse bits text = .ok n) : n < 2 ^ bits := (parse_eq_ok.mp read).2

/-- A number is read back from its digits. -/
theorem parse_repr (fits : n < 2 ^ bits) : parse bits n.repr.toList = .ok n := by
  apply parse_eq_ok.mpr
  refine ⟨⟨n.repr.toList, ?_, .inl rfl, ?_, ?_⟩, fits⟩
  · rw [Nat.toList_repr]
    exact Nat.toDigits_ne_nil
  · rw [Nat.toList_repr]
    intro c digit
    exact Nat.isDigit_of_mem_toDigits (by decide) (by decide) digit
  · rw [Nat.toList_repr, Nat.ofDigitChars_ten_toDigits]

end Numeral
