import Mathlib.Algebra.Group.Int.Defs
import Mathlib.Algebra.Group.Nat.Defs
import Mathlib.Data.List.Basic

/-!
# Checked access to sequences, and checked arithmetic

Indexing in the programs modelled here panics out of bounds, and arithmetic where
the result does not fit in the machine word. The functions of this file have no
result then, so a computation in `Option` has a result exactly when none of its
accesses and operations panics.
-/

namespace List

universe u

variable {α : Type u}

/-- `l[start..stop]`. -/
def slice? (l : List α) (start stop : Nat) : Option (List α) :=
  if start ≤ stop ∧ stop ≤ l.length then some ((l.drop start).take (stop - start)) else none

/-- `l[i] = a`. -/
def store? (l : List α) (i : Nat) (a : α) : Option (List α) :=
  if i < l.length then some (l.set i a) else none

theorem slice?_eq {l : List α} {start stop : Nat} (order : start ≤ stop)
    (inside : stop ≤ l.length) : l.slice? start stop = some ((l.drop start).take (stop - start)) :=
  if_pos ⟨order, inside⟩

theorem store?_eq {l : List α} {i : Nat} (inside : i < l.length) (a : α) :
    l.store? i a = some (l.set i a) :=
  if_pos inside

end List

/-! ## Arithmetic -/

namespace Checked

/-- The result of an unsigned operation, in a word of `bits` bits. -/
def word (bits n : Nat) : Option Nat := if n < 2 ^ bits then some n else none

/-- The result of a signed operation. -/
def signed (bits : Nat) (n : Int) : Option Int :=
  if -2 ^ (bits - 1) ≤ n ∧ n < 2 ^ (bits - 1) then some n else none

def sub (a b : Nat) : Option Nat := if b ≤ a then some (a - b) else none

def div (a b : Nat) : Option Nat := if b = 0 then none else some (a / b)

/-- `v as i32` for a `u32`. -/
def asI32 (v : Nat) : Int := Int.bmod v (2 ^ 32)

variable {bits a b n m : Nat}

theorem word_eq_some : word bits n = some m ↔ n < 2 ^ bits ∧ n = m := by
  rw [word, Option.ite_none_right_eq_some, Option.some_inj]

theorem word_eq (fits : n < 2 ^ bits) : word bits n = some n := if_pos fits

theorem signed_eq_some {i j : Int} :
    signed bits i = some j ↔ (-2 ^ (bits - 1) ≤ i ∧ i < 2 ^ (bits - 1)) ∧ i = j := by
  rw [signed, Option.ite_none_right_eq_some, Option.some_inj]

theorem sub_eq_some : sub a b = some m ↔ b ≤ a ∧ a - b = m := by
  rw [sub, Option.ite_none_right_eq_some, Option.some_inj]

theorem div_eq_some : div a b = some m ↔ b ≠ 0 ∧ a / b = m := by
  rw [div, Option.ite_none_left_eq_some, Option.some_inj]

theorem asI32_small {v : Nat} (small : v < 2 ^ 31) : asI32 v = v :=
  Int.bmod_eq_of_le (by omega) (by omega)

theorem asI32_large {v : Nat} (large : 2 ^ 31 ≤ v) (word : v < 2 ^ 32) :
    asI32 v = v - (2 ^ 32 : Nat) :=
  (Int.sub_bmod_right v (2 ^ 32)).symm.trans (Int.bmod_eq_of_le (by omega) (by omega))

end Checked
