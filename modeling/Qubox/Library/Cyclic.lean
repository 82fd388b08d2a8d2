import Mathlib.Data.List.Basic
import Mathlib.Logic.Function.Basic

/-!
# Slots in a circle, and counters that wrap

A queue in slots that are used in a circle lies there in one piece, from the count of what has
left it on. The counts are kept in words, which wrap. Distances between two counts are right
in words as long as they are smaller than the number of words.
-/

namespace Cyclic

variable {α : Type*} {slots : Nat → α} {size start n : Nat} {content : List α} {a : α}

/-- The queue lies in the slots from this count on. -/
def Shows (slots : Nat → α) (size start : Nat) (content : List α) : Prop :=
  ∀ i (inside : i < content.length), slots ((start + i) % size) = content[i]

theorem shows_nil : Shows slots size start [] := by
  intro i inside
  cases inside

theorem Shows.drop (shows' : Shows slots size start content) (n : Nat) :
    Shows slots size (start + n) (content.drop n) := by
  intro i inside
  rw [List.length_drop] at inside
  rw [List.getElem_drop, Nat.add_assoc]
  exact shows' (n + i) (by omega)

/-- Less than a circle apart, slots differ. -/
theorem slot_ne {i j : Nat} (close : i < j) (near : j < i + size) :
    (start + i) % size ≠ (start + j) % size := by
  intro same
  have apart := Nat.sub_mod_eq_zero_of_mod_eq same.symm
  have difference : start + j - (start + i) = j - i := by omega
  rw [difference, Nat.mod_eq_of_lt (by omega)] at apart
  omega

/-- A queue that does not fill the circle grows at its end. -/
theorem Shows.append (shows' : Shows slots size start content) (room : content.length < size) :
    Shows (Function.update slots ((start + content.length) % size) a) size start
      (content ++ [a]) := by
  intro i inside
  rw [List.length_append, List.length_singleton] at inside
  by_cases old : i < content.length
  · rw [Function.update_of_ne (slot_ne old (by omega)), List.getElem_append_left old]
    exact shows' i old
  · have last : i = content.length := by omega
    subst last
    rw [Function.update_self, List.getElem_concat_length rfl]

/-- A queue that fills the circle loses its first element to one more. -/
theorem Shows.overwrite (shows' : Shows slots size start content) (full : content.length = size)
    (positive : 0 < size) :
    Shows (Function.update slots ((start + content.length) % size) a) size (start + 1)
      ((content ++ [a]).drop 1) := by
  have length : (content.drop 1).length = size - 1 := by rw [List.length_drop, full]
  have grown := (shows'.drop 1).append (a := a) (by omega)
  have place : start + 1 + (content.drop 1).length = start + content.length := by omega
  rw [place] at grown
  rwa [List.drop_append_of_le_length (by omega)]

/-! ## Words -/

variable {words before after : Nat}

/-- The difference of two words. -/
def wrappingSub (words x y : Nat) : Nat := (x + (words - y)) % words

/-- A count has wrapped since another, or not. -/
theorem mod_cases (order : before ≤ after) (near : after - before < words) :
    after % words = before % words + (after - before) ∨
      after % words + words = before % words + (after - before) := by
  have small := Nat.mod_lt before (show 0 < words by omega)
  have sum : after % words = (before % words + (after - before)) % words := by
    rw [Nat.mod_add_mod, Nat.add_sub_cancel' order]
  by_cases within : before % words + (after - before) < words
  · exact .inl (by rw [sum, Nat.mod_eq_of_lt within])
  · have past : (before % words + (after - before)) % words =
        before % words + (after - before) - words := by
      rw [Nat.mod_eq_sub_mod (by omega), Nat.mod_eq_of_lt (by omega)]
    omega

theorem wrappingSub_mod (order : before ≤ after) (near : after - before < words) :
    wrappingSub words (after % words) (before % words) = after - before := by
  have small := Nat.mod_lt before (show 0 < words by omega)
  unfold wrappingSub
  obtain same | wrapped := mod_cases order near
  · have sum : after % words + (words - before % words) = after - before + words := by omega
    rw [sum, Nat.add_mod_right, Nat.mod_eq_of_lt near]
  · have sum : after % words + (words - before % words) = after - before := by omega
    rw [sum, Nat.mod_eq_of_lt near]

/-- A count is set back by less than all words. -/
theorem wrappingSub_const {count : Nat} (order : n ≤ count) (near : n ≤ words) :
    wrappingSub words (count % words) n = (count - n) % words := by
  have sum : count + (words - n) = count - n + words := by omega
  rw [wrappingSub, Nat.mod_add_mod, sum, Nat.add_mod_right]

/-- Where counts have wrapped between them, the saturated difference of words is nothing. -/
theorem mod_sub_mod_le (order : before ≤ after) (near : after - before < words) :
    after % words - before % words ≤ after - before := by
  obtain same | wrapped := mod_cases order near <;> omega

end Cyclic
