import Mathlib.Data.List.Pairwise
import Mathlib.Tactic.Common

/-!
# Events in a sliding window

The times of some events, in their order. A history that is pruned from its front whenever an
event comes holds the events of the window that ends with it. So a limit on the length of the
history is a limit on the events in any window of that width.
-/

namespace SlidingWindow

variable {width limit before now : Nat} {times : List Nat}

/-- The history without the entries at its front that are too old. -/
def prune (width now : Nat) (times : List Nat) : List Nat :=
  times.dropWhile fun time => width < now - time

/-- The events of the window that ends now. -/
def recent (width now : Nat) (times : List Nat) : List Nat :=
  times.filter fun time => now - time ≤ width

/-- Some window of that width has more events than the limit. -/
def Crowded (limit width : Nat) (times : List Nat) : Prop :=
  ∃ start, limit < (times.filter fun time => start ≤ time ∧ time ≤ start + width).length

theorem prune_eq_recent (ordered : times.Pairwise (· ≤ ·)) :
    prune width now times = recent width now times := by
  induction times with
  | nil => rfl
  | cons first rest ih =>
      have tail := List.pairwise_cons.mp ordered
      by_cases old : width < now - first
      · have kept : ¬ now - first ≤ width := by omega
        rw [prune, List.dropWhile_cons_of_pos (by simpa using old), recent,
          List.filter_cons_of_neg (by simpa using kept)]
        exact ih tail.2
      · have all : ∀ time ∈ first :: rest, now - time ≤ width := by
          intro time member
          obtain rfl | later := List.mem_cons.mp member
          · omega
          · have := tail.1 time later
            omega
        rw [prune, List.dropWhile_cons_of_neg (by simpa using old), recent,
          List.filter_eq_self.mpr fun time member => by simpa using all time member]

/-- What a window has lost, no later window has. -/
theorem recent_recent (order : before ≤ now) :
    recent width now (recent width before times) = recent width now times := by
  unfold recent
  rw [List.filter_filter]
  refine List.filter_congr fun time _ => ?_
  rw [Bool.eq_iff_iff, Bool.and_eq_true, decide_eq_true_eq, decide_eq_true_eq]
  omega

theorem recent_append_self : recent width now (times ++ [now]) = recent width now times ++ [now] := by
  rw [recent, List.filter_append, List.filter_cons_of_pos (by simp)]
  rfl

/-- A new event makes a window crowded if the one that ends with it is. -/
theorem crowded_append (past : ∀ time ∈ times, time ≤ now) :
    Crowded limit width (times ++ [now]) ↔
      Crowded limit width times ∨ limit < (recent width now (times ++ [now])).length := by
  constructor
  · rintro ⟨start, many⟩
    by_cases inside : start ≤ now ∧ now ≤ start + width
    · refine .inr (Nat.lt_of_lt_of_le many ?_)
      rw [recent, ← List.countP_eq_length_filter, ← List.countP_eq_length_filter]
      refine List.countP_mono_left fun time _ within => ?_
      rw [decide_eq_true_eq] at within ⊢
      omega
    · refine .inl ⟨start, ?_⟩
      rw [List.filter_append, List.filter_cons_of_neg (by simpa using inside)] at many
      rwa [List.filter_nil, List.append_nil] at many
  · rintro (⟨start, many⟩ | many)
    · refine ⟨start, Nat.lt_of_lt_of_le many ?_⟩
      rw [List.filter_append, List.length_append]
      exact Nat.le_add_right _ _
    · refine ⟨now - width, ?_⟩
      have all : ∀ time ∈ times ++ [now], time ≤ now := by
        intro time member
        obtain old | new := List.mem_append.mp member
        · exact past time old
        · exact Nat.le_of_eq (List.mem_singleton.mp new)
      have same : recent width now (times ++ [now]) = (times ++ [now]).filter fun time =>
          now - width ≤ time ∧ time ≤ now - width + width := by
        refine List.filter_congr fun time member => ?_
        have := all time member
        rw [Bool.eq_iff_iff, decide_eq_true_eq, decide_eq_true_eq]
        omega
      rwa [← same]

theorem not_crowded_nil : ¬ Crowded limit width [] := by
  rintro ⟨start, many⟩
  exact absurd many (Nat.not_lt_zero _)

end SlidingWindow
