import Mathlib.Data.List.Basic

/-!
# Cutting a stream at marks

A stream is cut at the positions that a scanner marks in it. The scanner sees only a
buffer, which grows at its end and is cut at its start, so its marks have to be stable:
more input does not change the marks of what is there, and what comes before a mark does
not matter for the marks from there on. `drain` takes the finished pieces out of a
buffer. By `drain_append` it does not matter when it is called.
-/

structure Marks (α : Type) where
  marks : List α → List Nat
  lt_length : ∀ s, ∀ p ∈ marks s, p < s.length
  sorted : ∀ s, (marks s).Pairwise (· < ·)
  stable : ∀ s t, marks s <+: marks (s ++ t)
  drop : ∀ s, ∀ p ∈ marks s, ∃ before,
    marks s = before ++ (marks (s.drop p)).map (p + ·) ∧ ∀ q ∈ before, q < p

namespace Marks

variable {α : Type} (M : Marks α)

theorem lt_length_of_cons {s : List α} {p : Nat} {others : List Nat}
    (found : M.marks s = p :: others) : p < s.length :=
  M.lt_length s p (found ▸ List.mem_cons_self)

theorem pos_of_second {s : List α} {p q : Nat} {others : List Nat}
    (found : M.marks s = p :: q :: others) : 0 < q := by
  have sorted := M.sorted s
  rw [found] at sorted
  exact Nat.zero_lt_of_lt (List.rel_of_pairwise_cons sorted List.mem_cons_self)

/-- The pieces between marks at the start of the buffer, and what stays in the buffer: what comes
before the first mark is dropped. -/
def drain (buffer : List α) : List (List α) × List α :=
  match _found : M.marks buffer with
  | [] => ([], buffer)
  | [first] => if first > 0 then drain (buffer.drop first) else ([], buffer)
  | first :: next :: _ =>
      if first > 0 then drain (buffer.drop first)
      else (buffer.take next :: (drain (buffer.drop next)).1, (drain (buffer.drop next)).2)
  termination_by buffer.length
  decreasing_by
    · have := M.lt_length_of_cons _found
      rw [List.length_drop]
      omega
    · have := M.lt_length_of_cons _found
      rw [List.length_drop]
      omega
    · have := M.lt_length_of_cons _found
      have := M.pos_of_second _found
      rw [List.length_drop]
      omega

theorem drain_nil {buffer : List α} (found : M.marks buffer = []) :
    M.drain buffer = ([], buffer) := by
  rw [drain]
  split <;> simp_all

theorem drain_skip {buffer : List α} {first : Nat} {others : List Nat}
    (found : M.marks buffer = first :: others) (pos : first > 0) :
    M.drain buffer = M.drain (buffer.drop first) := by
  rw [drain]
  split <;> simp_all

theorem drain_wait {buffer : List α} (found : M.marks buffer = [0]) :
    M.drain buffer = ([], buffer) := by
  rw [drain]
  split <;> simp_all

theorem drain_cut {buffer : List α} {next : Nat} {others : List Nat}
    (found : M.marks buffer = 0 :: next :: others) :
    M.drain buffer =
      (buffer.take next :: (M.drain (buffer.drop next)).1, (M.drain (buffer.drop next)).2) := by
  rw [drain]
  split <;> simp_all

/-- The four cases of a round, with what is left to do in the two that go on. -/
theorem drain_induction {P : List α → Prop}
    (nil : ∀ s, M.marks s = [] → P s)
    (skip : ∀ s first others, M.marks s = first :: others → first > 0 → P (s.drop first) → P s)
    (wait : ∀ s, M.marks s = [0] → P s)
    (cut : ∀ s next others, M.marks s = 0 :: next :: others → P (s.drop next) → P s)
    (s : List α) : P s := by
  induction h : s.length using Nat.strongRecOn generalizing s with
  | ind length ih =>
      subst h
      match found : M.marks s with
      | [] => exact nil s found
      | first :: others =>
          have short := M.lt_length_of_cons found
          by_cases pos : first > 0
          · apply skip s first others found pos
            exact ih _ (by rw [List.length_drop]; omega) _ rfl
          · obtain rfl : first = 0 := Nat.eq_zero_of_not_pos pos
            match others with
            | [] => exact wait s found
            | next :: others =>
                have := M.pos_of_second found
                apply cut s next others found
                exact ih _ (by rw [List.length_drop]; omega) _ rfl

theorem marks_append {s : List α} {p : Nat} {others : List Nat} (found : M.marks s = p :: others)
    (t : List α) : ∃ more, M.marks (s ++ t) = p :: (others ++ more) := by
  obtain ⟨more, whole⟩ := M.stable s t
  exact ⟨more, by rw [← whole, found, List.cons_append]⟩

/-- Draining what is there first, and the rest when more has come, gives the same pieces. -/
theorem drain_append (s t : List α) :
    M.drain (s ++ t) =
      ((M.drain s).1 ++ (M.drain ((M.drain s).2 ++ t)).1, (M.drain ((M.drain s).2 ++ t)).2) := by
  induction s using M.drain_induction with
  | nil s found => rw [M.drain_nil found, List.nil_append]
  | wait s found => rw [M.drain_wait found, List.nil_append]
  | skip s first others found pos ih =>
      obtain ⟨more, whole⟩ := M.marks_append found t
      have inside := M.lt_length_of_cons found
      rw [M.drain_skip whole pos, M.drain_skip found pos,
        List.drop_append_of_le_length (Nat.le_of_lt inside), ih]
  | cut s next others found ih =>
      obtain ⟨more, whole⟩ := M.marks_append found t
      have inside : next < s.length := M.lt_length s next (by simp [found])
      rw [M.drain_cut whole, M.drain_cut found,
        List.drop_append_of_le_length (Nat.le_of_lt inside),
        List.take_append_of_le_length (Nat.le_of_lt inside), ih, List.cons_append]

/-- What stays in the buffer holds no finished piece. -/
theorem drain_drain (s : List α) : M.drain (M.drain s).2 = ([], (M.drain s).2) := by
  have twice := M.drain_append s []
  rw [List.append_nil, List.append_nil] at twice
  have pieces := congrArg Prod.fst twice
  have rest := congrArg Prod.snd twice
  exact Prod.ext (List.self_eq_append_right.mp pieces) rest.symm

/-! ## The pieces -/

/-- The stream from its first mark on, or all of it if there is none. -/
def fromFirst (s : List α) : List α :=
  match M.marks s with
  | [] => s
  | first :: _ => s.drop first

theorem fromFirst_cons {s : List α} {first : Nat} {others : List Nat}
    (found : M.marks s = first :: others) : M.fromFirst s = s.drop first := by
  rw [fromFirst, found]

/-- Cut at a mark, the stream starts with a mark. -/
theorem marks_drop {s : List α} {p : Nat} (member : p ∈ M.marks s) :
    ∃ others, M.marks (s.drop p) = 0 :: others := by
  obtain ⟨before, split, less⟩ := M.drop s p member
  rw [split] at member
  have later : p ∈ (M.marks (s.drop p)).map (p + ·) := by
    refine (List.mem_append.mp member).resolve_left fun early => ?_
    exact absurd (less p early) (Nat.lt_irrefl p)
  obtain ⟨q, found, same⟩ := List.mem_map.mp later
  obtain rfl : q = 0 := by omega
  match marked : M.marks (s.drop p) with
  | [] => exact absurd (marked ▸ found) List.not_mem_nil
  | first :: others =>
      have sorted := M.sorted (s.drop p)
      rw [marked] at found sorted
      obtain rfl | tail := List.mem_cons.mp found
      · exact ⟨others, rfl⟩
      · exact absurd (List.rel_of_pairwise_cons sorted tail) (Nat.not_lt_zero first)

theorem fromFirst_drop {s : List α} {p : Nat} (member : p ∈ M.marks s) :
    M.fromFirst (s.drop p) = s.drop p := by
  obtain ⟨others, found⟩ := M.marks_drop member
  rw [M.fromFirst_cons found, List.drop_zero]

/-- Nothing is lost from the first mark on. -/
theorem flatten_drain (s : List α) :
    (M.drain s).1.flatten ++ (M.drain s).2 = M.fromFirst s := by
  induction s using M.drain_induction with
  | nil s found => rw [M.drain_nil found, fromFirst, found, List.flatten_nil, List.nil_append]
  | wait s found =>
      rw [M.drain_wait found, M.fromFirst_cons found, List.flatten_nil, List.nil_append,
        List.drop_zero]
  | skip s first others found pos ih =>
      rw [M.drain_skip found pos, ih, M.fromFirst_cons found,
        M.fromFirst_drop (found ▸ List.mem_cons_self)]
  | cut s next others found ih =>
      have member : next ∈ M.marks s := by simp [found]
      rw [M.drain_cut found, List.flatten_cons, List.append_assoc, ih, M.fromFirst_drop member,
        M.fromFirst_cons found, List.take_append_drop, List.drop_zero]

/-- A piece goes from a mark of the stream to the next one, or to the end. -/
structure Piece (s piece : List α) (p q : Nat) : Prop where
  mark : p ∈ M.marks s
  less : p < q
  ends : q = s.length ∨ q ∈ M.marks s
  cut : piece = (s.drop p).take (q - p)
  alone : ∀ r ∈ M.marks s, p < r → q ≤ r

/-- A mark of the stream from another mark on is a mark of the stream. -/
theorem mem_marks_of_drop {s : List α} {p q : Nat} (member : p ∈ M.marks s)
    (found : q ∈ M.marks (s.drop p)) : p + q ∈ M.marks s := by
  obtain ⟨before, split, -⟩ := M.drop s p member
  rw [split]
  exact List.mem_append_right _ (List.mem_map_of_mem found)

theorem Piece.of_drop {s piece : List α} {from' p q : Nat} (member : from' ∈ M.marks s)
    (inside : M.Piece (s.drop from') piece p q) : M.Piece s piece (from' + p) (from' + q) where
  mark := M.mem_marks_of_drop member inside.mark
  less := Nat.add_lt_add_left inside.less from'
  ends := by
    have short := M.lt_length s from' member
    obtain finish | marked := inside.ends
    · rw [List.length_drop] at finish
      exact .inl (by omega)
    · exact .inr (M.mem_marks_of_drop member marked)
  cut := by rw [inside.cut, List.drop_drop, Nat.add_sub_add_left]
  alone := by
    intro r found beyond
    obtain ⟨before, split, less⟩ := M.drop s from' member
    rw [split] at found
    obtain early | late := List.mem_append.mp found
    · have := less r early
      omega
    · obtain ⟨r', found', rfl⟩ := List.mem_map.mp late
      exact Nat.add_le_add_left (inside.alone r' found' (by omega)) from'

theorem piece_first {s : List α} {next : Nat} {others : List Nat}
    (found : M.marks s = 0 :: next :: others) : M.Piece s (s.take next) 0 next where
  mark := by simp [found]
  less := M.pos_of_second found
  ends := .inr (by simp [found])
  cut := rfl
  alone := by
    intro r marked beyond
    have sorted := M.sorted s
    rw [found] at marked sorted
    obtain rfl | marked := List.mem_cons.mp marked
    · exact absurd beyond (Nat.lt_irrefl 0)
    · obtain rfl | marked := List.mem_cons.mp marked
      · exact Nat.le_refl r
      · exact Nat.le_of_lt (List.rel_of_pairwise_cons sorted.of_cons marked)

theorem piece_of_drain {s piece : List α} (marked : M.marks s ≠ [])
    (member : piece ∈ (M.drain s).1 ++ [(M.drain s).2]) : ∃ p q, M.Piece s piece p q := by
  induction s using M.drain_induction with
  | nil s found => exact absurd found marked
  | wait s found =>
      rw [M.drain_wait found, List.nil_append, List.mem_singleton] at member
      have start : 0 ∈ M.marks s := by simp [found]
      refine ⟨0, s.length, start, M.lt_length s 0 start, .inl rfl, ?_, ?_⟩
      · rw [member, List.drop_zero, Nat.sub_zero, List.take_length]
      · intro r marked beyond
        rw [found, List.mem_singleton] at marked
        omega
  | skip s first others found pos ih =>
      rw [M.drain_skip found pos] at member
      have first_mem : first ∈ M.marks s := found ▸ List.mem_cons_self
      obtain ⟨others', found'⟩ := M.marks_drop first_mem
      obtain ⟨p, q, inside⟩ := ih (by simp [found']) member
      exact ⟨_, _, .of_drop M first_mem inside⟩
  | cut s next others found ih =>
      rw [M.drain_cut found, List.cons_append] at member
      have next_mem : next ∈ M.marks s := by simp [found]
      obtain rfl | later := List.mem_cons.mp member
      · exact ⟨0, next, M.piece_first found⟩
      · obtain ⟨others', found'⟩ := M.marks_drop next_mem
        obtain ⟨p, q, inside⟩ := ih (by simp [found']) later
        exact ⟨_, _, .of_drop M next_mem inside⟩

/-- Within a piece taken alone, only its start is marked. -/
theorem Piece.marks_eq_zero {s piece : List α} {p q : Nat} (inside : M.Piece s piece p q) :
    ∀ r ∈ M.marks piece, r = 0 := by
  intro r marked
  have short := M.lt_length piece r marked
  have there : r ∈ M.marks (s.drop p) := by
    rw [← List.take_append_drop (q - p) (s.drop p), ← inside.cut]
    exact (M.stable piece _).subset marked
  by_contra nonzero
  have := inside.alone (p + r) (M.mem_marks_of_drop inside.mark there) (by omega)
  have : piece.length ≤ q - p := by
    rw [inside.cut]
    exact List.length_take_le _ _
  omega

end Marks
