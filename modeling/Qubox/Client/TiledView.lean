import Mathlib.Data.Nat.Sqrt
import Mathlib.Tactic.IntervalCases
import Qubox.Library.Checked

/-!
# The tiled view

The client shows all streams in one window as a grid of cells. The grid is computed
in 32-bit arithmetic from the number of streams, the size of the window and the
padding; as elsewhere no result stands for a panic. Square root and quotient of
large counts are exact.

A grid that was computed is a packing: what can go wrong is that the padding alone
is larger than the window.
-/

namespace Qubox.Client

open Checked (asI32 asI32_small asI32_large)

structure Point where
  x : Int
  y : Int
  deriving DecidableEq, Repr

structure Size where
  width : Nat
  height : Nat
  deriving DecidableEq, Repr

structure Rect where
  origin : Point
  size : Size
  deriving DecidableEq, Repr

structure GridLayout where
  rows : Nat
  cols : Nat
  cellWidth : Nat
  cellHeight : Nat
  padding : Nat
  deriving DecidableEq, Repr

namespace GridLayout

/-- `(n as f64).sqrt().ceil()`. -/
def ceilSqrt (n : Nat) : Nat := if n.sqrt * n.sqrt = n then n.sqrt else n.sqrt + 1

/-- The numbers of columns and rows for `n` streams. -/
def shape (n : Nat) : Nat × Nat :=
  if n = 1 then (1, 1)
  else if n = 2 then (2, 1)
  else if n ≤ 4 then (2, 2)
  else if n ≤ 6 then (3, 2)
  else if n ≤ 9 then (3, 3)
  else if n ≤ 12 then (4, 3)
  else
    let cols := ceilSqrt n
    (cols, (n + cols - 1) / cols)

/-- `(total - padding * (count + 1)) / count`, along either axis. -/
def cellSize (total padding count : Nat) : Option Nat := do
  let gaps ← Checked.word 32 (padding * (← Checked.word 32 (count + 1)))
  Checked.div (← Checked.sub total gaps) count

def compute (n : Nat) (totalWidth totalHeight padding : UInt32) : Option GridLayout :=
  if n = 0 then
    some {
      rows := 1
      cols := 1
      cellWidth := totalWidth.toNat
      cellHeight := totalHeight.toNat
      padding := padding.toNat }
  else do
    let (cols, rows) := shape n
    let cellWidth ← cellSize totalWidth.toNat padding.toNat cols
    let cellHeight ← cellSize totalHeight.toNat padding.toNat rows
    return { rows, cols, cellWidth, cellHeight, padding := padding.toNat }

/-- `padding as i32 + index as i32 * (cell as i32 + padding as i32)`, along either axis. -/
def cellStart (padding cell index : Nat) : Option Int := do
  let pitch ← Checked.signed 32 (asI32 cell + asI32 padding)
  let shift ← Checked.signed 32 (asI32 index * pitch)
  Checked.signed 32 (asI32 padding + shift)

def cellRect (layout : GridLayout) (row col : Nat) : Option Rect := do
  let x ← cellStart layout.padding layout.cellWidth col
  let y ← cellStart layout.padding layout.cellHeight row
  return { origin := ⟨x, y⟩, size := ⟨layout.cellWidth, layout.cellHeight⟩ }

/-- The cell that `redraw` fills for the stream at an index. -/
def cellOf (layout : GridLayout) (idx : Nat) : Option Rect := do
  let row ← Checked.div idx layout.cols
  layout.cellRect row (idx % layout.cols)

end GridLayout

namespace Rect

/-- The place in the back buffer of one pixel of the cell, as the loops of `redraw`
compute it. -/
def dstIdx (cell : Rect) (stride cy cx : Nat) : Nat :=
  (cell.origin.y.toNat + cy) * stride + (cell.origin.x.toNat + cx)

/-- The loops of `redraw` write to the place, if the back buffer is as long. -/
def Draws (cell : Rect) (stride place : Nat) : Prop :=
  ∃ cy < cell.size.height, ∃ cx < cell.size.width, cell.dstIdx stride cy cx = place

def Within (cell : Rect) (width height : Nat) : Prop :=
  (0 ≤ cell.origin.x ∧ cell.origin.x + cell.size.width ≤ width) ∧
    0 ≤ cell.origin.y ∧ cell.origin.y + cell.size.height ≤ height

def Disjoint (a b : Rect) : Prop :=
  a.origin.x + a.size.width ≤ b.origin.x ∨ b.origin.x + b.size.width ≤ a.origin.x ∨
    a.origin.y + a.size.height ≤ b.origin.y ∨ b.origin.y + b.size.height ≤ a.origin.y

end Rect

/-- The cells of the streams have been computed, lie in the window and do not
overlap, and no pixel of one stream is drawn where another stream is. -/
structure Packs (n : Nat) (width height : UInt32) (layout : GridLayout) : Prop where
  enough : n ≤ layout.rows * layout.cols
  within : ∀ i < n, ∃ cell, layout.cellOf i = some cell ∧ cell.Within width.toNat height.toNat
  disjoint : ∀ i < n, ∀ j < n, i ≠ j → ∀ cell other, layout.cellOf i = some cell →
    layout.cellOf j = some other → cell.Disjoint other
  apart : ∀ i < n, ∀ j < n, i ≠ j → ∀ cell other, layout.cellOf i = some cell →
    layout.cellOf j = some other → ∀ place, cell.Draws width.toNat place →
      ¬ other.Draws width.toNat place

/-- The layout of the streams is computed, and packs them. -/
def Tiles (n : Nat) (width height padding : UInt32) : Prop :=
  ∃ layout, GridLayout.compute n width height padding = some layout ∧ Packs n width height layout

/-- The padding around `count` cells fits, the sum of a cell and the padding is an
`i32` (or the cell alone is none and its cast is negative), and the start of the last
cell is an `i32`; the latter two say nothing about totals below 2^31. -/
def AxisFits (total padding count : Nat) : Prop :=
  padding * (count + 1) ≤ total ∧
    let cell := (total - padding * (count + 1)) / count
    (cell + padding < 2 ^ 31 ∨ 2 ^ 31 ≤ cell) ∧ padding + (count - 1) * (cell + padding) < 2 ^ 31

/-! ## The shape of the grid -/

namespace GridLayout

theorem ceilSqrt_spec {n : Nat} (pos : 0 < n) :
    n ≤ ceilSqrt n * ceilSqrt n ∧ (ceilSqrt n - 1) * (ceilSqrt n - 1) < n ∧ 0 < ceilSqrt n := by
  have below := Nat.sqrt_le n
  have above := Nat.lt_succ_sqrt n
  have some := Nat.sqrt_pos.mpr pos
  rw [ceilSqrt]
  split
  case isTrue square =>
    refine ⟨square.ge, ?_, some⟩
    calc (n.sqrt - 1) * (n.sqrt - 1) ≤ (n.sqrt - 1) * n.sqrt := by
          exact Nat.mul_le_mul_left _ (Nat.sub_le _ _)
      _ < n.sqrt * n.sqrt := Nat.mul_lt_mul_of_pos_right (by omega) some
      _ = n := square
  case isFalse short =>
    rw [Nat.add_sub_cancel]
    exact ⟨above.le, by omega, Nat.succ_pos _⟩

/-- Every column and every row has a cell that is used, and there are cells for
all streams. -/
structure Fair (n cols rows : Nat) : Prop where
  cols_pos : 0 < cols
  cols_le : cols ≤ n
  rows_pos : 0 < rows
  enough : n ≤ rows * cols
  last : (rows - 1) * cols < n
  cols_small : cols ≤ 2 ^ 16
  rows_small : rows ≤ 2 ^ 16

theorem fair_ceilSqrt {n : Nat} (pos : 0 < n) (small : n < 2 ^ 32) :
    Fair n (ceilSqrt n) ((n + ceilSqrt n - 1) / ceilSqrt n) := by
  obtain ⟨above, below, some⟩ := ceilSqrt_spec pos
  generalize ceilSqrt n = cols at above below some ⊢
  have divided := Nat.div_add_mod (n + cols - 1) cols
  have rest := Nat.mod_lt (n + cols - 1) some
  generalize rowsEq : (n + cols - 1) / cols = rows at divided
  rw [Nat.mul_comm] at divided
  have least : cols - 1 ≤ (cols - 1) * (cols - 1) := Nat.le_mul_self _
  have cols_small : cols ≤ 2 ^ 16 := by
    by_contra large
    have scaled := Nat.mul_le_mul (show 2 ^ 16 ≤ cols - 1 by omega)
      (show 2 ^ 16 ≤ cols - 1 by omega)
    omega
  have rows_le : rows ≤ cols := by
    rw [← rowsEq]
    apply (Nat.div_le_iff_le_mul_add_pred some).mpr
    omega
  have rows_pos : 0 < rows := by
    apply Nat.pos_of_ne_zero
    rintro rfl
    omega
  have last : (rows - 1) * cols + cols = rows * cols := by
    rw [← Nat.succ_mul, Nat.succ_eq_add_one, Nat.sub_add_cancel rows_pos]
  exact ⟨some, by omega, rows_pos, by omega, by omega, cols_small, rows_le.trans cols_small⟩

theorem fair_shape {n : Nat} (pos : 0 < n) (small : n < 2 ^ 32) :
    Fair n (shape n).1 (shape n).2 := by
  by_cases large : 12 < n
  · have computed : shape n = (ceilSqrt n, (n + ceilSqrt n - 1) / ceilSqrt n) := by
      rw [shape, if_neg (by omega), if_neg (by omega), if_neg (by omega), if_neg (by omega),
        if_neg (by omega), if_neg (by omega)]
    rw [computed]
    exact fair_ceilSqrt pos small
  · interval_cases n <;> exact ⟨by decide, by decide, by decide, by decide, by decide, by decide,
      by decide⟩

/-! ## One axis -/

theorem cellSize_eq_some {total padding count cell : Nat} (word : total < 2 ^ 32)
    (some : 0 < count) (small : count ≤ 2 ^ 16) :
    cellSize total padding count = .some cell ↔
      padding * (count + 1) ≤ total ∧ (total - padding * (count + 1)) / count = cell := by
  rw [cellSize, Checked.word_eq (show count + 1 < 2 ^ 32 by omega)]
  simp only [Option.bind_eq_bind, Option.bind_some, Option.bind_eq_some_iff, Checked.word_eq_some,
    Checked.sub_eq_some, Checked.div_eq_some]
  constructor
  · rintro ⟨_, ⟨-, rfl⟩, _, ⟨fits, rfl⟩, -, rfl⟩
    exact ⟨fits, rfl⟩
  · rintro ⟨fits, rfl⟩
    exact ⟨_, ⟨by omega, rfl⟩, _, ⟨fits, rfl⟩, some.ne', rfl⟩

/-- Where a cell starts, if its start is an `i32`. -/
theorem cellStart_eq_some {padding cell index : Nat} {x : Int} (low : padding < 2 ^ 31)
    (word : cell < 2 ^ 32) (small : index < 2 ^ 16) (single : index = 0 ∨ cell < 2 ^ 31) :
    cellStart padding cell index = .some x ↔
      ((cell + padding < 2 ^ 31 ∨ 2 ^ 31 ≤ cell) ∧ padding + index * (cell + padding) < 2 ^ 31) ∧
        x = (padding + index * (cell + padding) : Nat) := by
  rw [cellStart, asI32_small low, asI32_small (show index < 2 ^ 31 by omega)]
  simp only [Option.bind_eq_bind, Option.bind_eq_some_iff, Checked.signed_eq_some]
  by_cases short : cell < 2 ^ 31
  · rw [asI32_small short]
    have cast : (index : Int) * (cell + padding) = (index * (cell + padding) : Nat) := by
      push_cast
      rfl
    constructor
    · rintro ⟨_, ⟨⟨-, pitch⟩, rfl⟩, _, ⟨⟨-, shift⟩, rfl⟩, ⟨-, start⟩, rfl⟩
      rw [cast] at start ⊢
      generalize index * (cell + padding) = shifted at start ⊢
      exact ⟨⟨.inl (by omega), by omega⟩, by omega⟩
    · rintro ⟨⟨pitch, start⟩, rfl⟩
      refine ⟨_, ⟨⟨by omega, by omega⟩, rfl⟩, _, ⟨?_, rfl⟩, ?_, ?_⟩
      · rw [cast]
        omega
      · rw [cast]
        omega
      · rw [cast]
        omega
  · obtain rfl : index = 0 := by omega
    rw [asI32_large (by omega) word]
    constructor
    · rintro ⟨_, ⟨-, rfl⟩, _, ⟨-, rfl⟩, -, rfl⟩
      exact ⟨⟨.inr (by omega), by omega⟩, by omega⟩
    · rintro ⟨-, rfl⟩
      exact ⟨_, ⟨⟨by omega, by omega⟩, rfl⟩, _, ⟨⟨by omega, by omega⟩, rfl⟩,
        ⟨by omega, by omega⟩, by omega⟩

/-- The start of the cell at an index is an `i32`. -/
def StartFits (padding cell index : Nat) : Prop :=
  (cell + padding < 2 ^ 31 ∨ 2 ^ 31 ≤ cell) ∧ padding + index * (cell + padding) < 2 ^ 31

theorem StartFits.mono {padding cell index later : Nat} (fits : StartFits padding cell later)
    (before : index ≤ later) : StartFits padding cell index := by
  have scaled := Nat.mul_le_mul_right (cell + padding) before
  exact ⟨fits.1, by have := fits.2; omega⟩

section Axis

variable {total padding count : Nat}

/-- Cells and padding together are no longer than the axis. -/
theorem cells_le (gaps : padding * (count + 1) ≤ total) :
    padding + count * ((total - padding * (count + 1)) / count + padding) ≤ total := by
  have divided := Nat.mul_div_le (total - padding * (count + 1)) count
  rw [Nat.mul_add, Nat.mul_comm count padding]
  rw [Nat.mul_succ] at gaps divided ⊢
  omega

/-- A cell ends where the axis does, or before. -/
theorem end_le (gaps : padding * (count + 1) ≤ total) {index : Nat} (inside : index < count) :
    padding + index * ((total - padding * (count + 1)) / count + padding) +
      (total - padding * (count + 1)) / count ≤ total := by
  have whole := cells_le gaps
  generalize (total - padding * (count + 1)) / count = cell at whole ⊢
  have scaled := Nat.mul_le_mul_right (cell + padding) (Nat.succ_le_of_lt inside)
  rw [Nat.succ_mul] at scaled
  omega

/-- A cell ends where the next one starts, or before. -/
theorem end_le_start {cell index later : Nat} (before : index < later) :
    padding + index * (cell + padding) + cell ≤ padding + later * (cell + padding) := by
  have scaled := Nat.mul_le_mul_right (cell + padding) (Nat.succ_le_of_lt before)
  rw [Nat.succ_mul] at scaled
  omega

/-- Only a single cell can be 2^31 pixels long. -/
theorem single_or_short (gaps : padding * (count + 1) ≤ total) (word : total < 2 ^ 32)
    (some : 0 < count) : count = 1 ∨ (total - padding * (count + 1)) / count < 2 ^ 31 := by
  by_contra both
  obtain ⟨several, long⟩ := not_or.mp both
  have divided := Nat.mul_div_le (total - padding * (count + 1)) count
  have scaled := Nat.mul_le_mul (show 2 ≤ count by omega) (Nat.not_lt.mp long)
  omega

theorem padding_lt (gaps : padding * (count + 1) ≤ total) (word : total < 2 ^ 32)
    (some : 0 < count) : padding < 2 ^ 31 := by
  have scaled := Nat.mul_le_mul_left padding (show 2 ≤ count + 1 by omega)
  omega

/-- Where a cell of the axis starts. -/
theorem axisStart_eq_some (gaps : padding * (count + 1) ≤ total) (word : total < 2 ^ 32)
    (some : 0 < count) (small : count ≤ 2 ^ 16) {index : Nat} (inside : index < count) {x : Int} :
    cellStart padding ((total - padding * (count + 1)) / count) index = .some x ↔
      StartFits padding ((total - padding * (count + 1)) / count) index ∧
        x = (padding + index * ((total - padding * (count + 1)) / count + padding) : Nat) := by
  have short := single_or_short gaps word some
  have quotient := Nat.div_le_self (total - padding * (count + 1)) count
  exact cellStart_eq_some (padding_lt gaps word some) (by omega) (by omega) (by omega)

end Axis

/-! ## The whole grid -/

/-- The layout of `n` streams in a window with room for the padding. -/
def fitted (n width height padding : Nat) : GridLayout where
  rows := (shape n).2
  cols := (shape n).1
  cellWidth := (width - padding * ((shape n).1 + 1)) / (shape n).1
  cellHeight := (height - padding * ((shape n).2 + 1)) / (shape n).2
  padding := padding

/-- The cell at an index, without a bound on where it starts. -/
def placed (layout : GridLayout) (idx : Nat) : Rect where
  origin :=
    ⟨(layout.padding + idx % layout.cols * (layout.cellWidth + layout.padding) : Nat),
      (layout.padding + idx / layout.cols * (layout.cellHeight + layout.padding) : Nat)⟩
  size := ⟨layout.cellWidth, layout.cellHeight⟩

/-- The padding of the columns and the rows is no larger than the window. -/
structure Roomy (n width height padding : Nat) : Prop where
  across : padding * ((shape n).1 + 1) ≤ width
  down : padding * ((shape n).2 + 1) ≤ height

theorem compute_eq_some {n : Nat} {width height padding : UInt32} {layout : GridLayout}
    (pos : 0 < n) (small : n < 2 ^ 32) :
    compute n width height padding = some layout ↔
      Roomy n width.toNat height.toNat padding.toNat ∧
        fitted n width.toNat height.toNat padding.toNat = layout := by
  have fair := fair_shape pos small
  rw [compute, if_neg pos.ne']
  simp only [Option.bind_eq_bind, Option.pure_def, Option.bind_eq_some_iff, Option.some_inj,
    cellSize_eq_some width.toNat_lt fair.cols_pos fair.cols_small,
    cellSize_eq_some height.toNat_lt fair.rows_pos fair.rows_small]
  constructor
  · rintro ⟨_, ⟨across, rfl⟩, _, ⟨down, rfl⟩, rfl⟩
    exact ⟨⟨across, down⟩, rfl⟩
  · rintro ⟨⟨across, down⟩, rfl⟩
    exact ⟨_, ⟨across, rfl⟩, _, ⟨down, rfl⟩, rfl⟩

section Grid

variable {n width height padding : Nat}

theorem Fair.div_lt {cols rows idx : Nat} (fair : Fair n cols rows) (inside : idx < n) :
    idx / cols < rows := by
  apply (Nat.div_lt_iff_lt_mul fair.cols_pos).mpr
  exact inside.trans_le fair.enough

theorem cellOf_eq_some (pos : 0 < n) (small : n < 2 ^ 32) (wide : width < 2 ^ 32)
    (high : height < 2 ^ 32) (roomy : Roomy n width height padding) {idx : Nat} (inside : idx < n)
    {cell : Rect} :
    (fitted n width height padding).cellOf idx = some cell ↔
      (StartFits padding (fitted n width height padding).cellWidth (idx % (shape n).1) ∧
        StartFits padding (fitted n width height padding).cellHeight (idx / (shape n).1)) ∧
      (fitted n width height padding).placed idx = cell := by
  have fair := fair_shape pos small
  simp only [cellOf, cellRect, fitted, Option.bind_eq_bind, Option.pure_def,
    Option.bind_eq_some_iff, Option.some_inj, Checked.div_eq_some]
  constructor
  · rintro ⟨_, ⟨-, rfl⟩, _, across, _, down, rfl⟩
    rw [axisStart_eq_some roomy.across wide fair.cols_pos fair.cols_small
      (Nat.mod_lt _ fair.cols_pos)] at across
    rw [axisStart_eq_some roomy.down high fair.rows_pos fair.rows_small (fair.div_lt inside)] at down
    obtain ⟨left, rfl⟩ := across
    obtain ⟨top, rfl⟩ := down
    exact ⟨⟨left, top⟩, rfl⟩
  · rintro ⟨⟨left, top⟩, rfl⟩
    refine ⟨_, ⟨fair.cols_pos.ne', rfl⟩, _, ?_, _, ?_, rfl⟩
    · apply (axisStart_eq_some roomy.across wide fair.cols_pos fair.cols_small
        (Nat.mod_lt _ fair.cols_pos)).mpr
      exact ⟨left, rfl⟩
    · apply (axisStart_eq_some roomy.down high fair.rows_pos fair.rows_small
        (fair.div_lt inside)).mpr
      exact ⟨top, rfl⟩

theorem placed_within (pos : 0 < n) (small : n < 2 ^ 32) (roomy : Roomy n width height padding)
    {idx : Nat} (inside : idx < n) :
    ((fitted n width height padding).placed idx).Within width height := by
  have fair := fair_shape pos small
  have across := end_le roomy.across (Nat.mod_lt idx fair.cols_pos)
  have down := end_le roomy.down (fair.div_lt inside)
  refine ⟨⟨Int.natCast_nonneg _, ?_⟩, Int.natCast_nonneg _, ?_⟩
  · dsimp only [placed, fitted]
    exact_mod_cast across
  · dsimp only [placed, fitted]
    exact_mod_cast down

/-- Cells of different columns are side by side, the others above each other. -/
theorem placed_disjoint (layout : GridLayout) {i j : Nat} (other : i ≠ j) :
    (layout.placed i).Disjoint (layout.placed j) := by
  dsimp only [Rect.Disjoint, placed]
  rcases lt_trichotomy (i % layout.cols) (j % layout.cols) with before | same | behind
  · exact .inl (by exact_mod_cast end_le_start before)
  · have rows : i / layout.cols ≠ j / layout.cols := by
      intro rows
      apply other
      rw [← Nat.div_add_mod i layout.cols, ← Nat.div_add_mod j layout.cols, rows, same]
    rcases Nat.lt_or_gt_of_ne rows with above | below
    · exact .inr (.inr (.inl (by exact_mod_cast end_le_start above)))
    · exact .inr (.inr (.inr (by exact_mod_cast end_le_start below)))
  · exact .inr (.inl (by exact_mod_cast end_le_start behind))

end Grid

end GridLayout

/-! ## What is drawn -/

namespace Rect

/-- A pixel that is drawn for a cell in the window lies in that cell. -/
theorem Draws.inside {cell : Rect} {width height place : Nat} (within : cell.Within width height)
    (draws : cell.Draws width place) :
    (cell.origin.x ≤ (place % width : Nat) ∧
      (place % width : Nat) < cell.origin.x + cell.size.width) ∧
    cell.origin.y ≤ (place / width : Nat) ∧
      (place / width : Nat) < cell.origin.y + cell.size.height := by
  obtain ⟨cy, above, cx, left, rfl⟩ := draws
  obtain ⟨⟨x_nonneg, across⟩, y_nonneg, down⟩ := within
  have column : cell.origin.x.toNat + cx < width := by omega
  have remainder : cell.dstIdx width cy cx % width = cell.origin.x.toNat + cx := by
    rw [dstIdx, Nat.mul_comm, Nat.mul_add_mod, Nat.mod_eq_of_lt column]
  have quotient : cell.dstIdx width cy cx / width = cell.origin.y.toNat + cy := by
    rw [dstIdx, Nat.mul_comm, Nat.mul_add_div (by omega), Nat.div_eq_of_lt column, Nat.add_zero]
  rw [remainder, quotient]
  omega

theorem Disjoint.apart {a b : Rect} {width height place : Nat} (disjoint : a.Disjoint b)
    (aWithin : a.Within width height) (bWithin : b.Within width height)
    (drawn : a.Draws width place) : ¬ b.Draws width place := by
  intro again
  have first := drawn.inside aWithin
  have second := again.inside bWithin
  simp only [Disjoint] at disjoint
  omega

end Rect

open GridLayout in
/-- With room for the padding, the streams are packed exactly if the starts of the
last column and of the last row are in range. -/
theorem packs_iff {n : Nat} {width height : UInt32} {padding : Nat} (pos : 0 < n)
    (small : n < 2 ^ 32) (roomy : Roomy n width.toNat height.toNat padding) :
    Packs n width height (fitted n width.toNat height.toNat padding) ↔
      StartFits padding (fitted n width.toNat height.toNat padding).cellWidth ((shape n).1 - 1) ∧
      StartFits padding (fitted n width.toNat height.toNat padding).cellHeight
        ((shape n).2 - 1) := by
  have fair := fair_shape pos small
  have cols_pos := fair.cols_pos
  have cell_iff := @cellOf_eq_some n width.toNat height.toNat padding pos small width.toNat_lt
    height.toNat_lt roomy
  constructor
  · intro packs
    constructor
    · have cols_le := fair.cols_le
      obtain ⟨cell, computed, -⟩ := packs.within ((shape n).1 - 1) (by omega)
      have starts := ((cell_iff (by omega)).mp computed).1.1
      rwa [Nat.mod_eq_of_lt (by omega)] at starts
    · obtain ⟨cell, computed, -⟩ := packs.within (((shape n).2 - 1) * (shape n).1) fair.last
      have starts := ((cell_iff fair.last).mp computed).1.2
      rwa [Nat.mul_div_cancel _ cols_pos] at starts
  · rintro ⟨left, top⟩
    have within (i : Nat) (inside : i < n) :=
      @placed_within n width.toNat height.toNat padding pos small roomy i inside
    constructor
    · exact fair.enough
    · intro i inside
      have column := Nat.mod_lt i cols_pos
      have row := fair.div_lt inside
      refine ⟨_, (cell_iff inside).mpr ⟨⟨left.mono (by omega), top.mono (by omega)⟩, rfl⟩, ?_⟩
      exact within i inside
    · intro i inside j insideJ other cell otherCell computed computedJ
      obtain ⟨-, rfl⟩ := (cell_iff inside).mp computed
      obtain ⟨-, rfl⟩ := (cell_iff insideJ).mp computedJ
      exact placed_disjoint _ other
    · intro i inside j insideJ other cell otherCell computed computedJ place drawn
      obtain ⟨-, rfl⟩ := (cell_iff inside).mp computed
      obtain ⟨-, rfl⟩ := (cell_iff insideJ).mp computedJ
      exact (placed_disjoint _ other).apart (within i inside) (within j insideJ) drawn

/-- The streams are tiled exactly if there are none, or the padding fits in both
directions. -/
theorem tiles_iff (n : Nat) (small : n < 2 ^ 32) (width height padding : UInt32) :
    Tiles n width height padding ↔
      n = 0 ∨ AxisFits width.toNat padding.toNat (GridLayout.shape n).1 ∧
        AxisFits height.toNat padding.toNat (GridLayout.shape n).2 := by
  rcases Nat.eq_zero_or_pos n with rfl | pos
  · refine iff_of_true ⟨_, rfl, ?_⟩ (.inl rfl)
    constructor
    · exact Nat.zero_le _
    all_goals
      intro i inside
      exact absurd inside (Nat.not_lt_zero i)
  · constructor
    · rintro ⟨layout, computed, packs⟩
      obtain ⟨roomy, rfl⟩ := (GridLayout.compute_eq_some pos small).mp computed
      obtain ⟨left, top⟩ := (packs_iff pos small roomy).mp packs
      exact .inr ⟨⟨roomy.across, left⟩, roomy.down, top⟩
    · rintro (rfl | ⟨⟨across, left⟩, down, top⟩)
      · exact absurd pos (Nat.lt_irrefl 0)
      · have roomy : GridLayout.Roomy n width.toNat height.toNat padding.toNat := ⟨across, down⟩
        refine ⟨_, (GridLayout.compute_eq_some pos small).mpr ⟨roomy, rfl⟩, ?_⟩
        exact (packs_iff pos small roomy).mpr ⟨left, top⟩

namespace Sample

/-- Four streams in a window of the usual size. -/
theorem four_tile : Tiles 4 1920 1080 4 :=
  (tiles_iff 4 (by decide) 1920 1080 4).mpr
    (.inr ⟨⟨by decide, .inl (by decide), by decide⟩, by decide, .inl (by decide), by decide⟩)

/-- One stream in a window that is narrower than the padding on both sides. -/
theorem narrow_not_tiles :
    ¬ ∀ n < 2 ^ 32, ∀ width height padding : UInt32, Tiles n width height padding := by
  intro tiles
  obtain ⟨layout, computed, -⟩ := tiles 1 (by decide) 7 480 4
  have underflows : GridLayout.compute 1 7 480 4 = none := by decide
  rw [underflows] at computed
  contradiction

end Sample

end Qubox.Client
