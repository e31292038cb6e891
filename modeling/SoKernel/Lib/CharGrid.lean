import Mathlib.Tactic
import Mathlib.Logic.Function.Basic

namespace SoKernel.Lib

universe u

/-! ## A terminal of cells

Characters go to the cell of the cursor; the last row is followed by a scroll. -/

structure CharGrid (α : Type u) where
  cell : Nat → Nat → Option α
  row : Nat
  column : Nat

namespace CharGrid

variable {α : Type u}

def clear : CharGrid α := ⟨fun _ _ => none, 0, 0⟩

def set (grid : CharGrid α) (content : Option α) : CharGrid α :=
  { grid with
    cell := fun r c => if r = grid.row ∧ c = grid.column then content else grid.cell r c }

variable (rows columns : Nat)

def newline (grid : CharGrid α) : CharGrid α :=
  if grid.row + 1 < rows then { grid with row := grid.row + 1, column := 0 }
  else { grid with cell := fun r c => grid.cell (r + 1) c, column := 0 }

/-- A full row is ended before anything else is put. -/
def wrap (grid : CharGrid α) : CharGrid α :=
  if grid.column < columns then grid else grid.newline rows

def advance (content : Option α) (grid : CharGrid α) : CharGrid α :=
  { grid.set content with column := grid.column + 1 }

def put (content : Option α) (grid : CharGrid α) : CharGrid α :=
  (grid.wrap rows columns).advance content

/-- The cell before the cursor; before the first one of a row, the last one of the row above. -/
def back (grid : CharGrid α) : CharGrid α :=
  if grid.column = 0 then
    if 0 < grid.row then { grid with row := grid.row - 1, column := columns - 1 } else grid
  else { grid with column := grid.column - 1 }

def rubout (grid : CharGrid α) : CharGrid α := (grid.back columns).set none

/-- The cursor is on the grid, and nothing was put where it still has to go. -/
structure Ordered (grid : CharGrid α) : Prop where
  row : grid.row < rows
  column : grid.column ≤ columns
  ahead : ∀ r c, grid.row < r ∨ (r = grid.row ∧ grid.column ≤ c) → grid.cell r c = none
  narrow : ∀ r c, columns ≤ c → grid.cell r c = none

variable {rows columns} {grid : CharGrid α} {content : Option α}

theorem clear_ordered (some : 0 < rows) : Ordered rows columns (clear : CharGrid α) where
  row := some
  column := Nat.zero_le columns
  ahead _ _ _ := rfl
  narrow _ _ _ := rfl

theorem Ordered.newline (ordered : Ordered rows columns grid) :
    Ordered rows columns (grid.newline rows) := by
  have row := ordered.row
  unfold CharGrid.newline
  split
  · rename_i below
    refine ⟨below, Nat.zero_le columns, fun r c later => ordered.ahead r c (.inl ?_),
      ordered.narrow⟩
    dsimp only at later
    omega
  · refine ⟨row, Nat.zero_le columns, fun r c later => ordered.ahead (r + 1) c (.inl ?_),
      fun r c => ordered.narrow (r + 1) c⟩
    dsimp only at later
    omega

theorem Ordered.wrap (ordered : Ordered rows columns grid) (some : 0 < columns) :
    Ordered rows columns (grid.wrap rows columns) ∧
      (grid.wrap rows columns).column < columns := by
  unfold CharGrid.wrap
  split
  · rename_i inside
    exact ⟨ordered, inside⟩
  · refine ⟨ordered.newline, ?_⟩
    unfold CharGrid.newline
    split <;> exact some

theorem Ordered.advance (ordered : Ordered rows columns grid) (inside : grid.column < columns) :
    Ordered rows columns (grid.advance content) where
  row := ordered.row
  column := inside
  ahead r c later := by
    simp only [CharGrid.advance, set] at later ⊢
    rw [if_neg (by omega)]
    exact ordered.ahead r c (by omega)
  narrow r c right := by
    simp only [CharGrid.advance, set]
    rw [if_neg (by omega)]
    exact ordered.narrow r c right

theorem Ordered.put (ordered : Ordered rows columns grid) (some : 0 < columns) :
    Ordered rows columns (grid.put rows columns content) :=
  (ordered.wrap some).1.advance (ordered.wrap some).2

theorem back_cell : (grid.back columns).cell = grid.cell := by
  unfold CharGrid.back
  split
  · split <;> rfl
  · rfl

/-- The cell that is stepped back to is the last one before what is blank. -/
theorem Ordered.back (ordered : Ordered rows columns grid) (some : 0 < columns) :
    (grid.back columns).row < rows ∧ (grid.back columns).column < columns ∧
      ∀ r c, (grid.back columns).row < r ∨
        (r = (grid.back columns).row ∧ (grid.back columns).column < c) → grid.cell r c = none := by
  have row := ordered.row
  have column := ordered.column
  unfold CharGrid.back
  split
  · split
    · refine ⟨by dsimp only; omega, by dsimp only; omega, fun r c later => ?_⟩
      dsimp only at later
      by_cases right : columns ≤ c
      · exact ordered.narrow r c right
      · exact ordered.ahead r c (by omega)
    · exact ⟨row, by omega, fun r c later => ordered.ahead r c (by omega)⟩
  · refine ⟨row, by dsimp only; omega, fun r c later => ?_⟩
    dsimp only at later
    exact ordered.ahead r c (by omega)

theorem Ordered.rubout (ordered : Ordered rows columns grid) (some : 0 < columns) :
    Ordered rows columns (grid.rubout columns) := by
  obtain ⟨row, column, blank⟩ := ordered.back some
  refine ⟨row, Nat.le_of_lt column, fun r c later => ?_, fun r c right => ?_⟩
  · simp only [CharGrid.rubout, set, back_cell] at later ⊢
    split
    · rfl
    · exact blank r c (by omega)
  · simp only [CharGrid.rubout, set, back_cell]
    split
    · rfl
    · exact ordered.narrow r c right

end CharGrid
end SoKernel.Lib
