import Mathlib.Tactic

namespace SoKernel.Lib.RowMajor

/-! ## Cells in rows

Rows of `pitch` places, cells of `unit` places; a row may be longer than its cells. -/

variable {unit pitch width height x y a b : Nat}

def place (unit pitch x y : Nat) : Nat := x * unit + y * pitch

/-- A cell ends where its row does, or before. -/
theorem place_row (room : width * unit ≤ pitch) (inside : x < width) :
    place unit pitch x y + unit ≤ (y + 1) * pitch := by
  have cells : (x + 1) * unit ≤ width * unit := Nat.mul_le_mul_right unit inside
  rw [Nat.succ_mul] at cells
  rw [place, Nat.succ_mul]
  omega

theorem place_lt (room : width * unit ≤ pitch) (inside : x < width) (inside' : y < height) :
    place unit pitch x y + unit ≤ height * pitch := by
  have row := place_row (y := y) room inside
  have rows : (y + 1) * pitch ≤ height * pitch := Nat.mul_le_mul_right pitch inside'
  omega

theorem place_below (room : width * unit ≤ pitch) (inside : x < width) (above : y < b) :
    place unit pitch x y + unit ≤ place unit pitch a b := by
  have row := place_row (y := y) room inside
  have rows : (y + 1) * pitch ≤ b * pitch := Nat.mul_le_mul_right pitch above
  rw [place, place] at *
  omega

theorem place_left (before : x < a) : place unit pitch x y + unit ≤ place unit pitch a y := by
  have cells : (x + 1) * unit ≤ a * unit := Nat.mul_le_mul_right unit before
  rw [Nat.succ_mul] at cells
  rw [place, place]
  omega

/-- Two cells share no place. -/
theorem place_apart (room : width * unit ≤ pitch) (inside : x < width) (inside' : a < width)
    (different : ¬ (a = x ∧ b = y)) :
    place unit pitch x y + unit ≤ place unit pitch a b ∨
      place unit pitch a b + unit ≤ place unit pitch x y := by
  rcases Nat.lt_trichotomy y b with above | same | below
  · exact .inl (place_below room inside above)
  · subst same
    rcases Nat.lt_trichotomy x a with left | same | right
    · exact .inl (place_left left)
    · exact absurd ⟨same.symm, rfl⟩ different
    · exact .inr (place_left right)
  · exact .inr (place_below room inside' below)

end SoKernel.Lib.RowMajor
