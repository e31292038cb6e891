import SoKernel.Lib.CharGrid

namespace SoKernel.Lib

universe u

/-! ## A roll of paper

A terminal without end: lines of a limited width, of which a terminal of cells shows the last. -/

/-- The lines that are full or ended, and the one that is being written. -/
structure Roll (α : Type u) where
  done : List (List α)
  current : List α

namespace Roll

variable {α : Type u}

def blank : Roll α := ⟨[], []⟩

def newline (roll : Roll α) : Roll α := ⟨roll.done ++ [roll.current], []⟩

def append (roll : Roll α) (a : α) : Roll α := { roll with current := roll.current ++ [a] }

/-- A full line is ended before anything else is written. -/
def put (columns : Nat) (roll : Roll α) (a : α) : Roll α :=
  (if roll.current.length < columns then roll else roll.newline).append a

def lines (roll : Roll α) : List (List α) := roll.done ++ [roll.current]

/-- The last lines, on a terminal of so many rows. -/
def shown (rows : Nat) (roll : Roll α) : CharGrid α where
  cell r c := (roll.lines[roll.lines.length - rows + r]?).bind fun text => text[c]?
  row := min roll.lines.length rows - 1
  column := roll.current.length

variable {roll : Roll α} {rows columns : Nat} {a : α}

theorem lines_length : roll.lines.length = roll.done.length + 1 := by
  unfold lines
  rw [List.length_append, List.length_singleton]

/-- Nothing is lost, and the order is kept. -/
theorem newline_flatten : roll.newline.lines.flatten = roll.lines.flatten := by
  simp [newline, lines]

theorem append_flatten : (roll.append a).lines.flatten = roll.lines.flatten ++ [a] := by
  simp [append, lines]

theorem put_flatten : (roll.put columns a).lines.flatten = roll.lines.flatten ++ [a] := by
  unfold put
  rw [append_flatten]
  split
  · rfl
  · rw [newline_flatten]

/-! ## What the terminal does -/

theorem shown_blank : (blank : Roll α).shown rows = .clear := by
  have row : min (blank : Roll α).lines.length rows - 1 = 0 := by
    simp [blank, lines]
  unfold shown CharGrid.clear
  rw [row]
  congr 1
  funext r c
  cases index : (blank : Roll α).lines.length - rows + r with
  | zero => rfl
  | succ i => rfl

/-- An empty line at the end shows nothing. -/
theorem cell_empty {lines : List (List α)} (i c : Nat) :
    ((lines ++ [[]])[i]?).bind (fun text => text[c]?) = (lines[i]?).bind fun text => text[c]? := by
  rcases Nat.lt_trichotomy i lines.length with inside | same | outside
  · rw [List.getElem?_append_left inside]
  · rw [same]
    simp
  · rw [List.getElem?_eq_none (by simp; omega), List.getElem?_eq_none (by omega)]

theorem shown_newline : (roll.shown rows).newline rows = roll.newline.shown rows := by
  have length : roll.newline.lines.length = roll.lines.length + 1 := by
    rw [lines_length, lines_length]
    simp [newline]
  have some : 0 < roll.lines.length := by
    rw [lines_length]
    exact Nat.succ_pos _
  unfold CharGrid.newline
  split
  · rename_i below
    change min roll.lines.length rows - 1 + 1 < rows at below
    unfold shown
    congr 1
    · funext r c
      rw [length, show roll.lines.length + 1 - rows + r = roll.lines.length - rows + r by omega]
      exact (cell_empty _ _).symm
    · dsimp only
      omega
  · rename_i bottom
    change ¬ min roll.lines.length rows - 1 + 1 < rows at bottom
    unfold shown
    congr 1
    · funext r c
      rw [length, show roll.lines.length + 1 - rows + r = roll.lines.length - rows + (r + 1) by omega]
      exact (cell_empty _ _).symm
    · dsimp only
      omega

theorem shown_append (some : 0 < rows) :
    (roll.shown rows).advance (.some a) = (roll.append a).shown rows := by
  have length : (roll.append a).lines.length = roll.lines.length := by
    rw [lines_length, lines_length]
    rfl
  have count : roll.lines.length = roll.done.length + 1 := lines_length
  unfold CharGrid.advance CharGrid.set shown
  dsimp only
  congr 1
  · funext r c
    rw [length]
    generalize place : roll.lines.length - rows + r = i
    have here : r = min roll.lines.length rows - 1 ↔ i = roll.done.length := by omega
    simp only [here]
    unfold lines append
    dsimp only
    rcases Nat.lt_trichotomy i roll.done.length with before | same | behind
    · rw [if_neg (by omega), List.getElem?_append_left before, List.getElem?_append_left before]
    · subst same
      simp only [true_and, List.getElem?_concat_length, Option.bind_some]
      split
      · rename_i last
        rw [last, List.getElem?_concat_length]
      · rename_i other
        rcases Nat.lt_or_gt_of_ne other with inside | outside
        · rw [List.getElem?_append_left inside]
        · rw [List.getElem?_eq_none (by omega), List.getElem?_eq_none (by simp; omega)]
    · rw [if_neg (by omega), List.getElem?_eq_none (by simp; omega),
        List.getElem?_eq_none (by simp; omega)]
  · rw [length]
  · simp [append]

/-- What the terminal does to its cells, the roll does to its lines. -/
theorem shown_put (some : 0 < rows) :
    (roll.shown rows).put rows columns (.some a) = (roll.put columns a).shown rows := by
  unfold CharGrid.put CharGrid.wrap put
  split
  · rename_i inside
    change roll.current.length < columns at inside
    rw [if_pos inside]
    exact shown_append some
  · rename_i full
    change ¬ roll.current.length < columns at full
    rw [if_neg full, shown_newline]
    exact shown_append some

end Roll
end SoKernel.Lib
