import Mathlib.Data.List.Infix
import Mathlib.Tactic.Common

namespace SoKernel.Lib

universe u

variable {α : Type u} [DecidableEq α] {erase c : α} {line typed keys : List α} {full n : Nat}

/-! ## Lines

A key goes to the end of the line; `erase` takes the last one away. -/

def edit (erase : α) (line : List α) (c : α) : List α :=
  if c = erase then line.dropLast else line ++ [c]

def edited (erase : α) (keys : List α) : List α := keys.foldl (edit erase) []

/-- The keys up to the first time that the line has `full` characters. -/
def untilFull (erase : α) (full : Nat) : List α → List α → List α
  | _, [] => []
  | line, c :: keys =>
    if line.length < full then c :: untilFull erase full (edit erase line c) keys else []

theorem untilFull_of_full (fully : ¬ line.length < full) : untilFull erase full line keys = [] := by
  cases keys with
  | nil => rfl
  | cons c keys => rw [untilFull, if_neg fully]

/-- Only a full line leaves keys over. -/
theorem untilFull_of_short
    (short : ((untilFull erase full line keys).foldl (edit erase) line).length < full) :
    untilFull erase full line keys = keys := by
  induction keys generalizing line with
  | nil => rfl
  | cons c keys ih =>
    by_cases room : line.length < full
    · rw [untilFull, if_pos room, List.foldl_cons] at short
      rw [untilFull, if_pos room, ih short]
    · rw [untilFull_of_full room] at short
      exact absurd short room

theorem untilFull_start : untilFull erase full line keys <+: keys := by
  induction keys generalizing line with
  | nil => exact List.prefix_rfl
  | cons c keys ih =>
    by_cases room : line.length < full
    · rw [untilFull, if_pos room]
      exact List.cons_prefix_cons.mpr ⟨rfl, ih⟩
    · rw [untilFull_of_full room]
      exact List.nil_prefix

theorem edit_length : (edit erase line c).length ≤ line.length + 1 := by
  unfold edit
  split
  · rw [List.length_dropLast]
    omega
  · rw [List.length_append, List.length_singleton]

theorem untilFull_length (small : line.length ≤ full) :
    ((untilFull erase full line keys).foldl (edit erase) line).length ≤ full := by
  induction keys generalizing line with
  | nil => exact small
  | cons c keys ih =>
    by_cases room : line.length < full
    · have grown : (edit erase line c).length ≤ line.length + 1 := edit_length
      rw [untilFull, if_pos room, List.foldl_cons]
      exact ih (by omega)
    · rw [untilFull_of_full room]
      exact small

/-! ## What a line leaves behind -/

/-- A line, and the erased characters behind it whose places no later ones have taken. -/
structure Edited (α : Type u) where
  line : List α
  erased : List α

namespace Edited

variable {e : Edited α} {P : α → Prop}

def press (erase : α) (e : Edited α) (c : α) : Edited α :=
  if c = erase then ⟨e.line.dropLast, e.line.getLast?.toList ++ e.erased⟩
  else ⟨e.line ++ [c], e.erased.tail⟩

def type (erase : α) (e : Edited α) (keys : List α) : Edited α := keys.foldl (press erase) e

theorem press_line : (e.press erase c).line = edit erase e.line c := by
  unfold press edit
  split <;> rfl

theorem type_line : (e.type erase keys).line = keys.foldl (edit erase) e.line := by
  induction keys generalizing e with
  | nil => rfl
  | cons c keys ih => rw [List.foldl_cons, ← press_line]; exact ih

/-- As long as the line has ever been. -/
def width (e : Edited α) : Nat := e.line.length + e.erased.length

theorem press_width :
    (e.press erase c).width = max e.width (e.press erase c).line.length := by
  obtain ⟨line, erased⟩ := e
  unfold press width
  split
  · cases line using List.reverseRecOn with
    | nil => simp
    | append_singleton line a => simp; omega
  · cases erased with
    | nil => simp
    | cons a erased => simp; omega

theorem type_width_le : (e.type erase keys).width ≤ n ↔
    e.width ≤ n ∧ ∀ typed, typed <+: keys → (typed.foldl (edit erase) e.line).length ≤ n := by
  induction keys generalizing e with
  | nil =>
    constructor
    · intro narrow
      refine ⟨narrow, fun typed start => ?_⟩
      rw [List.prefix_nil.mp start]
      exact le_trans (Nat.le_add_right _ _) narrow
    · exact And.left
  | cons c keys ih =>
    have later : (e.type erase (c :: keys)).width = ((e.press erase c).type erase keys).width := rfl
    rw [later, ih, press_width, press_line]
    constructor
    · rintro ⟨wide, all⟩
      refine ⟨le_trans (le_max_left _ _) wide, fun typed start => ?_⟩
      rcases List.prefix_cons_iff.mp start with rfl | ⟨rest, rfl, further⟩
      · exact le_trans (Nat.le_add_right _ _) (le_trans (le_max_left _ _) wide)
      · exact all rest further
    · rintro ⟨wide, all⟩
      refine ⟨max_le wide (all [c] ⟨keys, rfl⟩), fun typed start => ?_⟩
      exact all (c :: typed) (List.cons_prefix_cons.mpr ⟨rfl, start⟩)

/-- Only keys are in it. -/
theorem press_all (before : ∀ a ∈ e.line ++ e.erased, P a) (key : P c) :
    ∀ a ∈ (e.press erase c).line ++ (e.press erase c).erased, P a := by
  obtain ⟨line, erased⟩ := e
  intro a member
  unfold press at member
  split at member
  · cases line using List.reverseRecOn with
    | nil => exact before a (by simpa using member)
    | append_singleton line b => exact before a (by simpa using member)
  · rcases List.mem_append.mp member with inLine | behind
    · rcases List.mem_append.mp inLine with old | new
      · exact before a (List.mem_append_left _ old)
      · rw [List.mem_singleton.mp new]
        exact key
    · exact before a (List.mem_append_right _ (List.mem_of_mem_tail behind))

theorem type_all (before : ∀ a ∈ e.line ++ e.erased, P a) (pressed : ∀ c ∈ keys, P c) :
    ∀ a ∈ (e.type erase keys).line ++ (e.type erase keys).erased, P a := by
  induction keys generalizing e with
  | nil => exact before
  | cons c keys ih =>
    exact ih (press_all before (pressed c (List.mem_cons_self ..)))
      fun a member => pressed a (List.mem_cons_of_mem _ member)

end Edited

end SoKernel.Lib
