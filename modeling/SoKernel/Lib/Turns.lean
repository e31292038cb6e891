import Mathlib.Tactic
import Mathlib.Data.List.Rotate
import Mathlib.Algebra.BigOperators.Group.List.Basic
import Mathlib.Order.Monotone.Basic
import Mathlib.Algebra.Order.BigOperators.Group.List

namespace SoKernel.Lib

/-! ## Taking turns, each for a while -/

variable {α : Type} [Inhabited α] {items rest : List α} {i j m left : Nat} {a start current : α}
variable {slice : α → Nat} {first : Nat}

/-- Whose turn is the `j`-th, when the items of the list take turns. -/
def turn (items : List α) (j : Nat) : α := items.getD (j % items.length) default

/-- The time of the `j`-th turn, when the first is at time `first`. -/
def due (items : List α) (slice : α → Nat) (first : Nat) : Nat → Nat
  | 0 => first
  | j + 1 => due items slice first j + slice (turn items j)

theorem turn_eq (inside : j % items.length < items.length) :
    turn items j = items.get ⟨j % items.length, inside⟩ :=
  List.getD_eq_getElem?_getD.trans (by simp [List.getElem?_eq_getElem inside])

/-- The next turns, in the order of the list turned so far. -/
theorem turns_eq_rotate :
    (List.range items.length).map (fun i => turn items (j + i)) = items.rotate j := by
  apply List.ext_getElem
  · simp
  · intro i below _
    have inside : i < items.length := by simpa using below
    have positive : 0 < items.length := Nat.lt_of_le_of_lt (Nat.zero_le i) inside
    rw [List.getElem_map, List.getElem_range, List.getElem_rotate,
      turn_eq (Nat.mod_lt _ positive)]
    simp [Nat.add_comm]

/-- The one whose turn it is goes from the front to the rear. -/
theorem rotate_front (some : items ≠ []) : ∃ rest, items.rotate j = turn items j :: rest ∧
    items.rotate (j + 1) = rest ++ [turn items j] := by
  cases front : items.rotate j with
  | nil => exact absurd (List.rotate_eq_nil_iff.mp front) some
  | cons a rest =>
    have positive : 0 < items.length := List.length_pos_iff.mpr some
    have head : (items.rotate j).head? = Option.some (turn items j) := by
      rw [← turns_eq_rotate]
      obtain ⟨n, same⟩ := Nat.exists_eq_succ_of_ne_zero (Nat.pos_iff_ne_zero.mp positive)
      simp [same, List.range_succ_eq_map]
    rw [front] at head
    cases head
    refine ⟨rest, rfl, ?_⟩
    rw [← List.rotate_rotate, front, List.rotate_cons_succ, List.rotate_zero]

theorem due_strictMono (positive : ∀ a, 0 < slice a) : StrictMono (due items slice first) :=
  strictMono_nat_of_lt_succ fun _ => Nat.lt_add_of_pos_right (positive _)

theorem due_add : due items slice first (j + i) = due items slice first j +
    ((List.range i).map fun n => slice (turn items (j + n))).sum := by
  induction i with
  | zero => simp
  | succ i ih =>
    rw [← Nat.add_assoc, due, ih, List.range_succ]
    simp [Nat.add_assoc]

/-- Before its turn an item waits at most for all others. -/
theorem due_within [DecidableEq α] (slice : α → Nat) (first j : Nat) (member : a ∈ items) :
    ∃ i, turn items (j + i) = a ∧ due items slice first (j + i) ≤
      due items slice first j + ((items.erase a).map slice).sum := by
  have shifted : a ∈ items.rotate j := List.mem_rotate.mpr member
  obtain ⟨before, after, _, split, erased⟩ := List.exists_erase_eq shifted
  have turns : (List.range items.length).map (fun i => turn items (j + i)) = before ++ a :: after :=
    turns_eq_rotate.trans split
  have below : before.length < items.length := by
    have all := congrArg List.length split
    simp at all
    omega
  refine ⟨before.length, ?_, ?_⟩
  · have here : ((List.range items.length).map fun i => turn items (j + i))[before.length]? =
        some a := by
      rw [turns]
      simp
    simpa [below] using here
  · have waited : (List.range before.length).map (fun n => turn items (j + n)) = before := by
      have front := congrArg (List.take before.length) turns
      rw [← List.map_take, List.take_range, Nat.min_eq_left (Nat.le_of_lt below)] at front
      simpa using front
    have others : ((items.erase a).map slice).sum = ((before ++ after).map slice).sum := by
      rw [← erased]
      exact (((List.rotate_perm items j).symm.erase a).map slice).sum_eq
    have summed : ((List.range before.length).map fun n => slice (turn items (j + n))).sum =
        (before.map slice).sum := by
      rw [← waited]
      simp [Function.comp_def]
    rw [due_add, summed, others]
    simp

/-! ## Who is served while turns are taken -/

/-- After `m` steps, `j` of them turns: `current` is served for `left` more steps. -/
structure Serving (items : List α) (slice : α → Nat) (first : Nat) (start : α) (m j : Nat)
    (current : α) (left : Nat) : Prop where
  time : m + left = due items slice first j
  since : (j = 0 ∧ current = start) ∨
    ∃ i, j = i + 1 ∧ due items slice first i < m ∧ current = turn items i

namespace Serving

theorem begin : Serving items slice left start 0 0 start left := ⟨Nat.zero_add _, .inl ⟨rfl, rfl⟩⟩

/-- It goes on being served. -/
theorem stays (serving : Serving items slice first start m j current (left + 1)) :
    Serving items slice first start (m + 1) j current left where
  time := by
    have time := serving.time
    omega
  since := serving.since.imp_right fun ⟨i, next, earlier, same⟩ =>
    ⟨i, next, Nat.lt_succ_of_lt earlier, same⟩

/-- The next one is served. -/
theorem switches (serving : Serving items slice first start m j current 0)
    (length : slice (turn items j) = left + 1) :
    Serving items slice first start (m + 1) (j + 1) (turn items j) left where
  time := by
    have time := serving.time
    rw [due, length]
    omega
  since := .inr ⟨j, rfl, Nat.lt_succ_of_le (Nat.le_of_eq serving.time.symm), rfl⟩

variable (positive : ∀ a, 0 < slice a)
include positive

/-- Nobody is served out of turn. -/
theorem at_turn (serving : Serving items slice first start m j current left)
    (from_ : due items slice first i < m) (until_ : m ≤ due items slice first (i + 1)) :
    j = i + 1 ∧ current = turn items i := by
  have monotone : StrictMono (due items slice first) := due_strictMono positive
  have time := serving.time
  rcases serving.since with ⟨rfl, _⟩ | ⟨i', rfl, earlier, same⟩
  · have never := monotone.lt_iff_lt.mp (show due items slice first i < due items slice first 0 by
      omega)
    omega
  · have low : i' < i + 1 := monotone.lt_iff_lt.mp (by omega)
    have high : i < i' + 1 := monotone.lt_iff_lt.mp (by omega)
    obtain rfl : i' = i := by omega
    exact ⟨rfl, same⟩

theorem before_first (serving : Serving items slice first start m j current left)
    (early : m ≤ first) : j = 0 ∧ current = start := by
  rcases serving.since with same | ⟨i, _, earlier, _⟩
  · exact same
  · have monotone : StrictMono (due items slice first) := due_strictMono positive
    have low := monotone.monotone (Nat.zero_le i)
    change first ≤ _ at low
    omega

/-- A turn begins exactly when nothing is left. -/
theorem due_iff (serving : Serving items slice first start m j current left) :
    left = 0 ↔ ∃ i, m = due items slice first i := by
  have time := serving.time
  constructor
  · rintro rfl
    exact ⟨j, time⟩
  · rintro ⟨i, rfl⟩
    cases i with
    | zero =>
      obtain ⟨rfl, _⟩ := serving.before_first positive (Nat.le_refl first)
      exact Nat.add_eq_left.mp time
    | succ i =>
      obtain ⟨rfl, _⟩ := serving.at_turn positive
        (due_strictMono positive (Nat.lt_succ_self i)) (Nat.le_refl _)
      exact Nat.add_eq_left.mp time

end Serving

end SoKernel.Lib
