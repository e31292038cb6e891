import Mathlib.Tactic
import Mathlib.Data.List.Nodup
import Mathlib.Logic.Function.Basic

namespace SoKernel.Lib

variable {ι α : Type} [DecidableEq ι] [DecidableEq α]
variable {lists : ι → List α} {i j target : ι} {a x : α} {rest : List α}

/-- Every item is on at most one of the lists, and once on it. -/
structure Exclusive (lists : ι → List α) : Prop where
  nodup : ∀ i, (lists i).Nodup
  unique : ∀ {i j a}, a ∈ lists i → a ∈ lists j → i = j

/-- Append to list `i`. -/
def push (lists : ι → List α) (i : ι) (a : α) : ι → List α :=
  Function.update lists i (lists i ++ [a])

/-- Take the first occurrence off list `i`. -/
def drop (lists : ι → List α) (i : ι) (a : α) : ι → List α :=
  Function.update lists i ((lists i).erase a)

omit [DecidableEq α] in
theorem mem_push : x ∈ push lists i a j ↔ x ∈ lists j ∨ (j = i ∧ x = a) := by
  unfold push
  by_cases same : j = i
  · subst same
    simp
  · simp [same]

/-- Dropping an item that is on one list erases it from all. -/
theorem Exclusive.drop_eq (exclusive : Exclusive lists) (member : a ∈ lists i) :
    drop lists i a j = (lists j).erase a := by
  unfold drop
  by_cases same : j = i
  · rw [same, Function.update_self]
  · rw [Function.update_of_ne same, List.erase_of_not_mem]
    intro other
    exact same (exclusive.unique other member)

theorem Exclusive.mem_drop (exclusive : Exclusive lists) (member : a ∈ lists i) :
    x ∈ drop lists i a j ↔ x ∈ lists j ∧ x ≠ a := by
  unfold drop
  by_cases same : j = i
  · subst same
    rw [Function.update_self, (exclusive.nodup j).mem_erase_iff]
    tauto
  · rw [Function.update_of_ne same]
    constructor
    · intro here
      refine ⟨here, ?_⟩
      intro equal
      subst equal
      exact same (exclusive.unique here member)
    · intro both
      exact both.1

omit [DecidableEq α] in
theorem Exclusive.push (exclusive : Exclusive lists) (fresh : ∀ j, a ∉ lists j) :
    Exclusive (push lists i a) where
  nodup := by
    intro j
    unfold Lib.push
    by_cases same : j = i
    · subst same
      rw [Function.update_self]
      apply List.Nodup.append (exclusive.nodup j) (List.nodup_singleton a)
      intro y here there
      rw [List.mem_singleton] at there
      subst there
      exact fresh j here
    · rw [Function.update_of_ne same]
      exact exclusive.nodup j
  unique := by
    intro j k x first second
    rcases mem_push.mp first with left | ⟨left, same⟩
    · rcases mem_push.mp second with right | ⟨right, same⟩
      · exact exclusive.unique left right
      · subst same
        exact absurd left (fresh j)
    · subst same
      rcases mem_push.mp second with right | ⟨right, _⟩
      · exact absurd right (fresh k)
      · rw [left, right]

theorem Exclusive.drop (exclusive : Exclusive lists) (member : a ∈ lists i) :
    Exclusive (drop lists i a) where
  nodup := by
    intro j
    unfold Lib.drop
    by_cases same : j = i
    · subst same
      rw [Function.update_self]
      exact (exclusive.nodup j).erase a
    · rw [Function.update_of_ne same]
      exact exclusive.nodup j
  unique first second :=
    exclusive.unique ((exclusive.mem_drop member).mp first).1 ((exclusive.mem_drop member).mp second).1

/-- Moving an item: off its list, to the end of `target`. -/
theorem Exclusive.mem_move (exclusive : Exclusive lists) (member : a ∈ lists i) :
    x ∈ Lib.push (Lib.drop lists i a) target a j ↔ (x ∈ lists j ∧ x ≠ a) ∨ (j = target ∧ x = a) := by
  rw [mem_push, exclusive.mem_drop member]

theorem Exclusive.move (exclusive : Exclusive lists) (member : a ∈ lists i) :
    Exclusive (Lib.push (Lib.drop lists i a) target a) := by
  apply (exclusive.drop member).push
  intro j here
  exact ((exclusive.mem_drop member).mp here).2 rfl

end SoKernel.Lib
