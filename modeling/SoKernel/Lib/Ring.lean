import Mathlib.Tactic
import Mathlib.Data.List.Basic
import Mathlib.Logic.Function.Basic
import Mathlib.Data.Nat.ModEq

namespace SoKernel.Lib

/-! ## Ring buffers -/

/-- A buffer of `n` cells used in a circle: where the next item is read, where the next one
is written, and how many there are. -/
structure Ring (α : Type) where
  cells : Nat → α
  readIdx : Nat
  writeIdx : Nat
  count : Nat

namespace Ring

variable {α : Type} {n : Nat} {r : Ring α} {a : α}

/-- What is in the buffer, oldest first. -/
def items (n : Nat) (r : Ring α) : List α :=
  (List.range r.count).map fun j => r.cells ((r.readIdx + j) % n)

def front (r : Ring α) : α := r.cells r.readIdx

def take (n : Nat) (r : Ring α) : Ring α :=
  { r with readIdx := (r.readIdx + 1) % n, count := r.count - 1 }

def put (n : Nat) (a : α) (r : Ring α) : Ring α :=
  { r with
    cells := Function.update r.cells r.writeIdx a
    writeIdx := (r.writeIdx + 1) % n
    count := r.count + 1 }

/-- The write index is `count` cells after the read index. -/
structure Formed (n : Nat) (r : Ring α) : Prop where
  count : r.count ≤ n
  readIdx : r.readIdx < n
  writeIdx : r.writeIdx = (r.readIdx + r.count) % n

theorem Formed.take (formed : r.Formed n) (some : 0 < r.count) : (r.take n).Formed n where
  count := Nat.le_trans (Nat.sub_le r.count 1) formed.count
  readIdx := Nat.mod_lt _ (Nat.lt_of_le_of_lt (Nat.zero_le _) formed.readIdx)
  writeIdx := by
    have steps : r.readIdx + 1 + (r.count - 1) = r.readIdx + r.count := by omega
    change r.writeIdx = ((r.readIdx + 1) % n + (r.count - 1)) % n
    rw [formed.writeIdx, Nat.mod_add_mod, steps]

theorem Formed.put (formed : r.Formed n) (room : r.count < n) : (r.put n a).Formed n where
  count := room
  readIdx := formed.readIdx
  writeIdx := by
    change (r.writeIdx + 1) % n = (r.readIdx + (r.count + 1)) % n
    rw [formed.writeIdx, Nat.mod_add_mod]
    rfl

/-- The oldest item comes out first. -/
theorem Formed.items_take (formed : r.Formed n) (some : 0 < r.count) :
    r.items n = r.front :: (r.take n).items n := by
  obtain ⟨m, count⟩ : ∃ m, r.count = m + 1 := ⟨r.count - 1, by omega⟩
  unfold items
  rw [count, List.range_succ_eq_map, List.map_cons, List.map_map]
  have front : r.cells ((r.readIdx + 0) % n) = r.front := by
    rw [Nat.add_zero, Nat.mod_eq_of_lt formed.readIdx]
    rfl
  rw [front]
  congr 1
  have fewer : (r.take n).count = m := by
    change r.count - 1 = m
    omega
  rw [fewer]
  apply List.map_congr_left
  intro j _
  change r.cells ((r.readIdx + (j + 1)) % n) = r.cells (((r.readIdx + 1) % n + j) % n)
  rw [Nat.mod_add_mod]
  congr 2
  omega

/-- A new item goes to the end. -/
theorem Formed.items_put (formed : r.Formed n) (room : r.count < n) :
    (r.put n a).items n = r.items n ++ [a] := by
  unfold items
  change (List.range (r.count + 1)).map (fun j =>
    Function.update r.cells r.writeIdx a ((r.readIdx + j) % n)) = _
  rw [List.range_succ, List.map_append]
  have last : Function.update r.cells r.writeIdx a ((r.readIdx + r.count) % n) = a := by
    rw [← formed.writeIdx, Function.update_self]
  have old : ∀ j ∈ List.range r.count,
      Function.update r.cells r.writeIdx a ((r.readIdx + j) % n) =
        r.cells ((r.readIdx + j) % n) := by
    intro j member
    apply Function.update_of_ne
    intro same
    -- less than `n` cells apart in the circle
    have before : j < r.count := List.mem_range.mp member
    have apart : (r.readIdx + j) % n = (r.readIdx + r.count) % n := same.trans formed.writeIdx
    have cycle : r.count ≡ j [MOD n] := (Nat.ModEq.add_left_cancel' r.readIdx apart).symm
    rw [Nat.ModEq, Nat.mod_eq_of_lt room, Nat.mod_eq_of_lt (Nat.lt_trans before room)] at cycle
    exact absurd cycle (Nat.ne_of_gt before)
  rw [List.map_congr_left old, List.map_singleton, last]

end Ring
end SoKernel.Lib
