import SoKernel.Memory.Buddy
import Mathlib.Algebra.Order.Group.Nat

namespace SoKernel.Buddy

theorem u64_of_lt {value : Nat} (small : value < 2 ^ 64) : u64 value = value :=
  Nat.mod_eq_of_lt small

theorem shiftOne_of_lt {count : Nat} (small : count < 64) : shiftOne count = 2 ^ count := by
  rw [shiftOne, Nat.mod_eq_of_lt small]

/-- The halving loop counts the binary logarithm. -/
theorem log2Loop_eq {fuel x result : Nat} (small : x < 2 ^ fuel) (room : result + fuel < 256) :
    log2Loop fuel x result = result + Nat.log2 x := by
  induction fuel generalizing x result with
  | zero =>
    have zero : x = 0 := by simpa using small
    simp [log2Loop, zero]
  | succ fuel ih =>
    rw [Nat.pow_succ] at small
    rw [log2Loop, Nat.log2_def]
    by_cases done : x / 2 = 0
    · rw [if_pos done, if_neg (by omega), Nat.add_zero]
    · rw [if_neg done, if_pos (by omega), Nat.mod_eq_of_lt (by omega), ih (by omega) (by omega)]
      omega

theorem log2_eq {x : Nat} (small : x < 2 ^ 64) : log2 x = Nat.log2 x := by
  rw [log2, log2Loop_eq small (by decide), Nat.zero_add]

theorem memoryToLevel_two_pow {level : Nat} (small : level < 64) :
    memoryToLevel (2 ^ level) = level := by
  have inside : 2 ^ level < 2 ^ 64 := Nat.pow_lt_pow_right (by decide) small
  have logarithm : log2 (2 ^ level) % 256 = level := by
    rw [log2_eq inside, Nat.log2_two_pow, Nat.mod_eq_of_lt (by omega)]
  simp [memoryToLevel, logarithm, shiftOne_of_lt small]

/-- The level `allocMemory` looks for. -/
def requestLevel (memoryToAllocate : Nat) : Nat := memoryToLevel (requestSize memoryToAllocate)

/-- The size is rounded up to the least power of two that holds request and header. -/
theorem requestSize_eq {n : Nat} (bound : n + headerSize ≤ 2 ^ 63) :
    ∃ level, level < 64 ∧ requestSize n = 2 ^ level ∧ n + headerSize ≤ 2 ^ level ∧
      2 ^ level < 2 * (n + headerSize) := by
  have size : u64 (n + headerSize) = n + headerSize := u64_of_lt (by omega)
  have minimum : ¬ n + headerSize < minBlockSize := by unfold headerSize minBlockSize; omega
  have nonzero : n + headerSize ≠ 0 := by unfold headerSize; omega
  have lower := Nat.log2_self_le nonzero
  have upper := Nat.lt_log2_self (n := n + headerSize)
  simp only [requestSize, size, if_neg minimum]
  by_cases power : (n + headerSize) &&& (n + headerSize - 1) = 0
  · obtain ⟨level, same⟩ := (Nat.and_sub_one_eq_zero_iff_isPowerOfTwo nonzero).mp power
    have small : level ≤ 63 := (Nat.pow_le_pow_iff_right (by decide)).mp (same ▸ bound)
    refine ⟨level, by omega, by simp [same], by omega, by omega⟩
  · have strict : ∀ level, n + headerSize ≠ 2 ^ level := fun level same =>
      power ((Nat.and_sub_one_eq_zero_iff_isPowerOfTwo nonzero).mpr ⟨level, same⟩)
    have notTop := strict 63
    have notFloor := strict (n + headerSize).log2
    have small : (n + headerSize).log2 < 63 := (Nat.log2_lt nonzero).mpr (by omega)
    refine ⟨(n + headerSize).log2 + 1, by omega, ?_, by omega, by rw [Nat.pow_succ]; omega⟩
    rw [if_pos (by simpa using power), log2_eq (by omega), shiftOne_of_lt (by omega)]

/-- The requested level is the least one whose blocks hold request and header. -/
theorem requestLevel_le_iff {n level : Nat} (bound : n + headerSize ≤ 2 ^ 63) :
    requestLevel n ≤ level ↔ n + headerSize ≤ 2 ^ level := by
  obtain ⟨least, small, size, fits, tight⟩ := requestSize_eq bound
  have same : requestLevel n = least := by rw [requestLevel, size, memoryToLevel_two_pow small]
  rw [same]
  constructor
  · intro le
    exact Nat.le_trans fits (Nat.pow_le_pow_right (by decide) le)
  · intro room
    by_contra more
    obtain ⟨extra, rfl⟩ : ∃ extra, least = level + 1 + extra := ⟨least - (level + 1), by omega⟩
    have wide := Nat.two_pow_pos extra
    rw [Nat.pow_add, Nat.pow_succ] at tight
    have grown : 2 ^ level * 2 ≤ 2 ^ level * 2 * 2 ^ extra := Nat.le_mul_of_pos_right _ wide
    omega

theorem requestLevel_large {n : Nat} (bound : n + headerSize ≤ 2 ^ 63) : 5 ≤ requestLevel n := by
  have small : ¬ requestLevel n ≤ 4 := by
    rw [requestLevel_le_iff bound]
    unfold headerSize
    omega
  omega

/-- The request is served from a list that exists, with blocks that hold a header. -/
def Ordinary (n : Nat) : Prop := 5 ≤ requestLevel n ∧ requestLevel n < blockLists

theorem ordinary_of_bound {n : Nat} (bound : n + headerSize ≤ 2 ^ 32) : Ordinary n := by
  have half : n + headerSize ≤ 2 ^ 63 := Nat.le_trans bound (by decide)
  have listed := (requestLevel_le_iff half).mpr bound
  exact ⟨requestLevel_large half, by unfold blockLists maxLevel; omega⟩

end SoKernel.Buddy
