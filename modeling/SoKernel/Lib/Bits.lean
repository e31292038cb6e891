import Mathlib.Tactic
import Mathlib.Data.Nat.Bitwise

namespace SoKernel.Lib

/-- Bit `level` of `a`, as arithmetic. -/
def HasBit (a level : Nat) : Prop := a / 2 ^ level % 2 = 1

instance (a level : Nat) : Decidable (HasBit a level) := inferInstanceAs (Decidable (_ = _))

private theorem xor_one_parts (q : Nat) : (q ^^^ 1) / 2 = q / 2 ∧ (q ^^^ 1) % 2 = 1 - q % 2 := by
  constructor
  · simp [Nat.xor_div_two]
  · have parity := Nat.xor_mod_two_eq_one (a := q) (b := 1)
    omega

private theorem xor_quotient (a level : Nat) :
    (a ^^^ 2 ^ level) / 2 ^ level = a / 2 ^ level ^^^ 1 := by
  simp [Nat.xor_div_two_pow, Nat.div_self (Nat.two_pow_pos level)]

private theorem xor_remainder (a level : Nat) : (a ^^^ 2 ^ level) % 2 ^ level = a % 2 ^ level := by
  simp [Nat.xor_mod_two_pow]

/-- Flipping a clear bit adds the power of two. -/
theorem xor_two_pow_of_clear {a level : Nat} (clear : ¬ HasBit a level) :
    a ^^^ 2 ^ level = a + 2 ^ level := by
  have parts := xor_one_parts (a / 2 ^ level)
  have quotient : a / 2 ^ level ^^^ 1 = a / 2 ^ level + 1 := by
    unfold HasBit at clear
    omega
  have before := Nat.div_add_mod a (2 ^ level)
  have after := Nat.div_add_mod (a ^^^ 2 ^ level) (2 ^ level)
  rw [xor_quotient, xor_remainder, quotient, Nat.mul_add] at after
  omega

/-- Flipping a set bit takes the power of two away. -/
theorem xor_two_pow_of_set {a level : Nat} (set : HasBit a level) :
    (a ^^^ 2 ^ level) + 2 ^ level = a := by
  have parts := xor_one_parts (a / 2 ^ level)
  have quotient : (a / 2 ^ level ^^^ 1) + 1 = a / 2 ^ level := by
    unfold HasBit at set
    omega
  have before := Nat.div_add_mod a (2 ^ level)
  have after := Nat.div_add_mod (a ^^^ 2 ^ level) (2 ^ level)
  rw [xor_quotient, xor_remainder] at after
  rw [← quotient, Nat.mul_add] at before
  omega

theorem xor_two_pow_ne (a level : Nat) : a ^^^ 2 ^ level ≠ a := by
  have wide := Nat.two_pow_pos level
  by_cases set : HasBit a level
  · have lower := xor_two_pow_of_set set
    omega
  · rw [xor_two_pow_of_clear set]
    omega

theorem xor_two_pow_cancel (a level : Nat) : a ^^^ 2 ^ level ^^^ 2 ^ level = a := by
  rw [Nat.xor_assoc, Nat.xor_self, Nat.xor_zero]

/-- Flipping a bit changes it. -/
theorem hasBit_xor (a level : Nat) : HasBit (a ^^^ 2 ^ level) level ↔ ¬ HasBit a level := by
  have parts := xor_one_parts (a / 2 ^ level)
  unfold HasBit
  rw [xor_quotient]
  omega

end SoKernel.Lib
