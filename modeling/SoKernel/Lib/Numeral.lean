import Mathlib.Tactic
import Mathlib.Data.Nat.Digits.Lemmas

namespace SoKernel.Lib

/-! ## Numerals -/

/-- The digits of the value, the highest first, with none that could be left out. -/
structure IsNumeral (base value : Nat) (digits : List Nat) : Prop where
  below : ∀ d ∈ digits, d < base
  evaluates : digits.foldl (fun v d => base * v + d) 0 = value
  leading : digits.head? = some 0 → digits = [0]
  some : digits ≠ []

/-- The digits, the lowest first. -/
def lowDigits (base value : Nat) : List Nat := if value = 0 then [0] else Nat.digits base value

def numeral (base value : Nat) : List Nat := (lowDigits base value).reverse

variable {base value count : Nat} {digits : List Nat}

theorem lowDigits_eq (two : 2 ≤ base) : lowDigits base value =
    value % base :: if value / base = 0 then [] else lowDigits base (value / base) := by
  unfold lowDigits
  by_cases zero : value = 0
  · simp [zero]
  · rw [if_neg zero, Nat.digits_def' two (Nat.pos_of_ne_zero zero)]
    split
    · rename_i small
      rw [small, Nat.digits_zero]
    · rfl

theorem lowDigits_length (two : 2 ≤ base) (positive : 1 ≤ count) (small : value < base ^ count) :
    (lowDigits base value).length ≤ count := by
  unfold lowDigits
  split
  · exact positive
  · exact (Nat.digits_length_le_iff two value).mpr small

theorem numeral_length (two : 2 ≤ base) (positive : 1 ≤ count) (small : value < base ^ count) :
    (numeral base value).length ≤ count := by
  unfold numeral
  rw [List.length_reverse]
  exact lowDigits_length two positive small

theorem isNumeral (two : 2 ≤ base) : IsNumeral base value (numeral base value) := by
  unfold numeral lowDigits
  by_cases zero : value = 0
  · subst zero
    exact ⟨by simp; omega, by simp, by simp, by simp⟩
  · rw [if_neg zero]
    have some : Nat.digits base value ≠ [] := Nat.digits_ne_nil_iff_ne_zero.mpr zero
    refine ⟨?_, ?_, ?_, fun empty => some (List.reverse_eq_nil_iff.mp empty)⟩
    · intro d member
      exact Nat.digits_lt_base two (List.mem_reverse.mp member)
    · have folded := Nat.ofDigits_digits base value
      rw [Nat.ofDigits_eq_foldr] at folded
      rw [List.foldl_reverse]
      simpa [Nat.add_comm] using folded
    · intro first
      rw [List.head?_reverse, List.getLast?_eq_some_getLast some] at first
      exact absurd (Option.some.inj first) (Nat.getLast_digit_ne_zero base zero)

end SoKernel.Lib
