import Mathlib.Tactic
import Mathlib.Data.Nat.Digits.Defs
import SoKernel.Lib.Bytes

namespace SoKernel.Lib

/-- The low `size` bytes of a number, the lowest first. -/
def littleEndian : Nat → Nat → List UInt8
  | 0, _ => []
  | size + 1, value => UInt8.ofNat value :: littleEndian size (value / 256)

def ofLittleEndian (bytes : List UInt8) : Nat := Nat.ofDigits 256 (bytes.map UInt8.toNat)

variable {size value : Nat}

@[simp] theorem littleEndian_length : (littleEndian size value).length = size := by
  induction size generalizing value with
  | zero => rfl
  | succ size ih => rw [littleEndian, List.length_cons, ih]

/-- Reading back what was written keeps the number that fits. -/
theorem ofLittleEndian_littleEndian :
    ofLittleEndian (littleEndian size value) = value % 256 ^ size := by
  induction size generalizing value with
  | zero => rw [Nat.pow_zero, Nat.mod_one]; rfl
  | succ size ih =>
    have rest : ofLittleEndian (littleEndian size (value / 256)) = value / 256 % 256 ^ size := ih
    unfold ofLittleEndian at rest ⊢
    rw [littleEndian, List.map_cons, Nat.ofDigits_cons, rest, Nat.pow_succ', Nat.mod_mul]
    rfl

theorem littleEndian_eq_map :
    littleEndian size value = (List.range size).map fun i => UInt8.ofNat (value / 256 ^ i) := by
  induction size generalizing value with
  | zero => rfl
  | succ size ih =>
    rw [littleEndian, ih, List.range_succ_eq_map, List.map_cons, List.map_map, Nat.pow_zero,
      Nat.div_one]
    congr 1
    refine List.map_congr_left fun i _ => ?_
    rw [Function.comp_apply, Nat.pow_succ', Nat.div_div_eq_div_mul]

theorem word_eq_littleEndian : Bytes.word value = littleEndian 8 value :=
  littleEndian_eq_map.symm

end SoKernel.Lib
