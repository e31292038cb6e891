import SoKernel.Lib.Copying

namespace SoKernel.Routines
open Lib

/-! ## `lib/lib.c` -/

/-- `while (length--)` writes the last byte first. -/
def memset (destination : Nat) (c : Int32) : Nat → Bytes → Bytes
  | 0, m => m
  | length + 1, m => memset destination c length (m.store (destination + length) c.toUInt32.toUInt8)

/-- `sizeof(uint32_t)`. -/
def wordSize : Nat := 4

def memcpy (destination source length : Nat) (m : Bytes) : Bytes :=
  if destination % wordSize = 0 ∧ source % wordSize = 0 ∧ length % wordSize = 0 then
    m.copy wordSize destination source (length / wordSize)
  else m.copy 1 destination source length

variable {destination source length x : Nat} {c : Int32} {m : Bytes}

theorem memset_other (fits : destination + length ≤ 2 ^ 64)
    (outside : x < destination ∨ destination + length ≤ x) :
    memset destination c length m x = m x := by
  induction length generalizing m with
  | zero => rfl
  | succ length ih =>
    rw [memset, ih (by omega) (by omega), Bytes.store_other (by omega) (by omega)]

theorem memset_fills (fits : destination + length ≤ 2 ^ 64) (low : destination ≤ x)
    (high : x < destination + length) :
    memset destination c length m x = c.toUInt32.toUInt8 := by
  induction length generalizing m with
  | zero => omega
  | succ length ih =>
    rw [memset]
    by_cases last : x = destination + length
    · rw [memset_other (by omega) (by omega), last, Bytes.store_here (by omega)]
    · exact ih (by omega) (by omega)

/-! ## Copying -/

/-- Either path of `memcpy`: units that the addresses and the length are whole multiples of. -/
theorem memcpy_units (destination source length : Nat) : ∃ size n, 0 < size ∧ size * n = length ∧
    size ∣ destination ∧ size ∣ source ∧
    ∀ m, memcpy destination source length m = m.copy size destination source n := by
  by_cases aligned : destination % wordSize = 0 ∧ source % wordSize = 0 ∧ length % wordSize = 0
  · refine ⟨wordSize, length / wordSize, by decide, ?_, Nat.dvd_of_mod_eq_zero aligned.1,
      Nat.dvd_of_mod_eq_zero aligned.2.1, fun m => if_pos aligned⟩
    exact Nat.mul_div_cancel' (Nat.dvd_of_mod_eq_zero aligned.2.2)
  · exact ⟨1, length, Nat.one_pos, Nat.one_mul length, Nat.one_dvd _, Nat.one_dvd _,
      fun m => if_neg aligned⟩

/-- Nothing is overwritten before it is read. -/
def Forward (destination source length : Nat) : Prop :=
  destination ≤ source ∨ source + length ≤ destination

instance : Decidable (Forward destination source length) := inferInstanceAs (Decidable (_ ∨ _))

theorem memcpy_moved (fits : destination + length ≤ 2 ^ 64) (fits' : source + length ≤ 2 ^ 64)
    (forward : Forward destination source length) (m : Bytes) :
    Bytes.Moved destination source length m (memcpy destination source length m) := by
  obtain ⟨size, n, _, whole, _, _, same⟩ := memcpy_units destination source length
  rw [same, ← whole]
  exact Bytes.copy_moved size m (by omega) (by omega) (by rwa [whole])

/-- `memcpy` moves every content, whichever path it takes, if and only if the target does
not start inside the source. -/
theorem memcpy_moves_iff (fits : destination + length ≤ 2 ^ 64)
    (fits' : source + length ≤ 2 ^ 64) :
    (∀ m, Bytes.Moved destination source length m (memcpy destination source length m)) ↔
      Forward destination source length := by
  constructor
  · intro moves
    by_contra backward
    unfold Forward at backward
    obtain ⟨size, n, _, whole, onTarget, onSource, same⟩ := memcpy_units destination source length
    -- One byte set, at the start of the source.
    have moved := (moves (Function.update (fun _ => 0) source 1)).arrived (destination - source)
      (by omega)
    rw [same, Bytes.copy_overlapping _ (by omega) (by omega) (by omega)
      (Nat.dvd_sub onTarget onSource), Function.update_self, Function.update_of_ne (by omega)]
      at moved
    exact absurd moved (by decide)
  · intro forward m
    exact memcpy_moved fits fits' forward m

/-- Sixteen bytes down to an aligned address, on the path by words. -/
theorem memcpy_moves_down : 4096 + 16 ≤ 2 ^ 64 ∧ 4104 + 16 ≤ 2 ^ 64 ∧
    ((∀ m, Bytes.Moved 4096 4104 16 m (memcpy 4096 4104 16 m)) ↔ Forward 4096 4104 16) :=
  ⟨by decide, by decide, memcpy_moves_iff (by decide) (by decide)⟩

end SoKernel.Routines
