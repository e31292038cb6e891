import Mathlib.Tactic
import Mathlib.Logic.Function.Basic

namespace SoKernel.Lib

/-! ## Bytes of memory

Addresses have 64 bits: they count on from 0 at the end. -/

/-- Memory by address. -/
abbrev Bytes := Nat → UInt8

namespace Bytes

def store (m : Bytes) (a : Nat) (byte : UInt8) : Bytes := Function.update m (a % 2 ^ 64) byte

def storeAll (m : Bytes) (a : Nat) : List UInt8 → Bytes
  | [] => m
  | byte :: bytes => (m.store a byte).storeAll (a + 1) bytes

/-- The bytes from `a` on. -/
def Holds (m : Bytes) (a : Nat) (bytes : List UInt8) : Prop :=
  ∀ j (inside : j < bytes.length), m ((a + j) % 2 ^ 64) = bytes[j]

/-- A word of eight bytes, the lowest first. -/
def word (value : Nat) : List UInt8 := (List.range 8).map fun i => UInt8.ofNat (value / 256 ^ i)

@[simp] theorem word_length (value : Nat) : (word value).length = 8 := by simp [word]

variable {m m' : Bytes} {a b x : Nat} {byte : UInt8} {bytes more : List UInt8}

theorem store_other (small : a < 2 ^ 64) (other : x ≠ a) : m.store a byte x = m x := by
  unfold store
  rw [Nat.mod_eq_of_lt small, Function.update_of_ne other]

theorem store_here (small : a < 2 ^ 64) : m.store a byte a = byte := by
  unfold store
  rw [Nat.mod_eq_of_lt small, Function.update_self]

/-- Storing leaves every other address alone. -/
theorem storeAll_other (small : a + bytes.length ≤ 2 ^ 64)
    (outside : x < a ∨ a + bytes.length ≤ x) : m.storeAll a bytes x = m x := by
  induction bytes generalizing m a with
  | nil => rfl
  | cons byte bytes ih =>
    rw [List.length_cons] at small outside
    unfold storeAll
    rw [ih (by omega) (by omega), store_other (by omega) (by omega)]

/-- What was stored is there. -/
theorem holds_storeAll (small : a + bytes.length ≤ 2 ^ 64) :
    (m.storeAll a bytes).Holds a bytes := by
  induction bytes generalizing m a with
  | nil => exact fun j inside => absurd inside (Nat.not_lt_zero j)
  | cons byte bytes ih =>
    rw [List.length_cons] at small
    intro j inside
    unfold storeAll
    cases j with
    | zero =>
      have address : (a + 0) % 2 ^ 64 = a := Nat.mod_eq_of_lt (by omega)
      rw [address, storeAll_other (by omega) (by omega), store_here (by omega)]
      rfl
    | succ j =>
      rw [List.length_cons] at inside
      have there := ih (m := m.store a byte) (a := a + 1) (by omega) j (by omega)
      rw [show a + (j + 1) = a + 1 + j by omega, there]
      rfl

/-- Memory that is the same from `a` on holds the same. -/
theorem Holds.congr (holds : m.Holds a bytes) (small : a + bytes.length ≤ 2 ^ 64)
    (same : ∀ x, a ≤ x → x < a + bytes.length → m' x = m x) : m'.Holds a bytes := by
  intro j inside
  have address : (a + j) % 2 ^ 64 = a + j := Nat.mod_eq_of_lt (by omega)
  rw [address, same _ (by omega) (by omega), ← holds j inside, address]

theorem Holds.append (first : m.Holds a bytes) (second : m.Holds (a + bytes.length) more) :
    m.Holds a (bytes ++ more) := by
  intro j inside
  by_cases early : j < bytes.length
  · rw [first j early, List.getElem_append_left early]
  · rw [List.length_append] at inside
    have there := second (j - bytes.length) (by omega)
    rw [show a + bytes.length + (j - bytes.length) = a + j by omega] at there
    rw [there, List.getElem_append_right (by omega)]

end Bytes

/-! ## Regions -/

/-- `size` bytes from `start` on. -/
structure Region where
  start : Nat
  size : Nat

namespace Region

variable {r s : Region} {x low high low' high' : Nat}

def Has (r : Region) (x : Nat) : Prop := ∃ j < r.size, x = (r.start + j) % 2 ^ 64

def Inside (r s : Region) : Prop := ∀ x, r.Has x → s.Has x

def Disjoint (r s : Region) : Prop := ∀ x, r.Has x → ¬ s.Has x

/-- A region that does not reach the end of memory is an interval. -/
theorem has_iff (small : r.start + r.size ≤ 2 ^ 64) :
    r.Has x ↔ r.start ≤ x ∧ x < r.start + r.size := by
  constructor
  · rintro ⟨j, below, rfl⟩
    rw [Nat.mod_eq_of_lt (by omega)]
    omega
  · rintro ⟨low, high⟩
    refine ⟨x - r.start, by omega, ?_⟩
    rw [Nat.mod_eq_of_lt (by omega)]
    omega

/-- Everything in the region lies from `low` on and before `high`. -/
def Between (r : Region) (low high : Nat) : Prop := ∀ x, r.Has x → low ≤ x ∧ x < high

theorem between (small : r.start + r.size ≤ 2 ^ 64) : r.Between r.start (r.start + r.size) :=
  fun _ here => (has_iff small).mp here

theorem between_of_empty (empty : r.size = 0) : r.Between low high := by
  rintro x ⟨j, below, _⟩
  omega

theorem Between.disjoint (first : r.Between low high) (second : s.Between low' high')
    (apart : high ≤ low') : r.Disjoint s := by
  intro x here there
  have left := first x here
  have right := second x there
  omega

theorem Between.inside (between : r.Between low high) (small : s.start + s.size ≤ 2 ^ 64)
    (after : s.start ≤ low) (before : high ≤ s.start + s.size) : r.Inside s := by
  intro x here
  have bounds := between x here
  rw [has_iff small]
  omega

/-- What lies inside is no larger. -/
theorem Inside.size_le (inside : r.Inside s) (small : s.size ≤ 2 ^ 62) : r.size ≤ s.size := by
  by_contra larger
  obtain ⟨i, below, first⟩ := inside _ ⟨0, by omega, rfl⟩
  obtain ⟨j, below', last⟩ := inside _ ⟨s.size, by omega, rfl⟩
  omega

end Region
end SoKernel.Lib
