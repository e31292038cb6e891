import SoKernel.Lib.Bytes

namespace SoKernel.Lib.Bytes

/-! ## Copying bytes in units -/

/-- The bytes from `a` on. -/
def fetch (m : Bytes) (a size : Nat) : List UInt8 :=
  (List.range size).map fun j => m ((a + j) % 2 ^ 64)

/-- Copy units of `size` bytes, the lowest first; a unit is read before it is written. -/
def copy (size target source : Nat) (m : Bytes) : Nat → Bytes
  | 0 => m
  | n + 1 =>
    let m := copy size target source m n
    m.storeAll (target + size * n) (m.fetch (source + size * n) size)

/-- What stood at `source` stands at `target`, and nothing else changed. -/
structure Moved (target source length : Nat) (m m' : Bytes) : Prop where
  arrived : ∀ j < length, m' (target + j) = m (source + j)
  other : ∀ x, x < target ∨ target + length ≤ x → m' x = m x

variable {m m' : Bytes} {a target source size n length j x : Nat} {bytes : List UInt8}

@[simp] theorem fetch_length : (m.fetch a size).length = size := by simp [fetch]

theorem fetch_getElem (inside : j < (m.fetch a size).length) (small : a + size ≤ 2 ^ 64) :
    (m.fetch a size)[j] = m (a + j) := by
  rw [fetch_length] at inside
  simp only [fetch, List.getElem_map, List.getElem_range]
  rw [Nat.mod_eq_of_lt (by omega)]

theorem storeAll_inside (small : a + bytes.length ≤ 2 ^ 64) (inside : j < bytes.length) :
    m.storeAll a bytes (a + j) = bytes[j] := by
  have there := holds_storeAll (m := m) small j inside
  rwa [Nat.mod_eq_of_lt (by omega)] at there

theorem fetch_of_holds (holds : m.Holds a bytes) : m.fetch a bytes.length = bytes := by
  apply List.ext_getElem
  · simp
  · intro j _ inside
    simp only [fetch, List.getElem_map, List.getElem_range]
    exact holds j inside

theorem holds_append {more : List UInt8} :
    m.Holds a (bytes ++ more) ↔ m.Holds a bytes ∧ m.Holds (a + bytes.length) more := by
  constructor
  · intro holds
    refine ⟨fun j inside => ?_, fun j inside => ?_⟩
    · rw [holds j (by rw [List.length_append]; omega), List.getElem_append_left inside]
    · rw [Nat.add_assoc, holds (bytes.length + j) (by rw [List.length_append]; omega),
        List.getElem_append_right (by omega)]
      simp
  · exact fun both => both.1.append both.2

theorem Moved.holds (moved : Moved target source bytes.length m m') (holds : m.Holds source bytes)
    (fits : target + bytes.length ≤ 2 ^ 64) (fits' : source + bytes.length ≤ 2 ^ 64) :
    m'.Holds target bytes := by
  intro j inside
  have there := holds j inside
  rw [Nat.mod_eq_of_lt (by omega)] at there ⊢
  rw [moved.arrived j inside, there]

theorem Moved.refl (empty : length = 0) : Moved target source length m m where
  arrived j below := by omega
  other _ _ := rfl

/-- A copy whose target does not start inside its source moves the bytes. -/
theorem copy_moved (size : Nat) (m : Bytes) (fits : target + size * n ≤ 2 ^ 64)
    (fits' : source + size * n ≤ 2 ^ 64)
    (safe : target ≤ source ∨ source + size * n ≤ target) :
    Moved target source (size * n) m (m.copy size target source n) := by
  induction n with
  | zero => exact .refl (Nat.mul_zero size)
  | succ n ih =>
    rw [Nat.mul_succ] at fits fits' safe ⊢
    have before := ih (by omega) (by omega) (by omega)
    have unit : (m.copy size target source n).fetch (source + size * n) size =
        m.fetch (source + size * n) size := by
      apply List.ext_getElem
      · simp
      · intro j inside inside'
        rw [fetch_getElem inside (by omega), fetch_getElem inside' (by omega)]
        rw [fetch_length] at inside
        exact before.other _ (by omega)
    constructor
    · intro j below
      rw [copy, unit]
      by_cases early : j < size * n
      · rw [storeAll_other (by rw [fetch_length]; omega) (by omega)]
        exact before.arrived j early
      · have last : j - size * n < (m.fetch (source + size * n) size).length := by
          rw [fetch_length]
          omega
        have there := storeAll_inside (m := m.copy size target source n) (a := target + size * n)
          (by rw [fetch_length]; omega) last
        rw [fetch_getElem last (by omega)] at there
        rwa [show target + size * n + (j - size * n) = target + j by omega,
          show source + size * n + (j - size * n) = source + j by omega] at there
    · intro x outside
      rw [copy, storeAll_other (by rw [fetch_length]; omega) (by rw [fetch_length]; omega)]
      exact before.other x (by omega)

theorem eq_of_whole_units (whole : size ∣ length) (low : size * n ≤ length)
    (high : length < size * n + size) : length = size * n := by
  obtain ⟨k, rfl⟩ := whole
  have positive : 0 < size := by omega
  have atLeast : n ≤ k := Nat.le_of_mul_le_mul_left low positive
  have below : k < n + 1 := Nat.lt_of_mul_lt_mul_left (by rwa [Nat.mul_succ])
  rw [show k = n by omega]

/-- A target inside the source, a whole number of units up, repeats the first bytes. -/
theorem copy_overlapping (m : Bytes) (fits : target + size * n ≤ 2 ^ 64)
    (above : source < target) (inside : target - source < size * n)
    (whole : size ∣ target - source) :
    m.copy size target source n (target + (target - source)) = m source := by
  induction n with
  | zero =>
    rw [Nat.mul_zero] at inside
    omega
  | succ n ih =>
    rw [Nat.mul_succ] at fits inside
    rw [copy]
    by_cases early : target - source < size * n
    · rw [storeAll_other (by rw [fetch_length]; omega) (by omega)]
      exact ih (by omega) early
    · -- The unit written last reads the first one, which was written already.
      have last := eq_of_whole_units whole (by omega) inside
      have unit : source + size * n = target := by omega
      have moved : Moved target source (size * n) m (m.copy size target source n) :=
        copy_moved size m (by omega) (by omega) (by omega)
      have before := moved.arrived 0 (by omega)
      have positive : 0 < ((m.copy size target source n).fetch target size).length := by
        rw [fetch_length]
        omega
      rw [last, unit]
      calc _ = ((m.copy size target source n).fetch target size)[0] :=
            storeAll_inside (by rw [fetch_length]; omega) positive
        _ = m.copy size target source n target := fetch_getElem positive (by omega)
        _ = m source := before

end SoKernel.Lib.Bytes
