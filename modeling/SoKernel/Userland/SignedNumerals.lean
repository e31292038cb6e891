import SoKernel.Userland.Numerals

namespace SoKernel.Numerals
open Lib

/-! ## `stdlib.c` -/

def MAX_INT_LENGTH : Nat := 21

def minus : UInt8 := 45

/-- `-n` wraps around at the least `int`, and the argument of `uintToBase` is a `uint64_t`. -/
def signedIntToStr (n : Int32) (start : Nat) (buffer : Buffer UInt8) : Option (Buffer UInt8) :=
  if n < 0 then
    (uintToBase (-n).toInt64.toUInt64 (start + 1) 10 (buffer.write start minus)).map Prod.snd
  else (uintToBase n.toInt64.toUInt64 start 10 buffer).map Prod.snd

/-- The loop of `satoi`; `none` when memory ends. -/
def satoiFrom (sign : Int64) : List UInt8 → Int64 → Option Int64
  | [], _ => none
  | c :: str, res =>
    if c = 0 then some (res * sign)
    else if c.toInt8 < 48 ∨ c.toInt8 > 57 then some 0
    else satoiFrom sign str (res * 10 + c.toInt8.toInt64 - 48)

/-- `str` is memory from the string on, and not NULL. -/
def satoi (str : List UInt8) : Option Int64 :=
  if str.head? = some minus then satoiFrom (-1) str.tail 0 else satoiFrom 1 str 0

/-! ## Parsing a numeral -/

variable {n : Int32} {buffer : Buffer UInt8} {start v : Nat} {digits : List Nat}
variable {sign : Int64} {rest : List UInt8}

theorem figure_digit {d : Nat} (small : d < 10) : figure d ≠ 0 ∧ figure d ≠ minus ∧
    ¬ ((figure d).toInt8 < 48 ∨ (figure d).toInt8 > 57) ∧
    (figure d).toInt8.toInt64 = Int64.ofNat d + 48 := by
  have all : ∀ d : Fin 10, figure d ≠ 0 ∧ figure d ≠ minus ∧
      ¬ ((figure d).toInt8 < 48 ∨ (figure d).toInt8 > 57) ∧
      (figure d).toInt8.toInt64 = Int64.ofNat d + 48 := by decide
  exact all ⟨d, small⟩

theorem satoiFrom_digits (below : ∀ d ∈ digits, d < 10) :
    satoiFrom sign (digits.map figure ++ 0 :: rest) (Int64.ofNat v) =
      some (Int64.ofNat (digits.foldl (fun v d => 10 * v + d) v) * sign) := by
  induction digits generalizing v with
  | nil => simp [satoiFrom]
  | cons d digits ih =>
    obtain ⟨some, _, digit, value⟩ := figure_digit (below d List.mem_cons_self)
    have next : Int64.ofNat v * 10 + (figure d).toInt8.toInt64 - 48 = Int64.ofNat (10 * v + d) := by
      rw [value, Int64.ofNat_add, Int64.ofNat_mul, Int64.mul_comm, ← Int64.add_assoc,
        Int64.add_sub_cancel]
      rfl
    rw [List.map_cons, List.cons_append, satoiFrom, if_neg some, if_neg digit, next,
      ih fun d later => below d (List.mem_cons_of_mem _ later)]
    rfl

/-- A numeral, behind a sign or not, stands for its value, as far as 64 bits go. -/
theorem satoi_numeral (numeral : IsNumeral 10 v digits) :
    satoi (digits.map figure ++ 0 :: rest) = some (Int64.ofNat v) ∧
      satoi (minus :: (digits.map figure ++ 0 :: rest)) = some (-Int64.ofNat v) := by
  have parsed : ∀ sign, satoiFrom sign (digits.map figure ++ 0 :: rest) 0 =
      some (Int64.ofNat v * sign) := by
    intro sign
    have parsed : satoiFrom sign (digits.map figure ++ 0 :: rest) (Int64.ofNat 0) = _ :=
      satoiFrom_digits numeral.below
    rwa [numeral.evaluates] at parsed
  constructor
  · have unsigned : (digits.map figure ++ 0 :: rest).head? ≠ some minus := by
      cases digits with
      | nil => exact absurd rfl numeral.some
      | cons d digits =>
        have small := numeral.below d List.mem_cons_self
        exact fun same => (figure_digit small).2.1 (Option.some.inj same)
    unfold satoi
    rw [if_neg unsigned, parsed, Int64.mul_one]
  · unfold satoi
    rw [List.head?_cons, if_pos rfl, List.tail_cons, parsed, Int64.mul_neg, Int64.mul_one]

/-! ## Printing -/

def signOf (n : Int32) : List UInt8 := if n < 0 then [minus] else []

/-- The number whose digits are printed. -/
def magnitude (n : Int32) : Nat := (if n < 0 then -n else n).toInt64.toUInt64.toNat

theorem signedIntToStr_spec (n : Int32) (start : Nat) (buffer : Buffer UInt8) : ∃ digits after,
    signedIntToStr n start buffer = some after ∧ IsNumeral 10 (magnitude n) digits ∧
      (∀ count, 1 ≤ count → magnitude n < 10 ^ count → digits.length ≤ count) ∧
      after.Holds start (signOf n ++ (digits.map figure ++ [0])) ∧
      Buffer.Writes start (start + (signOf n).length + digits.length + 1) buffer after := by
  unfold signedIntToStr magnitude signOf
  by_cases negative : n < 0
  · simp only [negative, if_true]
    obtain ⟨after, done, text, writes⟩ := uintToBase_spec 10 (by decide) (by decide)
      (-n).toInt64.toUInt64 (start + 1) (buffer.write start minus)
    have signed : (buffer.write start minus).Holds start [minus] := (buffer.holds_nil start).snoc
    refine ⟨_, after, by rw [done]; rfl, isNumeral (by decide),
      fun count positive small => numeral_length (by decide) positive small,
      (signed.kept writes (.inl (Nat.le_refl _))).append text, ?_⟩
    exact (Buffer.writes_write (Nat.le_refl _) (by simp; omega)).trans
      (writes.mono (Nat.le_succ _) (Nat.le_refl _))
  · simp only [negative, if_false]
    obtain ⟨after, done, text, writes⟩ := uintToBase_spec 10 (by decide) (by decide)
      n.toInt64.toUInt64 start buffer
    exact ⟨_, after, by rw [done]; rfl, isNumeral (by decide),
      fun count positive small => numeral_length (by decide) positive small, text, writes⟩

/-- The number is written in at most `MAX_INT_LENGTH` bytes, and read back. -/
structure RoundTrips (n : Int32) (start : Nat) (buffer : Buffer UInt8) : Prop where
  survives : ∃ after, signedIntToStr n start buffer = some after ∧
    Buffer.Writes start (start + MAX_INT_LENGTH) buffer after ∧
    ∀ size, MAX_INT_LENGTH ≤ size → satoi (after.slice start size) = some n.toInt64

/-- What is read back. -/
def readBack (n : Int32) : Int64 := if n < 0 then -(-n).toInt64 else n.toInt64

theorem readBack_eq_iff : readBack n = n.toInt64 ↔ n ≠ Int32.minValue := by
  constructor
  · rintro same rfl
    exact absurd same (by decide)
  · intro large
    unfold readBack
    split
    · rw [Int32.toInt64_neg_of_ne large, Int64.neg_neg]
    · rfl

theorem toNat_lt (positive : 0 ≤ n) : n.toInt64.toUInt64.toNat < 10 ^ 10 := by
  have bound := n.toInt_lt
  have lower := Int32.le_iff_toInt_le.mp positive
  have wide : 0 ≤ n.toInt64 := by
    rw [Int64.le_iff_toInt_le, Int32.toInt_toInt64]
    exact lower
  have value : n.toInt64.toUInt64.toNat = n.toInt.toNat := by
    rw [Int64.toNat_toUInt64_of_le wide, ← Int32.toInt_toInt64]
    rfl
  omega

theorem magnitude_lt (large : n ≠ Int32.minValue) : magnitude n < 10 ^ 10 := by
  unfold magnitude
  split
  · rename_i negative
    apply toNat_lt
    have below := Int32.lt_iff_toInt_lt.mp negative
    have least := n.le_toInt
    have other : n.toInt ≠ -2 ^ 31 := fun same => large (Int32.toInt_inj.mp same)
    rw [Int32.toInt_zero] at below
    rw [Int32.le_iff_toInt_le, Int32.toInt_neg, Int32.toInt_zero,
      Int.bmod_eq_of_le (by omega) (by omega)]
    omega
  · rename_i positive
    exact toNat_lt (Int32.not_lt.mp positive)

theorem satoi_signed {size : Nat} {after : Buffer UInt8}
    (numeral : IsNumeral 10 (magnitude n) digits)
    (text : after.Holds start (signOf n ++ (digits.map figure ++ [0])))
    (enough : (signOf n).length + digits.length + 1 ≤ size) :
    satoi (after.slice start size) = some (readBack n) := by
  obtain ⟨rest, same⟩ := text.slice (by simpa [Nat.add_assoc] using enough)
  have read : satoi (digits.map figure ++ 0 :: rest) = _ ∧ _ := satoi_numeral numeral
  have value : ∀ x : Int64, Int64.ofNat x.toUInt64.toNat = x := by
    intro x
    rw [← UInt64.toInt64_ofNat', UInt64.ofNat_toNat, Int64.toInt64_toUInt64]
  unfold magnitude at read
  rw [value, List.append_cons] at read
  rw [same]
  unfold signOf readBack
  by_cases negative : n < 0
  · rw [if_pos negative] at read ⊢
    rw [if_pos negative]
    exact read.2
  · rw [if_neg negative] at read ⊢
    rw [if_neg negative]
    exact read.1

theorem signOf_length : (signOf n).length ≤ 1 := by
  unfold signOf
  split <;> decide

theorem RoundTrips.readBack (trips : RoundTrips n start buffer) : readBack n = n.toInt64 := by
  obtain ⟨digits, after, done, numeral, _, text, _⟩ := signedIntToStr_spec n start buffer
  obtain ⟨other, same, _, read⟩ := trips.survives
  obtain rfl : after = other := Option.some.inj (done.symm.trans same)
  have sign : (signOf n).length ≤ 1 := signOf_length
  have whole := read (MAX_INT_LENGTH + digits.length) (Nat.le_add_right _ _)
  rw [satoi_signed numeral text (by unfold MAX_INT_LENGTH; omega)] at whole
  exact Option.some.inj whole

theorem signedIntToStr_round_trips_iff (n : Int32) (start : Nat) (buffer : Buffer UInt8) :
    RoundTrips n start buffer ↔ n ≠ Int32.minValue := by
  constructor
  · exact fun trips => readBack_eq_iff.mp trips.readBack
  · intro large
    obtain ⟨digits, after, done, numeral, short, text, writes⟩ := signedIntToStr_spec n start buffer
    have sign : (signOf n).length ≤ 1 := signOf_length
    have few := short 10 (by decide) (magnitude_lt large)
    refine ⟨after, done, writes.mono (Nat.le_refl _) (by unfold MAX_INT_LENGTH; omega), ?_⟩
    intro size enough
    rw [satoi_signed numeral text (by unfold MAX_INT_LENGTH at enough; omega),
      readBack_eq_iff.mpr large]

/-- The least `int` is printed as a number of 20 digits behind the sign. -/
theorem least_int_lost : ¬ ∀ n start buffer, RoundTrips n start buffer := by
  intro all
  have same := (all Int32.minValue 0 ⟨fun _ => 0, []⟩).readBack
  exact absurd same (by decide)

end SoKernel.Numerals
