import SoKernel.Lib.Buffer
import SoKernel.Lib.Numeral

namespace SoKernel.Numerals
open Lib

/-! ## `stdlib.c` -/

/-- The character of a remainder. -/
def digitChar (remainder : UInt32) : UInt8 :=
  (if remainder < 10 then remainder + 48 else remainder + 65 - 10).toUInt8

/-- The first loop of `uintToBase`, at most `rounds` times: where `p` ends and how many digits
there are; `none` if it goes on. -/
def produce (base : UInt32) :
    Nat → UInt64 → Nat → Nat → Buffer UInt8 → Option (Nat × Nat × Buffer UInt8)
  | 0, _, _, _, _ => none
  | rounds + 1, value, p, digits, buffer =>
    let remainder := (value % base.toUInt64).toUInt32
    let buffer := buffer.write p (digitChar remainder)
    let value := value / base.toUInt64
    if value ≠ 0 then produce base rounds value (p + 1) (digits + 1) buffer
    else some (p + 1, digits + 1, buffer)

/-- The second loop: characters change places until the pointers meet, at most `rounds` times. -/
def swap : Nat → Nat → Nat → Buffer UInt8 → Buffer UInt8
  | 0, _, _, buffer => buffer
  | rounds + 1, p1, p2, buffer =>
    if p1 < p2 then
      let tmp := buffer.char p1
      swap rounds (p1 + 1) (p2 - 1) ((buffer.write p1 (buffer.char p2)).write p2 tmp)
    else buffer

/-- `start` is where the caller's buffer begins. A value has at most 64 digits in any base. -/
def uintToBase (value : UInt64) (start : Nat) (base : UInt32) (buffer : Buffer UInt8) :
    Option (Nat × Buffer UInt8) :=
  (produce base 64 value start 0 buffer).map fun (p, digits, buffer) =>
    (digits, swap digits start (p - 1) (buffer.write p 0))

/-! ## The first loop -/

variable {buffer : Buffer UInt8} {value : UInt64} {base : UInt32}
variable {start rounds p p1 p2 i : Nat} {done text : List UInt8}

/-- The digits from 0 to 15. -/
def figure (d : Nat) : UInt8 := ("0123456789ABCDEF".toList.getD d ' ').toNat.toUInt8

theorem digitChar_ofNat {d : Nat} (small : d < 16) : digitChar (UInt32.ofNat d) = figure d := by
  have all : ∀ d : Fin 16, digitChar (UInt32.ofNat d) = figure d := by decide
  exact all ⟨d, small⟩

theorem remainder_eq (two : 2 ≤ base.toNat) (small : base.toNat ≤ 16) :
    digitChar (value % base.toUInt64).toUInt32 = figure (value.toNat % base.toNat) := by
  have below : value.toNat % base.toNat < base.toNat := Nat.mod_lt _ (by omega)
  have same : (value % base.toUInt64).toUInt32 = UInt32.ofNat (value.toNat % base.toNat) := by
    rw [← UInt32.toNat_inj, UInt64.toNat_toUInt32, UInt64.toNat_mod, UInt32.toNat_toUInt64,
      UInt32.toNat_ofNat']
  rw [same, digitChar_ofNat (by omega)]

/-- The digits are written, the lowest first. -/
theorem produce_spec (two : 2 ≤ base.toNat) (small : base.toNat ≤ 16) (positive : rounds ≠ 0)
    (enough : value.toNat < base.toNat ^ rounds) (holds : buffer.Holds start done) : ∃ after,
      produce base rounds value (start + done.length) done.length buffer =
        some (start + done.length + (lowDigits base.toNat value.toNat).length,
          done.length + (lowDigits base.toNat value.toNat).length, after) ∧
      after.Holds start (done ++ (lowDigits base.toNat value.toNat).map figure) ∧
      Buffer.Writes (start + done.length)
        (start + done.length + (lowDigits base.toNat value.toNat).length) buffer after := by
  induction rounds generalizing value buffer done with
  | zero => exact absurd rfl positive
  | succ rounds ih =>
    have quotient : (value / base.toUInt64).toNat = value.toNat / base.toNat := by
      rw [UInt64.toNat_div, UInt32.toNat_toUInt64]
    have wrote := holds.snoc (c := figure (value.toNat % base.toNat))
    rw [produce, remainder_eq two small, lowDigits_eq two]
    by_cases more : value / base.toUInt64 = 0
    · have last : value.toNat / base.toNat = 0 := by rw [← quotient, more]; rfl
      rw [if_pos last, if_neg (not_not.mpr more)]
      exact ⟨_, rfl, wrote, Buffer.writes_write (Nat.le_refl _) (Nat.lt_succ_self _)⟩
    · have next : value.toNat / base.toNat ≠ 0 := by
        rw [← quotient]
        exact fun zero => more (UInt64.toNat_inj.mp zero)
      have smaller : value.toNat / base.toNat < base.toNat ^ rounds :=
        Nat.div_lt_of_lt_mul (by rwa [← Nat.pow_succ'])
      have again : rounds ≠ 0 := by
        rintro rfl
        exact next (Nat.lt_one_iff.mp smaller)
      rw [← quotient] at smaller
      obtain ⟨after, produced, text, writes⟩ := ih again smaller wrote
      rw [quotient, List.length_append, List.length_singleton, ← Nat.add_assoc] at produced writes
      rw [quotient, List.append_assoc] at text
      rw [if_neg next, if_pos more, List.length_cons, produced]
      have count : ∀ a n : Nat, a + 1 + n = a + (n + 1) := by omega
      rw [count, count]
      rw [count] at writes
      exact ⟨after, rfl, text, (Buffer.writes_write (Nat.le_refl _) (by omega)).trans
        (writes.mono (Nat.le_succ _) (Nat.le_refl _))⟩

/-! ## The second loop -/

/-- What stands between the pointers is turned around. -/
theorem swap_char (enough : p2 ≤ p1 + 2 * rounds) (i : Nat) : (swap rounds p1 p2 buffer).char i =
    if p1 ≤ i ∧ i ≤ p2 then buffer.char (p1 + p2 - i) else buffer.char i := by
  induction rounds generalizing p1 p2 buffer with
  | zero =>
    unfold swap
    split
    · rw [show p1 + p2 - i = i by omega]
    · rfl
  | succ rounds ih =>
    rw [swap]
    by_cases apart : p1 < p2
    · rw [if_pos apart, ih (by omega)]
      simp only [Buffer.write_char]
      by_cases inner : p1 + 1 ≤ i ∧ i ≤ p2 - 1
      · rw [if_pos inner, if_neg (by omega), if_neg (by omega), if_pos (by omega),
          show p1 + 1 + (p2 - 1) - i = p1 + p2 - i by omega]
      · rw [if_neg inner]
        by_cases high : i = p2
        · rw [if_pos high, if_pos (by omega), show p1 + p2 - i = p1 by omega]
        · rw [if_neg high]
          by_cases low : i = p1
          · rw [if_pos low, if_pos (by omega), show p1 + p2 - i = p2 by omega]
          · rw [if_neg low, if_neg (by omega)]
    · rw [if_neg apart]
      split
      · rw [show p1 + p2 - i = i by omega]
      · rfl

theorem swap_writes (rounds p1 p2 : Nat) (buffer : Buffer UInt8) :
    Buffer.Writes p1 (p2 + 1) buffer (swap rounds p1 p2 buffer) := by
  induction rounds generalizing p1 p2 buffer with
  | zero => exact .refl
  | succ rounds ih =>
    rw [swap]
    split
    · exact ((Buffer.writes_write (by omega) (by omega)).write (by omega) (by omega)).trans
        ((ih _ _ _).mono (by omega) (by omega))
    · exact .refl

theorem swap_holds (some : text ≠ []) (holds : buffer.Holds start text) :
    (swap text.length start (start + text.length - 1) buffer).Holds start text.reverse := by
  have positive := List.length_pos_iff.mpr some
  intro j inside
  rw [List.length_reverse] at inside
  rw [swap_char (by omega), if_pos (by omega), List.getElem_reverse,
    show start + (start + text.length - 1) - (start + j) = start + (text.length - 1 - j) by omega]
  exact holds _ (by omega)

/-! ## The numeral -/

theorem uintToBase_spec (base : UInt32) (two : 2 ≤ base.toNat) (small : base.toNat ≤ 16)
    (value : UInt64) (start : Nat) (buffer : Buffer UInt8) : ∃ after,
      uintToBase value start base buffer =
        some ((numeral base.toNat value.toNat).length, after) ∧
      after.Holds start ((numeral base.toNat value.toNat).map figure ++ [0]) ∧
      Buffer.Writes start (start + (numeral base.toNat value.toNat).length + 1) buffer after := by
  have enough : value.toNat < base.toNat ^ 64 :=
    Nat.lt_of_lt_of_le value.toNat_lt (Nat.pow_le_pow_left two 64)
  have some : numeral base.toNat value.toNat ≠ [] := (isNumeral two).some
  obtain ⟨written, produced, text, writes⟩ :=
    produce_spec two small (by decide) enough (buffer.holds_nil start)
  rw [List.length_nil, Nat.add_zero] at produced writes
  rw [Nat.zero_add] at produced
  rw [List.nil_append] at text
  unfold numeral at some ⊢
  generalize lowDigits base.toNat value.toNat = digits at produced text writes some
  have length : (digits.map figure).length = digits.length := List.length_map _
  have full : digits.map figure ≠ [] := by
    simpa using some
  have positive := List.length_pos_iff.mpr full
  have ended : Buffer.Writes (start + digits.length) (start + digits.length + 1) written
      (written.write (start + digits.length) 0) :=
    Buffer.writes_write (Nat.le_refl _) (Nat.lt_succ_self _)
  have nul : (written.write (start + digits.length) 0).Holds (start + digits.length) [0] :=
    (written.holds_nil (start + digits.length)).snoc
  have swapped : Buffer.Writes start (start + digits.length)
      (written.write (start + digits.length) 0) (swap digits.length start
        (start + digits.length - 1) (written.write (start + digits.length) 0)) := by
    have bounds : start + digits.length - 1 + 1 = start + digits.length := by omega
    have between := swap_writes digits.length start (start + digits.length - 1)
      (written.write (start + digits.length) 0)
    rwa [bounds] at between
  refine ⟨swap digits.length start (start + digits.length - 1)
    (written.write (start + digits.length) 0), ?_, ?_, ?_⟩
  · unfold uintToBase
    rw [produced, List.length_reverse]
    rfl
  · have turned := swap_holds full (text.kept ended (.inl (by rw [length])))
    rw [length, ← List.map_reverse] at turned
    refine turned.append ?_
    rw [List.length_map, List.length_reverse]
    exact nul.kept swapped (.inr (Nat.le_refl _))
  · rw [List.length_reverse]
    exact ((writes.mono (Nat.le_refl _) (by omega)).trans
      (ended.mono (by omega) (Nat.le_refl _))).trans
      (swapped.mono (Nat.le_refl _) (by omega))

/-- Whatever the buffer held: the numeral and its terminator, and nothing else is written. -/
theorem uintToBase_numeral (value : UInt64) (start : Nat) (buffer : Buffer UInt8)
    (either : base = 10 ∨ base = 16) : ∃ digits after,
      uintToBase value start base buffer = some (digits.length, after) ∧
      IsNumeral base.toNat value.toNat digits ∧
      digits.length ≤ (if base = 10 then 20 else 16) ∧
      after.Holds start (digits.map figure ++ [0]) ∧
      Buffer.Writes start (start + digits.length + 1) buffer after := by
  have bound := value.toNat_lt
  have two : 2 ≤ base.toNat := by rcases either with rfl | rfl <;> decide
  have small : base.toNat ≤ 16 := by rcases either with rfl | rfl <;> decide
  have short : (numeral base.toNat value.toNat).length ≤ if base = 10 then 20 else 16 := by
    rcases either with rfl | rfl
    · exact numeral_length (by decide) (by decide) (Nat.lt_trans bound (by decide))
    · exact numeral_length (by decide) (by decide) (Nat.lt_of_lt_of_le bound (by decide))
  obtain ⟨after, done, text, writes⟩ := uintToBase_spec base two small value start buffer
  exact ⟨_, after, done, isNumeral two, short, text, writes⟩

/-- The largest value, in an empty buffer. -/
theorem uintToBase_numeral_largest : ∃ digits after,
    uintToBase 0xFFFFFFFFFFFFFFFF 0 16 ⟨fun _ => 0, []⟩ = some (digits.length, after) ∧
    IsNumeral 16 (2 ^ 64 - 1) digits ∧ digits.length ≤ 16 ∧
    after.Holds 0 (digits.map figure ++ [0]) ∧
    Buffer.Writes 0 (0 + digits.length + 1) ⟨fun _ => 0, []⟩ after :=
  uintToBase_numeral 0xFFFFFFFFFFFFFFFF 0 ⟨fun _ => 0, []⟩ (.inr rfl)

end SoKernel.Numerals
