import SoKernel.Userland.Printf

namespace SoKernel.Printf
open Lib Numerals

variable {memory : Nat → UInt8} {args : Nat → UInt64} {str output : Buffer UInt8}
variable {strings : UInt64 → List UInt8} {rounds steps format address taken k i : Nat}
variable {letter c : UInt8} {word : UInt64} {text : List UInt8}

/-! ## Strings in memory -/

theorem Stands.first (stands : Stands memory address (c :: text)) : memory address = c :=
  stands.chars 0 (Nat.succ_pos _)

theorem Stands.tail (stands : Stands memory address (c :: text)) :
    Stands memory (address + 1) text where
  chars j inside := by
    have there := stands.chars (j + 1) (by simpa using inside)
    rwa [show address + (j + 1) = address + 1 + j by omega] at there
  ended := by
    have there := stands.ended
    rwa [List.length_cons, show address + (text.length + 1) = address + 1 + text.length by omega]
      at there
  clean := fun member => stands.clean (List.mem_cons_of_mem _ member)

theorem Stands.first_ne (stands : Stands memory address (c :: text)) : c ≠ 0 := by
  rintro rfl
  exact stands.clean List.mem_cons_self

theorem Stands.shift (stands : Stands memory address text) :
    Stands (fun j => memory (address + j)) 0 text where
  chars j inside := by
    rw [Nat.zero_add]
    exact stands.chars j inside
  ended := by
    rw [Nat.zero_add]
    exact stands.ended
  clean := stands.clean

/-- The copying loop stops at the terminator. -/
theorem copyFrom_appends (k : Nat) (output : Buffer UInt8) (stands : Stands memory address text)
    (enough : text.length < rounds) :
    ∃ after, copyFrom memory rounds address k output = some (k + text.length, after) ∧
      Buffer.Appends k text output after := by
  induction text generalizing address k output rounds with
  | nil =>
    have ended := stands.ended
    cases rounds with
    | zero => exact absurd enough (Nat.not_lt_zero _)
    | succ rounds => exact ⟨output, if_pos ended, .nothing⟩
  | cons c text ih =>
    cases rounds with
    | zero => exact absurd enough (Nat.not_lt_zero _)
    | succ rounds =>
      have some : memory address ≠ 0 := by
        rw [stands.first]
        exact stands.first_ne
      obtain ⟨after, copied, appends⟩ := ih (k + 1) (output.write k c) stands.tail
        (Nat.lt_of_succ_lt_succ enough)
      refine ⟨after, ?_, Buffer.Appends.single.append appends⟩
      rw [copyFrom, if_neg some, stands.first, copied, List.length_cons]
      congr 2
      omega

/-! ## The conversions -/

theorem figure_ne_zero {d : Nat} (small : d < 16) : figure d ≠ 0 := by
  have all : ∀ d : Fin 16, figure d ≠ 0 := by decide
  exact all ⟨d, small⟩

theorem digits_clean {base value : Nat} (two : 2 ≤ base) (small : base ≤ 16) :
    0 ∉ (numeral base value).map figure := by
  intro member
  obtain ⟨d, digit, zero⟩ := List.mem_map.mp member
  have below := (isNumeral two).below d digit
  exact figure_ne_zero (by omega) zero

theorem stands_of_holds {after : Buffer UInt8} (holds : after.Holds 0 (text ++ [0]))
    (clean : 0 ∉ text) : Stands after.char 0 text where
  chars j inside := by
    rw [holds j (by simp; omega), List.getElem_append_left inside]
  ended := by
    rw [holds text.length (by simp), List.getElem_concat_length rfl]
  clean := clean

theorem uintToBase_stands (base : UInt32) (two : 2 ≤ base.toNat) (small : base.toNat ≤ 16)
    (value : UInt64) (str : Buffer UInt8) : ∃ after,
      (uintToBase value 0 base str).map Prod.snd = some after ∧
      Stands after.char 0 ((numeral base.toNat value.toNat).map figure) ∧
      Buffer.Writes 0 (((numeral base.toNat value.toNat).map figure).length + 1) str after := by
  obtain ⟨after, done, holds, writes⟩ := uintToBase_spec base two small value 0 str
  refine ⟨after, by rw [done]; rfl, stands_of_holds holds (digits_clean two small), ?_⟩
  rwa [List.length_map, ← Nat.zero_add (List.length _)]

theorem signedIntToStr_stands (n : Int32) (str : Buffer UInt8) : ∃ after,
    signedIntToStr n 0 str = some after ∧
      Stands after.char 0 (signOf n ++ (numeral 10 (magnitude n)).map figure) ∧
      Buffer.Writes 0 ((signOf n ++ (numeral 10 (magnitude n)).map figure).length + 1) str after := by
  have clean : 0 ∉ signOf n ++ (numeral 10 (magnitude n)).map figure := by
    rw [List.mem_append, not_or]
    refine ⟨?_, digits_clean (by decide) (by decide)⟩
    unfold signOf
    split <;> decide
  rw [List.length_append, List.length_map]
  unfold signedIntToStr magnitude signOf at *
  by_cases negative : n < 0
  · simp only [negative, if_true] at clean ⊢
    obtain ⟨after, done, text, writes⟩ := uintToBase_spec 10 (by decide) (by decide)
      (-n).toInt64.toUInt64 1 (str.write 0 minus)
    have signed : (str.write 0 minus).Holds 0 [minus] := (str.holds_nil 0).snoc
    have whole := (signed.kept writes (.inl (Nat.le_refl _))).append text
    rw [← List.append_assoc] at whole
    refine ⟨after, by rw [done]; rfl, stands_of_holds whole clean, ?_⟩
    exact (Buffer.writes_write (Nat.le_refl _) (Nat.succ_pos _)).trans
      (writes.mono (Nat.zero_le _) (Nat.le_refl _))
  · simp only [negative, if_false] at clean ⊢
    obtain ⟨after, done, text, writes⟩ := uintToBase_spec 10 (by decide) (by decide)
      n.toInt64.toUInt64 0 str
    exact ⟨after, by rw [done]; rfl, stands_of_holds text clean, by simpa using writes⟩

/-- The array holds the digits, and nothing behind their terminator was written. -/
theorem convert_stands (letter : UInt8) (word : UInt64) (str : Buffer UInt8) : ∃ after,
    convert letter word str = some after ∧ Stands after.char 0 (converted letter word) ∧
      Buffer.Writes 0 ((converted letter word).length + 1) str after := by
  unfold convert converted
  split
  · exact signedIntToStr_stands (asInt word) str
  · split
    · exact uintToBase_stands 16 (by decide) (by decide) (asInt word).toInt64.toUInt64 str
    · split
      · exact uintToBase_stands 16 (by decide) (by decide) word str
      · exact uintToBase_stands 10 (by decide) (by decide) word str

theorem digits_length {base value count : Nat} (two : 2 ≤ base) (positive : 1 ≤ count)
    (small : value < base ^ count) : ((numeral base value).map figure).length ≤ count := by
  rw [List.length_map]
  exact numeral_length two positive small

theorem converted_length (letter : UInt8) (word : UInt64) :
    (converted letter word).length ≤ MAX_INT_LENGTH := by
  have bound := word.toNat_lt
  have bound' := (asInt word).toInt64.toUInt64.toNat_lt
  have decimal : 2 ^ 64 < 10 ^ 20 := by decide
  unfold converted MAX_INT_LENGTH
  split
  · have sign : (signOf (asInt word)).length ≤ 1 := signOf_length
    have digits : ((numeral 10 (magnitude (asInt word))).map figure).length ≤ 20 :=
      digits_length (by decide) (by decide) (Nat.lt_trans (UInt64.toNat_lt _) decimal)
    rw [List.length_append]
    omega
  · split
    · have digits : ((numeral 16 (asInt word).toInt64.toUInt64.toNat).map figure).length ≤ 16 :=
        digits_length (by decide) (by decide) bound'
      omega
    · split
      · have digits : ((numeral 16 word.toNat).map figure).length ≤ 16 :=
          digits_length (by decide) (by decide) bound
        omega
      · have digits : ((numeral 10 word.toNat).map figure).length ≤ 20 :=
          digits_length (by decide) (by decide) (Nat.lt_trans bound decimal)
        omega

theorem printConverted_appends (str output : Buffer UInt8) (taken k : Nat) (letter : UInt8)
    (enough : MAX_INT_LENGTH < rounds) : ∃ after,
    printConverted args str rounds letter ⟨taken, k, output⟩ =
        some ⟨taken + 1, k + (converted letter (args taken)).length, after⟩ ∧
      Buffer.Appends k (converted letter (args taken)) output after := by
  obtain ⟨array, done, stands, _⟩ := convert_stands letter (args taken) str
  have short := converted_length letter (args taken)
  obtain ⟨after, copied, appends⟩ :=
    copyFrom_appends k output stands (Nat.lt_of_le_of_lt short enough)
  refine ⟨after, ?_, appends⟩
  unfold printConverted
  rw [done, Option.bind_some, copied]
  rfl

/-- A conversion appends its piece of the text. -/
theorem conversion_appends (str output : Buffer UInt8) (k : Nat) (letter : UInt8)
    (enough : MAX_INT_LENGTH < rounds)
    (string : letter = letterS → Stands memory (args taken).toNat (strings (args taken)) ∧
      (strings (args taken)).length < rounds) : ∃ after,
    conversion memory args str rounds letter ⟨taken, k, output⟩ =
        some ⟨if Takes letter then taken + 1 else taken,
          k + (piece strings letter (args taken)).length, after⟩ ∧
      Buffer.Appends k (piece strings letter (args taken)) output after := by
  unfold conversion piece
  dsimp only
  by_cases numeric : letter = letterD ∨ letter = letterL ∨ letter = letterX
  · obtain ⟨after, done, appends⟩ := printConverted_appends str output taken k letter enough
    have takes : Takes letter := by
      unfold Takes
      tauto
    rw [if_pos numeric, if_pos numeric, if_pos takes]
    exact ⟨after, done, appends⟩
  · rw [if_neg numeric, if_neg numeric]
    by_cases pointer : letter = letterP
    · have prefixed : Buffer.Appends k [zeroDigit, letterX] output
          ((output.write k zeroDigit).write (k + 1) letterX) :=
        Buffer.Appends.single.append Buffer.Appends.single
      obtain ⟨after, done, appends⟩ := printConverted_appends str
        ((output.write k zeroDigit).write (k + 1) letterX) taken (k + 2) letter enough
      have takes : Takes letter := by
        unfold Takes
        tauto
      rw [if_pos pointer, if_pos pointer, if_pos takes, done]
      refine ⟨after, ?_, prefixed.append appends⟩
      rw [List.length_append, ← Nat.add_assoc]
      rfl
    · rw [if_neg pointer, if_neg pointer]
      by_cases stringy : letter = letterS
      · obtain ⟨stands, short⟩ := string stringy
        have takes : Takes letter := by
          unfold Takes
          tauto
        obtain ⟨after, copied, appends⟩ := copyFrom_appends k output stands.shift short
        rw [if_pos stringy, if_pos stringy, if_pos takes, copied]
        exact ⟨after, rfl, appends⟩
      · rw [if_neg stringy, if_neg stringy]
        by_cases single : letter = letterC
        · have takes : Takes letter := by
            unfold Takes
            tauto
          rw [if_pos single, if_pos single, if_pos takes]
          exact ⟨_, rfl, .single⟩
        · have leaves : ¬ Takes letter := by
            unfold Takes
            tauto
          rw [if_neg single, if_neg single, if_neg leaves]
          exact ⟨output, rfl, .nothing⟩

/-! ## The whole format -/

/-- Every string that the format asks for stands in memory, and is copied within the rounds. -/
def Readable (memory : Nat → UInt8) (strings : UInt64 → List UInt8) (rounds : Nat)
    (words : List UInt64) : Prop :=
  ∀ word ∈ words, Stands memory word.toNat (strings word) ∧ (strings word).length < rounds

theorem formatLoop_end (stands : Stands memory (format + i) []) {steps : Nat} (some : 0 < steps)
    (printed : Printed) :
    formatLoop memory args str rounds format steps i printed = .some printed := by
  have ended : memory (format + i) = 0 := stands.ended
  cases steps with
  | zero => exact absurd some (Nat.lt_irrefl 0)
  | succ steps => exact if_pos ended

/-- A character that begins no conversion is copied. -/
theorem formatLoop_plain (stands : Stands memory (format + i) (c :: text))
    (plain : ¬ (c = percent ∧ memory (format + i + 1) ≠ 0)) (steps : Nat) (printed : Printed) :
    formatLoop memory args str rounds format (steps + 1) i printed =
      formatLoop memory args str rounds format steps (i + 1)
        { printed with k := printed.k + 1, output := printed.output.write printed.k c } := by
  have first := stands.first
  rw [formatLoop, first, if_neg stands.first_ne, if_neg plain]

/-- From any place of the format on, the loop appends what the rest stands for. -/
theorem formatLoop_appends (str output : Buffer UInt8) (k : Nat) (enough : MAX_INT_LENGTH < rounds)
    (stands : Stands memory (format + i) text) (longer : text.length < steps)
    (readable : Readable memory strings rounds (pointers args text taken)) : ∃ last after,
    formatLoop memory args str rounds format steps i ⟨taken, k, output⟩ =
        some ⟨last, k + (rendering strings args text taken).length, after⟩ ∧
      Buffer.Appends k (rendering strings args text taken) output after := by
  induction text, taken using rendering.induct generalizing i k output steps with
  | case1 taken =>
    exact ⟨taken, output, formatLoop_end stands longer _, .nothing⟩
  | case2 c taken =>
    obtain ⟨steps, rfl⟩ : ∃ n, steps = n + 1 := ⟨steps - 1, by omega⟩
    have next : memory (format + i + 1) = 0 := stands.tail.ended
    refine ⟨taken, output.write k c, ?_, .single⟩
    rw [formatLoop_plain stands (fun both => both.2 next)]
    exact formatLoop_end (i := i + 1) stands.tail (by simpa using longer) _
  | case3 letter rest taken ih =>
    obtain ⟨steps, rfl⟩ : ∃ n, steps = n + 1 := ⟨steps - 1, by omega⟩
    have first := stands.first
    have next := stands.tail.first
    simp only [List.length_cons] at longer
    rw [pointers, if_pos rfl] at readable
    have string : letter = letterS → Stands memory (args taken).toNat (strings (args taken)) ∧
        (strings (args taken)).length < rounds := by
      rintro rfl
      exact readable (args taken) (by simp)
    obtain ⟨middle, done, appends⟩ := conversion_appends str output k letter enough string
    have shorter : rest.length < steps := by omega
    obtain ⟨last, after, looped, more⟩ := ih middle
      (k + (piece strings letter (args taken)).length) (i := i + 2) stands.tail.tail shorter
      fun word member => readable word (List.mem_append_right _ member)
    refine ⟨last, after, ?_, ?_⟩
    · rw [formatLoop, first, next, if_neg (by decide), if_pos ⟨rfl, stands.tail.first_ne⟩, done,
        Option.bind_some, looped, rendering, if_pos rfl, List.length_append, Nat.add_assoc]
    · rw [rendering, if_pos rfl]
      exact appends.append more
  | case4 c letter rest taken different ih =>
    obtain ⟨steps, rfl⟩ : ∃ n, steps = n + 1 := ⟨steps - 1, by omega⟩
    rw [pointers, if_neg different] at readable
    have shorter : (letter :: rest).length < steps := Nat.lt_of_succ_lt_succ longer
    obtain ⟨last, after, looped, more⟩ := ih (output.write k c) (k + 1) (i := i + 1) stands.tail
      shorter readable
    refine ⟨last, after, ?_, ?_⟩
    · rw [formatLoop_plain stands (fun both => different both.1), looped, rendering,
        if_neg different, List.length_cons]
      congr 2
      omega
    · rw [rendering, if_neg different]
      exact Buffer.Appends.single.append more

end SoKernel.Printf
