import SoKernel.Userland.Arguments

namespace SoKernel.Arguments
open Lib

variable {rows buffer temp_storage : Rows} {strings : Strings} {row i j n x length : Nat}
variable {max_size expected_args arg : Nat} {args : Nat → Nat} {memory : Bytes}
variable {src : Nat → UInt8} {text junk token : List UInt8} {ts : List (List UInt8)}

/-! ## Copies -/

theorem foldl_write_row : ((List.range n).foldl (fun dest i => Rows.write row i (src i) dest)
    rows).char row i = if i < n then src i else rows.char row i := by
  induction n with
  | zero => rfl
  | succ n ih =>
    rw [List.range_succ, List.foldl_append, List.foldl_cons, List.foldl_nil, Rows.write_char, ih]
    by_cases last : i = n
    · simp [last]
    · rw [if_neg last]
      exact if_congr (by omega) rfl rfl

theorem strncpy_row : (strncpy (Rows.write row) src length rows).char row i =
    if i = length then 0 else if i < length then src i else rows.char row i := by
  unfold strncpy
  rw [Rows.write_char, foldl_write_row]

theorem Strings.write_memory {c : UInt8} (small : args i + j < 2 ^ 64) :
    (strings.write args i j c).memory x = if x = args i + j then c else strings.memory x := by
  unfold Strings.write
  dsimp only
  by_cases here : x = args i + j
  · rw [here, Bytes.store_here small, if_pos rfl]
  · rw [Bytes.store_other small here, if_neg here]

theorem foldl_write_string (small : args row + n ≤ 2 ^ 64) :
    ((List.range n).foldl (fun dest i => Strings.write args row i (src i) dest) strings).memory x =
      if args row ≤ x ∧ x < args row + n then src (x - args row) else strings.memory x := by
  induction n with
  | zero => rw [if_neg (by omega), List.range_zero, List.foldl_nil]
  | succ n ih =>
    rw [List.range_succ, List.foldl_append, List.foldl_cons, List.foldl_nil,
      Strings.write_memory (by omega), ih (by omega)]
    by_cases last : x = args row + n
    · rw [if_pos last, if_pos (by omega), last, Nat.add_sub_cancel_left]
    · rw [if_neg last]
      exact if_congr (by omega) rfl rfl

/-- The last character is overwritten, and one more is written behind the buffer. -/
theorem copyArg_memory (small : args i + 32 < 2 ^ 64) :
    (copyArg args rows 32 strings i).memory x =
      if args i ≤ x ∧ x < args i + 31 then rows.char i (x - args i)
      else if x = args i + 31 ∨ x = args i + 32 then 0 else strings.memory x := by
  unfold copyArg strncpy
  rw [Strings.write_memory (by omega), Strings.write_memory small, foldl_write_string (by omega)]
  by_cases body : args i ≤ x ∧ x < args i + 31
  · rw [if_neg (by omega), if_neg (by omega), if_pos (by omega), if_pos body]
  · rw [if_neg body]
    by_cases last : x = args i + 31
    · rw [if_pos last, if_pos (.inl last)]
    · rw [if_neg last]
      by_cases behind : x = args i + 32
      · rw [if_pos behind, if_pos (.inr behind)]
      · rw [if_neg behind, if_neg (by omega), if_neg (by omega)]

/-! ## The temporary copy -/

/-- The characters of the string at `arg`, as far as the copy goes; NULL has none. -/
def textAt (memory : Bytes) (arg : Nat) : List UInt8 :=
  if arg = 0 then []
  else ((List.range 1023).map fun i => memory ((arg + i) % 2 ^ 64)).takeWhile fun c => c ≠ 0

theorem textAt_clean : 0 ∉ textAt memory arg := by
  unfold textAt
  split
  · exact List.not_mem_nil
  · intro member
    simpa using List.mem_takeWhile_imp member

theorem textAt_eq_nil : textAt memory arg = [] ↔ arg = 0 ∨ memory (arg % 2 ^ 64) = 0 := by
  unfold textAt
  by_cases null : arg = 0
  · simp [null]
  · rw [if_neg null, List.range_succ_eq_map, List.map_cons, List.takeWhile_cons, Nat.add_zero]
    generalize memory (arg % 2 ^ 64) = first
    by_cases zero : first = 0 <;> simp [null, zero]

theorem copied_eq (n : Nat) (src : Nat → UInt8) (buffer : Rows) :
    (List.range (n + 1)).map (((strncpy (Rows.write 0) src n buffer).write 0 n 0).char 0) =
      (List.range n).map src ++ [0] := by
  have body : ∀ i ∈ List.range n,
      ((strncpy (Rows.write 0) src n buffer).write 0 n 0).char 0 i = src i := by
    intro i member
    have inside := List.mem_range.mp member
    rw [Rows.write_char, if_neg (by omega), strncpy_row, if_neg (by omega), if_pos inside]
  rw [List.range_succ, List.map_append, List.map_singleton, Rows.write_char, if_pos rfl,
    List.map_congr_left body]

/-- The terminator at the end is needed where there is none before. -/
theorem ended_text (chars : List UInt8) :
    ∃ junk, chars ++ [0] = (chars.takeWhile fun c => c ≠ 0) ++ 0 :: junk := by
  have first := List.head?_dropWhile_not (fun c : UInt8 => c ≠ 0) chars
  have split := List.takeWhile_append_dropWhile (p := fun c : UInt8 => c ≠ 0) (l := chars)
  generalize chars.dropWhile (fun c => c ≠ 0) = tail at first split
  cases tail with
  | nil =>
    rw [List.append_nil] at split
    exact ⟨[], by rw [split]⟩
  | cons c tail =>
    have zero : c = 0 := by simpa using first
    refine ⟨tail ++ [0], ?_⟩
    rw [zero] at split
    rw [← List.cons_append, ← List.append_assoc, split]

/-- The buffer begins with the characters and a terminator. -/
theorem buffer_text (memory : Bytes) (some : arg ≠ 0) (buffer : Rows) : ∃ junk, (List.range 1024).map
    (((strncpy (Rows.write 0) (fun i => memory ((arg + i) % 2 ^ 64)) 1023 buffer).write 0 1023
      0).char 0) = textAt memory arg ++ 0 :: junk := by
  rw [copied_eq 1023]
  unfold textAt
  rw [if_neg some]
  exact ended_text _

/-- A pointer to a string in memory. -/
structure PointsTo (memory : Bytes) (arg : Nat) (text : List UInt8) : Prop where
  some : arg ≠ 0
  holds : memory.Holds arg (text ++ [0])
  clean : 0 ∉ text

/-- A short string is copied whole. -/
theorem PointsTo.textAt (string : PointsTo memory arg text) (short : text.length < 1024) :
    textAt memory arg = text := by
  obtain ⟨nonnull, holds, clean⟩ := string
  have all : ∀ c ∈ text, decide (c ≠ 0) = true := by
    intro c member
    rw [decide_eq_true_eq]
    rintro rfl
    exact clean member
  have size : text.length + 1 ≤ (text ++ [0]).length := by simp
  unfold Arguments.textAt
  rw [if_neg nonnull]
  generalize read : (List.range 1023).map _ = chars
  have char : ∀ i < 1023, chars[i]? = Option.some (memory ((arg + i) % 2 ^ 64)) := by
    intro i inside
    rw [← read, List.getElem?_map, List.getElem?_range inside]
    rfl
  have length : chars.length = 1023 := by rw [← read, List.length_map, List.length_range]
  have start : chars.take text.length = text := by
    apply List.ext_getElem
    · rw [List.length_take]
      omega
    · intro i before inside
      have there := holds i (by omega)
      rw [List.getElem_append_left inside] at there
      rw [List.getElem_take, ← there]
      exact Option.some.inj ((List.getElem?_eq_getElem _).symm.trans (char i (by omega)))
  have ends : (chars.drop text.length).takeWhile (fun c => c ≠ 0) = [] := by
    by_cases whole : text.length = 1023
    · rw [List.drop_eq_nil_of_le (by omega), List.takeWhile_nil]
    · have zero := holds text.length (by omega)
      rw [List.getElem_concat_length rfl] at zero
      have next := char text.length (by omega)
      rw [zero, ← List.head?_drop] at next
      obtain ⟨behind, first⟩ := List.head?_eq_some_iff.mp next
      rw [first]
      rfl
  rw [← List.take_append_drop text.length chars, start, List.takeWhile_append_of_pos all, ends,
    List.append_nil]

/-- The comparison of a word with `"&"`. -/
theorem strcmp_ampersand (holds : rows.Holds row (token ++ [0])) (clean : 0 ∉ token)
    (full : token ≠ []) : strcmp (rows.char row) [ampersand] = 0 ↔ token = [ampersand] := by
  have differ : ∀ a b : UInt8, char a - char b = 0 ↔ a = b := by
    intro a b
    unfold char
    rw [sub_eq_zero, Int8.toInt_inj]
    exact ⟨fun same => congrArg Int8.toUInt8 same, congrArg UInt8.toInt8⟩
  cases token with
  | nil => exact absurd rfl full
  | cons c rest =>
    have some : c ≠ 0 := by
      rintro rfl
      exact clean List.mem_cons_self
    have first : rows.char row 0 = c := holds 0 (by simp)
    have second : rows.char row 1 = (rest ++ [0]).headD 0 := by
      have next := holds 1 (by simp)
      rw [next]
      cases rest <;> rfl
    unfold strcmp
    rw [first]
    by_cases same : c = ampersand
    · rw [if_pos ⟨some, same⟩]
      have zero : strcmp (fun i => rows.char row (i + 1)) [] =
          char ((rest ++ [0]).headD 0) - char 0 := by
        unfold strcmp
        rw [← second]
        exact (sub_zero _).symm
      rw [zero, differ]
      cases rest with
      | nil => simp [same]
      | cons d rest =>
        have other : d ≠ 0 := by
          rintro rfl
          exact clean (List.mem_cons_of_mem _ List.mem_cons_self)
        simp [other]
    · rw [if_neg fun both => same both.2, differ]
      simp [same]

/-! ## What the caller gets -/

/-- Strings of 32 characters each, none over another. -/
structure Buffers (args : Nat → Nat) (expected_args : Nat) : Prop where
  inside : ∀ i < expected_args, args i + 32 < 2 ^ 64
  apart : ∀ i < expected_args, ∀ j < expected_args, i ≠ j →
    args i + 32 ≤ args j ∨ args j + 32 ≤ args i

/-- The first words, each in its string. -/
def Delivered (args : Nat → Nat) (expected_args : Nat) (ts : List (List UInt8)) (memory : Bytes) :
    Prop :=
  ∀ i < expected_args, memory.Holds (args i) (ts.getD i [] ++ [0])

/-- No string begins where a later one ends. -/
def NoneBehind (args : Nat → Nat) (expected_args : Nat) : Prop :=
  ∀ i j, i < j → j < expected_args → args j + 32 ≠ args i

/-- Words that fit a string and are not empty. -/
structure Fits (rows : Rows) (expected_args : Nat) (ts : List (List UInt8)) : Prop where
  rows : ∀ i < expected_args, rows.Holds i (ts.getD i [] ++ [0])
  short : ∀ i < expected_args, (ts.getD i []).length ≤ 31
  full : ∀ i < expected_args, ts.getD i [] ≠ []
  clean : ∀ i < expected_args, 0 ∉ ts.getD i []

theorem copyArg_here (buffers : Buffers args expected_args) (fits : Fits rows expected_args ts)
    (inside : i < expected_args) :
    (copyArg args rows 32 strings i).memory.Holds (args i) (ts.getD i [] ++ [0]) := by
  have small := buffers.inside i inside
  have short := fits.short i inside
  have length : (ts.getD i [] ++ [0]).length = (ts.getD i []).length + 1 := by simp
  intro k within
  rw [Nat.mod_eq_of_lt (by omega), copyArg_memory small]
  by_cases body : k < 31
  · rw [if_pos (by omega), Nat.add_sub_cancel_left]
    exact fits.rows i inside k within
  · obtain rfl : k = 31 := by omega
    rw [if_neg (by omega), if_pos (.inl rfl), List.getElem_append_right (by omega)]
    simp

/-- A string with a word survives the copy of a later one, unless it begins behind it. -/
theorem copyArg_survived (holds : strings.memory.Holds (args i) (token ++ [0]))
    (buffers : Buffers args expected_args) (apart : args n + 32 ≠ args i) (inside : i < expected_args)
    (within : n < expected_args) (other : i ≠ n) (short : token.length ≤ 31) :
    (copyArg args rows 32 strings n).memory.Holds (args i) (token ++ [0]) := by
  have small := buffers.inside i inside
  have small' := buffers.inside n within
  have length : (token ++ [0]).length = token.length + 1 := by simp
  refine holds.congr (by omega) ?_
  intro x low high
  have sides := buffers.apart i inside n within other
  rw [copyArg_memory small', if_neg (by omega), if_neg (by omega)]

theorem delivered_of_apart (buffers : Buffers args expected_args) (fits : Fits rows expected_args ts)
    (apart : NoneBehind args expected_args) (part : n ≤ expected_args) :
    Delivered args n ts ((List.range n).foldl (copyArg args rows 32) strings).memory := by
  induction n with
  | zero => exact fun i inside => absurd inside (Nat.not_lt_zero i)
  | succ n ih =>
    intro i inside
    rw [List.range_succ, List.foldl_append, List.foldl_cons, List.foldl_nil]
    rcases Nat.eq_or_lt_of_le (Nat.le_of_lt_succ inside) with rfl | earlier
    · exact copyArg_here buffers fits part
    · exact copyArg_survived (ih (by omega) i earlier) buffers (apart i n earlier part) (by omega)
        part (by omega) (fits.short i (by omega))

/-- The terminator behind a string stays where an earlier one began. -/
theorem overwritten_stays (rows : Rows) (strings : Strings)
    (buffers : Buffers args expected_args) (before : i < j)
    (behind : args j + 32 = args i) (later : j < n) (part : n ≤ expected_args) :
    ((List.range n).foldl (copyArg args rows 32) strings).memory (args i) = 0 := by
  induction n with
  | zero => exact absurd later (Nat.not_lt_zero j)
  | succ n ih =>
    rw [List.range_succ, List.foldl_append, List.foldl_cons, List.foldl_nil,
      copyArg_memory (buffers.inside n part)]
    have sides := buffers.apart i (by omega) n part (by omega)
    rw [if_neg (by omega)]
    by_cases here : args i = args n + 31 ∨ args i = args n + 32
    · rw [if_pos here]
    · rw [if_neg here]
      have more : j < n := by
        rcases Nat.eq_or_lt_of_le (Nat.le_of_lt_succ later) with rfl | less
        · exact absurd (.inr behind.symm) here
        · exact less
      exact ih more (by omega)

theorem delivered_iff (strings : Strings) (buffers : Buffers args expected_args)
    (fits : Fits rows expected_args ts) : Delivered args expected_args ts
        ((List.range expected_args).foldl (copyArg args rows 32) strings).memory ↔
      NoneBehind args expected_args := by
  constructor
  · intro delivered i j before inside behind
    have zero := overwritten_stays rows strings buffers before behind inside (Nat.le_refl _)
    have first := delivered i (by omega) 0 (by simp)
    have small := buffers.inside i (by omega)
    rw [Nat.add_zero, Nat.mod_eq_of_lt (by omega), zero] at first
    have positive := List.length_pos_iff.mpr (fits.full i (by omega))
    rw [List.getElem_append_left positive] at first
    apply fits.clean i (by omega)
    rw [first]
    exact List.getElem_mem positive
  · exact fun apart => delivered_of_apart buffers fits apart (Nat.le_refl _)

/-! ## The grammar -/

/-- The words are the arguments. -/
def Foreground (ts : List (List UInt8)) (expected_args : Nat) : Prop :=
  ts.length = expected_args ∧ ts.getLast? ≠ some [ampersand]

/-- The words are the arguments and `"&"`. -/
def Background (ts : List (List UInt8)) (expected_args : Nat) : Prop :=
  ts.length = expected_args + 1 ∧ ts.getLast? = some [ampersand]

theorem tokens_fit (two : 2 ≤ max_size) (clean : 0 ∉ text) (member : token ∈ tokens max_size text) :
    token ≠ [] ∧ 0 ∉ token ∧ token.length ≤ max_size - 1 := by
  obtain ⟨run, here, rfl⟩ := List.mem_map.mp member
  obtain ⟨full, _, inside⟩ := mem_words here
  refine ⟨?_, ?_, ?_⟩
  · intro empty
    have none := List.take_eq_nil_iff.mp empty
    exact none.elim (by omega) full
  · exact fun zero => clean (inside 0 (List.mem_of_mem_take zero))
  · rw [List.length_take]
    exact Nat.min_le_left _ _

theorem getD_mem (inside : i < ts.length) : ts.getD i [] ∈ ts := by
  rw [List.getD_eq_getElem?_getD, List.getElem?_eq_getElem inside]
  exact List.getElem_mem inside

/-- Whether the last word that was parsed is `"&"`. -/
def LastIsAmpersand (ts : List (List UInt8)) (parsed : Nat) : Prop :=
  0 < parsed ∧ ts.getD (parsed - 1) [] = [ampersand]

instance (ts : List (List UInt8)) (parsed : Nat) : Decidable (LastIsAmpersand ts parsed) :=
  inferInstanceAs (Decidable (_ ∧ _))

theorem lastIsAmpersand_iff (ts : List (List UInt8)) :
    LastIsAmpersand ts ts.length ↔ ts.getLast? = some [ampersand] := by
  unfold LastIsAmpersand
  cases ts with
  | nil => simp
  | cons t rest =>
    rw [List.getLast?_eq_getElem?, List.getD_eq_getElem?_getD]
    simp

/-- What is returned, by the number of words that were parsed. -/
theorem anal_arg_parsed (two : 2 ≤ max_size) (full : textAt memory arg ≠ []) (parsed : Nat)
    (count : min (tokens max_size (textAt memory arg)).length (expected_args + 2) = parsed)
    {done : Analysis}
    (called : anal_arg arg args expected_args max_size buffer temp_storage memory = done) : ∃ rows,
      (∀ i < parsed, rows.Holds i ((tokens max_size (textAt memory arg)).getD i [] ++ [0])) ∧
      (done.result, done.strings) =
        if (if LastIsAmpersand (tokens max_size (textAt memory arg)) parsed then (parsed : Int) - 1
            else parsed) ≠ expected_args then (-1, ⟨memory, []⟩)
        else (if LastIsAmpersand (tokens max_size (textAt memory arg)) parsed then 1 else 0,
          (List.range expected_args).foldl (copyArg args rows max_size) ⟨memory, []⟩) := by
  have null : ¬ (arg = 0 ∨ memory (arg % 2 ^ 64) = 0) := fun ends => full (textAt_eq_nil.mpr ends)
  obtain ⟨junk, copied⟩ := buffer_text memory (not_or.mp null).1 buffer
  have clean : 0 ∉ textAt memory arg := textAt_clean
  generalize textAt memory arg = text at copied clean full count ⊢
  obtain ⟨rows, stored, texts⟩ := parse_string_spec temp_storage (expected_args + 2) junk
    two clean full
  rw [count] at stored texts
  have flag : (0 < (parsed : Int) ∧ strcmp (rows.char ((parsed : Int) - 1).toNat) [ampersand] = 0) ↔
      LastIsAmpersand (tokens max_size text) parsed := by
    unfold LastIsAmpersand
    rw [Int.natCast_pos]
    refine and_congr_right ?_
    intro positive
    obtain ⟨fill, nonzero, _⟩ := tokens_fit two clean
      (getD_mem (show parsed - 1 < (tokens max_size text).length by omega))
    rw [show ((parsed : Int) - 1).toNat = parsed - 1 by omega]
    exact strcmp_ampersand (texts _ (by omega)) nonzero fill
  refine ⟨rows, texts, ?_⟩
  rw [← called]
  unfold anal_arg
  rw [if_neg null]
  dsimp only
  rw [copied, stored]
  dsimp only
  rw [if_neg (by omega)]
  by_cases last : LastIsAmpersand (tokens max_size text) parsed
  · have on := decide_eq_true (flag.mpr last)
    simp only [on, last, if_true]
    split <;> rfl
  · have off := decide_eq_false (fun both => last (flag.mp both))
    simp only [off, last, if_false, Bool.false_eq_true]
    split <;> rfl

theorem fits_of_rows (clean : 0 ∉ text) (enough : expected_args ≤ (tokens 32 text).length)
    (texts : ∀ i < expected_args, rows.Holds i ((tokens 32 text).getD i [] ++ [0])) :
    Fits rows expected_args (tokens 32 text) := by
  have fit : ∀ i < expected_args, (tokens 32 text).getD i [] ≠ [] ∧
      0 ∉ (tokens 32 text).getD i [] ∧ ((tokens 32 text).getD i []).length ≤ 31 :=
    fun i inside => tokens_fit (by decide) clean (getD_mem (by omega))
  exact ⟨texts, fun i inside => (fit i inside).2.2, fun i inside => (fit i inside).1,
    fun i inside => (fit i inside).2.1⟩

/-- The call is refused, or every argument is copied. -/
theorem anal_arg_outcome (two : 2 ≤ max_size) {done : Analysis} (read : textAt memory arg = text)
    (called : anal_arg arg args expected_args max_size buffer temp_storage memory = done) :
    (¬ Foreground (tokens max_size text) expected_args ∧
      ¬ Background (tokens max_size text) expected_args ∧ done.result = -1 ∧
      done.strings = ⟨memory, []⟩) ∨
    ∃ rows, expected_args ≤ (tokens max_size text).length ∧
      (∀ i < expected_args, rows.Holds i ((tokens max_size text).getD i [] ++ [0])) ∧
      done.strings = (List.range expected_args).foldl (copyArg args rows max_size) ⟨memory, []⟩ ∧
      ((Foreground (tokens max_size text) expected_args ∧ done.result = 0) ∨
        (Background (tokens max_size text) expected_args ∧ done.result = 1)) := by
  by_cases empty : text = []
  · subst empty
    unfold anal_arg at called
    rw [if_pos (textAt_eq_nil.mp read)] at called
    rw [← called]
    unfold Foreground Background
    rw [tokens_nil]
    cases expected_args with
    | zero =>
      right
      refine ⟨temp_storage, Nat.le_refl _, ?_, rfl, .inl ⟨⟨rfl, by simp⟩, rfl⟩⟩
      exact fun i inside => absurd inside (Nat.not_lt_zero i)
    | succ n => exact .inl ⟨by simp, by simp, rfl, rfl⟩
  · obtain ⟨rows, texts, returned⟩ := anal_arg_parsed two (by rw [read]; exact empty) _ rfl called
    rw [read] at texts returned
    have last := lastIsAmpersand_iff (tokens max_size text)
    by_cases surplus : expected_args + 1 < (tokens max_size text).length
    · have parsed : min (tokens max_size text).length (expected_args + 2) = expected_args + 2 := by
        omega
      rw [parsed, if_pos (by split <;> omega)] at returned
      left
      refine ⟨fun accepted => ?_, fun accepted => ?_, congrArg Prod.fst returned,
        congrArg Prod.snd returned⟩
      · have exact' := accepted.1
        omega
      · have exact' := accepted.1
        omega
    · have parsed : min (tokens max_size text).length (expected_args + 2) =
          (tokens max_size text).length := by
        omega
      rw [parsed] at returned texts
      by_cases ampersand : LastIsAmpersand (tokens max_size text) (tokens max_size text).length
      · rw [if_pos ampersand, if_pos ampersand] at returned
        by_cases right' : (tokens max_size text).length = expected_args + 1
        · rw [if_neg (by omega)] at returned
          right
          exact ⟨rows, by omega, fun i inside => texts i (by omega), congrArg Prod.snd returned,
            .inr ⟨⟨right', last.mp ampersand⟩, congrArg Prod.fst returned⟩⟩
        · have positive := ampersand.1
          rw [if_pos (by omega)] at returned
          exact .inl ⟨fun accepted => accepted.2 (last.mp ampersand),
            fun accepted => right' accepted.1, congrArg Prod.fst returned,
            congrArg Prod.snd returned⟩
      · rw [if_neg ampersand, if_neg ampersand] at returned
        by_cases right' : (tokens max_size text).length = expected_args
        · rw [if_neg (by omega)] at returned
          right
          exact ⟨rows, by omega, fun i inside => texts i (by omega), congrArg Prod.snd returned,
            .inl ⟨⟨right', fun same => ampersand (last.mpr same)⟩, congrArg Prod.fst returned⟩⟩
        · rw [if_pos (by omega)] at returned
          exact .inl ⟨fun accepted => right' accepted.1,
            fun accepted => ampersand (last.mpr accepted.2), congrArg Prod.fst returned,
            congrArg Prod.snd returned⟩

/-- Exactly the grammar is accepted. -/
structure Grammatical (ts : List (List UInt8)) (expected_args : Nat) (result : Int) : Prop where
  foreground : result = 0 ↔ Foreground ts expected_args
  background : result = 1 ↔ Background ts expected_args
  otherwise : result = 0 ∨ result = 1 ∨ result = -1

/-- The call returns what the grammar says and delivers what it accepts. -/
def Analyses (args : Nat → Nat) (expected_args : Nat) (text : List UInt8) (done : Analysis) :
    Prop :=
  Grammatical (tokens 32 text) expected_args done.result ∧
    (done.result = 0 ∨ done.result = 1 →
      Delivered args expected_args (tokens 32 text) done.strings.memory)

theorem Foreground.not_background (foreground : Foreground ts expected_args) :
    ¬ Background ts expected_args := fun background => foreground.2 background.2

theorem anal_arg_grammatical (string : PointsTo memory arg text) (short : text.length < 1024)
    {done : Analysis}
    (called : anal_arg arg args expected_args 32 buffer temp_storage memory = done) :
    Grammatical (tokens 32 text) expected_args done.result := by
  rcases anal_arg_outcome (by decide) (string.textAt short) called with
    ⟨no, neither, result, _⟩ | ⟨rows, _, _, _, ⟨accepted, result⟩ | ⟨accepted, result⟩⟩
  · exact ⟨iff_of_false (by omega) no, iff_of_false (by omega) neither, .inr (.inr result)⟩
  · exact ⟨iff_of_true result accepted, iff_of_false (by omega) accepted.not_background,
      .inl result⟩
  · exact ⟨iff_of_false (by omega) fun other => other.not_background accepted,
      iff_of_true result accepted, .inr (.inl result)⟩

/-- The grammar is always decided right; the words are delivered exactly where no string begins
behind a later one, or none is copied. -/
theorem anal_arg_analyses_iff (string : PointsTo memory arg text) (short : text.length < 1024)
    (buffers : Buffers args expected_args) (buffer temp_storage : Rows) :
    Analyses args expected_args text
        (anal_arg arg args expected_args 32 buffer temp_storage memory) ↔
      (Foreground (tokens 32 text) expected_args ∨ Background (tokens 32 text) expected_args →
        NoneBehind args expected_args) := by
  generalize called : anal_arg arg args expected_args 32 buffer temp_storage memory = done
  have grammatical := anal_arg_grammatical string short called
  rcases anal_arg_outcome (by decide) (string.textAt short) called with
    ⟨no, neither, result, _⟩ | ⟨rows, enough, texts, copied, accepted⟩
  · refine iff_of_true ⟨grammatical, ?_⟩ fun accepted => absurd accepted (not_or.mpr ⟨no, neither⟩)
    intro accepted
    omega
  · have delivered := delivered_iff ⟨memory, []⟩ buffers (fits_of_rows string.clean enough texts)
    rw [← copied] at delivered
    constructor
    · intro analyses _
      exact delivered.mp (analyses.2 (accepted.imp And.right And.right))
    · intro apart
      exact ⟨grammatical, fun _ => delivered.mpr (apart (accepted.imp And.left And.left))⟩

/-- `"a b"` at address 100, in memory that is 0 elsewhere. -/
def twoWords : Bytes := Bytes.storeAll (fun _ => 0) 100 [97, 32, 98, 0]

theorem twoWords_string : PointsTo twoWords 100 [97, 32, 98] where
  some := by decide
  holds := Bytes.holds_storeAll (by decide)
  clean := by decide

theorem two_words_analysed_iff :
    Analyses (fun i => 1000 + 32 * i) 2 [97, 32, 98]
        (anal_arg 100 (fun i => 1000 + 32 * i) 2 32 ⟨fun _ _ => 0, []⟩ ⟨fun _ _ => 0, []⟩ twoWords) ↔
      (Foreground (tokens 32 [97, 32, 98]) 2 ∨ Background (tokens 32 [97, 32, 98]) 2 →
        NoneBehind (fun i => 1000 + 32 * i) 2) :=
  anal_arg_analyses_iff twoWords_string (by decide)
    ⟨fun i inside => by omega, fun i _ j _ apart => by omega⟩ ⟨fun _ _ => 0, []⟩ ⟨fun _ _ => 0, []⟩

/-- The second string lies right below the first one, whose first character becomes the
terminator of the copy. -/
theorem string_behind : ¬ ∀ memory arg text args expected_args buffer temp_storage,
    PointsTo memory arg text → text.length < 1024 → Buffers args expected_args →
      Analyses args expected_args text
        (anal_arg arg args expected_args 32 buffer temp_storage memory) := by
  intro claim
  obtain ⟨args, below⟩ : ∃ args : Nat → Nat, args = fun i => 1000 - 32 * i := ⟨_, rfl⟩
  have buffers : Buffers args 2 := by
    rw [below]
    exact ⟨fun i inside => by omega, fun i _ j _ apart => by omega⟩
  have analyses := claim twoWords 100 [97, 32, 98] args 2 ⟨fun _ _ => 0, []⟩ ⟨fun _ _ => 0, []⟩
    twoWords_string (by decide) buffers
  have foreground : Foreground (tokens 32 [97, 32, 98]) 2 := by
    unfold Foreground
    decide
  rcases anal_arg_outcome (show 2 ≤ 32 by decide) (twoWords_string.textAt (by decide)) rfl with
    ⟨no, _⟩ | ⟨rows, enough, texts, copied, _⟩
  · exact no foreground
  · have delivered := analyses.2 (.inl (analyses.1.foreground.mpr foreground))
    rw [copied, delivered_iff _ buffers (fits_of_rows twoWords_string.clean enough texts)]
      at delivered
    refine delivered 0 1 (by decide) (by decide) ?_
    rw [below]

end SoKernel.Arguments
