import SoKernel.Lib.Bytes
import SoKernel.Lib.Words

namespace SoKernel.Arguments
open Lib

variable {σ : Type}

/-! ## `programs.c` and `stdlib.c` -/

def space : UInt8 := 32
def ampersand : UInt8 := 38

def is_space (c : UInt8) : Bool := c = space

/-- Arrays of characters on the stack of the function, and where they were written: array and
index. -/
structure Rows where
  char : Nat → Nat → UInt8
  written : List (Nat × Nat)

def Rows.write (row j : Nat) (c : UInt8) (rows : Rows) : Rows where
  char := Function.update rows.char row (Function.update (rows.char row) j c)
  written := (row, j) :: rows.written

/-- Memory with the strings of the caller, and where they were written: string and index. -/
structure Strings where
  memory : Bytes
  written : List (Nat × Nat)

/-- `args[i][j] = c`. -/
def Strings.write (args : Nat → Nat) (i j : Nat) (c : UInt8) (strings : Strings) : Strings where
  memory := strings.memory.store (args i + j) c
  written := (i, j) :: strings.written

/-- All `length` characters, and a terminator behind them. -/
def strncpy (write : Nat → UInt8 → σ → σ) (src : Nat → UInt8) (length : Nat) (dest : σ) : σ :=
  write length 0 ((List.range length).foldl (fun dest i => write i (src i) dest) dest)

/-- A `char` is signed. -/
def char (c : UInt8) : Int := c.toInt8.toInt

/-- The second string is given without its terminator. -/
def strcmp (s1 : Nat → UInt8) : List UInt8 → Int
  | [] => char (s1 0)
  | c :: s2 => if s1 0 ≠ 0 ∧ s1 0 = c then strcmp (fun i => s1 (i + 1)) s2 else char (s1 0) - char c

/-- The copying loop of `parse_string`: what is left of `arg`, and `j`. -/
def copyToken (max_size row : Nat) : List UInt8 → Nat → Rows → List UInt8 × Nat × Rows
  | [], j, args => ([], j, args)
  | c :: arg, j, args =>
    if c ≠ 0 ∧ ¬ is_space c ∧ j < max_size - 1 then
      copyToken max_size row arg (j + 1) (args.write row j c)
    else (c :: arg, j, args)

/-- The outer loop, at most `fuel` times; `arg` begins at `arg[i]`. -/
def parseFrom (max_args max_size : Nat) : Nat → List UInt8 → Nat → Rows → Nat × Rows
  | 0, _, arg_count, args => (arg_count, args)
  | fuel + 1, arg, arg_count, args =>
    if arg.headD 0 ≠ 0 ∧ arg_count < max_args then
      let (arg, j, args) := copyToken max_size arg_count arg 0 args
      let args := args.write arg_count j 0
      let arg := arg.dropWhile fun c => c ≠ 0 ∧ ¬ is_space c
      let arg_count := if 0 < j then arg_count + 1 else arg_count
      parseFrom max_args max_size fuel (arg.dropWhile is_space) arg_count args
    else (arg_count, args)

def parse_string (arg : List UInt8) (args : Rows) (max_args max_size : Nat) : Int × Rows :=
  if arg.headD 0 = 0 then (-1, args)
  else
    let parsed := parseFrom max_args max_size arg.length (arg.dropWhile is_space) 0 args
    (parsed.1, parsed.2)

/-- What `anal_arg` returns, and what it leaves in its arrays and in memory. -/
structure Analysis where
  result : Int
  buffer : Rows
  temp_storage : Rows
  strings : Strings

/-- The last loop of `anal_arg`. -/
def copyArg (args : Nat → Nat) (temp_storage : Rows) (max_size : Nat) (strings : Strings)
    (i : Nat) : Strings :=
  (strncpy (Strings.write args i) (temp_storage.char i) max_size strings).write args i
    (max_size - 1) 0

/-- `buffer` and `temp_storage` hold anything at first. -/
def anal_arg (arg : Nat) (args : Nat → Nat) (expected_args max_size : Nat)
    (buffer temp_storage : Rows) (memory : Bytes) : Analysis :=
  if arg = 0 ∨ memory (arg % 2 ^ 64) = 0 then
    ⟨if expected_args = 0 then 0 else -1, buffer, temp_storage, ⟨memory, []⟩⟩
  else
    let buffer := strncpy (Rows.write 0) (fun i => memory ((arg + i) % 2 ^ 64)) 1023 buffer
    let buffer := buffer.write 0 1023 0
    let parsed := parse_string ((List.range 1024).map (buffer.char 0)) temp_storage
      (expected_args + 2) max_size
    let num_args := parsed.1
    let temp_storage := parsed.2
    if num_args < 0 then ⟨-1, buffer, temp_storage, ⟨memory, []⟩⟩
    else
      let has_background : Bool :=
        0 < num_args ∧ strcmp (temp_storage.char (num_args - 1).toNat) [ampersand] = 0
      let num_args := if has_background then num_args - 1 else num_args
      if num_args ≠ expected_args then ⟨-1, buffer, temp_storage, ⟨memory, []⟩⟩
      else
        ⟨if has_background then 1 else 0, buffer, temp_storage,
          (List.range expected_args).foldl (copyArg args temp_storage max_size) ⟨memory, []⟩⟩

/-! ## Rows -/

variable {rows rows' : Rows} {row other j count fuel max_args max_size : Nat} {c : UInt8}
variable {text run after junk done : List UInt8}

/-- The row begins with these characters. -/
def Rows.Holds (rows : Rows) (row : Nat) (text : List UInt8) : Prop :=
  ∀ i (inside : i < text.length), rows.char row i = text[i]

theorem Rows.write_other (apart : other ≠ row) :
    (rows.write row j c).char other = rows.char other :=
  Function.update_of_ne apart _ _

theorem Rows.write_char (i : Nat) :
    (rows.write row j c).char row i = if i = j then c else rows.char row i := by
  unfold Rows.write
  dsimp only
  rw [Function.update_self, Function.update_apply]

theorem Rows.Holds.snoc (holds : rows.Holds row text) :
    (rows.write row text.length c).Holds row (text ++ [c]) := by
  intro i inside
  rw [Rows.write_char]
  by_cases last : i = text.length
  · simp [last]
  · rw [List.length_append, List.length_singleton] at inside
    rw [if_neg last, holds i (by omega), List.getElem_append_left (by omega)]

theorem Rows.holds_nil (rows : Rows) (row : Nat) : rows.Holds row [] :=
  fun i inside => absurd inside (Nat.not_lt_zero i)

theorem Rows.Holds.congr (holds : rows.Holds row text) (same : rows'.char row = rows.char row) :
    rows'.Holds row text := by
  intro i inside
  rw [same, holds i inside]

/-! ## One argument -/

/-- The run goes into the row as far as there is room. -/
theorem copyToken_spec (max_size : Nat) (clean : ∀ c ∈ run, c ≠ 0 ∧ c ≠ space)
    (stops : ∀ c ∈ after.head?, c = 0 ∨ c = space) (holds : rows.Holds row done)
    (fits : done.length ≤ max_size - 1) : ∃ rows',
      copyToken max_size row (run ++ after) done.length rows =
        (run.drop (max_size - 1 - done.length) ++ after,
          (done ++ run.take (max_size - 1 - done.length)).length, rows') ∧
      rows'.Holds row (done ++ run.take (max_size - 1 - done.length)) ∧
      ∀ other, other ≠ row → rows'.char other = rows.char other := by
  induction run generalizing done rows with
  | nil =>
    refine ⟨rows, ?_, ?_, fun _ _ => rfl⟩
    · cases after with
      | nil => simp [copyToken]
      | cons c after =>
        rw [List.nil_append, copyToken, if_neg]
        · simp
        · rintro ⟨some, other, _⟩
          rcases stops c rfl with rfl | rfl
          · exact some rfl
          · simp [is_space] at other
    · simpa using holds
  | cons c run ih =>
    obtain ⟨some, other⟩ := clean c List.mem_cons_self
    by_cases full : done.length = max_size - 1
    · refine ⟨rows, ?_, ?_, fun _ _ => rfl⟩
      · rw [List.cons_append, copyToken, if_neg (by omega)]
        simp [full]
      · simpa [full] using holds
    · have length : (done ++ [c]).length = done.length + 1 := by simp
      obtain ⟨rows', copied, text, others⟩ :=
        ih (fun c later => clean c (List.mem_cons_of_mem _ later))
        (holds.snoc (c := c)) (by omega)
      have left : max_size - 1 - done.length = max_size - 1 - (done ++ [c]).length + 1 := by omega
      rw [length] at copied
      refine ⟨rows', ?_, ?_, ?_⟩
      · rw [List.cons_append, copyToken, if_pos ⟨some, by simp [is_space, other], by omega⟩, copied,
          left]
        simp
      · rw [left]
        simpa using text
      · intro row' apart
        rw [others row' apart, Rows.write_other apart]

/-! ## All arguments -/

/-- The words of a text, cut to the size of the buffers. -/
def tokens (max_size : Nat) (text : List UInt8) : List (List UInt8) :=
  (words space text).map (List.take (max_size - 1))

theorem tokens_nil : tokens max_size [] = [] := by simp [tokens]

theorem dropWhile_run (clean : ∀ c ∈ run, c ≠ 0 ∧ c ≠ space)
    (stops : ∀ c ∈ after.head?, c = 0 ∨ c = space) :
    (run ++ after).dropWhile (fun c => c ≠ 0 ∧ ¬ is_space c) = after := by
  rw [List.dropWhile_append_of_pos]
  · cases after with
    | nil => rfl
    | cons c after =>
      rcases stops c rfl with rfl | rfl
      · simp
      · simp [is_space]
  · intro c member
    simpa [is_space] using clean c member

/-- Spaces before the end of the string are passed over, and the rest of the buffer is not
reached. -/
theorem dropWhile_spaces : (text ++ 0 :: junk).dropWhile is_space =
    text.dropWhile (fun c => c = space) ++ 0 :: junk := by
  induction text with
  | nil => rfl
  | cons c text ih =>
    by_cases same : c = space
    · simpa [is_space, same] using ih
    · simp [is_space, same]

theorem head_dropWhile : (text.dropWhile fun c => c = space).head? ≠ some space := by
  intro next
  have stopped := List.head?_dropWhile_not (fun c => c = space) text
  rw [next] at stopped
  simp at stopped

theorem tokens_dropWhile :
    tokens max_size (text.dropWhile fun c => c = space) = tokens max_size text := by
  unfold tokens
  rw [words_dropWhile]

/-- One round of the outer loop: the first word goes into its row. -/
theorem parseFrom_word {rest : List UInt8} (fuel : Nat) (rows : Rows) (junk : List UInt8)
    (two : 2 ≤ max_size) (some : run ≠ [])
    (clean : ∀ c ∈ run, c ≠ 0 ∧ c ≠ space) (stops : ∀ c ∈ rest.head?, c = space)
    (more : count < max_args) : ∃ rows',
      parseFrom max_args max_size (fuel + 1) (run ++ rest ++ 0 :: junk) count rows =
        parseFrom max_args max_size fuel (rest.dropWhile (fun c => c = space) ++ 0 :: junk)
          (count + 1) rows' ∧
      rows'.Holds count (run.take (max_size - 1) ++ [0]) ∧
      ∀ other, other ≠ count → rows'.char other = rows.char other := by
  have ends : ∀ c ∈ (rest ++ 0 :: junk).head?, c = 0 ∨ c = space := by
    intro c first
    cases rest with
    | nil => exact .inl (Option.some.inj first).symm
    | cons d rest => exact .inr (stops c first)
  obtain ⟨rows', copied, text, others⟩ := copyToken_spec max_size clean ends
    (rows.holds_nil count) (Nat.zero_le _)
  simp only [List.nil_append, List.length_nil, Nat.sub_zero] at copied text
  have positive := List.length_pos_iff.mpr some
  have starts : (run ++ (rest ++ 0 :: junk)).headD 0 ≠ 0 := by
    cases run with
    | nil => exact absurd rfl some
    | cons c run => exact (clean c List.mem_cons_self).1
  have left : ∀ c ∈ run.drop (max_size - 1), c ≠ 0 ∧ c ≠ space :=
    fun c member => clean c (List.mem_of_mem_drop member)
  refine ⟨_, ?_, text.snoc, ?_⟩
  · rw [List.append_assoc, parseFrom, if_pos ⟨starts, more⟩, copied]
    dsimp only
    rw [if_pos (by simp; omega), dropWhile_run left ends, dropWhile_spaces]
  · intro other apart
    rw [Rows.write_other apart, others other apart]

/-- The rows get the words in order, until one of both is used up. -/
theorem parseFrom_spec (max_args fuel : Nat) (text junk : List UInt8) (count : Nat) (rows : Rows)
    (two : 2 ≤ max_size) (clean : 0 ∉ text) (starts : text.head? ≠ some space)
    (enough : text.length < fuel) : ∃ rows',
      parseFrom max_args max_size fuel (text ++ 0 :: junk) count rows =
        (count + min (tokens max_size text).length (max_args - count), rows') ∧
      (∀ row < count, rows'.char row = rows.char row) ∧
      ∀ i < min (tokens max_size text).length (max_args - count),
        rows'.Holds (count + i) ((tokens max_size text).getD i [] ++ [0]) := by
  induction fuel generalizing text count rows with
  | zero => exact absurd enough (Nat.not_lt_zero _)
  | succ fuel ih =>
    by_cases full : text ≠ [] ∧ count < max_args
    · obtain ⟨run, rest, rfl, some, apart, ends, all⟩ := exists_first_run full.1 starts
      have positive := List.length_pos_iff.mpr some
      have cleanRun : ∀ c ∈ run, c ≠ 0 ∧ c ≠ space := by
        intro c member
        constructor
        · rintro rfl
          exact clean (List.mem_append_left _ member)
        · rintro rfl
          exact apart member
      have shorter := (List.dropWhile_sublist (l := rest) fun c => c = space).length_le
      rw [List.length_append] at enough
      obtain ⟨rows₁, stepped, first, others⟩ :=
        parseFrom_word fuel rows junk two some cleanRun ends full.2
      obtain ⟨rows₂, parsed, before, texts⟩ :=
        ih (rest.dropWhile fun c => c = space) (count + 1) rows₁
        (fun member => clean (List.mem_append_right _ (List.dropWhile_subset _ member)))
        head_dropWhile (by omega)
      have same : tokens max_size (run ++ rest) = run.take (max_size - 1) ::
          tokens max_size (rest.dropWhile fun c => c = space) := by
        rw [tokens_dropWhile]
        unfold tokens
        rw [all]
        rfl
      have taken : min (tokens max_size (run ++ rest)).length (max_args - count) = 1 +
          min (tokens max_size (rest.dropWhile fun c => c = space)).length
            (max_args - (count + 1)) := by
        rw [same, List.length_cons]
        omega
      refine ⟨rows₂, ?_, ?_, ?_⟩
      · rw [stepped, parsed, taken, Nat.add_assoc]
      · intro row earlier
        rw [before row (by omega), others row (by omega)]
      · intro i inside
        rw [same]
        cases i with
        | zero => exact first.congr (before count (Nat.lt_succ_self count))
        | succ i =>
          rw [List.getD_cons_succ, show count + (i + 1) = count + 1 + i by omega]
          exact texts i (by omega)
    · have none : min (tokens max_size text).length (max_args - count) = 0 := by
        by_cases empty : text = []
        · simp [empty, tokens_nil]
        · have used : ¬ count < max_args := fun more => full ⟨empty, more⟩
          omega
      refine ⟨rows, ?_, fun _ _ => rfl, ?_⟩
      · rw [none, parseFrom, if_neg]
        · rfl
        · rintro ⟨some, more⟩
          apply full
          refine ⟨?_, more⟩
          rintro rfl
          exact some rfl
      · intro i inside
        rw [none] at inside
        exact absurd inside (Nat.not_lt_zero i)

/-- All words go into the rows, at most `max_args` of them. -/
theorem parse_string_spec (rows : Rows) (max_args : Nat) (junk : List UInt8) (two : 2 ≤ max_size)
    (clean : 0 ∉ text) (full : text ≠ []) : ∃ rows',
      parse_string (text ++ 0 :: junk) rows max_args max_size =
        (((min (tokens max_size text).length max_args : Nat) : Int), rows') ∧
      ∀ i < min (tokens max_size text).length max_args,
        rows'.Holds i ((tokens max_size text).getD i [] ++ [0]) := by
  have some : (text ++ 0 :: junk).headD 0 ≠ 0 := by
    cases text with
    | nil => exact absurd rfl full
    | cons c text =>
      rintro rfl
      exact clean List.mem_cons_self
  have shorter := (List.dropWhile_sublist (l := text) fun c => c = space).length_le
  obtain ⟨rows', parsed, _, texts⟩ := parseFrom_spec max_args (text ++ 0 :: junk).length
    (text.dropWhile fun c => c = space) junk 0 rows two
    (fun member => clean (List.dropWhile_subset _ member)) head_dropWhile (by simp; omega)
  rw [tokens_dropWhile, Nat.zero_add, Nat.sub_zero] at parsed
  rw [tokens_dropWhile, Nat.sub_zero] at texts
  unfold parse_string
  rw [if_neg some, dropWhile_spaces, parsed]
  refine ⟨rows', rfl, ?_⟩
  intro i inside
  have holds := texts i inside
  rw [Nat.zero_add] at holds
  exact holds

end SoKernel.Arguments
