import SoKernel.Userland.ArgumentGrammar

namespace SoKernel.Arguments
open Lib

variable {rows buffer temp_storage : Rows} {strings : Strings} {row i j n length bound : Nat}
variable {max_args max_size expected_args arg : Nat} {args : Nat → Nat} {memory : Bytes}
variable {src : Nat → UInt8} {text : List UInt8} {w : Nat × Nat}

/-! ## Indices -/

/-- Every index that was written lies below the bound. -/
def Below (bound : Nat) (written : List (Nat × Nat)) : Prop := ∀ w ∈ written, w.2 < bound

theorem below_nil : Below bound [] := fun _ never => nomatch never

theorem below_cons {written : List (Nat × Nat)} (inside : j < bound) (below : Below bound written) :
    Below bound ((row, j) :: written) := by
  intro w member
  rcases List.mem_cons.mp member with rfl | earlier
  · exact inside
  · exact below w earlier

theorem copyToken_below (below : Below max_size rows.written) :
    Below max_size (copyToken max_size row text j rows).2.2.written := by
  induction text generalizing j rows with
  | nil => exact below
  | cons c text ih =>
    rw [copyToken]
    split
    · exact ih (below_cons (by omega) below)
    · exact below

theorem copyToken_index (inside : j < max_size) :
    (copyToken max_size row text j rows).2.1 < max_size := by
  induction text generalizing j rows with
  | nil => exact inside
  | cons c text ih =>
    rw [copyToken]
    split
    · exact ih (by omega)
    · exact inside

theorem parseFrom_below {fuel arg_count : Nat} (positive : 0 < max_size)
    (below : Below max_size rows.written) :
    Below max_size (parseFrom max_args max_size fuel text arg_count rows).2.written := by
  induction fuel generalizing text arg_count rows with
  | zero => exact below
  | succ fuel ih =>
    rw [parseFrom]
    split
    · exact ih (below_cons (copyToken_index positive) (copyToken_below below))
    · exact below

/-- Whatever the string and however many arguments: no buffer is left. -/
theorem parse_string_below (positive : 0 < max_size) (below : Below max_size rows.written) :
    Below max_size (parse_string text rows max_args max_size).2.written := by
  unfold parse_string
  split
  · exact below
  · exact parseFrom_below positive below

/-- The temporary copy of `length + 1` characters, the last one a terminator. -/
theorem copy_below (length : Nat) (below : Below (length + 1) rows.written) : Below (length + 1)
    ((strncpy (Rows.write row) src length rows).write row length 0).written := by
  have body : ∀ n ≤ length, Below (length + 1) ((List.range n).foldl
      (fun dest i => Rows.write row i (src i) dest) rows).written := by
    intro n part
    induction n with
    | zero => exact below
    | succ n ih =>
      rw [List.range_succ, List.foldl_append]
      exact below_cons (by omega) (ih (by omega))
  exact below_cons (Nat.lt_succ_self _)
    (below_cons (Nat.lt_succ_self _) (body length (Nat.le_refl _)))

/-! ## The copies to the caller -/

/-- `strncpy` terminates the string behind the buffer. -/
theorem copyArg_behind : (i, max_size) ∈ (copyArg args rows max_size strings i).written :=
  List.mem_cons_of_mem _ List.mem_cons_self

theorem copyArg_keeps (member : w ∈ strings.written) :
    w ∈ (copyArg args rows max_size strings i).written := by
  have body : ∀ n, w ∈ ((List.range n).foldl
      (fun dest j => Strings.write args i j (rows.char i j) dest) strings).written := by
    intro n
    induction n with
    | zero => exact member
    | succ n ih =>
      rw [List.range_succ, List.foldl_append]
      exact List.mem_cons_of_mem _ ih
  exact List.mem_cons_of_mem _ (List.mem_cons_of_mem _ (body max_size))

theorem copyArgs_behind (inside : i < n) : (i, max_size) ∈
    ((List.range n).foldl (copyArg args rows max_size) strings).written := by
  induction n with
  | zero => exact absurd inside (Nat.not_lt_zero i)
  | succ n ih =>
    rw [List.range_succ, List.foldl_append]
    rcases Nat.eq_or_lt_of_le (Nat.le_of_lt_succ inside) with rfl | earlier
    · exact copyArg_behind
    · exact copyArg_keeps (ih earlier)

/-! ## All of `anal_arg` -/

/-- Neither array of `anal_arg` is left. -/
theorem anal_arg_below (positive : 0 < max_size) (below : Below 1024 buffer.written)
    (stored : Below max_size temp_storage.written) {done : Analysis}
    (called : anal_arg arg args expected_args max_size buffer temp_storage memory = done) :
    Below 1024 done.buffer.written ∧ Below max_size done.temp_storage.written := by
  have copy : Below 1024 ((strncpy (Rows.write 0) (fun i => memory ((arg + i) % 2 ^ 64)) 1023
      buffer).write 0 1023 0).written := copy_below 1023 below
  rw [← called]
  unfold anal_arg
  dsimp only
  generalize Rows.write 0 1023 0 _ = copied at copy ⊢
  have parsed : Below max_size (parse_string ((List.range 1024).map (copied.char 0)) temp_storage
      (expected_args + 2) max_size).2.written := parse_string_below positive stored
  generalize parse_string _ _ _ _ = result at parsed ⊢
  split
  · exact ⟨below, stored⟩
  · split
    · exact ⟨copy, parsed⟩
    · split
      all_goals
        split
        · exact ⟨copy, parsed⟩
        · exact ⟨copy, parsed⟩

/-- Nothing is written behind an argument buffer of `max_size` bytes, or behind the 1024 bytes of
the temporary copy. -/
structure StaysInside (max_size : Nat) (done : Analysis) : Prop where
  parse : ∀ (text : List UInt8) (chars : Nat → Nat → UInt8) (max_args : Nat),
    Below max_size (parse_string text ⟨chars, []⟩ max_args max_size).2.written
  buffer : Below 1024 done.buffer.written
  temp_storage : Below max_size done.temp_storage.written
  strings : Below max_size done.strings.written

/-- Exactly the calls that copy no argument stay inside. -/
theorem stays_inside_iff (two : 2 ≤ max_size) (one : 1 ≤ expected_args) (arg : Nat)
    (args : Nat → Nat) (memory : Bytes) (chars storage : Nat → Nat → UInt8) :
    StaysInside max_size
        (anal_arg arg args expected_args max_size ⟨chars, []⟩ ⟨storage, []⟩ memory) ↔
      ¬ Foreground (tokens max_size (textAt memory arg)) expected_args ∧
        ¬ Background (tokens max_size (textAt memory arg)) expected_args := by
  generalize called : anal_arg arg args expected_args max_size _ _ memory = done
  obtain ⟨copy, stored⟩ := anal_arg_below (by omega) below_nil below_nil called
  rcases anal_arg_outcome two rfl called with
    ⟨no, neither, _, strings⟩ | ⟨rows, _, _, strings, accepted⟩
  · refine iff_of_true ⟨fun _ _ _ => parse_string_below (by omega) below_nil, copy, stored, ?_⟩
      ⟨no, neither⟩
    rw [strings]
    exact below_nil
  · refine iff_of_false (fun inside => ?_) fun refused =>
      accepted.elim (fun yes => refused.1 yes.1) fun yes => refused.2 yes.1
    have behind := inside.strings (0, max_size) (by rw [strings]; exact copyArgs_behind one)
    exact Nat.lt_irrefl _ behind

/-- The words of `"a b"` are refused where one is expected. -/
theorem two_words_stay_inside : StaysInside 32 (anal_arg 100 (fun i => 1000 + 32 * i) 1 32
    ⟨fun _ _ => 0, []⟩ ⟨fun _ _ => 0, []⟩ twoWords) := by
  refine (stays_inside_iff (by decide) (by decide) 100 _ twoWords _ _).mpr ?_
  rw [twoWords_string.textAt (by decide)]
  unfold Foreground Background
  decide

/-- The terminator of a copied word is written behind its buffer. -/
theorem copied_word_overruns : ¬ ∀ max_size expected_args, 2 ≤ max_size → 1 ≤ expected_args →
    ∀ arg args memory chars storage, StaysInside max_size
      (anal_arg arg args expected_args max_size ⟨chars, []⟩ ⟨storage, []⟩ memory) := by
  intro claim
  have inside := claim 32 2 (by decide) (by decide) 100 (fun i => 1000 + 32 * i) twoWords
    (fun _ _ => 0) fun _ _ => 0
  have foreground : Foreground (tokens 32 [97, 32, 98]) 2 := by
    unfold Foreground
    decide
  rcases anal_arg_outcome (show 2 ≤ 32 by decide) (twoWords_string.textAt (by decide)) rfl with
    ⟨no, _⟩ | ⟨rows, _, _, strings, _⟩
  · exact no foreground
  · have behind := inside.strings (0, 32) (by rw [strings]; exact copyArgs_behind (by decide))
    exact absurd behind (by decide)

end SoKernel.Arguments
