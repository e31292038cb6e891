import SoKernel.Lib.Buffer
import SoKernel.Lib.Words
import SoKernel.Userland.Shell

namespace SoKernel.Filters
open Lib Shell

/-! ## `filter` and `cat` of `programs.c` -/

def EOF : UInt8 := 0xFF

/-- The vowels that `filter` names. -/
def vowels : List UInt8 := [97, 101, 105, 111, 117, 65, 69, 73, 79, 85]

/-- A program while it reads: its array, its index, and what each `printf` printed. -/
structure Reader where
  buffer : Buffer UInt8
  i : Nat
  printed : List (List UInt8)

/-- The array is `{0}`, and `memory` is what lies behind it. -/
def fresh (memory : Nat → UInt8) : Reader where
  buffer := ⟨fun i => if i < BUFFER_SPACE then 0 else memory i, []⟩
  i := 0
  printed := []

namespace Reader

def print (text : List UInt8) (r : Reader) : Reader := { r with printed := r.printed ++ [text] }

/-- `buffer[i++] = c`. -/
def keep (c : UInt8) (r : Reader) : Reader :=
  { r with buffer := r.buffer.write r.i c, i := r.i + 1 }

def terminate (r : Reader) : Reader := { r with buffer := r.buffer.write r.i 0 }

/-- `buffer[0] = '\0'` and `i = 0`. -/
def reset (r : Reader) : Reader := { r with buffer := r.buffer.write 0 0, i := 0 }

/-- What `%s` prints, if the string ends before memory does. -/
def text (size : Nat) (r : Reader) : Option (List UInt8) :=
  let bytes := r.buffer.slice 0 size
  if 0 ∈ bytes then some (bytes.takeWhile fun c => c ≠ 0) else none

end Reader

/-- The loop of both programs; `none` while it waits for input. -/
def untilEOF (body : UInt8 → Reader → Option Reader) : List UInt8 → Reader → Option Reader
  | [], _ => none
  | c :: input, r => if c ≠ EOF then (body c r).bind (untilEOF body input) else some r

def filterByte (c : UInt8) (r : Reader) : Option Reader :=
  if c ≠ 0 then
    let r := r.print [c]
    if c ∉ vowels then some (r.keep c) else some r
  else some r

def filter (size : Nat) (memory : Nat → UInt8) (input : List UInt8) : Option Reader :=
  (untilEOF filterByte input (fresh memory)).bind fun r =>
    (r.text size).map fun text => r.print (newline :: text ++ [newline])

def catByte (size : Nat) (c : UInt8) (r : Reader) : Option Reader :=
  if c ≠ 0 then
    let r := (r.print [c]).keep c
    if c = newline then
      let r := r.terminate
      (r.text size).map fun text => (r.print text).reset
    else some r
  else some r

def cat (size : Nat) (memory : Nat → UInt8) (input : List UInt8) : Option Reader :=
  (untilEOF (catByte size) input (fresh memory)).map fun r => r.print [newline]

/-! ## What is kept -/

variable {r middle after : Reader} {size : Nat} {memory : Nat → UInt8} {c : UInt8}
variable {text line stream rest : List UInt8}

/-- The text went into the array from the index on. -/
structure Keeps (r : Reader) (text : List UInt8) (after : Reader) : Prop where
  i : after.i = r.i + text.length
  holds : after.buffer.Holds r.i text
  other : ∀ j, j < r.i ∨ r.i + text.length ≤ j → after.buffer.char j = r.buffer.char j
  written : ∀ j, j ∈ after.buffer.written ↔
    j ∈ r.buffer.written ∨ r.i ≤ j ∧ j < r.i + text.length

theorem Keeps.refl : Keeps r [] r where
  i := rfl
  holds := Buffer.holds_nil _ _
  other _ _ := rfl
  written j := (or_iff_left (by rw [List.length_nil]; omega)).symm

theorem Keeps.print (keeps : Keeps r text after) (more : List UInt8) :
    Keeps r text (after.print more) :=
  ⟨keeps.i, keeps.holds, keeps.other, keeps.written⟩

theorem Keeps.keep (keeps : Keeps r text after) : Keeps r (text ++ [c]) (after.keep c) where
  i := by
    rw [List.length_append, List.length_singleton, ← Nat.add_assoc, ← keeps.i]
    rfl
  holds := by
    have holds := keeps.holds.snoc (c := c)
    rw [← keeps.i] at holds
    exact holds
  other j outside := by
    rw [List.length_append, List.length_singleton] at outside
    have kept := keeps.other j (by omega)
    rw [← kept]
    refine (Buffer.write_char j).trans (if_neg ?_)
    rw [keeps.i]
    omega
  written j := by
    have before := keeps.written j
    rw [List.length_append, List.length_singleton]
    change j ∈ after.i :: after.buffer.written ↔ _
    have range : r.i ≤ j ∧ j < r.i + (text.length + 1) ↔
        j = r.i + text.length ∨ r.i ≤ j ∧ j < r.i + text.length := by omega
    rw [List.mem_cons, before, keeps.i, range, or_left_comm]

/-- The string is the text before the first zero. -/
theorem text_of_holds (holds : r.buffer.Holds 0 (text ++ [0])) (clean : 0 ∉ text)
    (inside : text.length < size) : r.text size = some text := by
  obtain ⟨rest, bytes⟩ : ∃ rest, r.buffer.slice 0 size = text ++ [0] ++ rest :=
    holds.slice (by simp; omega)
  rw [List.append_assoc] at bytes
  have ends : (0 : UInt8) ∈ r.buffer.slice 0 size := by simp [bytes]
  have before : ∀ c ∈ text, decide (c ≠ 0) = true := fun c member =>
    decide_eq_true fun zero => clean (zero ▸ member)
  unfold Reader.text
  dsimp only
  rw [if_pos ends, bytes, List.takeWhile_append_of_pos before]
  simp

/-- Nothing in the array ends the string. -/
theorem text_eq_none (full : ∀ j < size, r.buffer.char j ≠ 0) : r.text size = none := by
  refine if_neg fun member => ?_
  unfold Buffer.slice at member
  obtain ⟨j, inside, zero⟩ := List.mem_map.mp member
  rw [Nat.zero_add] at zero
  exact full j (List.mem_range.mp inside) zero

theorem untilEOF_append (body : UInt8 → Reader → Option Reader) (ends : EOF ∉ stream)
    (rest : List UInt8) : untilEOF body (stream ++ EOF :: rest) r =
      stream.foldlM (fun r c => body c r) r := by
  induction stream generalizing r with
  | nil => exact if_neg (not_not_intro rfl)
  | cons c stream ih =>
    rw [List.mem_cons, not_or] at ends
    rw [List.cons_append, untilEOF, if_pos (Ne.symm ends.1), List.foldlM_cons]
    exact congrArg _ (funext fun r => ih ends.2)

theorem foldlM_line (body : Reader → UInt8 → Option Reader) :
    (line ++ c :: rest).foldlM body r =
      ((line.foldlM body r).bind fun r => body r c).bind fun r => rest.foldlM body r := by
  rw [List.foldlM_append]
  cases line.foldlM body r <;> rfl

theorem foldlM_snoc (body : Reader → UInt8 → Option Reader) :
    (stream ++ [c]).foldlM body r = (stream.foldlM body r).bind fun r => body r c := by
  rw [List.foldlM_append]
  exact congrArg _ (funext fun r => bind_pure (body r c))

/-! ## `filter` -/

/-- The bytes that are neither zero nor vowels. -/
def withoutVowels (stream : List UInt8) : List UInt8 :=
  stream.filter fun c => c ≠ 0 ∧ c ∉ vowels

/-- Each byte that is not zero is printed by itself. -/
def echo (stream : List UInt8) : List (List UInt8) :=
  (stream.filter fun c => c ≠ 0).map fun c => [c]

theorem echo_append : echo (text ++ line) = echo text ++ echo line := by
  unfold echo
  rw [List.filter_append, List.map_append]

theorem echo_zero : echo [0] = [] := rfl

theorem echo_byte (nonzero : c ≠ 0) : echo [c] = [[c]] := by
  simp [echo, nonzero]

theorem filter_run (stream : List UInt8) (r : Reader) : ∃ after,
    stream.foldlM (fun r c => filterByte c r) r = some after ∧
      Keeps r (withoutVowels stream) after ∧ after.printed = r.printed ++ echo stream := by
  induction stream using List.reverseRecOn with
  | nil => exact ⟨r, rfl, .refl, (List.append_nil _).symm⟩
  | append_singleton stream c ih =>
    obtain ⟨after, run, keeps, printed⟩ := ih
    have split : withoutVowels (stream ++ [c]) = withoutVowels stream ++ withoutVowels [c] :=
      List.filter_append ..
    rw [foldlM_snoc, run, split, echo_append, Option.bind_some]
    unfold filterByte
    by_cases nonzero : c ≠ 0
    · rw [if_pos nonzero, echo_byte nonzero, ← List.append_assoc, ← printed]
      by_cases other : c ∉ vowels
      · have kept : withoutVowels [c] = [c] := by simp [withoutVowels, nonzero, other]
        rw [kept]
        exact ⟨_, if_pos other, (keeps.print [c]).keep, rfl⟩
      · have dropped : withoutVowels [c] = [] := by
          simp only [not_not] at other
          simp [withoutVowels, other]
        rw [dropped, List.append_nil]
        exact ⟨_, if_neg other, keeps.print [c], rfl⟩
    · obtain rfl := not_not.mp nonzero
      rw [if_neg nonzero, echo_zero, List.append_nil]
      have dropped : withoutVowels [0] = [] := rfl
      rw [dropped, List.append_nil]
      exact ⟨after, rfl, keeps, printed⟩

/-- Whatever lies behind the array, the program prints these texts and writes only inside. -/
def Prints (program : Nat → (Nat → UInt8) → List UInt8 → Option Reader)
    (stream : List UInt8) (texts : List (List UInt8)) : Prop :=
  ∀ size memory rest, BUFFER_SPACE ≤ size → ∃ after,
    program size memory (stream ++ EOF :: rest) = some after ∧ after.printed = texts ∧
      ∀ j ∈ after.buffer.written, j < BUFFER_SPACE

theorem withoutVowels_clean : 0 ∉ withoutVowels stream := by
  intro member
  simpa using (List.mem_filter.mp member).2

theorem fresh_char {j : Nat} (inside : j < BUFFER_SPACE) : (fresh memory).buffer.char j = 0 :=
  if_pos inside

/-- A zero of the array ends what was kept. -/
theorem Keeps.ended (keeps : Keeps (fresh memory) text after) (short : text.length < BUFFER_SPACE) :
    after.buffer.Holds 0 (text ++ [0]) := by
  refine keeps.holds.append fun j inside => ?_
  have first : j = 0 := by
    simpa using inside
  subst first
  rw [Nat.add_zero]
  refine (keeps.other _ (.inr (Nat.le_refl _))).trans (fresh_char ?_)
  change 0 + _ < _
  omega

/-- In a full array nothing does. -/
theorem Keeps.unended (keeps : Keeps (fresh memory) text after) (clean : 0 ∉ text)
    (full : text.length = size) : after.text size = none := by
  refine text_eq_none fun j inside zero => ?_
  have kept := keeps.holds j (by omega)
  change after.buffer.char (0 + j) = _ at kept
  rw [Nat.zero_add, zero] at kept
  exact clean (kept ▸ List.getElem_mem _)

theorem Keeps.written_fresh (keeps : Keeps (fresh memory) text after) (j : Nat) :
    j ∈ after.buffer.written ↔ j < text.length := by
  have written := keeps.written j
  change _ ↔ j ∈ [] ∨ 0 ≤ j ∧ j < 0 + text.length at written
  rw [written]
  simp

/-- `filter` is right as long as a zero stays behind what it keeps. -/
theorem filter_prints_iff (ends : EOF ∉ stream) :
    Prints filter stream (echo stream ++ [newline :: withoutVowels stream ++ [newline]]) ↔
      (withoutVowels stream).length < BUFFER_SPACE := by
  constructor
  · intro prints
    by_contra long
    obtain ⟨last, found, _, bounded⟩ := prints BUFFER_SPACE (fun _ => 0) [] (Nat.le_refl _)
    obtain ⟨after, run, keeps, _⟩ := filter_run stream (fresh fun _ => 0)
    rw [filter, untilEOF_append filterByte ends, run, Option.bind_some] at found
    obtain ⟨text, read, rfl⟩ := Option.map_eq_some_iff.mp found
    have full : (withoutVowels stream).length = BUFFER_SPACE := by
      by_contra other
      have outside := bounded BUFFER_SPACE ((keeps.written_fresh _).mpr (by omega))
      exact Nat.lt_irrefl _ outside
    rw [keeps.unended withoutVowels_clean full] at read
    cases read
  · intro short size memory rest large
    obtain ⟨after, run, keeps, printed⟩ := filter_run stream (fresh memory)
    have read := text_of_holds (keeps.ended short) withoutVowels_clean
      (Nat.lt_of_lt_of_le short large)
    refine ⟨after.print (newline :: withoutVowels stream ++ [newline]), ?_, ?_, ?_⟩
    · rw [filter, untilEOF_append filterByte ends, run, Option.bind_some, read]
      rfl
    · change after.printed ++ _ = _
      rw [printed]
      rfl
    · intro j member
      exact ((keeps.written_fresh j).mp member).trans short

/-! ## `cat` -/

/-- The texts for a line that ended: each byte by itself, then the whole line. -/
def linePrints (line : List UInt8) : List (List UInt8) :=
  echo (line ++ [newline]) ++ [line ++ [newline]]

/-- What is printed for the lines of a text, the last of which did not end. -/
def linesPrints (lines : List (List UInt8)) : List (List UInt8) :=
  lines.dropLast.flatMap linePrints ++ echo (lines.getLastD [])

/-- A line that ends leaves room for the newline and the zero behind it. -/
def Short (lines : List (List UInt8)) : Prop :=
  (∀ line ∈ lines.dropLast, line.length + 2 ≤ BUFFER_SPACE) ∧
    (lines.getLastD []).length ≤ BUFFER_SPACE

variable {lines : List (List UInt8)}

theorem linesPrints_cons (more : lines ≠ []) :
    linesPrints (line :: lines) = linePrints line ++ linesPrints lines := by
  unfold linesPrints
  rw [List.dropLast_cons_of_ne_nil more, List.flatMap_cons, List.append_assoc]
  obtain ⟨first, others, rfl⟩ := List.exists_cons_of_ne_nil more
  rfl

theorem short_cons_iff (more : lines ≠ []) :
    Short (line :: lines) ↔ line.length + 2 ≤ BUFFER_SPACE ∧ Short lines := by
  unfold Short
  rw [List.dropLast_cons_of_ne_nil more, List.forall_mem_cons, and_assoc]
  obtain ⟨first, others, rfl⟩ := List.exists_cons_of_ne_nil more
  rfl

/-- Bytes of one line, neither zero nor newline. -/
def Plain (line : List UInt8) : Prop := ∀ c ∈ line, c ≠ 0 ∧ c ≠ newline

theorem cat_line (size : Nat) (plain : Plain line) (r : Reader) : ∃ after,
    line.foldlM (fun r c => catByte size c r) r = some after ∧ Keeps r line after ∧
      after.printed = r.printed ++ echo line := by
  induction line using List.reverseRecOn with
  | nil => exact ⟨r, rfl, .refl, (List.append_nil _).symm⟩
  | append_singleton line c ih =>
    obtain ⟨after, run, keeps, printed⟩ :=
      ih fun c member => plain c (List.mem_append_left _ member)
    obtain ⟨nonzero, other⟩ := plain c (List.mem_append_right _ (List.mem_singleton_self c))
    refine ⟨(after.print [c]).keep c, ?_, (keeps.print [c]).keep, ?_⟩
    · rw [foldlM_snoc, run, Option.bind_some, catByte, if_pos nonzero]
      exact if_neg other
    · rw [echo_append, echo_byte nonzero, ← List.append_assoc, ← printed]
      rfl

/-- The newline is kept, the line ended, and the array begun again. -/
theorem cat_newline_writes (keeps : Keeps r line middle) (first : r.i = 0)
    (found : catByte size newline middle = some after) : after.i = 0 ∧
      ∀ j, j ∈ after.buffer.written ↔ j ∈ r.buffer.written ∨ j < line.length + 2 := by
  have kept : Keeps r (line ++ [newline]) ((middle.print [newline]).keep newline) :=
    (keeps.print [newline]).keep
  obtain ⟨text, _, rfl⟩ := Option.map_eq_some_iff.mp found
  refine ⟨rfl, fun j => ?_⟩
  change j ∈ 0 :: ((middle.print [newline]).keep newline).i ::
    ((middle.print [newline]).keep newline).buffer.written ↔ _
  have written := kept.written j
  rw [List.length_append, List.length_singleton] at written
  rw [List.mem_cons, List.mem_cons, written, kept.i, first, List.length_append,
    List.length_singleton]
  by_cases old : j ∈ r.buffer.written
  · simp [old]
  · simp only [old, false_or]
    omega

theorem cat_newline (keeps : Keeps r line middle) (first : r.i = 0) (clean : 0 ∉ line)
    (room : line.length + 2 ≤ size) : ∃ after, catByte size newline middle = some after ∧
      after.printed = middle.printed ++ [[newline], line ++ [newline]] := by
  have kept : Keeps r (line ++ [newline]) ((middle.print [newline]).keep newline) :=
    (keeps.print [newline]).keep
  have ended := kept.holds.snoc (c := 0)
  rw [← kept.i, first] at ended
  have read : ((middle.print [newline]).keep newline).terminate.text size =
      some (line ++ [newline]) := by
    refine text_of_holds ended ?_ ?_
    · rw [List.mem_append, List.mem_singleton, not_or]
      exact ⟨clean, by decide⟩
    · rw [List.length_append, List.length_singleton]
      omega
  refine ⟨_, congrArg (Option.map _) read, ?_⟩
  change (middle.printed ++ [[newline]]) ++ [line ++ [newline]] = _
  rw [List.append_assoc]
  rfl

/-- The lines are printed as long as they are short. -/
theorem cat_lines (large : BUFFER_SPACE ≤ size) (text : List UInt8) : 0 ∉ text →
    Short (text.splitOn newline) → ∀ r : Reader, r.i = 0 →
    (∀ j ∈ r.buffer.written, j < BUFFER_SPACE) →
    ∃ after, text.foldlM (fun r c => catByte size c r) r = some after ∧
      after.printed = r.printed ++ linesPrints (text.splitOn newline) ∧
      ∀ j ∈ after.buffer.written, j < BUFFER_SPACE := by
  induction text using run_induction newline with
  | last line clean =>
    intro nonzero short r first bounded
    have plain : Plain line := fun c member =>
      ⟨fun zero => nonzero (zero ▸ member), fun same => clean (same ▸ member)⟩
    obtain ⟨after, run, keeps, printed⟩ := cat_line size plain r
    rw [List.splitOn_eq_singleton clean] at short ⊢
    refine ⟨after, run, printed, fun j member => ?_⟩
    rcases (keeps.written j).mp member with old | ⟨_, inside⟩
    · exact bounded j old
    · have fits : line.length ≤ BUFFER_SPACE := short.2
      omega
  | first line rest clean ih =>
    intro nonzero short r first bounded
    rw [List.mem_append, List.mem_cons, not_or, not_or] at nonzero
    have plain : Plain line := fun c member =>
      ⟨fun zero => nonzero.1 (zero ▸ member), fun same => clean (same ▸ member)⟩
    rw [splitOn_run clean, short_cons_iff (List.splitOn_ne_nil _ _)] at short
    obtain ⟨middle, run, keeps, printed⟩ := cat_line size plain r
    obtain ⟨begun, newlineRun, newlinePrinted⟩ :=
      cat_newline keeps first nonzero.1 (Nat.le_trans short.1 large)
    obtain ⟨index, written⟩ := cat_newline_writes keeps first newlineRun
    obtain ⟨after, restRun, restPrinted, inside⟩ := ih nonzero.2.2 short.2 begun index (by
      intro j member
      rcases (written j).mp member with old | new
      · exact bounded j old
      · omega)
    refine ⟨after, ?_, ?_, inside⟩
    · rw [foldlM_line, run, Option.bind_some, newlineRun, Option.bind_some, restRun]
    · rw [restPrinted, newlinePrinted, printed, splitOn_run clean,
        linesPrints_cons (List.splitOn_ne_nil _ _), linePrints, echo_append,
        echo_byte (by decide)]
      simp only [List.append_assoc, List.cons_append, List.nil_append]

/-- What was written only inside the array was short. -/
theorem short_of_cat (text : List UInt8) : 0 ∉ text → ∀ r : Reader, r.i = 0 →
    text.foldlM (fun r c => catByte size c r) r = some after →
    (∀ j ∈ after.buffer.written, j < BUFFER_SPACE) →
    (∀ j ∈ r.buffer.written, j < BUFFER_SPACE) ∧ Short (text.splitOn newline) := by
  induction text using run_induction newline with
  | last line clean =>
    intro nonzero r first found bounded
    have plain : Plain line := fun c member =>
      ⟨fun zero => nonzero (zero ▸ member), fun same => clean (same ▸ member)⟩
    obtain ⟨last, run, keeps, _⟩ := cat_line size plain r
    obtain rfl : last = after := Option.some.inj (run.symm.trans found)
    rw [List.splitOn_eq_singleton clean]
    refine ⟨fun j old => bounded j ((keeps.written j).mpr (.inl old)), fun _ => nofun, ?_⟩
    change line.length ≤ _
    by_contra long
    have outside := bounded BUFFER_SPACE ((keeps.written _).mpr (.inr (by omega)))
    exact Nat.lt_irrefl _ outside
  | first line rest clean ih =>
    intro nonzero r first found bounded
    rw [List.mem_append, List.mem_cons, not_or, not_or] at nonzero
    have plain : Plain line := fun c member =>
      ⟨fun zero => nonzero.1 (zero ▸ member), fun same => clean (same ▸ member)⟩
    obtain ⟨middle, run, keeps, _⟩ := cat_line size plain r
    rw [foldlM_line, run, Option.bind_some] at found
    obtain ⟨begun, newlineRun, restRun⟩ := Option.bind_eq_some_iff.mp found
    obtain ⟨index, written⟩ := cat_newline_writes keeps first newlineRun
    obtain ⟨inside, short⟩ := ih nonzero.2.2 begun index restRun bounded
    rw [splitOn_run clean, short_cons_iff (List.splitOn_ne_nil _ _)]
    refine ⟨fun j old => inside j ((written j).mpr (.inl old)), ?_, short⟩
    have zero := inside (line.length + 1) ((written _).mpr (.inr (by omega)))
    omega

/-- The lines of a stream; zeros are dropped. -/
def linesOf (stream : List UInt8) : List (List UInt8) :=
  (stream.filter fun c => c ≠ 0).splitOn newline

theorem cat_zeros (r : Reader) : stream.foldlM (fun r c => catByte size c r) r =
    (stream.filter fun c => c ≠ 0).foldlM (fun r c => catByte size c r) r := by
  induction stream generalizing r with
  | nil => rfl
  | cons c stream ih =>
    by_cases zero : c = 0
    · subst zero
      exact ih r
    · rw [List.filter_cons_of_pos (by simpa using zero), List.foldlM_cons, List.foldlM_cons]
      exact congrArg _ (funext ih)

theorem cat_prints_iff (ends : EOF ∉ stream) :
    Prints cat stream (linesPrints (linesOf stream) ++ [[newline]]) ↔ Short (linesOf stream) := by
  have nonzero : 0 ∉ stream.filter fun c => c ≠ 0 := by simp
  constructor
  · intro prints
    obtain ⟨last, found, _, bounded⟩ := prints BUFFER_SPACE (fun _ => 0) [] (Nat.le_refl _)
    rw [cat, untilEOF_append (catByte _) ends, cat_zeros] at found
    obtain ⟨after, run, rfl⟩ := Option.map_eq_some_iff.mp found
    exact (short_of_cat _ nonzero _ rfl run bounded).2
  · intro short size memory rest large
    obtain ⟨after, run, printed, bounded⟩ :=
      cat_lines large _ nonzero short (fresh memory) rfl fun _ never => nomatch never
    refine ⟨after.print [newline], ?_, ?_, bounded⟩
    · rw [cat, untilEOF_append (catByte size) ends, cat_zeros, run]
      rfl
    · change after.printed ++ _ = _
      rw [printed]
      rfl

/-! ## Both -/

/-- Each of the two programs prints what it should and writes only inside its array if and
only if what it collects there fits. -/
theorem filters_faithful_iff (ends : EOF ∉ stream) :
    (Prints filter stream (echo stream ++ [newline :: withoutVowels stream ++ [newline]]) ↔
      (withoutVowels stream).length < BUFFER_SPACE) ∧
    (Prints cat stream (linesPrints (linesOf stream) ++ [[newline]]) ↔ Short (linesOf stream)) :=
  ⟨filter_prints_iff ends, cat_prints_iff ends⟩

/-- `hola` and a newline. -/
def hola : List UInt8 := [104, 111, 108, 97, 10]

theorem hola_filtered :
    Prints filter hola [[104], [111], [108], [97], [10], [10, 104, 108, 10, 10]] ∧
      Prints cat hola [[104], [111], [108], [97], [10], hola, [10]] := by
  have lines : linesOf hola = [[104, 111, 108, 97], []] := by decide
  have ends : EOF ∉ hola := by decide
  have faithful := filters_faithful_iff ends
  refine ⟨faithful.1.mpr (by decide), ?_⟩
  have cats := faithful.2
  rw [lines] at cats
  exact cats.mpr ⟨by decide, by decide⟩

/-- One more than the array holds. -/
theorem long_input_overruns : ¬ ∀ stream, EOF ∉ stream →
    Prints filter stream (echo stream ++ [newline :: withoutVowels stream ++ [newline]]) ∧
      Prints cat stream (linesPrints (linesOf stream) ++ [[newline]]) := by
  intro all
  have kept : withoutVowels (List.replicate (BUFFER_SPACE + 1) 98) =
      List.replicate (BUFFER_SPACE + 1) 98 :=
    List.filter_replicate_of_pos (by decide)
  have ends : EOF ∉ List.replicate (BUFFER_SPACE + 1) 98 := fun member =>
    absurd (List.eq_of_mem_replicate member) (by decide)
  have short := (filter_prints_iff ends).mp (all _ ends).1
  rw [kept, List.length_replicate] at short
  omega

end SoKernel.Filters
