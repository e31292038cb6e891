import SoKernel.Lib.LineEditor
import SoKernel.Userland.Arguments

namespace SoKernel.Shell
open Lib Arguments

/-! ## `programs.c` and `stdlib.c` -/

def newline : UInt8 := 10
def backspace : UInt8 := 8
def bar : UInt8 := 124

/-- The loop of `readLine`; `none` while it waits for keys. -/
def readKeys (length : Nat) : List UInt8 → Nat → List UInt8 → Option (Nat × List UInt8)
  | [], _, _ => none
  | c :: keys, i, buff =>
    if c ≠ newline ∧ i < length - 1 then
      if c = backspace then readKeys length keys (if 0 < i then i - 1 else i) buff
      else if c ≠ 0 then readKeys length keys (i + 1) (buff.set i c)
      else readKeys length keys i buff
    else some (i, buff)

/-- `buff` is memory from the buffer on, up to its end. -/
def readLine (keys buff : List UInt8) (length : Nat) : Option (Nat × List UInt8) :=
  (readKeys length keys 0 (List.replicate length 0 ++ buff.drop length)).map fun read =>
    (read.1, read.2.set read.1 0)

/-- With a needle of one character: its place in the string. -/
def strstr (needle : UInt8) : List UInt8 → Option Nat
  | [] => none
  | h :: haystack =>
    if h = 0 then none
    else if h = needle then some 0
    else (strstr needle haystack).map (· + 1)

/-! ## `shell.c` -/

def BUFFER_SPACE : Nat := 1000

/-- Of the `instructions`, the ones that the code names. -/
def KILL : Int := 16
def EXIT : Int := 19

def IS_BUILT_IN (i : Int) : Prop := KILL ≤ i ∧ i < EXIT

instance : DecidablePred IS_BUILT_IN := fun _ => inferInstanceAs (Decidable (_ ∧ _))

def ascii (literal : String) : List UInt8 := literal.toList.map fun c => UInt8.ofNat c.toNat

def inst_list : List (List UInt8) := ["help", "echo", "clear", "test_mm", "test_processes",
  "test_prio", "test_sync", "ps", "memInfo", "loop", "nice", "wc", "filter", "cat",
  "test_malloc_free", "phylo", "kill", "block", "unblock", "exit"].map ascii

/-- Whether `strcmp` is 0 does not depend on which string comes first. -/
def verifyInstruction (instruction : Nat → UInt8) : Int :=
  match inst_list.findIdx? fun name => strcmp instruction name = 0 with
  | some i => i
  | none => -1

/-- The first loop of `getInstruction`, at most `left` rounds: what is left of the buffer, and the
instruction. There is `none` when memory ends. -/
def copyInstruction : Nat → List UInt8 → Nat → (Nat → UInt8) → Option (List UInt8 × (Nat → UInt8))
  | 0, buffer, _, instruction => some (buffer, instruction)
  | _ + 1, [], _, _ => none
  | left + 1, c :: buffer, j, instruction =>
    if c = space ∨ c = 0 then some (buffer, Function.update instruction j 0)
    else copyInstruction left buffer (j + 1) (Function.update instruction j c)

/-- The second loop, which nothing but a terminator or a newline ends. -/
def copyArguments : List UInt8 → Nat → (Nat → UInt8) → Option (Nat → UInt8)
  | [], _, _ => none
  | c :: buffer, arg_index, arguments =>
    if c ≠ 0 ∧ c ≠ newline then
      copyArguments buffer (arg_index + 1) (Function.update arguments arg_index c)
    else some (Function.update arguments arg_index 0)

structure Extracted where
  iNum : Int
  instruction : Option (Nat → UInt8)
  arguments : Nat → UInt8

/-- `instruction` is the block that `malloc` gives, if any. Blocks do not overlap; what is printed
and freed is left out. -/
def getInstruction (buffer : List UInt8) (instruction : Option (Nat → UInt8))
    (arguments : Nat → UInt8) : Option Extracted :=
  match instruction with
  | none => some ⟨-1, none, arguments⟩
  | some instruction =>
    (copyInstruction BUFFER_SPACE buffer 0 instruction).bind fun copied =>
      (copyArguments copied.1 0 arguments).map fun arguments =>
        ⟨verifyInstruction copied.2, some copied.2, arguments⟩

/-! ## Strings -/

variable {s : Nat → UInt8} {c : UInt8} {left size : Nat} {e : Edited UInt8}
variable {text word name done rest buffer behind buff keys typed : List UInt8}

/-- The array begins with these characters. -/
def Begins (s : Nat → UInt8) (text : List UInt8) : Prop :=
  ∀ i (inside : i < text.length), s i = text[i]

/-- The array holds this string. -/
structure Spells (s : Nat → UInt8) (text : List UInt8) : Prop where
  begins : Begins s text
  ends : s text.length = 0

theorem begins_nil : Begins s [] := fun i inside => absurd inside (Nat.not_lt_zero i)

theorem Begins.snoc (begins : Begins s text) :
    Begins (Function.update s text.length c) (text ++ [c]) := by
  intro i inside
  by_cases last : i = text.length
  · subst last
    simp
  · rw [List.length_append, List.length_singleton] at inside
    rw [Function.update_of_ne last, begins i (by omega), List.getElem_append_left (by omega)]

theorem Begins.spells (begins : Begins s text) : Spells (Function.update s text.length 0) text where
  begins := by
    intro i inside
    rw [Function.update_of_ne (by omega), begins i inside]
  ends := Function.update_self _ _ _

theorem begins_cons : Begins s (c :: text) ↔ s 0 = c ∧ Begins (fun i => s (i + 1)) text := by
  constructor
  · intro begins
    exact ⟨begins 0 (Nat.zero_lt_succ _), fun i inside => begins (i + 1) (Nat.succ_lt_succ inside)⟩
  · rintro ⟨first, later⟩ i inside
    cases i with
    | zero => exact first
    | succ i => exact later i (Nat.lt_of_succ_lt_succ inside)

theorem spells_cons : Spells s (c :: text) ↔ s 0 = c ∧ Spells (fun i => s (i + 1)) text := by
  constructor
  · rintro ⟨begins, ends⟩
    exact ⟨(begins_cons.mp begins).1, (begins_cons.mp begins).2, ends⟩
  · rintro ⟨first, begins, ends⟩
    exact ⟨begins_cons.mpr ⟨first, begins⟩, ends⟩

/-- An array holds one string only. -/
theorem Spells.unique (spells : Spells s text) (other : Spells s word) (clean : 0 ∉ text)
    (clean' : 0 ∉ word) : text = word := by
  induction text generalizing s word with
  | nil =>
    cases word with
    | nil => rfl
    | cons c word => exact absurd (spells.ends.symm.trans (spells_cons.mp other).1) (by
        intro zero
        exact clean' (zero ▸ List.mem_cons_self ..))
  | cons c text ih =>
    obtain ⟨first, later⟩ := spells_cons.mp spells
    cases word with
    | nil => exact absurd (other.ends.symm.trans first) (by
        intro zero
        exact clean (zero ▸ List.mem_cons_self ..))
    | cons c' word =>
      obtain ⟨first', later'⟩ := spells_cons.mp other
      rw [first.symm.trans first',
        ih later later' (fun zero => clean (List.mem_cons_of_mem _ zero))
          fun zero => clean' (List.mem_cons_of_mem _ zero)]

theorem char_eq_iff {c' : UInt8} : Arguments.char c = Arguments.char c' ↔ c = c' := by
  constructor
  · intro same
    have signed : c.toInt8 = c'.toInt8 := Int8.toInt_inj.mp same
    simpa using congrArg Int8.toUInt8 signed
  · exact congrArg _

theorem strcmp_eq_zero_iff (clean : 0 ∉ name) : strcmp s name = 0 ↔ Spells s name := by
  induction name generalizing s with
  | nil =>
    rw [strcmp]
    constructor
    · intro zero
      exact ⟨begins_nil, char_eq_iff.mp (zero.trans (by decide))⟩
    · rintro ⟨_, ends⟩
      exact (congrArg Arguments.char ends).trans (by decide)
  | cons c name ih =>
    rw [strcmp, spells_cons]
    have nonzero : c ≠ 0 := fun zero => clean (zero ▸ List.mem_cons_self ..)
    by_cases same : s 0 = c
    · rw [if_pos ⟨same ▸ nonzero, same⟩, ih fun zero => clean (List.mem_cons_of_mem _ zero)]
      exact ⟨fun later => ⟨same, later⟩, And.right⟩
    · rw [if_neg fun both => same both.2, Int.sub_eq_zero, char_eq_iff]
      exact ⟨fun equal => absurd equal same, fun both => both.1⟩

theorem inst_list_clean : ∀ name ∈ inst_list, (0 : UInt8) ∉ name ∧ name.length < BUFFER_SPACE := by
  decide

/-- The command of this name. -/
def command? (name : List UInt8) : Option Nat := inst_list.findIdx? fun known => known = name

/-- Its code, -1 when there is none. -/
def code : Option Nat → Int
  | some i => i
  | none => -1

theorem findIdx?_congr {names : List (List UInt8)} {p q : List UInt8 → Bool}
    (same : ∀ name ∈ names, p name = q name) : names.findIdx? p = names.findIdx? q := by
  induction names with
  | nil => rfl
  | cons name names ih =>
    rw [List.findIdx?_cons, List.findIdx?_cons, same name (List.mem_cons_self ..),
      ih fun name member => same name (List.mem_cons_of_mem _ member)]

theorem verifyInstruction_of_spells (spells : Spells s word) (clean : 0 ∉ word) :
    verifyInstruction s = code (command? word) := by
  have same : inst_list.findIdx? (fun name => strcmp s name = 0) = command? word := by
    unfold command?
    refine findIdx?_congr fun name member => ?_
    have nonzero := (inst_list_clean name member).1
    rw [decide_eq_decide, strcmp_eq_zero_iff nonzero]
    exact ⟨fun found => found.unique spells nonzero clean, fun equal => equal ▸ spells⟩
  unfold verifyInstruction
  rw [same]
  rfl

/-- Nothing of this length is a command, terminated or not. -/
theorem verifyInstruction_of_long (begins : Begins s word) (clean : 0 ∉ word)
    (long : BUFFER_SPACE ≤ word.length) : verifyInstruction s = -1 := by
  have unknown : inst_list.findIdx? (fun name => strcmp s name = 0) = none := by
    refine List.findIdx?_eq_none_iff.mpr fun name member => ?_
    obtain ⟨nonzero, short⟩ := inst_list_clean name member
    rw [decide_eq_false_iff_not, strcmp_eq_zero_iff nonzero]
    intro spells
    have inside : name.length < word.length := by omega
    have zero : word[name.length] = 0 := (begins _ inside).symm.trans spells.ends
    exact clean (zero ▸ List.getElem_mem inside)
  unfold verifyInstruction
  rw [unknown]

theorem command?_of_long (long : BUFFER_SPACE ≤ word.length) : command? word = none := by
  refine List.findIdx?_eq_none_iff.mpr fun name member => ?_
  rw [decide_eq_false_iff_not]
  rintro rfl
  exact absurd (inst_list_clean name member).2 (by omega)

/-! ## What `getInstruction` copies -/

/-- A character of a command. -/
def InWord (c : UInt8) : Prop := c ≠ space ∧ c ≠ 0

instance : DecidablePred InWord := fun _ => inferInstanceAs (Decidable (_ ∧ _))

theorem copyInstruction_word (rest : List UInt8) (begins : Begins s done)
    (clean : ∀ c ∈ word, InWord c) (stops : c = space ∨ c = 0) (short : word.length < left) : ∃ s',
      copyInstruction left (word ++ c :: rest) done.length s = some (rest, s') ∧
        Spells s' (done ++ word) := by
  induction word generalizing s done left with
  | nil =>
    obtain ⟨left, rfl⟩ := Nat.exists_eq_succ_of_ne_zero (Nat.ne_of_gt short)
    refine ⟨_, if_pos stops, ?_⟩
    rw [List.append_nil]
    exact begins.spells
  | cons a word ih =>
    obtain ⟨left, rfl⟩ := Nat.exists_eq_succ_of_ne_zero (Nat.ne_of_gt (Nat.zero_lt_of_lt short))
    obtain ⟨here, later⟩ := List.forall_mem_cons.mp clean
    obtain ⟨s', copied, spells⟩ := ih (begins.snoc (c := a)) later (Nat.lt_of_succ_lt_succ short)
    refine ⟨s', ?_, by rwa [List.append_assoc] at spells⟩
    rw [List.length_append, List.length_singleton] at copied
    exact (if_neg (not_or.mpr here)).trans copied

/-- Where no delimiter comes in time, the instruction is not terminated. -/
theorem copyInstruction_long (rest : List UInt8) (begins : Begins s done)
    (clean : ∀ c ∈ word, InWord c) (long : left ≤ word.length) : ∃ rest' s',
      copyInstruction left (word ++ rest) done.length s = some (rest', s') ∧
        Begins s' (done ++ word.take left) := by
  induction word generalizing s done left with
  | nil =>
    obtain rfl : left = 0 := Nat.le_zero.mp long
    exact ⟨_, s, rfl, by simpa using begins⟩
  | cons a word ih =>
    cases left with
    | zero => exact ⟨_, s, rfl, by simpa using begins⟩
    | succ left =>
      obtain ⟨here, later⟩ := List.forall_mem_cons.mp clean
      obtain ⟨rest', s', copied, begins'⟩ :=
        ih (begins.snoc (c := a)) later (Nat.le_of_succ_le_succ long)
      refine ⟨rest', s', ?_, by rwa [List.append_assoc] at begins'⟩
      rw [List.length_append, List.length_singleton] at copied
      exact (if_neg (not_or.mpr here)).trans copied

/-- Memory ends before the word does. -/
theorem copyInstruction_ends (clean : ∀ c ∈ word, InWord c) (short : word.length < left) (j : Nat) :
    copyInstruction left word j s = none := by
  induction word generalizing s left j with
  | nil =>
    obtain ⟨left, rfl⟩ := Nat.exists_eq_succ_of_ne_zero (Nat.ne_of_gt short)
    rfl
  | cons a word ih =>
    obtain ⟨left, rfl⟩ := Nat.exists_eq_succ_of_ne_zero (Nat.ne_of_gt (Nat.zero_lt_of_lt short))
    obtain ⟨here, later⟩ := List.forall_mem_cons.mp clean
    exact (if_neg (not_or.mpr here)).trans (ih later (Nat.lt_of_succ_lt_succ short) (j + 1))

/-- What ends the arguments. -/
def EndsArguments (c : UInt8) : Prop := c = 0 ∨ c = newline

theorem copyArguments_text (rest : List UInt8) (begins : Begins s done)
    (clean : ∀ c ∈ text, ¬ EndsArguments c) (stops : EndsArguments c) : ∃ s',
      copyArguments (text ++ c :: rest) done.length s = some s' ∧ Spells s' (done ++ text) := by
  induction text generalizing s done with
  | nil =>
    refine ⟨_, if_neg ?_, by rw [List.append_nil]; exact begins.spells⟩
    rintro ⟨nonzero, inside⟩
    exact stops.elim nonzero inside
  | cons a text ih =>
    obtain ⟨here, later⟩ := List.forall_mem_cons.mp clean
    obtain ⟨s', copied, spells⟩ := ih (begins.snoc (c := a)) later
    refine ⟨s', ?_, by rwa [List.append_assoc] at spells⟩
    rw [List.length_append, List.length_singleton] at copied
    exact (if_pos (not_or.mp here)).trans copied

theorem copyArguments_returns_iff (arg_index : Nat) (s : Nat → UInt8) :
    (∃ s', copyArguments text arg_index s = some s') ↔ ∃ c ∈ text, EndsArguments c := by
  induction text generalizing s arg_index with
  | nil =>
    constructor
    · rintro ⟨_, copied⟩
      cases copied
    · rintro ⟨_, member, _⟩
      cases member
  | cons a text ih =>
    rw [copyArguments, List.exists_mem_cons_iff]
    by_cases ends : EndsArguments a
    · rw [if_neg fun inside => not_or.mpr inside ends]
      exact iff_of_true ⟨_, rfl⟩ (.inl ends)
    · rw [if_pos (not_or.mp ends), ih, or_iff_right ends]

theorem copyArguments_keeps {s' : Nat → UInt8} {i arg_index : Nat}
    (copied : copyArguments text arg_index s = some s') (before : i < arg_index) : s' i = s i := by
  induction text generalizing s arg_index with
  | nil => cases copied
  | cons a text ih =>
    rw [copyArguments] at copied
    split at copied
    · rw [ih copied (by omega), Function.update_of_ne (by omega)]
    · rw [← Option.some.inj copied, Function.update_of_ne (by omega)]

theorem getInstruction_word (arguments : Nat → UInt8) (rest : List UInt8)
    (clean : ∀ c ∈ word, InWord c) (stops : c = space ∨ c = 0)
    (short : word.length < BUFFER_SPACE) : ∃ instruction, Spells instruction word ∧
      getInstruction (word ++ c :: rest) (some s) arguments =
        (copyArguments rest 0 arguments).map fun arguments =>
          ⟨code (command? word), some instruction, arguments⟩ := by
  obtain ⟨instruction, copied, spells⟩ :=
    copyInstruction_word rest (begins_nil (s := s)) clean stops short
  rw [List.length_nil] at copied
  rw [List.nil_append] at spells
  refine ⟨instruction, spells, ?_⟩
  unfold getInstruction
  rw [← verifyInstruction_of_spells spells fun zero => (clean 0 zero).2 rfl]
  simp only [copied, Option.bind_some]

/-! ## What `readLine` leaves -/

/-- The buffer holds the line, what was erased behind it, and nothing more; then comes the memory
behind the buffer. -/
def Represents (e : Edited UInt8) (size : Nat) (behind buff : List UInt8) : Prop :=
  ∃ blank, buff = e.line ++ e.erased ++ List.replicate blank 0 ++ behind ∧ e.width + blank = size

theorem Represents.type_key (shown : Represents e size behind buff) (room : e.line.length < size)
    (key : c ≠ backspace) :
    Represents (e.press backspace c) size behind (buff.set e.line.length c) := by
  obtain ⟨blank, rfl, total⟩ := shown
  obtain ⟨line, erased⟩ := e
  unfold Edited.press
  unfold Edited.width at total
  rw [if_neg key]
  cases erased with
  | nil =>
    obtain ⟨blank, rfl⟩ := Nat.exists_eq_succ_of_ne_zero (show blank ≠ 0 by simp at *; omega)
    refine ⟨blank, by simp [List.replicate_succ], ?_⟩
    simp [Edited.width] at *
    omega
  | cons a erased =>
    refine ⟨blank, by simp, ?_⟩
    simp [Edited.width] at *
    omega

theorem Represents.erase_key (shown : Represents e size behind buff) :
    Represents (e.press backspace backspace) size behind buff := by
  obtain ⟨blank, rfl, total⟩ := shown
  obtain ⟨line, erased⟩ := e
  unfold Edited.press
  rw [if_pos rfl]
  cases line using List.reverseRecOn with
  | nil => exact ⟨blank, by simp, total⟩
  | append_singleton line a =>
    refine ⟨blank, by simp, ?_⟩
    simp [Edited.width] at *
    omega

/-- The keys before the newline that mean something. -/
def counted (keys : List UInt8) : List UInt8 := (keys.takeWhile (· ≠ newline)).filter (· ≠ 0)

theorem counted_cons (ordinary : c ≠ newline) :
    counted (c :: keys) = if c ≠ 0 then c :: counted keys else counted keys := by
  unfold counted
  rw [List.takeWhile_cons_of_pos (by simpa using ordinary), List.filter_cons]
  simp

theorem readKeys_spec {read : Nat × List UInt8} (shown : Represents e size behind buff)
    (returns : readKeys size keys e.line.length buff = some read) :
    read.1 = (e.type backspace (untilFull backspace (size - 1) e.line (counted keys))).line.length ∧
      Represents (e.type backspace (untilFull backspace (size - 1) e.line (counted keys))) size
        behind read.2 := by
  induction keys generalizing e buff with
  | nil => cases returns
  | cons c keys ih =>
    rw [readKeys] at returns
    by_cases stops : c ≠ newline ∧ e.line.length < size - 1
    · obtain ⟨ordinary, room⟩ := stops
      rw [if_pos ⟨ordinary, room⟩] at returns
      rw [counted_cons ordinary]
      by_cases zero : c = 0
      · subst zero
        rw [if_neg (by decide), if_neg (by simp)] at returns
        rw [if_neg (by simp)]
        exact ih shown returns
      rw [if_pos zero, untilFull, if_pos room, ← Edited.press_line]
      by_cases back : c = backspace
      · subst back
        rw [if_pos rfl] at returns
        have shorter : (if 0 < e.line.length then e.line.length - 1 else e.line.length) =
            (e.press backspace backspace).line.length := by
          rw [Edited.press_line, edit, if_pos rfl, List.length_dropLast]
          split <;> omega
        rw [shorter] at returns
        exact ih shown.erase_key returns
      · rw [if_neg back, if_pos zero] at returns
        have longer : e.line.length + 1 = (e.press backspace c).line.length := by
          rw [Edited.press_line, edit, if_neg back, List.length_append, List.length_singleton]
        rw [longer] at returns
        exact ih (shown.type_key (by omega) back) returns
    · rw [if_neg stops] at returns
      obtain rfl := Option.some.inj returns
      have nothing : untilFull backspace (size - 1) e.line (counted (c :: keys)) = [] := by
        by_cases last : c = newline
        · subst last
          rfl
        · exact untilFull_of_full fun room => stops ⟨last, room⟩
      rw [nothing]
      exact ⟨rfl, shown⟩

theorem readKeys_returns (ends : newline ∈ keys) (i : Nat) :
    ∃ read, readKeys size keys i buff = some read := by
  induction keys generalizing i buff with
  | nil => cases ends
  | cons c keys ih =>
    rw [readKeys]
    by_cases stops : c ≠ newline ∧ i < size - 1
    · have later := (List.mem_cons.mp ends).resolve_left (Ne.symm stops.1)
      rw [if_pos stops]
      split
      · exact ih later _
      · split
        · exact ih later _
        · exact ih later _
    · rw [if_neg stops]
      exact ⟨_, rfl⟩

/-- The line that `readLine` sees, and what is erased behind it. -/
def seen (keys : List UInt8) : Edited UInt8 :=
  Edited.type backspace ⟨[], []⟩ (untilFull backspace (BUFFER_SPACE - 1) [] (counted keys))

theorem seen_line : (seen keys).line =
    edited backspace (untilFull backspace (BUFFER_SPACE - 1) [] (counted keys)) :=
  Edited.type_line

theorem seen_short (keys : List UInt8) : (seen keys).line.length < BUFFER_SPACE := by
  rw [seen_line]
  exact Nat.lt_of_le_of_lt (untilFull_length (Nat.zero_le _)) (by decide)

theorem readLine_returns (ends : newline ∈ keys) (buff : List UInt8) :
    ∃ read, readLine keys buff BUFFER_SPACE = some read := by
  obtain ⟨raw, returned⟩ := readKeys_returns ends 0
  exact ⟨_, Option.map_eq_some_iff.mpr ⟨raw, returned, rfl⟩⟩

theorem readLine_spec {read : Nat × List UInt8}
    (returns : readLine keys buff BUFFER_SPACE = some read) : ∃ blank,
      read = ((seen keys).line.length, (seen keys).line ++
        0 :: ((seen keys).erased.tail ++ List.replicate blank 0 ++ buff.drop BUFFER_SPACE)) ∧
      (seen keys).line.length + 1 + (seen keys).erased.tail.length + blank = BUFFER_SPACE := by
  obtain ⟨raw, returned, rfl⟩ := Option.map_eq_some_iff.mp returns
  have blanks : Represents ⟨[], []⟩ BUFFER_SPACE (buff.drop BUFFER_SPACE)
      (List.replicate BUFFER_SPACE 0 ++ buff.drop BUFFER_SPACE) := ⟨_, rfl, Nat.zero_add _⟩
  obtain ⟨index, blank, after, total⟩ := readKeys_spec blanks returned
  have short := seen_short keys
  change raw.1 = (seen keys).line.length at index
  change raw.2 = (seen keys).line ++ (seen keys).erased ++ _ ++ _ at after
  change (seen keys).line.length + (seen keys).erased.length + blank = BUFFER_SPACE at total
  rw [index, after]
  cases behind : (seen keys).erased with
  | nil =>
    rw [behind, List.length_nil] at total
    obtain ⟨blank, rfl⟩ := Nat.exists_eq_succ_of_ne_zero (show blank ≠ 0 by omega)
    refine ⟨blank, by simp [List.replicate_succ], ?_⟩
    rw [List.tail_nil, List.length_nil]
    omega
  | cons a erased =>
    rw [behind, List.length_cons] at total
    refine ⟨blank, by simp, ?_⟩
    rw [List.tail_cons]
    omega

end SoKernel.Shell
