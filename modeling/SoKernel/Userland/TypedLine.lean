import SoKernel.Userland.Shell

namespace SoKernel.Shell
open Lib Arguments

variable {s : Nat → UInt8} {c : UInt8} {instruction : Option (Nat → UInt8)}
variable {arguments : Nat → UInt8} {done : Option Extracted}
variable {line before after before' after' rest behind buff keys more typed : List UInt8}

/-- `readLine`, and `getInstruction` after it. -/
def readInstruction (keys buff : List UInt8) (instruction : Option (Nat → UInt8))
    (arguments : Nat → UInt8) : Option Extracted :=
  (readLine keys buff BUFFER_SPACE).bind fun read => getInstruction read.2 instruction arguments

/-- The part before the first space, and the part after it. -/
def splitLine (line : List UInt8) : List UInt8 × List UInt8 :=
  (line.takeWhile (· ≠ space), (line.dropWhile (· ≠ space)).tail)

/-- These are the instruction and the arguments. -/
def Extracts (done : Option Extracted) (parts : List UInt8 × List UInt8) : Prop :=
  ∃ extracted instruction, done = some extracted ∧ extracted.instruction = some instruction ∧
    Spells instruction parts.1 ∧ Spells extracted.arguments parts.2

/-- The line at which reading stops: the buffer is full, or the newline comes. -/
def lineRead (keys : List UInt8) : List UInt8 :=
  edited backspace (untilFull backspace (BUFFER_SPACE - 1) [] keys)

/-- Behind the terminator there is nothing, neither erased characters nor other memory. -/
def NothingBehind (keys line behind : List UInt8) : Prop :=
  (line.length < BUFFER_SPACE - 1 ∧
    ∀ typed, typed <+: keys → (edited backspace typed).length ≤ line.length + 1) ∨
  (line.length = BUFFER_SPACE - 1 ∧ ∃ c ∈ behind.head?, EndsArguments c)

/-- Reading stops at a line with the same parts as the edited one, and either the line has a space
or nothing is behind it. -/
def ReadAsEdited (keys behind : List UInt8) : Prop :=
  splitLine (lineRead keys) = splitLine (edited backspace keys) ∧
    (space ∈ lineRead keys ∨ NothingBehind keys (lineRead keys) behind)

/-! ## The parts of a line -/

theorem all_before_space (clean : space ∉ before) : ∀ c ∈ before, decide (c ≠ space) = true :=
  fun _ member => decide_eq_true fun same => clean (same ▸ member)

theorem splitLine_of_space (clean : space ∉ before) :
    splitLine (before ++ space :: after) = (before, after) := by
  have all := all_before_space clean
  unfold splitLine
  rw [List.takeWhile_append_of_pos all, List.dropWhile_append_of_pos all]
  simp

theorem splitLine_of_none (clean : space ∉ line) : splitLine line = (line, []) := by
  have all := all_before_space clean
  unfold splitLine
  rw [List.takeWhile_eq_self_iff.mpr all, List.dropWhile_eq_nil_iff.mpr all, List.tail_nil]

theorem mem_of_splitLine (member : c ∈ (splitLine line).1 ∨ c ∈ (splitLine line).2) : c ∈ line :=
  member.elim (fun first => (List.takeWhile_sublist _).subset first)
    fun second => (List.dropWhile_sublist _).subset (List.mem_of_mem_tail second)

theorem Extracts.unique (extracts : Extracts done (before, after))
    (other : Extracts done (before', after')) (clean : 0 ∉ before ∧ 0 ∉ after)
    (clean' : 0 ∉ before' ∧ 0 ∉ after') : before = before' ∧ after = after' := by
  obtain ⟨extracted, instruction, rfl, known, first, second⟩ := extracts
  obtain ⟨extracted', instruction', same, known', first', second'⟩ := other
  cases same
  cases known.symm.trans known'
  exact ⟨first.unique first' clean.1 clean'.1, second.unique second' clean.2 clean'.2⟩

/-! ## What `getInstruction` extracts -/

theorem iNum_of_getInstruction {extracted : Extracted} {block : Option (Nat → UInt8)}
    (done : getInstruction buff block arguments = some extracted)
    (known : extracted.instruction = some s) : extracted.iNum = verifyInstruction s := by
  cases block with
  | none =>
    cases Option.some.inj done
    cases known
  | some block =>
    obtain ⟨copied, _, rest⟩ := Option.bind_eq_some_iff.mp done
    obtain ⟨arguments', _, rfl⟩ := Option.map_eq_some_iff.mp rest
    rw [Option.some.inj known]

/-- Characters that keys put into a line. -/
def Typed (text : List UInt8) : Prop := ∀ c ∈ text, c ≠ 0 ∧ c ≠ newline

instance : DecidablePred Typed :=
  fun text => List.decidableBAll (fun c => c ≠ 0 ∧ c ≠ newline) text

theorem Typed.inWord {word : List UInt8} (plain : Typed word) (clean : space ∉ word) :
    ∀ c ∈ word, InWord c :=
  fun c member => ⟨fun same => clean (same ▸ member), (plain c member).1⟩

/-- A line with a space is split there, whatever is behind it. -/
theorem getInstruction_of_space (rest : List UInt8) (s arguments : Nat → UInt8) (plain : Typed line)
    (spaced : space ∈ line) (short : line.length < BUFFER_SPACE) :
    Extracts (getInstruction (line ++ 0 :: rest) (some s) arguments) (splitLine line) := by
  obtain ⟨before, after, rfl, clean⟩ := List.eq_append_cons_of_mem spaced
  rw [List.length_append] at short
  have plainWord : Typed before := fun c member => plain c (List.mem_append_left _ member)
  have text : ∀ c ∈ after, ¬ EndsArguments c := fun c member =>
    not_or.mpr (plain c (List.mem_append_right _ (List.mem_cons_of_mem _ member)))
  obtain ⟨instruction, spells, extracted⟩ :=
    getInstruction_word (s := s) arguments (after ++ 0 :: rest) (plainWord.inWord clean) (.inl rfl)
      (by omega)
  obtain ⟨arguments', copied, spells'⟩ :=
    copyArguments_text rest (begins_nil (s := arguments)) text (.inl rfl)
  rw [List.length_nil] at copied
  rw [splitLine_of_space clean, List.append_assoc, List.cons_append, extracted, copied]
  exact ⟨_, instruction, rfl, rfl, spells, spells'⟩

/-- The arguments are empty just when their end is the first thing to copy. -/
theorem copyArguments_empty_iff (arguments : Nat → UInt8) :
    (∃ copied, copyArguments rest 0 arguments = some copied ∧ Spells copied []) ↔
      ∃ c ∈ rest.head?, EndsArguments c := by
  cases rest with
  | nil => simp [copyArguments]
  | cons c rest =>
    rw [List.head?_cons, copyArguments]
    by_cases ends : EndsArguments c
    · rw [if_neg fun inside => not_or.mpr inside ends]
      exact ⟨fun _ => ⟨c, rfl, ends⟩, fun _ => ⟨_, rfl, begins_nil.spells⟩⟩
    · rw [if_pos (not_or.mp ends)]
      constructor
      · rintro ⟨copied, returned, _, empty⟩
        have first := copyArguments_keeps returned Nat.zero_lt_one
        rw [Function.update_self] at first
        exact absurd (.inl (first.symm.trans empty)) ends
      · rintro ⟨a, first, ends'⟩
        rw [← Option.mem_some_iff.mp first] at ends'
        exact absurd ends' ends

/-- A line without spaces is the instruction, and the arguments come from behind its terminator. -/
theorem getInstruction_of_none (rest : List UInt8) (s arguments : Nat → UInt8)
    (plain : Typed line) (clean : space ∉ line) (short : line.length < BUFFER_SPACE) :
    (Extracts (getInstruction (line ++ 0 :: rest) (some s) arguments) (line, []) ↔
      ∃ c ∈ rest.head?, EndsArguments c) ∧
    ∀ parts, Extracts (getInstruction (line ++ 0 :: rest) (some s) arguments) parts →
      0 ∉ parts.1 → line = parts.1 := by
  have nonzero : 0 ∉ line := fun zero => (plain 0 zero).1 rfl
  obtain ⟨instruction, spells, extracted⟩ :=
    getInstruction_word (s := s) arguments rest (plain.inWord clean) (.inr rfl) short
  rw [extracted]
  constructor
  · rw [← copyArguments_empty_iff arguments]
    constructor
    · rintro ⟨_, _, done, _, _, empty⟩
      obtain ⟨copied, returned, rfl⟩ := Option.map_eq_some_iff.mp done
      exact ⟨copied, returned, empty⟩
    · rintro ⟨copied, returned, empty⟩
      rw [returned]
      exact ⟨_, instruction, rfl, rfl, spells, empty⟩
  · rintro parts ⟨_, _, done, known, first, _⟩ clean'
    obtain ⟨copied, returned, rfl⟩ := Option.map_eq_some_iff.mp done
    obtain rfl := Option.some.inj known
    exact spells.unique first nonzero clean'

/-! ## What is behind the line -/

theorem counted_of_typed (plain : Typed keys) : counted (keys ++ newline :: more) = keys := by
  unfold counted
  rw [List.takeWhile_append_of_pos (fun c member => by simpa using (plain c member).2),
    List.takeWhile_cons_of_neg (by simp), List.append_nil]
  exact List.filter_eq_self.mpr fun c member => by simpa using (plain c member).1

theorem seen_typed (more : List UInt8) (plain : Typed keys) :
    (seen (keys ++ newline :: more)).line = lineRead keys := by
  rw [seen_line, counted_of_typed plain]
  rfl

/-- Only a full buffer stops reading early. -/
theorem lineRead_of_short (short : (lineRead keys).length < BUFFER_SPACE - 1) :
    lineRead keys = edited backspace keys := by
  unfold lineRead
  rw [untilFull_of_short short]

theorem typed_edited (plain : Typed keys) : Typed (edited backspace keys) := by
  have all : Typed ((Edited.type backspace ⟨[], []⟩ keys).line ++ _) :=
    Edited.type_all (by simp) plain
  rw [Edited.type_line] at all
  exact fun c member => all c (List.mem_append_left _ member)

theorem seen_erased_typed (keys : List UInt8) :
    Typed ((seen keys).line ++ (seen keys).erased) := by
  have meant : Typed (counted keys) := by
    intro c member
    obtain ⟨early, nonzero⟩ := List.mem_filter.mp member
    exact ⟨by simpa using nonzero, by simpa using List.mem_takeWhile_imp early⟩
  exact Edited.type_all (by simp) fun c member => meant c (untilFull_start.subset member)

/-- One character may have been erased: the terminator takes its place. -/
theorem nothing_erased_iff (more : List UInt8) (plain : Typed keys)
    (short : (lineRead keys).length < BUFFER_SPACE - 1) :
    (seen (keys ++ newline :: more)).erased.tail = [] ↔
      ∀ typed, typed <+: keys → (edited backspace typed).length ≤ (lineRead keys).length + 1 := by
  have all : untilFull backspace (BUFFER_SPACE - 1) [] keys = keys := untilFull_of_short short
  have narrow : (seen (keys ++ newline :: more)).width ≤ (lineRead keys).length + 1 ↔
      ∀ typed, typed <+: keys → (edited backspace typed).length ≤ (lineRead keys).length + 1 := by
    unfold seen
    rw [counted_of_typed plain, all, Edited.type_width_le]
    exact and_iff_right (Nat.zero_le _)
  rw [← narrow, Edited.width, seen_typed more plain, ← List.length_eq_zero_iff, List.length_tail]
  omega

theorem nothingBehind_iff {blank : Nat} (plain : Typed keys)
    (total : (lineRead keys).length + 1 + (seen (keys ++ newline :: more)).erased.tail.length +
      blank = BUFFER_SPACE) :
    (∃ c ∈ ((seen (keys ++ newline :: more)).erased.tail ++ List.replicate blank 0 ++ behind).head?,
      EndsArguments c) ↔ NothingBehind keys (lineRead keys) behind := by
  have size : BUFFER_SPACE = 1000 := rfl
  by_cases short : (lineRead keys).length < BUFFER_SPACE - 1
  · have empty := nothing_erased_iff more plain short
    have room : NothingBehind keys (lineRead keys) behind ↔
        (seen (keys ++ newline :: more)).erased.tail = [] := by
      rw [empty]
      exact ⟨fun nothing => nothing.elim And.right fun fully => absurd fully.1 (by omega),
        fun all => .inl ⟨short, all⟩⟩
    rw [room]
    cases erased : (seen (keys ++ newline :: more)).erased.tail with
    | nil =>
      rw [erased, List.length_nil] at total
      obtain ⟨blank, rfl⟩ := Nat.exists_eq_succ_of_ne_zero (show blank ≠ 0 by omega)
      exact ⟨fun _ => rfl, fun _ => ⟨0, rfl, .inl rfl⟩⟩
    | cons a others =>
      constructor
      · rintro ⟨c, first, ends⟩
        obtain rfl := Option.mem_some_iff.mp first
        have member : a ∈ (seen (keys ++ newline :: more)).erased :=
          List.mem_of_mem_tail (erased ▸ List.mem_cons_self ..)
        have key := seen_erased_typed _ a (List.mem_append_right _ member)
        exact absurd ends (not_or.mpr key)
      · exact fun none => absurd none (List.cons_ne_nil _ _)
  · have nothing : (seen (keys ++ newline :: more)).erased.tail = [] :=
      List.length_eq_zero_iff.mp (by omega)
    obtain rfl : blank = 0 := by omega
    rw [nothing]
    exact ⟨fun ends => .inr ⟨by omega, ends⟩,
      fun nothing => nothing.elim (fun room => absurd room.1 short) And.right⟩

/-! ## The line that the shell sees -/

/-- A line that is full up to its first space has none. -/
theorem eq_of_splitLine (same : line = (splitLine before).1)
    (full : before.length ≤ line.length) : before = line := by
  have whole : (splitLine before).1 ++ before.dropWhile (· ≠ space) = before :=
    List.takeWhile_append_dropWhile
  have total := congrArg List.length whole
  rw [List.length_append, ← same] at total
  have nothing : before.dropWhile (· ≠ space) = [] := List.length_eq_zero_iff.mp (by omega)
  rw [nothing, List.append_nil] at whole
  rw [same, whole]

theorem splitLine_clean (plain : Typed line) :
    0 ∉ (splitLine line).1 ∧ 0 ∉ (splitLine line).2 :=
  ⟨fun zero => (plain 0 (mem_of_splitLine (.inl zero))).1 rfl,
    fun zero => (plain 0 (mem_of_splitLine (.inr zero))).1 rfl⟩

/-- A line in the buffer is taken for another one. -/
theorem extracts_line_iff {other : List UInt8} (plain : Typed line)
    (short : line.length < BUFFER_SPACE) (plain' : Typed other)
    (whole : line = (splitLine other).1 → other = line) :
    Extracts (getInstruction (line ++ 0 :: rest) (some s) arguments) (splitLine other) ↔
      splitLine line = splitLine other ∧ (space ∈ line ∨ ∃ c ∈ rest.head?, EndsArguments c) := by
  by_cases spaced : space ∈ line
  · rw [and_iff_left (.inl spaced)]
    have extracts := getInstruction_of_space rest s arguments plain spaced short
    constructor
    · intro claimed
      exact Prod.ext_iff.mpr
        (extracts.unique claimed (splitLine_clean plain) (splitLine_clean plain'))
    · exact fun same => same ▸ extracts
  · obtain ⟨empty, first⟩ := getInstruction_of_none rest s arguments plain spaced short
    rw [or_iff_right spaced, ← empty, ← splitLine_of_none spaced]
    constructor
    · intro claimed
      obtain rfl := whole (first _ claimed (splitLine_clean plain').1)
      exact ⟨rfl, claimed⟩
    · exact fun both => both.1 ▸ both.2

theorem lineRead_typed (plain : Typed keys) :
    Typed (lineRead keys) ∧ (lineRead keys).length < BUFFER_SPACE := by
  rw [← seen_typed [] plain]
  exact ⟨fun c member => seen_erased_typed _ c (List.mem_append_left _ member), seen_short _⟩

/-- A buffer that is not full is the edited line. -/
theorem edited_of_splitLine (short : (edited backspace keys).length < BUFFER_SPACE)
    (same : lineRead keys = (splitLine (edited backspace keys)).1) :
    edited backspace keys = lineRead keys := by
  have size : BUFFER_SPACE = 1000 := rfl
  by_cases early : (lineRead keys).length < BUFFER_SPACE - 1
  · exact (lineRead_of_short early).symm
  · exact eq_of_splitLine same (by omega)

theorem readInstruction_typed (more buff : List UInt8) (instruction : Option (Nat → UInt8))
    (arguments : Nat → UInt8) (plain : Typed keys) : ∃ rest,
      readInstruction (keys ++ newline :: more) buff instruction arguments =
        getInstruction (lineRead keys ++ 0 :: rest) instruction arguments ∧
      ((∃ c ∈ rest.head?, EndsArguments c) ↔
        NothingBehind keys (lineRead keys) (buff.drop BUFFER_SPACE)) := by
  have ends : newline ∈ keys ++ newline :: more := by simp
  obtain ⟨read, returns⟩ := readLine_returns ends buff
  obtain ⟨blank, rfl, total⟩ := readLine_spec returns
  rw [seen_typed more plain] at total returns
  refine ⟨_, ?_, nothingBehind_iff plain total⟩
  unfold readInstruction
  rw [returns, Option.bind_some]

/-- What `readLine` and `getInstruction` extract is the edited line, split at its first space, just
when it is read as edited. -/
theorem extracts_edited_line_iff (plain : Typed keys)
    (short : (edited backspace keys).length < BUFFER_SPACE) :
    Extracts (readInstruction (keys ++ newline :: more) buff instruction arguments)
        (splitLine (edited backspace keys)) ↔
      instruction ≠ none ∧ ReadAsEdited keys (buff.drop BUFFER_SPACE) := by
  obtain ⟨plainRead, fits⟩ := lineRead_typed plain
  obtain ⟨rest, extracted, nothing⟩ :=
    readInstruction_typed more buff instruction arguments plain
  rw [extracted]
  cases instruction with
  | none =>
    constructor
    · rintro ⟨_, _, done, known, _⟩
      cases Option.some.inj done
      cases known
    · exact fun both => absurd rfl both.1
  | some block =>
    rw [extracts_line_iff plainRead fits (typed_edited plain) (edited_of_splitLine short), nothing,
      and_iff_right (Option.some_ne_none block)]
    rfl

theorem two_words_read_as_edited :
    Extracts (readInstruction ([101, 99, 104, 120, 8, 111, 32, 104, 105] ++ newline :: []) []
        (some fun _ => 0) fun _ => 0) (splitLine [101, 99, 104, 111, 32, 104, 105]) := by
  have plain : Typed [101, 99, 104, 120, 8, 111, 32, 104, 105] := by decide
  exact (extracts_edited_line_iff plain (by decide)).mpr
    ⟨Option.some_ne_none _, by decide, .inl (by decide)⟩

/-- "help" after two erased characters: the second of them is the argument. -/
theorem erased_behind_line : ¬ ∀ (keys more buff : List UInt8) (instruction arguments),
    Typed keys → (∀ typed, typed <+: keys → (edited backspace typed).length < BUFFER_SPACE) →
    bar ∉ edited backspace keys →
    Extracts (readInstruction (keys ++ newline :: more) buff (some instruction) arguments)
      (splitLine (edited backspace keys)) := by
  intro claim
  have prefixes : ∀ typed ∈ List.inits [104, 101, 108, 112, 88, 89, 8, 8],
      (edited backspace typed).length < BUFFER_SPACE := by decide
  obtain ⟨extracted, instruction, done, _, _, empty⟩ :=
    claim [104, 101, 108, 112, 88, 89, 8, 8] [] [] (fun _ => 0) (fun _ => 0) (by decide)
      (fun typed start => prefixes typed ((List.mem_inits _ _).mpr start)) (by decide)
  have stale : (readInstruction ([104, 101, 108, 112, 88, 89, 8, 8] ++ newline :: []) []
      (some fun _ => 0) fun _ => 0).map (fun extracted => extracted.arguments 0) = some 89 := by
    decide
  have first : extracted.arguments 0 = 0 := empty.ends
  rw [done, Option.map_some, first] at stale
  exact absurd stale (by decide)

/-- A line that is read as edited runs the command and the arguments that it shows: they depend on
the edited line only. -/
theorem runs_edited_line (more : List UInt8) (s arguments : Nat → UInt8) (plain : Typed keys)
    (short : (edited backspace keys).length < BUFFER_SPACE)
    (asEdited : ReadAsEdited keys (buff.drop BUFFER_SPACE)) : ∃ extracted,
      readInstruction (keys ++ newline :: more) buff (some s) arguments = some extracted ∧
        extracted.iNum = code (command? (splitLine (edited backspace keys)).1) ∧
        Spells extracted.arguments (splitLine (edited backspace keys)).2 := by
  obtain ⟨plainRead, fits⟩ := lineRead_typed plain
  obtain ⟨rest, extracted, nothing⟩ := readInstruction_typed more buff (some s) arguments plain
  rw [extracted]
  obtain ⟨extracted, instruction, done, known, first, second⟩ :=
    (extracts_line_iff plainRead fits (typed_edited plain) (edited_of_splitLine short)).mpr
      ⟨asEdited.1, asEdited.2.imp_right nothing.mpr⟩
  refine ⟨extracted, done, ?_, second⟩
  rw [iNum_of_getInstruction done known]
  exact verifyInstruction_of_spells first (splitLine_clean (typed_edited plain)).1

end SoKernel.Shell
