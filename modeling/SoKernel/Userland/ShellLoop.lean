import SoKernel.Userland.TypedLine

namespace SoKernel.Shell
open Lib Arguments

/-! ## `shell.c` -/

structure Command where
  instruction : Int
  arguments : Option (Nat → UInt8)

structure PipeCmd where
  cmd1 : Command
  cmd2 : Command

/-- One turn of the loop of `shell`: the keys, whether and what `malloc` gives, and what
`syscall_open_pipe` returns. `shell_buffer` goes up to the end of memory; a block for arguments that
`malloc` refuses is the one at 0. -/
structure Turn where
  keys : List UInt8
  pipe_cmd : Bool
  shell_buffer : Option (List UInt8)
  instruction1 : Option (Nat → UInt8)
  instruction2 : Option (Nat → UInt8)
  arg1 : Nat → UInt8
  arg2 : Nat → UInt8
  pipe : Int

/-- The three zeros around the pipe. The first one is before the buffer, where nothing is read, when
the line begins with the pipe. -/
def cutPipe (pipe_pos : Nat) (shell_buffer : List UInt8) : List UInt8 :=
  let cut := if pipe_pos = 0 then shell_buffer else shell_buffer.set (pipe_pos - 1) 0
  (cut.set pipe_pos 0).set (pipe_pos + 1) 0

/-- `cmd2`, and what is left in the buffer. `getInstruction` frees an address inside the buffer,
which is the start of no block: nothing is freed. -/
def rightOfPipe (turn : Turn) (shell_buffer : List UInt8) : Option (List UInt8 × Command) :=
  match strstr bar shell_buffer with
  | none => some (shell_buffer, ⟨-1, none⟩)
  | some pipe_pos =>
    let shell_buffer := cutPipe pipe_pos shell_buffer
    (getInstruction (shell_buffer.drop (pipe_pos + 2)) turn.instruction2 turn.arg2).map
      fun extracted => (shell_buffer, ⟨extracted.iNum, some extracted.arguments⟩)

/-- The number of instructions. -/
def countInstructions (pipe_cmd : PipeCmd) : Int :=
  if IS_BUILT_IN pipe_cmd.cmd1.instruction ∧ IS_BUILT_IN pipe_cmd.cmd2.instruction then -1
  else if IS_BUILT_IN pipe_cmd.cmd1.instruction then 0
  else (if 0 ≤ pipe_cmd.cmd2.instruction then 1 else 0) +
    (if 0 ≤ pipe_cmd.cmd1.instruction then 1 else 0)

/-- What it returns, and the commands; `none` while keys are missing, or where memory ends. -/
def bufferControl (turn : Turn) : Option (Int × PipeCmd) :=
  match turn.shell_buffer with
  | none => some (-1, ⟨⟨-1, none⟩, ⟨-1, none⟩⟩)
  | some shell_buffer =>
    (readLine turn.keys shell_buffer BUFFER_SPACE).bind fun read =>
      (rightOfPipe turn read.2).bind fun right =>
        (getInstruction right.1 turn.instruction1 turn.arg1).map fun extracted =>
          let pipe_cmd : PipeCmd := ⟨⟨extracted.iNum, some extracted.arguments⟩, right.2⟩
          (countInstructions pipe_cmd, pipe_cmd)

/-- A handler that is called, by its index. -/
inductive Call where
  | instruction (index : Int) (arguments : Option (Nat → UInt8)) (fd_in fd_out : Int)
  | builtIn (index : Int) (arguments : Option (Nat → UInt8))

def handle_piped_commands (pipe : Int) (pipe_cmd : PipeCmd) : List Call :=
  if pipe_cmd.cmd1.instruction = -1 ∨ pipe_cmd.cmd2.instruction = -1 then []
  else if IS_BUILT_IN pipe_cmd.cmd1.instruction ∨ IS_BUILT_IN pipe_cmd.cmd2.instruction then []
  else if pipe < 0 then []
  else [.instruction pipe_cmd.cmd1.instruction pipe_cmd.cmd1.arguments 0 pipe,
    .instruction pipe_cmd.cmd2.instruction pipe_cmd.cmd2.arguments pipe 1]

/-- The `switch` of `shell`: the handlers it calls, and `exit`. -/
def runInstructions (pipe instructions : Int) (pipe_cmd : PipeCmd) : List Call × Bool :=
  if instructions = 0 then
    if pipe_cmd.cmd1.instruction = -1 then ([], false)
    else if IS_BUILT_IN pipe_cmd.cmd1.instruction then
      ([.builtIn (pipe_cmd.cmd1.instruction - KILL) pipe_cmd.cmd1.arguments], false)
    else ([], false)
  else if instructions = 1 then
    if pipe_cmd.cmd1.instruction = EXIT then ([], true)
    else ([.instruction pipe_cmd.cmd1.instruction pipe_cmd.cmd1.arguments 0 1], false)
  else if instructions = 2 then (handle_piped_commands pipe pipe_cmd, false)
  else ([], false)

/-- One turn; `none` when the line never comes to an end. -/
def runTurn (turn : Turn) : Option (List Call × Bool) :=
  if turn.pipe_cmd then
    (bufferControl turn).map fun controlled => runInstructions turn.pipe controlled.1 controlled.2
  else some ([], true)

/-- The handlers that the loop of `shell` calls. -/
def shell : List Turn → List Call
  | [] => []
  | turn :: turns =>
    match runTurn turn with
    | none => []
    | some (calls, exit) => calls ++ if exit then [] else shell turns

/-! ## Handlers -/

variable {turn : Turn} {pipe : Int} {pipe_cmd : PipeCmd} {block : Option (Nat → UInt8)}
variable {arguments : Nat → UInt8} {extracted : Extracted}
variable {text line before after rest tail buffer : List UInt8}

/-- There is such a handler. -/
def Call.Exists : Call → Prop
  | .instruction index _ _ _ => 0 ≤ index ∧ index < KILL
  | .builtIn index _ => 0 ≤ index ∧ index < EXIT - KILL

/-- -1, or an index into `inst_list`. -/
def IsCode (i : Int) : Prop := -1 ≤ i ∧ i ≤ EXIT

/-- The right command is one, but the left one is none; or both are programs or `exit`, not both
programs, and the pipe opens. -/
def Misdirected (left right pipe : Int) : Prop :=
  0 ≤ right ∧ (left = -1 ∨ (¬ IS_BUILT_IN left ∧ ¬ IS_BUILT_IN right ∧
    (left = EXIT ∨ right = EXIT) ∧ 0 ≤ pipe))

theorem handle_piped_commands_exist_iff (code1 : IsCode pipe_cmd.cmd1.instruction)
    (code2 : IsCode pipe_cmd.cmd2.instruction) (both : 0 ≤ pipe_cmd.cmd1.instruction)
    (right : 0 ≤ pipe_cmd.cmd2.instruction) :
    (∀ call ∈ handle_piped_commands pipe pipe_cmd, call.Exists) ↔
      ¬ Misdirected pipe_cmd.cmd1.instruction pipe_cmd.cmd2.instruction pipe := by
  unfold handle_piped_commands Misdirected IsCode IS_BUILT_IN KILL EXIT at *
  rw [if_neg (by omega)]
  by_cases builtIn : (16 ≤ pipe_cmd.cmd1.instruction ∧ pipe_cmd.cmd1.instruction < 19) ∨
      (16 ≤ pipe_cmd.cmd2.instruction ∧ pipe_cmd.cmd2.instruction < 19)
  · rw [if_pos builtIn]
    exact iff_of_true (by simp) (by omega)
  rw [if_neg builtIn]
  by_cases closed : pipe < 0
  · rw [if_pos closed]
    exact iff_of_true (by simp) (by omega)
  · rw [if_neg closed, List.forall_mem_cons, List.forall_mem_cons]
    unfold Call.Exists KILL
    simp only [List.not_mem_nil, false_imp_iff, implies_true, and_true]
    omega

theorem runInstructions_of_builtIn (builtIn : IS_BUILT_IN pipe_cmd.cmd1.instruction) :
    ∀ call ∈ (runInstructions pipe (countInstructions pipe_cmd) pipe_cmd).1, call.Exists := by
  unfold countInstructions
  by_cases both : IS_BUILT_IN pipe_cmd.cmd2.instruction
  · rw [if_pos ⟨builtIn, both⟩]
    exact fun call member => absurd member List.not_mem_nil
  · have known : pipe_cmd.cmd1.instruction ≠ -1 := by
      unfold IS_BUILT_IN KILL at builtIn
      omega
    rw [if_neg fun two => both two.2, if_pos builtIn, runInstructions, if_pos rfl, if_neg known,
      if_pos builtIn]
    intro call member
    rw [List.mem_singleton.mp member]
    unfold IS_BUILT_IN at builtIn
    exact ⟨by omega, by omega⟩

/-- The count alone does not tell which side of the pipe was valid. -/
theorem runInstructions_of_one (code1 : IsCode pipe_cmd.cmd1.instruction)
    (other : ¬ IS_BUILT_IN pipe_cmd.cmd1.instruction) :
    (∀ call ∈ (runInstructions pipe 1 pipe_cmd).1, call.Exists) ↔
      pipe_cmd.cmd1.instruction ≠ -1 := by
  unfold IsCode IS_BUILT_IN at *
  rw [runInstructions, if_neg (by decide), if_pos rfl]
  by_cases exits : pipe_cmd.cmd1.instruction = EXIT
  · rw [if_pos exits, exits]
    exact iff_of_true (fun call member => absurd member List.not_mem_nil) (by decide)
  · rw [if_neg exits, List.forall_mem_singleton]
    unfold Call.Exists KILL EXIT at *
    dsimp only
    omega

theorem runInstructions_exist_iff (code1 : IsCode pipe_cmd.cmd1.instruction)
    (code2 : IsCode pipe_cmd.cmd2.instruction) :
    (∀ call ∈ (runInstructions pipe (countInstructions pipe_cmd) pipe_cmd).1, call.Exists) ↔
      ¬ Misdirected pipe_cmd.cmd1.instruction pipe_cmd.cmd2.instruction pipe := by
  by_cases builtIn : IS_BUILT_IN pipe_cmd.cmd1.instruction
  · refine iff_of_true (runInstructions_of_builtIn builtIn) ?_
    rintro ⟨_, unknown | programs⟩
    · rw [unknown] at builtIn
      exact absurd builtIn (by decide)
    · exact programs.1 builtIn
  rw [countInstructions, if_neg fun both => builtIn both.1, if_neg builtIn]
  by_cases right : 0 ≤ pipe_cmd.cmd2.instruction
  · rw [if_pos right]
    by_cases left : 0 ≤ pipe_cmd.cmd1.instruction
    · rw [if_pos left]
      exact handle_piped_commands_exist_iff code1 code2 left right
    · have unknown : pipe_cmd.cmd1.instruction = -1 := by
        unfold IsCode at code1
        omega
      rw [if_neg left]
      refine (runInstructions_of_one code1 builtIn).trans ?_
      exact iff_of_false (not_not_intro unknown) (not_not_intro ⟨right, .inl unknown⟩)
  · rw [if_neg right]
    refine iff_of_true ?_ fun misdirected => right misdirected.1
    by_cases left : 0 ≤ pipe_cmd.cmd1.instruction
    · rw [if_pos left]
      refine (runInstructions_of_one code1 builtIn).mpr ?_
      omega
    · have unknown : pipe_cmd.cmd1.instruction = -1 := by
        unfold IsCode at code1
        omega
      rw [if_neg left, Int.add_zero, runInstructions, if_pos rfl, if_pos unknown]
      exact fun call member => absurd member List.not_mem_nil

/-! ## Words -/

theorem command?_lt {word : List UInt8} {i : Nat} (found : command? word = some i) :
    (i : Int) ≤ EXIT := by
  obtain ⟨inside, _⟩ := List.findIdx?_eq_some_iff_getElem.mp found
  have known : inst_list.length = 20 := rfl
  unfold EXIT
  omega

/-- The command that a text begins with, if there is a block to copy it to. -/
def commandOf (block : Option (Nat → UInt8)) (text : List UInt8) : Option Nat :=
  block.bind fun _ => command? (text.takeWhile InWord)

theorem commandOf_isCode : IsCode (code (commandOf block text)) := by
  cases found : commandOf block text with
  | none => exact ⟨by decide, by decide⟩
  | some i =>
    obtain ⟨_, _, known⟩ := Option.bind_eq_some_iff.mp found
    have last := command?_lt known
    unfold IsCode code
    dsimp only
    omega

/-- Behind the first word and its delimiter, something ends the arguments. -/
def Readable (text : List UInt8) : Prop :=
  ∃ c ∈ text.drop ((text.takeWhile InWord).length + 1), EndsArguments c

theorem takeWhile_inWord (text : List UInt8) : ∀ c ∈ text.takeWhile InWord, InWord c :=
  fun c member => by simpa using List.mem_takeWhile_imp member

theorem exists_word (text : List UInt8) : ∃ tail, text = text.takeWhile InWord ++ tail ∧
    (tail = [] ∨ ∃ c rest, tail = c :: rest ∧ (c = space ∨ c = 0)) := by
  refine ⟨text.dropWhile InWord, List.takeWhile_append_dropWhile.symm, ?_⟩
  have stops := List.head?_dropWhile_not (fun c => decide (InWord c)) text
  cases after : text.dropWhile InWord with
  | nil => exact .inl rfl
  | cons c rest =>
    refine .inr ⟨c, rest, rfl, ?_⟩
    rw [after] at stops
    have outside : ¬ InWord c := by simpa using stops
    unfold InWord at outside
    tauto

/-- The code that `getInstruction` returns depends on the first word only. -/
theorem getInstruction_iNum (done : getInstruction text block arguments = some extracted) :
    extracted.iNum = code (commandOf block text) := by
  cases block with
  | none =>
    cases Option.some.inj done
    rfl
  | some s =>
    obtain ⟨tail, split, ends⟩ := exists_word text
    have clean := takeWhile_inWord text
    have nonzero : 0 ∉ text.takeWhile InWord := fun zero => (clean 0 zero).2 rfl
    change extracted.iNum = code (command? (text.takeWhile InWord))
    generalize text.takeWhile InWord = word at *
    subst split
    by_cases short : word.length < BUFFER_SPACE
    · rcases ends with rfl | ⟨c, rest, rfl, stops⟩
      · rw [List.append_nil, getInstruction] at done
        rw [copyInstruction_ends clean short] at done
        cases done
      · obtain ⟨instruction, _, extraction⟩ :=
          getInstruction_word (s := s) arguments rest clean stops short
        obtain ⟨copied, _, rfl⟩ := Option.map_eq_some_iff.mp (extraction.symm.trans done)
        rfl
    · have long : BUFFER_SPACE ≤ word.length := Nat.le_of_not_lt short
      obtain ⟨rest', s', copied, begins⟩ :=
        copyInstruction_long tail (begins_nil (s := s)) clean long
      rw [List.length_nil] at copied
      rw [getInstruction, copied, Option.bind_some] at done
      obtain ⟨arguments', _, rfl⟩ := Option.map_eq_some_iff.mp done
      rw [command?_of_long long]
      refine verifyInstruction_of_long begins ?_ ?_
      · exact fun zero => nonzero (List.mem_of_mem_take zero)
      · rw [List.nil_append, List.length_take, Nat.min_eq_left long]

theorem getInstruction_isCode (done : getInstruction text block arguments = some extracted) :
    IsCode extracted.iNum := by
  rw [getInstruction_iNum done]
  exact commandOf_isCode

/-- A short first word is extracted just when the arguments come to an end. -/
theorem getInstruction_returns_iff {s : Nat → UInt8}
    (short : (text.takeWhile InWord).length < BUFFER_SPACE) :
    (∃ extracted, getInstruction text (some s) arguments = some extracted) ↔ Readable text := by
  obtain ⟨tail, split, ends⟩ := exists_word text
  have clean := takeWhile_inWord text
  unfold Readable
  generalize text.takeWhile InWord = word at *
  subst split
  rcases ends with rfl | ⟨c, rest, rfl, stops⟩
  · rw [List.append_nil, getInstruction, copyInstruction_ends clean short,
      List.drop_of_length_le (Nat.le_succ _)]
    constructor
    · rintro ⟨_, done⟩
      cases done
    · rintro ⟨_, member, _⟩
      cases member
  · obtain ⟨instruction, _, extraction⟩ :=
      getInstruction_word (s := s) arguments rest clean stops short
    rw [extraction, ← List.drop_drop, List.drop_left, List.drop_one, List.tail_cons,
      ← copyArguments_returns_iff 0 arguments]
    constructor
    · rintro ⟨_, done⟩
      obtain ⟨copied, returned, _⟩ := Option.map_eq_some_iff.mp done
      exact ⟨copied, returned⟩
    · rintro ⟨copied, returned⟩
      exact ⟨_, Option.map_eq_some_iff.mpr ⟨copied, returned, rfl⟩⟩

/-! ## The pipe -/

/-- The search passes what is neither the end nor the pipe. -/
theorem strstr_append (nonzero : 0 ∉ before) (clean : bar ∉ before) :
    strstr bar (before ++ tail) = (strstr bar tail).map (· + before.length) := by
  induction before with
  | nil => simp
  | cons c before ih =>
    obtain ⟨here, later⟩ := not_or.mp (List.mem_cons.not.mp nonzero)
    obtain ⟨here', later'⟩ := not_or.mp (List.mem_cons.not.mp clean)
    rw [List.cons_append, strstr, if_neg (Ne.symm here), if_neg (Ne.symm here'), ih later later',
      Option.map_map, List.length_cons]
    rfl

theorem strstr_of_clean (nonzero : 0 ∉ line) (clean : bar ∉ line) :
    strstr bar (line ++ 0 :: rest) = none := by
  rw [strstr_append nonzero clean]
  rfl

theorem strstr_of_bar (nonzero : 0 ∉ before) (clean : bar ∉ before) :
    strstr bar (before ++ bar :: tail) = some before.length := by
  rw [strstr_append nonzero clean]
  exact congrArg some (Nat.zero_add _)

/-- One character goes on both sides of the pipe. -/
theorem cutPipe_spec (before : List UInt8) (full : tail ≠ []) :
    (∃ more, cutPipe before.length (before ++ bar :: tail) = before.dropLast ++ 0 :: 0 :: more) ∧
    (cutPipe before.length (before ++ bar :: tail)).drop (before.length + 2) = tail.drop 1 := by
  obtain ⟨c, tail, rfl⟩ := List.exists_cons_of_ne_nil full
  cases before using List.reverseRecOn with
  | nil => exact ⟨⟨tail, rfl⟩, rfl⟩
  | append_singleton before b =>
    have cut : cutPipe (before ++ [b]).length (before ++ [b] ++ bar :: c :: tail) =
        before ++ 0 :: 0 :: 0 :: tail := by
      unfold cutPipe
      rw [List.length_append, List.length_singleton, if_neg (Nat.succ_ne_zero _)]
      simp [Nat.add_assoc]
    rw [cut, List.dropLast_concat, List.length_append, List.length_singleton]
    refine ⟨⟨0 :: tail, rfl⟩, ?_⟩
    rw [show before.length + 1 + 2 = before.length + 3 by omega, ← List.drop_drop, List.drop_left]
    rfl

theorem takeWhile_before_zero {more : List UInt8} :
    (text ++ 0 :: more).takeWhile InWord = text.takeWhile InWord := by
  induction text with
  | nil => rfl
  | cons c text ih =>
    rw [List.cons_append]
    by_cases inside : InWord c
    · rw [List.takeWhile_cons_of_pos (by simpa using inside),
        List.takeWhile_cons_of_pos (by simpa using inside), ih]
    · rw [List.takeWhile_cons_of_neg (by simpa using inside),
        List.takeWhile_cons_of_neg (by simpa using inside)]

/-- The text left of the pipe comes to an end, whatever is in it. -/
theorem getInstruction_left_returns (block : Option (Nat → UInt8)) (arguments : Nat → UInt8)
    (more : List UInt8) (short : text.length < BUFFER_SPACE) :
    ∃ extracted, getInstruction (text ++ 0 :: 0 :: more) block arguments = some extracted := by
  cases block with
  | none => exact ⟨_, rfl⟩
  | some s =>
    have inside := (List.takeWhile_sublist (p := fun c => InWord c) (l := text)).length_le
    refine (getInstruction_returns_iff ?_).mpr ?_
    · rw [takeWhile_before_zero]
      omega
    · unfold Readable
      rw [takeWhile_before_zero]
      refine ⟨0, ?_, .inl rfl⟩
      rw [show text ++ 0 :: 0 :: more = (text ++ [0]) ++ 0 :: more by simp,
        List.drop_append_of_le_length (by simp; omega)]
      exact List.mem_append_right _ (List.mem_cons_self ..)

/-! ## Lines -/

/-- The line, and the memory behind its terminator. -/
def Turn.Reads (turn : Turn) (line rest : List UInt8) : Prop :=
  turn.pipe_cmd = true ∧ 0 ∉ line ∧ ∃ buffer, turn.shell_buffer = some buffer ∧
    readLine turn.keys buffer BUFFER_SPACE = some (line.length, line ++ 0 :: rest)

/-- The text right of the pipe begins two characters behind it, maybe behind the line. -/
def rightText (after rest : List UInt8) : List UInt8 := (after ++ 0 :: rest).drop 1

/-- A line with a pipe whose two commands misdirect the shell. The left text is cut by one
character. -/
def Turn.Stray (turn : Turn) : Prop :=
  ∃ before after rest, turn.Reads (before ++ bar :: after) rest ∧ bar ∉ before ∧
    Readable (rightText after rest) ∧
    Misdirected (code (commandOf turn.instruction1 before.dropLast))
      (code (commandOf turn.instruction2 (rightText after rest))) turn.pipe

theorem Turn.Reads.bufferControl (reads : turn.Reads line rest) :
    bufferControl turn = (rightOfPipe turn (line ++ 0 :: rest)).bind fun right =>
      (getInstruction right.1 turn.instruction1 turn.arg1).map fun extracted =>
        (countInstructions ⟨⟨extracted.iNum, some extracted.arguments⟩, right.2⟩,
          ⟨⟨extracted.iNum, some extracted.arguments⟩, right.2⟩) := by
  obtain ⟨_, _, buffer, given, read⟩ := reads
  unfold Shell.bufferControl
  rw [given]
  dsimp only
  rw [read, Option.bind_some]

theorem Turn.Reads.short (reads : turn.Reads line rest) : line.length < BUFFER_SPACE := by
  obtain ⟨_, _, buffer, _, read⟩ := reads
  obtain ⟨blank, same, _⟩ := readLine_spec read
  have length : line.length = (seen turn.keys).line.length := congrArg Prod.fst same
  rw [length]
  exact seen_short _

theorem seen_clean (keys : List UInt8) : 0 ∉ (seen keys).line :=
  fun zero => (seen_erased_typed keys 0 (List.mem_append_left _ zero)).1 rfl

/-- A turn that comes to an end has read a line, unless a block was refused. -/
theorem runTurn_reads {result : List Call × Bool} (done : runTurn turn = some result) :
    result.1 = [] ∨ ∃ line rest, turn.Reads line rest ∧ ∃ controlled,
      bufferControl turn = some controlled ∧
        result = runInstructions turn.pipe controlled.1 controlled.2 := by
  unfold runTurn at done
  by_cases given : turn.pipe_cmd
  · rw [if_pos given] at done
    obtain ⟨controlled, control, rfl⟩ := Option.map_eq_some_iff.mp done
    have whole := control
    unfold bufferControl at control
    cases buffer : turn.shell_buffer with
    | none =>
      rw [buffer] at control
      obtain rfl := Option.some.inj control
      exact .inl rfl
    | some shell_buffer =>
      rw [buffer] at control
      obtain ⟨read, returns, _⟩ := Option.bind_eq_some_iff.mp control
      obtain ⟨blank, rfl, _⟩ := readLine_spec returns
      have reads : turn.Reads _ _ := ⟨given, seen_clean _, shell_buffer, buffer, returns⟩
      exact .inr ⟨_, _, reads, controlled, whole, rfl⟩
  · rw [if_neg given] at done
    obtain rfl := Option.some.inj done
    exact .inl rfl

/-- Without a pipe there is no right command. -/
theorem Turn.Reads.without_bar {controlled : Int × PipeCmd} (reads : turn.Reads line rest)
    (clean : bar ∉ line) (control : Shell.bufferControl turn = some controlled) :
    controlled.1 = countInstructions controlled.2 ∧
      IsCode controlled.2.cmd1.instruction ∧ controlled.2.cmd2.instruction = -1 := by
  rw [reads.bufferControl, rightOfPipe, strstr_of_clean reads.2.1 clean,
    Option.bind_some] at control
  obtain ⟨extracted, done, rfl⟩ := Option.map_eq_some_iff.mp control
  exact ⟨rfl, getInstruction_isCode done, rfl⟩

/-- A line without a pipe that is read as edited: the left command is the one it shows. -/
theorem bufferControl_edited {keys more buff : List UInt8} {s : Nat → UInt8}
    (keyed : turn.keys = keys ++ newline :: more) (given : turn.shell_buffer = some buff)
    (room : turn.instruction1 = some s) (plain : Typed keys) (clean : bar ∉ lineRead keys)
    (short : (edited backspace keys).length < BUFFER_SPACE)
    (asEdited : ReadAsEdited keys (buff.drop BUFFER_SPACE)) : ∃ arguments,
      (bufferControl turn).map Prod.snd =
        some ⟨⟨code (command? (splitLine (edited backspace keys)).1), some arguments⟩, -1, none⟩ ∧
      Spells arguments (splitLine (edited backspace keys)).2 := by
  obtain ⟨extracted, done, command, spells⟩ :=
    runs_edited_line more s turn.arg1 plain short asEdited
  obtain ⟨read, returns, extraction⟩ := Option.bind_eq_some_iff.mp done
  obtain ⟨blank, rfl, _⟩ := readLine_spec returns
  rw [seen_typed more plain] at returns extraction
  have nonzero : 0 ∉ lineRead keys := fun zero => ((lineRead_typed plain).1 0 zero).1 rfl
  refine ⟨extracted.arguments, ?_, spells⟩
  unfold bufferControl
  rw [given, keyed, room]
  dsimp only
  rw [returns, Option.bind_some, rightOfPipe, strstr_of_clean nonzero clean]
  dsimp only
  rw [Option.bind_some, extraction, Option.map_some, Option.map_some, command]

/-- With a pipe the commands are those of the two texts, once the right one comes to an end. -/
theorem Turn.Reads.with_bar (reads : turn.Reads (before ++ bar :: after) rest)
    (clean : bar ∉ before) : ∃ left,
      left.instruction = code (commandOf turn.instruction1 before.dropLast) ∧
      Shell.bufferControl turn =
        (getInstruction (rightText after rest) turn.instruction2 turn.arg2).map fun extracted =>
          let pipe_cmd : PipeCmd := ⟨left, extracted.iNum, some extracted.arguments⟩
          (countInstructions pipe_cmd, pipe_cmd) := by
  have short := reads.short
  rw [List.length_append] at short
  have nonzero : 0 ∉ before := fun zero => reads.2.1 (List.mem_append_left _ zero)
  have whole : before ++ bar :: after ++ 0 :: rest =
      before ++ bar :: (after ++ 0 :: rest) := by simp
  have full : after ++ 0 :: rest ≠ [] := by simp
  obtain ⟨⟨more, left⟩, right⟩ := cutPipe_spec before full
  have inside : before.dropLast.length < BUFFER_SPACE := by
    rw [List.length_dropLast]
    omega
  obtain ⟨extracted, done⟩ :=
    getInstruction_left_returns turn.instruction1 turn.arg1 more inside
  refine ⟨⟨extracted.iNum, some extracted.arguments⟩, ?_, ?_⟩
  · rw [getInstruction_iNum done, commandOf, takeWhile_before_zero]
    rfl
  · rw [reads.bufferControl, whole, rightOfPipe, strstr_of_bar nonzero clean]
    dsimp only
    rw [right, left]
    unfold rightText
    cases getInstruction (List.drop 1 (after ++ 0 :: rest)) turn.instruction2 turn.arg2 with
    | none => rfl
    | some second => rw [Option.map_some, Option.bind_some, done]; rfl

/-- A command on the right has a short name. -/
theorem short_of_command (known : commandOf block text ≠ none) :
    (text.takeWhile InWord).length < BUFFER_SPACE := by
  by_contra long
  unfold commandOf at known
  rw [command?_of_long (Nat.le_of_not_lt long)] at known
  exact known (by cases block <;> rfl)

theorem Misdirected.known {left : Int} {found : Option Nat}
    (misdirected : Misdirected left (code found) pipe) : found ≠ none := by
  rintro rfl
  exact absurd misdirected.1 (by decide)

/-- What is read right of the pipe tells whether it could be read. -/
theorem right_returns_iff (arguments : Nat → UInt8) (known : commandOf block text ≠ none) :
    (∃ extracted, getInstruction text block arguments = some extracted) ↔ Readable text := by
  cases block with
  | none => exact absurd rfl known
  | some s => exact getInstruction_returns_iff (short_of_command known)

theorem Turn.Stray.calls (stray : turn.Stray) :
    ∃ result, runTurn turn = some result ∧ ∃ call ∈ result.1, ¬ call.Exists := by
  obtain ⟨before, after, rest, reads, clean, readable, misdirected⟩ := stray
  obtain ⟨left, code1, control⟩ := reads.with_bar clean
  obtain ⟨extracted, done⟩ :=
    (right_returns_iff turn.arg2 misdirected.known).mpr readable
  rw [done, Option.map_some] at control
  refine ⟨_, by rw [runTurn, if_pos reads.1, control, Option.map_some], ?_⟩
  by_contra all
  have isCode : IsCode left.instruction := code1 ▸ commandOf_isCode
  refine (runInstructions_exist_iff isCode (getInstruction_isCode done)).mp
    (fun call member => by_contra fun missing => all ⟨call, member, missing⟩) ?_
  dsimp only
  rwa [code1, getInstruction_iNum done]

theorem stray_of_calls {result : List Call × Bool} {call : Call} (done : runTurn turn = some result)
    (member : call ∈ result.1) (missing : ¬ call.Exists) : turn.Stray := by
  rcases runTurn_reads done with empty | ⟨line, rest, reads, controlled, control, rfl⟩
  · rw [empty] at member
    cases member
  by_cases piped : bar ∈ line
  · obtain ⟨before, after, rfl, clean⟩ := List.eq_append_cons_of_mem piped
    obtain ⟨left, code1, whole⟩ := reads.with_bar clean
    rw [whole] at control
    obtain ⟨extracted, returned, rfl⟩ := Option.map_eq_some_iff.mp control
    have isCode : IsCode left.instruction := code1 ▸ commandOf_isCode
    have misdirected : Misdirected left.instruction extracted.iNum turn.pipe := by
      by_contra directed
      exact missing ((runInstructions_exist_iff isCode (getInstruction_isCode returned)).mpr
        directed call member)
    rw [code1, getInstruction_iNum returned] at misdirected
    have readable := (right_returns_iff turn.arg2 misdirected.known).mp ⟨extracted, returned⟩
    exact ⟨before, after, rest, reads, clean, readable, misdirected⟩
  · obtain ⟨count, code1, none⟩ := reads.without_bar piped control
    rw [count] at member
    refine absurd ((runInstructions_exist_iff code1 ?_).mpr ?_ call member) missing
    · rw [none]
      exact ⟨by decide, by decide⟩
    · rintro ⟨positive, _⟩
      rw [none] at positive
      exact absurd positive (by decide)

/-! ## The loop -/

theorem shell_one : shell [turn] = ((runTurn turn).map Prod.fst).getD [] := by
  unfold shell
  cases runTurn turn with
  | none => rfl
  | some result => simp [shell]

/-- A line makes the shell call existing handlers only, just when it is not stray. -/
theorem handlers_exist_iff (turn : Turn) :
    (∀ call ∈ shell [turn], call.Exists) ↔ ¬ turn.Stray := by
  rw [shell_one]
  constructor
  · intro all stray
    obtain ⟨result, done, call, member, missing⟩ := stray.calls
    rw [done] at all
    exact missing (all call member)
  · intro straight call member
    by_contra missing
    cases done : runTurn turn with
    | none =>
      rw [done] at member
      cases member
    | some result =>
      rw [done] at member
      exact straight (stray_of_calls done member missing)

def unknownLeft : Turn where
  keys := ascii "foo | help" ++ [newline]
  pipe_cmd := true
  shell_buffer := some []
  instruction1 := some fun _ => 0
  instruction2 := some fun _ => 0
  arg1 := fun _ => 0
  arg2 := fun _ => 0
  pipe := 3

def Call.index : Call → Int
  | .instruction index _ _ _ => index
  | .builtIn index _ => index

theorem Call.Exists.nonneg {call : Call} (exist : call.Exists) : 0 ≤ call.index := by
  cases call with
  | instruction index arguments fd_in fd_out => exact exist.1
  | builtIn index arguments => exact exist.1

/-- "foo | help": the one valid instruction is the right one, and the left one is the index. -/
theorem unknown_left_called : ¬ ∀ turn, ∀ call ∈ shell [turn], call.Exists := by
  intro claim
  have called : (shell [unknownLeft]).map Call.index = [-1] := by decide
  obtain ⟨call, member, index⟩ : ∃ call ∈ shell [unknownLeft], call.index = -1 := by
    refine List.mem_map.mp ?_
    rw [called]
    exact List.mem_singleton.mpr rfl
  have positive := (claim unknownLeft call member).nonneg
  rw [index] at positive
  exact absurd positive (by decide)

/-- A session of lines that are not stray. -/
theorem session_handlers_exist {turns : List Turn} (straight : ∀ turn ∈ turns, ¬ turn.Stray) :
    ∀ call ∈ shell turns, call.Exists := by
  induction turns with
  | nil => exact fun call member => absurd member List.not_mem_nil
  | cons turn turns ih =>
    intro call member
    unfold shell at member
    cases done : runTurn turn with
    | none =>
      rw [done] at member
      cases member
    | some result =>
      rw [done] at member
      rcases List.mem_append.mp member with here | later
      · by_contra missing
        exact straight turn (List.mem_cons_self ..) (stray_of_calls done here missing)
      · split at later
        · cases later
        · exact ih (fun turn member => straight turn (List.mem_cons_of_mem _ member)) call later

end SoKernel.Shell
