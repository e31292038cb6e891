import SoKernel.Kernel.CharTerminal
import SoKernel.Kernel.Descriptors
import SoKernel.Lib.Roll
import SoKernel.Userland.PrintfMemory

namespace SoKernel.Console
open Lib VideoDriver TextModule ScreenMemory CharTerminal Descriptors Printf

/-! ## From `printf` to the screen -/

/-- A call of `printf` or `printferror` by a process with these descriptors. -/
structure Print where
  program : Printf.Program
  fd : UInt64
  format : Nat
  args : Nat → UInt64
  stdin : Int
  stdout : Int

/-- What was asked of the kernel, and the calls of the text module that came of it. -/
structure Asked where
  session : Session
  calls : List TextModule.Call

/-- A `syscall_write` goes through without an interrupt. -/
def Print.run (env : Environment) (depth : Nat) (print : Print) (asked : Asked) :
    Option Asked :=
  (format_printf env print.program depth print.fd print.format print.args asked.session).map
    fun (_, session) =>
      let texts := session.written.drop asked.session.written.length
      ⟨session, asked.calls ++ texts.flatMap fun (fd, text) =>
        Descriptors.written fd print.stdin print.stdout text⟩

def runAll (env : Environment) (depth : Nat) (prints : List Print) (asked : Asked) :
    Option Asked :=
  prints.foldlM (fun asked print => print.run env depth asked) asked

/-! ## What is to be read -/

/-- A print, with the strings in memory, its format and the color that its descriptor has. -/
structure Message extends Print where
  strings : UInt64 → List UInt8
  text : List UInt8
  color : UInt32

namespace Message

/-- What goes to the screen. -/
def bytes (message : Message) : List UInt8 :=
  shown (rendering message.strings message.args message.text 0)

def glyphs (message : Message) : List Glyph :=
  message.bytes.map fun c => ⟨c, message.color⟩

/-- Its format can be read, its text stays inside `printf`'s array, it goes to the screen, and it
moves the cursor with newlines only. -/
structure Readable (message : Message) : Prop where
  legible : Legible message.program message.strings message.format message.args message.text
  short : (rendering message.strings message.args message.text 0).length ≤ MAX_LENGTH
  screen : writeTarget message.fd message.stdin message.stdout = .screen message.color
  simple : ∀ c ∈ message.bytes, c ≠ backspace ∧ c ≠ tab

end Message

def type (columns : Nat) (roll : Roll Glyph) (glyph : Glyph) : Roll Glyph :=
  if glyph.char = newline then roll.newline else roll.put columns glyph

def typed (columns : Nat) (glyphs : List Glyph) : Roll Glyph :=
  glyphs.foldl (type columns) .blank

/-- The calls of `putChar` for some characters. -/
def putAll (glyphs : List Glyph) : List TextModule.Call :=
  glyphs.map fun glyph => .putChar glyph.char glyph.color

theorem putAll_append (glyphs more : List Glyph) :
    putAll (glyphs ++ more) = putAll glyphs ++ putAll more := List.map_append

section
variable {rows columns : Nat} {roll : Roll Glyph} {glyph : Glyph} {glyphs : List Glyph}

theorem type_flatten : (type columns roll glyph).lines.flatten =
    roll.lines.flatten ++ if glyph.char = newline then [] else [glyph] := by
  unfold type
  split
  · rw [Roll.newline_flatten, List.append_nil]
  · exact Roll.put_flatten

/-- The lines are the text without its newlines. -/
theorem typed_flatten :
    (typed columns glyphs).lines.flatten = glyphs.filter fun glyph => glyph.char ≠ newline := by
  unfold typed
  induction glyphs using List.reverseRecOn with
  | nil => rfl
  | append_singleton glyphs glyph ih =>
    rw [List.foldl_append, List.foldl_cons, List.foldl_nil, type_flatten, ih, List.filter_append]
    congr 1
    by_cases ended : glyph.char = newline
    · simp [ended]
    · simp [ended]

/-- A character that is no command to the cursor is typed. -/
theorem step_type (some : 0 < rows) (simple : glyph.char ≠ backspace ∧ glyph.char ≠ tab) :
    step rows columns (roll.shown rows) (.putChar glyph.char glyph.color) =
      (type columns roll glyph).shown rows := by
  obtain ⟨erases, tabbed⟩ := simple
  unfold step type
  dsimp only
  by_cases ended : glyph.char = newline
  · rw [if_pos ended, if_pos ended]
    exact Roll.shown_newline
  · rw [if_neg ended, if_neg (fun both => erases both.2), if_neg (fun both => tabbed both.2),
      if_neg ended]
    exact Roll.shown_put some

/-- The calls for a text lead from roll to roll. -/
theorem steps_typed (some : 0 < rows)
    (simple : ∀ glyph ∈ glyphs, glyph.char ≠ backspace ∧ glyph.char ≠ tab) :
    (putAll glyphs).foldl (step rows columns) .clear = (typed columns glyphs).shown rows := by
  unfold typed
  induction glyphs using List.reverseRecOn with
  | nil => exact Roll.shown_blank.symm
  | append_singleton glyphs glyph ih =>
    rw [putAll_append, List.foldl_append, List.foldl_append,
      ih fun other member => simple other (List.mem_append_left _ member)]
    exact step_type some (simple glyph (by simp))

end

/-! ## One print, and all of them -/

variable {env : Environment} {message : Message} {messages : List Message}

theorem written_glyphs (readable : message.Readable) :
    Descriptors.written message.fd message.stdin message.stdout
      (rendering message.strings message.args message.text 0) = putAll message.glyphs := by
  unfold Descriptors.written
  rw [readable.screen]
  unfold putAll Message.glyphs Message.bytes
  dsimp only
  rw [List.map_map]
  rfl

theorem run_message (depth : Nat) (asked : Asked) (readable : message.Readable)
    (granted : env.allocated asked.session.requests ≠ 0) : ∃ session,
    message.toPrint.run env (depth + 1) asked =
      some ⟨session, asked.calls ++ putAll message.glyphs⟩ := by
  unfold Print.run
  rw [format_printf_granted readable.legible granted, Option.map_some]
  dsimp only
  rw [List.drop_left, List.flatMap_singleton, written_glyphs readable]
  exact ⟨_, rfl⟩

theorem runAll_messages (depth : Nat) (asked : Asked)
    (readable : ∀ message ∈ messages, message.Readable)
    (granted : ∀ n, env.allocated n ≠ 0) : ∃ session,
    runAll env (depth + 1) (messages.map Message.toPrint) asked =
      some ⟨session, asked.calls ++ putAll (messages.flatMap Message.glyphs)⟩ := by
  induction messages generalizing asked with
  | nil => exact ⟨asked.session, by simp [runAll, putAll]⟩
  | cons message messages ih =>
    obtain ⟨session, ran⟩ := run_message depth asked (readable message List.mem_cons_self)
      (granted asked.session.requests)
    obtain ⟨last, rest⟩ := ih ⟨session, asked.calls ++ putAll message.glyphs⟩
      fun other member => readable other (List.mem_cons_of_mem message member)
    refine ⟨last, ?_⟩
    unfold runAll at rest ⊢
    rw [List.map_cons, List.foldlM_cons, ran]
    refine Eq.trans rest ?_
    rw [List.flatMap_cons, putAll_append, List.append_assoc]

theorem Message.Readable.glyphs (readable : message.Readable) :
    ∀ glyph ∈ message.glyphs, glyph.char ≠ backspace ∧ glyph.char ≠ tab := by
  intro glyph member
  obtain ⟨c, inside, rfl⟩ := List.mem_map.mp member
  exact readable.simple c inside

variable {mode : VBEModeInfo} {font : UInt8 → UInt64 → UInt8} {size : Nat}

/-- After a clear, the screen shows the last lines of what all the processes have printed, one
print after the other. The font size is one whose cells tile the width of the screen: a screen of
1024 columns has none of size 3 or 5. -/
theorem console_shows (depth : Nat) (fitting : Fitting mode size) (m : Bytes)
    (before : List TextModule.Call)
    (fontSize : (after (screenOf mode font) before).fontSize.toNat = size)
    (granted : ∀ n, env.allocated n ≠ 0) (session : Session)
    (readable : ∀ message ∈ messages, message.Readable) : ∃ asked,
    runAll env (depth + 1) (messages.map Message.toPrint) ⟨session, []⟩ = some asked ∧
    Shows mode font size
      ((typed (columns mode size) (messages.flatMap Message.glyphs)).shown (rows mode size))
      (after (screenOf mode font) (before ++ .clearText 0 :: asked.calls))
      (render mode (after (screenOf mode font) (before ++ .clearText 0 :: asked.calls)).drawn m) ∧
    (typed (columns mode size) (messages.flatMap Message.glyphs)).lines.flatten =
      (messages.flatMap Message.glyphs).filter fun glyph => glyph.char ≠ newline := by
  obtain ⟨last, ran⟩ := runAll_messages depth ⟨session, []⟩ readable granted
  refine ⟨_, ran, ?_, typed_flatten⟩
  rw [List.nil_append, ← steps_typed fitting.rows_pos ?_]
  · have shows := (after_cleared fitting m before fontSize).run
      (putAll (messages.flatMap Message.glyphs)) fitting ?_
    · rw [List.append_assoc] at shows
      exact shows
    · intro call member
      obtain ⟨glyph, _, rfl⟩ := List.mem_map.mp member
      trivial
  · intro glyph member
    obtain ⟨message, inside, here⟩ := List.mem_flatMap.mp member
    exact (readable message inside).glyphs glyph here

/-- A process prints a number, and another one, whose output goes to a pipe, an error. -/
def twoMessages : List Message :=
  [{ program := programWith (bytesOf "a%d\n"), fd := 1, format := 0, args := fun _ => 42
     stdin := 0, stdout := 1, strings := fun _ => [], text := bytesOf "a%d\n", color := white },
   { program := programWith (bytesOf "no"), fd := 2, format := 0, args := fun _ => 0
     stdin := 3, stdout := 3, strings := fun _ => [], text := bytesOf "no", color := red }]

theorem twoMessages_shown : ∃ asked,
    runAll ⟨fun _ => 4096, fun _ _ => 3⟩ 1 (twoMessages.map Message.toPrint)
      ⟨⟨0, [], []⟩, []⟩ = some asked ∧
    Shows defaultMode (fun _ _ => 0x18) 2
      ((typed (columns defaultMode 2) (twoMessages.flatMap Message.glyphs)).shown
        (rows defaultMode 2))
      (after (screenOf defaultMode fun _ _ => 0x18) ([] ++ .clearText 0 :: asked.calls))
      (render defaultMode (after (screenOf defaultMode fun _ _ => 0x18)
        ([] ++ .clearText 0 :: asked.calls)).drawn fun _ => 7) ∧
    (typed (columns defaultMode 2) (twoMessages.flatMap Message.glyphs)).lines.flatten =
      (twoMessages.flatMap Message.glyphs).filter fun glyph => glyph.char ≠ newline := by
  refine console_shows 0 ⟨defaultMode_usable, by decide, by decide, by decide, by decide,
    by decide⟩ _ [] (by decide) (fun _ => (by decide : (4096 : UInt64) ≠ 0)) _ ?_
  intro message member
  simp only [twoMessages, List.mem_cons, List.not_mem_nil, or_false] at member
  rcases member with rfl | rfl
  · exact ⟨programWith_legible (by decide) (by decide), by decide +kernel, by decide,
      by decide +kernel⟩
  · exact ⟨programWith_legible (by decide) (by decide), by decide +kernel, by decide,
      by decide +kernel⟩

end SoKernel.Console
