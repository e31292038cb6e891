import SoKernel.Userland.PrintfRendering

namespace SoKernel.Printf
open Lib Numerals

/-! ## `malloc`, `free` and `format_printf` -/

def STDERR : UInt64 := 2

/-- The kernel, as the process sees it: the address that each request for memory gets (the
other processes allocate and free in between), and what `syscall_write` returns. -/
structure Environment where
  allocated : Nat → UInt64
  accepted : UInt64 → List UInt8 → UInt64

/-- The number of requests made, the texts written with their descriptors, what was freed. -/
structure Session where
  requests : Nat
  written : List (UInt64 × List UInt8)
  freed : List UInt64

/-- The program: its memory, what its arrays held before, and its error message. -/
structure Program where
  memory : Nat → UInt8
  array : Buffer UInt8
  heap : Nat → UInt8
  errorFormat : Nat
  rounds : Nat
  steps : Nat

/-- `report` prints that there was no memory of this size. -/
def malloc (env : Environment) (report : UInt64 → Session → Option (UInt64 × Session))
    (size : UInt64) (s : Session) : Option (UInt64 × Session) :=
  if size = 0 then some (0, s)
  else
    let ptr := env.allocated s.requests
    let s := { s with requests := s.requests + 1 }
    if ptr = 0 then (report size s).map fun (_, s) => (ptr, s) else some (ptr, s)

def free (ptr : UInt64) (s : Session) : Session :=
  if ptr = 0 then s else { s with freed := s.freed ++ [ptr] }

/-- The array of `MAX_LENGTH` characters after its first loop. -/
def zeroed (heap : Nat → UInt8) : Buffer UInt8 :=
  ⟨fun i => if i < MAX_LENGTH then 0 else heap i, []⟩

/-- `none` where more than `depth` calls are open at once. -/
def format_printf (env : Environment) (program : Program) :
    Nat → UInt64 → Nat → (Nat → UInt64) → Session → Option (UInt64 × Session)
  | 0, _, _, _, _ => none
  | depth + 1, fd, format, args, s =>
    let report := fun size s =>
      format_printf env program depth STDERR program.errorFormat (fun _ => size) s
    (malloc env report (UInt64.ofNat MAX_LENGTH) s).bind fun (output, s) =>
      if output = 0 then some (0, s)
      else
        (formatLoop program.memory args program.array program.rounds format program.steps 0
          ⟨0, 0, zeroed program.heap⟩).map fun printed =>
            let text := printed.output.slice 0 printed.k
            (env.accepted fd text, free output { s with written := s.written ++ [(fd, text)] })

/-! ## What is printed -/

variable {env : Environment} {program : Program} {strings : UInt64 → List UInt8}
variable {fd : UInt64} {format depth : Nat} {args : Nat → UInt64} {text : List UInt8} {s : Session}

/-- The format and its strings stand in memory, and the loops have enough rounds. -/
structure Legible (program : Program) (strings : UInt64 → List UInt8) (format : Nat)
    (args : Nat → UInt64) (text : List UInt8) : Prop where
  stands : Stands program.memory format text
  longer : text.length < program.steps
  enough : MAX_INT_LENGTH < program.rounds
  readable : Readable program.memory strings program.rounds (pointers args text 0)

theorem formatted (legible : Legible program strings format args text) : ∃ last after,
    formatLoop program.memory args program.array program.rounds format program.steps 0
        ⟨0, 0, zeroed program.heap⟩ =
      some ⟨last, (rendering strings args text 0).length, after⟩ ∧
    Buffer.Appends 0 (rendering strings args text 0) (zeroed program.heap) after := by
  obtain ⟨last, after, looped, appends⟩ := formatLoop_appends program.array
    (zeroed program.heap) 0 legible.enough
    (show Stands program.memory (format + 0) text from legible.stands) legible.longer
    legible.readable
  rw [Nat.zero_add] at looped
  exact ⟨last, after, looped, appends⟩

theorem slice_of_appends {after before : Buffer UInt8}
    (appends : Buffer.Appends 0 text before after) :
    after.slice 0 text.length = text := by
  apply List.ext_getElem
  · simp [Buffer.slice]
  · intro j _ inside
    simp only [Buffer.slice, List.getElem_map, List.getElem_range]
    exact appends.holds j inside

/-- With memory at the first request, the text of the format is written, and the array freed. -/
theorem format_printf_granted (legible : Legible program strings format args text)
    (granted : env.allocated s.requests ≠ 0) :
    format_printf env program (depth + 1) fd format args s =
      some (env.accepted fd (rendering strings args text 0),
        ⟨s.requests + 1, s.written ++ [(fd, rendering strings args text 0)],
          s.freed ++ [env.allocated s.requests]⟩) := by
  obtain ⟨last, after, looped, appends⟩ := formatted legible
  have size : UInt64.ofNat MAX_LENGTH ≠ 0 := by decide
  unfold format_printf malloc
  dsimp only
  rw [if_neg size, if_neg granted, Option.bind_some, if_neg granted, looped, Option.map_some]
  dsimp only
  rw [slice_of_appends appends, free, if_neg granted]

/-! A program with one format. -/

def bytesOf (text : String) : List UInt8 := text.toList.map fun c => c.toNat.toUInt8

def programWith (text : List UInt8) : Program where
  memory i := text.getD i 0
  array := ⟨fun _ => 7, []⟩
  heap _ := 7
  errorFormat := 0
  rounds := 22
  steps := text.length + 1

theorem stands_getD (clean : 0 ∉ text) : Stands (fun i => text.getD i 0) 0 text where
  chars j inside := by simp [List.getD_eq_getElem?_getD, inside]
  ended := by simp [List.getD_eq_getElem?_getD]
  clean := clean

theorem programWith_legible (clean : 0 ∉ text) (simple : pointers args text 0 = []) :
    Legible (programWith text) strings 0 args text where
  stands := stands_getD clean
  longer := Nat.lt_succ_self _
  enough := (by decide : 21 < 22)
  readable := by
    rw [simple]
    exact fun _ never => nomatch never

/-- The text of the format is written, and the array was left by a write if and only if the
text is too long for it. -/
theorem printf_renders (fd : UInt64) (legible : Legible program strings format args text)
    (granted : env.allocated s.requests ≠ 0) :
    format_printf env program (depth + 1) fd format args s =
      some (env.accepted fd (rendering strings args text 0),
        ⟨s.requests + 1, s.written ++ [(fd, rendering strings args text 0)],
          s.freed ++ [env.allocated s.requests]⟩) ∧
    ∃ printed, formatLoop program.memory args program.array program.rounds format program.steps 0
        ⟨0, 0, zeroed program.heap⟩ = some printed ∧
      ((∀ i ∈ printed.output.written, i < MAX_LENGTH) ↔
        (rendering strings args text 0).length ≤ MAX_LENGTH) := by
  obtain ⟨last, after, looped, appends⟩ := formatted legible
  exact ⟨format_printf_granted legible granted, _, looped, appends.below_iff rfl⟩

theorem number_rendered : format_printf ⟨fun _ => 4096, fun _ _ => 3⟩ (programWith (bytesOf "%d\n"))
      1 1 0 (fun _ => 42) ⟨0, [], []⟩ =
    some (3, ⟨1, [(1, rendering (fun _ => []) (fun _ => 42) (bytesOf "%d\n") 0)], [4096]⟩) ∧
    ∃ printed, formatLoop (programWith (bytesOf "%d\n")).memory (fun _ => 42)
        (programWith (bytesOf "%d\n")).array 22 0 4 0 ⟨0, 0, zeroed fun _ => 7⟩ = some printed ∧
      ((∀ i ∈ printed.output.written, i < MAX_LENGTH) ↔
        (rendering (fun _ => []) (fun _ => 42) (bytesOf "%d\n") 0).length ≤ MAX_LENGTH) :=
  printf_renders 1 (programWith_legible (by decide) (by decide)) (by decide)

/-! ## Short of memory -/

theorem format_printf_refused (refused : env.allocated s.requests = 0) :
    format_printf env program (depth + 1) fd format args s =
      (format_printf env program depth STDERR program.errorFormat
        (fun _ => UInt64.ofNat MAX_LENGTH) { s with requests := s.requests + 1 }).map
          fun result => (0, result.2) := by
  have size : UInt64.ofNat MAX_LENGTH ≠ 0 := by decide
  rw [format_printf]
  unfold malloc
  dsimp only
  rw [if_neg size, if_pos refused, refused]
  cases format_printf env program depth STDERR program.errorFormat
    (fun _ => UInt64.ofNat MAX_LENGTH) { s with requests := s.requests + 1 } with
  | none => rfl
  | some result =>
    rw [Option.map_some, Option.bind_some]
    exact if_pos rfl

/-- While every request is refused, the calls nest without end. -/
theorem format_printf_endless (refused : ∀ n, s.requests ≤ n → env.allocated n = 0) :
    format_printf env program depth fd format args s = none := by
  induction depth generalizing fd format args s with
  | zero => rfl
  | succ depth ih =>
    rw [format_printf_refused (refused _ (Nat.le_refl _)), ih, Option.map_none]
    intro n later
    dsimp only at later
    exact refused n (by omega)

variable {message : List UInt8}

/-- The innermost of the calls that nest prints the error message, and no other one prints. -/
theorem format_printf_message (legible : Legible program strings program.errorFormat
      (fun _ => UInt64.ofNat MAX_LENGTH) message) (refused : env.allocated s.requests = 0)
    {result : UInt64 × Session}
    (returned : format_printf env program depth fd format args s = some result) :
    result.1 = 0 ∧ result.2.written = s.written ++
      [(STDERR, rendering strings (fun _ => UInt64.ofNat MAX_LENGTH) message 0)] := by
  induction depth generalizing fd format args s result with
  | zero => cases returned
  | succ depth ih =>
    rw [format_printf_refused refused] at returned
    obtain ⟨inner, done, rfl⟩ := Option.map_eq_some_iff.mp returned
    refine ⟨rfl, ?_⟩
    by_cases again : env.allocated (s.requests + 1) = 0
    · exact (ih (s := { s with requests := s.requests + 1 }) again done).2
    · cases depth with
      | zero => cases done
      | succ depth =>
        rw [format_printf_granted (s := { s with requests := s.requests + 1 }) legible again] at done
        cases done
        rfl

/-- A request that is granted in the end ends the nesting. -/
theorem format_printf_ends (fd : UInt64) (format : Nat) (args : Nat → UInt64)
    (legible : Legible program strings program.errorFormat
      (fun _ => UInt64.ofNat MAX_LENGTH) message) (refused : env.allocated s.requests = 0) {n : Nat}
    (later : s.requests < n) (granted : env.allocated n ≠ 0) :
    ∃ depth result, format_printf env program depth fd format args s = some result := by
  obtain ⟨gap, rfl⟩ : ∃ gap, n = s.requests + 1 + gap := ⟨n - (s.requests + 1), by omega⟩
  induction gap generalizing fd format args s with
  | zero =>
    refine ⟨2, ?_⟩
    rw [format_printf_refused refused,
      format_printf_granted (s := { s with requests := s.requests + 1 }) legible granted]
    exact ⟨_, rfl⟩
  | succ gap ih =>
    by_cases again : env.allocated (s.requests + 1) = 0
    · have same : s.requests + 1 + (gap + 1) = s.requests + 1 + 1 + gap := by omega
      rw [same] at granted
      obtain ⟨depth, result, done⟩ := ih (s := { s with requests := s.requests + 1 }) STDERR
        program.errorFormat (fun _ => UInt64.ofNat MAX_LENGTH) again (by dsimp only; omega) granted
      refine ⟨depth + 1, ?_⟩
      rw [format_printf_refused refused, done]
      exact ⟨_, rfl⟩
    · refine ⟨2, ?_⟩
      rw [format_printf_refused refused,
        format_printf_granted (s := { s with requests := s.requests + 1 }) legible again]
      exact ⟨_, rfl⟩

/-- A `printf` whose first request is refused returns if and only if a later one is granted.
Then it returns 0, its own text is lost, and one error message is printed, however many of the
calls were refused. -/
theorem printf_short_of_memory (fd : UInt64) (format : Nat) (args : Nat → UInt64)
    (legible : Legible program strings program.errorFormat (fun _ => UInt64.ofNat MAX_LENGTH)
      message) (refused : env.allocated s.requests = 0) :
    ((∃ depth result, format_printf env program depth fd format args s = some result) ↔
      ∃ n, s.requests < n ∧ env.allocated n ≠ 0) ∧
    ∀ depth result, format_printf env program depth fd format args s = some result →
      result.1 = 0 ∧ result.2.written = s.written ++
        [(STDERR, rendering strings (fun _ => UInt64.ofNat MAX_LENGTH) message 0)] := by
  refine ⟨⟨?_, ?_⟩, fun depth result returned => format_printf_message legible refused returned⟩
  · rintro ⟨depth, result, returned⟩
    by_contra none
    push Not at none
    rw [format_printf_endless] at returned
    · cases returned
    · intro n later
      rcases Nat.lt_or_eq_of_le later with after | same
      · exact none n after
      · rw [← same]
        exact refused
  · rintro ⟨n, later, granted⟩
    exact format_printf_ends fd format args legible refused later granted

/-- The message of `malloc`. -/
def errorMessage : List UInt8 := bytesOf "Error allocating memory of size %d\n"

/-- The first two requests are refused. -/
theorem third_request_granted :
    ((∃ depth result, format_printf ⟨fun n => if n < 2 then 0 else 4096, fun _ _ => 36⟩
        (programWith errorMessage) depth 1 0 (fun _ => 0) ⟨0, [], []⟩ = some result) ↔
      ∃ n, 0 < n ∧ (if n < 2 then 0 else 4096 : UInt64) ≠ 0) ∧
    ∀ depth result, format_printf ⟨fun n => if n < 2 then 0 else 4096, fun _ _ => 36⟩
        (programWith errorMessage) depth 1 0 (fun _ => 0) ⟨0, [], []⟩ = some result →
      result.1 = 0 ∧ result.2.written = [] ++
        [(STDERR, rendering (fun _ => []) (fun _ => UInt64.ofNat MAX_LENGTH) errorMessage 0)] :=
  printf_short_of_memory 1 0 (fun _ => 0) (programWith_legible (by decide) (by decide)) (by decide)

end SoKernel.Printf
