import SoKernel.Kernel.Descriptors
import SoKernel.Kernel.PipeFifo
import SoKernel.Userland.Filters

namespace SoKernel.Pipeline
open MemoryManager QueueName Lib Kernel SoKernel.System Filters Descriptors

/-! ## Two programs joined by a pipe

The left one prints texts, one `printf` after the other, and `syscall_exit` prints an end of
file; the right one calls `getChar` until it reads that. -/

inductive Side where
  | left | right
deriving DecidableEq

/-- Which of the two a process is, if any, and where it is in its call on the pipe. -/
structure Place where
  side : Option Side
  place : PipePlace

/-- Where the right program is in its loop. -/
inductive Phase where
  | asking
  /-- In `getChar`. -/
  | waiting
  | ended
deriving DecidableEq

/-- What the left program has still to print, and the right program with the characters that it
has got. -/
structure Traffic where
  log : PipeLog
  left : List (List UInt8)
  phase : Phase
  state : Reader
  input : List UInt8

/-- `syscall_write(STDOUT, text, length)` of a process with this standard output. -/
def printing (stdout : Int) (text : List UInt8) : Option PipeRequest :=
  match writeTarget 1 0 stdout with
  | .pipe id => some (.write id (some fun i => text.getD i 0) text.length)
  | .screen _ | .refused => none

/-- `syscall_read(STDIN, &c, 1)`; `c` is not initialized. -/
def getting (stdin : Int) (c : Nat → UInt8) : Option PipeRequest :=
  match readTarget 0 stdin with
  | .pipe id => some (.read id (some c) 1)
  | .screen _ | .refused => none

section
variable (slot : Nat)

/-- A call on the pipe begins or goes on. -/
def transfer (request : PipeRequest) (l : Place) (pipes : Nat → Pipe) (d : Traffic) :
    Option (Deed × Place × Traffic) :=
  (transferProgram slot request l.place pipes d.log).map fun (deed, place, log) =>
    (deed, { l with place := place }, { d with log := log })

/-- Inside a call the request no longer matters. -/
def goOn (l : Place) (pipes : Nat → Pipe) (d : Traffic) : Option (Deed × Place × Traffic) :=
  if l.place.idle then none else transfer slot (.write 0 none 0) l pipes d

def leftProgram (stdout : Int) (l : Place) (pipes : Nat → Pipe) (d : Traffic) :
    Option (Deed × Place × Traffic) :=
  match l.place.idle, d.left with
  | false, _ => goOn slot l pipes d
  | true, [] => none
  | true, text :: rest =>
    (printing stdout text).bind fun request =>
      transfer slot request l pipes { d with left := rest }

/-- `body` is what the loop does with a character. -/
def rightProgram (stdin : Int) (body : UInt8 → Reader → Option Reader) (c : Nat → UInt8)
    (l : Place) (pipes : Nat → Pipe) (d : Traffic) : Option (Deed × Place × Traffic) :=
  match d.phase with
  | .asking =>
    if l.place.idle then
      (getting stdin c).bind fun request => transfer slot request l pipes { d with phase := .waiting }
    else none
  | .waiting =>
    match l.place with
    | .returned true call _ =>
      let c := call.buffer 0
      if c ≠ EOF then
        (body c d.state).map fun state =>
          (.nothing, l, { d with phase := .asking, state := state, input := d.input ++ [c] })
      else some (.nothing, l, { d with phase := .ended })
    | .outside | .running _ _ _ | .clearing _ | .returned false _ _ | .refused _ =>
      goOn slot l pipes d
  | .ended => none

def program (stdout stdin : Int) (body : UInt8 → Reader → Option Reader) :
    Program (Nat → UInt8) Place Traffic := fun c l pipes d =>
  match l.side with
  | none => none
  | some .left => leftProgram slot stdout l pipes d
  | some .right => rightProgram slot stdin body c l pipes d

end

/-! ## What a call on the pipe does -/

abbrev State := Parties Int Int Place ((Nat → Pipe) × Traffic)

/-- The calls on the pipe, without the programs. -/
def calls (s : State) : PipeState := ⟨s.sems, fun p => (s.loc p).place, s.shared.1, s.shared.2.log⟩

/-- What a call that writes has not put in yet. -/
def pending : PipePlace → List UInt8
  | .running false _ call =>
    (List.range' call.bytes (call.size.toNat - call.bytes)).map call.buffer
  | .running true _ _ | .outside | .clearing _ | .returned _ _ _ | .refused _ => []

/-- What a call that reads has taken out. -/
def obtained : PipePlace → List UInt8
  | .running true _ call | .returned true call _ => call.filled
  | .running false _ _ | .returned false _ _ | .outside | .clearing _ | .refused _ => []

/-- A call that writes. -/
def Writing : PipePlace → Prop
  | .running reads _ _ | .returned reads _ _ => reads = false
  | .outside | .refused _ => True
  | .clearing _ => False

/-- A call that reads one byte. -/
def Reading : PipePlace → Prop
  | .running reads _ call | .returned reads call _ => reads = true ∧ call.size = 1
  | .outside | .clearing _ | .refused _ => False

variable {slot : Nat} {ids : PipeSems} {pipe pipe' : Pipe} {log log' : PipeLog}
variable {l l' : PipePlace} {c : Command Int}

/-- While a writer goes on, what it has put in and what it will put in stay the same. -/
theorem writing_move (move : PipeMove ids pipe log l c l' pipe' log') (busy : l.idle = false)
    (writing : Writing l) (guarded : PipeGuards pipe l) (counted : l.Counted) :
    Writing l' ∧ log'.put ++ pending l' = log.put ++ pending l ∧ log'.taken = log.taken := by
  cases move with
  | enters idle _ => rw [idle] at busy; cases busy
  | refuses idle _ => rw [idle] at busy; cases busy
  | clears idle => rw [idle] at busy; cases busy
  | admits _ =>
    cases writing
    exact ⟨rfl, rfl, rfl⟩
  | @returns reads call done =>
    cases writing
    obtain ⟨same, _⟩ := counted
    have none : call.size.toNat - call.bytes = 0 := by omega
    refine ⟨rfl, ?_, rfl⟩
    unfold pending
    dsimp only
    rw [none]
    rfl
  | locks =>
    cases writing
    exact ⟨rfl, rfl, rfl⟩
  | takes _ => cases writing
  | misses _ => cases writing
  | @puts call after put =>
    obtain ⟨same, more⟩ := counted
    have some : call.size.toNat - call.bytes = call.size.toNat - (call.bytes + 1) + 1 := by omega
    refine ⟨rfl, ?_, rfl⟩
    unfold pending
    dsimp only
    rw [some, List.range'_succ, List.map_cons, List.append_assoc, same]
    rfl
  | overflows missing =>
    have full := Pipe.putByte_eq_none missing
    have room := guarded.writable rfl
    omega
  | unlocks =>
    cases writing
    exact ⟨rfl, rfl, rfl⟩
  | signals =>
    cases writing
    exact ⟨rfl, rfl, rfl⟩
  | clearLocks => cases writing
  | clearResets => cases writing
  | clearUnlocks => cases writing

/-- While a reader goes on, what it takes out is what it has obtained. -/
theorem reading_move (move : PipeMove ids pipe log l c l' pipe' log') (busy : l.idle = false)
    (reading : Reading l) (guarded : PipeGuards pipe l) (counted : l.Counted) {before : List UInt8}
    (taken : log.taken.map Prod.snd = before ++ obtained l) :
    Reading l' ∧ log'.put = log.put ∧ log'.taken.map Prod.snd = before ++ obtained l' := by
  cases move with
  | enters idle _ => rw [idle] at busy; cases busy
  | refuses idle _ => rw [idle] at busy; cases busy
  | clears idle => rw [idle] at busy; cases busy
  | admits _ =>
    obtain ⟨rfl, one⟩ := reading
    exact ⟨⟨rfl, one⟩, rfl, taken⟩
  | returns _ =>
    obtain ⟨rfl, one⟩ := reading
    exact ⟨⟨rfl, one⟩, rfl, taken⟩
  | locks =>
    obtain ⟨rfl, one⟩ := reading
    exact ⟨⟨rfl, one⟩, rfl, taken⟩
  | @takes call byte after took =>
    obtain ⟨same, more⟩ := counted
    have one := reading.2
    have first : call.i = 0 := by omega
    have none : call.bytes = 0 := by omega
    refine ⟨⟨rfl, one⟩, rfl, ?_⟩
    have nothing : obtained (.running true .locked call) = [] := by
      unfold obtained Transfer.filled
      dsimp only
      rw [none]
      rfl
    rw [nothing, List.append_nil] at taken
    rw [List.map_append, taken]
    unfold obtained Transfer.filled
    dsimp only
    rw [none, first]
    simp [List.range_succ]
  | misses missing =>
    have none := Pipe.takeByte_eq_none missing
    have some := guarded.readable rfl
    omega
  | puts _ => cases reading.1
  | overflows _ => cases reading.1
  | unlocks =>
    obtain ⟨rfl, one⟩ := reading
    exact ⟨⟨rfl, one⟩, rfl, taken⟩
  | signals =>
    obtain ⟨rfl, one⟩ := reading
    exact ⟨⟨rfl, one⟩, rfl, taken⟩
  | clearLocks => cases reading
  | clearResets => cases reading
  | clearUnlocks => cases reading

/-- Outside of a call nothing is held, and nothing is on the way. -/
theorem idle_free (idle : l.idle = true) :
    l.holdsByte = false ∧ l.holdsLock = false ∧ pending l = [] := by
  cases l with
  | running _ _ _ => cases idle
  | clearing _ => cases idle
  | outside => exact ⟨rfl, rfl, rfl⟩
  | returned _ _ _ => exact ⟨rfl, rfl, rfl⟩
  | refused _ => exact ⟨rfl, rfl, rfl⟩

/-! ## What a program does -/

/-- The steps of the two programs. -/
inductive Goes (slot : Nat) (stdout stdin : Int) (body : UInt8 → Reader → Option Reader)
    (c : Nat → UInt8) (l : Place) (pipes : Nat → Pipe) (d : Traffic) :
    Deed → Place → Traffic → Prop
  | inside {side deed place log} : l.side = some side → l.place.idle = false →
      (side = .right → d.phase = .waiting) →
      transferProgram slot (.write 0 none 0) l.place pipes d.log = some (deed, place, log) →
      Goes slot stdout stdin body c l pipes d deed { l with place := place } { d with log := log }
  | prints {text rest request deed place log} : l.side = some .left → l.place.idle = true →
      d.left = text :: rest → printing stdout text = some request →
      transferProgram slot request l.place pipes d.log = some (deed, place, log) →
      Goes slot stdout stdin body c l pipes d deed { l with place := place }
        { d with log := log, left := rest }
  | asks {request deed place log} : l.side = some .right → l.place.idle = true →
      d.phase = .asking → getting stdin c = some request →
      transferProgram slot request l.place pipes d.log = some (deed, place, log) →
      Goes slot stdout stdin body c l pipes d deed { l with place := place }
        { d with log := log, phase := .waiting }
  | gets {call result state} : l.side = some .right → d.phase = .waiting →
      l.place = .returned true call result → call.buffer 0 ≠ EOF →
      body (call.buffer 0) d.state = some state →
      Goes slot stdout stdin body c l pipes d .nothing l
        { d with phase := .asking, state := state, input := d.input ++ [call.buffer 0] }
  | ends {call result} : l.side = some .right → d.phase = .waiting →
      l.place = .returned true call result → call.buffer 0 = EOF →
      Goes slot stdout stdin body c l pipes d .nothing l { d with phase := .ended }

variable {stdout stdin : Int} {body : UInt8 → Reader → Option Reader} {buffer : Nat → UInt8}
variable {pipes : Nat → Pipe} {d d' : Traffic} {here after : Place} {deed : Deed}

theorem transfer_eq {request : PipeRequest}
    (goes : transfer slot request here pipes d = some (deed, after, d')) :
    ∃ place log, transferProgram slot request here.place pipes d.log = some (deed, place, log) ∧
      after = { here with place := place } ∧ d' = { d with log := log } := by
  obtain ⟨⟨deed', place, log⟩, does, same⟩ := Option.map_eq_some_iff.mp goes
  cases same
  exact ⟨place, log, does, rfl, rfl⟩

theorem goOn_inside {side : Side} (here_side : here.side = some side)
    (phase : side = .right → d.phase = .waiting)
    (goes : goOn slot here pipes d = some (deed, after, d')) :
    Goes slot stdout stdin body buffer here pipes d deed after d' := by
  unfold goOn at goes
  split at goes
  · cases goes
  · rename_i busy
    obtain ⟨place, log, does, rfl, rfl⟩ := transfer_eq goes
    exact .inside here_side (Bool.eq_false_iff.mpr busy) phase does

theorem program_goes
    (does : program slot stdout stdin body buffer here pipes d = some (deed, after, d')) :
    Goes slot stdout stdin body buffer here pipes d deed after d' := by
  unfold program at does
  split at does
  · cases does
  · rename_i side
    unfold leftProgram at does
    split at does
    · exact goOn_inside side nofun does
    · cases does
    · rename_i text rest idle left
      obtain ⟨request, printed, goes⟩ := Option.bind_eq_some_iff.mp does
      obtain ⟨place, log, begins, rfl, rfl⟩ := transfer_eq goes
      exact .prints side idle left printed begins
  · rename_i side
    unfold rightProgram at does
    split at does
    · rename_i phase
      split at does
      · rename_i idle
        obtain ⟨request, got, goes⟩ := Option.bind_eq_some_iff.mp does
        obtain ⟨place, log, begins, rfl, rfl⟩ := transfer_eq goes
        exact .asks side idle phase got begins
      · cases does
    · rename_i phase
      split at does
      · rename_i call result place
        dsimp only at does
        split at does
        · rename_i more
          obtain ⟨state, went, same⟩ := Option.map_eq_some_iff.mp does
          cases same
          exact .gets side phase place more went
        · rename_i ended
          cases does
          exact .ends side phase place (not_not.mp ended)
      all_goals exact goOn_inside side (fun _ => phase) does
    · cases does

/-- Outside of a call the next one begins. -/
theorem transferProgram_idle {request : PipeRequest} {l : PipePlace} {log : PipeLog}
    (stays : request.clears = false) (idle : l.idle = true) :
    transferProgram slot request l pipes log = enterPipe slot request pipes log := by
  unfold transferProgram
  rw [stays, if_neg nofun]
  cases l with
  | outside => rfl
  | returned _ _ _ => rfl
  | refused _ => rfl
  | running _ _ _ => cases idle
  | clearing _ => cases idle

/-- A call that writes begins with all of its text. -/
theorem printing_enters {text : List UInt8} {request : PipeRequest} {l l' : PipePlace}
    {log log' : PipeLog} (printed : printing stdout text = some request) (idle : l.idle = true)
    (does : transferProgram slot request l pipes log = some (deed, l', log')) :
    deed = .nothing ∧ Writing l' ∧ pending l' = text ∧ log'.put = log.put ∧
      log'.taken = log.taken := by
  obtain ⟨id, rfl⟩ : ∃ id, request = .write id (some fun i => text.getD i 0) text.length := by
    unfold printing at printed
    split at printed
    · exact ⟨_, (Option.some.inj printed).symm⟩
    · cases printed
    · cases printed
  rw [transferProgram_idle rfl idle] at does
  unfold enterPipe at does
  split at does
  · dsimp only at does
    split at does
    · rename_i none
      cases does
      have empty : text = [] := List.length_eq_zero_iff.mp (by omega)
      exact ⟨rfl, trivial, empty.symm, rfl, rfl⟩
    · cases does
      refine ⟨rfl, rfl, ?_, rfl, rfl⟩
      unfold pending
      dsimp only
      apply List.ext_getElem
      · simp
      · intro j first second
        simp [second]
  · cases does

/-- A call that reads begins with nothing. -/
theorem getting_enters {request : PipeRequest} {l l' : PipePlace} {log log' : PipeLog}
    (got : getting stdin buffer = some request) (idle : l.idle = true)
    (does : transferProgram slot request l pipes log = some (deed, l', log')) :
    deed = .nothing ∧ Reading l' ∧ obtained l' = [] ∧ log'.put = log.put ∧
      log'.taken = log.taken := by
  obtain ⟨id, rfl⟩ : ∃ id, request = .read id (some buffer) 1 := by
    unfold getting at got
    split at got
    · exact ⟨_, (Option.some.inj got).symm⟩
    · cases got
    · cases got
  rw [transferProgram_idle rfl idle] at does
  unfold enterPipe at does
  split at does
  · cases does
    exact ⟨rfl, ⟨rfl, rfl⟩, rfl, rfl, rfl⟩
  · cases does

/-! ## The invariant -/

/-- What the right program has taken out and not yet got. -/
def ahead (phase : Phase) (l : PipePlace) : List UInt8 :=
  match phase with
  | .asking => []
  | .waiting => obtained l
  | .ended => [EOF]

def Phase.Fits (phase : Phase) (l : PipePlace) : Prop :=
  match phase with
  | .waiting => Reading l
  | .asking | .ended => l.idle = true

/-- Nobody but the two programs uses the pipe. -/
structure Sides (left right : Int) (loc : Int → Place) : Prop where
  left : ∀ {p}, (loc p).side = some .left ↔ p = left
  right : ∀ {p}, (loc p).side = some .right ↔ p = right
  outside : ∀ {p}, (loc p).side = none → (loc p).place = .outside

/-- The text of the left program is what went into the pipe and what is still to come; what
came out is what the right program has got and what it is getting. -/
structure Flow (slot : Nat) (ids : PipeSems) (body : UInt8 → Reader → Option Reader)
    (stream : List UInt8) (start : Reader) (left right : Int) (s : State) : Prop where
  exact : PipeExact slot ids (calls s)
  sides : Sides left right s.loc
  writing : Writing (s.loc left).place
  written : s.shared.2.log.put ++ pending (s.loc left).place ++ s.shared.2.left.flatten = stream
  reading : s.shared.2.phase.Fits (s.loc right).place
  taken : s.shared.2.log.taken.map Prod.snd =
    s.shared.2.input ++ ahead s.shared.2.phase (s.loc right).place
  clean : EOF ∉ s.shared.2.input
  consumed : s.shared.2.input.foldlM (fun r c => body c r) start = some s.shared.2.state

variable {stream : List UInt8} {start : Reader} {left right p : Int} {s t : State}

theorem Sides.apart {loc : Int → Place} (sides : Sides left right loc) : left ≠ right := by
  rintro rfl
  have first := sides.left.mpr rfl
  have second := sides.right.mpr rfl
  rw [first] at second
  cases second

/-- The calls on the pipe, after a step of the process. -/
theorem calls_turn {place : PipePlace} (s : State) (p : Int) (c : Command Int) (pipes) (d) :
    calls (s.turn p c { s.loc p with place := place } (pipes, d)) =
      (calls s).turn p c place (pipes, d.log) := by
  unfold calls Parties.turn
  dsimp only
  congr 1
  funext q
  by_cases same : q = p
  · rw [same, Function.update_self, Function.update_self]
  · rw [Function.update_of_ne same, Function.update_of_ne same]

/-- A process that is one of the two goes to another place. -/
theorem Sides.move {loc : Int → Place} {place : PipePlace} (sides : Sides left right loc)
    (some : (loc p).side ≠ none) :
    Sides left right (Function.update loc p { loc p with place := place }) := by
  have kept : ∀ q, (Function.update loc p { loc p with place := place } q).side = (loc q).side := by
    intro q
    by_cases same : q = p
    · rw [same, Function.update_self]
    · rw [Function.update_of_ne same]
  refine ⟨?_, ?_, ?_⟩
  · intro q
    rw [kept]
    exact sides.left
  · intro q
    rw [kept]
    exact sides.right
  · intro q none
    rw [kept] at none
    rw [Function.update_of_ne]
    · exact sides.outside none
    · rintro rfl
      exact some none

/-- What a step of the left program must do. -/
theorem Flow.left_turn {place : PipePlace} {pipes : Nat → Pipe} {d : Traffic} {c : Command Int}
    (flow : Flow slot ids body stream start left right s)
    (exact : PipeExact slot ids (calls (s.turn left c { s.loc left with place := place } (pipes, d))))
    (writing : Writing place) (written : d.log.put ++ pending place ++ d.left.flatten = stream)
    (taken : d.log.taken = s.shared.2.log.taken)
    (same : d.phase = s.shared.2.phase ∧ d.input = s.shared.2.input ∧ d.state = s.shared.2.state) :
    Flow slot ids body stream start left right
      (s.turn left c { s.loc left with place := place } (pipes, d)) := by
  have self : (s.turn left c { s.loc left with place := place } (pipes, d)).loc left =
      { s.loc left with place := place } := Function.update_self _ _ _
  have other : (s.turn left c { s.loc left with place := place } (pipes, d)).loc right =
      s.loc right := Function.update_of_ne flow.sides.apart.symm _ _
  obtain ⟨phase, input, state⟩ := same
  refine ⟨exact, flow.sides.move ?_, ?_, ?_, ?_, ?_, ?_, ?_⟩
  · rw [flow.sides.left.mpr rfl]
    nofun
  · rw [self]
    exact writing
  · rw [self]
    exact written
  · rw [other]
    change d.phase.Fits _
    rw [phase]
    exact flow.reading
  · rw [other]
    change d.log.taken.map Prod.snd = d.input ++ ahead d.phase _
    rw [taken, phase, input]
    exact flow.taken
  · change EOF ∉ d.input
    rw [input]
    exact flow.clean
  · change d.input.foldlM _ start = some d.state
    rw [input, state]
    exact flow.consumed

/-- What a step of the right program must do. -/
theorem Flow.right_turn (place : PipePlace) {pipes : Nat → Pipe} {d : Traffic} {c : Command Int}
    (flow : Flow slot ids body stream start left right s)
    (exact : PipeExact slot ids
      (calls (s.turn right c { s.loc right with place := place } (pipes, d))))
    (same : d.log.put = s.shared.2.log.put ∧ d.left = s.shared.2.left)
    (reading : d.phase.Fits place)
    (taken : d.log.taken.map Prod.snd = d.input ++ ahead d.phase place) (clean : EOF ∉ d.input)
    (consumed : d.input.foldlM (fun r c => body c r) start = some d.state) :
    Flow slot ids body stream start left right
      (s.turn right c { s.loc right with place := place } (pipes, d)) := by
  have self : (s.turn right c { s.loc right with place := place } (pipes, d)).loc right =
      { s.loc right with place := place } := Function.update_self _ _ _
  have other : (s.turn right c { s.loc right with place := place } (pipes, d)).loc left =
      s.loc left := Function.update_of_ne flow.sides.apart _ _
  obtain ⟨put, rest⟩ := same
  refine ⟨exact, flow.sides.move ?_, ?_, ?_, ?_, ?_, clean, consumed⟩
  · rw [flow.sides.right.mpr rfl]
    nofun
  · rw [other]
    exact flow.writing
  · rw [other]
    change d.log.put ++ _ ++ d.left.flatten = stream
    rw [put, rest]
    exact flow.written
  · rw [self]
    exact reading
  · rw [self]
    exact taken

/-- A character has come. -/
theorem Flow.got {call : Transfer} {result : Int}
    (flow : Flow slot ids body stream start left right s)
    (phase : s.shared.2.phase = .waiting)
    (place : (s.loc right).place = .returned true call result) :
    (s.loc right).place.idle = true ∧
      s.shared.2.log.taken.map Prod.snd = s.shared.2.input ++ [call.buffer 0] := by
  have reading := flow.reading
  have taken := flow.taken
  have counted : ((s.loc right).place).Counted := flow.exact.counted right
  rw [phase, place] at reading taken
  rw [place] at counted ⊢
  have one : call.bytes = 1 := by
    have size := reading.2
    have all := counted.2
    omega
  refine ⟨rfl, ?_⟩
  rw [taken]
  change _ ++ (List.range call.bytes).map call.buffer = _
  rw [one]
  rfl

/-- The right program does something of its own. -/
theorem Flow.stays_right {d : Traffic} (flow : Flow slot ids body stream start left right s)
    (same : d.log = s.shared.2.log ∧ d.left = s.shared.2.left)
    (reading : d.phase.Fits (s.loc right).place)
    (taken : s.shared.2.log.taken.map Prod.snd = d.input ++ ahead d.phase (s.loc right).place)
    (clean : EOF ∉ d.input)
    (consumed : d.input.foldlM (fun r c => body c r) start = some d.state) :
    Flow slot ids body stream start left right
      (s.turn right .internal (s.loc right) (s.shared.1, d)) := by
  have still : calls (s.turn right .internal (s.loc right) (s.shared.1, d)) = calls s := by
    unfold calls Parties.turn
    dsimp only
    rw [Function.update_eq_self, same.1]
    rfl
  refine flow.right_turn (s.loc right).place ?_ ⟨by rw [same.1], same.2⟩ reading ?_
    clean consumed
  · change PipeExact slot ids (calls (s.turn right .internal (s.loc right) (s.shared.1, d)))
    rw [still]
    exact flow.exact
  · rw [same.1]
    exact taken

section
variable (flow : Flow slot ids body stream start left right s) (distinct : ids.Distinct)
variable (orderly : s.sems.Orderly) (awake : ¬ s.sems.Sleeps p)
include flow distinct orderly awake

/-- A step of a call on the pipe, for the pipe. -/
theorem Flow.moves {request : PipeRequest} {place : PipePlace} {log : PipeLog}
    (does : transferProgram slot request (s.loc p).place s.shared.1 s.shared.2.log =
      some (deed, place, log)) :
    PipeMove ids (s.shared.1 slot) s.shared.2.log (s.loc p).place deed.command place
      (deed.pipes s.shared.1 slot) log ∧
    PipeGuards (s.shared.1 slot) (s.loc p).place ∧ (s.loc p).place.Counted ∧
    ∀ d, d.log = log → PipeExact slot ids (calls (s.turn p deed.command
      { s.loc p with place := place } (deed.pipes s.shared.1, d))) := by
  have named : (s.shared.1 slot).sems = ids := flow.exact.tokens.named
  have step : (transferProgram slot).Does ((calls s).loc p) (calls s).shared deed.command place
      (deed.pipes s.shared.1, log) := ⟨request, deed, does, rfl, rfl⟩
  have move := (transferProgram_does (s := calls s) step).1
  change PipeMove (s.shared.1 slot).sems _ _ _ _ _ _ _ at move
  rw [named] at move
  refine ⟨move, flow.exact.guards (p := p) awake, flow.exact.counted p, ?_⟩
  rintro d rfl
  rw [calls_turn]
  exact flow.exact.step distinct orderly (.turn awake step)

theorem Flow.turn (does : Goes slot stdout stdin body buffer (s.loc p) s.shared.1 s.shared.2
    deed after d') : Flow slot ids body stream start left right
      (s.turn p deed.command after (deed.pipes s.shared.1, d')) := by
  cases does with
  | @inside side deed place log here busy phase does =>
    obtain ⟨move, guarded, counted, exact⟩ := flow.moves distinct orderly awake does
    cases side with
    | left =>
      obtain rfl := flow.sides.left.mp here
      obtain ⟨writing, written, taken⟩ := writing_move move busy flow.writing guarded counted
      refine flow.left_turn (exact _ rfl) writing ?_ taken ⟨rfl, rfl, rfl⟩
      change log.put ++ pending place ++ s.shared.2.left.flatten = stream
      rw [written]
      exact flow.written
    | right =>
      obtain rfl := flow.sides.right.mp here
      have waiting := phase rfl
      have reading := flow.reading
      have taken := flow.taken
      rw [waiting] at reading taken
      obtain ⟨reads, put, obtained⟩ := reading_move move busy reading guarded counted taken
      refine flow.right_turn _ (exact _ rfl) ⟨put, rfl⟩ ?_ ?_ flow.clean flow.consumed
      · rw [waiting]
        exact reads
      · rw [waiting]
        exact obtained
  | @prints text rest request deed place log here idle left_eq printed does =>
    obtain ⟨_, _, _, exact⟩ := flow.moves distinct orderly awake does
    obtain rfl := flow.sides.left.mp here
    obtain ⟨_, writing, whole, put, taken⟩ := printing_enters printed idle does
    have written := flow.written
    rw [(idle_free idle).2.2, List.append_nil, left_eq, List.flatten_cons] at written
    refine flow.left_turn (exact _ rfl) writing ?_ taken ⟨rfl, rfl, rfl⟩
    change log.put ++ pending place ++ rest.flatten = stream
    rw [put, whole, List.append_assoc, written]
  | @asks request deed place log here idle phase got does =>
    obtain ⟨_, _, _, exact⟩ := flow.moves distinct orderly awake does
    obtain rfl := flow.sides.right.mp here
    obtain ⟨_, reading, nothing, put, taken⟩ := getting_enters got idle does
    have before := flow.taken
    rw [phase] at before
    refine flow.right_turn _ (exact _ rfl) ⟨put, rfl⟩ reading ?_ flow.clean flow.consumed
    change log.taken.map Prod.snd = s.shared.2.input ++ obtained place
    rw [taken, nothing]
    exact before
  | @gets call result state here phase place more went =>
    obtain rfl := flow.sides.right.mp here
    obtain ⟨idle, one⟩ := flow.got phase place
    refine flow.stays_right ⟨rfl, rfl⟩ idle ?_ ?_ ?_
    · change s.shared.2.log.taken.map Prod.snd = s.shared.2.input ++ [call.buffer 0] ++ []
      rw [List.append_nil, one]
    · intro member
      rcases List.mem_append.mp member with old | new
      · exact flow.clean old
      · exact more (List.mem_singleton.mp new).symm
    · change (s.shared.2.input ++ [call.buffer 0]).foldlM _ start = some state
      rw [List.foldlM_append, flow.consumed]
      simpa using went
  | @ends call result here phase place ended =>
    obtain rfl := flow.sides.right.mp here
    obtain ⟨idle, one⟩ := flow.got phase place
    refine flow.stays_right ⟨rfl, rfl⟩ idle ?_ flow.clean flow.consumed
    change s.shared.2.log.taken.map Prod.snd = s.shared.2.input ++ [EOF]
    rw [one, ended]

end

end SoKernel.Pipeline
