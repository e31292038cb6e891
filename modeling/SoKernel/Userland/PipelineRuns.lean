import SoKernel.Kernel.PipeSlots
import SoKernel.Userland.Pipeline

namespace SoKernel.Pipeline
open MemoryManager QueueName Lib Kernel SoKernel.System Filters Descriptors

/-! ## Who waits on the pipe -/

/-- Whoever waits on the pipe is where a call waits. -/
structure PipeQueues (ids : PipeSems) (s : PipeState) : Prop where
  readers : s.Queued ids.readers fun l => ∃ call, l = .running true .admitted call
  writers : s.Queued ids.writers fun l => ∃ call, l = .running false .admitted call
  mutex : s.Queued ids.mutex fun l => ∃ reads call, l = .running reads .locked call

variable {slot : Nat} {ids : PipeSems} {pipe pipe' : Pipe} {log log' : PipeLog}
variable {l l' : PipePlace} {c : Command Int} {p : Int} {v : PipeState}

theorem PipeQueues.move {d : (Nat → Pipe) × PipeLog} (queues : PipeQueues ids v)
    (distinct : ids.Distinct) (orderly : v.sems.Orderly) (awake : ¬ v.sems.Sleeps p)
    (keeps : ∀ stage, v.loc p ≠ .clearing stage)
    (move : PipeMove ids pipe log (v.loc p) c l' pipe' log') :
    PipeQueues ids (v.turn p c l' d) := by
  obtain ⟨readersWriters, readersMutex, writersMutex⟩ := distinct
  generalize place : v.loc p = l at move
  refine ⟨queues.readers.turn orderly awake ?_, queues.writers.turn orderly awake ?_,
    queues.mutex.turn orderly awake ?_⟩
  · intro waits
    cases move with
    | @admits reads call more =>
      cases reads with
      | true => exact ⟨call, rfl⟩
      | false => exact absurd (Command.wait.inj waits) readersWriters.symm
    | locks => exact absurd (Command.wait.inj waits) readersMutex.symm
    | clearLocks => exact absurd place (keeps _)
    | _ => cases waits
  · intro waits
    cases move with
    | @admits reads call more =>
      cases reads with
      | true => exact absurd (Command.wait.inj waits) readersWriters
      | false => exact ⟨call, rfl⟩
    | locks => exact absurd (Command.wait.inj waits) writersMutex.symm
    | clearLocks => exact absurd place (keeps _)
    | _ => cases waits
  · intro waits
    cases move with
    | @admits reads call more =>
      cases reads with
      | true => exact absurd (Command.wait.inj waits) readersMutex
      | false => exact absurd (Command.wait.inj waits) writersMutex
    | @locks reads call => exact ⟨reads, call, rfl⟩
    | clearLocks => exact absurd place (keeps _)
    | _ => cases waits

/-! ## Steps -/

/-- The invariant of a run. -/
structure Piping (slot : Nat) (ids : PipeSems) (body : UInt8 → Reader → Option Reader)
    (stream : List UInt8) (start : Reader) (left right : Int) (s : State) : Prop where
  flow : Flow slot ids body stream start left right s
  queues : PipeQueues ids (calls s)

variable {stdout stdin : Int} {body : UInt8 → Reader → Option Reader} {buffer : Nat → UInt8}
variable {d d' : Traffic} {after : Place} {deed : Deed} {pipes : Nat → Pipe}
variable {stream : List UInt8} {start : Reader} {left right : Int} {s t : State}

/-- Either the calls on the pipe stay as they are, or one of them goes on. -/
theorem Goes.calls (goes : Goes slot stdout stdin body buffer (s.loc p) s.shared.1 s.shared.2
    deed after d') :
    (deed = .nothing ∧ (after = s.loc p ∧ d'.log = s.shared.2.log)) ∨
    ∃ request place log, transferProgram slot request (s.loc p).place s.shared.1 s.shared.2.log =
      some (deed, place, log) ∧ after = { s.loc p with place := place } ∧ d'.log = log := by
  cases goes with
  | inside _ _ _ does => exact .inr ⟨_, _, _, does, rfl, rfl⟩
  | prints _ _ _ _ does => exact .inr ⟨_, _, _, does, rfl, rfl⟩
  | asks _ _ _ _ does => exact .inr ⟨_, _, _, does, rfl, rfl⟩
  | gets _ _ _ _ _ => exact .inl ⟨rfl, rfl, rfl⟩
  | ends _ _ _ _ => exact .inl ⟨rfl, rfl, rfl⟩

theorem Piping.turn (piping : Piping slot ids body stream start left right s)
    (distinct : ids.Distinct) (orderly : s.sems.Orderly) (awake : ¬ s.sems.Sleeps p)
    (goes : Goes slot stdout stdin body buffer (s.loc p) s.shared.1 s.shared.2 deed after d') :
    Piping slot ids body stream start left right
      (s.turn p deed.command after (deed.pipes s.shared.1, d')) := by
  refine ⟨piping.flow.turn distinct orderly awake goes, ?_⟩
  rcases goes.calls with ⟨rfl, rfl, log⟩ | ⟨request, place, log, does, rfl, rfl⟩
  · have still : Pipeline.calls (s.turn p .internal (s.loc p) (s.shared.1, d')) =
        Pipeline.calls s := by
      unfold Pipeline.calls Parties.turn
      dsimp only
      rw [Function.update_eq_self, log]
      rfl
    change PipeQueues ids (Pipeline.calls (s.turn p .internal (s.loc p) (s.shared.1, d')))
    rw [still]
    exact piping.queues
  · obtain ⟨move, _⟩ := piping.flow.moves distinct orderly awake does
    rw [calls_turn]
    exact piping.queues.move distinct orderly awake (piping.flow.exact.keeps p) move

theorem Piping.step (piping : Piping slot ids body stream start left right s)
    (distinct : ids.Distinct) (orderly : s.sems.Orderly)
    (step : Parties.Step (program slot stdout stdin body).Does ids.own s t) :
    Piping slot ids body stream start left right t := by
  cases step with
  | @others sems after same =>
    obtain ⟨flow, queues⟩ := piping
    have exact := flow.exact
    refine ⟨⟨⟨exact.tokens.others same, exact.keeps, exact.fifo, exact.counted, exact.tickets⟩,
      flow.sides, flow.writing, flow.written, flow.reading, flow.taken, flow.clean,
      flow.consumed⟩, ?_⟩
    refine ⟨?_, ?_, ?_⟩
    · intro q member
      change q ∈ sems.waiting _ at member
      rw [(same _ (.inl rfl)).2] at member
      exact queues.readers q member
    · intro q member
      change q ∈ sems.waiting _ at member
      rw [(same _ (.inr (.inl rfl))).2] at member
      exact queues.writers q member
    · intro q member
      change q ∈ sems.waiting _ at member
      rw [(same _ (.inr (.inr rfl))).2] at member
      exact queues.mutex q member
  | @turn p c l d awake does =>
    obtain ⟨choice, deed, does, rfl, after⟩ := does
    have goes := program_goes does
    obtain ⟨pipes, traffic⟩ := d
    dsimp only at after
    rw [after]
    exact piping.turn distinct orderly awake goes

/-! ## Never both -/

/-- The process waits on the pipe. -/
def Waits (ids : PipeSems) (p : Int) (s : State) : Prop :=
  ∃ id, ids.own id ∧ p ∈ s.sems.waiting id

/-- Only the two programs hold tokens of the pipe. -/
theorem Flow.holders (flow : Flow slot ids body stream start left right s)
    {held : PipePlace → Bool} (outside : held .outside = false) {waiting : List Int}
    (first : held (s.loc left).place = true → left ∈ waiting)
    (second : held (s.loc right).place = true → right ∈ waiting) (q : Int)
    (holds : held ((calls s).loc q) = true) : q ∈ waiting := by
  change held (s.loc q).place = true at holds
  cases side : (s.loc q).side with
  | none =>
    rw [flow.sides.outside side, outside] at holds
    cases holds
  | some side' =>
    cases side' with
    | left =>
      obtain rfl := flow.sides.left.mp side
      exact first holds
    | right =>
      obtain rfl := flow.sides.right.mp side
      exact second holds

/-- The left program waits for room or for the mutex. -/
theorem Piping.left_waits (piping : Piping slot ids body stream start left right s)
    (waits : Waits ids left s) :
    (left ∈ s.sems.waiting ids.writers ∧ ∃ call, (s.loc left).place = .running false .admitted call) ∨
    (left ∈ s.sems.waiting ids.mutex ∧ ∃ call, (s.loc left).place = .running false .locked call) := by
  have writing := piping.flow.writing
  obtain ⟨id, rfl | rfl | rfl, member⟩ := waits
  · obtain ⟨call, place⟩ := piping.queues.readers left member
    change (s.loc left).place = _ at place
    rw [place] at writing
    cases writing
  · exact .inl ⟨member, piping.queues.writers left member⟩
  · obtain ⟨reads, call, place⟩ := piping.queues.mutex left member
    change (s.loc left).place = _ at place
    rw [place] at writing
    cases writing
    exact .inr ⟨member, call, place⟩

/-- The right program is in `getChar` when it waits. -/
theorem Flow.waits_reading (flow : Flow slot ids body stream start left right s)
    (busy : (s.loc right).place.idle = false) :
    s.shared.2.phase = .waiting ∧ Reading (s.loc right).place := by
  have reading := flow.reading
  cases phase : s.shared.2.phase with
  | waiting =>
    rw [phase] at reading
    exact ⟨rfl, reading⟩
  | asking =>
    rw [phase] at reading
    exact absurd (busy.symm.trans reading) (by decide)
  | ended =>
    rw [phase] at reading
    exact absurd (busy.symm.trans reading) (by decide)

/-- It waits for a byte or for the mutex. -/
theorem Piping.right_waits (piping : Piping slot ids body stream start left right s)
    (waits : Waits ids right s) :
    (right ∈ s.sems.waiting ids.readers ∧
      ∃ call, (s.loc right).place = .running true .admitted call) ∨
    (right ∈ s.sems.waiting ids.mutex ∧
      ∃ call, (s.loc right).place = .running true .locked call) := by
  have reading : ∀ {reads stage call}, (s.loc right).place = .running reads stage call →
      reads = true := by
    intro reads stage call place
    have busy : (s.loc right).place.idle = false := by
      rw [place]
      rfl
    have reading := (piping.flow.waits_reading busy).2
    rw [place] at reading
    exact reading.1
  obtain ⟨id, rfl | rfl | rfl, member⟩ := waits
  · exact .inl ⟨member, piping.queues.readers right member⟩
  · obtain ⟨call, place⟩ := piping.queues.writers right member
    cases reading place
  · obtain ⟨reads, call, place⟩ := piping.queues.mutex right member
    cases reading place
    exact .inr ⟨member, call, place⟩

/-- The two programs never both wait on the pipe. -/
theorem Piping.never_both (piping : Piping slot ids body stream start left right s)
    (orderly : s.sems.Orderly) (first : Waits ids left s) (second : Waits ids right s) : False := by
  obtain ⟨flow, queues⟩ := piping
  have tokens := flow.exact.tokens
  rcases Piping.left_waits ⟨flow, queues⟩ first with ⟨member, call, place⟩ | ⟨member, call, place⟩
  · rcases Piping.right_waits ⟨flow, queues⟩ second with
      ⟨member', call', place'⟩ | ⟨member', call', place'⟩
    · -- the left one has found no room, the right one no byte
      have empty := tokens.readers.exhausted orderly member'
        (flow.holders rfl (by rw [place]; nofun) fun _ => member')
      have full := tokens.writers.exhausted orderly member
        (flow.holders rfl (fun _ => member) (by rw [place']; nofun))
      rw [empty] at full
      cases full
    · refine absurd (tokens.mutex.exhausted orderly member' ?_) (by decide)
      exact flow.holders rfl (by rw [place]; nofun) fun _ => member'
  · refine absurd (tokens.mutex.exhausted orderly member ?_) (by decide)
    refine flow.holders rfl (fun _ => member) ?_
    rcases Piping.right_waits ⟨flow, queues⟩ second with ⟨_, call', place'⟩ | ⟨member', _, _⟩
    · rw [place']
      nofun
    · exact fun _ => member'

/-- When the left program has printed everything the right one does not wait for the end of
file. -/
theorem Piping.never_vain (piping : Piping slot ids body stream start left right s)
    (orderly : s.sems.Orderly) (ends : EOF ∈ stream) (idle : (s.loc left).place.idle = true)
    (done : s.shared.2.left = []) (waits : Waits ids right s) : False := by
  obtain ⟨flow, queues⟩ := piping
  have tokens := flow.exact.tokens
  obtain ⟨noByte, noLock, nothing⟩ := idle_free idle
  rcases Piping.right_waits ⟨flow, queues⟩ waits with ⟨member, call, place⟩ | ⟨member, call, place⟩
  · -- all of the stream has come out, and the end of file with it
    have empty := tokens.readers.exhausted orderly member
      (flow.holders rfl (by rw [noByte]; nofun) fun _ => member)
    have buffered : (s.shared.1 slot).buffered = [] := by
      have count : (s.shared.1 slot).count = 0 := empty
      unfold Pipe.buffered
      rw [count]
      rfl
    have fifo := flow.exact.fifo
    change s.shared.2.log.taken.map Prod.snd ++ (s.shared.1 slot).buffered =
      s.shared.2.log.put at fifo
    have written := flow.written
    rw [nothing, done] at written
    simp only [List.flatten_nil, List.append_nil] at written
    obtain ⟨phase, reading⟩ := flow.waits_reading (by rw [place]; rfl)
    have counted : (s.loc right).place.Counted := flow.exact.counted right
    rw [place] at reading counted
    have none : call.bytes = 0 := by
      have size := reading.2
      obtain ⟨same, more⟩ := counted
      omega
    have taken := flow.taken
    rw [phase, place] at taken
    change _ = s.shared.2.input ++ (List.range call.bytes).map call.buffer at taken
    rw [none, List.range_zero, List.map_nil, List.append_nil] at taken
    rw [buffered, List.append_nil, taken, written] at fifo
    exact flow.clean (fifo ▸ ends)
  · refine absurd (tokens.mutex.exhausted orderly member ?_) (by decide)
    exact flow.holders rfl (by rw [noLock]; nofun) fun _ => member

/-! ## Who is awake goes on -/

/-- The loop takes every character before the end of file. -/
theorem untilEOF_isSome {input rest : List UInt8} {c : UInt8} {state : Reader}
    (clean : EOF ∉ input) (consumed : input.foldlM (fun r c => body c r) start = some state)
    (some_end : (untilEOF body (input ++ c :: rest) start).isSome = true) (more : c ≠ EOF) :
    (body c state).isSome = true := by
  induction input generalizing start with
  | nil =>
    cases consumed
    rw [List.nil_append, untilEOF, if_pos more] at some_end
    exact Option.isSome_of_isSome_bind some_end
  | cons first input ih =>
    rw [List.mem_cons, not_or] at clean
    rw [List.cons_append, untilEOF, if_pos (Ne.symm clean.1)] at some_end
    rw [List.foldlM_cons] at consumed
    obtain ⟨middle, went, consumed⟩ := Option.bind_eq_some_iff.mp consumed
    rw [went] at some_end
    exact ih clean.2 consumed some_end

/-- What the right program has got is the beginning of what the left one prints. -/
theorem Flow.begins (flow : Flow slot ids body stream start left right s) :
    s.shared.2.input ++ ahead s.shared.2.phase (s.loc right).place ++
      (s.shared.1 slot).buffered ++ pending (s.loc left).place ++ s.shared.2.left.flatten =
      stream := by
  have fifo := flow.exact.fifo
  change s.shared.2.log.taken.map Prod.snd ++ (s.shared.1 slot).buffered =
    s.shared.2.log.put at fifo
  rw [flow.taken] at fifo
  rw [fifo]
  exact flow.written

/-- The descriptors that the shell passes on. -/
structure Joined (slot : Nat) (stdout stdin : Int) : Prop where
  range : 0 < slot ∧ slot < 14
  stdout : stdout = Plumbing.descriptor slot
  stdin : stdin = Plumbing.descriptor slot

theorem Joined.targets (joined : Joined slot stdout stdin) :
    writeTarget 1 0 stdout = .pipe (Plumbing.descriptor slot) ∧
      readTarget 0 stdin = .pipe (Plumbing.descriptor slot) := by
  obtain ⟨⟨low, high⟩, rfl, rfl⟩ := joined
  interval_cases slot
  all_goals exact ⟨by decide, by decide⟩

theorem Flow.leads (flow : Flow slot ids body stream start left right s) (range : slot < 14) :
    pipeSlot (Plumbing.descriptor slot) s.shared.1 = some slot := by
  have isOpen : (s.shared.1 slot).isOpen = true := flow.exact.tokens.isOpen
  rw [Plumbing.pipeSlot_descriptor isOpen, if_pos range]

/-- A call begins. -/
theorem transferProgram_isSome {request : PipeRequest} {l : PipePlace} {pipes : Nat → Pipe}
    (stays : request.clears = false) (leads : pipeSlot request.id pipes = some slot)
    (idle : l.idle = true) : (transferProgram slot request l pipes log).isSome = true := by
  have enters : (enterPipe slot request pipes log).isSome = true := by
    unfold enterPipe
    rw [if_pos leads]
    cases request with
    | clear _ => cases stays
    | read _ buffer size =>
      cases buffer with
      | none => rfl
      | some _ =>
        dsimp only
        split <;> rfl
    | write _ buffer size =>
      cases buffer with
      | none => rfl
      | some _ =>
        dsimp only
        split <;> rfl
  rw [transferProgram_idle stays idle]
  exact enters

theorem transfer_isSome {request : PipeRequest} {l : PipePlace} {pipes : Nat → Pipe}
    (does : (transferProgram slot request l pipes log).isSome = true) {here : Place}
    (place : here.place = l) {d : Traffic} (same : d.log = log) :
    (transfer slot request here pipes d).isSome = true := by
  unfold transfer
  rw [Option.isSome_map, place, same]
  exact does

/-- A call that is not over has a next step. -/
theorem goOn_isSome {reads : Bool} {stage : Stage} {call : Transfer} {here : Place}
    {pipes : Nat → Pipe} (place : here.place = .running reads stage call) :
    (goOn slot here pipes d).isSome = true := by
  unfold goOn
  rw [place, if_neg (by nofun)]
  refine transfer_isSome ?_ place rfl
  cases reads with
  | true => rfl
  | false => rfl

theorem Flow.left_goes (flow : Flow slot ids body stream start left right s)
    (joined : Joined slot stdout stdin)
    (more : (s.loc left).place.idle = false ∨ s.shared.2.left ≠ []) (c : Nat → UInt8) :
    (program slot stdout stdin body c (s.loc left) s.shared.1 s.shared.2).isSome = true := by
  have side := flow.sides.left.mpr rfl
  have writing := flow.writing
  unfold program
  rw [side]
  unfold leftProgram
  cases idle : (s.loc left).place.idle with
  | false =>
    cases place : (s.loc left).place with
    | running reads stage call => exact goOn_isSome place
    | clearing _ =>
      rw [place] at writing
      cases writing
    | outside =>
      rw [place] at idle
      cases idle
    | returned _ _ _ =>
      rw [place] at idle
      cases idle
    | refused _ =>
      rw [place] at idle
      cases idle
  | true =>
    cases texts : s.shared.2.left with
    | nil =>
      rcases more with busy | more
      · cases idle.symm.trans busy
      · exact absurd texts more
    | cons text rest =>
      dsimp only
      unfold printing
      rw [joined.targets.1]
      refine transfer_isSome (transferProgram_isSome rfl ?_ idle) rfl rfl
      exact flow.leads joined.range.2

theorem Flow.right_goes (flow : Flow slot ids body stream start left right s)
    (joined : Joined slot stdout stdin) (runs : (untilEOF body stream start).isSome = true)
    (more : s.shared.2.phase ≠ .ended) (c : Nat → UInt8) :
    (program slot stdout stdin body c (s.loc right) s.shared.1 s.shared.2).isSome = true := by
  have side := flow.sides.right.mpr rfl
  have reading := flow.reading
  unfold program
  rw [side]
  unfold rightProgram
  cases phase : s.shared.2.phase with
  | ended => exact absurd phase more
  | asking =>
    rw [phase] at reading
    change (s.loc right).place.idle = true at reading
    dsimp only
    rw [if_pos reading]
    unfold getting
    rw [joined.targets.2]
    refine transfer_isSome (transferProgram_isSome rfl ?_ reading) rfl rfl
    exact flow.leads joined.range.2
  | waiting =>
    rw [phase] at reading
    change Reading (s.loc right).place at reading
    dsimp only
    cases place : (s.loc right).place with
    | running reads stage call => exact goOn_isSome place
    | outside =>
      rw [place] at reading
      cases reading
    | clearing _ =>
      rw [place] at reading
      cases reading
    | refused _ =>
      rw [place] at reading
      cases reading
    | returned reads call result =>
      rw [place] at reading
      obtain ⟨rfl, _⟩ := reading
      dsimp only
      split
      · rename_i more
        rw [Option.isSome_map]
        have begins := flow.begins
        have got := (flow.got phase place).2
        rw [flow.taken, List.append_cancel_left_eq] at got
        rw [got] at begins
        simp only [List.append_assoc, List.singleton_append] at begins
        rw [← begins] at runs
        exact untilEOF_isSome flow.clean flow.consumed runs more
      · rfl

/-! ## How much is left to do -/

/-- The steps that a stage has behind it. -/
def stepsDone : Stage → Nat
  | .loop => 0
  | .admitted => 1
  | .locked => 2
  | .unlocking => 3
  | .signalling => 4

/-- The steps that a call has before it. -/
def callWork : PipePlace → Nat
  | .running _ stage call => 5 * (call.size.toNat - call.i) + 1 - stepsDone stage
  | .outside | .clearing _ | .returned _ _ _ | .refused _ => 0

def leftWork (l : PipePlace) (left : List (List UInt8)) : Nat :=
  callWork l + (left.map fun text => 5 * text.length + 2).sum

/-- `size` is the length of the stream. -/
def rightWork (size : Nat) (l : PipePlace) (phase : Phase) (input : List UInt8) : Nat :=
  match phase with
  | .asking => 8 * (size + 1 - input.length)
  | .waiting => 8 * (size - input.length) + 1 + callWork l
  | .ended => 0

/-- The steps that the two programs can still take. -/
def work (size : Nat) (left right : Int) (loc : Int → Place) (d : Traffic) : Nat :=
  leftWork (loc left).place d.left + rightWork size (loc right).place d.phase d.input

/-- Each step of a call is one less. -/
theorem callWork_move (move : PipeMove ids pipe log l c l' pipe' log') (busy : l.idle = false)
    (keeps : ∀ stage, l ≠ .clearing stage) (counted : l.Counted) :
    callWork l' + 1 ≤ callWork l := by
  cases move with
  | enters idle _ => rw [idle] at busy; cases busy
  | refuses idle _ => rw [idle] at busy; cases busy
  | clears idle => rw [idle] at busy; cases busy
  | clearLocks => exact absurd rfl (keeps _)
  | clearResets => exact absurd rfl (keeps _)
  | clearUnlocks => exact absurd rfl (keeps _)
  | returns _ =>
    simp only [callWork, stepsDone]
    omega
  | admits more =>
    simp only [callWork, stepsDone]
    omega
  | locks =>
    obtain ⟨_, more⟩ := counted
    simp only [callWork, stepsDone]
    omega
  | takes _ =>
    obtain ⟨_, more⟩ := counted
    simp only [callWork, stepsDone]
    omega
  | misses _ =>
    obtain ⟨_, more⟩ := counted
    simp only [callWork, stepsDone]
    omega
  | puts _ =>
    obtain ⟨_, more⟩ := counted
    simp only [callWork, stepsDone]
    omega
  | overflows _ =>
    obtain ⟨_, more⟩ := counted
    simp only [callWork, stepsDone]
    omega
  | unlocks =>
    obtain ⟨_, more⟩ := counted
    simp only [callWork, stepsDone]
    omega
  | signals =>
    obtain ⟨_, more⟩ := counted
    simp only [callWork, stepsDone]
    omega

/-- A call begins with the steps for its bytes. -/
theorem callWork_enters {request : PipeRequest} (stays : request.clears = false)
    (idle : l.idle = true)
    (does : transferProgram slot request l pipes log = some (deed, l', log')) :
    callWork l' ≤ match request with
      | .read _ _ size | .write _ _ size => 5 * size.toNat + 1
      | .clear _ => 0 := by
  rw [transferProgram_idle stays idle] at does
  unfold enterPipe at does
  split at does
  · split at does
    · cases does
      exact Nat.zero_le _
    · cases does
      exact Nat.zero_le _
    · split at does
      · cases does
        exact Nat.zero_le _
      · cases does
        exact Nat.le_refl _
    · split at does
      · cases does
        exact Nat.zero_le _
      · cases does
        exact Nat.le_refl _
    · cases stays
  · cases does

theorem Flow.work_turn (flow : Flow slot ids body stream start left right s)
    (distinct : ids.Distinct) (orderly : s.sems.Orderly) (awake : ¬ s.sems.Sleeps p)
    (goes : Goes slot stdout stdin body buffer (s.loc p) s.shared.1 s.shared.2 deed after d') :
    1 + work stream.length left right (Function.update s.loc p after) d' ≤
      work stream.length left right s.loc s.shared.2 := by
  have apart := flow.sides.apart
  have stays : ∀ {place : Place}, Function.update s.loc left place right = s.loc right ∧
      Function.update s.loc right place left = s.loc left :=
    ⟨Function.update_of_ne apart.symm _ _, Function.update_of_ne apart _ _⟩
  unfold work
  cases goes with
  | @inside side deed place log here busy phase does =>
    obtain ⟨move, _⟩ := flow.moves distinct orderly awake does
    have less := callWork_move move busy (flow.exact.keeps p) (flow.exact.counted p)
    cases side with
    | left =>
      obtain rfl := flow.sides.left.mp here
      rw [Function.update_self, stays.1]
      unfold leftWork
      dsimp only
      omega
    | right =>
      obtain rfl := flow.sides.right.mp here
      rw [Function.update_self, stays.2, phase rfl]
      unfold rightWork
      dsimp only
      omega
  | @prints text rest request deed place log here idle texts printed does =>
    obtain rfl := flow.sides.left.mp here
    have fewer : callWork place ≤ 5 * text.length + 1 := by
      unfold printing at printed
      split at printed
      · cases printed
        exact callWork_enters rfl idle does
      · cases printed
      · cases printed
    rw [Function.update_self, stays.1, texts]
    unfold leftWork
    rw [List.map_cons, List.sum_cons]
    dsimp only
    omega
  | @asks request deed place log here idle phase got does =>
    obtain rfl := flow.sides.right.mp here
    have fewer : callWork place ≤ 6 := by
      unfold getting at got
      split at got
      · cases got
        exact callWork_enters rfl idle does
      · cases got
      · cases got
    have inside := congrArg List.length flow.begins
    simp only [List.length_append] at inside
    rw [Function.update_self, stays.2, phase]
    unfold rightWork
    dsimp only
    omega
  | @gets call result state here phase place more went =>
    obtain rfl := flow.sides.right.mp here
    rw [Function.update_eq_self, phase]
    unfold rightWork
    rw [List.length_append, List.length_singleton]
    dsimp only
    omega
  | @ends call result here phase place ended =>
    obtain rfl := flow.sides.right.mp here
    rw [Function.update_eq_self, phase]
    unfold rightWork
    dsimp only
    omega

/-! ## On the kernel -/

/-- The steps of the programs in a run. -/
def turns {Χ : Type} : Act Χ → Nat
  | .turn _ _ => 1
  | .event _ => 0

/-- At the start neither is in a call. -/
def placed (left right : Int) (p : Int) : Place :=
  ⟨if p = left then some .left else if p = right then some .right else none, .outside⟩

section
variable {M : Type} {first last : Clients M Place Traffic} {acts : List (Act (Nat → UInt8))}
variable {texts : List (List UInt8)}

/-- The shell has opened the pipe, and the two programs are about to begin. -/
structure Ready (slot : Nat) (texts : List (List UInt8)) (start : Reader) (left right : Int)
    [MemoryManager M] (s : Clients M Place Traffic) : Prop where
  reached : PipeReached s.system
  fresh : FreshPipe slot s.system.kernel
  range : 0 < slot ∧ slot < 14
  apart : left ≠ right
  loc : s.loc = placed left right
  shared : s.shared = ⟨.empty, texts, .asking, start, []⟩

/-- What the left program prints is, in this order, what the right one has got, what is on the
way and what is still to print. Until the right one has read the end of file one of the two goes
on, and then it is in the state in which its loop ends on all that was printed. -/
structure Delivers (slot : Nat) (body : UInt8 → Reader → Option Reader)
    (texts : List (List UInt8)) (start : Reader) (left right : Int)
    (s : Clients M Place Traffic) : Prop where
  conserved : s.shared.input ++ ahead s.shared.phase (s.loc right).place ++
    (s.system.kernel.pipes slot).buffered ++ pending (s.loc left).place ++
    s.shared.left.flatten = texts.flatten
  consumed : s.shared.input.foldlM (fun r c => body c r) start = some s.shared.state
  ended : s.shared.phase = .ended → untilEOF body texts.flatten start = some s.shared.state
  goesOn : (untilEOF body texts.flatten start).isSome = true → s.shared.phase ≠ .ended →
    ∃ p, (p = left ∨ p = right) ∧
      (∀ id, (s.system.kernel.pipes slot).sems.own id → p ∉ s.system.kernel.sems.waiting id) ∧
      ∀ c, (program slot (Plumbing.descriptor slot) (Plumbing.descriptor slot) body c (s.loc p)
        s.system.kernel.pipes s.shared).isSome = true

theorem mem_of_untilEOF (runs : (untilEOF body stream start).isSome = true) : EOF ∈ stream := by
  induction stream generalizing start with
  | nil => cases runs
  | cons c stream ih =>
    by_cases ended : c = EOF
    · rw [ended]
      exact List.mem_cons_self
    · rw [untilEOF, if_pos ended] at runs
      obtain ⟨r, _, went⟩ := Option.bind_eq_some_iff.mp (Option.eq_some_of_isSome runs)
      have runs : (untilEOF body stream r).isSome = true := by
        rw [went]
        rfl
      exact List.mem_cons_of_mem c (ih runs)

/-- It is so in every state that meets the invariant. -/
theorem Piping.delivers {s : Clients M Place Traffic}
    (piping : Piping slot ids body texts.flatten start left right s.view)
    (orderly : s.system.kernel.sems.Orderly) (range : 0 < slot ∧ slot < 14) :
    Delivers slot body texts start left right s := by
  have flow := piping.flow
  have named : (s.system.kernel.pipes slot).sems = ids := flow.exact.tokens.named
  refine ⟨flow.begins, flow.consumed, ?_, ?_⟩
  · intro phase
    have begins := flow.begins
    change s.shared.input ++ ahead s.shared.phase _ ++ _ ++ _ ++ _ = _ at begins
    rw [phase] at begins
    change s.shared.input ++ [EOF] ++ _ ++ _ ++ _ = _ at begins
    simp only [List.append_assoc, List.cons_append] at begins
    have clean : EOF ∉ s.shared.input := flow.clean
    rw [← begins, untilEOF_append body clean]
    exact flow.consumed
  · intro runs more
    have joined : Joined slot (Plumbing.descriptor slot) (Plumbing.descriptor slot) :=
      ⟨range, rfl, rfl⟩
    rw [named]
    by_cases waits : Waits ids right s.view
    · refine ⟨left, .inl rfl, ?_, flow.left_goes joined ?_⟩
      · exact fun id mine member => piping.never_both orderly ⟨id, mine, member⟩ waits
      · by_contra finished
        rw [not_or, Bool.not_eq_false, not_not] at finished
        exact piping.never_vain orderly (mem_of_untilEOF runs) finished.1 finished.2 waits
    · refine ⟨right, .inr rfl, ?_, flow.right_goes joined runs more⟩
      exact fun id mine member => waits ⟨id, mine, member⟩

theorem texts_work : (texts.map fun text => 5 * text.length + 2).sum =
    5 * texts.flatten.length + 2 * texts.length := by
  induction texts with
  | nil => rfl
  | cons text texts ih =>
    rw [List.map_cons, List.sum_cons, ih, List.flatten_cons, List.length_append, List.length_cons]
    omega

variable [MemoryManager M]

theorem Ready.piping (ready : Ready slot texts start left right first) :
    Piping slot (first.system.kernel.pipes slot).sems body texts.flatten start left right
      first.view := by
  obtain ⟨_, fresh, _, apart, loc, shared⟩ := ready
  have place : ∀ p, (first.loc p).place = .outside := by
    intro p
    rw [loc]
    rfl
  have exact := fresh.exact (s := ⟨first.system, fun p => (first.loc p).place, first.shared.log⟩)
    place (by rw [shared])
  have quiet : ∀ {id value}, FreshSem value (first.system.kernel.semaphores id) →
      first.system.kernel.sems.waiting id = [] := fun fresh => fresh.waiting
  have outside : (first.view.loc left).place = .outside ∧
      (first.view.loc right).place = .outside := ⟨place left, place right⟩
  have start_shared : first.view.shared.2 = ⟨.empty, texts, .asking, start, []⟩ := shared
  refine ⟨⟨exact, ⟨?_, ?_, fun {p} _ => place p⟩, ?_, ?_, ?_, ?_, ?_, ?_⟩, ?_⟩
  · intro p
    change (first.loc p).side = _ ↔ _
    rw [loc]
    unfold placed
    by_cases same : p = left
    · simp [same]
    · by_cases other : p = right
      · simp [other, apart.symm]
      · simp [same, other]
  · intro p
    change (first.loc p).side = _ ↔ _
    rw [loc]
    unfold placed
    by_cases same : p = left
    · simp [same, apart]
    · by_cases other : p = right
      · simp [other, apart.symm]
      · simp [same, other]
  · rw [outside.1]
    trivial
  · rw [outside.1, start_shared]
    rfl
  · rw [outside.2, start_shared]
    rfl
  · rw [start_shared]
    rfl
  · rw [start_shared]
    nofun
  · rw [start_shared]
    rfl
  · refine ⟨?_, ?_, ?_⟩
    · intro q member
      change q ∈ first.system.kernel.sems.waiting
        (first.system.kernel.pipes slot).semReaders at member
      rw [quiet fresh.readers] at member
      cases member
    · intro q member
      change q ∈ first.system.kernel.sems.waiting
        (first.system.kernel.pipes slot).semWriters at member
      rw [quiet fresh.writers] at member
      cases member
    · intro q member
      change q ∈ first.system.kernel.sems.waiting (first.system.kernel.pipes slot).mutex at member
      rw [quiet fresh.mutex] at member
      cases member

/-- The invariant holds along every run, and each step of the two is one less to do. -/
theorem run_piping (reusable : NodesReusable M) (distinct : ids.Distinct)
    (serviced : Serviced ids.own first.system.kernel)
    (begins : Piping slot ids body stream start left right first.view)
    (run : Run (fun s act t => Clients.Step (program slot stdout stdin body) ids.own s act t ∧
      Clients.Fed (program slot stdout stdin body) act s) first acts last) :
    (Serviced ids.own last.system.kernel ∧
      Piping slot ids body stream start left right last.view) ∧
    (acts.map turns).sum + work stream.length left right last.loc last.shared ≤
      work stream.length left right first.loc first.shared := by
  refine run.spends (fun s => Serviced ids.own s.system.kernel ∧
    Piping slot ids body stream start left right s.view)
    (fun s => work stream.length left right s.loc s.shared) turns ?_ ⟨serviced, begins⟩
  rintro s act t ⟨serviced, piping⟩ ⟨step, fed⟩
  have tokens := piping.flow.exact.tokens
  have within : ∀ {choice p deed l d}, program slot stdout stdin body choice (s.loc p)
      s.system.kernel.pipes s.shared = some (deed, l, d) → deed.On ids.own := by
    intro choice p deed l d does
    rcases (program_goes does).calls (s := s.view) with ⟨rfl, _⟩ | ⟨request, place, log, does, _⟩
    · trivial
    · unfold transferProgram at does
      split at does
      · cases does
      · have named : (s.system.kernel.pipes slot).sems = ids := tokens.named
        rw [← named]
        exact (pipeProgram_moves does).2
  obtain ⟨next, follows⟩ := step.follows reusable within serviced fed
    fun id mine => tokens.bound mine
  refine ⟨⟨next, piping.step distinct serviced.orderly follows⟩, ?_⟩
  cases step with
  | event _ _ _ => exact Nat.le_of_eq (Nat.zero_add _)
  | turn _ _ does =>
    exact piping.flow.work_turn distinct serviced.orderly serviced.awake (program_goes does)

/-- The shell prints to a filter. -/
def joinedPipe : Clients Bump Place Traffic :=
  ⟨newPipe.system, placed 1 2, .empty, [[104, 105], [EOF]], .asking, Filters.fresh fun _ => 0, []⟩

/-- The filter waits, the other one prints everything, and the filter reads it. -/
def filtering : List (Act (Nat → UInt8)) :=
  List.replicate 2 (.event ⟨.call .yield, 100⟩) ++ List.replicate 2 (.turn (fun _ => 0) 200) ++
    List.replicate 19 (.turn (fun _ => 0) 100) ++ List.replicate 2 (.event ⟨.call .yield, 100⟩) ++
    List.replicate 22 (.turn (fun _ => 0) 200)

end

end SoKernel.Pipeline
