import SoKernel.Kernel.PipeOpening

namespace SoKernel
open MemoryManager QueueName Lib Kernel SoKernel.System

/-! ## The bytes of a pipe -/

/-- What is in the buffer, oldest first. -/
def Pipe.buffered (pipe : Pipe) : List UInt8 :=
  (List.range pipe.count).map fun j => pipe.buffer ((pipe.readIdx + j) % pipeBufferSize)

/-- What the call has filled of its buffer. -/
def Transfer.filled (call : Transfer) : List UInt8 := (List.range call.bytes).map call.buffer

/-- What one call has taken out, in order. -/
def PipeLog.takenBy (log : PipeLog) (ticket : Nat) : List UInt8 :=
  (log.taken.filter fun entry => entry.1 = ticket).map Prod.snd

/-- The bytes taken out, then those in the buffer, are the bytes put in. -/
def PipeLog.Fifo (log : PipeLog) (pipe : Pipe) : Prop :=
  log.taken.map Prod.snd ++ pipe.buffered = log.put

namespace PipePlace

def call : PipePlace → Option Transfer
  | .running _ _ call | .returned _ call _ => some call
  | .outside | .clearing _ | .refused _ => none

/-- The call, if it reads. -/
def reader : PipePlace → Option Transfer
  | .running true _ call | .returned true call _ => some call
  | .running false _ _ | .returned false _ _ | .outside | .clearing _ | .refused _ => none

/-- The counters of a call agree with its place. -/
def Counted : PipePlace → Prop
  | .running _ .loop call => call.bytes = call.i ∧ (call.i : Int) ≤ call.size
  | .running _ .admitted call | .running _ .locked call =>
    call.bytes = call.i ∧ (call.i : Int) < call.size
  | .running _ .unlocking call | .running _ .signalling call =>
    call.bytes = call.i + 1 ∧ (call.i : Int) < call.size
  | .returned _ call result => result = call.size ∧ (call.bytes : Int) = call.size
  | .refused request => request.Improper
  | .outside | .clearing _ => True

end PipePlace

variable {slot : Nat} {ids : PipeSems} {s t : PipeState} {p : Int} {c : Command Int}
variable {l l' : PipePlace} {d : (Nat → Pipe) × PipeLog} {pipe pipe' : Pipe} {log log' : PipeLog}
variable {loc : Int → PipePlace}

/-- The guards of a step hold. -/
structure PipeGuards (pipe : Pipe) (l : PipePlace) : Prop where
  readable : ∀ {call}, l = .running true .locked call → 0 < pipe.count
  writable : ∀ {call}, l = .running false .locked call → pipe.count < pipeBufferSize

/-! ## Each step -/

theorem PipeMove.counted (move : PipeMove ids pipe log l c l' pipe' log')
    (guarded : PipeGuards pipe l) (counted : l.Counted) : l'.Counted := by
  cases move with
  | enters _ some => exact ⟨rfl, Int.le_of_lt some⟩
  | refuses _ improper => exact improper
  | clears _ => trivial
  | admits more => exact ⟨counted.1, more⟩
  | returns done =>
    obtain ⟨same, below⟩ := counted
    have all := Int.le_antisymm below (Int.not_lt.mp done)
    rw [← same] at all
    exact ⟨all, all⟩
  | locks => exact counted
  | takes _ => exact ⟨congrArg (· + 1) counted.1, counted.2⟩
  | misses missing =>
    have none := Pipe.takeByte_eq_none missing
    have some := guarded.readable rfl
    omega
  | puts _ => exact ⟨congrArg (· + 1) counted.1, counted.2⟩
  | overflows missing =>
    have full := Pipe.putByte_eq_none missing
    have room := guarded.writable rfl
    omega
  | unlocks => exact counted
  | signals => exact ⟨counted.1, counted.2⟩
  | clearLocks => trivial
  | clearResets => trivial
  | clearUnlocks => trivial

theorem PipeMove.fifo (move : PipeMove ids pipe log l c l' pipe' log')
    (formed : pipe.ring.Formed pipeBufferSize) (keeps : l ≠ .clearing .locked)
    (fifo : log.Fifo pipe) : log'.Fifo pipe' := by
  cases move with
  | enters _ _ => exact fifo
  | refuses _ _ => exact fifo
  | clears _ => exact fifo
  | admits _ => exact fifo
  | returns _ => exact fifo
  | locks => exact fifo
  | @takes call byte after taken =>
    obtain ⟨some, front, ring, _, _⟩ := Pipe.takeByte_eq_some taken
    have order : pipe.buffered = byte :: pipe'.buffered := by
      have items := formed.items_take some
      rw [← front, ← ring] at items
      exact items
    unfold PipeLog.Fifo at fifo ⊢
    rw [order] at fifo
    rw [← fifo, List.map_append, List.append_assoc]
    rfl
  | misses _ => exact fifo
  | @puts call after put =>
    obtain ⟨room, ring, _, _⟩ := Pipe.putByte_eq_some put
    have order : pipe'.buffered = pipe.buffered ++ [call.buffer call.i] := by
      have items := formed.items_put (a := call.buffer call.i) room
      rw [← ring] at items
      exact items
    unfold PipeLog.Fifo at fifo ⊢
    rw [order, ← List.append_assoc]
    exact congrArg (· ++ [call.buffer call.i]) fifo
  | overflows _ => exact fifo
  | unlocks => exact fifo
  | signals => exact fifo
  | clearLocks => exact fifo
  | clearResets => exact absurd rfl keeps
  | clearUnlocks => exact fifo

/-! ## What each call has taken -/

/-- The calls have tickets of their own, and each reader has filled its buffer with what it
has taken. -/
structure Tickets (loc : Int → PipePlace) (log : PipeLog) : Prop where
  issued : ∀ {p call}, (loc p).call = some call → call.ticket < log.calls
  apart : ∀ {p q call other}, (loc p).call = some call → (loc q).call = some other →
    call.ticket = other.ticket → p = q
  tags : ∀ entry ∈ log.taken, entry.1 < log.calls
  filled : ∀ {p call}, (loc p).reader = some call → log.takenBy call.ticket = call.filled

theorem PipePlace.call_of_reader {call : Transfer} (reads : l.reader = some call) :
    l.call = some call := by
  cases l with
  | outside => cases reads
  | clearing _ => cases reads
  | refused _ => cases reads
  | running reader _ _ =>
    cases reader with
    | true => exact reads
    | false => cases reads
  | returned reader _ _ =>
    cases reader with
    | true => exact reads
    | false => cases reads

/-- A step that neither starts a call nor takes a byte. -/
theorem Tickets.keep (tickets : Tickets loc log) (same : log'.taken = log.taken)
    (calls : log'.calls = log.calls)
    (call : ∀ {after}, l.call = some after → ∃ before, (loc p).call = some before ∧
      after.ticket = before.ticket)
    (reader : ∀ {after}, l.reader = some after → ∃ before, (loc p).reader = some before ∧
      after.ticket = before.ticket ∧ after.filled = before.filled) :
    Tickets (Function.update loc p l) log' := by
  have before : ∀ {q after}, (Function.update loc p l q).call = some after →
      ∃ before, (loc q).call = some before ∧ after.ticket = before.ticket := by
    intro q after here
    rw [Function.update_apply] at here
    split at here
    · rename_i moved
      rw [moved]
      exact call here
    · exact ⟨after, here, rfl⟩
  constructor
  · intro q after here
    obtain ⟨old, there, ticket⟩ := before here
    rw [ticket, calls]
    exact tickets.issued there
  · intro q r after other first second equal
    obtain ⟨old, there, ticket⟩ := before first
    obtain ⟨old', there', ticket'⟩ := before second
    exact tickets.apart there there' (ticket.symm.trans (equal.trans ticket'))
  · intro entry member
    rw [same] at member
    rw [calls]
    exact tickets.tags entry member
  · intro q after here
    have taken : ∀ {ticket}, log'.takenBy ticket = log.takenBy ticket := by
      intro ticket
      unfold PipeLog.takenBy
      rw [same]
    rw [taken]
    rw [Function.update_apply] at here
    split at here
    · rename_i moved
      obtain ⟨old, there, ticket, bytes⟩ := reader here
      rw [ticket, bytes]
      exact tickets.filled there
    · exact tickets.filled here

/-- A call starts with a ticket of its own. -/
theorem Tickets.enter (tickets : Tickets loc log) {reads : Bool} {buffer : Nat → UInt8}
    {size : Int} : Tickets (Function.update loc p
      (.running reads .loop ⟨log.calls, buffer, size, 0, 0⟩)) { log with calls := log.calls + 1 } := by
  have cases_of : ∀ {q call}, (Function.update loc p
      (.running reads .loop ⟨log.calls, buffer, size, 0, 0⟩) q).call = some call →
      (q = p ∧ call.ticket = log.calls) ∨ (loc q).call = some call := by
    intro q call here
    rw [Function.update_apply] at here
    split at here
    · rename_i same
      cases here
      exact .inl ⟨same, rfl⟩
    · exact .inr here
  have older : ∀ {q call}, (loc q).call = some call → call.ticket ≠ log.calls := fun here =>
    Nat.ne_of_lt (tickets.issued here)
  constructor
  · intro q call here
    rcases cases_of here with ⟨_, new⟩ | old
    · rw [new]
      exact Nat.lt_succ_self log.calls
    · exact Nat.lt_succ_of_lt (tickets.issued old)
  · intro q r call other first second equal
    rcases cases_of first with ⟨here, new⟩ | old
    · rcases cases_of second with ⟨there, _⟩ | old'
      · rw [here, there]
      · exact absurd (equal.symm.trans new) (older old')
    · rcases cases_of second with ⟨_, new⟩ | old'
      · exact absurd (equal.trans new) (older old)
      · exact tickets.apart old old' equal
  · exact fun entry member => Nat.lt_succ_of_lt (tickets.tags entry member)
  · intro q call here
    rcases cases_of (PipePlace.call_of_reader here) with ⟨same, new⟩ | old
    · have nothing : log.takenBy log.calls = [] := by
        unfold PipeLog.takenBy
        have none : (log.taken.filter fun entry => entry.1 = log.calls) = [] := by
          apply List.filter_eq_nil_iff.mpr
          intro entry member mine
          exact absurd (of_decide_eq_true mine) (Nat.ne_of_lt (tickets.tags entry member))
        rw [none]
        rfl
      rw [same, Function.update_self] at here
      cases reads with
      | true =>
        cases here
        exact nothing
      | false => cases here
    · rw [Function.update_apply] at here
      split at here
      · cases reads with
        | true =>
          cases here
          exact absurd rfl (older old)
        | false => cases here
      · exact tickets.filled here

/-- A reader takes a byte. -/
theorem Tickets.take (tickets : Tickets loc log) {call : Transfer} {byte : UInt8}
    (place : loc p = .running true .locked call) (counted : call.bytes = call.i) :
    Tickets (Function.update loc p (.running true .unlocking { call with
        buffer := Function.update call.buffer call.i byte
        bytes := call.bytes + 1 })) { log with taken := log.taken ++ [(call.ticket, byte)] } := by
  have mine : (loc p).call = some call := by
    rw [place]
    rfl
  have mine' : (loc p).reader = some call := by
    rw [place]
    rfl
  have before : ∀ {q after}, (Function.update loc p (.running true .unlocking { call with
      buffer := Function.update call.buffer call.i byte
      bytes := call.bytes + 1 }) q).call = some after →
      ∃ before, (loc q).call = some before ∧ after.ticket = before.ticket := by
    intro q after here
    rw [Function.update_apply] at here
    split at here
    · rename_i same
      cases here
      rw [same]
      exact ⟨call, mine, rfl⟩
    · exact ⟨after, here, rfl⟩
  have taken : ∀ ticket, PipeLog.takenBy { log with taken := log.taken ++ [(call.ticket, byte)] }
      ticket = log.takenBy ticket ++ if call.ticket = ticket then [byte] else [] := by
    intro ticket
    unfold PipeLog.takenBy
    rw [List.filter_append, List.map_append]
    congr 1
    by_cases same : call.ticket = ticket
    · simp [same]
    · simp [same]
  constructor
  · intro q after here
    obtain ⟨old, there, ticket⟩ := before here
    rw [ticket]
    exact tickets.issued there
  · intro q r after other first second equal
    obtain ⟨old, there, ticket⟩ := before first
    obtain ⟨old', there', ticket'⟩ := before second
    exact tickets.apart there there' (ticket.symm.trans (equal.trans ticket'))
  · intro entry member
    rcases List.mem_append.mp member with old | new
    · exact tickets.tags entry old
    · rw [List.mem_singleton.mp new]
      exact tickets.issued mine
  · intro q after here
    rw [taken]
    rw [Function.update_apply] at here
    split at here
    · cases here
      rw [if_pos rfl, tickets.filled mine']
      unfold Transfer.filled
      rw [List.range_succ, List.map_append, List.map_singleton, counted]
      dsimp only
      rw [Function.update_self]
      congr 1
      apply List.map_congr_left
      intro j member
      exact (Function.update_of_ne (Nat.ne_of_lt (List.mem_range.mp member)) _ _).symm
    · rename_i other
      have apart : call.ticket ≠ after.ticket := fun equal =>
        other (tickets.apart (PipePlace.call_of_reader here) mine equal.symm)
      rw [if_neg apart, List.append_nil]
      exact tickets.filled here

theorem PipeMove.tickets (move : PipeMove ids pipe log (loc p) c l' pipe' log')
    (guarded : PipeGuards pipe (loc p)) (counted : (loc p).Counted) (tickets : Tickets loc log) :
    Tickets (Function.update loc p l') log' := by
  have quiet : l'.call = none → l'.reader = none → Tickets (Function.update loc p l') log := by
    intro call reader
    refine tickets.keep rfl rfl ?_ ?_
    · intro after here
      rw [call] at here
      cases here
    · intro after here
      rw [reader] at here
      cases here
  have goes : ∀ {reads stage call}, loc p = .running reads stage call →
      l'.call = some call → l'.reader = (if reads then some call else none) →
      Tickets (Function.update loc p l') log := by
    intro reads stage call place same reader
    refine tickets.keep rfl rfl ?_ ?_
    · intro after here
      rw [same] at here
      cases here
      rw [place]
      exact ⟨call, rfl, rfl⟩
    · intro after here
      rw [reader] at here
      cases reads with
      | true =>
        cases here
        rw [place]
        exact ⟨call, rfl, rfl, rfl⟩
      | false => cases here
  have reader_of : ∀ {reads stage call}, (PipePlace.running reads stage call).reader =
      if reads then some call else none := by
    intro reads stage call
    cases reads with
    | true => rfl
    | false => rfl
  generalize place : loc p = l at move guarded counted
  cases move with
  | enters _ _ => exact tickets.enter
  | refuses _ _ => exact quiet rfl rfl
  | clears _ => exact quiet rfl rfl
  | admits _ => exact goes place rfl reader_of
  | @returns reads call _ =>
    apply goes place rfl
    cases reads with
    | true => rfl
    | false => rfl
  | locks => exact goes place rfl reader_of
  | takes _ => exact tickets.take place counted.1
  | misses _ => exact goes place rfl reader_of
  | @puts call after _ =>
    refine tickets.keep rfl rfl ?_ ?_
    · intro after here
      cases here
      rw [place]
      exact ⟨call, rfl, rfl⟩
    · intro after here
      cases here
  | overflows _ => exact goes place rfl reader_of
  | unlocks => exact goes place rfl reader_of
  | @signals reads call =>
    refine tickets.keep rfl rfl ?_ ?_
    · intro after here
      cases here
      rw [place]
      exact ⟨call, rfl, rfl⟩
    · intro after here
      rw [reader_of] at here
      cases reads with
      | true =>
        cases here
        rw [place]
        exact ⟨call, rfl, rfl, rfl⟩
      | false => cases here
  | clearLocks => exact quiet rfl rfl
  | clearResets => exact quiet rfl rfl
  | clearUnlocks => exact quiet rfl rfl

/-! ## Runs without a clear -/

/-- The invariant: the tokens are those of the bytes in the buffer, which follow in order on
the bytes taken out. -/
structure PipeExact (slot : Nat) (ids : PipeSems) (s : PipeState) : Prop where
  tokens : PipeTokens slot ids 0 s
  keeps : ∀ p stage, s.loc p ≠ .clearing stage
  fifo : s.shared.2.Fifo (s.shared.1 slot)
  counted : ∀ p, (s.loc p).Counted
  tickets : Tickets s.loc s.shared.2

/-- Without stale tokens the inner guards always hold. -/
theorem PipeExact.guards (exact : PipeExact slot ids s) (awake : ¬ s.sems.Sleeps p) :
    PipeGuards (s.shared.1 slot) (s.loc p) where
  readable := by
    intro call place
    have some := exact.tokens.readable awake (by rw [place]; rfl)
    exact some
  writable := by
    intro call place
    have room := exact.tokens.writable awake (by rw [place]; rfl)
    exact room

theorem transferProgram_does (does : (transferProgram slot).Does l s.shared c l' d) :
    PipeMove (s.shared.1 slot).sems (s.shared.1 slot) s.shared.2 l c l' (d.1 slot) d.2 ∧
      ((∀ stage, l ≠ .clearing stage) → ∀ stage, l' ≠ .clearing stage) := by
  obtain ⟨request, deed, does, same, after⟩ := does
  unfold transferProgram at does
  split at does
  · cases does
  · rename_i stays
    have move := pipeProgram_does ⟨request, deed, does, same, after⟩
    refine ⟨move, ?_⟩
    intro out stage there
    subst there
    generalize d.1 slot = pipe at move
    generalize d.2 = log at move does
    cases move with
    | clears idle =>
      have enters : enterPipe slot request s.shared.1 s.shared.2 =
          some (deed, .clearing .loop, s.shared.2) := by
        cases l with
        | outside => exact does
        | returned _ _ _ => exact does
        | refused _ => exact does
        | running _ _ _ => cases idle
        | clearing _ => cases idle
      unfold enterPipe at enters
      split at enters
      · split at enters
        · cases enters
        · cases enters
        · split at enters <;> cases enters
        · split at enters <;> cases enters
        · exact stays rfl
      · cases enters
    | clearLocks => exact out _ rfl
    | clearResets => exact out _ rfl

theorem PipeExact.step (exact : PipeExact slot ids s) (distinct : ids.Distinct)
    (orderly : s.sems.Orderly)
    (step : Parties.Step (transferProgram slot).Does ids.own s t) : PipeExact slot ids t := by
  cases step with
  | others _ same =>
    exact ⟨exact.tokens.others same, exact.keeps, exact.fifo, exact.counted, exact.tickets⟩
  | @turn p c l d awake does =>
    obtain ⟨move, stays⟩ := transferProgram_does does
    rw [exact.tokens.named] at move
    have guards := exact.guards awake
    obtain ⟨stale, tokens, fewer⟩ := exact.tokens.move distinct orderly awake move
    have none : stale = 0 := by
      rcases fewer with clears | fewer
      · exact absurd clears (exact.keeps p _)
      · exact Nat.le_zero.mp fewer
    subst none
    refine ⟨tokens, ?_, move.fifo exact.tokens.formed (exact.keeps p _) exact.fifo, ?_,
      move.tickets guards (exact.counted p) exact.tickets⟩
    · intro q stage
      change Function.update s.loc p l q ≠ _
      rw [Function.update_apply]
      split
      · exact stays (exact.keeps p) stage
      · exact exact.keeps q stage
    · intro q
      change (Function.update s.loc p l q).Counted
      rw [Function.update_apply]
      split
      · exact move.counted guards (exact.counted p)
      · exact exact.counted q

/-! ## The claim on the kernel -/

section
variable {M : Type} {k : Kernel M} {s : Clients M PipePlace PipeLog}

instance (ids : PipeSems) : DecidablePred ids.own := fun _ => inferInstanceAs (Decidable (_ ∨ _))

theorem FreshPipe.exact (fresh : FreshPipe slot s.system.kernel) (outside : ∀ p, s.loc p = .outside)
    (log : s.shared = .empty) :
    PipeExact slot (s.system.kernel.pipes slot).sems s.view := by
  have nobody : ∀ {held : PipePlace → Bool}, held .outside = false →
      ∀ p, held (s.loc p) = false := by
    intro held out p
    rw [outside]
    exact out
  have empty : (s.system.kernel.pipes slot).buffered = [] := by
    unfold Pipe.buffered
    rw [fresh.count]
    rfl
  have noCall : ∀ p, (s.loc p).call = none := by
    intro p
    rw [outside]
    rfl
  refine ⟨⟨fresh.isOpen, rfl, ?_, ?_, ?_, ?_, ?_⟩, ?_, ?_, ?_, ?_⟩
  · refine ⟨?_, ?_, ?_⟩
    · change (s.system.kernel.pipes slot).count ≤ _
      rw [fresh.count]
      exact Nat.zero_le _
    · change (s.system.kernel.pipes slot).readIdx < _
      rw [fresh.indices.1]
      decide
    · change (s.system.kernel.pipes slot).writeIdx = ((s.system.kernel.pipes slot).readIdx +
        (s.system.kernel.pipes slot).count) % _
      rw [fresh.indices.1, fresh.indices.2, fresh.count]
      rfl
  · change (s.system.kernel.pipes slot).count + 0 ≤ _
    rw [fresh.count]
    exact Nat.zero_le _
  · refine .start ?_ fresh.readers.waiting (nobody rfl)
    change (s.system.kernel.semaphores _).value = (s.system.kernel.pipes slot).count + 0
    rw [fresh.count]
    exact fresh.readers.value
  · refine .start ?_ fresh.writers.waiting (nobody rfl)
    change (s.system.kernel.semaphores _).value =
      pipeBufferSize - ((s.system.kernel.pipes slot).count + 0)
    rw [fresh.count]
    exact fresh.writers.value
  · exact .start fresh.mutex.value fresh.mutex.waiting (nobody rfl)
  · intro p stage here
    change s.loc p = _ at here
    rw [outside] at here
    cases here
  · change s.shared.Fifo (s.system.kernel.pipes slot)
    unfold PipeLog.Fifo
    rw [log, empty]
    rfl
  · intro p
    change (s.loc p).Counted
    rw [outside]
    trivial
  · change Tickets s.loc s.shared
    rw [log]
    constructor
    · intro p call here
      rw [noCall] at here
      cases here
    · intro p q call other here
      rw [noCall] at here
      cases here
    · exact fun entry never => nomatch never
    · intro p call here
      have never := PipePlace.call_of_reader here
      rw [noCall] at never
      cases never

/-- What holds of a pipe at any time: the bytes come out in the order in which they went in,
and a call returns once it has moved all its bytes. -/
structure PipeFifo (slot : Nat) (s : Clients M PipePlace PipeLog) : Prop where
  count : (s.system.kernel.pipes slot).count ≤ pipeBufferSize
  writeIdx : (s.system.kernel.pipes slot).writeIdx = ((s.system.kernel.pipes slot).readIdx +
    (s.system.kernel.pipes slot).count) % pipeBufferSize
  readable : UserRuns s.system.kernel → ∀ {call},
    s.loc s.system.kernel.getCurrentPid = .running true .locked call →
    0 < (s.system.kernel.pipes slot).count
  writable : UserRuns s.system.kernel → ∀ {call},
    s.loc s.system.kernel.getCurrentPid = .running false .locked call →
    (s.system.kernel.pipes slot).count < pipeBufferSize
  order : s.shared.taken.map Prod.snd ++ (s.system.kernel.pipes slot).buffered = s.shared.put
  filled : ∀ {p call}, (s.loc p).reader = some call →
    s.shared.takenBy call.ticket = call.filled
  complete : ∀ {p reads call result}, s.loc p = .returned reads call result →
    result = call.size ∧ (call.bytes : Int) = call.size
  refused : ∀ {p request}, s.loc p = .refused request → request.Improper

variable [MemoryManager M] {first last : Clients M PipePlace PipeLog}
variable {acts : List (Act PipeRequest)}

omit [MemoryManager M] in
theorem PipeExact.fifo_of_serviced (exact : PipeExact slot ids s.view)
    (serviced : Serviced ids.own s.system.kernel) : PipeFifo slot s := by
  have guards : UserRuns s.system.kernel → PipeGuards (s.system.kernel.pipes slot)
      (s.loc s.system.kernel.getCurrentPid) := by
    intro runs
    have table := serviced.settled.table
    have awake := serviced.lists.awake table (runs.ready serviced.settled) (by decide)
    rw [← table.getCurrentPid] at awake
    exact exact.guards awake
  have counted : ∀ p, (s.loc p).Counted := exact.counted
  refine ⟨exact.tokens.formed.count, exact.tokens.formed.writeIdx,
    fun runs _ => (guards runs).readable, fun runs _ => (guards runs).writable, exact.fifo,
    exact.tickets.filled, ?_, ?_⟩
  · intro p reads call result place
    have here := counted p
    rw [place] at here
    exact here
  · intro p request place
    have here := counted p
    rw [place] at here
    exact here

/-- From a fresh pipe, in a kernel in order, the bytes stay in order. -/
theorem run_pipeExact (reusable : NodesReusable M) (distinct : ids.Distinct)
    (serviced : Serviced ids.own first.system.kernel) (start : PipeExact slot ids first.view)
    (run : Run (fun s act t => Clients.Step (transferProgram slot) ids.own s act t ∧
      Clients.Fed (transferProgram slot) act s) first acts last) :
    Serviced ids.own last.system.kernel ∧ PipeExact slot ids last.view := by
  refine Clients.run_preserves (PipeExact slot ids) run reusable ?_ ?_ ?_ serviced start
  · intro s exact request p deed l d does
    unfold transferProgram at does
    split at does
    · cases does
    · have on := (pipeProgram_moves does).2
      rw [exact.tokens.named] at on
      exact on
  · exact fun exact id mine => exact.tokens.bound mine
  · exact fun exact orderly step => exact.step distinct orderly step

/-- The pipe at `slot` has just been opened, and no process is in a call on it. -/
structure PipeReady (slot : Nat) (s : Clients M PipePlace PipeLog) : Prop where
  reached : PipeReached s.system
  fresh : FreshPipe slot s.system.kernel
  outside : ∀ p, s.loc p = .outside
  log : s.shared = .empty

omit [MemoryManager M] in
theorem FreshPipe.opened (fresh : FreshPipe slot k) : ∀ id, (k.pipes slot).sems.own id →
    (k.semaphores id).used = true ∧ (k.semaphores id).blocked ≠ none := by
  have listed : ∀ {value sem}, FreshSem value sem → sem.used = true ∧ sem.blocked ≠ none := by
    intro value sem fresh
    refine ⟨fresh.used, ?_⟩
    rw [fresh.listed]
    exact Option.some_ne_none _
  rintro id (rfl | rfl | rfl)
  · exact listed fresh.readers
  · exact listed fresh.writers
  · exact listed fresh.mutex

/-- Whatever processes read and write, the bytes of the pipe come out in order. -/
theorem pipe_fifo (succeeds : AllocSucceeds M) (ready : PipeReady slot first)
    (run : Run (Clients.Step (transferProgram slot) (first.system.kernel.pipes slot).sems.own)
      first acts last) : PipeFifo slot last := by
  have fresh := ready.fresh
  have reusable := succeeds.nodesReusable
  obtain ⟨settled, lists, eager, _⟩ := ready.reached.serviced reusable
  obtain ⟨serviced, exact⟩ := run_pipeExact reusable fresh.distinct
    ⟨settled, lists, eager, fresh.opened⟩ (fresh.exact ready.outside ready.log)
    (run.mono fun step => ⟨step, Clients.fed_of_succeeds succeeds⟩)
  exact exact.fifo_of_serviced serviced

/-- A second process for the reader. -/
def pipeOpening : List Label :=
  [⟨.timerTick, 0⟩, ⟨.call (.createProcess ⟨some "reader", 3, [], 0, true, 0, 1⟩), 100⟩]

/-- The running process has opened a pipe; its id is 3. -/
def newPipe : Clients Bump PipePlace PipeLog :=
  let s := (System.exec pipeOpening (started Bump.kernel)).get (by decide +kernel)
  ⟨{ s with kernel := (createPipe s.kernel).2 }, fun _ => .outside, .empty⟩

theorem newPipe_ready : PipeReady 1 newPipe := by
  have opened := System.run_of_exec (Option.some_get (show (System.exec pipeOpening
    (started Bump.kernel)).isSome = true by decide +kernel)).symm
  refine ⟨.createPipe (.reached (Clients.reached_of_sparing Bump.nodesReusable Bump.booted opened
    ?_)), ?_, fun _ => rfl, rfl⟩
  · intro label member k
    simp only [pipeOpening, List.mem_cons, List.not_mem_nil, or_false] at member
    rcases member with rfl | rfl
    · trivial
    · trivial
  · refine ⟨?_, ⟨?_, ?_⟩, ?_, ⟨?_, ?_, ?_⟩, ⟨?_, ?_, ?_⟩, ⟨?_, ?_, ?_⟩, ⟨?_, ?_, ?_⟩⟩
    all_goals decide +kernel

/-- The reader waits for two bytes, the shell writes them, and the reader goes on. -/
def pipeTraffic : List (Act PipeRequest) :=
  .event ⟨.call .yield, 100⟩ :: List.replicate 2 (.turn (.read 3 (some fun _ => 0) 2) 200) ++
    (List.replicate 12 (.turn (.write 3 (some fun i => .ofNat (i + 7)) 2) 100) ++
      List.replicate 2 (.event ⟨.call .yield, 100⟩) ++
      List.replicate 10 (.turn (.read 3 (some fun _ => 0) 2) 200))

theorem pipe_fifo_blocking : ∃ last : Clients Bump PipePlace PipeLog,
    Run (Clients.Step (transferProgram 1) (newPipe.system.kernel.pipes 1).sems.own)
      newPipe pipeTraffic last ∧ PipeFifo 1 last := by
  have run := Clients.run_of_exec (Option.some_get (show (Clients.exec (transferProgram 1)
    (newPipe.system.kernel.pipes 1).sems.own pipeTraffic newPipe).isSome = true by
      decide +kernel)).symm
  exact ⟨_, run, pipe_fifo Bump.allocSucceeds newPipe_ready run⟩

end
end SoKernel
