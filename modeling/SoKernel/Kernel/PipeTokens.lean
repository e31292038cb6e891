import SoKernel.Kernel.PipeCalls

namespace SoKernel
open MemoryManager QueueName Lib Kernel

/-! ## The tokens of a pipe -/

/-- The three semaphores of a pipe. -/
structure PipeSems where
  readers : Int
  writers : Int
  mutex : Int

namespace PipeSems

def own (sems : PipeSems) (id : Int) : Prop :=
  id = sems.readers ∨ id = sems.writers ∨ id = sems.mutex

/-- What a reader, or a writer, waits for, and what it posts in the end. -/
def first (sems : PipeSems) (reads : Bool) : Int := if reads then sems.readers else sems.writers

def last (sems : PipeSems) (reads : Bool) : Int := if reads then sems.writers else sems.readers

structure Distinct (sems : PipeSems) : Prop where
  readersWriters : sems.readers ≠ sems.writers
  readersMutex : sems.readers ≠ sems.mutex
  writersMutex : sems.writers ≠ sems.mutex

end PipeSems

def Pipe.sems (pipe : Pipe) : PipeSems := ⟨pipe.semReaders, pipe.semWriters, pipe.mutex⟩

def Pipe.ring (pipe : Pipe) : Lib.Ring UInt8 :=
  ⟨pipe.buffer, pipe.readIdx, pipe.writeIdx, pipe.count⟩

namespace Stage

/-- It has taken a token and moved no byte. -/
def enters : Stage → Bool
  | .admitted | .locked => true
  | .loop | .unlocking | .signalling => false

/-- It has moved a byte and has not posted. -/
def leaves : Stage → Bool
  | .unlocking | .signalling => true
  | .loop | .admitted | .locked => false

def locks : Stage → Bool
  | .locked | .unlocking => true
  | .loop | .admitted | .signalling => false

end Stage

namespace PipePlace

/-- A token of the readers, taken with no byte yet or to be posted for a byte. -/
def holdsByte : PipePlace → Bool
  | .running reads stage _ => if reads then stage.enters else stage.leaves
  | .outside | .clearing _ | .returned _ _ _ | .refused _ => false

/-- A token of the writers. -/
def holdsRoom : PipePlace → Bool
  | .running reads stage _ => if reads then stage.leaves else stage.enters
  | .outside | .clearing _ | .returned _ _ _ | .refused _ => false

def holdsLock : PipePlace → Bool
  | .running _ stage _ | .clearing stage => stage.locks
  | .outside | .returned _ _ _ | .refused _ => false

/-- It is in no call. -/
def idle : PipePlace → Bool
  | .outside | .returned _ _ _ | .refused _ => true
  | .running _ _ _ | .clearing _ => false

end PipePlace

abbrev PipeState := Parties Int Int PipePlace ((Nat → Pipe) × PipeLog)

variable {slot stale stale' : Nat} {ids : PipeSems} {s t : PipeState} {p : Int} {c : Command Int}
variable {l l' : PipePlace} {d : (Nat → Pipe) × PipeLog}

/-- Of the bytes that the readers' semaphore speaks of, `stale` are no longer in the
buffer. -/
structure PipeTokens (slot : Nat) (ids : PipeSems) (stale : Nat) (s : PipeState) : Prop where
  isOpen : (s.shared.1 slot).isOpen = true
  named : (s.shared.1 slot).sems = ids
  formed : (s.shared.1 slot).ring.Formed pipeBufferSize
  room : (s.shared.1 slot).count + stale ≤ pipeBufferSize
  readers : s.Books ids.readers PipePlace.holdsByte ((s.shared.1 slot).count + stale)
  writers : s.Books ids.writers PipePlace.holdsRoom
    (pipeBufferSize - ((s.shared.1 slot).count + stale))
  mutex : s.Books ids.mutex PipePlace.holdsLock 1

namespace PipeTokens

/-- A step that leaves the pipe as it is. -/
theorem turn (tokens : PipeTokens slot ids stale s) (orderly : s.sems.Orderly)
    (awake : ¬ s.sems.Sleeps p) (same : d.1 slot = s.shared.1 slot)
    (readers : ∀ n, Parties.Balance ids.readers PipePlace.holdsByte n (s.loc p) c l n)
    (writers : ∀ n, Parties.Balance ids.writers PipePlace.holdsRoom n (s.loc p) c l n)
    (mutex : Parties.Balance ids.mutex PipePlace.holdsLock 1 (s.loc p) c l 1) :
    PipeTokens slot ids stale (s.turn p c l d) := by
  have here : (s.turn p c l d).shared.1 slot = s.shared.1 slot := same
  constructor
  · rw [here]
    exact tokens.isOpen
  · rw [here]
    exact tokens.named
  · rw [here]
    exact tokens.formed
  · rw [here]
    exact tokens.room
  · rw [here]
    exact tokens.readers.turn orderly awake (readers _)
  · rw [here]
    exact tokens.writers.turn orderly awake (writers _)
  · exact tokens.mutex.turn orderly awake mutex

theorem internal (tokens : PipeTokens slot ids stale s) (orderly : s.sems.Orderly)
    (awake : ¬ s.sems.Sleeps p) (same : d.1 slot = s.shared.1 slot)
    (byte : l.holdsByte = (s.loc p).holdsByte) (room : l.holdsRoom = (s.loc p).holdsRoom)
    (lock : l.holdsLock = (s.loc p).holdsLock) :
    PipeTokens slot ids stale (s.turn p .internal l d) := by
  apply tokens.turn orderly awake same
  · exact fun n => .still (fun never => nomatch never) (fun never => nomatch never) byte
  · exact fun n => .still (fun never => nomatch never) (fun never => nomatch never) room
  · exact .still (fun never => nomatch never) (fun never => nomatch never) lock

/-- A step that puts a byte in, takes one out or empties the pipe. -/
theorem edit {pipe : Pipe} (tokens : PipeTokens slot ids stale s) (orderly : s.sems.Orderly)
    (awake : ¬ s.sems.Sleeps p) (after : d.1 slot = pipe)
    (kept : pipe.isOpen = (s.shared.1 slot).isOpen ∧ pipe.sems = (s.shared.1 slot).sems)
    (formed : pipe.ring.Formed pipeBufferSize) (room : pipe.count + stale' ≤ pipeBufferSize)
    (readers : pipe.count + stale' + (s.loc p).holdsByte.toNat =
      (s.shared.1 slot).count + stale + l.holdsByte.toNat)
    (writers : pipeBufferSize - (pipe.count + stale') + (s.loc p).holdsRoom.toNat =
      pipeBufferSize - ((s.shared.1 slot).count + stale) + l.holdsRoom.toNat)
    (lock : l.holdsLock = (s.loc p).holdsLock) :
    PipeTokens slot ids stale' (s.turn p .internal l d) := by
  have here : (s.turn p .internal l d).shared.1 slot = pipe := after
  constructor
  · rw [here, kept.1]
    exact tokens.isOpen
  · rw [here, kept.2]
    exact tokens.named
  · rw [here]
    exact formed
  · rw [here]
    exact room
  · rw [here]
    exact tokens.readers.turn orderly awake (.moves readers)
  · rw [here]
    exact tokens.writers.turn orderly awake (.moves writers)
  · exact tokens.mutex.turn orderly awake
      (.still (fun never => nomatch never) (fun never => nomatch never) lock)

/-- The inner guard of the reader fails only for a token whose byte is gone. -/
theorem readable (tokens : PipeTokens slot ids stale s) (awake : ¬ s.sems.Sleeps p)
    (here : (s.loc p).holdsByte = true) : 0 < (s.shared.1 slot).count + stale :=
  tokens.readers.pos awake here

/-- The inner guard of the writer never fails. -/
theorem writable (tokens : PipeTokens slot ids stale s) (awake : ¬ s.sems.Sleeps p)
    (here : (s.loc p).holdsRoom = true) :
    (s.shared.1 slot).count + stale < pipeBufferSize := by
  have room := tokens.writers.pos awake here
  omega

/-- No value comes near 2^32. -/
theorem bound (tokens : PipeTokens slot ids stale s) {id : Int} (mine : ids.own id) :
    s.sems.value id + 1 < 2 ^ 32 := by
  have room := tokens.room
  have size : pipeBufferSize + 1 < 2 ^ 32 := by decide
  rcases mine with rfl | rfl | rfl
  · obtain ⟨n, _, law⟩ := tokens.readers.law
    omega
  · obtain ⟨n, _, law⟩ := tokens.writers.law
    omega
  · obtain ⟨n, _, law⟩ := tokens.mutex.law
    omega

end PipeTokens

/-! ## Taking and putting a byte -/

namespace Pipe

variable {pipe after : Pipe} {byte : UInt8}

theorem takeByte_eq_some (taken : pipe.takeByte = some (byte, after)) :
    0 < pipe.count ∧ byte = pipe.ring.front ∧ after.ring = pipe.ring.take pipeBufferSize ∧
      after.isOpen = pipe.isOpen ∧ after.sems = pipe.sems := by
  unfold takeByte at taken
  split at taken
  · rename_i some
    cases taken
    exact ⟨some, rfl, rfl, rfl, rfl⟩
  · cases taken

theorem takeByte_eq_none (missing : pipe.takeByte = none) : pipe.count = 0 := by
  unfold takeByte at missing
  split at missing
  · cases missing
  · rename_i none
    exact Nat.eq_zero_of_not_pos none

theorem putByte_eq_some (put : pipe.putByte byte = some after) :
    pipe.count < pipeBufferSize ∧ after.ring = pipe.ring.put pipeBufferSize byte ∧
      after.isOpen = pipe.isOpen ∧ after.sems = pipe.sems := by
  unfold putByte at put
  split at put
  · rename_i room
    cases put
    exact ⟨room, rfl, rfl, rfl⟩
  · cases put

theorem putByte_eq_none (missing : pipe.putByte byte = none) :
    pipeBufferSize ≤ pipe.count := by
  unfold putByte at missing
  split at missing
  · cases missing
  · rename_i full
    exact Nat.le_of_not_lt full

end Pipe
/-! ## What a step of the program does -/

def PipeRequest.Improper : PipeRequest → Prop
  | .read _ buffer size | .write _ buffer size => buffer = none ∨ size ≤ 0
  | .clear _ => False

/-- The steps of the program, with the pipe and the log before and after. -/
inductive PipeMove (ids : PipeSems) (pipe : Pipe) (log : PipeLog) :
    PipePlace → Command Int → PipePlace → Pipe → PipeLog → Prop
  | enters {l : PipePlace} {reads buffer size} : l.idle = true → 0 < size →
      PipeMove ids pipe log l .internal (.running reads .loop ⟨log.calls, buffer, size, 0, 0⟩) pipe
        { log with calls := log.calls + 1 }
  | refuses {l : PipePlace} {request} : l.idle = true → request.Improper →
      PipeMove ids pipe log l .internal (.refused request) pipe log
  | clears {l : PipePlace} : l.idle = true → PipeMove ids pipe log l .internal (.clearing .loop) pipe log
  | admits {reads call} : (call.i : Int) < call.size →
      PipeMove ids pipe log (.running reads .loop call) (.wait (ids.first reads))
        (.running reads .admitted call) pipe log
  | returns {reads call} : ¬ (call.i : Int) < call.size →
      PipeMove ids pipe log (.running reads .loop call) .internal
        (.returned reads call call.bytes) pipe log
  | locks {reads call} : PipeMove ids pipe log (.running reads .admitted call) (.wait ids.mutex)
      (.running reads .locked call) pipe log
  | takes {call byte after} : pipe.takeByte = some (byte, after) →
      PipeMove ids pipe log (.running true .locked call) .internal
        (.running true .unlocking { call with
          buffer := Function.update call.buffer call.i byte
          bytes := call.bytes + 1 }) after
        { log with taken := log.taken ++ [(call.ticket, byte)] }
  | misses {call} : pipe.takeByte = none → PipeMove ids pipe log (.running true .locked call)
      .internal (.running true .unlocking call) pipe log
  | puts {call after} : pipe.putByte (call.buffer call.i) = some after →
      PipeMove ids pipe log (.running false .locked call) .internal
        (.running false .unlocking { call with bytes := call.bytes + 1 }) after
        { log with put := log.put ++ [call.buffer call.i] }
  | overflows {call} : pipe.putByte (call.buffer call.i) = none →
      PipeMove ids pipe log (.running false .locked call) .internal
        (.running false .unlocking call) pipe log
  | unlocks {reads call} : PipeMove ids pipe log (.running reads .unlocking call)
      (.post ids.mutex) (.running reads .signalling call) pipe log
  | signals {reads call} : PipeMove ids pipe log (.running reads .signalling call)
      (.post (ids.last reads)) (.running reads .loop { call with i := call.i + 1 }) pipe log
  | clearLocks : PipeMove ids pipe log (.clearing .loop) (.wait ids.mutex) (.clearing .locked)
      pipe log
  | clearResets : PipeMove ids pipe log (.clearing .locked) .internal (.clearing .unlocking)
      pipe.reset log
  | clearUnlocks : PipeMove ids pipe log (.clearing .unlocking) (.post ids.mutex) .outside
      pipe log

/-- The step of the program is one of these, and calls on no other semaphores. -/
def MovesBy (slot : Nat) (pipes : Nat → Pipe) (log : PipeLog) (l : PipePlace)
    (result : Deed × PipePlace × PipeLog) : Prop :=
  PipeMove (pipes slot).sems (pipes slot) log l result.1.command result.2.1
      (result.1.pipes pipes slot) result.2.2 ∧ result.1.On (pipes slot).sems.own

section

variable {pipes : Nat → Pipe} {log : PipeLog} {stage : Stage} {call : Transfer}

theorem MovesBy.edit {change : Pipe → Pipe} {after : PipeLog}
    (move : PipeMove (pipes slot).sems (pipes slot) log l .internal l' (change (pipes slot))
      after) :
    MovesBy slot pipes log l (.pipe slot change, l', after) := by
  refine ⟨?_, trivial⟩
  have edited : Deed.pipes (.pipe slot change) pipes slot = change (pipes slot) :=
    Function.update_self _ _ _
  change PipeMove _ _ _ _ _ _ (Deed.pipes (.pipe slot change) pipes slot) _
  rw [edited]
  exact move

theorem readPipe_moves :
    MovesBy slot pipes log (.running true stage call) (readPipe slot stage call pipes log) := by
  unfold readPipe
  cases stage with
  | loop =>
    dsimp only
    split
    · rename_i more
      exact ⟨@PipeMove.admits _ _ _ true call more, .inl rfl⟩
    · rename_i done
      exact ⟨.returns done, trivial⟩
  | admitted => exact ⟨.locks, .inr (.inr rfl)⟩
  | locked =>
    dsimp only
    split
    · rename_i byte after taken
      exact .edit (.takes taken)
    · rename_i missing
      exact ⟨.misses missing, trivial⟩
  | unlocking => exact ⟨.unlocks, .inr (.inr rfl)⟩
  | signalling => exact ⟨@PipeMove.signals _ _ _ true call, .inr (.inl rfl)⟩

theorem writePipe_moves :
    MovesBy slot pipes log (.running false stage call) (writePipe slot stage call pipes log) := by
  unfold writePipe
  cases stage with
  | loop =>
    dsimp only
    split
    · rename_i more
      exact ⟨@PipeMove.admits _ _ _ false call more, .inr (.inl rfl)⟩
    · rename_i done
      exact ⟨.returns done, trivial⟩
  | admitted => exact ⟨.locks, .inr (.inr rfl)⟩
  | locked =>
    dsimp only
    split
    · rename_i after put
      exact .edit (.puts put)
    · rename_i missing
      exact ⟨.overflows missing, trivial⟩
  | unlocking => exact ⟨.unlocks, .inr (.inr rfl)⟩
  | signalling => exact ⟨@PipeMove.signals _ _ _ false call, .inl rfl⟩

theorem clearPipe_moves {result : Deed × PipePlace × PipeLog}
    (does : clearPipe slot stage pipes log = some result) :
    MovesBy slot pipes log (.clearing stage) result := by
  cases stage with
  | loop =>
    cases does
    exact ⟨.clearLocks, .inr (.inr rfl)⟩
  | admitted => cases does
  | locked =>
    cases does
    exact .edit .clearResets
  | unlocking =>
    cases does
    exact ⟨.clearUnlocks, .inr (.inr rfl)⟩
  | signalling => cases does

theorem enterPipe_moves {request : PipeRequest} {result : Deed × PipePlace × PipeLog}
    (idle : l.idle = true) (does : enterPipe slot request pipes log = some result) :
    MovesBy slot pipes log l result := by
  unfold enterPipe at does
  split at does
  · split at does
    · cases does
      exact ⟨.refuses idle (.inl rfl), trivial⟩
    · cases does
      exact ⟨.refuses idle (.inl rfl), trivial⟩
    · split at does
      · rename_i none
        cases does
        exact ⟨.refuses idle (.inr none), trivial⟩
      · rename_i some
        cases does
        exact ⟨.enters idle (not_le.mp some), trivial⟩
    · split at does
      · rename_i none
        cases does
        exact ⟨.refuses idle (.inr none), trivial⟩
      · rename_i some
        cases does
        exact ⟨.enters idle (not_le.mp some), trivial⟩
    · cases does
      exact ⟨.clears idle, trivial⟩
  · cases does

end

theorem pipeProgram_moves {request : PipeRequest} {deed : Deed} {pipes : Nat → Pipe}
    {log log' : PipeLog}
    (does : pipeProgram slot request l pipes log = some (deed, l', log')) :
    PipeMove (pipes slot).sems (pipes slot) log l deed.command l' (deed.pipes pipes slot) log' ∧
      deed.On (pipes slot).sems.own := by
  change MovesBy slot pipes log l (deed, l', log')
  cases l with
  | outside => exact enterPipe_moves rfl does
  | returned _ _ _ => exact enterPipe_moves rfl does
  | refused _ => exact enterPipe_moves rfl does
  | clearing stage => exact clearPipe_moves does
  | running reads stage call =>
    cases reads with
    | true =>
      rw [← Option.some.inj does]
      exact readPipe_moves
    | false =>
      rw [← Option.some.inj does]
      exact writePipe_moves

theorem PipePlace.idle_holds (out : l.idle = true) :
    l.holdsByte = false ∧ l.holdsRoom = false ∧ l.holdsLock = false := by
  cases l with
  | outside => exact ⟨rfl, rfl, rfl⟩
  | returned _ _ _ => exact ⟨rfl, rfl, rfl⟩
  | refused _ => exact ⟨rfl, rfl, rfl⟩
  | running _ _ _ => cases out
  | clearing _ => cases out

namespace PipeTokens

variable {reads : Bool} {call call' : Transfer}

/-- A step that takes the mutex. -/
theorem locks (tokens : PipeTokens slot ids stale s) (distinct : ids.Distinct)
    (orderly : s.sems.Orderly) (awake : ¬ s.sems.Sleeps p) (same : d.1 slot = s.shared.1 slot)
    (byte : l.holdsByte = (s.loc p).holdsByte) (room : l.holdsRoom = (s.loc p).holdsRoom)
    (free : (s.loc p).holdsLock = false) (held : l.holdsLock = true) :
    PipeTokens slot ids stale (s.turn p (.wait ids.mutex) l d) := by
  refine tokens.turn orderly awake same (fun n => ?_) (fun n => ?_) (.waits free held)
  · exact .still (by simp [distinct.readersMutex.symm]) (by simp) byte
  · exact .still (by simp [distinct.writersMutex.symm]) (by simp) room

/-- A step that gives it back. -/
theorem unlocks (tokens : PipeTokens slot ids stale s) (distinct : ids.Distinct)
    (orderly : s.sems.Orderly) (awake : ¬ s.sems.Sleeps p) (same : d.1 slot = s.shared.1 slot)
    (byte : l.holdsByte = (s.loc p).holdsByte) (room : l.holdsRoom = (s.loc p).holdsRoom)
    (held : (s.loc p).holdsLock = true) (free : l.holdsLock = false) :
    PipeTokens slot ids stale (s.turn p (.post ids.mutex) l d) := by
  refine tokens.turn orderly awake same (fun n => ?_) (fun n => ?_) (.posts held free)
  · exact .still (by simp) (by simp [distinct.readersMutex.symm]) byte
  · exact .still (by simp) (by simp [distinct.writersMutex.symm]) room

theorem admits (tokens : PipeTokens slot ids stale s) (distinct : ids.Distinct)
    (orderly : s.sems.Orderly) (awake : ¬ s.sems.Sleeps p) (same : d.1 slot = s.shared.1 slot)
    (place : s.loc p = .running reads .loop call) :
    PipeTokens slot ids stale
      (s.turn p (.wait (ids.first reads)) (.running reads .admitted call) d) := by
  obtain ⟨readersWriters, readersMutex, writersMutex⟩ := distinct
  refine tokens.turn orderly awake same (fun n => ?_) (fun n => ?_) ?_
  · cases reads with
    | true => exact .waits (by rw [place]; rfl) rfl
    | false =>
      exact .still (by simp [PipeSems.first, readersWriters.symm]) (by simp) (by rw [place]; rfl)
  · cases reads with
    | true => exact .still (by simp [PipeSems.first, readersWriters]) (by simp) (by rw [place]; rfl)
    | false => exact .waits (by rw [place]; rfl) rfl
  · cases reads with
    | true => exact .still (by simp [PipeSems.first, readersMutex]) (by simp) (by rw [place]; rfl)
    | false => exact .still (by simp [PipeSems.first, writersMutex]) (by simp) (by rw [place]; rfl)

theorem signals (tokens : PipeTokens slot ids stale s) (distinct : ids.Distinct)
    (orderly : s.sems.Orderly) (awake : ¬ s.sems.Sleeps p) (same : d.1 slot = s.shared.1 slot)
    (place : s.loc p = .running reads .signalling call) :
    PipeTokens slot ids stale
      (s.turn p (.post (ids.last reads)) (.running reads .loop call') d) := by
  obtain ⟨readersWriters, readersMutex, writersMutex⟩ := distinct
  refine tokens.turn orderly awake same (fun n => ?_) (fun n => ?_) ?_
  · cases reads with
    | true =>
      exact .still (by simp) (by simp [PipeSems.last, readersWriters.symm]) (by rw [place]; rfl)
    | false => exact .posts (by rw [place]; rfl) rfl
  · cases reads with
    | true => exact .posts (by rw [place]; rfl) rfl
    | false => exact .still (by simp) (by simp [PipeSems.last, readersWriters]) (by rw [place]; rfl)
  · cases reads with
    | true => exact .still (by simp) (by simp [PipeSems.last, writersMutex]) (by rw [place]; rfl)
    | false => exact .still (by simp) (by simp [PipeSems.last, readersMutex]) (by rw [place]; rfl)

theorem takes {byte : UInt8} {pipe : Pipe} (tokens : PipeTokens slot ids stale s)
    (orderly : s.sems.Orderly) (awake : ¬ s.sems.Sleeps p) (after : d.1 slot = pipe)
    (taken : (s.shared.1 slot).takeByte = some (byte, pipe))
    (place : s.loc p = .running true .locked call) :
    PipeTokens slot ids stale (s.turn p .internal (.running true .unlocking call') d) := by
  obtain ⟨some, _, ring, isOpen, named⟩ := Pipe.takeByte_eq_some taken
  have fewer : pipe.count = (s.shared.1 slot).count - 1 := congrArg Ring.count ring
  have room := tokens.room
  refine tokens.edit orderly awake after ⟨isOpen, named⟩ ?_ ?_ ?_ ?_ ?_
  · rw [ring]
    exact tokens.formed.take some
  · omega
  · rw [place]
    change _ + 1 = _ + 0
    omega
  · rw [place]
    change _ + 0 = _ + 1
    omega
  · rw [place]
    rfl

/-- The token was for a byte that has been discarded. -/
theorem misses (tokens : PipeTokens slot ids stale s) (orderly : s.sems.Orderly)
    (awake : ¬ s.sems.Sleeps p) (same : d.1 slot = s.shared.1 slot)
    (missing : (s.shared.1 slot).takeByte = none) (place : s.loc p = .running true .locked call) :
    PipeTokens slot ids (stale - 1) (s.turn p .internal (.running true .unlocking call) d) := by
  have none := Pipe.takeByte_eq_none missing
  have gone := tokens.readable awake (by rw [place]; rfl)
  have room := tokens.room
  refine tokens.edit orderly awake same ⟨rfl, rfl⟩ tokens.formed ?_ ?_ ?_ ?_
  · omega
  · rw [place]
    change _ + 1 = _ + 0
    omega
  · rw [place]
    change _ + 0 = _ + 1
    omega
  · rw [place]
    rfl

theorem puts {byte : UInt8} {pipe : Pipe} (tokens : PipeTokens slot ids stale s)
    (orderly : s.sems.Orderly) (awake : ¬ s.sems.Sleeps p) (after : d.1 slot = pipe)
    (put : (s.shared.1 slot).putByte byte = some pipe)
    (place : s.loc p = .running false .locked call) :
    PipeTokens slot ids stale (s.turn p .internal (.running false .unlocking call') d) := by
  obtain ⟨space, ring, isOpen, named⟩ := Pipe.putByte_eq_some put
  have more : pipe.count = (s.shared.1 slot).count + 1 := congrArg Ring.count ring
  have left := tokens.writable awake (by rw [place]; rfl)
  refine tokens.edit orderly awake after ⟨isOpen, named⟩ ?_ ?_ ?_ ?_ ?_
  · rw [ring]
    exact tokens.formed.put space
  · omega
  · rw [place]
    change _ + 0 = _ + 1
    omega
  · rw [place]
    change _ + 1 = _ + 0
    omega
  · rw [place]
    rfl

/-- The bytes that are discarded leave their tokens behind. -/
theorem clears (tokens : PipeTokens slot ids stale s) (orderly : s.sems.Orderly)
    (awake : ¬ s.sems.Sleeps p) (after : d.1 slot = (s.shared.1 slot).reset)
    (place : s.loc p = .clearing .locked) :
    PipeTokens slot ids ((s.shared.1 slot).count + stale)
      (s.turn p .internal (.clearing .unlocking) d) := by
  have room := tokens.room
  refine tokens.edit orderly awake after ⟨rfl, rfl⟩ ?_ ?_ ?_ ?_ ?_
  · exact ⟨Nat.zero_le _, show 0 < pipeBufferSize by decide, rfl⟩
  · change 0 + _ ≤ _
    omega
  · rw [place]
    change 0 + _ + 0 = _ + 0
    omega
  · rw [place]
    change _ - (0 + _) + 0 = _ + 0
    omega
  · rw [place]
    rfl

/-- Every step keeps the tokens; only `clearPipe` makes some of them stale. -/
theorem move (tokens : PipeTokens slot ids stale s) (distinct : ids.Distinct)
    (orderly : s.sems.Orderly) (awake : ¬ s.sems.Sleeps p)
    (move : PipeMove ids (s.shared.1 slot) s.shared.2 (s.loc p) c l (d.1 slot) d.2) :
    ∃ stale', PipeTokens slot ids stale' (s.turn p c l d) ∧
      (s.loc p = .clearing .locked ∨ stale' ≤ stale) := by
  have quiet : d.1 slot = s.shared.1 slot → ∀ {l'}, s.loc p = l' → l.holdsByte = l'.holdsByte →
      l.holdsRoom = l'.holdsRoom → l.holdsLock = l'.holdsLock →
      ∃ stale', PipeTokens slot ids stale' (s.turn p .internal l d) ∧
        (l' = .clearing .locked ∨ stale' ≤ stale) := by
    intro same l' place byte space lock
    subst place
    exact ⟨stale, tokens.internal orderly awake same byte space lock, .inr le_rfl⟩
  generalize place : s.loc p = l₀ at move ⊢
  generalize after : d.1 slot = pipe at move
  generalize d.2 = log at move
  cases move with
  | enters out _ =>
    obtain ⟨byte, space, lock⟩ := PipePlace.idle_holds out
    refine quiet after place ?_ ?_ ?_
    · rw [byte]
      simp [PipePlace.holdsByte, Stage.enters, Stage.leaves]
    · rw [space]
      simp [PipePlace.holdsRoom, Stage.enters, Stage.leaves]
    · rw [lock]
      rfl
  | refuses out _ =>
    obtain ⟨byte, space, lock⟩ := PipePlace.idle_holds out
    exact quiet after place byte.symm space.symm lock.symm
  | clears out =>
    obtain ⟨byte, space, lock⟩ := PipePlace.idle_holds out
    exact quiet after place byte.symm space.symm lock.symm
  | returns _ =>
    refine quiet after place ?_ ?_ rfl
    · simp [PipePlace.holdsByte, Stage.enters, Stage.leaves]
    · simp [PipePlace.holdsRoom, Stage.enters, Stage.leaves]
  | admits _ => exact ⟨stale, tokens.admits distinct orderly awake after place, .inr le_rfl⟩
  | locks =>
    exact ⟨stale, tokens.locks distinct orderly awake after (by rw [place]; rfl)
      (by rw [place]; rfl) (by rw [place]; rfl) rfl, .inr le_rfl⟩
  | takes taken => exact ⟨stale, tokens.takes orderly awake after taken place, .inr le_rfl⟩
  | misses missing =>
    exact ⟨stale - 1, tokens.misses orderly awake after missing place, .inr (Nat.sub_le stale 1)⟩
  | puts put => exact ⟨stale, tokens.puts orderly awake after put place, .inr le_rfl⟩
  | overflows missing =>
    have full := Pipe.putByte_eq_none missing
    have left := tokens.writable awake (by rw [place]; rfl)
    omega
  | unlocks =>
    exact ⟨stale, tokens.unlocks distinct orderly awake after (by rw [place]; rfl)
      (by rw [place]; rfl) (by rw [place]; rfl) rfl, .inr le_rfl⟩
  | signals => exact ⟨stale, tokens.signals distinct orderly awake after place, .inr le_rfl⟩
  | clearLocks =>
    exact ⟨stale, tokens.locks distinct orderly awake after (by rw [place]; rfl)
      (by rw [place]; rfl) (by rw [place]; rfl) rfl, .inr le_rfl⟩
  | clearResets => exact ⟨_, tokens.clears orderly awake after place, .inl rfl⟩
  | clearUnlocks =>
    exact ⟨stale, tokens.unlocks distinct orderly awake after (by rw [place]; rfl)
      (by rw [place]; rfl) (by rw [place]; rfl) rfl, .inr le_rfl⟩

end PipeTokens

/-- Others do not touch the tokens. -/
theorem PipeTokens.others {sems : Semaphores Int Int} (tokens : PipeTokens slot ids stale s)
    (same : ∀ i, ids.own i → sems.value i = s.sems.value i ∧ sems.waiting i = s.sems.waiting i) :
    PipeTokens slot ids stale { s with sems := sems } :=
  ⟨tokens.isOpen, tokens.named, tokens.formed, tokens.room,
    tokens.readers.others (same _ (.inl rfl)), tokens.writers.others (same _ (.inr (.inl rfl))),
    tokens.mutex.others (same _ (.inr (.inr rfl)))⟩

theorem pipeProgram_does (does : (pipeProgram slot).Does l s.shared c l' d) :
    PipeMove (s.shared.1 slot).sems (s.shared.1 slot) s.shared.2 l c l' (d.1 slot) d.2 := by
  obtain ⟨request, deed, does, rfl, after⟩ := does
  rw [after]
  exact (pipeProgram_moves does).1

theorem PipeTokens.step (tokens : PipeTokens slot ids stale s) (distinct : ids.Distinct)
    (orderly : s.sems.Orderly) (step : Parties.Step (pipeProgram slot).Does ids.own s t) :
    ∃ stale', PipeTokens slot ids stale' t := by
  cases step with
  | others _ same => exact ⟨stale, tokens.others same⟩
  | turn awake does =>
    have move := pipeProgram_does does
    rw [tokens.named] at move
    obtain ⟨stale', after, _⟩ := tokens.move distinct orderly awake move
    exact ⟨stale', after⟩

end SoKernel
