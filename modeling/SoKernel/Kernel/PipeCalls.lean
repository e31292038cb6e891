import SoKernel.Kernel.Clients
import SoKernel.Kernel.Pipe
import SoKernel.Lib.Ring

namespace SoKernel
open MemoryManager QueueName Lib Kernel

/-! ## `readPipe`, `writePipe` and `clearPipe`, step by step -/

/-- A call of a process; a buffer is `none` where it is `NULL`. -/
inductive PipeRequest where
  | read (id : Int) (buffer : Option (Nat → UInt8)) (size : Int)
  | write (id : Int) (buffer : Option (Nat → UInt8)) (size : Int)
  | clear (id : Int)

namespace PipeRequest

def id : PipeRequest → Int
  | .read id _ _ | .write id _ _ | .clear id => id

def clears : PipeRequest → Bool
  | .read _ _ _ | .write _ _ _ => false
  | .clear _ => true

end PipeRequest

/-- Where a call is in its loop. -/
inductive Stage where
  | loop
  /-- The first wait has returned. -/
  | admitted
  /-- The wait for the mutex has returned. -/
  | locked
  | unlocking
  /-- About to post the semaphore of the other side. -/
  | signalling
deriving DecidableEq

/-- The arguments and variables of `readPipe` and `writePipe`; `ticket` numbers the call. -/
structure Transfer where
  ticket : Nat
  buffer : Nat → UInt8
  size : Int
  i : Nat
  bytes : Nat

inductive PipePlace where
  | outside
  /-- In `readPipe`, or in `writePipe` where it does not read. -/
  | running (reads : Bool) (stage : Stage) (call : Transfer)
  | clearing (stage : Stage)
  | returned (reads : Bool) (call : Transfer) (result : Int)
  /-- A `NULL` buffer or a size that is not positive: the call has returned -1. -/
  | refused (request : PipeRequest)

/-- The bytes taken out so far, each with the call that took it, the bytes put in so far,
and how many calls there were. -/
structure PipeLog where
  taken : List (Nat × UInt8)
  put : List UInt8
  calls : Nat

def PipeLog.empty : PipeLog := ⟨[], [], 0⟩

variable (slot : Nat)

def readPipe (stage : Stage) (call : Transfer) (pipes : Nat → Pipe) (log : PipeLog) :
    Deed × PipePlace × PipeLog :=
  let pipe := pipes slot
  match stage with
  | .loop =>
    if call.i < call.size then (.wait pipe.semReaders, .running true .admitted call, log)
    else (.nothing, .returned true call call.bytes, log)
  | .admitted => (.wait pipe.mutex, .running true .locked call, log)
  | .locked =>
    match pipe.takeByte with
    | some (byte, after) =>
      (.pipe slot fun _ => after,
        .running true .unlocking { call with
          buffer := Function.update call.buffer call.i byte
          bytes := call.bytes + 1 },
        { log with taken := log.taken ++ [(call.ticket, byte)] })
    | none => (.nothing, .running true .unlocking call, log)
  | .unlocking => (.post pipe.mutex, .running true .signalling call, log)
  | .signalling => (.post pipe.semWriters, .running true .loop { call with i := call.i + 1 }, log)

def writePipe (stage : Stage) (call : Transfer) (pipes : Nat → Pipe) (log : PipeLog) :
    Deed × PipePlace × PipeLog :=
  let pipe := pipes slot
  match stage with
  | .loop =>
    if call.i < call.size then (.wait pipe.semWriters, .running false .admitted call, log)
    else (.nothing, .returned false call call.bytes, log)
  | .admitted => (.wait pipe.mutex, .running false .locked call, log)
  | .locked =>
    match pipe.putByte (call.buffer call.i) with
    | some after =>
      (.pipe slot fun _ => after, .running false .unlocking { call with bytes := call.bytes + 1 },
        { log with put := log.put ++ [call.buffer call.i] })
    | none => (.nothing, .running false .unlocking call, log)
  | .unlocking => (.post pipe.mutex, .running false .signalling call, log)
  | .signalling => (.post pipe.semReaders, .running false .loop { call with i := call.i + 1 }, log)

/-- It has no loop: the stages are those of its mutex. -/
def clearPipe (stage : Stage) (pipes : Nat → Pipe) (log : PipeLog) :
    Option (Deed × PipePlace × PipeLog) :=
  let pipe := pipes slot
  match stage with
  | .loop => some (.wait pipe.mutex, .clearing .locked, log)
  | .locked => some (.pipe slot fun pipe => pipe.reset, .clearing .unlocking, log)
  | .unlocking => some (.post pipe.mutex, .outside, log)
  | .admitted | .signalling => none

/-- The checks at the start of a call with an id that leads to the pipe; the manager has
been initialised when the pipe was created. -/
def enterPipe (request : PipeRequest) (pipes : Nat → Pipe) (log : PipeLog) :
    Option (Deed × PipePlace × PipeLog) :=
  if pipeSlot request.id pipes = some slot then
    match request with
    | .read _ none _ | .write _ none _ => some (.nothing, .refused request, log)
    | .read _ (some buffer) size =>
      if size ≤ 0 then some (.nothing, .refused request, log)
      else
        some (.nothing, .running true .loop ⟨log.calls, buffer, size, 0, 0⟩,
          { log with calls := log.calls + 1 })
    | .write _ (some buffer) size =>
      if size ≤ 0 then some (.nothing, .refused request, log)
      else
        some (.nothing, .running false .loop ⟨log.calls, buffer, size, 0, 0⟩,
          { log with calls := log.calls + 1 })
    | .clear _ => some (.nothing, .clearing .loop, log)
  else none

/-- Any process may call any of the three, again and again. -/
def pipeProgram : Program PipeRequest PipePlace PipeLog := fun request place pipes log =>
  match place with
  | .outside | .returned _ _ _ | .refused _ => enterPipe slot request pipes log
  | .running true stage call => some (readPipe slot stage call pipes log)
  | .running false stage call => some (writePipe slot stage call pipes log)
  | .clearing stage => clearPipe slot stage pipes log

/-- The program without `clearPipe`. -/
def transferProgram : Program PipeRequest PipePlace PipeLog := fun request place pipes log =>
  if request.clears = true then none else pipeProgram slot request place pipes log

end SoKernel
