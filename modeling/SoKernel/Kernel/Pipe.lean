import SoKernel.Kernel.Semaphore

namespace SoKernel

variable {M : Type} [MemoryManager M]

def maxPipes : Nat := 16
def pipeBufferSize : Nat := 100

def closedPipe (buffer : Nat → UInt8) : Pipe := ⟨buffer, 0, 0, 0, -1, -1, -1, false⟩

/-! ## `pipes/pipes.c` -/

namespace Pipe

/-- The guarded read between the two semaphores: the byte and the pipe after it. -/
def takeByte (pipe : Pipe) : Option (UInt8 × Pipe) :=
  if 0 < pipe.count then
    some (pipe.buffer pipe.readIdx,
      { pipe with readIdx := (pipe.readIdx + 1) % pipeBufferSize, count := pipe.count - 1 })
  else none

/-- The guarded write between the two semaphores. -/
def putByte (byte : UInt8) (pipe : Pipe) : Option Pipe :=
  if pipe.count < pipeBufferSize then
    some { pipe with
      buffer := Function.update pipe.buffer pipe.writeIdx byte
      writeIdx := (pipe.writeIdx + 1) % pipeBufferSize
      count := pipe.count + 1 }
  else none

/-- What `clearPipe` resets. -/
def reset (pipe : Pipe) : Pipe := { pipe with readIdx := 0, writeIdx := 0, count := 0 }

end Pipe

/-- `PIPE_ID_CHECK`: the slot an id leads to. -/
def pipeSlot (id : Int) (pipes : Nat → Pipe) : Option Nat :=
  if id < 0 ∨ (maxPipes : Int) ≤ id then none
  else
    let slot := if 2 < id then (id - 2).toNat else id.toNat
    if (pipes slot).isOpen then some slot else none

namespace Kernel

def editPipe (k : Kernel M) (slot : Nat) (change : Pipe → Pipe) : Kernel M :=
  { k with pipes := Function.update k.pipes slot (change (k.pipes slot)) }

def initPipeManager (k : Kernel M) : Kernel M :=
  { k with pipes := fun slot => if slot < maxPipes then closedPipe (k.pipes slot).buffer
      else k.pipes slot }

def ensurePipeManagerInit (k : Kernel M) : Kernel M :=
  if k.pipeManagerInit then k else { k.initPipeManager with pipeManagerInit := true }

/-- The three `semInit` calls stop at the first failure. -/
def initPipeSems (pipe : Pipe) (k : Kernel M) : Int × Kernel M :=
  let (status, k) := semInit pipe.semReaders 0 k
  if status < 0 then (-1, k)
  else
    let (status, k) := semInit pipe.semWriters pipeBufferSize k
    if status < 0 then (-1, k)
    else
      let (status, k) := semInit pipe.mutex 1 k
      if status < 0 then (-1, k) else (0, k)

/-- The loop over the slots from `slot` up. -/
def createPipeFrom : Nat → Nat → Kernel M → Int × Kernel M
  | 0, _, k => (-1, k)
  | fuel + 1, slot, k =>
    if (k.pipes slot).isOpen then createPipeFrom fuel (slot + 1) k
    else
      let k := k.editPipe slot fun pipe =>
        { pipe with
          readIdx := 0, writeIdx := 0, count := 0, isOpen := true
          semReaders := k.nextSemId, semWriters := k.nextSemId + 1, mutex := k.nextSemId + 2 }
      let k := { k with nextSemId := k.nextSemId + 3 }
      let (status, k) := initPipeSems (k.pipes slot) k
      if status < 0 then (-1, k)
      else if slot = 0 then (0, k) else ((slot : Int) + 2, k)

def createPipe (k : Kernel M) : Int × Kernel M :=
  createPipeFrom maxPipes 0 k.ensurePipeManagerInit

/-- Close the semaphores and the pipe; an id that has become 2 or less is refused. -/
def closePipe (id : Int) (k : Kernel M) : Int × Kernel M :=
  let k := k.ensurePipeManagerInit
  match pipeSlot id k.pipes with
  | none => (-1, k)
  | some slot =>
    if slot ≤ 2 then (-1, k)
    else
      let pipe := k.pipes slot
      let k := (semClose pipe.semReaders k).2
      let k := (semClose pipe.semWriters k).2
      let k := (semClose pipe.mutex k).2
      (0, k.editPipe slot fun pipe => closedPipe pipe.buffer)

end Kernel
end SoKernel
