import SoKernel.Kernel.Process
import Mathlib.Algebra.Group.Int.Defs

namespace SoKernel
open MemoryManager QueueName

variable {M : Type} [MemoryManager M]

def sliceLength : Nat := 3
def maxPriority : Nat := 5
def minPriority : Nat := 0
def idlePriority : Nat := 6
def stackSize : Nat := 4096
/-- `sizeof(PCB)`. -/
def pcbSize : Nat := 104

/-- `QUANTUM` is `sliceLength`. -/
def calculateQuantum (priority : Nat) : Nat :=
  if priority = idlePriority then sliceLength else sliceLength * (maxPriority - priority + 1)

/-- How `waitpid` leaves the processor: with a result and what it stores through
`retValue`, or asleep. -/
inductive WaitpidOutcome where
  | returned (result : Int) (retValue : Option (BitVec 32))
  | asleep
deriving DecidableEq, Repr

namespace Kernel

/-! ## `process/scheduler.c`

A PCB pointer is not checked where the source does not check it: NULL is the
record at address 0. -/

def schedule (rsp : Nat) (k : Kernel M) : Nat × Kernel M :=
  let currentProcess := k.processes.currentProcess
  if 0 < k.quantum ∧ (k.pcb currentProcess).state = .running then
    (rsp, { k with quantum := k.quantum - 1 })
  else
    let k := if ¬ k.first then k.editPcb currentProcess fun pcb => { pcb with rsp := rsp }
      else { k with first := false }
    let k := if (k.pcb currentProcess).state = .running then k.setState currentProcess .ready
      else k
    let (nextProcess, k) := k.getNextProcess
    let k := k.setState nextProcess .running
    let k := { k with currentPid := (k.pcb nextProcess).pid }
    let k := { k with quantum := calculateQuantum (k.pcb nextProcess).priority }
    ((k.pcb nextProcess).rsp, k)

/-- `int 20h`: the handler switches to the stack that `schedule` returns. -/
def callTimerTick (rsp : Nat) (k : Kernel M) : Kernel M :=
  let (stackPointer, k) := schedule rsp k
  { k with stackPointer := stackPointer }

def yield (rsp : Nat) (k : Kernel M) : Kernel M := callTimerTick rsp { k with quantum := 0 }

def blockProcess (pid : Int) (rsp : Nat) (k : Kernel M) : Int × Kernel M :=
  let (status, k) := blockProcessQueue pid k
  if status ≠ 0 then (-1, k)
  else if pid = k.getCurrentPid then (0, yield rsp k) else (0, k)

def blockProcessBySem (pid : Int) (rsp : Nat) (k : Kernel M) : Int × Kernel M :=
  let (status, k) := blockProcessQueueBySem pid k
  if status ≠ 0 then (-1, k)
  else if pid = k.getCurrentPid then (0, yield rsp k) else (0, k)

def unblockProcess (pid : Int) (k : Kernel M) : Int × Kernel M := unblockProcessQueue pid k

def unblockProcessBySem (pid : Int) (k : Kernel M) : Int × Kernel M :=
  unblockProcessQueueBySem pid k

/-- Frees the PCB; the low half of its return value is what the caller stores. -/
def reapChild (child : Addr) (k : Kernel M) : Int × BitVec 32 × Kernel M :=
  let retValue := BitVec.ofNat 32 (k.pcb child).retValue
  let childPid := (k.pcb child).pid
  let k := k.setState child (.ofValue (k.pcb child).retValue)
  let k := removeZombieProcess childPid k
  (childPid, retValue, { k with
    memory := freeMemory child k.memory
    pcbs := k.pcbs.erase child })

def wakeupWaitingParent (parentPid childPid : Int) (k : Kernel M) : Kernel M :=
  if parentPid = -1 then k
  else
    let k := if parentPid = (k.pcb k.processes.idleProcess).pid
      then (reapChild (k.getProcess childPid) k).2.2 else k
    let parent := k.getProcess parentPid
    if parent = 0 then k
    else if (k.pcb parent).state = .blocked ∧ (k.pcb parent).waitingForPid = childPid then
      (unblockProcess parentPid k).2
    else k

def kill (pid : Int) (retValue : Nat) (rsp : Nat) (k : Kernel M) : Int × Kernel M :=
  if pid ≤ 1 then (-1, k)
  else
    let (process, k) := killProcess pid retValue .zombie k
    if process = 0 then (-1, k)
    else
      let k := { k with memory := freeMemory ((k.pcb process).base - stackSize) k.memory }
      let k := wakeupWaitingParent (k.pcb process).parentPid pid k
      if pid = k.currentPid then (0, callTimerTick rsp { k with quantum := 0 }) else (0, k)

/-- The call up to its return or to the moment its process gives up the processor. -/
def waitpid (pid : Int) (rsp : Nat) (k : Kernel M) : WaitpidOutcome × Kernel M :=
  let currentProcPid := k.getCurrentPid
  let target := k.getProcess pid
  if target = 0 then (.returned (-1) none, k)
  else
    let current := k.getProcess currentProcPid
    if current = 0 then (.returned (-1) none, k)
    else if (k.pcb target).parentPid ≠ currentProcPid ∧ (k.pcb current).waitingForPid ≠ pid then
      (.returned (-1) none, k)
    else if (k.pcb target).state = .zombie then
      let k := k.editPcb current fun pcb => { pcb with waitingForPid := -1 }
      let (childPid, retValue, k) := reapChild target k
      (.returned childPid (some retValue), k)
    else if (k.pcb target).state.value < ProcessState.zombie.value then
      let k := k.editPcb current fun pcb => { pcb with waitingForPid := pid }
      let k := k.setState current .blocked
      let (status, k) := blockProcess currentProcPid rsp k
      if status ≠ 0 then
        let k := k.editPcb current fun pcb => { pcb with waitingForPid := -1 }
        (.returned (-1) none, k.setState current .ready)
      else (.asleep, k)
    else (.returned (-1) none, k)

/-- The rest of the call, once its process `current` runs again. -/
def waitpidResume (pid : Int) (current : Addr) (k : Kernel M) :
    Int × Option (BitVec 32) × Kernel M :=
  let target := k.getProcess pid
  if target = 0 then (-1, none, k)
  else if (k.pcb target).state = .zombie then
    let k := k.editPcb current fun pcb => { pcb with waitingForPid := -1 }
    let (childPid, retValue, k) := reapChild target k
    (childPid, some retValue, k)
  else (-1, none, k)

def changePrio (pid : Int) (newPrio : Int) (k : Kernel M) : Int × Kernel M :=
  let process := k.getProcess pid
  if pid ≤ 1 then (-1, k)
  else if process = 0 then (-1, k)
  else
    let newPrio := if newPrio < minPriority then minPriority
      else if maxPriority < newPrio then maxPriority else newPrio.toNat
    ((newPrio : Int), k.editPcb process fun pcb => { pcb with priority := newPrio })

def getCurrentProcessStdin (k : Kernel M) : Int :=
  if k.processes.currentProcess = 0 then -1 else (k.pcb k.processes.currentProcess).stdin

def getCurrentProcessStdout (k : Kernel M) : Int :=
  if k.processes.currentProcess = 0 then -1 else (k.pcb k.processes.currentProcess).stdout

end Kernel
end SoKernel
