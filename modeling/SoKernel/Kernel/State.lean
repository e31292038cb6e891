import Mathlib.Tactic
import Mathlib.Data.Finset.Basic

namespace SoKernel

/-- An address; `0` is `NULL`. -/
abbrev Addr := Nat

/-- `memoryManager.h`: the kernel is built on either of two allocators. -/
class MemoryManager (M : Type) where
  allocMemory : Nat → M → Addr × M
  freeMemory : Addr → M → M

/-- `ds/queue.c`: a node and what it carries. -/
structure Node (α : Type) where
  address : Addr
  data : α
deriving DecidableEq, Repr

/-- The nodes from `front` to `rear`. -/
abbrev Queue (α : Type) := List (Node α)

inductive ProcessState where
  | ready | running | blocked | zombie | exited | killed | waitingSem
deriving DecidableEq, Repr

/-- The value of the C enumerator. -/
def ProcessState.value : ProcessState → Nat
  | .ready => 0
  | .running => 1
  | .blocked => 2
  | .zombie => 3
  | .exited => 4
  | .killed => 5
  | .waitingSem => 6

/-- A number stored as a state; one without a name compares like `killed`. -/
def ProcessState.ofValue : Nat → ProcessState
  | 0 => .ready
  | 1 => .running
  | 2 => .blocked
  | 3 => .zombie
  | 4 => .exited
  | 6 => .waitingSem
  | _ => .killed

structure PCB where
  pid : Int
  parentPid : Int
  waitingForPid : Int
  priority : Nat
  state : ProcessState
  rsp : Nat
  base : Nat
  entryPoint : Nat
  retValue : Nat
  foreground : Bool
  stdin : Int
  stdout : Int
deriving DecidableEq, Repr

/-- The four queues of `ProcessManagerCDT`. -/
inductive QueueName where
  | readyQueue | blockedQueue | blockedQueueBySem | zombieQueue
deriving DecidableEq, Repr

structure ProcessManager where
  foregroundProcess : Addr
  currentProcess : Addr
  idleProcess : Addr
  queue : QueueName → Queue Addr

/-- The memory `wait` allocates for a pid, with its content: it is written once,
before it is queued. -/
structure PidCell where
  address : Addr
  pid : Int
deriving DecidableEq, Repr

/-- `sem_t`; `blocked` is `none` before `semInit`, and `queue` where it lies in memory. -/
structure Sem where
  value : Nat
  lock : Bool
  used : Bool
  blocked : Option (Queue PidCell)
  queue : Addr

structure Pipe where
  buffer : Nat → UInt8
  readIdx : Nat
  writeIdx : Nat
  count : Nat
  semReaders : Int
  semWriters : Int
  mutex : Int
  isOpen : Bool

/-- The static variables of the kernel and the memory they point to. `pcb` is
physical memory read as a PCB at each address; `pcbs` are the addresses at which
one was allocated and not freed; `stackPointer` is what the timer handler last put
in `rsp`. What lies in freed memory is left alone here: see `Machine`. -/
structure Kernel (M : Type) where
  memory : M
  pcb : Addr → PCB
  pcbs : Finset Addr
  processes : ProcessManager
  currentPid : Int
  nextFreePid : Int
  quantum : Nat
  first : Bool
  manager : Addr
  semaphores : Int → Sem
  pipes : Nat → Pipe
  nextSemId : Int
  pipeManagerInit : Bool
  stackPointer : Nat

namespace Kernel

variable {M : Type}

def editPcb (k : Kernel M) (process : Addr) (change : PCB → PCB) : Kernel M :=
  { k with pcb := Function.update k.pcb process (change (k.pcb process)) }

def setState (k : Kernel M) (process : Addr) (state : ProcessState) : Kernel M :=
  k.editPcb process fun pcb => { pcb with state := state }

def editProcesses (k : Kernel M) (change : ProcessManager → ProcessManager) : Kernel M :=
  { k with processes := change k.processes }

def setQueue (k : Kernel M) (name : QueueName) (queue : Queue Addr) : Kernel M :=
  k.editProcesses fun processes =>
    { processes with queue := Function.update processes.queue name queue }

def setCurrent (k : Kernel M) (process : Addr) : Kernel M :=
  k.editProcesses fun processes => { processes with currentProcess := process }

def setForeground (k : Kernel M) (process : Addr) : Kernel M :=
  k.editProcesses fun processes => { processes with foregroundProcess := process }

def editSem (k : Kernel M) (id : Int) (change : Sem → Sem) : Kernel M :=
  { k with semaphores := Function.update k.semaphores id (change (k.semaphores id)) }

end Kernel
end SoKernel
