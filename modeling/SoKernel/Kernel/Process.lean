import SoKernel.Kernel.Queue

namespace SoKernel
open MemoryManager QueueName

variable {M : Type} [MemoryManager M]

namespace Kernel

/-! ## `process/process.c` -/

def hasPid (k : Kernel M) (pid : Int) (process : Addr) : Bool :=
  process ≠ 0 ∧ (k.pcb process).pid = pid

/-- Append a PCB to a queue; `false` where the node cannot be allocated. -/
def enqueueProcess (k : Kernel M) (name : QueueName) (process : Addr) : Bool × Kernel M :=
  match (k.processes.queue name).enqueue process k.memory with
  | (none, memory) => (false, { k with memory := memory })
  | (some queue, memory) => (true, { k with memory := memory }.setQueue name queue)

def addProcess (process : Addr) (k : Kernel M) : Kernel M :=
  if process = 0 then k
  else
    let k := if k.processes.currentProcess = 0 ∨
        k.processes.currentProcess = k.processes.idleProcess
      then k.setCurrent process else k
    (k.enqueueProcess readyQueue process).2

def removeZombieProcess (pid : Int) (k : Kernel M) : Kernel M :=
  match (k.processes.queue zombieQueue).removeFromQueue (k.hasPid pid) k.memory with
  | none => k
  | some (_, queue, memory) => { k with memory := memory }.setQueue zombieQueue queue

/-- Returns the PCB that was moved, or NULL. -/
def switchProcess (qFrom qTo : QueueName) (pid : Int) (k : Kernel M) : Addr × Kernel M :=
  match (k.processes.queue qFrom).removeFromQueue (k.hasPid pid) k.memory with
  | none => (0, k)
  | some (process, queue, memory) =>
    let k := { k with memory := memory }.setQueue qFrom queue
    let (done, k) := k.enqueueProcess qTo process
    if done then (process, k) else (0, (k.enqueueProcess qFrom process).2)

def contains (k : Kernel M) (name : QueueName) (pid : Int) : Option Addr :=
  (k.processes.queue name).containsQueue (k.hasPid pid)

def blockProcessQueue (pid : Int) (k : Kernel M) : Int × Kernel M :=
  match (if (k.contains readyQueue pid).isSome then some readyQueue
    else if (k.contains blockedQueueBySem pid).isSome then some blockedQueueBySem
    else none) with
  | none => (-1, k)
  | some queue =>
    let (process, k) := switchProcess queue blockedQueue pid k
    if process = 0 then (-1, k) else (0, k.setState process .blocked)

def blockProcessQueueBySem (pid : Int) (k : Kernel M) : Int × Kernel M :=
  let (process, k) := switchProcess readyQueue blockedQueueBySem pid k
  if process = 0 then (-1, k) else (0, k.setState process .waitingSem)

def unblockProcessQueue (pid : Int) (k : Kernel M) : Int × Kernel M :=
  let (process, k) := switchProcess blockedQueue readyQueue pid k
  if process = 0 then (-1, k) else (0, k.setState process .ready)

def unblockProcessQueueBySem (pid : Int) (k : Kernel M) : Int × Kernel M :=
  let (process, k) := switchProcess blockedQueueBySem readyQueue pid k
  if process = 0 then (-1, k) else (0, k.setState process .ready)

/-- NULL where no PCB has the pid. -/
def getProcess (pid : Int) (k : Kernel M) : Addr :=
  if k.processes.currentProcess ≠ 0 ∧ (k.pcb k.processes.currentProcess).pid = pid then
    k.processes.currentProcess
  else if k.processes.idleProcess ≠ 0 ∧ (k.pcb k.processes.idleProcess).pid = pid then
    k.processes.idleProcess
  else
    match k.contains readyQueue pid, k.contains blockedQueue pid,
        k.contains blockedQueueBySem pid, k.contains zombieQueue pid with
    | some process, _, _, _ => process
    | none, some process, _, _ => process
    | none, none, some process, _ => process
    | none, none, none, some process => process
    | none, none, none, none => 0

def getNextProcess (k : Kernel M) : Addr × Kernel M :=
  match (k.processes.queue readyQueue).dequeue k.memory with
  | none => (k.processes.idleProcess, k.setCurrent k.processes.idleProcess)
  | some (nextProcess, queue, memory) =>
    let k := { k with memory := memory }.setQueue readyQueue queue
    let (done, k) := k.enqueueProcess readyQueue nextProcess
    if ¬ done then (0, k)
    else
      let k := k.setCurrent nextProcess
      if (k.pcb nextProcess).foreground then (nextProcess, k.setForeground nextProcess)
      else (nextProcess, k)

def setIdleProcess (idleProcess : Addr) (k : Kernel M) : Kernel M :=
  k.editProcesses fun processes =>
    { processes with idleProcess := idleProcess, currentProcess := idleProcess }

def killProcess (pid : Int) (retValue : Nat) (state : ProcessState) (k : Kernel M) :
    Addr × Kernel M :=
  let k := if k.processes.currentProcess ≠ 0 ∧ (k.pcb k.processes.currentProcess).pid = pid
    then k.setCurrent k.processes.idleProcess else k
  let (process, k) := switchProcess readyQueue zombieQueue pid k
  let (process, k) := if process = 0 then switchProcess blockedQueue zombieQueue pid k
    else (process, k)
  let (process, k) := if process = 0 then switchProcess blockedQueueBySem zombieQueue pid k
    else (process, k)
  if process = 0 then (0, k)
  else
    let k := if k.processes.foregroundProcess ≠ 0 ∧
        (k.pcb k.processes.foregroundProcess).pid = pid then k.setForeground 0 else k
    (process, (k.editPcb process fun pcb => { pcb with retValue := retValue }).setState process
      state)

def getCurrentPid (k : Kernel M) : Int :=
  if k.processes.currentProcess = 0 then -1 else (k.pcb k.processes.currentProcess).pid

def getForegroundPid (k : Kernel M) : Int :=
  if k.processes.foregroundProcess = 0 then -1 else (k.pcb k.processes.foregroundProcess).pid

end Kernel
end SoKernel
