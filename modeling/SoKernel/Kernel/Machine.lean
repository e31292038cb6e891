import SoKernel.Kernel.Creation
import SoKernel.Memory.HeaderWords

namespace SoKernel
open Buddy QueueName Lib Kernel

/-! ## The kernel in one memory

`Kernel` keeps queues, PCBs and semaphores as values of their own. Here they lie where the
allocator has put them, so that what uses freed memory reads and writes what is there now. Left
out are the calls that the runs of this development do not need, the names of processes and what
is on their stacks. -/

/-- The static variables of the kernel, and memory with the buddy build of the allocator. -/
structure Machine where
  words : Words
  processes : Addr
  currentPid : Int
  nextFreePid : Int
  quantum : Nat
  first : Bool
  manager : Addr
  pipes : Nat → Pipe
  nextSemId : Int
  pipeManagerInit : Bool
  stackPointer : Nat

namespace Machine

/-- A function of the kernel; `none` where it runs forever. -/
abbrev Action := StateT Machine Option

def forever {α : Type} : Action α := fun _ => none

/-- A chain of pointers that is longer than memory never ends. -/
def steps : Nat := 2 ^ 64

def load (bytes : Nat) (address : Addr) : Action Nat :=
  fun m => some (m.words.load bytes address, m)

def store (bytes : Nat) (address : Addr) (value : Nat) : Action Unit :=
  fun m => some ((), { m with words := m.words.store bytes address value })

/-- An `int`. -/
def loadInt (address : Addr) : Action Int := do
  return (BitVec.ofNat 32 (← load 4 address)).toInt

def storeInt (address : Addr) (value : Int) : Action Unit :=
  store 4 address (BitVec.ofInt 32 value).toNat

def allocMemory (memoryToAllocate : Nat) : Action Addr := fun m =>
  let (address, words) := Words.allocMemory memoryToAllocate m.words
  some (address, { m with words := words })

def freeMemory (address : Addr) : Action Unit :=
  fun m => some ((), { m with words := Words.freeMemory address m.words })

/-! ## Where the fields lie -/

def dataAt (node : Addr) : Addr := node
def nextAt (node : Addr) : Addr := node + 8

def frontAt (queue : Addr) : Addr := queue
def rearAt (queue : Addr) : Addr := queue + 8
def sizeAt (queue : Addr) : Addr := queue + 16

def valueAt (sem : Addr) : Addr := sem
def lockAt (sem : Addr) : Addr := sem + 4
def usedAt (sem : Addr) : Addr := sem + 5
def blockedAt (sem : Addr) : Addr := sem + 8

def pidAt (process : Addr) : Addr := process
def parentPidAt (process : Addr) : Addr := process + 4
def waitingForPidAt (process : Addr) : Addr := process + 8
def priorityAt (process : Addr) : Addr := process + 12
def stateAt (process : Addr) : Addr := process + 16
def rspAt (process : Addr) : Addr := process + 24
def baseAt (process : Addr) : Addr := process + 32
def entryPointAt (process : Addr) : Addr := process + 40
def retValueAt (process : Addr) : Addr := process + 48
def foregroundAt (process : Addr) : Addr := process + 56
def stdinAt (process : Addr) : Addr := process + 60
def stdoutAt (process : Addr) : Addr := process + 64

def foregroundProcessAt (list : Addr) : Addr := list
def currentProcessAt (list : Addr) : Addr := list + 8
def idleProcessAt (list : Addr) : Addr := list + 48

/-- The pointer to a queue in the process manager. -/
def queueAt (list : Addr) : QueueName → Addr
  | readyQueue => list + 16
  | blockedQueue => list + 24
  | blockedQueueBySem => list + 32
  | zombieQueue => list + 40

/-! ## `ds/queue.c` -/

def createQueue : Action Addr := do
  let queue ← allocMemory queueSize
  if queue = 0 then return 0
  store 8 (frontAt queue) 0
  store 8 (rearAt queue) 0
  storeInt (sizeAt queue) 0
  return queue

def freeNodes : Nat → Addr → Action Unit
  | 0, _ => forever
  | fuel + 1, current => do
    if current = 0 then return
    let next ← load 8 (nextAt current)
    freeMemory current
    freeNodes fuel next

def freeQueue (queue : Addr) : Action Unit := do
  if queue = 0 then return
  freeNodes steps (← load 8 (frontAt queue))
  freeMemory queue

/-- `queue->size += difference`. -/
def resize (queue : Addr) (difference : Int) : Action Unit := do
  storeInt (sizeAt queue) ((← loadInt (sizeAt queue)) + difference)

def enqueue (queue data : Addr) : Action Int := do
  if queue = 0 then return -1
  let newNode ← allocMemory nodeSize
  if newNode = 0 then return -1
  store 8 (dataAt newNode) data
  store 8 (nextAt newNode) 0
  let rear ← load 8 (rearAt queue)
  if rear = 0 then
    store 8 (frontAt queue) newNode
    store 8 (rearAt queue) newNode
  else
    store 8 (nextAt rear) newNode
    store 8 (rearAt queue) newNode
  resize queue 1
  return 0

def dequeue (queue : Addr) : Action Addr := do
  if queue = 0 then return 0
  let temp ← load 8 (frontAt queue)
  if temp = 0 then return 0
  let data ← load 8 (dataAt temp)
  store 8 (frontAt queue) (← load 8 (nextAt temp))
  if (← load 8 (frontAt queue)) = 0 then store 8 (rearAt queue) 0
  freeMemory temp
  resize queue (-1)
  return data

def isQueueEmpty (queue : Addr) : Action Bool := do
  if queue = 0 then return true
  return (← loadInt (sizeAt queue)) = 0

/-- `hasPid`, the only comparison the kernel makes. -/
def hasPid (process : Addr) (pid : Int) : Action Bool := do
  if process = 0 then return false
  return (← loadInt (pidAt process)) = pid

def findFrom (pid : Int) : Nat → Addr → Action Addr
  | 0, _ => forever
  | fuel + 1, current => do
    if current = 0 then return 0
    let data ← load 8 (dataAt current)
    if ← hasPid data pid then return data
    findFrom pid fuel (← load 8 (nextAt current))

def containsQueue (queue : Addr) (pid : Int) : Action Addr := do
  if queue = 0 then return 0
  findFrom pid steps (← load 8 (frontAt queue))

def removeFrom (queue : Addr) (pid : Int) : Nat → Addr → Addr → Action Addr
  | 0, _, _ => forever
  | fuel + 1, previous, current => do
    if current = 0 then return 0
    if ← hasPid (← load 8 (dataAt current)) pid then
      let next ← load 8 (nextAt current)
      if previous = 0 then store 8 (frontAt queue) next
      else store 8 (nextAt previous) next
      if current = (← load 8 (rearAt queue)) then store 8 (rearAt queue) previous
      let removedData ← load 8 (dataAt current)
      freeMemory current
      resize queue (-1)
      return removedData
    removeFrom queue pid fuel current (← load 8 (nextAt current))

def removeFromQueue (queue : Addr) (pid : Int) : Action Addr := do
  if queue = 0 then return 0
  removeFrom queue pid steps 0 (← load 8 (frontAt queue))

/-! ## `process/process.c` -/

def createProcessManager : Action Addr := do
  let list ← allocMemory processManagerSize
  if list = 0 then return 0
  store 8 (foregroundProcessAt list) 0
  store 8 (currentProcessAt list) 0
  store 8 (idleProcessAt list) 0
  let ready ← createQueue
  store 8 (queueAt list readyQueue) ready
  if ready = 0 then
    freeMemory list
    return 0
  let blocked ← createQueue
  store 8 (queueAt list blockedQueue) blocked
  if blocked = 0 then
    freeQueue ready
    freeMemory list
    return 0
  let zombie ← createQueue
  store 8 (queueAt list zombieQueue) zombie
  if zombie = 0 then
    freeQueue ready
    freeQueue blocked
    freeMemory list
    return 0
  let bySem ← createQueue
  store 8 (queueAt list blockedQueueBySem) bySem
  if bySem = 0 then
    freeQueue ready
    freeQueue blocked
    freeQueue zombie
    freeMemory list
    return 0
  return list

/-- `list->currentProcess` and its like; NULL where there is no list. -/
def process (field : Addr → Addr) : Action Addr := do
  let list := (← get).processes
  if list = 0 then return 0
  load 8 (field list)

def setProcess (field : Addr → Addr) (process : Addr) : Action Unit := do
  let list := (← get).processes
  if list = 0 then return
  store 8 (field list) process

def queue (name : QueueName) : Action Addr := process fun list => queueAt list name

/-- The pid of a process, or -1 for NULL. -/
def pidOf (process : Addr) : Action Int := do
  if process = 0 then return -1
  loadInt (pidAt process)

def getCurrentPid : Action Int := do
  pidOf (← process currentProcessAt)

def addProcess (added : Addr) : Action Unit := do
  if (← get).processes = 0 ∨ added = 0 then return
  let current ← process currentProcessAt
  if current = 0 ∨ current = (← process idleProcessAt) then
    setProcess currentProcessAt added
  let _ ← enqueue (← queue readyQueue) added

def switchProcess (qFrom qTo : QueueName) (pid : Int) : Action Addr := do
  let source ← queue qFrom
  let target ← queue qTo
  if source = 0 ∨ target = 0 then return 0
  let process ← removeFromQueue source pid
  if process = 0 then return 0
  if (← enqueue target process) ≠ 0 then
    let _ ← enqueue source process
    return 0
  return process

def setState (process : Addr) (state : ProcessState) : Action Unit :=
  store 4 (stateAt process) state.value

def stateOf (process : Addr) : Action ProcessState := do
  return .ofValue (← load 4 (stateAt process))

/-- Between `blockProcessQueueBySem`, `unblockProcessQueueBySem` and `unblockProcessQueue` only the
queues and the state differ. -/
def requeue (qFrom qTo : QueueName) (state : ProcessState) (pid : Int) : Action Int := do
  let process ← switchProcess qFrom qTo pid
  if process = 0 then return -1
  setState process state
  return 0

def blockProcessQueueBySem : Int → Action Int := requeue readyQueue blockedQueueBySem .waitingSem

def unblockProcessQueueBySem : Int → Action Int := requeue blockedQueueBySem readyQueue .ready

def unblockProcessQueue : Int → Action Int := requeue blockedQueue readyQueue .ready

def getProcess (pid : Int) : Action Addr := do
  let current ← process currentProcessAt
  if ← hasPid current pid then return current
  let idle ← process idleProcessAt
  if ← hasPid idle pid then return idle
  let ready ← containsQueue (← queue readyQueue) pid
  if ready ≠ 0 then return ready
  let blocked ← containsQueue (← queue blockedQueue) pid
  if blocked ≠ 0 then return blocked
  let bySem ← containsQueue (← queue blockedQueueBySem) pid
  if bySem ≠ 0 then return bySem
  containsQueue (← queue zombieQueue) pid

def getNextProcess : Action Addr := do
  if (← get).processes = 0 then return 0
  let ready ← queue readyQueue
  if ← isQueueEmpty ready then
    let idle ← process idleProcessAt
    setProcess currentProcessAt idle
    return idle
  let nextProcess ← dequeue ready
  if nextProcess = 0 then return 0
  if (← enqueue ready nextProcess) ≠ 0 then return 0
  setProcess currentProcessAt nextProcess
  if (← load 1 (foregroundAt nextProcess)) = 1 then
    setProcess foregroundProcessAt nextProcess
  return nextProcess

def killProcess (pid : Int) (retValue : Nat) (state : ProcessState) : Action Addr := do
  if (← get).processes = 0 then return 0
  if ← hasPid (← process currentProcessAt) pid then
    setProcess currentProcessAt (← process idleProcessAt)
  let mut killed ← switchProcess readyQueue zombieQueue pid
  if killed = 0 then
    killed ← switchProcess blockedQueue zombieQueue pid
    if killed = 0 then
      killed ← switchProcess blockedQueueBySem zombieQueue pid
      if killed = 0 then return 0
  if ← hasPid (← process foregroundProcessAt) pid then
    setProcess foregroundProcessAt 0
  store 8 (retValueAt killed) retValue
  setState killed state
  return killed

/-! ## `process/scheduler.c` -/

def schedule (rsp : Nat) : Action Nat := do
  let current ← process currentProcessAt
  let m ← get
  if 0 < m.quantum ∧ (← stateOf current) = .running then
    set { m with quantum := m.quantum - 1 }
    return rsp
  if ¬ m.first then store 8 (rspAt current) rsp
  else modify fun m => { m with first := false }
  if (← stateOf current) = .running then setState current .ready
  let nextProcess ← getNextProcess
  setState nextProcess .running
  let pid ← loadInt (pidAt nextProcess)
  modify fun m => { m with currentPid := pid }
  let priority ← load 1 (priorityAt nextProcess)
  modify fun m => { m with quantum := calculateQuantum priority }
  load 8 (rspAt nextProcess)

def callTimerTick (rsp : Nat) : Action Unit := do
  let stackPointer ← schedule rsp
  modify fun m => { m with stackPointer := stackPointer }

def yield (rsp : Nat) : Action Unit := do
  modify fun m => { m with quantum := 0 }
  callTimerTick rsp

def blockProcessBySem (pid : Int) (rsp : Nat) : Action Int := do
  if (← blockProcessQueueBySem pid) ≠ 0 then return -1
  if pid = (← getCurrentPid) then yield rsp
  return 0

/-- `child->state` becomes the exit status. -/
def reapChild (child : Addr) : Action Int := do
  let childPid ← loadInt (pidAt child)
  store 4 (stateAt child) (← load 8 (retValueAt child))
  let _ ← removeFromQueue (← queue zombieQueue) childPid
  freeMemory child
  return childPid

def wakeupWaitingParent (parentPid childPid : Int) : Action Unit := do
  if parentPid = -1 then return
  if parentPid = (← loadInt (pidAt (← process idleProcessAt))) then
    let _ ← reapChild (← getProcess childPid)
  let parent ← getProcess parentPid
  if parent = 0 then return
  if (← stateOf parent) = .blocked ∧ (← loadInt (waitingForPidAt parent)) = childPid then
    let _ ← unblockProcessQueue parentPid

def kill (pid : Int) (retValue rsp : Nat) : Action Int := do
  if pid ≤ 1 then return -1
  let process ← killProcess pid retValue .zombie
  if process = 0 then return -1
  freeMemory ((← load 8 (baseAt process)) - stackSize)
  wakeupWaitingParent (← loadInt (parentPidAt process)) pid
  if pid = (← get).currentPid then
    modify fun m => { m with quantum := 0 }
    callTimerTick rsp
  return 0

/-! ## `semaphores/semaphore.c` -/

def semAt (id : Int) : Action Addr := do
  return (← get).manager + (16 * id).toNat

/-- `xchg` until the lock was free; who finds it taken finds it so forever, with interrupts off. -/
def acquire (sem : Addr) : Action Unit := do
  let taken ← load 1 (lockAt sem)
  store 1 (lockAt sem) 1
  if taken ≠ 0 then forever

def release (sem : Addr) : Action Unit := store 1 (lockAt sem) 0

def clearSems : Nat → Addr → Action Unit
  | 0, _ => return
  | count + 1, sem => do
    store 4 (valueAt sem) 0
    store 1 (lockAt sem) 0
    store 1 (usedAt sem) 0
    store 8 (blockedAt sem) 0
    clearSems count (sem + 16)

def semManager : Action Addr := do
  let manager ← allocMemory semaphoreTableSize
  modify fun m => { m with manager := manager }
  if manager = 0 then return 0
  clearSems numSems.toNat manager
  return manager

def semInit (id : Int) (value : Nat) : Action Int := do
  if id < 0 ∨ numSems ≤ id then return -1
  let sem ← semAt id
  if (← load 1 (usedAt sem)) ≠ 0 then return -1
  store 4 (valueAt sem) value
  store 1 (lockAt sem) 0
  store 1 (usedAt sem) 1
  let blocked ← createQueue
  store 8 (blockedAt sem) blocked
  if blocked = 0 then
    freeMemory (← get).manager
    return -1
  return 0

def semClose (id : Int) : Action Int := do
  if id < 0 ∨ numSems ≤ id then return -1
  let sem ← semAt id
  if (← load 1 (usedAt sem)) = 0 then return -1
  freeQueue (← load 8 (blockedAt sem))
  store 1 (usedAt sem) 0
  store 4 (valueAt sem) 0
  store 1 (lockAt sem) 0
  return 0

def wait (sem : Addr) (rsp : Nat) : Action Int := do
  acquire sem
  let value ← load 4 (valueAt sem)
  if 0 < value then
    store 4 (valueAt sem) (value - 1)
    release sem
    return 0
  let pid ← allocMemory pidSize
  if pid = 0 then
    release sem
    return -1
  storeInt pid (← getCurrentPid)
  let _ ← enqueue (← load 8 (blockedAt sem)) pid
  release sem
  let _ ← blockProcessBySem (← loadInt pid) rsp
  return 0

def post (sem : Addr) : Action Int := do
  acquire sem
  let pidPtr ← dequeue (← load 8 (blockedAt sem))
  if pidPtr ≠ 0 then
    let pid ← loadInt pidPtr
    freeMemory pidPtr
    let _ ← unblockProcessQueueBySem pid
    release sem
    return 0
  store 4 (valueAt sem) ((← load 4 (valueAt sem)) + 1)
  release sem
  return 0

def semWait (id : Int) (rsp : Nat) : Action Int := do
  wait (← semAt id) rsp

def semPost (id : Int) : Action Int := do
  post (← semAt id)

/-! ## `pipes/pipes.c` -/

def initPipeManager : Action Unit := modify fun m =>
  { m with pipes := fun slot => if slot < maxPipes then closedPipe (m.pipes slot).buffer
      else m.pipes slot }

def ensurePipeManagerInit : Action Unit := do
  if (← get).pipeManagerInit then return
  initPipeManager
  modify fun m => { m with pipeManagerInit := true }

def createPipeFrom : Nat → Nat → Action Int
  | 0, _ => return -1
  | fuel + 1, slot => do
    let m ← get
    if (m.pipes slot).isOpen then createPipeFrom fuel (slot + 1)
    else
      set { m with
        nextSemId := m.nextSemId + 3
        pipes := Function.update m.pipes slot { m.pipes slot with
          readIdx := 0, writeIdx := 0, count := 0, isOpen := true
          semReaders := m.nextSemId, semWriters := m.nextSemId + 1, mutex := m.nextSemId + 2 } }
      if (← semInit m.nextSemId 0) < 0 then return -1
      if (← semInit (m.nextSemId + 1) pipeBufferSize) < 0 then return -1
      if (← semInit (m.nextSemId + 2) 1) < 0 then return -1
      return if slot = 0 then 0 else (slot : Int) + 2

def createPipe : Action Int := do
  ensurePipeManagerInit
  createPipeFrom maxPipes 0

/-! ## Creating processes, and boot -/

def setupProcessStack (stackBase : Addr) (arg : List String) : Action Nat := do
  let stack ← allocMemory stackSize
  store 8 stackBase stack
  if stack = 0 then return 0
  store 8 stackBase (stack + stackSize)
  return processStackFrame (stack + stackSize - copiedArgs arg)

/-- A descriptor of the process that runs, or -1. -/
def inherited (field : Addr → Addr) : Action Int := do
  let current ← process currentProcessAt
  if current = 0 then return -1
  loadInt (field current)

def createProcessPCB (params : CreationParams) : Action Addr := do
  if params.name = none ∨ params.function = 0 then return 0
  let process ← allocMemory pcbSize
  if process = 0 then return 0
  let priority := if idlePriority < (params.priority % 256).toNat then maxPriority
    else (params.priority % 256).toNat
  let pid := (← get).nextFreePid
  modify fun m => { m with nextFreePid := pid + 1 }
  storeInt (pidAt process) pid
  storeInt (waitingForPidAt process) (-1)
  store 8 (retValueAt process) 0
  store 1 (foregroundAt process) params.foreground.toNat
  storeInt (stdinAt process) (-1)
  storeInt (stdoutAt process) (-1)
  setState process .ready
  store 1 (priorityAt process) priority
  storeInt (parentPidAt process) (← getCurrentPid)
  store 8 (entryPointAt process) params.function
  let rsp ← setupProcessStack (baseAt process) params.arg
  store 8 (rspAt process) rsp
  if rsp = 0 then
    freeMemory process
    return 0
  if 1 < pid then
    if ¬ params.foreground ∧ params.stdin = tty then
      storeInt (stdoutAt process) params.stdout
      setState process .blocked
      if (← get).processes ≠ 0 then
        let _ ← enqueue (← queue blockedQueue) process
      return process
    storeInt (stdinAt process)
      (← if params.stdin = tty then inherited stdinAt else pure params.stdin)
    storeInt (stdoutAt process)
      (← if params.stdout = 1 then inherited stdoutAt else pure params.stdout)
  else if pid = shellPid then
    let stdin ← createPipe
    storeInt (stdinAt process) stdin
    if stdin < 0 then
      freeMemory ((← load 8 (baseAt process)) - stackSize)
      freeMemory process
      return 0
    storeInt (stdoutAt process) 1
  if priority ≠ idlePriority then addProcess process
  return process

def createProcess (params : CreationParams) : Action Int := do
  pidOf (← createProcessPCB params)

def initScheduler (idle : Addr) : Action Unit := do
  initPipeManager
  let list ← createProcessManager
  let idleProcess ← createProcessPCB (idleParams idle)
  if list ≠ 0 then
    store 8 (idleProcessAt list) idleProcess
    store 8 (currentProcessAt list) idleProcess
  modify fun m => { m with processes := list }

/-- `main`, up to the first interrupt. -/
def main (idle module : Addr) : Action Unit := do
  modify fun m => { m with words := Words.createMemoryManager m.words }
  initScheduler idle
  if (← semManager) = 0 then forever
  let _ ← createProcess (shellParams module)

end Machine
end SoKernel
