import SoKernel.Kernel.Pipe

namespace SoKernel
open MemoryManager QueueName

variable {M : Type} [MemoryManager M]

def shellPid : Int := 1
def tty : Int := 0

/-- The arguments of `createProcess`; `none` and `0` are NULL. `argc` is the
length of `arg`, as both callers pass it. -/
structure CreationParams where
  name : Option String
  function : Addr
  arg : List String
  priority : Int
  foreground : Bool
  stdin : Int
  stdout : Int
deriving DecidableEq, Repr

/-- What `copyArgsToProcessStack` takes off `paramsBase`: the pointer array and
the strings with their terminators. -/
def copiedArgs (arg : List String) : Nat :=
  if arg = [] then 0 else 8 * (arg.length + 1) + (arg.map fun s => s.utf8ByteSize + 1).sum

/-- `processStackFrame`: aligned, then twenty words. -/
def processStackFrame (paramsBase : Nat) : Nat := paramsBase / 16 * 16 - 160

namespace Kernel

/-- The base and the stack pointer of the new stack; a stack pointer of 0 is failure. -/
def setupProcessStack (arg : List String) (k : Kernel M) : Nat × Nat × Kernel M :=
  let (stack, memory) := allocMemory stackSize k.memory
  if stack = 0 then (0, 0, { k with memory := memory })
  else
    let base := stack + stackSize
    (base, processStackFrame (base - copiedArgs arg), { k with memory := memory })

/-- The PCB as it is filled in before the descriptors are known. -/
def newPcb (params : CreationParams) (base rsp : Nat) (k : Kernel M) : PCB where
  pid := k.nextFreePid
  parentPid := k.getCurrentPid
  waitingForPid := -1
  priority :=
    if idlePriority < (params.priority % 256).toNat then maxPriority
    else (params.priority % 256).toNat
  state := .ready
  rsp := rsp
  base := base
  entryPoint := params.function
  retValue := 0
  foreground := params.foreground
  stdin := -1
  stdout := -1

/-- Returns the new PCB, or NULL. -/
def createProcessPCB (params : CreationParams) (k : Kernel M) : Addr × Kernel M :=
  if params.name = none ∨ params.function = 0 then (0, k)
  else
    let (process, memory) := allocMemory pcbSize k.memory
    let k := { k with memory := memory }
    if process = 0 then (0, k)
    else
      let pid := k.nextFreePid
      let (base, rsp, afterStack) := setupProcessStack params.arg k
      let k := { afterStack with
        pcb := Function.update k.pcb process (newPcb params base rsp k)
        nextFreePid := pid + 1 }
      if rsp = 0 then (0, { k with memory := freeMemory process k.memory })
      else
        let k := { k with pcbs := insert process k.pcbs }
        let enter (k : Kernel M) : Kernel M :=
          if (k.pcb process).priority ≠ idlePriority then addProcess process k else k
        if 1 < pid then
          if ¬ params.foreground ∧ params.stdin = tty then
            let k := k.editPcb process fun pcb => { pcb with stdout := params.stdout }
            let k := k.setState process .blocked
            (process, (k.enqueueProcess blockedQueue process).2)
          else
            let stdin := if params.stdin = tty then k.getCurrentProcessStdin else params.stdin
            let stdout := if params.stdout = 1 then k.getCurrentProcessStdout else params.stdout
            (process, enter (k.editPcb process fun pcb =>
              { pcb with stdin := stdin, stdout := stdout }))
        else if pid = shellPid then
          let (stdin, k) := k.createPipe
          let k := k.editPcb process fun pcb => { pcb with stdin := stdin }
          if stdin < 0 then
            let memory := freeMemory process (freeMemory (base - stackSize) k.memory)
            (0, { k with memory := memory, pcbs := k.pcbs.erase process })
          else (process, enter (k.editPcb process fun pcb => { pcb with stdout := 1 }))
        else (process, enter k)

def createProcess (params : CreationParams) (k : Kernel M) : Int × Kernel M :=
  let (process, k) := createProcessPCB params k
  if process = 0 then (-1, k) else ((k.pcb process).pid, k)

/-! ## Boot -/

/-- `sizeof(ProcessManagerCDT)` and `sizeof(SemaphoreCDT)`. -/
def processManagerSize : Nat := 56
def semaphoreTableSize : Nat := 4800

/-- The static variables before `initScheduler`; `processes` is NULL. -/
def initial (pcb : Addr → PCB) (memory : M) : Kernel M where
  memory := memory
  pcb := pcb
  pcbs := ∅
  processes := ⟨0, 0, 0, fun _ => []⟩
  currentPid := -1
  nextFreePid := 0
  quantum := 0
  first := true
  manager := 0
  semaphores _ := ⟨0, false, false, none, 0⟩
  pipes _ := closedPipe fun _ => 0
  nextSemId := 0
  pipeManagerInit := false
  stackPointer := 0

/-- `createProcessManager`: the manager and its four queues, or `none` where an
allocation fails. -/
def createProcessManager (memory : M) : Option M :=
  let (list, memory) := allocMemory processManagerSize memory
  let (first, memory) := allocMemory queueSize memory
  let (second, memory) := allocMemory queueSize memory
  let (third, memory) := allocMemory queueSize memory
  let (fourth, memory) := allocMemory queueSize memory
  if list = 0 ∨ first = 0 ∨ second = 0 ∨ third = 0 ∨ fourth = 0 then none else some memory

def idleParams (idle : Addr) : CreationParams := ⟨some "idle", idle, [], 6, false, -1, -1⟩

def shellParams (module : Addr) : CreationParams := ⟨some "shell", module, [], 0, true, 0, 1⟩

def initScheduler (idle : Addr) (k : Kernel M) : Option (Kernel M) :=
  (createProcessManager k.memory).map fun memory =>
    let (idleProcess, k) := createProcessPCB (idleParams idle) { k.initPipeManager with memory := memory }
    k.setIdleProcess idleProcess

/-- `semManager`. -/
def initSemaphores (k : Kernel M) : Option (Kernel M) :=
  let (manager, memory) := allocMemory semaphoreTableSize k.memory
  if manager = 0 then none else some { k with memory := memory, manager := manager }

/-- `main` up to the first interrupt; `none` where the kernel cannot start. -/
def boot (idle module : Addr) (pcb : Addr → PCB) (memory : M) : Option (Kernel M) :=
  (initScheduler idle (initial pcb memory)).bind fun k =>
    (initSemaphores k).map fun k => (createProcess (shellParams module) k).2

end Kernel
end SoKernel
