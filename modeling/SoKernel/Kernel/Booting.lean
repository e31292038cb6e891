import SoKernel.Kernel.SemaphoreSteps

namespace SoKernel
open MemoryManager QueueName Lib

variable {M : Type}

namespace Kernel

variable {k k' k'' : Kernel M} {a : Addr} {id : Int}

/-- The process table is left alone. -/
def TableKept (k k' : Kernel M) : Prop :=
  ∃ memory semaphores pipes nextSemId pipeManagerInit,
    k' = { k with
      memory := memory, semaphores := semaphores, pipes := pipes
      nextSemId := nextSemId, pipeManagerInit := pipeManagerInit }

theorem TableKept.refl : TableKept k k := ⟨_, _, _, _, _, rfl⟩

theorem TableKept.trans (first : TableKept k k') (second : TableKept k' k'') : TableKept k k'' := by
  obtain ⟨_, _, _, _, _, rfl⟩ := first
  obtain ⟨_, _, _, _, _, rfl⟩ := second
  exact ⟨_, _, _, _, _, rfl⟩

/-- The pipes, the semaphores and the counters of both are the same. -/
structure SamePipes (k k' : Kernel M) : Prop where
  pipes : k'.pipes = k.pipes
  semaphores : k'.semaphores = k.semaphores
  nextSemId : k'.nextSemId = k.nextSemId
  pipeManagerInit : k'.pipeManagerInit = k.pipeManagerInit

theorem SamePipes.trans (first : SamePipes k k') (second : SamePipes k' k'') : SamePipes k k'' :=
  ⟨second.pipes.trans first.pipes, second.semaphores.trans first.semaphores,
    second.nextSemId.trans first.nextSemId, second.pipeManagerInit.trans first.pipeManagerInit⟩

/-- Before the first call of `createPipe`. -/
structure Unpiped (k : Kernel M) : Prop where
  unused : ∀ id, (k.semaphores id).used = false
  nextSemId : k.nextSemId = 0
  pipeManagerInit : k.pipeManagerInit = false

variable [MemoryManager M]

/-- The shell got its pipe from the first call of `createPipe`. -/
def Piped (k : Kernel M) : Prop :=
  ∃ before : Kernel M, Unpiped before ∧ 0 ≤ (createPipe before).1 ∧
    SamePipes (createPipe before).2 k

/-- No semaphore is held and none has a waiter; those in use have a list, unless there
was no memory for it. -/
def Quiet (k : Kernel M) : Prop :=
  ∀ id, (k.semaphores id).waiting = [] ∧ (k.semaphores id).lock = false ∧
    (AllocSucceeds M → (k.semaphores id).used → (k.semaphores id).blocked ≠ none)

theorem Quiet.withSem (quiet : Quiet k) {memory : M} {sem : Sem} (waiting : sem.waiting = [])
    (lock : sem.lock = false) (list : AllocSucceeds M → sem.used → sem.blocked ≠ none) :
    Quiet (k.withSem memory id sem) := by
  intro other
  rw [withSem_apply]
  split
  · exact ⟨waiting, lock, list⟩
  · exact quiet other

/-- The record of a process that has not run yet. -/
structure Fresh (pid : Int) (record : PCB) : Prop where
  older : record.parentPid < pid
  pid : record.pid = pid
  state : record.state = .ready
  waitingForPid : record.waitingForPid = -1

/-- The state `main` leaves: idle and the shell, both about to run for the first time. -/
structure Start (shell : Addr) (k : Kernel M) : Prop where
  idleRecord : Fresh 0 (k.pcb k.processes.idleProcess)
  shellRecord : Fresh 1 (k.pcb shell)
  apart : shell ≠ k.processes.idleProcess
  present : k.processes.idleProcess ≠ 0 ∧ shell ≠ 0
  pcbs : k.pcbs = {shell, k.processes.idleProcess}
  nextFreePid : k.nextFreePid = 2
  items : k.items = push (fun _ => []) readyQueue shell
  current : k.processes.currentProcess = shell
  foreground : k.processes.foregroundProcess = 0
  first : k.first = true
  quiet : Quiet k
  piped : Piped k

/-- After boot the table is in order. -/
theorem Start.settled {shell : Addr} (start : Start shell k) : Settled k := by
  have member : ∀ {a}, a ∈ k.pcbs ↔ a = shell ∨ a = k.processes.idleProcess := by
    intro a
    rw [start.pcbs]
    simp
  have queue : ∀ {name a}, a ∈ k.items name ↔ name = readyQueue ∧ a = shell := by
    intro name a
    rw [start.items, mem_push]
    simp
  have inTable : k.processes.idleProcess ∈ k.pcbs := member.mpr (.inr rfl)
  have still : ∀ {a}, a ∈ k.pcbs → (k.pcb a).state ≠ .running := by
    intro a here
    rcases member.mp here with same | same
    · rw [same, start.shellRecord.state]
      decide
    · rw [same, start.idleRecord.state]
      decide
  constructor
  case scheduled =>
    right
    rw [start.current]
    exact queue.mpr ⟨rfl, rfl⟩
  case dispatched =>
    intro runs
    rw [start.current] at runs
    exact absurd runs (still (member.mpr (.inl rfl)))
  constructor
  · rw [start.items]
    apply Exclusive.push
    · exact ⟨fun _ => List.nodup_nil, fun here => absurd here List.not_mem_nil⟩
    · exact fun _ => List.not_mem_nil
  · intro name a here
    exact member.mpr (.inl (queue.mp here).2)
  · intro zero
    rcases member.mp zero with same | same
    · exact start.present.2 same.symm
    · exact start.present.1 same.symm
  · intro a b first second same
    rcases member.mp first with left | left
    · rcases member.mp second with right | right
      · rw [left, right]
      · rw [left, right, start.shellRecord.pid, start.idleRecord.pid] at same
        cases same
    · rcases member.mp second with right | right
      · rw [left, right, start.shellRecord.pid, start.idleRecord.pid] at same
        cases same
      · rw [left, right]
  · intro a here
    rw [start.nextFreePid]
    rcases member.mp here with same | same
    · rw [same, start.shellRecord.pid]
      decide
    · rw [same, start.idleRecord.pid]
      decide
  · exact ⟨inTable, start.idleRecord.pid⟩
  · exact .inl start.idleRecord.state
  · intro name here
    exact start.apart (queue.mp here).2.symm
  · intro a here _
    rcases member.mp here with same | same
    · rw [same, start.shellRecord.pid]
    · rw [same, start.idleRecord.pid]
      decide
  · intro name a here
    obtain ⟨ready, same⟩ := queue.mp here
    rw [ready, same]
    exact .inl start.shellRecord.state
  · intro a here runs
    exact absurd runs (still here)
  · rw [start.current]
    exact member.mpr (.inl rfl)
  · exact .inl start.foreground

theorem semInit_kept (id : Int) (value : Nat) (k : Kernel M) :
    TableKept k (semInit id value k).2 ∧ (Quiet k → Quiet (semInit id value k).2) := by
  have way := semInit_cases id value k
  generalize semInit id value k = result at way ⊢
  cases way with
  | refused _ => exact ⟨.refl, fun quiet => quiet⟩
  | failed _ fails =>
    exact ⟨⟨_, _, _, _, _, rfl⟩, fun quiet => quiet.withSem rfl rfl
      fun succeeds => absurd succeeds fails⟩
  | opened _ =>
    exact ⟨⟨_, _, _, _, _, rfl⟩, fun quiet => quiet.withSem rfl rfl fun _ _ => Option.some_ne_none _⟩

theorem initPipeSems_kept (pipe : Pipe) (k : Kernel M) :
    TableKept k (initPipeSems pipe k).2 ∧ (Quiet k → Quiet (initPipeSems pipe k).2) := by
  obtain ⟨readers, first⟩ := semInit_kept pipe.semReaders 0 k
  obtain ⟨writers, second⟩ := semInit_kept pipe.semWriters pipeBufferSize
    (semInit pipe.semReaders 0 k).2
  obtain ⟨mutex, third⟩ := semInit_kept pipe.mutex 1
    (semInit pipe.semWriters pipeBufferSize (semInit pipe.semReaders 0 k).2).2
  unfold initPipeSems
  dsimp only
  split
  · exact ⟨readers, first⟩
  · split
    · exact ⟨readers.trans writers, fun quiet => second (first quiet)⟩
    · split
      · exact ⟨(readers.trans writers).trans mutex, fun quiet => third (second (first quiet))⟩
      · exact ⟨(readers.trans writers).trans mutex, fun quiet => third (second (first quiet))⟩

theorem createPipeFrom_kept (fuel slot : Nat) (k : Kernel M) :
    TableKept k (createPipeFrom fuel slot k).2 ∧
      (Quiet k → Quiet (createPipeFrom fuel slot k).2) := by
  induction fuel generalizing slot with
  | zero => exact ⟨.refl, fun quiet => quiet⟩
  | succ fuel ih =>
    unfold createPipeFrom
    split
    · exact ih (slot + 1)
    · dsimp only
      obtain ⟨kept, quiet⟩ := initPipeSems_kept
        (({ k.editPipe slot fun pipe =>
            { pipe with
              readIdx := 0, writeIdx := 0, count := 0, isOpen := true
              semReaders := k.nextSemId, semWriters := k.nextSemId + 1
              mutex := k.nextSemId + 2 } with nextSemId := k.nextSemId + 3 } : Kernel M).pipes slot)
        { k.editPipe slot fun pipe =>
            { pipe with
              readIdx := 0, writeIdx := 0, count := 0, isOpen := true
              semReaders := k.nextSemId, semWriters := k.nextSemId + 1
              mutex := k.nextSemId + 2 } with nextSemId := k.nextSemId + 3 }
      have whole := (show TableKept k _ from ⟨_, _, _, _, _, rfl⟩).trans kept
      split
      · exact ⟨whole, quiet⟩
      · split
        · exact ⟨whole, quiet⟩
        · exact ⟨whole, quiet⟩

theorem createPipe_kept (k : Kernel M) :
    TableKept k (createPipe k).2 ∧ (Quiet k → Quiet (createPipe k).2) := by
  obtain ⟨kept, quiet⟩ := createPipeFrom_kept maxPipes 0 k.ensurePipeManagerInit
  have ready : TableKept k k.ensurePipeManagerInit ∧
      k.ensurePipeManagerInit.semaphores = k.semaphores := by
    unfold ensurePipeManagerInit
    split
    · exact ⟨.refl, rfl⟩
    · exact ⟨⟨_, _, _, _, _, rfl⟩, rfl⟩
  refine ⟨ready.1.trans kept, ?_⟩
  intro before
  apply quiet
  unfold Quiet
  rw [ready.2]
  exact before

/-- `main` reached the first interrupt with both processes in place, each at a PCB of
its own. -/
structure Booted (k : Kernel M) : Prop where
  main : ∃ idle module pcb memory, boot idle module pcb memory = some k
  idle : k.processes.idleProcess ≠ 0
  shell : ∃ shell, k.items readyQueue = [shell] ∧ shell ≠ k.processes.idleProcess

/-- The kernel that `createProcessPCB` leaves for idle. -/
theorem createProcessPCB_idle (idle : Addr) (k : Kernel M) (start : k.nextFreePid = 0)
    (nobody : k.getCurrentPid = -1)
    (made : (createProcessPCB (idleParams idle) k).1 ≠ 0) :
    ∃ a record memory, a ≠ 0 ∧ Fresh 0 record ∧
      createProcessPCB (idleParams idle) k = (a, { k with
        memory := memory
        pcb := Function.update k.pcb a record
        nextFreePid := 1
        pcbs := insert a k.pcbs }) := by
  unfold createProcessPCB at made ⊢
  by_cases invalid : (idleParams idle).name = none ∨ (idleParams idle).function = 0
  · rw [if_pos invalid] at made
    exact absurd rfl made
  rw [if_neg invalid] at made ⊢
  by_cases none : (allocMemory pcbSize k.memory).1 = 0
  · simp only [none, if_true] at made
    exact absurd rfl made
  simp only [none, if_false] at made ⊢
  obtain ⟨base, rsp, memory, stack⟩ := setupProcessStack_spec (idleParams idle).arg
    { k with memory := (allocMemory pcbSize k.memory).2 }
  simp only [stack] at made ⊢
  by_cases failed : rsp = 0
  · simp only [failed, if_true] at made
    exact absurd rfl made
  have notUser : ¬ (1 : Int) < 0 := by decide
  have notShell : ¬ (0 : Int) = shellPid := by decide
  simp only [failed, if_false, start, notUser, notShell, Function.update_self]
  have record : Fresh 0 (newPcb (idleParams idle) base rsp { k with
      memory := (allocMemory pcbSize k.memory).2, nextFreePid := 0 }) := by
    refine ⟨?_, rfl, rfl, rfl⟩
    change k.getCurrentPid < 0
    rw [nobody]
    decide
  have apart : (newPcb (idleParams idle) base rsp { k with
      memory := (allocMemory pcbSize k.memory).2, nextFreePid := 0 }).priority = idlePriority := rfl
  refine ⟨_, _, memory, none, record, ?_⟩
  rw [if_neg (not_not.mpr apart)]
  rfl

/-- What the creation of the shell leaves. -/
structure Launched (shell : Addr) (k k' : Kernel M) : Prop where
  present : shell ≠ 0
  record : Fresh 1 (k'.pcb shell)
  others : ∀ {a}, a ≠ shell → k'.pcb a = k.pcb a
  pcbs : k'.pcbs = insert shell k.pcbs
  nextFreePid : k'.nextFreePid = 2
  items : k'.items = push k.items readyQueue shell
  current : k'.processes.currentProcess = shell
  idle : k'.processes.idleProcess = k.processes.idleProcess
  foreground : k'.processes.foregroundProcess = k.processes.foregroundProcess
  currentPid : k'.currentPid = k.currentPid
  first : k'.first = k.first
  quiet : Quiet k → Quiet k'
  piped : Unpiped k → Piped k'

/-- The PCB of the shell is filled in, and on no queue yet. -/
structure Filled (shell : Addr) (k k' : Kernel M) : Prop where
  present : shell ≠ 0
  record : Fresh 1 (k'.pcb shell)
  busy : (k'.pcb shell).priority ≠ idlePriority
  others : ∀ {a}, a ≠ shell → k'.pcb a = k.pcb a
  processes : k'.processes = k.processes
  pcbs : k'.pcbs = insert shell k.pcbs
  nextFreePid : k'.nextFreePid = 2
  currentPid : k'.currentPid = k.currentPid
  first : k'.first = k.first
  quiet : Quiet k → Quiet k'
  piped : Unpiped k → Piped k'

/-- The kernel with the new PCB at `a`, when the shell opens its pipe. -/
def withShell (module a base rsp : Nat) (memory : M) (k : Kernel M) : Kernel M := { k with
  memory := memory
  pcb := Function.update k.pcb a (newPcb (shellParams module) base rsp { k with
    memory := (allocMemory pcbSize k.memory).2, nextFreePid := shellPid })
  nextFreePid := shellPid + 1
  pcbs := insert a k.pcbs }

/-- The pipe is open, and the descriptors are put in. -/
theorem createPipe_fills {a base rsp module : Nat} {memory : M} {stdin : Int} {after : Kernel M}
    (present : a ≠ 0) (parent : k.getCurrentPid < shellPid)
    (created : (withShell module a base rsp memory k).createPipe = (stdin, after))
    (opened : ¬ stdin < 0) :
    Filled a k ((after.editPcb a fun pcb => { pcb with stdin := stdin }).editPcb a
      fun pcb => { pcb with stdout := 1 }) := by
  obtain ⟨⟨_, _, _, _, _, piped⟩, quiet⟩ := createPipe_kept (withShell module a base rsp memory k)
  rw [created] at piped quiet
  dsimp only at piped quiet
  have record : after.pcb = Function.update k.pcb a (newPcb (shellParams module) base rsp { k with
      memory := (allocMemory pcbSize k.memory).2, nextFreePid := shellPid }) := by
    rw [piped]
    rfl
  constructor
  · exact present
  · rw [editPcb_pcb, if_pos rfl, editPcb_pcb, if_pos rfl, record, Function.update_self]
    exact ⟨parent, rfl, rfl, rfl⟩
  · rw [editPcb_pcb, if_pos rfl, editPcb_pcb, if_pos rfl, record, Function.update_self]
    exact (by decide : (0 : Nat) ≠ 6)
  · intro b other
    rw [editPcb_pcb, if_neg other, editPcb_pcb, if_neg other, record, Function.update_of_ne other]
  · change after.processes = k.processes
    rw [piped]
    rfl
  · change after.pcbs = insert a k.pcbs
    rw [piped]
    rfl
  · change after.nextFreePid = 2
    rw [piped]
    rfl
  · change after.currentPid = k.currentPid
    rw [piped]
    rfl
  · change after.first = k.first
    rw [piped]
    rfl
  · intro before
    exact quiet before
  · intro before
    refine ⟨withShell module a base rsp memory k, ⟨before.unused, before.nextSemId,
      before.pipeManagerInit⟩, ?_, ?_⟩
    · rw [created]
      exact Int.not_lt.mp opened
    · rw [created]
      exact ⟨rfl, rfl, rfl, rfl⟩

/-- The shell is not created, or its PCB is filled in and added to the process manager. -/
theorem createProcess_fills (module : Addr) (k : Kernel M) (start : k.nextFreePid = shellPid)
    (parent : k.getCurrentPid < shellPid) :
    (createProcess (shellParams module) k).2.items = k.items ∨
      ∃ a filled, Filled a k filled ∧
        (createProcess (shellParams module) k).2 = addProcess a filled := by
  unfold createProcess createProcessPCB
  by_cases invalid : (shellParams module).name = none ∨ (shellParams module).function = 0
  · rw [if_pos invalid]
    exact .inl rfl
  rw [if_neg invalid]
  by_cases none : (allocMemory pcbSize k.memory).1 = 0
  · simp only [none, if_true]
    exact .inl rfl
  simp only [none, if_false]
  obtain ⟨base, rsp, memory, stack⟩ := setupProcessStack_spec (shellParams module).arg
    { k with memory := (allocMemory pcbSize k.memory).2 }
  simp only [stack]
  by_cases failed : rsp = 0
  · simp only [failed, if_true]
    exact .inl rfl
  have notUser : ¬ 1 < shellPid := by decide
  simp only [failed, if_false, start, notUser, if_true]
  generalize (allocMemory pcbSize k.memory).1 = a at none ⊢
  generalize entering : ({ k with
    memory := memory
    pcb := Function.update k.pcb a (newPcb (shellParams module) base rsp { k with
      memory := (allocMemory pcbSize k.memory).2, nextFreePid := shellPid })
    nextFreePid := shellPid + 1
    pcbs := insert a k.pcbs } : Kernel M) = entered
  generalize created : entered.createPipe = result
  obtain ⟨stdin, after⟩ := result
  have entered : entered = withShell module a base rsp memory k := entering.symm
  rw [entered] at created
  dsimp only
  by_cases closed : stdin < 0
  · rw [if_pos closed]
    simp only [if_true]
    left
    obtain ⟨_, _, _, _, _, piped⟩ := (createPipe_kept (withShell module a base rsp memory k)).1
    rw [created] at piped
    dsimp only at piped
    have processes : after.processes = k.processes := by
      rw [piped]
      rfl
    change after.items = k.items
    unfold Kernel.items
    rw [processes]
  · have fills := createPipe_fills none parent created closed
    rw [if_neg closed]
    simp only [none, if_false]
    refine .inr ⟨a, _, fills, ?_⟩
    rw [if_pos fills.busy]

theorem Filled.launched {a shell : Addr} (filled : Filled a k k')
    (current : k.processes.currentProcess = k.processes.idleProcess)
    (empty : k.items readyQueue = [])
    (queued : (addProcess a k').items readyQueue = [shell]) :
    Launched shell k (addProcess a k') := by
  have added : addProcess a k' = ((k'.setCurrent a).enqueueProcess readyQueue a).2 := by
    unfold addProcess
    have idle : k'.processes.currentProcess = 0 ∨
        k'.processes.currentProcess = k'.processes.idleProcess := by
      rw [filled.processes]
      exact .inr current
    simp only [filled.present, idle, if_true, if_false]
  have before : (k'.setCurrent a).items = k.items := by
    unfold Kernel.items
    change (fun name => (k'.processes.queue name).items) = _
    rw [filled.processes]
  rw [added] at queued ⊢
  rcases enqueueProcess_cases (k'.setCurrent a) readyQueue a with
    ⟨memory, queue, moved, lists⟩ | ⟨memory, queue, moved, lists⟩
  · rw [lists, before, empty] at queued
    cases queued
  · rw [lists] at queued
    unfold push at queued
    rw [Function.update_self, before, empty] at queued
    cases queued
    rw [before] at lists
    rw [moved] at lists ⊢
    constructor
    · exact filled.present
    · exact filled.record
    · exact filled.others
    · exact filled.pcbs
    · exact filled.nextFreePid
    · exact lists
    · rfl
    · change k'.processes.idleProcess = _
      rw [filled.processes]
    · change k'.processes.foregroundProcess = _
      rw [filled.processes]
    · exact filled.currentPid
    · exact filled.first
    · exact filled.quiet
    · intro before
      obtain ⟨entered, unpiped, opened, kept⟩ := filled.piped before
      exact ⟨entered, unpiped, opened, kept.trans ⟨rfl, rfl, rfl, rfl⟩⟩

theorem createProcess_shell {shell : Addr} (module : Addr) (k : Kernel M)
    (start : k.nextFreePid = shellPid) (current : k.processes.currentProcess = k.processes.idleProcess)
    (parent : k.getCurrentPid < shellPid) (empty : k.items readyQueue = [])
    (queued : (createProcess (shellParams module) k).2.items readyQueue = [shell]) :
    Launched shell k (createProcess (shellParams module) k).2 := by
  rcases createProcess_fills module k start parent with same | ⟨a, k', filled, same⟩
  · rw [same, empty] at queued
    cases queued
  · rw [same] at queued ⊢
    exact filled.launched current empty queued

theorem enqueueProcess_idle (name : QueueName) (k : Kernel M) :
    (k.enqueueProcess name a).2.processes.idleProcess = k.processes.idleProcess := by
  rcases enqueueProcess_cases k name a with ⟨_, _, same, _⟩ | ⟨_, _, same, _⟩
  · rw [same]
    rfl
  · rw [same]
    rfl

theorem addProcess_idle (a : Addr) (k : Kernel M) :
    (addProcess a k).processes.idleProcess = k.processes.idleProcess := by
  unfold addProcess
  split
  · rfl
  · dsimp only
    rw [enqueueProcess_idle]
    split <;> rfl

omit [MemoryManager M] in
theorem ite_idle {c : Prop} [Decidable c] {x y : Addr × Kernel M}
    (yes : x.2.processes.idleProcess = a) (no : y.2.processes.idleProcess = a) :
    (if c then x else y).2.processes.idleProcess = a := by
  split
  · exact yes
  · exact no

/-- No creation changes which process is idle. -/
theorem createProcess_idle (params : CreationParams) (k : Kernel M) :
    (createProcess params k).2.processes.idleProcess = k.processes.idleProcess := by
  have made : (createProcessPCB params k).2.processes.idleProcess = k.processes.idleProcess := by
    have entered : ∀ (a : Addr) (after : Kernel M),
        (if (after.pcb a).priority ≠ idlePriority then addProcess a after
          else after).processes.idleProcess = after.processes.idleProcess := by
      intro a after
      split
      · exact addProcess_idle a after
      · rfl
    have piped : ∀ before : Kernel M,
        before.createPipe.2.processes.idleProcess = before.processes.idleProcess := by
      intro before
      obtain ⟨⟨_, _, _, _, _, same⟩, _⟩ := createPipe_kept before
      rw [same]
    obtain ⟨base, rsp, memory, stack⟩ := setupProcessStack_spec params.arg
      { k with memory := (allocMemory pcbSize k.memory).2 }
    unfold createProcessPCB
    dsimp only
    rw [stack]
    dsimp only
    apply ite_idle
    · rfl
    apply ite_idle
    · rfl
    apply ite_idle
    · rfl
    apply ite_idle
    · apply ite_idle
      · rw [enqueueProcess_idle]
        rfl
      · exact entered _ _
    · apply ite_idle
      · apply ite_idle
        · exact piped _
        · exact (entered _ _).trans (piped _)
      · dsimp only
        split
        · exact addProcess_idle _ _
        · rfl
  unfold createProcess
  dsimp only
  split
  · exact made
  · exact made

theorem initSemaphores_eq (made : initSemaphores k = some k') :
    ∃ memory manager, k' = { k with memory := memory, manager := manager } := by
  unfold initSemaphores at made
  by_cases none : (allocMemory semaphoreTableSize k.memory).1 = 0
  · simp [none] at made
  · simp only [none, if_false, Option.some.injEq] at made
    exact ⟨_, _, made.symm⟩

/-- The state `initScheduler` leaves: idle alone. -/
structure Alone (k : Kernel M) : Prop where
  record : Fresh 0 (k.pcb k.processes.idleProcess)
  pcbs : k.pcbs = {k.processes.idleProcess}
  nextFreePid : k.nextFreePid = 1
  items : k.items = fun _ => []
  current : k.processes.currentProcess = k.processes.idleProcess
  foreground : k.processes.foregroundProcess = 0
  first : k.first = true
  quiet : Quiet k
  unpiped : Unpiped k

theorem initScheduler_alone {idle : Addr} {pcb : Addr → PCB} {memory : M}
    (made : initScheduler idle (initial pcb memory) = some k)
    (present : k.processes.idleProcess ≠ 0) : Alone k := by
  unfold initScheduler at made
  obtain ⟨first, _, same⟩ := Option.map_eq_some_iff.mp made
  generalize before : ({ (initial pcb memory).initPipeManager with memory := first } : Kernel M) =
    k₀ at same
  obtain ⟨start, orphan, empty, none, nobody, fresh, quiet, unpiped⟩ : k₀.nextFreePid = 0 ∧
      k₀.getCurrentPid = -1 ∧ k₀.items = (fun _ => []) ∧ k₀.pcbs = ∅ ∧
      k₀.processes.foregroundProcess = 0 ∧ k₀.first = true ∧ Quiet k₀ ∧ Unpiped k₀ := by
    rw [← before]
    exact ⟨rfl, rfl, rfl, rfl, rfl, rfl, fun _ => ⟨rfl, rfl, fun _ => nofun⟩,
      fun _ => rfl, rfl, rfl⟩
  have created : (createProcessPCB (idleParams idle) k₀).1 ≠ 0 := by
    rw [← same] at present
    exact present
  obtain ⟨a, record, memory', _, filled, result⟩ := createProcessPCB_idle idle k₀ start orphan created
  rw [result] at same
  rw [← same]
  constructor
  · change Fresh 0 (Function.update k₀.pcb a record a)
    rw [Function.update_self]
    exact filled
  · change insert a k₀.pcbs = {a}
    rw [none]
    rfl
  · rfl
  · exact empty
  · rfl
  · exact nobody
  · exact fresh
  · exact quiet
  · exact ⟨unpiped.unused, unpiped.nextSemId, unpiped.pipeManagerInit⟩

theorem Alone.initSemaphores (alone : Alone k) (made : initSemaphores k = some k') : Alone k' := by
  obtain ⟨memory, manager, same⟩ := initSemaphores_eq made
  subst same
  obtain ⟨record, pcbs, nextFreePid, items, current, foreground, first, quiet, unpiped⟩ := alone
  exact ⟨record, pcbs, nextFreePid, items, current, foreground, first, quiet,
    ⟨unpiped.unused, unpiped.nextSemId, unpiped.pipeManagerInit⟩⟩

theorem Booted.start (booted : Booted k) : ∃ shell, Start shell k := by
  obtain ⟨idle, module, pcb, memory, main⟩ := booted.main
  obtain ⟨shell, queued, apart⟩ := booted.shell
  have present := booted.idle
  unfold boot at main
  obtain ⟨k₁, scheduler, rest⟩ := Option.bind_eq_some_iff.mp main
  obtain ⟨k₂, semaphores, same⟩ := Option.map_eq_some_iff.mp rest
  subst same
  rw [createProcess_idle] at apart present
  have alone : Alone k₂ := by
    obtain ⟨_, _, same⟩ := initSemaphores_eq semaphores
    rw [same] at present
    exact (initScheduler_alone scheduler present).initSemaphores semaphores
  have parent : k₂.getCurrentPid < shellPid := by
    unfold getCurrentPid
    split
    · decide
    · rw [alone.current, alone.record.pid]
      decide
  have launched := createProcess_shell module k₂ alone.nextFreePid alone.current parent
    (by rw [alone.items]) queued
  refine ⟨shell, ?_⟩
  generalize (createProcess (shellParams module) k₂).2 = k' at launched
  constructor
  · rw [launched.idle, launched.others apart.symm]
    exact alone.record
  · exact launched.record
  · rw [launched.idle]
    exact apart
  · rw [launched.idle]
    exact ⟨present, launched.present⟩
  · rw [launched.pcbs, alone.pcbs, launched.idle]
  · exact launched.nextFreePid
  · rw [launched.items, alone.items]
  · exact launched.current
  · rw [launched.foreground]
    exact alone.foreground
  · rw [launched.first]
    exact alone.first
  · exact launched.quiet alone.quiet
  · exact launched.piped alone.unpiped

end Kernel
end SoKernel
