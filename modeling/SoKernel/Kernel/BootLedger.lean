import SoKernel.Kernel.CreationOutcome
import SoKernel.Kernel.Booting

namespace SoKernel
open MemoryManager QueueName Lib

variable {M : Type} [MemoryManager M]

namespace Kernel

variable {k k' : Kernel M} {books : Books M} {a : Addr} {size slot fuel value : Nat} {id : Int}
variable {params : CreationParams}

/-- The blocks of the process table are among the live ones. -/
def Covered (books : Books M) (k : Kernel M) : Prop := ∃ rest, Balanced books rest k

/-- Whatever a request gives belongs to the rest. -/
theorem Covered.request (covered : Covered books k) (size : Nat) :
    Covered books { k with memory := (allocMemory size k.memory).2 } := by
  obtain ⟨rest, balanced⟩ := covered
  by_cases none : (allocMemory size k.memory).1 = 0
  · exact ⟨_, balanced.refused none⟩
  · exact ⟨_, balanced.granted none⟩

theorem Covered.congr (covered : Covered books k) (memory : k'.memory = k.memory)
    (queue : k'.processes.queue = k.processes.queue) (pcbs : k'.pcbs = k.pcbs)
    (stack : ∀ a ∈ k.pcbs, stackBlocks (k'.pcb a) = stackBlocks (k.pcb a)) : Covered books k' := by
  obtain ⟨rest, balanced⟩ := covered
  exact ⟨rest, balanced.congr memory queue pcbs stack⟩

theorem Covered.editPcb (covered : Covered books k) {change : PCB → PCB}
    (kept : stackBlocks (change (k.pcb a)) = stackBlocks (k.pcb a)) :
    Covered books (k.editPcb a change) := by
  obtain ⟨rest, balanced⟩ := covered
  exact ⟨rest, balanced.editPcb kept⟩

/-! ## The pipe of the shell -/

theorem Covered.semInit (covered : Covered books k) (opened : 0 ≤ (semInit id value k).1) :
    Covered books (semInit id value k).2 := by
  unfold Kernel.semInit at opened ⊢
  dsimp only at opened ⊢
  split
  · exact covered
  · split
    · exact covered
    · rename_i range unused
      rw [if_neg range, if_neg unused] at opened
      split
      · rename_i none
        rw [if_pos none] at opened
        exact absurd opened (show ¬ (0 : Int) ≤ -1 by decide)
      · exact (covered.request queueSize).congr rfl rfl rfl fun _ _ => rfl

theorem Covered.initPipeSems {pipe : Pipe} (covered : Covered books k)
    (opened : 0 ≤ (initPipeSems pipe k).1) : Covered books (initPipeSems pipe k).2 := by
  unfold Kernel.initPipeSems at opened ⊢
  dsimp only at opened ⊢
  by_cases readers : (Kernel.semInit pipe.semReaders 0 k).1 < 0
  · rw [if_pos readers] at opened
    exact absurd opened (show ¬ (0 : Int) ≤ -1 by decide)
  rw [if_neg readers] at opened ⊢
  have first := covered.semInit (not_lt.mp readers)
  generalize (Kernel.semInit pipe.semReaders 0 k).2 = k₁ at opened first ⊢
  by_cases writers : (Kernel.semInit pipe.semWriters pipeBufferSize k₁).1 < 0
  · rw [if_pos writers] at opened
    exact absurd opened (show ¬ (0 : Int) ≤ -1 by decide)
  rw [if_neg writers] at opened ⊢
  have second := first.semInit (not_lt.mp writers)
  generalize (Kernel.semInit pipe.semWriters pipeBufferSize k₁).2 = k₂ at opened second ⊢
  by_cases mutex : (Kernel.semInit pipe.mutex 1 k₂).1 < 0
  · rw [if_pos mutex] at opened
    exact absurd opened (show ¬ (0 : Int) ≤ -1 by decide)
  · rw [if_neg mutex] at opened ⊢
    exact second.semInit (not_lt.mp mutex)

theorem Covered.createPipeFrom (covered : Covered books k)
    (opened : 0 ≤ (createPipeFrom fuel slot k).1) : Covered books (createPipeFrom fuel slot k).2 := by
  induction fuel generalizing slot with
  | zero => exact covered
  | succ fuel ih =>
    unfold Kernel.createPipeFrom at opened ⊢
    by_cases taken : (k.pipes slot).isOpen
    · rw [if_pos taken] at opened ⊢
      exact ih opened
    rw [if_neg taken] at opened ⊢
    dsimp only at opened ⊢
    split
    · rename_i failed
      rw [if_pos failed] at opened
      exact absurd opened (show ¬ (0 : Int) ≤ -1 by decide)
    · rename_i made
      have marked : Covered books { k.editPipe slot fun pipe =>
          { pipe with
            readIdx := 0, writeIdx := 0, count := 0, isOpen := true
            semReaders := k.nextSemId, semWriters := k.nextSemId + 1
            mutex := k.nextSemId + 2 } with nextSemId := k.nextSemId + 3 } :=
        covered.congr rfl rfl rfl fun _ _ => rfl
      have done := marked.initPipeSems (not_lt.mp made)
      split
      · exact done
      · exact done

theorem Covered.createPipe (covered : Covered books k) (opened : 0 ≤ (createPipe k).1) :
    Covered books (createPipe k).2 := by
  have ready : Covered books k.ensurePipeManagerInit := by
    unfold ensurePipeManagerInit
    split
    · exact covered
    · exact covered.congr rfl rfl rfl fun _ _ => rfl
  exact ready.createPipeFrom opened

/-! ## The two processes of `main` -/

theorem Covered.entered (covered : Covered books k) (fresh : k.FreshPcb) (pcb : k.pcbRequest ≠ 0)
    (stack : k.stackRequest ≠ 0) : Covered books (k.entered params) := by
  obtain ⟨rest, balanced⟩ := covered
  exact ⟨rest, balanced.entered fresh pcb stack⟩

theorem createProcessPCB_made {params : CreationParams} (made : (createProcessPCB params k).1 ≠ 0) :
    params.Valid ∧ k.pcbRequest ≠ 0 ∧ builtRsp params k ≠ 0 := by
  unfold createProcessPCB at made
  by_cases invalid : params.name = none ∨ params.function = 0
  · rw [if_pos invalid] at made
    exact absurd rfl made
  rw [if_neg invalid] at made
  by_cases refused : (allocMemory pcbSize k.memory).1 = 0
  · simp only [refused, if_true] at made
    exact absurd rfl made
  simp only [refused, if_false, setupProcessStack_eq] at made
  refine ⟨invalid, refused, ?_⟩
  intro failed
  simp only [failed, if_true] at made
  exact absurd rfl made

theorem stackRequest_ne_zero (built : builtRsp params k ≠ 0) : k.stackRequest ≠ 0 := by
  intro refused
  rw [builtRsp_eq, if_pos refused] at built
  exact built rfl

theorem Covered.idle {idle : Addr} (covered : Covered books k) (start : k.nextFreePid = 0)
    (empty : k.pcbs = ∅) (made : (createProcessPCB (idleParams idle) k).1 ≠ 0) :
    Covered books (createProcessPCB (idleParams idle) k).2 := by
  obtain ⟨valid, pcb, built⟩ := createProcessPCB_made made
  have stack := stackRequest_ne_zero built
  have fresh : k.FreshPcb := by
    unfold FreshPcb
    rw [empty]
    exact Finset.notMem_empty _
  have entered : Covered books (k.entered (idleParams idle)) := covered.entered fresh pcb stack
  have result : (createProcessPCB (idleParams idle) k).2 = k.entered (idleParams idle) := by
    unfold createProcessPCB
    have got : (allocMemory pcbSize k.memory).1 ≠ 0 := pcb
    have notUser : ¬ 1 < k.nextFreePid := by
      rw [start]
      decide
    have notShell : ¬ k.nextFreePid = shellPid := by
      rw [start]
      decide
    have apart : ((k.entered (idleParams idle)).pcb k.pcbRequest).priority = idlePriority := by
      rw [entered_pcb]
      rfl
    rw [if_neg valid]
    simp only [got, if_false, setupProcessStack_eq, built, stack, notUser, notShell]
    exact if_neg (not_not.mpr apart)
  rw [result]
  exact entered

theorem Covered.addProcess (covered : Covered books k) : Covered books (addProcess a k) := by
  obtain ⟨rest, balanced⟩ := covered
  refine ⟨rest, ?_⟩
  unfold Kernel.addProcess
  split
  · exact balanced
  · apply Balanced.enqueueProcess
    split
    · exact balanced.setCurrent _
    · exact balanced

/-- The shell with its descriptors, before it is put on the ready queue. -/
def shellFilled (module : Addr) (k : Kernel M) : Kernel M :=
  ((k.entered (shellParams module)).createPipe.2.editPcb k.pcbRequest fun pcb =>
    { pcb with stdin := (k.entered (shellParams module)).createPipe.1 }).editPcb k.pcbRequest
      fun pcb => { pcb with stdout := 1 }

theorem createProcessPCB_shell {module : Addr} (start : k.nextFreePid = shellPid)
    (made : (createProcessPCB (shellParams module) k).1 ≠ 0) :
    0 ≤ (k.entered (shellParams module)).createPipe.1 ∧
      createProcessPCB (shellParams module) k = (k.pcbRequest,
        if ((k.shellFilled module).pcb k.pcbRequest).priority ≠ idlePriority
        then addProcess k.pcbRequest (k.shellFilled module) else k.shellFilled module) := by
  obtain ⟨valid, pcb, built⟩ := createProcessPCB_made made
  have stack := stackRequest_ne_zero built
  have got : (allocMemory pcbSize k.memory).1 ≠ 0 := pcb
  have notUser : ¬ 1 < k.nextFreePid := by
    rw [start]
    decide
  have isShell : (k.nextFreePid = shellPid) = True := eq_true start
  unfold shellFilled
  generalize equal : k.entered (shellParams module) = e
  unfold createProcessPCB at made ⊢
  rw [if_neg valid] at made ⊢
  simp only [got, if_false, setupProcessStack_eq, built, stack, notUser, isShell, if_true] at made ⊢
  change ({ k with
    memory := k.requested
    pcb := Function.update k.pcb (allocMemory pcbSize k.memory).1
      (newPcb (shellParams module) (k.stackRequest + stackSize) (builtRsp (shellParams module) k)
        { k with memory := (allocMemory pcbSize k.memory).2 })
    nextFreePid := k.nextFreePid + 1
    pcbs := insert (allocMemory pcbSize k.memory).1 k.pcbs } : Kernel M) = e at equal
  rw [equal] at made ⊢
  by_cases closed : e.createPipe.1 < 0
  · rw [if_pos closed] at made
    exact absurd rfl made
  rw [if_neg closed]
  exact ⟨not_lt.mp closed, rfl⟩

theorem addProcess_pcb (a : Addr) (k : Kernel M) : (addProcess a k).pcb = k.pcb := by
  have kept : ∀ k : Kernel M, (k.enqueueProcess readyQueue a).2.pcb = k.pcb := by
    intro k
    rcases enqueueProcess_cases k readyQueue a with moved | moved
    · exact moved.same.1
    · exact moved.same.1
  unfold addProcess
  split
  · rfl
  · rw [kept]
    split <;> rfl

/-- The PCB of the shell is where the first request put it. -/
theorem createProcessPCB_shell_pid {module : Addr} (start : k.nextFreePid = shellPid)
    (made : (createProcessPCB (shellParams module) k).1 ≠ 0) :
    ((createProcessPCB (shellParams module) k).2.pcb k.pcbRequest).pid = shellPid := by
  obtain ⟨_, result⟩ := createProcessPCB_shell start made
  obtain ⟨⟨_, _, _, _, _, piped⟩, _⟩ := createPipe_kept (k.entered (shellParams module))
  have filled : ((k.shellFilled module).pcb k.pcbRequest).pid = shellPid := by
    unfold shellFilled
    rw [editPcb_pcb, if_pos rfl, editPcb_pcb, if_pos rfl, piped]
    change ((k.entered (shellParams module)).pcb k.pcbRequest).pid = shellPid
    rw [entered_pcb]
    exact start
  rw [result]
  dsimp only
  split
  · rw [addProcess_pcb]
    exact filled
  · exact filled

theorem Covered.shell {module : Addr} (covered : Covered books k) (start : k.nextFreePid = shellPid)
    (fresh : k.FreshPcb) (made : (createProcessPCB (shellParams module) k).1 ≠ 0) :
    Covered books (createProcessPCB (shellParams module) k).2 := by
  obtain ⟨valid, pcb, built⟩ := createProcessPCB_made made
  have entered : Covered books (k.entered (shellParams module)) :=
    covered.entered fresh pcb (stackRequest_ne_zero built)
  obtain ⟨opened, result⟩ := createProcessPCB_shell start made
  have filled : Covered books (k.shellFilled module) :=
    ((entered.createPipe opened).editPcb rfl).editPcb rfl
  rw [result]
  dsimp only
  split
  · exact filled.addProcess
  · exact filled

/-- A creation that fails leaves the queues alone. -/
theorem createProcessPCB_failed (failed : (createProcessPCB params k).1 = 0)
    (user : ¬ 1 < k.nextFreePid) :
    (createProcessPCB params k).2.processes = k.processes := by
  unfold createProcessPCB at failed ⊢
  by_cases invalid : params.name = none ∨ params.function = 0
  · simp only [invalid, if_true]
  by_cases refused : (allocMemory pcbSize k.memory).1 = 0
  · simp only [invalid, refused, if_true, if_false]
  simp only [invalid, refused, if_false, setupProcessStack_eq, user] at failed ⊢
  by_cases unbuilt : builtRsp params k = 0
  · simp only [unbuilt, if_true]
  simp only [unbuilt, if_false] at failed ⊢
  by_cases shell : k.nextFreePid = shellPid
  · have isShell : (k.nextFreePid = shellPid) = True := eq_true shell
    simp only [isShell, if_true] at failed ⊢
    generalize equal : ({ k with
      memory := k.requested
      pcb := Function.update k.pcb (allocMemory pcbSize k.memory).1
        (newPcb params (if k.stackRequest = 0 then 0 else k.stackRequest + stackSize)
          (builtRsp params k) { k with memory := (allocMemory pcbSize k.memory).2 })
      nextFreePid := k.nextFreePid + 1
      pcbs := insert (allocMemory pcbSize k.memory).1 k.pcbs } : Kernel M) = e at failed ⊢
    obtain ⟨⟨_, _, _, _, _, piped⟩, _⟩ := createPipe_kept e
    by_cases closed : e.createPipe.1 < 0
    · rw [if_pos closed]
      rw [piped, ← equal]
      rfl
    · rw [if_neg closed] at failed
      exact absurd failed refused
  · simp only [shell, if_false] at failed
    exact absurd failed refused

theorem createProcess_snd (params : CreationParams) (k : Kernel M) :
    (createProcess params k).2 = (createProcessPCB params k).2 := by
  unfold createProcess
  dsimp only
  split <;> rfl

theorem createProcessManager_covered {memory : M} (covered : Covered books k)
    (made : createProcessManager k.memory = some memory) :
    Covered books { k with memory := memory } := by
  unfold createProcessManager at made
  dsimp only at made
  split at made
  · cases made
  · cases made
    exact (((covered.request processManagerSize).request queueSize).request queueSize).request
      queueSize |>.request queueSize

/-- At the end of `main` the blocks of both processes are live. -/
theorem Booted.covered (booted : Booted k) (books : Books M) : Covered books k := by
  obtain ⟨shell, start⟩ := booted.start
  obtain ⟨idle, module, pcb, memory, main⟩ := booted.main
  unfold boot at main
  obtain ⟨k₁, scheduler, rest⟩ := Option.bind_eq_some_iff.mp main
  obtain ⟨k₂, semaphores, same⟩ := Option.map_eq_some_iff.mp rest
  have alone : Alone k₂ := by
    obtain ⟨_, _, equal⟩ := initSemaphores_eq semaphores
    have present := start.present.1
    rw [← same, createProcess_idle, equal] at present
    exact (initScheduler_alone scheduler present).initSemaphores semaphores
  unfold initScheduler at scheduler
  obtain ⟨first, manager, made⟩ := Option.map_eq_some_iff.mp scheduler
  have nothing : Covered books ((initial pcb memory).initPipeManager) := by
    refine ⟨books.live memory, fun _ => ?_⟩
    change books.live memory = books.live memory + (0 + 0)
    simp
  have managed := createProcessManager_covered nothing manager
  generalize before : ({ (initial pcb memory).initPipeManager with memory := first } : Kernel M) =
    k₀ at made managed
  obtain ⟨count, none⟩ : k₀.nextFreePid = 0 ∧ k₀.pcbs = ∅ := by
    rw [← before]
    exact ⟨rfl, rfl⟩
  have isIdle : k₁.processes.idleProcess = k.processes.idleProcess := by
    rw [← same, createProcess_idle]
    obtain ⟨_, _, equal⟩ := initSemaphores_eq semaphores
    rw [equal]
  have idleMade : (createProcessPCB (idleParams idle) k₀).1 ≠ 0 := by
    intro failed
    apply start.present.1
    rw [← isIdle, ← made]
    exact failed
  have one : Covered books k₁ := by
    rw [← made]
    exact (managed.idle count none idleMade).congr rfl rfl rfl fun _ _ => rfl
  have two : Covered books k₂ := by
    unfold initSemaphores at semaphores
    dsimp only at semaphores
    split at semaphores
    · cases semaphores
    · cases semaphores
      exact (one.request semaphoreTableSize).congr rfl rfl rfl fun _ _ => rfl
  rw [createProcess_snd] at same
  have shellMade : (createProcessPCB (shellParams module) k₂).1 ≠ 0 := by
    intro failed
    have kept := createProcessPCB_failed failed (by rw [alone.nextFreePid]; decide)
    rw [same] at kept
    have empty : k.items = k₂.items := by
      unfold items
      rw [kept]
    have queued := congrFun (empty.symm.trans start.items) readyQueue
    rw [alone.items] at queued
    simp [push] at queued
  have fresh : k₂.FreshPcb := by
    intro used
    have isIdle' : k₂.pcbRequest = k.processes.idleProcess := by
      rw [alone.pcbs, Finset.mem_singleton] at used
      rw [← same, ← createProcess_snd, createProcess_idle]
      exact used
    have shell := createProcessPCB_shell_pid alone.nextFreePid shellMade
    rw [same, isIdle', start.idleRecord.pid] at shell
    exact absurd shell (by decide)
  rw [← same]
  exact two.shell alone.nextFreePid fresh shellMade

end Kernel
end SoKernel
