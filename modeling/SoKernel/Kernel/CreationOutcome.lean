import SoKernel.Kernel.LedgerSteps
import Mathlib.Tactic.Abel

namespace SoKernel
open MemoryManager QueueName Lib

variable {M : Type}

/-- The queue that a new user process goes to; one with the priority of idle goes to none. -/
def CreationParams.target (params : CreationParams) : Option QueueName :=
  if ¬ params.foreground ∧ params.stdin = tty then some blockedQueue
  else if (params.priority % 256).toNat ≠ idlePriority then some readyQueue
  else none

/-- The arguments that `createProcess` does not check against NULL. -/
def CreationParams.Valid (params : CreationParams) : Prop :=
  ¬ (params.name = none ∨ params.function = 0)

/-- The arguments and the first frame lie inside the new stack. -/
def CreationParams.Fits (params : CreationParams) : Prop :=
  copiedArgs params.arg + 176 ≤ stackSize

namespace Kernel

variable [MemoryManager M]
variable {k k' : Kernel M} {params : CreationParams} {books : Books M} {rest : Multiset Block}

/-! ## The requests of a creation -/

/-- The address that the PCB gets. -/
def pcbRequest (k : Kernel M) : Addr := (allocMemory pcbSize k.memory).1

/-- The address that the stack gets. -/
def stackRequest (k : Kernel M) : Addr :=
  (allocMemory stackSize (allocMemory pcbSize k.memory).2).1

/-- The memory after both requests. -/
def requested (k : Kernel M) : M :=
  (allocMemory stackSize (allocMemory pcbSize k.memory).2).2

/-- The PCB is filled in and in the table. -/
def entered (params : CreationParams) (k : Kernel M) : Kernel M :=
  { k with
    memory := k.requested
    pcb := Function.update k.pcb k.pcbRequest
      (newPcb params (k.stackRequest + stackSize) (builtRsp params k) k)
    nextFreePid := k.nextFreePid + 1
    pcbs := insert k.pcbRequest k.pcbs }

/-- Its descriptors are known, and its state where it starts blocked. -/
def described (params : CreationParams) (k : Kernel M) : Kernel M :=
  if ¬ params.foreground ∧ params.stdin = tty then
    ((k.entered params).editPcb k.pcbRequest fun pcb =>
      { pcb with stdout := params.stdout }).setState k.pcbRequest .blocked
  else
    (k.entered params).editPcb k.pcbRequest fun pcb =>
      { pcb with
        stdin :=
          if params.stdin = tty then (k.entered params).getCurrentProcessStdin else params.stdin
        stdout :=
          if params.stdout = 1 then (k.entered params).getCurrentProcessStdout
          else params.stdout }

/-- The process is put on its queue. -/
def placed (params : CreationParams) (k : Kernel M) : Kernel M :=
  match params.target with
  | none => k.described params
  | some name => ((k.described params).enqueueProcess name k.pcbRequest).2

/-- What is left where the stack cannot be had: the pid is used up and the memory of the PCB
was written. -/
def abandoned (params : CreationParams) (k : Kernel M) : Kernel M :=
  { k with
    memory := freeMemory k.pcbRequest k.requested
    pcb := Function.update k.pcb k.pcbRequest
      (newPcb params (if k.stackRequest = 0 then 0 else k.stackRequest + stackSize) 0 k)
    nextFreePid := k.nextFreePid + 1 }

theorem builtRsp_eq (params : CreationParams) (k : Kernel M) :
    builtRsp params k = if k.stackRequest = 0 then 0
      else processStackFrame (k.stackRequest + stackSize - copiedArgs params.arg) := by
  unfold builtRsp setupProcessStack stackRequest
  dsimp only
  split <;> rfl

theorem setupProcessStack_eq (params : CreationParams) (k : Kernel M) :
    setupProcessStack params.arg { k with memory := (allocMemory pcbSize k.memory).2 } =
      (if k.stackRequest = 0 then 0 else k.stackRequest + stackSize, builtRsp params k,
        { k with memory := k.requested }) := by
  rw [builtRsp_eq]
  unfold setupProcessStack stackRequest requested
  dsimp only
  split <;> rfl

omit [MemoryManager M] in
theorem Settled.userPid (settled : Settled k)
    (user : k.processes.currentProcess ≠ k.processes.idleProcess) : 1 < k.nextFreePid := by
  have table := settled.table
  have currentBound := table.pidBound table.current
  have other : (k.pcb k.processes.currentProcess).pid ≠ 0 := by
    intro zero
    exact user (table.pidUnique table.current table.idle.1 (zero.trans table.idle.2.symm))
  omega

theorem entered_pcb : (k.entered params).pcb k.pcbRequest =
    newPcb params (k.stackRequest + stackSize) (builtRsp params k) k := Function.update_self _ _ _

theorem described_pid : ((k.described params).pcb k.pcbRequest).pid = k.nextFreePid := by
  unfold described
  split
  · rw [setState_pcb, if_pos rfl, editPcb_pcb, if_pos rfl, entered_pcb]
    rfl
  · rw [editPcb_pcb, if_pos rfl, entered_pcb]
    rfl

theorem described_fields (params : CreationParams) (k : Kernel M) :
    (k.described params).processes = k.processes ∧
      (k.described params).pcbs = insert k.pcbRequest k.pcbs ∧
      (k.described params).nextFreePid = k.nextFreePid + 1 ∧
      ∀ {b}, b ≠ k.pcbRequest → (k.described params).pcb b = k.pcb b := by
  have entered : ∀ {b}, b ≠ k.pcbRequest → (k.entered params).pcb b = k.pcb b :=
    fun other => Function.update_of_ne other _ _
  unfold described
  split
  · refine ⟨rfl, rfl, rfl, ?_⟩
    intro b other
    rw [setState_pcb, if_neg other, editPcb_pcb, if_neg other, entered other]
  · refine ⟨rfl, rfl, rfl, ?_⟩
    intro b other
    rw [editPcb_pcb, if_neg other, entered other]

/-- Queueing the new process changes nothing else. -/
theorem placed_cases (params : CreationParams) (k : Kernel M) :
    (Requeued (k.described params) (k.placed params) k.items ∧
      ∀ name, params.target = some name →
        (allocMemory nodeSize (k.described params).memory).1 = 0) ∨
      ∃ name, params.target = some name ∧
        (allocMemory nodeSize (k.described params).memory).1 ≠ 0 ∧
        Requeued (k.described params) (k.placed params) (push k.items name k.pcbRequest) := by
  have items : (k.described params).items = k.items := by
    unfold Kernel.items
    rw [(described_fields params k).1]
  unfold placed
  cases params.target with
  | none =>
    left
    rw [← items]
    exact ⟨.refl, nofun⟩
  | some name =>
    by_cases granted : (allocMemory nodeSize (k.described params).memory).1 = 0
    · left
      refine ⟨?_, fun _ _ => granted⟩
      unfold enqueueProcess Queue.enqueue
      simp only [granted, if_true]
      rw [← items]
      exact ⟨_, _, rfl, rfl⟩
    · right
      rw [← items]
      exact ⟨name, rfl, granted, (enqueueProcess_spec _ name _ granted).2⟩

theorem placed_pcb : (k.placed params).pcb = (k.described params).pcb ∧
    (k.placed params).pcbs = (k.described params).pcbs := by
  unfold placed
  split
  · exact ⟨rfl, rfl⟩
  · rcases enqueueProcess_cases (k.described params) _ k.pcbRequest with moved | moved
    · exact moved.same
    · exact moved.same

/-- All that `createProcessPCB` can do for a user process. -/
theorem createProcessPCB_user (params : CreationParams) (settled : Settled k)
    (user : k.processes.currentProcess ≠ k.processes.idleProcess) :
    createProcessPCB params k =
      if params.name = none ∨ params.function = 0 then (0, k)
      else if k.pcbRequest = 0 then (0, { k with memory := (allocMemory pcbSize k.memory).2 })
      else if builtRsp params k = 0 then (0, k.abandoned params)
      else (k.pcbRequest, k.placed params) := by
  have running := settled.table.ne_zero settled.table.current
  have userPid := settled.userPid user
  unfold createProcessPCB
  by_cases invalid : params.name = none ∨ params.function = 0
  · simp only [invalid, if_true]
  simp only [invalid, if_false, setupProcessStack_eq]
  by_cases refused : k.pcbRequest = 0
  · unfold pcbRequest at refused ⊢
    simp only [refused, if_true]
  have got : (allocMemory pcbSize k.memory).1 ≠ 0 := refused
  rw [if_neg refused]
  simp only [got, if_false]
  by_cases failed : builtRsp params k = 0
  · simp only [failed, if_true]
    rfl
  have stack : k.stackRequest ≠ 0 := by
    intro empty
    rw [builtRsp_eq, if_pos empty] at failed
    exact failed rfl
  simp only [failed, stack, userPid, if_true, if_false]
  unfold placed described CreationParams.target
  by_cases background : ¬ params.foreground ∧ params.stdin = tty
  · simp only [background, if_true]
    rfl
  simp only [background, if_false]
  have added : ∀ change, addProcess k.pcbRequest ((k.entered params).editPcb k.pcbRequest change) =
      (((k.entered params).editPcb k.pcbRequest change).enqueueProcess readyQueue
        k.pcbRequest).2 := fun change => addProcess_user got running user
  have priority : ∀ change, (∀ pcb, (change pcb).priority = pcb.priority) →
      ((((k.entered params).editPcb k.pcbRequest change).pcb k.pcbRequest).priority ≠
        idlePriority ↔ (params.priority % 256).toNat ≠ idlePriority) := by
    intro change kept
    rw [editPcb_pcb, if_pos rfl, kept, entered_pcb]
    change (if idlePriority < (params.priority % 256).toNat then maxPriority
      else (params.priority % 256).toNat) ≠ idlePriority ↔ _
    unfold idlePriority maxPriority
    split
    · omega
    · rfl
  have enter : ∀ change, (∀ pcb, (change pcb).priority = pcb.priority) →
      (if (((k.entered params).editPcb k.pcbRequest change).pcb k.pcbRequest).priority ≠
          idlePriority then addProcess k.pcbRequest ((k.entered params).editPcb k.pcbRequest change)
        else (k.entered params).editPcb k.pcbRequest change) =
      match (if (params.priority % 256).toNat ≠ idlePriority then some readyQueue else none) with
      | none => (k.entered params).editPcb k.pcbRequest change
      | some name =>
        (((k.entered params).editPcb k.pcbRequest change).enqueueProcess name k.pcbRequest).2 := by
    intro change kept
    by_cases idle : (params.priority % 256).toNat ≠ idlePriority
    · rw [if_pos ((priority change kept).mpr idle), if_pos idle, added]
    · rw [if_neg (mt (priority change kept).mp idle), if_neg idle]
  exact congrArg (Prod.mk k.pcbRequest) (enter (fun pcb =>
    { pcb with
      stdin :=
        if params.stdin = tty then (k.entered params).getCurrentProcessStdin else params.stdin
      stdout :=
        if params.stdout = 1 then (k.entered params).getCurrentProcessStdout
        else params.stdout }) fun _ => rfl)

theorem createProcess_user (params : CreationParams) (settled : Settled k)
    (user : k.processes.currentProcess ≠ k.processes.idleProcess) :
    createProcess params k =
      if params.name = none ∨ params.function = 0 then (-1, k)
      else if k.pcbRequest = 0 then (-1, { k with memory := (allocMemory pcbSize k.memory).2 })
      else if builtRsp params k = 0 then (-1, k.abandoned params)
      else (k.nextFreePid, k.placed params) := by
  have named : ((k.placed params).pcb k.pcbRequest).pid = k.nextFreePid := by
    rw [placed_pcb.1]
    exact described_pid
  unfold createProcess
  rw [createProcessPCB_user params settled user]
  by_cases invalid : params.name = none ∨ params.function = 0
  · simp only [invalid, if_true]
  by_cases refused : k.pcbRequest = 0
  · simp only [invalid, refused, if_true, if_false]
  by_cases failed : builtRsp params k = 0
  · simp only [invalid, refused, failed, if_true, if_false]
  · simp only [invalid, refused, failed, if_false, named]

/-- A stack pointer of 0 means that there was no memory for the stack. -/
theorem builtRsp_ne_zero (fits : params.Fits) (stack : k.stackRequest ≠ 0) :
    builtRsp params k ≠ 0 := by
  rw [builtRsp_eq, if_neg stack]
  unfold CreationParams.Fits at fits
  unfold processStackFrame
  unfold stackSize at fits ⊢
  omega

/-! ## Its blocks -/

theorem Balanced.both (balanced : Balanced books rest k) (pcb : k.pcbRequest ≠ 0)
    (stack : k.stackRequest ≠ 0) :
    Balanced books ((k.stackRequest, stackSize) ::ₘ (k.pcbRequest, pcbSize) ::ₘ rest)
      { k with memory := k.requested } :=
  (balanced.granted pcb).granted stack

theorem Balanced.entered (balanced : Balanced books rest k) (fresh : k.FreshPcb)
    (pcb : k.pcbRequest ≠ 0) (stack : k.stackRequest ≠ 0) :
    Balanced books rest (k.entered params) := by
  intro clean
  have live := balanced.both pcb stack clean
  have unused : k.pcbRequest ∉ k.pcbs := fresh
  have others : (∑ b ∈ k.pcbs, ((b, pcbSize) ::ₘ stackBlocks ((k.entered params).pcb b))) =
      k.processBlocks := by
    apply Finset.sum_congr rfl
    intro b here
    have other : b ≠ k.pcbRequest := by
      intro same
      rw [same] at here
      exact unused here
    change (b, pcbSize) ::ₘ stackBlocks (Function.update k.pcb k.pcbRequest _ b) = _
    rw [Function.update_of_ne other]
  have own : stackBlocks ((k.entered params).pcb k.pcbRequest) =
      {(k.stackRequest, stackSize)} := by
    have alive : (newPcb params (k.stackRequest + stackSize) (builtRsp params k) k).state ≠
        .zombie := by
      change ProcessState.ready ≠ .zombie
      decide
    rw [entered_pcb, stackBlocks_alive alive]
    change {(k.stackRequest + stackSize - stackSize, stackSize)} = _
    rw [Nat.add_sub_cancel]
  change books.live k.requested = _ + (k.queueBlocks + k.processBlocks) at live
  change books.live k.requested = rest + (k.queueBlocks + ∑ b ∈ insert k.pcbRequest k.pcbs,
    ((b, pcbSize) ::ₘ stackBlocks ((k.entered params).pcb b)))
  rw [Finset.sum_insert unused, others, own, live]
  simp only [← Multiset.singleton_add]
  abel

theorem Balanced.described (balanced : Balanced books rest (k.entered params)) :
    Balanced books rest (k.described params) := by
  unfold Kernel.described
  split
  · apply (balanced.editPcb rfl).setState _ (by decide)
    rw [editPcb_pcb, if_pos rfl, entered_pcb]
    change ProcessState.ready ≠ .zombie
    decide
  · exact balanced.editPcb rfl

theorem Balanced.placed (balanced : Balanced books rest (k.entered params)) :
    Balanced books rest (k.placed params) := by
  unfold Kernel.placed
  split
  · exact balanced.described
  · exact balanced.described.enqueueProcess _ _

/-- A creation that fails at the stack gives the PCB back. -/
theorem Balanced.abandoned (balanced : Balanced books rest k) (fresh : k.FreshPcb)
    (pcb : k.pcbRequest ≠ 0) (refused : k.stackRequest = 0) :
    Balanced books rest (k.abandoned params) := by
  have unused : k.pcbRequest ∉ k.pcbs := fresh
  have tried : Balanced books ((k.pcbRequest, pcbSize) ::ₘ rest) { k with memory := k.requested } :=
    (balanced.granted pcb).refused refused
  have same : ∀ b ∈ k.pcbs, stackBlocks ((k.abandoned params).pcb b) = stackBlocks (k.pcb b) := by
    intro b here
    have other : b ≠ k.pcbRequest := by
      intro same
      rw [same] at here
      exact unused here
    change stackBlocks (Function.update k.pcb k.pcbRequest _ b) = _
    rw [Function.update_of_ne other]
  exact tried.freed.congr rfl rfl rfl same

theorem Balanced.createProcess (balanced : Balanced books rest k) (settled : Settled k)
    (user : k.processes.currentProcess ≠ k.processes.idleProcess) (fresh : k.FreshPcb)
    (fits : params.Fits) : Balanced books rest (createProcess params k).2 := by
  rw [createProcess_user params settled user]
  by_cases invalid : params.name = none ∨ params.function = 0
  · rw [if_pos invalid]
    exact balanced
  rw [if_neg invalid]
  by_cases refused : k.pcbRequest = 0
  · rw [if_pos refused]
    exact balanced.refused refused
  rw [if_neg refused]
  by_cases failed : builtRsp params k = 0
  · rw [if_pos failed]
    apply balanced.abandoned fresh refused
    by_contra stack
    exact builtRsp_ne_zero fits stack failed
  · rw [if_neg failed]
    apply (balanced.entered fresh refused _).placed
    intro stack
    rw [builtRsp_eq, if_pos stack] at failed
    exact failed rfl

end Kernel
end SoKernel
