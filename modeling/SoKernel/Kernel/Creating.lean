import SoKernel.Kernel.Waiting

namespace SoKernel
open MemoryManager QueueName Lib

variable {M : Type}

namespace Kernel

variable {k k' : Kernel M} {a b process : Addr} {name : QueueName} {params : CreationParams}
variable {rsp : Nat}

/-- What a creation that used the memory at `a` leaves alone. -/
structure Spares (a : Addr) (k k' : Kernel M) : Prop where
  fresh : a ∉ k.pcbs
  others : ∀ {b}, b ≠ a → k'.pcb b = k.pcb b
  current : k'.processes.currentProcess = k.processes.currentProcess
  idle : k'.processes.idleProcess = k.processes.idleProcess
  foreground : k'.processes.foregroundProcess = k.processes.foregroundProcess
  currentPid : k'.currentPid = k.currentPid
  first : k'.first = k.first
  semaphores : k'.semaphores = k.semaphores
  pipes : k'.pipes = k.pipes

/-- `createProcess` on behalf of a user process: it fails, or the new PCB `a` is
filled in and, as a rule, put on a queue. -/
inductive Creates (params : CreationParams) (a : Addr) (rsp : Nat) (k : Kernel M) :
    Kernel M → Prop
  | failed {after : Kernel M} : Spares a k after → after.items = k.items →
      after.pcbs = k.pcbs → k.nextFreePid ≤ after.nextFreePid → Creates params a rsp k after
  | created {base : Nat} {after : Kernel M} : Spares a k after → a ≠ 0 →
      (∃ state stdin stdout, after.pcb a = { newPcb params base rsp k with
        state := state, stdin := stdin, stdout := stdout } ∧
        ((after.items = k.items ∧ state ≠ .running) ∨
          (after.items = push k.items readyQueue a ∧ state = .ready) ∨
          (after.items = push k.items blockedQueue a ∧ state = .blocked))) →
      after.pcbs = insert a k.pcbs → after.nextFreePid = k.nextFreePid + 1 →
      Creates params a rsp k after

theorem Spares.kept (spares : Spares a k k') (member : b ∈ k.pcbs) : k'.pcb b = k.pcb b := by
  apply spares.others
  intro same
  rw [same] at member
  exact spares.fresh member

theorem Table.congr_on (table : Table k) (items : k'.items = k.items) (pcbs : k'.pcbs = k.pcbs)
    (pcb : ∀ {a}, a ∈ k.pcbs → k'.pcb a = k.pcb a) (nextFreePid : k.nextFreePid ≤ k'.nextFreePid)
    (current : k'.processes.currentProcess = k.processes.currentProcess)
    (idle : k'.processes.idleProcess = k.processes.idleProcess)
    (foreground : k'.processes.foregroundProcess = k.processes.foregroundProcess) :
    Table k' := by
  constructor
  · rw [items]
    exact table.exclusive
  · intro name a member
    rw [items] at member
    rw [pcbs]
    exact table.queued member
  · rw [pcbs]
    exact table.present
  · intro a b first second same
    rw [pcbs] at first second
    rw [pcb first, pcb second] at same
    exact table.pidUnique first second same
  · intro a member
    rw [pcbs] at member
    rw [pcb member]
    have bound := table.pidBound member
    omega
  · rw [idle, pcbs, pcb table.idle.1]
    exact table.idle
  · rw [idle, pcb table.idle.1]
    exact table.idleState
  · rw [idle, items]
    exact table.idleAlone
  · intro a member
    rw [pcbs] at member
    rw [pcb member]
    exact table.parent member
  · intro name a member
    rw [items] at member
    rw [pcb (table.queued member)]
    exact table.fits member
  · intro a member
    rw [pcbs] at member
    rw [pcb member, current]
    exact table.running member
  · rw [current, pcbs]
    exact table.current
  · rw [foreground, items]
    exact table.foreground

/-! ## The table after a creation -/

/-- The new PCB is on no queue, or on that of its state. -/
def Joins (a : Addr) (state : ProcessState) (lists lists' : QueueName → List Addr) : Prop :=
  (lists' = lists ∧ state ≠ .running) ∨ (lists' = push lists readyQueue a ∧ state = .ready) ∨
    (lists' = push lists blockedQueue a ∧ state = .blocked)

section

variable {state : ProcessState} {lists lists' : QueueName → List Addr}

theorem Joins.still (joins : Joins a state lists lists') : state ≠ .running := by
  rcases joins with ⟨_, other⟩ | ⟨_, ready⟩ | ⟨_, blocked⟩
  · exact other
  · rw [ready]
    decide
  · rw [blocked]
    decide

theorem Joins.grows (joins : Joins a state lists lists') (here : b ∈ lists name) :
    b ∈ lists' name := by
  rcases joins with ⟨same, _⟩ | ⟨pushed, _⟩ | ⟨pushed, _⟩
  · rw [same]
    exact here
  · rw [pushed]
    exact mem_push.mpr (.inl here)
  · rw [pushed]
    exact mem_push.mpr (.inl here)

theorem Joins.mem (joins : Joins a state lists lists') (here : b ∈ lists' name) :
    b ∈ lists name ∨ (b = a ∧ Fits name state) := by
  rcases joins with ⟨same, _⟩ | ⟨pushed, ready⟩ | ⟨pushed, blocked⟩
  · rw [same] at here
    exact .inl here
  · rw [pushed] at here
    rcases mem_push.mp here with old | ⟨same, equal⟩
    · exact .inl old
    · rw [same, ready]
      exact .inr ⟨equal, .inl rfl⟩
  · rw [pushed] at here
    rcases mem_push.mp here with old | ⟨same, equal⟩
    · exact .inl old
    · rw [same, blocked]
      exact .inr ⟨equal, rfl⟩

theorem Joins.exclusive (joins : Joins a state lists lists') (exclusive : Exclusive lists)
    (unqueued : ∀ name, a ∉ lists name) : Exclusive lists' := by
  rcases joins with ⟨same, _⟩ | ⟨pushed, _⟩ | ⟨pushed, _⟩
  · rw [same]
    exact exclusive
  · rw [pushed]
    exact exclusive.push unqueued
  · rw [pushed]
    exact exclusive.push unqueued

end

theorem Spares.mem_pcbs (spares : Spares a k k') (pcbs : k'.pcbs = insert a k.pcbs)
    (here : b ∈ k'.pcbs) : b = a ∨ (b ∈ k.pcbs ∧ k'.pcb b = k.pcb b) := by
  rw [pcbs] at here
  rcases Finset.mem_insert.mp here with same | old
  · exact .inl same
  · exact .inr ⟨old, spares.kept old⟩

/-- The new pid is larger than every other. -/
theorem Spares.pidUnique {c : Addr} (spares : Spares a k k') (table : Table k)
    (pcbs : k'.pcbs = insert a k.pcbs) (pid : (k'.pcb a).pid = k.nextFreePid)
    (first : b ∈ k'.pcbs) (second : c ∈ k'.pcbs) (same : (k'.pcb b).pid = (k'.pcb c).pid) :
    b = c := by
  rcases spares.mem_pcbs pcbs first with left | ⟨left, leftSame⟩
  · rcases spares.mem_pcbs pcbs second with right | ⟨right, rightSame⟩
    · rw [left, right]
    · have bound := (table.pidBound right).2
      rw [left, pid, rightSame] at same
      omega
  · rcases spares.mem_pcbs pcbs second with right | ⟨right, rightSame⟩
    · have bound := (table.pidBound left).2
      rw [right, pid, leftSame] at same
      omega
    · rw [leftSame, rightSame] at same
      exact table.pidUnique left right same

theorem Table.creates {state : ProcessState} (table : Table k) (spares : Spares a k k')
    (present : a ≠ 0) (joins : Joins a state k.items k'.items)
    (pid : (k'.pcb a).pid = k.nextFreePid) (parentPid : (k'.pcb a).parentPid ≠ 0)
    (stated : (k'.pcb a).state = state) (pcbs : k'.pcbs = insert a k.pcbs)
    (nextFreePid : k'.nextFreePid = k.nextFreePid + 1) : Table k' := by
  have member : ∀ {b}, b ∈ k'.pcbs → b = a ∨ (b ∈ k.pcbs ∧ k'.pcb b = k.pcb b) :=
    fun here => spares.mem_pcbs pcbs here
  constructor
  · exact joins.exclusive table.exclusive fun name here => spares.fresh (table.queued here)
  · intro name b here
    rw [pcbs]
    rcases joins.mem here with old | ⟨same, _⟩
    · exact Finset.mem_insert_of_mem (table.queued old)
    · rw [same]
      exact Finset.mem_insert_self _ _
  · rw [pcbs]
    intro zero
    rcases Finset.mem_insert.mp zero with same | old
    · exact present same.symm
    · exact table.present old
  · intro b c first second same
    exact spares.pidUnique table pcbs pid first second same
  · intro b here
    rw [nextFreePid]
    rcases member here with same | ⟨old, equal⟩
    · have bound := (table.pidBound table.current)
      rw [same, pid]
      omega
    · rw [equal]
      have bound := table.pidBound old
      omega
  · rw [spares.idle, pcbs, spares.kept table.idle.1]
    exact ⟨Finset.mem_insert_of_mem table.idle.1, table.idle.2⟩
  · rw [spares.idle, spares.kept table.idle.1]
    exact table.idleState
  · intro name here
    rw [spares.idle] at here
    rcases joins.mem here with old | ⟨same, _⟩
    · exact table.idleAlone name old
    · have idle := table.idle.1
      rw [same] at idle
      exact spares.fresh idle
  · intro b here root
    rcases member here with same | ⟨old, equal⟩
    · rw [same] at root
      exact absurd root parentPid
    · rw [equal] at root ⊢
      exact table.parent old root
  · intro name b here
    rcases joins.mem here with old | ⟨same, fits⟩
    · rw [spares.kept (table.queued old)]
      exact table.fits old
    · rw [same, stated]
      exact fits
  · intro b here runs
    rw [spares.current]
    rcases member here with same | ⟨old, equal⟩
    · rw [same, stated] at runs
      exact absurd runs joins.still
    · rw [equal] at runs
      exact table.running old runs
  · rw [spares.current, pcbs]
    exact Finset.mem_insert_of_mem table.current
  · rw [spares.foreground]
    rcases table.foreground with none | ⟨name, shown, here⟩
    · exact .inl none
    · exact .inr ⟨name, shown, joins.grows here⟩

theorem Settled.creates (settled : Settled k) (user : k.processes.currentProcess ≠
    k.processes.idleProcess) (creates : Creates params a rsp k k') : Settled k' := by
  have table := settled.table
  cases creates with
  | failed spares items pcbs nextFreePid =>
    constructor
    · exact table.congr_on items pcbs spares.kept nextFreePid spares.current spares.idle
        spares.foreground
    · rw [spares.current, spares.idle, items]
      exact settled.scheduled
    · rw [spares.current, spares.currentPid, spares.kept table.current]
      exact settled.dispatched
  | @created base _ spares present record pcbs nextFreePid =>
    obtain ⟨state, stdin, stdout, record, place⟩ := record
    have joins : Joins a state k.items k'.items := place
    -- The parent is the process that runs, and that is not idle.
    have parentPid : (k'.pcb a).parentPid ≠ 0 := by
      rw [record]
      change k.getCurrentPid ≠ 0
      rw [table.getCurrentPid]
      intro zero
      exact user (table.pidUnique table.current table.idle.1 (zero.trans table.idle.2.symm))
    constructor
    · exact table.creates spares present joins (by rw [record]; rfl) parentPid (by rw [record])
        pcbs nextFreePid
    · rw [spares.current, spares.idle]
      rcases settled.scheduled with same | ready
      · exact .inl same
      · exact .inr (joins.grows ready)
    · rw [spares.current, spares.currentPid, spares.kept table.current]
      exact settled.dispatched

theorem Spares.editPcb (spares : Spares a k k') (change : PCB → PCB) :
    Spares a k (k'.editPcb a change) := by
  obtain ⟨fresh, others, current, idle, foreground, currentPid, first, semaphores, pipes⟩ := spares
  refine ⟨fresh, ?_, current, idle, foreground, currentPid, first, semaphores, pipes⟩
  intro b other
  rw [editPcb_pcb, if_neg other]
  exact others other

/-- The filled-in PCB is put on a queue, or on none. -/
theorem Creates.enter {base : Nat} {state : ProcessState} {stdin stdout : Int}
    {entered : Kernel M} {lists : QueueName → List Addr} (spares : Spares a k entered)
    (present : a ≠ 0)
    (record : entered.pcb a = { newPcb params base rsp k with
      state := state, stdin := stdin, stdout := stdout })
    (pcbs : entered.pcbs = insert a k.pcbs) (nextFreePid : entered.nextFreePid = k.nextFreePid + 1)
    (requeued : Requeued entered k' lists)
    (place : (lists = k.items ∧ state ≠ .running) ∨
      (lists = push k.items readyQueue a ∧ state = .ready) ∨
      (lists = push k.items blockedQueue a ∧ state = .blocked)) : Creates params a rsp k k' := by
  obtain ⟨memory, queue, rfl, same⟩ := requeued
  obtain ⟨fresh, others, current, idle, foreground, currentPid, first, semaphores, pipes⟩ := spares
  refine .created ⟨fresh, others, current, idle, foreground, currentPid, first, semaphores, pipes⟩
    present ⟨state, stdin, stdout, record, ?_⟩ pcbs nextFreePid
  rw [same]
  exact place

variable [MemoryManager M]

/-- The allocator does not hand out a PCB in use. -/
def FreshPcb (k : Kernel M) : Prop := (allocMemory pcbSize k.memory).1 ∉ k.pcbs

theorem enqueueProcess_cases (k : Kernel M) (name : QueueName) (process : Addr) :
    Requeued k (k.enqueueProcess name process).2 k.items ∨
      Requeued k (k.enqueueProcess name process).2 (push k.items name process) := by
  by_cases granted : (allocMemory nodeSize k.memory).1 = 0
  · left
    unfold enqueueProcess Queue.enqueue
    simp only [granted, if_true]
    exact ⟨_, k.processes.queue, rfl, rfl⟩
  · right
    exact (enqueueProcess_spec k name process granted).2

theorem setupProcessStack_spec (arg : List String) (k : Kernel M) :
    ∃ base rsp memory, setupProcessStack arg k = (base, rsp, { k with memory := memory }) := by
  unfold setupProcessStack
  by_cases none : (allocMemory stackSize k.memory).1 = 0
  · simp only [none, if_true]
    exact ⟨_, _, _, rfl⟩
  · simp only [none, if_false]
    exact ⟨_, _, _, rfl⟩

theorem addProcess_user (present : process ≠ 0) (running : k.processes.currentProcess ≠ 0)
    (user : k.processes.currentProcess ≠ k.processes.idleProcess) :
    addProcess process k = (k.enqueueProcess readyQueue process).2 := by
  unfold addProcess
  rw [if_neg present, if_neg]
  intro either
  rcases either with none | idle
  · exact running none
  · exact user idle

/-- The stack pointer that `setupProcessStack` builds for a new process. -/
def builtRsp (params : CreationParams) (k : Kernel M) : Nat :=
  (setupProcessStack params.arg { k with memory := (allocMemory pcbSize k.memory).2 }).2.1

theorem createProcess_creates (params : CreationParams) (settled : Settled k) (fresh : k.FreshPcb)
    (user : k.processes.currentProcess ≠ k.processes.idleProcess) :
    Creates params (allocMemory pcbSize k.memory).1 (builtRsp params k) k
      (createProcess params k).2 := by
  have table := settled.table
  have running := table.ne_zero table.current
  have userPid : 1 < k.nextFreePid := by
    have currentBound := table.pidBound table.current
    have other : (k.pcb k.processes.currentProcess).pid ≠ 0 := by
      intro zero
      exact user (table.pidUnique table.current table.idle.1 (zero.trans table.idle.2.symm))
    omega
  unfold createProcess createProcessPCB
  by_cases invalid : params.name = none ∨ params.function = 0
  · simp only [invalid, if_true]
    exact .failed ⟨fresh, fun _ => rfl, rfl, rfl, rfl, rfl, rfl, rfl, rfl⟩ rfl rfl le_rfl
  simp only [invalid, if_false]
  by_cases none : (allocMemory pcbSize k.memory).1 = 0
  · simp only [none, if_true]
    exact .failed ⟨table.present, fun _ => rfl, rfl, rfl, rfl, rfl, rfl, rfl, rfl⟩ rfl rfl le_rfl
  simp only [none, if_false]
  obtain ⟨base, rsp, memory, stack⟩ := setupProcessStack_spec params.arg
    { k with memory := (allocMemory pcbSize k.memory).2 }
  have built : builtRsp params k = rsp := by
    unfold builtRsp
    rw [stack]
  rw [built]
  simp only [stack]
  unfold FreshPcb at fresh
  generalize (allocMemory pcbSize k.memory).1 = a at none fresh ⊢
  have spare : ∀ {record : PCB} {b : Addr}, b ≠ a → Function.update k.pcb a record b = k.pcb b := by
    intro record b other
    exact Function.update_of_ne other _ _
  by_cases failed : rsp = 0
  · simp only [failed, if_true]
    exact .failed ⟨fresh, spare, rfl, rfl, rfl, rfl, rfl, rfl, rfl⟩ rfl rfl
      (by change _ ≤ _ + 1; omega)
  simp only [failed, userPid, if_true, if_false]
  generalize equal : ({ k with
    memory := memory
    pcb := Function.update k.pcb a
      (newPcb params base rsp { k with memory := (allocMemory pcbSize k.memory).2 })
    nextFreePid := k.nextFreePid + 1
    pcbs := insert a k.pcbs } : Kernel M) = entered
  have spares : Spares a k entered := by
    rw [← equal]
    exact ⟨fresh, spare, rfl, rfl, rfl, rfl, rfl, rfl, rfl⟩
  have record : entered.pcb a = newPcb params base rsp k := by
    rw [← equal]
    exact Function.update_self _ _ _
  have pcbs : entered.pcbs = insert a k.pcbs := by
    rw [← equal]
  have nextFreePid : entered.nextFreePid = k.nextFreePid + 1 := by
    rw [← equal]
  have items : entered.items = k.items := by
    rw [← equal]
    rfl
  by_cases background : ¬ params.foreground ∧ params.stdin = tty
  · rw [if_pos background]
    simp only [none, if_false]
    have blocked := enqueueProcess_cases ((entered.editPcb a fun pcb =>
      { pcb with stdout := params.stdout }).setState a .blocked) blockedQueue a
    have filled : ((entered.editPcb a fun pcb => { pcb with stdout := params.stdout }).setState a
        .blocked).pcb a = { newPcb params base rsp k with
          state := .blocked, stdin := -1, stdout := params.stdout } := by
      rw [setState_pcb, if_pos rfl, editPcb_pcb, if_pos rfl, record]
      rfl
    rcases blocked with requeued | requeued
    · exact .enter ((spares.editPcb _).editPcb _) none filled pcbs nextFreePid requeued
        (.inl ⟨items, by decide⟩)
    · exact .enter ((spares.editPcb _).editPcb _) none filled pcbs nextFreePid requeued
        (.inr (.inr ⟨by rw [← items]; rfl, rfl⟩))
  · rw [if_neg background]
    simp only [none, if_false]
    have added : ∀ change, addProcess a (entered.editPcb a change) =
        ((entered.editPcb a change).enqueueProcess readyQueue a).2 := by
      intro change
      apply addProcess_user none
      · rw [editPcb_processes, spares.current]
        exact running
      · rw [editPcb_processes, spares.current, spares.idle]
        exact user
    generalize (if params.stdin = tty then entered.getCurrentProcessStdin else params.stdin) = stdin
    generalize (if params.stdout = 1 then entered.getCurrentProcessStdout else params.stdout) = stdout
    have filled : (entered.editPcb a fun pcb => { pcb with stdin := stdin, stdout := stdout }).pcb a =
        { newPcb params base rsp k with state := .ready, stdin := stdin, stdout := stdout } := by
      rw [editPcb_pcb, if_pos rfl, record]
      rfl
    split
    · rw [added]
      rcases enqueueProcess_cases (entered.editPcb a fun pcb =>
        { pcb with stdin := stdin, stdout := stdout }) readyQueue a with requeued | requeued
      · exact .enter (spares.editPcb _) none filled pcbs nextFreePid requeued
          (.inl ⟨items, by decide⟩)
      · exact .enter (spares.editPcb _) none filled pcbs nextFreePid requeued
          (.inr (.inl ⟨by rw [← items]; rfl, rfl⟩))
    · exact .enter (spares.editPcb _) none filled pcbs nextFreePid .refl (.inl ⟨items, by decide⟩)

end Kernel
end SoKernel
