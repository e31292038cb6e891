import SoKernel.Kernel.System

namespace SoKernel
open MemoryManager QueueName Lib Kernel SoKernel.System

variable {M : Type}

/-- The pid that a call takes off `blockedQueue`. -/
def Call.unblocks : Call → Option Int
  | .unblockProcess pid => some pid
  | _ => none

/-- The calls that neither create, end, nor wait for a process. -/
def Call.shifts : Call → Bool
  | .createProcess _ | .kill _ _ | .waitpid _ => false
  | _ => true

namespace Kernel

variable {k k₀ k₁ k' : Kernel M} {a b next : Addr} {pid id : Int} {rsp value : Nat}
variable {source target name : QueueName} {state : ProcessState} {unblocked : Option Int}

/-- The same processes, on the same queues, up to their order and their states. -/
structure SameRecords (k k' : Kernel M) : Prop where
  pcbs : k'.pcbs = k.pcbs
  nextFreePid : k'.nextFreePid = k.nextFreePid
  items : ∀ {name a}, a ∈ k'.items name ↔ a ∈ k.items name
  pid : ∀ a, (k'.pcb a).pid = (k.pcb a).pid
  parentPid : ∀ a, (k'.pcb a).parentPid = (k.pcb a).parentPid
  waitingForPid : ∀ a, (k'.pcb a).waitingForPid = (k.pcb a).waitingForPid
  retValue : ∀ a, (k'.pcb a).retValue = (k.pcb a).retValue

theorem SameRecords.refl : SameRecords k k :=
  ⟨rfl, rfl, .rfl, fun _ => rfl, fun _ => rfl, fun _ => rfl, fun _ => rfl⟩

theorem Switched.sameRecords (switched : Switched rsp k k' next) (exclusive : Exclusive k.items) :
    SameRecords k k' where
  pcbs := switched.pcbs
  nextFreePid := switched.nextFreePid
  items := switched.mem_items exclusive
  pid _ := switched.pid
  parentPid _ := switched.parentPid
  waitingForPid a := by
    rw [switched.pcb]
    rfl
  retValue a := by
    rw [switched.pcb]
    rfl

theorem Moved.records (moved : Moved pid source target state a k k') (b : Addr) :
    (k'.pcb b).parentPid = (k.pcb b).parentPid ∧
      (k'.pcb b).waitingForPid = (k.pcb b).waitingForPid ∧
      (k'.pcb b).retValue = (k.pcb b).retValue := by
  rw [moved.pcb]
  split
  · rename_i same
    rw [same]
    exact ⟨rfl, rfl, rfl⟩
  · exact ⟨rfl, rfl, rfl⟩

theorem Moved.fields (moved : Moved pid source target state a k k') :
    k'.pcbs = k.pcbs ∧ k'.nextFreePid = k.nextFreePid := by
  obtain ⟨memory, queue, rfl, lists⟩ := moved.requeued
  exact ⟨rfl, rfl⟩

theorem sameRecords_withSem {memory : M} {sem : Sem} :
    SameRecords k (k.withSem memory id sem) :=
  ⟨rfl, rfl, .rfl, fun _ => rfl, fun _ => rfl, fun _ => rfl, fun _ => rfl⟩

theorem editPcb_sameRecords {change : PCB → PCB}
    (kept : ∀ pcb, (change pcb).pid = pcb.pid ∧ (change pcb).parentPid = pcb.parentPid ∧
      (change pcb).waitingForPid = pcb.waitingForPid ∧ (change pcb).retValue = pcb.retValue) :
    SameRecords k (k.editPcb a change) := by
  have same : ∀ b, ((k.editPcb a change).pcb b).pid = (k.pcb b).pid ∧
      ((k.editPcb a change).pcb b).parentPid = (k.pcb b).parentPid ∧
      ((k.editPcb a change).pcb b).waitingForPid = (k.pcb b).waitingForPid ∧
      ((k.editPcb a change).pcb b).retValue = (k.pcb b).retValue := by
    intro b
    rw [editPcb_pcb]
    split
    · rename_i equal
      rw [equal]
      exact kept _
    · exact ⟨rfl, rfl, rfl, rfl⟩
  exact ⟨rfl, rfl, .rfl, fun b => (same b).1, fun b => (same b).2.1, fun b => (same b).2.2.1,
    fun b => (same b).2.2.2⟩

/-- At most one living process changes its queue. -/
inductive Shift (unblocked : Option Int) (k : Kernel M) : Kernel M → Prop
  | none {after : Kernel M} : SameRecords k after → Shift unblocked k after
  | moved {k₀ k₁ after : Kernel M} {pid source target state a} : SameRecords k k₀ →
      Exclusive k₀.items → Moved pid source target state a k₀ k₁ →
      source ≠ zombieQueue → target ≠ zombieQueue →
      (source = blockedQueue → unblocked = some pid) → SameRecords k₁ after →
      Shift unblocked k after

theorem changePrio_sameRecords {newPrio : Int} : SameRecords k (changePrio pid newPrio k).2 := by
  unfold changePrio
  by_cases kernel : pid ≤ 1
  · simp only [kernel, if_true]
    exact .refl
  · by_cases absent : k.getProcess pid = 0
    · simp only [kernel, absent, if_true, if_false]
      exact .refl
    · simp only [kernel, absent, if_false]
      exact editPcb_sameRecords fun _ => ⟨rfl, rfl, rfl, rfl⟩

variable [MemoryManager M]

theorem callTimerTick_sameRecords (table : Table k) (reusable : NodesReusable M) :
    SameRecords k (callTimerTick rsp k) := by
  rcases callTimerTick_cases rsp k reusable with ⟨_, same⟩ | ⟨_, next, switched⟩
  · rw [same]
    exact ⟨rfl, rfl, .rfl, fun _ => rfl, fun _ => rfl, fun _ => rfl, fun _ => rfl⟩
  · exact switched.sameRecords table.exclusive

theorem yield_sameRecords (table : Table k) (reusable : NodesReusable M) :
    SameRecords k (yield rsp k) := by
  obtain ⟨next, switched⟩ := yield_switches rsp k reusable
  exact switched.sameRecords table.exclusive

/-- The process may give up the processor after the move. -/
theorem Moved.shift_yield (moved : Moved pid source target state a k₀ k₁)
    (reusable : NodesReusable M) (same : SameRecords k k₀) (table : Table k₀)
    (fits : Fits target state) (still : state ≠ .running) (alive : source ≠ zombieQueue)
    (shown : target ≠ zombieQueue) (asleep : source = blockedQueue → unblocked = some pid)
    (yields : Prop) [Decidable yields] :
    Shift unblocked k (if yields then yield rsp k₁ else k₁) := by
  have after : Table k₁ := moved.table table fits still fun zombie => absurd zombie shown
  apply Shift.moved same table.exclusive moved alive shown asleep
  split
  · exact yield_sameRecords after reusable
  · exact .refl

theorem blockProcess_shift (same : SameRecords k k₀) (settled : Settled k₀)
    (reusable : NodesReusable M) : Shift unblocked k (blockProcess pid rsp k₀).2 := by
  rcases blockProcess_cases pid rsp k₀ reusable with ⟨equal, _⟩ | ⟨source, a, k', which, moved, equal⟩
  · rw [equal]
    exact .none same
  · rw [equal]
    rcases which with ready | bySem
    · subst ready
      exact moved.shift_yield reusable same settled.table rfl (by decide) (by decide) (by decide)
        (fun never => nomatch never) _
    · subst bySem
      exact moved.shift_yield reusable same settled.table rfl (by decide) (by decide) (by decide)
        (fun never => nomatch never) _

theorem blockProcessBySem_shift (same : SameRecords k k₀) (settled : Settled k₀)
    (reusable : NodesReusable M) : Shift unblocked k (blockProcessBySem pid rsp k₀).2 := by
  rcases blockProcessBySem_cases pid rsp k₀ reusable with ⟨equal, _⟩ | ⟨a, k', moved, equal⟩
  · rw [equal]
    exact .none same
  · rw [equal]
    exact moved.shift_yield reusable same settled.table rfl (by decide) (by decide) (by decide)
      (fun never => nomatch never) _

theorem unblockProcess_shift (settled : Settled k) (reusable : NodesReusable M) :
    Shift (some pid) k (unblockProcess pid k).2 := by
  rcases unblockProcess_cases pid k reusable with ⟨equal, _⟩ | ⟨a, k', equal, moved⟩
  · rw [equal]
    exact .none .refl
  · rw [equal]
    exact .moved .refl settled.table.exclusive moved (by decide) (by decide) (fun _ => rfl) .refl

theorem unblockProcessBySem_shift (same : SameRecords k k₀) (settled : Settled k₀)
    (reusable : NodesReusable M) : Shift unblocked k (unblockProcessBySem pid k₀).2 := by
  rcases unblockProcessBySem_cases pid k₀ reusable with ⟨equal, _⟩ | ⟨a, k', equal, moved⟩
  · rw [equal]
    exact .none same
  · rw [equal]
    exact .moved same settled.table.exclusive moved (by decide) (by decide)
      (fun never => nomatch never) .refl

theorem semInit_shift : Shift unblocked k (semInit id value k).2 := by
  have way := semInit_cases id value k
  generalize semInit id value k = result at way ⊢
  cases way with
  | refused _ => exact .none .refl
  | failed _ _ => exact .none sameRecords_withSem
  | opened _ => exact .none sameRecords_withSem

theorem semWait_shift (settled : Settled k) (reusable : NodesReusable M) :
    Shift unblocked k (semWait id rsp k).2 := by
  have way := wait_cases id rsp k
  change Shift unblocked k (wait id rsp k).2
  generalize wait id rsp k = result at way ⊢
  cases way with
  | taken _ => exact .none sameRecords_withSem
  | failed _ _ => exact .none sameRecords_withSem
  | unlisted _ _ => exact blockProcessBySem_shift sameRecords_withSem settled.withSem reusable
  | asleep _ _ => exact blockProcessBySem_shift sameRecords_withSem settled.withSem reusable

theorem semPost_shift (settled : Settled k) (reusable : NodesReusable M) :
    Shift unblocked k (semPost id k).2 := by
  have way := post_cases id k
  change Shift unblocked k (post id k).2
  generalize post id k = result at way ⊢
  cases way with
  | counted _ => exact .none sameRecords_withSem
  | handed _ => exact unblockProcessBySem_shift sameRecords_withSem settled.withSem reusable

end Kernel

/-- What a call does to the table, unless it creates, ends or waits for a process. -/
theorem System.perform_shift [MemoryManager M] {s : System M} {call : Call} {rsp : Nat}
    (settled : Settled s.kernel) (reusable : NodesReusable M) (shifts : call.shifts) :
    Shift call.unblocks s.kernel (s.perform call rsp).kernel := by
  cases call with
  | yield => exact .none (yield_sameRecords settled.table reusable)
  | createProcess params => cases shifts
  | blockProcess pid => exact blockProcess_shift .refl settled reusable
  | unblockProcess pid => exact unblockProcess_shift settled reusable
  | blockProcessBySem => exact blockProcessBySem_shift .refl settled reusable
  | unblockProcessBySem pid => exact unblockProcessBySem_shift .refl settled reusable
  | kill pid retValue => cases shifts
  | waitpid pid => cases shifts
  | changePrio pid newPrio => exact .none changePrio_sameRecords
  | semInit id value => exact semInit_shift
  | semWait id => exact semWait_shift settled reusable
  | semPost id => exact semPost_shift settled reusable

end SoKernel
