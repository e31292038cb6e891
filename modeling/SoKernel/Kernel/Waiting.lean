import SoKernel.Kernel.Exit

namespace SoKernel
open MemoryManager QueueName Lib

variable {M : Type}

namespace Kernel

variable {k k' : Kernel M} {a b target current : Addr} {pid : Int} {rsp : Nat}
variable {name : QueueName}

/-- The caller of `waitpid` notes whom it waits for; `-1` is nobody. -/
def setWaiting (process : Addr) (pid : Int) (k : Kernel M) : Kernel M :=
  k.editPcb process fun pcb => { pcb with waitingForPid := pid }

theorem setWaiting_pcb : (k.setWaiting a pid).pcb b =
    if b = a then { k.pcb a with waitingForPid := pid } else k.pcb b := editPcb_pcb _

theorem setWaiting_fields (b a : Addr) (pid : Int) (k : Kernel M) :
    ((k.setWaiting a pid).pcb b).pid = (k.pcb b).pid ∧
      ((k.setWaiting a pid).pcb b).parentPid = (k.pcb b).parentPid ∧
      ((k.setWaiting a pid).pcb b).state = (k.pcb b).state ∧
      ((k.setWaiting a pid).pcb b).retValue = (k.pcb b).retValue := by
  rw [setWaiting_pcb]
  split
  · rename_i same
    rw [same]
    exact ⟨rfl, rfl, rfl, rfl⟩
  · exact ⟨rfl, rfl, rfl, rfl⟩

theorem Settled.editPcb (settled : Settled k) {change : PCB → PCB}
    (kept : ∀ pcb, (change pcb).pid = pcb.pid ∧ (change pcb).parentPid = pcb.parentPid ∧
      (change pcb).state = pcb.state) : Settled (k.editPcb a change) := by
  have same : ∀ b, ((k.editPcb a change).pcb b).state = (k.pcb b).state ∧
      ((k.editPcb a change).pcb b).pid = (k.pcb b).pid := by
    intro b
    rw [editPcb_pcb]
    split
    · rename_i equal
      rw [equal]
      exact ⟨(kept _).2.2, (kept _).1⟩
    · exact ⟨rfl, rfl⟩
  constructor
  · exact settled.table.editPcb kept
  · exact settled.scheduled
  · rw [editPcb_processes, (same _).1, (same _).2]
    exact settled.dispatched

theorem Settled.setWaiting (settled : Settled k) (a : Addr) (pid : Int) :
    Settled (k.setWaiting a pid) :=
  settled.editPcb fun _ => ⟨rfl, rfl, rfl⟩

theorem Settled.changePrio (settled : Settled k) {newPrio : Int} :
    Settled (changePrio pid newPrio k).2 := by
  unfold Kernel.changePrio
  by_cases kernel : pid ≤ 1
  · simp only [kernel, if_true]
    exact settled
  · by_cases absent : k.getProcess pid = 0
    · simp only [kernel, absent, if_true, if_false]
      exact settled
    · simp only [kernel, absent, if_false]
      exact settled.editPcb fun _ => ⟨rfl, rfl, rfl⟩

theorem found_of_getProcess (table : Table k) (found : k.getProcess pid ≠ 0) :
    k.Listed (k.getProcess pid) ∧ (k.pcb (k.getProcess pid)).pid = pid := by
  rcases getProcess_cases pid table with ⟨none, _⟩ | found
  · exact absurd none (by assumption)
  · exact found

/-- How `waitpid` can go when its caller is on the ready queue. -/
inductive Waitpid [MemoryManager M] (pid : Int) (rsp : Nat) (k : Kernel M) :
    WaitpidOutcome → Kernel M → Prop
  /-- There is no such process. -/
  | absent : k.getProcess pid = 0 → Waitpid pid rsp k (.returned (-1) none) k
  /-- It is not a child. -/
  | stranger : k.getProcess pid ≠ 0 →
      (k.pcb (k.getProcess pid)).parentPid ≠ k.getCurrentPid →
      Waitpid pid rsp k (.returned (-1) none) k
  /-- Its state is past `ZOMBIE`. -/
  | refused : k.getProcess pid ≠ 0 →
      ProcessState.zombie.value < (k.pcb (k.getProcess pid)).state.value →
      Waitpid pid rsp k (.returned (-1) none) k
  | reaped {after : Kernel M} : ((k.pcb (k.getProcess pid)).parentPid = k.getCurrentPid ∨
        (k.pcb k.processes.currentProcess).waitingForPid = pid) →
      (k.pcb (k.getProcess pid)).state = .zombie →
      (k.pcb (k.getProcess pid)).pid = pid →
      Reaped (k.getProcess pid) (k.setWaiting k.processes.currentProcess (-1)) after →
      Waitpid pid rsp k (.returned pid
        (some (BitVec.ofNat 32 (k.pcb (k.getProcess pid)).retValue))) after
  | asleep {blocked after : Kernel M} : k.getProcess pid ≠ 0 →
      ((k.pcb (k.getProcess pid)).parentPid = k.getCurrentPid ∨
        (k.pcb k.processes.currentProcess).waitingForPid = pid) →
      (k.pcb (k.getProcess pid)).state.value < ProcessState.zombie.value →
      Moved (k.pcb k.processes.currentProcess).pid readyQueue blockedQueue .blocked
        k.processes.currentProcess (k.setWaiting k.processes.currentProcess pid) blocked →
      after = yield rsp blocked → Waitpid pid rsp k .asleep after

variable [MemoryManager M]

/-- `waitpid` blocks its caller, which is on the ready queue. -/
theorem waitpid_leaves (pid : Int) (reusable : NodesReusable M) (settled : Settled k)
    (ready : k.processes.currentProcess ∈ k.items readyQueue) :
    ∃ k', Moved (k.pcb k.processes.currentProcess).pid readyQueue blockedQueue .blocked
        k.processes.currentProcess (k.setWaiting k.processes.currentProcess pid) k' ∧
      blockProcessQueue k.getCurrentPid
        ((k.setWaiting k.processes.currentProcess pid).setState k.processes.currentProcess
          .blocked) = (0, k') ∧ k'.getCurrentPid = k.getCurrentPid := by
  have table := settled.table
  have named : ∀ b, (((k.setWaiting k.processes.currentProcess pid).setState
      k.processes.currentProcess .blocked).pcb b).pid = (k.pcb b).pid := by
    intro b
    rw [setState_pcb]
    split
    · rename_i same
      rw [same, setWaiting_pcb, if_pos rfl]
    · rename_i other
      rw [setWaiting_pcb, if_neg other]
  rcases blockProcessQueue_cases k.getCurrentPid ((k.setWaiting k.processes.currentProcess
      pid).setState k.processes.currentProcess .blocked) reusable with
    ⟨_, missing, _⟩ | ⟨source, a, k', _, moved, same⟩
  · apply absurd (hasPid_iff.mpr ⟨table.ne_zero table.current, ?_⟩) (missing _ ready)
    rw [named, table.getCurrentPid]
  · have member : a ∈ k.items source := moved.member
    have isCurrent : a = k.processes.currentProcess := by
      apply table.pidUnique (table.queued member) table.current
      rw [← named, moved.named, table.getCurrentPid]
    subst isCurrent
    have onReady := table.exclusive.unique member ready
    subst onReady
    refine ⟨k', ⟨member, ?_, ?_⟩, same, ?_⟩
    · rw [setWaiting_pcb, if_pos rfl]
    · obtain ⟨memory, queue, rfl, lists⟩ := moved.requeued
      refine ⟨memory, queue, ?_, lists⟩
      unfold setState editPcb
      simp only [Function.update_self, Function.update_idem]
    · rw [moved.getCurrentPid]
      unfold Kernel.getCurrentPid
      rw [named]
      rfl

theorem waitpid_blocks (pid : Int) (rsp : Nat) (reusable : NodesReusable M) (settled : Settled k)
    (ready : k.processes.currentProcess ∈ k.items readyQueue) :
    ∃ k', Moved (k.pcb k.processes.currentProcess).pid readyQueue blockedQueue .blocked
        k.processes.currentProcess (k.setWaiting k.processes.currentProcess pid) k' ∧
      blockProcess k.getCurrentPid rsp
        ((k.setWaiting k.processes.currentProcess pid).setState k.processes.currentProcess
          .blocked) = (0, yield rsp k') := by
  obtain ⟨k', moved, left, same⟩ := waitpid_leaves pid reusable settled ready
  refine ⟨k', moved, ?_⟩
  unfold blockProcess
  rw [left]
  simp only [ne_eq, not_true_eq_false, if_false, same, if_true]

theorem waitpid_cases (pid : Int) (rsp : Nat) (reusable : NodesReusable M) (settled : Settled k)
    (ready : k.processes.currentProcess ∈ k.items readyQueue) :
    Waitpid pid rsp k (waitpid pid rsp k).1 (waitpid pid rsp k).2 := by
  have table := settled.table
  have self : k.getProcess k.getCurrentPid = k.processes.currentProcess :=
    table.getProcess_eq (.inl rfl) table.getCurrentPid.symm
  have present := table.ne_zero table.current
  unfold waitpid
  by_cases absent : k.getProcess pid = 0
  · simp only [absent, if_true]
    exact .absent absent
  obtain ⟨listed, named⟩ := found_of_getProcess table absent
  simp only [absent, self, present, if_false]
  by_cases stranger : (k.pcb (k.getProcess pid)).parentPid ≠ k.getCurrentPid ∧
      (k.pcb k.processes.currentProcess).waitingForPid ≠ pid
  · rw [if_pos stranger]
    exact .stranger absent stranger.1
  rw [if_neg stranger]
  have family : (k.pcb (k.getProcess pid)).parentPid = k.getCurrentPid ∨
      (k.pcb k.processes.currentProcess).waitingForPid = pid := by
    by_contra neither
    push Not at neither
    exact stranger neither
  by_cases dead : (k.pcb (k.getProcess pid)).state = .zombie
  · rw [if_pos dead]
    have zombie := settled.zombie listed dead
    have other := settled.current_ne zombie (by decide)
    obtain ⟨k', reaped, same⟩ := reapChild_spec
      (settled.setWaiting k.processes.currentProcess (-1)).table zombie
    change Waitpid pid rsp k
      (.returned (reapChild _ (k.setWaiting k.processes.currentProcess (-1))).1
        (some (reapChild _ (k.setWaiting k.processes.currentProcess (-1))).2.1))
      (reapChild _ (k.setWaiting k.processes.currentProcess (-1))).2.2
    rw [same, setWaiting_pcb, if_neg other.symm, named]
    exact .reaped family dead named reaped
  · rw [if_neg dead]
    by_cases alive : (k.pcb (k.getProcess pid)).state.value < ProcessState.zombie.value
    · rw [if_pos alive]
      obtain ⟨k', moved, same⟩ := waitpid_blocks pid rsp reusable settled ready
      have asleep : Waitpid pid rsp k .asleep (yield rsp k') :=
        .asleep absent family alive moved rfl
      unfold Kernel.setWaiting at same
      simp only [same, ne_eq, not_true_eq_false, if_false]
      exact asleep
    · rw [if_neg alive]
      apply Waitpid.refused absent
      generalize (k.pcb (k.getProcess pid)).state = state at dead alive ⊢
      cases state with
      | ready => exact absurd (by decide) alive
      | running => exact absurd (by decide) alive
      | blocked => exact absurd (by decide) alive
      | zombie => exact absurd rfl dead
      | exited => decide
      | killed => decide
      | waitingSem => decide

theorem Settled.waitpid (settled : Settled k) (reusable : NodesReusable M)
    (ready : k.processes.currentProcess ∈ k.items readyQueue) :
    Settled (waitpid pid rsp k).2 := by
  have way := waitpid_cases pid rsp reusable settled ready
  generalize Kernel.waitpid pid rsp k = result at way ⊢
  obtain ⟨outcome, after⟩ := result
  cases way with
  | absent _ => exact settled
  | stranger _ _ => exact settled
  | refused _ _ => exact settled
  | reaped _ _ _ reaped => exact (settled.setWaiting _ _).reap reaped
  | asleep _ _ _ moved same =>
    rw [same]
    apply Table.yield _ reusable
    exact moved.table (settled.setWaiting _ _).table rfl (by decide)
      fun zombie => absurd zombie (by decide)

/-- The second half of `waitpid`: the child is gone, or it is reaped. -/
theorem waitpidResume_cases (pid : Int) (current : Addr) (settled : Settled k) :
    ((k.getProcess pid = 0 ∨ (k.pcb (k.getProcess pid)).state ≠ .zombie) ∧
      waitpidResume pid current k = (-1, none, k)) ∨
    ∃ k', (k.pcb (k.getProcess pid)).state = .zombie ∧
      Reaped (k.getProcess pid) (k.setWaiting current (-1)) k' ∧
      waitpidResume pid current k =
        (pid, some (BitVec.ofNat 32 (k.pcb (k.getProcess pid)).retValue), k') := by
  unfold waitpidResume
  by_cases absent : k.getProcess pid = 0
  · left
    simp only [absent, if_true]
    exact ⟨.inl trivial, trivial⟩
  by_cases dead : (k.pcb (k.getProcess pid)).state = .zombie
  · right
    obtain ⟨listed, named⟩ := found_of_getProcess settled.table absent
    have zombie := settled.zombie listed dead
    obtain ⟨k', reaped, same⟩ := reapChild_spec
      (settled.setWaiting current (-1)).table zombie
    refine ⟨k', dead, reaped, ?_⟩
    obtain ⟨samePid, _, _, sameValue⟩ := setWaiting_fields (k.getProcess pid) current (-1) k
    rw [samePid, sameValue, named] at same
    unfold Kernel.setWaiting at same
    simp only [absent, dead, if_true, if_false, same]
  · left
    simp only [absent, dead, if_false]
    exact ⟨.inr dead, trivial⟩

theorem Settled.waitpidResume (settled : Settled k) :
    Settled (waitpidResume pid current k).2.2 := by
  rcases waitpidResume_cases pid current settled with ⟨_, same⟩ | ⟨k', _, reaped, same⟩
  · rw [same]
    exact settled
  · rw [same]
    exact (settled.setWaiting _ _).reap reaped

end Kernel
end SoKernel
