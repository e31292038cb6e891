import SoKernel.Kernel.Creation
import SoKernel.Lib.Exclusive

namespace SoKernel
open MemoryManager QueueName Lib

variable {M : Type}

/-- No allocation fails. -/
def AllocSucceeds (M : Type) [MemoryManager M] : Prop :=
  ∀ (size : Nat) (memory : M), (allocMemory size memory).1 ≠ 0

/-- The memory of a node that was just freed can be allocated again. It is asked for every memory
and address, and so not met by an allocator that can latch an error; `Buddy.node_reusable` has it
for the nodes of a healthy heap. -/
def NodesReusable (M : Type) [MemoryManager M] : Prop :=
  ∀ (address : Addr) (memory : M), (allocMemory nodeSize (freeMemory address memory)).1 ≠ 0

theorem AllocSucceeds.nodesReusable [MemoryManager M] (succeeds : AllocSucceeds M) :
    NodesReusable M :=
  fun _ _ => succeeds _ _

namespace Kernel

variable {k k' : Kernel M} {a process : Addr} {pid : Int} {name qFrom qTo : QueueName} {rsp : Nat}
variable {rest : List Addr} {state : ProcessState}

/-- The PCBs on each queue. -/
def items (k : Kernel M) (name : QueueName) : List Addr := (k.processes.queue name).items

/-! ## Each edit reads back -/

@[simp] theorem editPcb_items (change) : (k.editPcb a change).items = k.items := rfl
@[simp] theorem editPcb_processes (change) : (k.editPcb a change).processes = k.processes := rfl
@[simp] theorem setState_items : (k.setState a state).items = k.items := rfl
@[simp] theorem setState_processes : (k.setState a state).processes = k.processes := rfl
@[simp] theorem setCurrent_items : (k.setCurrent a).items = k.items := rfl
@[simp] theorem setForeground_items : (k.setForeground a).items = k.items := rfl
@[simp] theorem editSem_items (id change) : (k.editSem id change).items = k.items := rfl

theorem editPcb_pcb (change) :
    (k.editPcb a change).pcb process = if process = a then change (k.pcb a) else k.pcb process :=
  Function.update_apply _ _ _ _

theorem setState_pcb : (k.setState a state).pcb process =
    if process = a then { k.pcb a with state := state } else k.pcb process :=
  editPcb_pcb _

/-- The kernel with other allocator data and other queue nodes. -/
def withQueues (k : Kernel M) (memory : M) (queue : QueueName → Queue Addr) : Kernel M :=
  { k with memory := memory, processes := { k.processes with queue := queue } }

/-- Two kernels that differ in allocator data and queue nodes only; the second one
holds the given PCBs. -/
def Requeued (k k' : Kernel M) (lists : QueueName → List Addr) : Prop :=
  ∃ memory queue, k' = k.withQueues memory queue ∧ k'.items = lists

theorem Requeued.refl : Requeued k k k.items := ⟨k.memory, k.processes.queue, rfl, rfl⟩

theorem items_setQueue (queue : Queue Addr) :
    (k.setQueue name queue).items = Function.update k.items name queue.items := by
  funext other
  by_cases same : other = name
  · subst same
    simp [items, setQueue, editProcesses]
  · simp [items, setQueue, editProcesses, same]

theorem hasPid_iff : k.hasPid pid a = true ↔ a ≠ 0 ∧ (k.pcb a).pid = pid := by
  simp [hasPid]

variable [MemoryManager M]

theorem enqueueProcess_spec (k : Kernel M) (name : QueueName) (process : Addr)
    (granted : (allocMemory nodeSize k.memory).1 ≠ 0) :
    (k.enqueueProcess name process).1 = true ∧
      Requeued k (k.enqueueProcess name process).2 (push k.items name process) := by
  unfold enqueueProcess Queue.enqueue
  simp only [granted, if_false]
  refine ⟨trivial, _, _, rfl, ?_⟩
  rw [items_setQueue, Queue.items_append]
  rfl

/-- `switchProcess` finds no PCB, or moves one that it found. -/
theorem switchProcess_cases (qFrom qTo : QueueName) (pid : Int) (k : Kernel M)
    (reusable : NodesReusable M) :
    (switchProcess qFrom qTo pid k = (0, k) ∧ ∀ a ∈ k.items qFrom, ¬ k.hasPid pid a) ∨
      ∃ process k', switchProcess qFrom qTo pid k = (process, k') ∧ process ∈ k.items qFrom ∧
        process ≠ 0 ∧ (k.pcb process).pid = pid ∧
        Requeued k k' (push (drop k.items qFrom process) qTo process) := by
  unfold switchProcess
  cases removed : (k.processes.queue qFrom).removeFromQueue (k.hasPid pid) k.memory with
  | none =>
    left
    refine ⟨rfl, ?_⟩
    intro a member
    simp [Queue.removeFromQueue_eq_none.mp removed a member]
  | some result =>
    right
    obtain ⟨process, queue, memory⟩ := result
    obtain ⟨member, matched, erased, address, freed⟩ := Queue.removeFromQueue_items removed
    obtain ⟨present, found⟩ := hasPid_iff.mp matched
    obtain ⟨done, memory', queue', same, lists⟩ := enqueueProcess_spec
      ({ k with memory := memory }.setQueue qFrom queue) qTo process
        (by rw [freed]; exact reusable address k.memory)
    refine ⟨process, _, ?_, member, present, found, memory', queue', same, ?_⟩
    · simp [done]
    · rw [lists, items_setQueue, erased]
      rfl

/-- `getNextProcess` falls back to idle, or rotates the ready queue. -/
theorem getNextProcess_cases (reusable : NodesReusable M) :
    (k.items readyQueue = [] ∧
      k.getNextProcess = (k.processes.idleProcess, k.setCurrent k.processes.idleProcess)) ∨
      ∃ next rest k', k.items readyQueue = next :: rest ∧
        Requeued k k' (push (drop k.items readyQueue next) readyQueue next) ∧
        k.getNextProcess = (next, if (k.pcb next).foreground
          then (k'.setCurrent next).setForeground next else k'.setCurrent next) := by
  unfold getNextProcess
  cases nodes : k.processes.queue readyQueue with
  | nil =>
    left
    refine ⟨?_, rfl⟩
    rw [items, nodes]
    rfl
  | cons node tail =>
    right
    obtain ⟨done, memory, queue, same, lists⟩ := enqueueProcess_spec
      ({ k with memory := freeMemory node.address k.memory }.setQueue readyQueue tail)
      readyQueue node.data (reusable node.address k.memory)
    refine ⟨node.data, Queue.items tail, _, ?_, ⟨memory, queue, same, ?_⟩, ?_⟩
    · rw [items, nodes]
      rfl
    · have front : (k.items readyQueue).erase node.data = Queue.items tail := by
        rw [items, nodes, Queue.items_cons, List.erase_cons_head]
      rw [lists, items_setQueue, drop, front]
      rfl
    · simp only [Queue.dequeue, done, not_true_eq_false, if_false]
      rw [same]
      by_cases shown : (k.pcb node.data).foreground
      · rw [if_pos shown]
        exact if_pos shown
      · rw [if_neg shown]
        exact if_neg shown

end Kernel
end SoKernel
