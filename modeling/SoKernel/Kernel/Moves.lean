import SoKernel.Kernel.Dispatch

namespace SoKernel
open MemoryManager QueueName Lib

variable {M : Type}

namespace Kernel

variable {k k' : Kernel M} {a b : Addr} {pid : Int} {rsp : Nat} {state : ProcessState}
variable {name source target : QueueName}

/-- The PCB `a` with the given pid goes from `source` to `target` and gets a state. -/
structure Moved (pid : Int) (source target : QueueName) (state : ProcessState) (a : Addr)
    (k k' : Kernel M) : Prop where
  member : a ∈ k.items source
  named : (k.pcb a).pid = pid
  requeued : Requeued (k.setState a state) k' (push (drop k.items source a) target a)

/-- No PCB on the queue has the pid. -/
def Missing (k : Kernel M) (name : QueueName) (pid : Int) : Prop :=
  ∀ a ∈ k.items name, ¬ k.hasPid pid a

theorem Missing.elim (missing : k.Missing name pid) (table : Table k) (member : a ∈ k.items name) :
    (k.pcb a).pid ≠ pid := by
  intro named
  apply missing a member
  rw [hasPid_iff]
  exact ⟨table.ne_zero (table.queued member), named⟩

theorem Moved.pcb (moved : Moved pid source target state a k k') :
    k'.pcb b = if b = a then { k.pcb a with state := state } else k.pcb b := by
  obtain ⟨memory, queue, rfl, lists⟩ := moved.requeued
  exact setState_pcb

theorem Moved.pid_eq (moved : Moved pid source target state a k k') :
    (k'.pcb b).pid = (k.pcb b).pid := by
  rw [moved.pcb]
  split
  · rename_i same
    rw [same]
  · rfl

theorem Moved.mem_items (moved : Moved pid source target state a k k')
    (exclusive : Exclusive k.items) :
    b ∈ k'.items name ↔ (b ∈ k.items name ∧ b ≠ a) ∨ (name = target ∧ b = a) := by
  obtain ⟨memory, queue, rfl, lists⟩ := moved.requeued
  rw [lists]
  exact exclusive.mem_move moved.member

theorem Moved.table (moved : Moved pid source target state a k k') (table : Table k)
    (fits : Fits target state) (still : state ≠ .running)
    (visible : target = zombieQueue → k.processes.foregroundProcess ≠ a) : Table k' :=
  table.move moved.member ⟨rfl, rfl⟩ fits still visible moved.requeued

theorem Moved.current (moved : Moved pid source target state a k k') :
    k'.processes.currentProcess = k.processes.currentProcess := by
  obtain ⟨memory, queue, rfl, lists⟩ := moved.requeued
  rfl

theorem Moved.idle (moved : Moved pid source target state a k k') :
    k'.processes.idleProcess = k.processes.idleProcess := by
  obtain ⟨memory, queue, rfl, lists⟩ := moved.requeued
  rfl

theorem Moved.currentPid (moved : Moved pid source target state a k k') :
    k'.currentPid = k.currentPid := by
  obtain ⟨memory, queue, rfl, lists⟩ := moved.requeued
  rfl

theorem Moved.getCurrentPid (moved : Moved pid source target state a k k') :
    k'.getCurrentPid = k.getCurrentPid := by
  unfold Kernel.getCurrentPid
  rw [moved.current, moved.pid_eq]

theorem Table.getCurrentPid (table : Table k) :
    k.getCurrentPid = (k.pcb k.processes.currentProcess).pid := by
  unfold Kernel.getCurrentPid
  rw [if_neg (table.ne_zero table.current)]

/-- The current process is not among those on a queue other than the ready one. -/
theorem Settled.current_ne (settled : Settled k) (member : a ∈ k.items name)
    (other : name ≠ readyQueue) : k.processes.currentProcess ≠ a := by
  intro same
  rcases settled.scheduled with idle | ready
  · rw [← same, idle] at member
    exact settled.table.idleAlone name member
  · rw [same] at ready
    exact other (settled.table.exclusive.unique member ready)

/-- Moving another process than the current one. -/
theorem Settled.move (settled : Settled k) (moved : Moved pid source target state a k k')
    (fits : Fits target state) (still : state ≠ .running)
    (visible : target = zombieQueue → k.processes.foregroundProcess ≠ a)
    (other : k.processes.currentProcess ≠ a) : Settled k' where
  table := moved.table settled.table fits still visible
  scheduled := by
    rw [moved.current, moved.idle]
    rcases settled.scheduled with idle | ready
    · exact .inl idle
    · exact .inr ((moved.mem_items settled.table.exclusive).mpr (.inl ⟨ready, other⟩))
  dispatched := by
    rw [moved.current, moved.currentPid, moved.pcb, if_neg other]
    exact settled.dispatched

theorem Settled.wake (settled : Settled k)
    (moved : Moved pid source readyQueue .ready a k k') (asleep : source ≠ readyQueue) :
    Settled k' :=
  settled.move moved (.inl rfl) (by decide) (fun zombie => absurd zombie (by decide))
    (settled.current_ne moved.member asleep)

theorem contains_isSome : (k.contains name pid).isSome = true ↔ ¬ k.Missing name pid := by
  unfold contains Queue.containsQueue Missing
  rw [List.find?_isSome]
  push Not
  rfl

variable [MemoryManager M]

/-- `switchProcess` followed by a new state. -/
theorem switchProcess_moves (source target : QueueName) (pid : Int) (k : Kernel M)
    (reusable : NodesReusable M) (state : ProcessState) :
    (switchProcess source target pid k = (0, k) ∧ k.Missing source pid) ∨
      ∃ process k', switchProcess source target pid k = (process, k') ∧ process ≠ 0 ∧
        Moved pid source target state process k (k'.setState process state) := by
  rcases switchProcess_cases source target pid k reusable with
    ⟨same, missing⟩ | ⟨process, k', same, member, present, named, memory, queue, moved, lists⟩
  · exact .inl ⟨same, missing⟩
  · right
    refine ⟨process, k', same, present, member, named, memory, queue, ?_, lists⟩
    subst moved
    rfl

theorem unblockProcess_cases (pid : Int) (k : Kernel M) (reusable : NodesReusable M) :
    (unblockProcess pid k = (-1, k) ∧ k.Missing blockedQueue pid) ∨
      ∃ a k', unblockProcess pid k = (0, k') ∧ Moved pid blockedQueue readyQueue .ready a k k' := by
  unfold unblockProcess unblockProcessQueue
  rcases switchProcess_moves blockedQueue readyQueue pid k reusable .ready with
    ⟨same, missing⟩ | ⟨a, k', same, present, moved⟩
  · left
    rw [same]
    exact ⟨rfl, missing⟩
  · right
    rw [same]
    exact ⟨a, _, if_neg present, moved⟩

theorem unblockProcessBySem_cases (pid : Int) (k : Kernel M) (reusable : NodesReusable M) :
    (unblockProcessBySem pid k = (-1, k) ∧ k.Missing blockedQueueBySem pid) ∨
      ∃ a k', unblockProcessBySem pid k = (0, k') ∧
        Moved pid blockedQueueBySem readyQueue .ready a k k' := by
  unfold unblockProcessBySem unblockProcessQueueBySem
  rcases switchProcess_moves blockedQueueBySem readyQueue pid k reusable .ready with
    ⟨same, missing⟩ | ⟨a, k', same, present, moved⟩
  · left
    rw [same]
    exact ⟨rfl, missing⟩
  · right
    rw [same]
    exact ⟨a, _, if_neg present, moved⟩

/-- `blockProcessQueue` looks on the ready queue, then among those that wait for a
semaphore. -/
theorem blockProcessQueue_cases (pid : Int) (k : Kernel M) (reusable : NodesReusable M) :
    (blockProcessQueue pid k = (-1, k) ∧ k.Missing readyQueue pid ∧
      k.Missing blockedQueueBySem pid) ∨
      ∃ source a k', (source = readyQueue ∨ source = blockedQueueBySem) ∧
        Moved pid source blockedQueue .blocked a k k' ∧ blockProcessQueue pid k = (0, k') := by
  have found : ∀ source, (source = readyQueue ∨ source = blockedQueueBySem) →
      ¬ k.Missing source pid →
      (if (k.contains readyQueue pid).isSome then some readyQueue
        else if (k.contains blockedQueueBySem pid).isSome then some blockedQueueBySem
        else none) = some source →
      ∃ source a k', (source = readyQueue ∨ source = blockedQueueBySem) ∧
        Moved pid source blockedQueue .blocked a k k' ∧ blockProcessQueue pid k = (0, k') := by
    intro source which here chosen
    rcases switchProcess_moves source blockedQueue pid k reusable .blocked with
      ⟨_, missing⟩ | ⟨a, k', same, present, moved⟩
    · exact absurd missing here
    · refine ⟨source, a, _, which, moved, ?_⟩
      unfold blockProcessQueue
      rw [chosen]
      simp only [same, present, if_false]
  by_cases ready : k.Missing readyQueue pid
  · by_cases bySem : k.Missing blockedQueueBySem pid
    · left
      refine ⟨?_, ready, bySem⟩
      unfold blockProcessQueue
      rw [if_neg (fun some => contains_isSome.mp some ready),
        if_neg (fun some => contains_isSome.mp some bySem)]
    · right
      apply found blockedQueueBySem (.inr rfl) bySem
      rw [if_neg (fun some => contains_isSome.mp some ready), if_pos (contains_isSome.mpr bySem)]
  · right
    apply found readyQueue (.inl rfl) ready
    rw [if_pos (contains_isSome.mpr ready)]

/-- In `blockProcess` the current process gives up the processor. -/
theorem blockProcess_cases (pid : Int) (rsp : Nat) (k : Kernel M)
    (reusable : NodesReusable M) :
    (blockProcess pid rsp k = (-1, k) ∧ k.Missing readyQueue pid ∧
      k.Missing blockedQueueBySem pid) ∨
      ∃ source a k', (source = readyQueue ∨ source = blockedQueueBySem) ∧
        Moved pid source blockedQueue .blocked a k k' ∧
        blockProcess pid rsp k = (0, if pid = k'.getCurrentPid then yield rsp k' else k') := by
  unfold blockProcess
  rcases blockProcessQueue_cases pid k reusable with
    ⟨same, missing⟩ | ⟨source, a, k', which, moved, same⟩
  · left
    rw [same]
    exact ⟨rfl, missing⟩
  · right
    refine ⟨source, a, k', which, moved, ?_⟩
    rw [same]
    simp only [ne_eq, not_true_eq_false, if_false]
    split <;> rfl

theorem blockProcessBySem_cases (pid : Int) (rsp : Nat) (k : Kernel M)
    (reusable : NodesReusable M) :
    (blockProcessBySem pid rsp k = (-1, k) ∧ k.Missing readyQueue pid) ∨
      ∃ a k', Moved pid readyQueue blockedQueueBySem .waitingSem a k k' ∧
        blockProcessBySem pid rsp k =
          (0, if pid = k'.getCurrentPid then yield rsp k' else k') := by
  unfold blockProcessBySem blockProcessQueueBySem
  rcases switchProcess_moves readyQueue blockedQueueBySem pid k reusable .waitingSem with
    ⟨same, missing⟩ | ⟨a, k', same, present, moved⟩
  · left
    rw [same]
    exact ⟨rfl, missing⟩
  · right
    refine ⟨a, _, moved, ?_⟩
    rw [same]
    simp only [present, if_false, ne_eq, not_true_eq_false]
    split <;> rfl

/-! ## The table after each -/

/-- A blocked process that is the current one yields. -/
theorem Settled.block (settled : Settled k) (reusable : NodesReusable M)
    (moved : Moved pid source target state a k k') (fits : Fits target state)
    (still : state ≠ .running) (shown : target ≠ zombieQueue) :
    Settled (if pid = k'.getCurrentPid then yield rsp k' else k') := by
  have hidden : target = zombieQueue → k.processes.foregroundProcess ≠ a :=
    fun zombie => absurd zombie shown
  split
  · exact (moved.table settled.table fits still hidden).yield reusable
  · rename_i other
    apply settled.move moved fits still hidden
    intro same
    apply other
    rw [moved.getCurrentPid, settled.table.getCurrentPid, same, moved.named]

theorem Settled.blockProcess (settled : Settled k) (reusable : NodesReusable M) :
    Settled (blockProcess pid rsp k).2 := by
  rcases blockProcess_cases pid rsp k reusable with
    ⟨same, _⟩ | ⟨source, a, k', _, moved, same⟩
  · rw [same]
    exact settled
  · rw [same]
    exact settled.block reusable moved rfl (by decide) (by decide)

theorem Settled.blockProcessBySem (settled : Settled k) (reusable : NodesReusable M) :
    Settled (blockProcessBySem pid rsp k).2 := by
  rcases blockProcessBySem_cases pid rsp k reusable with
    ⟨same, _⟩ | ⟨a, k', moved, same⟩
  · rw [same]
    exact settled
  · rw [same]
    exact settled.block reusable moved rfl (by decide) (by decide)

theorem Settled.unblockProcess (settled : Settled k) (reusable : NodesReusable M) :
    Settled (unblockProcess pid k).2 := by
  rcases unblockProcess_cases pid k reusable with ⟨same, _⟩ | ⟨a, k', same, moved⟩
  · rw [same]
    exact settled
  · rw [same]
    exact settled.wake moved (by decide)

theorem Settled.unblockProcessBySem (settled : Settled k) (reusable : NodesReusable M) :
    Settled (unblockProcessBySem pid k).2 := by
  rcases unblockProcessBySem_cases pid k reusable with
    ⟨same, _⟩ | ⟨a, k', same, moved⟩
  · rw [same]
    exact settled
  · rw [same]
    exact settled.wake moved (by decide)

end Kernel
end SoKernel
