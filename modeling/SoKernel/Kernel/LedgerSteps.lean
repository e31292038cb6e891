import SoKernel.Kernel.Ledger
import SoKernel.Kernel.Creating

namespace SoKernel
open MemoryManager QueueName Lib

variable {M : Type}

namespace Kernel

variable {k k' : Kernel M} {a b next process : Addr} {pid parentPid : Int}
variable {name source target : QueueName} {rsp retValue size : Nat} {state : ProcessState}
variable {memory : M} {rest : Multiset Block}

/-- No process on a queue of the living is a zombie. -/
theorem Table.alive (table : Table k) (member : a ∈ k.items name) (living : name ≠ zombieQueue) :
    (k.pcb a).state ≠ .zombie := by
  intro dead
  have fits := table.fits member
  rw [dead] at fits
  cases name with
  | readyQueue =>
    rcases fits with ready | running
    · cases ready
    · cases running
  | blockedQueue => cases fits
  | blockedQueueBySem => cases fits
  | zombieQueue => exact living rfl

theorem Table.idle_alive (table : Table k) :
    (k.pcb k.processes.idleProcess).state ≠ .zombie := by
  intro dead
  have state := table.idleState
  rw [dead] at state
  rcases state with ready | running
  · cases ready
  · cases running

variable [MemoryManager M] {books : Books M}

/-! ## Dispatches -/

theorem Balanced.setState (balanced : Balanced books rest k) (alive : (k.pcb a).state ≠ .zombie)
    (still : state ≠ .zombie) : Balanced books rest (k.setState a state) := by
  apply balanced.editPcb
  rw [stackBlocks_alive alive, stackBlocks_alive still]

theorem Balanced.leave (balanced : Balanced books rest k) (rsp : Nat) :
    Balanced books rest (k.leave rsp) := by
  have stack : ∀ a ∈ k.pcbs, stackBlocks ((k.leave rsp).pcb a) = stackBlocks (k.pcb a) := by
    intro a _
    rw [leave_eq]
    have dead : (afterLeave rsp k a).state = .zombie ↔ (k.pcb a).state = .zombie := by
      unfold afterLeave
      dsimp only
      split
      · rename_i runs
        simp [runs.2]
      · rfl
    exact stackBlocks_congr rfl dead
  rw [leave_eq] at stack ⊢
  exact balanced.congr rfl rfl rfl stack

theorem Balanced.arrive (balanced : Balanced books rest k)
    (alive : (k.pcb next).state ≠ .zombie) : Balanced books rest (k.arrive next) :=
  (balanced.setState alive (by decide)).congr rfl rfl rfl fun _ _ => rfl

theorem Balanced.callTimerTick (balanced : Balanced books rest k) (table : Table k)
    (reusable : NodesReusable M) : Balanced books rest (callTimerTick rsp k) := by
  unfold Kernel.callTimerTick
  by_cases stays : k.Stays
  · rw [schedule_stays stays]
    exact balanced.congr rfl rfl rfl fun _ _ => rfl
  rw [schedule_leaves stays]
  have left := (balanced.leave rsp).getNextProcess
  have living : ∀ a, (k.pcb a).state ≠ .zombie → ((k.leave rsp).pcb a).state ≠ .zombie := by
    intro a alive
    rw [leave_eq]
    unfold afterLeave
    dsimp only
    split
    · decide
    · exact alive
  have alive : ((k.leave rsp).getNextProcess.2.pcb (k.leave rsp).getNextProcess.1).state ≠
      .zombie := by
    have items : (k.leave rsp).items = k.items := by
      rw [leave_eq]
      rfl
    have idle : (k.leave rsp).processes.idleProcess = k.processes.idleProcess := by
      rw [leave_eq]
    rcases getNextProcess_cases (k := k.leave rsp) reusable with
      ⟨_, chosen⟩ | ⟨next, rest, k', front, ⟨memory, queue, moved, _⟩, chosen⟩
    · rw [chosen, idle]
      exact living _ table.idle_alive
    · have member : next ∈ k.items readyQueue := by
        rw [← items, front]
        exact List.mem_cons_self
      have alive := living _ (table.alive member (by decide))
      rw [chosen, moved]
      split
      · exact alive
      · exact alive
  exact (left.arrive alive).congr rfl rfl rfl fun _ _ => rfl

theorem Balanced.yield (balanced : Balanced books rest k) (table : Table k)
    (reusable : NodesReusable M) : Balanced books rest (yield rsp k) :=
  Balanced.callTimerTick (balanced.congr rfl rfl rfl fun _ _ => rfl)
    (table.congr rfl rfl rfl rfl rfl rfl rfl) reusable

/-! ## Moves between queues -/

omit [MemoryManager M] in
theorem Requeued.same {lists : QueueName → List Addr} (moved : Requeued k k' lists) :
    k'.pcb = k.pcb ∧ k'.pcbs = k.pcbs := by
  obtain ⟨memory, queue, rfl, _⟩ := moved
  exact ⟨rfl, rfl⟩

theorem switchProcess_pcb (source target : QueueName) (pid : Int) (k : Kernel M) :
    (switchProcess source target pid k).2.pcb = k.pcb ∧
      (switchProcess source target pid k).2.pcbs = k.pcbs := by
  have kept : ∀ (k : Kernel M) name process, (k.enqueueProcess name process).2.pcb = k.pcb ∧
      (k.enqueueProcess name process).2.pcbs = k.pcbs := by
    intro k name process
    rcases enqueueProcess_cases k name process with moved | moved
    · exact moved.same
    · exact moved.same
  unfold switchProcess
  cases removed : (k.processes.queue source).removeFromQueue (k.hasPid pid) k.memory with
  | none => exact ⟨rfl, rfl⟩
  | some result =>
    obtain ⟨process, queue, memory⟩ := result
    dsimp only
    split
    · exact kept _ _ _
    · obtain ⟨pcb, pcbs⟩ := kept (({ k with memory := memory }.setQueue source
        queue).enqueueProcess target process).2 source process
      rw [pcb, pcbs]
      exact kept _ _ _

/-- Every process that `switchProcess` can find on the queue is alive. -/
theorem Balanced.switch (balanced : Balanced books rest k) (reusable : NodesReusable M)
    (alive : ∀ a ∈ k.items source, (k.pcb a).state ≠ .zombie) (still : state ≠ .zombie)
    (found : (Kernel.switchProcess source target pid k).1 ≠ 0) :
    Balanced books rest ((Kernel.switchProcess source target pid k).2.setState
      (Kernel.switchProcess source target pid k).1 state) := by
  apply (balanced.switchProcess source target pid).setState _ still
  rw [(switchProcess_pcb source target pid k).1]
  rcases switchProcess_cases source target pid k reusable with
    ⟨same, _⟩ | ⟨process, k', same, member, _⟩
  · rw [same] at found
    exact absurd rfl found
  · rw [same]
    exact alive process member

theorem Balanced.blockProcessQueue (balanced : Balanced books rest k) (reusable : NodesReusable M)
    (alive : ∀ name, name ≠ zombieQueue → ∀ a ∈ k.items name, (k.pcb a).state ≠ .zombie) :
    Balanced books rest (blockProcessQueue pid k).2 := by
  have moved : ∀ source, source ≠ zombieQueue →
      Balanced books rest (if (Kernel.switchProcess source blockedQueue pid k).1 = 0
        then (-1, (Kernel.switchProcess source blockedQueue pid k).2)
        else ((0 : Int), (Kernel.switchProcess source blockedQueue pid k).2.setState
          (Kernel.switchProcess source blockedQueue pid k).1 .blocked)).2 := by
    intro source living
    split
    · exact balanced.switchProcess _ _ _
    · rename_i found
      exact balanced.switch reusable (alive source living) (by decide) found
  unfold Kernel.blockProcessQueue
  by_cases ready : (k.contains readyQueue pid).isSome
  · rw [if_pos ready]
    exact moved readyQueue (by decide)
  · rw [if_neg ready]
    by_cases bySem : (k.contains blockedQueueBySem pid).isSome
    · rw [if_pos bySem]
      exact moved blockedQueueBySem (by decide)
    · rw [if_neg bySem]
      exact balanced

theorem Balanced.unblockProcess (balanced : Balanced books rest k) (reusable : NodesReusable M)
    (table : Table k) : Balanced books rest (unblockProcess pid k).2 := by
  unfold Kernel.unblockProcess unblockProcessQueue
  dsimp only
  split
  · exact balanced.switchProcess _ _ _
  · rename_i found
    exact balanced.switch reusable (fun a member => table.alive member (by decide)) (by decide)
      found

theorem Balanced.blockProcess (balanced : Balanced books rest k) (reusable : NodesReusable M)
    (settled : Settled k) : Balanced books rest (blockProcess pid rsp k).2 := by
  have blocked : Balanced books rest (Kernel.blockProcessQueue pid k).2 :=
    balanced.blockProcessQueue reusable fun name living a member =>
      settled.table.alive member living
  unfold Kernel.blockProcess
  rcases blockProcessQueue_cases pid k reusable with
    ⟨same, _⟩ | ⟨source, a, k', _, moved, same⟩
  · rw [same]
    exact balanced
  · rw [same] at blocked ⊢
    have table : Table k' := moved.table settled.table rfl (by decide)
      fun zombie => absurd zombie (by decide)
    simp only [ne_eq, not_true_eq_false, if_false]
    split
    · exact Balanced.yield blocked table reusable
    · exact blocked

/-! ## The end of a process -/

/-- A zombie has no stack any more; the block is still there. -/
theorem Balanced.dies (balanced : Balanced books rest k) (member : a ∈ k.pcbs)
    (alive : (k.pcb a).state ≠ .zombie) :
    Balanced books (((k.pcb a).base - stackSize, stackSize) ::ₘ rest) (k.setState a .zombie) := by
  intro clean
  have live := balanced clean
  have others : (∑ b ∈ k.pcbs.erase a,
      ((b, pcbSize) ::ₘ stackBlocks ((k.setState a .zombie).pcb b))) =
      ∑ b ∈ k.pcbs.erase a, ((b, pcbSize) ::ₘ stackBlocks (k.pcb b)) := by
    apply Finset.sum_congr rfl
    intro b here
    rw [setState_pcb, if_neg (Finset.ne_of_mem_erase here)]
  have dead : stackBlocks ((k.setState a .zombie).pcb a) = 0 := by
    rw [setState_pcb, if_pos rfl]
    rfl
  have after : (k.setState a .zombie).processBlocks = _ := processBlocks_split member
  change books.live k.memory = _ + (k.queueBlocks + (k.setState a .zombie).processBlocks)
  change books.live k.memory = rest + (k.queueBlocks + k.processBlocks) at live
  rw [after]
  change books.live k.memory = _ + (k.queueBlocks + ((∑ b ∈ k.pcbs.erase a,
    ((b, pcbSize) ::ₘ stackBlocks ((k.setState a .zombie).pcb b))) + _))
  rw [others, dead, live, processBlocks_split member, stackBlocks_alive alive]
  simp only [← Multiset.singleton_add, add_zero]
  ac_rfl

/-- `killProcess` up to the switch to the zombie queue. -/
theorem killProcess_finish (pid : Int) (retValue : Nat) (k : Kernel M) :
    ∃ process k', (∀ {books : Books M} {rest}, Balanced books rest k → Balanced books rest k') ∧
      k'.pcb = k.pcb ∧ k'.pcbs = k.pcbs ∧ killProcess pid retValue .zombie k =
        if process = 0 then (0, k') else (process, finishKill pid retValue process k') := by
  unfold killProcess finishKill
  generalize start : (if k.processes.currentProcess ≠ 0 ∧
    (k.pcb k.processes.currentProcess).pid = pid then k.setCurrent k.processes.idleProcess
    else k) = k₀
  have first : (∀ {books : Books M} {rest}, Balanced books rest k → Balanced books rest k₀) ∧
      k₀.pcb = k.pcb ∧ k₀.pcbs = k.pcbs := by
    rw [← start]
    split
    · exact ⟨fun balanced => balanced.setCurrent _, rfl, rfl⟩
    · exact ⟨id, rfl, rfl⟩
  have switched : ∀ source, ∀ k₁ : Kernel M,
      (∀ {books : Books M} {rest}, Balanced books rest k → Balanced books rest k₁) ∧
        k₁.pcb = k.pcb ∧ k₁.pcbs = k.pcbs →
      (∀ {books : Books M} {rest}, Balanced books rest k →
        Balanced books rest (switchProcess source zombieQueue pid k₁).2) ∧
        (switchProcess source zombieQueue pid k₁).2.pcb = k.pcb ∧
        (switchProcess source zombieQueue pid k₁).2.pcbs = k.pcbs := by
    rintro source k₁ ⟨kept, pcb, pcbs⟩
    obtain ⟨samePcb, samePcbs⟩ := switchProcess_pcb source zombieQueue pid k₁
    exact ⟨fun balanced => (kept balanced).switchProcess _ _ _, samePcb.trans pcb,
      samePcbs.trans pcbs⟩
  have second := switched readyQueue k₀ first
  dsimp only
  generalize switchProcess readyQueue zombieQueue pid k₀ = result at second ⊢
  obtain ⟨process, k₁⟩ := result
  have third := switched blockedQueue k₁ second
  have fourth := switched blockedQueueBySem _ third
  dsimp only
  by_cases ready : process = 0
  · rw [if_pos ready]
    generalize switchProcess blockedQueue zombieQueue pid k₁ = result at third fourth ⊢
    obtain ⟨process, k₂⟩ := result
    dsimp only
    by_cases blocked : process = 0
    · rw [if_pos blocked]
      exact ⟨_, _, fourth.1, fourth.2.1, fourth.2.2, rfl⟩
    · rw [if_neg blocked]
      exact ⟨_, _, third.1, third.2.1, third.2.2, rfl⟩
  · rw [if_neg ready]
    simp only [ready, if_false]
    exact ⟨process, k₁, second.1, second.2.1, second.2.2, (if_neg ready).symm⟩

theorem Balanced.finishKill (balanced : Balanced books rest k) (member : a ∈ k.pcbs)
    (alive : (k.pcb a).state ≠ .zombie) :
    Balanced books (((k.pcb a).base - stackSize, stackSize) ::ₘ rest)
      (finishKill pid retValue a k) := by
  unfold Kernel.finishKill
  generalize shown : (if k.processes.foregroundProcess ≠ 0 ∧
    (k.pcb k.processes.foregroundProcess).pid = pid then k.setForeground 0 else k) = k₁
  have hidden : Balanced books rest k₁ ∧ k₁.pcb = k.pcb ∧ k₁.pcbs = k.pcbs := by
    rw [← shown]
    split
    · exact ⟨balanced.setForeground _, rfl, rfl⟩
    · exact ⟨balanced, rfl, rfl⟩
  obtain ⟨before, pcb, pcbs⟩ := hidden
  have record : (k₁.editPcb a fun pcb => { pcb with retValue := retValue }).pcb a =
      { k.pcb a with retValue := retValue } := by
    rw [editPcb_pcb, if_pos rfl, pcb]
  have edited : Balanced books rest (k₁.editPcb a fun pcb => { pcb with retValue := retValue }) :=
    before.editPcb rfl
  have died := edited.dies (by change a ∈ k₁.pcbs; rw [pcbs]; exact member)
    (by rw [record]; exact alive)
  rw [record] at died
  exact died

theorem Balanced.killProcess (balanced : Balanced books rest k) (reusable : NodesReusable M)
    (settled : Settled k) (user : 1 < pid) (present : a ≠ 0)
    (killed : killProcess pid retValue .zombie k = (a, k')) :
    Balanced books (((k'.pcb a).base - stackSize, stackSize) ::ₘ rest) k' := by
  rcases killProcess_cases pid retValue reusable settled user with
    ⟨same, _⟩ | ⟨source, process, after, _, same, dead⟩
  · rw [same] at killed
    cases killed
    exact absurd rfl present
  · rw [same] at killed
    cases killed
    obtain ⟨found, before, kept, pcb, pcbs, result⟩ := killProcess_finish pid retValue k
    rw [same] at result
    split at result
    · cases result
      exact absurd rfl present
    · cases result
      have member := settled.table.queued dead.member
      have alive := settled.table.alive dead.member dead.alive
      have base : ((Kernel.finishKill pid retValue a before).pcb a).base = (before.pcb a).base := by
        rw [dead.pcb, if_pos rfl, pcb]
      rw [base]
      exact (kept balanced).finishKill (by rw [pcbs]; exact member) (by rw [pcb]; exact alive)

theorem Balanced.wakeupWaitingParent (balanced : Balanced books rest k) (pid : Int)
    (reusable : NodesReusable M) (settled : Settled k) (user : parentPid ≠ 0) :
    Balanced books rest (wakeupWaitingParent parentPid pid k) := by
  unfold Kernel.wakeupWaitingParent
  have notIdle : parentPid ≠ (k.pcb k.processes.idleProcess).pid := by
    rw [settled.table.idle.2]
    exact user
  by_cases orphan : parentPid = -1
  · rw [if_pos orphan]
    exact balanced
  rw [if_neg orphan]
  simp only [notIdle, if_false]
  split
  · exact balanced
  · split
    · exact balanced.unblockProcess reusable settled.table
    · exact balanced

theorem Balanced.kill (balanced : Balanced books rest k) (reusable : NodesReusable M)
    (settled : Settled k) : Balanced books rest (kill pid retValue rsp k).2 := by
  unfold Kernel.kill
  by_cases kernel : pid ≤ 1
  · rw [if_pos kernel]
    exact balanced
  have user : 1 < pid := by omega
  rw [if_neg kernel]
  rcases killProcess_cases pid retValue reusable settled user with
    ⟨same, _⟩ | ⟨source, a, k', present, same, killed⟩
  · rw [same]
    exact balanced
  · have dead := balanced.killProcess reusable settled user present same
    have freed := killed.memory (freeMemory ((k'.pcb a).base - stackSize) k'.memory)
    have parent : (k'.pcb a).parentPid ≠ 0 := by
      intro root
      rw [killed.parentPid_eq] at root
      have kernelPid := settled.table.parent (settled.table.queued killed.member) root
      rw [killed.named] at kernelPid
      exact kernel kernelPid
    have woken := dead.freed.wakeupWaitingParent pid reusable (freed.settled settled) parent
    have after := (wakeupWaitingParent_wakes pid reusable (freed.settled settled) parent).settled
      (freed.settled settled)
    rw [same]
    simp only [present, if_false]
    split
    · exact Balanced.yield woken after.table reusable
    · exact woken

/-! ## `waitpid` -/

theorem removeZombieProcess_pcbs (pid : Int) (k : Kernel M) (pcbs : Finset Addr) :
    removeZombieProcess pid { k with pcbs := pcbs } =
      { removeZombieProcess pid k with pcbs := pcbs } := by
  unfold removeZombieProcess
  have same : Kernel.hasPid { k with pcbs := pcbs } = k.hasPid := rfl
  rw [same]
  dsimp only
  cases (k.processes.queue zombieQueue).removeFromQueue (k.hasPid pid) k.memory with
  | none => rfl
  | some result => rfl

theorem Balanced.removeZombieProcess (balanced : Balanced books rest k) (pid : Int) :
    Balanced books rest (removeZombieProcess pid k) := by
  unfold Kernel.removeZombieProcess
  cases removed : (k.processes.queue zombieQueue).removeFromQueue (k.hasPid pid) k.memory with
  | none => exact balanced
  | some result =>
    obtain ⟨process, queue, memory⟩ := result
    exact balanced.remove removed

/-- Without its PCB in the table, a zombie only has the block of the PCB. -/
theorem Balanced.forget (balanced : Balanced books rest k) (member : a ∈ k.pcbs)
    (dead : (k.pcb a).state = .zombie) (state : ProcessState) :
    Balanced books ((a, pcbSize) ::ₘ rest)
      { k.setState a state with pcbs := k.pcbs.erase a } := by
  intro clean
  have live := balanced clean
  have others : (∑ b ∈ k.pcbs.erase a,
      ((b, pcbSize) ::ₘ stackBlocks ((k.setState a state).pcb b))) =
      ∑ b ∈ k.pcbs.erase a, ((b, pcbSize) ::ₘ stackBlocks (k.pcb b)) := by
    apply Finset.sum_congr rfl
    intro b here
    rw [setState_pcb, if_neg (Finset.ne_of_mem_erase here)]
  change books.live k.memory = rest + (k.queueBlocks + k.processBlocks) at live
  change books.live k.memory = _ + (k.queueBlocks + ∑ b ∈ k.pcbs.erase a,
    ((b, pcbSize) ::ₘ stackBlocks ((k.setState a state).pcb b)))
  rw [others, live, processBlocks_split member, stackBlocks_zombie dead]
  simp only [← Multiset.singleton_add, add_zero]
  ac_rfl

theorem Balanced.reapChild (balanced : Balanced books rest k) (member : a ∈ k.pcbs)
    (dead : (k.pcb a).state = .zombie) : Balanced books rest (reapChild a k).2.2 := by
  have forgotten := balanced.forget member dead (.ofValue (k.pcb a).retValue)
  have removed := forgotten.removeZombieProcess (k.pcb a).pid
  rw [removeZombieProcess_pcbs] at removed
  have freed := removed.freed
  have pcbs : ∀ (state : ProcessState) (pid : Int),
      (Kernel.removeZombieProcess pid (k.setState a state)).pcbs = k.pcbs := by
    intro state pid
    unfold Kernel.removeZombieProcess
    split
    · rfl
    · rfl
  unfold Kernel.reapChild
  dsimp only
  rw [pcbs]
  exact freed

theorem Balanced.setWaiting (balanced : Balanced books rest k) (a : Addr) (pid : Int) :
    Balanced books rest (k.setWaiting a pid) := balanced.editPcb rfl

theorem Balanced.waitpidResume (balanced : Balanced books rest k) (settled : Settled k)
    (current : Addr) : Balanced books rest (waitpidResume pid current k).2.2 := by
  unfold Kernel.waitpidResume
  by_cases absent : k.getProcess pid = 0
  · simp only [absent, if_true]
    exact balanced
  by_cases dead : (k.pcb (k.getProcess pid)).state = .zombie
  · simp only [absent, dead, if_true, if_false]
    obtain ⟨listed, _⟩ := found_of_getProcess settled.table absent
    have member := settled.table.mem_of_listed listed
    have same := (setWaiting_fields (k.getProcess pid) current (-1) k).2.2.1
    exact (balanced.setWaiting current (-1)).reapChild member (same.trans dead)
  · simp only [absent, dead, if_false]
    exact balanced

theorem Balanced.waitpid (balanced : Balanced books rest k) (reusable : NodesReusable M)
    (settled : Settled k) (ready : k.processes.currentProcess ∈ k.items readyQueue) :
    Balanced books rest (waitpid pid rsp k).2 := by
  have table := settled.table
  have self : k.getProcess k.getCurrentPid = k.processes.currentProcess :=
    table.getProcess_eq (.inl rfl) table.getCurrentPid.symm
  have present := table.ne_zero table.current
  unfold Kernel.waitpid
  by_cases absent : k.getProcess pid = 0
  · simp only [absent, if_true]
    exact balanced
  obtain ⟨listed, _⟩ := found_of_getProcess table absent
  simp only [absent, self, present, if_false]
  split
  · exact balanced
  by_cases dead : (k.pcb (k.getProcess pid)).state = .zombie
  · rw [if_pos dead]
    have same := (setWaiting_fields (k.getProcess pid) k.processes.currentProcess (-1) k).2.2.1
    exact (balanced.setWaiting k.processes.currentProcess (-1)).reapChild
      (table.mem_of_listed listed) (same.trans dead)
  rw [if_neg dead]
  split
  · obtain ⟨k', moved, left, named⟩ := waitpid_leaves pid reusable settled ready
    have alive := table.alive ready (by decide)
    have noted : Balanced books rest ((k.setWaiting k.processes.currentProcess pid).setState
        k.processes.currentProcess .blocked) := by
      apply (balanced.setWaiting k.processes.currentProcess pid).setState _ (by decide)
      rw [(setWaiting_fields _ _ _ _).2.2.1]
      exact alive
    have blocked : Balanced books rest (Kernel.blockProcessQueue k.getCurrentPid
        ((k.setWaiting k.processes.currentProcess pid).setState k.processes.currentProcess
          .blocked)).2 := by
      apply noted.blockProcessQueue reusable
      intro name living a member
      rw [setState_pcb]
      split
      · exact nofun
      · rw [(setWaiting_fields _ _ _ _).2.2.1]
        exact table.alive member living
    rw [left] at blocked
    have after : Table k' := moved.table (settled.setWaiting _ _).table rfl (by decide)
      fun zombie => absurd zombie (by decide)
    have slept : Kernel.blockProcess k.getCurrentPid rsp
        ((k.setWaiting k.processes.currentProcess pid).setState k.processes.currentProcess
          .blocked) = (0, Kernel.yield rsp k') := by
      unfold Kernel.blockProcess
      rw [left]
      simp only [ne_eq, not_true_eq_false, if_false, named, if_true]
    unfold Kernel.setWaiting at slept
    simp only [slept, ne_eq, not_true_eq_false, if_false]
    exact Balanced.yield blocked after reusable
  · exact balanced

theorem Balanced.changePrio (balanced : Balanced books rest k) {newPrio : Int} :
    Balanced books rest (changePrio pid newPrio k).2 := by
  unfold Kernel.changePrio
  dsimp only
  split
  · exact balanced
  · split
    · exact balanced
    · exact balanced.editPcb rfl

end Kernel
end SoKernel
