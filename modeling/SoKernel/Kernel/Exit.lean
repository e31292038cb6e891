import SoKernel.Kernel.Children

namespace SoKernel
open MemoryManager QueueName Lib

variable {M : Type}

namespace Kernel

variable {k k' : Kernel M} {a b parent process : Addr} {pid parentPid childPid : Int} {rsp : Nat}
variable {retValue : Nat} {name source : QueueName}

/-- What `killProcess` writes besides the queues, the state and `currentProcess`. -/
def exiting (retValue : Nat) (a : Addr) (k : Kernel M) : Kernel M :=
  (if k.processes.foregroundProcess = a then k.setForeground 0 else k).editPcb a
    fun pcb => { pcb with retValue := retValue }

/-- The current process, when it dies, leaves its place to idle. -/
def vacate (a : Addr) (k : Kernel M) : Kernel M :=
  if k.processes.currentProcess = a then k.setCurrent k.processes.idleProcess else k

theorem exiting_items : (k.exiting retValue a).items = k.items := by
  unfold exiting
  split <;> rfl

theorem vacate_items : (k.vacate a).items = k.items := by
  unfold vacate
  split <;> rfl

theorem vacate_pcb : (k.vacate a).pcb = k.pcb := by
  unfold vacate
  split <;> rfl

theorem vacate_currentPid : (k.vacate a).currentPid = k.currentPid := by
  unfold vacate
  split <;> rfl

theorem exiting_pcb : (k.exiting retValue a).pcb b =
    if b = a then { k.pcb a with retValue := retValue } else k.pcb b := by
  unfold exiting
  rw [editPcb_pcb]
  split
  · split <;> rfl
  · split <;> rfl

theorem exiting_fields (retValue : Nat) (a : Addr) (k : Kernel M) :
    (k.exiting retValue a).pcbs = k.pcbs ∧
    (k.exiting retValue a).processes.currentProcess = k.processes.currentProcess ∧
    (k.exiting retValue a).processes.idleProcess = k.processes.idleProcess ∧
    (k.exiting retValue a).currentPid = k.currentPid := by
  unfold exiting
  split <;> exact ⟨rfl, rfl, rfl, rfl⟩

theorem Table.exiting (table : Table k) : Table (k.exiting retValue a) := by
  unfold Kernel.exiting
  split
  · exact (table.setForeground (.inl rfl)).editPcb fun _ => ⟨rfl, rfl, rfl⟩
  · exact table.editPcb fun _ => ⟨rfl, rfl, rfl⟩

theorem exiting_hidden (present : a ≠ 0) :
    (k.exiting retValue a).processes.foregroundProcess ≠ a := by
  unfold exiting
  by_cases shown : k.processes.foregroundProcess = a
  · rw [if_pos shown]
    exact present.symm
  · rw [if_neg shown]
    exact shown

/-- A process of the given pid, found on `source`, became a zombie. -/
structure Killed (pid : Int) (retValue : Nat) (source : QueueName) (a : Addr) (k k' : Kernel M) :
    Prop where
  alive : source ≠ zombieQueue
  moved : ∃ k₁, Moved pid source zombieQueue .zombie a (k.exiting retValue a) k₁ ∧
    k' = k₁.vacate a

theorem Killed.member (killed : Killed pid retValue source a k k') : a ∈ k.items source := by
  obtain ⟨k₁, moved, rfl⟩ := killed.moved
  have member := moved.member
  rw [exiting_items] at member
  exact member

theorem Killed.named (killed : Killed pid retValue source a k k') : (k.pcb a).pid = pid := by
  obtain ⟨k₁, moved, rfl⟩ := killed.moved
  have named := moved.named
  rw [exiting_pcb, if_pos rfl] at named
  exact named

theorem Killed.pcb (killed : Killed pid retValue source a k k') : k'.pcb b =
    if b = a then { k.pcb a with retValue := retValue, state := .zombie } else k.pcb b := by
  obtain ⟨k₁, moved, rfl⟩ := killed.moved
  rw [vacate_pcb, moved.pcb]
  split
  · rw [exiting_pcb, if_pos rfl]
  · rename_i other
    rw [exiting_pcb, if_neg other]

theorem Killed.mem_items (killed : Killed pid retValue source a k k')
    (exclusive : Exclusive k.items) :
    b ∈ k'.items name ↔ (b ∈ k.items name ∧ b ≠ a) ∨ (name = zombieQueue ∧ b = a) := by
  obtain ⟨k₁, moved, rfl⟩ := killed.moved
  rw [vacate_items, moved.mem_items (by rw [exiting_items]; exact exclusive), exiting_items]

theorem Killed.parentPid_eq (killed : Killed pid retValue source a k k') :
    (k'.pcb b).parentPid = (k.pcb b).parentPid := by
  rw [killed.pcb]
  split
  · rename_i same
    rw [same]
  · rfl

theorem Killed.currentPid (killed : Killed pid retValue source a k k') :
    k'.currentPid = k.currentPid := by
  obtain ⟨k₁, moved, rfl⟩ := killed.moved
  rw [vacate_currentPid, moved.currentPid]
  exact (exiting_fields retValue a k).2.2.2

/-- Freeing the stack changes nothing here. -/
theorem Killed.memory (killed : Killed pid retValue source a k k') (memory : M) :
    Killed pid retValue source a k { k' with memory := memory } := by
  obtain ⟨alive, k₁, ⟨member, named, _, queue, rfl, lists⟩, rfl⟩ := killed
  refine ⟨alive, _, ⟨member, named, memory, queue, rfl, lists⟩, ?_⟩
  unfold vacate
  split
  · rename_i self
    exact (if_pos self).symm
  · rename_i other
    exact (if_neg other).symm

theorem Killed.settled (killed : Killed pid retValue source a k k') (settled : Settled k) :
    Settled k' := by
  have inTable := settled.table.queued killed.member
  have notIdle : k.processes.idleProcess ≠ a := by
    intro same
    have member := killed.member
    rw [← same] at member
    exact settled.table.idleAlone _ member
  obtain ⟨k₁, moved, rfl⟩ := killed.moved
  obtain ⟨_, current, idle, currentPid⟩ := exiting_fields retValue a k
  have table := moved.table settled.table.exiting rfl (by decide)
    fun _ => exiting_hidden (settled.table.ne_zero inTable)
  by_cases self : k.processes.currentProcess = a
  · have own : k₁.processes.currentProcess = a := by
      rw [moved.current, current, self]
    unfold vacate
    rw [if_pos own]
    have none : ∀ {b}, b ∈ k₁.pcbs → (k₁.pcb b).state ≠ .running := by
      intro b member runs
      have same := table.running member runs
      rw [own] at same
      rw [moved.pcb, if_pos same] at runs
      cases runs
    constructor
    · exact table.setCurrent table.idle.1 fun member runs => absurd runs (none member)
    · exact .inl rfl
    · intro runs
      exact absurd runs (none table.idle.1)
  · have other : k₁.processes.currentProcess ≠ a := by
      rw [moved.current, current]
      exact self
    unfold vacate
    rw [if_neg other]
    have exited : Settled (k.exiting retValue a) := by
      constructor
      · exact settled.table.exiting
      · rw [current, idle, exiting_items]
        exact settled.scheduled
      · rw [current, currentPid, exiting_pcb, if_neg self]
        exact settled.dispatched
    apply exited.move moved rfl (by decide)
    · intro _
      exact exiting_hidden (settled.table.ne_zero inTable)
    · rw [current]
      exact self

/-- The parent, if it sleeps in `waitpid` for the child, is made ready. -/
inductive Wakes (parentPid childPid : Int) (k : Kernel M) : Kernel M → Prop
  | skip : (∀ p ∈ k.items blockedQueue, (k.pcb p).pid = parentPid →
      (k.pcb p).waitingForPid ≠ childPid) → Wakes parentPid childPid k k
  | wake {p k'} : (k.pcb p).waitingForPid = childPid →
      Moved parentPid blockedQueue readyQueue .ready p k k' → Wakes parentPid childPid k k'

theorem Wakes.settled (wakes : Wakes parentPid childPid k k') (settled : Settled k) :
    Settled k' := by
  cases wakes with
  | skip _ => exact settled
  | wake _ moved => exact settled.wake moved (by decide)

theorem Wakes.currentPid (wakes : Wakes parentPid childPid k k') :
    k'.currentPid = k.currentPid := by
  cases wakes with
  | skip _ => rfl
  | wake _ moved => exact moved.currentPid

/-- What `killProcess` still writes once the PCB is on the zombie queue. -/
def finishKill (pid : Int) (retValue : Nat) (process : Addr) (k : Kernel M) : Kernel M :=
  ((if k.processes.foregroundProcess ≠ 0 ∧ (k.pcb k.processes.foregroundProcess).pid = pid
    then k.setForeground 0 else k).editPcb process
      fun pcb => { pcb with retValue := retValue }).setState process .zombie

theorem finishKill_killed (retValue : Nat) (table : Table k) (alive : source ≠ zombieQueue)
    (member : a ∈ k.items source) (named : (k.pcb a).pid = pid)
    (moved : Requeued (k.vacate a) k' (push (drop k.items source a) zombieQueue a)) :
    Killed pid retValue source a k (finishKill pid retValue a k') := by
  obtain ⟨memory, queue, rfl, lists⟩ := moved
  have inTable := table.queued member
  have shown : (k.processes.foregroundProcess ≠ 0 ∧
      (k.pcb k.processes.foregroundProcess).pid = pid) ↔ k.processes.foregroundProcess = a := by
    constructor
    · intro both
      rcases table.foreground with none | ⟨name, _, here⟩
      · exact absurd none both.1
      · exact table.pidUnique (table.queued here) inTable (both.2.trans named.symm)
    · intro same
      rw [same]
      exact ⟨table.ne_zero inTable, named⟩
  refine ⟨alive, ((k.exiting retValue a).setState a .zombie).withQueues memory queue,
    ⟨?_, ?_, memory, queue, rfl, ?_⟩, ?_⟩
  · rw [exiting_items]
    exact member
  · rw [exiting_pcb, if_pos rfl]
    exact named
  · rw [exiting_items]
    exact lists
  · unfold finishKill vacate exiting
    by_cases visible : k.processes.foregroundProcess = a
    · have both := shown.mpr visible
      rw [visible] at both
      by_cases self : k.processes.currentProcess = a
      · simp [withQueues, setCurrent, editProcesses, setForeground, editPcb, setState, both, self,
          visible]
      · simp [withQueues, editProcesses, setForeground, editPcb, setState, both, self, visible]
    · have neither := mt shown.mp visible
      by_cases self : k.processes.currentProcess = a
      · simp only [withQueues, setCurrent, editProcesses, editPcb, setState, neither, self,
          visible, if_true, if_false]
      · simp only [withQueues, editPcb, setState, neither, self, visible, if_false]

variable [MemoryManager M]

/-- `killProcess` looks on the three queues of the living. -/
theorem killProcess_cases (pid : Int) (retValue : Nat) (reusable : NodesReusable M)
    (settled : Settled k) (user : 1 < pid) :
    (killProcess pid retValue .zombie k = (0, k) ∧
      ∀ name, name ≠ zombieQueue → k.Missing name pid) ∨
      ∃ source a k', a ≠ 0 ∧ killProcess pid retValue .zombie k = (a, k') ∧
        Killed pid retValue source a k k' := by
  have table := settled.table
  unfold killProcess
  by_cases self : (k.pcb k.processes.currentProcess).pid = pid
  · have ready : k.processes.currentProcess ∈ k.items readyQueue := by
      rcases settled.scheduled with idle | ready
      · rw [idle, table.idle.2] at self
        omega
      · exact ready
    rw [if_pos ⟨table.ne_zero table.current, self⟩]
    rcases switchProcess_cases readyQueue zombieQueue pid (k.setCurrent k.processes.idleProcess)
      reusable with ⟨_, missing⟩ | ⟨a, k', same, member, present, named, moved⟩
    · exact absurd (hasPid_iff.mpr ⟨table.ne_zero table.current, self⟩) (missing _ ready)
    · right
      have own : k.processes.currentProcess = a :=
        table.pidUnique table.current (table.queued member) (self.trans named.symm)
      refine ⟨readyQueue, a, finishKill pid retValue a k', present, ?_, ?_⟩
      · simp only [same, present, if_false]
        rfl
      · apply finishKill_killed retValue table (by decide) member named
        unfold vacate
        rw [if_pos own]
        exact moved
  · rw [if_neg (fun both => self both.2)]
    have other : ∀ {a}, (k.pcb a).pid = pid → k.vacate a = k := by
      intro a named
      unfold vacate
      rw [if_neg]
      intro same
      rw [← same] at named
      exact self named
    rcases switchProcess_cases readyQueue zombieQueue pid k reusable with
      ⟨notReady, noReady⟩ | ⟨a, k', same, member, present, named, moved⟩
    · rcases switchProcess_cases blockedQueue zombieQueue pid k reusable with
        ⟨notBlocked, noBlocked⟩ | ⟨a, k', same, member, present, named, moved⟩
      · rcases switchProcess_cases blockedQueueBySem zombieQueue pid k reusable with
          ⟨notBySem, noBySem⟩ | ⟨a, k', same, member, present, named, moved⟩
        · left
          refine ⟨?_, ?_⟩
          · simp only [notReady, notBlocked, notBySem, if_true]
          · intro name alive
            cases name with
            | readyQueue => exact noReady
            | blockedQueue => exact noBlocked
            | blockedQueueBySem => exact noBySem
            | zombieQueue => exact absurd rfl alive
        · right
          refine ⟨blockedQueueBySem, a, finishKill pid retValue a k', present, ?_, ?_⟩
          · simp only [notReady, notBlocked, same, present, if_true, if_false]
            rfl
          · apply finishKill_killed retValue table (by decide) member named
            rw [other named]
            exact moved
      · right
        refine ⟨blockedQueue, a, finishKill pid retValue a k', present, ?_, ?_⟩
        · simp only [notReady, same, present, if_true, if_false]
          rfl
        · apply finishKill_killed retValue table (by decide) member named
          rw [other named]
          exact moved
    · right
      refine ⟨readyQueue, a, finishKill pid retValue a k', present, ?_, ?_⟩
      · simp only [same, present, if_false]
        rfl
      · apply finishKill_killed retValue table (by decide) member named
        rw [other named]
        exact moved

/-- The parent of a user process is not idle, so that nothing is reaped here. -/
theorem wakeupWaitingParent_wakes (childPid : Int) (reusable : NodesReusable M) (settled : Settled k)
    (user : parentPid ≠ 0) :
    Wakes parentPid childPid k (wakeupWaitingParent parentPid childPid k) := by
  have table := settled.table
  unfold wakeupWaitingParent
  by_cases orphan : parentPid = -1
  · rw [if_pos orphan]
    apply Wakes.skip
    intro p member named
    have bound := (table.pidBound (table.queued member)).1
    omega
  · rw [if_neg orphan]
    have notIdle : parentPid ≠ (k.pcb k.processes.idleProcess).pid := by
      rw [table.idle.2]
      exact user
    simp only [notIdle, if_false]
    have reached : ∀ p ∈ k.items blockedQueue, (k.pcb p).pid = parentPid →
        k.getProcess parentPid = p := by
      intro p member named
      exact table.getProcess_eq (.inr (.inr ⟨_, member⟩)) named
    split
    · rename_i none
      apply Wakes.skip
      intro p member named
      rw [reached p member named] at none
      exact absurd none (table.ne_zero (table.queued member))
    · split
      · rename_i waits
        rcases unblockProcess_cases parentPid k reusable with
          ⟨same, missing⟩ | ⟨p, k', same, moved⟩
        · rw [same]
          apply Wakes.skip
          intro p member named
          exact absurd named (missing.elim table member)
        · rw [same]
          have equal := reached p moved.member moved.named
          rw [equal] at waits
          exact .wake waits.2 moved
      · rename_i stays
        apply Wakes.skip
        intro p member named waits
        rw [reached p member named] at stays
        exact stays ⟨table.fits member, waits⟩

/-- `kill` fails, or makes the process a zombie, wakes its parent and yields where
the process was the scheduled one. -/
theorem kill_cases (pid : Int) (retValue rsp : Nat) (reusable : NodesReusable M)
    (settled : Settled k) :
    (kill pid retValue rsp k = (-1, k) ∧
      (pid ≤ 1 ∨ ∀ name, name ≠ zombieQueue → k.Missing name pid)) ∨
      ∃ source a k₁ k₂, 1 < pid ∧ Killed pid retValue source a k k₁ ∧
        Wakes (k.pcb a).parentPid pid k₁ k₂ ∧
        kill pid retValue rsp k = (0, if pid = k.currentPid then yield rsp k₂ else k₂) := by
  unfold kill
  by_cases kernel : pid ≤ 1
  · left
    rw [if_pos kernel]
    exact ⟨rfl, .inl kernel⟩
  have user : 1 < pid := by omega
  rcases killProcess_cases pid retValue reusable settled user with
    ⟨same, missing⟩ | ⟨source, a, k', present, same, killed⟩
  · left
    rw [if_neg kernel, same]
    exact ⟨rfl, .inr missing⟩
  · right
    have freed := killed.memory (freeMemory ((k'.pcb a).base - stackSize) k'.memory)
    have parent : (k'.pcb a).parentPid ≠ 0 := by
      intro root
      rw [killed.parentPid_eq] at root
      have kernelPid := settled.table.parent (settled.table.queued killed.member) root
      rw [killed.named] at kernelPid
      exact kernel kernelPid
    have wakes := wakeupWaitingParent_wakes pid reusable (freed.settled settled) parent
    rw [killed.parentPid_eq] at wakes
    refine ⟨source, a, _, _, user, freed, wakes, ?_⟩
    rw [if_neg kernel, same]
    simp only [present, if_false, killed.parentPid_eq]
    have scheduled := wakes.currentPid.trans freed.currentPid
    by_cases self : pid = k.currentPid
    · rw [if_pos self]
      exact if_pos (self.trans scheduled.symm)
    · rw [if_neg self]
      exact if_neg fun same => self (same.trans scheduled)

theorem Settled.kill (settled : Settled k) (reusable : NodesReusable M) :
    Settled (kill pid retValue rsp k).2 := by
  rcases kill_cases pid retValue rsp reusable settled with
    ⟨same, _⟩ | ⟨source, a, k₁, k₂, _, killed, wakes, same⟩
  · rw [same]
    exact settled
  · rw [same]
    have after := wakes.settled (killed.settled settled)
    change Settled (if pid = k.currentPid then Kernel.yield rsp k₂ else k₂)
    split
    · exact after.table.yield reusable
    · exact after

end Kernel
end SoKernel
