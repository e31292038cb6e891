import SoKernel.Kernel.Table

namespace SoKernel
open MemoryManager QueueName Lib

variable {M : Type}

/-- What the state of a PCB on a queue may be. -/
def Fits : QueueName → ProcessState → Prop
  | readyQueue, state => state = .ready ∨ state = .running
  | blockedQueue, state => state = .blocked
  | blockedQueueBySem, state => state = .waitingSem
  | zombieQueue, state => state = .zombie

namespace Kernel

/-- The process table is in order, also where the current process just left the
ready queue. -/
structure Table (k : Kernel M) : Prop where
  exclusive : Exclusive k.items
  queued : ∀ {name a}, a ∈ k.items name → a ∈ k.pcbs
  present : 0 ∉ k.pcbs
  pidUnique : ∀ {a b}, a ∈ k.pcbs → b ∈ k.pcbs → (k.pcb a).pid = (k.pcb b).pid → a = b
  pidBound : ∀ {a}, a ∈ k.pcbs → 0 ≤ (k.pcb a).pid ∧ (k.pcb a).pid < k.nextFreePid
  idle : k.processes.idleProcess ∈ k.pcbs ∧ (k.pcb k.processes.idleProcess).pid = 0
  idleState : (k.pcb k.processes.idleProcess).state = .ready ∨
    (k.pcb k.processes.idleProcess).state = .running
  idleAlone : ∀ name, k.processes.idleProcess ∉ k.items name
  parent : ∀ {a}, a ∈ k.pcbs → (k.pcb a).parentPid = 0 → (k.pcb a).pid ≤ 1
  fits : ∀ {name a}, a ∈ k.items name → Fits name (k.pcb a).state
  running : ∀ {a}, a ∈ k.pcbs → (k.pcb a).state = .running → a = k.processes.currentProcess
  current : k.processes.currentProcess ∈ k.pcbs
  foreground : k.processes.foregroundProcess = 0 ∨
    ∃ name, name ≠ zombieQueue ∧ k.processes.foregroundProcess ∈ k.items name

variable {k k' : Kernel M} {a b process : Addr} {pid : Int}
variable {name source target : QueueName} {rsp : Nat} {change : PCB → PCB}

theorem Table.ne_zero (table : Table k) (member : a ∈ k.pcbs) : a ≠ 0 := by
  intro zero
  subst zero
  exact table.present member

/-- Writing fields the table does not talk about. -/
theorem Table.editPcb (table : Table k)
    (kept : ∀ pcb, (change pcb).pid = pcb.pid ∧ (change pcb).parentPid = pcb.parentPid ∧
      (change pcb).state = pcb.state) : Table (k.editPcb a change) := by
  have same : ∀ b, ((k.editPcb a change).pcb b).pid = (k.pcb b).pid ∧
      ((k.editPcb a change).pcb b).parentPid = (k.pcb b).parentPid ∧
      ((k.editPcb a change).pcb b).state = (k.pcb b).state := by
    intro b
    rw [editPcb_pcb]
    split
    · rename_i equal
      subst equal
      exact kept _
    · exact ⟨rfl, rfl, rfl⟩
  constructor
  · exact table.exclusive
  · exact table.queued
  · exact table.present
  · intro b c first second equal
    rw [(same b).1, (same c).1] at equal
    exact table.pidUnique first second equal
  · intro b member
    rw [(same b).1]
    exact table.pidBound member
  · rw [(same _).1]
    exact table.idle
  · rw [(same _).2.2]
    exact table.idleState
  · exact table.idleAlone
  · intro b member
    rw [(same b).1, (same b).2.1]
    exact table.parent member
  · intro name b member
    rw [(same b).2.2]
    exact table.fits member
  · intro b member
    rw [(same b).2.2]
    exact table.running member
  · exact table.current
  · exact table.foreground

/-- A queued PCB goes to the end of another queue, with a state that fits. -/
theorem Table.move (table : Table k) (member : a ∈ k.items source)
    (kept : (change (k.pcb a)).pid = (k.pcb a).pid ∧
      (change (k.pcb a)).parentPid = (k.pcb a).parentPid)
    (fits : Fits target (change (k.pcb a)).state) (still : (change (k.pcb a)).state ≠ .running)
    (visible : target = zombieQueue → k.processes.foregroundProcess ≠ a)
    (moved : Requeued (k.editPcb a change) k' (push (drop k.items source a) target a)) :
    Table k' := by
  obtain ⟨memory, queue, rfl, lists⟩ := moved
  have inTable := table.queued member
  have notIdle : k.processes.idleProcess ≠ a := by
    intro same
    rw [← same] at member
    exact table.idleAlone source member
  have items : ∀ {x other}, x ∈ ((k.editPcb a change).withQueues memory queue).items other ↔
      (x ∈ k.items other ∧ x ≠ a) ∨ (other = target ∧ x = a) := by
    intro x other
    rw [lists]
    exact table.exclusive.mem_move member
  have same : ∀ b, ((k.editPcb a change).pcb b).pid = (k.pcb b).pid ∧
      ((k.editPcb a change).pcb b).parentPid = (k.pcb b).parentPid := by
    intro b
    rw [editPcb_pcb]
    split
    · rename_i equal
      subst equal
      exact kept
    · exact ⟨rfl, rfl⟩
  have other : ∀ {b}, b ≠ a → (k.editPcb a change).pcb b = k.pcb b := by
    intro b different
    rw [editPcb_pcb, if_neg different]
  have own : (k.editPcb a change).pcb a = change (k.pcb a) := by
    rw [editPcb_pcb, if_pos rfl]
  constructor
  · rw [lists]
    exact table.exclusive.move member
  · intro name x here
    rcases items.mp here with ⟨old, _⟩ | ⟨_, equal⟩
    · exact table.queued old
    · rw [equal]
      exact inTable
  · exact table.present
  · intro b c first second equal
    change ((k.editPcb a change).pcb b).pid = ((k.editPcb a change).pcb c).pid at equal
    rw [(same b).1, (same c).1] at equal
    exact table.pidUnique first second equal
  · intro b here
    change 0 ≤ ((k.editPcb a change).pcb b).pid ∧ ((k.editPcb a change).pcb b).pid < _
    rw [(same b).1]
    exact table.pidBound here
  · refine ⟨table.idle.1, ?_⟩
    exact (same _).1.trans table.idle.2
  · change ((k.editPcb a change).pcb k.processes.idleProcess).state = _ ∨
      ((k.editPcb a change).pcb k.processes.idleProcess).state = _
    rw [other notIdle]
    exact table.idleState
  · intro name here
    rcases items.mp here with ⟨old, _⟩ | ⟨_, equal⟩
    · exact table.idleAlone name old
    · exact notIdle equal
  · intro b here root
    change ((k.editPcb a change).pcb b).pid ≤ 1
    rw [(same b).1]
    exact table.parent here ((same b).2.symm.trans root)
  · intro name x here
    change Fits name ((k.editPcb a change).pcb x).state
    rcases items.mp here with ⟨old, different⟩ | ⟨last, equal⟩
    · rw [other different]
      exact table.fits old
    · subst last
      subst equal
      rw [own]
      exact fits
  · intro x here runs
    change ((k.editPcb a change).pcb x).state = .running at runs
    by_cases equal : x = a
    · subst equal
      rw [own] at runs
      exact absurd runs still
    · rw [other equal] at runs
      exact table.running here runs
  · exact table.current
  · rcases table.foreground with none | ⟨name, shown, here⟩
    · exact .inl none
    · right
      by_cases equal : k.processes.foregroundProcess = a
      · refine ⟨target, ?_, items.mpr (.inr ⟨rfl, equal⟩)⟩
        intro hidden
        exact visible hidden equal
      · exact ⟨name, shown, items.mpr (.inl ⟨here, equal⟩)⟩

/-- Another process becomes current; whatever runs must be it. -/
theorem Table.setCurrent (table : Table k) (member : b ∈ k.pcbs)
    (only : ∀ {a}, a ∈ k.pcbs → (k.pcb a).state = .running → a = b) : Table (k.setCurrent b) where
  exclusive := table.exclusive
  queued := table.queued
  present := table.present
  pidUnique := table.pidUnique
  pidBound := table.pidBound
  idle := table.idle
  idleState := table.idleState
  idleAlone := table.idleAlone
  parent := table.parent
  fits := table.fits
  running := only
  current := member
  foreground := table.foreground

theorem Table.setForeground (table : Table k)
    (shown : b = 0 ∨ ∃ name, name ≠ zombieQueue ∧ b ∈ k.items name) :
    Table (k.setForeground b) where
  exclusive := table.exclusive
  queued := table.queued
  present := table.present
  pidUnique := table.pidUnique
  pidBound := table.pidBound
  idle := table.idle
  idleState := table.idleState
  idleAlone := table.idleAlone
  parent := table.parent
  fits := table.fits
  running := table.running
  current := table.current
  foreground := shown

/-- Everything the table talks about is the same. -/
theorem Table.congr (table : Table k) (items : k'.items = k.items) (pcb : k'.pcb = k.pcb)
    (pcbs : k'.pcbs = k.pcbs) (nextFreePid : k'.nextFreePid = k.nextFreePid)
    (current : k'.processes.currentProcess = k.processes.currentProcess)
    (idle : k'.processes.idleProcess = k.processes.idleProcess)
    (foreground : k'.processes.foregroundProcess = k.processes.foregroundProcess) :
    Table k' := by
  obtain ⟨one, two, three, four, five, six, seven, eight, nine, ten, eleven, twelve, last⟩ := table
  constructor <;> simp only [items, pcb, pcbs, nextFreePid, current, idle, foreground] <;>
    assumption

/-- What holds between operations. -/
structure Settled (k : Kernel M) : Prop where
  table : Table k
  scheduled : k.processes.currentProcess = k.processes.idleProcess ∨
    k.processes.currentProcess ∈ k.items readyQueue
  dispatched : (k.pcb k.processes.currentProcess).state = .running →
    k.currentPid = (k.pcb k.processes.currentProcess).pid

end Kernel
end SoKernel
