import SoKernel.Kernel.Bump

namespace SoKernel
open MemoryManager QueueName Lib Kernel SoKernel.System

variable {M : Type}

/-- The PCBs that the process manager points to. -/
def Kernel.Held (k : Kernel M) (a : Addr) : Prop :=
  a = k.processes.currentProcess ∨ a = k.processes.idleProcess ∨
    (a = k.processes.foregroundProcess ∧ a ≠ 0) ∨ ∃ name, a ∈ k.items name

/-- The process table between operations. -/
structure ProcessTable (k : Kernel M) : Prop where
  pids : ∀ {a b}, a ∈ k.pcbs → b ∈ k.pcbs → (k.pcb a).pid = (k.pcb b).pid → a = b
  once : ∀ name, (k.items name).Nodup
  oneQueue : ∀ {name other a}, a ∈ k.items name → a ∈ k.items other → name = other
  ready : ∀ a ∈ k.items readyQueue, (k.pcb a).state = .ready ∨ (k.pcb a).state = .running
  blocked : ∀ a ∈ k.items blockedQueue, (k.pcb a).state = .blocked
  bySem : ∀ a ∈ k.items blockedQueueBySem, (k.pcb a).state = .waitingSem
  zombie : ∀ a ∈ k.items zombieQueue, (k.pcb a).state = .zombie
  running : ∀ a ∈ k.pcbs, (k.pcb a).state = .running → a = k.processes.currentProcess
  current : k.processes.currentProcess = k.processes.idleProcess ∨
    k.processes.currentProcess ∈ k.items readyQueue
  foreground : k.processes.foregroundProcess = 0 ∨
    ∃ name, name ≠ zombieQueue ∧ k.processes.foregroundProcess ∈ k.items name
  live : ∀ {a}, k.Held a → a ∈ k.pcbs

theorem Kernel.Settled.processTable {k : Kernel M} (settled : Settled k) : ProcessTable k := by
  have table := settled.table
  constructor
  · exact table.pidUnique
  · exact table.exclusive.nodup
  · exact table.exclusive.unique
  · exact fun a member => table.fits member
  · exact fun a member => table.fits member
  · exact fun a member => table.fits member
  · exact fun a member => table.fits member
  · exact fun a member runs => table.running member runs
  · exact settled.scheduled
  · exact table.foreground
  · intro a held
    rcases held with same | same | ⟨same, present⟩ | ⟨name, member⟩
    · rw [same]
      exact table.current
    · rw [same]
      exact table.idle.1
    · rcases table.foreground with none | ⟨name, _, member⟩
      · rw [same] at present
        exact absurd none present
      · rw [same]
        exact table.queued member
    · exact table.queued member

variable [MemoryManager M]

end SoKernel
