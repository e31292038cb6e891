import SoKernel.Kernel.Moves

namespace SoKernel
open MemoryManager QueueName Lib

variable {M : Type}

namespace Kernel

variable {k k' : Kernel M} {a b child process : Addr} {pid parentPid childPid : Int} {rsp : Nat}
variable {retValue : Nat} {name source : QueueName}

/-! ## Finding a process -/

/-- The PCBs `getProcess` looks at. -/
def Listed (k : Kernel M) (a : Addr) : Prop :=
  a = k.processes.currentProcess ∨ a = k.processes.idleProcess ∨ ∃ name, a ∈ k.items name

theorem Table.mem_of_listed (table : Table k) (listed : k.Listed a) : a ∈ k.pcbs := by
  rcases listed with same | same | ⟨name, member⟩
  · rw [same]
    exact table.current
  · rw [same]
    exact table.idle.1
  · exact table.queued member

theorem contains_eq_some (found : k.contains name pid = some a) :
    a ∈ k.items name ∧ (k.pcb a).pid = pid := by
  refine ⟨List.mem_of_find?_eq_some found, ?_⟩
  exact (hasPid_iff.mp (List.find?_some found)).2

theorem contains_eq_none (found : k.contains name pid = none) : k.Missing name pid := by
  intro a member
  exact List.find?_eq_none.mp found a member

theorem getProcess_cases (pid : Int) (table : Table k) :
    (k.getProcess pid = 0 ∧ ∀ a, k.Listed a → (k.pcb a).pid ≠ pid) ∨
      (k.Listed (k.getProcess pid) ∧ (k.pcb (k.getProcess pid)).pid = pid) := by
  unfold getProcess
  by_cases isCurrent : (k.pcb k.processes.currentProcess).pid = pid
  · right
    rw [if_pos ⟨table.ne_zero table.current, isCurrent⟩]
    exact ⟨.inl rfl, isCurrent⟩
  rw [if_neg (fun both => isCurrent both.2)]
  by_cases isIdle : (k.pcb k.processes.idleProcess).pid = pid
  · right
    rw [if_pos ⟨table.ne_zero table.idle.1, isIdle⟩]
    exact ⟨.inr (.inl rfl), isIdle⟩
  rw [if_neg (fun both => isIdle both.2)]
  cases ready : k.contains readyQueue pid with
  | some process =>
    obtain ⟨member, named⟩ := contains_eq_some ready
    exact .inr ⟨.inr (.inr ⟨_, member⟩), named⟩
  | none =>
    cases blocked : k.contains blockedQueue pid with
    | some process =>
      obtain ⟨member, named⟩ := contains_eq_some blocked
      exact .inr ⟨.inr (.inr ⟨_, member⟩), named⟩
    | none =>
      cases bySem : k.contains blockedQueueBySem pid with
      | some process =>
        obtain ⟨member, named⟩ := contains_eq_some bySem
        exact .inr ⟨.inr (.inr ⟨_, member⟩), named⟩
      | none =>
        cases zombie : k.contains zombieQueue pid with
        | some process =>
          obtain ⟨member, named⟩ := contains_eq_some zombie
          exact .inr ⟨.inr (.inr ⟨_, member⟩), named⟩
        | none =>
          refine .inl ⟨rfl, ?_⟩
          intro a listed
          rcases listed with same | same | ⟨name, member⟩
          · rw [same]
            exact isCurrent
          · rw [same]
            exact isIdle
          · cases name with
            | readyQueue => exact (contains_eq_none ready).elim table member
            | blockedQueue => exact (contains_eq_none blocked).elim table member
            | blockedQueueBySem => exact (contains_eq_none bySem).elim table member
            | zombieQueue => exact (contains_eq_none zombie).elim table member

theorem Table.getProcess_eq (table : Table k) (listed : k.Listed a) (named : (k.pcb a).pid = pid) :
    k.getProcess pid = a := by
  rcases getProcess_cases pid table with ⟨_, none⟩ | ⟨found, same⟩
  · exact absurd named (none a listed)
  · apply table.pidUnique (table.mem_of_listed found) (table.mem_of_listed listed)
    rw [same, named]

/-- A listed PCB in state `ZOMBIE` is on the zombie queue. -/
theorem Settled.zombie (settled : Settled k) (listed : k.Listed a)
    (dead : (k.pcb a).state = .zombie) : a ∈ k.items zombieQueue := by
  have notIdle : a ≠ k.processes.idleProcess := by
    intro same
    have state := settled.table.idleState
    rw [← same, dead] at state
    rcases state with ready | running
    · cases ready
    · cases running
  have queued : ∃ name, a ∈ k.items name := by
    rcases listed with same | same | queued
    · rcases settled.scheduled with idle | ready
      · exact absurd (same.trans idle) notIdle
      · rw [← same] at ready
        exact ⟨_, ready⟩
    · exact absurd same notIdle
    · exact queued
  obtain ⟨name, member⟩ := queued
  have fits := settled.table.fits member
  rw [dead] at fits
  cases name with
  | readyQueue =>
    rcases fits with ready | running
    · cases ready
    · cases running
  | blockedQueue => cases fits
  | blockedQueueBySem => cases fits
  | zombieQueue => exact member

/-! ## Reaping -/

/-- The zombie `a` is taken off its queue and its PCB is freed. -/
structure Reaped (a : Addr) (k k' : Kernel M) : Prop where
  member : a ∈ k.items zombieQueue
  lists : k'.items = drop k.items zombieQueue a
  rest : ∃ memory queue state,
    k' = { (k.setState a state).withQueues memory queue with pcbs := k.pcbs.erase a }

theorem Reaped.pcb (reaped : Reaped a k k') (other : b ≠ a) : k'.pcb b = k.pcb b := by
  obtain ⟨memory, queue, state, rfl⟩ := reaped.rest
  change (k.setState a state).pcb b = _
  rw [setState_pcb, if_neg other]

theorem Reaped.mem_items (reaped : Reaped a k k') (exclusive : Exclusive k.items) :
    b ∈ k'.items name ↔ b ∈ k.items name ∧ b ≠ a := by
  rw [reaped.lists]
  exact exclusive.mem_drop reaped.member

theorem Reaped.fields (reaped : Reaped a k k') :
    k'.pcbs = k.pcbs.erase a ∧ k'.nextFreePid = k.nextFreePid ∧ k'.currentPid = k.currentPid ∧
      k'.processes.currentProcess = k.processes.currentProcess ∧
      k'.processes.idleProcess = k.processes.idleProcess ∧
      k'.processes.foregroundProcess = k.processes.foregroundProcess := by
  obtain ⟨memory, queue, state, rfl⟩ := reaped.rest
  exact ⟨rfl, rfl, rfl, rfl, rfl, rfl⟩

theorem Reaped.table (reaped : Reaped a k k') (table : Table k)
    (other : k.processes.currentProcess ≠ a) : Table k' := by
  have items : ∀ {b name}, b ∈ k'.items name ↔ b ∈ k.items name ∧ b ≠ a :=
    reaped.mem_items table.exclusive
  have record : ∀ {b}, b ≠ a → k'.pcb b = k.pcb b := reaped.pcb
  obtain ⟨pcbs, nextFreePid, _, current, idle, foreground⟩ := reaped.fields
  have member : ∀ {b}, b ∈ k'.pcbs ↔ b ≠ a ∧ b ∈ k.pcbs := by
    intro b
    rw [pcbs]
    exact Finset.mem_erase
  have notIdle : k.processes.idleProcess ≠ a := by
    intro same
    have queued := reaped.member
    rw [← same] at queued
    exact table.idleAlone _ queued
  constructor
  · rw [reaped.lists]
    exact table.exclusive.drop reaped.member
  · intro name b here
    obtain ⟨old, different⟩ := items.mp here
    exact member.mpr ⟨different, table.queued old⟩
  · intro zero
    exact table.present (member.mp zero).2
  · intro b c first second same
    obtain ⟨one, left⟩ := member.mp first
    obtain ⟨two, right⟩ := member.mp second
    rw [record one, record two] at same
    exact table.pidUnique left right same
  · intro b here
    obtain ⟨different, old⟩ := member.mp here
    rw [record different, nextFreePid]
    exact table.pidBound old
  · rw [idle, record notIdle]
    exact ⟨member.mpr ⟨notIdle, table.idle.1⟩, table.idle.2⟩
  · rw [idle, record notIdle]
    exact table.idleState
  · intro name here
    rw [idle] at here
    exact table.idleAlone name (items.mp here).1
  · intro b here
    obtain ⟨different, old⟩ := member.mp here
    rw [record different]
    exact table.parent old
  · intro name b here
    obtain ⟨old, different⟩ := items.mp here
    rw [record different]
    exact table.fits old
  · intro b here
    obtain ⟨different, old⟩ := member.mp here
    rw [record different, current]
    exact table.running old
  · rw [current]
    exact member.mpr ⟨other, table.current⟩
  · rw [foreground]
    rcases table.foreground with none | ⟨name, shown, here⟩
    · exact .inl none
    · right
      refine ⟨name, shown, items.mpr ⟨here, ?_⟩⟩
      intro same
      rw [same] at here
      exact shown (table.exclusive.unique here reaped.member)

theorem Settled.reap (settled : Settled k) (reaped : Reaped a k k') : Settled k' := by
  have other := settled.current_ne reaped.member (by decide)
  obtain ⟨_, _, currentPid, current, idle, _⟩ := reaped.fields
  constructor
  · exact reaped.table settled.table other
  · rw [current, idle]
    rcases settled.scheduled with same | ready
    · exact .inl same
    · exact .inr ((reaped.mem_items settled.table.exclusive).mpr ⟨ready, other⟩)
  · rw [current, currentPid, reaped.pcb other]
    exact settled.dispatched

variable [MemoryManager M]

/-- The only PCB with the pid of a zombie is the one that is removed. -/
theorem removeZombieProcess_spec
    (unique : ∀ b ∈ k.items zombieQueue, (k.pcb b).pid = (k.pcb a).pid → b = a)
    (present : a ≠ 0) (member : a ∈ k.items zombieQueue) :
    ∃ queue memory, removeZombieProcess (k.pcb a).pid k =
      { k with memory := memory }.setQueue zombieQueue queue ∧
        queue.items = (k.items zombieQueue).erase a := by
  unfold removeZombieProcess
  cases removed : (k.processes.queue zombieQueue).removeFromQueue (k.hasPid (k.pcb a).pid)
      k.memory with
  | none =>
    have missing := Queue.removeFromQueue_eq_none.mp removed a member
    rw [hasPid_iff.mpr ⟨present, rfl⟩] at missing
    cases missing
  | some result =>
    obtain ⟨process, queue, memory⟩ := result
    obtain ⟨here, matched, erased, _⟩ := Queue.removeFromQueue_items removed
    have same := unique process here (hasPid_iff.mp matched).2
    subst same
    exact ⟨queue, memory, rfl, erased⟩

theorem reapChild_spec (table : Table k) (member : child ∈ k.items zombieQueue) :
    ∃ k', Reaped child k k' ∧ reapChild child k =
      ((k.pcb child).pid, BitVec.ofNat 32 (k.pcb child).retValue, k') := by
  refine ⟨(reapChild child k).2.2, ?_, rfl⟩
  have pid : ∀ state b, ((k.setState child state).pcb b).pid = (k.pcb b).pid := by
    intro state b
    rw [setState_pcb]
    split
    · rename_i same
      rw [same]
    · rfl
  unfold reapChild
  generalize ProcessState.ofValue (k.pcb child).retValue = state
  obtain ⟨queue, memory, removed, erased⟩ := removeZombieProcess_spec
    (k := k.setState child state) (a := child) (by
      intro b here same
      rw [pid, pid] at same
      exact table.pidUnique (table.queued here) (table.queued member) same)
    (table.ne_zero (table.queued member)) member
  rw [pid] at removed
  simp only [removed]
  refine ⟨member, ?_, _, Function.update k.processes.queue zombieQueue queue, state, rfl⟩
  change (({ k.setState child state with memory := memory }).setQueue zombieQueue queue).items = _
  rw [items_setQueue, erased]
  rfl

end Kernel
end SoKernel
