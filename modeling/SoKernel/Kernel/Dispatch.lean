import SoKernel.Kernel.TableInvariant

namespace SoKernel
open MemoryManager QueueName Lib

variable {M : Type}

namespace Kernel

variable {k k' : Kernel M} {a next : Addr} {name : QueueName} {rsp : Nat}

/-- `schedule` leaves the current process on the processor. -/
def Stays (k : Kernel M) : Prop :=
  0 < k.quantum ∧ (k.pcb k.processes.currentProcess).state = .running

/-- The PCB at `a` after a switch from the current process to `next`. -/
def afterSwitch (rsp : Nat) (next : Addr) (k : Kernel M) (a : Addr) : PCB :=
  { k.pcb a with
    rsp := if a = k.processes.currentProcess ∧ k.first = false then rsp else (k.pcb a).rsp
    state := if a = next then .running
      else if a = k.processes.currentProcess ∧ (k.pcb a).state = .running then .ready
      else (k.pcb a).state }

/-- What a switch to `next` does. -/
structure Switched (rsp : Nat) (k k' : Kernel M) (next : Addr) : Prop where
  turn : (k.items readyQueue = [] ∧ next = k.processes.idleProcess ∧ k'.items = k.items) ∨
    ∃ rest, k.items readyQueue = next :: rest ∧
      k'.items = push (drop k.items readyQueue next) readyQueue next
  pcb : ∀ a, k'.pcb a = afterSwitch rsp next k a
  pcbs : k'.pcbs = k.pcbs
  nextFreePid : k'.nextFreePid = k.nextFreePid
  semaphores : k'.semaphores = k.semaphores
  pipes : k'.pipes = k.pipes
  idle : k'.processes.idleProcess = k.processes.idleProcess
  current : k'.processes.currentProcess = next
  currentPid : k'.currentPid = (k.pcb next).pid
  foreground : k'.processes.foregroundProcess = k.processes.foregroundProcess ∨
    (k'.processes.foregroundProcess = next ∧ next ∈ k.items readyQueue)
  started : k'.first = false
  stackPointer : k'.stackPointer = (k'.pcb next).rsp

/-- The process gives up the processor. -/
def leave (rsp : Nat) (k : Kernel M) : Kernel M :=
  let currentProcess := k.processes.currentProcess
  let k := if ¬ k.first then k.editPcb currentProcess fun pcb => { pcb with rsp := rsp }
    else { k with first := false }
  if (k.pcb currentProcess).state = .running then k.setState currentProcess .ready else k

/-- The process takes the processor. -/
def arrive (next : Addr) (k : Kernel M) : Kernel M :=
  let k := k.setState next .running
  { k with
    currentPid := (k.pcb next).pid
    quantum := calculateQuantum (k.pcb next).priority }

/-- The PCB at `a` after the current process left. -/
def afterLeave (rsp : Nat) (k : Kernel M) (a : Addr) : PCB :=
  { k.pcb a with
    rsp := if a = k.processes.currentProcess ∧ k.first = false then rsp else (k.pcb a).rsp
    state := if a = k.processes.currentProcess ∧ (k.pcb a).state = .running then .ready
      else (k.pcb a).state }

theorem leave_eq : k.leave rsp = { k with pcb := afterLeave rsp k, first := false } := by
  have record : (k.leave rsp).pcb = afterLeave rsp k := by
    funext a
    unfold leave afterLeave
    by_cases here : a = k.processes.currentProcess
    · subst here
      by_cases fresh : k.first
      · by_cases runs : (k.pcb k.processes.currentProcess).state = .running
        · simp [fresh, runs, setState_pcb]
        · simp [fresh, runs]
      · by_cases runs : (k.pcb k.processes.currentProcess).state = .running
        · simp [fresh, runs, setState_pcb, editPcb_pcb]
        · simp [fresh, runs, editPcb_pcb]
    · by_cases fresh : k.first
      · by_cases runs : (k.pcb k.processes.currentProcess).state = .running
        · simp [fresh, runs, setState_pcb, here]
        · simp [fresh, runs, here]
      · by_cases runs : (k.pcb k.processes.currentProcess).state = .running
        · simp [fresh, runs, setState_pcb, editPcb_pcb, here]
        · simp [fresh, runs, editPcb_pcb, here]
  rw [← record]
  unfold leave
  by_cases fresh : k.first
  · by_cases runs : (k.pcb k.processes.currentProcess).state = .running
    · simp [fresh, runs, setState, editPcb]
    · simp [fresh, runs]
  · by_cases runs : (k.pcb k.processes.currentProcess).state = .running
    · simp [fresh, runs, setState, editPcb]
    · simp [fresh, runs, editPcb]

theorem arrive_pcb : (k.arrive next).pcb a =
    if a = next then { k.pcb next with state := .running } else k.pcb a := setState_pcb

theorem Switched.pid (switched : Switched rsp k k' next) : (k'.pcb a).pid = (k.pcb a).pid := by
  rw [switched.pcb]
  rfl

theorem Switched.parentPid (switched : Switched rsp k k' next) :
    (k'.pcb a).parentPid = (k.pcb a).parentPid := by
  rw [switched.pcb]
  rfl

theorem Switched.state (switched : Switched rsp k k' next) : (k'.pcb a).state =
    if a = next then .running
    else if a = k.processes.currentProcess ∧ (k.pcb a).state = .running then .ready
    else (k.pcb a).state := by
  rw [switched.pcb]
  rfl

/-- A switch reorders the ready queue only. -/
theorem Switched.mem_items (switched : Switched rsp k k' next) (exclusive : Exclusive k.items) :
    a ∈ k'.items name ↔ a ∈ k.items name := by
  rcases switched.turn with ⟨_, _, same⟩ | ⟨rest, front, rotated⟩
  · rw [same]
  · have member : next ∈ k.items readyQueue := by
      rw [front]
      exact List.mem_cons_self
    rw [rotated, exclusive.mem_move member]
    by_cases here : a = next
    · subst here
      constructor
      · intro moved
        rcases moved with ⟨_, other⟩ | ⟨same, _⟩
        · exact absurd rfl other
        · rw [same]
          exact member
      · intro old
        exact .inr ⟨exclusive.unique old member, rfl⟩
    · simp [here]

theorem Switched.next_cases (switched : Switched rsp k k' next) :
    next = k.processes.idleProcess ∨ next ∈ k.items readyQueue := by
  rcases switched.turn with ⟨_, idle, _⟩ | ⟨rest, front, _⟩
  · exact .inl idle
  · right
    rw [front]
    exact List.mem_cons_self

/-- A switch settles the table. -/
theorem Table.switch (table : Table k) (switched : Switched rsp k k' next) : Settled k' := by
  have items : ∀ {x name}, x ∈ k'.items name ↔ x ∈ k.items name :=
    switched.mem_items table.exclusive
  have inTable : next ∈ k.pcbs := by
    rcases switched.next_cases with same | member
    · rw [same]
      exact table.idle.1
    · exact table.queued member
  have only : ∀ {a}, a ∈ k.pcbs → (k'.pcb a).state = .running → a = next := by
    intro a member runs
    by_contra different
    rw [switched.state, if_neg different] at runs
    split at runs
    · cases runs
    · rename_i left
      exact left ⟨table.running member runs, runs⟩
  have keeps : ∀ {a}, a ≠ next → (k'.pcb a).state = (k.pcb a).state ∨
      ((k.pcb a).state = .running ∧ (k'.pcb a).state = .ready) := by
    intro a different
    rw [switched.state, if_neg different]
    split
    · rename_i left
      exact .inr ⟨left.2, rfl⟩
    · exact .inl rfl
  have runs : (k'.pcb next).state = .running := by
    rw [switched.state, if_pos rfl]
  constructor
  case scheduled =>
    rw [switched.current, switched.idle]
    rcases switched.next_cases with same | member
    · exact .inl same
    · exact .inr (items.mpr member)
  case dispatched =>
    intro _
    rw [switched.currentPid, switched.current, switched.pid]
  constructor
  · rcases switched.turn with ⟨_, _, same⟩ | ⟨rest, front, rotated⟩
    · rw [same]
      exact table.exclusive
    · rw [rotated]
      apply table.exclusive.move
      rw [front]
      exact List.mem_cons_self
  · intro name a member
    rw [switched.pcbs]
    exact table.queued (items.mp member)
  · rw [switched.pcbs]
    exact table.present
  · intro a b first second same
    rw [switched.pcbs] at first second
    rw [switched.pid, switched.pid] at same
    exact table.pidUnique first second same
  · intro a member
    rw [switched.pcbs] at member
    rw [switched.pid, switched.nextFreePid]
    exact table.pidBound member
  · rw [switched.idle, switched.pcbs, switched.pid]
    exact table.idle
  · rw [switched.idle]
    by_cases same : k.processes.idleProcess = next
    · rw [same]
      exact .inr runs
    · rcases keeps same with equal | ⟨_, ready⟩
      · rw [equal]
        exact table.idleState
      · exact .inl ready
  · intro name member
    rw [switched.idle] at member
    exact table.idleAlone name (items.mp member)
  · intro a member root
    rw [switched.pcbs] at member
    rw [switched.parentPid] at root
    rw [switched.pid]
    exact table.parent member root
  · intro name a member
    have old := items.mp member
    have before := table.fits old
    by_cases same : a = next
    · subst same
      rcases switched.next_cases with idle | ready
      · rw [idle] at old
        exact absurd old (table.idleAlone name)
      · rw [table.exclusive.unique old ready]
        exact .inr runs
    · rcases keeps same with equal | ⟨was, ready⟩
      · rw [equal]
        exact before
      · rw [was] at before
        rw [ready]
        cases name with
        | readyQueue => exact .inl rfl
        | blockedQueue => cases before
        | blockedQueueBySem => cases before
        | zombieQueue => cases before
  · intro a member runs
    rw [switched.pcbs] at member
    rw [switched.current]
    exact only member runs
  · rw [switched.current, switched.pcbs]
    exact inTable
  · rcases switched.foreground with same | ⟨same, ready⟩
    · rw [same]
      rcases table.foreground with none | ⟨name, shown, member⟩
      · exact .inl none
      · exact .inr ⟨name, shown, items.mpr member⟩
    · right
      refine ⟨readyQueue, by decide, ?_⟩
      rw [same]
      exact items.mpr ready

variable [MemoryManager M]

theorem schedule_stays (stays : k.Stays) :
    schedule rsp k = (rsp, { k with quantum := k.quantum - 1 }) := by
  unfold schedule
  exact if_pos stays

theorem schedule_leaves (leaves : ¬ k.Stays) :
    schedule rsp k = ((((k.leave rsp).getNextProcess.2.arrive (k.leave rsp).getNextProcess.1).pcb
        (k.leave rsp).getNextProcess.1).rsp,
      (k.leave rsp).getNextProcess.2.arrive (k.leave rsp).getNextProcess.1) := by
  unfold schedule
  exact if_neg leaves

/-- `schedule` that does not keep the process switches to the front of the ready
queue, or to idle, and returns what is saved there. -/
theorem schedule_switches (rsp : Nat) (reusable : NodesReusable M) (leaves : ¬ k.Stays) :
    ∃ next, Switched rsp k (callTimerTick rsp k) next := by
  unfold callTimerTick
  rw [schedule_leaves leaves, leave_eq]
  have arrived : ∀ {next : Addr} {rest : Kernel M} {a : Addr}, rest.pcb = afterLeave rsp k →
      (rest.arrive next).pcb a = afterSwitch rsp next k a := by
    intro next rest a equal
    rw [arrive_pcb, equal]
    unfold afterSwitch afterLeave
    by_cases here : a = next
    · subst here
      simp
    · simp [here]
  have named : ∀ {next : Addr} {rest : Kernel M}, rest.pcb = afterLeave rsp k →
      (rest.arrive next).currentPid = (k.pcb next).pid := by
    intro next rest equal
    change ((rest.setState next .running).pcb next).pid = _
    rw [setState_pcb, if_pos rfl, equal]
    rfl
  rcases getNextProcess_cases (k := { k with pcb := afterLeave rsp k, first := false }) reusable with
    ⟨empty, chosen⟩ | ⟨next, rest, k', front, ⟨memory, queue, moved, lists⟩, chosen⟩
  · refine ⟨k.processes.idleProcess, ?_⟩
    rw [chosen]
    constructor
    case turn => exact .inl ⟨empty, rfl, rfl⟩
    case pcb => exact fun a => arrived rfl
    case currentPid => exact named rfl
    case foreground => exact .inl rfl
    all_goals rfl
  · refine ⟨next, ?_⟩
    rw [chosen]
    subst moved
    have member : next ∈ k.items readyQueue := by
      change k.items readyQueue = _ at front
      rw [front]
      exact List.mem_cons_self
    dsimp only
    split
    · constructor
      case turn => exact .inr ⟨rest, front, lists⟩
      case pcb => exact fun a => arrived rfl
      case currentPid => exact named rfl
      case foreground => exact .inr ⟨rfl, member⟩
      all_goals rfl
    · constructor
      case turn => exact .inr ⟨rest, front, lists⟩
      case pcb => exact fun a => arrived rfl
      case currentPid => exact named rfl
      case foreground => exact .inl rfl
      all_goals rfl

/-- A timer tick keeps the current process or switches. -/
theorem callTimerTick_cases (rsp : Nat) (k : Kernel M) (reusable : NodesReusable M) :
    (k.Stays ∧ callTimerTick rsp k = { k with quantum := k.quantum - 1, stackPointer := rsp }) ∨
      (¬ k.Stays ∧ ∃ next, Switched rsp k (callTimerTick rsp k) next) := by
  by_cases stays : k.Stays
  · left
    unfold callTimerTick
    rw [schedule_stays stays]
    exact ⟨stays, rfl⟩
  · right
    exact ⟨stays, schedule_switches rsp reusable stays⟩

/-- `yield` always switches. -/
theorem yield_switches (rsp : Nat) (k : Kernel M) (reusable : NodesReusable M) :
    ∃ next, Switched rsp k (yield rsp k) next := by
  have leaves : ¬ Stays { k with quantum := 0 } := fun stays => absurd stays.1 (Nat.lt_irrefl 0)
  obtain ⟨next, turn, pcb, pcbs, nextFreePid, semaphores, pipes, idle, current, currentPid,
    foreground, started, stackPointer⟩ := schedule_switches rsp reusable leaves
  exact ⟨next, turn, pcb, pcbs, nextFreePid, semaphores, pipes, idle, current, currentPid,
    foreground, started, stackPointer⟩

theorem Settled.tick (settled : Settled k) (reusable : NodesReusable M) :
    Settled (callTimerTick rsp k) := by
  rcases callTimerTick_cases rsp k reusable with
    ⟨_, same⟩ | ⟨_, next, switched⟩
  · rw [same]
    exact ⟨settled.table.congr rfl rfl rfl rfl rfl rfl rfl, settled.scheduled, settled.dispatched⟩
  · exact settled.table.switch switched

theorem Table.yield (table : Table k) (reusable : NodesReusable M) :
    Settled (yield rsp k) := by
  obtain ⟨next, switched⟩ := yield_switches rsp k reusable
  exact table.switch switched

end Kernel
end SoKernel
