import SoKernel.Kernel.Shift

namespace SoKernel
open MemoryManager QueueName Lib Kernel SoKernel.System

variable {M : Type}

namespace Kernel

variable {k k' k₀ k₁ : Kernel M} {a b parent child : Addr} {pid parentPid childPid : Int}
variable {rsp retValue : Nat} {source target name : QueueName} {state : ProcessState}
variable {unblocked : Option Int} {exits : Int → Option Nat} {pending : Addr → Option Int}
variable {params : CreationParams} {awaited : Int}

/-- The process is inside `waitpid` for this pid, or says so. -/
def Asks (pending : Addr → Option Int) (k : Kernel M) (a : Addr) (pid : Int) : Prop :=
  (k.pcb a).waitingForPid = pid ∨ pending a = some pid

/-- A process of this pid, now or later, is a child of `a`. -/
def MayReap (k : Kernel M) (a : Addr) (pid : Int) : Prop :=
  pid < k.nextFreePid ∧
    ∀ b ∈ k.pcbs, (k.pcb b).pid = pid → (k.pcb b).parentPid = (k.pcb a).pid

/-- Who may reap whom, and what the dead returned. -/
structure Ledger (pending : Addr → Option Int) (exits : Int → Option Nat) (k : Kernel M) :
    Prop where
  exited : ∀ a ∈ k.items zombieQueue, exits (k.pcb a).pid = some (k.pcb a).retValue
  older : ∀ a ∈ k.pcbs, (k.pcb a).parentPid < (k.pcb a).pid
  asked : ∀ a ∈ k.pcbs, ∀ pid, k.Asks pending a pid → k.MayReap a pid

/-- `parent` sleeps in `waitpid` for `child`, or the child is dead and not reaped yet. -/
structure Awaits (parent child : Addr) (awaited : Int) (k : Kernel M) : Prop where
  parentPid : (k.pcb child).parentPid = (k.pcb parent).pid
  named : (k.pcb child).pid = awaited
  waits : (k.pcb parent).waitingForPid = awaited
  place : (parent ∈ k.items blockedQueue ∧ ∃ name, name ≠ zombieQueue ∧ child ∈ k.items name) ∨
    ((∃ name, name ≠ zombieQueue ∧ parent ∈ k.items name) ∧ child ∈ k.items zombieQueue)

theorem Awaits.members (awaits : Awaits parent child awaited k) (table : Table k) :
    parent ∈ k.pcbs ∧ child ∈ k.pcbs := by
  rcases awaits.place with ⟨asleep, name, _, member⟩ | ⟨⟨name, _, member⟩, dead⟩
  · exact ⟨table.queued asleep, table.queued member⟩
  · exact ⟨table.queued member, table.queued dead⟩

/-- A ledger of the same processes, none of them a new zombie. -/
theorem Ledger.carry (ledger : Ledger pending exits k) (pcbs : k'.pcbs = k.pcbs)
    (nextFreePid : k'.nextFreePid = k.nextFreePid)
    (zombies : ∀ {a}, a ∈ k'.items zombieQueue → a ∈ k.items zombieQueue)
    (record : ∀ a, (k'.pcb a).pid = (k.pcb a).pid ∧ (k'.pcb a).parentPid = (k.pcb a).parentPid ∧
      (k'.pcb a).waitingForPid = (k.pcb a).waitingForPid ∧
      (k'.pcb a).retValue = (k.pcb a).retValue) : Ledger pending exits k' where
  exited a member := by
    obtain ⟨pid, _, _, retValue⟩ := record a
    rw [pid, retValue]
    exact ledger.exited a (zombies member)
  older a member := by
    obtain ⟨pid, parentPid, _, _⟩ := record a
    rw [pcbs] at member
    rw [pid, parentPid]
    exact ledger.older a member
  asked a member pid asks := by
    unfold Asks at asks
    rw [(record a).2.2.1] at asks
    rw [pcbs] at member
    obtain ⟨bound, family⟩ := ledger.asked a member pid asks
    unfold MayReap
    rw [nextFreePid, pcbs, (record a).1]
    refine ⟨bound, ?_⟩
    intro b here named
    rw [(record b).1] at named
    rw [(record b).2.1]
    exact family b here named

theorem Ledger.same (ledger : Ledger pending exits k) (same : SameRecords k k') :
    Ledger pending exits k' :=
  ledger.carry same.pcbs same.nextFreePid same.items.mp fun a =>
    ⟨same.pid a, same.parentPid a, same.waitingForPid a, same.retValue a⟩

theorem Awaits.same (awaits : Awaits parent child awaited k) (same : SameRecords k k') :
    Awaits parent child awaited k' where
  parentPid := by
    rw [same.parentPid, same.pid]
    exact awaits.parentPid
  named := by
    rw [same.pid]
    exact awaits.named
  waits := by
    rw [same.waitingForPid]
    exact awaits.waits
  place := by
    rcases awaits.place with ⟨asleep, name, alive, member⟩ | ⟨⟨name, alive, member⟩, dead⟩
    · exact .inl ⟨same.items.mpr asleep, name, alive, same.items.mpr member⟩
    · exact .inr ⟨⟨name, alive, same.items.mpr member⟩, same.items.mpr dead⟩

theorem Ledger.moved (ledger : Ledger pending exits k) (exclusive : Exclusive k.items)
    (moved : Moved pid source target state a k k') (shown : target ≠ zombieQueue) :
    Ledger pending exits k' := by
  apply ledger.carry moved.fields.1 moved.fields.2
  · intro b member
    rcases (moved.mem_items exclusive).mp member with ⟨old, _⟩ | ⟨same, _⟩
    · exact old
    · exact absurd same.symm shown
  · intro b
    exact ⟨moved.pid_eq, moved.records b⟩

theorem Awaits.moved (awaits : Awaits parent child awaited k) (exclusive : Exclusive k.items)
    (moved : Moved pid source target state a k k') (alive : source ≠ zombieQueue)
    (shown : target ≠ zombieQueue) (spared : source = blockedQueue → a ≠ parent) :
    Awaits parent child awaited k' where
  parentPid := by
    rw [(moved.records child).1, moved.pid_eq]
    exact awaits.parentPid
  named := by
    rw [moved.pid_eq]
    exact awaits.named
  waits := by
    rw [(moved.records parent).2.1]
    exact awaits.waits
  place := by
    have living : ∀ {b}, (∃ name, name ≠ zombieQueue ∧ b ∈ k.items name) →
        ∃ name, name ≠ zombieQueue ∧ b ∈ k'.items name := by
      intro b here
      obtain ⟨name, other, member⟩ := here
      by_cases same : b = a
      · exact ⟨target, shown, (moved.mem_items exclusive).mpr (.inr ⟨rfl, same⟩)⟩
      · exact ⟨name, other, (moved.mem_items exclusive).mpr (.inl ⟨member, same⟩)⟩
    rcases awaits.place with ⟨asleep, here⟩ | ⟨here, dead⟩
    · left
      refine ⟨(moved.mem_items exclusive).mpr (.inl ⟨asleep, ?_⟩), living here⟩
      intro same
      subst same
      exact spared (exclusive.unique moved.member asleep) rfl
    · right
      refine ⟨living here, (moved.mem_items exclusive).mpr (.inl ⟨dead, ?_⟩)⟩
      intro same
      subst same
      exact alive (exclusive.unique moved.member dead)

theorem Ledger.shift (ledger : Ledger pending exits k) (shift : Shift unblocked k k') :
    Ledger pending exits k' := by
  cases shift with
  | none same => exact ledger.same same
  | moved before exclusive moved _ shown _ after =>
    exact ((ledger.same before).moved exclusive moved shown).same after

theorem Awaits.shift (awaits : Awaits parent child awaited k) (shift : Shift unblocked k k')
    (spared : unblocked = some (k.pcb parent).pid → parent ∉ k.items blockedQueue) :
    Awaits parent child awaited k' := by
  cases shift with
  | none same => exact awaits.same same
  | moved before exclusive moved alive shown asleep after =>
    refine ((awaits.same before).moved exclusive moved alive shown ?_).same after
    intro blocked same
    subst same
    have member := moved.member
    rw [blocked] at member
    apply spared _ (before.items.mp member)
    rw [asleep blocked, ← moved.named, before.pid]

/-! ## The end of a process -/

theorem Killed.records (killed : Killed pid retValue source a k k') (b : Addr) :
    (k'.pcb b).pid = (k.pcb b).pid ∧ (k'.pcb b).parentPid = (k.pcb b).parentPid ∧
      (k'.pcb b).waitingForPid = (k.pcb b).waitingForPid := by
  rw [killed.pcb]
  split
  · rename_i same
    rw [same]
    exact ⟨rfl, rfl, rfl⟩
  · exact ⟨rfl, rfl, rfl⟩

theorem Killed.fields (killed : Killed pid retValue source a k k') :
    k'.pcbs = k.pcbs ∧ k'.nextFreePid = k.nextFreePid := by
  obtain ⟨k₁, moved, rfl⟩ := killed.moved
  have vacated : (k₁.vacate a).pcbs = k₁.pcbs ∧ (k₁.vacate a).nextFreePid = k₁.nextFreePid := by
    unfold vacate
    split <;> exact ⟨rfl, rfl⟩
  have exited : (k.exiting retValue a).nextFreePid = k.nextFreePid := by
    unfold Kernel.exiting
    split <;> rfl
  rw [vacated.1, vacated.2, moved.fields.1, moved.fields.2, exited]
  exact ⟨(exiting_fields retValue a k).1, rfl⟩

theorem Ledger.killed (ledger : Ledger pending exits k) (table : Table k)
    (killed : Killed pid retValue source a k k') :
    Ledger pending (Function.update exits pid (some retValue)) k' where
  exited b member := by
    rw [(killed.records b).1]
    rcases (killed.mem_items table.exclusive).mp member with ⟨old, other⟩ | ⟨_, same⟩
    · have different : (k.pcb b).pid ≠ pid := by
        intro equal
        exact other (table.pidUnique (table.queued old) (table.queued killed.member)
          (equal.trans killed.named.symm))
      rw [Function.update_of_ne different, killed.pcb, if_neg other]
      exact ledger.exited b old
    · rw [same, killed.named, Function.update_self, killed.pcb, if_pos rfl]
  older b member := by
    rw [killed.fields.1] at member
    rw [(killed.records b).1, (killed.records b).2.1]
    exact ledger.older b member
  asked b member pid asks := by
    unfold Asks at asks
    rw [(killed.records b).2.2] at asks
    rw [killed.fields.1] at member
    obtain ⟨bound, family⟩ := ledger.asked b member pid asks
    unfold MayReap
    rw [killed.fields.1, killed.fields.2, (killed.records b).1]
    refine ⟨bound, ?_⟩
    intro c here named
    rw [(killed.records c).1] at named
    rw [(killed.records c).2.1]
    exact family c here named

theorem Ledger.wakes (ledger : Ledger pending exits k) (exclusive : Exclusive k.items)
    (wakes : Wakes parentPid childPid k k') : Ledger pending exits k' := by
  cases wakes with
  | skip _ => exact ledger
  | wake _ moved => exact ledger.moved exclusive moved (by decide)

/-- A process other than the two dies. -/
theorem Awaits.killed (awaits : Awaits parent child awaited k) (exclusive : Exclusive k.items)
    (killed : Killed pid retValue source a k k') (first : a ≠ parent) (second : a ≠ child) :
    Awaits parent child awaited k' where
  parentPid := by
    rw [(killed.records child).2.1, (killed.records parent).1]
    exact awaits.parentPid
  named := by
    rw [(killed.records child).1]
    exact awaits.named
  waits := by
    rw [(killed.records parent).2.2]
    exact awaits.waits
  place := by
    have keeps : ∀ {name b}, b ≠ a → b ∈ k.items name → b ∈ k'.items name := by
      intro name b other member
      exact (killed.mem_items exclusive).mpr (.inl ⟨member, other⟩)
    rcases awaits.place with ⟨asleep, name, alive, member⟩ | ⟨⟨name, alive, member⟩, dead⟩
    · exact .inl ⟨keeps first.symm asleep, name, alive, keeps second.symm member⟩
    · exact .inr ⟨⟨name, alive, keeps first.symm member⟩, keeps second.symm dead⟩

/-- The death of another child does not wake the parent. -/
theorem Awaits.wakes (awaits : Awaits parent child awaited k) (table : Table k)
    (wakes : Wakes parentPid childPid k k') (other : childPid ≠ awaited) :
    Awaits parent child awaited k' := by
  cases wakes with
  | skip _ => exact awaits
  | wake waits moved =>
    apply awaits.moved table.exclusive moved (by decide) (by decide)
    intro _ same
    apply other
    rw [← waits, same, awaits.waits]

/-- The death of the child wakes the parent. -/
theorem Awaits.killed_child (awaits : Awaits parent child awaited k) (settled : Settled k)
    (apart : parent ≠ child) (killed : Killed pid retValue source child k k₁)
    (wakes : Wakes (k.pcb child).parentPid pid k₁ k') : Awaits parent child awaited k' := by
  have table := settled.table
  have after := (killed.settled settled).table
  have asleep : parent ∈ k.items blockedQueue := by
    rcases awaits.place with ⟨asleep, _⟩ | ⟨_, dead⟩
    · exact asleep
    · exact absurd (table.exclusive.unique killed.member dead) killed.alive
  have still : parent ∈ k₁.items blockedQueue :=
    (killed.mem_items table.exclusive).mpr (.inl ⟨asleep, apart⟩)
  have dead : child ∈ k₁.items zombieQueue :=
    (killed.mem_items table.exclusive).mpr (.inr ⟨rfl, rfl⟩)
  have named : (k₁.pcb parent).pid = (k.pcb child).parentPid := by
    rw [(killed.records parent).1, awaits.parentPid]
  have waits : (k₁.pcb parent).waitingForPid = awaited := by
    rw [(killed.records parent).2.2, awaits.waits]
  have own : awaited = pid := by
    rw [← awaits.named, killed.named]
  cases wakes with
  | skip nobody => exact absurd (waits.trans own) (nobody parent still named)
  | @wake p _ _ moved =>
    have same : p = parent :=
      after.pidUnique (after.queued moved.member) (after.queued still)
        (moved.named.trans named.symm)
    subst same
    constructor
    · rw [(moved.records child).1, moved.pid_eq, (killed.records child).2.1, (killed.records p).1]
      exact awaits.parentPid
    · rw [moved.pid_eq, (killed.records child).1]
      exact awaits.named
    · rw [(moved.records p).2.1]
      exact waits
    · right
      refine ⟨⟨readyQueue, by decide, (moved.mem_items after.exclusive).mpr (.inr ⟨rfl, rfl⟩)⟩, ?_⟩
      exact (moved.mem_items after.exclusive).mpr (.inl ⟨dead, apart.symm⟩)

/-! ## Reaping and asking -/

theorem Ledger.reaped (ledger : Ledger pending exits k) (exclusive : Exclusive k.items)
    (reaped : Reaped a k k') : Ledger pending exits k' := by
  obtain ⟨pcbs, nextFreePid, _⟩ := reaped.fields
  have member : ∀ {b}, b ∈ k'.pcbs → b ∈ k.pcbs ∧ k'.pcb b = k.pcb b := by
    intro b here
    rw [pcbs] at here
    obtain ⟨other, old⟩ := Finset.mem_erase.mp here
    exact ⟨old, reaped.pcb other⟩
  constructor
  · intro b here
    obtain ⟨old, other⟩ := (reaped.mem_items exclusive).mp here
    rw [reaped.pcb other]
    exact ledger.exited b old
  · intro b here
    obtain ⟨old, same⟩ := member here
    rw [same]
    exact ledger.older b old
  · intro b here pid asks
    obtain ⟨old, same⟩ := member here
    unfold Asks at asks
    rw [same] at asks
    obtain ⟨bound, family⟩ := ledger.asked b old pid asks
    unfold MayReap
    rw [nextFreePid, same]
    refine ⟨bound, ?_⟩
    intro c there named
    obtain ⟨before, equal⟩ := member there
    rw [equal] at named ⊢
    exact family c before named

theorem Awaits.reaped (awaits : Awaits parent child awaited k) (exclusive : Exclusive k.items)
    (reaped : Reaped a k k') (other : a ≠ child) : Awaits parent child awaited k' := by
  have alive : ∀ {b name}, name ≠ zombieQueue → b ∈ k.items name → b ≠ a := by
    intro b name living member same
    rw [same] at member
    exact living (exclusive.unique member reaped.member)
  have keeps : ∀ {b name}, b ∈ k.items name → b ≠ a → b ∈ k'.items name :=
    fun member different => (reaped.mem_items exclusive).mpr ⟨member, different⟩
  have parentOther : parent ≠ a := by
    rcases awaits.place with ⟨asleep, _⟩ | ⟨⟨name, living, member⟩, _⟩
    · exact alive (by decide) asleep
    · exact alive living member
  constructor
  · rw [reaped.pcb parentOther, reaped.pcb other.symm]
    exact awaits.parentPid
  · rw [reaped.pcb other.symm]
    exact awaits.named
  · rw [reaped.pcb parentOther]
    exact awaits.waits
  · rcases awaits.place with ⟨asleep, name, living, member⟩ | ⟨⟨name, living, member⟩, dead⟩
    · exact .inl ⟨keeps asleep parentOther, name, living, keeps member other.symm⟩
    · exact .inr ⟨⟨name, living, keeps member parentOther⟩, keeps dead other.symm⟩

/-- `-1` is the pid of no process. -/
theorem Table.mayReap_nobody (table : Table k) : k.MayReap a (-1) := by
  constructor
  · have bound := table.pidBound table.current
    omega
  · intro b member named
    have bound := table.pidBound member
    omega

theorem Ledger.setWaiting (ledger : Ledger pending exits k) (mayReap : k.MayReap a pid) :
    Ledger pending exits (k.setWaiting a pid) := by
  have record := fun b => setWaiting_fields b a pid k
  have kept : ∀ {b other}, k.MayReap b other → (k.setWaiting a pid).MayReap b other := by
    intro b other may
    refine ⟨may.1, ?_⟩
    intro c member named
    rw [(record c).1] at named
    rw [(record c).2.1, (record b).1]
    exact may.2 c member named
  constructor
  · intro b member
    rw [(record b).1, (record b).2.2.2]
    exact ledger.exited b member
  · intro b member
    rw [(record b).1, (record b).2.1]
    exact ledger.older b member
  · intro b member other asks
    unfold Asks at asks
    rw [setWaiting_pcb] at asks
    apply kept
    by_cases same : b = a
    · subst same
      rw [if_pos rfl] at asks
      rcases asks with waits | asked
      · rw [← waits]
        exact mayReap
      · exact ledger.asked b member other (.inr asked)
    · rw [if_neg same] at asks
      exact ledger.asked b member other asks

theorem Awaits.setWaiting (awaits : Awaits parent child awaited k) (other : parent ≠ a) :
    Awaits parent child awaited (k.setWaiting a pid) where
  parentPid := by
    rw [(setWaiting_fields child a pid k).2.1, (setWaiting_fields parent a pid k).1]
    exact awaits.parentPid
  named := by
    rw [(setWaiting_fields child a pid k).1]
    exact awaits.named
  waits := by
    rw [setWaiting_pcb, if_neg other]
    exact awaits.waits
  place := awaits.place

/-- The parent notes whom it waits for and goes to sleep. -/
theorem Awaits.enter (exclusive : Exclusive k.items)
    (kin : (k.pcb child).parentPid = (k.pcb parent).pid)
    (moved : Moved pid readyQueue blockedQueue .blocked parent
      (k.setWaiting parent (k.pcb child).pid) k')
    (alive : name ≠ zombieQueue) (member : child ∈ k.items name) (other : parent ≠ child) :
    Awaits parent child (k.pcb child).pid k' where
  parentPid := by
    rw [(moved.records child).1, moved.pid_eq, (setWaiting_fields _ _ _ _).1,
      (setWaiting_fields _ _ _ _).2.1]
    exact kin
  named := by
    rw [moved.pid_eq, (setWaiting_fields _ _ _ _).1]
  waits := by
    rw [(moved.records parent).2.1, setWaiting_pcb, if_pos rfl]
  place := .inl ⟨(moved.mem_items exclusive).mpr (.inr ⟨rfl, rfl⟩), name, alive,
    (moved.mem_items exclusive).mpr (.inl ⟨member, other.symm⟩)⟩

theorem Ledger.setPending (ledger : Ledger pending exits k) {asked : Option Int}
    (mayReap : ∀ pid, asked = some pid → k.MayReap a pid) :
    Ledger (Function.update pending a asked) exits k where
  exited := ledger.exited
  older := ledger.older
  asked b member pid asks := by
    rcases asks with waits | asks
    · exact ledger.asked b member pid (.inl waits)
    · by_cases same : b = a
      · subst same
        rw [Function.update_self] at asks
        exact mayReap pid asks
      · rw [Function.update_of_ne same] at asks
        exact ledger.asked b member pid (.inr asks)

/-! ## A new process -/

theorem Ledger.creates (ledger : Ledger pending exits k) (settled : Settled k)
    (creates : Creates params a rsp k k') : Ledger (Function.update pending a none) exits k' := by
  have table := settled.table
  have unasked : ∀ {b pid}, b ∈ k.pcbs → a ∉ k.pcbs → k'.pcb b = k.pcb b →
      k'.Asks (Function.update pending a none) b pid → k.Asks pending b pid := by
    intro b pid member fresh same asks
    have other : b ≠ a := by
      intro equal
      rw [equal] at member
      exact fresh member
    unfold Asks at asks
    rw [same, Function.update_of_ne other] at asks
    exact asks
  cases creates with
  | failed spares items pcbs nextFreePid =>
    constructor
    · intro b member
      rw [items] at member
      rw [spares.kept (table.queued member)]
      exact ledger.exited b member
    · intro b member
      rw [pcbs] at member
      rw [spares.kept member]
      exact ledger.older b member
    · intro b member pid asks
      rw [pcbs] at member
      have same := spares.kept member
      obtain ⟨bound, family⟩ := ledger.asked b member pid (unasked member spares.fresh same asks)
      unfold MayReap
      rw [pcbs, same]
      refine ⟨lt_of_lt_of_le bound nextFreePid, ?_⟩
      intro c there named
      rw [spares.kept there] at named ⊢
      exact family c there named
  | created spares _ record pcbs nextFreePid =>
    obtain ⟨state, stdin, stdout, record, place⟩ := record
    have newPid : (k'.pcb a).pid = k.nextFreePid := by
      rw [record]
      rfl
    have newParent : (k'.pcb a).parentPid = (k.pcb k.processes.currentProcess).pid := by
      rw [record, ← table.getCurrentPid]
      rfl
    have newWaiting : (k'.pcb a).waitingForPid = -1 := by
      rw [record]
      rfl
    have current := table.pidBound table.current
    have member : ∀ {b}, b ∈ k'.pcbs → b = a ∨ b ∈ k.pcbs := by
      intro b here
      rw [pcbs] at here
      exact Finset.mem_insert.mp here
    constructor
    · intro b here
      have old : b ∈ k.items zombieQueue := by
        rcases place with ⟨same, _⟩ | ⟨pushed, _⟩ | ⟨pushed, _⟩
        · rw [same] at here
          exact here
        · rw [pushed] at here
          exact (mem_push.mp here).resolve_right fun last => absurd last.1 (by decide)
        · rw [pushed] at here
          exact (mem_push.mp here).resolve_right fun last => absurd last.1 (by decide)
      rw [spares.kept (table.queued old)]
      exact ledger.exited b old
    · intro b here
      rcases member here with same | old
      · rw [same, newPid, newParent]
        exact current.2
      · rw [spares.kept old]
        exact ledger.older b old
    · intro b here pid asks
      unfold MayReap
      rcases member here with same | old
      · have nobody : pid = -1 := by
          unfold Asks at asks
          rw [same, newWaiting, Function.update_self] at asks
          rcases asks with waits | none
          · exact waits.symm
          · cases none
        subst nobody
        constructor
        · omega
        · intro c there named
          rcases member there with new | before
          · rw [new, newPid] at named
            omega
          · have bound := table.pidBound before
            rw [spares.kept before] at named
            omega
      · have same := spares.kept old
        obtain ⟨bound, family⟩ := ledger.asked b old pid (unasked old spares.fresh same asks)
        constructor
        · omega
        · intro c there named
          rcases member there with new | before
          · rw [new, newPid] at named
            omega
          · rw [spares.kept before] at named ⊢
            rw [same]
            exact family c before named

theorem Awaits.creates (awaits : Awaits parent child awaited k) (table : Table k)
    (creates : Creates params a rsp k k') : Awaits parent child awaited k' := by
  obtain ⟨first, second⟩ := awaits.members table
  have kept : ∀ {name b}, b ∈ k.items name → b ∈ k'.items name := by
    intro name b member
    cases creates with
    | failed _ items _ _ =>
      rw [items]
      exact member
    | created _ _ record _ _ =>
      obtain ⟨state, stdin, stdout, _, place⟩ := record
      rcases place with ⟨same, _⟩ | ⟨pushed, _⟩ | ⟨pushed, _⟩
      · rw [same]
        exact member
      · rw [pushed]
        exact mem_push.mpr (.inl member)
      · rw [pushed]
        exact mem_push.mpr (.inl member)
  have spares : Spares a k k' := by
    cases creates with
    | failed spares _ _ _ => exact spares
    | created spares _ _ _ _ => exact spares
  constructor
  · rw [spares.kept first, spares.kept second]
    exact awaits.parentPid
  · rw [spares.kept second]
    exact awaits.named
  · rw [spares.kept first]
    exact awaits.waits
  · rcases awaits.place with ⟨asleep, name, living, member⟩ | ⟨⟨name, living, member⟩, dead⟩
    · exact .inl ⟨kept asleep, name, living, kept member⟩
    · exact .inr ⟨⟨name, living, kept member⟩, kept dead⟩

/-! ## Who reaps -/

theorem Ledger.mayReap (ledger : Ledger pending exits k) (table : Table k)
    (found : k.getProcess pid ≠ 0)
    (family : (k.pcb (k.getProcess pid)).parentPid = k.getCurrentPid ∨
      (k.pcb k.processes.currentProcess).waitingForPid = pid) :
    k.MayReap k.processes.currentProcess pid := by
  obtain ⟨listed, named⟩ := found_of_getProcess table found
  have target := table.mem_of_listed listed
  rcases family with child | waits
  · constructor
    · rw [← named]
      exact (table.pidBound target).2
    · intro b member same
      rw [table.pidUnique member target (same.trans named.symm), child, table.getCurrentPid]
  · exact ledger.asked _ table.current pid (.inl waits)

/-- Nobody but the parent may reap the child. -/
theorem Awaits.spared (awaits : Awaits parent child awaited k) (table : Table k)
    (member : a ∈ k.pcbs) (mayReap : k.MayReap a pid) (other : a ≠ parent) : pid ≠ awaited := by
  intro same
  obtain ⟨first, second⟩ := awaits.members table
  have own := mayReap.2 child second (awaits.named.trans same.symm)
  rw [awaits.parentPid] at own
  exact other (table.pidUnique member first own.symm)

variable [MemoryManager M]

theorem Ledger.kill (ledger : Ledger pending exits k) (settled : Settled k)
    (reusable : NodesReusable M) : Ledger pending
      (if (kill pid retValue rsp k).1 = 0 then Function.update exits pid (some retValue) else exits)
      (kill pid retValue rsp k).2 := by
  rcases kill_cases pid retValue rsp reusable settled with
    ⟨same, _⟩ | ⟨source, a, k₁, k₂, _, killed, wakes, same⟩
  · rw [same]
    exact ledger
  · rw [same]
    have dead := killed.settled settled
    have after := (ledger.killed settled.table killed).wakes dead.table.exclusive wakes
    change Ledger pending (Function.update exits pid (some retValue))
      (if pid = k.currentPid then Kernel.yield rsp k₂ else k₂)
    split
    · exact after.same (yield_sameRecords (wakes.settled dead).table reusable)
    · exact after

/-- Whoever else dies, the parent still waits, or the child is dead and the parent awake. -/
theorem Awaits.kill (awaits : Awaits parent child awaited k) (settled : Settled k)
    (reusable : NodesReusable M) (apart : parent ≠ child)
    (spared : ¬ (pid = (k.pcb parent).pid ∧ 1 < pid)) :
    Awaits parent child awaited (kill pid retValue rsp k).2 := by
  have table := settled.table
  rcases kill_cases pid retValue rsp reusable settled with
    ⟨same, _⟩ | ⟨source, a, k₁, k₂, user, killed, wakes, same⟩
  · rw [same]
    exact awaits
  · rw [same]
    have dead := killed.settled settled
    have first : a ≠ parent := by
      intro equal
      apply spared
      rw [← equal, killed.named]
      exact ⟨rfl, user⟩
    have after : Awaits parent child awaited k₂ := by
      by_cases second : a = child
      · subst second
        exact awaits.killed_child settled apart killed wakes
      · apply (awaits.killed table.exclusive killed first second).wakes dead.table wakes
        intro equal
        apply second
        apply table.pidUnique (table.queued killed.member) (awaits.members table).2
        rw [killed.named, awaits.named, equal]
    change Awaits parent child awaited (if pid = k.currentPid then Kernel.yield rsp k₂ else k₂)
    split
    · exact after.same (yield_sameRecords (wakes.settled dead).table reusable)
    · exact after

end Kernel
end SoKernel
