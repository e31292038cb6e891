import SoKernel.Kernel.Shift
import SoKernel.Lib.Semaphores

namespace SoKernel
open MemoryManager QueueName Lib Kernel SoKernel.System

variable {M : Type}

namespace Kernel

variable {k k₀ k₁ k' : Kernel M} {a b next : Addr} {pid parentPid id : Int} {rsp value retValue : Nat}
variable {source target name : QueueName} {state : ProcessState} {params : CreationParams}
variable {current : Addr}

/-- The semaphores as their clients see them. -/
def sems (k : Kernel M) : Semaphores Int Int where
  value id := (k.semaphores id).value
  waiting id := (k.semaphores id).waiting

/-- Everyone on a wait list sleeps on a semaphore, and is on one list, once. -/
structure WaitLists (k : Kernel M) : Prop where
  exclusive : Exclusive k.sems.waiting
  asleep : ∀ {id pid}, pid ∈ k.sems.waiting id →
    ∃ a ∈ k.items blockedQueueBySem, (k.pcb a).pid = pid

/-- The accounts of the semaphores are in order. -/
structure SemTable (k : Kernel M) : Prop where
  lists : WaitLists k
  eager : ∀ id, 0 < k.sems.value id → k.sems.waiting id = []
  complete : ∀ a ∈ k.items blockedQueueBySem, k.sems.Sleeps (k.pcb a).pid
  opened : ∀ id, (k.semaphores id).used → (k.semaphores id).blocked ≠ none
  unused : ∀ id, (k.semaphores id).used = false → k.sems.waiting id = []

theorem SemTable.orderly (semTable : SemTable k) : k.sems.Orderly :=
  ⟨semTable.lists.exclusive, semTable.eager⟩

theorem sems_congr (same : k'.semaphores = k.semaphores) : k'.sems = k.sems := by
  unfold sems
  rw [same]

theorem withSem_sems {memory : M} {sem : Sem} : (k.withSem memory id sem).sems =
    ⟨Function.update k.sems.value id sem.value, Function.update k.sems.waiting id sem.waiting⟩ := by
  have value : (fun other => ((k.withSem memory id sem).semaphores other).value) =
      Function.update k.sems.value id sem.value := by
    funext other
    rw [withSem_apply, Function.update_apply]
    split <;> rfl
  have waiting : (fun other => ((k.withSem memory id sem).semaphores other).waiting) =
      Function.update k.sems.waiting id sem.waiting := by
    funext other
    rw [withSem_apply, Function.update_apply]
    split <;> rfl
  unfold sems at value waiting ⊢
  rw [← value, ← waiting]

/-- Which semaphores are in use and have a list. -/
def SameUse (k k' : Kernel M) : Prop :=
  ∀ id, (k'.semaphores id).used = (k.semaphores id).used ∧
    ((k'.semaphores id).blocked = none ↔ (k.semaphores id).blocked = none)

theorem SameUse.of_eq (same : k'.semaphores = k.semaphores) : SameUse k k' := by
  intro id
  rw [same]
  exact ⟨rfl, .rfl⟩

theorem SameUse.withSem {memory : M} {sem : Sem} (used : sem.used = (k.semaphores id).used)
    (list : sem.blocked = none ↔ (k.semaphores id).blocked = none) :
    SameUse k (k.withSem memory id sem) := by
  intro other
  rw [withSem_apply]
  split
  · rename_i same
    rw [same]
    exact ⟨used, list⟩
  · exact ⟨rfl, .rfl⟩

/-- The process `a` changed its queue, the others did not. -/
structure Relocates (a : Addr) (target : QueueName) (k k' : Kernel M) : Prop where
  items : ∀ {name b}, b ∈ k'.items name ↔ (b ∈ k.items name ∧ b ≠ a) ∨ (name = target ∧ b = a)
  pid : ∀ b, (k'.pcb b).pid = (k.pcb b).pid
  pcbs : k'.pcbs = k.pcbs

theorem Moved.relocates (moved : Moved pid source target state a k₀ k₁)
    (before : SameRecords k k₀) (exclusive : Exclusive k₀.items) (after : SameRecords k₁ k') :
    Relocates a target k k' where
  items := by
    intro name b
    rw [after.items, moved.mem_items exclusive, before.items]
  pid b := by rw [after.pid, moved.pid_eq, before.pid]
  pcbs := by rw [after.pcbs, moved.fields.1, before.pcbs]

/-- Whoever is on a wait list stays asleep. -/
theorem WaitLists.keeps (lists : WaitLists k) (waiting : k'.sems.waiting = k.sems.waiting)
    (kept : ∀ {a id}, a ∈ k.items blockedQueueBySem → (k.pcb a).pid ∈ k.sems.waiting id →
      a ∈ k'.items blockedQueueBySem ∧ (k'.pcb a).pid = (k.pcb a).pid) : WaitLists k' where
  exclusive := by
    rw [waiting]
    exact lists.exclusive
  asleep := by
    intro id pid member
    rw [waiting] at member
    obtain ⟨a, asleep, named⟩ := lists.asleep member
    rw [← named] at member
    obtain ⟨still, same⟩ := kept asleep member
    exact ⟨a, still, same.trans named⟩

theorem WaitLists.same (lists : WaitLists k) (waiting : k'.sems.waiting = k.sems.waiting)
    (same : SameRecords k k') : WaitLists k' :=
  lists.keeps waiting fun asleep _ => ⟨same.items.mpr asleep, same.pid _⟩

theorem WaitLists.relocates (lists : WaitLists k) (waiting : k'.sems.waiting = k.sems.waiting)
    (relocates : Relocates a target k k') (spared : ∀ id, (k.pcb a).pid ∉ k.sems.waiting id) :
    WaitLists k' := by
  apply lists.keeps waiting
  intro b id asleep member
  refine ⟨relocates.items.mpr (.inl ⟨asleep, ?_⟩), relocates.pid b⟩
  intro same
  rw [same] at member
  exact spared id member

/-- The one at the head of a list is woken. -/
theorem WaitLists.handed (lists : WaitLists k) {rest : List Int}
    (front : k.sems.waiting id = pid :: rest) (waiting : k'.sems = k.sems.post id)
    (named : (k.pcb a).pid = pid) (relocates : Relocates a target k k') : WaitLists k' := by
  have member : pid ∈ k.sems.waiting id := by
    rw [front]
    exact List.mem_cons_self
  rw [Semaphores.post_handed front] at waiting
  constructor
  · rw [waiting]
    exact lists.exclusive.drop member
  · intro other waiter here
    rw [waiting] at here
    obtain ⟨still, different⟩ := (lists.exclusive.mem_drop member).mp here
    obtain ⟨b, asleep, same⟩ := lists.asleep still
    refine ⟨b, relocates.items.mpr (.inl ⟨asleep, ?_⟩), (relocates.pid b).trans same⟩
    intro equal
    rw [equal, named] at same
    exact different same.symm

/-- The current process queues up. -/
theorem WaitLists.queued (lists : WaitLists k)
    (waiting : k'.sems.waiting = push k.sems.waiting id (k.pcb a).pid)
    (relocates : Relocates a blockedQueueBySem k k') (awake : ¬ k.sems.Sleeps (k.pcb a).pid) :
    WaitLists k' := by
  have fresh : ∀ other, (k.pcb a).pid ∉ k.sems.waiting other := fun other member =>
    awake ⟨other, member⟩
  constructor
  · rw [waiting]
    exact lists.exclusive.push fresh
  · intro other pid here
    rw [waiting] at here
    rcases mem_push.mp here with old | ⟨_, same⟩
    · obtain ⟨b, asleep, named⟩ := lists.asleep old
      refine ⟨b, relocates.items.mpr (.inl ⟨asleep, ?_⟩), (relocates.pid b).trans named⟩
      intro equal
      rw [← named, equal] at old
      exact fresh other old
    · exact ⟨a, relocates.items.mpr (.inr ⟨rfl, rfl⟩), (relocates.pid a).trans same.symm⟩

/-- A process that is not asleep on a semaphore is on no wait list. -/
theorem WaitLists.awake (lists : WaitLists k) (table : Table k) (member : a ∈ k.items name)
    (other : name ≠ blockedQueueBySem) : ¬ k.sems.Sleeps (k.pcb a).pid := by
  rintro ⟨id, waits⟩
  obtain ⟨b, asleep, same⟩ := lists.asleep waits
  rw [table.pidUnique (table.queued asleep) (table.queued member) same] at asleep
  exact other (table.exclusive.unique member asleep)

theorem WaitLists.elsewhere (lists : WaitLists k) (table : Table k)
    (waiting : k'.sems.waiting = k.sems.waiting) (relocates : Relocates a target k k')
    (member : a ∈ k.items name) (other : name ≠ blockedQueueBySem) : WaitLists k' :=
  lists.relocates waiting relocates fun id here => lists.awake table member other ⟨id, here⟩

theorem Killed.relocates (killed : Killed pid retValue source a k k')
    (exclusive : Exclusive k.items) : Relocates a zombieQueue k k' where
  items := killed.mem_items exclusive
  pid b := by
    rw [killed.pcb]
    split
    · rename_i same
      rw [same]
    · rfl
  pcbs := by
    obtain ⟨k₁, moved, rfl⟩ := killed.moved
    have vacated : (k₁.vacate a).pcbs = k₁.pcbs := by
      unfold vacate
      split <;> rfl
    rw [vacated, moved.fields.1]
    exact (exiting_fields retValue a k).1

theorem WaitLists.reaped (lists : WaitLists k) (table : Table k) (reaped : Reaped a k k')
    (waiting : k'.sems.waiting = k.sems.waiting) : WaitLists k' := by
  apply lists.keeps waiting
  intro b id asleep _
  have other : b ≠ a := by
    intro same
    rw [same] at asleep
    exact absurd (table.exclusive.unique asleep reaped.member) (by decide)
  refine ⟨(reaped.mem_items table.exclusive).mpr ⟨asleep, other⟩, ?_⟩
  rw [reaped.pcb other]

/-- A creation adds at most one process, ready or blocked, and takes none away. -/
theorem Creates.grows (creates : Creates params a rsp k k') :
    (∀ {name b}, b ∈ k.items name → b ∈ k'.items name) ∧
      (∀ {name b}, b ∈ k'.items name → name = blockedQueueBySem ∨ name = zombieQueue →
        b ∈ k.items name) ∧ ∀ {b}, b ∈ k.pcbs → k'.pcb b = k.pcb b := by
  cases creates with
  | failed spares items _ _ =>
    rw [items]
    exact ⟨fun member => member, fun member _ => member, spares.kept⟩
  | created spares _ record _ _ =>
    obtain ⟨_, _, _, _, place⟩ := record
    refine ⟨?_, ?_, spares.kept⟩
    · intro name b member
      rcases place with ⟨same, _⟩ | ⟨pushed, _⟩ | ⟨pushed, _⟩
      · rw [same]
        exact member
      · rw [pushed]
        exact mem_push.mpr (.inl member)
      · rw [pushed]
        exact mem_push.mpr (.inl member)
    · intro name b member shown
      have notNew : ∀ {target : QueueName}, target = readyQueue ∨ target = blockedQueue →
          ¬ (name = target ∧ b = a) := by
        rintro target which ⟨same, _⟩
        subst same
        rcases shown with bySem | zombie
        · subst bySem
          exact absurd which (by decide)
        · subst zombie
          exact absurd which (by decide)
      rcases place with ⟨same, _⟩ | ⟨pushed, _⟩ | ⟨pushed, _⟩
      · rw [same] at member
        exact member
      · rw [pushed] at member
        exact (mem_push.mp member).resolve_right (notNew (.inl rfl))
      · rw [pushed] at member
        exact (mem_push.mp member).resolve_right (notNew (.inr rfl))

theorem WaitLists.creates (lists : WaitLists k) (table : Table k)
    (creates : Creates params a rsp k k') (waiting : k'.sems.waiting = k.sems.waiting) :
    WaitLists k' := by
  obtain ⟨grows, _, kept⟩ := creates.grows
  apply lists.keeps waiting
  intro b id asleep _
  refine ⟨grows asleep, ?_⟩
  rw [kept (table.queued asleep)]

/-! ## Operations on processes leave the semaphores alone -/

theorem Requeued.semaphores {lists : QueueName → List Addr} (requeued : Requeued k k' lists) :
    k'.semaphores = k.semaphores := by
  obtain ⟨memory, queue, rfl, _⟩ := requeued
  rfl

theorem Moved.semaphores (moved : Moved pid source target state a k k') :
    k'.semaphores = k.semaphores :=
  moved.requeued.semaphores

theorem Killed.semaphores (killed : Killed pid retValue source a k k') :
    k'.semaphores = k.semaphores := by
  obtain ⟨k₁, moved, rfl⟩ := killed.moved
  have vacated : (k₁.vacate a).semaphores = k₁.semaphores := by
    unfold vacate
    split <;> rfl
  have exited : (k.exiting retValue a).semaphores = k.semaphores := by
    unfold Kernel.exiting
    split <;> rfl
  rw [vacated, moved.semaphores, exited]

theorem Wakes.semaphores (wakes : Wakes parentPid pid k k') : k'.semaphores = k.semaphores := by
  cases wakes with
  | skip _ => rfl
  | wake _ moved => exact moved.semaphores

theorem Reaped.semaphores (reaped : Reaped a k k') : k'.semaphores = k.semaphores := by
  obtain ⟨memory, queue, state, rfl⟩ := reaped.rest
  rfl

theorem Creates.semaphores (creates : Creates params a rsp k k') :
    k'.semaphores = k.semaphores := by
  cases creates with
  | failed spares _ _ _ => exact spares.semaphores
  | created spares _ _ _ _ => exact spares.semaphores

theorem changePrio_semaphores {newPrio : Int} :
    (changePrio pid newPrio k).2.semaphores = k.semaphores := by
  unfold changePrio
  by_cases kernel : pid ≤ 1
  · simp only [kernel, if_true]
  · by_cases absent : k.getProcess pid = 0
    · simp only [kernel, absent, if_true, if_false]
    · simp only [kernel, absent, if_false]
      rfl

variable [MemoryManager M]

theorem callTimerTick_semaphores (reusable : NodesReusable M) :
    (callTimerTick rsp k).semaphores = k.semaphores := by
  rcases callTimerTick_cases rsp k reusable with ⟨_, same⟩ | ⟨_, next, switched⟩
  · rw [same]
  · exact switched.semaphores

theorem yield_semaphores (reusable : NodesReusable M) :
    (yield rsp k).semaphores = k.semaphores := by
  obtain ⟨next, switched⟩ := yield_switches rsp k reusable
  exact switched.semaphores

theorem blockProcess_semaphores (reusable : NodesReusable M) :
    (blockProcess pid rsp k).2.semaphores = k.semaphores := by
  rcases blockProcess_cases pid rsp k reusable with ⟨same, _⟩ | ⟨source, a, k', _, moved, same⟩
  · rw [same]
  · rw [same]
    change (if pid = k'.getCurrentPid then yield rsp k' else k').semaphores = _
    split
    · rw [yield_semaphores reusable, moved.semaphores]
    · exact moved.semaphores

theorem blockProcessBySem_semaphores (reusable : NodesReusable M) :
    (blockProcessBySem pid rsp k).2.semaphores = k.semaphores := by
  rcases blockProcessBySem_cases pid rsp k reusable with ⟨same, _⟩ | ⟨a, k', moved, same⟩
  · rw [same]
  · rw [same]
    change (if pid = k'.getCurrentPid then yield rsp k' else k').semaphores = _
    split
    · rw [yield_semaphores reusable, moved.semaphores]
    · exact moved.semaphores

theorem unblockProcess_semaphores (reusable : NodesReusable M) :
    (unblockProcess pid k).2.semaphores = k.semaphores := by
  rcases unblockProcess_cases pid k reusable with ⟨same, _⟩ | ⟨a, k', same, moved⟩
  · rw [same]
  · rw [same]
    exact moved.semaphores

theorem unblockProcessBySem_semaphores (reusable : NodesReusable M) :
    (unblockProcessBySem pid k).2.semaphores = k.semaphores := by
  rcases unblockProcessBySem_cases pid k reusable with ⟨same, _⟩ | ⟨a, k', same, moved⟩
  · rw [same]
  · rw [same]
    exact moved.semaphores

theorem kill_semaphores (reusable : NodesReusable M) (settled : Settled k) :
    (kill pid retValue rsp k).2.semaphores = k.semaphores := by
  rcases kill_cases pid retValue rsp reusable settled with
    ⟨same, _⟩ | ⟨source, a, k₁, k₂, _, killed, wakes, same⟩
  · rw [same]
  · rw [same]
    have kept := wakes.semaphores.trans killed.semaphores
    change (if pid = k.currentPid then yield rsp k₂ else k₂).semaphores = _
    split
    · rw [yield_semaphores reusable, kept]
    · exact kept

theorem waitpid_semaphores (reusable : NodesReusable M) (settled : Settled k)
    (ready : k.processes.currentProcess ∈ k.items readyQueue) :
    (waitpid pid rsp k).2.semaphores = k.semaphores := by
  have way := waitpid_cases pid rsp reusable settled ready
  generalize Kernel.waitpid pid rsp k = result at way ⊢
  obtain ⟨outcome, after⟩ := result
  cases way with
  | absent _ => rfl
  | stranger _ _ => rfl
  | refused _ _ => rfl
  | reaped _ _ _ reaped => exact reaped.semaphores
  | asleep _ _ _ moved yielded =>
    rw [yielded, yield_semaphores reusable, moved.semaphores]
    rfl

theorem waitpidResume_semaphores (settled : Settled k) :
    (waitpidResume pid current k).2.2.semaphores = k.semaphores := by
  rcases waitpidResume_cases pid current settled with ⟨_, same⟩ | ⟨k', _, reaped, same⟩
  · rw [same]
  · rw [same]
    exact reaped.semaphores

/-! ## Operations on semaphores -/

/-- What `semInit` does: nothing, or the semaphore is in use from now on, with no
waiters. -/
inductive Opened (id : Int) (value : Nat) (k : Kernel M) : Int × Kernel M → Prop
  | refused : (id < 0 ∨ numSems ≤ id ∨ (k.semaphores id).used) → Opened id value k (-1, k)
  | opened {result : Int} {after : Kernel M} {list : Option (Queue PidCell)} {queue : Addr} :
      (k.semaphores id).used = false →
      (∀ other, after.semaphores other =
        if other = id then ⟨value % 2 ^ 32, false, true, list, queue⟩ else k.semaphores other) →
      ((list = none ∧ ¬ AllocSucceeds M ∧ result = -1) ∨ (list = some [] ∧ result = 0)) →
      SameRecords k after → Opened id value k (result, after)

theorem semInit_opened (id : Int) (value : Nat) (k : Kernel M) :
    Opened id value k (semInit id value k) := by
  have way := semInit_cases id value k
  generalize semInit id value k = result at way ⊢
  cases way with
  | refused why => exact .refused why
  | failed closed fails =>
    exact .opened closed (fun _ => withSem_apply) (.inl ⟨rfl, fails, rfl⟩) sameRecords_withSem
  | opened closed =>
    exact .opened closed (fun _ => withSem_apply) (.inr ⟨rfl, rfl⟩) sameRecords_withSem

/-- The wait lists once the semaphore is open. -/
theorem Opened.waiting {result : Int} {list : Option (Queue PidCell)} {queue : Addr}
    (after : ∀ other, k'.semaphores other =
      if other = id then ⟨value % 2 ^ 32, false, true, list, queue⟩ else k.semaphores other)
    (empty : (list = none ∧ ¬ AllocSucceeds M ∧ result = -1) ∨ (list = some [] ∧ result = 0)) :
    k'.sems = ⟨Function.update k.sems.value id (value % 2 ^ 32),
      Function.update k.sems.waiting id []⟩ := by
  have nobody : (⟨value % 2 ^ 32, false, true, list, queue⟩ : Sem).waiting = [] := by
    rcases empty with ⟨same, _⟩ | ⟨same, _⟩
    · rw [same]
      rfl
    · rw [same]
      rfl
  unfold sems
  congr 1
  · funext other
    rw [after, Function.update_apply]
    split <;> rfl
  · funext other
    rw [after, Function.update_apply]
    split
    · exact nobody
    · rfl

/-- Opening a semaphore takes nobody in. -/
theorem semInit_fewer (id : Int) (value : Nat) (exclusive : Exclusive k.sems.waiting) :
    Exclusive (semInit id value k).2.sems.waiting ∧
      (∀ {other pid}, pid ∈ (semInit id value k).2.sems.waiting other →
        pid ∈ k.sems.waiting other) ∧ SameRecords k (semInit id value k).2 := by
  have way := semInit_opened id value k
  generalize semInit id value k = result at way ⊢
  cases way with
  | refused _ => exact ⟨exclusive, fun member => member, .refl⟩
  | opened _ after empty same =>
    have sems := Opened.waiting after empty
    have fewer : ∀ {other pid}, pid ∈ Function.update k.sems.waiting id [] other →
        pid ∈ k.sems.waiting other := by
      intro other pid member
      rw [Function.update_apply] at member
      split at member
      · cases member
      · exact member
    refine ⟨?_, ?_, same⟩
    · rw [sems]
      constructor
      · intro other
        dsimp only
        rw [Function.update_apply]
        split
        · exact List.nodup_nil
        · exact exclusive.nodup other
      · intro one two pid first second
        exact exclusive.unique (fewer first) (fewer second)
    · rw [sems]
      exact fewer

theorem WaitLists.semInit (lists : WaitLists k) : WaitLists (semInit id value k).2 := by
  obtain ⟨exclusive, fewer, same⟩ := semInit_fewer id value lists.exclusive
  refine ⟨exclusive, ?_⟩
  intro other pid member
  obtain ⟨a, asleep, named⟩ := lists.asleep (fewer member)
  exact ⟨a, same.items.mpr asleep, (same.pid a).trans named⟩

/-- What `semWait` does when its caller is on the ready queue. -/
inductive Waited (id : Int) (k : Kernel M) (status : Int) (k' : Kernel M) : Prop
  | taken : status = 0 → 0 < k.sems.value id → k'.sems = k.sems.wait id k.getCurrentPid →
      SameRecords k k' → Waited id k status k'
  /-- There is no memory for the pid. -/
  | failed : status = -1 → k.sems.value id = 0 → ¬ k.HasRoom → k'.sems = k.sems → SameRecords k k' →
      Waited id k status k'
  | queued : status = 0 → k.sems.value id = 0 → (k.semaphores id).blocked ≠ none →
      k'.sems = k.sems.wait id k.getCurrentPid →
      Relocates k.processes.currentProcess blockedQueueBySem k k' → Waited id k status k'
  /-- There is no list, or no memory for its node: nobody knows of the sleeper. -/
  | forgotten : status = 0 → k.sems.value id = 0 →
      ((k.semaphores id).blocked = none ∨ ¬ k.HasRoom) → k'.sems = k.sems →
      Relocates k.processes.currentProcess blockedQueueBySem k k' → Waited id k status k'

theorem blockProcessBySem_current (rsp : Nat) (reusable : NodesReusable M) (settled : Settled k)
    (ready : k.processes.currentProcess ∈ k.items readyQueue) :
    ∃ pid k', Moved pid readyQueue blockedQueueBySem .waitingSem k.processes.currentProcess k k' ∧
      blockProcessBySem k.getCurrentPid rsp k = (0, yield rsp k') := by
  have table := settled.table
  rcases blockProcessBySem_cases k.getCurrentPid rsp k reusable with
    ⟨_, missing⟩ | ⟨a, k', moved, same⟩
  · exact absurd table.getCurrentPid.symm (missing.elim table ready)
  · have isCurrent : a = k.processes.currentProcess := by
      apply table.pidUnique (table.queued moved.member) table.current
      rw [moved.named, table.getCurrentPid]
    subst isCurrent
    refine ⟨_, k', moved, ?_⟩
    rw [same, if_pos moved.getCurrentPid.symm]

theorem semWait_waited (id : Int) (rsp : Nat) (reusable : NodesReusable M) (settled : Settled k)
    (ready : k.processes.currentProcess ∈ k.items readyQueue) :
    Waited id k (semWait id rsp k).1 (semWait id rsp k).2 ∧ SameUse k (semWait id rsp k).2 := by
  have sleeps : ∀ memory sem, ∃ pid k₁,
      Moved pid readyQueue blockedQueueBySem .waitingSem k.processes.currentProcess
        (k.withSem memory id sem) k₁ ∧
      blockProcessBySem k.getCurrentPid rsp (k.withSem memory id sem) = (0, yield rsp k₁) :=
    fun memory sem => blockProcessBySem_current rsp reusable settled.withSem ready
  have relocates : ∀ {memory sem pid k₁},
      Moved pid readyQueue blockedQueueBySem .waitingSem k.processes.currentProcess
        (k.withSem memory id sem) k₁ →
      Relocates k.processes.currentProcess blockedQueueBySem k (yield rsp k₁) := by
    intro memory sem pid k₁ moved
    have before : Table (k.withSem memory id sem) := settled.withSem.table
    have after := moved.table before rfl (by decide) fun zombie => absurd zombie (by decide)
    exact moved.relocates sameRecords_withSem before.exclusive (yield_sameRecords after reusable)
  have way := wait_cases id rsp k
  change Waited id k (wait id rsp k).1 (wait id rsp k).2 ∧ SameUse k (wait id rsp k).2
  generalize wait id rsp k = result at way ⊢
  cases way with
  | taken token =>
    refine ⟨.taken rfl token ?_ sameRecords_withSem, .withSem rfl .rfl⟩
    rw [withSem_sems, Semaphores.wait_taken token]
    exact congrArg _ (Function.update_eq_self id k.sems.waiting)
  | failed none fails =>
    refine ⟨.failed rfl none fails ?_ sameRecords_withSem, .withSem rfl .rfl⟩
    rw [withSem_sems]
    exact congrArg₂ _ (Function.update_eq_self id k.sems.value)
      (Function.update_eq_self id k.sems.waiting)
  | @unlisted memory none missing =>
    obtain ⟨pid, k₁, moved, same⟩ := sleeps memory { k.semaphores id with lock := false }
    have semaphores : (yield rsp k₁).semaphores = _ :=
      (yield_semaphores reusable).trans moved.semaphores
    rw [same]
    refine ⟨.forgotten rfl none missing ?_ (relocates moved), ?_⟩
    · rw [sems_congr semaphores, withSem_sems]
      exact congrArg₂ _ (Function.update_eq_self id k.sems.value)
        (Function.update_eq_self id k.sems.waiting)
    · unfold SameUse
      rw [semaphores]
      exact SameUse.withSem rfl .rfl
  | @asleep memory address cell blocked none list =>
    obtain ⟨pid, k₁, moved, same⟩ := sleeps memory { k.semaphores id with
      blocked := some (blocked ++ [⟨address, ⟨cell, k.getCurrentPid⟩⟩]), lock := false }
    have semaphores : (yield rsp k₁).semaphores = _ :=
      (yield_semaphores reusable).trans moved.semaphores
    have listed : (k.semaphores id).blocked ≠ Option.none := by
      rw [list]
      exact Option.some_ne_none _
    rw [same]
    refine ⟨.queued rfl none listed ?_ (relocates moved), ?_⟩
    · rw [sems_congr semaphores, withSem_sems, Semaphores.wait_queued none]
      have appended : ({ k.semaphores id with
          blocked := some (blocked ++ [⟨address, ⟨cell, k.getCurrentPid⟩⟩]), lock := false }
            : Sem).waiting = k.sems.waiting id ++ [k.getCurrentPid] := by
        unfold sems Sem.waiting
        simp only [list, Option.getD_some, Queue.items_append, List.map_append]
        rfl
      rw [appended]
      exact congrArg₂ _ (Function.update_eq_self id k.sems.value) rfl
    · unfold SameUse
      rw [semaphores]
      exact SameUse.withSem rfl ⟨fun never => absurd never (Option.some_ne_none _),
        fun never => absurd never listed⟩

theorem WaitLists.semWait (lists : WaitLists k) (reusable : NodesReusable M) (settled : Settled k)
    (ready : k.processes.currentProcess ∈ k.items readyQueue) :
    WaitLists (semWait id rsp k).2 := by
  have table := settled.table
  have awake := lists.awake table ready (by decide)
  obtain ⟨waited, _⟩ := semWait_waited id rsp reusable settled ready
  cases waited with
  | taken _ token sems same =>
    apply lists.same _ same
    rw [sems, Semaphores.wait_taken token]
  | failed _ _ _ sems same => exact lists.same (by rw [sems]) same
  | queued _ none _ sems relocates =>
    rw [Semaphores.wait_queued none, table.getCurrentPid] at sems
    exact lists.queued (by rw [sems]) relocates awake
  | forgotten _ _ _ sems relocates =>
    exact lists.elsewhere table (by rw [sems]) relocates ready (by decide)

/-- What `semPost` does: the head of the list is made ready, if it sleeps on a
semaphore, or the value grows. -/
inductive Posted (id : Int) (k k' : Kernel M) : Prop
  | counted : k.sems.waiting id = [] → k'.sems = { k.sems with
      value := Function.update k.sems.value id ((k.sems.value id + 1) % 2 ^ 32) } →
      SameRecords k k' → Posted id k k'
  | handed {a pid rest} : k.sems.waiting id = pid :: rest → k'.sems = k.sems.post id →
      a ∈ k.items blockedQueueBySem → (k.pcb a).pid = pid → Relocates a readyQueue k k' →
      Posted id k k'
  | lost {pid rest} : k.sems.waiting id = pid :: rest → k'.sems = k.sems.post id →
      (∀ a ∈ k.items blockedQueueBySem, (k.pcb a).pid ≠ pid) → SameRecords k k' →
      Posted id k k'

theorem semPost_posted (id : Int) (reusable : NodesReusable M) (settled : Settled k) :
    Posted id k (semPost id k).2 ∧ SameUse k (semPost id k).2 := by
  have way := post_cases id k
  change Posted id k (post id k).2 ∧ SameUse k (post id k).2
  generalize post id k = result at way ⊢
  cases way with
  | counted empty =>
    refine ⟨.counted empty ?_ sameRecords_withSem, .withSem rfl .rfl⟩
    rw [withSem_sems]
    exact congrArg _ (Function.update_eq_self id k.sems.waiting)
  | @handed memory node rest list =>
    have front : k.sems.waiting id = node.data.pid :: rest.items.map PidCell.pid := by
      unfold sems Sem.waiting
      simp only [list, Option.getD_some, Queue.items_cons, List.map_cons]
    have listed : (k.semaphores id).blocked ≠ Option.none := by
      rw [list]
      exact Option.some_ne_none _
    have after : (k.withSem memory id { k.semaphores id with
        blocked := some rest, lock := false }).sems = k.sems.post id := by
      rw [withSem_sems, Semaphores.post_handed front]
      have dropped : Lib.drop k.sems.waiting id node.data.pid =
          Function.update k.sems.waiting id (rest.items.map PidCell.pid) := by
        unfold Lib.drop
        rw [front, List.erase_cons_head]
      rw [dropped]
      exact congrArg₂ _ (Function.update_eq_self id k.sems.value) rfl
    have semaphores : (unblockProcessBySem node.data.pid (k.withSem memory id
        { k.semaphores id with blocked := some rest, lock := false })).2.semaphores = _ :=
      unblockProcessBySem_semaphores reusable
    refine ⟨?_, ?_⟩
    · rcases unblockProcessBySem_cases node.data.pid (k.withSem memory id
        { k.semaphores id with blocked := some rest, lock := false }) reusable with
        ⟨same, missing⟩ | ⟨a, k', same, moved⟩
      · rw [same]
        exact .lost front after (fun a member => missing.elim settled.withSem.table member)
          sameRecords_withSem
      · rw [same] at semaphores ⊢
        exact .handed front ((sems_congr semaphores).trans after) moved.member moved.named
          (moved.relocates sameRecords_withSem settled.table.exclusive .refl)
    · unfold SameUse
      rw [semaphores]
      exact SameUse.withSem rfl ⟨fun never => absurd never (Option.some_ne_none _),
        fun never => absurd never listed⟩

theorem WaitLists.semPost (lists : WaitLists k) (reusable : NodesReusable M)
    (settled : Settled k) : WaitLists (semPost id k).2 := by
  obtain ⟨posted, _⟩ := semPost_posted id reusable settled
  cases posted with
  | counted _ sems same => exact lists.same (by rw [sems]) same
  | handed front sems _ named relocates => exact lists.handed front sems named relocates
  | @lost pid _ front _ missing _ =>
    have member : pid ∈ k.sems.waiting id := by
      rw [front]
      exact List.mem_cons_self
    obtain ⟨a, asleep, named⟩ := lists.asleep member
    exact absurd named (missing a asleep)

end Kernel

/-- The calls that work on a semaphore itself. -/
def Call.semaphore : Call → Option Int
  | .semInit id _ | .semWait id | .semPost id => some id
  | _ => none

theorem System.perform_semaphores [MemoryManager M] {s : System M} {call : Call} {rsp : Nat}
    (settled : Settled s.kernel) (reusable : NodesReusable M) (runs : UserRuns s.kernel)
    (admits : Admits call s.kernel) (other : call.semaphore = none) :
    (s.perform call rsp).kernel.semaphores = s.kernel.semaphores := by
  cases call with
  | yield => exact yield_semaphores reusable
  | createProcess params =>
    exact (createProcess_creates params settled admits runs.2).semaphores
  | blockProcess pid => exact blockProcess_semaphores reusable
  | unblockProcess pid => exact unblockProcess_semaphores reusable
  | blockProcessBySem => exact blockProcessBySem_semaphores reusable
  | unblockProcessBySem pid => exact unblockProcessBySem_semaphores reusable
  | kill pid retValue => exact kill_semaphores reusable settled
  | waitpid pid =>
    rw [perform_waitpid]
    exact waitpid_semaphores reusable settled (runs.ready settled)
  | changePrio pid newPrio => exact changePrio_semaphores
  | semInit id value => cases other
  | semWait id => cases other
  | semPost id => cases other

end SoKernel
