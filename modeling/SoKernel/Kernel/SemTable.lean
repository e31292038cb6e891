import SoKernel.Kernel.PostEffect

namespace SoKernel
open MemoryManager QueueName Lib Kernel SoKernel.System

variable {M : Type}

namespace Kernel

variable {k k' : Kernel M} {a : Addr} {pid id : Int} {rsp value : Nat} {params : CreationParams}
variable {target : QueueName}

/-- The sleepers and the semaphores are the same. -/
theorem SemTable.keeps (semTable : SemTable k) (semaphores : k'.semaphores = k.semaphores)
    (sleepers : ∀ {a}, a ∈ k'.items blockedQueueBySem ↔ a ∈ k.items blockedQueueBySem)
    (pids : ∀ {a}, a ∈ k.items blockedQueueBySem → (k'.pcb a).pid = (k.pcb a).pid) :
    SemTable k' := by
  have sems := sems_congr semaphores
  constructor
  · exact semTable.lists.keeps (by rw [sems]) fun asleep _ => ⟨sleepers.mpr asleep, pids asleep⟩
  · rw [sems]
    exact semTable.eager
  · intro a asleep
    have before := sleepers.mp asleep
    rw [sems, pids before]
    exact semTable.complete a before
  · rw [semaphores]
    exact semTable.opened
  · rw [semaphores, sems]
    exact semTable.unused

theorem SemTable.same (semTable : SemTable k) (semaphores : k'.semaphores = k.semaphores)
    (same : SameRecords k k') : SemTable k' :=
  semTable.keeps semaphores same.items fun _ => same.pid _

theorem SemTable.creates (semTable : SemTable k) (table : Table k)
    (creates : Creates params a rsp k k') : SemTable k' := by
  obtain ⟨grows, shown, kept⟩ := creates.grows
  apply semTable.keeps creates.semaphores ⟨fun member => shown member (.inl rfl), grows⟩
  intro b asleep
  rw [kept (table.queued asleep)]

/-- The waiters of a semaphore sleep, each on this one list. -/
theorem SemTable.one_list (semTable : SemTable k) (asleep : a ∈ k.items blockedQueueBySem) :
    ∃! id, (k.pcb a).pid ∈ k.sems.waiting id := by
  obtain ⟨id, waits⟩ := semTable.complete a asleep
  exact ⟨id, waits, fun other here => semTable.lists.exclusive.unique here waits⟩

variable [MemoryManager M]

theorem SemTable.semInit (semTable : SemTable k) (succeeds : AllocSucceeds M) :
    SemTable (semInit id value k).2 := by
  have lists : WaitLists (Kernel.semInit id value k).2 := semTable.lists.semInit
  have way := semInit_opened id value k
  generalize Kernel.semInit id value k = result at way lists ⊢
  cases way with
  | refused _ => exact semTable
  | @opened result after list queue closed changed empty same =>
    have sems := Opened.waiting changed empty
    have nobody := semTable.unused id closed
    have listed : list = some [] := by
      rcases empty with ⟨_, fails, _⟩ | ⟨listed, _⟩
      · exact absurd succeeds fails
      · exact listed
    constructor
    · exact lists
    · intro other
      rw [sems]
      dsimp only
      rw [Function.update_apply, Function.update_apply]
      split
      · exact fun _ => rfl
      · exact semTable.eager other
    · intro a asleep
      obtain ⟨other, waits⟩ := semTable.complete a (same.items.mp asleep)
      have apart : other ≠ id := by
        intro equal
        rw [equal, nobody] at waits
        cases waits
      rw [same.pid]
      refine ⟨other, ?_⟩
      rw [sems]
      dsimp only
      rw [Function.update_of_ne apart]
      exact waits
    · intro other
      rw [changed]
      split
      · rw [listed]
        exact fun _ => Option.some_ne_none _
      · exact semTable.opened other
    · intro other closed'
      rw [sems]
      dsimp only
      rw [Function.update_apply]
      split
      · rfl
      · rename_i apart
        rw [changed, if_neg apart] at closed'
        exact semTable.unused other closed'

/-- On an open semaphore the caller gets a token or queues up. -/
inductive Enters (id : Int) (k k' : Kernel M) : Prop
  | taken : 0 < k.sems.value id → SameRecords k k' → Enters id k k'
  | queued : k.sems.value id = 0 →
      Relocates k.processes.currentProcess blockedQueueBySem k k' → Enters id k k'

theorem SemTable.enters (semTable : SemTable k) (rsp : Nat) (succeeds : AllocSucceeds M)
    (settled : Settled k)
    (ready : k.processes.currentProcess ∈ k.items readyQueue)
    (used : (k.semaphores id).used = true) :
    (semWait id rsp k).2.sems = k.sems.wait id k.getCurrentPid ∧
      Enters id k (semWait id rsp k).2 := by
  obtain ⟨waited, _⟩ := semWait_waited id rsp succeeds.nodesReusable settled ready
  cases waited with
  | taken _ token sems same => exact ⟨sems, .taken token same⟩
  | failed _ _ fails _ _ => exact absurd (hasRoom succeeds) fails
  | queued _ none _ sems relocates => exact ⟨sems, .queued none relocates⟩
  | forgotten _ _ missing _ _ =>
    rcases missing with unlisted | fails
    · exact absurd unlisted (semTable.opened id used)
    · exact absurd (hasRoom succeeds) fails

theorem SemTable.semWait (semTable : SemTable k) (succeeds : AllocSucceeds M)
    (settled : Settled k) (ready : k.processes.currentProcess ∈ k.items readyQueue)
    (used : (k.semaphores id).used = true) : SemTable (semWait id rsp k).2 := by
  have table := settled.table
  have reusable := succeeds.nodesReusable
  have awake := semTable.lists.awake table ready (by decide)
  rw [← table.getCurrentPid] at awake
  obtain ⟨_, use⟩ := semWait_waited id rsp reusable settled ready
  have lists : WaitLists (Kernel.semWait id rsp k).2 := semTable.lists.semWait reusable settled ready
  obtain ⟨sems, enters⟩ := semTable.enters rsp succeeds settled ready used
  constructor
  · exact lists
  · rw [sems]
    exact (semTable.orderly.wait awake).eager
  · intro a asleep
    rw [sems]
    cases enters with
    | taken token same =>
      obtain ⟨other, waits⟩ := semTable.complete a (same.items.mp asleep)
      refine ⟨other, Semaphores.mem_wait.mpr (.inl ?_)⟩
      rw [same.pid]
      exact waits
    | queued none relocates =>
      rw [relocates.pid]
      rcases relocates.items.mp asleep with ⟨old, _⟩ | ⟨_, same⟩
      · obtain ⟨other, waits⟩ := semTable.complete a old
        exact ⟨other, Semaphores.mem_wait.mpr (.inl waits)⟩
      · rw [same, ← table.getCurrentPid]
        exact ⟨id, Semaphores.mem_wait.mpr (.inr ⟨none, rfl, rfl⟩)⟩
  · intro other
    rw [(use other).1, Ne, (use other).2]
    exact semTable.opened other
  · intro other closed
    rw [(use other).1] at closed
    have apart : other ≠ id := by
      intro equal
      rw [equal, used] at closed
      cases closed
    rw [sems, (Semaphores.wait_other apart).2]
    exact semTable.unused other closed

/-- A post makes the value grow or wakes the first waiter. -/
inductive Gives (id : Int) (k k' : Kernel M) : Prop
  | counted : k.sems.waiting id = [] → SameRecords k k' → Gives id k k'
  | handed {a rest} : k.sems.waiting id = (k.pcb a).pid :: rest → a ∈ k.items blockedQueueBySem →
      Relocates a readyQueue k k' → Gives id k k'

theorem SemTable.gives (semTable : SemTable k) (reusable : NodesReusable M) (settled : Settled k)
    (room : (k.semaphores id).value + 1 < 2 ^ 32) :
    (semPost id k).2.sems = k.sems.post id ∧ Gives id k (semPost id k).2 := by
  obtain ⟨posted, _⟩ := semPost_posted id reusable settled
  cases posted with
  | counted empty sems same =>
    refine ⟨?_, .counted empty same⟩
    have grown : (k.sems.value id + 1) % 2 ^ 32 = k.sems.value id + 1 := Nat.mod_eq_of_lt room
    rw [sems, Semaphores.post_counted empty, grown]
  | handed front sems asleep named relocates =>
    rw [← named] at front
    exact ⟨sems, .handed front asleep relocates⟩
  | @lost pid rest front _ missing _ =>
    have member : pid ∈ k.sems.waiting id := by
      rw [front]
      exact List.mem_cons_self
    obtain ⟨a, asleep, named⟩ := semTable.lists.asleep member
    exact absurd named (missing a asleep)

theorem SemTable.semPost (semTable : SemTable k) (reusable : NodesReusable M) (settled : Settled k)
    (room : (k.semaphores id).value + 1 < 2 ^ 32) : SemTable (semPost id k).2 := by
  have table := settled.table
  obtain ⟨_, use⟩ := semPost_posted id reusable settled
  have lists : WaitLists (Kernel.semPost id k).2 := semTable.lists.semPost reusable settled
  obtain ⟨sems, gives⟩ := semTable.gives reusable settled room
  constructor
  · exact lists
  · rw [sems]
    exact semTable.orderly.post.eager
  · intro a asleep
    rw [sems]
    cases gives with
    | counted empty same =>
      obtain ⟨other, waits⟩ := semTable.complete a (same.items.mp asleep)
      refine ⟨other, semTable.orderly.mem_post.mpr ?_⟩
      rw [same.pid, empty]
      exact ⟨waits, fun never => nomatch never⟩
    | @handed b rest front woken relocates =>
      rcases relocates.items.mp asleep with ⟨old, apart⟩ | ⟨never, _⟩
      · obtain ⟨other, waits⟩ := semTable.complete a old
        refine ⟨other, semTable.orderly.mem_post.mpr ?_⟩
        rw [relocates.pid, front]
        refine ⟨waits, ?_⟩
        intro first
        have same : (k.pcb b).pid = (k.pcb a).pid := Option.some.inj first
        exact apart (table.pidUnique (table.queued woken) (table.queued old) same).symm
      · cases never
  · intro other
    rw [(use other).1, Ne, (use other).2]
    exact semTable.opened other
  · intro other closed
    rw [(use other).1] at closed
    have nobody := semTable.unused other closed
    rw [sems]
    apply List.eq_nil_iff_forall_not_mem.mpr
    intro pid member
    have before := (semTable.orderly.mem_post.mp member).1
    rw [nobody] at before
    cases before

/-- After boot the accounts are in order. -/
theorem Start.semTable {shell : Addr} (start : Start shell k) (succeeds : AllocSucceeds M) :
    SemTable k := by
  have nobody : ∀ id, k.sems.waiting id = [] := fun id => (start.quiet id).1
  have asleep : k.items blockedQueueBySem = [] := by
    rw [start.items]
    exact Function.update_of_ne (by decide) _ _
  constructor
  · exact started_lists start
  · exact fun id _ => nobody id
  · intro a member
    rw [asleep] at member
    cases member
  · exact fun id used => (start.quiet id).2.2 succeeds used
  · exact fun id _ => nobody id

end Kernel
end SoKernel
