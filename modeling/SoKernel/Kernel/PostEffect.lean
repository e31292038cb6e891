import SoKernel.Kernel.WaitLists
import SoKernel.Kernel.Bump

namespace SoKernel
open MemoryManager QueueName Lib Kernel SoKernel.System

variable {M : Type}

namespace Kernel

/-- Exactly one process moves from those that wait for a semaphore to the ready ones. -/
def Woke (k k' : Kernel M) : Prop :=
  ∃! a, a ∈ k.items blockedQueueBySem ∧ a ∈ k'.items readyQueue

/-- The value of the semaphore grows by one. -/
def Grew (id : Int) (k k' : Kernel M) : Prop :=
  (k'.semaphores id).value = (k.semaphores id).value + 1

/-- The first waiter, if there is one, sleeps on a semaphore; else the value can grow. -/
def Receives (id : Int) (k : Kernel M) : Prop :=
  match (k.semaphores id).waiting with
  | [] => (k.semaphores id).value + 1 < 2 ^ 32
  | pid :: _ => ∃ a ∈ k.items blockedQueueBySem, (k.pcb a).pid = pid

/-- No process on a wait list is named. -/
def SparesWaiters (event : Event) (k : Kernel M) : Prop :=
  match event with
  | .ctrlC => ∀ id, k.getForegroundPid ∉ (k.semaphores id).waiting
  | .call (.kill pid _) | .call (.blockProcess pid) | .call (.unblockProcessBySem pid) =>
    ∀ id, pid ∉ (k.semaphores id).waiting
  | _ => True

variable {k k' k₁ : Kernel M} {a current : Addr} {pid id : Int} {rsp retValue : Nat}
variable {source target : QueueName} {state : ProcessState}

/-- Nothing wakes where the queues stay as they are. -/
theorem SameRecords.not_woke (same : SameRecords k k') (table : Table k) : ¬ Woke k k' := by
  rintro ⟨a, ⟨asleep, ready⟩, _⟩
  exact absurd (table.exclusive.unique asleep (same.items.mp ready)) (by decide)

theorem WaitLists.moved (lists : WaitLists k) (table : Table k)
    (moved : Moved pid source target state a k k₁) (after : SameRecords k₁ k')
    (semaphores : k'.semaphores = k.semaphores)
    (spared : source = blockedQueueBySem → ∀ id, pid ∉ k.sems.waiting id) : WaitLists k' := by
  apply lists.relocates (by rw [sems_congr semaphores])
    (moved.relocates .refl table.exclusive after)
  intro id
  by_cases bySem : source = blockedQueueBySem
  · rw [moved.named]
    exact spared bySem id
  · exact fun member => lists.awake table moved.member bySem ⟨id, member⟩

theorem WaitLists.setWaiting (lists : WaitLists k) (a : Addr) (pid : Int) :
    WaitLists (k.setWaiting a pid) :=
  lists.keeps rfl fun asleep _ => ⟨asleep, (setWaiting_fields _ _ _ _).1⟩

variable [MemoryManager M]

/-- A post has exactly one of two effects. -/
def PostEffect (id : Int) (k : Kernel M) : Prop :=
  Xor (Grew id k (semPost id k).2) (Woke k (semPost id k).2)

theorem postEffect_iff (reusable : NodesReusable M) (settled : Settled k) :
    PostEffect id k ↔ Receives id k := by
  have table := settled.table
  obtain ⟨posted, _⟩ := semPost_posted id reusable settled
  unfold PostEffect Receives
  generalize semPost id k = result at posted ⊢
  obtain ⟨status, k'⟩ := result
  have value : (k'.semaphores id).value = k'.sems.value id := rfl
  have kept : ∀ {pid rest}, k.sems.waiting id = pid :: rest → k'.sems = k.sems.post id →
      ¬ Grew id k k' := by
    intro pid rest front sems grew
    unfold Grew at grew
    rw [value, sems, Semaphores.post_handed front] at grew
    exact Nat.succ_ne_self _ grew.symm
  cases posted with
  | counted empty sems same =>
    rw [show (k.semaphores id).waiting = [] from empty]
    have still : ¬ Woke k k' := same.not_woke table
    have grew : Grew id k k' ↔ (k.semaphores id).value + 1 < 2 ^ 32 := by
      have after : (k'.semaphores id).value = ((k.semaphores id).value + 1) % 2 ^ 32 := by
        rw [value, sems]
        exact Function.update_self _ _ _
      unfold Grew
      rw [after]
      omega
    simp only [Xor, still, not_false_eq_true, and_true, false_and, or_false]
    exact grew
  | @handed a pid rest front sems asleep named relocates =>
    rw [show (k.semaphores id).waiting = pid :: rest from front]
    have woke : Woke k k' := by
      refine ⟨a, ⟨asleep, relocates.items.mpr (.inr ⟨rfl, rfl⟩)⟩, ?_⟩
      rintro b ⟨bySem, ready⟩
      rcases relocates.items.mp ready with ⟨old, _⟩ | ⟨_, same⟩
      · exact absurd (table.exclusive.unique bySem old) (by decide)
      · exact same
    constructor
    · exact fun _ => ⟨a, asleep, named⟩
    · exact fun _ => .inr ⟨woke, kept front sems⟩
  | @lost pid rest front sems missing same =>
    rw [show (k.semaphores id).waiting = pid :: rest from front]
    constructor
    · rintro (⟨grew, _⟩ | ⟨woke, _⟩)
      · exact absurd grew (kept front sems)
      · exact absurd woke (same.not_woke table)
    · rintro ⟨a, asleep, named⟩
      exact absurd named (missing a asleep)

/-! ## Who waits stays asleep -/

/-- A process that may yield after a move. -/
theorem WaitLists.moved_yield (lists : WaitLists k) (settled : Settled k)
    (reusable : NodesReusable M) (moved : Moved pid source target state a k k₁)
    (fits : Fits target state) (still : state ≠ .running) (shown : target ≠ zombieQueue)
    (spared : source = blockedQueueBySem → ∀ id, pid ∉ k.sems.waiting id) (yields : Prop)
    [Decidable yields] : WaitLists (if yields then yield rsp k₁ else k₁) := by
  have after := moved.table settled.table fits still fun zombie => absurd zombie shown
  split
  · exact lists.moved settled.table moved (yield_sameRecords after reusable)
      ((yield_semaphores reusable).trans moved.semaphores) spared
  · exact lists.moved settled.table moved .refl moved.semaphores spared

theorem WaitLists.blockProcess (lists : WaitLists k) (reusable : NodesReusable M)
    (settled : Settled k) (spared : ∀ id, pid ∉ k.sems.waiting id) :
    WaitLists (blockProcess pid rsp k).2 := by
  rcases blockProcess_cases pid rsp k reusable with ⟨same, _⟩ | ⟨source, a, k', _, moved, same⟩
  · rw [same]
    exact lists
  · rw [same]
    exact lists.moved_yield settled reusable moved rfl (by decide) (by decide) (fun _ => spared) _

theorem WaitLists.blockProcessBySem (lists : WaitLists k) (reusable : NodesReusable M)
    (settled : Settled k) : WaitLists (blockProcessBySem pid rsp k).2 := by
  rcases blockProcessBySem_cases pid rsp k reusable with ⟨same, _⟩ | ⟨a, k', moved, same⟩
  · rw [same]
    exact lists
  · rw [same]
    exact lists.moved_yield settled reusable moved rfl (by decide) (by decide)
      (fun never => nomatch never) _

theorem WaitLists.unblockProcess (lists : WaitLists k) (reusable : NodesReusable M)
    (settled : Settled k) : WaitLists (unblockProcess pid k).2 := by
  rcases unblockProcess_cases pid k reusable with ⟨same, _⟩ | ⟨a, k', same, moved⟩
  · rw [same]
    exact lists
  · rw [same]
    exact lists.moved settled.table moved .refl moved.semaphores fun never => nomatch never

theorem WaitLists.unblockProcessBySem (lists : WaitLists k) (reusable : NodesReusable M)
    (settled : Settled k) (spared : ∀ id, pid ∉ k.sems.waiting id) :
    WaitLists (unblockProcessBySem pid k).2 := by
  rcases unblockProcessBySem_cases pid k reusable with ⟨same, _⟩ | ⟨a, k', same, moved⟩
  · rw [same]
    exact lists
  · rw [same]
    exact lists.moved settled.table moved .refl moved.semaphores fun _ => spared

theorem WaitLists.kill (lists : WaitLists k) (reusable : NodesReusable M) (settled : Settled k)
    (spared : ∀ id, pid ∉ k.sems.waiting id) : WaitLists (kill pid retValue rsp k).2 := by
  rcases kill_cases pid retValue rsp reusable settled with
    ⟨same, _⟩ | ⟨source, a, k₁, k₂, _, killed, wakes, same⟩
  · rw [same]
    exact lists
  · rw [same]
    have dead := killed.settled settled
    have first : WaitLists k₁ := by
      apply lists.relocates (by rw [sems_congr killed.semaphores])
        (killed.relocates settled.table.exclusive)
      rw [killed.named]
      exact spared
    have after : WaitLists k₂ := by
      cases wakes with
      | skip _ => exact first
      | wake _ moved =>
        exact first.moved dead.table moved .refl moved.semaphores fun never => nomatch never
    change WaitLists (if pid = k.currentPid then yield rsp k₂ else k₂)
    split
    · exact after.same (by rw [sems_congr (yield_semaphores reusable)])
        (yield_sameRecords (wakes.settled dead).table reusable)
    · exact after

theorem WaitLists.waitpid (lists : WaitLists k) (reusable : NodesReusable M)
    (settled : Settled k) (ready : k.processes.currentProcess ∈ k.items readyQueue) :
    WaitLists (waitpid pid rsp k).2 := by
  have way := waitpid_cases pid rsp reusable settled ready
  generalize Kernel.waitpid pid rsp k = result at way ⊢
  obtain ⟨outcome, after⟩ := result
  cases way with
  | absent _ => exact lists
  | stranger _ _ => exact lists
  | refused _ _ => exact lists
  | reaped _ _ _ reaped =>
    exact (lists.setWaiting _ _).reaped (settled.setWaiting _ _).table reaped
      (by rw [sems_congr reaped.semaphores])
  | asleep _ _ _ moved yielded =>
    have before := settled.setWaiting k.processes.currentProcess pid
    have blocked := moved.table before.table rfl (by decide) fun zombie =>
      absurd zombie (by decide)
    rw [yielded]
    exact (lists.setWaiting _ _).moved before.table moved (yield_sameRecords blocked reusable)
      ((yield_semaphores reusable).trans moved.semaphores) fun never => nomatch never

theorem WaitLists.waitpidResume (lists : WaitLists k) (settled : Settled k) :
    WaitLists (waitpidResume pid current k).2.2 := by
  rcases waitpidResume_cases pid current settled with ⟨_, same⟩ | ⟨k', _, reaped, same⟩
  · rw [same]
    exact lists
  · rw [same]
    exact (lists.setWaiting _ _).reaped (settled.setWaiting _ _).table reaped
      (by rw [sems_congr reaped.semaphores])

end Kernel

namespace System

variable [MemoryManager M] {s t : System M} {label : Label} {labels : List Label} {k : Kernel M}

/-- An event that names no waiter leaves all of them asleep. -/
theorem Step.lists (step : Step s label t) (reusable : NodesReusable M)
    (settled : Settled s.kernel) (lists : WaitLists s.kernel)
    (spares : SparesWaiters label.event s.kernel) : WaitLists t.kernel := by
  cases step with
  | timerTick =>
    exact lists.same (congrArg Semaphores.waiting
        (sems_congr (callTimerTick_semaphores reusable)))
      (callTimerTick_sameRecords settled.table reusable)
  | ctrlC => exact lists.kill reusable settled spares
  | @call rsp call runs _ admits =>
    have ready := runs.ready settled
    cases call with
    | yield =>
      exact lists.same (congrArg Semaphores.waiting (sems_congr (yield_semaphores reusable)))
        (yield_sameRecords settled.table reusable)
    | createProcess params =>
      have creates := createProcess_creates params settled admits runs.2
      exact lists.creates settled.table creates
        (congrArg Semaphores.waiting (sems_congr creates.semaphores))
    | blockProcess pid => exact lists.blockProcess reusable settled spares
    | unblockProcess pid => exact lists.unblockProcess reusable settled
    | blockProcessBySem => exact lists.blockProcessBySem reusable settled
    | unblockProcessBySem pid => exact lists.unblockProcessBySem reusable settled spares
    | kill pid retValue => exact lists.kill reusable settled spares
    | waitpid pid =>
      rw [perform_waitpid]
      exact lists.waitpid reusable settled ready
    | changePrio pid newPrio =>
      exact lists.same (congrArg Semaphores.waiting (sems_congr changePrio_semaphores))
        changePrio_sameRecords
    | semInit id value => exact lists.semInit
    | semWait id => exact lists.semWait reusable settled ready
    | semPost id => exact lists.semPost reusable settled
  | resume runs _ => exact lists.waitpidResume settled

/-- After boot nobody waits. -/
theorem started_lists {shell : Addr} (start : Start shell k) : WaitLists (started k).kernel := by
  have nobody : ∀ id, k.sems.waiting id = [] := fun id => (start.quiet id).1
  constructor
  · constructor
    · intro id
      change (k.sems.waiting id).Nodup
      rw [nobody]
      exact List.nodup_nil
    · intro one two pid first
      change pid ∈ k.sems.waiting one at first
      rw [nobody] at first
      cases first
  · intro id pid member
    change pid ∈ k.sems.waiting id at member
    rw [nobody] at member
    cases member

/-- A post has exactly one effect whenever the first waiter still sleeps on a semaphore
(or nobody waits and the value can grow); so it is in runs that never name a waiter. -/
theorem post_has_one_effect (reusable : NodesReusable M) (booted : Booted k) :
    (∀ labels t, Run Step (started k) labels t → ∀ id,
      PostEffect id t.kernel ↔ Receives id t.kernel) ∧
    (∀ labels t, Run (fun s label t => Step s label t ∧ SparesWaiters label.event s.kernel)
      (started k) labels t → ∀ id, (t.kernel.semaphores id).value + 1 < 2 ^ 32 →
        PostEffect id t.kernel) := by
  obtain ⟨shell, start⟩ := booted.start
  constructor
  · intro labels t run id
    exact postEffect_iff reusable (Settled.run run reusable start.settled)
  · intro labels t run id room
    obtain ⟨settled, lists⟩ : Settled t.kernel ∧ WaitLists t.kernel := by
      apply run.preserves (fun s => Settled s.kernel ∧ WaitLists s.kernel) _
        ⟨start.settled, started_lists start⟩
      intro s label t before step
      exact ⟨Step.settled step.1 reusable before.1,
        step.1.lists reusable before.1 before.2 step.2⟩
    apply (postEffect_iff reusable settled).mpr
    unfold Receives
    cases waiting : (t.kernel.semaphores id).waiting with
    | nil => exact room
    | cons pid rest =>
      have member : pid ∈ t.kernel.sems.waiting id := by
        change pid ∈ (t.kernel.semaphores id).waiting
        rw [waiting]
        exact List.mem_cons_self
      exact lists.asleep member

/-- A child sleeps on the semaphore: it gets the next post. -/
theorem post_reaches_waiter : ∃ s, Run Step (started Bump.kernel)
    [⟨.timerTick, 0⟩, ⟨.call (.semInit 100 0), 100⟩,
      ⟨.call (.createProcess ⟨some "child", 3, [], 0, true, 0, 1⟩), 200⟩, ⟨.call .yield, 300⟩,
      ⟨.call .yield, 400⟩, ⟨.call (.semWait 100), 500⟩] s ∧ PostEffect 100 s.kernel := by
  have run := run_of_exec (Option.some_get (show (exec [⟨.timerTick, 0⟩,
    ⟨.call (.semInit 100 0), 100⟩,
    ⟨.call (.createProcess ⟨some "child", 3, [], 0, true, 0, 1⟩), 200⟩, ⟨.call .yield, 300⟩,
    ⟨.call .yield, 400⟩, ⟨.call (.semWait 100), 500⟩]
    (started Bump.kernel)).isSome = true by decide +kernel)).symm
  generalize reached : Option.get _ _ = s at run
  refine ⟨s, run, ((post_has_one_effect Bump.nodesReusable Bump.booted).1 _ _ run 100).mpr ?_⟩
  have waiting : (s.kernel.semaphores 100).waiting = [2] := by
    rw [← reached]
    decide +kernel
  have asleep : ∃ a ∈ s.kernel.items blockedQueueBySem, (s.kernel.pcb a).pid = 2 := by
    refine ⟨s.kernel.getProcess 2, ?_⟩
    rw [← reached]
    decide +kernel
  unfold Receives
  rw [waiting]
  exact asleep

/-- The child that waits is blocked by hand: the post is lost. -/
theorem blocked_waiter_swallows_post : ¬ ∀ labels (s : System Bump) id,
    Run Step (started Bump.kernel) labels s → (s.kernel.semaphores id).used →
      PostEffect id s.kernel := by
  intro effects
  have run := run_of_exec (Option.some_get (show (exec [⟨.timerTick, 0⟩,
    ⟨.call (.semInit 100 0), 100⟩,
    ⟨.call (.createProcess ⟨some "child", 3, [], 0, true, 0, 1⟩), 200⟩, ⟨.call .yield, 300⟩,
    ⟨.call .yield, 400⟩, ⟨.call (.semWait 100), 500⟩, ⟨.call (.blockProcess 2), 600⟩]
    (started Bump.kernel)).isSome = true by decide +kernel)).symm
  generalize reached : Option.get _ _ = s at run
  have used : (s.kernel.semaphores 100).used = true := by
    rw [← reached]
    decide +kernel
  rcases effects _ _ 100 run used with ⟨grew, _⟩ | ⟨⟨a, ⟨asleep, _⟩, _⟩, _⟩
  · rw [← reached] at grew
    revert grew
    unfold Grew
    decide +kernel
  · have nobody : s.kernel.items blockedQueueBySem = [] := by
      rw [← reached]
      decide +kernel
    rw [nobody] at asleep
    cases asleep

end System
end SoKernel
