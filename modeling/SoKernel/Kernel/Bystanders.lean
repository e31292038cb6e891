import SoKernel.Kernel.Shift
import SoKernel.Kernel.Stacks

namespace SoKernel
open MemoryManager QueueName Lib Kernel SoKernel.System

variable {M : Type}

/-! ## Whom an event leaves alone -/

namespace Kernel

variable {k k' k'' : Kernel M} {a b next : Addr} {pid parentPid childPid id : Int}
variable {rsp retValue value : Nat} {name source target : QueueName} {state : ProcessState}

/-- The process stays where it is, and whose it is. -/
structure Rests (a : Addr) (k k' : Kernel M) : Prop where
  queue : ∀ {name}, name ≠ zombieQueue → a ∈ k.items name → a ∈ k'.items name
  pid : (k'.pcb a).pid = (k.pcb a).pid
  parentPid : (k'.pcb a).parentPid = (k.pcb a).parentPid
  waitingForPid : (k'.pcb a).waitingForPid = (k.pcb a).waitingForPid

theorem Rests.refl : Rests a k k := ⟨fun _ here => here, rfl, rfl, rfl⟩

theorem Rests.trans (one : Rests a k k') (two : Rests a k' k'') : Rests a k k'' where
  queue alive here := two.queue alive (one.queue alive here)
  pid := two.pid.trans one.pid
  parentPid := two.parentPid.trans one.parentPid
  waitingForPid := two.waitingForPid.trans one.waitingForPid

/-- The same record, and no queue lost. -/
theorem Rests.of_pcb (pcb : k'.pcb a = k.pcb a)
    (queue : ∀ {name}, name ≠ zombieQueue → a ∈ k.items name → a ∈ k'.items name) :
    Rests a k k' := ⟨queue, by rw [pcb], by rw [pcb], by rw [pcb]⟩

theorem SameRecords.rests (same : SameRecords k k') : Rests a k k' where
  queue _ here := same.items.mpr here
  pid := same.pid a
  parentPid := same.parentPid a
  waitingForPid := same.waitingForPid a

theorem Moved.rests (moved : Moved pid source target state b k k') (table : Table k)
    (other : a ≠ b) : Rests a k k' :=
  .of_pcb (by rw [moved.pcb, if_neg other]) fun _ here =>
    (moved.mem_items table.exclusive).mpr (.inl ⟨here, other⟩)

theorem Killed.rests (killed : Killed pid retValue source b k k') (table : Table k)
    (other : a ≠ b) : Rests a k k' :=
  .of_pcb (by rw [killed.pcb, if_neg other]) fun _ here =>
    (killed.mem_items table.exclusive).mpr (.inl ⟨here, other⟩)

/-- Only a parent that waits is woken. -/
theorem Wakes.rests (wakes : Wakes parentPid childPid k k') (table : Table k)
    (waits : (k.pcb a).waitingForPid ≠ childPid) : Rests a k k' := by
  cases wakes with
  | skip _ => exact .refl
  | wake waiting moved =>
    refine moved.rests table fun same => waits ?_
    rw [same]
    exact waiting

theorem Reaped.rests (reaped : Reaped b k k') (table : Table k) (other : a ≠ b) :
    Rests a k k' :=
  .of_pcb (reaped.pcb other) fun _ here => (reaped.mem_items table.exclusive).mpr ⟨here, other⟩

theorem setWaiting_rests (other : a ≠ b) : Rests a k (k.setWaiting b pid) := by
  refine .of_pcb ?_ fun _ here => here
  unfold setWaiting
  rw [editPcb_pcb, if_neg other]

/-- Who is on the ready queue or blocked is neither asleep on a semaphore nor dead. -/
def Steady (k : Kernel M) (a : Addr) : Prop := ∃ name, a ∈ k.items name ∧
  (name = readyQueue ∨ name = blockedQueue)

theorem Steady.not_mem (steady : k.Steady a) (table : Table k) (dead : source = blockedQueueBySem ∨
    source = zombieQueue) (here : b ∈ k.items source) : a ≠ b := by
  rintro rfl
  obtain ⟨name, member, where'⟩ := steady
  have same := table.exclusive.unique member here
  rcases where' with rfl | rfl <;> rcases dead with rfl | rfl <;> cases same

variable [MemoryManager M] {label : Label}

/-- The pid that an event moves. -/
def named (label : Label) (k : Kernel M) : Option Int :=
  match label.event with
  | .ctrlC => some k.getForegroundPid
  | .call (.blockProcess pid) | .call (.unblockProcess pid) | .call (.kill pid _) => some pid
  | _ => none

/-- The event is an act of the process that runs. -/
def acted (label : Label) : Bool :=
  match label.event with
  | .timerTick | .ctrlC => false
  | .call _ | .resume => true

/-- An event that a process does not notice: it is not its act, and does not name it. -/
structure Unnoticed (label : Label) (k : Kernel M) (a : Addr) : Prop where
  caller : acted label → a ≠ k.processes.currentProcess
  named : ∀ pid, named label k = some pid → (k.pcb a).pid ≠ pid

/-- A process that is moved, and gives up the processor if it had it. -/
theorem Moved.rests_yield (moved : Moved pid source target state b k k') (table : Table k)
    (fits : Fits target state) (still : state ≠ .running) (alive : target ≠ zombieQueue)
    (other : a ≠ b) (reusable : NodesReusable M) (self : Prop) [Decidable self] :
    Rests a k (if self then yield rsp k' else k') := by
  have rests := moved.rests table other
  split
  · exact rests.trans (yield_sameRecords
      (moved.table table fits still fun dead => absurd dead alive) reusable).rests
  · exact rests

theorem kill_rests (settled : Settled k) (reusable : NodesReusable M)
    (other : (k.pcb a).pid ≠ pid) (free : (k.pcb a).waitingForPid = -1) :
    Rests a k (kill pid retValue rsp k).2 := by
  rcases kill_cases pid retValue rsp reusable settled with
    ⟨same, _⟩ | ⟨source, b, k₁, k₂, user, killed, wakes, same⟩
  · rw [same]
    exact .refl
  · have apart : a ≠ b := fun equal => other (by rw [equal]; exact killed.named)
    have first := killed.rests settled.table apart
    have dead := killed.settled settled
    have second := wakes.rests (a := a) dead.table (by rw [first.waitingForPid, free]; omega)
    rw [same]
    dsimp only
    split
    · exact (first.trans second).trans (yield_sameRecords (wakes.settled dead).table reusable).rests
    · exact first.trans second

theorem blockProcess_rests (settled : Settled k) (reusable : NodesReusable M)
    (other : (k.pcb a).pid ≠ pid) : Rests a k (blockProcess pid rsp k).2 := by
  rcases blockProcess_cases pid rsp k reusable with ⟨same, _⟩ | ⟨source, b, k', _, moved, same⟩
  · rw [same]
    exact .refl
  · rw [same]
    have apart : a ≠ b := fun equal => other (by rw [equal]; exact moved.named)
    exact moved.rests_yield settled.table rfl (by decide) (by decide) apart reusable _

theorem unblockProcess_rests (settled : Settled k) (reusable : NodesReusable M)
    (other : (k.pcb a).pid ≠ pid) : Rests a k (unblockProcess pid k).2 := by
  rcases unblockProcess_cases pid k reusable with ⟨same, _⟩ | ⟨b, k', same, moved⟩
  · rw [same]
    exact .refl
  · rw [same]
    exact moved.rests settled.table fun equal => other (by rw [equal]; exact moved.named)

theorem blockProcessBySem_rests (settled : Settled k) (reusable : NodesReusable M)
    (other : (k.pcb a).pid ≠ pid) : Rests a k (blockProcessBySem pid rsp k).2 := by
  rcases blockProcessBySem_cases pid rsp k reusable with ⟨same, _⟩ | ⟨b, k', moved, same⟩
  · rw [same]
    exact .refl
  · rw [same]
    have apart : a ≠ b := fun equal => other (by rw [equal]; exact moved.named)
    exact moved.rests_yield settled.table rfl (by decide) (by decide) apart reusable _

theorem unblockProcessBySem_rests (settled : Settled k) (reusable : NodesReusable M)
    (steady : k.Steady a) : Rests a k (unblockProcessBySem pid k).2 := by
  rcases unblockProcessBySem_cases pid k reusable with ⟨same, _⟩ | ⟨b, k', same, moved⟩
  · rw [same]
    exact .refl
  · rw [same]
    exact moved.rests settled.table (steady.not_mem settled.table (.inl rfl) moved.member)

omit [MemoryManager M] in
theorem Steady.queued (steady : k.Steady a) (table : Table k) : a ∈ k.pcbs := by
  obtain ⟨_, member, _⟩ := steady
  exact table.queued member

omit [MemoryManager M] in
theorem Spares.rests (spares : Spares b k k') (member : a ∈ k.pcbs)
    (queue : ∀ {name}, a ∈ k.items name → a ∈ k'.items name) : Rests a k k' :=
  .of_pcb (spares.kept member) fun _ here => queue here

theorem createProcess_rests {params : CreationParams} (settled : Settled k) (admits : k.FreshPcb)
    (user : k.processes.currentProcess ≠ k.processes.idleProcess) (member : a ∈ k.pcbs) :
    Rests a k (createProcess params k).2 := by
  cases createProcess_creates params settled admits user with
  | failed spares items _ _ =>
    refine spares.rests member fun here => ?_
    rw [items]
    exact here
  | created spares _ record _ _ =>
    refine spares.rests member fun here => ?_
    obtain ⟨_, _, _, _, ⟨items, _⟩ | ⟨items, _⟩ | ⟨items, _⟩⟩ := record
    · rw [items]
      exact here
    · rw [items]
      exact mem_push.mpr (.inl here)
    · rw [items]
      exact mem_push.mpr (.inl here)

omit [MemoryManager M] in
/-- The caller forgets or notes whom it waits for, and one more process is taken off the table. -/
theorem Reaped.rests_waiting {current : Addr}
    (reaped : Reaped b (k.setWaiting current pid) k') (settled : Settled k) (apart : a ≠ current)
    (other : a ≠ b) : Rests a k k' :=
  (setWaiting_rests apart).trans (reaped.rests (settled.setWaiting current pid).table other)

omit [MemoryManager M] in
/-- Who is dead is not on the ready queue nor blocked. -/
theorem Steady.ne_zombie (steady : k.Steady a) (settled : Settled k)
    (dead : (k.pcb b).state = .zombie) : a ≠ b := by
  rintro rfl
  have listed : k.Listed a := .inr (.inr (steady.imp fun _ here => here.1))
  exact steady.not_mem settled.table (.inr rfl) (settled.zombie listed dead) rfl

theorem waitpid_rests (settled : Settled k) (reusable : NodesReusable M) (runs : k.UserRuns)
    (steady : k.Steady a) (apart : a ≠ k.processes.currentProcess) :
    Rests a k (waitpid pid rsp k).2 := by
  have way := waitpid_cases pid rsp reusable settled (runs.ready settled)
  generalize waitpid pid rsp k = result at way ⊢
  obtain ⟨outcome, after⟩ := result
  cases way with
  | absent _ => exact .refl
  | stranger _ _ => exact .refl
  | refused _ _ => exact .refl
  | reaped _ dead _ reaped =>
    exact reaped.rests_waiting settled apart (steady.ne_zombie settled dead)
  | asleep _ _ _ moved same =>
    have before := settled.setWaiting k.processes.currentProcess pid
    rw [same]
    refine ((setWaiting_rests apart).trans (moved.rests before.table apart)).trans ?_
    exact (yield_sameRecords
      (moved.table before.table rfl (by decide) fun dead => absurd dead (by decide)) reusable).rests

/-- A process that is on the ready queue or blocked, and waits for nobody, stays there in every
event that it does not notice. -/
theorem event_rests {s t : System M} (step : System.Step s label t)
    (settled : Settled s.kernel) (reusable : NodesReusable M) (steady : s.kernel.Steady a)
    (free : (s.kernel.pcb a).waitingForPid = -1) (unnoticed : Unnoticed label s.kernel a) :
    Rests a s.kernel t.kernel := by
  have other := unnoticed.named
  cases step with
  | timerTick => exact (callTimerTick_sameRecords settled.table reusable).rests
  | ctrlC => exact kill_rests settled reusable (other _ rfl) free
  | resume runs _ =>
    have apart := unnoticed.caller rfl
    rcases waitpidResume_cases _ s.kernel.processes.currentProcess settled with
      ⟨_, same⟩ | ⟨k', dead, reaped, same⟩
    · rw [same]
      exact .refl
    · rw [same]
      exact reaped.rests_waiting settled apart (steady.ne_zombie settled dead)
  | @call rsp call runs _ admits =>
    have apart := unnoticed.caller rfl
    cases call with
    | yield => exact (yield_sameRecords settled.table reusable).rests
    | createProcess params =>
      exact createProcess_rests settled admits runs.2 (steady.queued settled.table)
    | blockProcess pid => exact blockProcess_rests settled reusable (other _ rfl)
    | unblockProcess pid => exact unblockProcess_rests settled reusable (other _ rfl)
    | blockProcessBySem =>
      refine blockProcessBySem_rests settled reusable fun same => apart ?_
      exact settled.table.pidUnique (steady.queued settled.table) settled.table.current
        (same.trans settled.table.getCurrentPid)
    | unblockProcessBySem pid => exact unblockProcessBySem_rests settled reusable steady
    | kill pid retValue => exact kill_rests settled reusable (other _ rfl) free
    | waitpid pid =>
      rw [perform_waitpid]
      exact waitpid_rests settled reusable runs steady apart
    | changePrio pid newPrio => exact changePrio_sameRecords.rests
    | semInit id value =>
      have way := semInit_cases id value s.kernel
      change Rests a s.kernel (semInit id value s.kernel).2
      generalize semInit id value s.kernel = result at way ⊢
      cases way with
      | refused _ => exact .refl
      | failed _ _ => exact sameRecords_withSem.rests
      | opened _ => exact sameRecords_withSem.rests
    | semWait id =>
      change Rests a s.kernel (wait id rsp s.kernel).2
      by_cases sleeps : (s.kernel.semaphores id).value = 0 ∧
          (allocMemory pidSize s.kernel.memory).1 ≠ 0
      · obtain ⟨memory, sem, same⟩ := wait_sleeps rsp sleeps.1 sleeps.2
        rw [same]
        have edited : Rests a s.kernel (s.kernel.withSem memory id sem) := sameRecords_withSem.rests
        refine edited.trans (blockProcessBySem_rests settled.withSem reusable fun same => ?_)
        exact apart (settled.table.pidUnique (steady.queued settled.table) settled.table.current
          (same.trans settled.table.getCurrentPid))
      · obtain ⟨memory, sem, same⟩ := wait_returns rsp sleeps
        rw [same]
        exact sameRecords_withSem.rests
    | semPost id =>
      have way := post_cases id s.kernel
      change Rests a s.kernel (post id s.kernel).2
      generalize post id s.kernel = result at way ⊢
      cases way with
      | counted _ => exact sameRecords_withSem.rests
      | handed _ =>
        exact sameRecords_withSem.rests.trans
          (unblockProcessBySem_rests settled.withSem reusable steady)

end Kernel
end SoKernel
