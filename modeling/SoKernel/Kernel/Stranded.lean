import Mathlib.Tactic
import SoKernel.Kernel.Usage
import SoKernel.Kernel.PostEffect

namespace SoKernel
open MemoryManager QueueName Lib Kernel SoKernel.System

variable {M : Type}

namespace Kernel

variable {k k₁ k' : Kernel M} {a b current : Addr} {pid parentPid childPid id : Int}
variable {rsp retValue value slot : Nat} {source target : QueueName} {state : ProcessState}
variable {params : CreationParams}

/-- Everyone asleep on a semaphore is on the wait list of one that is open. -/
def Anchored (k : Kernel M) : Prop :=
  ∀ a ∈ k.items blockedQueueBySem,
    ∃ id, (k.semaphores id).used = true ∧ (k.pcb a).pid ∈ k.sems.waiting id

/-- Nobody falls asleep on a semaphore. -/
def NoneLulled (k k' : Kernel M) : Prop :=
  ∀ a ∈ k'.items blockedQueueBySem,
    a ∈ k.items blockedQueueBySem ∧ (k'.pcb a).pid = (k.pcb a).pid

theorem NoneLulled.trans (first : NoneLulled k k₁) (second : NoneLulled k₁ k') :
    NoneLulled k k' := by
  intro a asleep
  obtain ⟨middle, same⟩ := second a asleep
  obtain ⟨before, equal⟩ := first a middle
  exact ⟨before, same.trans equal⟩

theorem SameRecords.noneLulled (same : SameRecords k k') : NoneLulled k k' :=
  fun a asleep => ⟨same.items.mp asleep, same.pid a⟩

theorem Relocates.noneLulled (relocates : Relocates a target k k')
    (other : target ≠ blockedQueueBySem) : NoneLulled k k' := by
  intro b asleep
  rcases relocates.items.mp asleep with ⟨before, _⟩ | ⟨same, _⟩
  · exact ⟨before, relocates.pid b⟩
  · exact absurd same.symm other

theorem Reaped.noneLulled (reaped : Reaped a k k') (exclusive : Exclusive k.items) :
    NoneLulled k k' := by
  intro b asleep
  obtain ⟨before, other⟩ := (reaped.mem_items exclusive).mp asleep
  rw [reaped.pcb other]
  exact ⟨before, rfl⟩

theorem setWaiting_noneLulled : NoneLulled k (k.setWaiting a pid) :=
  fun _ asleep => ⟨asleep, (setWaiting_fields _ _ _ _).1⟩

theorem Creates.noneLulled (creates : Creates params a rsp k k') (table : Table k) :
    NoneLulled k k' := by
  obtain ⟨_, shown, kept⟩ := creates.grows
  intro b asleep
  have before := shown asleep (.inl rfl)
  exact ⟨before, by rw [kept (table.queued before)]⟩

/-- The same semaphores, and nobody new. -/
theorem Anchored.keeps (anchored : Anchored k) (semaphores : k'.semaphores = k.semaphores)
    (lulled : NoneLulled k k') : Anchored k' := by
  intro a asleep
  obtain ⟨before, same⟩ := lulled a asleep
  rw [semaphores, sems_congr semaphores, same]
  exact anchored a before

variable [MemoryManager M]

/-! ## Operations on processes -/

theorem Moved.noneLulled_yield (moved : Moved pid source target state a k k₁) (settled : Settled k)
    (reusable : NodesReusable M) (fits : Fits target state) (still : state ≠ .running)
    (shown : target ≠ zombieQueue) (other : target ≠ blockedQueueBySem) (yields : Prop)
    [Decidable yields] : NoneLulled k (if yields then yield rsp k₁ else k₁) := by
  have after := moved.table settled.table fits still fun zombie => absurd zombie shown
  have moves := (moved.relocates .refl settled.table.exclusive .refl).noneLulled other
  split
  · exact moves.trans (yield_sameRecords after reusable).noneLulled
  · exact moves

theorem blockProcess_noneLulled (settled : Settled k) (reusable : NodesReusable M) :
    NoneLulled k (blockProcess pid rsp k).2 := by
  rcases blockProcess_cases pid rsp k reusable with ⟨same, _⟩ | ⟨source, a, k', _, moved, same⟩
  · rw [same]
    exact SameRecords.refl.noneLulled
  · rw [same]
    exact moved.noneLulled_yield settled reusable rfl (by decide) (by decide) (by decide) _

theorem unblockProcess_noneLulled (settled : Settled k) (reusable : NodesReusable M) :
    NoneLulled k (unblockProcess pid k).2 := by
  rcases unblockProcess_cases pid k reusable with ⟨same, _⟩ | ⟨a, k', same, moved⟩
  · rw [same]
    exact SameRecords.refl.noneLulled
  · rw [same]
    exact (moved.relocates .refl settled.table.exclusive .refl).noneLulled (by decide)

theorem unblockProcessBySem_noneLulled (settled : Settled k) (reusable : NodesReusable M) :
    NoneLulled k (unblockProcessBySem pid k).2 := by
  rcases unblockProcessBySem_cases pid k reusable with ⟨same, _⟩ | ⟨a, k', same, moved⟩
  · rw [same]
    exact SameRecords.refl.noneLulled
  · rw [same]
    exact (moved.relocates .refl settled.table.exclusive .refl).noneLulled (by decide)

theorem kill_noneLulled (settled : Settled k) (reusable : NodesReusable M) :
    NoneLulled k (kill pid retValue rsp k).2 := by
  rcases kill_cases pid retValue rsp reusable settled with
    ⟨same, _⟩ | ⟨source, a, k₁, k₂, _, killed, wakes, same⟩
  · rw [same]
    exact SameRecords.refl.noneLulled
  · rw [same]
    have dead := killed.settled settled
    have first := (killed.relocates settled.table.exclusive).noneLulled (by decide)
    have second : NoneLulled k₁ k₂ := by
      cases wakes with
      | skip _ => exact SameRecords.refl.noneLulled
      | wake _ moved =>
        exact (moved.relocates .refl dead.table.exclusive .refl).noneLulled (by decide)
    change NoneLulled k (if pid = k.currentPid then yield rsp k₂ else k₂)
    split
    · exact (first.trans second).trans
        (yield_sameRecords (wakes.settled dead).table reusable).noneLulled
    · exact first.trans second

theorem waitpid_noneLulled (settled : Settled k) (reusable : NodesReusable M)
    (ready : k.processes.currentProcess ∈ k.items readyQueue) :
    NoneLulled k (waitpid pid rsp k).2 := by
  have way := waitpid_cases pid rsp reusable settled ready
  generalize Kernel.waitpid pid rsp k = result at way ⊢
  obtain ⟨outcome, after⟩ := result
  cases way with
  | absent _ => exact SameRecords.refl.noneLulled
  | stranger _ _ => exact SameRecords.refl.noneLulled
  | refused _ _ => exact SameRecords.refl.noneLulled
  | reaped _ _ _ reaped =>
    exact setWaiting_noneLulled.trans
      (reaped.noneLulled (settled.setWaiting _ _).table.exclusive)
  | asleep _ _ _ moved yielded =>
    have before := settled.setWaiting k.processes.currentProcess pid
    have blocked := moved.table before.table rfl (by decide) fun zombie =>
      absurd zombie (by decide)
    have moves := (moved.relocates .refl before.table.exclusive .refl).noneLulled (by decide)
    rw [yielded]
    exact setWaiting_noneLulled.trans (moves.trans (yield_sameRecords blocked reusable).noneLulled)

theorem waitpidResume_noneLulled (settled : Settled k) :
    NoneLulled k (waitpidResume pid current k).2.2 := by
  rcases waitpidResume_cases pid current settled with ⟨_, same⟩ | ⟨k', _, reaped, same⟩
  · rw [same]
    exact SameRecords.refl.noneLulled
  · rw [same]
    exact setWaiting_noneLulled.trans
      (reaped.noneLulled (settled.setWaiting _ _).table.exclusive)

/-! ## Operations on semaphores -/

theorem Anchored.semInit (anchored : Anchored k) : Anchored (semInit id value k).2 := by
  have way := semInit_opened id value k
  generalize Kernel.semInit id value k = result at way ⊢
  cases way with
  | refused _ => exact anchored
  | opened closed changed empty same =>
    intro a asleep
    obtain ⟨other, used, waits⟩ := anchored a (same.items.mp asleep)
    have apart : other ≠ id := by
      intro equal
      rw [equal, closed] at used
      cases used
    refine ⟨other, ?_, ?_⟩
    · rw [changed, if_neg apart]
      exact used
    · rw [Opened.waiting changed empty, same.pid]
      dsimp only
      rw [Function.update_of_ne apart]
      exact waits

/-- A wait with a token, or where there is no memory for the pid, or on an open semaphore with
a list and memory for its node. -/
def WaitsSafely (id : Int) (k : Kernel M) : Prop :=
  0 < (k.semaphores id).value ∨ (allocMemory pidSize k.memory).1 = 0 ∨
    ((k.semaphores id).used = true ∧ (k.semaphores id).blocked.isSome = true ∧ k.HasRoom)

theorem semWait_refused (empty : (k.semaphores id).value = 0)
    (refused : (allocMemory pidSize k.memory).1 = 0) : (semWait id rsp k).1 = -1 := by
  unfold semWait wait
  rw [if_neg (by rw [acquire_semaphores]; exact Nat.not_lt.mpr (Nat.le_of_eq empty))]
  have same : (allocMemory pidSize (k.acquire id).memory).1 = 0 := refused
  simp only [same, if_true]

/-- A caller that goes to sleep is noted on an open semaphore. -/
theorem WaitsSafely.noted (safely : WaitsSafely id k) (empty : (k.semaphores id).value = 0)
    (status : (semWait id rsp k).1 = 0) : (k.semaphores id).used = true ∧
      (k.semaphores id).blocked ≠ none ∧ k.HasRoom := by
  rcases safely with token | refused | ⟨used, listed, room⟩
  · exact absurd empty (Nat.ne_of_gt token)
  · rw [semWait_refused empty refused] at status
    cases status
  · exact ⟨used, Option.isSome_iff_ne_none.mp listed, room⟩

theorem Anchored.semWait (anchored : Anchored k) (settled : Settled k) (reusable : NodesReusable M)
    (ready : k.processes.currentProcess ∈ k.items readyQueue) (safely : WaitsSafely id k) :
    Anchored (semWait id rsp k).2 := by
  obtain ⟨waited, use⟩ := semWait_waited id rsp reusable settled ready
  have same : ∀ {k'}, k'.sems.waiting = k.sems.waiting → SameRecords k k' → SameUse k k' →
      Anchored k' := by
    intro k' waiting same use a asleep
    obtain ⟨other, used, waits⟩ := anchored a (same.items.mp asleep)
    rw [waiting, same.pid]
    exact ⟨other, (use other).1.trans used, waits⟩
  cases waited with
  | taken _ token sems records =>
    rw [Semaphores.wait_taken token] at sems
    exact same (by rw [sems]) records use
  | failed _ _ _ sems records => exact same (by rw [sems]) records use
  | queued status empty _ sems relocates =>
    have used := (safely.noted empty status).1
    have waits : ∀ {pid other}, pid ∈ (Kernel.semWait id rsp k).2.sems.waiting other ↔
        pid ∈ k.sems.waiting other ∨
          (k.sems.value id = 0 ∧ other = id ∧ pid = k.getCurrentPid) := by
      intro pid other
      rw [sems]
      exact Semaphores.mem_wait
    intro a asleep
    rw [relocates.pid]
    rcases relocates.items.mp asleep with ⟨before, _⟩ | ⟨_, isCurrent⟩
    · obtain ⟨other, open', listed⟩ := anchored a before
      exact ⟨other, (use other).1.trans open', waits.mpr (.inl listed)⟩
    · rw [isCurrent]
      exact ⟨id, (use id).1.trans used,
        waits.mpr (.inr ⟨empty, rfl, settled.table.getCurrentPid.symm⟩)⟩
  | forgotten status empty missing _ _ =>
    obtain ⟨_, listed, room⟩ := safely.noted empty status
    rcases missing with unlisted | fails
    · exact absurd unlisted listed
    · exact absurd room fails

omit [MemoryManager M] in
/-- The first of a list is woken, or was not asleep; the others stay on it. -/
theorem Anchored.popped {rest : List Int} (anchored : Anchored k)
    (front : k.sems.waiting id = pid :: rest) (sems : k'.sems = k.sems.post id)
    (use : SameUse k k') (stays : ∀ a ∈ k'.items blockedQueueBySem,
      a ∈ k.items blockedQueueBySem ∧ (k'.pcb a).pid = (k.pcb a).pid ∧ (k.pcb a).pid ≠ pid) :
    Anchored k' := by
  intro a asleep
  obtain ⟨before, same, other⟩ := stays a asleep
  obtain ⟨sem, used, waits⟩ := anchored a before
  refine ⟨sem, (use sem).1.trans used, ?_⟩
  rw [same, sems, Semaphores.post_handed front]
  change (k.pcb a).pid ∈ Function.update k.sems.waiting id _ sem
  rw [Function.update_apply]
  split
  · rename_i here
    rw [here] at waits
    exact (List.mem_erase_of_ne other).mpr waits
  · exact waits

theorem Anchored.semPost (anchored : Anchored k) (settled : Settled k)
    (reusable : NodesReusable M) : Anchored (semPost id k).2 := by
  obtain ⟨posted, use⟩ := semPost_posted id reusable settled
  have table := settled.table
  cases posted with
  | counted empty sems same =>
    intro a asleep
    obtain ⟨other, used, waits⟩ := anchored a (same.items.mp asleep)
    refine ⟨other, (use other).1.trans used, ?_⟩
    rw [sems, same.pid]
    exact waits
  | @handed woken pid rest front sems sleeper named relocates =>
    apply anchored.popped front sems use
    intro a asleep
    rcases relocates.items.mp asleep with ⟨before, other⟩ | ⟨never, _⟩
    · refine ⟨before, relocates.pid a, ?_⟩
      intro same
      exact other (table.pidUnique (table.queued before) (table.queued sleeper)
        (same.trans named.symm))
    · cases never
  | lost front sems missing same =>
    apply anchored.popped front sems use
    intro a asleep
    have before := same.items.mp asleep
    exact ⟨before, same.pid a, missing a before⟩

/-! ## Closing -/

omit [MemoryManager M] in
/-- Nobody asleep is on the wait list, if the semaphore is open. -/
def Idle (id : Int) (k : Kernel M) : Prop :=
  (k.semaphores id).used = true →
    ∀ a ∈ k.items blockedQueueBySem, (k.pcb a).pid ∉ (k.semaphores id).waiting

theorem semClose_semaphores (id : Int) (k : Kernel M) :
    (semClose id k).2.semaphores = k.semaphores ∨
      (k.semaphores id).used = true ∧ (semClose id k).2.semaphores = Function.update k.semaphores id
        { k.semaphores id with used := false, value := 0, lock := false } := by
  unfold semClose
  split
  · exact .inl rfl
  · split
    · rename_i used
      exact .inr ⟨used, rfl⟩
    · exact .inl rfl

/-- The processes are left as they are. -/
theorem semClose_processes (id : Int) (k : Kernel M) :
    (semClose id k).2.items = k.items ∧ (semClose id k).2.pcb = k.pcb := by
  obtain ⟨_, _, _, _, _, same⟩ := Service.semClose_tableKept id k
  rw [same]
  exact ⟨rfl, rfl⟩

theorem Idle.semClose {other : Int} (idle : Idle id k) : Idle id (semClose other k).2 := by
  obtain ⟨items, pcb⟩ := semClose_processes other k
  unfold Idle
  rw [items, pcb]
  rcases semClose_semaphores other k with same | ⟨_, same⟩
  · rw [same]
    exact idle
  · rw [same, Function.update_apply]
    split
    · intro never
      cases never
    · exact idle

theorem Anchored.semClose (anchored : Anchored k) (idle : Idle id k) :
    Anchored (semClose id k).2 := by
  obtain ⟨items, pcb⟩ := semClose_processes id k
  rcases semClose_semaphores id k with same | ⟨used, same⟩
  · apply anchored.keeps same
    intro a asleep
    rw [items] at asleep
    exact ⟨asleep, by rw [pcb]⟩
  · intro a asleep
    rw [items] at asleep
    obtain ⟨other, opened, waits⟩ := anchored a asleep
    have apart : other ≠ id := by
      intro equal
      rw [equal] at waits
      exact idle used a asleep waits
    refine ⟨other, ?_, ?_⟩
    · rw [same, Function.update_of_ne apart]
      exact opened
    · rw [pcb]
      change _ ∈ ((Kernel.semClose id k).2.semaphores other).waiting
      rw [same, Function.update_of_ne apart]
      exact waits

theorem Anchored.createPipe (anchored : Anchored k) : Anchored (createPipe k).2 :=
  createPipe_preserves Anchored.semInit (fun _ _ _ _ anchored => anchored) anchored

omit [MemoryManager M] in
/-- Nobody asleep waits for the semaphores of the pipe that would be closed. -/
def PipeIdle (id : Int) (k : Kernel M) : Prop :=
  ∀ slot ∈ pipeSlot id k.pipes, 2 < slot → Idle (k.pipes slot).semReaders k ∧
    Idle (k.pipes slot).semWriters k ∧ Idle (k.pipes slot).mutex k

theorem Anchored.closePipe (anchored : Anchored k) (ready : k.pipeManagerInit = true)
    (idle : PipeIdle id k) : Anchored (closePipe id k).2 := by
  unfold Kernel.closePipe
  have ensured : k.ensurePipeManagerInit = k := if_pos ready
  rw [ensured]
  dsimp only
  split
  · exact anchored
  · rename_i slot found
    split
    · exact anchored
    · rename_i above
      obtain ⟨readers, writers, mutex⟩ := idle slot found (Nat.lt_of_not_le above)
      exact ((anchored.semClose readers).semClose writers.semClose).semClose mutex.semClose.semClose

end Kernel

namespace Service

open Kernel

variable [MemoryManager M]
variable {k k₀ : Kernel M} {s t : System M} {label : Label} {service : Service}
variable {services : List Service} {id : Int} {a : Addr}

/-! ## Whole runs -/

/-- `blockProcessBySem` is called by `wait` only. -/
def ThroughWait : Service → Prop
  | .event ⟨.call .blockProcessBySem, _⟩ => False
  | _ => True

/-- A wait that sleeps is noted on an open semaphore, what is closed has no sleepers, and no wait
list or table that was freed is used. -/
def Heedful (service : Service) (k : Kernel M) : Prop :=
  Usage.Careful (.service service) k ∧
    match service with
    | .event ⟨.call (.semWait id), _⟩ => WaitsSafely id k
    | .call (.semClose id) => Idle id k
    | .call (.closePipe id) => PipeIdle id k
    | _ => True

instance (service : Service) : Decidable (ThroughWait service) := by
  unfold ThroughWait
  split <;> infer_instance

instance (id : Int) (k : Kernel M) : Decidable (Idle id k) := inferInstanceAs (Decidable (_ → _))

instance (k : Kernel M) : Decidable k.HasRoom := inferInstanceAs (Decidable (_ ∧ _))

instance (id : Int) (k : Kernel M) : Decidable (WaitsSafely id k) :=
  inferInstanceAs (Decidable (_ ∨ _ ∨ _))

instance (id : Int) (k : Kernel M) : Decidable (PipeIdle id k) :=
  inferInstanceAs (Decidable (∀ slot ∈ pipeSlot id k.pipes, _))

instance (service : Service) (k : Kernel M) : Decidable (Heedful service k) := by
  unfold Heedful
  split <;> infer_instance

theorem anchored_event (step : System.Step s label t) (reusable : NodesReusable M)
    (settled : Settled s.kernel) (anchored : Anchored s.kernel)
    (through : ThroughWait (.event label)) (heedful : Heedful (.event label) s.kernel) :
    Anchored t.kernel := by
  cases step with
  | timerTick =>
    exact anchored.keeps (callTimerTick_semaphores reusable)
      (callTimerTick_sameRecords settled.table reusable).noneLulled
  | ctrlC =>
    exact anchored.keeps (kill_semaphores reusable settled) (kill_noneLulled settled reusable)
  | resume _ _ =>
    exact anchored.keeps (waitpidResume_semaphores settled) (waitpidResume_noneLulled settled)
  | @call rsp call runs _ admits =>
    have quiet : call.semaphore = none → NoneLulled s.kernel (s.perform call rsp).kernel →
        Anchored (s.perform call rsp).kernel := fun other lulled =>
      anchored.keeps (perform_semaphores settled reusable runs admits other) lulled
    cases call with
    | semInit id value => exact anchored.semInit
    | semWait id => exact anchored.semWait settled reusable (runs.ready settled) heedful.2
    | semPost id => exact anchored.semPost settled reusable
    | blockProcessBySem => exact through.elim
    | yield => exact quiet rfl (yield_sameRecords settled.table reusable).noneLulled
    | createProcess params =>
      exact quiet rfl
        ((createProcess_creates params settled admits runs.2).noneLulled settled.table)
    | blockProcess pid => exact quiet rfl (blockProcess_noneLulled settled reusable)
    | unblockProcess pid => exact quiet rfl (unblockProcess_noneLulled settled reusable)
    | unblockProcessBySem pid => exact quiet rfl (unblockProcessBySem_noneLulled settled reusable)
    | kill pid retValue => exact quiet rfl (kill_noneLulled settled reusable)
    | waitpid pid =>
      apply quiet rfl
      rw [perform_waitpid]
      exact waitpid_noneLulled settled reusable (runs.ready settled)
    | changePrio pid newPrio => exact quiet rfl changePrio_sameRecords.noneLulled

theorem anchored_step (step : Step s service t) (reusable : NodesReusable M) (inOrder : InOrder s)
    (anchored : Anchored s.kernel) (through : ThroughWait service)
    (heedful : Heedful service s.kernel) : Anchored t.kernel := by
  cases step with
  | event step => exact anchored_event step reusable inOrder.settled anchored through heedful
  | @call service _ _ =>
    cases service with
    | semClose id => exact anchored.semClose heedful.2
    | createPipe => exact anchored.createPipe
    | closePipe id => exact anchored.closePipe inOrder.ready heedful.2
    | buffer slot move => exact anchored

/-- Nobody sleeps yet. -/
theorem started_anchored (booted : Booted k) : Anchored (started k).kernel := by
  obtain ⟨shell, start⟩ := booted.start
  intro a asleep
  change a ∈ k.items blockedQueueBySem at asleep
  rw [start.items] at asleep
  cases asleep

/-! ## Waking -/

/-- Enough posts wake the process. -/
def Wakeable (id : Int) (a : Addr) (k : Kernel M) : Prop :=
  ∃ posts : Nat, a ∈ ((fun k => (semPost id k).2)^[posts] k).items readyQueue

theorem wakeable_of_post (wakeable : Wakeable id a (semPost id k).2) : Wakeable id a k := by
  obtain ⟨posts, woken⟩ := wakeable
  exact ⟨posts + 1, woken⟩

/-- Each post wakes one of those before it on the list, or drops one that is not asleep. -/
theorem wakeable_of_waiting {waiting : List Int} (settled : Settled k) (reusable : NodesReusable M)
    (list : k.sems.waiting id = waiting) (asleep : a ∈ k.items blockedQueueBySem)
    (waits : (k.pcb a).pid ∈ waiting) : Wakeable id a k := by
  induction waiting generalizing k with
  | nil => cases waits
  | cons pid rest ih =>
    have table := settled.table
    have after : (k.sems.post id).waiting id = rest := by
      rw [Semaphores.post_handed list]
      change Function.update k.sems.waiting id ((k.sems.waiting id).erase pid) id = rest
      rw [Function.update_self, list, List.erase_cons_head]
    apply wakeable_of_post
    have posted := (semPost_posted id reusable settled).1
    have next : Settled (semPost id k).2 := settled.semPost reusable
    cases posted with
    | counted empty _ _ =>
      rw [list] at empty
      cases empty
    | @handed woken pid rest front sems sleeper named relocates =>
      rw [front] at list
      cases list
      by_cases same : a = woken
      · exact ⟨0, relocates.items.mpr (.inr ⟨rfl, same⟩)⟩
      · apply ih next (by rw [sems]; exact after) (relocates.items.mpr (.inl ⟨asleep, same⟩))
        rw [relocates.pid]
        refine (List.mem_cons.mp waits).resolve_left fun equal => same ?_
        exact table.pidUnique (table.queued asleep) (table.queued sleeper) (equal.trans named.symm)
    | lost front sems missing same =>
      rw [front] at list
      cases list
      apply ih next (by rw [sems]; exact after) (same.items.mpr asleep)
      rw [same.pid]
      exact (List.mem_cons.mp waits).resolve_left (missing a asleep)

/-- Everyone asleep on a semaphore is on the list of an open one, which can wake it. -/
def NobodyStranded (k : Kernel M) : Prop :=
  ∀ a ∈ k.items blockedQueueBySem, ∃ id, (k.semaphores id).used = true ∧
    (k.pcb a).pid ∈ (k.semaphores id).waiting ∧ Wakeable id a k

theorem nobodyStranded (anchored : Anchored k) (settled : Settled k) (reusable : NodesReusable M) :
    NobodyStranded k := by
  intro a asleep
  obtain ⟨id, used, waits⟩ := anchored a asleep
  exact ⟨id, used, waits, wakeable_of_waiting settled reusable rfl asleep waits⟩

/-- While every wait and every closing is heedful, nobody is stranded. -/
theorem closing_strands_nobody (reusable : NodesReusable M) (booted : Booted k₀)
    (run : Run (fun s service t => Step s service t ∧ ThroughWait service ∧
      Heedful service s.kernel) (started k₀) services s) : NobodyStranded s.kernel := by
  have kept := run.preserves (fun s => InOrder s ∧ Anchored s.kernel)
    (fun before step => ⟨step.1.inOrder reusable before.1,
      anchored_step step.1 reusable before.1 before.2 step.2.1 step.2.2⟩)
    ⟨started_inOrder booted, started_anchored booted⟩
  exact nobodyStranded kept.2 kept.1.settled reusable

/-- A child sleeps on the semaphore while the shell runs. -/
theorem closing_strands_nobody_child : ∃ s, Run (fun s service t => Step s service t ∧
      ThroughWait service ∧ Heedful service s.kernel) (started Bump.kernel)
    [.event ⟨.timerTick, 0⟩, .event ⟨.call (.semInit 100 0), 100⟩,
      .event ⟨.call (.createProcess ⟨some "child", 3, [], 0, true, 0, 1⟩), 200⟩,
      .event ⟨.call .yield, 300⟩, .event ⟨.call .yield, 400⟩,
      .event ⟨.call (.semWait 100), 500⟩] s ∧ NobodyStranded s.kernel := by
  have run := run_of_exec (Option.some_get (show (exec
    (fun service s => ThroughWait service ∧ Heedful service s.kernel)
    [.event ⟨.timerTick, 0⟩, .event ⟨.call (.semInit 100 0), 100⟩,
      .event ⟨.call (.createProcess ⟨some "child", 3, [], 0, true, 0, 1⟩), 200⟩,
      .event ⟨.call .yield, 300⟩, .event ⟨.call .yield, 400⟩,
      .event ⟨.call (.semWait 100), 500⟩]
    (started Bump.kernel)).isSome = true by decide +kernel)).symm
  exact ⟨_, run, closing_strands_nobody Bump.nodesReusable Bump.booted run⟩

/-! ## Closing under a waiter -/

/-- Whoever sleeps on a semaphore that is closed is stranded. -/
theorem semClose_strands (lists : WaitLists k) (closed : (semClose id k).1 = 0)
    (asleep : a ∈ k.items blockedQueueBySem) (waits : (k.pcb a).pid ∈ (k.semaphores id).waiting) :
    ¬ NobodyStranded (semClose id k).2 := by
  intro nobody
  obtain ⟨items, pcb⟩ := semClose_processes id k
  obtain ⟨other, used, listed, _⟩ := nobody a (by rw [items]; exact asleep)
  rw [pcb] at listed
  have semaphores : (semClose id k).2.semaphores = Function.update k.semaphores id
      { k.semaphores id with used := false, value := 0, lock := false } := by
    unfold semClose at closed ⊢
    split at closed
    · cases closed
    · split at closed
      · rename_i inRange used
        rw [if_neg inRange, if_pos used]
        rfl
      · cases closed
  rw [semaphores] at used listed
  by_cases same : other = id
  · rw [same, Function.update_self] at used
    cases used
  · rw [Function.update_of_ne same] at listed
    exact same (lists.exclusive.unique listed waits)

theorem run_events {labels : List Label} (run : Run System.Step s labels t) :
    Run Step s (labels.map .event) t := by
  induction run with
  | nil => exact .nil
  | cons step _ ih => exact .cons (.event step) ih

/-- The shell closes the semaphore on which its child sleeps. -/
theorem closed_waiter_stranded : ¬ ∀ services (s : System Bump),
    Run (fun s service t => Step s service t ∧ ThroughWait service) (started Bump.kernel)
      services s → NobodyStranded s.kernel := by
  intro never
  have run := System.run_of_exec (Option.some_get (show (System.exec [⟨.timerTick, 0⟩,
    ⟨.call (.semInit 100 0), 100⟩,
    ⟨.call (.createProcess ⟨some "child", 3, [], 0, true, 0, 1⟩), 200⟩, ⟨.call .yield, 300⟩,
    ⟨.call .yield, 400⟩, ⟨.call (.semWait 100), 500⟩]
    (started Bump.kernel)).isSome = true by decide +kernel)).symm
  generalize reached : Option.get _ _ = s at run
  have lists : WaitLists s.kernel := by
    apply (Clients.reached_of_sparing Bump.nodesReusable Bump.booted run _).lists
    intro label member k
    fin_cases member <;> trivial
  have runs : UserRuns s.kernel ∧ s.pending s.kernel.processes.currentProcess = none := by
    rw [← reached]
    decide +kernel
  have closes : (semClose 100 s.kernel).1 = 0 := by
    rw [← reached]
    decide +kernel
  have asleep : s.kernel.getProcess 2 ∈ s.kernel.items blockedQueueBySem ∧
      (s.kernel.pcb (s.kernel.getProcess 2)).pid ∈ (s.kernel.semaphores 100).waiting := by
    rw [← reached]
    decide +kernel
  have close : Step s (.call (.semClose 100)) { s with kernel := (semClose 100 s.kernel).2 } :=
    .call runs.1 runs.2
  have full := (run_events run).append (.single close)
  refine semClose_strands lists closes asleep.1 asleep.2 (never _ _ (full.with_labels ?_))
  intro service member
  fin_cases member <;> trivial

end Service
end SoKernel
