import SoKernel.Kernel.MachineRuns
import SoKernel.Kernel.ProcessTable
import SoKernel.Kernel.Usage

namespace SoKernel
open MemoryManager QueueName Lib Kernel SoKernel.System

variable {M : Type}

namespace Kernel

variable {k k' : Kernel M} {a b p next : Addr} {pid parentPid childPid id : Int} {rsp retValue : Nat}
variable {value : Nat} {name source target : QueueName} {state : ProcessState}

/-! ## The scheduler and the process manager name the same process -/

def OnRecord (k : Kernel M) : Prop := k.currentPid = k.getCurrentPid

theorem Settled.onRecord (settled : Settled k) (runs : k.UserRuns) : k.OnRecord := by
  unfold OnRecord
  rw [settled.dispatched runs.1, settled.table.getCurrentPid]

theorem Switched.onRecord (switched : Switched rsp k k' next) (table : Table k) : k'.OnRecord := by
  unfold OnRecord
  rw [(table.switch switched).table.getCurrentPid, switched.current, switched.pid,
    switched.currentPid]

theorem Moved.onRecord (moved : Moved pid source target state a k k') (record : k.OnRecord) :
    k'.OnRecord := by
  unfold OnRecord
  rw [moved.currentPid, moved.getCurrentPid]
  exact record

theorem onRecord_withSem {memory : M} {sem : Sem} (record : k.OnRecord) :
    (k.withSem memory id sem).OnRecord := record

/-- An edit that keeps every pid. -/
theorem OnRecord.editPcb (record : k.OnRecord) {change : PCB → PCB}
    (kept : (change (k.pcb a)).pid = (k.pcb a).pid) : (k.editPcb a change).OnRecord := by
  have same : ∀ b, ((k.editPcb a change).pcb b).pid = (k.pcb b).pid := by
    intro b
    rw [editPcb_pcb]
    split
    · rename_i equal
      rw [equal]
      exact kept
    · rfl
  have currentPid : (k.editPcb a change).getCurrentPid = k.getCurrentPid := by
    unfold getCurrentPid
    rw [editPcb_processes, same]
  exact record.trans currentPid.symm

theorem Reaped.onRecord (reaped : Reaped a k k') (record : k.OnRecord)
    (other : k.processes.currentProcess ≠ a) : k'.OnRecord := by
  obtain ⟨_, _, scheduled, current, _, _⟩ := reaped.fields
  unfold OnRecord getCurrentPid
  rw [scheduled, current, reaped.pcb other]
  exact record

theorem Wakes.onRecord (wakes : Wakes parentPid childPid k k') (record : k.OnRecord) :
    k'.OnRecord := by
  cases wakes with
  | skip _ => exact record
  | wake _ moved => exact moved.onRecord record

/-- The manager's current process is not the one that was killed. -/
theorem Killed.stays (killed : Killed pid retValue source a k k')
    (other : k.processes.currentProcess ≠ a) :
    Moved pid source zombieQueue .zombie a (k.exiting retValue a) k' := by
  obtain ⟨k₁, moved, rfl⟩ := killed.moved
  have current := (exiting_fields retValue a k).2.1
  have same : k₁.vacate a = k₁ := by
    unfold vacate
    rw [if_neg]
    rw [moved.current, current]
    exact other
  rw [same]
  exact moved

theorem exiting_onRecord (record : k.OnRecord) : (k.exiting retValue a).OnRecord := by
  unfold exiting
  apply OnRecord.editPcb _ rfl
  split
  · exact record
  · exact record

theorem Creates.onRecord {params : CreationParams} (creates : Creates params a rsp k k')
    (record : k.OnRecord) (current : k.processes.currentProcess ∈ k.pcbs) : k'.OnRecord := by
  have spares : Spares a k k' := by
    cases creates with
    | failed spares _ _ _ => exact spares
    | created spares _ _ _ _ => exact spares
  unfold OnRecord getCurrentPid
  rw [spares.currentPid, spares.current, spares.kept current]
  exact record

variable [MemoryManager M]

theorem yield_onRecord (table : Table k) (reusable : NodesReusable M) :
    (yield rsp k).OnRecord := by
  obtain ⟨next, switched⟩ := yield_switches rsp k reusable
  exact switched.onRecord table

theorem tick_onRecord (settled : Settled k) (reusable : NodesReusable M) :
    (callTimerTick rsp k).OnRecord := by
  rcases callTimerTick_cases rsp k reusable with ⟨stays, same⟩ | ⟨_, next, switched⟩
  · rw [same]
    exact (settled.dispatched stays.2).trans settled.table.getCurrentPid.symm
  · exact switched.onRecord settled.table

theorem Moved.yield_onRecord (moved : Moved pid source target state a k k')
    (reusable : NodesReusable M) (table : Table k) (fits : Fits target state)
    (still : state ≠ .running) (shown : target ≠ zombieQueue) (record : k.OnRecord)
    (yields : Prop) [Decidable yields] :
    (if yields then Kernel.yield rsp k' else k').OnRecord := by
  split
  · exact Kernel.yield_onRecord
      (moved.table table fits still fun zombie => absurd zombie shown) reusable
  · exact moved.onRecord record

theorem blockProcess_onRecord (settled : Settled k) (reusable : NodesReusable M)
    (record : k.OnRecord) : (blockProcess pid rsp k).2.OnRecord := by
  rcases blockProcess_cases pid rsp k reusable with ⟨same, _⟩ | ⟨source, a, k', _, moved, same⟩
  · rw [same]
    exact record
  · rw [same]
    exact moved.yield_onRecord reusable settled.table rfl (by decide) (by decide) record _

theorem blockProcessBySem_onRecord (settled : Settled k) (reusable : NodesReusable M)
    (record : k.OnRecord) : (blockProcessBySem pid rsp k).2.OnRecord := by
  rcases blockProcessBySem_cases pid rsp k reusable with ⟨same, _⟩ | ⟨a, k', moved, same⟩
  · rw [same]
    exact record
  · rw [same]
    exact moved.yield_onRecord reusable settled.table rfl (by decide) (by decide) record _

theorem unblockProcess_onRecord (reusable : NodesReusable M) (record : k.OnRecord) :
    (unblockProcess pid k).2.OnRecord := by
  rcases unblockProcess_cases pid k reusable with ⟨same, _⟩ | ⟨a, k', same, moved⟩
  · rw [same]
    exact record
  · rw [same]
    exact moved.onRecord record

theorem unblockProcessBySem_onRecord (reusable : NodesReusable M) (record : k.OnRecord) :
    (unblockProcessBySem pid k).2.OnRecord := by
  rcases unblockProcessBySem_cases pid k reusable with ⟨same, _⟩ | ⟨a, k', same, moved⟩
  · rw [same]
    exact record
  · rw [same]
    exact moved.onRecord record

theorem semInit_onRecord (record : k.OnRecord) : (semInit id value k).2.OnRecord := by
  have way := semInit_cases id value k
  generalize semInit id value k = result at way ⊢
  cases way with
  | refused _ => exact record
  | failed _ _ => exact onRecord_withSem record
  | opened _ => exact onRecord_withSem record

theorem semWait_onRecord (settled : Settled k) (reusable : NodesReusable M) (record : k.OnRecord) :
    (semWait id rsp k).2.OnRecord := by
  have way := wait_cases id rsp k
  change (wait id rsp k).2.OnRecord
  generalize wait id rsp k = result at way ⊢
  cases way with
  | taken _ => exact onRecord_withSem record
  | failed _ _ => exact onRecord_withSem record
  | unlisted _ _ => exact blockProcessBySem_onRecord settled.withSem reusable (onRecord_withSem record)
  | asleep _ _ => exact blockProcessBySem_onRecord settled.withSem reusable (onRecord_withSem record)

theorem semPost_onRecord (reusable : NodesReusable M) (record : k.OnRecord) :
    (semPost id k).2.OnRecord := by
  have way := post_cases id k
  change (post id k).2.OnRecord
  generalize post id k = result at way ⊢
  cases way with
  | counted _ => exact onRecord_withSem record
  | handed _ => exact unblockProcessBySem_onRecord reusable (onRecord_withSem record)

theorem kill_onRecord (settled : Settled k) (reusable : NodesReusable M) (record : k.OnRecord) :
    (kill pid retValue rsp k).2.OnRecord := by
  rcases kill_cases pid retValue rsp reusable settled with
    ⟨same, _⟩ | ⟨source, a, k₁, k₂, _, killed, wakes, same⟩
  · rw [same]
    exact record
  · rw [same]
    by_cases self : pid = k.currentPid
    · simp only [self, if_true]
      exact yield_onRecord (wakes.settled (killed.settled settled)).table reusable
    · simp only [self, if_false]
      have other : k.processes.currentProcess ≠ a := by
        intro equal
        apply self
        rw [record, settled.table.getCurrentPid, equal, killed.named]
      exact wakes.onRecord ((killed.stays other).onRecord (exiting_onRecord record))

theorem waitpid_onRecord (settled : Settled k) (reusable : NodesReusable M)
    (ready : k.processes.currentProcess ∈ k.items readyQueue) (record : k.OnRecord) :
    (waitpid pid rsp k).2.OnRecord := by
  have way := waitpid_cases pid rsp reusable settled ready
  generalize waitpid pid rsp k = result at way ⊢
  obtain ⟨outcome, after⟩ := result
  cases way with
  | absent _ => exact record
  | stranger _ _ => exact record
  | refused _ _ => exact record
  | reaped _ _ _ reaped =>
    apply reaped.onRecord (record.editPcb rfl)
    exact settled.current_ne reaped.member (by decide)
  | asleep _ _ _ moved same =>
    rw [same]
    apply yield_onRecord _ reusable
    exact moved.table (settled.setWaiting _ _).table rfl (by decide)
      fun zombie => absurd zombie (by decide)

omit [MemoryManager M] in
theorem changePrio_onRecord {newPrio : Int} (record : k.OnRecord) :
    (changePrio pid newPrio k).2.OnRecord := by
  unfold changePrio
  by_cases kernel : pid ≤ 1
  · simp only [kernel, if_true]
    exact record
  · by_cases absent : k.getProcess pid = 0
    · simp only [kernel, absent, if_true, if_false]
      exact record
    · simp only [kernel, absent, if_false]
      exact record.editPcb rfl

end Kernel

namespace System

variable [MemoryManager M] {s t : System M} {label : Label} {labels : List Label}

theorem perform_onRecord {call : Call} {rsp : Nat} (settled : Settled s.kernel)
    (reusable : NodesReusable M) (runs : UserRuns s.kernel) (admits : Admits call s.kernel) :
    (s.perform call rsp).kernel.OnRecord := by
  have record := settled.onRecord runs
  cases call with
  | yield => exact yield_onRecord settled.table reusable
  | createProcess params =>
    exact (createProcess_creates params settled admits runs.2).onRecord record settled.table.current
  | blockProcess pid => exact blockProcess_onRecord settled reusable record
  | unblockProcess pid => exact unblockProcess_onRecord reusable record
  | blockProcessBySem => exact blockProcessBySem_onRecord settled reusable record
  | unblockProcessBySem pid => exact unblockProcessBySem_onRecord reusable record
  | kill pid retValue => exact kill_onRecord settled reusable record
  | waitpid pid =>
    rw [perform_waitpid]
    exact waitpid_onRecord settled reusable (runs.ready settled) record
  | changePrio pid newPrio => exact changePrio_onRecord record
  | semInit id value => exact semInit_onRecord record
  | semWait id => exact semWait_onRecord settled reusable record
  | semPost id => exact semPost_onRecord reusable record

/-- The current process is on record, or nobody but idle and the shell exists yet. -/
def Recorded (k : Kernel M) : Prop := k.OnRecord ∨ ∀ a ∈ k.pcbs, (k.pcb a).pid ≤ 1

theorem Step.recorded (step : Step s label t) (reusable : NodesReusable M)
    (settled : Settled s.kernel) (recorded : Recorded s.kernel) : Recorded t.kernel := by
  cases step with
  | timerTick => exact .inl (tick_onRecord settled reusable)
  | ctrlC =>
    change Recorded (Kernel.kill s.kernel.getForegroundPid 1 _ s.kernel).2
    rcases recorded with record | few
    · exact .inl (kill_onRecord settled reusable record)
    · right
      rcases kill_cases s.kernel.getForegroundPid 1 _ reusable settled with
        ⟨same, _⟩ | ⟨_, a, _, _, user, killed, _⟩
      · rw [same]
        exact few
      · have small := few a (settled.table.queued killed.member)
        rw [killed.named] at small
        omega
  | call runs _ admits => exact .inl (perform_onRecord settled reusable runs admits)
  | resume runs _ =>
    left
    have record := settled.onRecord runs
    rcases waitpidResume_cases _ s.kernel.processes.currentProcess settled with
      ⟨_, same⟩ | ⟨k', _, reaped, same⟩
    · rw [same]
      exact record
    · rw [same]
      apply reaped.onRecord (record.editPcb rfl)
      exact settled.current_ne reaped.member (by decide)

/-- Nobody but idle and the shell exists yet. -/
theorem started_recorded {k : Kernel M} {shell : Addr} (start : Start shell k) :
    Settled (started k).kernel ∧ Recorded (started k).kernel := by
  refine ⟨start.settled, .inr ?_⟩
  intro a member
  have bound := start.settled.table.pidBound member
  rw [start.nextFreePid] at bound
  change (k.pcb a).pid ≤ 1
  omega

theorem Recorded.run {k : Kernel M} (reusable : NodesReusable M) (booted : Booted k)
    (run : Run Step (started k) labels t) : Settled t.kernel ∧ Recorded t.kernel := by
  obtain ⟨shell, start⟩ := booted.start
  apply run.preserves (fun s => Settled s.kernel ∧ Recorded s.kernel)
  · rintro s label t ⟨settled, recorded⟩ step
    exact ⟨Step.settled step reusable settled, step.recorded reusable settled recorded⟩
  · exact started_recorded start

omit [MemoryManager M] in
theorem Recorded.tableKept {k k' : Kernel M} (recorded : Recorded k) (kept : TableKept k k') :
    Recorded k' := by
  obtain ⟨_, _, _, _, _, rfl⟩ := kept
  exact recorded

end System

/-! ## What `kill` changes -/

namespace Kernel

variable {k k' k₁ : Kernel M} {a b p : Addr} {pid : Int} {retValue rsp : Nat} {source : QueueName}

/-- `p` is the parent of `a`, blocked until `a` ends. -/
def Awaiting (k : Kernel M) (a p : Addr) : Prop :=
  p ≠ a ∧ (∃ name, p ∈ k.items name) ∧ (k.pcb p).pid = (k.pcb a).parentPid ∧
    (k.pcb p).state = .blocked ∧ (k.pcb p).waitingForPid = (k.pcb a).pid

/-- The target becomes a zombie, a parent that waits for it becomes ready, and nothing
else changes. The parent is not idle, so that nobody is reaped at once. -/
structure KillEffect (retValue : Nat) (a : Addr) (k k' : Kernel M) : Prop where
  orphan : (k.pcb a).parentPid ≠ (k.pcb k.processes.idleProcess).pid
  target : k'.pcb a = { k.pcb a with retValue := retValue, state := .zombie }
  parent : ∀ p, k.Awaiting a p → k'.pcb p = { k.pcb p with state := .ready }
  others : ∀ b, b ≠ a → ¬ k.Awaiting a b → k'.pcb b = k.pcb b
  zombies : k'.items zombieQueue = k.items zombieQueue ++ [a]
  sleepers : k'.items blockedQueueBySem = (k.items blockedQueueBySem).erase a
  woken : ∀ p, k.Awaiting a p → k'.items readyQueue = (k.items readyQueue).erase a ++ [p] ∧
    k'.items blockedQueue = ((k.items blockedQueue).erase a).erase p
  unwoken : (∀ p, ¬ k.Awaiting a p) → k'.items readyQueue = (k.items readyQueue).erase a ∧
    k'.items blockedQueue = (k.items blockedQueue).erase a
  foreground : k'.processes.foregroundProcess =
    if k.processes.foregroundProcess = a then 0 else k.processes.foregroundProcess
  rest : ∃ memory pcb queue foregroundProcess, k' = { k with
    memory := memory
    pcb := pcb
    processes := { k.processes with queue := queue, foregroundProcess := foregroundProcess } }

theorem Killed.lists (killed : Killed pid retValue source a k k') (exclusive : Exclusive k.items)
    (name : QueueName) : k'.items name =
      if name = zombieQueue then k.items zombieQueue ++ [a] else (k.items name).erase a := by
  have member := killed.member
  have alive := killed.alive
  obtain ⟨k₁, moved, rfl⟩ := killed.moved
  obtain ⟨memory, queue, rfl, lists⟩ := moved.requeued
  rw [vacate_items, lists, exiting_items]
  unfold push
  by_cases zombie : name = zombieQueue
  · subst zombie
    rw [Function.update_self, if_pos rfl, exclusive.drop_eq member, List.erase_of_not_mem]
    intro dead
    exact alive (exclusive.unique member dead)
  · rw [Function.update_of_ne zombie, if_neg zombie, exclusive.drop_eq member]

theorem Table.awaiting_iff (table : Table k) (p : Addr) : k.Awaiting a p ↔
    p ≠ a ∧ p ∈ k.items blockedQueue ∧ (k.pcb p).pid = (k.pcb a).parentPid ∧
      (k.pcb p).waitingForPid = (k.pcb a).pid := by
  constructor
  · rintro ⟨other, ⟨name, member⟩, named, blocked, waits⟩
    have fits := table.fits member
    rw [blocked] at fits
    refine ⟨other, ?_, named, waits⟩
    cases name with
    | readyQueue => simp [Fits] at fits
    | blockedQueue => exact member
    | blockedQueueBySem => simp [Fits] at fits
    | zombieQueue => simp [Fits] at fits
  · rintro ⟨other, member, named, waits⟩
    exact ⟨other, ⟨_, member⟩, named, table.fits member, waits⟩

/-- The state after the two steps of a successful `kill` of a process that is not current. -/
theorem Killed.effect (killed : Killed pid retValue source a k k₁)
    (wakes : Wakes (k.pcb a).parentPid pid k₁ k') (settled : Settled k) (user : 1 < pid)
    (other : k.processes.currentProcess ≠ a) : KillEffect retValue a k k' := by
  have table := settled.table
  have after := killed.settled settled
  have named := killed.named
  have lists := killed.lists table.exclusive
  obtain ⟨memory, queue, shape, _⟩ := (killed.stays other).requeued
  have foreground : k₁.processes.foregroundProcess =
      if k.processes.foregroundProcess = a then 0 else k.processes.foregroundProcess := by
    rw [shape]
    change (k.exiting retValue a).processes.foregroundProcess = _
    unfold exiting
    split
    · rfl
    · rfl
  have rest : ∃ memory pcb queue foregroundProcess, k₁ = { k with
      memory := memory
      pcb := pcb
      processes := { k.processes with
        queue := queue, foregroundProcess := foregroundProcess } } := by
    refine ⟨memory, k₁.pcb, queue, k₁.processes.foregroundProcess, ?_⟩
    rw [shape]
    unfold exiting
    split
    · rfl
    · rfl
  have awaiting : ∀ p, k.Awaiting a p ↔ p ∈ k₁.items blockedQueue ∧
      (k₁.pcb p).pid = (k.pcb a).parentPid ∧ (k₁.pcb p).waitingForPid = pid := by
    intro p
    rw [table.awaiting_iff, lists, if_neg (by decide),
      (table.exclusive.nodup _).mem_erase_iff, named]
    constructor
    · rintro ⟨different, member, parent, waits⟩
      rw [killed.pcb, if_neg different]
      exact ⟨⟨different, member⟩, parent, waits⟩
    · rintro ⟨⟨different, member⟩, parent, waits⟩
      rw [killed.pcb, if_neg different] at parent waits
      exact ⟨different, member, parent, waits⟩
  have orphan : (k.pcb a).parentPid ≠ (k.pcb k.processes.idleProcess).pid := by
    rw [table.idle.2]
    intro root
    have kernelPid := table.parent (table.queued killed.member) root
    rw [named] at kernelPid
    omega
  cases wakes with
  | skip missing =>
    have none : ∀ p, ¬ k.Awaiting a p := by
      intro p waits
      obtain ⟨member, parent, waits⟩ := (awaiting p).mp waits
      exact missing p member parent waits
    refine ⟨orphan, ?_, fun p waits => absurd waits (none p), ?_, ?_, ?_,
      fun p waits => absurd waits (none p), fun _ => ⟨?_, ?_⟩, foreground, rest⟩
    · rw [killed.pcb, if_pos rfl]
    · intro b different _
      rw [killed.pcb, if_neg different]
    · rw [lists, if_pos rfl]
    · rw [lists, if_neg (by decide)]
    · rw [lists, if_neg (by decide)]
    · rw [lists, if_neg (by decide)]
  | @wake p _ waits moved =>
    have chosen : k.Awaiting a p := (awaiting p).mpr ⟨moved.member, moved.named, waits⟩
    have only : ∀ q, k.Awaiting a q → q = p := by
      intro q waiting
      obtain ⟨member, parent, _⟩ := (awaiting q).mp waiting
      exact after.table.pidUnique (after.table.queued member) (after.table.queued moved.member)
        (parent.trans moved.named.symm)
    obtain ⟨memory', queue', shape', lists'⟩ := moved.requeued
    have dropped : ∀ name, k'.items name = if name = readyQueue
        then (k₁.items readyQueue).erase p ++ [p] else (k₁.items name).erase p := by
      intro name
      rw [lists']
      unfold push
      by_cases ready : name = readyQueue
      · subst ready
        rw [Function.update_self, if_pos rfl, after.table.exclusive.drop_eq moved.member]
      · rw [Function.update_of_ne ready, if_neg ready, after.table.exclusive.drop_eq moved.member]
    have elsewhere : ∀ name, name ≠ blockedQueue → (k₁.items name).erase p = k₁.items name := by
      intro name different
      apply List.erase_of_not_mem
      intro member
      exact different (after.table.exclusive.unique member moved.member)
    refine ⟨orphan, ?_, ?_, ?_, ?_, ?_, ?_, fun none => absurd chosen (none p), ?_, ?_⟩
    · rw [moved.pcb, if_neg chosen.1.symm, killed.pcb, if_pos rfl]
    · intro q waiting
      rw [only q waiting, moved.pcb, if_pos rfl, killed.pcb, if_neg chosen.1]
    · intro b different idle
      have notParent : b ≠ p := by
        intro same
        rw [same] at idle
        exact idle chosen
      rw [moved.pcb, if_neg notParent, killed.pcb, if_neg different]
    · rw [dropped, if_neg (by decide), elsewhere _ (by decide), lists, if_pos rfl]
    · rw [dropped, if_neg (by decide), elsewhere _ (by decide), lists, if_neg (by decide)]
    · intro q waiting
      rw [only q waiting, dropped, if_pos rfl, elsewhere _ (by decide), lists, if_neg (by decide),
        dropped, if_neg (by decide), lists, if_neg (by decide)]
      exact ⟨rfl, rfl⟩
    · rw [shape']
      exact foreground
    · obtain ⟨_, _, _, shown, equal⟩ := rest
      rw [shape', equal]
      exact ⟨memory', _, queue', shown, rfl⟩

/-- `kill` succeeds exactly for those who are alive on a queue, and then has its effect; else it
changes nothing. -/
def KillFrame (pid : Int) (retValue : Nat) (k : Kernel M) (result : Int × Kernel M) : Prop :=
  (result.1 = 0 ↔ ∃ name a, name ≠ zombieQueue ∧ a ∈ k.items name ∧ (k.pcb a).pid = pid) ∧
  (∀ name a, name ≠ zombieQueue → a ∈ k.items name → (k.pcb a).pid = pid →
    KillEffect retValue a k result.2) ∧
  (result.1 ≠ 0 → result = (-1, k))

/-- Whom a successful `kill` names becomes the last zombie. -/
theorem KillFrame.zombies {result : Int × Kernel M} (frame : KillFrame pid retValue k result)
    (killed : result.1 = 0) : ∃ name a, name ≠ zombieQueue ∧ a ∈ k.items name ∧
      (k.pcb a).pid = pid ∧ result.2.items zombieQueue = k.items zombieQueue ++ [a] := by
  obtain ⟨successful, effect, _⟩ := frame
  obtain ⟨name, a, alive, member, named⟩ := successful.mp killed
  exact ⟨name, a, alive, member, named, (effect name a alive member named).zombies⟩

variable [MemoryManager M]

/-- `kill` of a user process that does not run. -/
theorem Settled.killFrame {k : Kernel M} {pid : Int} (settled : Settled k)
    (recorded : Recorded k) (reusable : NodesReusable M) (user : 2 ≤ pid)
    (idle : pid ≠ k.getCurrentPid) (retValue rsp : Nat) :
    KillFrame pid retValue k (Kernel.kill pid retValue rsp k) := by
  have table := settled.table
  unfold KillFrame
  rcases kill_cases pid retValue rsp reusable settled with
    ⟨same, refused⟩ | ⟨source, a, k₁, k₂, _, killed, wakes, same⟩
  · have missing := refused.resolve_left (by omega)
    have nobody : ¬ ∃ name a, name ≠ zombieQueue ∧ a ∈ k.items name ∧ (k.pcb a).pid = pid := by
      rintro ⟨name, a, alive, member, named⟩
      exact (missing name alive).elim table member named
    refine ⟨?_, ?_, fun _ => same⟩
    · rw [same]
      exact ⟨fun zero => absurd zero (show ¬ (-1 : Int) = 0 by decide),
        fun some => absurd some nobody⟩
    · intro name a alive member named
      exact absurd ⟨name, a, alive, member, named⟩ nobody
  · have other : k.processes.currentProcess ≠ a := by
      intro equal
      apply idle
      rw [table.getCurrentPid, equal, killed.named]
    have silent : pid ≠ k.currentPid := by
      rcases recorded with record | few
      · rw [record]
        exact idle
      · have small := few a (table.queued killed.member)
        rw [killed.named] at small
        omega
    rw [if_neg silent] at same
    refine ⟨?_, ?_, ?_⟩
    · rw [same]
      exact ⟨fun _ => ⟨source, a, killed.alive, killed.member, killed.named⟩, fun _ => rfl⟩
    · intro name b _ member named
      have equal : b = a := table.pidUnique (table.queued member) (table.queued killed.member)
        (named.trans killed.named.symm)
      rw [same, equal]
      exact killed.effect wakes settled (by omega) other
    · intro failed
      rw [same] at failed
      exact absurd rfl failed

end Kernel

variable [MemoryManager M]

end SoKernel
