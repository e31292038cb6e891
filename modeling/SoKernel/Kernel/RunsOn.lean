import Mathlib.Tactic
import SoKernel.Kernel.Keyboard
import SoKernel.Kernel.Services
import SoKernel.Kernel.PipeFifo

namespace SoKernel
open MemoryManager QueueName Lib Kernel SoKernel.System

variable {M : Type}

/-- Whom the event would kill. -/
def Event.kills (event : Event) (k : Kernel M) : Option Int :=
  match event with
  | .ctrlC => some k.getForegroundPid
  | .call (.kill pid _) => some pid
  | _ => none

namespace Kernel

variable {k k' k'' k₁ : Kernel M} {a current : Addr} {pid id : Int} {rsp retValue : Nat}
variable {source target : QueueName} {state : ProcessState} {params : CreationParams}
variable {killed unblocked : Option Int} {own : Int → Prop} {deed : Deed}

/-! ## The living -/

/-- A process that has not been killed has the pid. -/
def Living (pid : Int) (k : Kernel M) : Prop :=
  ∃ name, name ≠ zombieQueue ∧ ∃ a ∈ k.items name, (k.pcb a).pid = pid

/-- Nobody else dies. -/
def KeepsLiving (killed : Option Int) (k k' : Kernel M) : Prop :=
  ∀ pid, killed ≠ some pid → Living pid k → Living pid k'

theorem KeepsLiving.trans (first : KeepsLiving killed k k') (second : KeepsLiving killed k' k'') :
    KeepsLiving killed k k'' :=
  fun pid spared living => second pid spared (first pid spared living)

theorem SameRecords.keepsLiving (same : SameRecords k k') : KeepsLiving killed k k' := by
  rintro pid _ ⟨name, alive, a, member, named⟩
  exact ⟨name, alive, a, same.items.mpr member, (same.pid a).trans named⟩

theorem Relocates.keepsLiving (relocates : Relocates a target k k') (shown : target ≠ zombieQueue) :
    KeepsLiving killed k k' := by
  rintro pid _ ⟨name, alive, b, member, named⟩
  by_cases same : b = a
  · exact ⟨target, shown, b, relocates.items.mpr (.inr ⟨rfl, same⟩),
      (relocates.pid b).trans named⟩
  · exact ⟨name, alive, b, relocates.items.mpr (.inl ⟨member, same⟩),
      (relocates.pid b).trans named⟩

theorem Shift.keepsLiving (shift : Shift unblocked k k') : KeepsLiving killed k k' := by
  cases shift with
  | none same => exact same.keepsLiving
  | moved before exclusive moved _ shown _ after =>
    exact (moved.relocates before exclusive after).keepsLiving shown

theorem Creates.keepsLiving (creates : Creates params a rsp k k') (table : Table k) :
    KeepsLiving killed k k' := by
  obtain ⟨stays, _, kept⟩ := creates.grows
  rintro pid _ ⟨name, alive, b, member, named⟩
  refine ⟨name, alive, b, stays member, ?_⟩
  rw [kept (table.queued member)]
  exact named

theorem Reaped.keepsLiving (reaped : Reaped a k k') (exclusive : Exclusive k.items) :
    KeepsLiving killed k k' := by
  rintro pid _ ⟨name, alive, b, member, named⟩
  have other : b ≠ a := by
    intro same
    rw [same] at member
    exact alive (exclusive.unique member reaped.member)
  refine ⟨name, alive, b, (reaped.mem_items exclusive).mpr ⟨member, other⟩, ?_⟩
  rw [reaped.pcb other]
  exact named

/-- Only the one who dies leaves the living. -/
theorem Killed.keepsLiving (killed : Killed pid retValue source a k k')
    (exclusive : Exclusive k.items) : KeepsLiving (some pid) k k' := by
  rintro other spared ⟨name, alive, b, member, named⟩
  have relocates := killed.relocates exclusive
  refine ⟨name, alive, b, relocates.items.mpr (.inl ⟨member, ?_⟩), (relocates.pid b).trans named⟩
  intro same
  rw [same, killed.named] at named
  exact spared (congrArg some named)

theorem setWaiting_keepsLiving : KeepsLiving killed k (k.setWaiting a pid) := by
  rintro other _ ⟨name, alive, b, member, named⟩
  exact ⟨name, alive, b, member, (setWaiting_fields _ _ _ _).1.trans named⟩

variable [MemoryManager M]

theorem kill_keepsLiving (settled : Settled k) (reusable : NodesReusable M) :
    KeepsLiving (some pid) k (kill pid retValue rsp k).2 := by
  rcases kill_cases pid retValue rsp reusable settled with
    ⟨same, _⟩ | ⟨source, a, k₁, k₂, _, killed, wakes, same⟩
  · rw [same]
    exact SameRecords.refl.keepsLiving
  · rw [same]
    have dead := killed.settled settled
    have second : KeepsLiving (some pid) k₁ k₂ := by
      cases wakes with
      | skip _ => exact SameRecords.refl.keepsLiving
      | wake _ moved =>
        exact (moved.relocates .refl dead.table.exclusive .refl).keepsLiving (by decide)
    have both := (killed.keepsLiving settled.table.exclusive).trans second
    change KeepsLiving _ k (if pid = k.currentPid then yield rsp k₂ else k₂)
    split
    · exact both.trans (yield_sameRecords (wakes.settled dead).table reusable).keepsLiving
    · exact both

theorem waitpid_keepsLiving (settled : Settled k) (reusable : NodesReusable M)
    (ready : k.processes.currentProcess ∈ k.items readyQueue) :
    KeepsLiving killed k (waitpid pid rsp k).2 := by
  have way := waitpid_cases pid rsp reusable settled ready
  generalize Kernel.waitpid pid rsp k = result at way ⊢
  obtain ⟨outcome, after⟩ := result
  cases way with
  | absent _ => exact SameRecords.refl.keepsLiving
  | stranger _ _ => exact SameRecords.refl.keepsLiving
  | refused _ _ => exact SameRecords.refl.keepsLiving
  | reaped _ _ _ reaped =>
    exact setWaiting_keepsLiving.trans
      (reaped.keepsLiving (settled.setWaiting _ _).table.exclusive)
  | asleep _ _ _ moved yielded =>
    have before := settled.setWaiting k.processes.currentProcess pid
    have blocked := moved.table before.table rfl (by decide) fun zombie =>
      absurd zombie (by decide)
    have moves : KeepsLiving killed _ _ :=
      (moved.relocates .refl before.table.exclusive .refl).keepsLiving (by decide)
    rw [yielded]
    exact setWaiting_keepsLiving.trans
      (moves.trans (yield_sameRecords blocked reusable).keepsLiving)

theorem waitpidResume_keepsLiving (settled : Settled k) :
    KeepsLiving killed k (waitpidResume pid current k).2.2 := by
  rcases waitpidResume_cases pid current settled with ⟨_, same⟩ | ⟨k', _, reaped, same⟩
  · rw [same]
    exact SameRecords.refl.keepsLiving
  · rw [same]
    exact setWaiting_keepsLiving.trans
      (reaped.keepsLiving (settled.setWaiting _ _).table.exclusive)

/-- An event kills nobody but the one it names. -/
theorem event_keepsLiving {s t : System M} {label : Label} (step : System.Step s label t)
    (reusable : NodesReusable M) (settled : Settled s.kernel) :
    KeepsLiving (label.event.kills s.kernel) s.kernel t.kernel := by
  cases step with
  | timerTick => exact (callTimerTick_sameRecords settled.table reusable).keepsLiving
  | ctrlC => exact kill_keepsLiving settled reusable
  | resume _ _ => exact waitpidResume_keepsLiving settled
  | @call rsp call runs _ admits =>
    cases call with
    | createProcess params =>
      exact (createProcess_creates params settled admits runs.2).keepsLiving settled.table
    | kill pid retValue => exact kill_keepsLiving settled reusable
    | waitpid pid =>
      rw [perform_waitpid]
      exact waitpid_keepsLiving settled reusable (runs.ready settled)
    | _ => exact (perform_shift settled reusable rfl).keepsLiving

/-! ## The running process runs on -/

omit [MemoryManager M] in
/-- The running process keeps the processor, its state and its queue. -/
structure RunsOn (k k' : Kernel M) : Prop where
  current : k'.processes.currentProcess = k.processes.currentProcess
  state : (k'.pcb k.processes.currentProcess).state = (k.pcb k.processes.currentProcess).state
  pid : (k'.pcb k.processes.currentProcess).pid = (k.pcb k.processes.currentProcess).pid
  items : ∀ name, k.processes.currentProcess ∈ k'.items name ↔
    k.processes.currentProcess ∈ k.items name

omit [MemoryManager M] in
theorem RunsOn.refl : RunsOn k k := ⟨rfl, rfl, rfl, fun _ => .rfl⟩

omit [MemoryManager M] in
theorem RunsOn.trans (first : RunsOn k k₁) (second : RunsOn k₁ k') : RunsOn k k' := by
  obtain ⟨current, state, pid, items⟩ := second
  rw [first.current] at current state pid items
  exact ⟨current, state.trans first.state, pid.trans first.pid,
    fun name => (items name).trans (first.items name)⟩

omit [MemoryManager M] in
theorem RunsOn.getCurrentPid (runsOn : RunsOn k k') : k'.getCurrentPid = k.getCurrentPid := by
  unfold Kernel.getCurrentPid
  rw [runsOn.current, runsOn.pid]

omit [MemoryManager M] in
theorem withSem_runsOn {memory : M} {sem : Sem} : RunsOn k (k.withSem memory id sem) :=
  ⟨rfl, rfl, rfl, fun _ => .rfl⟩

omit [MemoryManager M] in
theorem Moved.runsOn (moved : Moved pid source target state a k k') (settled : Settled k)
    (asleep : source ≠ readyQueue) : RunsOn k k' := by
  have other := settled.current_ne moved.member asleep
  refine ⟨moved.current, by rw [moved.pcb, if_neg other], moved.pid_eq, ?_⟩
  intro name
  rw [moved.mem_items settled.table.exclusive]
  constructor
  · rintro (⟨member, _⟩ | ⟨_, same⟩)
    · exact member
    · exact absurd same other
  · exact fun member => .inl ⟨member, other⟩

theorem semWait_runsOn (token : 0 < (k.semaphores id).value) : RunsOn k (semWait id rsp k).2 := by
  have way := wait_cases id rsp k
  change RunsOn k (wait id rsp k).2
  generalize wait id rsp k = result at way ⊢
  cases way with
  | taken _ => exact withSem_runsOn
  | failed empty _ => exact absurd empty (Nat.ne_of_gt token)
  | unlisted empty _ => exact absurd empty (Nat.ne_of_gt token)
  | asleep empty _ => exact absurd empty (Nat.ne_of_gt token)

theorem semPost_runsOn (settled : Settled k) (reusable : NodesReusable M) :
    RunsOn k (semPost id k).2 := by
  have way := post_cases id k
  change RunsOn k (post id k).2
  generalize post id k = result at way ⊢
  cases way with
  | counted _ => exact withSem_runsOn
  | @handed memory node rest _ =>
    dsimp only
    generalize queued : k.withSem memory id _ = before
    have first : RunsOn k before := by
      rw [← queued]
      exact withSem_runsOn
    have kept : Settled before := by
      rw [← queued]
      exact settled.withSem
    rcases unblockProcessBySem_cases node.data.pid before reusable with
      ⟨same, _⟩ | ⟨a, k', same, moved⟩
    · rw [same]
      exact first
    · rw [same]
      exact first.trans (moved.runsOn kept (by decide))

theorem deed_keepsLiving (deed : Deed) (settled : Settled k) (reusable : NodesReusable M) :
    KeepsLiving killed k (deed.run rsp k) := by
  cases deed with
  | wait id => exact (semWait_shift settled reusable : Shift none k _).keepsLiving
  | post id => exact (semPost_shift settled reusable : Shift none k _).keepsLiving
  | yield => exact (yield_sameRecords settled.table reusable).keepsLiving
  | pipe _ _ => exact fun _ _ living => living
  | nothing => exact fun _ _ living => living

/-- Where it has to wait for nothing it runs on. -/
theorem deed_runsOn (settled : Settled k) (reusable : NodesReusable M) (stays : deed ≠ .yield)
    (token : ∀ id, deed = .wait id → 0 < (k.semaphores id).value) :
    RunsOn k (deed.run rsp k) := by
  cases deed with
  | wait id => exact semWait_runsOn (token id rfl)
  | post id => exact semPost_runsOn settled reusable
  | yield => exact absurd rfl stays
  | pipe _ _ => exact ⟨rfl, rfl, rfl, fun _ => .rfl⟩
  | nothing => exact .refl

end Kernel

end SoKernel
