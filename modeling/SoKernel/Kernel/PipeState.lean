import Mathlib.Tactic
import SoKernel.Kernel.CreationOutcome
import SoKernel.Kernel.System

namespace SoKernel
open MemoryManager QueueName Lib Kernel SoKernel.System

variable {M : Type}

namespace Kernel

/-- What only the calls on pipes write. -/
def pipeState (k : Kernel M) : (Nat → Pipe) × Int × Bool :=
  (k.pipes, k.nextSemId, k.pipeManagerInit)

variable [MemoryManager M] {k : Kernel M} {a : Addr} {pid parentPid childPid id : Int}
variable {rsp retValue value : Nat} {name source target : QueueName} {state : ProcessState}
variable {params : CreationParams}

/-! ## The processes and the semaphores leave the pipes alone -/

theorem enqueueProcess_pipeState :
    (k.enqueueProcess name a).2.pipeState = k.pipeState := by
  unfold enqueueProcess
  split <;> rfl

theorem switchProcess_pipeState :
    (switchProcess source target pid k).2.pipeState = k.pipeState := by
  unfold switchProcess
  split
  · rfl
  · dsimp only
    split
    · exact enqueueProcess_pipeState
    · exact enqueueProcess_pipeState.trans enqueueProcess_pipeState

theorem getNextProcess_pipeState : k.getNextProcess.2.pipeState = k.pipeState := by
  unfold getNextProcess
  split
  · rfl
  · dsimp only
    split
    · exact enqueueProcess_pipeState
    · split
      · exact enqueueProcess_pipeState
      · exact enqueueProcess_pipeState

theorem schedule_pipeState : (schedule rsp k).2.pipeState = k.pipeState := by
  unfold schedule
  dsimp only
  split
  · rfl
  · refine getNextProcess_pipeState.trans ?_
    split
    · split <;> rfl
    · split <;> rfl

theorem callTimerTick_pipeState : (callTimerTick rsp k).pipeState = k.pipeState :=
  schedule_pipeState

theorem yield_pipeState : (yield rsp k).pipeState = k.pipeState := by
  unfold yield
  exact callTimerTick_pipeState

theorem unblockProcess_pipeState : (unblockProcess pid k).2.pipeState = k.pipeState := by
  unfold unblockProcess unblockProcessQueue
  dsimp only
  split
  · exact switchProcess_pipeState
  · exact switchProcess_pipeState

theorem unblockProcessBySem_pipeState : (unblockProcessBySem pid k).2.pipeState = k.pipeState := by
  unfold unblockProcessBySem unblockProcessQueueBySem
  dsimp only
  split
  · exact switchProcess_pipeState
  · exact switchProcess_pipeState

theorem blockProcessQueue_pipeState : (blockProcessQueue pid k).2.pipeState = k.pipeState := by
  unfold blockProcessQueue
  split
  · rfl
  · dsimp only
    split
    · exact switchProcess_pipeState
    · exact switchProcess_pipeState

theorem blockProcess_pipeState : (blockProcess pid rsp k).2.pipeState = k.pipeState := by
  unfold blockProcess
  dsimp only
  split
  · exact blockProcessQueue_pipeState
  · split
    · exact yield_pipeState.trans blockProcessQueue_pipeState
    · exact blockProcessQueue_pipeState

theorem blockProcessBySem_pipeState :
    (blockProcessBySem pid rsp k).2.pipeState = k.pipeState := by
  have left : (blockProcessQueueBySem pid k).2.pipeState = k.pipeState := by
    unfold blockProcessQueueBySem
    dsimp only
    split
    · exact switchProcess_pipeState
    · exact switchProcess_pipeState
  unfold blockProcessBySem
  dsimp only
  split
  · exact left
  · split
    · exact yield_pipeState.trans left
    · exact left

theorem reapChild_pipeState : (reapChild a k).2.2.pipeState = k.pipeState := by
  unfold reapChild removeZombieProcess
  dsimp only
  split <;> rfl

theorem wakeupWaitingParent_pipeState :
    (wakeupWaitingParent parentPid childPid k).pipeState = k.pipeState := by
  unfold wakeupWaitingParent
  split
  · rfl
  · have reaped : (if parentPid = (k.pcb k.processes.idleProcess).pid
        then (reapChild (k.getProcess childPid) k).2.2 else k).pipeState = k.pipeState := by
      split
      · exact reapChild_pipeState
      · rfl
    dsimp only
    generalize (if parentPid = (k.pcb k.processes.idleProcess).pid
      then (reapChild (k.getProcess childPid) k).2.2 else k) = left at reaped ⊢
    split
    · exact reaped
    · split
      · exact unblockProcess_pipeState.trans reaped
      · exact reaped

theorem killProcess_pipeState :
    (killProcess pid retValue state k).2.pipeState = k.pipeState := by
  unfold killProcess
  have left : (if k.processes.currentProcess ≠ 0 ∧ (k.pcb k.processes.currentProcess).pid = pid
      then k.setCurrent k.processes.idleProcess else k).pipeState = k.pipeState := by
    split <;> rfl
  generalize (if k.processes.currentProcess ≠ 0 ∧ (k.pcb k.processes.currentProcess).pid = pid
    then k.setCurrent k.processes.idleProcess else k) = k₀ at left ⊢
  have again : ∀ (source : QueueName) (process : Addr) (after : Kernel M),
      after.pipeState = k.pipeState →
      (if process = 0 then switchProcess source zombieQueue pid after
        else (process, after)).2.pipeState = k.pipeState := by
    intro source process after kept
    split
    · exact switchProcess_pipeState.trans kept
    · exact kept
  have first : (switchProcess readyQueue zombieQueue pid k₀).2.pipeState = k.pipeState :=
    switchProcess_pipeState.trans left
  dsimp only
  generalize switchProcess readyQueue zombieQueue pid k₀ = one at first ⊢
  obtain ⟨p₁, k₁⟩ := one
  have second := again blockedQueue p₁ k₁ first
  dsimp only
  generalize (if p₁ = 0 then switchProcess blockedQueue zombieQueue pid k₁ else (p₁, k₁)) = two
    at second ⊢
  obtain ⟨p₂, k₂⟩ := two
  have third := again blockedQueueBySem p₂ k₂ second
  dsimp only
  generalize (if p₂ = 0 then switchProcess blockedQueueBySem zombieQueue pid k₂ else (p₂, k₂)) = last
    at third ⊢
  split
  · exact third
  · split
    · exact third
    · exact third

theorem kill_pipeState : (kill pid retValue rsp k).2.pipeState = k.pipeState := by
  unfold kill
  have dies : (killProcess pid retValue .zombie k).2.pipeState = k.pipeState :=
    killProcess_pipeState
  split
  · rfl
  · generalize killProcess pid retValue .zombie k = result at dies ⊢
    obtain ⟨process, after⟩ := result
    dsimp only
    split
    · exact dies
    · split
      · exact callTimerTick_pipeState.trans (wakeupWaitingParent_pipeState.trans dies)
      · exact wakeupWaitingParent_pipeState.trans dies

theorem waitpid_pipeState : (waitpid pid rsp k).2.pipeState = k.pipeState := by
  unfold waitpid
  dsimp only
  split
  · rfl
  · split
    · rfl
    · split
      · rfl
      · split
        · exact reapChild_pipeState
        · split
          · split
            · exact blockProcess_pipeState
            · exact blockProcess_pipeState
          · rfl

theorem waitpidResume_pipeState : (waitpidResume pid a k).2.2.pipeState = k.pipeState := by
  unfold waitpidResume
  dsimp only
  split
  · rfl
  · split
    · exact reapChild_pipeState
    · rfl

omit [MemoryManager M] in
theorem changePrio_pipeState {newPrio : Int} :
    (changePrio pid newPrio k).2.pipeState = k.pipeState := by
  unfold changePrio
  dsimp only
  split
  · rfl
  · split
    · rfl
    · rfl

theorem semInit_pipeState : (semInit id value k).2.pipeState = k.pipeState := by
  have way := semInit_cases id value k
  generalize semInit id value k = result at way ⊢
  cases way with
  | refused _ => rfl
  | failed _ _ => rfl
  | opened _ => rfl

theorem semWait_pipeState : (semWait id rsp k).2.pipeState = k.pipeState := by
  have way := wait_cases id rsp k
  change (wait id rsp k).2.pipeState = k.pipeState
  generalize wait id rsp k = result at way ⊢
  cases way with
  | taken _ => rfl
  | failed _ _ => rfl
  | unlisted _ _ => exact blockProcessBySem_pipeState
  | asleep _ _ => exact blockProcessBySem_pipeState

theorem semPost_pipeState : (semPost id k).2.pipeState = k.pipeState := by
  have way := post_cases id k
  change (post id k).2.pipeState = k.pipeState
  generalize post id k = result at way ⊢
  cases way with
  | counted _ => rfl
  | handed _ => exact unblockProcessBySem_pipeState

theorem createProcess_pipeState (settled : Settled k)
    (user : k.processes.currentProcess ≠ k.processes.idleProcess) :
    (createProcess params k).2.pipeState = k.pipeState := by
  have described : (k.described params).pipeState = k.pipeState := by
    unfold Kernel.described
    split <;> rfl
  rw [createProcess_user params settled user]
  split
  · rfl
  · split
    · rfl
    · split
      · rfl
      · unfold placed
        split
        · exact described
        · exact enqueueProcess_pipeState.trans described

end Kernel

/-- An event leaves the pipes alone. -/
theorem System.Step.pipeState [MemoryManager M] {s t : System M} {label : Label}
    (step : System.Step s label t) (settled : Settled s.kernel) :
    t.kernel.pipeState = s.kernel.pipeState := by
  cases step with
  | timerTick => exact callTimerTick_pipeState
  | ctrlC => exact kill_pipeState
  | resume _ _ => exact waitpidResume_pipeState
  | @call rsp call runs _ _ =>
    cases call with
    | yield => exact yield_pipeState
    | createProcess params => exact createProcess_pipeState settled runs.2
    | blockProcess pid => exact blockProcess_pipeState
    | unblockProcess pid => exact unblockProcess_pipeState
    | blockProcessBySem => exact blockProcessBySem_pipeState
    | unblockProcessBySem pid => exact unblockProcessBySem_pipeState
    | kill pid retValue => exact kill_pipeState
    | waitpid pid =>
      rw [perform_waitpid]
      exact waitpid_pipeState
    | changePrio pid newPrio => exact changePrio_pipeState
    | semInit id value => exact semInit_pipeState
    | semWait id => exact semWait_pipeState
    | semPost id => exact semPost_pipeState

end SoKernel
