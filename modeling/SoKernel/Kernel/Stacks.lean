import SoKernel.Kernel.ContextSwitch
import SoKernel.Kernel.KillFrame
import SoKernel.Kernel.Family
import SoKernel.Kernel.CreationOutcome

namespace SoKernel
open MemoryManager QueueName Lib Kernel SoKernel.System

variable {M : Type}

/-! ## What an event does to the stacks of the processes -/

namespace Kernel

variable {k k' k'' k₁ : Kernel M} {a p next current : Addr} {pid parentPid childPid id : Int}
variable {rsp retValue value : Nat} {source target : QueueName} {state : ProcessState}
variable {params : CreationParams} {newPrio : Int}

/-- The stack of the process is allocated: `kill` frees it. -/
def Live (k : Kernel M) (p : Addr) : Prop := p ∈ k.pcbs ∧ (k.pcb p).state ≠ .zombie

/-- Who lives afterwards lived before, on the same stack. -/
structure StacksKept (k k' : Kernel M) : Prop where
  first : k'.first = k.first
  idle : k'.processes.idleProcess = k.processes.idleProcess
  live : ∀ {p}, Live k' p → Live k p
  rsp : ∀ {p}, Live k' p → (k'.pcb p).rsp = (k.pcb p).rsp
  base : ∀ {p}, Live k' p → (k'.pcb p).base = (k.pcb p).base

theorem StacksKept.refl : StacksKept k k := ⟨rfl, rfl, id, fun _ => rfl, fun _ => rfl⟩

theorem StacksKept.trans (one : StacksKept k k') (two : StacksKept k' k'') :
    StacksKept k k'' where
  first := two.first.trans one.first
  idle := two.idle.trans one.idle
  live here := one.live (two.live here)
  rsp here := (two.rsp here).trans (one.rsp (two.live here))
  base here := (two.base here).trans (one.base (two.live here))

theorem StacksKept.withSem {memory : M} {sem : Sem} : StacksKept k (k.withSem memory id sem) :=
  ⟨rfl, rfl, fun here => here, fun _ => rfl, fun _ => rfl⟩

/-- An edit of other fields. -/
theorem StacksKept.editPcb {change : PCB → PCB} (kept : ∀ pcb, (change pcb).state = pcb.state ∧
    (change pcb).rsp = pcb.rsp ∧ (change pcb).base = pcb.base) :
    StacksKept k (k.editPcb a change) := by
  have same : ∀ p, ((k.editPcb a change).pcb p).state = (k.pcb p).state ∧
      ((k.editPcb a change).pcb p).rsp = (k.pcb p).rsp ∧
      ((k.editPcb a change).pcb p).base = (k.pcb p).base := by
    intro p
    rw [editPcb_pcb]
    split
    · rename_i here
      rw [here]
      exact kept _
    · exact ⟨rfl, rfl, rfl⟩
  refine ⟨rfl, rfl, fun here => ?_, fun _ => (same _).2.1, fun _ => (same _).2.2⟩
  have alive := here.2
  rw [(same _).1] at alive
  exact ⟨here.1, alive⟩

theorem setWaiting_stacksKept : StacksKept k (k.setWaiting a pid) :=
  .editPcb fun _ => ⟨rfl, rfl, rfl⟩

theorem Moved.stacksKept (moved : Moved pid source target state a k k') (table : Table k)
    (alive : source ≠ zombieQueue) : StacksKept k k' := by
  have first : k'.first = k.first ∧ k'.pcbs = k.pcbs := by
    obtain ⟨memory, queue, rfl, lists⟩ := moved.requeued
    exact ⟨rfl, rfl⟩
  refine ⟨first.1, moved.idle, fun {p} here => ?_, fun {p} _ => ?_, fun {p} _ => ?_⟩
  · obtain ⟨member, living⟩ := here
    rw [first.2] at member
    refine ⟨member, fun dead => ?_⟩
    by_cases same : p = a
    · rw [same] at dead
      have fits := table.fits moved.member
      rw [dead] at fits
      cases source with
      | readyQueue => rcases fits with here | here <;> cases here
      | blockedQueue => cases fits
      | blockedQueueBySem => cases fits
      | zombieQueue => exact alive rfl
    · rw [moved.pcb, if_neg same] at living
      exact living dead
  · rw [moved.pcb]
    split
    · rename_i same
      rw [same]
    · rfl
  · rw [moved.pcb]
    split
    · rename_i same
      rw [same]
    · rfl

theorem Killed.stacksKept (killed : Killed pid retValue source a k k') : StacksKept k k' := by
  have record := fun p => killed.pcb (b := p)
  have pcbs := killed.fields.1
  have other : ∀ {p}, Live k' p → p ≠ a := by
    rintro p ⟨_, living⟩ same
    apply living
    rw [record, if_pos same]
  have fields : k'.first = k.first ∧ k'.processes.idleProcess = k.processes.idleProcess := by
    obtain ⟨k₁, moved, rfl⟩ := killed.moved
    have vacated : (k₁.vacate a).first = k₁.first ∧
        (k₁.vacate a).processes.idleProcess = k₁.processes.idleProcess := by
      unfold vacate
      split <;> exact ⟨rfl, rfl⟩
    have exited : (k.exiting retValue a).first = k.first := by
      unfold Kernel.exiting
      split <;> rfl
    have moves : k₁.first = (k.exiting retValue a).first := by
      obtain ⟨memory, queue, rfl, lists⟩ := moved.requeued
      rfl
    exact ⟨vacated.1.trans (moves.trans exited),
      vacated.2.trans (moved.idle.trans (exiting_fields retValue a k).2.2.1)⟩
  refine ⟨fields.1, fields.2, fun here => ?_, fun here => ?_, fun here => ?_⟩
  · have away := other here
    obtain ⟨member, living⟩ := here
    rw [pcbs] at member
    rw [record, if_neg away] at living
    exact ⟨member, living⟩
  · rw [record, if_neg (other here)]
  · rw [record, if_neg (other here)]

theorem Wakes.stacksKept (wakes : Wakes parentPid childPid k k') (table : Table k) :
    StacksKept k k' ∧ k'.processes.currentProcess = k.processes.currentProcess := by
  cases wakes with
  | skip _ => exact ⟨.refl, rfl⟩
  | wake _ moved => exact ⟨moved.stacksKept table (by decide), moved.current⟩

theorem Reaped.stacksKept (reaped : Reaped a k k') : StacksKept k k' := by
  obtain ⟨pcbs, _, _, _, idle, _⟩ := reaped.fields
  have first : k'.first = k.first := by
    obtain ⟨memory, queue, state, rfl⟩ := reaped.rest
    rfl
  have other : ∀ {p}, Live k' p → p ≠ a := by
    rintro p ⟨member, _⟩ same
    rw [pcbs, same] at member
    exact Finset.notMem_erase a k.pcbs member
  refine ⟨first, idle, fun here => ?_, fun here => ?_, fun here => ?_⟩
  · have unmoved := reaped.pcb (other here)
    obtain ⟨member, living⟩ := here
    rw [pcbs] at member
    rw [unmoved] at living
    exact ⟨Finset.mem_of_mem_erase member, living⟩
  · rw [reaped.pcb (other here)]
  · rw [reaped.pcb (other here)]

/-! ## The effect of a switch -/

theorem Switched.live (switched : Switched rsp k k' next) (table : Table k) (here : Live k' p) :
    Live k p := by
  obtain ⟨member, living⟩ := here
  rw [switched.pcbs] at member
  refine ⟨member, fun dead => ?_⟩
  rw [switched.state] at living
  split at living
  · rename_i same
    rw [same] at dead
    rcases switched.next_cases with idle | ready
    · rw [idle] at dead
      rcases table.idleState with here | here
      · rw [here] at dead
        cases dead
      · rw [here] at dead
        cases dead
    · rcases table.fits ready with here | here
      · rw [here] at dead
        cases dead
      · rw [here] at dead
        cases dead
  · split at living
    · rename_i left
      rw [left.2] at dead
      cases dead
    · exact living dead

theorem Switched.base (switched : Switched rsp k k' next) :
    (k'.pcb p).base = (k.pcb p).base := by
  rw [switched.pcb]
  rfl

theorem Switched.savedPointer (switched : Switched rsp k k' next) : (k'.pcb p).rsp =
    if p = k.processes.currentProcess ∧ k.first = false then rsp else (k.pcb p).rsp := by
  rw [switched.pcb]
  rfl

/-! ## The effect of an event -/

variable [MemoryManager M]

/-- The event makes `schedule` take the processor away. -/
def gives (label : Label) (k : Kernel M) : Bool :=
  match label.event with
  | .timerTick => ¬ k.Stays
  | .ctrlC => (kill k.getForegroundPid 1 label.rsp k).1 = 0 ∧ k.getForegroundPid = k.currentPid
  | .resume => false
  | .call call =>
    match call with
    | .yield => true
    | .blockProcess pid => (blockProcess pid label.rsp k).1 = 0 ∧ pid = k.getCurrentPid
    | .blockProcessBySem => (blockProcessBySem k.getCurrentPid label.rsp k).1 = 0
    | .kill pid retValue => (kill pid retValue label.rsp k).1 = 0 ∧ pid = k.currentPid
    | .waitpid pid => (waitpid pid label.rsp k).1 = .asleep
    -- The running process is on the ready queue, so that it can be put to sleep.
    | .semWait id => (k.semaphores id).value = 0 ∧ (allocMemory pidSize k.memory).1 ≠ 0
    | .createProcess _ | .unblockProcess _ | .unblockProcessBySem _ | .changePrio _ _
    | .semInit _ _ | .semPost _ => false

/-- The process on the processor dies by the event. -/
def exits (label : Label) (k : Kernel M) : Bool :=
  match label.event with
  | .ctrlC => (kill k.getForegroundPid 1 label.rsp k).1 = 0 ∧ k.getForegroundPid = k.currentPid
  | .call (.kill pid retValue) => (kill pid retValue label.rsp k).1 = 0 ∧ pid = k.currentPid
  | _ => false

/-- A process is created, and its stack built. -/
def creates (label : Label) (k : Kernel M) : Option CreationParams :=
  match label.event with
  | .call (.createProcess params) => if (createProcess params k).1 = -1 then none else some params
  | _ => none

/-- What an event does to the stacks and the processor. -/
inductive Outcome (label : Label) (k k' : Kernel M) : Prop
  | stays : gives label k = false → exits label k = false → creates label k = none →
      StacksKept k k' → k'.processes.currentProcess = k.processes.currentProcess →
      (label.event = .timerTick → k'.stackPointer = label.rsp) → Outcome label k k'
  | creates {params : CreationParams} : gives label k = false → exits label k = false →
      creates label k = some params → Spares k.pcbRequest k k' →
      (∀ p, Live k' p ↔ Live k p ∨ p = k.pcbRequest) → k.stackRequest ≠ 0 →
      (k'.pcb k.pcbRequest).rsp = builtRsp params k →
      (k'.pcb k.pcbRequest).base = k.stackRequest + stackSize → Outcome label k k'
  | switches {k₁ : Kernel M} {next : Addr} : gives label k = true → exits label k = false →
      creates label k = none → StacksKept k k₁ →
      k₁.processes.currentProcess = k.processes.currentProcess → Table k₁ →
      Switched label.rsp k₁ k' next → Outcome label k k'
  | exits {k₁ : Kernel M} {next : Addr} : gives label k = true → exits label k = true →
      creates label k = none → StacksKept k k₁ → ¬ Live k₁ k.processes.currentProcess →
      k₁.processes.currentProcess = k.processes.idleProcess → Table k₁ →
      Switched label.rsp k₁ k' next → Outcome label k k'

variable {label : Label}

/-- The kernel gives up the processor for its process. -/
theorem yield_outcome (given : gives label k = true) (remains : exits label k = false)
    (plain : creates label k = none) (kept : StacksKept k k₁)
    (current : k₁.processes.currentProcess = k.processes.currentProcess) (table : Table k₁)
    (reusable : NodesReusable M) : Outcome label k (yield label.rsp k₁) := by
  obtain ⟨next, switched⟩ := yield_switches label.rsp k₁ reusable
  exact .switches given remains plain kept current table switched

theorem tick_outcome (rsp : Nat) (settled : Settled k) (reusable : NodesReusable M) :
    Outcome ⟨.timerTick, rsp⟩ k (callTimerTick rsp k) := by
  rcases callTimerTick_cases rsp k reusable with ⟨stays, same⟩ | ⟨leaves, next, switched⟩
  · rw [same]
    exact .stays (decide_eq_false (not_not.mpr stays)) rfl rfl
      ⟨rfl, rfl, id, fun _ => rfl, fun _ => rfl⟩ rfl fun _ => rfl
  · exact .switches (decide_eq_true leaves) rfl rfl .refl rfl settled.table switched

/-- `kill`, by a process or from the keyboard. -/
theorem kill_outcome (settled : Settled k) (reusable : NodesReusable M)
    (recorded : System.Recorded k)
    (given : gives label k = decide ((kill pid retValue label.rsp k).1 = 0 ∧ pid = k.currentPid))
    (ends : exits label k = decide ((kill pid retValue label.rsp k).1 = 0 ∧ pid = k.currentPid))
    (plain : creates label k = none) (other : label.event ≠ .timerTick) :
    Outcome label k (kill pid retValue label.rsp k).2 := by
  rcases kill_cases pid retValue label.rsp reusable settled with
    ⟨same, _⟩ | ⟨source, a, k₁, k₂, user, killed, wakes, same⟩
  · rw [same] at given ends ⊢
    exact .stays (given.trans (by simp)) (ends.trans (by simp)) plain .refl rfl
      fun tick => absurd tick other
  · have dead := killed.settled settled
    obtain ⟨woken, current⟩ := wakes.stacksKept dead.table
    have kept := killed.stacksKept.trans woken
    rw [same] at given ends ⊢
    by_cases self : pid = k.currentPid
    · have here : k.processes.currentProcess = a := by
        rcases recorded with record | few
        · refine settled.table.pidUnique settled.table.current
            (settled.table.queued killed.member) ?_
          rw [killed.named, self, record, settled.table.getCurrentPid]
        · have small := few a (settled.table.queued killed.member)
          rw [killed.named] at small
          omega
      rw [if_pos self]
      obtain ⟨next, switched⟩ := yield_switches label.rsp k₂ reusable
      refine .exits (given.trans (by simp [self])) (ends.trans (by simp [self])) plain kept ?_ ?_
        (wakes.settled dead).table switched
      · intro alive
        have living := (woken.live alive).2
        rw [killed.pcb, if_pos here] at living
        exact living rfl
      · rw [current]
        obtain ⟨k₃, moved, rfl⟩ := killed.moved
        unfold vacate
        rw [if_pos (by rw [moved.current, (exiting_fields retValue a k).2.1, here])]
        exact moved.idle.trans (exiting_fields retValue a k).2.2.1
    · have apart : k.processes.currentProcess ≠ a := by
        intro equal
        rcases recorded with record | few
        · apply self
          rw [record, settled.table.getCurrentPid, equal, killed.named]
        · have small := few a (settled.table.queued killed.member)
          rw [killed.named] at small
          omega
      rw [if_neg self]
      refine .stays (given.trans (by simp [self])) (ends.trans (by simp [self])) plain kept ?_
        fun tick => absurd tick other
      rw [current, (killed.stays apart).current, (exiting_fields retValue a k).2.1]

omit [MemoryManager M] in
theorem Spares.stacksKept (spares : Spares a k k') (same : k'.pcbs = k.pcbs) :
    StacksKept k k' where
  first := spares.first
  idle := spares.idle
  live here := by
    obtain ⟨member, living⟩ := here
    rw [same] at member
    rw [spares.kept member] at living
    exact ⟨member, living⟩
  rsp here := by
    have member := here.1
    rw [same] at member
    rw [spares.kept member]
  base here := by
    have member := here.1
    rw [same] at member
    rw [spares.kept member]

/-- The fields of the new PCB that its descriptors leave alone. -/
theorem described_record (params : CreationParams) (k : Kernel M) :
    ((k.described params).pcb k.pcbRequest).rsp = builtRsp params k ∧
    ((k.described params).pcb k.pcbRequest).base = k.stackRequest + stackSize ∧
    ((k.described params).pcb k.pcbRequest).state ≠ .zombie := by
  unfold described
  split
  · rw [setState_pcb, if_pos rfl, editPcb_pcb, if_pos rfl, entered_pcb]
    refine ⟨rfl, rfl, ?_⟩
    change ProcessState.blocked ≠ .zombie
    decide
  · rw [editPcb_pcb, if_pos rfl, entered_pcb]
    refine ⟨rfl, rfl, ?_⟩
    change ProcessState.ready ≠ .zombie
    decide

theorem createProcess_outcome (settled : Settled k) (admits : k.FreshPcb)
    (user : k.processes.currentProcess ≠ k.processes.idleProcess)
    (event : label.event = .call (.createProcess params)) :
    Outcome label k (createProcess params k).2 := by
  have spares : Spares k.pcbRequest k (createProcess params k).2 := by
    cases createProcess_creates params settled admits user with
    | failed spares _ _ _ => exact spares
    | created spares _ _ _ _ => exact spares
  have given : gives label k = false := by
    unfold gives
    rw [event]
  have remains : exits label k = false := by
    unfold exits
    rw [event]
  have plain : (createProcess params k).1 = -1 → creates label k = none := by
    intro failed
    unfold creates
    rw [event]
    exact if_pos failed
  have other : label.event ≠ .timerTick := by
    rw [event]
    nofun
  have failed : (createProcess params k).1 = -1 → (createProcess params k).2.pcbs = k.pcbs →
      Outcome label k (createProcess params k).2 := fun failed same =>
    .stays given remains (plain failed) (spares.stacksKept same) spares.current
      fun tick => absurd tick other
  have outcome := createProcess_user params settled user
  split at outcome
  · exact failed (by rw [outcome]) (by rw [outcome])
  · split at outcome
    · exact failed (by rw [outcome]) (by rw [outcome])
    · split at outcome
      · exact failed (by rw [outcome]) (by rw [outcome]; rfl)
      · rename_i unbuilt
        obtain ⟨rsp, base, state⟩ := described_record params k
        have stack : k.stackRequest ≠ 0 := by
          intro refused
          rw [builtRsp_eq, if_pos refused] at unbuilt
          exact unbuilt rfl
        have pcbs : (createProcess params k).2.pcbs = insert k.pcbRequest k.pcbs := by
          rw [outcome, placed_pcb.2, (described_fields params k).2.1]
        have record : (createProcess params k).2.pcb k.pcbRequest =
            (k.described params).pcb k.pcbRequest := by
          rw [outcome, placed_pcb.1]
        have made : creates label k = some params := by
          unfold creates
          rw [event]
          refine if_neg fun none => ?_
          have bound := settled.userPid user
          rw [outcome] at none
          dsimp only at none
          omega
        refine .creates given remains made spares (fun p => ?_) stack ?_ ?_
        · unfold Live
          rw [pcbs, Finset.mem_insert]
          by_cases new : p = k.pcbRequest
          · rw [new, record]
            exact iff_of_true ⟨.inl rfl, state⟩ (.inr rfl)
          · rw [spares.others new]
            simp [new]
        · rw [record, rsp]
        · rw [record, base]

/-- A process is blocked: the running one leaves the processor. -/
theorem Moved.outcome (moved : Moved pid source target state a k k') (settled : Settled k)
    (reusable : NodesReusable M) (alive : source ≠ zombieQueue) (fits : Fits target state)
    (still : state ≠ .running) (shown : target ≠ zombieQueue) (self : Prop) [Decidable self]
    (given : gives label k = decide self) (remains : exits label k = false)
    (plain : creates label k = none) (other : label.event ≠ .timerTick) :
    Outcome label k (if self then yield label.rsp k' else k') := by
  have kept := moved.stacksKept settled.table alive
  by_cases here : self
  · rw [if_pos here]
    exact yield_outcome (given.trans (decide_eq_true here)) remains plain kept moved.current
      (moved.table settled.table fits still fun dead => absurd dead shown) reusable
  · rw [if_neg here]
    exact .stays (given.trans (decide_eq_false here)) remains plain kept moved.current
      fun tick => absurd tick other

omit [MemoryManager M] in
theorem withSem_self : k.withSem k.memory id (k.semaphores id) = k := by
  unfold withSem
  rw [Function.update_eq_self]

/-- The running process is on the ready queue, and can be put to sleep. -/
theorem blockProcessBySem_done (rsp : Nat) (settled : Settled k) (runs : k.UserRuns)
    (reusable : NodesReusable M) : (blockProcessBySem k.getCurrentPid rsp k).1 = 0 := by
  rcases blockProcessBySem_cases k.getCurrentPid rsp k reusable with
    ⟨_, missing⟩ | ⟨a, k', moved, same⟩
  · refine absurd ?_ (missing _ (runs.ready settled))
    rw [hasPid_iff]
    exact ⟨settled.table.ne_zero settled.table.current, settled.table.getCurrentPid.symm⟩
  · rw [same]

theorem blockProcessBySem_outcome (id : Int) (memory : M) (sem : Sem) (settled : Settled k)
    (runs : k.UserRuns) (reusable : NodesReusable M) (given : gives label k = true)
    (remains : exits label k = false) (plain : creates label k = none) :
    Outcome label k (blockProcessBySem k.getCurrentPid label.rsp (k.withSem memory id sem)).2 := by
  rcases blockProcessBySem_cases k.getCurrentPid label.rsp (k.withSem memory id sem) reusable with
    ⟨_, missing⟩ | ⟨a, k', moved, same⟩
  · refine absurd ?_ (missing _ (runs.ready settled))
    rw [hasPid_iff]
    exact ⟨settled.table.ne_zero settled.table.current, settled.table.getCurrentPid.symm⟩
  · have self : k.getCurrentPid = k'.getCurrentPid := moved.getCurrentPid.symm
    have table : Table (k.withSem memory id sem) := settled.withSem.table
    rw [same, if_pos self]
    exact yield_outcome given remains plain
      (StacksKept.withSem.trans (moved.stacksKept table (by decide))) moved.current
      (moved.table table rfl (by decide) fun dead => absurd dead (by decide)) reusable

omit [MemoryManager M] in
/-- The semaphore is edited under its lock, and unlocked. -/
theorem release_acquired (memory : M) (change : Sem → Sem) :
    release id (editSem { k.acquire id with memory := memory } id change) = k.withSem memory id
      { change { k.semaphores id with lock := true } with lock := false } := by
  have marked : { k.acquire id with memory := memory } =
      k.withSem memory id { k.semaphores id with lock := true } := rfl
  rw [marked, editSem_withSem, release_withSem]

omit [MemoryManager M] in
theorem release_unchanged (memory : M) : release id { k.acquire id with memory := memory } =
    k.withSem memory id { k.semaphores id with lock := false } := by
  have marked : { k.acquire id with memory := memory } =
      k.withSem memory id { k.semaphores id with lock := true } := rfl
  rw [marked, release_withSem]

/-- Without a token and with memory for the pid, `wait` puts its caller to sleep. -/
theorem wait_sleeps (rsp : Nat) (none : (k.semaphores id).value = 0)
    (granted : (allocMemory pidSize k.memory).1 ≠ 0) : ∃ memory sem,
    (wait id rsp k).2 =
      (blockProcessBySem k.getCurrentPid rsp (k.withSem memory id sem)).2 := by
  have token : ¬ 0 < ((k.acquire id).semaphores id).value := by
    rw [acquire_semaphores]
    exact Nat.not_lt.mpr (Nat.le_of_eq none)
  have first : (allocMemory pidSize (k.acquire id).memory).1 ≠ 0 := granted
  unfold wait
  rw [if_neg token]
  dsimp only
  rw [if_neg first]
  dsimp only
  split
  · exact ⟨_, _, congrArg (fun k => (blockProcessBySem _ rsp k).2) (release_unchanged _)⟩
  · split
    · exact ⟨_, _, congrArg (fun k => (blockProcessBySem _ rsp k).2) (release_unchanged _)⟩
    · exact ⟨_, _, congrArg (fun k => (blockProcessBySem _ rsp k).2) (release_acquired _ _)⟩

/-- Otherwise it returns at once. -/
theorem wait_returns (rsp : Nat) (awake : ¬ ((k.semaphores id).value = 0 ∧
    (allocMemory pidSize k.memory).1 ≠ 0)) : ∃ memory sem,
    (wait id rsp k).2 = k.withSem memory id sem := by
  unfold wait
  dsimp only
  split
  · rw [acquire_eq, editSem_withSem, release_withSem]
    exact ⟨_, _, rfl⟩
  · rename_i token
    rw [acquire_semaphores] at token
    have refused : (allocMemory pidSize (k.acquire id).memory).1 = 0 :=
      not_not.mp fun granted => awake ⟨Nat.eq_zero_of_not_pos token, granted⟩
    rw [if_pos refused]
    exact ⟨_, _, release_unchanged _⟩

theorem semWait_outcome (settled : Settled k) (runs : k.UserRuns) (reusable : NodesReusable M)
    (event : label.event = .call (.semWait id)) : Outcome label k (semWait id label.rsp k).2 := by
  have given : gives label k =
      decide ((k.semaphores id).value = 0 ∧ (allocMemory pidSize k.memory).1 ≠ 0) := by
    unfold gives
    rw [event]
  have remains : exits label k = false := by
    unfold exits
    rw [event]
  have plain : creates label k = none := by
    unfold creates
    rw [event]
  by_cases sleeps : (k.semaphores id).value = 0 ∧ (allocMemory pidSize k.memory).1 ≠ 0
  · obtain ⟨memory, sem, same⟩ := wait_sleeps label.rsp sleeps.1 sleeps.2
    change Outcome label k (wait id label.rsp k).2
    rw [same]
    exact blockProcessBySem_outcome _ memory sem settled runs reusable
      (given.trans (decide_eq_true sleeps)) remains plain
  · obtain ⟨memory, sem, same⟩ := wait_returns label.rsp sleeps
    change Outcome label k (wait id label.rsp k).2
    rw [same]
    refine .stays (given.trans (decide_eq_false sleeps)) remains plain .withSem rfl fun tick => ?_
    rw [event] at tick
    cases tick

theorem unblockProcessBySem_outcome (id : Int) (memory : M) (sem : Sem) (settled : Settled k)
    (reusable : NodesReusable M) (given : gives label k = false) (remains : exits label k = false)
    (plain : creates label k = none) (other : label.event ≠ .timerTick) :
    Outcome label k (unblockProcessBySem pid (k.withSem memory id sem)).2 := by
  rcases unblockProcessBySem_cases pid (k.withSem memory id sem) reusable with
    ⟨same, _⟩ | ⟨a, k', same, moved⟩
  · rw [same]
    exact .stays given remains plain .withSem rfl fun tick => absurd tick other
  · rw [same]
    have table : Table (k.withSem memory id sem) := settled.withSem.table
    exact .stays given remains plain
      (StacksKept.withSem.trans (moved.stacksKept table (by decide))) moved.current
      fun tick => absurd tick other

theorem waitpid_outcome {s : System M} (settled : Settled s.kernel) (runs : s.kernel.UserRuns)
    (reusable : NodesReusable M) : Outcome ⟨.call (.waitpid pid), rsp⟩ s.kernel
      (s.perform (.waitpid pid) rsp).kernel := by
  have way := waitpid_cases pid rsp reusable settled (runs.ready settled)
  have given : gives ⟨.call (.waitpid pid), rsp⟩ s.kernel =
      decide ((waitpid pid rsp s.kernel).1 = .asleep) := rfl
  rw [perform_waitpid]
  generalize waitpid pid rsp s.kernel = result at way given ⊢
  obtain ⟨outcome, after⟩ := result
  cases way with
  | absent _ => exact .stays given rfl rfl .refl rfl nofun
  | stranger _ _ => exact .stays given rfl rfl .refl rfl nofun
  | refused _ _ => exact .stays given rfl rfl .refl rfl nofun
  | reaped _ _ _ reaped =>
    exact .stays given rfl rfl (setWaiting_stacksKept.trans reaped.stacksKept)
      reaped.fields.2.2.2.1 nofun
  | asleep _ _ _ moved same =>
    have before := settled.setWaiting s.kernel.processes.currentProcess pid
    rw [same]
    exact yield_outcome given rfl rfl
      (setWaiting_stacksKept.trans (moved.stacksKept before.table (by decide))) moved.current
      (moved.table before.table rfl (by decide) fun dead => absurd dead (by decide)) reusable

omit [MemoryManager M] in
theorem changePrio_stacksKept : StacksKept k (changePrio pid newPrio k).2 ∧
    (changePrio pid newPrio k).2.processes.currentProcess = k.processes.currentProcess := by
  unfold changePrio
  dsimp only
  split
  · exact ⟨.refl, rfl⟩
  · split
    · exact ⟨.refl, rfl⟩
    · refine ⟨?_, rfl⟩
      dsimp only
      apply StacksKept.editPcb
      exact fun _ => ⟨rfl, rfl, rfl⟩

/-- Every event that can happen has one of the outcomes. -/
theorem event_outcome {s t : System M} (step : System.Step s label t)
    (settled : Settled s.kernel) (recorded : System.Recorded s.kernel)
    (reusable : NodesReusable M) : Outcome label s.kernel t.kernel := by
  cases step with
  | timerTick => exact tick_outcome _ settled reusable
  | ctrlC => exact kill_outcome settled reusable recorded rfl rfl rfl nofun
  | resume runs _ =>
    rcases waitpidResume_cases _ s.kernel.processes.currentProcess settled with
      ⟨_, same⟩ | ⟨k', _, reaped, same⟩
    · rw [same]
      exact .stays rfl rfl rfl .refl rfl nofun
    · rw [same]
      refine .stays rfl rfl rfl ?_ ?_ nofun
      · exact setWaiting_stacksKept.trans reaped.stacksKept
      · exact reaped.fields.2.2.2.1
  | @call rsp call runs _ admits =>
    cases call with
    | yield => exact yield_outcome rfl rfl rfl .refl rfl settled.table reusable
    | createProcess params => exact createProcess_outcome settled admits runs.2 rfl
    | blockProcess pid =>
      rcases blockProcess_cases pid rsp s.kernel reusable with
        ⟨same, _⟩ | ⟨source, a, k', which, moved, same⟩
      · have given : gives ⟨.call (.blockProcess pid), rsp⟩ s.kernel = false := by
          refine decide_eq_false fun both => ?_
          rw [same] at both
          cases both.1
        change Outcome _ _ (blockProcess pid rsp s.kernel).2
        rw [same]
        exact .stays given rfl rfl .refl rfl nofun
      · have given : gives ⟨.call (.blockProcess pid), rsp⟩ s.kernel =
            decide (pid = k'.getCurrentPid) := by
          rw [moved.getCurrentPid]
          refine decide_eq_decide.mpr ⟨And.right, fun self => ⟨?_, self⟩⟩
          rw [same]
        have alive : source ≠ zombieQueue := by
          rintro rfl
          rcases which with wrong | wrong <;> cases wrong
        change Outcome _ _ (blockProcess pid rsp s.kernel).2
        rw [same]
        exact moved.outcome settled reusable alive rfl (by decide) (by decide) _ given rfl rfl nofun
    | unblockProcess pid =>
      change Outcome _ _ (unblockProcess pid s.kernel).2
      rcases unblockProcess_cases pid s.kernel reusable with ⟨same, _⟩ | ⟨a, k', same, moved⟩
      · rw [same]
        exact .stays rfl rfl rfl .refl rfl nofun
      · rw [same]
        exact .stays rfl rfl rfl (moved.stacksKept settled.table (by decide)) moved.current nofun
    | blockProcessBySem =>
      have given : gives ⟨.call .blockProcessBySem, rsp⟩ s.kernel = true :=
        decide_eq_true (blockProcessBySem_done rsp settled runs reusable)
      have slept := blockProcessBySem_outcome 0 s.kernel.memory (s.kernel.semaphores 0) settled
        runs reusable given rfl rfl
      rw [withSem_self] at slept
      exact slept
    | unblockProcessBySem pid =>
      have woken : Outcome ⟨.call (.unblockProcessBySem pid), rsp⟩ s.kernel (unblockProcessBySem
          pid (s.kernel.withSem s.kernel.memory 0 (s.kernel.semaphores 0))).2 :=
        unblockProcessBySem_outcome 0 _ _ settled reusable rfl rfl rfl nofun
      rw [withSem_self] at woken
      exact woken
    | kill pid retValue => exact kill_outcome settled reusable recorded rfl rfl rfl nofun
    | waitpid pid => exact waitpid_outcome settled runs reusable
    | changePrio pid newPrio =>
      refine .stays rfl rfl rfl ?_ ?_ nofun
      · exact changePrio_stacksKept.1
      · exact changePrio_stacksKept.2
    | semInit id value =>
      have way := semInit_cases id value s.kernel
      change Outcome _ _ (semInit id value s.kernel).2
      generalize semInit id value s.kernel = result at way ⊢
      cases way with
      | refused _ => exact .stays rfl rfl rfl .refl rfl nofun
      | failed _ _ => exact .stays rfl rfl rfl .withSem rfl nofun
      | opened _ => exact .stays rfl rfl rfl .withSem rfl nofun
    | semWait id => exact semWait_outcome settled runs reusable rfl
    | semPost id =>
      have way := post_cases id s.kernel
      change Outcome _ _ (post id s.kernel).2
      generalize post id s.kernel = result at way ⊢
      cases way with
      | counted _ => exact .stays rfl rfl rfl .withSem rfl nofun
      | handed _ => exact unblockProcessBySem_outcome _ _ _ settled reusable rfl rfl rfl nofun

end Kernel
end SoKernel
