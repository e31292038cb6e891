import Mathlib.Tactic
import SoKernel.Kernel.CreationOutcome
import SoKernel.Kernel.Usage

namespace SoKernel
open MemoryManager QueueName Lib Kernel SoKernel.System

variable {M : Type}

/-- An allocator with a record of the blocks that it handed out and that were not freed. -/
structure Logged (M : Type) where
  memory : M
  live : List Block

section
variable [MemoryManager M]

instance : MemoryManager (Logged M) where
  allocMemory size logged :=
    let (a, memory) := allocMemory size logged.memory
    (a, ⟨memory, if a = 0 then logged.live else (a, size) :: logged.live⟩)
  freeMemory a logged :=
    ⟨freeMemory a logged.memory, logged.live.eraseP fun block => block.1 = a⟩

theorem NodesReusable.logged (reusable : NodesReusable M) : NodesReusable (Logged M) :=
  fun address logged => reusable address logged.memory

end

namespace Logged

variable [MemoryManager M] {size : Nat} {logged : Logged M} {a : Addr}

theorem granted (some : (allocMemory size logged).1 ≠ 0) :
    (allocMemory size logged).2.live = ((allocMemory size logged).1, size) :: logged.live :=
  if_neg some

theorem refused (none : (allocMemory size logged).1 = 0) :
    (allocMemory size logged).2.live = logged.live := if_pos none

end Logged

namespace Kernel

/-- The new process has a pid, is on one of the two queues, and every call finds it. -/
structure Schedulable [MemoryManager M] (a : Addr) (pid : Int) (k k' : Kernel M) : Prop where
  fresh : a ∉ k.pcbs
  inTable : a ∈ k'.pcbs
  named : (k'.pcb a).pid = pid
  place : (a ∈ k'.items readyQueue ∧ a ∉ k'.items blockedQueue) ∨
    (a ∈ k'.items blockedQueue ∧ a ∉ k'.items readyQueue)
  unblocks : a ∈ k'.items blockedQueue → (unblockProcess pid k').1 = 0
  dies : ∀ retValue rsp, (kill pid retValue rsp k').1 = 0
  awaited : ∀ rsp, (waitpid pid rsp k').1 = .asleep

variable [MemoryManager M]

/-- The claim on one call. -/
def AllOrNothing (params : CreationParams) (k : Kernel (Logged M)) : Prop :=
  let (result, after) := createProcess params k
  (result = -1 ∧ after.processes.queue = k.processes.queue ∧
      after.memory.live.Perm k.memory.live) ∨
    (result ≠ -1 ∧ ∃ a, Schedulable a result k after)

/-- The call fails at its arguments, its PCB or its stack, or else the arguments leave room
for the first frame, the process has a queue, and its node is granted. For the frame there is room
above address 0 unless the arguments are larger than the address of the stack. -/
def Complete (params : CreationParams) (k : Kernel M) : Prop :=
  ¬ params.Valid ∨ k.pcbRequest = 0 ∨ k.stackRequest = 0 ∨
    copiedArgs params.arg + 176 ≤ k.stackRequest + stackSize ∧
      ∃ name, params.target = some name ∧ (allocMemory nodeSize k.requested).1 ≠ 0

instance (params : CreationParams) : Decidable params.Valid := inferInstanceAs (Decidable (¬ _))

instance (params : CreationParams) (k : Kernel M) : Decidable (Complete params k) :=
  inferInstanceAs (Decidable (_ ∨ _))

instance (k : Kernel M) : Decidable k.FreshPcb := inferInstanceAs (Decidable (_ ∉ _))

variable {k : Kernel M} {k' : Kernel (Logged M)} {params : CreationParams} {name : QueueName}

omit [MemoryManager M] in
theorem processStackFrame_eq_zero (base copied : Nat) :
    processStackFrame (base - copied) = 0 ↔ base < copied + 176 := by
  unfold processStackFrame
  omega

theorem builtRsp_eq_zero : builtRsp params k = 0 ↔
    k.stackRequest = 0 ∨ k.stackRequest + stackSize < copiedArgs params.arg + 176 := by
  rw [builtRsp_eq]
  split
  · rename_i refused
    simp only [refused, true_or]
  · rename_i granted
    rw [or_iff_right granted]
    exact processStackFrame_eq_zero _ _

theorem described_memory (params : CreationParams) (k : Kernel M) :
    (k.described params).memory = k.requested := by
  unfold described
  split <;> rfl

theorem abandoned_live (params : CreationParams) (pcb : k'.pcbRequest ≠ 0) :
    (k'.abandoned params).memory.live.Perm k'.memory.live ↔ k'.stackRequest = 0 := by
  have first : (allocMemory pcbSize k'.memory).2.live =
      (k'.pcbRequest, pcbSize) :: k'.memory.live := Logged.granted pcb
  change (k'.requested.live.eraseP fun block => block.1 = k'.pcbRequest).Perm _ ↔ _
  constructor
  · intro same
    by_contra stack
    have second : k'.requested.live = (k'.stackRequest, stackSize) ::
        (allocMemory pcbSize k'.memory).2.live := Logged.granted stack
    rw [second, first] at same
    have length := same.length_eq
    by_cases twice : k'.stackRequest = k'.pcbRequest
    · rw [List.eraseP_cons_of_pos (by simpa using twice)] at length
      exact Nat.succ_ne_self _ length
    · rw [List.eraseP_cons_of_neg (by simpa using twice),
        List.eraseP_cons_of_pos (by simp)] at length
      exact Nat.succ_ne_self _ length
  · intro refused
    have second : k'.requested.live = (allocMemory pcbSize k'.memory).2.live :=
      Logged.refused refused
    rw [second, first, List.eraseP_cons_of_pos (by simp)]

theorem described_parentPid :
    ((k.described params).pcb k.pcbRequest).parentPid = k.getCurrentPid := by
  unfold described
  split
  · rw [setState_pcb, if_pos rfl, editPcb_pcb, if_pos rfl, entered_pcb]
    rfl
  · rw [editPcb_pcb, if_pos rfl, entered_pcb]
    rfl

/-- A living child of the process that runs can be killed and waited for. -/
theorem Settled.child_calls {child : Addr} (settled : Settled k) (reusable : NodesReusable M)
    (user : k.processes.currentProcess ≠ k.processes.idleProcess) (pid : 1 < (k.pcb child).pid)
    (kin : (k.pcb child).parentPid = k.getCurrentPid) (member : child ∈ k.items name)
    (place : name = readyQueue ∨ name = blockedQueue) :
    (∀ retValue rsp, (Kernel.kill (k.pcb child).pid retValue rsp k).1 = 0) ∧
      ∀ rsp, (Kernel.waitpid (k.pcb child).pid rsp k).1 = .asleep := by
  have table := settled.table
  have present := table.ne_zero (table.queued member)
  have found : k.getProcess (k.pcb child).pid = child :=
    table.getProcess_eq (.inr (.inr ⟨name, member⟩)) rfl
  have living : name ≠ zombieQueue := by
    rcases place with ready | blocked
    · rw [ready]
      decide
    · rw [blocked]
      decide
  constructor
  · intro retValue rsp
    rcases kill_cases (k.pcb child).pid retValue rsp reusable settled with
      ⟨_, kernel | missing⟩ | ⟨_, _, _, _, _, _, _, same⟩
    · omega
    · exact absurd (hasPid_iff.mpr ⟨present, rfl⟩) (missing name living child member)
    · rw [same]
  · intro rsp
    have ready := settled.scheduled.resolve_left user
    have way := waitpid_cases (k.pcb child).pid rsp reusable settled ready
    generalize Kernel.waitpid (k.pcb child).pid rsp k = result at way ⊢
    obtain ⟨outcome, after⟩ := result
    cases way with
    | absent none =>
      rw [found] at none
      exact absurd none present
    | stranger _ other =>
      rw [found] at other
      exact absurd kin other
    | refused _ late =>
      rw [found] at late
      have fits := table.fits member
      rcases place with same | same
      · rw [same] at fits
        rcases fits with state | state
        · rw [state] at late
          exact absurd late (by decide)
        · rw [state] at late
          exact absurd late (by decide)
      · rw [same] at fits
        change _ = ProcessState.blocked at fits
        rw [fits] at late
        exact absurd late (by decide)
    | reaped _ dead _ _ =>
      rw [found] at dead
      exact absurd dead (table.alive member living)
    | asleep _ _ _ _ _ => rfl

/-- The new process, once it is on a queue. -/
theorem placed_schedulable (settled : Settled k) (reusable : NodesReusable M) (fresh : k.FreshPcb)
    (user : k.processes.currentProcess ≠ k.processes.idleProcess)
    (created : createProcess params k = (k.nextFreePid, k.placed params))
    (place : name = readyQueue ∨ name = blockedQueue)
    (moved : Requeued (k.described params) (k.placed params) (push k.items name k.pcbRequest)) :
    Schedulable k.pcbRequest k.nextFreePid k (k.placed params) := by
  have creates := createProcess_creates params settled fresh user
  rw [created] at creates
  have after : Settled (k.placed params) := settled.creates user creates
  have spares : Spares k.pcbRequest k (k.placed params) := by
    cases creates with
    | failed spares _ _ _ => exact spares
    | created spares _ _ _ _ => exact spares
  have userPid := settled.userPid user
  obtain ⟨_, _, _, lists⟩ := moved
  have unlisted : ∀ {other}, k.pcbRequest ∉ k.items other :=
    fun member => fresh (settled.table.queued member)
  have items : ∀ {other}, k.pcbRequest ∈ (k.placed params).items other ↔ other = name := by
    intro other
    rw [lists, mem_push, or_iff_right unlisted, and_iff_left rfl]
  have member : k.pcbRequest ∈ (k.placed params).items name := items.mpr rfl
  have named : ((k.placed params).pcb k.pcbRequest).pid = k.nextFreePid := by
    rw [placed_pcb.1]
    exact described_pid
  have kin : ((k.placed params).pcb k.pcbRequest).parentPid = (k.placed params).getCurrentPid := by
    rw [placed_pcb.1, described_parentPid, after.table.getCurrentPid, settled.table.getCurrentPid,
      spares.current, spares.kept settled.table.current]
  have running : (k.placed params).processes.currentProcess ≠
      (k.placed params).processes.idleProcess := by
    rw [spares.current, spares.idle]
    exact user
  obtain ⟨dies, awaited⟩ := after.child_calls reusable running (by omega) kin member place
  rw [named] at dies awaited
  refine ⟨fresh, after.table.queued member, named, ?_, ?_, dies, awaited⟩
  · rw [items, items]
    rcases place with same | same
    · rw [same]
      decide
    · rw [same]
      decide
  · intro blocked
    rcases unblockProcess_cases k.nextFreePid (k.placed params) reusable with
      ⟨_, missing⟩ | ⟨_, _, same, _⟩
    · exact absurd named (missing.elim after.table blocked)
    · rw [same]

omit [MemoryManager M] in
theorem target_cases (here : params.target = some name) :
    name = readyQueue ∨ name = blockedQueue := by
  unfold CreationParams.target at here
  split at here
  · cases here
    exact .inr rfl
  · split at here
    · cases here
      exact .inl rfl
    · cases here

/-- Creation is all or nothing exactly when the arguments are refused, an early allocation
fails, or the new process has room for its arguments and gets a node on a queue. -/
theorem Settled.allOrNothing_iff (settled : Settled k') (reusable : NodesReusable M)
    (fresh : k'.FreshPcb) (user : k'.processes.currentProcess ≠ k'.processes.idleProcess) :
    AllOrNothing params k' ↔ Complete params k' := by
  have userPid := settled.userPid user
  have whole := createProcess_user params settled user
  unfold AllOrNothing Complete CreationParams.Valid
  by_cases invalid : params.name = none ∨ params.function = 0
  · rw [if_pos invalid] at whole
    rw [whole]
    exact iff_of_true (.inl ⟨rfl, rfl, .refl _⟩) (.inl (not_not_intro invalid))
  rw [if_neg invalid] at whole
  by_cases pcb : k'.pcbRequest = 0
  · rw [if_pos pcb] at whole
    rw [whole]
    refine iff_of_true (.inl ⟨rfl, rfl, ?_⟩) (.inr (.inl pcb))
    change List.Perm (allocMemory pcbSize k'.memory).2.live _
    rw [Logged.refused pcb]
  rw [if_neg pcb] at whole
  rw [or_iff_right (not_not_intro invalid), or_iff_right pcb]
  by_cases failed : builtRsp params k' = 0
  · rw [if_pos failed] at whole
    rw [whole]
    dsimp only
    have never : ¬ (-1 : Int) ≠ -1 := by decide
    rw [or_iff_left fun made => never made.1, abandoned_live params pcb, eq_self_iff_true, true_and]
    by_cases refused : k'.stackRequest = 0
    · exact iff_of_true ⟨rfl, refused⟩ (.inl refused)
    · have long := (builtRsp_eq_zero.mp failed).resolve_left refused
      apply iff_of_false (fun kept => refused kept.2)
      rintro (none | ⟨room, _⟩)
      · exact refused none
      · exact absurd room (Nat.not_le.mpr long)
  · rw [if_neg failed] at whole
    rw [whole]
    dsimp only
    have room := mt builtRsp_eq_zero.mpr failed
    push Not at room
    have positive : k'.nextFreePid ≠ -1 := by omega
    rw [or_iff_right fun gone => positive gone.1, or_iff_right room.1, and_iff_right positive,
      and_iff_right room.2]
    rcases placed_cases params k' with ⟨⟨_, _, _, lists⟩, refused⟩ | ⟨name, here, granted, moved⟩
    · apply iff_of_false
      · rintro ⟨a, schedulable⟩
        have own : a = k'.pcbRequest := by
          have inTable := schedulable.inTable
          rw [placed_pcb.2, (described_fields params k').2.1] at inTable
          exact (Finset.mem_insert.mp inTable).resolve_right schedulable.fresh
        have unlisted : ∀ {other}, a ∉ (k'.placed params).items other := by
          intro other member
          rw [lists] at member
          exact schedulable.fresh (settled.table.queued member)
        rcases schedulable.place with ⟨ready, _⟩ | ⟨blocked, _⟩
        · exact unlisted ready
        · exact unlisted blocked
      · rintro ⟨name, here, granted⟩
        rw [← described_memory params] at granted
        exact granted (refused name here)
    · rw [described_memory] at granted
      have schedulable := placed_schedulable settled reusable.logged fresh user whole
        (target_cases here) moved
      exact iff_of_true ⟨_, schedulable⟩ ⟨name, here, granted⟩

end Kernel

namespace Logged

/-- The kernel booted on unbounded memory whose blocks are recorded. -/
def kernel : Kernel (Logged Bump) :=
  (boot 1 2 (fun _ => Bump.blank) ⟨⟨0⟩, []⟩).get (by decide +kernel)

theorem booted : Booted kernel where
  main := ⟨1, 2, fun _ => Bump.blank, ⟨⟨0⟩, []⟩, (Option.some_get _).symm⟩
  idle := by decide +kernel
  shell := ⟨kernel.processes.currentProcess, by decide +kernel, by decide +kernel⟩

end Logged

namespace Kernel

end Kernel
end SoKernel
