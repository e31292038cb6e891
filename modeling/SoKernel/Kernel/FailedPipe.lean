import Mathlib.Tactic
import SoKernel.Kernel.Services
import SoKernel.Kernel.Bump

namespace SoKernel
open MemoryManager QueueName Lib Kernel SoKernel.System

variable {M : Type} [MemoryManager M]

namespace Kernel

/-- `semInit` of this id would succeed, with the heap as it is in `memory`. -/
def CanInit (id : Int) (memory : M) (k : Kernel M) : Prop :=
  0 ≤ id ∧ id < numSems ∧ (k.semaphores id).used = false ∧ (allocMemory queueSize memory).1 ≠ 0

/-- The heap after one more wait list. -/
def listed (memory : M) : M := (allocMemory queueSize memory).2

/-- The next three semaphores of the kernel can be initialised one after the other. -/
def CanOpen (k : Kernel M) : Prop :=
  CanInit k.nextSemId k.memory k ∧ CanInit (k.nextSemId + 1) (listed k.memory) k ∧
    CanInit (k.nextSemId + 2) (listed (listed k.memory)) k

/-- Every pipe is open. -/
def AllOpen (k : Kernel M) : Prop := ∀ slot, slot < maxPipes → (k.pipes slot).isOpen = true

/-- The claim on one call. -/
def LeavesNothing (k : Kernel M) : Prop :=
  (createPipe k).1 = -1 →
    (∀ slot, ((createPipe k).2.pipes slot).isOpen = (k.pipes slot).isOpen) ∧
      ∀ id, ((createPipe k).2.semaphores id).used = (k.semaphores id).used

instance (id : Int) (memory : M) (k : Kernel M) : Decidable (CanInit id memory k) :=
  inferInstanceAs (Decidable (_ ∧ _))

instance (k : Kernel M) : Decidable (CanOpen k) := inferInstanceAs (Decidable (_ ∧ _))

instance (k : Kernel M) : Decidable (AllOpen k) :=
  inferInstanceAs (Decidable (∀ slot, slot < maxPipes → _))

variable {k k' : Kernel M} {id : Int} {value slot : Nat} {pipe : Pipe} {m : M}

theorem semInit_refused (cannot : ¬ CanInit id k.memory k) : (semInit id value k).1 = -1 := by
  unfold semInit
  by_cases range : id < 0 ∨ numSems ≤ id
  · rw [if_pos range]
  · rw [if_neg range]
    cases used : (k.semaphores id).used with
    | true => rfl
    | false =>
      by_cases none : (allocMemory queueSize k.memory).1 = 0
      · simp only [none, if_true, Bool.false_eq_true, if_false]
      · exfalso
        apply cannot
        push Not at range
        exact ⟨range.1, range.2, used, none⟩

theorem semInit_opens {n : Nat} (can : CanInit id k.memory k) :
    (semInit id n k).1 = 0 ∧ (semInit id n k).2.memory = listed k.memory ∧
      ∀ other, other ≠ id → (semInit id n k).2.semaphores other = k.semaphores other := by
  obtain ⟨low, high, unused, granted⟩ := can
  have range : ¬ (id < 0 ∨ numSems ≤ id) := by
    push Not
    exact ⟨low, high⟩
  refine ⟨?_, ?_, fun other => (semInit_inits id n k).others⟩
  · unfold semInit
    simp only [range, unused, granted, Bool.false_eq_true, if_false]
  · unfold semInit
    simp only [range, unused, granted, Bool.false_eq_true, if_false]
    rfl

theorem canInit_congr (heap : k'.memory = m) (same : k'.semaphores id = k.semaphores id) :
    CanInit id k'.memory k' ↔ CanInit id m k := by
  unfold CanInit
  rw [same, heap]

/-- The three calls succeed exactly when each of them can. -/
theorem initPipeSems_status (distinct : pipe.sems.Distinct) (k : Kernel M) :
    (initPipeSems pipe k).1 =
      if CanInit pipe.semReaders k.memory k ∧ CanInit pipe.semWriters (listed k.memory) k ∧
        CanInit pipe.mutex (listed (listed k.memory)) k then 0 else -1 := by
  obtain ⟨readersWriters, readersMutex, writersMutex⟩ := distinct
  change pipe.semReaders ≠ pipe.semWriters at readersWriters
  change pipe.semReaders ≠ pipe.mutex at readersMutex
  change pipe.semWriters ≠ pipe.mutex at writersMutex
  have stop : (-1 : Int) < 0 := by decide
  have goOn : ¬ (0 : Int) < 0 := by decide
  unfold initPipeSems
  dsimp only
  by_cases first : CanInit pipe.semReaders k.memory k
  · obtain ⟨opened, heap, others⟩ := semInit_opens (n := 0) first
    rw [opened, if_neg goOn]
    generalize (semInit pipe.semReaders 0 k).2 = k₁ at heap others ⊢
    have writers := canInit_congr heap (others _ readersWriters.symm)
    by_cases second : CanInit pipe.semWriters k₁.memory k₁
    · obtain ⟨opened₂, heap₂, others₂⟩ := semInit_opens (n := pipeBufferSize) second
      rw [opened₂, if_neg goOn]
      generalize (semInit pipe.semWriters pipeBufferSize k₁).2 = k₂ at heap₂ others₂ ⊢
      have mutex : CanInit pipe.mutex k₂.memory k₂ ↔
          CanInit pipe.mutex (listed (listed k.memory)) k := by
        apply canInit_congr
        · rw [heap₂, heap]
        · rw [others₂ _ writersMutex.symm, others _ readersMutex.symm]
      by_cases third : CanInit pipe.mutex k₂.memory k₂
      · rw [(semInit_opens third).1, if_neg goOn]
        rw [writers] at second
        rw [mutex] at third
        simp only [first, second, third, and_true, if_true]
      · rw [semInit_refused third, if_pos stop]
        rw [mutex] at third
        simp only [third, and_false, if_false]
    · rw [semInit_refused second, if_pos stop]
      rw [writers] at second
      simp only [second, false_and, and_false, if_false]
  · rw [semInit_refused first, if_pos stop]
    simp only [first, false_and, if_false]

omit [MemoryManager M] in
/-- The number of the pipe is no error. -/
theorem numbered_iff {low : Nat} {inner : Int × Kernel M} {can : Prop} [Decidable can]
    (status : inner.1 = if can then 0 else -1) :
    (if inner.1 < 0 then (-1, inner.2)
      else if low = 0 then (0, inner.2) else ((low : Int) + 2, inner.2)).1 = -1 ↔ ¬ can := by
  by_cases opens : can
  · rw [status, if_pos opens, if_neg (by decide)]
    refine iff_of_false ?_ (not_not_intro opens)
    split
    · exact show ¬ (0 : Int) = -1 by decide
    · dsimp only
      omega
  · rw [status, if_neg opens, if_pos (by decide)]
    exact iff_of_true rfl opens

/-- The search fails where every pipe is open or the new one cannot be. -/
theorem createPipeFrom_status (fuel low : Nat) (k : Kernel M) :
    (createPipeFrom fuel low k).1 = -1 ↔
      (∀ slot, low ≤ slot → slot < low + fuel → (k.pipes slot).isOpen = true) ∨ ¬ CanOpen k := by
  induction fuel generalizing low with
  | zero =>
    exact iff_of_true rfl (.inl fun slot above below => absurd below (Nat.not_lt.mpr above))
  | succ fuel ih =>
    unfold createPipeFrom
    cases taken : (k.pipes low).isOpen with
    | true =>
      rw [if_pos rfl, ih]
      apply or_congr_left
      constructor
      · intro rest slot above below
        by_cases here : slot = low
        · rw [here]
          exact taken
        · exact rest slot (by omega) (by omega)
      · intro all slot above below
        exact all slot (by omega) (by omega)
    | false =>
      rw [if_neg (by decide)]
      dsimp only
      have free : ¬ ∀ slot, low ≤ slot → slot < low + (fuel + 1) → (k.pipes slot).isOpen = true := by
        intro all
        have here := all low le_rfl (by omega)
        rw [taken] at here
        cases here
      rw [or_iff_right free]
      have pipe : (k.editPipe low fun pipe =>
          { pipe with
            readIdx := 0, writeIdx := 0, count := 0, isOpen := true
            semReaders := k.nextSemId, semWriters := k.nextSemId + 1
            mutex := k.nextSemId + 2 }).pipes low = assigned low k := Function.update_self _ _ _
      rw [pipe]
      exact numbered_iff (initPipeSems_status assigned_distinct _)

/-- A failed creation leaves nothing behind exactly when there was no closed pipe; none fails
where the next three semaphores can be initialised. -/
theorem leavesNothing_iff (ready : k.pipeManagerInit = true) :
    LeavesNothing k ↔ AllOpen k ∨ CanOpen k := by
  have ensured : createPipe k = createPipeFrom maxPipes 0 k := by
    unfold createPipe ensurePipeManagerInit
    rw [if_pos ready]
  have status := createPipeFrom_status maxPipes 0 k
  rw [← ensured, Nat.zero_add] at status
  have creates := createPipe_creates ready
  unfold LeavesNothing
  generalize createPipe k = result at status creates ⊢
  cases creates with
  | full taken =>
    refine iff_of_true (fun _ => ⟨fun _ => rfl, fun _ => rfl⟩) (.inl ?_)
    exact fun slot below => taken slot (Nat.zero_le _) below
  | @opens slot _ _ below closed _ opens =>
    have some : ¬ AllOpen k := by
      intro all
      rw [all _ below] at closed
      cases closed
    rw [or_iff_right some]
    have notAll : ¬ ∀ slot, 0 ≤ slot → slot < maxPipes → (k.pipes slot).isOpen = true :=
      fun all => some fun slot below => all slot (Nat.zero_le _) below
    rw [or_iff_right notAll] at status
    constructor
    · intro leaves
      by_contra cannot
      have same := (leaves (status.mpr cannot)).1 slot
      rw [opens.pipes, Function.update_self, closed] at same
      cases same
    · intro can failed
      exact absurd can (status.mp failed)

/-- In every reachable state. -/
theorem failed_pipe_leaves_nothing_iff {k₀ : Kernel M} {services : List Service} {s : System M}
    (reusable : NodesReusable M) (booted : Booted k₀)
    (run : Run Service.Step (started k₀) services s) :
    LeavesNothing s.kernel ↔ AllOpen s.kernel ∨ CanOpen s.kernel := by
  have inOrder : Service.InOrder s := run.preserves Service.InOrder
    (fun before step => step.inOrder reusable before) (Service.started_inOrder booted)
  exact leavesNothing_iff inOrder.ready

/-- The shell has opened the semaphore 200. -/
theorem failed_pipe_leaves_nothing_shell : ∃ s, Run Service.Step (started Bump.kernel)
    [.event ⟨.timerTick, 0⟩, .event ⟨.call (.semInit 200 1), 100⟩] s ∧
      (LeavesNothing s.kernel ↔ AllOpen s.kernel ∨ CanOpen s.kernel) := by
  have run := (Service.run_of_exec (Option.some_get (show (Service.exec (fun _ _ => True)
    [.event ⟨.timerTick, 0⟩, .event ⟨.call (.semInit 200 1), 100⟩]
    (started Bump.kernel)).isSome = true by decide +kernel)).symm).mono fun step => step.1
  exact ⟨_, run, failed_pipe_leaves_nothing_iff Bump.nodesReusable Bump.booted run⟩

/-- The shell has opened the semaphore that the next pipe would get. -/
theorem failed_pipe_stays_open : ¬ ∀ services (s : System Bump),
    Run Service.Step (started Bump.kernel) services s → LeavesNothing s.kernel := by
  intro leaves
  have run := (Service.run_of_exec (Option.some_get (show (Service.exec (fun _ _ => True)
    [.event ⟨.timerTick, 0⟩, .event ⟨.call (.semInit 4 1), 100⟩]
    (started Bump.kernel)).isSome = true by decide +kernel)).symm).mono fun step => step.1
  generalize reached : Option.get _ _ = s at run
  have slot := (leaves _ s run (by rw [← reached]; decide +kernel)).1 1
  rw [← reached] at slot
  revert slot
  decide +kernel

end Kernel
end SoKernel
