import SoKernel.Kernel.PipeTokens

namespace SoKernel
open MemoryManager QueueName Lib Kernel SoKernel.System

variable {M : Type}

/-! ## Opening a pipe -/

/-- A semaphore that `semInit` has just opened. -/
structure FreshSem (value : Nat) (sem : Sem) : Prop where
  used : sem.used = true
  listed : sem.blocked = some []
  value : sem.value = value

theorem FreshSem.waiting {value : Nat} {sem : Sem} (fresh : FreshSem value sem) :
    sem.waiting = [] := by
  unfold Sem.waiting
  rw [fresh.listed]
  rfl

/-- A pipe as `createPipe` leaves it. -/
structure FreshPipe (slot : Nat) (k : Kernel M) : Prop where
  isOpen : (k.pipes slot).isOpen = true
  indices : (k.pipes slot).readIdx = 0 ∧ (k.pipes slot).writeIdx = 0
  count : (k.pipes slot).count = 0
  distinct : (k.pipes slot).sems.Distinct
  readers : FreshSem 0 (k.semaphores (k.pipes slot).semReaders)
  writers : FreshSem pipeBufferSize (k.semaphores (k.pipes slot).semWriters)
  mutex : FreshSem 1 (k.semaphores (k.pipes slot).mutex)

theorem FreshPipe.congr {slot : Nat} {k k' : Kernel M} (fresh : FreshPipe slot k)
    (pipes : k'.pipes = k.pipes) (semaphores : k'.semaphores = k.semaphores) : FreshPipe slot k' := by
  obtain ⟨isOpen, indices, count, distinct, readers, writers, mutex⟩ := fresh
  constructor
  · rw [pipes]
    exact isOpen
  · rw [pipes]
    exact indices
  · rw [pipes]
    exact count
  · rw [pipes]
    exact distinct
  · rw [pipes, semaphores]
    exact readers
  · rw [pipes, semaphores]
    exact writers
  · rw [pipes, semaphores]
    exact mutex

namespace Kernel

variable [MemoryManager M] {k k' : Kernel M} {id : Int} {value slot : Nat}

/-- An unused semaphore of the table opens where there is memory. -/
theorem semInit_succeeds (succeeds : AllocSucceeds M) (range : 0 ≤ id ∧ id < numSems)
    (closed : (k.semaphores id).used = false) : (semInit id value k).1 = 0 := by
  have way := semInit_cases id value k
  generalize semInit id value k = result at way ⊢
  cases way with
  | refused why =>
    rcases why with low | high | used
    · exact absurd range.1 (Int.not_le.mpr low)
    · exact absurd range.2 (Int.not_lt.mpr high)
    · rw [closed] at used
      cases used
  | failed _ fails => exact absurd succeeds fails
  | opened _ => rfl

/-- What one `semInit` does. -/
structure Inits (id : Int) (value : Nat) (k : Kernel M) (result : Int × Kernel M) : Prop where
  pipes : result.2.pipes = k.pipes
  nextSemId : result.2.nextSemId = k.nextSemId
  pipeManagerInit : result.2.pipeManagerInit = k.pipeManagerInit
  others : ∀ {other}, other ≠ id → result.2.semaphores other = k.semaphores other
  status : result.1 = 0 ∨ result.1 = -1
  fresh : result.1 = 0 → FreshSem (value % 2 ^ 32) (result.2.semaphores id)
  closed : result.1 = 0 → (k.semaphores id).used = false
  range : result.1 = 0 → 0 ≤ id ∧ id < numSems
  succeeds : AllocSucceeds M → 0 ≤ id ∧ id < numSems → (k.semaphores id).used = false →
    result.1 = 0

theorem semInit_inits (id : Int) (value : Nat) (k : Kernel M) :
    Inits id value k (semInit id value k) := by
  have range : (semInit id value k).1 = 0 → 0 ≤ id ∧ id < numSems := by
    intro opened
    by_contra outside
    have refused : id < 0 ∨ numSems ≤ id := by omega
    unfold semInit at opened
    rw [if_pos refused] at opened
    cases opened
  have succeeds : AllocSucceeds M → 0 ≤ id ∧ id < numSems → (k.semaphores id).used = false →
      (semInit id value k).1 = 0 := semInit_succeeds
  have way := semInit_cases id value k
  generalize semInit id value k = result at way range succeeds
  cases way with
  | refused _ =>
    exact ⟨rfl, rfl, rfl, fun _ => rfl, .inr rfl, (fun never => nomatch never),
      (fun never => nomatch never), range, succeeds⟩
  | failed closed _ =>
    exact ⟨rfl, rfl, rfl, fun other => by rw [withSem_apply, if_neg other], .inr rfl,
      (fun never => nomatch never), fun _ => closed, range, succeeds⟩
  | opened closed =>
    refine ⟨rfl, rfl, rfl, fun other => by rw [withSem_apply, if_neg other], .inl rfl, ?_,
      fun _ => closed, range, succeeds⟩
    intro _
    dsimp only
    rw [withSem_semaphores]
    exact ⟨rfl, rfl, rfl⟩

/-- The three semaphores of a pipe are open. -/
structure InitsSems (ids : PipeSems) (k : Kernel M) (result : Int × Kernel M) : Prop where
  pipes : result.2.pipes = k.pipes
  nextSemId : result.2.nextSemId = k.nextSemId
  pipeManagerInit : result.2.pipeManagerInit = k.pipeManagerInit
  others : ∀ {other}, ¬ ids.own other → result.2.semaphores other = k.semaphores other
  status : result.1 = 0 ∨ result.1 = -1
  fresh : result.1 = 0 → FreshSem 0 (result.2.semaphores ids.readers) ∧
    FreshSem pipeBufferSize (result.2.semaphores ids.writers) ∧
    FreshSem 1 (result.2.semaphores ids.mutex)
  range : result.1 = 0 → ∀ id, ids.own id → 0 ≤ id ∧ id < numSems
  succeeds : AllocSucceeds M → (∀ id, ids.own id → 0 ≤ id ∧ id < numSems) →
    (∀ id, ids.own id → (k.semaphores id).used = false) → result.1 = 0

theorem initPipeSems_inits (pipe : Pipe) (distinct : pipe.sems.Distinct) (k : Kernel M) :
    InitsSems pipe.sems k (initPipeSems pipe k) := by
  obtain ⟨readersWriters, readersMutex, writersMutex⟩ := distinct
  have first := semInit_inits pipe.semReaders 0 k
  unfold initPipeSems
  dsimp only
  generalize semInit pipe.semReaders 0 k = one at first ⊢
  obtain ⟨status₁, k₁⟩ := one
  dsimp only
  have failed : ∀ {status : Int} {n : Nat} {id : Int} {before after : Kernel M},
      Inits id n before (status, after) → ¬ status < 0 → status = 0 := by
    intro status n id before after inits positive
    rcases inits.status with zero | negative
    · exact zero
    · exact absurd (show status < 0 by rw [show status = -1 from negative]; decide) positive
  have impossible : ∀ {status : Int}, status = 0 → ¬ status < 0 := fun zero =>
    Int.not_lt.mpr (Int.le_of_eq zero.symm)
  have readers : pipe.sems.own pipe.semReaders := .inl rfl
  have writers : pipe.sems.own pipe.semWriters := .inr (.inl rfl)
  have mutex : pipe.sems.own pipe.mutex := .inr (.inr rfl)
  by_cases stop : status₁ < 0
  · rw [if_pos stop]
    refine ⟨first.pipes, first.nextSemId, first.pipeManagerInit,
      fun other => first.others fun same => other (.inl same), .inr rfl,
      (fun never => nomatch never), (fun never => nomatch never), ?_⟩
    intro succeeds range closed
    exact absurd stop (impossible (first.succeeds succeeds (range _ readers) (closed _ readers)))
  rw [if_neg stop]
  have opened₁ := failed first stop
  have second := semInit_inits pipe.semWriters pipeBufferSize k₁
  generalize semInit pipe.semWriters pipeBufferSize k₁ = two at second ⊢
  obtain ⟨status₂, k₂⟩ := two
  dsimp only
  by_cases stop : status₂ < 0
  · rw [if_pos stop]
    refine ⟨second.pipes.trans first.pipes, second.nextSemId.trans first.nextSemId,
      second.pipeManagerInit.trans first.pipeManagerInit, ?_, .inr rfl,
      (fun never => nomatch never), (fun never => nomatch never), ?_⟩
    · intro other out
      exact (second.others fun same => out (.inr (.inl same))).trans
        (first.others fun same => out (.inl same))
    · intro succeeds range closed
      have same : k₁.semaphores pipe.semWriters = k.semaphores pipe.semWriters :=
        first.others readersWriters.symm
      refine absurd stop (impossible (second.succeeds succeeds (range _ writers) ?_))
      rw [same]
      exact closed _ writers
  rw [if_neg stop]
  have opened₂ := failed second stop
  have third := semInit_inits pipe.mutex 1 k₂
  generalize semInit pipe.mutex 1 k₂ = three at third ⊢
  obtain ⟨status₃, k₃⟩ := three
  dsimp only
  have pipes := third.pipes.trans (second.pipes.trans first.pipes)
  have nextSemId := third.nextSemId.trans (second.nextSemId.trans first.nextSemId)
  have init := third.pipeManagerInit.trans (second.pipeManagerInit.trans first.pipeManagerInit)
  have others : ∀ {other}, ¬ pipe.sems.own other → k₃.semaphores other = k.semaphores other := by
    intro other out
    exact (third.others fun same => out (.inr (.inr same))).trans
      ((second.others fun same => out (.inr (.inl same))).trans
        (first.others fun same => out (.inl same)))
  by_cases stop : status₃ < 0
  · rw [if_pos stop]
    refine ⟨pipes, nextSemId, init, others, .inr rfl, (fun never => nomatch never),
      (fun never => nomatch never), ?_⟩
    intro succeeds range closed
    have same : k₂.semaphores pipe.mutex = k.semaphores pipe.mutex :=
      (second.others writersMutex.symm).trans (first.others readersMutex.symm)
    refine absurd stop (impossible (third.succeeds succeeds (range _ mutex) ?_))
    rw [same]
    exact closed _ mutex
  rw [if_neg stop]
  have opened₃ := failed third stop
  refine ⟨pipes, nextSemId, init, others, .inl rfl, fun _ => ⟨?_, ?_, third.fresh opened₃⟩, ?_,
    fun _ _ _ => rfl⟩
  · have kept : k₃.semaphores pipe.semReaders = k₁.semaphores pipe.semReaders :=
      (third.others readersMutex).trans (second.others readersWriters)
    change FreshSem 0 (k₃.semaphores pipe.semReaders)
    rw [kept]
    exact first.fresh opened₁
  · have kept : k₃.semaphores pipe.semWriters = k₂.semaphores pipe.semWriters :=
      third.others writersMutex
    change FreshSem pipeBufferSize (k₃.semaphores pipe.semWriters)
    rw [kept]
    exact second.fresh opened₂
  · rintro _ id (rfl | rfl | rfl)
    · exact first.range opened₁
    · exact second.range opened₂
    · exact third.range opened₃

/-- The next three semaphores go to the pipe at `slot`. -/
def assigned (slot : Nat) (k : Kernel M) : Pipe :=
  { k.pipes slot with
    readIdx := 0, writeIdx := 0, count := 0, isOpen := true
    semReaders := k.nextSemId, semWriters := k.nextSemId + 1, mutex := k.nextSemId + 2 }

/-- What `createPipe` does with a closed pipe. -/
structure Opens (slot : Nat) (k : Kernel M) (result : Int × Kernel M) : Prop where
  pipes : result.2.pipes = Function.update k.pipes slot (assigned slot k)
  nextSemId : result.2.nextSemId = k.nextSemId + 3
  pipeManagerInit : result.2.pipeManagerInit = k.pipeManagerInit
  others : ∀ {id}, ¬ (assigned slot k).sems.own id → result.2.semaphores id = k.semaphores id
  id : result.1 = -1 ∨ result.1 = if slot = 0 then 0 else (slot : Int) + 2
  fresh : 0 ≤ result.1 → FreshPipe slot result.2
  range : 0 ≤ result.1 → k.nextSemId + 3 ≤ numSems
  succeeds : AllocSucceeds M → 0 ≤ k.nextSemId ∧ k.nextSemId + 3 ≤ numSems →
    (∀ id, k.nextSemId ≤ id → (k.semaphores id).used = false) → 0 ≤ result.1

/-- How the search for a closed pipe ends. -/
inductive CreatesPipe (low high : Nat) (k : Kernel M) : Int × Kernel M → Prop
  | full : (∀ slot, low ≤ slot → slot < high → (k.pipes slot).isOpen = true) →
      CreatesPipe low high k (-1, k)
  | opens {slot : Nat} {result : Int × Kernel M} : low ≤ slot → slot < high →
      (k.pipes slot).isOpen = false →
      (∀ other, low ≤ other → other < slot → (k.pipes other).isOpen = true) →
      Opens slot k result → CreatesPipe low high k result

omit [MemoryManager M] in
theorem assigned_distinct : (assigned slot k).sems.Distinct := by
  refine ⟨?_, ?_, ?_⟩
  · change k.nextSemId ≠ k.nextSemId + 1
    omega
  · change k.nextSemId ≠ k.nextSemId + 2
    omega
  · change k.nextSemId + 1 ≠ k.nextSemId + 2
    omega

theorem opens_of_inits {edited : Kernel M} {inner : Int × Kernel M}
    (kept : edited.pipes = Function.update k.pipes slot (assigned slot k) ∧
      edited.nextSemId = k.nextSemId + 3 ∧ edited.pipeManagerInit = k.pipeManagerInit ∧
      edited.semaphores = k.semaphores)
    (inits : InitsSems (assigned slot k).sems edited inner) :
    Opens slot k (if inner.1 < 0 then (-1, inner.2)
      else if slot = 0 then (0, inner.2) else ((slot : Int) + 2, inner.2)) := by
  obtain ⟨pipes, nextSemId, init, semaphores⟩ := kept
  have all : ∀ id, (assigned slot k).sems.own id ↔
      id = k.nextSemId ∨ id = k.nextSemId + 1 ∨ id = k.nextSemId + 2 := fun _ => .rfl
  have others : ∀ {id}, ¬ (assigned slot k).sems.own id →
      inner.2.semaphores id = k.semaphores id := by
    intro id out
    rw [inits.others out, semaphores]
  have here : inner.2.pipes slot = assigned slot k := by
    rw [inits.pipes, pipes]
    exact Function.update_self _ _ _
  by_cases failed : inner.1 < 0
  · rw [if_pos failed]
    refine ⟨inits.pipes.trans pipes, inits.nextSemId.trans nextSemId,
      inits.pipeManagerInit.trans init, others, .inl rfl, (fun never => nomatch never),
      (fun never => nomatch never), ?_⟩
    intro succeeds range unused
    have opened : inner.1 = 0 := by
      apply inits.succeeds succeeds
      · intro id own
        rcases (all id).mp own with rfl | rfl | rfl
        · omega
        · omega
        · omega
      · intro id own
        rw [semaphores]
        apply unused
        rcases (all id).mp own with rfl | rfl | rfl
        · omega
        · omega
        · omega
    omega
  · have opened : inner.1 = 0 := by
      rcases inits.status with zero | negative
      · exact zero
      · omega
    rw [if_neg failed]
    have shape : (if slot = 0 then ((0 : Int), inner.2) else ((slot : Int) + 2, inner.2)) =
        (if slot = 0 then (0 : Int) else (slot : Int) + 2, inner.2) := by
      split
      · rfl
      · rfl
    rw [shape]
    have positive : (0 : Int) ≤ if slot = 0 then 0 else (slot : Int) + 2 := by
      split
      · exact le_rfl
      · omega
    refine ⟨inits.pipes.trans pipes, inits.nextSemId.trans nextSemId,
      inits.pipeManagerInit.trans init, others, .inr rfl, fun _ => ?_, fun _ => ?_,
      fun _ _ _ => positive⟩
    · obtain ⟨readers, writers, mutex⟩ := inits.fresh opened
      constructor
      · change (inner.2.pipes slot).isOpen = true
        rw [here]
        rfl
      · change (inner.2.pipes slot).readIdx = 0 ∧ (inner.2.pipes slot).writeIdx = 0
        rw [here]
        exact ⟨rfl, rfl⟩
      · change (inner.2.pipes slot).count = 0
        rw [here]
        rfl
      · change (inner.2.pipes slot).sems.Distinct
        rw [here]
        exact assigned_distinct
      · change FreshSem 0 (inner.2.semaphores (inner.2.pipes slot).semReaders)
        rw [here]
        exact readers
      · change FreshSem pipeBufferSize (inner.2.semaphores (inner.2.pipes slot).semWriters)
        rw [here]
        exact writers
      · change FreshSem 1 (inner.2.semaphores (inner.2.pipes slot).mutex)
        rw [here]
        exact mutex
    · have last := inits.range opened (k.nextSemId + 2) (.inr (.inr rfl))
      omega

theorem createPipeFrom_creates (fuel low : Nat) (k : Kernel M) :
    CreatesPipe low (low + fuel) k (createPipeFrom fuel low k) := by
  induction fuel generalizing low with
  | zero => exact .full fun slot above below => absurd below (Nat.not_lt.mpr above)
  | succ fuel ih =>
    unfold createPipeFrom
    cases taken : (k.pipes low).isOpen with
    | true =>
      rw [if_pos rfl]
      have rest := ih (low + 1)
      rw [Nat.add_right_comm] at rest
      generalize createPipeFrom fuel (low + 1) k = result at rest ⊢
      have here : ∀ slot, low ≤ slot → ¬ low + 1 ≤ slot → (k.pipes slot).isOpen = true := by
        intro slot above below
        have same : slot = low := by omega
        rw [same]
        exact taken
      cases rest with
      | full rest =>
        refine .full fun slot above below => ?_
        by_cases further : low + 1 ≤ slot
        · exact rest slot further below
        · exact here slot above further
      | opens above below closed rest opens =>
        refine .opens (by omega) below closed (fun slot above below => ?_) opens
        by_cases further : low + 1 ≤ slot
        · exact rest slot further below
        · exact here slot above further
    | false =>
      rw [if_neg (by decide)]
      dsimp only
      refine .opens le_rfl (by omega) taken
        (fun slot above below => absurd below (Nat.not_lt.mpr above)) ?_
      have pipe : (k.editPipe low fun pipe =>
          { pipe with
            readIdx := 0, writeIdx := 0, count := 0, isOpen := true
            semReaders := k.nextSemId, semWriters := k.nextSemId + 1
            mutex := k.nextSemId + 2 }).pipes low = assigned low k := Function.update_self _ _ _
      rw [pipe]
      refine opens_of_inits ?_ (initPipeSems_inits (assigned low k) assigned_distinct _)
      exact ⟨rfl, rfl, rfl, rfl⟩

/-- The search starts at slot 0. -/
theorem createPipe_creates (ready : k.pipeManagerInit = true) :
    CreatesPipe 0 maxPipes k (createPipe k) := by
  unfold createPipe ensurePipeManagerInit
  rw [if_pos ready]
  have creates := createPipeFrom_creates maxPipes 0 k
  rw [Nat.zero_add] at creates
  exact creates

/-! ## After boot -/

/-- The pipes after boot: the shell has the first one. -/
structure BootPipes (k : Kernel M) : Prop where
  ready : k.pipeManagerInit = true
  shell : FreshPipe 0 k
  rest : ∀ slot, 0 < slot → slot < maxPipes → (k.pipes slot).isOpen = false
  nextSemId : k.nextSemId = 3
  unused : ∀ id, 3 ≤ id → (k.semaphores id).used = false

theorem Booted.pipes (booted : Booted k) : BootPipes k := by
  obtain ⟨shell, start⟩ := booted.start
  obtain ⟨before, unpiped, opened, same⟩ := start.piped
  have closed : ∀ slot, slot < maxPipes →
      (before.ensurePipeManagerInit.pipes slot).isOpen = false := by
    intro slot below
    unfold ensurePipeManagerInit initPipeManager
    rw [if_neg (by rw [unpiped.pipeManagerInit]; decide)]
    dsimp only
    rw [if_pos below]
    rfl
  have kept : before.ensurePipeManagerInit.nextSemId = 0 ∧
      before.ensurePipeManagerInit.pipeManagerInit = true ∧
      before.ensurePipeManagerInit.semaphores = before.semaphores := by
    unfold ensurePipeManagerInit initPipeManager
    rw [if_neg (by rw [unpiped.pipeManagerInit]; decide)]
    exact ⟨unpiped.nextSemId, rfl, rfl⟩
  have creates := createPipeFrom_creates maxPipes 0 before.ensurePipeManagerInit
  change CreatesPipe 0 (0 + maxPipes) before.ensurePipeManagerInit (createPipe before) at creates
  generalize createPipe before = result at creates opened same
  generalize before.ensurePipeManagerInit = ensured at creates closed kept
  obtain ⟨nextSemId, init, semaphores⟩ := kept
  cases creates with
  | full _ => cases opened
  | @opens slot _ _ below free lower opens =>
    have zero : slot = 0 := by
      by_contra later
      have first := lower 0 le_rfl (Nat.pos_of_ne_zero later)
      rw [closed 0 (by decide)] at first
      cases first
    subst zero
    have fresh := opens.fresh opened
    constructor
    · rw [same.pipeManagerInit, opens.pipeManagerInit]
      exact init
    · exact fresh.congr same.pipes same.semaphores
    · intro slot positive below
      rw [same.pipes, opens.pipes, Function.update_of_ne (Nat.ne_of_gt positive)]
      exact closed slot below
    · rw [same.nextSemId, opens.nextSemId, nextSemId]
      rfl
    · intro id above
      have out : ¬ (assigned 0 ensured).sems.own id := by
        change ¬ (id = ensured.nextSemId ∨ id = ensured.nextSemId + 1 ∨ id = ensured.nextSemId + 2)
        rw [nextSemId]
        omega
      rw [same.semaphores, opens.others out, semaphores]
      exact unpiped.unused id

/-! ## Pipes and events -/

/-- What opening a semaphore keeps and the pipes are nothing to. -/
theorem createPipe_preserves {Inv : Kernel M → Prop}
    (opened : ∀ {id value} {k : Kernel M}, Inv k → Inv (semInit id value k).2)
    (piped : ∀ (k : Kernel M) pipes nextSemId pipeManagerInit, Inv k → Inv { k with
      pipes := pipes, nextSemId := nextSemId, pipeManagerInit := pipeManagerInit })
    (start : Inv k) : Inv (createPipe k).2 := by
  have inits : ∀ pipe {k : Kernel M}, Inv k → Inv (initPipeSems pipe k).2 := by
    intro pipe k kept
    unfold initPipeSems
    dsimp only
    split
    · exact opened kept
    · split
      · exact opened (opened kept)
      · split
        · exact opened (opened (opened kept))
        · exact opened (opened (opened kept))
  have search : ∀ fuel low {k : Kernel M}, Inv k → Inv (createPipeFrom fuel low k).2 := by
    intro fuel
    induction fuel with
    | zero => exact fun _ _ kept => kept
    | succ fuel ih =>
      intro low k kept
      unfold createPipeFrom
      split
      · exact ih (low + 1) kept
      · dsimp only
        split
        · exact inits _ (piped k _ _ _ kept)
        · split
          · exact inits _ (piped k _ _ _ kept)
          · exact inits _ (piped k _ _ _ kept)
  unfold createPipe ensurePipeManagerInit
  split
  · exact search maxPipes 0 start
  · exact search maxPipes 0 (piped k _ _ _ start)

variable {own : Int → Prop}

/-- No semaphore in use is opened again. -/
theorem Serviced.semInit (serviced : Serviced own k) : Serviced own (semInit id value k).2 := by
  by_cases mine : own id
  · have refused : (Kernel.semInit id value k).2 = k := by
      have way := semInit_cases id value k
      have used := (serviced.opened id mine).1
      generalize Kernel.semInit id value k = result at way ⊢
      cases way with
      | refused _ => rfl
      | failed closed _ =>
        rw [used] at closed
        cases closed
      | opened closed =>
        rw [used] at closed
        cases closed
    rw [refused]
    exact serviced
  · exact (serviced.semInit_other mine).1

omit [MemoryManager M] in
/-- The pipes and their counter are nothing to the processes. -/
theorem Serviced.withPipes (serviced : Serviced own k) {pipes : Nat → Pipe} {nextSemId : Int}
    {pipeManagerInit : Bool} : Serviced own { k with
      pipes := pipes, nextSemId := nextSemId, pipeManagerInit := pipeManagerInit } := by
  have settled := serviced.settled
  exact serviced.same ⟨settled.table.congr rfl rfl rfl rfl rfl rfl rfl, settled.scheduled,
    settled.dispatched⟩ rfl ⟨rfl, rfl, .rfl, fun _ => rfl, fun _ => rfl, fun _ => rfl, fun _ => rfl⟩

theorem Serviced.createPipe (serviced : Serviced own k) : Serviced own (createPipe k).2 :=
  createPipe_preserves Serviced.semInit (fun _ _ _ _ serviced => serviced.withPipes) serviced

end Kernel

variable [MemoryManager M]

/-- The kernel after boot, events that name no process on a wait list, and calls of
`createPipe`. -/
inductive PipeReached : System M → Prop
  | reached {s : System M} : Clients.Reached s → PipeReached s
  | createPipe {s : System M} : PipeReached s →
      PipeReached { s with kernel := (Kernel.createPipe s.kernel).2 }
  | event {s t : System M} {label : Label} : PipeReached s → System.Step s label t →
      SparesWaiters label.event s.kernel → PipeReached t

theorem PipeReached.serviced {s : System M} (reached : PipeReached s) (reusable : NodesReusable M) :
    Serviced (fun _ => False) s.kernel := by
  induction reached with
  | reached reached => exact reached.serviced reusable fun _ never => never.elim
  | createPipe _ ih => exact ih.createPipe
  | event _ step spares ih =>
    exact ⟨System.Step.settled step reusable ih.settled,
      step.lists reusable ih.settled ih.lists spares,
      step.eager reusable ih.settled ih.eager, fun _ never => never.elim⟩

end SoKernel
