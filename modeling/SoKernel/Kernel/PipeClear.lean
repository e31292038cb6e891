import SoKernel.Kernel.PipeFifo

namespace SoKernel
open MemoryManager QueueName Lib Kernel SoKernel.System

variable {M : Type} [MemoryManager M]

/-! ## Clearing a pipe -/

namespace Kernel

variable {k : Kernel M} {id : Int} {rsp slot : Nat} {own : Int → Prop}

/-- A wait that finds a token touches nothing else. -/
theorem semWait_token (token : 0 < (k.semaphores id).value) :
    (semWait id rsp k).2 = k.withSem k.memory id { k.semaphores id with
      value := (k.semaphores id).value - 1, lock := false } := by
  have way := wait_cases id rsp k
  change (wait id rsp k).2 = _
  generalize wait id rsp k = result at way ⊢
  cases way with
  | taken _ => rfl
  | failed none _ => exact absurd none (Nat.ne_of_gt token)
  | unlisted none _ => exact absurd none (Nat.ne_of_gt token)
  | asleep none _ => exact absurd none (Nat.ne_of_gt token)

/-- So does a post that finds no waiter. -/
theorem semPost_nobody (nobody : (k.semaphores id).waiting = []) :
    (semPost id k).2 = k.withSem k.memory id { k.semaphores id with
      value := ((k.semaphores id).value + 1) % 2 ^ 32, lock := false } := by
  have way := post_cases id k
  change (post id k).2 = _
  generalize post id k = result at way ⊢
  cases way with
  | counted _ => rfl
  | handed front =>
    unfold Sem.waiting at nobody
    rw [front] at nobody
    cases nobody

/-- What `clearPipe` does to the kernel when the mutex is free. -/
def cleared (slot rsp : Nat) (k : Kernel M) : Kernel M :=
  let mutex := (k.pipes slot).mutex
  (semPost mutex ((semWait mutex rsp k).2.editPipe slot Pipe.reset)).2

/-- It leaves the values, the wait lists and the processes as they were. -/
structure ClearedFrom (slot : Nat) (k k' : Kernel M) : Prop where
  pipe : k'.pipes slot = (k.pipes slot).reset
  used : ∀ id, (k'.semaphores id).used = (k.semaphores id).used
  blocked : ∀ id, (k'.semaphores id).blocked = (k.semaphores id).blocked
  value : ∀ id, (k'.semaphores id).value = (k.semaphores id).value
  processes : k'.processes = k.processes
  currentPid : k'.getCurrentPid = k.getCurrentPid
  runs : k.UserRuns → k'.UserRuns

theorem clearedFrom (token : (k.semaphores (k.pipes slot).mutex).value = 1)
    (nobody : (k.semaphores (k.pipes slot).mutex).waiting = []) :
    ClearedFrom slot k (cleared slot rsp k) := by
  unfold cleared
  dsimp only
  generalize (k.pipes slot).mutex = mutex at token nobody
  have some : 0 < (k.semaphores mutex).value := by omega
  rw [semWait_token some]
  generalize lowered : ({ k.semaphores mutex with
    value := (k.semaphores mutex).value - 1, lock := false } : Sem) = sem
  obtain ⟨used, blocked, value⟩ : sem.used = (k.semaphores mutex).used ∧
      sem.blocked = (k.semaphores mutex).blocked ∧ sem.value = 0 := by
    rw [← lowered, token]
    exact ⟨rfl, rfl, rfl⟩
  have here : ((k.withSem k.memory mutex sem).editPipe slot Pipe.reset).semaphores mutex = sem :=
    Function.update_self _ _ _
  have still : (((k.withSem k.memory mutex sem).editPipe slot Pipe.reset).semaphores
      mutex).waiting = [] := by
    rw [here]
    unfold Sem.waiting at nobody ⊢
    rw [blocked]
    exact nobody
  rw [semPost_nobody still, here]
  have others : ∀ id, id ≠ mutex → ((k.withSem k.memory mutex sem).editPipe slot
      Pipe.reset).semaphores id = k.semaphores id := by
    intro id other
    change (k.withSem k.memory mutex sem).semaphores id = _
    rw [withSem_apply, if_neg other]
  refine ⟨Function.update_self _ _ _, ?_, ?_, ?_, rfl, rfl, fun runs => runs⟩
  · intro id
    rw [withSem_apply]
    split
    · rename_i same
      rw [same]
      exact used
    · rename_i other
      rw [others id other]
  · intro id
    rw [withSem_apply]
    split
    · rename_i same
      rw [same]
      exact blocked
    · rename_i other
      rw [others id other]
  · intro id
    rw [withSem_apply]
    split
    · rename_i same
      rw [same, token, value]
      rfl
    · rename_i other
      rw [others id other]

theorem Serviced.cleared (serviced : Serviced own k) (reusable : NodesReusable M)
    (runs : k.UserRuns) (mine : own (k.pipes slot).mutex)
    (token : (k.semaphores (k.pipes slot).mutex).value = 1) :
    Serviced own (cleared slot rsp k) := by
  have some : 0 < (k.semaphores (k.pipes slot).mutex).value := by omega
  obtain ⟨_, waited⟩ := serviced.wait rsp reusable (runs.ready serviced.settled)
    (serviced.opened _ mine).2 fun none => absurd none (Nat.ne_of_gt some)
  have edited : Serviced own ((semWait (k.pipes slot).mutex rsp k).2.editPipe slot Pipe.reset) :=
    waited.editPipe Pipe.reset
  refine (edited.post reusable ?_).2
  change ((semWait (k.pipes slot).mutex rsp k).2.semaphores _).value + 1 < _
  rw [semWait_token some, withSem_semaphores, token]
  change 1 - 1 + 1 < 2 ^ 32
  decide

end Kernel

/-! ## What a clear is to be followed by -/

variable {slot : Nat} {ids : PipeSems} {first s t : Clients M PipePlace PipeLog}
variable {acts : List (Act PipeRequest)}

/-- The running process calls `clearPipe`, and nobody holds the mutex. -/
def clearing (id : Int) (choice₁ choice₂ choice₃ : PipeRequest) (rsp₁ rsp₂ rsp₃ rsp₄ : Nat) :
    List (Act PipeRequest) :=
  [.turn (.clear id) rsp₁, .turn choice₁ rsp₂, .turn choice₂ rsp₃, .turn choice₃ rsp₄]

/-- Nothing has been read or written yet. -/
def afresh (s : System M) : Clients M PipePlace PipeLog := ⟨s, fun _ => .outside, .empty⟩

/-- What can be seen of a pipe that was empty at the start of the log: readers wait for the
first byte, a writer waits only when `pipeBufferSize` bytes are written or about to be, and
what a reader has in its buffer is what was written, in order. -/
structure SeemsFresh (slot : Nat) (s : Clients M PipePlace PipeLog) : Prop where
  blocks : s.shared.put = [] → ∀ {p stage call}, s.loc p = .running true stage call →
    stage = .loop ∨
      p ∈ (s.system.kernel.semaphores (s.system.kernel.pipes slot).semReaders).waiting
  room : ∀ {p}, p ∈ (s.system.kernel.semaphores
      (s.system.kernel.pipes slot).semWriters).waiting →
    ∃ writers : Finset Int, (∀ q ∈ writers, ∃ stage call,
      s.loc q = .running false stage call ∧ stage.enters = true ∧ q ∉ (s.system.kernel.semaphores
        (s.system.kernel.pipes slot).semWriters).waiting) ∧
    pipeBufferSize ≤ s.shared.put.length + writers.card
  order : s.shared.taken.map Prod.snd ++ (s.system.kernel.pipes slot).buffered = s.shared.put
  filled : ∀ {p call result}, s.loc p = .returned true call result →
    s.shared.takenBy call.ticket = (List.range result.toNat).map call.buffer

/-- So it looks whatever reads and writes follow. -/
def LikeFresh (slot : Nat) (ids : PipeSems) (s : Clients M PipePlace PipeLog) : Prop :=
  ∀ acts t, Run (fun s act t => Clients.Step (transferProgram slot) ids.own s act t ∧
    Clients.Fed (transferProgram slot) act s) s acts t → SeemsFresh slot t

/-- Tokens of readers that leave have a byte in the log. -/
theorem PipeExact.leavers {s : PipeState} (exact : PipeExact slot ids s) (readers : Finset Int)
    (leaving : ∀ p ∈ readers, ∃ stage call, s.loc p = .running true stage call ∧
      stage.leaves = true) : readers.card ≤ s.shared.2.taken.length := by
  have call_of : ∀ p ∈ readers, ∃ call, (s.loc p).call = some call ∧
      call.ticket ∈ (s.shared.2.taken.map Prod.fst).toFinset := by
    intro p member
    obtain ⟨stage, call, place, leaves⟩ := leaving p member
    refine ⟨call, by rw [place]; rfl, ?_⟩
    have counted := exact.counted p
    have reads : (s.loc p).reader = some call := by
      rw [place]
      rfl
    have filled := exact.tickets.filled reads
    rw [place] at counted
    have some : call.bytes = call.i + 1 := by
      cases stage with
      | unlocking => exact counted.1
      | signalling => exact counted.1
      | loop => cases leaves
      | admitted => cases leaves
      | locked => cases leaves
    have present : s.shared.2.takenBy call.ticket ≠ [] := by
      rw [filled]
      unfold Transfer.filled
      rw [some, List.range_succ, List.map_append]
      exact List.append_ne_nil_of_right_ne_nil _ (List.cons_ne_nil _ _)
    obtain ⟨entry, taken⟩ := List.exists_mem_of_ne_nil _ (List.map_eq_nil_iff.not.mp present)
    obtain ⟨old, mine⟩ := List.mem_filter.mp taken
    rw [List.mem_toFinset, ← of_decide_eq_true mine]
    exact List.mem_map_of_mem old
  refine le_trans (Finset.card_le_card_of_injOn
    (fun p => ((s.loc p).call.map Transfer.ticket).getD 0) ?_ ?_)
    ((List.toFinset_card_le (s.shared.2.taken.map Prod.fst)).trans
      (Nat.le_of_eq (List.length_map _)))
  · intro p member
    obtain ⟨call, here, taken⟩ := call_of p member
    dsimp only
    rw [here]
    exact taken
  · intro p member q member' same
    obtain ⟨call, here, _⟩ := call_of p member
    obtain ⟨other, there, _⟩ := call_of q member'
    dsimp only at same
    rw [here, there] at same
    exact exact.tickets.apart here there same

theorem PipePlace.holdsRoom_cases {l : PipePlace} (holds : l.holdsRoom = true) :
    (∃ stage call, l = .running true stage call ∧ stage.leaves = true) ∨
      ∃ stage call, l = .running false stage call ∧ stage.enters = true := by
  cases l with
  | running reads stage call =>
    cases reads with
    | true => exact .inl ⟨stage, call, rfl, holds⟩
    | false => exact .inr ⟨stage, call, rfl, holds⟩
  | outside => cases holds
  | clearing _ => cases holds
  | returned _ _ _ => cases holds
  | refused _ => cases holds

omit [MemoryManager M] in
theorem PipeExact.seemsFresh (exact : PipeExact slot ids s.view)
    (serviced : Serviced ids.own s.system.kernel) : SeemsFresh slot s := by
  have named : (s.system.kernel.pipes slot).sems = ids := exact.tokens.named
  have readers : (s.system.kernel.pipes slot).semReaders = ids.readers :=
    congrArg PipeSems.readers named
  have writers : (s.system.kernel.pipes slot).semWriters = ids.writers :=
    congrArg PipeSems.writers named
  have fifo := exact.fifo_of_serviced serviced
  have lengths : s.shared.taken.length + (s.system.kernel.pipes slot).count =
      s.shared.put.length := by
    rw [← fifo.order, List.length_append, List.length_map]
    unfold Pipe.buffered
    rw [List.length_map, List.length_range]
  classical
  refine ⟨?_, ?_, fifo.order, ?_⟩
  · intro nothing p stage call place
    rw [nothing, List.length_nil] at lengths
    rw [readers]
    have entered : stage.enters = true →
        p ∈ (s.system.kernel.semaphores ids.readers).waiting := by
      intro enters
      by_contra awake
      obtain ⟨n, counts, law⟩ := exact.tokens.readers.law
      have some : 0 < n := counts.pos (a := p) ⟨by
        change (s.loc p).holdsByte = true
        rw [place]
        exact enters, awake⟩
      change _ = (s.system.kernel.pipes slot).count + 0 at law
      omega
    have left : stage.leaves = true → False := by
      intro leaves
      have taken := exact.leavers {p} fun q member => by
        rw [Finset.mem_singleton.mp member]
        exact ⟨stage, call, place, leaves⟩
      change _ ≤ s.shared.taken.length at taken
      rw [Finset.card_singleton] at taken
      omega
    cases stage with
    | loop => exact .inl rfl
    | admitted => exact .inr (entered rfl)
    | locked => exact .inr (entered rfl)
    | unlocking => exact (left rfl).elim
    | signalling => exact (left rfl).elim
  · intro p waits
    rw [writers] at waits ⊢
    obtain ⟨n, ⟨items, member, card⟩, law⟩ := exact.tokens.writers.law
    have none : s.system.kernel.sems.value ids.writers = 0 := by
      by_contra some
      have nobody := serviced.eager ids.writers (Nat.pos_of_ne_zero some)
      change p ∈ s.system.kernel.sems.waiting ids.writers at waits
      rw [nobody] at waits
      cases waits
    have leaving := exact.leavers (items.filter fun q => ∃ stage call,
        s.loc q = .running true stage call ∧ stage.leaves = true) fun q inside =>
      (Finset.mem_filter.mp inside).2
    have parts := Finset.card_filter_add_card_filter_not (s := items) fun q => ∃ stage call,
      s.loc q = .running true stage call ∧ stage.leaves = true
    refine ⟨items.filter fun q => ¬ ∃ stage call,
      s.loc q = .running true stage call ∧ stage.leaves = true, ?_, ?_⟩
    · intro q inside
      obtain ⟨held, stays⟩ := Finset.mem_filter.mp inside
      obtain ⟨holds, awake⟩ := (member q).mp held
      obtain ⟨stage, call, place, enters⟩ :=
        (PipePlace.holdsRoom_cases holds).resolve_left stays
      exact ⟨stage, call, place, enters, awake⟩
    · change s.system.kernel.sems.value ids.writers + n =
        pipeBufferSize - ((s.system.kernel.pipes slot).count + 0) at law
      change _ ≤ s.shared.taken.length at leaving
      omega
  · intro p call result place
    obtain ⟨whole, bytes⟩ := fifo.complete place
    have reads : (s.loc p).reader = some call := by
      rw [place]
      rfl
    have filled := fifo.filled reads
    have size : result.toNat = call.bytes := by omega
    rw [size]
    exact filled

/-! ## The run of a clear -/

theorem clearing_turn {choice : PipeRequest} {rsp : Nat} {stage : Stage}
    (place : s.loc s.system.kernel.getCurrentPid = .clearing stage)
    (step : Clients.Step (pipeProgram slot) ids.own s (.turn choice rsp) t) :
    ∃ deed l d, clearPipe slot stage s.system.kernel.pipes s.shared = some (deed, l, d) ∧
      t = ⟨{ s.system with kernel := deed.run rsp s.system.kernel },
        Function.update s.loc s.system.kernel.getCurrentPid l, d⟩ := by
  cases step with
  | @turn _ _ deed l d _ _ does =>
    rw [place] at does
    exact ⟨deed, l, d, does, rfl⟩

theorem clearing_clears {id : Int} {choice₁ choice₂ choice₃ : PipeRequest}
    {rsp₁ rsp₂ rsp₃ rsp₄ : Nat}
    (run : Run (Clients.Step (pipeProgram slot) ids.own) s
      (clearing id choice₁ choice₂ choice₃ rsp₁ rsp₂ rsp₃ rsp₄) t)
    (idle : ∀ p, (s.loc p).idle = true)
    (token : (s.system.kernel.semaphores (s.system.kernel.pipes slot).mutex).value = 1) :
    t.system = { s.system with kernel := cleared slot rsp₂ s.system.kernel } ∧
      UserRuns s.system.kernel ∧
      s.system.pending s.system.kernel.processes.currentProcess = none ∧
      pipeSlot id s.system.kernel.pipes = some slot := by
  have positive : 0 < (s.system.kernel.semaphores (s.system.kernel.pipes slot).mutex).value := by
    omega
  cases run with
  | @cons _ _ s₁ _ _ enters run =>
  cases run with
  | @cons _ _ s₂ _ _ waits run =>
  cases run with
  | @cons _ _ s₃ _ _ resets run =>
  cases run with
  | @cons _ _ s₄ _ _ posts run =>
  cases run
  obtain ⟨runs, pending, leads, same⟩ : UserRuns s.system.kernel ∧
      s.system.pending s.system.kernel.processes.currentProcess = none ∧
      pipeSlot id s.system.kernel.pipes = some slot ∧ s₁ = ⟨s.system,
        Function.update s.loc s.system.kernel.getCurrentPid (.clearing .loop), s.shared⟩ := by
    cases enters with
    | @turn _ _ deed l d runs pending does =>
      have out := idle s.system.kernel.getCurrentPid
      have does : enterPipe slot (.clear id) s.system.kernel.pipes s.shared =
          some (deed, l, d) := by
        cases place : s.loc s.system.kernel.getCurrentPid with
        | outside =>
          rw [place] at does
          exact does
        | returned _ _ _ =>
          rw [place] at does
          exact does
        | refused _ =>
          rw [place] at does
          exact does
        | running _ _ _ =>
          rw [place] at out
          cases out
        | clearing _ =>
          rw [place] at out
          cases out
      unfold enterPipe at does
      split at does
      · rename_i leads
        cases does
        exact ⟨runs, pending, leads, rfl⟩
      · cases does
  refine ⟨?_, runs, pending, leads⟩
  subst same
  obtain ⟨_, _, _, does, same⟩ := clearing_turn (Function.update_self _ _ _) waits
  cases does
  subst same
  have current : ((Deed.wait (s.system.kernel.pipes slot).mutex).run rsp₂
      s.system.kernel).getCurrentPid = s.system.kernel.getCurrentPid := by
    change (semWait _ rsp₂ s.system.kernel).2.getCurrentPid = _
    rw [semWait_token positive]
    rfl
  have pipes : ((Deed.wait (s.system.kernel.pipes slot).mutex).run rsp₂
      s.system.kernel).pipes = s.system.kernel.pipes := by
    change (semWait _ rsp₂ s.system.kernel).2.pipes = _
    rw [semWait_token positive]
    rfl
  obtain ⟨_, _, _, does, same⟩ := clearing_turn (by
    dsimp only
    rw [current]
    exact Function.update_self _ _ _) resets
  cases does
  subst same
  obtain ⟨_, _, _, does, same⟩ := clearing_turn (by
    change Function.update _ _ _ (Kernel.getCurrentPid _) = _
    exact Function.update_self _ _ _) posts
  cases does
  subst same
  have mutex : (((semWait (s.system.kernel.pipes slot).mutex rsp₂ s.system.kernel).2.editPipe slot
      Pipe.reset).pipes slot).mutex = (s.system.kernel.pipes slot).mutex := by
    change (Function.update (semWait _ rsp₂ s.system.kernel).2.pipes slot
      (Pipe.reset ((semWait _ rsp₂ s.system.kernel).2.pipes slot)) slot).mutex = _
    rw [Function.update_self]
    exact congrArg (fun pipes : Nat → Pipe => (pipes slot).mutex) pipes
  unfold cleared
  dsimp only [Deed.run]
  rw [mutex]

/-! ## When a clear is complete -/

/-- A pipe at rest: no call is under way. -/
structure AtRest (slot : Nat) (s : Clients M PipePlace PipeLog) : Prop where
  idle : ∀ p, (s.loc p).idle = true
  nobody : ∀ id, (s.system.kernel.pipes slot).sems.own id →
    (s.system.kernel.semaphores id).waiting = []

omit [MemoryManager M] in
/-- It is enough to look at the processes of the table. -/
theorem AtRest.of_table (known : Clients.Known .outside s)
    (idle : ∀ a ∈ s.system.kernel.pcbs, (s.loc (s.system.kernel.pcb a).pid).idle = true)
    (nobody : ∀ id, (s.system.kernel.pipes slot).sems.own id →
      (s.system.kernel.semaphores id).waiting = []) : AtRest slot s where
  idle := by
    intro p
    by_cases out : s.loc p = .outside
    · rw [out]
      rfl
    · obtain ⟨a, member, named⟩ := known p out
      rw [← named]
      exact idle a member
  nobody := nobody

omit [MemoryManager M] in
/-- All tokens are in the semaphores. -/
theorem AtRest.values {stale : Nat} (rest : AtRest slot s)
    (tokens : PipeTokens slot ids stale s.view) :
    (s.system.kernel.semaphores (s.system.kernel.pipes slot).semReaders).value =
        (s.system.kernel.pipes slot).count + stale ∧
      (s.system.kernel.semaphores (s.system.kernel.pipes slot).semWriters).value =
        pipeBufferSize - ((s.system.kernel.pipes slot).count + stale) ∧
      (s.system.kernel.semaphores (s.system.kernel.pipes slot).mutex).value = 1 := by
  have holds := fun p => PipePlace.idle_holds (rest.idle p)
  have named : (s.system.kernel.pipes slot).sems = ids := tokens.named
  subst named
  exact ⟨tokens.readers.rest fun p => (holds p).1, tokens.writers.rest fun p => (holds p).2.1,
    tokens.mutex.rest fun p => (holds p).2.2⟩

theorem freshSem_of_waiting {sem : Sem} {value : Nat} (used : sem.used = true)
    (listed : sem.blocked ≠ none) (nobody : sem.waiting = []) (same : sem.value = value) :
    FreshSem value sem := by
  refine ⟨used, ?_, same⟩
  obtain ⟨blocked, list⟩ := Option.ne_none_iff_exists'.mp listed
  unfold Sem.waiting at nobody
  rw [list] at nobody ⊢
  have empty : blocked = [] := Queue.items_eq_nil.mp (List.map_eq_nil_iff.mp nobody)
  rw [empty]

/-- Cleared with no token at the readers' semaphore, the pipe is as new. -/
theorem AtRest.fresh {stale rsp : Nat} (rest : AtRest slot s) (distinct : ids.Distinct)
    (tokens : PipeTokens slot ids stale s.view) (serviced : Serviced ids.own s.system.kernel)
    (empty : (s.system.kernel.semaphores (s.system.kernel.pipes slot).semReaders).value = 0) :
    FreshPipe slot (cleared slot rsp s.system.kernel) := by
  obtain ⟨readers, writers, mutex⟩ := rest.values tokens
  have named : (s.system.kernel.pipes slot).sems = ids := tokens.named
  have clears : ClearedFrom slot s.system.kernel (cleared slot rsp s.system.kernel) :=
    clearedFrom mutex (rest.nobody _ (.inr (.inr rfl)))
  have fresh : ∀ {id value}, (s.system.kernel.pipes slot).sems.own id →
      (s.system.kernel.semaphores id).value = value →
      FreshSem value ((cleared slot rsp s.system.kernel).semaphores id) := by
    intro id value mine same
    have quiet := rest.nobody id mine
    rw [named] at mine
    obtain ⟨used, listed⟩ := serviced.opened id mine
    apply freshSem_of_waiting
    · rw [clears.used]
      exact used
    · rw [clears.blocked]
      exact listed
    · unfold Sem.waiting at quiet ⊢
      rw [clears.blocked]
      exact quiet
    · rw [clears.value]
      exact same
  have room : (s.system.kernel.semaphores (s.system.kernel.pipes slot).semWriters).value =
      pipeBufferSize := by omega
  have isOpen : (s.system.kernel.pipes slot).isOpen = true := tokens.isOpen
  rw [← named] at distinct
  constructor
  · rw [clears.pipe]
    exact isOpen
  · rw [clears.pipe]
    exact ⟨rfl, rfl⟩
  · rw [clears.pipe]
    rfl
  · rw [clears.pipe]
    exact distinct
  · rw [clears.pipe]
    exact fresh (.inl rfl) empty
  · rw [clears.pipe]
    exact fresh (.inr (.inl rfl)) room
  · rw [clears.pipe]
    exact fresh (.inr (.inr rfl)) mutex

theorem likeFresh_of_empty {stale rsp : Nat} (rest : AtRest slot s) (distinct : ids.Distinct)
    (reusable : NodesReusable M) (tokens : PipeTokens slot ids stale s.view)
    (serviced : Serviced ids.own s.system.kernel) (runs : UserRuns s.system.kernel)
    (empty : (s.system.kernel.semaphores (s.system.kernel.pipes slot).semReaders).value = 0) :
    LikeFresh slot ids (afresh { s.system with kernel := cleared slot rsp s.system.kernel }) := by
  obtain ⟨_, _, mutex⟩ := rest.values tokens
  have named : (s.system.kernel.pipes slot).sems = ids := tokens.named
  have clears : ClearedFrom slot s.system.kernel (cleared slot rsp s.system.kernel) :=
    clearedFrom mutex (rest.nobody _ (.inr (.inr rfl)))
  have mine : ids.own (s.system.kernel.pipes slot).mutex := by
    rw [← named]
    exact .inr (.inr rfl)
  have same : ((cleared slot rsp s.system.kernel).pipes slot).sems = ids := by
    rw [clears.pipe]
    exact named
  have fresh : FreshPipe slot (cleared slot rsp s.system.kernel) :=
    rest.fresh distinct tokens serviced empty
  have start : PipeExact slot ids
      (afresh { s.system with kernel := cleared slot rsp s.system.kernel }).view := by
    have exact := fresh.exact (s := afresh { s.system with
      kernel := cleared slot rsp s.system.kernel }) (fun _ => rfl) rfl
    change PipeExact slot ((cleared slot rsp s.system.kernel).pipes slot).sems _ at exact
    rw [same] at exact
    exact exact
  intro acts t run
  obtain ⟨kept, exact⟩ := run_pipeExact reusable distinct
    (serviced.cleared reusable runs mine mutex) start run
  exact exact.seemsFresh kept

theorem pipeSlot_congr {id : Int} {pipes pipes' : Nat → Pipe} (leads : pipeSlot id pipes = some slot)
    (isOpen : (pipes' slot).isOpen = true) : pipeSlot id pipes' = some slot := by
  unfold pipeSlot at leads ⊢
  dsimp only at leads ⊢
  generalize (if 2 < id then (id - 2).toNat else id.toNat) = found at leads ⊢
  split at leads
  · cases leads
  · rename_i range
    split at leads
    · cases leads
      rw [if_neg range, if_pos isOpen]
    · cases leads

/-- `readPipe` of one byte. -/
def readOne (id : Int) : PipeRequest := .read id (some fun _ => 0) 1

def readsOne : Transfer := ⟨0, fun _ => 0, 1, 0, 0⟩

/-- The running process has called it, and has come to `stage`. -/
def readingOne (stage : Stage) (s : System M) : Clients M PipePlace PipeLog :=
  ⟨s, Function.update (fun _ => .outside) s.kernel.getCurrentPid (.running true stage readsOne),
    ⟨[], [], 1⟩⟩

theorem readOne_enters {id : Int} {s : System M} (runs : UserRuns s.kernel)
    (pending : s.pending s.kernel.processes.currentProcess = none)
    (leads : pipeSlot id s.kernel.pipes = some slot) :
    Clients.Step (transferProgram slot) ids.own (afresh s) (.turn (readOne id) 0)
      (readingOne .loop s) ∧ Clients.Fed (transferProgram slot) (.turn (readOne id) 0) (afresh s) := by
  have does : transferProgram slot (readOne id) .outside s.kernel.pipes .empty =
      some (.nothing, .running true .loop readsOne, ⟨[], [], 1⟩) := by
    change enterPipe slot (readOne id) s.kernel.pipes .empty = _
    unfold enterPipe
    rw [if_pos (show pipeSlot (readOne id).id s.kernel.pipes = some slot from leads)]
    rfl
  refine ⟨Clients.Step.turn (s := afresh s) runs pending does, Clients.fed_of_token ?_⟩
  intro id l d found
  have same := found.symm.trans does
  cases same

theorem readOne_waits (id : Int) {s : System M} (runs : UserRuns s.kernel)
    (pending : s.pending s.kernel.processes.currentProcess = none)
    (token : 0 < (s.kernel.semaphores (s.kernel.pipes slot).semReaders).value) :
    Clients.Step (transferProgram slot) ids.own (readingOne .loop s) (.turn (readOne id) 0)
      (readingOne .admitted { s with
        kernel := (semWait (s.kernel.pipes slot).semReaders 0 s.kernel).2 }) ∧
    Clients.Fed (transferProgram slot) (.turn (readOne id) 0) (readingOne .loop s) := by
  have does : transferProgram slot (readOne id)
      ((readingOne .loop s).loc s.kernel.getCurrentPid) s.kernel.pipes
      ⟨[], [], 1⟩ = some (.wait (s.kernel.pipes slot).semReaders,
        .running true .admitted readsOne, ⟨[], [], 1⟩) := by
    have place : (readingOne .loop s).loc s.kernel.getCurrentPid =
        .running true .loop readsOne := by
      unfold readingOne
      dsimp only
      exact Function.update_self _ _ _
    rw [place]
    rfl
  have current : (semWait (s.kernel.pipes slot).semReaders 0 s.kernel).2.getCurrentPid =
      s.kernel.getCurrentPid := by
    rw [semWait_token token]
    rfl
  have after : readingOne .admitted { s with
      kernel := (semWait (s.kernel.pipes slot).semReaders 0 s.kernel).2 } =
      (⟨{ s with kernel := (semWait (s.kernel.pipes slot).semReaders 0 s.kernel).2 },
        Function.update (readingOne .loop s).loc s.kernel.getCurrentPid
          (.running true .admitted readsOne), ⟨[], [], 1⟩⟩ :
        Clients M PipePlace PipeLog) := by
    unfold readingOne
    dsimp only
    rw [current, Function.update_idem]
  rw [after]
  refine ⟨Clients.Step.turn (s := readingOne .loop s) runs pending does, ?_⟩
  apply Clients.fed_of_token
  intro id l d found
  have same := found.symm.trans does
  cases same
  exact token

/-- A token that is left lets the next reader in although nothing has been written. -/
theorem not_likeFresh {id : Int} {stale rsp : Nat} (rest : AtRest slot s)
    (tokens : PipeTokens slot ids stale s.view) (runs : UserRuns s.system.kernel)
    (pending : s.system.pending s.system.kernel.processes.currentProcess = none)
    (leads : pipeSlot id s.system.kernel.pipes = some slot)
    (some : 0 < (s.system.kernel.semaphores (s.system.kernel.pipes slot).semReaders).value) :
    ¬ LikeFresh slot ids (afresh { s.system with
      kernel := cleared slot rsp s.system.kernel }) := by
  obtain ⟨_, _, mutex⟩ := rest.values tokens
  have clears : ClearedFrom slot s.system.kernel (cleared slot rsp s.system.kernel) :=
    clearedFrom mutex (rest.nobody _ (.inr (.inr rfl)))
  have isOpen : (s.system.kernel.pipes slot).isOpen = true := tokens.isOpen
  generalize cleared slot rsp s.system.kernel = k at clears ⊢
  have still : pipeSlot id k.pipes = Option.some slot := by
    apply pipeSlot_congr leads
    rw [clears.pipe]
    exact isOpen
  have ready : (k.pipes slot).semReaders = (s.system.kernel.pipes slot).semReaders := by
    rw [clears.pipe]
    rfl
  rw [← ready] at some
  rw [← clears.value] at some
  have nobody : (k.semaphores (k.pipes slot).semReaders).waiting = [] := by
    have quiet := rest.nobody _ (.inl rfl)
    unfold Sem.waiting at quiet ⊢
    rw [clears.blocked, ready]
    exact quiet
  have awake : s.system.pending k.processes.currentProcess = none := by
    rw [clears.processes]
    exact pending
  intro like
  let after : System M := { s.system with kernel := k }
  obtain ⟨enters, full⟩ : Clients.Step (transferProgram slot) ids.own (afresh after)
      (.turn (readOne id) 0) (readingOne .loop after) ∧
      Clients.Fed (transferProgram slot) (.turn (readOne id) 0) (afresh after) :=
    readOne_enters (clears.runs runs) awake still
  obtain ⟨waits, fed⟩ : Clients.Step (transferProgram slot) ids.own (readingOne .loop after)
      (.turn (readOne id) 0) (readingOne .admitted { after with
        kernel := (semWait (k.pipes slot).semReaders 0 k).2 }) ∧
      Clients.Fed (transferProgram slot) (.turn (readOne id) 0) (readingOne .loop after) :=
    readOne_waits id (clears.runs runs) awake some
  have seems := like _ _ (.cons ⟨enters, full⟩ (.single ⟨waits, fed⟩))
  have place : (readingOne .admitted { after with
      kernel := (semWait (k.pipes slot).semReaders 0 k).2 }).loc
      (semWait (k.pipes slot).semReaders 0 k).2.getCurrentPid =
      .running true .admitted readsOne := by
    unfold readingOne
    dsimp only
    exact Function.update_self _ _ _
  rcases seems.blocks rfl place with never | asleep
  · cases never
  · change _ ∈ ((semWait (k.pipes slot).semReaders 0 k).2.semaphores
      ((semWait (k.pipes slot).semReaders 0 k).2.pipes slot).semReaders).waiting at asleep
    rw [semWait_token some] at asleep
    change _ ∈ ((k.withSem _ _ _).semaphores (k.pipes slot).semReaders).waiting at asleep
    rw [withSem_semaphores] at asleep
    change _ ∈ (k.semaphores (k.pipes slot).semReaders).waiting at asleep
    rw [nobody] at asleep
    cases asleep

/-! ## The theorem -/

theorem run_pipeTokens (reusable : NodesReusable M) (distinct : ids.Distinct)
    (serviced : Serviced ids.own first.system.kernel)
    (start : ∃ stale, PipeTokens slot ids stale first.view)
    (run : Run (fun s act t => Clients.Step (pipeProgram slot) ids.own s act t ∧
      Clients.Fed (pipeProgram slot) act s) first acts s) :
    Serviced ids.own s.system.kernel ∧ ∃ stale, PipeTokens slot ids stale s.view := by
  refine Clients.run_preserves (fun s => ∃ stale, PipeTokens slot ids stale s) run reusable ?_ ?_
    ?_ serviced start
  · rintro s ⟨stale, tokens⟩ request p deed l d does
    have on := (pipeProgram_moves does).2
    rw [tokens.named] at on
    exact on
  · rintro s ⟨stale, tokens⟩ id mine
    exact tokens.bound mine
  · rintro s t ⟨stale, tokens⟩ orderly step
    exact tokens.step distinct orderly step

theorem run_cleared (reusable : NodesReusable M) (ready : PipeReady slot first)
    (run : Run (fun s act t =>
      Clients.Step (pipeProgram slot) (first.system.kernel.pipes slot).sems.own s act t ∧
        Clients.Fed (pipeProgram slot) act s) first acts s)
    (rest : AtRest slot s) {id : Int} {choice₁ choice₂ choice₃ : PipeRequest}
    {rsp₁ rsp₂ rsp₃ rsp₄ : Nat}
    (clear : Run (Clients.Step (pipeProgram slot) (first.system.kernel.pipes slot).sems.own) s
      (clearing id choice₁ choice₂ choice₃ rsp₁ rsp₂ rsp₃ rsp₄) t) :
    Serviced (first.system.kernel.pipes slot).sems.own s.system.kernel ∧
      (∃ stale, PipeTokens slot (first.system.kernel.pipes slot).sems stale s.view) ∧
      t.system = { s.system with kernel := cleared slot rsp₂ s.system.kernel } ∧
      UserRuns s.system.kernel ∧
      s.system.pending s.system.kernel.processes.currentProcess = none ∧
      pipeSlot id s.system.kernel.pipes = some slot := by
  have fresh := ready.fresh
  obtain ⟨settled, lists, eager, _⟩ := ready.reached.serviced reusable
  obtain ⟨serviced, stale, tokens⟩ := run_pipeTokens reusable fresh.distinct
    ⟨settled, lists, eager, fresh.opened⟩ ⟨0, (fresh.exact ready.outside ready.log).tokens⟩ run
  obtain ⟨_, _, mutex⟩ := rest.values tokens
  exact ⟨serviced, ⟨stale, tokens⟩, clearing_clears clear rest.idle mutex⟩

/-- After a clear the pipe is like a new one exactly when no token was left at the readers'
semaphore. -/
theorem clear_iff (reusable : NodesReusable M) (ready : PipeReady slot first)
    (run : Run (fun s act t =>
      Clients.Step (pipeProgram slot) (first.system.kernel.pipes slot).sems.own s act t ∧
        Clients.Fed (pipeProgram slot) act s) first acts s)
    (rest : AtRest slot s) {id : Int} {choice₁ choice₂ choice₃ : PipeRequest}
    {rsp₁ rsp₂ rsp₃ rsp₄ : Nat}
    (clear : Run (Clients.Step (pipeProgram slot) (first.system.kernel.pipes slot).sems.own) s
      (clearing id choice₁ choice₂ choice₃ rsp₁ rsp₂ rsp₃ rsp₄) t) :
    LikeFresh slot (first.system.kernel.pipes slot).sems (afresh t.system) ↔
      (s.system.kernel.semaphores (s.system.kernel.pipes slot).semReaders).value = 0 := by
  obtain ⟨serviced, ⟨stale, tokens⟩, same, runs, pending, leads⟩ :=
    run_cleared reusable ready run rest clear
  rw [same]
  constructor
  · intro like
    by_contra some
    exact not_likeFresh rest tokens runs pending leads (Nat.pos_of_ne_zero some) like
  · exact likeFresh_of_empty rest ready.fresh.distinct reusable tokens serviced runs

theorem PipeReady.rests (reusable : NodesReusable M) (ready : PipeReady slot first)
    (run : Run (Clients.Step (pipeProgram slot) ids.own) first acts s)
    (idle : ∀ a ∈ s.system.kernel.pcbs, (s.loc (s.system.kernel.pcb a).pid).idle = true)
    (nobody : ∀ id, (s.system.kernel.pipes slot).sems.own id →
      (s.system.kernel.semaphores id).waiting = []) : AtRest slot s := by
  obtain ⟨_, known⟩ := Clients.run_known run reusable (ready.reached.serviced reusable).settled
    fun p inside => absurd (ready.outside p) inside
  exact .of_table known idle nobody

/-- One byte is written. -/
def writeOne : List (Act PipeRequest) := List.replicate 7 (.turn (.write 3 (some fun _ => 7) 1) 100)

def written : Clients Bump PipePlace PipeLog :=
  (Clients.exec (pipeProgram 1) (newPipe.system.kernel.pipes 1).sems.own writeOne newPipe).get
    (by decide +kernel)

theorem written_run : Run (Clients.Step (pipeProgram 1) (newPipe.system.kernel.pipes 1).sems.own)
    newPipe writeOne written := Clients.run_of_exec (Option.some_get _).symm

theorem written_rests : AtRest 1 written := by
  apply newPipe_ready.rests Bump.nodesReusable written_run
  · decide +kernel
  · intro id mine
    rcases mine with same | same | same
    all_goals rw [same]
    all_goals decide +kernel

/-- It is read again. -/
def readOut : List (Act PipeRequest) := List.replicate 7 (.turn (.read 3 (some fun _ => 0) 1) 100)

def drained : Clients Bump PipePlace PipeLog :=
  (Clients.exec (pipeProgram 1) (newPipe.system.kernel.pipes 1).sems.own readOut written).get
    (by decide +kernel)

theorem drained_run : Run (Clients.Step (pipeProgram 1) (newPipe.system.kernel.pipes 1).sems.own)
    newPipe (writeOne ++ readOut) drained :=
  written_run.append (Clients.run_of_exec (Option.some_get _).symm)

theorem drained_rests : AtRest 1 drained := by
  apply newPipe_ready.rests Bump.nodesReusable drained_run
  · decide +kernel
  · intro id mine
    rcases mine with same | same | same
    all_goals rw [same]
    all_goals decide +kernel

theorem clear_iff_drained : ∃ t : Clients Bump PipePlace PipeLog,
    Run (Clients.Step (pipeProgram 1) (newPipe.system.kernel.pipes 1).sems.own) drained
        (clearing 3 (.clear 3) (.clear 3) (.clear 3) 100 100 100 100) t ∧
      (LikeFresh 1 (newPipe.system.kernel.pipes 1).sems (afresh t.system) ↔
        (drained.system.kernel.semaphores (drained.system.kernel.pipes 1).semReaders).value =
          0) := by
  have clear := Clients.run_of_exec (Option.some_get (show (Clients.exec (pipeProgram 1)
    (newPipe.system.kernel.pipes 1).sems.own
    (clearing 3 (.clear 3) (.clear 3) (.clear 3) 100 100 100 100) drained).isSome = true by
      decide +kernel)).symm
  exact ⟨_, clear, clear_iff Bump.nodesReusable newPipe_ready
    (drained_run.mono fun step => ⟨step, Clients.fed_of_succeeds Bump.allocSucceeds⟩)
    drained_rests clear⟩

/-- The byte is gone, its token is not: the next reader does not wait. -/
theorem cleared_byte_leaves_token : ¬ ∀ (first s t : Clients Bump PipePlace PipeLog) acts id
    choice₁ choice₂ choice₃ rsp₁ rsp₂ rsp₃ rsp₄, PipeReady 1 first →
    Run (fun s act t =>
      Clients.Step (pipeProgram 1) (first.system.kernel.pipes 1).sems.own s act t ∧
        Clients.Fed (pipeProgram 1) act s) first acts s → AtRest 1 s →
    Run (Clients.Step (pipeProgram 1) (first.system.kernel.pipes 1).sems.own) s
      (clearing id choice₁ choice₂ choice₃ rsp₁ rsp₂ rsp₃ rsp₄) t →
    LikeFresh 1 (first.system.kernel.pipes 1).sems (afresh t.system) := by
  intro exact
  have clear := Clients.run_of_exec (Option.some_get (show (Clients.exec (pipeProgram 1)
    (newPipe.system.kernel.pipes 1).sems.own
    (clearing 3 (.clear 3) (.clear 3) (.clear 3) 100 100 100 100) written).isSome = true by
      decide +kernel)).symm
  have run : Run (fun s act t =>
      Clients.Step (pipeProgram 1) (newPipe.system.kernel.pipes 1).sems.own s act t ∧
        Clients.Fed (pipeProgram 1) act s) newPipe writeOne written :=
    written_run.mono fun step => ⟨step, Clients.fed_of_succeeds Bump.allocSucceeds⟩
  have like := exact _ _ _ _ _ _ _ _ _ _ _ _ newPipe_ready run written_rests clear
  obtain ⟨_, ⟨stale, tokens⟩, same, runs, pending, leads⟩ :=
    run_cleared Bump.nodesReusable newPipe_ready run written_rests clear
  rw [same] at like
  exact not_likeFresh written_rests tokens runs pending leads (by decide +kernel) like

end SoKernel
