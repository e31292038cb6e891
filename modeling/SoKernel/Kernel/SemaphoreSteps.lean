import SoKernel.Kernel.Creating

namespace SoKernel
open MemoryManager QueueName Lib

variable {M : Type}

/-- The pids that wait for a semaphore, first come first. -/
def Sem.waiting (sem : Sem) : List Int := (sem.blocked.getD []).items.map PidCell.pid

namespace Kernel

variable {k k' : Kernel M} {a b : Addr} {id : Int} {pid : Int} {rsp value : Nat}
variable {state : ProcessState} {source target : QueueName}

/-- The kernel with other allocator data and another semaphore. -/
def withSem (k : Kernel M) (memory : M) (id : Int) (sem : Sem) : Kernel M :=
  { k with memory := memory, semaphores := Function.update k.semaphores id sem }

theorem Settled.withSem (settled : Settled k) {memory : M} {sem : Sem} :
    Settled (k.withSem memory id sem) where
  table := settled.table.congr rfl rfl rfl rfl rfl rfl rfl
  scheduled := settled.scheduled
  dispatched := settled.dispatched

theorem editSem_withSem {memory : M} {sem : Sem} (change : Sem → Sem) :
    (k.withSem memory id sem).editSem id change = k.withSem memory id (change sem) := by
  unfold editSem withSem
  simp only [Function.update_self, Function.update_idem]

theorem acquire_eq : k.acquire id =
    k.withSem k.memory id { k.semaphores id with lock := true } := rfl

theorem withSem_apply {memory : M} {sem : Sem} {other : Int} :
    (k.withSem memory id sem).semaphores other =
      if other = id then sem else k.semaphores other :=
  Function.update_apply _ _ _ _

theorem withSem_semaphores {memory : M} {sem : Sem} :
    (k.withSem memory id sem).semaphores id = sem :=
  Function.update_self _ _ _

theorem acquire_semaphores : (k.acquire id).semaphores id = { k.semaphores id with lock := true } :=
  Function.update_self _ _ _

theorem release_withSem {memory : M} {sem : Sem} :
    (k.withSem memory id sem).release id = k.withSem memory id { sem with lock := false } :=
  editSem_withSem _

variable [MemoryManager M]

/-- How `semInit` can go. -/
inductive SemInit (id : Int) (value : Nat) (k : Kernel M) : Int × Kernel M → Prop
  | refused : (id < 0 ∨ numSems ≤ id ∨ (k.semaphores id).used) → SemInit id value k (-1, k)
  | failed {memory : M} : (k.semaphores id).used = false → ¬ AllocSucceeds M →
      SemInit id value k (-1, k.withSem memory id ⟨value % 2 ^ 32, false, true, none, 0⟩)
  | opened {memory : M} {queue : Addr} : (k.semaphores id).used = false →
      SemInit id value k (0, k.withSem memory id ⟨value % 2 ^ 32, false, true, some [], queue⟩)

theorem semInit_cases (id : Int) (value : Nat) (k : Kernel M) :
    SemInit id value k (semInit id value k) := by
  unfold semInit
  by_cases range : id < 0 ∨ numSems ≤ id
  · rw [if_pos range]
    apply SemInit.refused
    rcases range with low | high
    · exact .inl low
    · exact .inr (.inl high)
  · rw [if_neg range]
    cases used : (k.semaphores id).used with
    | true => exact .refused (.inr (.inr used))
    | false =>
      by_cases none : (allocMemory queueSize k.memory).1 = 0
      · simp only [none, if_true]
        exact .failed used fun succeeds => succeeds queueSize k.memory none
      · simp only [none, if_false]
        exact .opened used

/-- There is memory for a pid and a node of the wait list. -/
def HasRoom (k : Kernel M) : Prop :=
  (allocMemory pidSize k.memory).1 ≠ 0 ∧
    (allocMemory nodeSize (allocMemory pidSize k.memory).2).1 ≠ 0

theorem hasRoom (succeeds : AllocSucceeds M) : k.HasRoom := ⟨succeeds _ _, succeeds _ _⟩

/-- How `wait` can go: a token is taken, or there is no memory for the pid, or the
process goes to sleep, its pid noted or (without a list or a node) not. -/
inductive Wait (id : Int) (rsp : Nat) (k : Kernel M) : Int × Kernel M → Prop
  | taken : 0 < (k.semaphores id).value →
      Wait id rsp k (0, k.withSem k.memory id { k.semaphores id with
        value := (k.semaphores id).value - 1, lock := false })
  | failed {memory : M} : (k.semaphores id).value = 0 → ¬ k.HasRoom →
      Wait id rsp k (-1, k.withSem memory id { k.semaphores id with lock := false })
  | unlisted {memory : M} : (k.semaphores id).value = 0 →
      ((k.semaphores id).blocked = none ∨ ¬ k.HasRoom) →
      Wait id rsp k (0, (blockProcessBySem k.getCurrentPid rsp
        (k.withSem memory id { k.semaphores id with lock := false })).2)
  | asleep {memory : M} {address cell : Addr} {blocked : Queue PidCell} :
      (k.semaphores id).value = 0 → (k.semaphores id).blocked = some blocked →
      Wait id rsp k (0, (blockProcessBySem k.getCurrentPid rsp
        (k.withSem memory id { k.semaphores id with
          blocked := some (blocked ++ [⟨address, ⟨cell, k.getCurrentPid⟩⟩]), lock := false })).2)

theorem wait_cases (id : Int) (rsp : Nat) (k : Kernel M) : Wait id rsp k (wait id rsp k) := by
  unfold wait
  by_cases token : 0 < (k.semaphores id).value
  · rw [if_pos (by rw [acquire_semaphores]; exact token)]
    rw [acquire_eq, editSem_withSem, release_withSem]
    exact .taken token
  have zero : (k.semaphores id).value = 0 := by omega
  rw [if_neg (by rw [acquire_semaphores]; exact token)]
  cases granted : allocMemory pidSize k.memory with
  | mk address memory =>
    have first : allocMemory pidSize (k.acquire id).memory = (address, memory) := granted
    rw [first]
    have marked : { k.acquire id with memory := memory } =
        k.withSem memory id { k.semaphores id with lock := true } := rfl
    dsimp only
    rw [marked]
    by_cases none : address = 0
    · rw [if_pos none, release_withSem]
      apply Wait.failed zero
      intro room
      apply room.1
      rw [granted]
      exact none
    · rw [if_neg none, acquire_semaphores]
      dsimp only
      cases list : (k.semaphores id).blocked with
      | none =>
        dsimp only
        have unlisted : Wait id rsp k (0, (blockProcessBySem k.getCurrentPid rsp
            (k.withSem memory id { k.semaphores id with lock := false })).2) :=
          .unlisted zero (.inl list)
        simp only [list] at unlisted
        rw [release_withSem]
        exact unlisted
      | some blocked =>
        dsimp only
        by_cases full : (allocMemory nodeSize memory).1 = 0
        · have failed : ∀ cell, blocked.enqueue cell memory =
              (Option.none, (allocMemory nodeSize memory).2) := by
            intro cell
            unfold Queue.enqueue
            exact if_pos full
          rw [failed]
          change Wait id rsp k (0, (blockProcessBySem k.getCurrentPid rsp
            ((k.withSem (allocMemory nodeSize memory).2 id
              { k.semaphores id with lock := true }).release id)).2)
          rw [release_withSem]
          refine .unlisted zero (.inr fun room => room.2 ?_)
          rw [granted]
          exact full
        · have noted : ∀ cell, blocked.enqueue cell memory =
              (some (blocked ++ [⟨(allocMemory nodeSize memory).1, cell⟩]),
                (allocMemory nodeSize memory).2) := by
            intro cell
            unfold Queue.enqueue
            exact if_neg full
          rw [noted]
          change Wait id rsp k (0, (blockProcessBySem k.getCurrentPid rsp
            (((k.withSem (allocMemory nodeSize memory).2 id
              { k.semaphores id with lock := true }).editSem id fun sem =>
                { sem with blocked := some (blocked ++
                  [⟨(allocMemory nodeSize memory).1, ⟨address, k.getCurrentPid⟩⟩]) }).release id)).2)
          rw [editSem_withSem, release_withSem]
          exact .asleep zero list

/-- How `post` can go: the process at the front gets the token, whether or not it
can be made ready, or the value grows. -/
inductive Post (id : Int) (k : Kernel M) : Int × Kernel M → Prop
  | counted : (k.semaphores id).waiting = [] →
      Post id k (0, k.withSem k.memory id { k.semaphores id with
        value := ((k.semaphores id).value + 1) % 2 ^ 32, lock := false })
  | handed {memory : M} {node : Node PidCell} {rest : Queue PidCell} :
      (k.semaphores id).blocked = some (node :: rest) →
      Post id k (0, (unblockProcessBySem node.data.pid (k.withSem memory id
        { k.semaphores id with blocked := some rest, lock := false })).2)

/-! Moving a process and editing a semaphore commute. -/

theorem enqueueProcess_editSem (name : QueueName) (process : Addr) (id : Int) (change : Sem → Sem)
    (k : Kernel M) : (k.editSem id change).enqueueProcess name process =
      ((k.enqueueProcess name process).1, (k.enqueueProcess name process).2.editSem id change) := by
  unfold enqueueProcess
  have same : ((k.editSem id change).processes.queue name).enqueue process
      (k.editSem id change).memory = (k.processes.queue name).enqueue process k.memory := rfl
  rw [same]
  generalize (k.processes.queue name).enqueue process k.memory = result
  obtain ⟨queue, memory⟩ := result
  cases queue with
  | none => rfl
  | some queue => rfl

theorem switchProcess_editSem (source target : QueueName) (pid id : Int) (change : Sem → Sem)
    (k : Kernel M) : switchProcess source target pid (k.editSem id change) =
      ((switchProcess source target pid k).1,
        (switchProcess source target pid k).2.editSem id change) := by
  unfold switchProcess
  have same : ((k.editSem id change).processes.queue source).removeFromQueue
      ((k.editSem id change).hasPid pid) (k.editSem id change).memory =
      (k.processes.queue source).removeFromQueue (k.hasPid pid) k.memory := rfl
  rw [same]
  cases (k.processes.queue source).removeFromQueue (k.hasPid pid) k.memory with
  | none => rfl
  | some result =>
    obtain ⟨process, queue, memory⟩ := result
    have swap : { k.editSem id change with memory := memory }.setQueue source queue =
        ({ k with memory := memory }.setQueue source queue).editSem id change := rfl
    dsimp only
    rw [swap, enqueueProcess_editSem]
    generalize ({ k with memory := memory }.setQueue source queue).enqueueProcess target process =
      moved
    obtain ⟨done, after⟩ := moved
    cases done with
    | true => rfl
    | false =>
      dsimp only
      rw [enqueueProcess_editSem]
      rfl

theorem unblockProcessBySem_editSem (pid id : Int) (change : Sem → Sem) (k : Kernel M) :
    (unblockProcessBySem pid (k.editSem id change)).2 =
      (unblockProcessBySem pid k).2.editSem id change := by
  unfold unblockProcessBySem unblockProcessQueueBySem
  rw [switchProcess_editSem]
  generalize switchProcess blockedQueueBySem readyQueue pid k = moved
  obtain ⟨process, after⟩ := moved
  dsimp only
  split <;> rfl

theorem post_cases (id : Int) (k : Kernel M) : Post id k (post id k) := by
  unfold post
  dsimp only
  rw [acquire_semaphores]
  dsimp only
  cases list : (k.semaphores id).blocked with
  | none =>
    have empty : (k.semaphores id).waiting = [] := by
      unfold Sem.waiting
      rw [list]
      rfl
    dsimp only [Option.bind]
    rw [acquire_eq, editSem_withSem, release_withSem]
    exact .counted empty
  | some blocked =>
    cases blocked with
    | nil =>
      have empty : (k.semaphores id).waiting = [] := by
        unfold Sem.waiting
        rw [list]
        rfl
      dsimp only [Option.bind, Queue.dequeue]
      rw [acquire_eq, editSem_withSem, release_withSem]
      exact .counted empty
    | cons node rest =>
      dsimp only [Option.bind, Queue.dequeue]
      unfold release
      rw [← unblockProcessBySem_editSem]
      change Post id k (0, (unblockProcessBySem node.data.pid (((k.withSem
        (freeMemory node.data.address (freeMemory node.address k.memory)) id
        { k.semaphores id with lock := true }).editSem id fun sem =>
          { sem with blocked := some rest }).release id)).2)
      rw [editSem_withSem, release_withSem]
      exact .handed list

/-! ## The table after each -/

theorem Settled.semInit (settled : Settled k) : Settled (semInit id value k).2 := by
  have way := semInit_cases id value k
  generalize Kernel.semInit id value k = result at way ⊢
  cases way with
  | refused _ => exact settled
  | failed _ _ => exact settled.withSem
  | opened _ => exact settled.withSem

theorem Settled.semWait (settled : Settled k) (reusable : NodesReusable M) :
    Settled (semWait id rsp k).2 := by
  have way := wait_cases id rsp k
  change Settled (wait id rsp k).2
  generalize wait id rsp k = result at way ⊢
  cases way with
  | taken _ => exact settled.withSem
  | failed _ _ => exact settled.withSem
  | unlisted _ _ => exact settled.withSem.blockProcessBySem reusable
  | asleep _ _ => exact settled.withSem.blockProcessBySem reusable

theorem Settled.semPost (settled : Settled k) (reusable : NodesReusable M) :
    Settled (semPost id k).2 := by
  have way := post_cases id k
  change Settled (post id k).2
  generalize post id k = result at way ⊢
  cases way with
  | counted _ => exact settled.withSem
  | handed _ => exact settled.withSem.unblockProcessBySem reusable

end Kernel
end SoKernel
