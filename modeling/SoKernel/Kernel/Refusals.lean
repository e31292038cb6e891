import Mathlib.Tactic
import SoKernel.Kernel.AllOrNothing
import SoKernel.Kernel.FailedPipe

namespace SoKernel
open MemoryManager Lib Kernel SoKernel.System

/-- The kernel booted on 18 cells of which a record is kept: four are left. -/
def Logged.cells : Kernel (Logged Cells) :=
  (boot 1 2 (fun _ => Bump.blank) ⟨Cells.stock 18, []⟩).get (by decide +kernel)

namespace Kernel

variable {M : Type} [MemoryManager M]
variable {k k' : Kernel (Logged M)} {id : Int} {value rsp : Nat}

/-! ## A semaphore that cannot be opened -/

/-- What a call leaves of the semaphores: their contents, the table, and that `id` can be opened
where it could have been. -/
structure Unharmed (id : Int) (k k' : Kernel (Logged M)) : Prop where
  contents : ∀ other, (k'.semaphores other).value = (k.semaphores other).value ∧
    (k'.semaphores other).used = (k.semaphores other).used ∧
    (k'.semaphores other).waiting = (k.semaphores other).waiting
  table : ∀ block ∈ k.memory.live, block.1 = k.manager → block ∈ k'.memory.live
  later : ∀ memory value, CanInit id memory k →
    (semInit id value { k' with memory := memory }).1 = 0

theorem Unharmed.refl : Unharmed id k k where
  contents _ := ⟨rfl, rfl, rfl⟩
  table _ member _ := member
  later _ _ can := (semInit_opens can).1

/-- The id could be opened, but there is no memory for its wait list. -/
def OutOfQueues (id : Int) (k : Kernel (Logged M)) : Prop :=
  0 ≤ id ∧ id < numSems ∧ (k.semaphores id).used = false ∧ (allocMemory queueSize k.memory).1 = 0

instance (k : Kernel (Logged M)) : Decidable (OutOfQueues id k) :=
  inferInstanceAs (Decidable (_ ∧ _))

/-- Without memory for the list the semaphore stays in use, and the table is freed. -/
theorem semInit_without_list (out : OutOfQueues id k) : semInit id value k =
    (-1, k.withSem (freeMemory k.manager (allocMemory queueSize k.memory).2) id
      ⟨value % 2 ^ 32, false, true, none, 0⟩) := by
  obtain ⟨low, high, unused, refused⟩ := out
  have range : ¬ (id < 0 ∨ numSems ≤ id) := by omega
  unfold semInit
  simp only [range, unused, refused, Bool.false_eq_true, if_false, if_true]
  rfl

theorem OutOfQueues.harms {memory : Logged M} {sem : Sem} (out : OutOfQueues id k)
    (used : sem.used = true) : ¬ Unharmed id k (k.withSem memory id sem) := by
  intro unharmed
  have same := (unharmed.contents id).2.1
  rw [withSem_semaphores, used, out.2.2.1] at same
  cases same

/-- Every other failure comes before the first write. -/
theorem semInit_failed (failed : (semInit id value k).1 = -1) (enough : ¬ OutOfQueues id k) :
    (semInit id value k).2 = k := by
  unfold semInit at failed ⊢
  by_cases range : id < 0 ∨ numSems ≤ id
  · rw [if_pos range]
  · rw [if_neg range] at failed ⊢
    cases used : (k.semaphores id).used with
    | true => rfl
    | false =>
      have granted : (allocMemory queueSize k.memory).1 ≠ 0 :=
        fun none => enough ⟨by omega, by omega, used, none⟩
      rw [used] at failed
      simp only [granted, Bool.false_eq_true, if_false] at failed
      cases failed

/-- A `semInit` that fails harms nobody, unless it fails for want of memory. -/
theorem failed_init_harmless_iff (id : Int) (value : Nat) (k : Kernel (Logged M)) :
    ((semInit id value k).1 = -1 → Unharmed id k (semInit id value k).2) ↔ ¬ OutOfQueues id k := by
  constructor
  · intro harmless out
    rw [semInit_without_list out] at harmless
    exact out.harms rfl (harmless rfl)
  · intro enough failed
    rw [semInit_failed failed enough]
    exact .refl

/-- The shell opens semaphores until the heap is exhausted, and one more. -/
theorem failed_init_harms : ¬ ∀ labels (s : System (Logged Cells)) id value,
    Run Step (started Logged.cells) labels s → (semInit id value s.kernel).1 = -1 →
      Unharmed id s.kernel (semInit id value s.kernel).2 := by
  intro claim
  have run := run_of_exec (Option.some_get (show (exec [⟨.timerTick, 0⟩,
    ⟨.call (.semInit 100 1), 100⟩, ⟨.call (.semInit 101 1), 200⟩, ⟨.call (.semInit 102 1), 300⟩,
    ⟨.call (.semInit 103 1), 400⟩] (started Logged.cells)).isSome = true by decide +kernel)).symm
  generalize reached : Option.get _ _ = s at run
  have out : OutOfQueues 104 s.kernel := by
    rw [← reached]
    decide +kernel
  have harmless := claim _ _ 104 1 run
  rw [semInit_without_list out] at harmless
  exact out.harms rfl (harmless rfl)

/-! ## A semaphore that is not open -/

/-- `syscalls/syscallDispatcher.c`. -/
def syscall_sem_wait (sem_id : Int) (rsp : Nat) (k : Kernel M) : Int × Kernel M :=
  if sem_id < 0 ∨ numSems ≤ sem_id then (-1, k) else semWait sem_id rsp k

def syscall_sem_post (sem_id : Int) (k : Kernel M) : Int × Kernel M :=
  if sem_id < 0 ∨ numSems ≤ sem_id then (-1, k) else semPost sem_id k

/-- The call fails and leaves everything as it was. -/
structure Refused (k : Kernel (Logged M)) (result : Int × Kernel (Logged M)) : Prop where
  status : result.1 = -1
  semaphores : result.2.semaphores = k.semaphores
  processes : result.2.processes = k.processes
  records : result.2.pcb = k.pcb
  blocks : result.2.memory.live.Perm k.memory.live

theorem post_status (id : Int) (k : Kernel M) : (post id k).1 = 0 := by
  unfold post
  dsimp only
  split <;> rfl

theorem post_not_refused : ¬ Refused k (semPost id k) := by
  intro refused
  have status := refused.status
  unfold semPost at status
  rw [post_status] at status
  cases status

/-- Without memory for the pid only the lock is touched. -/
theorem wait_without_pid (empty : (k.semaphores id).value = 0)
    (none : (allocMemory pidSize k.memory).1 = 0) : wait id rsp k =
      (-1, k.withSem (allocMemory pidSize k.memory).2 id { k.semaphores id with lock := false }) := by
  have taken : (allocMemory pidSize (k.acquire id).memory).1 = 0 := none
  have marked : { k.acquire id with memory := (allocMemory pidSize (k.acquire id).memory).2 } =
      k.withSem (allocMemory pidSize k.memory).2 id { k.semaphores id with lock := true } := rfl
  unfold wait
  rw [if_neg (by rw [acquire_semaphores]; exact Nat.not_lt.mpr (Nat.le_of_eq empty))]
  simp only [taken, if_true]
  rw [marked, release_withSem]

/-- No other wait fails. -/
theorem wait_failed (failed : (wait id rsp k).1 = -1) : (k.semaphores id).value = 0 ∧
    (allocMemory pidSize k.memory).1 = 0 := by
  unfold wait at failed
  by_cases token : 0 < (k.semaphores id).value
  · rw [if_pos (by rw [acquire_semaphores]; exact token)] at failed
    cases failed
  · rw [if_neg (by rw [acquire_semaphores]; exact token)] at failed
    refine ⟨Nat.eq_zero_of_not_pos token, ?_⟩
    by_contra granted
    have taken : (allocMemory pidSize (k.acquire id).memory).1 ≠ 0 := granted
    simp only [taken, if_false] at failed
    cases failed

/-- A wait is refused for want of memory only. -/
theorem wait_refused_iff : Refused k (wait id rsp k) ↔ (k.semaphores id).value = 0 ∧
    (k.semaphores id).lock = false ∧ (allocMemory pidSize k.memory).1 = 0 := by
  constructor
  · intro refused
    obtain ⟨empty, none⟩ := wait_failed refused.status
    have semaphores := congrFun refused.semaphores id
    rw [wait_without_pid empty none, withSem_semaphores] at semaphores
    exact ⟨empty, (congrArg Sem.lock semaphores).symm, none⟩
  · rintro ⟨empty, unlocked, none⟩
    rw [wait_without_pid empty none]
    have same : { k.semaphores id with lock := false } = k.semaphores id := by rw [← unlocked]
    refine ⟨rfl, ?_, rfl, rfl, ?_⟩
    · rw [same]
      exact Function.update_eq_self id k.semaphores
    · change (allocMemory pidSize k.memory).2.live.Perm k.memory.live
      rw [Logged.refused none]

/-- The id is one of the table's, and the semaphore was never opened or has been closed. -/
structure Unopened (id : Int) (k : Kernel M) : Prop where
  low : 0 ≤ id
  high : id < numSems
  unused : (k.semaphores id).used = false

/-- Nobody asks whether the semaphore is open: a wait is refused for want of memory only, a post
never. -/
theorem unopened_refused_iff (rsp : Nat) (unopened : Unopened id k) :
    (Refused k (syscall_sem_wait id rsp k) ↔ (k.semaphores id).value = 0 ∧
      (k.semaphores id).lock = false ∧ (allocMemory pidSize k.memory).1 = 0) ∧
    ¬ Refused k (syscall_sem_post id k) := by
  have range : ¬ (id < 0 ∨ numSems ≤ id) := by
    push Not
    exact ⟨unopened.low, unopened.high⟩
  unfold syscall_sem_wait syscall_sem_post
  rw [if_neg range, if_neg range]
  exact ⟨wait_refused_iff, post_not_refused⟩

/-- Semaphore 200, right after boot. -/
theorem fresh_unopened_refused_iff :
    (Refused Logged.kernel (syscall_sem_wait 200 0 Logged.kernel) ↔
      (Logged.kernel.semaphores 200).value = 0 ∧ (Logged.kernel.semaphores 200).lock = false ∧
        (allocMemory pidSize Logged.kernel.memory).1 = 0) ∧
    ¬ Refused Logged.kernel (syscall_sem_post 200 Logged.kernel) :=
  unopened_refused_iff 0 ⟨by decide, by decide, by decide +kernel⟩

/-- The shell waits for or posts a semaphore that nobody opened. -/
theorem unopened_served : ¬ ∀ labels (s : System (Logged Bump)) id rsp,
    Run Step (started Logged.kernel) labels s → Unopened id s.kernel →
      Refused s.kernel (syscall_sem_wait id rsp s.kernel) ∧
        Refused s.kernel (syscall_sem_post id s.kernel) := by
  intro claim
  have run := run_of_exec (Option.some_get (show (exec [⟨.timerTick, 0⟩]
    (started Logged.kernel)).isSome = true by decide +kernel)).symm
  generalize reached : Option.get _ _ = s at run
  have unopened : Unopened 200 s.kernel := by
    refine ⟨by decide, by decide, ?_⟩
    rw [← reached]
    decide +kernel
  exact post_not_refused (claim _ _ 200 100 run unopened).2

end Kernel
end SoKernel
