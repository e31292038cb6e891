import SoKernel.Kernel.PostEffect

namespace SoKernel
open MemoryManager QueueName Lib Kernel SoKernel.System

variable {M : Type}

/-- What the calls on semaphores have left behind, by pid: the semaphore that put the
process to sleep and has not named it in a post since, the one in whose `semWait` it still
is, and the semaphores between whose `semWait` and `semPost` it is. -/
structure Tokens where
  owes : Int → Option Int
  asleep : Int → Option Int
  entered : Int → Int → Bool

/-- A kernel and the history of its tokens. -/
structure Guarded (M : Type) where
  system : System M
  tokens : Tokens

namespace Kernel

/-- A process of this pid is on the ready queue. -/
def isReady (k : Kernel M) (pid : Int) : Bool := (k.items readyQueue).any fun a => (k.pcb a).pid = pid

end Kernel

namespace Tokens

/-- `pid` enters, with a token or asleep. -/
def wait (id pid : Int) (token : Bool) (tokens : Tokens) : Tokens where
  owes := if token then tokens.owes else Function.update tokens.owes pid (some id)
  asleep := if token then tokens.asleep else Function.update tokens.asleep pid (some id)
  entered := Function.update tokens.entered id (Function.update (tokens.entered id) pid true)

/-- `pid` leaves, and the token goes to the first waiter. -/
def post (id pid : Int) (waiting : List Int) (tokens : Tokens) : Tokens where
  owes := match waiting with
    | [] => tokens.owes
    | first :: _ => Function.update tokens.owes first none
  asleep := tokens.asleep
  entered := Function.update tokens.entered id (Function.update (tokens.entered id) pid false)

/-- Whoever is ready again has left `semWait`. -/
def settle (k : Kernel M) (tokens : Tokens) : Tokens :=
  { tokens with asleep := fun pid => if k.isReady pid then none else tokens.asleep pid }

/-- Between the return of `semWait` and `semPost`. -/
def Between (tokens : Tokens) (id pid : Int) : Prop :=
  tokens.entered id pid = true ∧ tokens.asleep pid ≠ some id

/-- The processes that hold a token of the semaphore. -/
def Holds (tokens : Tokens) (id pid : Int) : Prop :=
  tokens.entered id pid = true ∧ tokens.owes pid ≠ some id

variable [MemoryManager M]

/-- The history after a call; a `semWait` that fails does not count. -/
def note (label : Label) (k : Kernel M) (tokens : Tokens) : Tokens :=
  match label.event with
  | .call (.semWait id) =>
    if (Kernel.semWait id label.rsp k).1 = 0 then
      tokens.wait id k.getCurrentPid (0 < (k.semaphores id).value)
    else tokens
  | .call (.semPost id) => tokens.post id k.getCurrentPid (k.semaphores id).waiting
  | _ => tokens

end Tokens

namespace Guarded

/-- Semaphores, the shell's block and unblock, and what processes need to exist. -/
def inScope : Event → Bool
  | .timerTick => true
  | .call .yield | .call (.createProcess _) | .call (.changePrio _ _) => true
  | .call (.blockProcess _) | .call (.unblockProcess _) => true
  | .call (.semInit _ _) | .call (.semWait _) | .call (.semPost _) => true
  | _ => false

variable [MemoryManager M]

def watch (label : Label) (t : System M) (s : Guarded M) : Guarded M :=
  ⟨t, (s.tokens.note label s.system.kernel).settle t.kernel⟩

def Step (s : Guarded M) (label : Label) (t : Guarded M) : Prop :=
  inScope label.event = true ∧ System.Step s.system label t.system ∧ t = s.watch label t.system

/-- Nobody whose token is due is unblocked by hand. -/
def SparesOwing (event : Event) (s : Guarded M) : Prop :=
  match event with
  | .call (.unblockProcess pid) => ∀ a ∈ s.system.kernel.items blockedQueue,
      (s.system.kernel.pcb a).pid = pid → s.tokens.owes pid = none
  | _ => True

/-- The semaphore is opened with 1, and every process waits and posts in turn. -/
def AsMutex (id : Int) (event : Event) (s : Guarded M) : Prop :=
  match event with
  | .call (.semInit other value) => other = id → value = 1
  | .call (.semWait other) => other = id → (s.system.kernel.semaphores id).used = true ∧
      s.tokens.entered id s.system.kernel.getCurrentPid = false
  | .call (.semPost other) => other = id →
      s.tokens.entered id s.system.kernel.getCurrentPid = true
  | _ => True

/-- After boot nobody has used a semaphore. -/
def start (k : Kernel M) : Guarded M := ⟨started k, ⟨fun _ => none, fun _ => none, fun _ _ => false⟩⟩

instance (event : Event) (s : Guarded M) : Decidable (SparesOwing event s) := by
  unfold SparesOwing
  split <;> infer_instance

instance (id : Int) (event : Event) (s : Guarded M) : Decidable (AsMutex id event s) :=
  match event with
  | .call (.semInit other value) =>
    (instDecidableForall : Decidable (other = id → value = 1))
  | .call (.semWait other) =>
    (instDecidableForall : Decidable (other = id → _ ∧ _))
  | .call (.semPost other) =>
    (instDecidableForall : Decidable (other = id → _ = true))
  | .timerTick | .ctrlC | .resume | .call .yield | .call (.createProcess _)
  | .call (.blockProcess _) | .call (.unblockProcess _) | .call .blockProcessBySem
  | .call (.unblockProcessBySem _) | .call (.kill _ _) | .call (.waitpid _)
  | .call (.changePrio _ _) => instDecidableTrue

/-- Run the events, each under a guard. -/
def exec (guard : Event → Guarded M → Bool) : List Label → Guarded M → Option (Guarded M)
  | [], s => some s
  | label :: labels, s =>
    if inScope label.event = true ∧ guard label.event s = true then
      (s.system.next label).bind fun t => exec guard labels (s.watch label t)
    else none

theorem run_of_exec {guard : Event → Guarded M → Bool} {labels : List Label} {s t : Guarded M}
    (found : exec guard labels s = some t) :
    Run (fun s label t => Step s label t ∧ guard label.event s = true) s labels t := by
  induction labels generalizing s with
  | nil =>
    cases found
    exact .nil
  | cons label labels ih =>
    unfold exec at found
    split at found
    · rename_i scope
      obtain ⟨middle, first, rest⟩ := Option.bind_eq_some_iff.mp found
      exact .cons ⟨⟨scope.1, step_of_next first, rfl⟩, scope.2⟩ (ih rest)
    · cases found

end Guarded

/-! ## Who becomes ready -/

namespace Kernel

variable {k k' k₁ : Kernel M} {a : Addr} {pid id value : Int} {rsp : Nat} {woken : Int → Prop}
variable {source target : QueueName} {state : ProcessState} {params : CreationParams}
variable {tokens : Tokens}

/-- Processes keep their pids, and only the woken ones become ready. -/
structure Wakens (woken : Int → Prop) (k k' : Kernel M) : Prop where
  ready : ∀ {a}, a ∈ k'.items readyQueue → a ∈ k.items readyQueue ∨ woken (k'.pcb a).pid
  kept : ∀ {a}, a ∈ k.pcbs → a ∈ k'.pcbs ∧ (k'.pcb a).pid = (k.pcb a).pid

theorem SameRecords.wakens (same : SameRecords k k') : Wakens woken k k' where
  ready member := .inl (same.items.mp member)
  kept member := by
    rw [same.pcbs]
    exact ⟨member, same.pid _⟩

theorem Relocates.wakens (relocates : Relocates a target k k')
    (wakes : target = readyQueue → woken (k.pcb a).pid) : Wakens woken k k' where
  ready := by
    intro b member
    rcases relocates.items.mp member with ⟨old, _⟩ | ⟨same, here⟩
    · exact .inl old
    · rw [here, relocates.pid]
      exact .inr (wakes same.symm)
  kept member := by
    rw [relocates.pcbs]
    exact ⟨member, relocates.pid _⟩

theorem Creates.wakens (creates : Creates params a rsp k k') :
    Wakens (fun pid => pid = k.nextFreePid) k k' := by
  obtain ⟨_, _, kept⟩ := creates.grows
  cases creates with
  | failed _ items pcbs _ =>
    refine ⟨fun member => .inl (by rw [items] at member; exact member), fun member => ?_⟩
    rw [pcbs, kept member]
    exact ⟨member, rfl⟩
  | created _ _ record pcbs _ =>
    obtain ⟨_, _, _, new, place⟩ := record
    refine ⟨?_, fun member => ?_⟩
    · intro b member
      rcases place with ⟨same, _⟩ | ⟨pushed, _⟩ | ⟨pushed, _⟩
      · rw [same] at member
        exact .inl member
      · rw [pushed] at member
        rcases mem_push.mp member with old | ⟨_, here⟩
        · exact .inl old
        · rw [here, new]
          exact .inr rfl
      · rw [pushed] at member
        rcases mem_push.mp member with old | ⟨never, _⟩
        · exact .inl old
        · cases never
    · rw [pcbs, kept member]
      exact ⟨Finset.mem_insert_of_mem member, rfl⟩

theorem isReady_eq_true : k.isReady pid = true ↔ ∃ a ∈ k.items readyQueue, (k.pcb a).pid = pid := by
  unfold isReady
  rw [List.any_eq_true]
  constructor
  · rintro ⟨a, member, named⟩
    exact ⟨a, member, of_decide_eq_true named⟩
  · rintro ⟨a, member, named⟩
    exact ⟨a, member, decide_eq_true named⟩

theorem isCurrent_free (table : Table k) (ready : k.processes.currentProcess ∈ k.items readyQueue)
    (owed : ∀ {a}, a ∈ k.items readyQueue → tokens.owes (k.pcb a).pid = none) :
    tokens.owes k.getCurrentPid = none := by
  rw [table.getCurrentPid]
  exact owed ready

section

variable [MemoryManager M]

theorem blockProcess_wakens (reusable : NodesReusable M) (settled : Settled k) :
    Wakens woken k (blockProcess pid rsp k).2 := by
  rcases blockProcess_cases pid rsp k reusable with ⟨same, _⟩ | ⟨source, a, k₁, _, moved, same⟩
  · rw [same]
    exact SameRecords.refl.wakens
  · rw [same]
    have after := moved.table settled.table rfl (by decide) fun zombie => absurd zombie (by decide)
    change Wakens woken k (if pid = k₁.getCurrentPid then yield rsp k₁ else k₁)
    split
    · exact (moved.relocates .refl settled.table.exclusive
        (yield_sameRecords after reusable)).wakens fun never => nomatch never
    · exact (moved.relocates .refl settled.table.exclusive .refl).wakens fun never => nomatch never

theorem unblockProcess_wakens (reusable : NodesReusable M) (settled : Settled k) :
    Wakens (fun woken => woken = pid ∧ ∃ a ∈ k.items blockedQueue, (k.pcb a).pid = pid) k
      (unblockProcess pid k).2 := by
  rcases unblockProcess_cases pid k reusable with ⟨same, _⟩ | ⟨a, k₁, same, moved⟩
  · rw [same]
    exact SameRecords.refl.wakens
  · rw [same]
    exact (moved.relocates .refl settled.table.exclusive .refl).wakens fun _ =>
      ⟨moved.named, a, moved.member, moved.named⟩

end

/-! ## The history agrees with the lists -/

/-- Whoever is on a wait list is due a token of that semaphore; whoever is due one is
not ready. -/
structure Owed (tokens : Tokens) (k : Kernel M) : Prop where
  exclusive : Exclusive k.sems.waiting
  waits : ∀ {id pid}, pid ∈ k.sems.waiting id → tokens.owes pid = some id
  ready : ∀ {a}, a ∈ k.items readyQueue → tokens.owes (k.pcb a).pid = none
  known : ∀ {pid}, tokens.owes pid ≠ none → ∃ a ∈ k.pcbs, (k.pcb a).pid = pid
  asleep : ∀ {id pid}, tokens.owes pid = some id → tokens.asleep pid = some id

theorem Owed.settle (owed : Owed tokens k) : Owed (tokens.settle k) k where
  exclusive := owed.exclusive
  waits := owed.waits
  ready := owed.ready
  known := owed.known
  asleep := by
    intro id pid due
    have away : k.isReady pid ≠ true := by
      intro here
      obtain ⟨a, member, named⟩ := isReady_eq_true.mp here
      have free := owed.ready member
      rw [named] at free
      exact Option.some_ne_none _ (due.symm.trans free)
    exact (if_neg away).trans (owed.asleep due)

theorem Owed.keeps (owed : Owed tokens k) (table : Table k) (exclusive : Exclusive k'.sems.waiting)
    (fewer : ∀ {id pid}, pid ∈ k'.sems.waiting id → pid ∈ k.sems.waiting id)
    (wakens : Wakens woken k k') (free : ∀ {pid}, woken pid → tokens.owes pid = none) :
    Owed tokens k' where
  exclusive := exclusive
  waits member := owed.waits (fewer member)
  ready := by
    intro a member
    rcases wakens.ready member with old | new
    · rw [(wakens.kept (table.queued old)).2]
      exact owed.ready old
    · exact free new
  known := by
    intro pid due
    obtain ⟨a, member, named⟩ := owed.known due
    obtain ⟨still, same⟩ := wakens.kept member
    exact ⟨a, still, same.trans named⟩
  asleep := owed.asleep

theorem Owed.same (owed : Owed tokens k) (table : Table k) (waiting : k'.sems.waiting = k.sems.waiting)
    (wakens : Wakens woken k k') (free : ∀ {pid}, woken pid → tokens.owes pid = none) :
    Owed tokens k' := by
  apply owed.keeps table _ _ wakens free
  · rw [waiting]
    exact owed.exclusive
  · intro id pid member
    rw [waiting] at member
    exact member

/-- A new process is due nothing. -/
theorem Owed.fresh (owed : Owed tokens k) (table : Table k) (new : pid = k.nextFreePid) :
    tokens.owes pid = none := by
  by_contra due
  obtain ⟨a, member, named⟩ := owed.known due
  have bound := (table.pidBound member).2
  omega

/-- The current process falls asleep on a semaphore. -/
theorem Owed.sleeps (owed : Owed tokens k) (table : Table k)
    (relocates : Relocates k.processes.currentProcess blockedQueueBySem k k')
    (ready : k.processes.currentProcess ∈ k.items readyQueue)
    (exclusive : Exclusive k'.sems.waiting)
    (waits : ∀ {other pid}, pid ∈ k'.sems.waiting other →
      pid ∈ k.sems.waiting other ∨ (other = id ∧ pid = k.getCurrentPid)) :
    Owed (tokens.wait id k.getCurrentPid false) k' := by
  have awake := owed.ready ready
  rw [← table.getCurrentPid] at awake
  have others : ∀ {pid}, pid ≠ k.getCurrentPid →
      (tokens.wait id k.getCurrentPid false).owes pid = tokens.owes pid := fun other =>
    Function.update_of_ne other _ _
  have due : (tokens.wait id k.getCurrentPid false).owes k.getCurrentPid = some id :=
    Function.update_self _ _ _
  constructor
  · exact exclusive
  · intro other pid member
    rcases waits member with old | ⟨same, here⟩
    · have apart : pid ≠ k.getCurrentPid := by
        intro same
        have debt := owed.waits old
        rw [same, awake] at debt
        cases debt
      rw [others apart]
      exact owed.waits old
    · rw [here, same]
      exact due
  · intro a member
    rcases relocates.items.mp member with ⟨old, apart⟩ | ⟨never, _⟩
    · have other : (k.pcb a).pid ≠ k.getCurrentPid := by
        intro same
        rw [table.getCurrentPid] at same
        exact apart (table.pidUnique (table.queued old) table.current same)
      rw [relocates.pid, others other]
      exact owed.ready old
    · cases never
  · intro pid debt
    rw [relocates.pcbs]
    by_cases same : pid = k.getCurrentPid
    · refine ⟨_, table.current, ?_⟩
      rw [relocates.pid, same, table.getCurrentPid]
    · rw [others same] at debt
      obtain ⟨a, member, named⟩ := owed.known debt
      exact ⟨a, member, (relocates.pid a).trans named⟩
  · intro other pid debt
    by_cases same : pid = k.getCurrentPid
    · subst same
      rw [due] at debt
      cases debt
      exact Function.update_self _ _ _
    · rw [others same] at debt
      exact (Function.update_of_ne same _ _).trans (owed.asleep debt)

/-- The first waiter gets its token. -/
theorem Owed.given (owed : Owed tokens k) (table : Table k) {first poster : Int} {rest : List Int}
    (front : k.sems.waiting id = first :: rest) (sems : k'.sems = k.sems.post id)
    (wakens : Wakens (fun pid => pid = first) k k') :
    Owed (tokens.post id poster (first :: rest)) k' := by
  have member : first ∈ k.sems.waiting id := by
    rw [front]
    exact List.mem_cons_self
  have given : (tokens.post id poster (first :: rest)).owes first = none :=
    Function.update_self _ _ _
  have others : ∀ {pid}, pid ≠ first →
      (tokens.post id poster (first :: rest)).owes pid = tokens.owes pid := fun other =>
    Function.update_of_ne other _ _
  have debts : ∀ {pid other}, (tokens.post id poster (first :: rest)).owes pid = some other →
      tokens.owes pid = some other := by
    intro pid other due
    by_cases same : pid = first
    · rw [same, given] at due
      cases due
    · rw [← others same]
      exact due
  rw [Semaphores.post_handed front] at sems
  constructor
  · rw [sems]
    exact owed.exclusive.drop member
  · intro other pid here
    rw [sems] at here
    obtain ⟨still, apart⟩ := (owed.exclusive.mem_drop member).mp here
    rw [others apart]
    exact owed.waits still
  · intro a here
    by_cases same : (k'.pcb a).pid = first
    · rw [same]
      exact given
    · rw [others same]
      rcases wakens.ready here with old | new
      · rw [(wakens.kept (table.queued old)).2]
        exact owed.ready old
      · exact absurd new same
  · intro pid due
    obtain ⟨other, debt⟩ := Option.ne_none_iff_exists'.mp due
    have owes : tokens.owes pid ≠ none := by
      rw [debts debt]
      exact Option.some_ne_none _
    obtain ⟨a, here, named⟩ := owed.known owes
    obtain ⟨still, same⟩ := wakens.kept here
    exact ⟨a, still, same.trans named⟩
  · intro other pid due
    exact owed.asleep (debts due)

section

variable [MemoryManager M]

/-- What `semWait` adds to the history. -/
theorem Owed.wait (owed : Owed tokens k) (reusable : NodesReusable M) (settled : Settled k)
    (ready : k.processes.currentProcess ∈ k.items readyQueue) :
    Owed (tokens.note ⟨.call (.semWait id), rsp⟩ k) (semWait id rsp k).2 := by
  have table := settled.table
  have free := isCurrent_free table ready owed.ready
  have awake : ∀ other, k.getCurrentPid ∉ k.sems.waiting other := by
    intro other member
    rw [owed.waits member] at free
    cases free
  obtain ⟨waited, _⟩ := semWait_waited id rsp reusable settled ready
  change Owed (if (semWait id rsp k).1 = 0 then
    tokens.wait id k.getCurrentPid (0 < k.sems.value id) else tokens) (semWait id rsp k).2
  cases waited with
  | taken done token sems same =>
    rw [if_pos done]
    simp only [token, decide_true]
    have nobody : ∀ {pid : Int}, False → tokens.owes pid = none := fun never => never.elim
    have kept := owed.same table (by rw [sems, Semaphores.wait_taken token]) same.wakens nobody
    exact ⟨kept.exclusive, kept.waits, kept.ready, kept.known, kept.asleep⟩
  | failed done _ _ sems same =>
    rw [if_neg (by rw [done]; decide)]
    have nobody : ∀ {pid : Int}, False → tokens.owes pid = none := fun never => never.elim
    exact owed.same table (by rw [sems]) same.wakens nobody
  | queued done none _ sems relocates =>
    rw [if_pos done]
    simp only [none, Nat.lt_irrefl, decide_false]
    rw [Semaphores.wait_queued none] at sems
    apply owed.sleeps table relocates ready
    · rw [sems]
      exact owed.exclusive.push awake
    · intro other pid member
      rw [sems] at member
      exact mem_push.mp member
  | forgotten done none _ sems relocates =>
    rw [if_pos done]
    simp only [none, Nat.lt_irrefl, decide_false]
    apply owed.sleeps table relocates ready
    · rw [sems]
      exact owed.exclusive
    · intro other pid member
      rw [sems] at member
      exact .inl member

/-- What `semPost` adds to the history. -/
theorem Owed.post (owed : Owed tokens k) (reusable : NodesReusable M) (settled : Settled k) :
    Owed (tokens.note ⟨.call (.semPost id), rsp⟩ k) (semPost id k).2 := by
  have table := settled.table
  obtain ⟨posted, _⟩ := semPost_posted id reusable settled
  change Owed (tokens.post id k.getCurrentPid (k.sems.waiting id)) (semPost id k).2
  cases posted with
  | counted empty sems same =>
    rw [empty]
    have nobody : ∀ {pid : Int}, False → tokens.owes pid = none := fun never => never.elim
    have kept := owed.same table (by rw [sems]) same.wakens nobody
    exact ⟨kept.exclusive, kept.waits, kept.ready, kept.known, kept.asleep⟩
  | handed front sems _ named relocates =>
    rw [front]
    exact owed.given table front sems (relocates.wakens fun _ => named)
  | lost front sems _ same =>
    rw [front]
    exact owed.given table front sems same.wakens

end

/-! ## A mutex -/

/-- Of a semaphore opened with 1: one token is in the semaphore or with a process. -/
structure IsMutex (id : Int) (tokens : Tokens) (k : Kernel M) : Prop where
  entered : ∀ {pid}, pid ∈ k.sems.waiting id → tokens.entered id pid = true
  unopened : (k.semaphores id).used = false → ∀ pid, tokens.entered id pid = false
  single : (k.semaphores id).used = true → ∃ n, Counts (tokens.Holds id) n ∧ k.sems.value id + n = 1

theorem IsMutex.keeps (mutex : IsMutex id tokens k) (value : k'.sems.value id = k.sems.value id)
    (waiting : k'.sems.waiting id = k.sems.waiting id)
    (used : (k'.semaphores id).used = (k.semaphores id).used) : IsMutex id tokens k' where
  entered := by
    rw [waiting]
    exact mutex.entered
  unopened := by
    rw [used]
    exact mutex.unopened
  single := by
    rw [used, value]
    exact mutex.single

theorem IsMutex.same (mutex : IsMutex id tokens k) (same : k'.semaphores = k.semaphores) :
    IsMutex id tokens k' := by
  have sems := sems_congr same
  exact mutex.keeps (by rw [sems]) (by rw [sems]) (by rw [same])

/-- A mutex that was not in use opens with its one token. -/
theorem IsMutex.opens (mutex : IsMutex id tokens k) (closed : (k.semaphores id).used = false)
    (value : k'.sems.value id = 1) (waiting : k'.sems.waiting id = [])
    (used : (k'.semaphores id).used = true) : IsMutex id tokens k' where
  entered := by
    rw [waiting]
    exact fun never => absurd never List.not_mem_nil
  unopened := by
    rw [used]
    exact fun never => nomatch never
  single _ := by
    refine ⟨0, .none ?_, by rw [value]⟩
    intro pid holds
    have never := holds.1
    rw [mutex.unopened closed pid] at never
    cases never

theorem entered_wait {pid other : Int} {token : Bool} :
    (tokens.wait id pid token).entered id other = true ↔
      tokens.entered id other = true ∨ other = pid := by
  change Function.update tokens.entered id (Function.update (tokens.entered id) pid true) id other =
    true ↔ _
  rw [Function.update_self, Function.update_apply]
  split
  · rename_i same
    exact ⟨fun _ => .inr same, fun _ => rfl⟩
  · rename_i apart
    exact ⟨.inl, fun either => either.resolve_right apart⟩

theorem entered_post {pid other : Int} {waiting : List Int} :
    (tokens.post id pid waiting).entered id other = true ↔
      tokens.entered id other = true ∧ other ≠ pid := by
  change Function.update tokens.entered id (Function.update (tokens.entered id) pid false) id other =
    true ↔ _
  rw [Function.update_self, Function.update_apply]
  split
  · rename_i same
    exact ⟨(fun never => nomatch never), fun both => absurd same both.2⟩
  · rename_i apart
    exact ⟨fun here => ⟨here, apart⟩, And.left⟩

/-- A process that is not in the mutex waits for it. -/
theorem IsMutex.wait (mutex : IsMutex id tokens k) (outside : tokens.entered id pid = false)
    (free : tokens.owes pid = none)
    (used : (k'.semaphores id).used = (k.semaphores id).used) (opened : (k.semaphores id).used = true)
    (sems : k'.sems = k.sems.wait id pid ∨ (k.sems.value id = 0 ∧ k'.sems = k.sems)) :
    IsMutex id (tokens.wait id pid (0 < k.sems.value id)) k' := by
  obtain ⟨n, counts, total⟩ := mutex.single opened
  have listed : ∀ {other}, other ∈ k'.sems.waiting id → other ∈ k.sems.waiting id ∨ other = pid := by
    intro other member
    rcases sems with waits | ⟨_, same⟩
    · rw [waits, Semaphores.mem_wait] at member
      exact member.imp_right fun new => new.2.2
    · rw [same] at member
      exact .inl member
  refine ⟨fun member => entered_wait.mpr ((listed member).imp_left mutex.entered), ?_, fun _ => ?_⟩
  · intro closed
    rw [used, opened] at closed
    cases closed
  · rcases Nat.eq_zero_or_pos (k.sems.value id) with none | token
    · have value : k'.sems.value id = 0 := by
        rcases sems with waits | ⟨_, same⟩
        · rw [waits, Semaphores.wait_queued none]
          exact none
        · rw [same]
          exact none
      rw [none] at total ⊢
      rw [value]
      refine ⟨n, counts.congr ?_, total⟩
      intro other
      unfold Tokens.Holds
      rw [entered_wait]
      change _ ∧ Function.update tokens.owes pid (some id) other ≠ some id ↔ _
      rw [Function.update_apply]
      split
      · rename_i same
        rw [same, outside]
        simp
      · rename_i apart
        simp [apart]
    · have waits := sems.resolve_right fun both => Nat.ne_of_gt token both.1
      refine ⟨n + 1, counts.insert (a := pid) ?_ ?_, ?_⟩
      · intro holds
        have inside := holds.1
        rw [outside] at inside
        cases inside
      · intro other
        unfold Tokens.Holds
        rw [entered_wait]
        simp only [token, decide_true]
        change _ ∧ tokens.owes other ≠ some id ↔ _
        constructor
        · rintro ⟨old | new, due⟩
          · exact .inl ⟨old, due⟩
          · exact .inr new
        · rintro (⟨old, due⟩ | new)
          · exact ⟨.inl old, due⟩
          · rw [new, free]
            exact ⟨.inr rfl, fun never => nomatch never⟩
      · rw [waits, Semaphores.wait_taken token]
        dsimp only
        rw [Function.update_self]
        omega

/-- The other semaphores do not see a wait. -/
theorem IsMutex.wait_other {other : Int} {token : Bool} (mutex : IsMutex id tokens k)
    (apart : other ≠ id) (free : tokens.owes pid = none)
    (used : (k'.semaphores id).used = (k.semaphores id).used)
    (sems : k'.sems = k.sems.wait other pid ∨ k'.sems = k.sems) :
    IsMutex id (tokens.wait other pid token) k' := by
  have unchanged : k'.sems.value id = k.sems.value id ∧ k'.sems.waiting id = k.sems.waiting id := by
    rcases sems with waits | same
    · rw [waits]
      exact Semaphores.wait_other apart.symm
    · rw [same]
      exact ⟨rfl, rfl⟩
  have entered : (tokens.wait other pid token).entered id = tokens.entered id :=
    Function.update_of_ne apart.symm _ _
  have holds : ∀ p, (tokens.wait other pid token).Holds id p ↔ tokens.Holds id p := by
    intro p
    have due : (tokens.wait other pid token).owes p ≠ some id ↔ tokens.owes p ≠ some id := by
      cases token with
      | true => exact .rfl
      | false =>
        change Function.update tokens.owes pid (some other) p ≠ some id ↔ _
        rw [Function.update_apply]
        split
        · rename_i same
          rw [same, free]
          simp [apart]
        · exact .rfl
    unfold Tokens.Holds
    rw [entered, due]
  refine ⟨?_, ?_, ?_⟩
  · rw [unchanged.2, entered]
    exact mutex.entered
  · rw [used, entered]
    exact mutex.unopened
  · rw [used, unchanged.1]
    intro opened
    obtain ⟨n, counts, total⟩ := mutex.single opened
    exact ⟨n, counts.congr holds, total⟩

/-- Who is inside has a token, and the semaphore is in use. -/
theorem IsMutex.holds (mutex : IsMutex id tokens k) (inside : tokens.entered id pid = true)
    (free : tokens.owes pid = none) :
    (k.semaphores id).used = true ∧ tokens.Holds id pid := by
  constructor
  · by_contra closed
    rw [mutex.unopened (Bool.not_eq_true _ ▸ closed) pid] at inside
    cases inside
  · refine ⟨inside, ?_⟩
    rw [free]
    exact fun never => nomatch never

/-- A process leaves the mutex, and nobody waits. -/
theorem IsMutex.post_counted (mutex : IsMutex id tokens k) (inside : tokens.entered id pid = true)
    (free : tokens.owes pid = none) (empty : k.sems.waiting id = [])
    (used : (k'.semaphores id).used = (k.semaphores id).used)
    (sems : k'.sems = { k.sems with
      value := Function.update k.sems.value id ((k.sems.value id + 1) % 2 ^ 32) }) :
    IsMutex id (tokens.post id pid []) k' := by
  obtain ⟨opened, holds⟩ := mutex.holds inside free
  obtain ⟨n, counts, total⟩ := mutex.single opened
  have remaining : ∀ p, (tokens.post id pid []).Holds id p ↔ tokens.Holds id p ∧ p ≠ pid := by
    intro p
    unfold Tokens.Holds
    rw [entered_post]
    change (_ ∧ _) ∧ tokens.owes p ≠ some id ↔ _
    tauto
  obtain ⟨m, more, fewer⟩ := counts.erase holds remaining
  refine ⟨?_, ?_, fun _ => ⟨m, fewer, ?_⟩⟩
  · rw [sems, empty]
    exact fun never => absurd never List.not_mem_nil
  · intro closed
    rw [used, opened] at closed
    cases closed
  · rw [sems]
    dsimp only
    rw [Function.update_self]
    omega

/-- A process leaves the mutex to the first waiter. -/
theorem IsMutex.post_handed {first : Int} {rest : List Int} (mutex : IsMutex id tokens k)
    (inside : tokens.entered id pid = true) (free : tokens.owes pid = none)
    (owed : Owed tokens k) (front : k.sems.waiting id = first :: rest)
    (used : (k'.semaphores id).used = (k.semaphores id).used)
    (sems : k'.sems = k.sems.post id) : IsMutex id (tokens.post id pid (first :: rest)) k' := by
  obtain ⟨opened, holds⟩ := mutex.holds inside free
  obtain ⟨n, counts, total⟩ := mutex.single opened
  have member : first ∈ k.sems.waiting id := by
    rw [front]
    exact List.mem_cons_self
  have due := owed.waits member
  have apart : first ≠ pid := by
    intro same
    rw [same, free] at due
    cases due
  have remaining : ∀ p, tokens.Holds id p ∧ p ≠ pid ↔ tokens.Holds id p ∧ p ≠ pid :=
    fun _ => .rfl
  have handed : ∀ p, (tokens.post id pid (first :: rest)).Holds id p ↔
      (tokens.Holds id p ∧ p ≠ pid) ∨ p = first := by
    intro p
    unfold Tokens.Holds
    rw [entered_post]
    change (_ ∧ _) ∧ Function.update tokens.owes first none p ≠ some id ↔ _
    rw [Function.update_apply]
    split
    · rename_i same
      rw [same]
      simp [mutex.entered member, apart]
    · rename_i other
      simp only [other, or_false]
      tauto
  obtain ⟨m, more, fewer⟩ := counts.erase holds remaining
  rw [Semaphores.post_handed front] at sems
  refine ⟨?_, ?_, fun _ => ⟨m + 1, fewer.insert (a := first) ?_ handed, ?_⟩⟩
  · intro p here
    rw [sems] at here
    have old := ((owed.exclusive.mem_drop member).mp here).1
    refine entered_post.mpr ⟨mutex.entered old, ?_⟩
    intro same
    have debt := owed.waits old
    rw [same, free] at debt
    cases debt
  · intro closed
    rw [used, opened] at closed
    cases closed
  · exact fun both => both.1.2 due
  · rw [sems]
    dsimp only
    omega

/-- The other semaphores do not see a post. -/
theorem IsMutex.post_other {other : Int} {waiting : List Int} (mutex : IsMutex id tokens k)
    (apart : other ≠ id) (due : ∀ p ∈ waiting, tokens.owes p = some other)
    (used : (k'.semaphores id).used = (k.semaphores id).used)
    (value : k'.sems.value id = k.sems.value id)
    (lists : k'.sems.waiting id = k.sems.waiting id) :
    IsMutex id (tokens.post other pid waiting) k' := by
  have entered : (tokens.post other pid waiting).entered id = tokens.entered id :=
    Function.update_of_ne apart.symm _ _
  have holds : ∀ p, (tokens.post other pid waiting).Holds id p ↔ tokens.Holds id p := by
    intro p
    have same : (tokens.post other pid waiting).owes p ≠ some id ↔ tokens.owes p ≠ some id := by
      cases waiting with
      | nil => exact .rfl
      | cons first rest =>
        change Function.update tokens.owes first none p ≠ some id ↔ _
        rw [Function.update_apply]
        split
        · rename_i same
          rw [same, due first List.mem_cons_self]
          simp [apart]
        · exact .rfl
    unfold Tokens.Holds
    rw [entered, same]
  refine ⟨?_, ?_, ?_⟩
  · rw [lists, entered]
    exact mutex.entered
  · rw [used, entered]
    exact mutex.unopened
  · rw [used, value]
    intro opened
    obtain ⟨n, counts, total⟩ := mutex.single opened
    exact ⟨n, counts.congr holds, total⟩

section

variable [MemoryManager M]

theorem IsMutex.semInit {other : Int} {value : Nat} (mutex : IsMutex id tokens k)
    (one : other = id → value = 1) : IsMutex id tokens (semInit other value k).2 := by
  have way := semInit_opened other value k
  generalize Kernel.semInit other value k = result at way ⊢
  cases way with
  | refused _ => exact mutex
  | opened closed after empty _ =>
    have sems := Opened.waiting after empty
    by_cases here : id = other
    · subst here
      refine mutex.opens closed ?_ ?_ ?_
      · rw [sems, one rfl]
        exact Function.update_self _ _ _
      · rw [sems]
        exact Function.update_self _ _ _
      · rw [after, if_pos rfl]
    · refine mutex.keeps ?_ ?_ ?_
      · rw [sems]
        exact Function.update_of_ne here _ _
      · rw [sems]
        exact Function.update_of_ne here _ _
      · rw [after, if_neg here]

theorem IsMutex.semWait {other : Int} (mutex : IsMutex id tokens k) (reusable : NodesReusable M)
    (settled : Settled k) (ready : k.processes.currentProcess ∈ k.items readyQueue)
    (free : tokens.owes k.getCurrentPid = none)
    (uses : other = id → (k.semaphores id).used = true ∧
      tokens.entered id k.getCurrentPid = false) :
    IsMutex id (tokens.note ⟨.call (.semWait other), rsp⟩ k) (semWait other rsp k).2 := by
  obtain ⟨waited, same⟩ := semWait_waited other rsp reusable settled ready
  change IsMutex id (if (Kernel.semWait other rsp k).1 = 0 then
    tokens.wait other k.getCurrentPid (0 < k.sems.value other) else tokens) _
  have enters : ((Kernel.semWait other rsp k).2.sems = k.sems.wait other k.getCurrentPid ∨
      (k.sems.value other = 0 ∧ (Kernel.semWait other rsp k).2.sems = k.sems)) →
      IsMutex id (tokens.wait other k.getCurrentPid (0 < k.sems.value other))
        (Kernel.semWait other rsp k).2 := by
    intro sems
    by_cases here : other = id
    · subst here
      exact mutex.wait (uses rfl).2 free (same other).1 (uses rfl).1 sems
    · exact mutex.wait_other here free (same id).1 (sems.imp_right And.right)
  cases waited with
  | taken done _ sems _ =>
    rw [if_pos done]
    exact enters (.inl sems)
  | failed done _ _ sems _ =>
    rw [if_neg (by rw [done]; decide)]
    exact mutex.keeps (by rw [sems]) (by rw [sems]) (same id).1
  | queued done _ _ sems _ =>
    rw [if_pos done]
    exact enters (.inl sems)
  | forgotten done none _ sems _ =>
    rw [if_pos done]
    exact enters (.inr ⟨none, sems⟩)

theorem IsMutex.semPost {other : Int} (mutex : IsMutex id tokens k) (reusable : NodesReusable M)
    (settled : Settled k) (owed : Owed tokens k) (free : tokens.owes k.getCurrentPid = none)
    (uses : other = id → tokens.entered id k.getCurrentPid = true) :
    IsMutex id (tokens.note ⟨.call (.semPost other), rsp⟩ k) (semPost other k).2 := by
  obtain ⟨posted, same⟩ := semPost_posted other reusable settled
  change IsMutex id (tokens.post other k.getCurrentPid (k.sems.waiting other)) _
  have handed : ∀ {first rest}, k.sems.waiting other = first :: rest →
      (Kernel.semPost other k).2.sems = k.sems.post other →
      IsMutex id (tokens.post other k.getCurrentPid (k.sems.waiting other))
        (Kernel.semPost other k).2 := by
    intro first rest front sems
    by_cases here : other = id
    · subst here
      rw [front]
      exact mutex.post_handed (uses rfl) free owed front (same other).1 sems
    · have kept := Semaphores.post_other (s := k.sems) (i := other) (Ne.symm here)
      exact mutex.post_other here (fun p member => owed.waits member) (same id).1
        (by rw [sems]; exact kept.1) (by rw [sems]; exact kept.2)
  cases posted with
  | counted empty sems _ =>
    by_cases here : other = id
    · subst here
      rw [empty]
      exact mutex.post_counted (uses rfl) free empty (same other).1 sems
    · refine mutex.post_other here (fun p member => owed.waits member) (same id).1 ?_ (by rw [sems])
      rw [sems]
      exact Function.update_of_ne (Ne.symm here) _ _
  | handed front sems _ _ _ => exact handed front sems
  | lost front sems _ _ => exact handed front sems

end

/-- At most one process is inside. -/
theorem IsMutex.alone (mutex : IsMutex id tokens k) (owed : Owed tokens k) {p q : Int}
    (first : tokens.Between id p) (second : tokens.Between id q) : p = q := by
  have holds : ∀ {pid}, tokens.Between id pid → tokens.Holds id pid := by
    intro pid between
    exact ⟨between.1, fun due => between.2 (owed.asleep due)⟩
  have opened : (k.semaphores id).used = true := by
    by_contra closed
    have inside := first.1
    rw [mutex.unopened (Bool.not_eq_true _ ▸ closed) p] at inside
    cases inside
  obtain ⟨n, counts, total⟩ := mutex.single opened
  have one : n = 1 := by
    have some := counts.pos (holds first)
    omega
  rw [one] at counts
  exact counts.unique (holds first) (holds second)

end Kernel

namespace Guarded

variable [MemoryManager M] {s t : Guarded M} {label : Label} {labels : List Label} {k : Kernel M}
variable {id : Int}

/-- An event that unblocks nobody whose token is due keeps the history in order. -/
theorem Step.owed (step : Step s label t) (reusable : NodesReusable M)
    (settled : Settled s.system.kernel) (spares : SparesOwing label.event s)
    (owed : Owed s.tokens s.system.kernel) : Owed t.tokens t.system.kernel := by
  obtain ⟨scope, step, watched⟩ := step
  have table := settled.table
  rw [watched]
  apply Owed.settle
  generalize t.system = after at step
  have nobody : ∀ {pid : Int}, False → s.tokens.owes pid = none := fun never => never.elim
  cases step with
  | timerTick =>
    exact owed.same table
      (congrArg Semaphores.waiting (sems_congr (callTimerTick_semaphores reusable)))
      (callTimerTick_sameRecords table reusable).wakens nobody
  | ctrlC => cases scope
  | resume _ _ => cases scope
  | @call rsp call runs _ admits =>
    have ready := runs.ready settled
    have quiet : call.semaphore = none → (s.system.perform call rsp).kernel.sems.waiting =
        s.system.kernel.sems.waiting := fun other =>
      congrArg Semaphores.waiting (sems_congr (perform_semaphores settled reusable runs admits other))
    cases call with
    | yield => exact owed.same table (quiet rfl) (yield_sameRecords table reusable).wakens nobody
    | createProcess params =>
      exact owed.same table (quiet rfl) (createProcess_creates params settled admits runs.2).wakens
        fun new => owed.fresh table new
    | blockProcess pid =>
      exact owed.same table (quiet rfl) (blockProcess_wakens reusable settled) nobody
    | unblockProcess pid =>
      apply owed.same table (quiet rfl) (unblockProcess_wakens reusable settled)
      rintro _ ⟨rfl, a, member, named⟩
      exact spares a member named
    | changePrio pid newPrio =>
      exact owed.same table (quiet rfl) changePrio_sameRecords.wakens nobody
    | blockProcessBySem => cases scope
    | unblockProcessBySem _ => cases scope
    | kill _ _ => cases scope
    | waitpid _ => cases scope
    | semInit id value =>
      obtain ⟨exclusive, fewer, same⟩ := semInit_fewer id value owed.exclusive
      exact owed.keeps table exclusive fewer same.wakens nobody
    | semWait id => exact owed.wait reusable settled ready
    | semPost id => exact owed.post reusable settled

/-- A mutex stays one while it is used as one. -/
theorem Step.mutex (step : Step s label t) (reusable : NodesReusable M)
    (settled : Settled s.system.kernel) (owed : Owed s.tokens s.system.kernel)
    (uses : AsMutex id label.event s) (mutex : IsMutex id s.tokens s.system.kernel) :
    IsMutex id t.tokens t.system.kernel := by
  obtain ⟨scope, step, watched⟩ := step
  have table := settled.table
  rw [watched]
  -- settling only says who has come back from `semWait`
  suffices noted : IsMutex id (s.tokens.note label s.system.kernel) t.system.kernel from
    ⟨noted.entered, noted.unopened, noted.single⟩
  generalize t.system = after at step
  cases step with
  | timerTick => exact mutex.same (callTimerTick_semaphores reusable)
  | ctrlC => cases scope
  | resume _ _ => cases scope
  | @call rsp call runs _ admits =>
    have ready := runs.ready settled
    have free := isCurrent_free table ready owed.ready
    have quiet : call.semaphore = none → (s.system.perform call rsp).kernel.semaphores =
        s.system.kernel.semaphores := perform_semaphores settled reusable runs admits
    cases call with
    | yield => exact mutex.same (quiet rfl)
    | createProcess _ => exact mutex.same (quiet rfl)
    | blockProcess _ => exact mutex.same (quiet rfl)
    | unblockProcess _ => exact mutex.same (quiet rfl)
    | changePrio _ _ => exact mutex.same (quiet rfl)
    | blockProcessBySem => cases scope
    | unblockProcessBySem _ => cases scope
    | kill _ _ => cases scope
    | waitpid _ => cases scope
    | semInit other value => exact mutex.semInit uses
    | semWait other => exact mutex.semWait reusable settled ready free uses
    | semPost other => exact mutex.semPost reusable settled owed free uses

/-- The invariant along a run. -/
def Safe (s : Guarded M) : Prop :=
  Settled s.system.kernel ∧ Owed s.tokens s.system.kernel

theorem start_safe (booted : Booted k) : Safe (start k) := by
  obtain ⟨shell, first⟩ := booted.start
  have lists := started_lists first
  have nobody : ∀ id, k.sems.waiting id = [] := fun id => (first.quiet id).1
  refine ⟨first.settled, lists.exclusive, ?_, fun _ => rfl, ?_, ?_⟩
  · intro id pid member
    change pid ∈ k.sems.waiting id at member
    rw [nobody] at member
    cases member
  · intro pid due
    exact absurd rfl due
  · intro id pid due
    cases due

theorem start_mutex (booted : Booted k)
    (single : (k.semaphores id).used = true → (k.semaphores id).value = 1) :
    IsMutex id (start k).tokens (start k).system.kernel := by
  obtain ⟨shell, first⟩ := booted.start
  refine ⟨?_, fun _ _ => rfl, ?_⟩
  · intro pid member
    change pid ∈ (k.semaphores id).waiting at member
    rw [(first.quiet id).1] at member
    cases member
  · intro used
    exact ⟨0, .none (fun _ holds => nomatch holds.1), single used⟩

/-- While nobody whose token is due is unblocked by hand, no process is ready before a
post has named it, and a mutex has at most one process inside. -/
theorem resumes_with_token (reusable : NodesReusable M) (booted : Booted k) :
    (∀ labels t, Run (fun s label t => Step s label t ∧ SparesOwing label.event s) (start k)
      labels t → ∀ a ∈ t.system.kernel.items readyQueue,
        t.tokens.owes (t.system.kernel.pcb a).pid = none) ∧
    (∀ id, ((k.semaphores id).used = true → (k.semaphores id).value = 1) → ∀ labels t,
      Run (fun s label t => Step s label t ∧ SparesOwing label.event s ∧ AsMutex id label.event s)
        (start k) labels t → ∀ p q, t.tokens.Between id p → t.tokens.Between id q → p = q) := by
  have safe : ∀ {s t : Guarded M} {label}, Safe s → Step s label t →
      SparesOwing label.event s → Safe t := by
    intro s label t before step spares
    exact ⟨System.Step.settled step.2.1 reusable before.1,
      step.owed reusable before.1 spares before.2⟩
  constructor
  · intro labels t run a member
    have after : Safe t := by
      apply run.preserves Safe _ (start_safe booted)
      intro s label t before step
      exact safe before step.1 step.2
    exact after.2.ready member
  · intro id single labels t run p q first second
    have after : Safe t ∧ IsMutex id t.tokens t.system.kernel := by
      apply run.preserves (fun s => Safe s ∧ IsMutex id s.tokens s.system.kernel) _
        ⟨start_safe booted, start_mutex booted single⟩
      intro s label t before step
      exact ⟨safe before.1 step.1 step.2.1,
        step.1.mutex reusable before.1.1 before.1.2 step.2.2 before.2⟩
    exact after.2.alone after.1.2 first second

/-- The shell holds the mutex, and a child waits for it. -/
theorem waiter_stays_out : ∃ t, Run (fun s label t => Step s label t ∧
    SparesOwing label.event s ∧ AsMutex 100 label.event s) (start Bump.kernel)
    [⟨.timerTick, 0⟩, ⟨.call (.semInit 100 1), 100⟩,
      ⟨.call (.createProcess ⟨some "child", 3, [], 0, true, 0, 1⟩), 200⟩,
      ⟨.call (.semWait 100), 300⟩, ⟨.call .yield, 400⟩, ⟨.call .yield, 500⟩,
      ⟨.call (.semWait 100), 600⟩] t ∧
    ∀ p q, t.tokens.Between 100 p → t.tokens.Between 100 q → p = q := by
  have run := run_of_exec (Option.some_get (show (exec (fun event s =>
    decide (SparesOwing event s ∧ AsMutex 100 event s)) [⟨.timerTick, 0⟩,
    ⟨.call (.semInit 100 1), 100⟩,
    ⟨.call (.createProcess ⟨some "child", 3, [], 0, true, 0, 1⟩), 200⟩,
    ⟨.call (.semWait 100), 300⟩, ⟨.call .yield, 400⟩, ⟨.call .yield, 500⟩,
    ⟨.call (.semWait 100), 600⟩] (start Bump.kernel)).isSome = true by decide +kernel)).symm
  have mutex : Run (fun s label t => Step s label t ∧ SparesOwing label.event s ∧
      AsMutex 100 label.event s) (start Bump.kernel) _ _ :=
    run.mono fun step => ⟨step.1, of_decide_eq_true step.2⟩
  exact ⟨_, mutex, (resumes_with_token Bump.nodesReusable Bump.booted).2 100 (by decide +kernel)
    _ _ mutex⟩

/-- The shell blocks and unblocks the child that waits for its mutex: the child is ready
without a token, and both are inside. -/
theorem unblocked_waiter_enters :
    (¬ ∀ labels (t : Guarded Bump), Run Step (start Bump.kernel) labels t →
      ∀ a ∈ t.system.kernel.items readyQueue,
        t.tokens.owes (t.system.kernel.pcb a).pid = none) ∧
    ¬ ∀ labels (t : Guarded Bump), Run (fun s label t => Step s label t ∧
      AsMutex 100 label.event s) (start Bump.kernel) labels t →
        ∀ p q, t.tokens.Between 100 p → t.tokens.Between 100 q → p = q := by
  have run := run_of_exec (Option.some_get (show (exec (fun event s =>
    decide (AsMutex 100 event s)) [⟨.timerTick, 0⟩, ⟨.call (.semInit 100 1), 100⟩,
    ⟨.call (.createProcess ⟨some "child", 3, [], 0, true, 0, 1⟩), 200⟩,
    ⟨.call (.semWait 100), 300⟩, ⟨.call .yield, 400⟩, ⟨.call .yield, 500⟩,
    ⟨.call (.semWait 100), 600⟩, ⟨.call (.blockProcess 2), 700⟩,
    ⟨.call (.unblockProcess 2), 800⟩] (start Bump.kernel)).isSome = true by decide +kernel)).symm
  generalize reached : Option.get _ _ = t at run
  constructor
  · intro granted
    have free := granted _ t (run.mono And.left) (t.system.kernel.getProcess 2)
      (by rw [← reached]; decide +kernel)
    rw [← reached] at free
    revert free
    decide +kernel
  · intro alone
    have same := alone _ t (run.mono fun step => ⟨step.1, of_decide_eq_true step.2⟩) 1 2
      (by rw [← reached]; exact ⟨by decide +kernel, by decide +kernel⟩)
      (by rw [← reached]; exact ⟨by decide +kernel, by decide +kernel⟩)
    cases same

end Guarded
end SoKernel
