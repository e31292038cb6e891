import SoKernel.Kernel.Bump
import SoKernel.Kernel.Machine
import SoKernel.Kernel.Usage

namespace SoKernel
open Buddy QueueName Lib Kernel

instance : MemoryManager Words where
  allocMemory := Words.allocMemory
  freeMemory := Words.freeMemory

namespace Machine

/-! ## What memory holds -/

def int (m : Machine) (address : Addr) : Int := (BitVec.ofNat 32 (m.words.load 4 address)).toInt

def pcbAt (m : Machine) (process : Addr) : PCB where
  pid := m.int (pidAt process)
  parentPid := m.int (parentPidAt process)
  waitingForPid := m.int (waitingForPidAt process)
  priority := m.words.load 1 (priorityAt process)
  state := .ofValue (m.words.load 4 (stateAt process))
  rsp := m.words.load 8 (rspAt process)
  base := m.words.load 8 (baseAt process)
  entryPoint := m.words.load 8 (entryPointAt process)
  retValue := m.words.load 8 (retValueAt process)
  foreground := m.words.load 1 (foregroundAt process) = 1
  stdin := m.int (stdinAt process)
  stdout := m.int (stdoutAt process)

/-- The nodes from `current` on. -/
def nodesFrom {α : Type} (m : Machine) (item : Addr → α) : Nat → Addr → Queue α
  | 0, _ => []
  | fuel + 1, current =>
    if current = 0 then []
    else ⟨current, item (m.words.load 8 (dataAt current))⟩ ::
      m.nodesFrom item fuel (m.words.load 8 (nextAt current))

def nodes {α : Type} (m : Machine) (item : Addr → α) (queue : Addr) : Queue α :=
  m.nodesFrom item steps (m.words.load 8 (frontAt queue))

def semaphore (m : Machine) (id : Int) : Sem :=
  let sem := m.manager + (16 * id).toNat
  let blocked := m.words.load 8 (blockedAt sem)
  { value := m.words.load 4 (valueAt sem)
    lock := m.words.load 1 (lockAt sem) ≠ 0
    used := m.words.load 1 (usedAt sem) ≠ 0
    blocked := if blocked = 0 then none else some (m.nodes (fun cell => ⟨cell, m.int cell⟩) blocked)
    queue := blocked }

/-- The kernel that the code finds in memory, with the queues, PCBs and semaphores read from where
their pointers lead. -/
def view (m : Machine) : Kernel Words where
  memory := m.words
  pcb := m.pcbAt
  pcbs := ∅
  processes :=
    { foregroundProcess := m.words.load 8 (foregroundProcessAt m.processes)
      currentProcess := m.words.load 8 (currentProcessAt m.processes)
      idleProcess := m.words.load 8 (idleProcessAt m.processes)
      queue := fun name => m.nodes id (m.words.load 8 (queueAt m.processes name)) }
  currentPid := m.currentPid
  nextFreePid := m.nextFreePid
  quantum := m.quantum
  first := m.first
  manager := m.manager
  semaphores := m.semaphore
  pipes := m.pipes
  nextSemId := m.nextSemId
  pipeManagerInit := m.pipeManagerInit
  stackPointer := m.stackPointer

/-! ## What the code finds there -/

section Search

variable {m m' : Machine} {pid : Int} {fuel : Nat} {a current process : Addr} {α β : Type}

theorem bind_apply (action : Action α) (next : α → Action β) (m : Machine) :
    (action >>= next) m = (action m).bind fun (value, m) => next value m := rfl

theorem hasPid_apply : hasPid process pid m = some (m.view.hasPid pid process, m) := by
  unfold hasPid Kernel.hasPid
  by_cases absent : process = 0
  · rw [if_pos absent, decide_eq_false fun ⟨present, _⟩ => present absent]
    rfl
  · rw [if_neg absent, Bool.decide_and, decide_eq_true absent, Bool.true_and]
    rfl

/-- The search along the pointers is that in the list they spell out. -/
theorem findFrom_eq (found : findFrom pid fuel current m = some (a, m')) :
    m' = m ∧ a = ((m.nodesFrom id fuel current).containsQueue (m.view.hasPid pid)).getD 0 := by
  induction fuel generalizing current with
  | zero => cases found
  | succ fuel ih =>
    unfold findFrom at found
    unfold nodesFrom
    by_cases done : current = 0
    · rw [if_pos done] at found ⊢
      cases found
      exact ⟨rfl, rfl⟩
    · rw [if_neg done] at found ⊢
      rw [bind_apply] at found
      change (hasPid (m.words.load 8 (dataAt current)) pid >>= _) m = _ at found
      rw [bind_apply, hasPid_apply] at found
      unfold Queue.containsQueue Queue.items
      cases same : m.view.hasPid pid (m.words.load 8 (dataAt current)) with
      | true =>
        simp only [same] at found
        cases found
        simp [same]
      | false =>
        simp only [same] at found
        obtain ⟨rest, equal⟩ := ih found
        refine ⟨rest, equal.trans ?_⟩
        simp [same, Queue.containsQueue, Queue.items]

/-- The process manager and its queues are there. -/
structure Created (m : Machine) : Prop where
  processes : m.processes ≠ 0
  queues : ∀ name, m.words.load 8 (queueAt m.processes name) ≠ 0

theorem process_apply (created : m.Created) (field : Addr → Addr) :
    Machine.process field m = some (m.words.load 8 (field m.processes), m) := by
  unfold Machine.process
  change (if m.processes = 0 then pure 0 else load 8 (field m.processes) : Action Addr) m = _
  rw [if_neg created.processes]
  rfl

theorem contains_eq {name : QueueName} (created : m.Created)
    (found : (queue name >>= fun list => containsQueue list pid) m = some (a, m')) :
    m' = m ∧ a = (m.view.contains name pid).getD 0 := by
  rw [bind_apply] at found
  unfold queue at found
  rw [process_apply created] at found
  unfold containsQueue at found
  dsimp only [Option.bind] at found
  rw [if_neg (created.queues name)] at found
  exact findFrom_eq found

/-- Who is found has an address. -/
theorem contains_getD {name : QueueName} :
    (m.view.contains name pid).getD 0 = 0 ↔ m.view.contains name pid = none := by
  cases found : m.view.contains name pid with
  | none => simp
  | some process =>
    have named := List.find?_some found
    have present : process ≠ 0 := by
      unfold Kernel.hasPid at named
      exact (of_decide_eq_true named).1
    simp [present]

theorem bind_eq_some {action : Action α} {next : α → Action β} {value : β}
    (done : (action >>= next) m = some (value, m')) :
    ∃ middle n, action m = some (middle, n) ∧ next middle n = some (value, m') := by
  rw [bind_apply] at done
  obtain ⟨⟨middle, n⟩, first, rest⟩ := Option.bind_eq_some_iff.mp done
  exact ⟨middle, n, first, rest⟩

/-- A search that goes on when the queue does not have the process. -/
theorem search_eq {name : QueueName} {next : Action Addr} (created : m.Created)
    (found : (queue name >>= fun list => containsQueue list pid >>= fun process =>
      if process ≠ 0 then pure process else next) m = some (a, m')) :
    (m' = m ∧ m.view.contains name pid = some a) ∨
      (m.view.contains name pid = none ∧ next m = some (a, m')) := by
  obtain ⟨list, first, there, rest⟩ := bind_eq_some found
  obtain ⟨process, second, searched, rest⟩ := bind_eq_some rest
  have both : (queue name >>= fun list => containsQueue list pid) m = some (process, second) := by
    rw [bind_apply, there]
    exact searched
  obtain ⟨rfl, equal⟩ := contains_eq created both
  by_cases absent : process = 0
  · right
    refine ⟨contains_getD.mp (equal.symm.trans absent), ?_⟩
    rw [if_neg (not_not.mpr absent)] at rest
    exact rest
  · left
    rw [if_pos absent] at rest
    cases rest
    cases held : m'.view.contains name pid with
    | none =>
      rw [held] at equal
      exact absurd equal absent
    | some process =>
      rw [held] at equal
      exact ⟨rfl, congrArg some equal.symm⟩

/-- In every memory the code finds the process that the view finds. -/
theorem getProcess_eq (created : m.Created) (found : getProcess pid m = some (a, m')) :
    m' = m ∧ a = m.view.getProcess pid := by
  unfold getProcess at found
  rw [bind_apply, process_apply created] at found
  dsimp only [Option.bind] at found
  rw [bind_apply, hasPid_apply] at found
  dsimp only [Option.bind] at found
  unfold Kernel.getProcess
  have current : (m.view.processes.currentProcess ≠ 0 ∧
      (m.view.pcb m.view.processes.currentProcess).pid = pid) ↔
        m.view.hasPid pid (m.words.load 8 (currentProcessAt m.processes)) = true :=
    decide_eq_true_iff.symm
  have idle : (m.view.processes.idleProcess ≠ 0 ∧
      (m.view.pcb m.view.processes.idleProcess).pid = pid) ↔
        m.view.hasPid pid (m.words.load 8 (idleProcessAt m.processes)) = true :=
    decide_eq_true_iff.symm
  simp only [current, idle]
  split at found
  · rename_i here
    cases found
    rw [if_pos here]
    exact ⟨rfl, rfl⟩
  · rename_i elsewhere
    rw [if_neg elsewhere]
    rw [bind_apply, process_apply created] at found
    dsimp only [Option.bind] at found
    rw [bind_apply, hasPid_apply] at found
    dsimp only [Option.bind] at found
    split at found
    · rename_i here
      cases found
      rw [if_pos here]
      exact ⟨rfl, rfl⟩
    · rename_i elsewhere
      rw [if_neg elsewhere]
      obtain ⟨rfl, ready⟩ | ⟨ready, found⟩ := search_eq created found
      · simp [ready]
      · obtain ⟨rfl, blocked⟩ | ⟨blocked, found⟩ := search_eq created found
        · simp [ready, blocked]
        · obtain ⟨rfl, bySem⟩ | ⟨bySem, found⟩ := search_eq created found
          · simp [ready, blocked, bySem]
          · obtain ⟨rfl, zombie⟩ := contains_eq created found
            refine ⟨rfl, ?_⟩
            simp only [ready, blocked, bySem, zombie]
            cases m'.view.contains zombieQueue pid <;> rfl

end Search

/-! ## Runs -/

/-- Before `main`, the static variables are zero but for `currentPid`. -/
def initial (words : Words) : Machine where
  words := words
  processes := 0
  currentPid := -1
  nextFreePid := 0
  quantum := 0
  first := true
  manager := 0
  pipes _ := closedPipe fun _ => 0
  nextSemId := 0
  pipeManagerInit := false
  stackPointer := 0

/-- A timer tick, or a call of the process that runs. -/
inductive Event where
  | timerTick
  | yield
  | createProcess (params : CreationParams)
  | kill (pid : Int) (retValue : Nat)
  | semInit (id : Int) (value : Nat)
  | semClose (id : Int)
  | semWait (id : Int)
  | semPost (id : Int)
deriving DecidableEq

/-- An event finds the stack pointer `rsp`. -/
def perform (rsp : Nat) : Event → Action Unit
  | .timerTick => callTimerTick rsp
  | .yield => Machine.yield rsp
  | .createProcess params => do let _ ← Machine.createProcess params
  | .kill pid retValue => do let _ ← Machine.kill pid retValue rsp
  | .semInit id value => do let _ ← Machine.semInit id value
  | .semClose id => do let _ ← Machine.semClose id
  | .semWait id => do let _ ← Machine.semWait id rsp
  | .semPost id => do let _ ← Machine.semPost id

/-- Only a running user process calls. -/
def Happens (event : Event) (m : Machine) : Prop := event = .timerTick ∨ UserRuns m.view

instance (event : Event) (m : Machine) : Decidable (Happens event m) :=
  inferInstanceAs (Decidable (_ ∨ _))

def Step (m : Machine) (label : Event × Nat) (m' : Machine) : Prop :=
  Happens label.1 m ∧ perform label.2 label.1 m = some ((), m')

def exec : List (Event × Nat) → Machine → Option Machine
  | [], m => some m
  | (event, rsp) :: labels, m =>
    if Happens event m then (perform rsp event m).bind fun (_, m) => exec labels m else none

theorem run_of_exec {labels : List (Event × Nat)} {m m' : Machine}
    (found : exec labels m = some m') : Run Step m labels m' := by
  induction labels generalizing m with
  | nil =>
    cases found
    exact .nil
  | cons label labels ih =>
    unfold exec at found
    split at found
    · rename_i happens
      obtain ⟨⟨_, middle⟩, first, rest⟩ := Option.bind_eq_some_iff.mp found
      exact .cons ⟨happens, first⟩ (ih rest)
    · cases found

theorem run_of_any {labels : List (Event × Nat)} {m : Machine} {holds : Machine → Bool}
    (found : (exec labels m).any holds = true) : ∃ m', Run Step m labels m' ∧ holds m' = true := by
  obtain ⟨m', reached, held⟩ := (Option.any_eq_true _ _).mp found
  exact ⟨m', run_of_exec reached, held⟩

/-- `main` has returned to its loop, with the shell created. -/
def Started (m : Machine) : Prop :=
  (∃ words idle module, main idle module (initial words) = some ((), m)) ∧
    m.view.processes.idleProcess ≠ 0 ∧ m.view.items readyQueue ≠ []

theorem eq_some_get {outcome : Option (Unit × Machine)} (some : outcome.isSome = true) :
    outcome = Option.some ((), (outcome.get some).2) := by
  cases outcome with
  | none => cases some
  | some result => rfl

theorem blank_starts : (main 1 2 (initial Words.blank)).isSome = true := by decide +kernel

/-- Started from memory that holds zeros. -/
def started : Machine := ((main 1 2 (initial Words.blank)).get blank_starts).2

theorem started_started : Started started where
  left := ⟨_, _, _, eq_some_get blank_starts⟩
  right := by decide +kernel

theorem started_created : started.Created where
  processes := by decide +kernel
  queues name := by cases name <;> decide +kernel

/-- The same event for `Kernel`. -/
def Event.use (rsp : Nat) : Event → Use
  | .timerTick => .event .timerTick rsp
  | .yield => .event (.call .yield) rsp
  | .createProcess params => .event (.call (.createProcess params)) rsp
  | .kill pid retValue => .event (.call (.kill pid retValue)) rsp
  | .semInit id value => .event (.call (.semInit id value)) rsp
  | .semClose id => .service (.call (.semClose id))
  | .semWait id => .event (.call (.semWait id)) rsp
  | .semPost id => .event (.call (.semPost id)) rsp

def child : CreationParams := ⟨some "child", 3, [], 2, true, 0, 1⟩

/-- While no freed memory is used, `Kernel` on the same allocator has the same queues, node
by node. -/
example :
    let labels := [(.timerTick, 0), (.semInit 100 0, 0), (.createProcess child, 0),
      (.createProcess child, 0), (.kill 2 7, 0), (.semWait 100, 0), (.semPost 100, 0)]
    let queues := fun k : Kernel Words => [readyQueue, blockedQueue, zombieQueue,
      blockedQueueBySem].map k.processes.queue
    ((exec labels started).map fun m => queues m.view) =
      ((boot 1 2 (fun _ => Bump.blank) Words.blank.createMemoryManager).bind fun k =>
        (Usage.exec Usage.Careful (labels.map fun (event, rsp) => event.use rsp)
          (Usage.start k)).map fun u => queues u.kernel) := by decide +kernel

/-- The first node that is allocated after `semClose` takes the place of the freed list, which the
semaphore still names. That node holds process 2 in the zombie queue when the shell waits. -/
def reuse : List (Event × Nat) :=
  [(.timerTick, 0), (.semInit 100 0, 0), (.semInit 101 0, 0), (.semClose 101, 0),
    (.createProcess child, 0), (.createProcess child, 0), (.createProcess child, 0),
    (.createProcess child, 0), (.kill 2 0, 0), (.kill 3 0, 0), (.semWait 101, 0)]

end Machine
end SoKernel
