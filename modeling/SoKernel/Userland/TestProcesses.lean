import SoKernel.Kernel.Bystanders
import SoKernel.Kernel.Bump
import Mathlib.Data.Finset.Card

namespace SoKernel
open MemoryManager QueueName Lib Kernel SoKernel.System

variable {M : Type}

/-! ## `tests/test_processes.c` -/

namespace TestProcesses

/-- `p_rq`. -/
structure PRq where
  pid : Int
  state : ProcessState

/-- The reports of an error. -/
inductive Failure where
  | creating | killing | blocking | unblocking

/-- At the test of a loop with its counter `rq`, or after the loops. -/
inductive Place where
  | creating (rq : Nat)
  | acting (rq : Nat)
  | unblocking (rq : Nat)
  | done
  | failed (failure : Failure)

/-- The variables of `test_processes`; `rq` and `alive` are of type `uint8_t`. -/
structure Tester where
  i : Nat
  place : Place
  rqs : Nat → PRq
  alive : Nat

/-- What the function does next: a call with what follows its result, or a step of its own. -/
inductive Doing where
  | asks (call : Call) (continues : Int → Tester)
  | computes (next : Tester)
  | returned

def endlessLoop (function : Addr) : CreationParams :=
  ⟨some "endless_loop", function, [], 2, true, -1, 1⟩

/-- `KILL` of the kernel: the value that `syscall_kill` passes. -/
def killValue : Nat := 9

namespace Tester

def set (rq : Nat) (entry : PRq) (t : Tester) : Tester :=
  { t with rqs := Function.update t.rqs rq entry }

/-- Assigns `p_rqs[rq].state`. -/
def mark (rq : Nat) (state : ProcessState) (t : Tester) : Tester :=
  t.set rq { t.rqs rq with state := state }

def fails (failure : Failure) (t : Tester) : Tester := { t with place := .failed failure }

/-- At the test of `while (alive > 0)`; the outer loop goes round ten times. -/
def whileAlive (t : Tester) : Tester :=
  if 0 < t.alive then { t with place := .acting 0 }
  else if t.i + 1 < 10 then { t with i := t.i + 1, place := .creating 0 }
  else { t with i := t.i + 1, place := .done }

/-- One turn of a loop, with the code at `function` and the `action` that was drawn. -/
def visit (function : Addr) (maxProcesses : Nat) (action : Bool) (t : Tester) : Doing :=
  match t.place with
  | .creating rq =>
    if rq < maxProcesses then
      .asks (.createProcess (endlessLoop function)) fun pid =>
        if pid = -1 then (t.set rq ⟨pid, (t.rqs rq).state⟩).fails .creating
        else { t.set rq ⟨pid, .running⟩ with
          place := .creating ((rq + 1) % 256), alive := (t.alive + 1) % 256 }
    else .computes t.whileAlive
  | .acting rq =>
    if rq < maxProcesses then
      match action with
      | false =>
        if (t.rqs rq).state = .running ∨ (t.rqs rq).state = .blocked then
          .asks (.kill (t.rqs rq).pid killValue) fun result =>
            if result = -1 then t.fails .killing
            else { t.mark rq .exited with
              place := .acting ((rq + 1) % 256), alive := (t.alive + 255) % 256 }
        else .computes { t with place := .acting ((rq + 1) % 256) }
      | true =>
        if (t.rqs rq).state = .running then
          .asks (.blockProcess (t.rqs rq).pid) fun result =>
            if result = -1 then t.fails .blocking
            else { t.mark rq .blocked with place := .acting ((rq + 1) % 256) }
        else .computes { t with place := .acting ((rq + 1) % 256) }
    else .computes { t with place := .unblocking 0 }
  | .unblocking rq =>
    if rq < maxProcesses then
      if (t.rqs rq).state = .blocked ∧ action then
        .asks (.unblockProcess (t.rqs rq).pid) fun result =>
          if result = -1 then t.fails .unblocking
          else { t.mark rq .running with place := .unblocking ((rq + 1) % 256) }
      else .computes { t with place := .unblocking ((rq + 1) % 256) }
    else .computes t.whileAlive
  | .done | .failed _ => .returned

/-- The entries that have been filled in. -/
def filled (maxProcesses : Nat) (t : Tester) : Nat :=
  match t.place with
  | .creating rq => rq
  | .acting _ | .unblocking _ | .done => maxProcesses
  | .failed _ => 0

end Tester

def PRq.live (entry : PRq) : Prop := entry.state = .running ∨ entry.state = .blocked

instance (entry : PRq) : Decidable entry.live := inferInstanceAs (Decidable (_ ∨ _))

/-- The calls of the test, with what it does afterwards. -/
inductive Asks (function : Addr) (maxProcesses : Nat) (t : Tester) : Call → (Int → Tester) → Prop
  | create {rq} : t.place = .creating rq → rq < maxProcesses →
      Asks function maxProcesses t (.createProcess (endlessLoop function)) fun pid =>
        if pid = -1 then (t.set rq ⟨pid, (t.rqs rq).state⟩).fails .creating
        else { t.set rq ⟨pid, .running⟩ with
          place := .creating ((rq + 1) % 256), alive := (t.alive + 1) % 256 }
  | kill {rq} : t.place = .acting rq → rq < maxProcesses → (t.rqs rq).live →
      Asks function maxProcesses t (.kill (t.rqs rq).pid killValue) fun result =>
        if result = -1 then t.fails .killing
        else { t.mark rq .exited with
          place := .acting ((rq + 1) % 256), alive := (t.alive + 255) % 256 }
  | block {rq} : t.place = .acting rq → rq < maxProcesses → (t.rqs rq).state = .running →
      Asks function maxProcesses t (.blockProcess (t.rqs rq).pid) fun result =>
        if result = -1 then t.fails .blocking
        else { t.mark rq .blocked with place := .acting ((rq + 1) % 256) }
  | unblock {rq} : t.place = .unblocking rq → rq < maxProcesses → (t.rqs rq).state = .blocked →
      Asks function maxProcesses t (.unblockProcess (t.rqs rq).pid) fun result =>
        if result = -1 then t.fails .unblocking
        else { t.mark rq .running with place := .unblocking ((rq + 1) % 256) }

/-- The steps without a call. -/
inductive Computes (maxProcesses : Nat) (t : Tester) : Tester → Prop
  | created {rq} : t.place = .creating rq → maxProcesses ≤ rq →
      Computes maxProcesses t t.whileAlive
  | passes {rq place} : t.place = .acting rq ∨ t.place = .unblocking rq →
      (∃ next, place = .acting next ∨ place = .unblocking next) →
      Computes maxProcesses t { t with place := place }
  | again {rq} : t.place = .unblocking rq → Computes maxProcesses t t.whileAlive

/-! ## The test among the processes of the kernel -/

structure Testing (M : Type) where
  system : System M
  tester : Tester

inductive Action where
  /-- An event that the test has no part in. -/
  | other (label : Label)
  | visits (action : Bool) (rsp : Nat)

variable [MemoryManager M]

/-- What the system call returns. -/
def result (call : Call) (rsp : Nat) (k : Kernel M) : Int :=
  match call with
  | .createProcess params => (createProcess params k).1
  | .kill pid retValue => (kill pid retValue rsp k).1
  | .blockProcess pid => (blockProcess pid rsp k).1
  | .unblockProcess pid => (unblockProcess pid k).1
  | .unblockProcessBySem _ | .blockProcessBySem | .yield | .waitpid _ | .changePrio _ _
  | .semInit _ _ | .semWait _ | .semPost _ => 0

/-- The processes of the test make no system call, and no one else moves or kills them. -/
def Undisturbed (maxProcesses : Nat) (label : Label) (s : Testing M) : Prop :=
  ∀ rq < s.tester.filled maxProcesses, (s.tester.rqs rq).live →
    (acted label → s.system.kernel.getCurrentPid ≠ (s.tester.rqs rq).pid) ∧
      named label s.system.kernel ≠ some (s.tester.rqs rq).pid

/-- Any event of the system, or a turn of the test while its process runs. -/
inductive Step (function : Addr) (maxProcesses : Nat) (me : Int) :
    Testing M → Action → Testing M → Prop
  | other {s label t} : System.Step s.system label t → Undisturbed maxProcesses label s →
      Step function maxProcesses me s (.other label) ⟨t, s.tester⟩
  | asks {s action rsp call continues t} : s.system.kernel.getCurrentPid = me →
      s.tester.visit function maxProcesses action = .asks call continues →
      System.Step s.system ⟨.call call, rsp⟩ t →
      Step function maxProcesses me s (.visits action rsp)
        ⟨t, continues (result call rsp s.system.kernel)⟩
  | computes {s action rsp next} : s.system.kernel.getCurrentPid = me →
      s.tester.visit function maxProcesses action = .computes next →
      Step function maxProcesses me s (.visits action rsp) ⟨s.system, next⟩

/-- Whenever the test creates a process, there is memory for its node of the ready queue. -/
def Fed (function : Addr) (maxProcesses : Nat) (act : Action) (s : Testing M) : Prop :=
  match act with
  | .other _ => True
  | .visits action _ => ∀ continues, s.tester.visit function maxProcesses action =
      .asks (.createProcess (endlessLoop function)) continues →
      (allocMemory nodeSize (s.system.kernel.described (endlessLoop function)).memory).1 ≠ 0

/-! ### Running it -/

instance (maxProcesses : Nat) (label : Label) (s : Testing M) :
    Decidable (Undisturbed maxProcesses label s) :=
  inferInstanceAs (Decidable (∀ rq < _, _ → _))

/-- The next state, where the action can happen. -/
def perform (function : Addr) (maxProcesses : Nat) (me : Int) (act : Action) (s : Testing M) :
    Option (Testing M) :=
  match act with
  | .other label =>
    if Undisturbed maxProcesses label s then (s.system.next label).map fun t => ⟨t, s.tester⟩
    else none
  | .visits action rsp =>
    if s.system.kernel.getCurrentPid = me then
      match s.tester.visit function maxProcesses action with
      | .asks call continues =>
        (s.system.next ⟨.call call, rsp⟩).map fun t =>
          ⟨t, continues (result call rsp s.system.kernel)⟩
      | .computes next => some ⟨s.system, next⟩
      | .returned => none
    else none

def exec (function : Addr) (maxProcesses : Nat) (me : Int) :
    List Action → Testing M → Option (Testing M)
  | [], s => some s
  | act :: acts, s =>
    (perform function maxProcesses me act s).bind (exec function maxProcesses me acts)

theorem step_of_perform {function : Addr} {maxProcesses : Nat} {me : Int} {act : Action}
    {s t : Testing M} (found : perform function maxProcesses me act s = some t) :
    Step function maxProcesses me s act t := by
  unfold perform at found
  cases act with
  | other label =>
    dsimp only at found
    split at found
    · rename_i undisturbed
      obtain ⟨after, step, rfl⟩ := Option.map_eq_some_iff.mp found
      exact .other (System.step_of_next step) undisturbed
    · cases found
  | visits action rsp =>
    dsimp only at found
    split at found
    · rename_i caller
      split at found
      · rename_i call continues asked
        obtain ⟨after, step, rfl⟩ := Option.map_eq_some_iff.mp found
        exact .asks caller asked (System.step_of_next step)
      · rename_i next computed
        cases found
        exact .computes caller computed
      · cases found
    · cases found

theorem run_of_exec {function : Addr} {maxProcesses : Nat} {me : Int} {acts : List Action}
    {s t : Testing M} (found : exec function maxProcesses me acts s = some t) :
    Run (Step function maxProcesses me) s acts t := by
  induction acts generalizing s with
  | nil =>
    cases found
    exact .nil
  | cons act acts ih =>
    obtain ⟨middle, first, rest⟩ := Option.bind_eq_some_iff.mp found
    exact .cons (step_of_perform first) (ih rest)

/-- A process of the test is on the queue, and waits for nobody. -/
def Child (k : Kernel M) (name : QueueName) (pid : Int) : Prop :=
  1 < pid ∧ ∃ a ∈ k.items name, (k.pcb a).pid = pid ∧ (k.pcb a).waitingForPid = -1

/-- The entry says where its process is. -/
structure Shows (k : Kernel M) (entry : PRq) : Prop where
  running : entry.state = .running → Child k readyQueue entry.pid
  blocked : entry.state = .blocked → Child k blockedQueue entry.pid

variable {k k' : Kernel M} {pid : Int} {name : QueueName} {rsp retValue : Nat} {entry : PRq}

/-! ## One process of the test -/

omit [MemoryManager M] in
theorem Child.steady (child : Child k name pid) (which : name = readyQueue ∨ name = blockedQueue) :
    ∃ a ∈ k.items name, (k.pcb a).pid = pid ∧ (k.pcb a).waitingForPid = -1 ∧ k.Steady a := by
  obtain ⟨_, a, member, named, free⟩ := child
  exact ⟨a, member, named, free, name, member, which⟩

theorem Child.event {s t : System M} {label : Label} (child : Child s.kernel name pid)
    (which : name = readyQueue ∨ name = blockedQueue) (step : System.Step s label t)
    (settled : Settled s.kernel) (reusable : NodesReusable M)
    (caller : acted label → s.kernel.getCurrentPid ≠ pid)
    (other : named label s.kernel ≠ some pid) : Child t.kernel name pid := by
  obtain ⟨a, member, here, free, steady⟩ := child.steady which
  have unnoticed : Unnoticed label s.kernel a := by
    refine ⟨fun acts same => caller acts ?_, fun q moved same => other ?_⟩
    · rw [settled.table.getCurrentPid, ← same, here]
    · rw [moved, ← same, here]
  have rests := event_rests step settled reusable steady free unnoticed
  refine ⟨child.1, a, rests.queue ?_ member, rests.pid.trans here, rests.waitingForPid.trans free⟩
  rcases which with rfl | rfl <;> decide

theorem Shows.event {s t : System M} {label : Label} (shows : Shows s.kernel entry)
    (step : System.Step s label t) (settled : Settled s.kernel) (reusable : NodesReusable M)
    (undisturbed : entry.live → (acted label → s.kernel.getCurrentPid ≠ entry.pid) ∧
      named label s.kernel ≠ some entry.pid) : Shows t.kernel entry where
  running here :=
    have alone := undisturbed (.inl here)
    (shows.running here).event (.inl rfl) step settled reusable alone.1 alone.2
  blocked here :=
    have alone := undisturbed (.inr here)
    (shows.blocked here).event (.inr rfl) step settled reusable alone.1 alone.2

omit [MemoryManager M] in
theorem Child.present (child : Child k name pid) (table : Table k) :
    ¬ k.Missing name pid := by
  obtain ⟨_, a, member, named, _⟩ := child
  exact fun missing => missing.elim table member named

omit [MemoryManager M] in
/-- Who is moved is the process with the pid, and it is now there. -/
theorem Child.moved {source target : QueueName} {state : ProcessState} {a : Addr}
    (child : Child k name pid) (moved : Moved pid source target state a k k') (table : Table k) :
    Child k' target pid := by
  obtain ⟨user, b, member, named, free⟩ := child
  have same : b = a := table.pidUnique (table.queued member) (table.queued moved.member)
    (named.trans moved.named.symm)
  have record : (k'.pcb a).pid = pid ∧ (k'.pcb a).waitingForPid = -1 := by
    rw [moved.pcb, if_pos rfl, ← same]
    exact ⟨named, free⟩
  exact ⟨user, a, (moved.mem_items table.exclusive).mpr (.inr ⟨rfl, rfl⟩), record⟩

theorem Child.blockProcess (rsp : Nat) (child : Child k readyQueue pid) (settled : Settled k)
    (reusable : NodesReusable M) (other : k.getCurrentPid ≠ pid) :
    (blockProcess pid rsp k).1 = 0 ∧ Child (blockProcess pid rsp k).2 blockedQueue pid := by
  rcases blockProcess_cases pid rsp k reusable with
    ⟨_, missing, _⟩ | ⟨source, a, k', _, moved, same⟩
  · exact absurd missing (child.present settled.table)
  · have away : pid ≠ k'.getCurrentPid := by
      rw [moved.getCurrentPid]
      exact other.symm
    rw [same, if_neg away]
    exact ⟨rfl, child.moved moved settled.table⟩

theorem Child.unblockProcess (child : Child k blockedQueue pid) (settled : Settled k)
    (reusable : NodesReusable M) :
    (unblockProcess pid k).1 = 0 ∧ Child (unblockProcess pid k).2 readyQueue pid := by
  rcases unblockProcess_cases pid k reusable with ⟨_, missing⟩ | ⟨a, k', same, moved⟩
  · exact absurd missing (child.present settled.table)
  · rw [same]
    exact ⟨rfl, child.moved moved settled.table⟩

theorem Child.kill (child : Child k name pid) (alive : name ≠ zombieQueue) (settled : Settled k)
    (reusable : NodesReusable M) : (kill pid retValue rsp k).1 = 0 := by
  have user := child.1
  rcases kill_cases pid retValue rsp reusable settled with
    ⟨_, kernel | missing⟩ | ⟨_, _, _, _, _, _, _, same⟩
  · omega
  · exact absurd (missing name alive) (child.present settled.table)
  · rw [same]

theorem described_waits (params : CreationParams) (k : Kernel M) :
    ((k.described params).pcb k.pcbRequest).waitingForPid = -1 := by
  unfold described
  split
  · rw [setState_pcb, if_pos rfl, editPcb_pcb, if_pos rfl, entered_pcb]
    rfl
  · rw [editPcb_pcb, if_pos rfl, entered_pcb]
    rfl

/-- A creation that succeeds puts its process on the ready queue. -/
theorem createProcess_child {function : Addr} (settled : Settled k) (runs : k.UserRuns)
    (granted : (allocMemory nodeSize (k.described (endlessLoop function)).memory).1 ≠ 0)
    (created : (createProcess (endlessLoop function) k).1 ≠ -1) :
    (createProcess (endlessLoop function) k).1 = k.nextFreePid ∧
      Child (createProcess (endlessLoop function) k).2 readyQueue k.nextFreePid := by
  have outcome := createProcess_user (endlessLoop function) settled runs.2
  have user := settled.userPid runs.2
  split at outcome
  · rw [outcome] at created
    exact absurd rfl created
  · split at outcome
    · rw [outcome] at created
      exact absurd rfl created
    · split at outcome
      · rw [outcome] at created
        exact absurd rfl created
      · have target : (endlessLoop function).target = some readyQueue := rfl
        rw [outcome]
        refine ⟨rfl, user, k.pcbRequest, ?_, ?_, ?_⟩
        · rcases placed_cases (endlessLoop function) k with ⟨_, refused⟩ | ⟨name, which, _, queued⟩
          · exact absurd (refused _ target) granted
          · rw [target] at which
            cases which
            obtain ⟨_, _, _, items⟩ := queued
            rw [items]
            exact mem_push.mpr (.inr ⟨rfl, rfl⟩)
        · change ((k.placed _).pcb _).pid = _
          rw [placed_pcb.1]
          exact described_pid
        · change ((k.placed _).pcb _).waitingForPid = _
          rw [placed_pcb.1]
          exact described_waits _ k

/-! ## The table of the test -/

variable {t : Tester} {rq maxProcesses i j : Nat} {me : Int} {function : Addr}

namespace Tester

omit [MemoryManager M] in
@[simp] theorem set_self : (t.set rq entry).rqs rq = entry := Function.update_self _ _ _

omit [MemoryManager M] in
theorem set_other (other : i ≠ rq) : (t.set rq entry).rqs i = t.rqs i :=
  Function.update_of_ne other _ _

/-- The entries whose processes are alive. -/
def living (maxProcesses : Nat) (t : Tester) : Finset Nat :=
  (Finset.range (t.filled maxProcesses)).filter fun rq => (t.rqs rq).live

end Tester

/-- With 256 processes or more, the counter `rq` starts anew before all are created. -/
def Place.Within (maxProcesses : Nat) : Place → Prop
  | .creating rq => rq ≤ maxProcesses ∧ rq < 256
  | .acting _ | .unblocking _ | .done => maxProcesses < 256
  | .failed failure => failure = .creating

/-- The entries in use name processes apart, and `alive` counts them. -/
structure Tally (maxProcesses : Nat) (me : Int) (t : Tester) : Prop where
  distinct : ∀ {i j}, i ∈ t.living maxProcesses → j ∈ t.living maxProcesses →
    (t.rqs i).pid = (t.rqs j).pid → i = j
  other : ∀ {i}, i ∈ t.living maxProcesses → (t.rqs i).pid ≠ me
  place : t.place.Within maxProcesses
  counted : maxProcesses < 256 → t.place ≠ .failed .creating →
    t.alive = (t.living maxProcesses).card
  ended : t.place = .done → t.alive = 0

variable {t' : Tester} {state : ProcessState}

omit [MemoryManager M] in
theorem Tester.mem_living : i ∈ t.living maxProcesses ↔
    i < t.filled maxProcesses ∧ (t.rqs i).live := by
  unfold living
  rw [Finset.mem_filter, Finset.mem_range]

omit [MemoryManager M] in
theorem Tester.card_living : (t.living maxProcesses).card ≤ t.filled maxProcesses := by
  unfold living
  exact (Finset.card_filter_le _ _).trans_eq (Finset.card_range _)

/-- The same entries in use: no process is forgotten. -/
theorem Tester.living_same (filled : t'.filled maxProcesses = t.filled maxProcesses)
    (rqs : t'.rqs = t.rqs) : t'.living maxProcesses = t.living maxProcesses := by
  unfold living
  rw [filled, rqs]

/-- Between running and blocked. -/
theorem Tester.living_mark (filled : t'.filled maxProcesses = t.filled maxProcesses)
    (rqs : t'.rqs = (t.mark rq state).rqs) (before : (t.rqs rq).live)
    (after : PRq.live ⟨(t.rqs rq).pid, state⟩) :
    t'.living maxProcesses = t.living maxProcesses := by
  ext i
  rw [mem_living, mem_living, filled, rqs]
  by_cases same : i = rq
  · rw [same]
    exact and_congr_right fun _ => iff_of_true (by rw [mark, set_self]; exact after) before
  · rw [mark, set_other same]

theorem Tester.living_exited (filled : t'.filled maxProcesses = t.filled maxProcesses)
    (rqs : t'.rqs = (t.mark rq .exited).rqs) :
    t'.living maxProcesses = (t.living maxProcesses).erase rq := by
  ext i
  rw [Finset.mem_erase, mem_living, mem_living, filled, rqs]
  by_cases same : i = rq
  · rw [same]
    refine iff_of_false (fun both => ?_) fun both => both.1 rfl
    rw [mark, set_self] at both
    rcases both.2 with wrong | wrong <;> cases wrong
  · rw [mark, set_other same]
    exact ⟨fun both => ⟨same, both⟩, And.right⟩

theorem Tester.living_created (filled : t.filled maxProcesses = rq)
    (filled' : t'.filled maxProcesses = rq + 1) (rqs : t'.rqs = (t.set rq ⟨pid, .running⟩).rqs) :
    t'.living maxProcesses = insert rq (t.living maxProcesses) := by
  ext i
  rw [Finset.mem_insert, mem_living, mem_living, filled, filled', rqs]
  by_cases same : i = rq
  · rw [same, set_self]
    exact iff_of_true ⟨Nat.lt_succ_self rq, .inl rfl⟩ (.inl rfl)
  · rw [set_other same]
    constructor
    · exact fun both => .inr ⟨by omega, both.2⟩
    · exact fun either => either.elim (absurd · same) fun both => ⟨by omega, both.2⟩

namespace Tally

/-- No process is added. -/
theorem shrink (tally : Tally maxProcesses me t)
    (fewer : t'.living maxProcesses ⊆ t.living maxProcesses)
    (pids : ∀ i, (t'.rqs i).pid = (t.rqs i).pid)
    (place : t'.place.Within maxProcesses)
    (counted : maxProcesses < 256 → t'.place ≠ .failed .creating →
      t'.alive = (t'.living maxProcesses).card) (ended : t'.place = .done → t'.alive = 0) :
    Tally maxProcesses me t' where
  distinct first second same :=
    tally.distinct (fewer first) (fewer second) (by rw [← pids, ← pids, same])
  other member := by
    rw [pids]
    exact tally.other (fewer member)
  place := place
  counted := counted
  ended := ended

theorem pids_mark : ∀ i, ((t.mark rq state).rqs i).pid = (t.rqs i).pid := by
  intro i
  by_cases same : i = rq
  · rw [same, Tester.mark, Tester.set_self]
  · rw [Tester.mark, Tester.set_other same]

theorem create (tally : Tally maxProcesses me t) (here : t.place = .creating rq)
    (below : rq < maxProcesses) (fresh : ∀ i ∈ t.living maxProcesses, (t.rqs i).pid ≠ pid)
    (other : pid ≠ me) : Tally maxProcesses me { t.set rq ⟨pid, .running⟩ with
      place := .creating ((rq + 1) % 256), alive := (t.alive + 1) % 256 } := by
  have place : rq ≤ maxProcesses ∧ rq < 256 := by
    have within := tally.place
    rw [here] at within
    exact within
  have filled : t.filled maxProcesses = rq := by
    unfold Tester.filled
    rw [here]
  by_cases last : rq + 1 < 256
  · have modulo : (rq + 1) % 256 = rq + 1 := Nat.mod_eq_of_lt last
    have living : ({ t.set rq ⟨pid, .running⟩ with
        place := .creating ((rq + 1) % 256),
        alive := (t.alive + 1) % 256 } : Tester).living maxProcesses =
        insert rq (t.living maxProcesses) := Tester.living_created filled modulo rfl
    have absent : rq ∉ t.living maxProcesses := by
      rw [Tester.mem_living, filled]
      omega
    have apart : ∀ i ∈ t.living maxProcesses, i ≠ rq := by
      rintro i member rfl
      exact absent member
    refine ⟨?_, ?_, ?_, ?_, ?_⟩
    · intro i j first second same
      rw [living, Finset.mem_insert] at first second
      dsimp only at same
      rcases first with rfl | first <;> rcases second with rfl | second
      · rfl
      · rw [Tester.set_self, Tester.set_other (apart j second)] at same
        exact absurd same.symm (fresh j second)
      · rw [Tester.set_self, Tester.set_other (apart i first)] at same
        exact absurd same (fresh i first)
      · rw [Tester.set_other (apart i first), Tester.set_other (apart j second)] at same
        exact tally.distinct first second same
    · intro i member
      rw [living, Finset.mem_insert] at member
      dsimp only
      rcases member with rfl | member
      · rw [Tester.set_self]
        exact other
      · rw [Tester.set_other (apart i member)]
        exact tally.other member
    · change _ ≤ _ ∧ _ < _
      omega
    · intro few _
      rw [living, Finset.card_insert_of_notMem absent, ← tally.counted few (by rw [here]; nofun)]
      have most : (t.living maxProcesses).card ≤ t.filled maxProcesses := Tester.card_living
      have counted := tally.counted few (by rw [here]; nofun)
      dsimp only
      omega
    · exact nofun
  · have modulo : (rq + 1) % 256 = 0 := by omega
    have empty : ({ t.set rq ⟨pid, .running⟩ with
        place := .creating ((rq + 1) % 256),
        alive := (t.alive + 1) % 256 } : Tester).living maxProcesses = ∅ := by
      apply Finset.eq_empty_of_forall_notMem
      intro i member
      have low := (Tester.mem_living.mp member).1
      change i < (rq + 1) % 256 at low
      omega
    refine ⟨?_, ?_, ?_, ?_, ?_⟩
    · intro i j first
      rw [empty] at first
      cases first
    · intro i member
      rw [empty] at member
      cases member
    · change _ ≤ _ ∧ _ < _
      omega
    · intro few
      omega
    · exact nofun

/-- Only the place changes. -/
theorem turn {place : Place} (tally : Tally maxProcesses me t)
    (filled : ({ t with place := place } : Tester).filled maxProcesses = t.filled maxProcesses)
    (going : t.place ≠ .failed .creating) (within : place.Within maxProcesses)
    (ahead : place ≠ .done) : Tally maxProcesses me { t with place := place } := by
  have living : ({ t with place := place } : Tester).living maxProcesses =
      t.living maxProcesses := Tester.living_same filled rfl
  refine tally.shrink living.subset (fun _ => rfl) within (fun few _ => ?_) (absurd · ahead)
  rw [living]
  exact tally.counted few going

/-- Nothing is in use before the first process is created, nor after a report. -/
theorem of_none (none : t'.filled maxProcesses = 0)
    (within : t'.place.Within maxProcesses)
    (counted : t'.place ≠ .failed .creating → t'.alive = 0) :
    Tally maxProcesses me t' := by
  have living : t'.living maxProcesses = ∅ := by
    apply Finset.card_eq_zero.mp
    have most : (t'.living maxProcesses).card ≤ t'.filled maxProcesses := Tester.card_living
    omega
  refine ⟨?_, ?_, within, ?_, fun here => counted (by rw [here]; nofun)⟩
  · intro i j first
    rw [living] at first
    cases first
  · intro i member
    rw [living] at member
    cases member
  · intro _ going
    rw [living, Finset.card_empty]
    exact counted going

theorem whileAlive (tally : Tally maxProcesses me t) (all : t.filled maxProcesses = maxProcesses)
    (few : maxProcesses < 256) (going : t.place ≠ .failed .creating) :
    Tally maxProcesses me t.whileAlive := by
  have counted := tally.counted few going
  unfold Tester.whileAlive
  split
  · exact tally.turn all.symm going few nofun
  · rename_i dead
    split
    · exact of_none rfl ⟨Nat.zero_le _, by decide⟩ fun _ => by
        dsimp only
        omega
    · have living : ({ t with i := t.i + 1, place := .done } : Tester).living maxProcesses =
          t.living maxProcesses := Tester.living_same all.symm rfl
      refine tally.shrink living.subset (fun _ => rfl) few (fun _ _ => ?_) fun _ =>
        Nat.eq_zero_of_not_pos dead
      rw [living]
      exact counted

/-- A process is blocked or unblocked. -/
theorem mark {place : Place} (tally : Tally maxProcesses me t)
    (filled : ({ t.mark rq state with place := place } : Tester).filled maxProcesses =
      t.filled maxProcesses) (going : t.place ≠ .failed .creating)
    (within : place.Within maxProcesses) (ahead : place ≠ .done) (before : (t.rqs rq).live)
    (after : PRq.live ⟨(t.rqs rq).pid, state⟩) :
    Tally maxProcesses me { t.mark rq state with place := place } := by
  have living : ({ t.mark rq state with place := place } : Tester).living maxProcesses =
      t.living maxProcesses := Tester.living_mark filled rfl before after
  refine tally.shrink living.subset pids_mark within (fun few _ => ?_) (absurd · ahead)
  rw [living]
  exact tally.counted few going

/-- A process is killed. -/
theorem exit {place : Place} (tally : Tally maxProcesses me t)
    (filled : ({ t.mark rq .exited with
      place := place, alive := (t.alive + 255) % 256 } : Tester).filled maxProcesses =
        t.filled maxProcesses) (going : t.place ≠ .failed .creating)
    (within : place.Within maxProcesses) (ahead : place ≠ .done)
    (member : rq ∈ t.living maxProcesses) (few : t.filled maxProcesses < 256) :
    Tally maxProcesses me { t.mark rq .exited with
      place := place, alive := (t.alive + 255) % 256 } := by
  have living : ({ t.mark rq .exited with
      place := place, alive := (t.alive + 255) % 256 } : Tester).living maxProcesses =
      (t.living maxProcesses).erase rq := Tester.living_exited filled rfl
  refine tally.shrink ?_ pids_mark within (fun narrow _ => ?_) (absurd · ahead)
  · rw [living]
    exact Finset.erase_subset _ _
  · have counted := tally.counted narrow going
    have some := Finset.card_pos.mpr ⟨rq, member⟩
    have most : (t.living maxProcesses).card ≤ t.filled maxProcesses := Tester.card_living
    rw [living, Finset.card_erase_of_mem member]
    dsimp only
    omega

end Tally

/-! ## A turn of the test -/

variable {action : Bool} {call : Call} {continues : Int → Tester} {next : Tester}

omit [MemoryManager M] in
theorem visit_asks (asked : t.visit function maxProcesses action = .asks call continues) :
    Asks function maxProcesses t call continues := by
  unfold Tester.visit at asked
  split at asked
  · rename_i rq here
    split at asked
    · rename_i below
      cases asked
      exact .create here below
    · cases asked
  · rename_i rq here
    split at asked
    · rename_i below
      cases action with
      | false =>
        dsimp only at asked
        split at asked
        · rename_i live
          cases asked
          exact .kill here below live
        · cases asked
      | true =>
        dsimp only at asked
        split at asked
        · rename_i running
          cases asked
          exact .block here below running
        · cases asked
    · cases asked
  · rename_i rq here
    split at asked
    · rename_i below
      split at asked
      · rename_i blocked
        cases asked
        exact .unblock here below blocked.1
      · cases asked
    · cases asked
  · cases asked
  · cases asked

omit [MemoryManager M] in
theorem visit_computes (computed : t.visit function maxProcesses action = .computes next) :
    Computes maxProcesses t next := by
  unfold Tester.visit at computed
  split at computed
  · rename_i rq here
    split at computed
    · cases computed
    · rename_i full
      cases computed
      exact .created here (Nat.le_of_not_lt full)
  · rename_i rq here
    split at computed
    · cases action with
      | false =>
        dsimp only at computed
        split at computed
        · cases computed
        · cases computed
          exact .passes (.inl here) ⟨_, .inl rfl⟩
      | true =>
        dsimp only at computed
        split at computed
        · cases computed
        · cases computed
          exact .passes (.inl here) ⟨_, .inl rfl⟩
    · cases computed
      exact .passes (.inl here) ⟨_, .inr rfl⟩
  · rename_i rq here
    split at computed
    · split at computed
      · cases computed
      · cases computed
        exact .passes (.inr here) ⟨_, .inr rfl⟩
    · cases computed
      exact .again here
  · cases computed
  · cases computed

omit [MemoryManager M] in
/-- In the second half of a round, every entry is in use. -/
theorem Tester.filled_acting (maxProcesses : Nat)
    (here : t.place = .acting rq ∨ t.place = .unblocking rq) :
    t.filled maxProcesses = maxProcesses ∧ t.place ≠ .failed .creating := by
  unfold filled
  rcases here with here | here
  · rw [here]
    exact ⟨rfl, nofun⟩
  · rw [here]
    exact ⟨rfl, nofun⟩

theorem Tally.few (tally : Tally maxProcesses me t)
    (here : t.place = .acting rq ∨ t.place = .unblocking rq) : maxProcesses < 256 := by
  have within := tally.place
  rcases here with here | here
  · rw [here] at within
    exact within
  · rw [here] at within
    exact within

theorem Tally.computes (tally : Tally maxProcesses me t) (computes : Computes maxProcesses t next) :
    Tally maxProcesses me next := by
  cases computes with
  | created here full =>
    have within := tally.place
    rw [here] at within
    have all : t.filled maxProcesses = maxProcesses := by
      unfold Tester.filled
      rw [here]
      exact Nat.le_antisymm within.1 full
    exact tally.whileAlive all (Nat.lt_of_le_of_lt full within.2) (by rw [here]; nofun)
  | passes here next =>
    obtain ⟨all, going⟩ := Tester.filled_acting maxProcesses here
    obtain ⟨_, rfl | rfl⟩ := next
    · exact tally.turn all.symm going (tally.few here) nofun
    · exact tally.turn all.symm going (tally.few here) nofun
  | again here =>
    obtain ⟨all, going⟩ := Tester.filled_acting maxProcesses (.inr here)
    exact tally.whileAlive all (tally.few (.inr here)) going

omit [MemoryManager M] in
/-- A step of its own fills in no entry and changes none. -/
theorem Computes.entries (computes : Computes maxProcesses t next)
    (within : t.place.Within maxProcesses) :
    next.rqs = t.rqs ∧ next.filled maxProcesses ≤ t.filled maxProcesses := by
  have again : t.filled maxProcesses = maxProcesses →
      t.whileAlive.rqs = t.rqs ∧ t.whileAlive.filled maxProcesses ≤ t.filled maxProcesses := by
    intro all
    rw [all]
    unfold Tester.whileAlive
    split
    · exact ⟨rfl, Nat.le_refl _⟩
    · split
      · exact ⟨rfl, Nat.zero_le _⟩
      · exact ⟨rfl, Nat.le_refl _⟩
  cases computes with
  | created here full =>
    apply again
    rw [here] at within
    unfold Tester.filled
    rw [here]
    exact Nat.le_antisymm within.1 full
  | passes here next =>
    rw [(Tester.filled_acting maxProcesses here).1]
    obtain ⟨_, rfl | rfl⟩ := next
    · exact ⟨rfl, Nat.le_refl _⟩
    · exact ⟨rfl, Nat.le_refl _⟩
  | again here => exact again (Tester.filled_acting maxProcesses (.inr here)).1

/-- The table of the test agrees with the queues of the kernel. -/
structure Mirrors (maxProcesses : Nat) (me : Int) (s : Testing M) : Prop where
  settled : Settled s.system.kernel
  tally : Tally maxProcesses me s.tester
  shown : ∀ rq < s.tester.filled maxProcesses, Shows s.system.kernel (s.tester.rqs rq)

variable {s u : Testing M} {after : System M} {label : Label}

namespace Mirrors

/-- A call of the test leaves the processes alone that it does not name. -/
theorem kept (mirrors : Mirrors maxProcesses me s) (step : System.Step s.system label after)
    (reusable : NodesReusable M) (caller : s.system.kernel.getCurrentPid = me)
    (known : i < s.tester.filled maxProcesses)
    (unnamed : (s.tester.rqs i).live →
      named label s.system.kernel ≠ some (s.tester.rqs i).pid) :
    Shows after.kernel (s.tester.rqs i) := by
  refine (mirrors.shown i known).event step mirrors.settled reusable fun live =>
    ⟨fun _ same => ?_, unnamed live⟩
  exact mirrors.tally.other (Tester.mem_living.mpr ⟨known, live⟩) (same.symm.trans caller)

omit [MemoryManager M] in
/-- The pid that the next process gets is not in use. -/
theorem bounded (mirrors : Mirrors maxProcesses me s) (member : i ∈ s.tester.living maxProcesses) :
    (s.tester.rqs i).pid < s.system.kernel.nextFreePid := by
  have table := mirrors.settled.table
  obtain ⟨known, live⟩ := Tester.mem_living.mp member
  have shows := mirrors.shown i known
  have child : ∃ name, Child s.system.kernel name (s.tester.rqs i).pid :=
    live.elim (fun here => ⟨_, shows.running here⟩) fun here => ⟨_, shows.blocked here⟩
  obtain ⟨_, _, a, queued, named, _⟩ := child
  rw [← named]
  exact (table.pidBound (table.queued queued)).2

/-- After a call that names the process of one entry, and brings it to its new state. -/
theorem marked {place : Place} {alive : Nat} (mirrors : Mirrors maxProcesses me s)
    (step : System.Step s.system label after) (reusable : NodesReusable M)
    (caller : s.system.kernel.getCurrentPid = me) (member : rq ∈ s.tester.living maxProcesses)
    (called : named label s.system.kernel = some (s.tester.rqs rq).pid)
    (shows : Shows after.kernel ⟨(s.tester.rqs rq).pid, state⟩)
    (filled : ({ s.tester.mark rq state with
      place := place, alive := alive } : Tester).filled maxProcesses =
        s.tester.filled maxProcesses)
    (tally : Tally maxProcesses me { s.tester.mark rq state with place := place, alive := alive }) :
    Mirrors maxProcesses me
      ⟨after, { s.tester.mark rq state with place := place, alive := alive }⟩ := by
  refine ⟨System.Step.settled step reusable mirrors.settled, tally, fun i known => ?_⟩
  have known' : i < s.tester.filled maxProcesses := Nat.lt_of_lt_of_eq known filled
  by_cases same : i = rq
  · have entry : (s.tester.mark rq state).rqs i = ⟨(s.tester.rqs rq).pid, state⟩ := by
      rw [same, Tester.mark, Tester.set_self]
    change Shows after.kernel ((s.tester.mark rq state).rqs i)
    rw [entry]
    exact shows
  · have entry : (s.tester.mark rq state).rqs i = s.tester.rqs i := Tester.set_other same
    change Shows after.kernel ((s.tester.mark rq state).rqs i)
    rw [entry]
    refine mirrors.kept step reusable caller known' fun live equal => same ?_
    exact mirrors.tally.distinct (Tester.mem_living.mpr ⟨known', live⟩) member
      (Option.some.inj (equal.symm.trans called))

theorem asks (mirrors : Mirrors maxProcesses me s) (reusable : NodesReusable M)
    (caller : s.system.kernel.getCurrentPid = me)
    (asks : Asks function maxProcesses s.tester call continues)
    (granted : call = .createProcess (endlessLoop function) →
      (allocMemory nodeSize (s.system.kernel.described (endlessLoop function)).memory).1 ≠ 0)
    (step : System.Step s.system ⟨.call call, rsp⟩ after) :
    Mirrors maxProcesses me ⟨after, continues (result call rsp s.system.kernel)⟩ := by
  have settled := mirrors.settled
  have tally := mirrors.tally
  have performed : UserRuns s.system.kernel ∧ after = s.system.perform call rsp := by
    cases step with
    | call runs _ _ => exact ⟨runs, rfl⟩
  cases asks with
  | @create rq here below =>
    have filled : s.tester.filled maxProcesses = rq := by
      unfold Tester.filled
      rw [here]
    have created : result (.createProcess (endlessLoop function)) rsp s.system.kernel =
        (createProcess (endlessLoop function) s.system.kernel).1 := rfl
    have next := System.Step.settled step reusable settled
    by_cases refused : (createProcess (endlessLoop function) s.system.kernel).1 = -1
    · dsimp only
      rw [created, if_pos refused]
      exact ⟨next, .of_none rfl rfl fun going => absurd rfl going, nofun⟩
    · obtain ⟨pid, child⟩ := createProcess_child settled performed.1 (granted rfl) refused
      dsimp only
      rw [created, if_neg refused, pid]
      refine ⟨next, tally.create here below (fun i member same => ?_) ?_, fun i known => ?_⟩
      · have bound := mirrors.bounded member
        omega
      · have bound := (settled.table.pidBound settled.table.current).2
        rw [← settled.table.getCurrentPid, caller] at bound
        exact fun same => absurd bound (by omega)
      · have low : i < (rq + 1) % 256 := known
        by_cases same : i = rq
        · have entry : (s.tester.set rq ⟨s.system.kernel.nextFreePid, .running⟩).rqs i =
              ⟨s.system.kernel.nextFreePid, .running⟩ := by
            rw [same, Tester.set_self]
          change Shows after.kernel ((s.tester.set rq _).rqs i)
          rw [entry, performed.2]
          exact ⟨fun _ => child, nofun⟩
        · have entry : (s.tester.set rq ⟨s.system.kernel.nextFreePid, .running⟩).rqs i =
              s.tester.rqs i := Tester.set_other same
          change Shows after.kernel ((s.tester.set rq _).rqs i)
          rw [entry]
          exact mirrors.kept step reusable caller (by omega) fun _ => nofun
  | @kill rq here below live =>
    obtain ⟨all, going⟩ := Tester.filled_acting maxProcesses (.inl here)
    have few := tally.few (.inl here)
    have member : rq ∈ s.tester.living maxProcesses :=
      Tester.mem_living.mpr ⟨below.trans_eq all.symm, live⟩
    have done : (Kernel.kill (s.tester.rqs rq).pid killValue rsp s.system.kernel).1 = 0 := by
      have shows := mirrors.shown rq (below.trans_eq all.symm)
      rcases live with running | blocked
      · exact (shows.running running).kill (by decide) settled reusable
      · exact (shows.blocked blocked).kill (by decide) settled reusable
    have succeeded : result (.kill (s.tester.rqs rq).pid killValue) rsp s.system.kernel ≠ -1 := by
      change (Kernel.kill _ _ _ _).1 ≠ -1
      rw [done]
      decide
    dsimp only
    rw [if_neg succeeded]
    exact mirrors.marked step reusable caller member rfl ⟨nofun, nofun⟩ all.symm
      (tally.exit all.symm going few nofun member (by omega))
  | @block rq here below running =>
    obtain ⟨all, going⟩ := Tester.filled_acting maxProcesses (.inl here)
    have member : rq ∈ s.tester.living maxProcesses :=
      Tester.mem_living.mpr ⟨below.trans_eq all.symm, .inl running⟩
    have child := (mirrors.shown rq (below.trans_eq all.symm)).running running
    obtain ⟨done, blocked⟩ := child.blockProcess rsp settled reusable fun same =>
      tally.other member (same.symm.trans caller)
    have succeeded : result (.blockProcess (s.tester.rqs rq).pid) rsp s.system.kernel ≠ -1 := by
      change (Kernel.blockProcess _ _ _).1 ≠ -1
      rw [done]
      decide
    dsimp only
    rw [if_neg succeeded]
    refine mirrors.marked step reusable caller member rfl ⟨nofun, fun _ => ?_⟩ all.symm
      (tally.mark all.symm going (tally.few (.inl here)) nofun (.inl running) (.inr rfl))
    rw [performed.2]
    exact blocked
  | @unblock rq here below blocked =>
    obtain ⟨all, going⟩ := Tester.filled_acting maxProcesses (.inr here)
    have member : rq ∈ s.tester.living maxProcesses :=
      Tester.mem_living.mpr ⟨below.trans_eq all.symm, .inr blocked⟩
    have child := (mirrors.shown rq (below.trans_eq all.symm)).blocked blocked
    obtain ⟨done, ready⟩ := child.unblockProcess settled reusable
    have succeeded : result (.unblockProcess (s.tester.rqs rq).pid) rsp s.system.kernel ≠ -1 := by
      change (Kernel.unblockProcess _ _).1 ≠ -1
      rw [done]
      decide
    dsimp only
    rw [if_neg succeeded]
    refine mirrors.marked step reusable caller member rfl ⟨fun _ => ?_, nofun⟩ all.symm
      (tally.mark all.symm going (tally.few (.inr here)) nofun (.inr blocked) (.inl rfl))
    rw [performed.2]
    exact ready

theorem step {act : Action} (mirrors : Mirrors maxProcesses me s) (reusable : NodesReusable M)
    (step : Step function maxProcesses me s act u) (fed : Fed function maxProcesses act s) :
    Mirrors maxProcesses me u := by
  cases step with
  | other step undisturbed =>
    exact ⟨System.Step.settled step reusable mirrors.settled, mirrors.tally, fun rq known =>
      (mirrors.shown rq known).event step mirrors.settled reusable (undisturbed rq known)⟩
  | @asks _ _ call continues _ caller asked step =>
    refine mirrors.asks reusable caller (visit_asks asked) (fun creates => ?_) step
    subst creates
    exact fed continues asked
  | computes _ computed =>
    have computes := visit_computes computed
    obtain ⟨rqs, fewer⟩ := computes.entries mirrors.tally.place
    refine ⟨mirrors.settled, mirrors.tally.computes computes, fun rq known => ?_⟩
    dsimp only
    rw [rqs]
    exact mirrors.shown rq (known.trans_le fewer)

end Mirrors

/-- `p_rqs` is uninitialized. -/
def Tester.start (rqs : Nat → PRq) : Tester := ⟨0, .creating 0, rqs, 0⟩

/-- What the test relies on, and what it checks. -/
structure Passes (maxProcesses : Nat) (s : Testing M) : Prop where
  /-- A process that says `RUNNING` is ready, one that says `BLOCKED` is blocked. -/
  shown : ∀ rq < s.tester.filled maxProcesses, Shows s.system.kernel (s.tester.rqs rq)
  /-- No kill, block or unblock is refused. -/
  reports : ∀ failure, s.tester.place = .failed failure → failure = .creating
  /-- When the test says that all processes are killed, they are. -/
  killed : s.tester.place = .done → ∀ rq < maxProcesses, ¬ (s.tester.rqs rq).live

omit [MemoryManager M] in
theorem Mirrors.reports {failure : Failure} (mirrors : Mirrors maxProcesses me s)
    (here : s.tester.place = .failed failure) : failure = .creating := by
  have within := mirrors.tally.place
  rw [here] at within
  exact within

omit [MemoryManager M] in
theorem Mirrors.passes (mirrors : Mirrors maxProcesses me s) : Passes maxProcesses s where
  shown := mirrors.shown
  reports _ here := mirrors.reports here
  killed := by
    intro here rq below live
    have within := mirrors.tally.place
    rw [here] at within
    have known : rq < s.tester.filled maxProcesses := by
      unfold Tester.filled
      rw [here]
      exact below
    -- `alive` is zero where the test says so, and counts the entries that live.
    have counted := mirrors.tally.counted within (by rw [here]; nofun)
    have some := Finset.card_pos.mpr ⟨rq, Tester.mem_living.mpr ⟨known, live⟩⟩
    have ended := mirrors.tally.ended here
    omega

/-- The shell runs the test with one process, which is blocked, unblocked and killed while the
timer ticks. -/
def oneProcess : List Action :=
  [.visits false 0, .visits false 0, .visits true 0, .other ⟨.timerTick, 0⟩, .visits false 0,
    .visits true 0, .visits false 0, .visits false 0]

def shellTests : Testing Bump :=
  ⟨{ started Bump.kernel with kernel := callTimerTick 0 (started Bump.kernel).kernel },
    .start fun _ => ⟨0, .ready⟩⟩

theorem oneProcess_runs : (exec 3 1 1 oneProcess shellTests).isSome := by decide +kernel

end TestProcesses
end SoKernel
