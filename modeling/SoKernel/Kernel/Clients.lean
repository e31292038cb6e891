import SoKernel.Kernel.Accounts
import SoKernel.Kernel.PipeState
import SoKernel.Lib.Parties

namespace SoKernel
open MemoryManager QueueName Lib Kernel SoKernel.System

variable {M Χ Λ σ : Type}

/-- What the code of a process does between two points of its program. -/
inductive Deed where
  | wait (id : Int)
  | post (id : Int)
  | yield
  | pipe (slot : Nat) (change : Pipe → Pipe)
  | nothing

namespace Deed

def command : Deed → Command Int
  | .wait id => .wait id
  | .post id => .post id
  | .yield | .pipe _ _ | .nothing => .internal

/-- The pipes after it. -/
def pipes : Deed → (Nat → Pipe) → Nat → Pipe
  | .pipe slot change, pipes => Function.update pipes slot (change (pipes slot))
  | .wait _, pipes | .post _, pipes | .yield, pipes | .nothing, pipes => pipes

/-- It uses no other semaphores. -/
def On (own : Int → Prop) : Deed → Prop
  | .wait id | .post id => own id
  | .yield | .pipe _ _ | .nothing => True

def run [MemoryManager M] (rsp : Nat) (k : Kernel M) : Deed → Kernel M
  | .wait id => (semWait id rsp k).2
  | .post id => (semPost id k).2
  | .yield => Kernel.yield rsp k
  | .pipe slot change => k.editPipe slot change
  | .nothing => k

end Deed

/-- A program: what a process does next, with a choice where its input is free, at its
place in the program, seeing the pipes and the data it shares with others. -/
abbrev Program (Χ Λ σ : Type) := Χ → Λ → (Nat → Pipe) → σ → Option (Deed × Λ × σ)

/-- The program as the semaphores see it. -/
def Program.Does (program : Program Χ Λ σ) (l : Λ) (d : (Nat → Pipe) × σ) (c : Command Int)
    (l' : Λ) (d' : (Nat → Pipe) × σ) : Prop :=
  ∃ choice deed, program choice l d.1 d.2 = some (deed, l', d'.2) ∧ c = deed.command ∧
    d'.1 = deed.pipes d.1

/-- A step of a run: an event of the kernel, or the running process goes on. -/
inductive Act (Χ : Type) where
  | event (label : Label)
  | turn (choice : Χ) (rsp : Nat)

/-- A kernel, the place of each process in a program, and the data the processes share. -/
structure Clients (M Λ σ : Type) where
  system : System M
  loc : Int → Λ
  shared : σ

namespace Clients

/-- The event is not a call on the semaphores of the program. -/
def Avoids (own : Int → Prop) : Event → Prop
  | .call (.semInit id _) | .call (.semWait id) | .call (.semPost id) => ¬ own id
  | _ => True

def view (s : Clients M Λ σ) : Parties Int Int Λ ((Nat → Pipe) × σ) :=
  ⟨s.system.kernel.sems, s.loc, s.system.kernel.pipes, s.shared⟩

variable [MemoryManager M]

/-- The running process goes on in its program, or an event that leaves the semaphores of
the program alone happens. -/
inductive Step (program : Program Χ Λ σ) (own : Int → Prop) (s : Clients M Λ σ) :
    Act Χ → Clients M Λ σ → Prop
  | event {label : Label} {t : System M} : Audited.inScope label.event = true →
      Avoids own label.event → System.Step s.system label t →
      Step program own s (.event label) { s with system := t }
  | turn {choice : Χ} {rsp : Nat} {deed : Deed} {l : Λ} {d : σ} : UserRuns s.system.kernel →
      s.system.pending s.system.kernel.processes.currentProcess = none →
      program choice (s.loc s.system.kernel.getCurrentPid) s.system.kernel.pipes s.shared =
        some (deed, l, d) →
      Step program own s (.turn choice rsp)
        ⟨{ s.system with kernel := deed.run rsp s.system.kernel },
          Function.update s.loc s.system.kernel.getCurrentPid l, d⟩

instance (own : Int → Prop) [DecidablePred own] (event : Event) : Decidable (Avoids own event) :=
  match event with
  | .call (.semInit id _) | .call (.semWait id) | .call (.semPost id) =>
    (instDecidableNot : Decidable (¬ own id))
  | .timerTick | .ctrlC | .resume | .call .yield | .call (.createProcess _)
  | .call (.blockProcess _) | .call (.unblockProcess _) | .call .blockProcessBySem
  | .call (.unblockProcessBySem _) | .call (.kill _ _) | .call (.waitpid _)
  | .call (.changePrio _ _) => instDecidableTrue

/-- The next state, where the step is possible. -/
def next (program : Program Χ Λ σ) (own : Int → Prop) [DecidablePred own] (act : Act Χ)
    (s : Clients M Λ σ) : Option (Clients M Λ σ) :=
  match act with
  | .event label =>
    if Audited.inScope label.event = true ∧ Avoids own label.event then
      (s.system.next label).map fun t => { s with system := t }
    else none
  | .turn choice rsp =>
    if UserRuns s.system.kernel ∧
        s.system.pending s.system.kernel.processes.currentProcess = none then
      (program choice (s.loc s.system.kernel.getCurrentPid) s.system.kernel.pipes s.shared).map
        fun (deed, l, d) => ⟨{ s.system with kernel := deed.run rsp s.system.kernel },
          Function.update s.loc s.system.kernel.getCurrentPid l, d⟩
    else none

def exec (program : Program Χ Λ σ) (own : Int → Prop) [DecidablePred own] :
    List (Act Χ) → Clients M Λ σ → Option (Clients M Λ σ)
  | [], s => some s
  | act :: acts, s => (s.next program own act).bind (exec program own acts)

theorem step_of_next {program : Program Χ Λ σ} {own : Int → Prop} [DecidablePred own] {act : Act Χ}
    {s t : Clients M Λ σ} (found : s.next program own act = some t) : Step program own s act t := by
  cases act with
  | event label =>
    unfold next at found
    dsimp only at found
    split at found
    · rename_i guard
      obtain ⟨after, step, same⟩ := Option.map_eq_some_iff.mp found
      subst same
      exact .event guard.1 guard.2 (System.step_of_next step)
    · cases found
  | turn choice rsp =>
    unfold next at found
    dsimp only at found
    split at found
    · rename_i guard
      obtain ⟨⟨deed, l, d⟩, does, same⟩ := Option.map_eq_some_iff.mp found
      subst same
      exact .turn guard.1 guard.2 does
    · cases found

theorem run_of_exec {program : Program Χ Λ σ} {own : Int → Prop} [DecidablePred own]
    {acts : List (Act Χ)} {s t : Clients M Λ σ} (found : exec program own acts s = some t) :
    Run (Step program own) s acts t := by
  induction acts generalizing s with
  | nil =>
    cases found
    exact .nil
  | cons act acts ih =>
    obtain ⟨middle, first, rest⟩ := Option.bind_eq_some_iff.mp found
    exact .cons (step_of_next first) (ih rest)

/-- A wait of the program that finds no token finds the memory to queue up. -/
def Fed (program : Program Χ Λ σ) (act : Act Χ) (s : Clients M Λ σ) : Prop :=
  match act with
  | .event _ => True
  | .turn choice _ =>
    match program choice (s.loc s.system.kernel.getCurrentPid) s.system.kernel.pipes s.shared with
    | some (.wait id, _, _) => (s.system.kernel.semaphores id).value = 0 → s.system.kernel.HasRoom
    | _ => True

end Clients

namespace Kernel

variable {k k' : Kernel M} {a : Addr} {pid id j : Int} {rsp value slot : Nat} {own : Int → Prop}
variable {source target : QueueName} {state : ProcessState} {params : CreationParams}

/-- No process is lost, and each keeps its pid. -/
def KeepsPids (k k' : Kernel M) : Prop :=
  ∀ a ∈ k.pcbs, a ∈ k'.pcbs ∧ (k'.pcb a).pid = (k.pcb a).pid

theorem SameRecords.keepsPids (same : SameRecords k k') : KeepsPids k k' := by
  intro a member
  rw [same.pcbs]
  exact ⟨member, same.pid a⟩

theorem Relocates.keepsPids (relocates : Relocates a target k k') : KeepsPids k k' := by
  intro b member
  rw [relocates.pcbs]
  exact ⟨member, relocates.pid b⟩

theorem Creates.keepsPids (creates : Creates params a rsp k k') : KeepsPids k k' := by
  obtain ⟨_, _, kept⟩ := creates.grows
  intro b member
  rw [kept member]
  refine ⟨?_, rfl⟩
  cases creates with
  | failed _ _ pcbs _ =>
    rw [pcbs]
    exact member
  | created _ _ _ pcbs _ =>
    rw [pcbs]
    exact Finset.mem_insert_of_mem member

/-- Nobody waits where there is a token. -/
def Eager (k : Kernel M) : Prop := ∀ id, 0 < k.sems.value id → k.sems.waiting id = []

/-- What the program relies on: the table and the wait lists are in order, and its own
semaphores are open. -/
structure Serviced (own : Int → Prop) (k : Kernel M) : Prop where
  settled : Settled k
  lists : WaitLists k
  eager : Eager k
  opened : ∀ id, own id → (k.semaphores id).used = true ∧ (k.semaphores id).blocked ≠ none

theorem Serviced.orderly (serviced : Serviced own k) : k.sems.Orderly :=
  ⟨serviced.lists.exclusive, serviced.eager⟩

theorem SameUse.opened (use : SameUse k k')
    (opened : ∀ id, own id → (k.semaphores id).used = true ∧ (k.semaphores id).blocked ≠ none) :
    ∀ id, own id → (k'.semaphores id).used = true ∧ (k'.semaphores id).blocked ≠ none := by
  intro id mine
  rw [(use id).1, Ne, (use id).2]
  exact opened id mine

/-- The semaphores and the processes are the same. -/
theorem Serviced.same (serviced : Serviced own k) (settled : Settled k')
    (semaphores : k'.semaphores = k.semaphores) (same : SameRecords k k') : Serviced own k' where
  settled := settled
  lists := serviced.lists.same (by rw [sems_congr semaphores]) same
  eager := by
    unfold Eager
    rw [sems_congr semaphores]
    exact serviced.eager
  opened := (SameUse.of_eq semaphores).opened serviced.opened

theorem Serviced.editPipe (serviced : Serviced own k) (change : Pipe → Pipe) :
    Serviced own (k.editPipe slot change) := by
  have settled := serviced.settled
  exact serviced.same ⟨settled.table.congr rfl rfl rfl rfl rfl rfl rfl, settled.scheduled,
    settled.dispatched⟩ rfl ⟨rfl, rfl, .rfl, fun _ => rfl, fun _ => rfl, fun _ => rfl, fun _ => rfl⟩

variable [MemoryManager M]

/-! ## Waits and posts -/

theorem Eager.semInit (eager : Eager k) : Eager (semInit id value k).2 := by
  have way := semInit_opened id value k
  generalize Kernel.semInit id value k = result at way ⊢
  cases way with
  | refused _ => exact eager
  | opened closed after empty same =>
    unfold Eager
    rw [Opened.waiting after empty]
    intro j
    dsimp only
    rw [Function.update_apply, Function.update_apply]
    split
    · exact fun _ => rfl
    · exact eager j

theorem Eager.semWait (eager : Eager k) (reusable : NodesReusable M) (settled : Settled k)
    (ready : k.processes.currentProcess ∈ k.items readyQueue) : Eager (semWait id rsp k).2 := by
  obtain ⟨waited, _⟩ := semWait_waited id rsp reusable settled ready
  have waits : Eager k → ∀ j, 0 < (k.sems.wait id k.getCurrentPid).value j →
      (k.sems.wait id k.getCurrentPid).waiting j = [] := by
    intro eager j token
    by_cases same : j = id
    · subst same
      rcases Nat.eq_zero_or_pos (k.sems.value j) with none | some
      · rw [Semaphores.wait_queued none] at token
        exact absurd none (Nat.pos_iff_ne_zero.mp token)
      · rw [Semaphores.wait_taken some]
        exact eager j some
    · obtain ⟨value, waiting⟩ := Semaphores.wait_other (s := k.sems) (p := k.getCurrentPid) same
      rw [value] at token
      rw [waiting]
      exact eager j token
  unfold Eager
  cases waited with
  | taken _ _ sems _ =>
    rw [sems]
    exact waits eager
  | failed _ _ _ sems _ =>
    rw [sems]
    exact eager
  | queued _ _ _ sems _ =>
    rw [sems]
    exact waits eager
  | forgotten _ _ _ sems _ =>
    rw [sems]
    exact eager

theorem Eager.semPost (eager : Eager k) (reusable : NodesReusable M) (settled : Settled k) :
    Eager (semPost id k).2 := by
  obtain ⟨posted, _⟩ := semPost_posted id reusable settled
  have handed : ∀ {pid rest}, k.sems.waiting id = pid :: rest →
      ∀ j, 0 < (k.sems.post id).value j → (k.sems.post id).waiting j = [] := by
    intro pid rest front j token
    rw [Semaphores.post_handed front] at token
    have empty := eager j token
    have apart : j ≠ id := by
      intro same
      rw [same, front] at empty
      cases empty
    rw [(Semaphores.post_other (s := k.sems) apart).2]
    exact empty
  unfold Eager
  cases posted with
  | counted empty sems _ =>
    rw [sems]
    intro j token
    by_cases same : j = id
    · rw [same]
      exact empty
    · dsimp only at token
      rw [Function.update_of_ne same] at token
      exact eager j token
  | handed front sems _ _ _ =>
    rw [sems]
    exact handed front
  | lost front sems _ _ =>
    rw [sems]
    exact handed front

/-- A wait on an open semaphore, with memory to queue up, is the wait of the library. -/
theorem Serviced.wait (serviced : Serviced own k) (rsp : Nat) (reusable : NodesReusable M)
    (ready : k.processes.currentProcess ∈ k.items readyQueue)
    (opened : (k.semaphores id).blocked ≠ none)
    (fed : (k.semaphores id).value = 0 → k.HasRoom) :
    (semWait id rsp k).2.sems = k.sems.wait id k.getCurrentPid ∧
      Serviced own (semWait id rsp k).2 := by
  have settled := serviced.settled
  have table := settled.table
  have awake := serviced.lists.awake table ready (by decide)
  rw [← table.getCurrentPid] at awake
  obtain ⟨waited, use⟩ := semWait_waited id rsp reusable settled ready
  have sems : (semWait id rsp k).2.sems = k.sems.wait id k.getCurrentPid := by
    cases waited with
    | taken _ _ sems _ => exact sems
    | failed _ none missing _ _ => exact absurd (fed none) missing
    | queued _ _ _ sems _ => exact sems
    | forgotten _ none missing _ _ =>
      rcases missing with unlisted | missing
      · exact absurd unlisted opened
      · exact absurd (fed none) missing
  exact ⟨sems, settled.semWait reusable, serviced.lists.semWait reusable settled ready,
    serviced.eager.semWait reusable settled ready, use.opened serviced.opened⟩

/-- A post with room for the value is the post of the library. -/
theorem Serviced.post (serviced : Serviced own k) (reusable : NodesReusable M)
    (room : (k.semaphores id).value + 1 < 2 ^ 32) :
    (semPost id k).2.sems = k.sems.post id ∧ Serviced own (semPost id k).2 := by
  have settled := serviced.settled
  obtain ⟨posted, use⟩ := semPost_posted id reusable settled
  have sems : (semPost id k).2.sems = k.sems.post id := by
    cases posted with
    | counted empty sems _ =>
      have grown : (k.sems.value id + 1) % 2 ^ 32 = k.sems.value id + 1 := Nat.mod_eq_of_lt room
      rw [sems, Semaphores.post_counted empty, grown]
    | handed _ sems _ _ _ => exact sems
    | lost _ sems _ _ => exact sems
  exact ⟨sems, settled.semPost reusable, serviced.lists.semPost reusable settled,
    serviced.eager.semPost reusable settled, use.opened serviced.opened⟩

theorem semWait_keepsPids (rsp : Nat) (reusable : NodesReusable M) (settled : Settled k)
    (ready : k.processes.currentProcess ∈ k.items readyQueue) : KeepsPids k (semWait id rsp k).2 := by
  obtain ⟨waited, _⟩ := semWait_waited id rsp reusable settled ready
  cases waited with
  | taken _ _ _ same => exact same.keepsPids
  | failed _ _ _ _ same => exact same.keepsPids
  | queued _ _ _ _ relocates => exact relocates.keepsPids
  | forgotten _ _ _ _ relocates => exact relocates.keepsPids

theorem semPost_keepsPids (reusable : NodesReusable M) (settled : Settled k) :
    KeepsPids k (semPost id k).2 := by
  obtain ⟨posted, _⟩ := semPost_posted id reusable settled
  cases posted with
  | counted _ _ same => exact same.keepsPids
  | handed _ _ _ _ relocates => exact relocates.keepsPids
  | lost _ _ _ same => exact same.keepsPids

theorem semInit_keepsPids : KeepsPids k (semInit id value k).2 := by
  have way := semInit_opened id value k
  generalize semInit id value k = result at way ⊢
  cases way with
  | refused _ => exact SameRecords.refl.keepsPids
  | opened _ _ _ same => exact same.keepsPids

/-! ## What others do -/

/-- The semaphores of the program and the pipes are the same. -/
structure Untouched (own : Int → Prop) (k k' : Kernel M) : Prop where
  sems : ∀ id, own id → k'.sems.value id = k.sems.value id ∧ k'.sems.waiting id = k.sems.waiting id
  pipes : k'.pipes = k.pipes

omit [MemoryManager M] in
theorem Untouched.of_eq (semaphores : k'.semaphores = k.semaphores) (pipes : k'.pipes = k.pipes) :
    Untouched own k k' := by
  refine ⟨fun id _ => ?_, pipes⟩
  rw [sems_congr semaphores]
  exact ⟨rfl, rfl⟩

theorem Serviced.semInit_other (serviced : Serviced own k) (other : ¬ own id) :
    Serviced own (semInit id value k).2 ∧ Untouched own k (semInit id value k).2 := by
  have lists : WaitLists (semInit id value k).2 := serviced.lists.semInit
  have settled : Settled (semInit id value k).2 := serviced.settled.semInit
  have eager : Eager (semInit id value k).2 := serviced.eager.semInit
  have pipes : (semInit id value k).2.pipes = k.pipes := congrArg Prod.fst semInit_pipeState
  have apart : ∀ {j}, own j → j ≠ id := by
    intro j mine same
    rw [same] at mine
    exact other mine
  have way := semInit_opened id value k
  generalize semInit id value k = result at way lists settled eager pipes ⊢
  cases way with
  | refused _ => exact ⟨serviced, .of_eq rfl rfl⟩
  | opened closed after empty same =>
    have sems := Opened.waiting after empty
    refine ⟨⟨settled, lists, eager, ?_⟩, ?_, pipes⟩
    · intro j mine
      rw [after, if_neg (apart mine)]
      exact serviced.opened j mine
    · intro j mine
      rw [sems]
      exact ⟨Function.update_of_ne (apart mine) _ _, Function.update_of_ne (apart mine) _ _⟩

theorem Serviced.semWait_other (serviced : Serviced own k) (reusable : NodesReusable M)
    (ready : k.processes.currentProcess ∈ k.items readyQueue) (other : ¬ own id) :
    Serviced own (semWait id rsp k).2 ∧ Untouched own k (semWait id rsp k).2 := by
  have settled := serviced.settled
  have table := settled.table
  have awake := serviced.lists.awake table ready (by decide)
  rw [← table.getCurrentPid] at awake
  obtain ⟨waited, use⟩ := semWait_waited id rsp reusable settled ready
  have sems : (semWait id rsp k).2.sems = k.sems.wait id k.getCurrentPid ∨
      (semWait id rsp k).2.sems = k.sems := by
    cases waited with
    | taken _ _ sems _ => exact .inl sems
    | failed _ _ _ sems _ => exact .inr sems
    | queued _ _ _ sems _ => exact .inl sems
    | forgotten _ _ _ sems _ => exact .inr sems
  refine ⟨⟨settled.semWait reusable, serviced.lists.semWait reusable settled ready,
    serviced.eager.semWait reusable settled ready, use.opened serviced.opened⟩, ?_,
    congrArg Prod.fst semWait_pipeState⟩
  intro j mine
  have apart : j ≠ id := by
    intro same
    rw [same] at mine
    exact other mine
  rcases sems with waits | same
  · rw [waits]
    exact Semaphores.wait_other apart
  · rw [same]
    exact ⟨rfl, rfl⟩

theorem Serviced.semPost_other (serviced : Serviced own k) (reusable : NodesReusable M)
    (other : ¬ own id) :
    Serviced own (semPost id k).2 ∧ Untouched own k (semPost id k).2 := by
  have settled := serviced.settled
  obtain ⟨posted, use⟩ := semPost_posted id reusable settled
  have apart : ∀ {j}, own j → j ≠ id := by
    intro j mine same
    rw [same] at mine
    exact other mine
  have sems : ((semPost id k).2.sems = { k.sems with
        value := Function.update k.sems.value id ((k.sems.value id + 1) % 2 ^ 32) }) ∨
      (semPost id k).2.sems = k.sems.post id := by
    cases posted with
    | counted _ sems _ => exact .inl sems
    | handed _ sems _ _ _ => exact .inr sems
    | lost _ sems _ _ => exact .inr sems
  refine ⟨⟨settled.semPost reusable, serviced.lists.semPost reusable settled,
    serviced.eager.semPost reusable settled, use.opened serviced.opened⟩, ?_,
    congrArg Prod.fst semPost_pipeState⟩
  intro j mine
  rcases sems with counted | posts
  · rw [counted]
    exact ⟨Function.update_of_ne (apart mine) _ _, rfl⟩
  · rw [posts]
    exact Semaphores.post_other (apart mine)

/-! ## What the running process does -/

omit [MemoryManager M] in
/-- The running process waits for nothing. -/
theorem Serviced.awake (serviced : Serviced own k) : ¬ k.sems.Sleeps k.getCurrentPid := by
  have table := serviced.settled.table
  rw [table.getCurrentPid]
  rintro ⟨id, waits⟩
  obtain ⟨a, asleep, same⟩ := serviced.lists.asleep waits
  exact serviced.settled.current_ne asleep (by decide)
    (table.pidUnique table.current (table.queued asleep) same.symm)

/-- A wait for a token that is there. -/
theorem Serviced.wait_token (serviced : Serviced own k) (rsp : Nat)
    (token : 0 < (k.semaphores id).value) :
    (semWait id rsp k).2.sems = k.sems.wait id k.getCurrentPid ∧
      Serviced own (semWait id rsp k).2 := by
  have way := wait_cases id rsp k
  change (Kernel.wait id rsp k).2.sems = _ ∧ Serviced own (Kernel.wait id rsp k).2
  generalize Kernel.wait id rsp k = result at way ⊢
  cases way with
  | failed empty _ => exact absurd empty (Nat.ne_of_gt token)
  | unlisted empty _ => exact absurd empty (Nat.ne_of_gt token)
  | asleep empty _ => exact absurd empty (Nat.ne_of_gt token)
  | taken _ =>
    generalize taken : k.withSem k.memory id { k.semaphores id with
      value := (k.semaphores id).value - 1, lock := false } = after
    have sems : after.sems = k.sems.wait id k.getCurrentPid := by
      rw [← taken, withSem_sems, Semaphores.wait_taken token]
      exact congrArg _ (Function.update_eq_self id k.sems.waiting)
    have same : SameRecords k after := by
      rw [← taken]
      exact sameRecords_withSem
    have use : SameUse k after := by
      rw [← taken]
      exact .withSem rfl .rfl
    have settled : Settled after := by
      rw [← taken]
      exact serviced.settled.withSem
    refine ⟨sems, settled, serviced.lists.same ?_ same, ?_, use.opened serviced.opened⟩
    · rw [sems, Semaphores.wait_taken token]
    · intro j some
      have waits := serviced.orderly.wait (i := id) serviced.awake
      rw [sems] at some ⊢
      exact waits.eager j some

/-- The process finds what its wait needs. -/
def CanDo (deed : Deed) (k : Kernel M) : Prop :=
  ∀ id, deed = .wait id → 0 < (k.semaphores id).value ∨
    k.processes.currentProcess ∈ k.items readyQueue ∧ k.HasRoom

/-- What the running process does is a command of the library. -/
theorem Serviced.does (serviced : Serviced own k) (rsp : Nat) (reusable : NodesReusable M)
    (mine : deed.On own) (able : CanDo deed k)
    (room : ∀ id, own id → k.sems.value id + 1 < 2 ^ 32) :
    (deed.run rsp k).sems = deed.command.run k.getCurrentPid k.sems ∧
      (deed.run rsp k).pipes = deed.pipes k.pipes ∧ Serviced own (deed.run rsp k) := by
  cases deed with
  | wait id =>
    refine ⟨?_, congrArg Prod.fst semWait_pipeState, ?_⟩
    all_goals rcases able id rfl with token | ⟨ready, hasRoom⟩
    · exact (serviced.wait_token rsp token).1
    · exact (serviced.wait rsp reusable ready (serviced.opened id mine).2 fun _ => hasRoom).1
    · exact (serviced.wait_token rsp token).2
    · exact (serviced.wait rsp reusable ready (serviced.opened id mine).2 fun _ => hasRoom).2
  | post id =>
    obtain ⟨sems, kept⟩ := serviced.post reusable (room id mine)
    exact ⟨sems, congrArg Prod.fst semPost_pipeState, kept⟩
  | yield =>
    have semaphores : (Kernel.yield rsp k).semaphores = k.semaphores := yield_semaphores reusable
    exact ⟨sems_congr semaphores, congrArg Prod.fst yield_pipeState,
      serviced.same (serviced.settled.table.yield reusable) semaphores
        (yield_sameRecords serviced.settled.table reusable)⟩
  | pipe slot change => exact ⟨rfl, rfl, serviced.editPipe change⟩
  | nothing => exact ⟨rfl, rfl, serviced⟩

end Kernel

/-! ## What events do -/

theorem System.Step.eager [MemoryManager M] {s t : System M} {label : Label}
    (step : System.Step s label t) (reusable : NodesReusable M) (settled : Settled s.kernel)
    (eager : Eager s.kernel) : Eager t.kernel := by
  have same : t.kernel.semaphores = s.kernel.semaphores → Eager t.kernel := by
    intro semaphores
    unfold Eager
    rw [sems_congr semaphores]
    exact eager
  cases step with
  | timerTick => exact same (callTimerTick_semaphores reusable)
  | ctrlC => exact same (kill_semaphores reusable settled)
  | resume _ _ => exact same (waitpidResume_semaphores settled)
  | @call rsp call runs _ admits =>
    have quiet : call.semaphore = none → Eager (s.perform call rsp).kernel :=
      fun other => same (perform_semaphores settled reusable runs admits other)
    cases call with
    | semInit id value => exact eager.semInit
    | semWait id => exact eager.semWait reusable settled (runs.ready settled)
    | semPost id => exact eager.semPost reusable settled
    | _ => exact quiet rfl

/-- Events that name no waiter and leave the semaphores of a program alone. -/
theorem System.Step.serviced [MemoryManager M] {own : Int → Prop} {s t : System M} {label : Label}
    (step : System.Step s label t) (reusable : NodesReusable M) (serviced : Serviced own s.kernel)
    (avoids : Clients.Avoids own label.event) (spares : SparesWaiters label.event s.kernel) :
    Serviced own t.kernel ∧ Untouched own s.kernel t.kernel := by
  have settled := serviced.settled
  have pipes : t.kernel.pipes = s.kernel.pipes :=
    congrArg Prod.fst (System.Step.pipeState step settled)
  have quiet : t.kernel.semaphores = s.kernel.semaphores →
      Serviced own t.kernel ∧ Untouched own s.kernel t.kernel := fun same =>
    ⟨⟨System.Step.settled step reusable settled, step.lists reusable settled serviced.lists spares,
      step.eager reusable settled serviced.eager,
      (SameUse.of_eq same).opened serviced.opened⟩, .of_eq same pipes⟩
  cases step with
  | timerTick => exact quiet (callTimerTick_semaphores reusable)
  | ctrlC => exact quiet (kill_semaphores reusable settled)
  | resume _ _ => exact quiet (waitpidResume_semaphores settled)
  | @call rsp call runs _ admits =>
    cases call with
    | semInit id value => exact serviced.semInit_other avoids
    | semWait id => exact serviced.semWait_other reusable (runs.ready settled) avoids
    | semPost id => exact serviced.semPost_other reusable avoids
    | _ => exact quiet (perform_semaphores settled reusable runs admits rfl)

namespace Kernel

theorem SparesWaiters.of_inScope {label : Label} {k : Kernel M}
    (scope : Audited.inScope label.event = true) : SparesWaiters label.event k := by
  obtain ⟨event, rsp⟩ := label
  cases event with
  | timerTick => trivial
  | ctrlC => cases scope
  | resume => trivial
  | call call =>
    cases call with
    | kill _ _ => cases scope
    | blockProcess _ => cases scope
    | unblockProcessBySem _ => cases scope
    | _ => trivial

end Kernel

namespace Clients

variable [MemoryManager M] {program : Program Χ Λ σ} {own : Int → Prop} {s t : Clients M Λ σ}
variable {act : Act Χ} {acts : List (Act Χ)} {label : Label} {after : System M}

theorem event_keepsPids (scope : Audited.inScope label.event = true)
    (step : System.Step s.system label after) (reusable : NodesReusable M)
    (settled : Settled s.system.kernel) : KeepsPids s.system.kernel after.kernel := by
  have table := settled.table
  cases step with
  | timerTick => exact (callTimerTick_sameRecords table reusable).keepsPids
  | ctrlC => cases scope
  | resume _ _ => cases scope
  | @call rsp call runs _ admits =>
    cases call with
    | yield => exact (yield_sameRecords table reusable).keepsPids
    | createProcess params =>
      exact (createProcess_creates params settled admits runs.2).keepsPids
    | changePrio _ _ => exact changePrio_sameRecords.keepsPids
    | blockProcess _ => cases scope
    | unblockProcess _ => cases scope
    | blockProcessBySem => cases scope
    | unblockProcessBySem _ => cases scope
    | kill _ _ => cases scope
    | waitpid _ => cases scope
    | semInit _ _ => exact semInit_keepsPids
    | semWait _ => exact semWait_keepsPids rsp reusable settled (runs.ready settled)
    | semPost _ => exact semPost_keepsPids reusable settled

/-- Every process that is in the program is in the table. -/
def Known (out : Λ) (s : Clients M Λ σ) : Prop :=
  ∀ p, s.loc p ≠ out → ∃ a ∈ s.system.kernel.pcbs, (s.system.kernel.pcb a).pid = p

theorem Step.known (step : Step program own s act t) (reusable : NodesReusable M)
    (settled : Settled s.system.kernel) {out : Λ} (known : Known out s) : Known out t := by
  have carry : ∀ {k : Kernel M}, KeepsPids s.system.kernel k → ∀ p,
      (∃ a ∈ s.system.kernel.pcbs, (s.system.kernel.pcb a).pid = p) →
      ∃ a ∈ k.pcbs, (k.pcb a).pid = p := by
    rintro k kept p ⟨a, member, named⟩
    obtain ⟨still, same⟩ := kept a member
    exact ⟨a, still, same.trans named⟩
  cases step with
  | event scope _ step =>
    exact fun p inside => carry (event_keepsPids scope step reusable settled) p (known p inside)
  | @turn choice rsp deed l d runs _ _ =>
    have kept : KeepsPids s.system.kernel (deed.run rsp s.system.kernel) := by
      cases deed with
      | wait id => exact semWait_keepsPids rsp reusable settled (runs.ready settled)
      | post id => exact semPost_keepsPids reusable settled
      | yield => exact (yield_sameRecords settled.table reusable).keepsPids
      | pipe _ _ => exact fun a member => ⟨member, rfl⟩
      | nothing => exact fun a member => ⟨member, rfl⟩
    intro p inside
    apply carry kept
    by_cases same : p = s.system.kernel.getCurrentPid
    · rw [same]
      exact ⟨_, settled.table.current, settled.table.getCurrentPid.symm⟩
    · apply known
      rw [← Function.update_of_ne same l s.loc]
      exact inside

theorem Step.settled (step : Step program own s act t) (reusable : NodesReusable M)
    (settled : Settled s.system.kernel) : Settled t.system.kernel := by
  cases step with
  | event _ _ step => exact System.Step.settled step reusable settled
  | @turn _ rsp deed _ _ _ _ _ =>
    cases deed with
    | wait _ => exact settled.semWait reusable
    | post _ => exact settled.semPost reusable
    | yield => exact settled.table.yield reusable
    | pipe _ _ =>
      exact ⟨settled.table.congr rfl rfl rfl rfl rfl rfl rfl, settled.scheduled,
        settled.dispatched⟩
    | nothing => exact settled

/-- Nobody in the program is ever lost from the table. -/
theorem run_known {out : Λ} (run : Run (Step program own) s acts t) (reusable : NodesReusable M)
    (settled : Settled s.system.kernel) (known : Known out s) :
    Settled t.system.kernel ∧ Known out t := by
  apply run.preserves (fun s => Settled s.system.kernel ∧ Known out s) _ ⟨settled, known⟩
  intro s act t before step
  exact ⟨step.settled reusable before.1, step.known reusable before.1 before.2⟩

omit [MemoryManager M] in
theorem view_turn {k : Kernel M} {p : Int} {c : Command Int} {l : Λ} {d : σ}
    (sems : k.sems = c.run p s.system.kernel.sems) :
    view ⟨{ s.system with kernel := k }, Function.update s.loc p l, d⟩ =
      s.view.turn p c l (k.pipes, d) := by
  unfold view Parties.turn
  dsimp only
  rw [sems]

theorem Fed.canDo {choice : Χ} {rsp : Nat} {deed : Deed} {l : Λ} {d : σ}
    (fed : Fed program (.turn choice rsp) s) (runs : UserRuns s.system.kernel)
    (settled : Settled s.system.kernel)
    (does : program choice (s.loc s.system.kernel.getCurrentPid) s.system.kernel.pipes s.shared =
      some (deed, l, d)) : CanDo deed s.system.kernel := by
  rintro id rfl
  rcases Nat.eq_zero_or_pos (s.system.kernel.semaphores id).value with empty | token
  · unfold Fed at fed
    dsimp only at fed
    rw [does] at fed
    exact .inr ⟨runs.ready settled, fed empty⟩
  · exact .inl token

/-- A fed step of the running process is a step of the library. -/
theorem Step.follows (step : Step program own s act t) (reusable : NodesReusable M)
    (within : ∀ {choice p deed l d}, program choice (s.loc p) s.system.kernel.pipes s.shared =
      some (deed, l, d) → deed.On own)
    (serviced : Serviced own s.system.kernel) (fed : Fed program act s)
    (room : ∀ id, own id → s.system.kernel.sems.value id + 1 < 2 ^ 32) :
    Serviced own t.system.kernel ∧ Parties.Step program.Does own s.view t.view := by
  cases step with
  | event scope avoids step =>
    obtain ⟨kept, untouched⟩ := step.serviced reusable serviced avoids (.of_inScope scope)
    refine ⟨kept, ?_⟩
    unfold view
    dsimp only
    rw [untouched.pipes]
    exact .others kept.orderly untouched.sems
  | @turn choice rsp deed l d runs _ does =>
    obtain ⟨sems, pipes, kept⟩ := serviced.does rsp reusable (within does)
      (fed.canDo runs serviced.settled does) room
    refine ⟨kept, ?_⟩
    rw [view_turn sems, pipes]
    exact .turn serviced.awake ⟨choice, deed, does, rfl, rfl⟩

/-- The kernel after boot and any events, when every process on a wait list sleeps. -/
structure Reached (s : System M) : Prop where
  run : ∃ k labels, Booted k ∧ Run System.Step (started k) labels s
  lists : WaitLists s.kernel

theorem Reached.serviced {s : System M} (reached : Reached s) (reusable : NodesReusable M)
    (opened : ∀ id, own id → (s.kernel.semaphores id).used = true ∧
      (s.kernel.semaphores id).blocked ≠ none) : Serviced own s.kernel := by
  obtain ⟨k, labels, booted, run⟩ := reached.run
  obtain ⟨shell, start⟩ := booted.start
  have nobody : Eager (started k).kernel := fun id _ => (start.quiet id).1
  obtain ⟨settled, eager⟩ : Settled s.kernel ∧ Eager s.kernel := by
    apply run.preserves (fun s => Settled s.kernel ∧ Eager s.kernel) _ ⟨start.settled, nobody⟩
    intro s label t before step
    exact ⟨System.Step.settled step reusable before.1,
      step.eager reusable before.1 before.2⟩
  exact ⟨settled, reached.lists, eager, opened⟩

/-- So it is after events that never name a waiter. -/
theorem reached_of_sparing {k : Kernel M} {s : System M} {labels : List Label}
    (reusable : NodesReusable M) (booted : Booted k) (run : Run System.Step (started k) labels s)
    (spares : ∀ label ∈ labels, ∀ k : Kernel M, SparesWaiters label.event k) : Reached s where
  run := ⟨k, labels, booted, run⟩
  lists := by
    obtain ⟨shell, start⟩ := booted.start
    have kept : Settled s.kernel ∧ WaitLists s.kernel := by
      apply (run.with_labels spares).preserves (fun s => Settled s.kernel ∧ WaitLists s.kernel) _
        ⟨start.settled, started_lists start⟩
      intro s label t before step
      exact ⟨System.Step.settled step.1 reusable before.1,
        step.1.lists reusable before.1 before.2 (step.2 _)⟩
    exact kept.2

/-- It is enough to find a token. -/
theorem fed_of_token {choice : Χ} {rsp : Nat}
    (token : ∀ {id l d}, program choice (s.loc s.system.kernel.getCurrentPid)
      s.system.kernel.pipes s.shared = some (.wait id, l, d) →
      0 < (s.system.kernel.semaphores id).value) : Fed program (.turn choice rsp) s := by
  unfold Fed
  dsimp only
  split
  · rename_i found
    exact fun none => absurd none (Nat.ne_of_gt (token found))
  · trivial

theorem fed_of_succeeds (succeeds : AllocSucceeds M) : Fed program act s := by
  unfold Fed
  split
  · trivial
  · split
    · exact fun _ => hasRoom succeeds
    · trivial

/-- What the steps of the library preserve holds along every fed run of the kernel. -/
theorem run_preserves (Inv : Parties Int Int Λ ((Nat → Pipe) × σ) → Prop)
    (run : Run (fun s act t => Step program own s act t ∧ Fed program act s) s acts t)
    (reusable : NodesReusable M)
    (within : ∀ {s}, Inv s → ∀ {choice p deed l d},
      program choice (s.loc p) s.shared.1 s.shared.2 = some (deed, l, d) → deed.On own)
    (room : ∀ {s}, Inv s → ∀ id, own id → s.sems.value id + 1 < 2 ^ 32)
    (kept : ∀ {s t}, Inv s → s.sems.Orderly → Parties.Step program.Does own s t → Inv t)
    (serviced : Serviced own s.system.kernel) (start : Inv s.view) :
    Serviced own t.system.kernel ∧ Inv t.view := by
  apply run.preserves (fun s => Serviced own s.system.kernel ∧ Inv s.view) _ ⟨serviced, start⟩
  intro s act t before step
  obtain ⟨next, follows⟩ := step.1.follows reusable (within before.2) before.1 step.2 (room before.2)
  exact ⟨next, kept before.2 before.1.orderly follows⟩

end Clients
end SoKernel
