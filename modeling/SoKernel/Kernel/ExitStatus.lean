import SoKernel.Kernel.Family
import SoKernel.Kernel.Usage

namespace SoKernel
open MemoryManager QueueName Lib Kernel SoKernel.System

variable {M : Type}

namespace System

/-- The event kills the parent, or unblocks it while it sleeps. -/
def Disturbs (parent : Addr) (label : Label) (s : System M) : Prop :=
  let pid := (s.kernel.pcb parent).pid
  match label.event with
  | .ctrlC => s.kernel.getForegroundPid = pid ∧ 1 < pid
  | .call (.kill killed _) => killed = pid ∧ 1 < pid
  | .call (.unblockProcess unblocked) => unblocked = pid ∧ parent ∈ s.kernel.items blockedQueue
  | _ => False

/-- The event is the end of the parent's `waitpid`. -/
def Ends (parent : Addr) (label : Label) (s : System M) : Prop :=
  match label.event with
  | .resume => s.kernel.processes.currentProcess = parent
  | _ => False

/-- The call returns in `s`, with the pid of its child, which is dead, and the low half
of the value given to `kill` for it; it leaves the child on no queue. -/
structure Delivered (child : Addr) (s : System M) (result : Int) (retValue : Option (BitVec 32))
    (after : Kernel M) : Prop where
  dead : (s.kernel.pcb child).state = .zombie
  pid : result = (s.kernel.pcb child).pid
  status : ∃ value, s.exits (s.kernel.pcb child).pid = some value ∧
    retValue = some (BitVec.ofNat 32 value)
  gone : ∀ name, child ∉ after.items name

/-- What holds of every process and its parent in every reachable state. -/
structure Family (s : System M) : Prop where
  settled : Settled s.kernel
  ledger : Ledger s.pending s.exits s.kernel

/-- `parent` is inside `waitpid` for `child`. -/
structure Sleeping (parent child : Addr) (pid : Int) (s : System M) : Prop where
  family : Family s
  awaits : Awaits parent child pid s.kernel
  pending : s.pending parent = some pid

variable {s t : System M} {label : Label} {labels : List Label} {parent child a : Addr}
variable {pid : Int} {retValue rsp : Nat} {call : Call}

theorem Sleeping.apart (sleeping : Sleeping parent child pid s) : parent ≠ child := by
  obtain ⟨_, member⟩ := sleeping.awaits.members sleeping.family.settled.table
  have older := sleeping.family.ledger.older child member
  intro same
  subst same
  rw [sleeping.awaits.parentPid] at older
  exact lt_irrefl _ older

/-- The current process has a child, as yet unreaped. -/
structure Parent (child : Addr) (s : System M) : Prop where
  member : child ∈ s.kernel.pcbs
  kin : (s.kernel.pcb child).parentPid = (s.kernel.pcb s.kernel.processes.currentProcess).pid

theorem Parent.other (kin : Parent child s) (family : Family s) :
    s.kernel.processes.currentProcess ≠ child := by
  have older := family.ledger.older child kin.member
  rw [kin.kin] at older
  intro same
  rw [same] at older
  exact lt_irrefl _ older

/-- `getProcess` finds the child on a queue or not at all. -/
theorem Parent.queued (kin : Parent child s) (family : Family s)
    (listed : s.kernel.Listed child) : ∃ name, child ∈ s.kernel.items name := by
  have table := family.settled.table
  rcases listed with same | same | queued
  · exact absurd same.symm (kin.other family)
  · have older := family.ledger.older child kin.member
    have bound := (table.pidBound table.current).1
    have idle := table.idle.2
    rw [← same] at idle
    rw [kin.kin, idle] at older
    omega
  · exact queued

theorem Family.delivered {parent : Addr} {after : Kernel M} (family : Family s)
    (reaped : Reaped child (s.kernel.setWaiting parent (-1)) after) :
    Delivered child s (s.kernel.pcb child).pid
      (some (BitVec.ofNat 32 (s.kernel.pcb child).retValue)) after where
  dead := family.settled.table.fits reaped.member
  pid := rfl
  status := ⟨_, family.ledger.exited child reaped.member, rfl⟩
  gone name member := by
    have exclusive := (family.settled.setWaiting parent (-1)).table.exclusive
    exact ((reaped.mem_items exclusive).mp member).2 rfl

/-- The pids asked for once `waitpid` left the processor. -/
def askedAfter (outcome : WaitpidOutcome) (pid : Int) (s : System M) : Addr → Option Int :=
  match outcome with
  | .returned _ _ => s.pending
  | .asleep => Function.update s.pending s.kernel.processes.currentProcess (some pid)

theorem askedAfter_of_ne {outcome : WaitpidOutcome} (other : a ≠ s.kernel.processes.currentProcess) :
    askedAfter outcome pid s a = s.pending a := by
  cases outcome with
  | returned _ _ => rfl
  | asleep => exact Function.update_of_ne other _ _

variable [MemoryManager M]

/-- A step that leaves the sleeping parent alone. -/
def Waits (parent : Addr) (s : System M) (label : Label) (t : System M) : Prop :=
  Step s label t ∧ ¬ Disturbs parent label s ∧ ¬ Ends parent label s

/-- A careful step that leaves the sleeping parent alone. -/
def Goes (parent : Addr) (u : Usage M) (use : Use) (u' : Usage M) : Prop :=
  Usage.CarefulStep u use u' ∧ ∀ label, use = .service (.event label) →
    ¬ Disturbs parent label u.system ∧ ¬ Ends parent label u.system

/-- The caller has entered `waitpid`. -/
def asks (pid : Int) (rsp : Nat) (u : Usage M) : Usage M :=
  { u with system := u.system.perform (.waitpid pid) rsp }

/-- Whenever the sleeping caller of `waitpid` runs again, its call delivers. -/
def DeliversLater (child : Addr) (rsp : Nat) (u : Usage M) : Prop :=
  ∀ uses u', Run (Goes u.kernel.processes.currentProcess)
      (asks (u.kernel.pcb child).pid rsp u) uses u' →
    UserRuns u'.kernel → u'.kernel.processes.currentProcess = u.kernel.processes.currentProcess →
    (u'.kernel.pcb child).pid = (u.kernel.pcb child).pid ∧
      ∃ pid, u'.system.pending u.kernel.processes.currentProcess = some pid ∧
        Delivered child u'.system
          (waitpidResume pid u.kernel.processes.currentProcess u'.kernel).1
          (waitpidResume pid u.kernel.processes.currentProcess u'.kernel).2.1
          (waitpidResume pid u.kernel.processes.currentProcess u'.kernel).2.2

/-- `waitpid` for the child delivers, at once or when its caller runs again. -/
def Delivers (child : Addr) (rsp : Nat) (u : Usage M) : Prop :=
  match Kernel.waitpid (u.kernel.pcb child).pid rsp u.kernel with
  | (.returned result retValue, after) => Delivered child u.system result retValue after
  | (.asleep, _) => DeliversLater child rsp u

theorem Family.endProcess (family : Family s) (reusable : NodesReusable M) :
    Family (s.endProcess pid retValue rsp) where
  settled := family.settled.kill reusable
  ledger := family.ledger.kill family.settled reusable

theorem perform_waitpid_eq : s.perform (.waitpid pid) rsp =
    ⟨(Kernel.waitpid pid rsp s.kernel).2, askedAfter (Kernel.waitpid pid rsp s.kernel).1 pid s,
      s.exits⟩ := by
  unfold perform
  dsimp only
  split
  · rename_i same
    rw [same]
    rfl
  · rename_i same
    rw [same]
    rfl

theorem Family.waitpid (family : Family s) (reusable : NodesReusable M)
    (runs : UserRuns s.kernel) : Family (s.perform (.waitpid pid) rsp) := by
  have settled := family.settled
  have way := waitpid_cases pid rsp reusable settled (runs.ready settled)
  rw [perform_waitpid_eq]
  generalize Kernel.waitpid pid rsp s.kernel = result at way ⊢
  obtain ⟨outcome, after⟩ := result
  cases way with
  | absent _ => exact family
  | stranger _ _ => exact family
  | refused _ _ => exact family
  | reaped _ _ _ reaped =>
    have before := settled.setWaiting s.kernel.processes.currentProcess (-1)
    exact ⟨before.reap reaped,
      (family.ledger.setWaiting settled.table.mayReap_nobody).reaped before.table.exclusive reaped⟩
  | asleep found child _ moved same =>
    rw [same]
    have before := (settled.setWaiting s.kernel.processes.currentProcess pid).table
    have mayReap := family.ledger.mayReap settled.table found child
    have ledger : Ledger (Function.update s.pending s.kernel.processes.currentProcess (some pid))
        s.exits s.kernel := by
      apply family.ledger.setPending
      intro other same
      cases same
      exact mayReap
    have table := moved.table before rfl (by decide) fun zombie => absurd zombie (by decide)
    exact ⟨table.yield reusable,
      ((ledger.setWaiting mayReap).moved before.exclusive moved (by decide)).same
        (yield_sameRecords table reusable)⟩

theorem Family.resume (family : Family s) :
    Family { s with
      kernel := (waitpidResume pid s.kernel.processes.currentProcess s.kernel).2.2
      pending := Function.update s.pending s.kernel.processes.currentProcess none } := by
  have settled := family.settled
  refine ⟨settled.waitpidResume, ?_⟩
  have ledger : Ledger (Function.update s.pending s.kernel.processes.currentProcess none)
      s.exits s.kernel := by
    apply family.ledger.setPending
    intro other never
    cases never
  rcases waitpidResume_cases pid s.kernel.processes.currentProcess settled with
    ⟨_, same⟩ | ⟨k', _, reaped, same⟩
  · rw [same]
    exact ledger
  · rw [same]
    exact (ledger.setWaiting settled.table.mayReap_nobody).reaped
      (settled.setWaiting _ (-1)).table.exclusive reaped

theorem perform_pending (shifts : call.shifts) : (s.perform call rsp).pending = s.pending := by
  cases call with
  | createProcess _ => cases shifts
  | kill _ _ => cases shifts
  | waitpid _ => cases shifts
  | _ => rfl

theorem perform_exits (shifts : call.shifts) : (s.perform call rsp).exits = s.exits := by
  cases call with
  | createProcess _ => cases shifts
  | kill _ _ => cases shifts
  | waitpid _ => cases shifts
  | _ => rfl

theorem Family.perform (family : Family s) (reusable : NodesReusable M) (runs : UserRuns s.kernel)
    (admits : Admits call s.kernel) : Family (s.perform call rsp) := by
  cases shifts : call.shifts with
  | true =>
    refine ⟨Settled.perform family.settled reusable runs admits, ?_⟩
    rw [perform_pending shifts, perform_exits shifts]
    exact family.ledger.shift (perform_shift family.settled reusable shifts)
  | false =>
    cases call with
    | createProcess params =>
      have creates := createProcess_creates params family.settled admits runs.2
      exact ⟨family.settled.creates runs.2 creates, family.ledger.creates family.settled creates⟩
    | kill pid retValue => exact family.endProcess reusable
    | waitpid pid => exact family.waitpid reusable runs
    | _ => cases shifts

theorem Step.family (step : Step s label t) (reusable : NodesReusable M) (family : Family s) :
    Family t := by
  cases step with
  | timerTick =>
    exact ⟨family.settled.tick reusable,
      family.ledger.same (callTimerTick_sameRecords family.settled.table reusable)⟩
  | ctrlC => exact family.endProcess reusable
  | call runs _ admits => exact family.perform reusable runs admits
  | resume _ _ => exact family.resume

/-! ## While the parent sleeps -/

theorem Sleeping.endProcess {killed : Int} (sleeping : Sleeping parent child pid s)
    (reusable : NodesReusable M)
    (spared : ¬ (killed = (s.kernel.pcb parent).pid ∧ 1 < (s.kernel.pcb parent).pid)) :
    Sleeping parent child pid (s.endProcess killed retValue rsp) where
  family := sleeping.family.endProcess reusable
  awaits := by
    apply sleeping.awaits.kill sleeping.family.settled reusable sleeping.apart
    intro both
    apply spared
    rw [← both.1]
    exact ⟨rfl, both.2⟩
  pending := sleeping.pending

theorem Sleeping.waitpid {other : Int} (sleeping : Sleeping parent child pid s)
    (reusable : NodesReusable M) (runs : UserRuns s.kernel)
    (another : s.kernel.processes.currentProcess ≠ parent) :
    Sleeping parent child pid (s.perform (.waitpid other) rsp) := by
  have family := sleeping.family
  have settled := family.settled
  have table := settled.table
  refine ⟨family.waitpid reusable runs, ?_, ?_⟩
  · rw [perform_waitpid_eq]
    have way := waitpid_cases other rsp reusable settled (runs.ready settled)
    generalize Kernel.waitpid other rsp s.kernel = result at way ⊢
    obtain ⟨outcome, after⟩ := result
    cases way with
    | absent _ => exact sleeping.awaits
    | stranger _ _ => exact sleeping.awaits
    | refused _ _ => exact sleeping.awaits
    | reaped kin _ named reaped =>
      have before := (settled.setWaiting s.kernel.processes.currentProcess (-1)).table
      have found : s.kernel.getProcess other ≠ 0 := before.ne_zero (before.queued reaped.member)
      have mayReap := family.ledger.mayReap table found kin
      apply (sleeping.awaits.setWaiting another.symm).reaped before.exclusive reaped
      intro same
      apply sleeping.awaits.spared table table.current mayReap another
      rw [← named, same, sleeping.awaits.named]
    | asleep _ _ _ moved same =>
      rw [same]
      have before := (settled.setWaiting s.kernel.processes.currentProcess other).table
      have after := moved.table before rfl (by decide) fun zombie => absurd zombie (by decide)
      have noted : Awaits parent child pid
          (s.kernel.setWaiting s.kernel.processes.currentProcess other) :=
        sleeping.awaits.setWaiting another.symm
      have kept := noted.moved before.exclusive moved (by decide) (by decide)
        fun never => absurd never (by decide)
      exact kept.same (yield_sameRecords after reusable)
  · rw [perform_waitpid_eq]
    exact (askedAfter_of_ne another.symm).trans sleeping.pending

theorem Sleeping.resume {other : Int} (sleeping : Sleeping parent child pid s)
    (asked : s.pending s.kernel.processes.currentProcess = some other)
    (another : s.kernel.processes.currentProcess ≠ parent) :
    Sleeping parent child pid { s with
      kernel := (waitpidResume other s.kernel.processes.currentProcess s.kernel).2.2
      pending := Function.update s.pending s.kernel.processes.currentProcess none } := by
  have family := sleeping.family
  have settled := family.settled
  have table := settled.table
  refine ⟨family.resume, ?_, ?_⟩
  · rcases waitpidResume_cases other s.kernel.processes.currentProcess settled with
      ⟨_, same⟩ | ⟨k', dead, reaped, same⟩
    · rw [same]
      exact sleeping.awaits
    · rw [same]
      have before := (settled.setWaiting s.kernel.processes.currentProcess (-1)).table
      have found : s.kernel.getProcess other ≠ 0 := before.ne_zero (before.queued reaped.member)
      obtain ⟨_, named⟩ := found_of_getProcess table found
      have mayReap := family.ledger.asked _ table.current other (.inr asked)
      apply (sleeping.awaits.setWaiting another.symm).reaped before.exclusive reaped
      intro equal
      apply sleeping.awaits.spared table table.current mayReap another
      rw [← named, equal, sleeping.awaits.named]
  · dsimp only
    rw [Function.update_of_ne another.symm]
    exact sleeping.pending

/-- The parent stays asleep, or its child is dead, through every step that leaves it alone. -/
theorem Waits.sleeping (waits : Waits parent s label t) (reusable : NodesReusable M)
    (sleeping : Sleeping parent child pid s) : Sleeping parent child pid t := by
  obtain ⟨step, calm, goesOn⟩ := waits
  have family := sleeping.family
  have settled := family.settled
  cases step with
  | timerTick =>
    exact ⟨Step.family .timerTick reusable family,
      sleeping.awaits.same (callTimerTick_sameRecords settled.table reusable), sleeping.pending⟩
  | ctrlC => exact sleeping.endProcess reusable calm
  | @call rsp call runs free admits =>
    have another : s.kernel.processes.currentProcess ≠ parent := by
      intro same
      rw [same, sleeping.pending] at free
      cases free
    cases shifts : call.shifts with
    | true =>
      refine ⟨family.perform reusable runs admits, ?_, ?_⟩
      · apply sleeping.awaits.shift (perform_shift settled reusable shifts)
        intro unblocked
        cases call with
        | unblockProcess pid =>
          intro asleep
          exact calm ⟨Option.some.inj unblocked, asleep⟩
        | _ => cases unblocked
      · rw [perform_pending shifts]
        exact sleeping.pending
    | false =>
      cases call with
      | createProcess params =>
        have creates := createProcess_creates params settled admits runs.2
        refine ⟨family.perform reusable runs admits,
          sleeping.awaits.creates settled.table creates, ?_⟩
        have present := (sleeping.awaits.members settled.table).1
        have other : parent ≠ (allocMemory pcbSize s.kernel.memory).1 := by
          intro same
          rw [same] at present
          exact admits present
        change Function.update s.pending _ none parent = some pid
        rw [Function.update_of_ne other]
        exact sleeping.pending
      | kill killed retValue =>
        apply sleeping.endProcess reusable
        exact calm
      | waitpid other => exact sleeping.waitpid reusable runs another
      | _ => cases shifts
  | resume runs asked => exact sleeping.resume asked goesOn

omit [MemoryManager M] in
/-- A call that leaves the processes alone leaves their records alone. -/
theorem sameRecords_of_aside (aside : Usage.Aside s t) : SameRecords s.kernel t.kernel := by
  obtain ⟨_, _, _, _, _, same⟩ := aside.table
  rw [same]
  exact ⟨rfl, rfl, .rfl, fun _ => rfl, fun _ => rfl, fun _ => rfl, fun _ => rfl⟩

omit [MemoryManager M] in
theorem Family.aside (family : Family s) (aside : Usage.Aside s t) : Family t := by
  refine ⟨aside.settled family.settled, ?_⟩
  rw [aside.pending, aside.exits]
  exact family.ledger.same (sameRecords_of_aside aside)

omit [MemoryManager M] in
theorem Sleeping.aside (sleeping : Sleeping parent child pid s) (aside : Usage.Aside s t) :
    Sleeping parent child pid t :=
  ⟨sleeping.family.aside aside, sleeping.awaits.same (sameRecords_of_aside aside),
    (congrFun aside.pending parent).trans sleeping.pending⟩

theorem Goes.sleeping {u u' : Usage M} {use : Use} (goes : Goes parent u use u')
    (reusable : NodesReusable M) (sleeping : Sleeping parent child pid u.system) :
    Sleeping parent child pid u'.system := by
  obtain ⟨⟨step, _⟩, calm⟩ := goes
  rcases step.event_or_aside with ⟨label, rfl, event⟩ | aside
  · obtain ⟨calm, goesOn⟩ := calm label rfl
    exact Waits.sleeping ⟨event, calm, goesOn⟩ reusable sleeping
  · exact sleeping.aside aside

/-! ## From the call to its end -/

/-- Once the parent runs again, its call delivers. -/
theorem Sleeping.delivered (sleeping : Sleeping parent child pid s) (runs : UserRuns s.kernel)
    (self : s.kernel.processes.currentProcess = parent) :
    Delivered child s (waitpidResume pid parent s.kernel).1
      (waitpidResume pid parent s.kernel).2.1 (waitpidResume pid parent s.kernel).2.2 := by
  have settled := sleeping.family.settled
  have table := settled.table
  have ready := runs.ready settled
  rw [self] at ready
  have dead : child ∈ s.kernel.items zombieQueue := by
    rcases sleeping.awaits.place with ⟨asleep, _⟩ | ⟨_, dead⟩
    · exact absurd (table.exclusive.unique ready asleep) (by decide)
    · exact dead
  have found : s.kernel.getProcess pid = child :=
    table.getProcess_eq (.inr (.inr ⟨_, dead⟩)) sleeping.awaits.named
  rcases waitpidResume_cases pid parent settled with ⟨lost, _⟩ | ⟨after, _, reaped, same⟩
  · rw [found] at lost
    rcases lost with none | alive
    · exact absurd none (table.ne_zero (table.queued dead))
    · exact absurd (table.fits dead) alive
  · rw [found] at reaped same
    rw [same, ← sleeping.awaits.named]
    exact sleeping.family.delivered reaped

/-- The caller of `waitpid` that goes to sleep sleeps for its child. -/
theorem Family.sleeping (family : Family s) (rsp : Nat) (reusable : NodesReusable M)
    (runs : UserRuns s.kernel) (kin : Parent child s)
    (asleep : (Kernel.waitpid (s.kernel.pcb child).pid rsp s.kernel).1 = .asleep) :
    Sleeping s.kernel.processes.currentProcess child (s.kernel.pcb child).pid
      (s.perform (.waitpid (s.kernel.pcb child).pid) rsp) := by
  have settled := family.settled
  have table := settled.table
  refine ⟨family.waitpid reusable runs, ?_, ?_⟩
  · have way := waitpid_cases (s.kernel.pcb child).pid rsp reusable settled (runs.ready settled)
    rw [perform_waitpid_eq]
    generalize Kernel.waitpid (s.kernel.pcb child).pid rsp s.kernel = result at way asleep ⊢
    obtain ⟨outcome, after⟩ := result
    subst asleep
    cases way with
    | asleep found _ alive moved yielded =>
      obtain ⟨listed, named⟩ := found_of_getProcess table found
      have same := table.pidUnique (table.mem_of_listed listed) kin.member named
      rw [same] at listed alive
      rw [yielded]
      obtain ⟨name, member⟩ := kin.queued family listed
      have before :=
        (settled.setWaiting s.kernel.processes.currentProcess (s.kernel.pcb child).pid).table
      have blocked := moved.table before rfl (by decide) fun zombie => absurd zombie (by decide)
      have living : name ≠ zombieQueue := by
        intro dead
        rw [dead] at member
        have state : (s.kernel.pcb child).state = .zombie := table.fits member
        rw [state] at alive
        exact lt_irrefl _ alive
      have awaits := Awaits.enter table.exclusive kin.kin moved living member (kin.other family)
      exact awaits.same (yield_sameRecords blocked reusable)
  · rw [perform_waitpid_eq, asleep]
    exact Function.update_self _ _ _

theorem started_family {k : Kernel M} {shell : Addr} (start : Start shell k) :
    Family (started k) := by
  have settled : Settled k := start.settled
  have record : ∀ {a}, a ∈ k.pcbs → ∃ pid, Fresh pid (k.pcb a) := by
    intro a member
    rw [start.pcbs, Finset.mem_insert, Finset.mem_singleton] at member
    rcases member with same | same
    · rw [same]
      exact ⟨1, start.shellRecord⟩
    · rw [same]
      exact ⟨0, start.idleRecord⟩
  refine ⟨settled, ?_, ?_, ?_⟩
  · intro a member
    change a ∈ k.items zombieQueue at member
    rw [start.items] at member
    rcases mem_push.mp member with none | ⟨never, _⟩
    · cases none
    · cases never
  · intro a member
    obtain ⟨pid, fresh⟩ := record member
    change (k.pcb a).parentPid < (k.pcb a).pid
    rw [fresh.pid]
    exact fresh.older
  · intro a member pid asks
    obtain ⟨own, fresh⟩ := record member
    rcases asks with waits | never
    · have nobody : pid = -1 := waits.symm.trans fresh.waitingForPid
      rw [nobody]
      exact settled.table.mayReap_nobody
    · cases never

/-- `waitpid` for a child delivers exactly when the child is on a queue other than that of the
processes that wait for a semaphore. -/
theorem Family.waitpid_delivers {u : Usage M} (family : Family u.system) (reusable : NodesReusable M)
    (runs : UserRuns u.kernel) (kin : Parent child u.system) :
    Delivers child rsp u ↔ ∃ name, name ≠ blockedQueueBySem ∧ child ∈ u.kernel.items name := by
  have settled : Settled u.kernel := family.settled
  have table := settled.table
  have sleeps : (Kernel.waitpid (u.kernel.pcb child).pid rsp u.kernel).1 = .asleep →
      Sleeping u.kernel.processes.currentProcess child (u.kernel.pcb child).pid
        (asks (u.kernel.pcb child).pid rsp u).system := family.sleeping rsp reusable runs kin
  have way := waitpid_cases (u.kernel.pcb child).pid rsp reusable settled (runs.ready settled)
  have found : ∀ {name}, child ∈ u.kernel.items name →
      u.kernel.getProcess (u.kernel.pcb child).pid = child :=
    fun member => table.getProcess_eq (.inr (.inr ⟨_, member⟩)) rfl
  have notMinus : ∀ {retValue after}, ¬ Delivered child u.system (-1) retValue after := by
    intro retValue after delivered
    have bound : 0 ≤ (u.kernel.pcb child).pid := (table.pidBound kin.member).1
    have pid : -1 = (u.kernel.pcb child).pid := delivered.pid
    omega
  unfold Delivers
  generalize Kernel.waitpid (u.kernel.pcb child).pid rsp u.kernel = result at way sleeps ⊢
  obtain ⟨outcome, after⟩ := result
  cases way with
  | absent none =>
    constructor
    · exact fun delivered => absurd delivered notMinus
    · rintro ⟨name, _, member⟩
      rw [found member] at none
      exact absurd none (table.ne_zero kin.member)
  | stranger _ other =>
    constructor
    · exact fun delivered => absurd delivered notMinus
    · rintro ⟨name, _, member⟩
      rw [found member, table.getCurrentPid] at other
      exact absurd kin.kin other
  | refused _ late =>
    constructor
    · exact fun delivered => absurd delivered notMinus
    · rintro ⟨name, other, member⟩
      rw [found member] at late
      have fits := table.fits member
      cases name with
      | readyQueue =>
        rcases fits with ready | running
        · rw [ready] at late
          exact absurd late (by decide)
        · rw [running] at late
          exact absurd late (by decide)
      | blockedQueue =>
        rw [show (u.kernel.pcb child).state = .blocked from fits] at late
        exact absurd late (by decide)
      | blockedQueueBySem => exact absurd rfl other
      | zombieQueue =>
        rw [show (u.kernel.pcb child).state = .zombie from fits] at late
        exact absurd late (by decide)
  | reaped _ dead named reaped =>
    have same : u.kernel.getProcess (u.kernel.pcb child).pid = child :=
      table.pidUnique (table.queued reaped.member) kin.member named
    rw [same] at reaped ⊢
    constructor
    · exact fun _ => ⟨zombieQueue, by decide, reaped.member⟩
    · exact fun _ => family.delivered reaped
  | asleep present _ alive _ _ =>
    obtain ⟨listed, named⟩ := found_of_getProcess table present
    have same := table.pidUnique (table.mem_of_listed listed) kin.member named
    rw [same] at listed alive
    constructor
    · intro _
      obtain ⟨name, member⟩ := kin.queued family listed
      refine ⟨name, ?_, member⟩
      intro bySem
      rw [bySem] at member
      rw [show (u.kernel.pcb child).state = .waitingSem from table.fits member] at alive
      exact absurd alive (by decide)
    · intro _ uses u' run running self
      have sleeping : Sleeping u.kernel.processes.currentProcess child (u.kernel.pcb child).pid
          u'.system :=
        run.preserves (fun u => Sleeping _ child _ u.system)
          (fun before step => step.sleeping reusable before) (sleeps rfl)
      exact ⟨sleeping.awaits.named, _, sleeping.pending, sleeping.delivered running self⟩

theorem Delivers.result_eq {u : Usage M} {result : Int} {status : Option (BitVec 32)}
    (delivers : Delivers child rsp u)
    (returned : (Kernel.waitpid (u.kernel.pcb child).pid rsp u.kernel).1 =
      .returned result status) : result = (u.kernel.pcb child).pid := by
  unfold Delivers at delivers
  generalize Kernel.waitpid (u.kernel.pcb child).pid rsp u.kernel = after at delivers returned
  obtain ⟨outcome, after⟩ := after
  change outcome = _ at returned
  subst returned
  exact delivers.pid

end System
end SoKernel
