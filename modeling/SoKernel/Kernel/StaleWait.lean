import Mathlib.Tactic
import SoKernel.Kernel.ExitStatus
import SoKernel.Kernel.LedgerSteps

namespace SoKernel
open MemoryManager QueueName Lib Kernel SoKernel.System

variable {M : Type}

/-- A run of the kernel, and the pids that `blockProcess` put to sleep and that
`unblockProcess` has not named since. -/
structure Stopped (M : Type) where
  system : System M
  held : List Int

namespace Kernel

variable {k k' k'' : Kernel M} {a b c : Addr} {pid parentPid : Int} {rsp retValue : Nat}
variable {source target name : QueueName} {state : ProcessState} {held : List Int}
variable {pending : Addr → Option Int} {exits : Int → Option Nat} {unblocked : Option Int}
variable {params : CreationParams} {asked : Option Int}

/-- Who is noted as waiting waits, and who was put to sleep sleeps: no process that may
still die has the pid that a sleeper has noted. -/
structure Honest (pending : Addr → Option Int) (held : List Int) (k : Kernel M) : Prop where
  suspended : ∀ a ∈ k.pcbs, (k.pcb a).waitingForPid ≠ -1 →
    pending a = some (k.pcb a).waitingForPid
  old : ∀ pid ∈ held, pid < k.nextFreePid
  asleep : ∀ a ∈ k.pcbs, (k.pcb a).pid ∈ held →
    a ∈ k.items blockedQueue ∨ a ∈ k.items zombieQueue
  alone : ∀ a ∈ k.pcbs, (k.pcb a).pid ∈ held → ∀ name, name ≠ zombieQueue →
    ∀ c ∈ k.items name, (k.pcb c).pid ≠ (k.pcb a).waitingForPid

/-- A process that may still run was not put to sleep. -/
theorem Honest.free (honest : Honest pending held k) (exclusive : Exclusive k.items)
    (inTable : a ∈ k.pcbs) (member : a ∈ k.items name) (awake : name ≠ blockedQueue)
    (alive : name ≠ zombieQueue) : (k.pcb a).pid ∉ held := by
  intro sleeps
  rcases honest.asleep a inTable sleeps with blocked | dead
  · exact awake (exclusive.unique member blocked)
  · exact alive (exclusive.unique member dead)

/-- The same records, nobody put to sleep woken and nobody dead alive. -/
theorem Honest.carry (honest : Honest pending held k)
    (nextFreePid : k'.nextFreePid = k.nextFreePid)
    (record : ∀ a ∈ k'.pcbs, a ∈ k.pcbs ∧ (k'.pcb a).pid = (k.pcb a).pid ∧
      (k'.pcb a).waitingForPid = (k.pcb a).waitingForPid)
    (stays : ∀ a ∈ k'.pcbs, (k.pcb a).pid ∈ held →
      a ∈ k.items blockedQueue ∨ a ∈ k.items zombieQueue →
      a ∈ k'.items blockedQueue ∨ a ∈ k'.items zombieQueue)
    (living : ∀ name c, name ≠ zombieQueue → c ∈ k'.items name →
      (k'.pcb c).pid = (k.pcb c).pid ∧ ∃ other, other ≠ zombieQueue ∧ c ∈ k.items other) :
    Honest pending held k' where
  suspended a member waits := by
    obtain ⟨old, _, same⟩ := record a member
    rw [same] at waits ⊢
    exact honest.suspended a old waits
  old pid member := by
    rw [nextFreePid]
    exact honest.old pid member
  asleep a member sleeps := by
    obtain ⟨old, same, _⟩ := record a member
    rw [same] at sleeps
    exact stays a member sleeps (honest.asleep a old sleeps)
  alone a member sleeps name alive c here := by
    obtain ⟨old, same, waiting⟩ := record a member
    obtain ⟨samePid, other, lives, there⟩ := living name c alive here
    rw [same] at sleeps
    rw [samePid, waiting]
    exact honest.alone a old sleeps other lives c there

theorem Honest.same (honest : Honest pending held k) (same : SameRecords k k') :
    Honest pending held k' := by
  apply honest.carry same.nextFreePid
  · intro a member
    rw [same.pcbs] at member
    exact ⟨member, same.pid a, same.waitingForPid a⟩
  · intro a _ _ asleep
    exact asleep.imp same.items.mpr same.items.mpr
  · intro name c alive member
    exact ⟨same.pid c, name, alive, same.items.mp member⟩

/-- One process changes its queue; it was not put to sleep. -/
theorem Honest.moved (honest : Honest pending held k) (exclusive : Exclusive k.items)
    (inTable : a ∈ k.pcbs) (moved : Moved pid source target state a k k')
    (alive : source ≠ zombieQueue) (spared : source = blockedQueue → pid ∉ held) :
    Honest pending held k' := by
  obtain ⟨pcbs, nextFreePid⟩ := moved.fields
  apply honest.carry nextFreePid
  · intro b member
    rw [pcbs] at member
    exact ⟨member, moved.pid_eq, (moved.records b).2.1⟩
  · intro b _ sleeps asleep
    have other : b ≠ a := by
      intro same
      subst same
      by_cases blocked : source = blockedQueue
      · apply spared blocked
        rw [← moved.named]
        exact sleeps
      · exact honest.free exclusive inTable moved.member blocked alive sleeps
    have keeps : ∀ {name}, b ∈ k.items name → b ∈ k'.items name :=
      fun member => (moved.mem_items exclusive).mpr (.inl ⟨member, other⟩)
    exact asleep.imp keeps keeps
  · intro name c lives member
    refine ⟨moved.pid_eq, ?_⟩
    rcases (moved.mem_items exclusive).mp member with ⟨old, _⟩ | ⟨_, same⟩
    · exact ⟨name, lives, old⟩
    · refine ⟨source, alive, ?_⟩
      rw [same]
      exact moved.member

/-- What is no longer asked of the table. -/
theorem Honest.release (honest : Honest pending held k) (pid : Int) :
    Honest pending (held.filter (· ≠ pid)) k where
  suspended := honest.suspended
  old other member := honest.old other (List.mem_of_mem_filter member)
  asleep a member sleeps := honest.asleep a member (List.mem_of_mem_filter sleeps)
  alone a member sleeps := honest.alone a member (List.mem_of_mem_filter sleeps)

/-- A process on `blockedQueue` is put to sleep. -/
theorem Honest.hold (honest : Honest pending held k) (table : Table k)
    (asleep : a ∈ k.items blockedQueue) (named : (k.pcb a).pid = pid)
    (alone : ∀ name, name ≠ zombieQueue → ∀ c ∈ k.items name,
      (k.pcb c).pid ≠ (k.pcb a).waitingForPid) : Honest pending (pid :: held) k := by
  have own : ∀ {b}, b ∈ k.pcbs → (k.pcb b).pid = pid → b = a :=
    fun member same => table.pidUnique member (table.queued asleep) (same.trans named.symm)
  constructor
  · exact honest.suspended
  · intro other member
    rcases List.mem_cons.mp member with same | old
    · rw [same, ← named]
      exact (table.pidBound (table.queued asleep)).2
    · exact honest.old other old
  · intro b member sleeps
    rcases List.mem_cons.mp sleeps with same | old
    · rw [own member same]
      exact .inl asleep
    · exact honest.asleep b member old
  · intro b member sleeps
    rcases List.mem_cons.mp sleeps with same | old
    · rw [own member same]
      exact alone
    · exact honest.alone b member old

theorem Honest.killed (honest : Honest pending held k) (table : Table k)
    (killed : Killed pid retValue source a k k') : Honest pending held k' := by
  have items : ∀ {b name}, b ∈ k'.items name ↔
      (b ∈ k.items name ∧ b ≠ a) ∨ (name = zombieQueue ∧ b = a) :=
    killed.mem_items table.exclusive
  apply honest.carry killed.fields.2
  · intro b member
    rw [killed.fields.1] at member
    exact ⟨member, (killed.records b).1, (killed.records b).2.2⟩
  · intro b _ _ asleep
    by_cases same : b = a
    · exact .inr (items.mpr (.inr ⟨rfl, same⟩))
    · exact asleep.imp (fun old => items.mpr (.inl ⟨old, same⟩))
        fun old => items.mpr (.inl ⟨old, same⟩)
  · intro name c lives member
    refine ⟨(killed.records c).1, ?_⟩
    rcases items.mp member with ⟨old, _⟩ | ⟨dead, _⟩
    · exact ⟨name, lives, old⟩
    · exact absurd dead lives

theorem Honest.reaped (honest : Honest pending held k) (exclusive : Exclusive k.items)
    (reaped : Reaped a k k') : Honest pending held k' := by
  obtain ⟨pcbs, nextFreePid, _⟩ := reaped.fields
  have items : ∀ {b name}, b ∈ k'.items name ↔ b ∈ k.items name ∧ b ≠ a :=
    reaped.mem_items exclusive
  have other : ∀ {b}, b ∈ k'.pcbs → b ≠ a ∧ b ∈ k.pcbs := by
    intro b member
    rw [pcbs] at member
    exact Finset.mem_erase.mp member
  apply honest.carry nextFreePid
  · intro b member
    rw [reaped.pcb (other member).1]
    exact ⟨(other member).2, rfl, rfl⟩
  · intro b member _ asleep
    have left := (other member).1
    exact asleep.imp (fun old => items.mpr ⟨old, left⟩) fun old => items.mpr ⟨old, left⟩
  · intro name c lives member
    obtain ⟨old, left⟩ := items.mp member
    rw [reaped.pcb left]
    exact ⟨rfl, name, lives, old⟩

/-- A process that was not put to sleep changes whom it waits for. -/
theorem Honest.setWaiting (honest : Honest pending held k)
    (free : (k.pcb a).pid ∉ held) (agree : pid ≠ -1 → asked = some pid) :
    Honest (Function.update pending a asked) held (k.setWaiting a pid) := by
  have record := fun b => setWaiting_fields b a pid k
  constructor
  · intro b member waits
    rw [setWaiting_pcb] at waits ⊢
    by_cases same : b = a
    · rw [if_pos same] at waits ⊢
      rw [same, Function.update_self]
      exact agree waits
    · rw [if_neg same] at waits ⊢
      rw [Function.update_of_ne same]
      exact honest.suspended b member waits
  · exact honest.old
  · intro b member sleeps
    rw [(record b).1] at sleeps
    exact honest.asleep b member sleeps
  · intro b member sleeps name alive c here
    rw [(record b).1] at sleeps
    have other : b ≠ a := by
      intro same
      rw [same] at sleeps
      exact free sleeps
    rw [(record c).1, setWaiting_pcb, if_neg other]
    exact honest.alone b member sleeps name alive c here

theorem Honest.creates (honest : Honest pending held k) (table : Table k)
    (ledger : Ledger pending exits k) (creates : Creates params a rsp k k') :
    Honest (Function.update pending a none) held k' := by
  have unasked : ∀ {b}, b ∈ k.pcbs → a ∉ k.pcbs →
      Function.update pending a none b = pending b := by
    intro b member fresh
    apply Function.update_of_ne
    intro same
    rw [same] at member
    exact fresh member
  cases creates with
  | failed spares items pcbs nextFreePid =>
    constructor
    · intro b member waits
      rw [pcbs] at member
      rw [spares.kept member] at waits ⊢
      rw [unasked member spares.fresh]
      exact honest.suspended b member waits
    · intro pid member
      exact lt_of_lt_of_le (honest.old pid member) nextFreePid
    · intro b member sleeps
      rw [pcbs] at member
      rw [spares.kept member] at sleeps
      rw [items]
      exact honest.asleep b member sleeps
    · intro b member sleeps name alive c here
      rw [pcbs] at member
      rw [items] at here
      rw [spares.kept member] at sleeps ⊢
      rw [spares.kept (table.queued here)]
      exact honest.alone b member sleeps name alive c here
  | created spares _ record pcbs nextFreePid =>
    obtain ⟨state, stdin, stdout, record, place⟩ := record
    have newPid : (k'.pcb a).pid = k.nextFreePid := by
      rw [record]
      rfl
    have newWaiting : (k'.pcb a).waitingForPid = -1 := by
      rw [record]
      rfl
    have member : ∀ {b}, b ∈ k'.pcbs → b = a ∨ b ∈ k.pcbs := by
      intro b here
      rw [pcbs] at here
      exact Finset.mem_insert.mp here
    have items : ∀ {b name}, b ∈ k'.items name → b ∈ k.items name ∨ b = a := by
      intro b name here
      rcases place with ⟨same, _⟩ | ⟨pushed, _⟩ | ⟨pushed, _⟩
      · rw [same] at here
        exact .inl here
      · rw [pushed] at here
        exact (mem_push.mp here).imp id And.right
      · rw [pushed] at here
        exact (mem_push.mp here).imp id And.right
    have kept : ∀ {b name}, b ∈ k.items name → b ∈ k'.items name := by
      intro b name here
      rcases place with ⟨same, _⟩ | ⟨pushed, _⟩ | ⟨pushed, _⟩
      · rw [same]
        exact here
      · rw [pushed]
        exact mem_push.mpr (.inl here)
      · rw [pushed]
        exact mem_push.mpr (.inl here)
    have before : ∀ {b}, b ∈ k'.pcbs → (k'.pcb b).pid ∈ held → b ∈ k.pcbs := by
      intro b here sleeps
      rcases member here with same | old
      · have late := honest.old _ sleeps
        rw [same, newPid] at late
        exact absurd late (lt_irrefl _)
      · exact old
    constructor
    · intro b here waits
      rcases member here with same | old
      · rw [same] at waits
        exact absurd newWaiting waits
      · rw [spares.kept old] at waits ⊢
        rw [unasked old spares.fresh]
        exact honest.suspended b old waits
    · intro pid sleeps
      rw [nextFreePid]
      exact lt_trans (honest.old pid sleeps) (lt_add_one _)
    · intro b here sleeps
      have old := before here sleeps
      rw [spares.kept old] at sleeps
      exact (honest.asleep b old sleeps).imp kept kept
    · intro b here sleeps name alive c there
      have old := before here sleeps
      rw [spares.kept old] at sleeps ⊢
      rcases items there with already | same
      · rw [spares.kept (table.queued already)]
        exact honest.alone b old sleeps name alive c already
      · -- Nobody has noted a pid that is not given out yet.
        rw [same, newPid]
        exact (ledger.asked b old _ (.inl rfl)).1.ne'

theorem Honest.shift (honest : Honest pending held k) (table : Table k)
    (shift : Shift unblocked k k') (spared : ∀ pid, unblocked = some pid → pid ∉ held) :
    Honest pending held k' := by
  cases shift with
  | none same => exact honest.same same
  | @moved k₀ _ _ pid _ _ _ a before exclusive moved alive _ asleep after =>
    have inTable : a ∈ k₀.pcbs := by
      rw [before.pcbs]
      exact table.queued (before.items.mp moved.member)
    apply Honest.same _ after
    apply (honest.same before).moved exclusive inTable moved alive
    exact fun blocked => spared pid (asleep blocked)

/-- The death of `a` wakes nobody that was put to sleep. -/
theorem Honest.wakes (honest : Honest pending held k) (settled : Settled k)
    (killed : Killed pid retValue source a k k') (wakes : Wakes parentPid pid k' k'') :
    Honest pending held k'' := by
  have table := settled.table
  have after := (killed.settled settled).table
  have dead := honest.killed table killed
  cases wakes with
  | skip _ => exact dead
  | @wake p _ waits moved =>
    have inTable := after.queued moved.member
    apply dead.moved after.exclusive inTable moved (by decide)
    intro _ sleeps
    rw [killed.fields.1] at inTable
    rw [← moved.named, (killed.records p).1] at sleeps
    rw [(killed.records p).2.2] at waits
    apply honest.alone p inTable sleeps source killed.alive a killed.member
    rw [waits, killed.named]

variable [MemoryManager M]

theorem Honest.kill (honest : Honest pending held k) (settled : Settled k)
    (reusable : NodesReusable M) : Honest pending held (kill pid retValue rsp k).2 := by
  rcases kill_cases pid retValue rsp reusable settled with
    ⟨same, _⟩ | ⟨source, a, k₁, k₂, _, killed, wakes, same⟩
  · rw [same]
    exact honest
  · rw [same]
    have after := honest.wakes settled killed wakes
    change Honest pending held (if pid = k.currentPid then Kernel.yield rsp k₂ else k₂)
    split
    · exact after.same (yield_sameRecords (wakes.settled (killed.settled settled)).table reusable)
    · exact after

/-- Who wakes up when a process is killed. -/
theorem Honest.woken (honest : Honest pending held k) (settled : Settled k)
    (reusable : NodesReusable M) (asleep : b ∈ k.items blockedQueue)
    (awake : b ∈ (Kernel.kill pid retValue rsp k).2.items readyQueue) :
    pending b = some pid := by
  have table := settled.table
  rcases kill_cases pid retValue rsp reusable settled with
    ⟨same, _⟩ | ⟨source, a, k₁, k₂, user, killed, wakes, same⟩
  · rw [same] at awake
    exact absurd (table.exclusive.unique asleep awake) (by decide)
  · have dead := (killed.settled settled).table
    have ready : b ∈ k₂.items readyQueue := by
      rw [same] at awake
      change b ∈ (if pid = k.currentPid then Kernel.yield rsp k₂ else k₂).items readyQueue at awake
      split at awake
      · exact (yield_sameRecords (wakes.settled (killed.settled settled)).table reusable).items.mp
          awake
      · exact awake
    have still : b ∉ k₁.items readyQueue := by
      intro already
      rcases (killed.mem_items table.exclusive).mp already with ⟨old, _⟩ | ⟨never, _⟩
      · exact absurd (table.exclusive.unique asleep old) (by decide)
      · cases never
    cases wakes with
    | skip _ => exact absurd ready still
    | @wake p _ waits moved =>
      have same : b = p := by
        rcases (moved.mem_items dead.exclusive).mp ready with ⟨old, _⟩ | ⟨_, same⟩
        · exact absurd old still
        · exact same
      subst same
      rw [(killed.records b).2.2] at waits
      have noted := honest.suspended b (table.queued asleep) (by omega)
      rw [waits] at noted
      exact noted

theorem Honest.waitpid {s : System M} (honest : Honest s.pending held s.kernel)
    (family : Family s) (reusable : NodesReusable M) (runs : UserRuns s.kernel) :
    Honest (askedAfter (Kernel.waitpid pid rsp s.kernel).1 pid s) held
      (Kernel.waitpid pid rsp s.kernel).2 := by
  have settled := family.settled
  have table := settled.table
  have ready := runs.ready settled
  have free := honest.free table.exclusive table.current ready (by decide) (by decide)
  have way := waitpid_cases pid rsp reusable settled ready
  generalize Kernel.waitpid pid rsp s.kernel = result at way ⊢
  obtain ⟨outcome, after⟩ := result
  cases way with
  | absent _ => exact honest
  | stranger _ _ => exact honest
  | refused _ _ => exact honest
  | reaped _ _ _ reaped =>
    have before := settled.setWaiting s.kernel.processes.currentProcess (-1)
    have cleared : Honest (Function.update s.pending s.kernel.processes.currentProcess
        (s.pending s.kernel.processes.currentProcess)) held
        (s.kernel.setWaiting s.kernel.processes.currentProcess (-1)) :=
      honest.setWaiting free fun never => absurd rfl never
    rw [Function.update_eq_self] at cleared
    exact cleared.reaped before.table.exclusive reaped
  | asleep found child _ moved same =>
    have before := settled.setWaiting s.kernel.processes.currentProcess pid
    have noted : Honest (Function.update s.pending s.kernel.processes.currentProcess (some pid))
        held (s.kernel.setWaiting s.kernel.processes.currentProcess pid) :=
      honest.setWaiting free fun _ => rfl
    have blocked := noted.moved before.table.exclusive table.current moved (by decide)
      fun never => absurd never (by decide)
    have after := moved.table before.table rfl (by decide) fun zombie => absurd zombie (by decide)
    rw [same]
    exact blocked.same (yield_sameRecords after reusable)

/-- The end of `waitpid`, where its target is dead. -/
theorem Honest.resume {s : System M} (honest : Honest s.pending held s.kernel)
    (settled : Settled s.kernel) (runs : UserRuns s.kernel)
    (present : s.kernel.getProcess pid ≠ 0)
    (dead : (s.kernel.pcb (s.kernel.getProcess pid)).state = .zombie) :
    Honest (Function.update s.pending s.kernel.processes.currentProcess none) held
      (waitpidResume pid s.kernel.processes.currentProcess s.kernel).2.2 := by
  have table := settled.table
  have free := honest.free table.exclusive table.current (runs.ready settled) (by decide) (by decide)
  rcases waitpidResume_cases pid s.kernel.processes.currentProcess settled with
    ⟨lost, _⟩ | ⟨k', _, reaped, same⟩
  · rcases lost with none | alive
    · exact absurd none present
    · exact absurd dead alive
  · rw [same]
    have before := settled.setWaiting s.kernel.processes.currentProcess (-1)
    have cleared : Honest (Function.update s.pending s.kernel.processes.currentProcess none) held
        (s.kernel.setWaiting s.kernel.processes.currentProcess (-1)) :=
      honest.setWaiting free fun never => absurd rfl never
    exact cleared.reaped before.table.exclusive reaped

end Kernel

namespace Stopped

variable [MemoryManager M]

/-- A block that succeeds adds its pid. -/
def holds (label : Label) (k : Kernel M) (held : List Int) : List Int :=
  match label.event with
  | .call (.blockProcess pid) =>
    if (Kernel.blockProcess pid label.rsp k).1 = 0 then pid :: held else held
  | .call (.unblockProcess pid) => held.filter (· ≠ pid)
  | _ => held

def Step (s : Stopped M) (label : Label) (t : Stopped M) : Prop :=
  System.Step s.system label t.system ∧ t.held = holds label s.system.kernel s.held

/-- The process can die no more. -/
def Gone (pid : Int) (k : Kernel M) : Prop :=
  k.getProcess pid ≠ 0 ∧ (k.pcb (k.getProcess pid)).state = .zombie

/-- `waitpid` is left only once its target is dead, and nobody blocks a process that
is inside `waitpid` for one that lives, unless it is blocked already. -/
def Mindful (label : Label) (s : System M) : Prop :=
  match label.event with
  | .resume => ∀ pid ∈ s.pending s.kernel.processes.currentProcess, Gone pid s.kernel
  | .call (.blockProcess pid) =>
    s.kernel.getProcess pid ∈ s.kernel.items blockedQueue ∨
      ∀ child ∈ s.pending (s.kernel.getProcess pid), Gone child s.kernel
  | _ => True

instance (pid : Int) (k : Kernel M) : Decidable (Gone pid k) :=
  inferInstanceAs (Decidable (_ ∧ _))

instance (label : Label) (s : System M) : Decidable (Mindful label s) := by
  unfold Mindful
  split <;> infer_instance

def start (k : Kernel M) : Stopped M := ⟨started k, []⟩

/-- The claim on one state. -/
structure NeverStale (s : Stopped M) : Prop where
  suspended : ∀ a ∈ s.system.kernel.pcbs, (s.system.kernel.pcb a).state ≠ .zombie →
    (s.system.kernel.pcb a).waitingForPid ≠ -1 →
    s.system.pending a = some (s.system.kernel.pcb a).waitingForPid
  wakes : ∀ pid retValue rsp, ∀ a ∈ s.system.kernel.items blockedQueue,
    a ∈ (Kernel.kill pid retValue rsp s.system.kernel).2.items readyQueue →
    s.system.pending a = some pid
  held : ∀ a ∈ s.system.kernel.pcbs, (s.system.kernel.pcb a).pid ∈ s.held →
    (s.system.kernel.pcb a).state = .blocked ∨ (s.system.kernel.pcb a).state = .zombie

variable {s t : Stopped M} {label : Label} {labels : List Label} {k : Kernel M}

/-- Run the events, each under a guard. -/
def exec (guard : Label → System M → Prop) [∀ label s, Decidable (guard label s)] :
    List Label → Stopped M → Option (Stopped M)
  | [], s => some s
  | label :: labels, s =>
    if guard label s.system then
      (s.system.next label).bind fun t =>
        exec guard labels ⟨t, holds label s.system.kernel s.held⟩
    else none

theorem run_of_exec {guard : Label → System M → Prop} [∀ label s, Decidable (guard label s)]
    (found : exec guard labels s = some t) :
    Run (fun s label t => Step s label t ∧ guard label s.system) s labels t := by
  induction labels generalizing s with
  | nil =>
    cases found
    exact .nil
  | cons label labels ih =>
    unfold exec at found
    split at found
    · rename_i guarded
      obtain ⟨middle, first, rest⟩ := Option.bind_eq_some_iff.mp found
      exact .cons ⟨⟨step_of_next first, rfl⟩, guarded⟩ (ih rest)
    · cases found

/-- What holds in every state. -/
structure Sound (s : Stopped M) : Prop where
  family : Family s.system
  honest : Honest s.system.pending s.held s.system.kernel

theorem Sound.neverStale (sound : Sound s) (reusable : NodesReusable M) : NeverStale s := by
  have settled := sound.family.settled
  refine ⟨fun a member _ => sound.honest.suspended a member, ?_, ?_⟩
  · intro pid retValue rsp a asleep awake
    exact sound.honest.woken settled reusable asleep awake
  · intro a member sleeps
    rcases sound.honest.asleep a member sleeps with blocked | dead
    · exact .inl (settled.table.fits blocked)
    · exact .inr (settled.table.fits dead)

theorem blockProcess_honest {s : System M} {held : List Int} {pid : Int} {rsp : Nat}
    (honest : Honest s.pending held s.kernel) (settled : Settled s.kernel)
    (reusable : NodesReusable M) (mindful : Mindful ⟨.call (.blockProcess pid), rsp⟩ s) :
    Honest s.pending (holds ⟨.call (.blockProcess pid), rsp⟩ s.kernel held)
      (Kernel.blockProcess pid rsp s.kernel).2 := by
  have table := settled.table
  unfold holds
  dsimp only
  rcases blockProcess_cases pid rsp s.kernel reusable with
    ⟨same, _⟩ | ⟨source, a, k', which, moved, same⟩
  · rw [same]
    exact honest
  · rw [same]
    have awake : source ≠ blockedQueue ∧ source ≠ zombieQueue := by
      rcases which with ready | bySem
      · rw [ready]
        decide
      · rw [bySem]
        decide
    have inTable := table.queued moved.member
    have after := moved.table table rfl (by decide) fun zombie => absurd zombie (by decide)
    have slept : Honest s.pending held k' := by
      apply honest.moved table.exclusive inTable moved awake.2
      exact fun never => absurd never awake.1
    have found : s.kernel.getProcess pid = a :=
      table.getProcess_eq (.inr (.inr ⟨_, moved.member⟩)) moved.named
    have minds : ∀ child ∈ s.pending (s.kernel.getProcess pid), Gone child s.kernel := by
      refine mindful.resolve_left fun blocked => ?_
      rw [found] at blocked
      exact awake.1 (table.exclusive.unique moved.member blocked)
    have kept : Honest s.pending (pid :: held) k' := by
      apply slept.hold after ((moved.mem_items table.exclusive).mpr (.inr ⟨rfl, rfl⟩))
      · rw [moved.pid_eq]
        exact moved.named
      · intro name alive c here same
        rw [(moved.records a).2.1, moved.pid_eq] at same
        obtain ⟨other, lives, there⟩ : ∃ other, other ≠ zombieQueue ∧ c ∈ s.kernel.items other := by
          rcases (moved.mem_items table.exclusive).mp here with ⟨old, _⟩ | ⟨_, self⟩
          · exact ⟨name, alive, old⟩
          · rw [self]
            exact ⟨source, awake.2, moved.member⟩
        have living := table.getProcess_eq (.inr (.inr ⟨_, there⟩)) same
        have noted : s.pending a = some (s.kernel.pcb a).waitingForPid := by
          apply honest.suspended a inTable
          have bound := (table.pidBound (table.queued there)).1
          omega
        rw [← found] at noted
        have gone := minds _ noted
        rw [found] at gone
        unfold Gone at gone
        rw [living] at gone
        exact table.alive there lives gone.2
    change Honest s.pending (pid :: held)
      (if pid = k'.getCurrentPid then Kernel.yield rsp k' else k')
    split
    · exact kept.same (yield_sameRecords after reusable)
    · exact kept

/-- Every step that minds whom it wakes keeps the table honest. -/
theorem Step.sound (step : Step s label t) (reusable : NodesReusable M)
    (mindful : Mindful label s.system) (sound : Sound s) : Sound t := by
  obtain ⟨step, held⟩ := step
  obtain ⟨family, honest⟩ := sound
  refine ⟨System.Step.family step reusable family, ?_⟩
  have settled := family.settled
  have table := settled.table
  rw [held]
  generalize t.system = next at step
  cases step with
  | timerTick => exact honest.same (callTimerTick_sameRecords table reusable)
  | ctrlC => exact honest.kill settled reusable
  | resume runs asked =>
    obtain ⟨present, dead⟩ := mindful _ asked
    exact honest.resume settled runs present dead
  | @call rsp call runs _ admits =>
    cases call with
    | createProcess params =>
      exact honest.creates table family.ledger
        (createProcess_creates params settled admits runs.2)
    | kill pid retValue => exact honest.kill settled reusable
    | waitpid pid =>
      rw [perform_waitpid_eq]
      exact honest.waitpid family reusable runs
    | blockProcess pid =>
      have kept := blockProcess_honest honest settled reusable mindful
      rw [perform_pending rfl]
      exact kept
    | unblockProcess pid =>
      rw [perform_pending rfl]
      apply (honest.release pid).shift table (perform_shift settled reusable rfl)
      intro other same member
      cases same
      exact of_decide_eq_true (List.mem_filter.mp member).2 rfl
    | _ =>
      rw [perform_pending rfl]
      exact honest.shift table (perform_shift settled reusable rfl) fun _ never => nomatch never

theorem start_sound (booted : Booted k) : Sound (start k) := by
  obtain ⟨shell, first⟩ := booted.start
  refine ⟨started_family first, ?_, ?_, ?_, ?_⟩
  · intro a member waits
    exfalso
    change a ∈ k.pcbs at member
    rw [first.pcbs, Finset.mem_insert, Finset.mem_singleton] at member
    rcases member with same | same
    · rw [same] at waits
      exact waits first.shellRecord.waitingForPid
    · rw [same] at waits
      exact waits first.idleRecord.waitingForPid
  · exact fun _ never => nomatch never
  · exact fun _ _ never => nomatch never
  · exact fun _ _ never => nomatch never

end Stopped
end SoKernel
