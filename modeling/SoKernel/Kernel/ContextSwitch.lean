import SoKernel.Kernel.Bump

namespace SoKernel
open MemoryManager QueueName Lib Kernel SoKernel.System

variable {M : Type}

/-- A run, watched: whose code is on the processor (nobody's before the first
switch), the stack pointer each process must get back, and the one that the last
switch loaded. -/
structure Traced (M : Type) where
  system : System M
  onCpu : Option Addr
  saved : Addr → Nat
  resumed : Nat

/-- The stack pointer passed to `schedule` belongs to the process that leaves. -/
def saveFor (onCpu : Option Addr) (rsp : Nat) (saved : Addr → Nat) : Addr → Nat :=
  match onCpu with
  | none => saved
  | some process => Function.update saved process rsp

/-- The kernel keeps the stack pointer of every process that is off the processor,
and the last switch loaded that of the process it switched to. -/
structure Intact (t : Traced M) : Prop where
  kept : ∀ p ∈ t.system.kernel.pcbs, t.onCpu ≠ some p → (t.system.kernel.pcb p).rsp = t.saved p
  loaded : ∀ p, t.onCpu = some p → t.resumed = t.saved p

instance (k : Kernel M) : Decidable k.Stays := inferInstanceAs (Decidable (_ ∧ _))

namespace Traced

/-- The events on processes alone. -/
def inScope : Event → Bool
  | .timerTick | .ctrlC => true
  | .call .yield | .call (.createProcess _) | .call (.blockProcess _) => true
  | .call (.unblockProcess _) | .call (.kill _ _) => true
  | _ => false

variable [MemoryManager M]

/-- The event makes `schedule` take the processor away. -/
def switches (label : Label) (k : Kernel M) : Bool :=
  match label.event with
  | .timerTick => ¬ k.Stays
  | .ctrlC =>
    (kill k.getForegroundPid 1 label.rsp k).1 = 0 ∧ k.getForegroundPid = k.currentPid
  | .call .yield => true
  | .call (.blockProcess pid) => (blockProcess pid label.rsp k).1 = 0 ∧ pid = k.getCurrentPid
  | .call (.kill pid retValue) => (kill pid retValue label.rsp k).1 = 0 ∧ pid = k.currentPid
  | _ => false

/-- What a creation adds: the stack pointer that was built. -/
def built (event : Event) (k : Kernel M) (saved : Addr → Nat) : Addr → Nat :=
  match event with
  | .call (.createProcess params) =>
    Function.update saved (allocMemory pcbSize k.memory).1 (builtRsp params k)
  | _ => saved

/-- The watch after an event that led to `t`. -/
def watch (label : Label) (t : System M) (s : Traced M) : Traced M :=
  let saved := built label.event s.system.kernel s.saved
  if switches label s.system.kernel then
    ⟨t, some t.kernel.processes.currentProcess, saveFor s.onCpu label.rsp saved,
      t.kernel.stackPointer⟩
  else ⟨t, s.onCpu, saved, s.resumed⟩

def Step (s : Traced M) (label : Label) (t : Traced M) : Prop :=
  inScope label.event ∧ System.Step s.system label t.system ∧ t = s.watch label t.system

/-- No `kill` that is served names the process that runs, be it from the keyboard; those of idle
and the shell are refused. -/
def sparesCurrent (label : Label) (k : Kernel M) : Bool :=
  match label.event with
  | .ctrlC => k.getForegroundPid ≤ 1 ∨ k.getForegroundPid ≠ k.getCurrentPid
  | .call (.kill pid _) => pid ≤ 1 ∨ pid ≠ k.getCurrentPid
  | _ => true

/-- After boot every process has the stack pointer that was built for it. -/
def start (k : Kernel M) : Traced M := ⟨started k, none, fun a => (k.pcb a).rsp, 0⟩

/-- Run the events, each under a guard. -/
def exec (guard : Label → Kernel M → Bool) : List Label → Traced M → Option (Traced M)
  | [], s => some s
  | label :: labels, s =>
    if inScope label.event ∧ guard label s.system.kernel then
      (s.system.next label).bind fun t => exec guard labels (s.watch label t)
    else none

variable {s t : Traced M} {labels : List Label} {guard : Label → Kernel M → Bool}

theorem run_of_exec (found : exec guard labels s = some t) :
    Run (fun s label t => Step s label t ∧ guard label s.system.kernel = true) s labels t := by
  induction labels generalizing s with
  | nil =>
    cases found
    exact .nil
  | cons label labels ih =>
    unfold exec at found
    split at found
    · rename_i scope
      obtain ⟨middle, first, rest⟩ := Option.bind_eq_some_iff.mp found
      refine .cons ⟨⟨scope.1, ?_, ?_⟩, scope.2⟩ (ih rest)
      · have system : (s.watch label middle).system = middle := by
          unfold watch
          dsimp only
          split <;> rfl
        rw [system]
        exact step_of_next first
      · unfold watch
        dsimp only
        split <;> rfl
    · cases found

end Traced

/-! ## What carries over -/

namespace Kernel

variable {k k' : Kernel M} {a p next : Addr} {pid parentPid : Int} {rsp resumed retValue : Nat}
variable {onCpu : Option Addr} {saved : Addr → Nat} {source target : QueueName}
variable {state : ProcessState} {params : CreationParams}

/-- The invariant: between switches the current process is the one on the processor. -/
structure Tracks (onCpu : Option Addr) (saved : Addr → Nat) (resumed : Nat) (k : Kernel M) :
    Prop where
  current : (k.first = true ∧ onCpu = none) ∨
    (k.first = false ∧ onCpu = some k.processes.currentProcess)
  kept : ∀ p ∈ k.pcbs, onCpu ≠ some p → (k.pcb p).rsp = saved p
  loaded : ∀ p, onCpu = some p → resumed = saved p

/-- The current process and the saved stack pointers are the same. -/
structure SameStacks (k k' : Kernel M) : Prop where
  first : k'.first = k.first
  current : k'.processes.currentProcess = k.processes.currentProcess
  pcbs : k'.pcbs = k.pcbs
  rsp : ∀ a, (k'.pcb a).rsp = (k.pcb a).rsp

theorem Moved.sameStacks (moved : Moved pid source target state a k k') : SameStacks k k' := by
  refine ⟨?_, moved.current, ?_, ?_⟩
  · obtain ⟨memory, queue, rfl, lists⟩ := moved.requeued
    rfl
  · obtain ⟨memory, queue, rfl, lists⟩ := moved.requeued
    rfl
  · intro b
    rw [moved.pcb]
    split
    · rename_i same
      rw [same]
    · rfl

theorem Wakes.sameStacks (wakes : Wakes parentPid pid k k') : SameStacks k k' := by
  cases wakes with
  | skip _ => exact ⟨rfl, rfl, rfl, fun _ => rfl⟩
  | wake _ moved => exact moved.sameStacks

/-- Killing another process than the current one. -/
theorem Killed.sameStacks (killed : Killed pid retValue source a k k')
    (other : k.processes.currentProcess ≠ a) : SameStacks k k' := by
  have record := fun b => killed.pcb (b := b)
  obtain ⟨k₁, moved, rfl⟩ := killed.moved
  have stays : k₁.vacate a = k₁ := by
    unfold vacate
    rw [if_neg]
    rw [moved.current, (exiting_fields retValue a k).2.1]
    exact other
  rw [stays] at record ⊢
  have exiting : (k.exiting retValue a).first = k.first := by
    unfold Kernel.exiting
    split <;> rfl
  obtain ⟨first, current, pcbs, _⟩ := moved.sameStacks
  obtain ⟨samePcbs, sameCurrent, _, _⟩ := exiting_fields retValue a k
  refine ⟨first.trans exiting, current.trans sameCurrent, pcbs.trans samePcbs, ?_⟩
  intro b
  rw [record]
  split
  · rename_i same
    rw [same]
  · rfl

theorem Tracks.same (tracks : Tracks onCpu saved resumed k) (same : SameStacks k k') :
    Tracks onCpu saved resumed k' := by
  constructor
  · rw [same.first, same.current]
    exact tracks.current
  · intro p member off
    rw [same.pcbs] at member
    rw [same.rsp]
    exact tracks.kept p member off
  · exact tracks.loaded

/-- A switch saves for the process that leaves and loads what was saved for `next`. -/
theorem Tracks.switch (tracks : Tracks onCpu saved resumed k) (table : Table k)
    (switched : Switched rsp k k' next) :
    Tracks (some k'.processes.currentProcess) (saveFor onCpu rsp saved) k'.stackPointer k' := by
  have pointer : ∀ p ∈ k.pcbs, (k'.pcb p).rsp = saveFor onCpu rsp saved p := by
    intro p member
    rw [switched.pcb]
    unfold afterSwitch saveFor
    rcases tracks.current with ⟨fresh, none⟩ | ⟨later, live⟩
    · subst none
      simp only [fresh, Bool.true_eq_false, and_false, if_false]
      exact tracks.kept p member (by simp)
    · subst live
      simp only [later, and_true]
      by_cases same : p = k.processes.currentProcess
      · rw [if_pos same, same, Function.update_self]
      · rw [if_neg same, Function.update_of_ne same]
        apply tracks.kept p member
        intro equal
        exact same (Option.some.inj equal).symm
  constructor
  · exact .inr ⟨switched.started, rfl⟩
  · intro p member _
    rw [switched.pcbs] at member
    exact pointer p member
  · intro p equal
    have same := Option.some.inj equal
    rw [switched.current] at same
    rw [switched.stackPointer, same]
    apply pointer
    rw [← same]
    rcases switched.next_cases with idle | ready
    · rw [idle]
      exact table.idle.1
    · exact table.queued ready

theorem Tracks.creates (tracks : Tracks onCpu saved resumed k) (table : Table k)
    (creates : Creates params a rsp k k') :
    Tracks onCpu (Function.update saved a rsp) resumed k' := by
  have live : ∀ p, onCpu = some p → p ∈ k.pcbs := by
    intro p equal
    rcases tracks.current with ⟨_, none⟩ | ⟨_, live⟩
    · rw [none] at equal
      cases equal
    · rw [live] at equal
      rw [← Option.some.inj equal]
      exact table.current
  have other : ∀ {p}, a ∉ k.pcbs → p ∈ k.pcbs → p ≠ a := by
    intro p fresh member same
    rw [same] at member
    exact fresh member
  have loaded : a ∉ k.pcbs → ∀ p, onCpu = some p → resumed = Function.update saved a rsp p := by
    intro fresh p equal
    rw [Function.update_of_ne (other fresh (live p equal))]
    exact tracks.loaded p equal
  cases creates with
  | failed spares _ pcbs _ =>
    constructor
    · rw [spares.first, spares.current]
      exact tracks.current
    · intro p member off
      rw [pcbs] at member
      rw [spares.kept member, Function.update_of_ne (other spares.fresh member)]
      exact tracks.kept p member off
    · exact loaded spares.fresh
  | created spares _ record pcbs _ =>
    constructor
    · rw [spares.first, spares.current]
      exact tracks.current
    · intro p member off
      rw [pcbs] at member
      rcases Finset.mem_insert.mp member with same | old
      · subst same
        obtain ⟨state, stdin, stdout, record, _⟩ := record
        rw [record, Function.update_self]
        rfl
      · rw [spares.kept old, Function.update_of_ne (other spares.fresh old)]
        exact tracks.kept p old off
    · exact loaded spares.fresh

/-- The watch goes on, whether or not the event switched. -/
def TracksOn (switched : Prop) (rsp : Nat) (onCpu : Option Addr) (saved : Addr → Nat)
    (resumed : Nat) (k' : Kernel M) : Prop :=
  (switched → Tracks (some k'.processes.currentProcess) (saveFor onCpu rsp saved)
    k'.stackPointer k') ∧
    (¬ switched → Tracks onCpu saved resumed k')

theorem TracksOn.of_iff {switched other : Prop} {rsp : Nat}
    (goesOn : TracksOn switched rsp onCpu saved resumed k') (same : other ↔ switched) :
    TracksOn other rsp onCpu saved resumed k' :=
  ⟨fun holds => goesOn.1 (same.mp holds), fun fails => goesOn.2 (mt same.mpr fails)⟩

/-- An event that never switches. -/
theorem Tracks.stay {rsp : Nat} (tracks : Tracks onCpu saved resumed k) :
    TracksOn (false = true) rsp onCpu saved resumed k :=
  ⟨fun never => absurd never (by decide), fun _ => tracks⟩

variable [MemoryManager M]

theorem Tracks.yield (tracks : Tracks onCpu saved resumed k) (table : Table k)
    (reusable : NodesReusable M) :
    Tracks (some (yield rsp k).processes.currentProcess) (saveFor onCpu rsp saved)
      (yield rsp k).stackPointer (yield rsp k) := by
  obtain ⟨next, switched⟩ := yield_switches rsp k reusable
  exact tracks.switch table switched

theorem Tracks.tick (tracks : Tracks onCpu saved resumed k) (table : Table k)
    (reusable : NodesReusable M) :
    TracksOn (¬ k.Stays) rsp onCpu saved resumed (callTimerTick rsp k) := by
  rcases callTimerTick_cases rsp k reusable with ⟨stays, same⟩ | ⟨leaves, next, switched⟩
  · refine ⟨fun leaves => absurd stays leaves, ?_⟩
    intro _
    rw [same]
    exact tracks.same ⟨rfl, rfl, rfl, fun _ => rfl⟩
  · exact ⟨fun _ => tracks.switch table switched, fun stays => absurd leaves stays⟩

theorem Tracks.blockProcess (tracks : Tracks onCpu saved resumed k) (settled : Settled k)
    (reusable : NodesReusable M) :
    TracksOn ((blockProcess pid rsp k).1 = 0 ∧ pid = k.getCurrentPid) rsp onCpu saved resumed
      (blockProcess pid rsp k).2 := by
  rcases blockProcess_cases pid rsp k reusable with ⟨same, _⟩ | ⟨source, a, k', _, moved, same⟩
  · rw [same]
    refine ⟨?_, fun _ => tracks⟩
    intro both
    cases both.1
  · rw [same, moved.getCurrentPid]
    have after := tracks.same moved.sameStacks
    have table : Table k' := moved.table settled.table rfl (by decide)
      fun zombie => absurd zombie (by decide)
    by_cases self : pid = k.getCurrentPid
    · rw [if_pos self]
      exact ⟨fun _ => after.yield table reusable, fun stays => absurd ⟨rfl, self⟩ stays⟩
    · rw [if_neg self]
      exact ⟨fun both => absurd both.2 self, fun _ => after⟩

theorem Tracks.kill (tracks : Tracks onCpu saved resumed k) (settled : Settled k)
    (reusable : NodesReusable M) (spares : pid ≤ 1 ∨ pid ≠ k.getCurrentPid) :
    TracksOn ((kill pid retValue rsp k).1 = 0 ∧ pid = k.currentPid) rsp onCpu saved resumed
      (kill pid retValue rsp k).2 := by
  rcases kill_cases pid retValue rsp reusable settled with
    ⟨same, _⟩ | ⟨source, a, k₁, k₂, user, killed, wakes, same⟩
  · rw [same]
    refine ⟨?_, fun _ => tracks⟩
    intro both
    cases both.1
  · rw [same]
    have other := spares.resolve_left (by omega)
    have apart : k.processes.currentProcess ≠ a := by
      intro equal
      apply other
      rw [settled.table.getCurrentPid, equal, killed.named]
    have after := (tracks.same (killed.sameStacks apart)).same wakes.sameStacks
    have table : Table k₂ := (wakes.settled (killed.settled settled)).table
    by_cases scheduled : pid = k.currentPid
    · rw [if_pos scheduled]
      exact ⟨fun _ => after.yield table reusable, fun stays => absurd ⟨rfl, scheduled⟩ stays⟩
    · rw [if_neg scheduled]
      exact ⟨fun both => absurd both.2 scheduled, fun _ => after⟩

end Kernel

namespace Traced

variable [MemoryManager M] {s t : Traced M} {label : Label} {labels : List Label}

theorem watch_tracks {after : System M}
    (goesOn : TracksOn (switches label s.system.kernel = true) label.rsp s.onCpu
      (built label.event s.system.kernel s.saved) s.resumed after.kernel) :
    Tracks (s.watch label after).onCpu (s.watch label after).saved (s.watch label after).resumed
      (s.watch label after).system.kernel := by
  unfold watch
  dsimp only
  split
  · rename_i switched
    exact goesOn.1 switched
  · rename_i stays
    exact goesOn.2 stays

/-- The watch through one event that does not kill the process that runs. -/
theorem Step.tracks (step : Step s label t) (spares : sparesCurrent label s.system.kernel)
    (reusable : NodesReusable M) (settled : Settled s.system.kernel)
    (tracks : Tracks s.onCpu s.saved s.resumed s.system.kernel) :
    Tracks t.onCpu t.saved t.resumed t.system.kernel := by
  obtain ⟨scope, step, watched⟩ := step
  rw [watched]
  apply watch_tracks
  generalize t.system = after at step
  cases step with
  | timerTick =>
    exact (tracks.tick settled.table reusable).of_iff decide_eq_true_iff
  | ctrlC =>
    exact (tracks.kill settled reusable (of_decide_eq_true spares)).of_iff decide_eq_true_iff
  | @call rsp call runs _ admits =>
    cases call with
    | yield => exact ⟨fun _ => tracks.yield settled.table reusable, fun never => absurd rfl never⟩
    | createProcess params =>
      have creates := createProcess_creates params settled admits runs.2
      exact (tracks.creates settled.table creates).stay
    | blockProcess pid => exact (tracks.blockProcess settled reusable).of_iff decide_eq_true_iff
    | unblockProcess pid =>
      apply Tracks.stay
      rcases unblockProcess_cases pid s.system.kernel reusable with
        ⟨same, _⟩ | ⟨a, k', same, moved⟩
      · change Tracks _ _ _ (Kernel.unblockProcess pid s.system.kernel).2
        rw [same]
        exact tracks
      · change Tracks _ _ _ (Kernel.unblockProcess pid s.system.kernel).2
        rw [same]
        exact tracks.same moved.sameStacks
    | kill pid retValue =>
      exact (tracks.kill settled reusable (of_decide_eq_true spares)).of_iff decide_eq_true_iff
    | blockProcessBySem => cases scope
    | unblockProcessBySem _ => cases scope
    | waitpid _ => cases scope
    | changePrio _ _ => cases scope
    | semInit _ _ => cases scope
    | semWait _ => cases scope
    | semPost _ => cases scope
  | resume _ _ => cases scope

/-- The invariant along a run. -/
def Watched (s : Traced M) : Prop :=
  Settled s.system.kernel ∧ Tracks s.onCpu s.saved s.resumed s.system.kernel

theorem start_watched {k : Kernel M} (booted : Booted k) : Watched (start k) := by
  obtain ⟨shell, first⟩ := booted.start
  refine ⟨first.settled, .inl ⟨first.first, rfl⟩, fun _ _ _ => rfl, ?_⟩
  intro p none
  cases none

end Traced
end SoKernel
