import SoKernel.Kernel.FailedPipe

namespace SoKernel
open MemoryManager QueueName Lib Kernel SoKernel.System

variable {M : Type}

/-! ## Events, and the calls on pipes and on memory -/

/-- The system, and the blocks that the user processes were given and did not free. -/
structure Usage (M : Type) where
  system : System M
  held : List Addr

/-- What the kernel serves. -/
inductive Use where
  | service (service : Service)
  | allocMemory (size : Nat)
  | freeMemory (address : Addr)

/-- A timer tick, Ctrl+C or the end of a `waitpid`, or one of the calls on processes and
semaphores. -/
abbrev Use.event (event : Event) (rsp : Nat) : Use := .service (.event ⟨event, rsp⟩)

namespace Kernel

/-- The wait list of the semaphore was not freed: the semaphore is open, or was never opened. -/
def Intact (id : Int) (k : Kernel M) : Prop :=
  0 ≤ id ∧ id < numSems ∧ ((k.semaphores id).used = true ∨ (k.semaphores id).blocked = none)

instance (id : Int) (k : Kernel M) : Decidable (Intact id k) := inferInstanceAs (Decidable (_ ∧ _))

variable [MemoryManager M]

/-- `semInit` finds memory for the wait list, if it looks for it. -/
def ListGranted (id : Int) (k : Kernel M) : Prop :=
  0 ≤ id → id < numSems → (k.semaphores id).used = false → (allocMemory queueSize k.memory).1 ≠ 0

/-- `createPipe` finds memory for the wait lists of its three semaphores. -/
def ListsGranted (k : Kernel M) : Prop :=
  (allocMemory queueSize k.memory).1 ≠ 0 ∧ (allocMemory queueSize (listed k.memory)).1 ≠ 0 ∧
    (allocMemory queueSize (listed (listed k.memory))).1 ≠ 0

instance (id : Int) (k : Kernel M) : Decidable (ListGranted id k) :=
  inferInstanceAs (Decidable (_ → _))

instance (k : Kernel M) : Decidable (ListsGranted k) := inferInstanceAs (Decidable (_ ∧ _))

end Kernel

namespace Usage

def kernel (u : Usage M) : Kernel M := u.system.kernel

/-- When `main` has enabled interrupts. -/
def start (k : Kernel M) : Usage M := ⟨started k, []⟩

variable [MemoryManager M]

/-- No memory that the kernel has freed is used: who waits for a semaphore or posts to it finds
its wait list, and no `semInit` fails for memory, for then it frees the table of the
semaphores. -/
def Careful (use : Use) (k : Kernel M) : Prop :=
  match use with
  | .service (.event ⟨.call (.semWait id), _⟩) | .service (.event ⟨.call (.semPost id), _⟩) =>
    k.Intact id
  | .service (.event ⟨.call (.semInit id _), _⟩) => k.ListGranted id
  | .service (.call .createPipe) => k.ListsGranted
  | _ => True

instance (use : Use) (k : Kernel M) : Decidable (Careful use k) := by
  unfold Careful
  split <;> infer_instance

/-- The calls are those of a running user process that is not inside `waitpid`; it frees only
what it was given. -/
inductive Step : Usage M → Use → Usage M → Prop
  | service {u service s} : Service.Step u.system service s →
      Step u (.service service) { u with system := s }
  | allocMemory {u : Usage M} {size address : Nat} {memory : M} : UserRuns u.kernel →
      u.system.pending u.kernel.processes.currentProcess = none →
      MemoryManager.allocMemory size u.kernel.memory = (address, memory) →
      Step u (.allocMemory size) {
        system := { u.system with kernel := { u.kernel with memory := memory } }
        held := if address = 0 then u.held else address :: u.held }
  | freeMemory {u : Usage M} {address : Addr} : UserRuns u.kernel →
      u.system.pending u.kernel.processes.currentProcess = none → address ∈ u.held →
      Step u (.freeMemory address) {
        system := { u.system with
          kernel := { u.kernel with memory := MemoryManager.freeMemory address u.kernel.memory } }
        held := u.held.erase address }

/-- A step of a run in which no freed memory is used. -/
def CarefulStep (u : Usage M) (use : Use) (u' : Usage M) : Prop :=
  Step u use u' ∧ Careful use u.kernel

/-- The next state, where the step can happen. -/
def next (use : Use) (u : Usage M) : Option (Usage M) :=
  match use with
  | .service service => (Service.next service u.system).map fun s => { u with system := s }
  | .allocMemory size =>
    if UserRuns u.kernel ∧ u.system.pending u.kernel.processes.currentProcess = none then
      let (address, memory) := MemoryManager.allocMemory size u.kernel.memory
      some {
        system := { u.system with kernel := { u.kernel with memory := memory } }
        held := if address = 0 then u.held else address :: u.held }
    else none
  | .freeMemory address =>
    if UserRuns u.kernel ∧ u.system.pending u.kernel.processes.currentProcess = none ∧
        address ∈ u.held then
      some {
        system := { u.system with
          kernel := { u.kernel with memory := MemoryManager.freeMemory address u.kernel.memory } }
        held := u.held.erase address }
    else none

/-- Run the uses, each under a guard. -/
def exec (guard : Use → Kernel M → Prop) [∀ use k, Decidable (guard use k)] :
    List Use → Usage M → Option (Usage M)
  | [], u => some u
  | use :: uses, u =>
    if guard use u.kernel then (next use u).bind (exec guard uses) else none

variable {u u' : Usage M} {s t : System M} {k k' : Kernel M} {use : Use} {uses : List Use}

theorem step_of_next (found : next use u = some u') : Step u use u' := by
  cases use with
  | service service =>
    obtain ⟨s, served, rfl⟩ := Option.map_eq_some_iff.mp found
    exact .service (Service.step_of_next served)
  | allocMemory size =>
    unfold next at found
    dsimp only at found
    split at found
    · rename_i runs
      cases found
      exact .allocMemory runs.1 runs.2 rfl
    · cases found
  | freeMemory address =>
    unfold next at found
    dsimp only at found
    split at found
    · rename_i runs
      cases found
      exact .freeMemory runs.1 runs.2.1 runs.2.2
    · cases found

theorem run_of_exec {guard : Use → Kernel M → Prop} [∀ use k, Decidable (guard use k)]
    (found : exec guard uses u = some u') :
    Run (fun u use u' => Step u use u' ∧ guard use u.kernel) u uses u' := by
  induction uses generalizing u with
  | nil =>
    cases found
    exact .nil
  | cons use uses ih =>
    unfold exec at found
    split at found
    · rename_i guarded
      obtain ⟨middle, first, rest⟩ := Option.bind_eq_some_iff.mp found
      exact .cons ⟨step_of_next first, guarded⟩ (ih rest)
    · cases found

/-! ## What the steps preserve -/

omit [MemoryManager M] in
/-- A call that leaves the processes alone. -/
structure Aside (s t : System M) : Prop where
  table : TableKept s.kernel t.kernel
  pending : t.pending = s.pending
  exits : t.exits = s.exits

/-- A step is an event, or leaves the processes alone. -/
theorem Step.event_or_aside (step : Step u use u') :
    (∃ label, use = .service (.event label) ∧ System.Step u.system label u'.system) ∨
      Aside u.system u'.system := by
  cases step with
  | service step =>
    cases step with
    | event step => exact .inl ⟨_, rfl, step⟩
    | call _ _ => exact .inr ⟨Service.perform_tableKept _ _, rfl, rfl⟩
  | allocMemory _ _ _ => exact .inr ⟨⟨_, _, _, _, _, rfl⟩, rfl, rfl⟩
  | freeMemory _ _ _ => exact .inr ⟨⟨_, _, _, _, _, rfl⟩, rfl, rfl⟩

/-- What the events and the calls that leave the processes alone preserve, careful runs do. -/
theorem preserves (Inv : System M → Prop) (run : Run CarefulStep u uses u')
    (events : ∀ {s label t}, Inv s → System.Step s label t → Inv t)
    (asides : ∀ {s t}, Inv s → Aside s t → Inv t) (first : Inv u.system) : Inv u'.system := by
  refine run.preserves (fun u => Inv u.system) (fun {u use u'} before step => ?_) first
  rcases step.1.event_or_aside with ⟨label, _, event⟩ | aside
  · exact events before event
  · exact asides before aside

omit [MemoryManager M] in
theorem Aside.settled (aside : Aside s t) (settled : Settled s.kernel) : Settled t.kernel :=
  Service.TableKept.settled aside.table settled

theorem settled_of_run (reusable : NodesReusable M) (booted : Booted k)
    (run : Run CarefulStep (start k) uses u) : Settled u.kernel := by
  obtain ⟨shell, first⟩ := booted.start
  exact preserves (fun s => Settled s.kernel) run
    (fun before step => System.Step.settled step reusable before)
    (fun before aside => aside.settled before) first.settled

end Usage
end SoKernel
