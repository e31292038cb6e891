import Mathlib.Tactic
import SoKernel.Kernel.PipeSlots

namespace SoKernel
open MemoryManager QueueName Lib Kernel SoKernel.System

variable {M : Type}

/-! ## Events and the calls on pipes together -/

/-- What `readPipe`, `writePipe` and `clearPipe` do to a buffer between their semaphores. -/
inductive BufferMove where
  | take
  | put (byte : UInt8)
  | clear

def BufferMove.apply (move : BufferMove) (pipe : Pipe) : Pipe :=
  match move with
  | .take => (pipe.takeByte.map Prod.snd).getD pipe
  | .put byte => (pipe.putByte byte).getD pipe
  | .clear => pipe.reset

inductive PipeService where
  | semClose (id : Int)
  | createPipe
  | closePipe (id : Int)
  | buffer (slot : Nat) (move : BufferMove)

inductive Service where
  | event (label : Label)
  | call (service : PipeService)

namespace Service

variable [MemoryManager M]

def perform (service : PipeService) (k : Kernel M) : Kernel M :=
  match service with
  | .semClose id => (semClose id k).2
  | .createPipe => (createPipe k).2
  | .closePipe id => (closePipe id k).2
  | .buffer slot move => k.editPipe slot move.apply

/-- The calls are those of a running user process that is not inside `waitpid`. -/
inductive Step : System M → Service → System M → Prop
  | event {s label t} : System.Step s label t → Step s (.event label) t
  | call {s service} : UserRuns s.kernel → s.pending s.kernel.processes.currentProcess = none →
      Step s (.call service) { s with kernel := perform service s.kernel }

/-- The next state, where the event can happen. -/
def next (service : Service) (s : System M) : Option (System M) :=
  match service with
  | .event label => s.next label
  | .call service =>
    if UserRuns s.kernel ∧ s.pending s.kernel.processes.currentProcess = none then
      some { s with kernel := perform service s.kernel }
    else none

/-- Run the events, each under a guard. -/
def exec (guard : Service → System M → Prop) [∀ service s, Decidable (guard service s)] :
    List Service → System M → Option (System M)
  | [], s => some s
  | service :: services, s =>
    if guard service s then (next service s).bind (exec guard services) else none

variable {s t : System M} {k k₀ : Kernel M} {service : Service} {services : List Service}

theorem step_of_next (found : next service s = some t) : Step s service t := by
  cases service with
  | event label => exact .event (System.step_of_next found)
  | call service =>
    unfold next at found
    dsimp only at found
    split at found
    · rename_i runs
      cases found
      exact .call runs.1 runs.2
    · cases found

theorem run_of_exec {guard : Service → System M → Prop} [∀ service s, Decidable (guard service s)]
    (found : exec guard services s = some t) :
    Run (fun s service t => Step s service t ∧ guard service s) s services t := by
  induction services generalizing s with
  | nil =>
    cases found
    exact .nil
  | cons service services ih =>
    unfold exec at found
    split at found
    · rename_i guarded
      obtain ⟨middle, first, rest⟩ := Option.bind_eq_some_iff.mp found
      exact .cons ⟨step_of_next first, guarded⟩ (ih rest)
    · cases found

/-! ## The table and the pipes -/

theorem semClose_tableKept (id : Int) (k : Kernel M) : TableKept k (semClose id k).2 := by
  unfold semClose
  split
  · exact .refl
  · split
    · exact ⟨_, _, _, _, _, rfl⟩
    · exact .refl

theorem closePipe_tableKept (id : Int) (k : Kernel M) : TableKept k (closePipe id k).2 := by
  have ready : TableKept k k.ensurePipeManagerInit := by
    unfold ensurePipeManagerInit
    split
    · exact .refl
    · exact ⟨_, _, _, _, _, rfl⟩
  unfold closePipe
  dsimp only
  split
  · exact ready
  · split
    · exact ready
    · exact (ready.trans ((semClose_tableKept _ _).trans ((semClose_tableKept _ _).trans
        (semClose_tableKept _ _)))).trans ⟨_, _, _, _, _, rfl⟩

theorem perform_tableKept (service : PipeService) (k : Kernel M) :
    TableKept k (perform service k) := by
  cases service with
  | semClose id => exact semClose_tableKept id k
  | createPipe => exact (createPipe_kept k).1
  | closePipe id => exact closePipe_tableKept id k
  | buffer slot move => exact ⟨_, _, _, _, _, rfl⟩

omit [MemoryManager M] in
theorem TableKept.settled (kept : TableKept k₀ k) (settled : Settled k₀) : Settled k := by
  obtain ⟨_, _, _, _, _, rfl⟩ := kept
  exact ⟨settled.table.congr rfl rfl rfl rfl rfl rfl rfl, settled.scheduled, settled.dispatched⟩

theorem perform_ready (service : PipeService) (ready : k.pipeManagerInit = true) :
    (perform service k).pipeManagerInit = true := by
  cases service with
  | semClose id => exact (Plumbing.semClose_kept id k).2.2.1.trans ready
  | createPipe =>
    have creates := createPipe_creates ready
    unfold perform
    dsimp only
    generalize createPipe k = result at creates ⊢
    cases creates with
    | full _ => exact ready
    | opens _ _ _ _ opens => exact opens.pipeManagerInit.trans ready
  | closePipe id =>
    have closes := Plumbing.closePipe_closes id ready
    unfold perform
    dsimp only
    generalize closePipe id k = result at closes ⊢
    cases closes with
    | refused _ => exact ready
    | closed _ _ _ _ kept _ => exact kept.trans ready
  | buffer slot move => exact ready

/-- The process table is in order, and the pipes have been initialised. -/
structure InOrder (s : System M) : Prop where
  settled : Settled s.kernel
  ready : s.kernel.pipeManagerInit = true

theorem Step.inOrder (step : Step s service t) (reusable : NodesReusable M) (inOrder : InOrder s) :
    InOrder t := by
  cases step with
  | event step =>
    refine ⟨System.Step.settled step reusable inOrder.settled, ?_⟩
    have same := congrArg (fun state => state.2.2) (System.Step.pipeState step inOrder.settled)
    exact same.trans inOrder.ready
  | call _ _ =>
    exact ⟨TableKept.settled (perform_tableKept _ _) inOrder.settled,
      perform_ready _ inOrder.ready⟩

theorem started_inOrder (booted : Booted k) : InOrder (started k) := by
  obtain ⟨shell, first⟩ := booted.start
  exact ⟨first.settled, booted.pipes.ready⟩

end Service
end SoKernel
