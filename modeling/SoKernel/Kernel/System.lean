import SoKernel.Kernel.Booting
import SoKernel.Lib.Transition

namespace SoKernel
open MemoryManager QueueName Lib Kernel

/-! ## The kernel as a transition system

Interrupts are off inside the kernel: an event runs up to the moment its process
returns to user mode or gives up the processor. -/

/-- The system calls on processes and semaphores. -/
inductive Call where
  | yield
  | createProcess (params : CreationParams)
  | blockProcess (pid : Int)
  | unblockProcess (pid : Int)
  | blockProcessBySem
  | unblockProcessBySem (pid : Int)
  | kill (pid : Int) (retValue : Nat)
  | waitpid (pid : Int)
  | changePrio (pid : Int) (newPrio : Int)
  | semInit (id : Int) (value : Nat)
  | semWait (id : Int)
  | semPost (id : Int)

inductive Event where
  | timerTick
  /-- Ctrl+C kills the foreground process. -/
  | ctrlC
  | call (call : Call)
  /-- The process that slept in `waitpid` runs again. -/
  | resume

/-- An event, and the stack pointer of the code it interrupts. -/
structure Label where
  event : Event
  rsp : Nat

/-- The kernel, the processes that sleep in `waitpid` with the pid they wait for, and
for each killed pid the value given to `kill`. -/
structure System (M : Type) where
  kernel : Kernel M
  pending : Addr → Option Int
  exits : Int → Option Nat

variable {M : Type}

/-- A user process runs. -/
def Kernel.UserRuns (k : Kernel M) : Prop :=
  (k.pcb k.processes.currentProcess).state = .running ∧
    k.processes.currentProcess ≠ k.processes.idleProcess

theorem Kernel.UserRuns.ready {k : Kernel M} (runs : k.UserRuns) (settled : Settled k) :
    k.processes.currentProcess ∈ k.items readyQueue :=
  settled.scheduled.resolve_left runs.2

namespace System

variable [MemoryManager M]

def endProcess (pid : Int) (retValue rsp : Nat) (s : System M) : System M :=
  let (status, k) := Kernel.kill pid retValue rsp s.kernel
  { s with
    kernel := k
    exits := if status = 0 then Function.update s.exits pid (some retValue) else s.exits }

def perform (call : Call) (rsp : Nat) (s : System M) : System M :=
  let k := s.kernel
  match call with
  | .yield => { s with kernel := Kernel.yield rsp k }
  | .createProcess params =>
    { s with
      kernel := (Kernel.createProcess params k).2
      pending := Function.update s.pending (allocMemory pcbSize k.memory).1 none }
  | .blockProcess pid => { s with kernel := (Kernel.blockProcess pid rsp k).2 }
  | .unblockProcess pid => { s with kernel := (Kernel.unblockProcess pid k).2 }
  | .blockProcessBySem => { s with kernel := (Kernel.blockProcessBySem k.getCurrentPid rsp k).2 }
  | .unblockProcessBySem pid => { s with kernel := (Kernel.unblockProcessBySem pid k).2 }
  | .kill pid retValue => s.endProcess pid retValue rsp
  | .waitpid pid =>
    match Kernel.waitpid pid rsp k with
    | (.asleep, after) =>
      { s with
        kernel := after
        pending := Function.update s.pending k.processes.currentProcess (some pid) }
    | (.returned _ _, after) => { s with kernel := after }
  | .changePrio pid newPrio => { s with kernel := (Kernel.changePrio pid newPrio k).2 }
  | .semInit id value => { s with kernel := (Kernel.semInit id value k).2 }
  | .semWait id => { s with kernel := (Kernel.semWait id rsp k).2 }
  | .semPost id => { s with kernel := (Kernel.semPost id k).2 }

/-- A creation gets memory that is not a PCB in use. -/
def Admits (call : Call) (k : Kernel M) : Prop :=
  match call with
  | .createProcess _ => k.FreshPcb
  | _ => True

/-- Events: interrupts at any time, calls by a running user process that is not
inside `waitpid`, and the end of `waitpid`. -/
inductive Step : System M → Label → System M → Prop
  | timerTick {s rsp} :
      Step s ⟨.timerTick, rsp⟩ { s with kernel := callTimerTick rsp s.kernel }
  | ctrlC {s rsp} : Step s ⟨.ctrlC, rsp⟩ (s.endProcess s.kernel.getForegroundPid 1 rsp)
  | call {s rsp call} : UserRuns s.kernel → s.pending s.kernel.processes.currentProcess = none →
      Admits call s.kernel → Step s ⟨.call call, rsp⟩ (s.perform call rsp)
  | resume {s rsp pid} : UserRuns s.kernel →
      s.pending s.kernel.processes.currentProcess = some pid →
      Step s ⟨.resume, rsp⟩ { s with
        kernel := (waitpidResume pid s.kernel.processes.currentProcess s.kernel).2.2
        pending := Function.update s.pending s.kernel.processes.currentProcess none }

/-- The system when `main` has enabled interrupts. -/
def started (k : Kernel M) : System M := ⟨k, fun _ => none, fun _ => none⟩

variable {s t : System M} {label : Label} {labels : List Label}

/-! ## Running it -/

instance (k : Kernel M) : Decidable k.UserRuns := inferInstanceAs (Decidable (_ ∧ _))

instance (call : Call) (k : Kernel M) : Decidable (Admits call k) :=
  match call with
  | .createProcess _ => inferInstanceAs (Decidable (_ ∉ _))
  | .yield | .blockProcess _ | .unblockProcess _ | .blockProcessBySem | .unblockProcessBySem _
  | .kill _ _ | .waitpid _ | .changePrio _ _ | .semInit _ _ | .semWait _ | .semPost _ =>
    inferInstanceAs (Decidable True)

/-- The next state, where the event can happen. -/
def next (label : Label) (s : System M) : Option (System M) :=
  match label.event with
  | .timerTick => some { s with kernel := callTimerTick label.rsp s.kernel }
  | .ctrlC => some (s.endProcess s.kernel.getForegroundPid 1 label.rsp)
  | .call call =>
    if UserRuns s.kernel ∧ s.pending s.kernel.processes.currentProcess = none ∧
        Admits call s.kernel then some (s.perform call label.rsp) else none
  | .resume =>
    match s.pending s.kernel.processes.currentProcess with
    | none => none
    | some pid =>
      if UserRuns s.kernel then
        some { s with
          kernel := (waitpidResume pid s.kernel.processes.currentProcess s.kernel).2.2
          pending := Function.update s.pending s.kernel.processes.currentProcess none }
      else none

def exec : List Label → System M → Option (System M)
  | [], s => some s
  | label :: labels, s => (s.next label).bind (exec labels)

theorem step_of_next (found : s.next label = some t) : Step s label t := by
  obtain ⟨event, rsp⟩ := label
  unfold next at found
  cases event with
  | timerTick =>
    cases found
    exact .timerTick
  | ctrlC =>
    cases found
    exact .ctrlC
  | call call =>
    dsimp only at found
    split at found
    · rename_i guard
      cases found
      exact .call guard.1 guard.2.1 guard.2.2
    · cases found
  | resume =>
    dsimp only at found
    split at found
    · cases found
    · rename_i pid pending
      split at found
      · rename_i runs
        cases found
        exact .resume runs pending
      · cases found

theorem run_of_exec (found : exec labels s = some t) : Run Step s labels t := by
  induction labels generalizing s with
  | nil =>
    cases found
    exact .nil
  | cons label labels ih =>
    obtain ⟨middle, first, rest⟩ := Option.bind_eq_some_iff.mp found
    exact .cons (step_of_next first) (ih rest)

/-! ## The table -/

theorem perform_waitpid {pid : Int} {rsp : Nat} :
    (s.perform (.waitpid pid) rsp).kernel = (Kernel.waitpid pid rsp s.kernel).2 := by
  unfold perform
  dsimp only
  split
  · rename_i same
    rw [same]
  · rename_i same
    rw [same]

theorem Settled.perform {call : Call} {rsp : Nat} (settled : Settled s.kernel)
    (reusable : NodesReusable M) (runs : UserRuns s.kernel)
    (admits : Admits call s.kernel) : Settled (s.perform call rsp).kernel := by
  cases call with
  | yield => exact settled.table.yield reusable
  | createProcess params =>
    exact settled.creates runs.2 (createProcess_creates params settled admits runs.2)
  | blockProcess pid => exact settled.blockProcess reusable
  | unblockProcess pid => exact settled.unblockProcess reusable
  | blockProcessBySem => exact settled.blockProcessBySem reusable
  | unblockProcessBySem pid => exact settled.unblockProcessBySem reusable
  | kill pid retValue => exact settled.kill reusable
  | waitpid pid =>
    rw [perform_waitpid]
    exact settled.waitpid reusable (runs.ready settled)
  | changePrio pid newPrio => exact settled.changePrio
  | semInit id value => exact settled.semInit
  | semWait id => exact settled.semWait reusable
  | semPost id => exact settled.semPost reusable

/-- Every event keeps the table in order. -/
theorem Step.settled (step : Step s label t) (reusable : NodesReusable M)
    (settled : Settled s.kernel) : Settled t.kernel := by
  cases step with
  | timerTick => exact settled.tick reusable
  | ctrlC => exact settled.kill reusable
  | call runs _ admits => exact Settled.perform settled reusable runs admits
  | resume _ _ => exact settled.waitpidResume

theorem Settled.run (run : Run Step s labels t) (reusable : NodesReusable M)
    (settled : Settled s.kernel) : Settled t.kernel :=
  run.preserves (fun s => Settled s.kernel) (fun before step => Step.settled step reusable before)
    settled

end System
end SoKernel
