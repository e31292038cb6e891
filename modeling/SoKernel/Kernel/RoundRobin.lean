import SoKernel.Kernel.Usage
import SoKernel.Kernel.Allocators
import SoKernel.Lib.Turns

namespace SoKernel
open MemoryManager QueueName Lib

variable {M : Type}

namespace Kernel

variable {k k' : Kernel M} {rsp j m left : Nat} {next a current : Addr} {rsps : Nat → Nat}

/-! ## What a dispatch does to the ready queue -/

/-- The front of the ready queue goes to the rear. -/
theorem Switched.rotates (switched : Switched rsp k k' next) {rest : List Addr}
    (front : k.items readyQueue = a :: rest) :
    next = a ∧ k'.items readyQueue = rest ++ [a] := by
  rcases switched.turn with ⟨empty, _, _⟩ | ⟨rest', front', rotated⟩
  · rw [front] at empty
    cases empty
  · rw [front] at front'
    cases front'
    refine ⟨rfl, ?_⟩
    rw [rotated]
    simp [push, drop, front]

variable [MemoryManager M]

theorem getNextProcess_current (reusable : NodesReusable M) :
    k.getNextProcess.2.processes.currentProcess = k.getNextProcess.1 := by
  rcases getNextProcess_cases (k := k) reusable with ⟨_, chosen⟩ | ⟨next, _, k', _, _, chosen⟩
  · rw [chosen]
    rfl
  · rw [chosen]
    dsimp only
    split
    · rfl
    · rfl

/-- Who gets the processor gets the whole quantum of its priority. -/
theorem callTimerTick_quantum (reusable : NodesReusable M) (leaves : ¬ k.Stays)
    (switched : Switched rsp k (callTimerTick rsp k) next) :
    (callTimerTick rsp k).quantum = calculateQuantum (k.pcb next).priority := by
  have current : (callTimerTick rsp k).processes.currentProcess = next := switched.current
  have record := switched.pcb next
  unfold callTimerTick at current record ⊢
  rw [schedule_leaves leaves] at current record ⊢
  have chosen : (k.leave rsp).getNextProcess.1 = next :=
    (getNextProcess_current reusable).symm.trans current
  rw [chosen] at record ⊢
  change calculateQuantum (((k.leave rsp).getNextProcess.2.setState next .running).pcb next).priority
    = _
  have same : ((k.leave rsp).getNextProcess.2.setState next .running).pcb next =
      afterSwitch rsp next k next := record
  rw [same]
  rfl

/-! ## Timer ticks with nothing in between -/

/-- After `m` ticks; `rsps` are the stack pointers of the code that they interrupt. -/
def ticks (rsps : Nat → Nat) (k : Kernel M) : Nat → Kernel M
  | 0 => k
  | m + 1 => callTimerTick (rsps m) (ticks rsps k m)

/-- The calls of `schedule` in the slice of a process, the one that ends it included. -/
def slice (k : Kernel M) (a : Addr) : Nat := calculateQuantum (k.pcb a).priority + 1

/-- After `j` dispatches the ready queue has turned `j` times. -/
structure Turned (k : Kernel M) (j : Nat) (k' : Kernel M) : Prop where
  settled : Settled k'
  items : k'.items readyQueue = (k.items readyQueue).rotate j
  runs : (k'.pcb k'.processes.currentProcess).state = .running
  ready : k'.processes.currentProcess ∈ k'.items readyQueue
  priority : ∀ a, (k'.pcb a).priority = (k.pcb a).priority
  idle : k'.processes.idleProcess = k.processes.idleProcess

/-- Between two dispatches the quantum counts down. -/
theorem Turned.stays (turned : Turned k j k') (rsp : Nat) (reusable : NodesReusable M)
    (more : k'.quantum = left + 1) : Turned k j (callTimerTick rsp k') ∧
      (callTimerTick rsp k').quantum = left ∧
      (callTimerTick rsp k').processes.currentProcess = k'.processes.currentProcess := by
  have stays : k'.Stays := ⟨by omega, turned.runs⟩
  have settled : Settled (callTimerTick rsp k') := turned.settled.tick reusable
  rcases callTimerTick_cases rsp k' reusable with ⟨_, same⟩ | ⟨leaves, _⟩
  · rw [same] at settled ⊢
    refine ⟨⟨settled, turned.items, turned.runs, turned.ready, turned.priority, turned.idle⟩, ?_,
      rfl⟩
    simp [more]
  · exact absurd stays leaves

/-- A dispatch gives the next in the queue its slice. -/
theorem Turned.switches (turned : Turned k j k') (rsp : Nat) (reusable : NodesReusable M)
    (some : k.items readyQueue ≠ []) (done : k'.quantum = 0) :
    Turned k (j + 1) (callTimerTick rsp k') ∧
      (callTimerTick rsp k').processes.currentProcess = turn (k.items readyQueue) j ∧
      slice k (turn (k.items readyQueue) j) = (callTimerTick rsp k').quantum + 1 := by
  have leaves : ¬ k'.Stays := by
    rintro ⟨more, _⟩
    omega
  obtain ⟨next, switched⟩ := schedule_switches rsp reusable leaves
  obtain ⟨rest, front, rear⟩ := rotate_front (j := j) some
  rw [← turned.items] at front
  obtain ⟨chosen, rotated⟩ := switched.rotates front
  have current := switched.current
  have quantum := callTimerTick_quantum reusable leaves switched
  have priority : ∀ a, ((callTimerTick rsp k').pcb a).priority = (k.pcb a).priority := by
    intro a
    rw [switched.pcb]
    exact turned.priority a
  refine ⟨⟨turned.settled.tick reusable, rotated.trans rear.symm, ?_, ?_, priority,
    switched.idle.trans turned.idle⟩, current.trans chosen, ?_⟩
  · rw [current, switched.state, if_pos rfl]
  · rw [current, rotated, chosen]
    simp
  · rw [quantum, chosen, turned.priority]
    rfl

/-- The ready process that runs is served like the others, after what is left of its slice. -/
theorem ticks_serving (rsps : Nat → Nat) (settled : Settled k) (reusable : NodesReusable M)
    (runs : (k.pcb k.processes.currentProcess).state = .running)
    (ready : k.processes.currentProcess ∈ k.items readyQueue) (m : Nat) :
    ∃ j, Turned k j (ticks rsps k m) ∧
      Serving (k.items readyQueue) k.slice k.quantum k.processes.currentProcess m j
        (ticks rsps k m).processes.currentProcess (ticks rsps k m).quantum := by
  have some : k.items readyQueue ≠ [] := List.ne_nil_of_mem ready
  induction m with
  | zero =>
    refine ⟨0, ⟨settled, ?_, runs, ready, fun _ => rfl, rfl⟩, .begin⟩
    exact (List.rotate_zero _).symm
  | succ m ih =>
    obtain ⟨j, turned, serving⟩ := ih
    cases quantum : (ticks rsps k m).quantum with
    | zero =>
      rw [quantum] at serving
      obtain ⟨turned', current, length⟩ := turned.switches (rsps m) reusable some quantum
      refine ⟨j + 1, turned', ?_⟩
      have switched := serving.switches length
      rw [← current] at switched
      exact switched
    | succ left =>
      rw [quantum] at serving
      obtain ⟨turned', fewer, same⟩ := turned.stays (rsps m) reusable quantum
      refine ⟨j, turned', ?_⟩
      have stayed := serving.stays
      rw [← fewer, ← same] at stayed
      exact stayed

/-! ## Round-robin -/

/-- The call of `schedule` that makes the `j`-th dispatch. -/
def dispatch (k : Kernel M) (j : Nat) : Nat := due (k.items readyQueue) k.slice k.quantum j

/-- What any number of ticks from `k` does. -/
structure RoundRobin (rsps : Nat → Nat) (k : Kernel M) : Prop where
  /-- Until the first dispatch the current process keeps the processor. -/
  first : k.dispatch 0 = k.quantum ∧ ∀ m ≤ k.quantum,
    (ticks rsps k m).processes.currentProcess = k.processes.currentProcess
  /-- Dispatches follow the order of the queue, and begin anew at its end. -/
  cyclic : ∀ j, (ticks rsps k (k.dispatch j + 1)).processes.currentProcess =
    turn (k.items readyQueue) j
  /-- These are all of them. -/
  dispatches : ∀ m, ¬ (ticks rsps k m).Stays ↔ ∃ j, m = k.dispatch j
  /-- Each of any `n` dispatches in a row is of another ready process. -/
  once : ∀ j, ((List.range (k.items readyQueue).length).map fun i =>
      (ticks rsps k (k.dispatch (j + i) + 1)).processes.currentProcess).Perm (k.items readyQueue) ∧
    (k.items readyQueue).Nodup
  /-- The process that is dispatched keeps the processor for its slice. -/
  slices : ∀ j, k.dispatch (j + 1) = k.dispatch j +
      (calculateQuantum (k.pcb (turn (k.items readyQueue) j)).priority + 1) ∧
    ∀ m, k.dispatch j < m → m ≤ k.dispatch (j + 1) →
      (ticks rsps k m).processes.currentProcess = turn (k.items readyQueue) j
  runs : ∀ m, ((ticks rsps k m).pcb (ticks rsps k m).processes.currentProcess).state = .running
  idle : ∀ m, (ticks rsps k m).processes.currentProcess ≠ k.processes.idleProcess
  /-- No ready process waits for longer than the others may run. -/
  waits : ∀ m, ∀ a ∈ (ticks rsps k m).items readyQueue, ∃ d, 0 < d ∧
    d ≤ (ticks rsps k m).quantum + 1 +
      ((((ticks rsps k m).items readyQueue).erase a).map (ticks rsps k m).slice).sum ∧
    (ticks rsps k (m + d)).processes.currentProcess = a

omit [MemoryManager M] in
theorem slice_positive (a : Addr) : 0 < k.slice a := Nat.succ_pos _

theorem Settled.roundRobin (settled : Settled k) (reusable : NodesReusable M)
    (runs : (k.pcb k.processes.currentProcess).state = .running)
    (ready : k.processes.currentProcess ∈ k.items readyQueue) : RoundRobin rsps k := by
  have some : k.items readyQueue ≠ [] := List.ne_nil_of_mem ready
  have served := ticks_serving rsps settled reusable runs ready
  have order : StrictMono k.dispatch := due_strictMono slice_positive
  have keeps : ∀ j m, k.dispatch j < m → m ≤ k.dispatch (j + 1) →
      (ticks rsps k m).processes.currentProcess = turn (k.items readyQueue) j := by
    intro j m after before
    obtain ⟨_, _, serving⟩ := served m
    exact (serving.at_turn slice_positive after before).2
  have cyclic : ∀ j, (ticks rsps k (k.dispatch j + 1)).processes.currentProcess =
      turn (k.items readyQueue) j := fun j =>
    keeps j _ (Nat.lt_succ_self _) (order (Nat.lt_succ_self j))
  refine ⟨⟨rfl, ?_⟩, cyclic, ?_, ?_, fun j => ⟨rfl, keeps j⟩, ?_, ?_, ?_⟩
  · intro m early
    obtain ⟨_, _, serving⟩ := served m
    exact (serving.before_first slice_positive early).2
  · intro m
    obtain ⟨j, turned, serving⟩ := served m
    rw [show (∃ j, m = k.dispatch j) ↔ _ from (serving.due_iff slice_positive).symm]
    constructor
    · intro leaves
      by_contra more
      exact leaves ⟨Nat.pos_iff_ne_zero.mpr more, turned.runs⟩
    · rintro done ⟨more, _⟩
      omega
  · intro j
    refine ⟨?_, settled.table.exclusive.nodup readyQueue⟩
    simp only [cyclic]
    rw [turns_eq_rotate]
    exact List.rotate_perm _ _
  · intro m
    obtain ⟨_, turned, _⟩ := served m
    exact turned.runs
  · intro m same
    obtain ⟨_, turned, _⟩ := served m
    have idle := turned.ready
    rw [same, ← turned.idle] at idle
    exact turned.settled.table.idleAlone readyQueue idle
  · intro m a member
    obtain ⟨j, turned, serving⟩ := served m
    rw [turned.items] at member ⊢
    have slices : (ticks rsps k m).slice = k.slice := by
      funext b
      unfold slice
      rw [turned.priority]
    obtain ⟨i, mine, soon⟩ := due_within k.slice k.quantum j (List.mem_rotate.mp member)
    have others : ((((k.items readyQueue).rotate j).erase a).map k.slice).sum =
        (((k.items readyQueue).erase a).map k.slice).sum :=
      (((List.rotate_perm _ j).erase a).map k.slice).sum_eq
    have later : k.dispatch j ≤ k.dispatch (j + i) := order.monotone (Nat.le_add_right j i)
    have time : m + (ticks rsps k m).quantum = k.dispatch j := serving.time
    refine ⟨k.dispatch (j + i) + 1 - m, by omega, ?_, ?_⟩
    · rw [slices, others]
      change k.dispatch (j + i) ≤ k.dispatch j + _ at soon
      omega
    · rw [show m + (k.dispatch (j + i) + 1 - m) = k.dispatch (j + i) + 1 by omega, cyclic, mine]

end Kernel

open Kernel SoKernel.System

variable [MemoryManager M]

end SoKernel
