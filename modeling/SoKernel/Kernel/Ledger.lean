import SoKernel.Kernel.TableInvariant
import Mathlib.Algebra.BigOperators.Group.Finset.Basic
import Mathlib.Algebra.Order.Group.Multiset
import Mathlib.Data.Fintype.Defs

namespace SoKernel
open MemoryManager QueueName Lib

instance : Fintype QueueName where
  elems := {readyQueue, blockedQueue, blockedQueueBySem, zombieQueue}
  complete name := by cases name <;> decide

variable {M : Type}

/-- An address with the size that was asked for. -/
abbrev Block := Addr × Nat

/-- The books of an allocator: the blocks handed out and not freed, and the bytes that it
reports as used. They are kept as long as the memory is `clean`. -/
structure Books (M : Type) [MemoryManager M] where
  clean : M → Prop
  live : M → Multiset Block
  charge : Nat → Nat
  usedMemory : M → Nat
  beforeAlloc : ∀ {size memory}, clean (allocMemory size memory).2 → clean memory
  beforeFree : ∀ {a memory}, clean (freeMemory a memory) → clean memory
  granted : ∀ {size memory}, clean (allocMemory size memory).2 → (allocMemory size memory).1 ≠ 0 →
    live (allocMemory size memory).2 = ((allocMemory size memory).1, size) ::ₘ live memory
  refused : ∀ {size memory}, clean (allocMemory size memory).2 → (allocMemory size memory).1 = 0 →
    live (allocMemory size memory).2 = live memory
  freed : ∀ {a size memory}, clean (freeMemory a memory) → (a, size) ∈ live memory →
    live (freeMemory a memory) = (live memory).erase (a, size)
  reported : ∀ {memory}, clean memory →
    usedMemory memory = ((live memory).map fun block => charge block.2).sum

/-- The blocks of the nodes of a queue. -/
def nodeBlocks {α : Type} (queue : Queue α) : Multiset Block :=
  (queue : Multiset (Node α)).map fun node => (node.address, nodeSize)

@[simp] theorem nodeBlocks_nil {α : Type} : nodeBlocks ([] : Queue α) = 0 := rfl

@[simp] theorem nodeBlocks_cons {α : Type} {node : Node α} {queue : Queue α} :
    nodeBlocks (node :: queue) = (node.address, nodeSize) ::ₘ nodeBlocks queue := rfl

@[simp] theorem nodeBlocks_append {α : Type} {first second : Queue α} :
    nodeBlocks (first ++ second) = nodeBlocks first + nodeBlocks second := by
  unfold nodeBlocks
  rw [← Multiset.coe_add, Multiset.map_add]

/-- The stack goes when the process becomes a zombie. -/
def stackBlocks (pcb : PCB) : Multiset Block :=
  if pcb.state = .zombie then 0 else {(pcb.base - stackSize, stackSize)}

theorem stackBlocks_zombie {pcb : PCB} (dead : pcb.state = .zombie) : stackBlocks pcb = 0 :=
  if_pos dead

theorem stackBlocks_alive {pcb : PCB} (alive : pcb.state ≠ .zombie) :
    stackBlocks pcb = {(pcb.base - stackSize, stackSize)} := if_neg alive

theorem stackBlocks_congr {pcb pcb' : PCB} (base : pcb'.base = pcb.base)
    (dead : pcb'.state = .zombie ↔ pcb.state = .zombie) : stackBlocks pcb' = stackBlocks pcb := by
  unfold stackBlocks
  simp only [base, dead]

namespace Kernel

/-- The blocks of the nodes of the four queues. -/
def queueBlocks (k : Kernel M) : Multiset Block := ∑ name, nodeBlocks (k.processes.queue name)

/-- The blocks of the PCBs, with their stacks. -/
def processBlocks (k : Kernel M) : Multiset Block :=
  ∑ a ∈ k.pcbs, ((a, pcbSize) ::ₘ stackBlocks (k.pcb a))

/-- The blocks that the process table points to. -/
def owned (k : Kernel M) : Multiset Block := k.queueBlocks + k.processBlocks

variable {k k' : Kernel M} {a b : Addr} {pid : Int} {name qFrom qTo : QueueName} {rsp size : Nat}
variable {change : PCB → PCB} {memory memory' : M} {rest extra others : Multiset Block}

/-! ## What each edit does to the blocks -/

theorem queueBlocks_split (name : QueueName) (k : Kernel M) :
    ∃ others, k.queueBlocks = others + nodeBlocks (k.processes.queue name) ∧
      ∀ (memory : M) (queue : Queue Addr),
        ({ k with memory := memory }.setQueue name queue).queueBlocks =
          others + nodeBlocks queue := by
  refine ⟨∑ other ∈ Finset.univ.erase name, nodeBlocks (k.processes.queue other), ?_, ?_⟩
  · exact (Finset.sum_erase_add _ _ (Finset.mem_univ name)).symm
  · intro memory queue
    have here : ({ k with memory := memory }.setQueue name queue).processes.queue name = queue :=
      Function.update_self _ _ _
    unfold queueBlocks
    rw [← Finset.sum_erase_add _ _ (Finset.mem_univ name), here]
    congr 1
    apply Finset.sum_congr rfl
    intro other member
    change nodeBlocks (Function.update k.processes.queue name queue other) = _
    rw [Function.update_of_ne (Finset.ne_of_mem_erase member)]

theorem processBlocks_congr (pcbs : k'.pcbs = k.pcbs)
    (stack : ∀ a ∈ k.pcbs, stackBlocks (k'.pcb a) = stackBlocks (k.pcb a)) :
    k'.processBlocks = k.processBlocks := by
  unfold processBlocks
  rw [pcbs]
  apply Finset.sum_congr rfl
  intro a member
  rw [stack a member]

theorem processBlocks_split (member : a ∈ k.pcbs) :
    k.processBlocks = (∑ b ∈ k.pcbs.erase a, ((b, pcbSize) ::ₘ stackBlocks (k.pcb b))) +
      ((a, pcbSize) ::ₘ stackBlocks (k.pcb a)) :=
  (Finset.sum_erase_add _ _ member).symm

/-- The balance: what is live is what the process table points to, and the rest. -/
def Balanced [MemoryManager M] (books : Books M) (rest : Multiset Block) (k : Kernel M) : Prop :=
  books.clean k.memory → books.live k.memory = rest + k.owned

variable [MemoryManager M] {books : Books M}

/-- Nothing that the balance is about has changed. -/
theorem Balanced.congr (balanced : Balanced books rest k) (memory : k'.memory = k.memory)
    (queue : k'.processes.queue = k.processes.queue) (pcbs : k'.pcbs = k.pcbs)
    (stack : ∀ a ∈ k.pcbs, stackBlocks (k'.pcb a) = stackBlocks (k.pcb a)) :
    Balanced books rest k' := by
  intro clean
  rw [memory] at clean ⊢
  rw [balanced clean]
  unfold owned queueBlocks
  rw [queue, processBlocks_congr pcbs stack]

theorem Balanced.editPcb (balanced : Balanced books rest k)
    (kept : stackBlocks (change (k.pcb a)) = stackBlocks (k.pcb a)) :
    Balanced books rest (k.editPcb a change) := by
  have stack : ∀ b ∈ k.pcbs, stackBlocks ((k.editPcb a change).pcb b) = stackBlocks (k.pcb b) := by
    intro b _
    rw [editPcb_pcb]
    split
    · rename_i same
      rw [same]
      exact kept
    · rfl
  exact balanced.congr rfl rfl rfl stack

/-! ## Requests for other memory -/

theorem Balanced.granted (balanced : Balanced books rest k)
    (some : (allocMemory size k.memory).1 ≠ 0) :
    Balanced books (((allocMemory size k.memory).1, size) ::ₘ rest)
      { k with memory := (allocMemory size k.memory).2 } := by
  intro clean
  change books.live (allocMemory size k.memory).2 = _ + k.owned
  rw [books.granted clean some, balanced (books.beforeAlloc clean), Multiset.cons_add]

theorem Balanced.refused (balanced : Balanced books rest k)
    (none : (allocMemory size k.memory).1 = 0) :
    Balanced books rest { k with memory := (allocMemory size k.memory).2 } := by
  intro clean
  change books.live (allocMemory size k.memory).2 = rest + k.owned
  rw [books.refused clean none, balanced (books.beforeAlloc clean)]

theorem Balanced.freed (balanced : Balanced books ((a, size) ::ₘ rest) k) :
    Balanced books rest { k with memory := freeMemory a k.memory } := by
  intro clean
  have live := balanced (books.beforeFree clean)
  rw [Multiset.cons_add] at live
  have member : (a, size) ∈ books.live k.memory := by
    rw [live]
    exact Multiset.mem_cons_self _ _
  change books.live (freeMemory a k.memory) = rest + k.owned
  rw [books.freed clean member, live, Multiset.erase_cons_head]

/-! ## The queues -/

/-- A request that adds nodes to a queue, or takes them off, keeps the balance. -/
theorem Balanced.setQueue (balanced : Balanced books rest k) (memory : M) (queue : Queue Addr)
    (before : books.clean memory → books.clean k.memory)
    (kept : ∀ others, books.clean memory →
      books.live k.memory = others + nodeBlocks (k.processes.queue name) →
      books.live memory = others + nodeBlocks queue) :
    Balanced books rest ({ k with memory := memory }.setQueue name queue) := by
  intro clean
  change books.clean memory at clean
  obtain ⟨others, whole, changed⟩ := queueBlocks_split name k
  have live := balanced (before clean)
  unfold owned at live ⊢
  rw [whole] at live
  rw [changed]
  change books.live memory = rest + (others + nodeBlocks queue + k.processBlocks)
  rw [kept (rest + others + k.processBlocks) clean (by rw [live]; ac_rfl)]
  ac_rfl

theorem Balanced.enqueueProcess (balanced : Balanced books rest k) (name : QueueName) (a : Addr) :
    Balanced books rest (k.enqueueProcess name a).2 := by
  unfold Kernel.enqueueProcess Queue.enqueue
  dsimp only
  by_cases none : (allocMemory nodeSize k.memory).1 = 0
  · rw [if_pos none]
    intro clean
    change books.live (allocMemory nodeSize k.memory).2 = rest + k.owned
    rw [books.refused clean none]
    exact balanced (books.beforeAlloc clean)
  · rw [if_neg none]
    apply balanced.setQueue _ _ books.beforeAlloc
    intro others clean live
    rw [books.granted clean none, live, nodeBlocks_append, nodeBlocks_cons, nodeBlocks_nil,
      Multiset.cons_zero, ← Multiset.singleton_add]
    ac_rfl

theorem freed_node (books : Books M) {queue : Queue Addr} {node : Node Addr}
    (clean : books.clean (freeMemory node.address memory))
    (live : books.live memory = others + nodeBlocks (node :: queue)) :
    books.live (freeMemory node.address memory) = others + nodeBlocks queue := by
  have whole : books.live memory =
      (node.address, nodeSize) ::ₘ (others + nodeBlocks queue) := by
    rw [live, nodeBlocks_cons, Multiset.add_cons]
  have member : (node.address, nodeSize) ∈ books.live memory := by
    rw [whole]
    exact Multiset.mem_cons_self _ _
  rw [books.freed clean member, whole, Multiset.erase_cons_head]

theorem removeFromQueue_node {queue queue' : Queue Addr} {compare : Addr → Bool}
    (removed : queue.removeFromQueue compare memory = some (a, queue', memory')) :
    ∃ node : Node Addr, memory' = freeMemory node.address memory ∧
      nodeBlocks queue = nodeBlocks (node :: queue') := by
  induction queue generalizing queue' with
  | nil => simp [Queue.removeFromQueue] at removed
  | cons node tail ih =>
    rw [Queue.removeFromQueue] at removed
    by_cases found : compare node.data
    · rw [if_pos found] at removed
      cases removed
      exact ⟨node, rfl, rfl⟩
    · rw [if_neg found] at removed
      cases inner : Queue.removeFromQueue tail compare memory with
      | none => simp [inner] at removed
      | some result =>
        obtain ⟨first, left, after⟩ := result
        rw [inner] at removed
        cases removed
        obtain ⟨other, freed, blocks⟩ := ih inner
        refine ⟨other, freed, ?_⟩
        rw [nodeBlocks_cons, blocks, nodeBlocks_cons, nodeBlocks_cons, nodeBlocks_cons]
        exact Multiset.cons_swap _ _ _

theorem Balanced.remove {queue : Queue Addr} {compare : Addr → Bool}
    (balanced : Balanced books rest k)
    (removed : (k.processes.queue name).removeFromQueue compare k.memory = some (a, queue, memory)) :
    Balanced books rest ({ k with memory := memory }.setQueue name queue) := by
  obtain ⟨node, rfl, blocks⟩ := removeFromQueue_node removed
  apply balanced.setQueue _ _ books.beforeFree
  intro others clean live
  rw [blocks] at live
  exact freed_node books clean live

theorem Balanced.switchProcess (balanced : Balanced books rest k) (qFrom qTo : QueueName)
    (pid : Int) : Balanced books rest (switchProcess qFrom qTo pid k).2 := by
  unfold Kernel.switchProcess
  cases removed : (k.processes.queue qFrom).removeFromQueue (k.hasPid pid) k.memory with
  | none => exact balanced
  | some result =>
    obtain ⟨process, queue, memory⟩ := result
    have taken := (balanced.remove removed).enqueueProcess qTo process
    dsimp only
    split
    · exact taken
    · exact taken.enqueueProcess _ _

theorem Balanced.setCurrent (balanced : Balanced books rest k) (a : Addr) :
    Balanced books rest (k.setCurrent a) :=
  balanced.congr rfl rfl rfl fun _ _ => rfl

theorem Balanced.setForeground (balanced : Balanced books rest k) (a : Addr) :
    Balanced books rest (k.setForeground a) :=
  balanced.congr rfl rfl rfl fun _ _ => rfl

theorem Balanced.getNextProcess (balanced : Balanced books rest k) :
    Balanced books rest k.getNextProcess.2 := by
  unfold Kernel.getNextProcess
  cases nodes : k.processes.queue readyQueue with
  | nil => exact balanced.setCurrent _
  | cons node tail =>
    have taken : Balanced books rest
        ({ k with memory := freeMemory node.address k.memory }.setQueue readyQueue tail) := by
      apply balanced.setQueue _ _ books.beforeFree
      intro others clean live
      rw [nodes] at live
      exact freed_node books clean live
    have rotated := taken.enqueueProcess readyQueue node.data
    simp only [Queue.dequeue]
    split
    · exact rotated
    · split
      · exact (rotated.setCurrent _).setForeground _
      · exact rotated.setCurrent _

end Kernel
end SoKernel
