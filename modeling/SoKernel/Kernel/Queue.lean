import SoKernel.Kernel.State

namespace SoKernel
open MemoryManager

variable {α M : Type} [MemoryManager M]

/-! ## `ds/queue.c`, as lists of nodes -/

/-- `sizeof(Node)` and `sizeof(Queue)`. -/
def nodeSize : Nat := 16
def queueSize : Nat := 24

namespace Queue

def items (queue : Queue α) : List α := queue.map Node.data

/-- The new queue, or `none` where the node cannot be allocated. -/
def enqueue (queue : Queue α) (data : α) (memory : M) : Option (Queue α) × M :=
  let (address, memory) := allocMemory nodeSize memory
  if address = 0 then (none, memory) else (some (queue ++ [⟨address, data⟩]), memory)

def dequeue : Queue α → M → Option (α × Queue α × M)
  | [], _ => none
  | node :: rest, memory => some (node.data, rest, freeMemory node.address memory)

/-- The nodes go first, then the queue at `address`. -/
def freeQueue (address : Addr) : Queue α → M → M
  | [], memory => freeMemory address memory
  | node :: rest, memory => freeQueue address rest (freeMemory node.address memory)

def containsQueue (queue : Queue α) (compare : α → Bool) : Option α :=
  queue.items.find? compare

def removeFromQueue : Queue α → (α → Bool) → M → Option (α × Queue α × M)
  | [], _, _ => none
  | node :: rest, compare, memory =>
    if compare node.data then some (node.data, rest, freeMemory node.address memory)
    else
      match removeFromQueue rest compare memory with
      | none => none
      | some (data, rest, memory) => some (data, node :: rest, memory)

variable {queue rest : Queue α} {compare : α → Bool} {memory memory' : M} {data : α}

@[simp] theorem items_nil : Queue.items ([] : Queue α) = [] := rfl

@[simp] theorem items_cons {node : Node α} :
    Queue.items (node :: queue) = node.data :: queue.items := rfl

@[simp] theorem items_append {other : Queue α} :
    Queue.items (queue ++ other) = queue.items ++ other.items := List.map_append

theorem items_eq_nil : queue.items = [] ↔ queue = [] := List.map_eq_nil_iff

theorem removeFromQueue_eq_none :
    removeFromQueue queue compare memory = none ↔ ∀ data ∈ queue.items, compare data = false := by
  induction queue with
  | nil => simp [removeFromQueue]
  | cons node rest ih =>
    rw [removeFromQueue]
    by_cases found : compare node.data
    · simp [found]
    · rw [if_neg found, items_cons, List.forall_mem_cons, ← ih]
      cases removeFromQueue rest compare memory with
      | none => simp [found]
      | some result => simp

/-- The first match is taken out and its node is freed. -/
theorem removeFromQueue_items [DecidableEq α]
    (removed : removeFromQueue queue compare memory = some (data, rest, memory')) :
    data ∈ queue.items ∧ compare data = true ∧ rest.items = queue.items.erase data ∧
      ∃ address, memory' = freeMemory address memory := by
  induction queue generalizing rest with
  | nil => simp [removeFromQueue] at removed
  | cons node tail ih =>
    rw [removeFromQueue] at removed
    by_cases found : compare node.data
    · rw [if_pos found] at removed
      cases removed
      refine ⟨List.mem_cons_self, found, ?_, node.address, rfl⟩
      rw [items_cons, List.erase_cons_head]
    · rw [if_neg found] at removed
      cases inner : removeFromQueue tail compare memory with
      | none => simp [inner] at removed
      | some result =>
        obtain ⟨first, left, after⟩ := result
        rw [inner] at removed
        cases removed
        obtain ⟨member, matched, erased, freed⟩ := ih inner
        have different : node.data ≠ data := by
          intro same
          rw [same] at found
          exact found matched
        refine ⟨List.mem_cons_of_mem _ member, matched, ?_, freed⟩
        rw [items_cons, items_cons, erased, List.erase_cons_tail]
        simp [different]

end Queue
end SoKernel
