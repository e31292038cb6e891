import SoKernel.Kernel.Queue
import SoKernel.Lib.Segment
import SoKernel.Memory.Buddy

namespace SoKernel.QueueNodes
open Lib

/-! ## Memory -/

/-- `struct Queue`. -/
structure QueueCell where
  front : Addr
  rear : Addr
  size : Int32

/-- What an allocated block holds. -/
inductive Block
  | node (data next : Addr)
  | queue (cell : QueueCell)
  | array (items : List Addr)

/-- The blocks that are allocated; to use any other memory is an error. -/
structure Heap where
  block : Addr → Option Block
  null : block 0 = none
  below : ∀ a, block a ≠ none → a < heapEndAddress

def nodeAt (block : Addr → Option Block) (a : Addr) : Option (Addr × Addr) :=
  match block a with
  | some (.node data next) => some (data, next)
  | _ => none

/-- Where `allocMemory` finds a block, or `0`, and what is in it before it is written. -/
structure Allocator where
  allocMemory : Nat → Heap → Addr
  garbage : Nat → Heap → Nat → Addr
  fresh : ∀ size (heap : Heap), heap.block (allocMemory size heap) = none
  below : ∀ size (heap : Heap), allocMemory size heap < heapEndAddress

namespace Heap

def put (heap : Heap) (a : Addr) (block : Block) (nonnull : a ≠ 0) (low : a < heapEndAddress) :
    Heap where
  block := Function.update heap.block a (some block)
  null := by rw [Function.update_of_ne nonnull.symm, heap.null]
  below b live := by
    by_cases same : b = a
    · rw [same]
      exact low
    · rw [Function.update_of_ne same] at live
      exact heap.below b live

def allocate (heap : Heap) (memory : Allocator) (size : Nat) (block : (Nat → Addr) → Block) :
    Addr × Heap :=
  let address := memory.allocMemory size heap
  if fails : address = 0 then (0, heap)
  else (address,
    heap.put address (block (memory.garbage size heap)) fails (memory.below size heap))

theorem nonnull {heap : Heap} {a : Addr} (live : heap.block a ≠ none) : a ≠ 0 := by
  rintro rfl
  exact live heap.null

def write (heap : Heap) (a : Addr) (block : Block) : Option Heap :=
  match live : heap.block a with
  | none => none
  | some _ =>
    have live : heap.block a ≠ none := by
      rw [live]
      exact Option.some_ne_none _
    some (heap.put a block (nonnull live) (heap.below a live))

def freeMemory (heap : Heap) (a : Addr) : Option Heap :=
  match heap.block a with
  | none => none
  | some _ => some {
      block := Function.update heap.block a none
      null := by
        rw [Function.update_apply, heap.null]
        exact ite_self _
      below := fun b live => by
        by_cases same : b = a
        · rw [same, Function.update_self] at live
          exact absurd rfl live
        · rw [Function.update_of_ne same] at live
          exact heap.below b live }

/-- The data and the next node of a node. -/
def node (heap : Heap) (a : Addr) : Option (Addr × Addr) := nodeAt heap.block a

def queue (heap : Heap) (a : Addr) : Option QueueCell :=
  match heap.block a with
  | some (.queue cell) => some cell
  | _ => none

def array (heap : Heap) (a : Addr) : Option (List Addr) :=
  match heap.block a with
  | some (.array items) => some items
  | _ => none

def setData (heap : Heap) (a data : Addr) : Option Heap :=
  (heap.node a).bind fun node => heap.write a (.node data node.2)

def setNext (heap : Heap) (a next : Addr) : Option Heap :=
  (heap.node a).bind fun node => heap.write a (.node node.1 next)

def setQueue (heap : Heap) (a : Addr) (change : QueueCell → QueueCell) : Option Heap :=
  (heap.queue a).bind fun cell => heap.write a (.queue (change cell))

def setItem (heap : Heap) (a : Addr) (index : Nat) (item : Addr) : Option Heap :=
  (heap.array a).bind fun items =>
    if index < items.length then heap.write a (.array (items.set index item)) else none

variable {heap : Heap} {memory : Allocator} {a data next : Addr} {cell : QueueCell}
variable {items : List Addr}

theorem nodeAt_eq {block : Addr → Option Block} (here : block a = some (.node data next)) :
    nodeAt block a = some (data, next) := by
  unfold nodeAt
  rw [here]

theorem block_of_node (here : heap.node a = some (data, next)) :
    heap.block a = some (.node data next) := by
  unfold node nodeAt at here
  split at here
  · rename_i found
    cases here
    exact found
  · cases here

theorem node_nonnull {node : Addr × Addr} (here : heap.node a = some node) : a ≠ 0 := by
  have live : heap.block a ≠ none := by
    rw [block_of_node here]
    exact Option.some_ne_none _
  exact nonnull live

theorem queue_eq (here : heap.block a = some (.queue cell)) : heap.queue a = some cell := by
  unfold queue
  rw [here]

theorem array_eq (here : heap.block a = some (.array items)) : heap.array a = some items := by
  unfold array
  rw [here]

theorem nodeAt_congr {block block' : Addr → Option Block} (same : block' a = block a) :
    nodeAt block' a = nodeAt block a := by
  unfold nodeAt
  rw [same]

theorem node_null : heap.node 0 = none := by
  unfold node nodeAt
  rw [heap.null]

theorem write_eq {old : Block} (here : heap.block a = some old) (block : Block) :
    ∃ after, heap.write a block = some after ∧
      after.block = Function.update heap.block a (some block) := by
  unfold write
  split
  · rename_i none
    rw [here] at none
    cases none
  · exact ⟨_, rfl, rfl⟩

theorem freeMemory_eq {old : Block} (here : heap.block a = some old) :
    ∃ after, heap.freeMemory a = some after ∧
      after.block = Function.update heap.block a none := by
  unfold freeMemory
  split
  · rename_i none
    rw [here] at none
    cases none
  · exact ⟨_, rfl, rfl⟩

theorem setData_eq {old : Addr} (here : heap.block a = some (.node old next)) (data : Addr) :
    ∃ after, heap.setData a data = some after ∧
      after.block = Function.update heap.block a (some (.node data next)) := by
  unfold setData
  rw [node, nodeAt_eq here, Option.bind_some]
  exact write_eq here _

theorem setNext_eq {old : Addr} (here : heap.block a = some (.node data old)) (next : Addr) :
    ∃ after, heap.setNext a next = some after ∧
      after.block = Function.update heap.block a (some (.node data next)) := by
  unfold setNext
  rw [node, nodeAt_eq here, Option.bind_some]
  exact write_eq here _

theorem setQueue_eq (here : heap.block a = some (.queue cell)) (change : QueueCell → QueueCell) :
    ∃ after, heap.setQueue a change = some after ∧
      after.block = Function.update heap.block a (some (.queue (change cell))) := by
  unfold setQueue
  rw [queue_eq here, Option.bind_some]
  exact write_eq here _

theorem setItem_eq (index : Nat) (item : Addr) (here : heap.block a = some (.array items))
    (inside : index < items.length) :
    ∃ after, heap.setItem a index item = some after ∧
      after.block = Function.update heap.block a (some (.array (items.set index item))) := by
  unfold setItem
  rw [array_eq here, Option.bind_some, if_pos inside]
  exact write_eq here _

theorem allocate_fails {size : Nat} (block : (Nat → Addr) → Block)
    (fails : memory.allocMemory size heap = 0) :
    heap.allocate memory size block = (0, heap) := by
  unfold allocate
  exact dif_pos fails

theorem allocate_eq {size : Nat} (block : (Nat → Addr) → Block)
    (granted : memory.allocMemory size heap ≠ 0) : ∃ after,
    heap.allocate memory size block = (memory.allocMemory size heap, after) ∧
      after.block = Function.update heap.block (memory.allocMemory size heap)
        (some (block (memory.garbage size heap))) := by
  unfold allocate
  exact ⟨_, dif_neg granted, rfl⟩

end Heap

/-! ## `ds/queue.c`

The loops take fuel; `none` is an access to memory that is not allocated, or no fuel. -/

abbrev Compare := Addr → Addr → Int32

def createQueue (memory : Allocator) (heap : Heap) : Option (Addr × Heap) :=
  let (queue, heap) := heap.allocate memory queueSize fun garbage =>
    .queue ⟨garbage 0, garbage 1, Int32.ofNat (garbage 2)⟩
  if queue = 0 then some (0, heap)
  else do
    let heap ← heap.setQueue queue fun cell => { cell with front := 0 }
    let heap ← heap.setQueue queue fun cell => { cell with rear := 0 }
    let heap ← heap.setQueue queue fun cell => { cell with size := 0 }
    some (queue, heap)

def enqueue (memory : Allocator) (queue data : Addr) (heap : Heap) : Option (Int × Heap) :=
  if queue = 0 then some (-1, heap)
  else
    let (newNode, heap) := heap.allocate memory nodeSize fun garbage =>
      .node (garbage 0) (garbage 1)
    if newNode = 0 then some (-1, heap)
    else do
      let heap ← heap.setData newNode data
      let heap ← heap.setNext newNode 0
      let cell ← heap.queue queue
      let heap ← (
        if cell.rear = 0 then heap.setQueue queue fun cell => { cell with front := newNode }
        else heap.setNext cell.rear newNode : Option Heap)
      let heap ← heap.setQueue queue fun cell => { cell with rear := newNode }
      let heap ← heap.setQueue queue fun cell => { cell with size := cell.size + 1 }
      some (0, heap)

def dequeue (queue : Addr) (heap : Heap) : Option (Addr × Heap) :=
  if queue = 0 then some (0, heap)
  else do
    let cell ← heap.queue queue
    if cell.front = 0 then some (0, heap)
    else do
      let (data, next) ← heap.node cell.front
      let heap ← heap.setQueue queue fun cell => { cell with front := next }
      let heap ← (
        if next = 0 then heap.setQueue queue fun cell => { cell with rear := 0 }
        else some heap : Option Heap)
      let heap ← heap.freeMemory cell.front
      let heap ← heap.setQueue queue fun cell => { cell with size := cell.size - 1 }
      some (data, heap)

def peekQueue (queue : Addr) (heap : Heap) : Option Addr :=
  if queue = 0 then some 0
  else do
    let cell ← heap.queue queue
    if cell.front = 0 then some 0
    else do
      let (data, _) ← heap.node cell.front
      some data

/-- The loop of `clearQueue`. -/
def freeNodes : Nat → Addr → Heap → Option Heap
  | 0, _, _ => none
  | fuel + 1, current, heap =>
    if current = 0 then some heap
    else do
      let (_, next) ← heap.node current
      let heap ← heap.freeMemory current
      freeNodes fuel next heap

def clearQueue (fuel : Nat) (queue : Addr) (heap : Heap) : Option Heap :=
  if queue = 0 then some heap
  else do
    let cell ← heap.queue queue
    let heap ← freeNodes fuel cell.front heap
    let heap ← heap.setQueue queue fun cell => { cell with front := 0 }
    let heap ← heap.setQueue queue fun cell => { cell with rear := 0 }
    heap.setQueue queue fun cell => { cell with size := 0 }

/-- The loop of `containsQueue`. -/
def findNode (compare : Compare) (data : Addr) : Nat → Addr → Heap → Option Addr
  | 0, _, _ => none
  | fuel + 1, current, heap =>
    if current = 0 then some 0
    else do
      let (item, next) ← heap.node current
      if compare item data = 0 then some item else findNode compare data fuel next heap

def containsQueue (fuel : Nat) (queue data : Addr) (compare : Option Compare) (heap : Heap) :
    Option Addr :=
  match compare with
  | none => some 0
  | some compare =>
    if queue = 0 then some 0
    else do
      let cell ← heap.queue queue
      findNode compare data fuel cell.front heap

/-- The loop of `removeFromQueue`. -/
def unlinkNode (queue : Addr) (compare : Compare) (data : Addr) :
    Nat → Addr → Addr → Heap → Option (Addr × Heap)
  | 0, _, _, _ => none
  | fuel + 1, previous, current, heap =>
    if current = 0 then some (0, heap)
    else do
      let (item, next) ← heap.node current
      if compare item data = 0 then do
        let heap ← (
          if previous = 0 then heap.setQueue queue fun cell => { cell with front := next }
          else heap.setNext previous next : Option Heap)
        let cell ← heap.queue queue
        let heap ← (
          if current = cell.rear then
            heap.setQueue queue fun cell => { cell with rear := previous }
          else some heap : Option Heap)
        let (removedData, _) ← heap.node current
        let heap ← heap.freeMemory current
        let heap ← heap.setQueue queue fun cell => { cell with size := cell.size - 1 }
        some (removedData, heap)
      else unlinkNode queue compare data fuel current next heap

def removeFromQueue (fuel : Nat) (queue data : Addr) (compare : Option Compare) (heap : Heap) :
    Option (Addr × Heap) :=
  match compare with
  | none => some (0, heap)
  | some compare =>
    if queue = 0 then some (0, heap)
    else do
      let cell ← heap.queue queue
      unlinkNode queue compare data fuel 0 cell.front heap

/-- The loop of `dumpQueue`. -/
def dumpNodes (dataArray : Addr) : Nat → Addr → Nat → Heap → Option Heap
  | 0, _, _, _ => none
  | fuel + 1, current, index, heap =>
    if current = 0 then some heap
    else do
      let (item, next) ← heap.node current
      let heap ← heap.setItem dataArray index item
      dumpNodes dataArray fuel next (index + 1) heap

/-- What is asked for the array; the size is an `int` that becomes a `uint64_t`. -/
def dumpSize (cell : QueueCell) : Nat := (8 * cell.size.toInt % 2 ^ 64).toNat

def dumpQueue (memory : Allocator) (fuel : Nat) (queue : Addr) (heap : Heap) :
    Option (Addr × Heap) :=
  if queue = 0 then some (0, heap)
  else do
    let cell ← heap.queue queue
    if cell.size = 0 then some (0, heap)
    else
      let (dataArray, heap) := heap.allocate memory (dumpSize cell) fun garbage =>
        .array ((List.range (dumpSize cell / 8)).map garbage)
      if dataArray = 0 then some (0, heap)
      else do
        let heap ← dumpNodes dataArray fuel cell.front 0 heap
        some (dataArray, heap)

end SoKernel.QueueNodes
