import SoKernel.Kernel.QueueChain

namespace SoKernel.QueueNodes
open Lib

/-! ## Runs -/

inductive Operation
  | enqueue (memory : Allocator) (data : Addr)
  | dequeue
  | peekQueue
  | removeFromQueue (data : Addr) (compare : Option Compare)
  | containsQueue (data : Addr) (compare : Option Compare)
  | clearQueue
  | dumpQueue (memory : Allocator)

inductive Result
  | status (code : Int)
  | data (data : Addr)
  | cleared
  /-- `NULL`, or what the caller reads in the array. -/
  | array (items : Option (List Addr))
deriving DecidableEq

/-- What the caller gets, and whether the memory was there that the operation asked for. -/
structure Answer where
  granted : Bool
  result : Result

/-- Whether `allocMemory` finds what the operation asks for. -/
def Operation.granted (queue : Addr) (heap : Heap) : Operation → Bool
  | .enqueue memory _ => memory.allocMemory nodeSize heap ≠ 0
  | .dumpQueue memory => (heap.queue queue).any fun cell =>
      memory.allocMemory (dumpSize cell) heap ≠ 0
  | _ => true

def perform (fuel : Nat) (queue : Addr) (heap : Heap) : Operation → Option (Result × Heap)
  | .enqueue memory data => do
    let (code, heap) ← enqueue memory queue data heap
    some (.status code, heap)
  | .dequeue => do
    let (data, heap) ← dequeue queue heap
    some (.data data, heap)
  | .peekQueue => do
    let data ← peekQueue queue heap
    some (.data data, heap)
  | .removeFromQueue data compare => do
    let (data, heap) ← removeFromQueue fuel queue data compare heap
    some (.data data, heap)
  | .containsQueue data compare => do
    let data ← containsQueue fuel queue data compare heap
    some (.data data, heap)
  | .clearQueue => do
    let heap ← clearQueue fuel queue heap
    some (.cleared, heap)
  | .dumpQueue memory => do
    let (dataArray, heap) ← dumpQueue memory fuel queue heap
    if dataArray = 0 then some (.array none, heap)
    else do
      let items ← heap.array dataArray
      some (.array (some items), heap)

def run (fuel : Nat) (queue : Addr) : List Operation → Heap → Option (List Answer × Heap)
  | [], heap => some ([], heap)
  | operation :: operations, heap => do
    let (result, after) ← perform fuel queue heap operation
    let (answers, last) ← run fuel queue operations after
    some (⟨operation.granted queue heap, result⟩ :: answers, last)

/-! ## The same on a list -/

def listStep (granted : Bool) (items : List Addr) : Operation → Result × List Addr
  | .enqueue _ data => if granted then (.status 0, items ++ [data]) else (.status (-1), items)
  | .dequeue => (.data (items.head?.getD 0), items.tail)
  | .peekQueue => (.data (items.head?.getD 0), items)
  | .removeFromQueue _ none => (.data 0, items)
  | .removeFromQueue data (some compare) =>
    (.data ((items.find? fun item => compare item data = 0).getD 0),
      items.eraseP fun item => compare item data = 0)
  | .containsQueue _ none => (.data 0, items)
  | .containsQueue data (some compare) =>
    (.data ((items.find? fun item => compare item data = 0).getD 0), items)
  | .clearQueue => (.cleared, [])
  | .dumpQueue _ => (.array (if granted ∧ items ≠ [] then some items else none), items)

def listRun : List Operation → List Bool → List Addr → List Result × List Addr
  | operation :: operations, granted :: more, items =>
    let (result, after) := listStep granted items operation
    let (results, last) := listRun operations more after
    (result :: results, last)
  | _, _, items => ([], items)

variable {queue : Addr} {heap start : Heap} {memory : Allocator} {nodes : List (Addr × Addr)}
variable {items : List Addr} {operation : Operation} {operations : List Operation} {fuel : Nat}

/-- One operation on the nodes is one on their data. -/
theorem perform_spec (operation : Operation) (represents : Represents queue nodes heap)
    (enough : nodes.length < fuel) : ∃ after nodes',
    perform fuel queue heap operation =
      some ((listStep (operation.granted queue heap) (nodes.map Prod.snd) operation).1, after) ∧
    Represents queue nodes' after ∧ nodes'.length ≤ nodes.length + 1 ∧
    nodes'.map Prod.snd =
      (listStep (operation.granted queue heap) (nodes.map Prod.snd) operation).2 := by
  cases operation with
  | enqueue memory data =>
    unfold listStep Operation.granted
    by_cases granted : memory.allocMemory nodeSize heap = 0
    · refine ⟨heap, nodes, ?_, represents, by omega, ?_⟩
      · simp [perform, enqueue_fails represents granted, granted]
      · simp [granted]
    · obtain ⟨after, run, left⟩ := enqueue_spec represents granted data
      refine ⟨after, _, ?_, left, by simp, ?_⟩
      · simp [perform, run, granted]
      · simp [granted]
  | dequeue =>
    obtain ⟨after, run, left⟩ := dequeue_spec represents
    refine ⟨after, nodes.tail, ?_, left, ?_, ?_⟩
    · simp [perform, run, listStep]
    · rw [List.length_tail]
      omega
    · simp [listStep]
  | peekQueue =>
    refine ⟨heap, nodes, ?_, represents, by omega, rfl⟩
    simp [perform, peekQueue_spec represents, listStep]
  | removeFromQueue data compare =>
    cases compare with
    | none => exact ⟨heap, nodes, rfl, represents, by omega, rfl⟩
    | some compare =>
      obtain ⟨after, nodes', run, left, items⟩ :=
        removeFromQueue_spec compare data represents enough
      refine ⟨after, nodes', ?_, left, ?_, items⟩
      · simp [perform, run, listStep]
      · have shorter := congrArg List.length items
        rw [List.length_map] at shorter
        have erased := (List.eraseP_sublist (p := fun item => compare item data = 0)
          (l := nodes.map Prod.snd)).length_le
        rw [List.length_map] at erased
        omega
  | containsQueue data compare =>
    cases compare with
    | none => exact ⟨heap, nodes, rfl, represents, by omega, rfl⟩
    | some compare =>
      refine ⟨heap, nodes, ?_, represents, by omega, rfl⟩
      simp [perform, containsQueue_spec represents enough, listStep]
  | clearQueue =>
    obtain ⟨after, run, left⟩ := clearQueue_spec represents enough
    exact ⟨after, [], by simp [perform, run, listStep], left, Nat.zero_le _, rfl⟩
  | dumpQueue memory =>
    have granted : Operation.granted queue heap (.dumpQueue memory) = true ↔
        memory.allocMemory (8 * nodes.length) heap ≠ 0 := by
      change (heap.queue queue).any _ = true ↔ _
      rw [Heap.queue_eq represents.record, Option.any_some, dumpSize_eq represents,
        decide_eq_true_iff]
    unfold listStep
    by_cases array : memory.allocMemory (8 * nodes.length) heap ≠ 0 ∧ nodes ≠ []
    · obtain ⟨dataArray, after, run, nonnull, left, read⟩ :=
        dumpQueue_spec represents enough array.2 array.1
      refine ⟨after, nodes, ?_, left, by omega, rfl⟩
      simp [perform, run, nonnull, read, granted, array]
    · have null : nodes = [] ∨ memory.allocMemory (8 * nodes.length) heap = 0 := by
        rw [not_and_or, not_not, not_not] at array
        exact array.symm
      refine ⟨heap, nodes, ?_, represents, by omega, rfl⟩
      simp [perform, dumpQueue_null represents null, granted, array]

/-- The record, the nodes that `front` leads to, and their data. -/
structure Holds (queue : Addr) (items : List Addr) (heap : Heap) (cell : QueueCell)
    (nodes : List (Addr × Addr)) : Prop where
  record : heap.block queue = some (.queue cell)
  chain : Segment heap.node cell.front nodes 0
  items : nodes.map Prod.snd = items
  size : cell.size.toInt = nodes.length
  rear : cell.rear = last nodes
  null : cell.front = 0 ↔ cell.rear = 0
  acyclic : (nodes.map Prod.fst).Nodup

theorem Represents.holds (represents : Represents queue nodes heap) :
    Holds queue (nodes.map Prod.snd) heap
      ⟨first nodes, last nodes, Int32.ofNat nodes.length⟩ nodes where
  record := represents.record
  chain := represents.chain
  items := rfl
  size := Int32.toInt_ofNat_of_lt represents.length_lt
  rear := rfl
  null := represents.first_eq_zero_iff.trans represents.last_eq_zero_iff.symm
  acyclic := represents.nodup

theorem run_spec (represents : Represents queue nodes heap)
    (enough : nodes.length + operations.length < fuel) : ∃ answers after nodes',
    run fuel queue operations heap = some (answers, after) ∧
    Represents queue nodes' after ∧
    listRun operations (answers.map Answer.granted) (nodes.map Prod.snd) =
      (answers.map Answer.result, nodes'.map Prod.snd) := by
  induction operations generalizing heap nodes with
  | nil => exact ⟨[], heap, nodes, rfl, represents, rfl⟩
  | cons operation operations ih =>
    rw [List.length_cons] at enough
    obtain ⟨middle, between, one, kept, longer, items⟩ :=
      perform_spec operation represents (show nodes.length < fuel by omega)
    obtain ⟨answers, after, nodes', rest, left, same⟩ := ih kept (by omega)
    refine ⟨⟨operation.granted queue heap, (listStep (operation.granted queue heap)
      (nodes.map Prod.snd) operation).1⟩ :: answers, after, nodes', ?_, left, ?_⟩
    · rw [run, one]
      simp only [Option.bind_eq_bind, Option.bind_some]
      rw [rest]
      rfl
    · rw [List.map_cons, List.map_cons, listRun]
      dsimp only
      rw [← items, same]

theorem createQueue_spec (memory : Allocator) (heap : Heap) : ∃ queue start,
    createQueue memory heap = some (queue, start) ∧ (queue ≠ 0 → Represents queue [] start) := by
  by_cases fails : memory.allocMemory queueSize heap = 0
  · refine ⟨0, heap, ?_, fun never => absurd rfl never⟩
    unfold createQueue
    rw [Heap.allocate_fails _ fails]
    rfl
  · obtain ⟨h₁, allocated, b⟩ := Heap.allocate_eq (fun garbage =>
      .queue ⟨garbage 0, garbage 1, Int32.ofNat (garbage 2)⟩) fails
    generalize memory.allocMemory queueSize heap = queue at fails allocated b
    obtain ⟨cell, record⟩ : ∃ cell, h₁.block queue = some (.queue cell) :=
      ⟨_, by rw [b, Function.update_self]⟩
    obtain ⟨h₂, front, edited⟩ :=
      (Edited.of_record record).setQueue fun cell => { cell with front := 0 }
    obtain ⟨h₃, rear, edited⟩ := edited.setQueue fun cell => { cell with rear := 0 }
    obtain ⟨h₄, size, edited⟩ := edited.setQueue fun cell => { cell with size := 0 }
    refine ⟨queue, h₄, ?_, fun _ => ⟨edited.record, rfl⟩⟩
    unfold createQueue
    rw [allocated]
    dsimp only
    rw [if_neg fails]
    simp only [Option.bind_eq_bind]
    rw [front, Option.bind_some, rear, Option.bind_some, size]
    rfl

/-- Whatever is asked of a queue, and whichever allocations fail, it does what a list does, and
in memory it is one. -/
theorem queue_is_a_list (created : createQueue memory heap = some (queue, start))
    (found : queue ≠ 0) (enough : operations.length < fuel) : ∃ answers items after cell nodes,
    run fuel queue operations start = some (answers, after) ∧
    listRun operations (answers.map Answer.granted) [] = (answers.map Answer.result, items) ∧
    Holds queue items after cell nodes := by
  obtain ⟨_, _, again, represents⟩ := createQueue_spec memory heap
  rw [created] at again
  cases again
  obtain ⟨answers, after, nodes, ran, left, same⟩ :=
    run_spec (represents found) (by simpa using enough)
  exact ⟨answers, nodes.map Prod.snd, after, _, nodes, ran, same, left.holds⟩

/-- Nothing is allocated. -/
def Heap.empty : Heap := ⟨fun _ => none, rfl, fun _ live => absurd rfl live⟩

/-- There is room for a queue and two nodes. -/
def places : List Addr := [0x600000, 0x600020, 0x600040]

/-- The first place that is free. -/
def firstFree : Allocator where
  allocMemory _ heap := (places.find? fun a => (heap.block a).isNone).getD 0
  garbage _ _ _ := 7
  fresh _ heap := by
    cases found : places.find? fun a => (heap.block a).isNone with
    | none => exact heap.null
    | some a =>
      have free := List.find?_some found
      exact Option.isNone_iff_eq_none.mp free
  below _ heap := by
    have low : ∀ a ∈ places, a < heapEndAddress := by decide
    cases found : places.find? fun a => (heap.block a).isNone with
    | none => decide
    | some a => exact low a (List.mem_of_find?_eq_some found)

/-- The last node goes, the array takes its place, and two nodes find none. -/
def exercise : List Operation :=
  [.enqueue firstFree 11, .enqueue firstFree 12, .enqueue firstFree 13,
    .removeFromQueue 12 (some fun a b => Int32.ofNat a - Int32.ofNat b), .dumpQueue firstFree,
    .enqueue firstFree 14, .dequeue, .enqueue firstFree 15, .peekQueue, .clearQueue]

theorem exercise_is_a_list : ∃ start, createQueue firstFree Heap.empty = some (0x600000, start) ∧
    ∃ answers items after cell nodes,
      run 11 0x600000 exercise start = some (answers, after) ∧
      listRun exercise (answers.map Answer.granted) [] = (answers.map Answer.result, items) ∧
      Holds 0x600000 items after cell nodes := by
  obtain ⟨queue, start, created, _⟩ := createQueue_spec firstFree Heap.empty
  have found : (createQueue firstFree Heap.empty).map Prod.fst = some 0x600000 := by decide
  rw [created] at found
  obtain rfl : queue = 0x600000 := Option.some.inj found
  exact ⟨start, created, queue_is_a_list created (by decide) (by decide)⟩

/-! ## The queues of the scheduler -/

section
variable {M : Type} [MemoryManager M] (queue : Queue Addr) (memory : M) (data : Addr)

theorem enqueue_listStep (allocator : Allocator) :
    listStep (decide ((MemoryManager.allocMemory nodeSize memory).1 ≠ 0)) queue.items
        (.enqueue allocator data) =
      match (Queue.enqueue queue data memory).1 with
      | none => (.status (-1), queue.items)
      | some after => (.status 0, after.items) := by
  unfold listStep Queue.enqueue
  dsimp only
  by_cases fails : (MemoryManager.allocMemory nodeSize memory).1 = 0
  · simp [fails]
  · simp [fails]

theorem dequeue_listStep : listStep true queue.items .dequeue =
    match Queue.dequeue queue memory with
    | none => (.data 0, [])
    | some (data, rest, _) => (.data data, rest.items) := by
  cases queue with
  | nil => rfl
  | cons node rest => rfl

theorem removeFromQueue_listStep (compare : Compare) :
    listStep true queue.items (.removeFromQueue data (some compare)) =
      match Queue.removeFromQueue queue (fun item => compare item data = 0) memory with
      | none => (.data 0, queue.items)
      | some (found, rest, _) => (.data found, rest.items) := by
  unfold listStep
  dsimp only
  induction queue with
  | nil => rfl
  | cons node rest ih =>
    rw [Queue.removeFromQueue, Queue.items_cons]
    by_cases found : compare node.data data = 0
    · simp [found]
    · simp only [found, decide_false, Bool.false_eq_true, if_false, List.find?_cons,
        List.eraseP_cons, cond_false]
      cases rest' : Queue.removeFromQueue rest (fun item => compare item data = 0) memory with
      | none =>
        rw [rest'] at ih
        obtain ⟨datum, items⟩ := Prod.mk.inj ih
        rw [datum, items]
      | some removed =>
        rw [rest'] at ih
        obtain ⟨datum, items⟩ := Prod.mk.inj ih
        rw [datum, items]
        rfl

end

end SoKernel.QueueNodes
