import SoKernel.Kernel.QueueNodes

namespace SoKernel.QueueNodes
open Lib

/-! ## The list in memory -/

/-- The address of the first node, or `NULL`. -/
def first (nodes : List (Addr × Addr)) : Addr := (nodes.head?.map Prod.fst).getD 0

/-- The address of the last node, or `NULL`. -/
def last (nodes : List (Addr × Addr)) : Addr := (nodes.getLast?.map Prod.fst).getD 0

/-- The addresses of the nodes and their data, from `front` to `rear`. -/
structure Represents (queue : Addr) (nodes : List (Addr × Addr)) (heap : Heap) : Prop where
  record : heap.block queue =
    some (.queue ⟨first nodes, last nodes, Int32.ofNat nodes.length⟩)
  chain : Segment heap.node (first nodes) nodes 0

variable {queue a data next x : Addr} {nodes before rest : List (Addr × Addr)}
variable {heap after : Heap} {memory : Allocator} {compare : Compare} {fuel : Nat}

@[simp] theorem first_cons {node : Addr × Addr} : first (node :: nodes) = node.1 := rfl

@[simp] theorem last_snoc {node : Addr × Addr} : last (nodes ++ [node]) = node.1 := by
  simp [last]

theorem last_append (more : rest ≠ []) : last (nodes ++ rest) = last rest := by
  unfold last
  rw [List.getLast?_append_of_ne_nil _ more]

theorem last_cons (more : nodes ≠ []) (node : Addr × Addr) : last (node :: nodes) = last nodes := by
  rw [← List.singleton_append, last_append more]

theorem first_append (some : nodes ≠ []) : first (nodes ++ rest) = first nodes := by
  obtain ⟨node, others, rfl⟩ := List.exists_cons_of_ne_nil some
  rfl

theorem last_mem (some : nodes ≠ []) : last nodes ∈ nodes.map Prod.fst := by
  obtain ⟨before, node, rfl⟩ := (List.eq_nil_or_concat' nodes).resolve_left some
  simp

theorem first_mem (some : nodes ≠ []) : first nodes ∈ nodes.map Prod.fst := by
  obtain ⟨node, rest, rfl⟩ := List.exists_cons_of_ne_nil some
  simp

namespace Represents

theorem queue_ne (represents : Represents queue nodes heap) : queue ≠ 0 :=
  Heap.nonnull (by rw [represents.record]; exact Option.some_ne_none _)

theorem nodup (represents : Represents queue nodes heap) : (nodes.map Prod.fst).Nodup :=
  represents.chain.nodup Heap.node_null

/-- Every node lies in a block of its own. -/
theorem block (represents : Represents queue nodes heap) (member : x ∈ nodes.map Prod.fst) :
    ∃ data next, heap.block x = some (.node data next) := by
  obtain ⟨node, inside, rfl⟩ := List.mem_map.mp member
  obtain ⟨⟨data, next⟩, here⟩ := Option.ne_none_iff_exists'.mp (represents.chain.live node inside)
  exact ⟨data, next, Heap.block_of_node here⟩

theorem ne_queue (represents : Represents queue nodes heap) (member : x ∈ nodes.map Prod.fst) :
    x ≠ queue := by
  rintro rfl
  obtain ⟨data, next, here⟩ := represents.block member
  rw [represents.record] at here
  cases here

theorem nonnull (represents : Represents queue nodes heap) (member : x ∈ nodes.map Prod.fst) :
    x ≠ 0 := by
  obtain ⟨data, next, here⟩ := represents.block member
  exact Heap.nonnull (by rw [here]; exact Option.some_ne_none _)

theorem first_eq_zero_iff (represents : Represents queue nodes heap) :
    first nodes = 0 ↔ nodes = [] := by
  constructor
  · intro zero
    by_contra some
    exact represents.nonnull (first_mem some) zero
  · rintro rfl
    rfl

theorem last_eq_zero_iff (represents : Represents queue nodes heap) :
    last nodes = 0 ↔ nodes = [] := by
  constructor
  · intro zero
    by_contra some
    exact represents.nonnull (last_mem some) zero
  · rintro rfl
    rfl

theorem rest_nonnull {node : Addr × Addr} (represents : Represents queue (node :: nodes) heap)
    (some : nodes ≠ []) : first nodes ≠ 0 :=
  represents.nonnull (List.mem_cons_of_mem _ (first_mem some))

/-- No node lies where an earlier one does. -/
theorem before_ne {node other : Addr × Addr}
    (represents : Represents queue (before ++ other :: rest) heap) (member : node ∈ before) :
    node.1 ≠ other.1 := by
  have unique := represents.nodup
  rw [List.map_append, List.nodup_append] at unique
  exact unique.2.2 _ (List.mem_map_of_mem member) _ List.mem_cons_self

theorem rest_ne {node other : Addr × Addr}
    (represents : Represents queue (before ++ other :: rest) heap) (member : node ∈ rest) :
    node.1 ≠ other.1 := by
  have unique := represents.nodup
  rw [List.map_append, List.map_cons, List.nodup_append] at unique
  intro same
  exact (List.nodup_cons.mp unique.2.1).1 (same ▸ List.mem_map_of_mem member)

/-- There is not memory enough for the size to overflow. -/
theorem length_lt (represents : Represents queue nodes heap) : nodes.length < 2 ^ 31 := by
  have inside : nodes.map Prod.fst ⊆ List.range heapEndAddress := by
    intro x member
    obtain ⟨data, next, here⟩ := represents.block member
    exact List.mem_range.mpr (heap.below x (by rw [here]; exact Option.some_ne_none _))
  have fewer := (represents.nodup.subperm inside).length_le
  rw [List.length_map, List.length_range] at fewer
  unfold heapEndAddress at fewer
  omega

/-- Memory elsewhere does not matter. -/
theorem frame (represents : Represents queue nodes heap)
    (same : ∀ x, x = queue ∨ x ∈ nodes.map Prod.fst → after.block x = heap.block x) :
    Represents queue nodes after where
  record := by rw [same queue (.inl rfl), represents.record]
  chain := represents.chain.frame fun node member =>
    Heap.nodeAt_congr (same node.1 (.inr (List.mem_map_of_mem member)))

end Represents

/-! ## Changing the record -/

/-- Memory is `base`, with this record at the queue. -/
def Edited (queue : Addr) (base : Addr → Option Block) (cell : QueueCell) (heap : Heap) : Prop :=
  heap.block = Function.update base queue (some (.queue cell))

namespace Edited

variable {base : Addr → Option Block} {cell : QueueCell} {old : Addr} {block : Block}

theorem of_record (record : heap.block queue = some (.queue cell)) :
    Edited queue heap.block cell heap := by
  unfold Edited
  rw [← record, Function.update_eq_self]

theorem record (edited : Edited queue base cell heap) :
    heap.block queue = some (.queue cell) := by
  rw [edited, Function.update_self]

theorem elsewhere (edited : Edited queue base cell heap) (apart : x ≠ queue) :
    heap.block x = base x := by
  rw [edited, Function.update_of_ne apart]

theorem setQueue (edited : Edited queue base cell heap) (change : QueueCell → QueueCell) :
    ∃ after, heap.setQueue queue change = some after ∧
      Edited queue base (change cell) after := by
  obtain ⟨after, found, changed⟩ := Heap.setQueue_eq edited.record change
  refine ⟨after, found, ?_⟩
  rw [Edited, changed, edited, Function.update_idem]

theorem freeMemory (edited : Edited queue base cell heap) (apart : x ≠ queue)
    (here : base x = some block) : ∃ after, heap.freeMemory x = some after ∧
      Edited queue (Function.update base x none) cell after := by
  obtain ⟨after, found, changed⟩ :=
    Heap.freeMemory_eq ((edited.elsewhere apart).trans here)
  refine ⟨after, found, ?_⟩
  rw [Edited, changed, edited, Function.update_comm apart]

theorem setNext (edited : Edited queue base cell heap) (apart : x ≠ queue)
    (here : base x = some (.node data old)) (next : Addr) :
    ∃ after, heap.setNext x next = some after ∧
      Edited queue (Function.update base x (some (.node data next))) cell after := by
  obtain ⟨after, found, changed⟩ :=
    Heap.setNext_eq ((edited.elsewhere apart).trans here) next
  refine ⟨after, found, ?_⟩
  rw [Edited, changed, edited, Function.update_comm apart]

theorem represents
    (edited : Edited queue base ⟨first nodes, last nodes, Int32.ofNat nodes.length⟩ heap)
    (chain : Segment (nodeAt base) a nodes 0) (apart : queue ∉ nodes.map Prod.fst) :
    Represents queue nodes heap where
  record := edited.record
  chain := by
    have start : a = first nodes := chain.start
    rw [← start]
    refine chain.frame fun node member => Heap.nodeAt_congr (edited.elsewhere ?_)
    rintro rfl
    exact apart (List.mem_map_of_mem member)

end Edited

theorem Represents.edited (represents : Represents queue nodes heap) :
    Edited queue heap.block ⟨first nodes, last nodes, Int32.ofNat nodes.length⟩ heap :=
  .of_record represents.record

/-! ## One operation -/

theorem peekQueue_spec (represents : Represents queue nodes heap) :
    peekQueue queue heap = some ((nodes.map Prod.snd).head?.getD 0) := by
  unfold peekQueue
  rw [if_neg represents.queue_ne, Heap.queue_eq represents.record]
  simp only [Option.bind_eq_bind, Option.bind_some, represents.first_eq_zero_iff]
  cases nodes with
  | nil => rfl
  | cons node nodes =>
    obtain ⟨_, next, here, _⟩ := represents.chain
    rw [if_neg (List.cons_ne_nil _ _), first_cons, here]
    rfl

theorem exists_fuel {n : Nat} (enough : n < fuel) : ∃ less, fuel = less + 1 :=
  Nat.exists_eq_succ_of_ne_zero (Nat.ne_of_gt (Nat.zero_lt_of_lt enough))

theorem findNode_spec (segment : Segment heap.node a nodes 0) (enough : nodes.length < fuel) :
    findNode compare data fuel a heap =
      some (((nodes.map Prod.snd).find? fun item => compare item data = 0).getD 0) := by
  induction nodes generalizing a fuel with
  | nil =>
    obtain rfl := segment
    obtain ⟨fuel, rfl⟩ := exists_fuel enough
    rfl
  | cons node nodes ih =>
    obtain ⟨fuel, rfl⟩ := exists_fuel enough
    obtain ⟨rfl, next, here, rest⟩ := segment
    rw [findNode, if_neg (Heap.node_nonnull here), here]
    simp only [Option.bind_eq_bind, Option.bind_some, List.map_cons]
    by_cases found : compare node.2 data = 0
    · rw [if_pos found, List.find?_cons_of_pos (by simpa using found)]
      rfl
    · rw [if_neg found, List.find?_cons_of_neg (by simpa using found)]
      exact ih rest (Nat.lt_of_succ_lt_succ enough)

theorem containsQueue_spec (represents : Represents queue nodes heap)
    (enough : nodes.length < fuel) : containsQueue fuel queue data (some compare) heap =
      some (((nodes.map Prod.snd).find? fun item => compare item data = 0).getD 0) := by
  unfold containsQueue
  dsimp only
  rw [if_neg represents.queue_ne, Heap.queue_eq represents.record]
  exact findNode_spec represents.chain enough

theorem length_pred (n : Nat) : Int32.ofNat (n + 1) - 1 = Int32.ofNat n := by
  rw [Int32.ofNat_add]
  exact Int32.add_sub_cancel _ _

theorem dequeue_spec (represents : Represents queue nodes heap) : ∃ after,
    dequeue queue heap = some ((nodes.map Prod.snd).head?.getD 0, after) ∧
      Represents queue nodes.tail after := by
  unfold dequeue
  rw [if_neg represents.queue_ne, Heap.queue_eq represents.record]
  simp only [Option.bind_eq_bind, Option.bind_some, represents.first_eq_zero_iff]
  cases nodes with
  | nil => exact ⟨heap, rfl, represents⟩
  | cons node nodes =>
    obtain ⟨x, item⟩ := node
    have chain := represents.chain
    obtain ⟨_, next, here, rest⟩ := chain
    have apart : x ≠ queue := represents.ne_queue List.mem_cons_self
    have unique := List.nodup_cons.mp represents.nodup
    rw [if_neg (List.cons_ne_nil _ _), first_cons, here]
    simp only [Option.bind_some]
    have start : next = first nodes := rest.start
    obtain ⟨h₁, front, edited⟩ := represents.edited.setQueue fun cell => { cell with front := next }
    obtain ⟨h₂, rear, edited⟩ : ∃ h₂, (if next = 0 then
        h₁.setQueue queue fun cell => { cell with rear := 0 } else some h₁) = some h₂ ∧
          Edited queue heap.block
            ⟨next, last nodes, Int32.ofNat ((x, item) :: nodes).length⟩ h₂ := by
      by_cases only : nodes = []
      · subst only
        have none : next = 0 := start
        rw [if_pos none]
        exact edited.setQueue fun cell => { cell with rear := 0 }
      · rw [if_neg (by rw [start]; exact represents.rest_nonnull only)]
        rw [last_cons only] at edited
        exact ⟨h₁, rfl, edited⟩
    obtain ⟨h₃, freed, edited⟩ := edited.freeMemory apart (Heap.block_of_node here)
    obtain ⟨h₄, size, edited⟩ := edited.setQueue fun cell => { cell with size := cell.size - 1 }
    refine ⟨h₄, ?_, ?_⟩
    · rw [front, Option.bind_some, rear, Option.bind_some, freed, Option.bind_some, size]
      rfl
    · rw [List.length_cons, length_pred, start] at edited
      refine edited.represents (rest.frame fun node member => ?_) fun member =>
        represents.ne_queue (List.mem_cons_of_mem _ member) rfl
      refine Heap.nodeAt_congr (Function.update_of_ne ?_ _ _)
      intro same
      exact unique.1 (List.mem_map.mpr ⟨node, member, same⟩)

theorem enqueue_fails (represents : Represents queue nodes heap)
    (fails : memory.allocMemory nodeSize heap = 0) (data : Addr) :
    enqueue memory queue data heap = some (-1, heap) := by
  unfold enqueue
  rw [if_neg represents.queue_ne, Heap.allocate_fails _ fails]
  rfl

/-- The node behind the last one. -/
theorem link_spec {new : Addr} (represents : Represents queue nodes heap)
    (apart : new ≠ queue) (fresh : heap.block new = none)
    (edited : Edited queue (Function.update heap.block new (some (.node data 0)))
      ⟨first nodes, last nodes, Int32.ofNat nodes.length⟩ after) : ∃ linked base,
    (if last nodes = 0 then after.setQueue queue fun cell => { cell with front := new }
      else after.setNext (last nodes) new) = some linked ∧
    Edited queue base
      ⟨first (nodes ++ [(new, data)]), last nodes, Int32.ofNat nodes.length⟩ linked ∧
    Segment (nodeAt base) (first (nodes ++ [(new, data)])) (nodes ++ [(new, data)]) 0 := by
  have newest : nodeAt (Function.update heap.block new (some (.node data 0))) new =
      some (data, 0) := Heap.nodeAt_eq (Function.update_self _ _ _)
  rcases List.eq_nil_or_concat' nodes with rfl | ⟨before, ⟨y, item⟩, rfl⟩
  · obtain ⟨linked, found, edited⟩ := edited.setQueue fun cell => { cell with front := new }
    exact ⟨linked, _, found, edited, Segment.single newest⟩
  · have known : y ∈ (before ++ [(y, item)]).map Prod.fst := by simp
    have other : ∀ node ∈ before ++ [(y, item)], node.1 ≠ new := by
      rintro node member rfl
      exact represents.chain.live node member (by
        unfold Heap.node nodeAt
        rw [fresh])
    obtain ⟨b, front, start, next, here, _⟩ := segment_append.mp represents.chain
    have block : Function.update heap.block new (some (.node data 0)) y =
        some (.node item next) := by
      rw [Function.update_of_ne (other (y, item) (by simp))]
      exact Heap.block_of_node here
    obtain ⟨linked, found, edited⟩ := edited.setNext (represents.ne_queue known) block new
    rw [first_append (List.append_ne_nil_of_right_ne_nil _ (List.cons_ne_nil _ _))]
    refine ⟨linked, Function.update (Function.update heap.block new (some (.node data 0))) y
      (some (.node item new)), ?_, edited, segment_append.mpr ⟨new, ?_, ?_⟩⟩
    · rw [if_neg (by rw [last_snoc]; exact represents.nonnull known), last_snoc]
      exact found
    · refine represents.chain.retarget (Heap.nodeAt_eq (Function.update_self _ _ _)) ?_
      intro node member
      refine Heap.nodeAt_congr ?_
      rw [Function.update_of_ne (represents.before_ne member),
        Function.update_of_ne (other node (List.mem_append_left _ member))]
    · refine Segment.single ?_
      rw [← newest]
      exact Heap.nodeAt_congr (Function.update_of_ne (other (y, item) (by simp)).symm _ _)

theorem enqueue_spec (represents : Represents queue nodes heap)
    (granted : memory.allocMemory nodeSize heap ≠ 0) (data : Addr) : ∃ after,
    enqueue memory queue data heap = some (0, after) ∧
      Represents queue (nodes ++ [(memory.allocMemory nodeSize heap, data)]) after := by
  have fresh := memory.fresh nodeSize heap
  obtain ⟨h₁, allocated, b₁⟩ :=
    Heap.allocate_eq (fun garbage => .node (garbage 0) (garbage 1)) granted
  generalize memory.allocMemory nodeSize heap = new at granted fresh allocated b₁ ⊢
  have apart : new ≠ queue := by
    rintro rfl
    rw [represents.record] at fresh
    cases fresh
  obtain ⟨h₂, dataSet, b₂⟩ := Heap.setData_eq (by rw [b₁, Function.update_self]) data
  obtain ⟨h₃, nextSet, b₃⟩ := Heap.setNext_eq (by rw [b₂, Function.update_self]) 0
  rw [b₂, b₁, Function.update_idem, Function.update_idem] at b₃
  have edited : Edited queue (Function.update heap.block new (some (.node data 0)))
      ⟨first nodes, last nodes, Int32.ofNat nodes.length⟩ h₃ := by
    rw [Edited, b₃, Function.update_comm apart, ← represents.edited]
  have record := Heap.queue_eq edited.record
  obtain ⟨h₄, base, linked, edited, chain⟩ := link_spec represents apart fresh edited
  obtain ⟨h₅, rear, edited⟩ := edited.setQueue fun cell => { cell with rear := new }
  obtain ⟨h₆, size, edited⟩ := edited.setQueue fun cell => { cell with size := cell.size + 1 }
  refine ⟨h₆, ?_, ?_⟩
  · unfold enqueue
    rw [if_neg represents.queue_ne, allocated]
    dsimp only
    rw [if_neg granted]
    simp only [Option.bind_eq_bind]
    rw [dataSet, Option.bind_some, nextSet, Option.bind_some, record, Option.bind_some, linked,
      Option.bind_some, rear, Option.bind_some, size]
    rfl
  · have record : Edited queue base ⟨first (nodes ++ [(new, data)]), last (nodes ++ [(new, data)]),
        Int32.ofNat (nodes ++ [(new, data)]).length⟩ h₆ := by
      rw [last_snoc, List.length_append, List.length_singleton, Int32.ofNat_add]
      exact edited
    refine record.represents chain ?_
    rw [List.map_append, List.mem_append, not_or]
    refine ⟨fun member => represents.ne_queue member rfl, ?_⟩
    simpa using apart.symm

/-- The node in front of the removed one, or the record, leads behind it. -/
theorem detach_spec {item : Addr}
    (represents : Represents queue (before ++ (x, item) :: rest) heap)
    (behind : Segment heap.node next rest 0) : ∃ detached base,
      (if last before = 0 then heap.setQueue queue fun cell => { cell with front := next }
        else heap.setNext (last before) next) = some detached ∧
      Edited queue base ⟨first (before ++ rest), last (before ++ (x, item) :: rest),
        Int32.ofNat (before ++ (x, item) :: rest).length⟩ detached ∧
      base x = heap.block x ∧
      Segment (nodeAt (Function.update base x none)) (first (before ++ rest)) (before ++ rest)
        0 := by
  have after_ne : ∀ node ∈ rest, node.1 ≠ x := fun _ member => represents.rest_ne member
  have start : next = first rest := behind.start
  rcases List.eq_nil_or_concat' before with rfl | ⟨init, ⟨y, value⟩, rfl⟩
  · obtain ⟨detached, found, edited⟩ :=
      represents.edited.setQueue fun cell => { cell with front := next }
    rw [List.nil_append, ← start]
    refine ⟨detached, heap.block, found, edited, rfl, behind.frame fun node member => ?_⟩
    exact Heap.nodeAt_congr (Function.update_of_ne (after_ne node member) _ _)
  · have known : y ∈ ((init ++ [(y, value)]) ++ (x, item) :: rest).map Prod.fst := by simp
    have apart : y ≠ x := represents.before_ne
      (List.mem_append_right init (List.mem_singleton_self (y, value)))
    obtain ⟨b, front, same, _⟩ := segment_append.mp represents.chain
    obtain rfl : x = b := same.symm
    obtain ⟨_, _, _, old, linked, _⟩ := segment_append.mp front
    obtain ⟨detached, found, edited⟩ := represents.edited.setNext (represents.ne_queue known)
      (Heap.block_of_node linked) next
    have whole := represents
    rw [List.append_assoc, List.singleton_append] at whole
    have nonempty : init ++ [(y, value)] ≠ [] :=
      List.append_ne_nil_of_right_ne_nil _ (List.cons_ne_nil _ _)
    have init_ne : ∀ node ∈ init, node.1 ≠ x := fun node member =>
      represents.before_ne (List.mem_append_left _ member)
    rw [first_append nonempty] at front edited ⊢
    refine ⟨detached, Function.update heap.block y (some (.node value next)), ?_, edited,
      Function.update_of_ne apart.symm _ _, segment_append.mpr ⟨next, ?_, ?_⟩⟩
    · rw [last_snoc, if_neg (represents.nonnull known)]
      exact found
    · refine front.retarget (Heap.nodeAt_eq ?_) fun node member => Heap.nodeAt_congr ?_
      · rw [Function.update_of_ne apart, Function.update_self]
      · rw [Function.update_of_ne (init_ne node member),
          Function.update_of_ne (whole.before_ne member)]
    · refine behind.frame fun node member => Heap.nodeAt_congr ?_
      rw [Function.update_of_ne (after_ne node member), Function.update_of_ne]
      intro same
      exact (whole.rest_ne (List.mem_cons_of_mem _ member)) same

/-- The node leaves the list and is freed. -/
theorem unlink_spec {item : Addr} (fuel : Nat)
    (represents : Represents queue (before ++ (x, item) :: rest) heap)
    (found : compare item data = 0) : ∃ after,
    unlinkNode queue compare data (fuel + 1) (last before) x heap = some (item, after) ∧
      Represents queue (before ++ rest) after := by
  obtain ⟨b, _, same, next, here, behind⟩ := segment_append.mp represents.chain
  have known : x ∈ (before ++ (x, item) :: rest).map Prod.fst := by simp
  have apart := represents.ne_queue known
  obtain ⟨h₁, base, detached, edited, block, chain⟩ := detach_spec represents behind
  have record := Heap.queue_eq edited.record
  obtain ⟨h₂, rear, edited⟩ : ∃ h₂,
      (if x = last (before ++ (x, item) :: rest) then
        h₁.setQueue queue fun cell => { cell with rear := last before } else some h₁) = some h₂ ∧
      Edited queue base ⟨first (before ++ rest), last (before ++ rest),
        Int32.ofNat (before ++ (x, item) :: rest).length⟩ h₂ := by
    by_cases only : rest = []
    · subst only
      rw [last_snoc, if_pos rfl, List.append_nil]
      rw [List.append_nil] at edited
      exact edited.setQueue fun cell => { cell with rear := last before }
    · have moved : last (before ++ (x, item) :: rest) = last (before ++ rest) := by
        rw [last_append (List.cons_ne_nil _ _), last_cons only, last_append only]
      rw [moved] at edited ⊢
      refine ⟨h₁, if_neg ?_, edited⟩
      rw [last_append only]
      intro same
      obtain ⟨node, member, last_eq⟩ := List.mem_map.mp (last_mem only)
      exact represents.rest_ne member (last_eq.trans same.symm)
  have still : h₂.node x = some (item, next) := by
    rw [← here]
    exact Heap.nodeAt_congr ((edited.elsewhere apart).trans block)
  obtain ⟨h₃, freed, edited⟩ := edited.freeMemory apart (block.trans (Heap.block_of_node here))
  obtain ⟨h₄, size, edited⟩ := edited.setQueue fun cell => { cell with size := cell.size - 1 }
  refine ⟨h₄, ?_, ?_⟩
  · rw [unlinkNode, if_neg (represents.nonnull known), here]
    simp only [Option.bind_eq_bind, Option.bind_some]
    rw [if_pos found, detached, Option.bind_some, record, Option.bind_some, rear,
      Option.bind_some, still, Option.bind_some, freed, Option.bind_some, size]
    rfl
  · have shorter : (before ++ (x, item) :: rest).length = (before ++ rest).length + 1 := by
      simp only [List.length_append, List.length_cons]
      omega
    rw [shorter, length_pred] at edited
    refine edited.represents chain fun member => ?_
    rw [List.map_append, List.mem_append] at member
    refine represents.ne_queue ?_ rfl
    rw [List.map_append, List.mem_append, List.map_cons]
    exact member.imp_right (List.mem_cons_of_mem _)

theorem unlinkNode_spec (represents : Represents queue (before ++ rest) heap)
    (segment : Segment heap.node a rest 0) (enough : rest.length < fuel) : ∃ after nodes,
    unlinkNode queue compare data fuel (last before) a heap =
      some (((rest.map Prod.snd).find? fun item => compare item data = 0).getD 0, after) ∧
    Represents queue nodes after ∧ nodes.map Prod.snd =
      before.map Prod.snd ++ (rest.map Prod.snd).eraseP fun item => compare item data = 0 := by
  induction rest generalizing before a fuel with
  | nil =>
    obtain rfl := segment
    obtain ⟨fuel, rfl⟩ := exists_fuel enough
    exact ⟨heap, before ++ [], rfl, represents, List.map_append⟩
  | cons node rest ih =>
    obtain ⟨fuel, rfl⟩ := exists_fuel enough
    obtain ⟨x, item⟩ := node
    obtain ⟨start, next, here, behind⟩ := segment
    obtain rfl : x = a := start.symm
    by_cases found : compare item data = 0
    · obtain ⟨after, run, left⟩ := unlink_spec fuel represents found
      refine ⟨after, before ++ rest, ?_, left, ?_⟩
      · rw [run, List.map_cons, List.find?_cons_of_pos (by simpa using found)]
        rfl
      · rw [List.map_append, List.map_cons, List.eraseP_cons_of_pos (by simpa using found)]
    · have known : x ∈ (before ++ (x, item) :: rest).map Prod.fst := by simp
      have present := represents.nonnull known
      rw [List.append_cons] at represents
      obtain ⟨after, nodes, run, left, items⟩ :=
        ih represents behind (Nat.lt_of_succ_lt_succ enough)
      rw [last_snoc] at run
      refine ⟨after, nodes, ?_, left, ?_⟩
      · rw [unlinkNode, if_neg present, here]
        simp only [Option.bind_eq_bind, Option.bind_some]
        rw [if_neg found, run, List.map_cons, List.find?_cons_of_neg (by simpa using found)]
      · rw [items, List.map_cons, List.eraseP_cons_of_neg (by simpa using found), List.map_append,
          List.append_assoc]
        rfl

theorem removeFromQueue_spec (compare : Compare) (data : Addr)
    (represents : Represents queue nodes heap) (enough : nodes.length < fuel) :
    ∃ after nodes', removeFromQueue fuel queue data (some compare) heap =
      some (((nodes.map Prod.snd).find? fun item => compare item data = 0).getD 0, after) ∧
    Represents queue nodes' after ∧ nodes'.map Prod.snd =
      (nodes.map Prod.snd).eraseP fun item => compare item data = 0 := by
  unfold removeFromQueue
  dsimp only
  rw [if_neg represents.queue_ne, Heap.queue_eq represents.record]
  have whole : Represents queue ([] ++ nodes) heap := represents
  exact unlinkNode_spec whole represents.chain enough

theorem freeNodes_spec (segment : Segment heap.node a nodes 0) (enough : nodes.length < fuel) :
    ∃ after, freeNodes fuel a heap = some after ∧
      ∀ y, y ∉ nodes.map Prod.fst → after.block y = heap.block y := by
  induction nodes generalizing a fuel heap with
  | nil =>
    obtain rfl := segment
    obtain ⟨fuel, rfl⟩ := exists_fuel enough
    exact ⟨heap, rfl, fun _ _ => rfl⟩
  | cons node nodes ih =>
    obtain ⟨fuel, rfl⟩ := exists_fuel enough
    have unique := segment.nodup Heap.node_null
    obtain ⟨x, item⟩ := node
    obtain ⟨start, next, here, rest⟩ := segment
    obtain rfl : x = a := start.symm
    have block := Heap.block_of_node here
    obtain ⟨freed, found, b⟩ := Heap.freeMemory_eq block
    have behind : Segment freed.node next nodes 0 := rest.frame fun node member => by
      refine Heap.nodeAt_congr ?_
      rw [b, Function.update_of_ne]
      intro same
      exact (List.nodup_cons.mp unique).1 (List.mem_map.mpr ⟨node, member, same⟩)
    obtain ⟨after, run, other⟩ := ih behind (Nat.lt_of_succ_lt_succ enough)
    refine ⟨after, ?_, fun y outside => ?_⟩
    · rw [freeNodes, if_neg (Heap.node_nonnull here), here]
      simp only [Option.bind_eq_bind, Option.bind_some]
      rw [found, Option.bind_some, run]
    · rw [List.map_cons, List.mem_cons, not_or] at outside
      rw [other y outside.2, b, Function.update_of_ne outside.1]

theorem clearQueue_spec (represents : Represents queue nodes heap) (enough : nodes.length < fuel) :
    ∃ after, clearQueue fuel queue heap = some after ∧ Represents queue [] after := by
  obtain ⟨h₁, freed, other⟩ := freeNodes_spec represents.chain enough
  have record := (other queue fun member => represents.ne_queue member rfl).trans represents.record
  obtain ⟨h₂, front, edited⟩ :=
    (Edited.of_record record).setQueue fun cell => { cell with front := 0 }
  obtain ⟨h₃, rear, edited⟩ := edited.setQueue fun cell => { cell with rear := 0 }
  obtain ⟨h₄, size, edited⟩ := edited.setQueue fun cell => { cell with size := 0 }
  refine ⟨h₄, ?_, edited.record, rfl⟩
  unfold clearQueue
  rw [if_neg represents.queue_ne, Heap.queue_eq represents.record]
  simp only [Option.bind_eq_bind, Option.bind_some]
  rw [freed, Option.bind_some, front, Option.bind_some, rear, Option.bind_some, size]

/-- The array is filled from where the loop stands. -/
theorem dumpNodes_spec {dataArray : Addr} {copied junk : List Addr}
    (segment : Segment heap.node a nodes 0) (enough : nodes.length < fuel)
    (array : heap.block dataArray = some (.array (copied ++ junk)))
    (room : junk.length = nodes.length) : ∃ after,
    dumpNodes dataArray fuel a copied.length heap = some after ∧
      after.block = Function.update heap.block dataArray
        (some (.array (copied ++ nodes.map Prod.snd))) := by
  induction nodes generalizing a fuel heap copied junk with
  | nil =>
    obtain rfl := segment
    obtain ⟨fuel, rfl⟩ := exists_fuel enough
    obtain rfl := List.length_eq_zero_iff.mp room
    exact ⟨heap, rfl, by rw [List.map_nil, ← array, Function.update_eq_self]⟩
  | cons node nodes ih =>
    obtain ⟨fuel, rfl⟩ := exists_fuel enough
    have live := segment.live
    obtain ⟨x, item⟩ := node
    obtain ⟨start, next, here, rest⟩ := segment
    obtain rfl : x = a := start.symm
    obtain ⟨word, junk, rfl⟩ := List.exists_cons_of_length_eq_add_one room
    obtain ⟨written, found, b⟩ := Heap.setItem_eq copied.length item array (by simp)
    have filled : (copied ++ word :: junk).set copied.length item = (copied ++ [item]) ++ junk := by
      simp
    rw [filled] at b
    have behind : Segment written.node next nodes 0 := rest.frame fun node member => by
      refine Heap.nodeAt_congr ?_
      rw [b, Function.update_of_ne]
      rintro rfl
      refine live node (List.mem_cons_of_mem _ member) ?_
      unfold Heap.node nodeAt
      rw [array]
    obtain ⟨after, run, block⟩ := ih behind (Nat.lt_of_succ_lt_succ enough)
      (by rw [b, Function.update_self]) (Nat.succ.inj room)
    rw [List.length_append, List.length_singleton] at run
    refine ⟨after, ?_, ?_⟩
    · rw [dumpNodes, if_neg (Heap.node_nonnull here), here]
      simp only [Option.bind_eq_bind, Option.bind_some]
      rw [found, Option.bind_some, run]
    · rw [block, b, Function.update_idem, List.append_assoc]
      rfl

theorem dumpSize_eq (represents : Represents queue nodes heap) :
    dumpSize ⟨first nodes, last nodes, Int32.ofNat nodes.length⟩ = 8 * nodes.length := by
  have short := represents.length_lt
  unfold dumpSize
  dsimp only
  rw [Int32.toInt_ofNat_of_lt short]
  omega

theorem size_eq_zero_iff (represents : Represents queue nodes heap) :
    Int32.ofNat nodes.length = 0 ↔ nodes = [] := by
  constructor
  · intro zero
    have size := Int32.toInt_ofNat_of_lt represents.length_lt
    rw [zero] at size
    exact List.length_eq_zero_iff.mp (Int.ofNat.inj size.symm)
  · rintro rfl
    rfl

theorem dumpQueue_null (represents : Represents queue nodes heap)
    (null : nodes = [] ∨ memory.allocMemory (8 * nodes.length) heap = 0) :
    dumpQueue memory fuel queue heap = some (0, heap) := by
  unfold dumpQueue
  rw [if_neg represents.queue_ne, Heap.queue_eq represents.record]
  simp only [Option.bind_eq_bind, Option.bind_some, size_eq_zero_iff represents,
    dumpSize_eq represents]
  split
  · rfl
  · rename_i some
    rw [Heap.allocate_fails _ (null.resolve_left some)]
    rfl

/-- The caller gets an array of its own with all the data. -/
theorem dumpQueue_spec (represents : Represents queue nodes heap) (enough : nodes.length < fuel)
    (some : nodes ≠ []) (granted : memory.allocMemory (8 * nodes.length) heap ≠ 0) :
    ∃ dataArray after, dumpQueue memory fuel queue heap = Option.some (dataArray, after) ∧
      dataArray ≠ 0 ∧ Represents queue nodes after ∧
      after.array dataArray = Option.some (nodes.map Prod.snd) := by
  have fresh := memory.fresh (8 * nodes.length) heap
  obtain ⟨h₁, allocated, b⟩ := Heap.allocate_eq (fun garbage =>
    .array ((List.range (8 * nodes.length / 8)).map garbage)) granted
  obtain ⟨dataArray, here⟩ : ∃ dataArray,
    dataArray = memory.allocMemory (8 * nodes.length) heap := ⟨_, rfl⟩
  rw [← here] at granted fresh allocated b
  have apart : ∀ x, x = queue ∨ x ∈ nodes.map Prod.fst → x ≠ dataArray := by
    rintro x known rfl
    rcases known with rfl | member
    · rw [represents.record] at fresh
      cases fresh
    · obtain ⟨data, next, here⟩ := represents.block member
      rw [here] at fresh
      cases fresh
  have kept : Represents queue nodes h₁ := represents.frame fun x known => by
    rw [b, Function.update_of_ne (apart x known)]
  have array : h₁.block dataArray = Option.some (.array ([] ++
      (List.range (8 * nodes.length / 8)).map (memory.garbage (8 * nodes.length) heap))) := by
    rw [b, Function.update_self]
    rfl
  obtain ⟨after, run, filled⟩ := dumpNodes_spec kept.chain enough array (by simp)
  refine ⟨dataArray, after, ?_, granted, kept.frame fun x known => ?_, ?_⟩
  · unfold dumpQueue
    rw [if_neg represents.queue_ne, Heap.queue_eq represents.record]
    simp only [Option.bind_eq_bind, Option.bind_some, size_eq_zero_iff represents,
      dumpSize_eq represents]
    rw [if_neg some, allocated]
    dsimp only
    rw [if_neg granted]
    exact congrArg (fun filled => Option.bind filled fun heap => Option.some (dataArray, heap)) run
  · rw [filled, Function.update_of_ne (apart x known)]
  · refine Heap.array_eq ?_
    rw [filled, Function.update_self]
    rfl

end SoKernel.QueueNodes
