import SoKernel.Memory.SplitMerge
import SoKernel.Memory.RequestLevel
import SoKernel.Lib.LinkedList

namespace SoKernel.Buddy
open Lib

variable {heap : Heap} {p : Partition} {a b level other held x : Nat} {items rest : List Nat}

/-! ## Headers after an edit -/

namespace Heap

@[simp] theorem edit_manager (change) : (heap.edit a change).manager = heap.manager := rfl
@[simp] theorem edit_memoryManager (change) :
    (heap.edit a change).memoryManager = heap.memoryManager := rfl
@[simp] theorem setManager_header (change) : (heap.setManager change).header = heap.header := rfl
@[simp] theorem setManager_manager (change) :
    (heap.setManager change).manager = change heap.manager := rfl
@[simp] theorem setManager_memoryManager (change) :
    (heap.setManager change).memoryManager = heap.memoryManager := rfl

theorem edit_header (change) :
    (heap.edit a change).header x = if x = a then change (heap.header a) else heap.header x := by
  by_cases same : x = a
  · subst same
    simp [edit]
  · simp [edit, same]

/-- `items` is the doubly linked list of free blocks that starts at `blocks[level]`. -/
def Lists (heap : Heap) (level : Nat) (items : List Nat) : Prop :=
  Linked 0 (fun a => (heap.header a).next) (fun a => (heap.header a).prev) 0
    (heap.manager.blocks level) items

theorem Lists.head_mem (lists : heap.Lists level items) (present : heap.manager.blocks level ≠ 0) :
    heap.manager.blocks level ∈ items := by
  cases items with
  | nil => exact absurd lists present
  | cons first rest => simp [Linked.head_eq lists]

theorem link_manager : (heap.link level a).manager =
    { heap.manager with blocks := Function.update heap.manager.blocks level a } := by
  by_cases empty : heap.manager.blocks level = 0 <;>
    simp [link, setNext, setPrev, setList, empty]

theorem link_memoryManager : (heap.link level a).memoryManager = heap.memoryManager := by
  by_cases empty : heap.manager.blocks level = 0 <;>
    simp [link, setNext, setPrev, setList, empty]

/-- `link` writes the new block's `next` and the old head's `prev`. -/
theorem link_header (different : heap.manager.blocks level ≠ a) :
    (heap.link level a).header x =
      if x = a then { heap.header a with next := heap.manager.blocks level }
      else if x = heap.manager.blocks level ∧ x ≠ 0 then { heap.header x with prev := a }
      else heap.header x := by
  by_cases empty : heap.manager.blocks level = 0
  · by_cases same : x = a
    · simp [link, setNext, setList, empty, edit_header, same]
    · by_cases zero : x = 0 <;> simp [link, setNext, setList, empty, edit_header, same, zero]
  · by_cases same : x = a
    · subst same
      simp [link, setNext, setPrev, setList, empty, edit_header, Ne.symm different]
    · by_cases head : x = heap.manager.blocks level
      · subst head
        simp [link, setNext, setPrev, setList, empty, edit_header, same]
      · simp [link, setNext, setPrev, setList, empty, edit_header, same, head]

theorem takeHead_manager : (heap.takeHead level a).manager =
    { heap.manager with blocks := Function.update heap.manager.blocks level (heap.header a).next } := by
  by_cases last : (heap.header a).next = 0 <;>
    simp [takeHead, setNext, setPrev, setList, last]

theorem takeHead_memoryManager : (heap.takeHead level a).memoryManager = heap.memoryManager := by
  by_cases last : (heap.header a).next = 0 <;>
    simp [takeHead, setNext, setPrev, setList, last]

/-- `takeHead` clears the head's links and the next block's `prev`. -/
theorem takeHead_header (different : (heap.header a).next ≠ a) :
    (heap.takeHead level a).header x =
      if x = a then { heap.header a with next := 0, prev := 0 }
      else if x = (heap.header a).next ∧ x ≠ 0 then { heap.header x with prev := 0 }
      else heap.header x := by
  by_cases last : (heap.header a).next = 0
  · by_cases same : x = a
    · simp [takeHead, setNext, setPrev, setList, last, edit_header, same]
    · by_cases zero : x = 0
      · subst zero
        simp [takeHead, setNext, setPrev, setList, last, edit_header, same]
      · simp [takeHead, setNext, setPrev, setList, last, edit_header, same, zero]
  · by_cases same : x = a
    · subst same
      simp [takeHead, setNext, setPrev, setList, last, edit_header, Ne.symm different]
    · by_cases following : x = (heap.header a).next
      · rw [if_neg same, if_pos ⟨following, following ▸ last⟩]
        simp [takeHead, setNext, setPrev, setList, last, edit_header, following, different]
      · simp [takeHead, setNext, setPrev, setList, last, edit_header, same, following]

theorem unlink_manager : (heap.unlink a).manager =
    if (heap.header a).prev = 0 then
      { heap.manager with
        blocks := Function.update heap.manager.blocks (heap.header a).level (heap.header a).next }
    else heap.manager := by
  by_cases first : (heap.header a).prev = 0
  · by_cases last : (heap.header a).next = 0 <;>
      simp [unlink, setPrev, setList, first, last]
  · simp only [unlink, first, ne_eq, not_false_eq_true, if_true, if_false]
    split <;> simp [setNext, setPrev]

theorem unlink_memoryManager : (heap.unlink a).memoryManager = heap.memoryManager := by
  simp only [unlink, setNext, setPrev, setList]
  split <;> split <;> rfl

/-- `unlink` writes the predecessor's `next` and the successor's `prev`. -/
theorem unlink_header (one : (heap.header a).prev ≠ a)
    (apart : (heap.header a).prev = 0 ∨ (heap.header a).prev ≠ (heap.header a).next) :
    (heap.unlink a).header x =
      if x = (heap.header a).prev ∧ x ≠ 0 then { heap.header x with next := (heap.header a).next }
      else if x = (heap.header a).next ∧ x ≠ 0 then { heap.header x with prev := (heap.header a).prev }
      else heap.header x := by
  by_cases first : (heap.header a).prev = 0
  · by_cases last : (heap.header a).next = 0
    · by_cases zero : x = 0 <;> simp [unlink, setList, first, last, zero]
    · by_cases following : x = (heap.header a).next
      · subst following
        simp [unlink, setPrev, setList, first, last, edit_header]
      · by_cases zero : x = 0
        · subst zero
          simp [unlink, setPrev, setList, first, last, edit_header, following]
        · simp [unlink, setPrev, setList, first, last, edit_header, following, zero]
  · have distinct : (heap.header a).prev ≠ (heap.header a).next := apart.resolve_left first
    have kept :
        ((heap.setNext (heap.header a).prev (heap.header a).next).header a) = heap.header a := by
      simp [setNext, edit_header, Ne.symm one]
    simp only [unlink, ne_eq, first, not_false_eq_true, if_true, kept]
    by_cases last : (heap.header a).next = 0
    · by_cases before : x = (heap.header a).prev
      · subst before
        simp [setNext, last, edit_header, first]
      · by_cases zero : x = 0
        · subst zero
          simp [setNext, last, edit_header, before]
        · simp [setNext, last, edit_header, before, zero]
    · by_cases before : x = (heap.header a).prev
      · subst before
        simp [setNext, setPrev, last, edit_header, first, distinct]
      · by_cases following : x = (heap.header a).next
        · subst following
          simp [setNext, setPrev, last, edit_header, before]
        · simp [setNext, setPrev, last, edit_header, before, following]

end Heap

/-! ## Heaps that represent a partition -/

/-- The headers and list heads spell out the partition `p`. The block `held` is
being handed out: its state field is not settled yet. -/
structure Represents (held : Nat) (heap : Heap) (p : Partition) : Prop where
  created : heap.memoryManager ≠ 0
  status : heap.manager.status = .ok
  managed : heap.manager.managedMemory = heapStartAddress
  size : heap.manager.memorySize = heapSize
  lists : ∀ {level}, 1 ≤ level → level < blockLists → heap.Lists level (p.free level)
  free : ∀ {a level}, a ∈ p.free level →
    (heap.header a).level = level ∧ (heap.header a).blockState = .free
  allocated : ∀ {a level}, (a, level) ∈ p.allocated →
    (heap.header a).level = level ∧ (a ≠ held → (heap.header a).blockState = .allocated) ∧
      (heap.header a).next = 0 ∧ (heap.header a).prev = 0

namespace Partition

/-- No address is in two places of the partition. -/
structure Separate (p : Partition) : Prop where
  nodup : ∀ level, (p.free level).Nodup
  unique : ∀ {a level other}, a ∈ p.free level → a ∈ p.free other → level = other
  apart : ∀ {a level other}, a ∈ p.free level → (a, other) ∉ p.allocated
  inRange : ∀ {a level}, a ∈ p.free level → a ≠ 0 ∧ 1 ≤ level ∧ level < blockLists
  nonzero : ∀ {a level}, (a, level) ∈ p.allocated → a ≠ 0

def Outside (a : Nat) (p : Partition) : Prop := ∀ level, ¬ p.Block a level

def push (p : Partition) (level a : Nat) : Partition :=
  { p with free := Function.update p.free level (a :: p.free level) }

def remove (p : Partition) (level a : Nat) : Partition :=
  { p with free := Function.update p.free level ((p.free level).erase a) }

theorem WellFormed.separate (valid : p.WellFormed) : p.Separate where
  nodup := valid.freeNodup
  unique first second := valid.level_unique (.inl first) (.inl second)
  apart := valid.apart
  inRange free := by
    have low := valid.large (.inl free)
    have high := valid.level_le (.inl free)
    exact ⟨valid.pos (.inl free), by omega, by unfold blockLists maxLevel; omega⟩
  nonzero allocated := valid.pos (.inr allocated)

theorem mem_push : b ∈ (p.push level a).free other ↔ (other = level ∧ b = a) ∨ b ∈ p.free other := by
  by_cases same : other = level
  · subst same
    simp [push]
  · simp [push, same]

theorem Separate.mem_remove (separate : p.Separate) :
    b ∈ (p.remove level a).free other ↔ b ∈ p.free other ∧ (other = level → b ≠ a) := by
  by_cases same : other = level
  · subst same
    simp only [remove, Function.update_self]
    rw [(separate.nodup other).mem_erase_iff]
    tauto
  · simp [remove, same]

theorem Separate.remove (separate : p.Separate) : (p.remove level a).Separate where
  nodup := by
    intro other
    by_cases same : other = level
    · subst same
      simpa [Partition.remove] using (separate.nodup other).erase a
    · simpa [Partition.remove, same] using separate.nodup other
  unique first second :=
    separate.unique (separate.mem_remove.mp first).1 (separate.mem_remove.mp second).1
  apart member := separate.apart (separate.mem_remove.mp member).1
  inRange member := separate.inRange (separate.mem_remove.mp member).1
  nonzero := separate.nonzero

end Partition

open Buddy.Partition

/-- Two heaps with the same list heads and the same headers on the blocks of a
list hold the same list. -/
theorem Heap.Lists.frame (heap' : Heap) (lists : heap.Lists level items)
    (heads : heap'.manager.blocks level = heap.manager.blocks level)
    (headers : ∀ x ∈ items, heap'.header x = heap.header x) : heap'.Lists level items := by
  unfold Heap.Lists at *
  rw [heads]
  apply Linked.frame lists
  · intro y member
    rw [headers y member]
  · intro y member
    rw [headers y member]

/-- Writing the header of something that is not a block changes nothing. -/
theorem Represents.edit_outside (shown : Represents held heap p) (outside : Outside a p) (change) :
    Represents held (heap.edit a change) p where
  created := shown.created
  status := shown.status
  managed := shown.managed
  size := shown.size
  lists := by
    intro level low high
    apply (shown.lists low high).frame (heap.edit a change) rfl
    intro x member
    rw [Heap.edit_header, if_neg]
    rintro rfl
    exact outside level (.inl member)
  free := by
    intro b level member
    have different : b ≠ a := by rintro rfl; exact outside level (.inl member)
    rw [Heap.edit_header, if_neg different]
    exact shown.free member
  allocated := by
    intro b level member
    have different : b ≠ a := by rintro rfl; exact outside level (.inr member)
    rw [Heap.edit_header, if_neg different]
    exact shown.allocated member

theorem Represents.head_ne (shown : Represents held heap p) (outside : Outside a p)
    (present : a ≠ 0) (low : 1 ≤ level) (high : level < blockLists) :
    heap.manager.blocks level ≠ a := by
  intro same
  have head := (shown.lists low high).head_mem (by rw [same]; exact present)
  rw [same] at head
  exact outside level (.inl head)

/-- A prepared free block goes to the front of its list. -/
theorem Represents.link (shown : Represents held heap p) (separate : p.Separate)
    (outside : Outside a p) (present : a ≠ 0) (low : 1 ≤ level) (high : level < blockLists)
    (fields : (heap.header a).level = level ∧ (heap.header a).blockState = .free ∧
      (heap.header a).prev = 0) : Represents held (heap.link level a) (p.push level a) := by
  have different := shown.head_ne outside present low high
  -- A block on another list is neither the new block nor the old head.
  have untouched : ∀ {x other}, p.Block x other → other ≠ level ∨ (x, other) ∈ p.allocated →
      (heap.link level a).header x = heap.header x := by
    intro x other block elsewhere
    have fresh : x ≠ a := by rintro rfl; exact outside other block
    rw [Heap.link_header different, if_neg fresh, if_neg]
    rintro ⟨rfl, nonzero⟩
    have head := (shown.lists low high).head_mem nonzero
    rcases elsewhere with level_ne | allocated
    · rcases block with free | allocated
      · exact level_ne (separate.unique free head)
      · exact separate.apart head allocated
    · exact separate.apart head allocated
  have kept : ∀ {x}, x ≠ a → ((heap.link level a).header x).level = (heap.header x).level ∧
      ((heap.link level a).header x).blockState = (heap.header x).blockState := by
    intro x fresh
    rw [Heap.link_header different, if_neg fresh]
    split <;> exact ⟨rfl, rfl⟩
  refine ⟨?_, ?_, ?_, ?_, ?_, ?_, ?_⟩
  · rw [Heap.link_memoryManager]
    exact shown.created
  · rw [Heap.link_manager]
    exact shown.status
  · rw [Heap.link_manager]
    exact shown.managed
  · rw [Heap.link_manager]
    exact shown.size
  · intro other lower upper
    by_cases same : other = level
    · subst same
      have before := shown.lists lower upper
      unfold Heap.Lists
      simp only [Partition.push, Function.update_self, Heap.link_manager]
      apply Linked.push before present (fun member => outside other (.inl member))
      · simp [Heap.link_header different]
      · simp [Heap.link_header different, fields.2.2]
      · intro nonzero
        rw [Heap.link_header different, if_neg different, if_pos ⟨rfl, nonzero⟩]
      · intro y member
        have fresh : y ≠ a := by rintro rfl; exact outside other (.inl member)
        rw [Heap.link_header different, if_neg fresh]
        split <;> rfl
      · intro y member notHead
        have fresh : y ≠ a := by rintro rfl; exact outside other (.inl member)
        rw [Heap.link_header different, if_neg fresh, if_neg (fun head => notHead head.1)]
      · exact separate.nodup other
    · have list : (p.push level a).free other = p.free other := by simp [Partition.push, same]
      rw [list]
      apply (shown.lists lower upper).frame _ (by simp [Heap.link_manager, same])
      intro x member
      exact untouched (.inl member) (.inl same)
  · intro b other member
    rcases mem_push.mp member with ⟨rfl, rfl⟩ | old
    · rw [Heap.link_header different, if_pos rfl]
      exact ⟨fields.1, fields.2.1⟩
    · have fresh : b ≠ a := by rintro rfl; exact outside other (.inl old)
      rw [(kept fresh).1, (kept fresh).2]
      exact shown.free old
  · intro b other member
    rw [untouched (.inr member) (.inr member)]
    exact shown.allocated member

/-- The links of a listed block point inside its list. -/
theorem Represents.neighbours (shown : Represents held heap p) (separate : p.Separate)
    (free : a ∈ p.free level) :
    ∃ front back, p.free level = front ++ a :: back ∧
      ((front = [] ∧ (heap.header a).prev = 0) ∨ (heap.header a).prev ∈ front) ∧
      ((heap.header a).next = 0 ∨ (heap.header a).next ∈ back) := by
  obtain ⟨front, back, same⟩ := List.append_of_mem free
  have range := separate.inRange free
  have list := shown.lists range.2.1 range.2.2
  rw [same] at list
  exact ⟨front, back, same, list.prev_mem, list.next_mem⟩

theorem Represents.links_ne (shown : Represents held heap p) (separate : p.Separate)
    (free : a ∈ p.free level) : (heap.header a).prev ≠ a ∧ (heap.header a).next ≠ a ∧
      ((heap.header a).prev = 0 ∨ (heap.header a).prev ≠ (heap.header a).next) := by
  obtain ⟨front, back, same, before, after⟩ := shown.neighbours separate free
  have nonzero : ∀ {x}, x ∈ p.free level → x ≠ 0 := fun member => (separate.inRange member).1
  have unique := separate.nodup level
  rw [same] at unique nonzero
  have zero := nonzero (x := a) (by simp)
  obtain ⟨frontUnique, backUnique, disjoint⟩ := List.nodup_append.mp unique
  have absent := (List.nodup_cons.mp backUnique).1
  refine ⟨?_, ?_, ?_⟩
  · rcases before with ⟨_, none⟩ | member
    · omega
    · exact disjoint _ member a List.mem_cons_self
  · rcases after with none | member
    · omega
    · rintro link
      exact absent (link ▸ member)
  · rcases before with ⟨_, none⟩ | member
    · exact .inl none
    · right
      rcases after with none | other
      · rw [none]
        exact nonzero (by simp [member])
      · exact disjoint _ member _ (List.mem_cons_of_mem a other)

/-- A listed block is taken out of its list; its own header stays. -/
theorem Represents.unlink (shown : Represents held heap p) (separate : p.Separate)
    (free : a ∈ p.free level) : Represents held (heap.unlink a) (p.remove level a) := by
  obtain ⟨front, back, list, before, after⟩ := shown.neighbours separate free
  obtain ⟨one, two, distinct⟩ := shown.links_ne separate free
  have range := separate.inRange free
  have fields := shown.free free
  have unique := separate.nodup level
  rw [list] at unique
  have header := fun x => Heap.unlink_header (x := x) one distinct
  -- Only neighbours, which are on the same list, are written.
  have untouched : ∀ {x other}, p.Block x other → other ≠ level ∨ (x, other) ∈ p.allocated →
      (heap.unlink a).header x = heap.header x := by
    intro x other block elsewhere
    have notHere : x ∉ p.free level := by
      intro here
      rcases elsewhere with level_ne | allocated
      · rcases block with member | allocated
        · exact level_ne (separate.unique member here)
        · exact separate.apart here allocated
      · exact separate.apart here allocated
    rw [header x, if_neg, if_neg]
    · rintro ⟨rfl, nonzero⟩
      exact notHere (by rw [list]; simp [after.resolve_left nonzero])
    · rintro ⟨rfl, nonzero⟩
      rcases before with ⟨_, none⟩ | member
      · exact nonzero none
      · exact notHere (by rw [list]; simp [member])
  have kept : ∀ x, ((heap.unlink a).header x).level = (heap.header x).level ∧
      ((heap.unlink a).header x).blockState = (heap.header x).blockState := by
    intro x
    rw [header x]
    split
    · exact ⟨rfl, rfl⟩
    · split <;> exact ⟨rfl, rfl⟩
  refine ⟨?_, ?_, ?_, ?_, ?_, ?_, ?_⟩
  · rw [Heap.unlink_memoryManager]
    exact shown.created
  · rw [Heap.unlink_manager]
    split <;> exact shown.status
  · rw [Heap.unlink_manager]
    split <;> exact shown.managed
  · rw [Heap.unlink_manager]
    split <;> exact shown.size
  · intro other lower upper
    by_cases same : other = level
    · subst same
      have whole := shown.lists lower upper
      have erased : (p.remove other a).free other = front ++ back := by
        have absent : a ∉ front := by
          intro member
          exact (List.nodup_append.mp unique).2.2 a member a List.mem_cons_self rfl
        simp [remove, list, List.erase_append_right _ absent]
      have nonzero : ∀ {y}, y ∈ front ++ back → y ≠ 0 := by
        intro y member
        have inside : y ∈ p.free other := by
          rw [list]
          rcases List.mem_append.mp member with left | right
          · simp [left]
          · simp [right]
        exact (separate.inRange inside).1
      have zero : (0 : Nat) ∉ front ++ a :: back := by
        rw [← list]
        intro member
        exact (separate.inRange member).1 rfl
      rw [erased]
      unfold Heap.Lists at whole ⊢
      rw [list] at whole
      have head : (heap.unlink a).manager.blocks other =
          if front = [] then (heap.header a).next else heap.manager.blocks other := by
        rw [Heap.unlink_manager, fields.1]
        rcases before with ⟨empty, none⟩ | member
        · simp [empty, none]
        · have filled : front ≠ [] := List.ne_nil_of_mem member
          have linked : (heap.header a).prev ≠ 0 := nonzero (List.mem_append_left back member)
          simp [filled, linked]
      rw [head]
      apply Linked.unlink whole unique zero
      · intro y member
        have present := nonzero member
        rw [header y]
        by_cases previous : y = (heap.header a).prev
        · rw [if_pos ⟨previous, present⟩, if_pos previous]
        · rw [if_neg (fun both => previous both.1), if_neg previous]
          split <;> rfl
      · intro y member
        have present := nonzero member
        rw [header y]
        by_cases previous : y = (heap.header a).prev
        · have apart := distinct.resolve_left (by rw [← previous]; exact present)
          rw [if_pos ⟨previous, present⟩, if_neg (by rw [previous]; exact apart)]
        · rw [if_neg (fun both => previous both.1)]
          by_cases following : y = (heap.header a).next
          · rw [if_pos ⟨following, present⟩, if_pos following]
          · rw [if_neg (fun both => following both.1), if_neg following]
    · have sameList : (p.remove level a).free other = p.free other := by simp [remove, same]
      rw [sameList]
      apply (shown.lists lower upper).frame
      · rw [Heap.unlink_manager, fields.1]
        split
        · simp [same]
        · rfl
      · intro x member
        exact untouched (.inl member) (.inl same)
  · intro b other member
    rw [(kept b).1, (kept b).2]
    exact shown.free (separate.mem_remove.mp member).1
  · intro b other member
    rw [untouched (.inr member) (.inr member)]
    exact shown.allocated member

/-- The head of a list is taken off and handed out. -/
theorem Represents.takeHead (shown : Represents 0 heap p) (separate : p.Separate)
    (head : p.free level = a :: rest) :
    Represents a (heap.takeHead level a) (p.claim level) := by
  have free : a ∈ p.free level := by rw [head]; exact List.mem_cons_self
  have range := separate.inRange free
  have unique := separate.nodup level
  rw [head] at unique
  have absent := (List.nodup_cons.mp unique).1
  have list := shown.lists range.2.1 range.2.2
  rw [head] at list
  have follow : (heap.header a).next = 0 ∨ (heap.header a).next ∈ rest :=
    Linked.next_mem (show Linked 0 _ _ _ _ ([] ++ a :: rest) from list)
  have different := (shown.links_ne separate free).2.1
  have header : ∀ x, (heap.takeHead level a).header x = _ :=
    fun _ => Heap.takeHead_header different
  have fields : ∀ {x}, x ≠ a →
      ((heap.takeHead level a).header x).level = (heap.header x).level ∧
        ((heap.takeHead level a).header x).blockState = (heap.header x).blockState := by
    intro x other
    rw [header x, if_neg other]
    split <;> exact ⟨rfl, rfl⟩
  have untouched : ∀ {x}, x ∉ p.free level → (heap.takeHead level a).header x = heap.header x := by
    intro x elsewhere
    have other : x ≠ a := by rintro rfl; exact elsewhere free
    rw [header x, if_neg other, if_neg]
    rintro ⟨rfl, nonzero⟩
    exact elsewhere (by rw [head]; exact List.mem_cons_of_mem a (follow.resolve_left nonzero))
  have lists : ∀ other, (p.claim level).free other =
      if other = level then rest else p.free other := by
    intro other
    by_cases same : other = level
    · simp [claim, head, same]
    · simp [claim, head, same]
  have inList : ∀ {x other}, x ∈ (p.claim level).free other → x ∈ p.free other ∧ x ≠ a := by
    intro x other member
    rw [lists] at member
    by_cases same : other = level
    · rw [if_pos same] at member
      subst same
      exact ⟨by rw [head]; exact List.mem_cons_of_mem a member, by rintro rfl; exact absent member⟩
    · rw [if_neg same] at member
      exact ⟨member, by rintro rfl; exact same (separate.unique member free)⟩
  refine ⟨?_, ?_, ?_, ?_, ?_, ?_, ?_⟩
  · rw [Heap.takeHead_memoryManager]
    exact shown.created
  · rw [Heap.takeHead_manager]
    exact shown.status
  · rw [Heap.takeHead_manager]
    exact shown.managed
  · rw [Heap.takeHead_manager]
    exact shown.size
  · intro other lower upper
    rw [lists]
    by_cases same : other = level
    · rw [if_pos same]
      subst same
      unfold Heap.Lists
      simp only [Heap.takeHead_manager, Function.update_self]
      apply Linked.pop list
      · intro nonzero
        rw [header, if_neg different, if_pos ⟨rfl, nonzero⟩]
      · intro y member
        have other : y ≠ a := by rintro rfl; exact absent member
        rw [header y, if_neg other]
        split <;> rfl
      · intro y member second
        have other : y ≠ a := by rintro rfl; exact absent member
        rw [header y, if_neg other, if_neg (fun both => second both.1)]
      · exact (List.nodup_cons.mp unique).2
    · rw [if_neg same]
      apply (shown.lists lower upper).frame
      · simp [Heap.takeHead_manager, same]
      · intro x member
        exact untouched (fun here => same (separate.unique member here))
  · intro b other member
    obtain ⟨old, fresh⟩ := inList member
    rw [(fields fresh).1, (fields fresh).2]
    exact shown.free old
  · intro b other member
    simp only [claim, head, List.mem_cons, Prod.mk.injEq] at member
    rcases member with ⟨rfl, rfl⟩ | old
    · rw [header b, if_pos rfl]
      exact ⟨(shown.free free).1, fun away => absurd rfl away, rfl, rfl⟩
    · have fresh : b ≠ a := by rintro rfl; exact separate.apart free old
      rw [untouched (fun here => separate.apart here old)]
      obtain ⟨sameLevel, state, links⟩ := shown.allocated old
      exact ⟨sameLevel, fun _ => state (separate.nonzero old), links⟩

end SoKernel.Buddy
