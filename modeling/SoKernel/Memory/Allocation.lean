import SoKernel.Memory.Representation

namespace SoKernel.Buddy
open Lib Buddy.Partition

variable {heap heap' : Heap} {p q : Partition} {a b held level target i fuel x n : Nat}
variable {rest : List Nat}

/-- What a search for a block leaves alone: the counters, list 0, which no
request uses, and every address that is not the start of a block. -/
structure Kept (heap heap' : Heap) (q : Partition) : Prop where
  used : heap'.manager.usedMemory = heap.manager.usedMemory
  list0 : heap'.manager.blocks 0 = heap.manager.blocks 0
  header : ∀ {x}, Outside x q → heap'.header x = heap.header x

theorem Kept.refl : Kept heap heap q := ⟨rfl, rfl, fun _ => rfl⟩

theorem Kept.trans {middle : Heap} (first : Kept heap middle p) (second : Kept middle heap' q)
    (grows : ∀ {x}, Outside x q → Outside x p) : Kept heap heap' q where
  used := second.used.trans first.used
  list0 := second.list0.trans first.list0
  header outside := (second.header outside).trans (first.header (grows outside))

/-! ## Splitting -/

@[simp] theorem initMemoryBlock_manager :
    (initMemoryBlock a level heap).manager = heap.manager := rfl

theorem initMemoryBlock_header : (initMemoryBlock a level heap).header x =
    if x = a then ⟨level, .free, 0, 0⟩ else heap.header x := Heap.edit_header _

/-- The allocated block `a` shrinks to its left half; nothing covers the right half yet. -/
def Partition.shrink (p : Partition) (a level : Nat) : Partition :=
  { p with allocated := (a, level) :: p.allocated.erase (a, level + 1) }

theorem Partition.halve_eq_push :
    p.halve a level = (p.shrink a level).push level (a + 2 ^ level) := rfl

theorem shrink_separate (valid : p.WellFormed) (present : (a, level + 1) ∈ p.allocated) :
    (p.shrink a level).Separate where
  nodup := valid.freeNodup
  unique := valid.separate.unique
  apart := by
    intro b k j free member
    simp only [shrink, List.mem_cons, Prod.mk.injEq, valid.erase_allocated present] at member
    rcases member with ⟨rfl, _⟩ | ⟨old, _⟩
    · exact valid.apart free present
    · exact valid.apart free old
  inRange := valid.separate.inRange
  nonzero := by
    intro b k member
    simp only [shrink, List.mem_cons, Prod.mk.injEq, valid.erase_allocated present] at member
    rcases member with ⟨rfl, _⟩ | ⟨old, _⟩
    · exact valid.pos (.inr present)
    · exact valid.pos (.inr old)

theorem shrink_outside (valid : p.WellFormed) (present : (a, level + 1) ∈ p.allocated) :
    Outside (a + 2 ^ level) (p.shrink a level) := by
  have wide := Nat.two_pow_pos level
  intro k block
  rcases block with free | member
  · exact valid.middle_not_block (.inr present) (.inl free)
  · simp only [shrink, List.mem_cons, Prod.mk.injEq, valid.erase_allocated present] at member
    rcases member with ⟨same, _⟩ | ⟨old, _⟩
    · omega
    · exact valid.middle_not_block (.inr present) (.inr old)

/-- The header of the block being split is rewritten for its left half. -/
theorem Represents.shrink (shown : Represents a heap p) (valid : p.WellFormed)
    (present : (a, level + 1) ∈ p.allocated) :
    Represents a (initMemoryBlock a level (heap.setState a .split)) (p.shrink a level) := by
  have header : ∀ x, (initMemoryBlock a level (heap.setState a .split)).header x =
      if x = a then ⟨level, .free, 0, 0⟩ else heap.header x := by
    intro x
    rw [initMemoryBlock_header, Heap.setState, Heap.edit_header]
    by_cases same : x = a
    · rw [if_pos same, if_pos same]
    · rw [if_neg same, if_neg same, if_neg same]
  have notFree : ∀ {x k}, x ∈ p.free k → x ≠ a := by
    rintro x k free rfl
    exact valid.apart free present
  refine ⟨shown.created, shown.status, shown.managed, shown.size, ?_, ?_, ?_⟩
  · intro k low high
    apply (shown.lists low high).frame
      (initMemoryBlock a level (heap.setState a .split)) rfl
    intro x member
    rw [header x, if_neg (notFree member)]
  · intro b k member
    rw [header b, if_neg (notFree member)]
    exact shown.free member
  · intro b k member
    simp only [Partition.shrink, List.mem_cons, Prod.mk.injEq,
      valid.erase_allocated present] at member
    rcases member with ⟨rfl, rfl⟩ | ⟨old, different⟩
    · rw [header b, if_pos rfl]
      exact ⟨rfl, fun away => absurd rfl away, rfl, rfl⟩
    · rw [header b, if_neg different]
      exact shown.allocated old

/-- One round of the loop of `splitBlockToLevel`. -/
def halveBlock (block newLevel : Nat) (heap : Heap) : Heap :=
  let heap := heap.setState block .split
  let rightChild := u64 (block + shiftOne newLevel)
  (initMemoryBlock rightChild newLevel (initMemoryBlock block newLevel heap)).link newLevel
    rightChild

theorem splitBlockToLevel_self : splitBlockToLevel a level level heap = (a, heap) := by
  cases level <;> simp [splitBlockToLevel]

theorem splitBlockToLevel_halve (above : target < level + 1) :
    splitBlockToLevel a (level + 1) target heap =
      splitBlockToLevel a level target (halveBlock a level heap) := by
  rw [splitBlockToLevel, if_neg (by omega)]
  by_cases last : level = target
  · rw [← last, splitBlockToLevel_self]
    simp [halveBlock]
  · simp [last, halveBlock]

theorem halveBlock_refines (shown : Represents a heap p) (valid : p.WellFormed)
    (present : (a, level + 1) ∈ p.allocated) (large : 5 ≤ level) :
    Represents a (halveBlock a level heap) (p.halve a level) ∧
      Kept heap (halveBlock a level heap) (p.halve a level) := by
  have block : p.Block a (level + 1) := .inr present
  have top := valid.level_le block
  have bounds := valid.bounds block
  have child : u64 (a + shiftOne level) = a + 2 ^ level := by
    rw [shiftOne_of_lt (by omega)]
    apply u64_of_lt
    rw [Nat.pow_succ, regionEnd_eq] at bounds
    unfold heapStartAddress at bounds
    omega
  have outside := shrink_outside valid present
  have prepared : Represents a (initMemoryBlock (a + 2 ^ level) level
      (initMemoryBlock a level (heap.setState a .split))) (p.shrink a level) :=
    (shown.shrink valid present).edit_outside outside _
  have positive : a + 2 ^ level ≠ 0 := by
    have wide := Nat.two_pow_pos level
    omega
  have upper : level < blockLists := by unfold blockLists maxLevel; omega
  constructor
  · simp only [halveBlock, child]
    rw [halve_eq_push]
    apply prepared.link (shrink_separate valid present) outside positive (by omega) upper
    rw [initMemoryBlock_header, if_pos rfl]
    exact ⟨rfl, rfl, rfl⟩
  · have different := prepared.head_ne outside positive (by omega : 1 ≤ level) upper
    refine ⟨?_, ?_, ?_⟩
    · simp only [halveBlock, child, Heap.link_manager]
      rfl
    · simp only [halveBlock, child, Heap.link_manager]
      rw [Function.update_of_ne (by omega)]
      rfl
    · intro x away
      have fresh : x ≠ a + 2 ^ level := by
        rintro rfl
        exact away level ((halve_block valid present).mpr (.inr (.inr ⟨rfl, rfl⟩)))
      have apart : x ≠ a := by
        rintro rfl
        exact away level ((halve_block valid present).mpr (.inr (.inl ⟨rfl, rfl⟩)))
      simp only [halveBlock, child]
      rw [Heap.link_header different, if_neg fresh, if_neg, initMemoryBlock_header, if_neg fresh,
        initMemoryBlock_header, if_neg apart, Heap.setState, Heap.edit_header, if_neg apart]
      rintro ⟨rfl, nonzero⟩
      have head := (prepared.lists (by omega) upper).head_mem nonzero
      exact away level ((halve_block valid present).mpr (.inl ⟨.inl head, apart⟩))

/-- Blocks are only cut further: what starts no block at the end started none before. -/
theorem splitTo_outside (valid : p.WellFormed) (present : p.allocated = (a, i) :: q.allocated)
    (large : 5 ≤ target) (above : target ≤ i) (away : Outside x (splitTo a i target p)) :
    Outside x p := by
  obtain ⟨_, handed, lists⟩ := splitTo_spec valid present large above
  intro level block
  rcases block with free | allocated
  · apply away level
    left
    rw [lists]
    split
    · exact List.mem_cons_of_mem _ free
    · exact free
  · rw [present] at allocated
    rcases List.mem_cons.mp allocated with same | old
    · obtain ⟨rfl, _⟩ := Prod.mk.inj same
      exact away target (.inr (by rw [handed]; exact List.mem_cons_self))
    · exact away level (.inr (by rw [handed]; exact List.mem_cons_of_mem _ old))

/-- `splitBlockToLevel` hands out the left end of the block, cut down to the target level. -/
theorem splitBlockToLevel_refines (shown : Represents a heap p) (valid : p.WellFormed)
    (present : p.allocated = (a, i) :: q.allocated) (large : 5 ≤ target) (above : target ≤ i) :
    (splitBlockToLevel a i target heap).1 = a ∧
      Represents a (splitBlockToLevel a i target heap).2 (splitTo a i target p) ∧
      Kept heap (splitBlockToLevel a i target heap).2 (splitTo a i target p) := by
  induction i generalizing heap p with
  | zero => omega
  | succ i ih =>
    by_cases done : i + 1 ≤ target
    · have same : target = i + 1 := by omega
      rw [same, splitBlockToLevel_self, splitTo, if_pos (Nat.le_refl _)]
      exact ⟨rfl, shown, .refl⟩
    · have member : (a, i + 1) ∈ p.allocated := by rw [present]; exact List.mem_cons_self
      have half := halveBlock_refines shown valid member (by omega)
      have cut := valid.halve member (by omega)
      have first : (p.halve a i).allocated = (a, i) :: q.allocated := by
        simp [Partition.halve, present]
      obtain ⟨result, represents, kept⟩ := ih half.1 cut first (by omega)
      rw [splitBlockToLevel_halve (by omega), splitTo, if_neg done]
      exact ⟨result, represents, half.2.trans kept (splitTo_outside cut first large (by omega))⟩

/-! ## Searching -/

/-- The outcome of a search next to the abstract one: nothing found and nothing
changed, or the block that the partition hands out. -/
def Hands (heap : Heap) (result : Nat × Heap) : Option (Nat × Partition) → Prop
  | none => result = (0, heap)
  | some (a, q) => result.1 = a ∧ Represents a result.2 q ∧ Kept heap result.2 q

theorem takeHead_kept (shown : Represents 0 heap p) (valid : p.WellFormed)
    (head : p.free level = a :: rest) : Kept heap (heap.takeHead level a) (p.claim level) := by
  have free : a ∈ p.free level := by rw [head]; exact List.mem_cons_self
  have range := valid.separate.inRange free
  refine ⟨?_, ?_, ?_⟩
  · rw [Heap.takeHead_manager]
  · rw [Heap.takeHead_manager]
    exact Function.update_of_ne (by omega) _ _
  · intro x away
    have outside : Outside x p := fun k block => away k ((claim_block head).mpr block)
    rw [Heap.takeHead_header (shown.links_ne valid.separate free).2.1, if_neg, if_neg]
    · rintro ⟨rfl, nonzero⟩
      obtain ⟨front, back, same, _, follow⟩ := shown.neighbours valid.separate free
      exact outside level (.inl (by rw [same]; simp [follow.resolve_left nonzero]))
    · rintro rfl
      exact outside level (.inl free)

/-- A block found at level `i` is taken off its list and split down to `target`. -/
theorem takeHead_split_refines (shown : Represents 0 heap p) (valid : p.WellFormed)
    (head : p.free i = a :: rest) (large : 5 ≤ target) (above : target ≤ i) :
    Hands heap (splitBlockToLevel a i target (heap.takeHead i a))
      (some (a, (p.claim i).splitTo a i target)) := by
  have claimed : (p.claim i).allocated = (a, i) :: p.allocated := by simp [claim, head]
  obtain ⟨result, represents, kept⟩ := splitBlockToLevel_refines (q := p)
    (shown.takeHead valid.separate head) (valid.claim head) claimed large above
  exact ⟨result, represents, (takeHead_kept shown valid head).trans kept
    (splitTo_outside (valid.claim head) claimed large above)⟩

theorem Represents.head_eq_zero_iff (shown : Represents held heap p) (low : 1 ≤ level)
    (high : level < blockLists) : heap.manager.blocks level = 0 ↔ p.free level = [] :=
  Linked.eq_nil_iff (shown.lists low high)

theorem findInUpperLevels_refines (shown : Represents 0 heap p) (valid : p.WellFormed)
    (large : 5 ≤ target) (above : target ≤ i) (bound : i + fuel = blockLists) :
    Hands heap (findInUpperLevels target fuel i heap) (takeFrom target fuel i p) := by
  induction fuel generalizing i with
  | zero => rfl
  | succ fuel ih =>
    have listed : i < blockLists := by omega
    have empty := shown.head_eq_zero_iff (by omega : 1 ≤ i) listed
    cases head : p.free i with
    | nil =>
      have none := empty.mpr head
      simp only [findInUpperLevels, takeFrom, head, none, if_pos listed]
      exact ih (by omega) (by omega)
    | cons first rest =>
      have list := shown.lists (by omega : 1 ≤ i) listed
      rw [head] at list
      have same : heap.manager.blocks i = first := list.head_eq
      have present : first ≠ 0 := valid.pos (.inl (by rw [head]; exact List.mem_cons_self))
      have found := takeHead_split_refines shown valid head large above
      have result : (splitBlockToLevel first i target (heap.takeHead i first)).1 = first := found.1
      simp only [findInUpperLevels, takeFrom, head, if_pos listed, same, present, ne_eq,
        not_false_eq_true, if_true, result]
      exact ⟨rfl, found.2⟩

theorem findFreeBlock_refines (shown : Represents 0 heap p) (valid : p.WellFormed)
    (large : 5 ≤ target) (listed : target < blockLists) :
    Hands heap (findFreeBlock target heap) (take target p) := by
  have levels : blockLists - target = (blockLists - (target + 1)) + 1 := by omega
  have empty := shown.head_eq_zero_iff (by omega : 1 ≤ target) listed
  rw [take, levels, takeFrom]
  cases head : p.free target with
  | nil =>
    simp only [findFreeBlock, empty.mpr head, ne_eq, not_true_eq_false, if_false]
    exact findInUpperLevels_refines shown valid large (by omega) (by omega)
  | cons first rest =>
    have list := shown.lists (by omega : 1 ≤ target) listed
    rw [head] at list
    have same : heap.manager.blocks target = first := list.head_eq
    have free : first ∈ p.free target := by rw [head]; exact List.mem_cons_self
    have found := takeHead_split_refines shown valid head large (Nat.le_refl target)
    rw [splitBlockToLevel_self] at found
    simpa [findFreeBlock, same, valid.pos (.inl free), (shown.free free).2] using found

theorem Partition.Taken.outside (taken : Taken p target a q) (valid : p.WellFormed)
    (large : 5 ≤ target)
    (away : Outside x q) : Outside x p := by
  have claimed : (p.claim taken.i).allocated = (a, taken.i) :: p.allocated := by
    simp [claim, taken.head]
  rw [taken.result] at away
  intro level block
  exact splitTo_outside (valid.claim taken.head) claimed large taken.above away level
    ((claim_block taken.head).mpr block)

/-! ## The whole request -/

/-- The state field of the block handed out is set: nothing is held back any more. -/
theorem Represents.settle (shown : Represents a heap p) (valid : p.WellFormed)
    (present : (a, level) ∈ p.allocated) : Represents 0 (heap.setState a .allocated) p := by
  have header : ∀ x, (heap.setState a .allocated).header x =
      if x = a then { heap.header a with blockState := .allocated } else heap.header x :=
    fun x => Heap.edit_header _
  have notFree : ∀ {x k}, x ∈ p.free k → x ≠ a := by
    rintro x k free rfl
    exact valid.apart free present
  refine ⟨shown.created, shown.status, shown.managed, shown.size, ?_, ?_, ?_⟩
  · intro k low high
    apply (shown.lists low high).frame (heap.setState a .allocated) rfl
    intro x member
    rw [header x, if_neg (notFree member)]
  · intro b k member
    rw [header b, if_neg (notFree member)]
    exact shown.free member
  · intro b k member
    obtain ⟨sameLevel, state, links⟩ := shown.allocated member
    rw [header b]
    split
    · rename_i same
      subst same
      exact ⟨sameLevel, fun _ => rfl, links⟩
    · exact ⟨sameLevel, fun _ => state ‹_›, links⟩

theorem Represents.setUsed (shown : Represents held heap p) (value : MemoryManager → Nat) :
    Represents held (heap.setManager fun manager =>
      { manager with usedMemory := value manager }) p :=
  ⟨shown.created, shown.status, shown.managed, shown.size, shown.lists, shown.free,
    shown.allocated⟩

/-- The outcome of `allocMemory` next to the abstract one. -/
def Grants (heap : Heap) (level : Nat) (result : Nat × Heap) : Option (Nat × Partition) → Prop
  | none => result = (0, heap)
  | some (a, q) => result.1 = a + headerSize ∧ Represents 0 result.2 q ∧
      result.2.manager.usedMemory = u64 (heap.manager.usedMemory + 2 ^ level) ∧
      result.2.manager.blocks 0 = heap.manager.blocks 0 ∧
      ∀ {x}, Outside x q → result.2.header x = heap.header x

/-- `allocMemory` refines `Partition.take`. -/
theorem allocMemory_refines (shown : Represents 0 heap p) (valid : p.WellFormed)
    (ordinary : Ordinary n) :
    Grants heap (requestLevel n) (allocMemory n heap) (take (requestLevel n) p) := by
  obtain ⟨large, listed⟩ := ordinary
  have small : requestLevel n < 33 := listed
  have found := findFreeBlock_refines shown valid large listed
  have ready : ¬ (heap.memoryManager = 0 ∨ heap.manager.status ≠ .ok) := by
    simp [shown.created, shown.status]
  have level : memoryToLevel (requestSize n) = requestLevel n := rfl
  simp only [allocMemory, if_neg ready, level, if_neg (by omega : ¬ blockLists ≤ requestLevel n)]
  cases outcome : take (requestLevel n) p with
  | none =>
    rw [outcome] at found
    have nothing : findFreeBlock (requestLevel n) heap = (0, heap) := found
    simp [nothing, Grants]
  | some pair =>
    obtain ⟨a, q⟩ := pair
    rw [outcome] at found
    obtain ⟨result, represents, kept⟩ := found
    obtain ⟨taken⟩ := take_taken outcome (by omega)
    have after := taken.wellFormed valid large
    have member : (a, requestLevel n) ∈ q.allocated := by
      rw [taken.allocated valid large]
      exact List.mem_cons_self
    have present : a ≠ 0 := after.pos (.inr member)
    have bounds := after.bounds (.inr member)
    have wide := Nat.two_pow_pos (requestLevel n)
    rw [regionEnd_eq] at bounds
    unfold heapStartAddress at bounds
    simp only [result, if_neg present]
    refine ⟨u64_of_lt (by unfold headerSize; omega), ?_, ?_, ?_, ?_⟩
    · exact (represents.settle after member).setUsed
        fun manager => u64 (manager.usedMemory + shiftOne (requestLevel n))
    · simp [Heap.setState, kept.used, shiftOne_of_lt (by omega : requestLevel n < 64)]
    · simp [Heap.setState, kept.list0]
    · intro x away
      have other : x ≠ a := by
        rintro rfl
        exact away _ (.inr member)
      simp [Heap.setState, Heap.edit_header, other, kept.header away]

end SoKernel.Buddy
