import SoKernel.Memory.Allocation

namespace SoKernel.Buddy
open Lib Buddy.Partition

variable {heap heap' : Heap} {p q : Partition} {a b buddy level k fuel x y n : Nat}

/-! ## Relinking keeps levels and states -/

/-- Same level and same state at `x`. -/
def SameFields (heap heap' : Heap) (x : Nat) : Prop :=
  (heap'.header x).level = (heap.header x).level ∧
    (heap'.header x).blockState = (heap.header x).blockState

theorem SameFields.trans {middle : Heap} (first : SameFields heap middle x)
    (second : SameFields middle heap' x) : SameFields heap heap' x :=
  ⟨second.1.trans first.1, second.2.trans first.2⟩

theorem setNext_fields : SameFields heap (heap.setNext a b) x := by
  unfold SameFields Heap.setNext
  rw [Heap.edit_header]
  split
  · rename_i same
    rw [same]
    exact ⟨rfl, rfl⟩
  · exact ⟨rfl, rfl⟩

theorem setPrev_fields : SameFields heap (heap.setPrev a b) x := by
  unfold SameFields Heap.setPrev
  rw [Heap.edit_header]
  split
  · rename_i same
    rw [same]
    exact ⟨rfl, rfl⟩
  · exact ⟨rfl, rfl⟩

theorem setManager_fields (change) : SameFields heap (heap.setManager change) x := ⟨rfl, rfl⟩

theorem setList_fields : SameFields heap (heap.setList level a) x := setManager_fields _

theorem link_fields : SameFields heap (heap.link level a) x := by
  unfold Heap.link
  dsimp only
  split
  · exact (setNext_fields.trans setPrev_fields).trans setList_fields
  · exact setNext_fields.trans setList_fields

theorem unlink_fields : SameFields heap (heap.unlink a) x := by
  unfold Heap.unlink
  dsimp only
  split
  · split
    · exact setNext_fields.trans setPrev_fields
    · exact setNext_fields
  · split
    · exact setList_fields.trans setPrev_fields
    · exact setList_fields

/-! ## One merge -/

/-- What `mergeBlocks` does to the headers when the buddy is free. -/
def mergePair (block buddy : Nat) (heap : Heap) : Heap :=
  let heap := (heap.unlink buddy).unlink block
  let parent := if block < buddy then block else buddy
  let heap := initMemoryBlock parent ((heap.header block).level + 1) heap
  heap.link (heap.header parent).level parent

theorem mergePair_fields (different : x ≠ if a < buddy then a else buddy) :
    SameFields heap (mergePair a buddy heap) x := by
  have lifted : SameFields heap ((heap.unlink buddy).unlink a) x := unlink_fields.trans unlink_fields
  unfold mergePair
  refine SameFields.trans ?_ link_fields
  unfold SameFields
  rw [initMemoryBlock_header, if_neg different]
  exact lifted

theorem mergePair_parent :
    ((mergePair a buddy heap).header (if a < buddy then a else buddy)).level =
      (heap.header a).level + 1 := by
  have lifted : SameFields heap ((heap.unlink buddy).unlink a) a := unlink_fields.trans unlink_fields
  unfold mergePair
  rw [link_fields.1, initMemoryBlock_header, if_pos rfl, lifted.1]

theorem mergeBlocks_succ (fuel : Nat) : mergeBlocks (fuel + 1) a heap =
    if a = 0 ∨ blockLists ≤ (heap.header a).level ∨ (heap.header a).blockState ≠ .free then heap
    else if getBuddy a heap ≠ 0 ∧ (heap.header (getBuddy a heap)).blockState = .free ∧
        (heap.header (getBuddy a heap)).level = (heap.header a).level then
      mergeBlocks fuel (if a < getBuddy a heap then a else getBuddy a heap)
        (mergePair a (getBuddy a heap) heap)
    else heap := rfl

/-- The recursion of `mergeBlocks` is bounded: more fuel changes nothing. -/
theorem mergeBlocks_fuel (enough : blockLists + 1 ≤ fuel + (heap.header a).level) :
    mergeBlocks (fuel + 1) a heap = mergeBlocks fuel a heap := by
  induction fuel generalizing heap a with
  | zero =>
    rw [mergeBlocks_succ 0, if_pos (.inr (.inl (by omega)))]
    rfl
  | succ fuel ih =>
    rw [mergeBlocks_succ fuel]
    split
    · rename_i done
      rw [mergeBlocks_succ (fuel + 1), if_pos done]
    · rename_i going
      rw [mergeBlocks_succ (fuel + 1), if_neg going]
      split
      · apply ih
        rw [mergePair_parent]
        omega
      · rfl

/-! ## Trusting a header -/

/-- Inside the memory the manager was given. -/
def Managed (x : Nat) : Prop := heapStartAddress ≤ x ∧ x < heapStartAddress + heapSize

/-- The bytes at `x` read as the header of a free block of this level. -/
def LooksFree (heap : Heap) (x level : Nat) : Prop :=
  Managed x ∧ (heap.header x).blockState = .free ∧ (heap.header x).level = level

theorem getBuddy_of_free (shown : Represents 0 heap p) (valid : p.WellFormed)
    (free : a ∈ p.free level) : getBuddy a heap =
      if a ^^^ 2 ^ level < heapStartAddress ∨ heapStartAddress + heapSize ≤ a ^^^ 2 ^ level
      then 0 else a ^^^ 2 ^ level := by
  have fields := shown.free free
  have top := valid.level_le (.inl free)
  have present := valid.pos (.inl free)
  have going : ¬ (a = 0 ∨ blockLists ≤ (heap.header a).level) := by
    unfold blockLists maxLevel
    rw [fields.1]
    omega
  have finish : u64 (heapStartAddress + heapSize) = heapStartAddress + heapSize := by decide
  unfold getBuddy
  rw [if_neg going, fields.1, shiftOne_of_lt (by omega), shown.managed, shown.size, finish]

/-- A merge of `a` is decided by the bytes at the address of its buddy. -/
theorem mergeBlocks_step (shown : Represents 0 heap p) (valid : p.WellFormed)
    (free : a ∈ p.free level) [Decidable (LooksFree heap (a ^^^ 2 ^ level) level)] :
    mergeBlocks (fuel + 1) a heap =
      if LooksFree heap (a ^^^ 2 ^ level) level
      then mergeBlocks fuel (parent a level) (mergePair a (a ^^^ 2 ^ level) heap) else heap := by
  have fields := shown.free free
  have top := valid.level_le (.inl free)
  have present := valid.pos (.inl free)
  have going : ¬ (a = 0 ∨ blockLists ≤ (heap.header a).level ∨
      (heap.header a).blockState ≠ .free) := by
    unfold blockLists maxLevel
    rw [fields.1, fields.2]
    simp only [present, ne_eq, not_true_eq_false, or_false, false_or, not_le]
    omega
  rw [mergeBlocks_succ, if_neg going, getBuddy_of_free shown valid free, fields.1]
  by_cases managed : Managed (a ^^^ 2 ^ level)
  · have inside : ¬ (a ^^^ 2 ^ level < heapStartAddress ∨
        heapStartAddress + heapSize ≤ a ^^^ 2 ^ level) := by
      unfold Managed at managed
      omega
    have nonzero : a ^^^ 2 ^ level ≠ 0 := by
      unfold Managed heapStartAddress at managed
      omega
    rw [if_neg inside]
    by_cases looks : LooksFree heap (a ^^^ 2 ^ level) level
    · rw [if_pos looks, if_pos ⟨nonzero, looks.2⟩]
      rfl
    · rw [if_neg looks, if_neg (fun all => looks ⟨managed, all.2⟩)]
  · have beyond : a ^^^ 2 ^ level < heapStartAddress ∨
        heapStartAddress + heapSize ≤ a ^^^ 2 ^ level := by
      unfold Managed at managed
      omega
    rw [if_pos beyond, if_neg (fun all => all.1 rfl), if_neg (fun looks => managed looks.1)]

theorem Partition.join_eq_push : p.join a buddy level =
    ((p.remove level buddy).remove level a).push (level + 1) (if a < buddy then a else buddy) := by
  simp [join, push, Partition.remove]

theorem Represents.merge (shown : Represents 0 heap p) (valid : p.WellFormed)
    (free : a ∈ p.free level) (other : a ^^^ 2 ^ level ∈ p.free level) :
    Represents 0 (mergePair a (a ^^^ 2 ^ level) heap) (p.join a (a ^^^ 2 ^ level) level) := by
  have top := valid.level_le (.inl free)
  have distinct := xor_two_pow_ne a level
  have first := shown.unlink valid.separate other
  have cut : (p.remove level (a ^^^ 2 ^ level)).Separate := valid.separate.remove
  have still : a ∈ (p.remove level (a ^^^ 2 ^ level)).free level :=
    (valid.separate.mem_remove).mpr ⟨free, fun _ => distinct.symm⟩
  have second := first.unlink cut still
  have lifted : SameFields heap ((heap.unlink (a ^^^ 2 ^ level)).unlink a) a :=
    unlink_fields.trans unlink_fields
  -- Neither half is a block of the partition in between.
  have outside : Outside (parent a level)
      ((p.remove level (a ^^^ 2 ^ level)).remove level a) := by
    intro k block
    have start : parent a level = a ∨ parent a level = a ^^^ 2 ^ level := by
      unfold parent
      split
      · exact .inl rfl
      · exact .inr rfl
    rcases block with member | allocated
    · obtain ⟨once, apart⟩ := cut.mem_remove.mp member
      obtain ⟨twice, away⟩ := valid.separate.mem_remove.mp once
      rcases start with same | same
      · rw [same] at twice apart
        exact apart (valid.level_unique (.inl twice) (.inl free)) rfl
      · rw [same] at twice away
        exact away (valid.level_unique (.inl twice) (.inl other)) rfl
    · rcases start with same | same
      · rw [same] at allocated
        exact valid.apart free allocated
      · rw [same] at allocated
        exact valid.apart other allocated
  have present : parent a level ≠ 0 := by
    unfold parent
    split
    · exact valid.pos (.inl free)
    · exact valid.pos (.inl other)
  have prepared : Represents 0 (initMemoryBlock (parent a level) (level + 1)
      ((heap.unlink (a ^^^ 2 ^ level)).unlink a)) _ := second.edit_outside outside _
  rw [join_eq_push]
  unfold mergePair
  simp only [lifted.1, (shown.free free).1]
  rw [initMemoryBlock_header, if_pos rfl]
  have listed : level + 1 < blockLists := by
    unfold blockLists maxLevel
    omega
  apply prepared.link cut.remove outside present (Nat.succ_pos level) listed
  rw [initMemoryBlock_header, if_pos rfl]
  exact ⟨rfl, rfl, rfl⟩

theorem mergePair_manager : (mergePair a buddy heap).manager.usedMemory = heap.manager.usedMemory ∧
    (mergePair a buddy heap).manager.status = heap.manager.status := by
  unfold mergePair
  rw [Heap.link_manager]
  simp only [initMemoryBlock_manager]
  rw [Heap.unlink_manager, Heap.unlink_manager]
  split
  · split
    · exact ⟨rfl, rfl⟩
    · exact ⟨rfl, rfl⟩
  · split
    · exact ⟨rfl, rfl⟩
    · exact ⟨rfl, rfl⟩

/-- Blocks of level 0 do not occur, so a merge never writes list 0. -/
theorem mergePair_list0 (one : (heap.header a).level ≠ 0) (two : (heap.header buddy).level ≠ 0) :
    (mergePair a buddy heap).manager.blocks 0 = heap.manager.blocks 0 := by
  have first : (heap.unlink buddy).manager.blocks 0 = heap.manager.blocks 0 := by
    rw [Heap.unlink_manager]
    split
    · exact Function.update_of_ne two.symm _ _
    · rfl
  have second : ((heap.unlink buddy).unlink a).manager.blocks 0 = heap.manager.blocks 0 := by
    rw [Heap.unlink_manager]
    split
    · rw [← first]
      apply Function.update_of_ne
      rw [unlink_fields.1]
      exact one.symm
    · exact first
  unfold mergePair
  rw [Heap.link_manager]
  simp only [initMemoryBlock_manager, initMemoryBlock_header, if_true]
  rw [Function.update_of_ne (by omega)]
  exact second

/-- A family of facts that justify believing the bytes at a buddy's address, and
that survive a merge. -/
structure Trusts (T : Heap → Partition → Nat → Nat → Prop) : Prop where
  sound : ∀ {heap p a level}, T heap p a level → p.WellFormed → Represents 0 heap p →
    a ∈ p.free level → LooksFree heap (a ^^^ 2 ^ level) level → a ^^^ 2 ^ level ∈ p.free level
  join : ∀ {heap heap' p a level}, T heap p a level → p.WellFormed → Represents 0 heap p →
    a ∈ p.free level → a ^^^ 2 ^ level ∈ p.free level →
    (∀ {x}, x ≠ parent a level → SameFields heap heap' x) →
    T heap' (p.join a (a ^^^ 2 ^ level) level) (parent a level) (level + 1)

/-- `mergeBlocks` refines `coalesce` as long as the inspected headers can be trusted. -/
theorem mergeBlocks_refines {T : Heap → Partition → Nat → Nat → Prop} (fuel : Nat)
    (trusts : Trusts T) (trusted : T heap p a level) (valid : p.WellFormed)
    (shown : Represents 0 heap p)
    (free : a ∈ p.free level) :
    Represents 0 (mergeBlocks fuel a heap) (coalesce fuel a level p) ∧
      (mergeBlocks fuel a heap).manager.usedMemory = heap.manager.usedMemory ∧
      (mergeBlocks fuel a heap).manager.blocks 0 = heap.manager.blocks 0 ∧
      ∃ b k, T (mergeBlocks fuel a heap) (coalesce fuel a level p) b k := by
  induction fuel generalizing heap p a level with
  | zero => exact ⟨shown, rfl, rfl, a, level, trusted⟩
  | succ fuel ih =>
    classical
    rw [mergeBlocks_step shown valid free, coalesce]
    by_cases other : a ^^^ 2 ^ level ∈ p.free level
    · have bounds := valid.bounds (.inl other)
      have wide := Nat.two_pow_pos level
      have managed : Managed (a ^^^ 2 ^ level) := by
        have room : regionEnd ≤ heapStartAddress + heapSize := by decide
        unfold Managed
        omega
      have large := valid.large (.inl free)
      have one := (shown.free free).1
      have two := (shown.free other).1
      rw [if_pos ⟨managed, (shown.free other).2, two⟩, if_pos other]
      have merged : T (mergePair a (a ^^^ 2 ^ level) heap) _ (parent a level) (level + 1) :=
        trusts.join trusted valid shown free other mergePair_fields
      obtain ⟨represents, used, list0, last⟩ := ih merged (valid.join free other)
        (shown.merge valid free other) parent_mem_join
      refine ⟨represents, ?_, ?_, last⟩
      · rw [used, mergePair_manager.1]
      · rw [list0, mergePair_list0 (by omega) (by omega)]
    · rw [if_neg (fun looks => other (trusts.sound trusted valid shown free looks)), if_neg other]
      exact ⟨shown, rfl, rfl, a, level, trusted⟩

/-! ## The whole call -/

/-- The block goes back to its list; nothing is merged yet. -/
def giveBack (block : Nat) (heap : Heap) : Heap :=
  let heap := heap.setState block .free
  heap.link (heap.header block).level block

theorem giveBack_fields (different : x ≠ a) : SameFields heap (giveBack a heap) x := by
  unfold giveBack
  refine SameFields.trans ?_ link_fields
  unfold SameFields Heap.setState
  rw [Heap.edit_header, if_neg different]
  exact ⟨rfl, rfl⟩

theorem Represents.release (shown : Represents 0 heap p) (valid : p.WellFormed)
    (present : (a, level) ∈ p.allocated) :
    Represents 0 (giveBack a heap) (p.release a level) ∧
      (giveBack a heap).manager.usedMemory = heap.manager.usedMemory ∧
      (giveBack a heap).manager.blocks 0 = heap.manager.blocks 0 ∧
      ((giveBack a heap).header a).level = level := by
  have block : p.Block a level := .inr present
  have large := valid.large block
  have top := valid.level_le block
  have listed : level < blockLists := by
    unfold blockLists maxLevel
    omega
  let dropped : Partition := { p with allocated := p.allocated.erase (a, level) }
  have before : Represents 0 heap dropped := ⟨shown.created, shown.status, shown.managed, shown.size,
    shown.lists, shown.free, fun member => shown.allocated (List.mem_of_mem_erase member)⟩
  have separate : dropped.Separate := ⟨valid.separate.nodup, valid.separate.unique,
    fun free member => valid.apart free (List.mem_of_mem_erase member), valid.separate.inRange,
    fun member => valid.separate.nonzero (List.mem_of_mem_erase member)⟩
  have outside : Outside a dropped := by
    intro k found
    rcases found with free | member
    · exact valid.apart free present
    · exact ((valid.erase_allocated present).mp member).2 rfl
  have written : Represents 0 (heap.setState a .free) dropped := before.edit_outside outside _
  obtain ⟨sameLevel, _, links⟩ := shown.allocated present
  have fields : (heap.setState a .free).header a = { heap.header a with blockState := .free } := by
    rw [Heap.setState, Heap.edit_header, if_pos rfl]
  have height : ((heap.setState a .free).header a).level = level := by rw [fields, sameLevel]
  unfold giveBack
  simp only [height]
  refine ⟨?_, ?_, ?_, ?_⟩
  · apply written.link separate outside (valid.pos block) (by omega) listed
    rw [fields]
    exact ⟨sameLevel, rfl, links.2⟩
  · rw [Heap.link_manager]
    rfl
  · rw [Heap.link_manager]
    exact Function.update_of_ne (by omega) _ _
  · rw [link_fields.1, height]

theorem freeMemory_live (live : (heap.header a).blockState = .allocated)
    (ready : ¬ (a + headerSize = 0 ∨ heap.memoryManager = 0 ∨ heap.manager.status ≠ .ok))
    (address : u64 (a + headerSize + 2 ^ 64 - headerSize) = a) :
    freeMemory (a + headerSize) heap = mergeBlocks (blockLists + 1) a
      ((giveBack a heap).setManager fun manager =>
        { manager with
          usedMemory :=
            u64 (manager.usedMemory + 2 ^ 64 - shiftOne ((giveBack a heap).header a).level) }) := by
  unfold freeMemory
  dsimp only
  rw [if_neg ready, address, if_neg (fun other => other live)]
  rfl

/-- `freeMemory` of a live block refines `dispose`. -/
theorem freeMemory_refines {T : Heap → Partition → Nat → Nat → Prop} (trusts : Trusts T)
    (shown : Represents 0 heap p) (valid : p.WellFormed) (present : (a, level) ∈ p.allocated)
    (trusted : ∀ {heap'}, (∀ {x}, x ≠ a → SameFields heap heap' x) →
      T heap' (p.release a level) a level) :
    Represents 0 (freeMemory (a + headerSize) heap) (p.dispose a level) ∧
      (freeMemory (a + headerSize) heap).manager.usedMemory =
        u64 (heap.manager.usedMemory + 2 ^ 64 - 2 ^ level) ∧
      (freeMemory (a + headerSize) heap).manager.blocks 0 = heap.manager.blocks 0 ∧
      ∃ b k, T (freeMemory (a + headerSize) heap) (p.dispose a level) b k := by
  have block : p.Block a level := .inr present
  have bounds := valid.bounds block
  have top := valid.level_le block
  have wide := Nat.two_pow_pos level
  have state := (shown.allocated present).2.1 (valid.pos block)
  have address : u64 (a + headerSize + 2 ^ 64 - headerSize) = a := by
    unfold u64 headerSize
    rw [regionEnd_eq] at bounds
    unfold heapStartAddress at bounds
    omega
  have ready : ¬ (a + headerSize = 0 ∨ heap.memoryManager = 0 ∨ heap.manager.status ≠ .ok) := by
    simp [shown.created, shown.status, headerSize]
  obtain ⟨given, used, list0, height⟩ := shown.release valid present
  have shift : shiftOne ((giveBack a heap).header a).level = 2 ^ level := by
    rw [height, shiftOne_of_lt (by omega)]
  rw [freeMemory_live state ready address, shift, ← used]
  have start : T ((giveBack a heap).setManager fun manager =>
      { manager with usedMemory := u64 (manager.usedMemory + 2 ^ 64 - 2 ^ level) })
      (p.release a level) a level :=
    trusted fun different => (giveBack_fields different).trans (setManager_fields _)
  have listed : a ∈ (p.release a level).free level := by simp [Partition.release]
  obtain ⟨represents, counted, kept, last⟩ := mergeBlocks_refines (blockLists + 1) trusts
    start (valid.release present) (given.setUsed _) listed
  exact ⟨represents, counted, kept.trans list0, last⟩

end SoKernel.Buddy
