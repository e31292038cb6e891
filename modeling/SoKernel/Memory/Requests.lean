import SoKernel.Memory.Deallocation

namespace SoKernel.Buddy
open Lib Buddy.Partition

/-- A call on the allocator. -/
inductive Request where
  | alloc (memoryToAllocate : Nat)
  | free (address : Nat)
deriving DecidableEq, Repr

/-- The heap, every result of `allocMemory` so far (latest first), and the
addresses that are handed out now. -/
structure World where
  heap : Heap
  returned : List Nat
  live : List Nat

namespace World

def boot (start : Heap) : World := ⟨createMemoryManager start, [], []⟩

def serve (w : World) : Request → World
  | .alloc memoryToAllocate =>
    let (address, heap) := allocMemory memoryToAllocate w.heap
    { heap, returned := address :: w.returned
      live := if address = 0 then w.live else address :: w.live }
  | .free address =>
    { w with heap := freeMemory address w.heap, live := w.live.erase address }

end World

variable {w : World} {start heap : Heap} {p q : Partition} {a b level n x address : Nat}

/-! ## The fresh heap -/

theorem rootLevel_eq : log2 (shiftOne (log2 heapSize)) % 256 = 28 := by decide +kernel

theorem createMemoryManager_eq : createMemoryManager start =
    { memoryManager := memoryManagerAddress
      manager :=
        { memoryForMemoryManager := memoryManagerAddress
          managedMemory := heapStartAddress
          memorySize := heapSize
          usedMemory := 0
          status := .ok
          blocks := fun i => if i = 28 then heapStartAddress
            else if 1 ≤ i ∧ i < blockLists then 0 else start.manager.blocks i }
      header := Function.update start.header heapStartAddress ⟨28, .free, 0, 0⟩ } := by
  have aligned : ¬ (heapStartAddress % minBlockSize ≠ 0) := by decide
  unfold createMemoryManager
  simp only [Heap.setManager, if_neg aligned, rootLevel_eq, Heap.setList, initMemoryBlock, Heap.edit]
  congr
  funext i
  simp only [Function.update_apply]

theorem createMemoryManager_header : (createMemoryManager start).header x =
    if x = heapStartAddress then ⟨28, .free, 0, 0⟩ else start.header x := by
  rw [createMemoryManager_eq]
  exact Function.update_apply _ _ _ _

theorem createMemoryManager_represents : Represents 0 (createMemoryManager start) root where
  created := by
    rw [createMemoryManager_eq]
    exact (by decide : memoryManagerAddress ≠ 0)
  status := by rw [createMemoryManager_eq]
  managed := by rw [createMemoryManager_eq]
  size := by rw [createMemoryManager_eq]
  lists := by
    intro level low high
    have header := @createMemoryManager_header start heapStartAddress
    rw [if_pos rfl] at header
    have present : heapStartAddress ≠ 0 := by decide
    unfold Heap.Lists
    by_cases top : level = 28
    · have list : root.free level = [heapStartAddress] := by simp [root, top]
      rw [list]
      simp only [Linked, header, ne_eq, present, not_false_eq_true, and_true]
      rw [createMemoryManager_eq]
      exact if_pos top
    · have list : root.free level = [] := by simp [root, top]
      rw [list, createMemoryManager_eq]
      simp [Linked, top, low, high]
  free := by
    intro a level free
    obtain ⟨rfl, rfl⟩ := root_free_iff.mp free
    rw [createMemoryManager_header, if_pos rfl]
    exact ⟨rfl, rfl⟩
  allocated := by
    intro a level allocated
    cases allocated

theorem createMemoryManager_used : (createMemoryManager start).manager.usedMemory = 0 := by
  rw [createMemoryManager_eq]

/-! ## Worlds that follow a partition -/

/-- The partition `p` accounts for the heap, the counter and the addresses in use. -/
structure Tracks (w : World) (p : Partition) : Prop where
  valid : p.WellFormed
  settled : p.NoBuddies
  shown : Represents 0 w.heap p
  used : w.heap.manager.usedMemory = p.used
  live : ∀ {address}, address ∈ w.live ↔
    ∃ a level, (a, level) ∈ p.allocated ∧ address = a + headerSize
  liveNodup : w.live.Nodup

theorem boot_tracks : Tracks (World.boot start) root where
  valid := root_wellFormed
  settled := root_noBuddies
  shown := createMemoryManager_represents
  used := createMemoryManager_used
  live := by simp [World.boot, root]
  liveNodup := List.nodup_nil

theorem Partition.WellFormed.used_le (valid : p.WellFormed) : p.used ≤ 2 ^ 28 := by
  have unique : (p.allocated.map fun entry => (entry.1, 2 ^ entry.2)).Nodup := by
    apply valid.allocatedNodup.map
    rintro ⟨a, level⟩ ⟨b, other⟩ same
    obtain ⟨start, size⟩ := Prod.mk.inj same
    exact Prod.ext start (Nat.pow_right_injective (Nat.le_refl 2) size)
  have bound := valid.tiles.sum_le unique (by
    intro entry member
    obtain ⟨⟨a, level⟩, present, rfl⟩ := List.mem_map.mp member
    exact ⟨level, .inr present, rfl⟩)
  have capacity : regionEnd - heapStartAddress = 2 ^ 28 := Nat.add_sub_cancel_left ..
  rw [List.map_map, capacity] at bound
  exact bound

theorem Partition.used_cons (allocated : q.allocated = (a, level) :: p.allocated) :
    q.used = 2 ^ level + p.used := by
  simp [used, allocated]

theorem Partition.used_erase (present : (a, level) ∈ p.allocated)
    (allocated : q.allocated = p.allocated.erase (a, level)) : q.used + 2 ^ level = p.used := by
  have same := ((List.perm_cons_erase present).map fun entry => 2 ^ entry.2).sum_eq
  unfold used
  rw [allocated, same, List.map_cons, List.sum_cons, Nat.add_comm]

/-- Two handed-out blocks do not share an address. -/
theorem Tracks.mem_live_iff (tracks : Tracks w p) (present : (a, level) ∈ p.allocated) :
    address ∈ w.live.erase (a + headerSize) ↔
      ∃ b k, (b, k) ∈ p.allocated.erase (a, level) ∧ address = b + headerSize := by
  rw [tracks.liveNodup.mem_erase_iff, tracks.live]
  simp only [tracks.valid.erase_allocated present]
  constructor
  · rintro ⟨different, b, k, member, rfl⟩
    exact ⟨b, k, ⟨member, by rintro rfl; exact different rfl⟩, rfl⟩
  · rintro ⟨b, k, ⟨member, different⟩, rfl⟩
    exact ⟨by unfold headerSize; omega, b, k, member, rfl⟩

/-- A request that no free block can serve changes nothing but the record of results. -/
theorem Tracks.alloc_none (tracks : Tracks w p) (ordinary : Ordinary n)
    (none : take (requestLevel n) p = none) :
    w.serve (.alloc n) = { w with returned := 0 :: w.returned } := by
  have granted := allocMemory_refines tracks.shown tracks.valid ordinary
  rw [none] at granted
  have nothing : allocMemory n w.heap = (0, w.heap) := granted
  simp [World.serve, nothing]

/-- A request served from the partition. -/
theorem Tracks.alloc_some (tracks : Tracks w p) (ordinary : Ordinary n)
    (some : take (requestLevel n) p = some (a, q)) :
    Tracks (w.serve (.alloc n)) q ∧ (allocMemory n w.heap).1 = a + headerSize ∧
      (w.serve (.alloc n)).returned = (a + headerSize) :: w.returned ∧
      (w.serve (.alloc n)).heap.manager.blocks 0 = w.heap.manager.blocks 0 ∧
      ∀ {x}, Outside x q → (w.serve (.alloc n)).heap.header x = w.heap.header x := by
  obtain ⟨large, listed⟩ := ordinary
  have granted := allocMemory_refines tracks.shown tracks.valid ⟨large, listed⟩
  rw [some] at granted
  obtain ⟨result, shown, used, list0, header⟩ := granted
  obtain ⟨taken⟩ := take_taken some (Nat.le_of_lt listed)
  have valid := taken.wellFormed tracks.valid large
  have allocated := taken.allocated tracks.valid large
  have counted := used_cons allocated
  have capacity := valid.used_le
  have nonzero : a + headerSize ≠ 0 := by simp [headerSize]
  have served : w.serve (.alloc n) =
      ⟨(allocMemory n w.heap).2, (a + headerSize) :: w.returned, (a + headerSize) :: w.live⟩ := by
    simp only [World.serve, result, if_neg nonzero]
  rw [served]
  refine ⟨⟨valid, tracks.settled.take taken tracks.valid large, shown, ?_, ?_, ?_⟩, result, rfl,
    list0, header⟩
  · rw [used, tracks.used, u64_of_lt (by omega)]
    omega
  · intro address
    rw [List.mem_cons, tracks.live, allocated]
    constructor
    · rintro (rfl | ⟨b, k, member, rfl⟩)
      · exact ⟨a, _, List.mem_cons_self, rfl⟩
      · exact ⟨b, k, List.mem_cons_of_mem _ member, rfl⟩
    · rintro ⟨b, k, member, rfl⟩
      rcases List.mem_cons.mp member with same | old
      · obtain ⟨rfl, _⟩ := Prod.mk.inj same
        exact .inl rfl
      · exact .inr ⟨b, k, old, rfl⟩
  · apply List.nodup_cons.mpr ⟨?_, tracks.liveNodup⟩
    intro member
    obtain ⟨b, k, old, same⟩ := tracks.live.mp member
    have equal : a = b := by unfold headerSize at same; omega
    subst equal
    exact taken.fresh tracks.valid old

/-- Giving back an address in use. -/
theorem Tracks.free {T : Heap → Partition → Nat → Nat → Prop} (trusts : Trusts T)
    (tracks : Tracks w p) (present : (a, level) ∈ p.allocated)
    (trusted : ∀ {heap'}, (∀ {x}, x ≠ a → SameFields w.heap heap' x) →
      T heap' (p.release a level) a level) :
    Tracks (w.serve (.free (a + headerSize))) (p.dispose a level) ∧
      (w.serve (.free (a + headerSize))).heap.manager.blocks 0 = w.heap.manager.blocks 0 ∧
      ∃ b k, T (w.serve (.free (a + headerSize))).heap (p.dispose a level) b k := by
  obtain ⟨valid, settled, allocated⟩ := dispose_spec tracks.valid tracks.settled present
  obtain ⟨shown, used, list0, last⟩ :=
    freeMemory_refines trusts tracks.shown tracks.valid present trusted
  have counted := used_erase present allocated
  have capacity := tracks.valid.used_le
  have wide := Nat.two_pow_pos level
  refine ⟨⟨valid, settled, shown, ?_, ?_, ?_⟩, list0, last⟩
  · have size : p.used + 2 ^ 64 - 2 ^ level = (p.dispose a level).used + 2 ^ 64 := by omega
    change (freeMemory (a + headerSize) w.heap).manager.usedMemory = _
    rw [used, tracks.used, size]
    unfold u64
    omega
  · intro address
    rw [allocated]
    exact tracks.mem_live_iff present
  · exact tracks.liveNodup.erase _

end SoKernel.Buddy
