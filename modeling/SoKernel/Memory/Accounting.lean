import SoKernel.Memory.AnySize

namespace SoKernel.Buddy
open Lib Buddy.Partition

variable {w : World} {start : Heap} {p : Partition} {requests : List Request}
variable {lists : Nat → List Nat}

structure MemInfo where
  total : Nat
  used : Nat
  free : Nat
deriving DecidableEq, Repr

def getMemoryInfo (heap : Heap) : MemInfo where
  total := heap.manager.memorySize
  used := heap.manager.usedMemory
  free := u64 (heap.manager.memorySize + 2 ^ 64 - heap.manager.usedMemory)

/-- Bytes of the blocks on the free lists; list 0 is never initialised. -/
def freeBytes (lists : Nat → List Nat) : Nat :=
  ((List.range' 1 maxLevel).map fun level => (lists level).length * 2 ^ level).sum

/-! ## The blocks of a partition -/

namespace Partition

/-- The free blocks with their sizes, level by level. -/
def freePieces (p : Partition) : List (Nat × Nat) :=
  (List.range' 1 maxLevel).flatMap fun level => (p.free level).map fun a => (a, 2 ^ level)

def allocatedPieces (p : Partition) : List (Nat × Nat) :=
  p.allocated.map fun entry => (entry.1, 2 ^ entry.2)

theorem mem_freePieces {a n : Nat} : (a, n) ∈ p.freePieces ↔
    ∃ level, 1 ≤ level ∧ level < blockLists ∧ a ∈ p.free level ∧ n = 2 ^ level := by
  have range : 1 + maxLevel = blockLists := rfl
  simp only [freePieces, List.mem_flatMap, List.mem_range'_1, range, List.mem_map, Prod.mk.injEq]
  constructor
  · rintro ⟨level, ⟨low, high⟩, b, member, rfl, rfl⟩
    exact ⟨level, low, high, member, rfl⟩
  · rintro ⟨level, low, high, member, rfl⟩
    exact ⟨level, ⟨low, high⟩, a, member, rfl, rfl⟩

theorem mem_allocatedPieces {a n : Nat} : (a, n) ∈ p.allocatedPieces ↔
    ∃ level, (a, level) ∈ p.allocated ∧ n = 2 ^ level := by
  simp only [allocatedPieces, List.mem_map, Prod.mk.injEq, Prod.exists]
  constructor
  · rintro ⟨b, level, member, rfl, rfl⟩
    exact ⟨level, member, rfl⟩
  · rintro ⟨level, member, rfl⟩
    exact ⟨a, level, member, rfl, rfl⟩

theorem freePieces_sum : (p.freePieces.map Prod.snd).sum = freeBytes p.free := by
  unfold freePieces freeBytes
  induction List.range' 1 maxLevel with
  | nil => rfl
  | cons level levels ih =>
    have sizes : Prod.snd ∘ (fun a : Nat => (a, 2 ^ level)) = fun _ => 2 ^ level := rfl
    simp [ih, sizes]

theorem allocatedPieces_sum : (p.allocatedPieces.map Prod.snd).sum = p.used := by
  unfold allocatedPieces used
  rw [List.map_map]
  rfl

theorem WellFormed.freePieces_nodup (valid : p.WellFormed) : p.freePieces.Nodup := by
  apply List.nodup_flatMap.mpr
  constructor
  · intro level _
    exact (valid.freeNodup level).map fun a b same => (Prod.mk.inj same).1
  · apply List.Nodup.pairwise_of_forall_ne List.nodup_range'
    intro level _ other _ different
    rintro ⟨a, n⟩ first second
    obtain ⟨b, one, same⟩ := List.mem_map.mp first
    obtain ⟨c, two, equal⟩ := List.mem_map.mp second
    obtain ⟨rfl, _⟩ := Prod.mk.inj same
    obtain ⟨rfl, _⟩ := Prod.mk.inj equal
    exact different (valid.level_unique (.inl one) (.inl two))

/-- Every byte of the region is in a free or in an allocated block. -/
theorem WellFormed.used_add_free (valid : p.WellFormed) : p.used + freeBytes p.free = 2 ^ 28 := by
  have capacity : regionEnd - heapStartAddress = 2 ^ 28 := Nat.add_sub_cancel_left ..
  have unique : (p.allocatedPieces ++ p.freePieces).Nodup := by
    refine List.nodup_append'.mpr ⟨?_, valid.freePieces_nodup, ?_⟩
    · apply valid.allocatedNodup.map
      rintro ⟨a, level⟩ ⟨b, other⟩ same
      obtain ⟨start, size⟩ := Prod.mk.inj same
      exact Prod.ext start (Nat.pow_right_injective (Nat.le_refl 2) size)
    · rintro ⟨a, n⟩ first second
      obtain ⟨level, allocated, _⟩ := mem_allocatedPieces.mp first
      obtain ⟨other, _, _, free, _⟩ := mem_freePieces.mp second
      exact valid.apart free allocated
  have all : ∀ entry, entry ∈ p.allocatedPieces ++ p.freePieces ↔
      ∃ level, p.Block entry.1 level ∧ entry.2 = 2 ^ level := by
    rintro ⟨a, n⟩
    rw [List.mem_append, mem_allocatedPieces, mem_freePieces]
    constructor
    · rintro (⟨level, allocated, size⟩ | ⟨level, _, _, free, size⟩)
      · exact ⟨level, .inr allocated, size⟩
      · exact ⟨level, .inl free, size⟩
    · rintro ⟨level, free | allocated, size⟩
      · have range := valid.separate.inRange free
        exact .inr ⟨level, range.2.1, range.2.2, free, size⟩
      · exact .inl ⟨level, allocated, size⟩
  have total := valid.tiles.sum_eq unique all
  rwa [List.map_append, List.sum_append, allocatedPieces_sum, freePieces_sum, capacity] at total

end Partition

/-! ## What is reported -/

theorem freeBytes_congr {other : Nat → List Nat}
    (same : ∀ level, 1 ≤ level → level < blockLists → lists level = other level) :
    freeBytes lists = freeBytes other := by
  unfold freeBytes
  congr 1
  apply List.map_congr_left
  intro level member
  have range := List.mem_range'_1.mp member
  rw [same level range.1 range.2]

/-- In every reachable state the report counts as free what lies beyond the root block. -/
theorem Counted.reported (counted : Counted w p)
    (linked : ∀ level, 1 ≤ level → level < blockLists → w.heap.Lists level (lists level)) :
    (getMemoryInfo w.heap).free = freeBytes lists + (heapSize - 2 ^ 28) := by
  have lists_eq : freeBytes lists = freeBytes p.free :=
    freeBytes_congr fun level low high => (linked level low high).unique
      (counted.shown.lists low high)
  have total := counted.valid.used_add_free
  have size : w.heap.manager.memorySize = heapSize := counted.shown.size
  have region : heapSize = 530579456 := by decide
  unfold getMemoryInfo
  simp only [size, counted.used, lists_eq, region]
  unfold u64
  omega

/-- In no reachable state is the number of free bytes the size of the free blocks. -/
theorem free_memory_overreported (run : Run SizedStep (World.boot start) requests w)
    (linked : ∀ level, 1 ≤ level → level < blockLists → w.heap.Lists level (lists level)) :
    (getMemoryInfo w.heap).free ≠ freeBytes lists := by
  obtain ⟨p, counted⟩ := counted_of_run run
  have reported := counted.reported linked
  have beyond : heapSize - 2 ^ 28 ≠ 0 := by decide
  omega

theorem free_memory_overreported_fresh :
    (getMemoryInfo (World.boot zeroHeap).heap).free ≠ freeBytes root.free :=
  free_memory_overreported .nil fun _ low high => boot_tracks.shown.lists low high

/-- A fresh heap has one free block of 256 MiB and reports 506 MiB. -/
theorem fresh_heap_overreports : ¬ ∀ start requests w lists,
    Run SizedStep (World.boot start) requests w →
    (∀ level, 1 ≤ level → level < blockLists → w.heap.Lists level (lists level)) →
      (getMemoryInfo w.heap).free = freeBytes lists := by
  intro truthful
  have report := truthful zeroHeap [] _ root.free .nil
    fun _ low high => boot_tracks.shown.lists low high
  revert report
  decide +kernel

end SoKernel.Buddy
