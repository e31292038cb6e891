import SoKernel.Memory.ClientWrites

namespace SoKernel.Buddy
open Lib Buddy.Partition

variable {w w' : World} {start heap : Heap} {p : Partition} {n address : Nat}

/-- A request as system calls let any client make it: of any size up to half the
address space, and frees of any address. What a free reads as a header is one: of a
live block, merged over honest bytes, or of nothing that is allocated. -/
def Request.Unchecked (w : World) : Request → Prop
  | .alloc memoryToAllocate => memoryToAllocate + headerSize ≤ 2 ^ 63
  | .free address =>
    (address ∈ w.live ∧ Honest w.heap address) ∨
      (address ∉ w.live ∧
        (w.heap.header (u64 (address + 2 ^ 64 - headerSize))).blockState ≠ .allocated)

/-- Clients write into what they own, then one of them makes a request. -/
def UncheckedStep (w : World) (request : Request) (w' : World) : Prop :=
  ∃ heap, Writes w heap ∧ request.Unchecked { w with heap } ∧ w' = { w with heap }.serve request

/-- Until a request fails for its size the partition accounts for the heap. -/
def Accounted (w : World) : Prop := w.heap.manager.status ≠ .ok ∨ ∃ p, Tracks w p

/-! ## One request -/

/-- A request beyond 4 GiB asks for a level that no list has. -/
theorem blockLists_le_requestLevel (bound : n + headerSize ≤ 2 ^ 63)
    (large : 2 ^ 32 < n + headerSize) : blockLists ≤ requestLevel n := by
  have above : ¬ requestLevel n ≤ 32 := by
    rw [requestLevel_le_iff bound]
    omega
  unfold blockLists maxLevel
  omega

theorem not_down (ready : heap.memoryManager ≠ 0 ∧ heap.manager.status = .ok) :
    ¬ (heap.memoryManager = 0 ∨ heap.manager.status ≠ .ok) := by
  rintro (none | failed)
  · exact ready.1 none
  · exact failed ready.2

theorem alloc_unlisted (ready : heap.memoryManager ≠ 0 ∧ heap.manager.status = .ok)
    (unlisted : blockLists ≤ requestLevel n) :
    allocMemory n heap = (0, heap.setManager fun manager => { manager with status := .error }) := by
  have level : blockLists ≤ memoryToLevel (requestSize n) := unlisted
  unfold allocMemory
  rw [if_neg (not_down ready), if_pos level]

theorem alloc_oversize (ready : heap.memoryManager ≠ 0 ∧ heap.manager.status = .ok)
    (bound : n + headerSize ≤ 2 ^ 63) (large : 2 ^ 32 < n + headerSize) :
    allocMemory n heap = (0, heap.setManager fun manager => { manager with status := .error }) :=
  alloc_unlisted ready (blockLists_le_requestLevel bound large)

/-- Once the status is an error the allocator does nothing any more. -/
theorem alloc_failed (failed : heap.manager.status ≠ .ok) : allocMemory n heap = (0, heap) := by
  unfold allocMemory
  rw [if_pos (.inr failed)]

theorem free_failed (failed : heap.manager.status ≠ .ok) : freeMemory address heap = heap := by
  unfold freeMemory
  rw [if_pos (.inr (.inr failed))]

theorem free_unallocated
    (dead : (heap.header (u64 (address + 2 ^ 64 - headerSize))).blockState ≠ .allocated) :
    freeMemory address heap = heap := by
  unfold freeMemory
  split
  · rfl
  · exact if_pos dead

theorem Tracks.ready (tracks : Tracks w p) :
    w.heap.memoryManager ≠ 0 ∧ w.heap.manager.status = .ok :=
  ⟨tracks.shown.created, tracks.shown.status⟩

/-- A request that does not fail for its size and gets nothing changes nothing. -/
theorem Tracks.refused (tracks : Tracks w p) (bound : n + headerSize ≤ 2 ^ 32)
    (none : (allocMemory n w.heap).1 = 0) : (allocMemory n w.heap).2 = w.heap := by
  have granted := allocMemory_refines tracks.shown tracks.valid (ordinary_of_bound bound)
  cases outcome : take (requestLevel n) p with
  | none =>
    rw [outcome] at granted
    have nothing : allocMemory n w.heap = (0, w.heap) := granted
    rw [nothing]
  | some pair =>
    rw [outcome] at granted
    have result := granted.1
    rw [none] at result
    unfold headerSize at result
    omega

/-! ## Runs -/

theorem Accounted.failed_serve {request : Request} (failed : w.heap.manager.status ≠ .ok) :
    (w.serve request).heap = w.heap := by
  cases request with
  | alloc n =>
    change (allocMemory n w.heap).2 = w.heap
    rw [alloc_failed failed]
  | free address => exact free_failed failed

theorem UncheckedStep.accounted {request : Request} (step : UncheckedStep w request w')
    (accounted : Accounted w) : Accounted w' := by
  obtain ⟨heap, writes, unchecked, rfl⟩ := step
  rcases accounted with failed | ⟨p, before⟩
  · left
    rw [← writes.manager] at failed
    rw [Accounted.failed_serve (w := { w with heap }) failed]
    exact failed
  · have tracks := before.writes writes
    cases request with
    | alloc n =>
      by_cases small : n + headerSize ≤ 2 ^ 32
      · right
        obtain ⟨_, q, _, after, _⟩ := tracks.client_step (.quiet (served_alloc small))
        exact ⟨q, after⟩
      · left
        change (allocMemory n heap).2.manager.status ≠ .ok
        rw [alloc_oversize tracks.ready unchecked (by omega)]
        exact BuddyStatus.noConfusion
    | free address =>
      right
      rcases unchecked with honest | ⟨dead, state⟩
      · have served : Request.Served Honest { w with heap } (.free address) := honest
        obtain ⟨_, q, _, after, _⟩ := tracks.client_step (.quiet served)
        exact ⟨q, after⟩
      · have idle : ({ w with heap } : World).serve (.free address) = { w with heap } := by
          simp only [World.serve, free_unallocated state, List.erase_of_not_mem dead]
        rw [idle]
        exact ⟨p, tracks⟩

/-- In every reachable state a request that gets nothing leaves the allocator as it
was, exactly when it does not ask for more than 4 GiB. -/
theorem refused_unchanged_iff {requests : List Request}
    (run : Run UncheckedStep (World.boot start) requests w) (ok : w.heap.manager.status = .ok)
    (bound : n + headerSize ≤ 2 ^ 63) (refused : (allocMemory n w.heap).1 = 0) :
    (allocMemory n w.heap).2 = w.heap ↔ n + headerSize ≤ 2 ^ 32 := by
  have accounted : Accounted w := run.preserves Accounted
    (fun before step => step.accounted before) (.inr ⟨root, boot_tracks⟩)
  obtain ⟨p, tracks⟩ := accounted.resolve_left fun failed => failed ok
  constructor
  · intro same
    by_contra large
    have latched := alloc_oversize tracks.ready bound (by omega)
    rw [latched] at same
    have status := congrArg (fun heap => heap.manager.status) same
    rw [show w.heap.manager.status = .ok from ok] at status
    cases status
  · intro small
    exact tracks.refused small refused

/-- On a fresh heap 2^28 bytes and a header do not fit. -/
theorem refused_too_large_for_region :
    (allocMemory (2 ^ 28) (World.boot zeroHeap).heap).2 = (World.boot zeroHeap).heap ↔
      2 ^ 28 + headerSize ≤ 2 ^ 32 :=
  refused_unchanged_iff .nil (by decide +kernel) (by decide) (by decide +kernel)

/-- A request for 4 GiB on the fresh heap is refused and leaves the error status. -/
theorem oversize_disables_heap : ¬ ∀ start requests w n,
    Run UncheckedStep (World.boot start) requests w → w.heap.manager.status = .ok →
      n + headerSize ≤ 2 ^ 63 → (allocMemory n w.heap).1 = 0 →
        (allocMemory n w.heap).2 = w.heap := by
  intro unchanged
  have same := unchanged zeroHeap [] _ (2 ^ 32) .nil (by decide +kernel) (by decide)
    (by decide +kernel)
  have status := congrArg (fun heap => heap.manager.status) same
  revert status
  decide +kernel

end SoKernel.Buddy
