import SoKernel.Memory.Requests
import SoKernel.Lib.Transition

namespace SoKernel.Buddy
open Lib Buddy.Partition

variable {w w' : World} {start heap heap' : Heap} {p q : Partition}
variable {a b level other n x address : Nat}

/-! ## Stale headers -/

/-- What lies between blocks was never written, or is the header of the upper
half of a merged pair: it reads as a free block whose level bit is set. -/
def Clean (heap : Heap) (p : Partition) : Prop :=
  ∀ {x}, Managed x → Outside x p → (heap.header x).blockState = .free ∧
    ((heap.header x).level = 0 ∨ HasBit x (heap.header x).level ∧ x < regionEnd)

theorem outside_of_release (valid : p.WellFormed) (present : (a, level) ∈ p.allocated)
    (outside : Outside x (p.release a level)) : Outside x p := by
  intro k block
  exact outside k ((release_block valid present).mpr block)

theorem clean_release (clean : Clean heap p) (valid : p.WellFormed)
    (present : (a, level) ∈ p.allocated)
    (same : ∀ {x}, x ≠ a → SameFields heap heap' x) : Clean heap' (p.release a level) := by
  intro x managed outside
  have away := outside_of_release valid present outside
  have other : x ≠ a := by
    rintro rfl
    exact away level (.inr present)
  obtain ⟨sameLevel, sameState⟩ := same other
  rw [sameLevel, sameState]
  exact clean managed away

/-- Only the upper half of a merged pair stops being a block. -/
theorem join_upper (outside : Outside x (p.join a (a ^^^ 2 ^ level) level))
    (valid : p.WellFormed) (free : a ∈ p.free level) (buddy : a ^^^ 2 ^ level ∈ p.free level)
    (block : p.Block x other) : x ∈ p.free level ∧ HasBit x level := by
  have fresh : x ≠ parent a level := by
    rintro rfl
    exact outside (level + 1) ((join_block valid free buddy).mpr (.inr ⟨rfl, rfl⟩))
  have half : x = a ∨ x = a ^^^ 2 ^ level := by
    by_contra neither
    apply outside other
    exact (join_block valid free buddy).mpr
      (.inl ⟨block, fun same => neither (.inl same), fun same => neither (.inr same)⟩)
  unfold parent at fresh
  rcases half with rfl | rfl
  · refine ⟨free, ?_⟩
    by_contra clear
    have upper := xor_two_pow_of_clear clear
    have wide := Nat.two_pow_pos level
    rw [if_pos (by omega)] at fresh
    exact fresh rfl
  · refine ⟨buddy, ?_⟩
    rw [hasBit_xor]
    intro set
    have lower := xor_two_pow_of_set set
    have wide := Nat.two_pow_pos level
    rw [if_neg (by omega)] at fresh
    exact fresh rfl

/-- In a clean heap the buddy of a block end is a free block wherever it reads as one. -/
theorem clean_sound (clean : Clean heap p) (valid : p.WellFormed) (shown : Represents 0 heap p)
    (finish : ∃ c j, p.Block c j ∧ c + 2 ^ j = a + 2 ^ level) (positive : 1 ≤ level)
    (looks : LooksFree heap (a ^^^ 2 ^ level) level) : a ^^^ 2 ^ level ∈ p.free level := by
  obtain ⟨managed, state, height⟩ := looks
  -- A block at the buddy's address reads FREE only on a list, and then on this one.
  have onList : ∀ {k}, p.Block (a ^^^ 2 ^ level) k → a ^^^ 2 ^ level ∈ p.free level := by
    intro k block
    rcases block with member | allocated
    · have same := (shown.free member).1
      rw [height] at same
      exact same ▸ member
    · have taken := (shown.allocated allocated).2.1 (valid.pos (.inr allocated))
      rw [state] at taken
      cases taken
  by_contra absent
  have outside : Outside (a ^^^ 2 ^ level) p := fun k block => absent (onList block)
  obtain ⟨_, reads⟩ := clean managed outside
  rw [height] at reads
  rcases reads with zero | ⟨set, inside⟩
  · omega
  · rw [hasBit_xor] at set
    have upper := xor_two_pow_of_clear set
    obtain ⟨c, j, block, same⟩ := finish
    rw [upper, ← same] at inside outside
    obtain ⟨size, k, following, _⟩ := valid.tiles.next ⟨j, block, rfl⟩ inside
    exact outside k following

theorem clean_trusts : Trusts fun heap p _ _ => Clean heap p where
  sound := by
    intro heap p a level clean valid shown free looks
    have large := valid.large (.inl free)
    exact clean_sound clean valid shown ⟨a, level, .inl free, rfl⟩ (by omega) looks
  join := by
    intro heap heap' p a level clean valid shown free buddy same x managed outside
    have fresh : x ≠ parent a level := by
      rintro rfl
      exact outside (level + 1) ((join_block valid free buddy).mpr (.inr ⟨rfl, rfl⟩))
    obtain ⟨sameLevel, sameState⟩ := same fresh
    rw [sameLevel, sameState]
    by_cases block : ∃ k, p.Block x k
    · obtain ⟨k, found⟩ := block
      obtain ⟨listed, set⟩ := join_upper outside valid free buddy found
      obtain ⟨height, state⟩ := shown.free listed
      have bounds := valid.bounds (.inl listed)
      have wide := Nat.two_pow_pos level
      rw [height]
      exact ⟨state, .inr ⟨set, by omega⟩⟩
    · exact clean managed fun k found => block ⟨k, found⟩

/-! ## Runs of the allocator alone -/

/-- Requests up to 4 GiB, and frees of any earlier result. -/
def Request.Allowed (w : World) : Request → Prop
  | .alloc memoryToAllocate => memoryToAllocate + headerSize ≤ 2 ^ 32
  | .free address => address ∈ w.returned

def AllocatorStep (w : World) (request : Request) (w' : World) : Prop :=
  request.Allowed w ∧ w' = w.serve request

/-- Zeroed memory: every header in it reads as level 0, FREE. -/
def Zeroed (heap : Heap) : Prop :=
  ∀ {x}, Managed x → (heap.header x).level = 0 ∧ (heap.header x).blockState = .free

/-- Memory in which every byte is zero. -/
def zeroHeap : Heap where
  memoryManager := 0
  manager := ⟨0, 0, 0, 0, .ok, fun _ => 0⟩
  header _ := ⟨0, .free, 0, 0⟩

theorem zeroHeap_zeroed : Zeroed zeroHeap := by
  intro x _
  exact ⟨rfl, rfl⟩

/-- The invariant of such runs. -/
structure Undisturbed (w : World) (p : Partition) : Prop where
  tracks : Tracks w p
  clean : Clean w.heap p
  returned : ∀ {address}, address ∈ w.returned → address = 0 ∨
    ∃ a, address = a + headerSize ∧ heapStartAddress ≤ a ∧ a < regionEnd

theorem boot_undisturbed (zeroed : Zeroed start) : Undisturbed (World.boot start) root where
  tracks := boot_tracks
  clean := by
    intro x managed outside
    have other : x ≠ heapStartAddress := by
      rintro rfl
      exact outside 28 (root_block_iff.mpr ⟨rfl, rfl⟩)
    obtain ⟨height, state⟩ := zeroed managed
    change ((createMemoryManager start).header x).blockState = .free ∧ _
    rw [World.boot, createMemoryManager_header, if_neg other]
    exact ⟨state, .inl height⟩
  returned := by simp [World.boot]

/-- Freeing an address that is not in use changes nothing. -/
theorem Undisturbed.free_dead (undisturbed : Undisturbed w p) (earlier : address ∈ w.returned)
    (dead : address ∉ w.live) : freeMemory address w.heap = w.heap := by
  obtain ⟨tracks, clean, returned⟩ := undisturbed
  rcases returned earlier with rfl | ⟨a, rfl, low, high⟩
  · simp [freeMemory]
  · have state : (w.heap.header a).blockState = .free := by
      by_cases block : ∃ k, p.Block a k
      · obtain ⟨k, free | allocated⟩ := block
        · exact (tracks.shown.free free).2
        · exact absurd (tracks.live.mpr ⟨a, k, allocated, rfl⟩) dead
      · have managed : Managed a := by
          have room : regionEnd ≤ heapStartAddress + heapSize := by decide
          exact ⟨low, by omega⟩
        exact (clean managed fun k found => block ⟨k, found⟩).1
    have address : u64 (a + headerSize + 2 ^ 64 - headerSize) = a := by
      rw [regionEnd_eq] at high
      unfold u64 headerSize heapStartAddress at *
      omega
    unfold freeMemory
    dsimp only
    split
    · rfl
    · rw [address, if_pos (by simp [state])]

theorem Undisturbed.alloc (undisturbed : Undisturbed w p) (bound : n + headerSize ≤ 2 ^ 32)
    (some : take (requestLevel n) p = some (a, q)) : Undisturbed (w.serve (.alloc n)) q := by
  have tracks := undisturbed.tracks
  have small := (requestLevel_le_iff (Nat.le_trans bound (by decide))).mpr bound
  have large := requestLevel_large (Nat.le_trans bound (by decide))
  obtain ⟨taken⟩ := take_taken some (by unfold blockLists maxLevel; omega)
  obtain ⟨after, _, returned, _, header⟩ := tracks.alloc_some (ordinary_of_bound bound) some
  refine ⟨after, ?_, ?_⟩
  · intro x managed outside
    rw [header outside]
    exact undisturbed.clean managed (taken.outside tracks.valid large outside)
  · intro address member
    rw [returned] at member
    rcases List.mem_cons.mp member with rfl | old
    · have block : q.Block a (requestLevel n) :=
        .inr (by rw [taken.allocated tracks.valid large]; exact List.mem_cons_self)
      have bounds := after.valid.bounds block
      have wide := Nat.two_pow_pos (requestLevel n)
      exact .inr ⟨a, rfl, by omega, by omega⟩
    · exact undisturbed.returned old

theorem Undisturbed.step (undisturbed : Undisturbed w p) {request : Request}
    (step : AllocatorStep w request w') : ∃ q, Undisturbed w' q ∧
      w'.heap.manager.blocks 0 = w.heap.manager.blocks 0 := by
  obtain ⟨allowed, rfl⟩ := step
  have tracks := undisturbed.tracks
  cases request with
  | alloc n =>
    have bound : n + headerSize ≤ 2 ^ 32 := allowed
    cases outcome : take (requestLevel n) p with
    | none =>
      rw [tracks.alloc_none (ordinary_of_bound bound) outcome]
      refine ⟨p, ⟨⟨tracks.valid, tracks.settled, tracks.shown, tracks.used, tracks.live,
        tracks.liveNodup⟩, undisturbed.clean, ?_⟩, rfl⟩
      intro address member
      rcases List.mem_cons.mp member with rfl | old
      · exact .inl rfl
      · exact undisturbed.returned old
    | some pair =>
      obtain ⟨a, q⟩ := pair
      obtain ⟨_, _, _, list0, _⟩ := tracks.alloc_some (ordinary_of_bound bound) outcome
      exact ⟨q, undisturbed.alloc bound outcome, list0⟩
  | free address =>
    have earlier : address ∈ w.returned := allowed
    by_cases live : address ∈ w.live
    · obtain ⟨a, level, present, rfl⟩ := tracks.live.mp live
      obtain ⟨after, list0, _, _, clean⟩ := tracks.free clean_trusts present
        fun same => clean_release undisturbed.clean tracks.valid present same
      exact ⟨p.dispose a level, ⟨after, clean, undisturbed.returned⟩, list0⟩
    · have same : w.serve (.free address) = w := by
        simp [World.serve, undisturbed.free_dead earlier live, List.erase_of_not_mem live]
      rw [same]
      exact ⟨p, undisturbed, rfl⟩

/-- Every state of a run of the allocator alone is accounted for by a partition. -/
theorem undisturbed_of_run {requests : List Request} (zeroed : Zeroed start)
    (run : Run AllocatorStep (World.boot start) requests w) : ∃ p, Undisturbed w p ∧
      w.heap.manager.blocks 0 = start.manager.blocks 0 := by
  apply run.preserves
    (fun w => ∃ p, Undisturbed w p ∧ w.heap.manager.blocks 0 = start.manager.blocks 0)
  · rintro w request w' ⟨p, undisturbed, list0⟩ step
    obtain ⟨q, after, kept⟩ := undisturbed.step step
    exact ⟨q, after, kept.trans list0⟩
  · refine ⟨root, boot_undisturbed zeroed, ?_⟩
    rw [World.boot, createMemoryManager_eq]
    rfl

/-! ## Integrity of the heap -/

/-- `a` is the address of an ALLOCATED block. -/
def IsAllocated (heap : Heap) (a : Nat) : Prop :=
  Managed a ∧ (heap.header a).blockState = .allocated

/-- The free lists, the ALLOCATED blocks and the counter agree. -/
structure HeapIntegrity (heap : Heap) (lists : Nat → List Nat) (allocated : List Nat) : Prop where
  allocated_iff : ∀ a, a ∈ allocated ↔ IsAllocated heap a
  allocatedNodup : allocated.Nodup
  tiles : Tiles heapStartAddress (heapStartAddress + 2 ^ 28) fun a n =>
    ((∃ level, a ∈ lists level) ∨ a ∈ allocated) ∧ n = 2 ^ (heap.header a).level
  linked : ∀ level, 1 ≤ level → level < blockLists →
    heap.Lists level (lists level) ∧ (lists level).Nodup
  onlyLists : ∀ level a, a ∈ lists level → 1 ≤ level ∧ level < blockLists
  free : ∀ level a, a ∈ lists level →
    (heap.header a).level = level ∧ (heap.header a).blockState = .free
  noBuddies : ∀ level a b, a ∈ lists level → b ∈ lists level → getBuddy a heap ≠ b
  used : heap.manager.usedMemory = (allocated.map fun a => 2 ^ (heap.header a).level).sum

theorem managed_of_block (valid : p.WellFormed) (block : p.Block a level) : Managed a := by
  have bounds := valid.bounds block
  have wide := Nat.two_pow_pos level
  have room : regionEnd ≤ heapStartAddress + heapSize := by decide
  unfold Managed
  omega

/-- In an undisturbed heap only the headers of allocated blocks read ALLOCATED. -/
theorem Undisturbed.isAllocated_iff (undisturbed : Undisturbed w p) :
    IsAllocated w.heap a ↔ ∃ level, (a, level) ∈ p.allocated := by
  obtain ⟨tracks, clean, _⟩ := undisturbed
  constructor
  · rintro ⟨managed, state⟩
    by_cases block : ∃ k, p.Block a k
    · obtain ⟨k, free | allocated⟩ := block
      · rw [(tracks.shown.free free).2] at state
        cases state
      · exact ⟨k, allocated⟩
    · rw [(clean managed fun k found => block ⟨k, found⟩).1] at state
      cases state
  · rintro ⟨level, allocated⟩
    have block : p.Block a level := .inr allocated
    exact ⟨managed_of_block tracks.valid block,
      (tracks.shown.allocated allocated).2.1 (tracks.valid.pos block)⟩

theorem Undisturbed.heapIntegrity (undisturbed : Undisturbed w p) :
    HeapIntegrity w.heap p.free (p.allocated.map Prod.fst) := by
  have tracks := undisturbed.tracks
  have valid := tracks.valid
  have shown := tracks.shown
  have height : ∀ {a level}, p.Block a level → (w.heap.header a).level = level := by
    intro a level block
    rcases block with free | allocated
    · exact (shown.free free).1
    · exact (shown.allocated allocated).1
  refine ⟨?_, ?_, ?_, ?_, ?_, ?_, ?_, ?_⟩
  · intro a
    rw [undisturbed.isAllocated_iff]
    simp
  · apply List.Nodup.map_on ?_ valid.allocatedNodup
    rintro ⟨a, level⟩ one ⟨b, other⟩ two same
    have start : a = b := same
    subst start
    rw [valid.level_unique (.inr one) (.inr two)]
  · apply valid.tiles.congr
    intro a n
    constructor
    · rintro ⟨listed, rfl⟩
      rcases listed with ⟨level, free⟩ | allocated
      · exact ⟨level, .inl free, by rw [height (.inl free)]⟩
      · obtain ⟨⟨b, level⟩, member, rfl⟩ := List.mem_map.mp allocated
        exact ⟨level, .inr member, by rw [height (.inr member)]⟩
    · rintro ⟨level, block, rfl⟩
      refine ⟨?_, by rw [height block]⟩
      rcases block with free | allocated
      · exact .inl ⟨level, free⟩
      · exact .inr (List.mem_map.mpr ⟨(a, level), allocated, rfl⟩)
  · intro level low high
    exact ⟨shown.lists low high, valid.freeNodup level⟩
  · intro level a free
    exact (valid.separate.inRange free).2
  · intro level a free
    exact shown.free free
  · intro level a b first second same
    rw [getBuddy_of_free shown valid first] at same
    split at same
    · exact valid.pos (.inl second) same.symm
    · rw [← same] at second
      exact tracks.settled level a first second
  · rw [tracks.used, used, List.map_map]
    apply congrArg List.sum
    apply List.map_congr_left
    rintro ⟨a, level⟩ member
    exact congrArg (2 ^ ·) (height (.inr member)).symm

/-- A block is handed out that was not in use; it holds the request, and no other
block changes hands. -/
theorem Undisturbed.alloc_fresh (undisturbed : Undisturbed w p) (bound : n + headerSize ≤ 2 ^ 32)
    (granted : (allocMemory n w.heap).1 ≠ 0) :
    ∃ a, (allocMemory n w.heap).1 = a + headerSize ∧ ¬ IsAllocated w.heap a ∧
      n + headerSize ≤ 2 ^ ((allocMemory n w.heap).2.header a).level ∧
      ∀ b, IsAllocated (allocMemory n w.heap).2 b ↔ b = a ∨ IsAllocated w.heap b := by
  have tracks := undisturbed.tracks
  have large := requestLevel_large (Nat.le_trans bound (by decide))
  have small := (requestLevel_le_iff (Nat.le_trans bound (by decide))).mpr bound
  cases outcome : take (requestLevel n) p with
  | none =>
    have refused := allocMemory_refines tracks.shown tracks.valid (ordinary_of_bound bound)
    rw [outcome] at refused
    have nothing : allocMemory n w.heap = (0, w.heap) := refused
    exact absurd (by rw [nothing]) granted
  | some pair =>
    obtain ⟨a, q⟩ := pair
    obtain ⟨taken⟩ := take_taken outcome (by unfold blockLists maxLevel; omega)
    obtain ⟨after, result, _⟩ := tracks.alloc_some (ordinary_of_bound bound) outcome
    have allocated := taken.allocated tracks.valid large
    have after := undisturbed.alloc bound outcome
    have handed : (a, requestLevel n) ∈ q.allocated := by
      rw [allocated]
      exact List.mem_cons_self
    refine ⟨a, result, ?_, ?_, ?_⟩
    · rw [undisturbed.isAllocated_iff]
      rintro ⟨k, old⟩
      exact taken.fresh tracks.valid old
    · have height : ((allocMemory n w.heap).2.header a).level = requestLevel n :=
        (after.tracks.shown.allocated handed).1
      rw [height]
      exact (requestLevel_le_iff (Nat.le_trans bound (by decide))).mp (Nat.le_refl _)
    · intro b
      have inUse : IsAllocated (allocMemory n w.heap).2 b ↔ _ := after.isAllocated_iff
      rw [inUse, undisturbed.isAllocated_iff, allocated]
      constructor
      · rintro ⟨k, member⟩
        rcases List.mem_cons.mp member with same | old
        · exact .inl (Prod.mk.inj same).1
        · exact .inr ⟨k, old⟩
      · rintro (rfl | ⟨k, old⟩)
        · exact ⟨_, List.mem_cons_self⟩
        · exact ⟨k, List.mem_cons_of_mem _ old⟩

/-- Heap integrity in every state of a run that nobody but the allocator disturbs. -/
theorem heap_integrity {requests : List Request} (zeroed : Zeroed start)
    (run : Run AllocatorStep (World.boot start) requests w) :
    (∃ lists allocated, HeapIntegrity w.heap lists allocated) ∧
      w.heap.manager.blocks 0 = start.manager.blocks 0 ∧
      (∀ a, a + headerSize ∈ w.live ↔ IsAllocated w.heap a) ∧
      (∀ n, n + headerSize ≤ 2 ^ 32 → (allocMemory n w.heap).1 ≠ 0 →
        ∃ a, (allocMemory n w.heap).1 = a + headerSize ∧ ¬ IsAllocated w.heap a ∧
          n + headerSize ≤ 2 ^ ((allocMemory n w.heap).2.header a).level ∧
          ∀ b, IsAllocated (allocMemory n w.heap).2 b ↔ b = a ∨ IsAllocated w.heap b) ∧
      ∀ address ∈ w.returned, address ∉ w.live → freeMemory address w.heap = w.heap := by
  obtain ⟨p, undisturbed, list0⟩ := undisturbed_of_run zeroed run
  refine ⟨⟨_, _, undisturbed.heapIntegrity⟩, list0, ?_, ?_, ?_⟩
  · intro a
    rw [undisturbed.tracks.live, undisturbed.isAllocated_iff]
    constructor
    · rintro ⟨b, level, member, same⟩
      have equal : a = b := by unfold headerSize at same; omega
      exact ⟨level, equal ▸ member⟩
    · rintro ⟨level, member⟩
      exact ⟨a, level, member, rfl⟩
  · intro n bound granted
    exact undisturbed.alloc_fresh bound granted
  · intro address earlier dead
    exact undisturbed.free_dead earlier dead

/-- A block is allocated and freed twice. -/
theorem heap_integrity_double_free : ∃ lists allocated, HeapIntegrity
    ((((World.boot zeroHeap).serve (.alloc 100)).serve (.free 0x600018)).serve
      (.free 0x600018)).heap lists allocated := by
  have first : AllocatorStep (World.boot zeroHeap) (.alloc 100) _ :=
    ⟨(by decide : 100 + headerSize ≤ 2 ^ 32), rfl⟩
  have second : AllocatorStep ((World.boot zeroHeap).serve (.alloc 100)) (.free 0x600018) _ :=
    ⟨(by decide +kernel : 0x600018 ∈ ((World.boot zeroHeap).serve (.alloc 100)).returned), rfl⟩
  have third : AllocatorStep
      (((World.boot zeroHeap).serve (.alloc 100)).serve (.free 0x600018)) (.free 0x600018) _ :=
    ⟨(by decide +kernel : 0x600018 ∈
      (((World.boot zeroHeap).serve (.alloc 100)).serve (.free 0x600018)).returned), rfl⟩
  exact (heap_integrity zeroHeap_zeroed (.cons first (.cons second (.cons third .nil)))).1

end SoKernel.Buddy
