import SoKernel.Memory.RefusedRequests

namespace SoKernel.Buddy
open Lib Buddy.Partition

variable {w w' : World} {start heap : Heap} {p q : Partition}
variable {a level target i fuel n address x : Nat}

/-! ## Sizes beyond half the address space -/

/-- Beyond half the address space the rounded size is at most 32 bytes: the sum with
the header wraps, or the shift count does. -/
theorem requestLevel_overflow (beyond : 2 ^ 63 < n + headerSize) (stored : n < 2 ^ 64) :
    requestLevel n ≤ 5 := by
  unfold headerSize at beyond
  by_cases wraps : 2 ^ 64 ≤ n + 24
  · have small : ∀ size < 24, memoryToLevel
        (if (if size < minBlockSize then minBlockSize else size) &&&
          ((if size < minBlockSize then minBlockSize else size) - 1) ≠ 0
        then shiftOne (log2 (if size < minBlockSize then minBlockSize else size) + 1)
        else if size < minBlockSize then minBlockSize else size) ≤ 5 := by
      decide +kernel
    have size : u64 (n + headerSize) = n + 24 - 2 ^ 64 := by
      unfold u64 headerSize
      omega
    have result := small (n + 24 - 2 ^ 64) (by omega)
    rw [← size] at result
    exact result
  · have size : u64 (n + headerSize) = n + 24 := u64_of_lt (by unfold headerSize; omega)
    have minimum : ¬ n + 24 < minBlockSize := by
      unfold minBlockSize
      omega
    have logarithm : (n + 24).log2 = 63 := (Nat.log2_eq_iff (by omega)).mpr ⟨by omega, by omega⟩
    have strict : (n + 24) &&& (n + 24 - 1) ≠ 0 := by
      intro power
      obtain ⟨k, same⟩ := (Nat.and_sub_one_eq_zero_iff_isPowerOfTwo (by omega)).mp power
      rw [same, Nat.log2_two_pow] at logarithm
      subst logarithm
      omega
    have rounded : requestSize n = 1 := by
      unfold requestSize
      simp only [size, if_neg minimum, if_pos strict, log2_eq (by omega : n + 24 < 2 ^ 64),
        logarithm]
      rfl
    unfold requestLevel
    rw [rounded]
    decide

/-! ## What a search finds, list by list -/

/-- Nothing can be taken from the lists of this level and above. -/
def NoBlock (heap : Heap) (level : Nat) : Prop :=
  (heap.manager.blocks level ≠ 0 →
    (heap.header (heap.manager.blocks level)).blockState ≠ .free) ∧
  (heap.manager.blocks level = 0 → ∀ j, level < j → j < blockLists → heap.manager.blocks j = 0)

theorem takeHead_fields : SameFields heap (heap.takeHead level a) x := by
  unfold Heap.takeHead
  dsimp only
  split
  · exact ((setList_fields.trans setPrev_fields).trans setNext_fields).trans setPrev_fields
  · exact (setList_fields.trans setNext_fields).trans setPrev_fields

theorem halveBlock_level (small : level < 64) :
    ((halveBlock a level heap).header a).level = level := by
  have wide := Nat.two_pow_pos level
  have bound : 2 ^ level < 2 ^ 64 := Nat.pow_lt_pow_right (by decide) small
  have different : a ≠ u64 (a + shiftOne level) := by
    rw [shiftOne_of_lt small]
    unfold u64
    omega
  unfold halveBlock
  dsimp only
  rw [link_fields.1, initMemoryBlock_header, if_neg different, initMemoryBlock_header, if_pos rfl]

/-- A split hands out the block it was given, at the level asked for. -/
theorem splitBlockToLevel_level (above : target < i) (small : i ≤ 64) :
    (splitBlockToLevel a i target heap).1 = a ∧
      ((splitBlockToLevel a i target heap).2.header a).level = target := by
  induction i generalizing heap with
  | zero => omega
  | succ i ih =>
    rw [splitBlockToLevel_halve above]
    by_cases last : target = i
    · subst last
      rw [splitBlockToLevel_self]
      exact ⟨rfl, halveBlock_level (by omega)⟩
    · exact ih (by omega) (by omega)

theorem findInUpperLevels_cases (heap : Heap) (fuel : Nat) (above : target < i)
    (bound : i + fuel = blockLists) :
    (findInUpperLevels target fuel i heap = (0, heap) ∧
      ∀ j, i ≤ j → j < blockLists → heap.manager.blocks j = 0) ∨
    ∃ j b heap', findInUpperLevels target fuel i heap = (b, heap') ∧ i ≤ j ∧ j < blockLists ∧
      b = heap.manager.blocks j ∧ b ≠ 0 ∧ (heap'.header b).level = target := by
  induction fuel generalizing i with
  | zero =>
    left
    refine ⟨rfl, ?_⟩
    intro j low high
    omega
  | succ fuel ih =>
    have listed : i < blockLists := by omega
    have top : blockLists = 33 := rfl
    unfold findInUpperLevels
    by_cases empty : heap.manager.blocks i = 0
    · simp only [if_pos listed, empty, ne_eq, not_true_eq_false, if_false]
      rcases ih (i := i + 1) (by omega) (by omega) with
        ⟨nothing, rest⟩ | ⟨j, b, heap', found, low, others⟩
      · left
        refine ⟨nothing, ?_⟩
        intro j low high
        rcases Nat.eq_or_lt_of_le low with rfl | more
        · exact empty
        · exact rest j more high
      · exact .inr ⟨j, b, heap', found, by omega, others⟩
    · right
      have cut : (splitBlockToLevel (heap.manager.blocks i) i target
          (heap.takeHead i (heap.manager.blocks i))).1 = heap.manager.blocks i ∧ _ :=
        splitBlockToLevel_level above (by omega)
      obtain ⟨result, height⟩ := cut
      simp only [if_pos listed, ne_eq, empty, not_false_eq_true, if_true, result]
      exact ⟨i, _, _, rfl, Nat.le_refl i, listed, rfl, empty, height⟩

/-- `findFreeBlock` fails exactly when the lists offer nothing; a block of a higher
level is cut down to the level asked for. -/
theorem findFreeBlock_cases (heap : Heap) (listed : level < blockLists) :
    (NoBlock heap level ∧ findFreeBlock level heap = (0, heap)) ∨
    ∃ j b heap', ¬ NoBlock heap level ∧ findFreeBlock level heap = (b, heap') ∧ level ≤ j ∧
      j < blockLists ∧ b = heap.manager.blocks j ∧ b ≠ 0 ∧
      (j = level → ∀ x, (heap'.header x).level = (heap.header x).level) ∧
      (level < j → heap.manager.blocks level = 0 ∧ (heap'.header b).level = level) := by
  unfold findFreeBlock
  by_cases empty : heap.manager.blocks level = 0
  · simp only [empty, ne_eq, not_true_eq_false, if_false]
    rcases findInUpperLevels_cases heap (blockLists - (level + 1)) (Nat.lt_succ_self level)
      (by omega) with
      ⟨nothing, rest⟩ | ⟨j, b, heap', found, low, high, head, nonzero, height⟩
    · left
      refine ⟨⟨fun present => absurd empty present, fun _ j low high => rest j low high⟩, nothing⟩
    · right
      refine ⟨j, b, heap', ?_, found, by omega, high, head, nonzero, fun same => by omega,
        fun _ => ⟨trivial, height⟩⟩
      intro none
      exact nonzero (head.trans (none.2 empty j low high))
  · by_cases state : (heap.header (heap.manager.blocks level)).blockState = .free
    · right
      simp only [ne_eq, empty, not_false_eq_true, if_true, state, not_true_eq_false, if_false]
      refine ⟨level, _, _, ?_, rfl, Nat.le_refl level, listed, rfl, empty,
        fun _ _ => takeHead_fields.1, fun more => absurd more (Nat.lt_irrefl level)⟩
      intro none
      exact none.1 empty state
    · left
      simp only [ne_eq, empty, not_false_eq_true, if_true, state]
      exact ⟨⟨fun _ => state, fun none => absurd none empty⟩, trivial⟩

/-- The outcome of a request of any size for which there is a list. -/
theorem allocMemory_cases (ready : heap.memoryManager ≠ 0 ∧ heap.manager.status = .ok)
    (listed : requestLevel n < blockLists) :
    (NoBlock heap (requestLevel n) ∧ allocMemory n heap = (0, heap)) ∨
    ∃ j b heap', ¬ NoBlock heap (requestLevel n) ∧
      allocMemory n heap = (u64 (b + headerSize), heap') ∧ requestLevel n ≤ j ∧
      j < blockLists ∧ b = heap.manager.blocks j ∧ b ≠ 0 ∧
      (j = requestLevel n → ∀ x, (heap'.header x).level = (heap.header x).level) ∧
      (requestLevel n < j → heap.manager.blocks (requestLevel n) = 0 ∧
        (heap'.header b).level = requestLevel n) := by
  have level : memoryToLevel (requestSize n) = requestLevel n := rfl
  simp only [allocMemory, if_neg (not_down ready), level, if_neg (Nat.not_le_of_lt listed)]
  rcases findFreeBlock_cases heap listed with
    ⟨none, nothing⟩ | ⟨j, b, heap', some, found, low, high, head, nonzero, kept, cut⟩
  · left
    simp only [nothing, if_true]
    exact ⟨none, trivial⟩
  · right
    simp only [found, if_neg nonzero]
    have fields : ∀ x, ((heap'.setState b .allocated).header x).level = (heap'.header x).level := by
      intro x
      rw [Heap.setState, Heap.edit_header]
      split
      · rename_i same
        rw [same]
      · rfl
    refine ⟨j, b, _, some, rfl, low, high, head, nonzero, ?_, ?_⟩
    · intro same x
      exact (fields x).trans (kept same x)
    · intro more
      exact ⟨(cut more).1, (fields b).trans (cut more).2⟩

/-! ## Runs with requests of any size -/

/-- A request of any 64-bit size, unless a block too small for its own header would
serve it; frees as before. -/
def Request.Sized (w : World) : Request → Prop
  | .alloc n => n < 2 ^ 64 ∧ (5 ≤ requestLevel n ∨ NoBlock w.heap (requestLevel n))
  | .free address => (Request.free address).Unchecked w

/-- As `Sized`, for requests of any 64-bit size. -/
def Request.Stored (w : World) : Request → Prop
  | .alloc n => n < 2 ^ 64
  | .free address => (Request.free address).Unchecked w

def SizedStep (w : World) (request : Request) (w' : World) : Prop :=
  ∃ heap, Writes w heap ∧ request.Sized { w with heap } ∧ w' = { w with heap }.serve request

/-- The invariant of such runs: a partition accounts for the headers and the counter,
and until a request fails for its size also for the addresses in use. -/
structure Counted (w : World) (p : Partition) : Prop where
  valid : p.WellFormed
  shown : Represents 0 (w.heap.setManager fun manager => { manager with status := .ok }) p
  used : w.heap.manager.usedMemory = p.used
  live : ∀ address ∈ w.live, ∃ a level, (a, level) ∈ p.allocated ∧ address = a + headerSize
  tracks : w.heap.manager.status = .ok → Tracks w p

theorem Tracks.counted (tracks : Tracks w p) : Counted w p where
  valid := tracks.valid
  shown := tracks.shown.congr rfl (by
    have ok := tracks.shown.status
    change { w.heap.manager with status := .ok } = w.heap.manager
    rw [← ok]) fun _ => rfl
  used := tracks.used
  live _ := tracks.live.mp
  tracks _ := tracks

theorem Counted.writes (counted : Counted w p) (writes : Writes w heap) :
    Counted { w with heap } p := by
  refine ⟨counted.valid, ?_, ?_, counted.live, ?_⟩
  · apply counted.shown.congr
    · exact writes.memoryManager
    · change { heap.manager with status := .ok } = { w.heap.manager with status := .ok }
      rw [writes.manager]
    · intro a level block
      exact writes.header (counted.valid.not_owned
        (fun allocated => (counted.shown.allocated allocated).1) counted.live block)
  · change heap.manager.usedMemory = p.used
    rw [writes.manager]
    exact counted.used
  · intro ok
    have same : w.heap.manager.status = .ok := by
      rw [← writes.manager]
      exact ok
    exact (counted.tracks same).writes writes

/-- Once the status is an error requests change nothing but the record of addresses. -/
theorem Counted.failed (counted : Counted w p) (failed : w.heap.manager.status ≠ .ok)
    (request : Request) : Counted (w.serve request) p := by
  have same : (w.serve request).heap = w.heap := Accounted.failed_serve failed
  refine ⟨counted.valid, ?_, ?_, ?_, ?_⟩
  · rw [same]
    exact counted.shown
  · rw [same]
    exact counted.used
  · intro address member
    apply counted.live
    cases request with
    | alloc n =>
      have nothing : allocMemory n w.heap = (0, w.heap) := alloc_failed failed
      simpa [World.serve, nothing] using member
    | free other => exact List.mem_of_mem_erase member
  · intro ok
    rw [same] at ok
    exact absurd ok failed

theorem Tracks.alloc_sized (tracks : Tracks w p)
    (sized : 5 ≤ requestLevel n ∨ NoBlock w.heap (requestLevel n)) :
    ∃ q, Counted (w.serve (.alloc n)) q := by
  by_cases listed : requestLevel n < blockLists
  · rcases allocMemory_cases tracks.ready listed with ⟨_, nothing⟩ | ⟨_, _, _, some, _⟩
    · have idle : w.serve (.alloc n) = { w with returned := 0 :: w.returned } := by
        simp [World.serve, nothing]
      rw [idle]
      exact ⟨p, Tracks.counted ⟨tracks.valid, tracks.settled, tracks.shown, tracks.used,
        tracks.live, tracks.liveNodup⟩⟩
    · have ordinary : Ordinary n := ⟨sized.resolve_right some, listed⟩
      cases outcome : take (requestLevel n) p with
      | none =>
        rw [tracks.alloc_none ordinary outcome]
        exact ⟨p, Tracks.counted ⟨tracks.valid, tracks.settled, tracks.shown, tracks.used,
          tracks.live, tracks.liveNodup⟩⟩
      | some pair => exact ⟨pair.2, (tracks.alloc_some ordinary outcome).1.counted⟩
  · have latched := alloc_unlisted tracks.ready (Nat.le_of_not_lt listed)
    refine ⟨p, tracks.valid, ?_, ?_, ?_, ?_⟩
    · have shown := tracks.counted.shown
      simpa [World.serve, latched, Heap.setManager] using shown
    · simpa [World.serve, latched, Heap.setManager] using tracks.used
    · intro address member
      apply tracks.live.mp
      simpa [World.serve, latched] using member
    · intro ok
      simp [World.serve, latched, Heap.setManager] at ok

theorem SizedStep.counted {request : Request} (step : SizedStep w request w')
    (counted : Counted w p) : ∃ q, Counted w' q := by
  obtain ⟨heap, writes, sized, rfl⟩ := step
  have written := counted.writes writes
  by_cases ok : heap.manager.status = .ok
  · have tracks := written.tracks ok
    cases request with
    | alloc n => exact tracks.alloc_sized sized.2
    | free address =>
      rcases sized with honest | ⟨dead, state⟩
      · have served : Request.Served Honest { w with heap } (.free address) := honest
        obtain ⟨_, q, _, after, _⟩ := tracks.client_step (.quiet served)
        exact ⟨q, after.counted⟩
      · have idle : ({ w with heap } : World).serve (.free address) = { w with heap } := by
          simp only [World.serve, free_unallocated state, List.erase_of_not_mem dead]
        rw [idle]
        exact ⟨p, written⟩
  · exact ⟨p, written.failed ok request⟩

theorem counted_of_run {requests : List Request}
    (run : Run SizedStep (World.boot start) requests w) : ∃ p, Counted w p := by
  apply run.preserves (fun w => ∃ p, Counted w p)
  · rintro w request w' ⟨p, counted⟩ step
    exact step.counted counted
  · exact ⟨root, boot_tracks.counted⟩

end SoKernel.Buddy
