import SoKernel.Memory.BestLevel
import SoKernel.Memory.WordAgreement

namespace SoKernel.Buddy
open Lib Buddy.Partition

variable {words : Words} {heap : Heap} {p : Partition} {level n : Nat}

/-! ## Runs -/

namespace Words

/-- The words, read as a header at each address. -/
def records (words : Words) : Heap where
  memoryManager := words.memoryManager
  manager := words.manager
  header := words.header

theorem agrees_records : Agrees words words.records := ⟨rfl, rfl, fun _ => rfl⟩

theorem allocMemory_of_noBlock (none : NoBlock words.records (requestLevel n))
    (listed : requestLevel n < blockLists) : allocMemory n words = (0, words) := by
  have upper : ∀ fuel i, requestLevel n < i →
      (∀ j, requestLevel n < j → j < blockLists → words.manager.blocks j = 0) →
        findInUpperLevels (requestLevel n) fuel i words = (0, words) := by
    intro fuel
    induction fuel with
    | zero =>
      intro i above empty
      rfl
    | succ fuel ih =>
      intro i above empty
      unfold findInUpperLevels
      split
      · rename_i inside
        simp only [empty i above inside, ne_eq, not_true_eq_false, if_false]
        exact ih (i + 1) (by omega) empty
      · rfl
  have found : findFreeBlock (requestLevel n) words = (0, words) := by
    unfold findFreeBlock
    by_cases empty : words.manager.blocks (requestLevel n) = 0
    · simp only [empty, ne_eq, not_true_eq_false, if_false]
      exact upper _ _ (Nat.lt_succ_self _) fun j low high => none.2 empty j low high
    · simp only [ne_eq, empty, not_false_eq_true, if_true]
      exact if_pos (none.1 empty)
  have level : memoryToLevel (requestSize n) = requestLevel n := rfl
  unfold allocMemory
  split
  · rfl
  · simp only [level, if_neg (Nat.not_le_of_lt listed), found, if_true]

end Words

/-- As `World`, over the words. -/
structure WordWorld where
  words : Words
  returned : List Nat
  live : List Nat

namespace WordWorld

def boot (start : Words) : WordWorld := ⟨Words.createMemoryManager start, [], []⟩

def serve (w : WordWorld) : Request → WordWorld
  | .alloc memoryToAllocate =>
    let (address, words) := Words.allocMemory memoryToAllocate w.words
    { words, returned := address :: w.returned
      live := if address = 0 then w.live else address :: w.live }
  | .free address =>
    { w with words := Words.freeMemory address w.words, live := w.live.erase address }

/-- What its clients see. -/
def world (w : WordWorld) : World := ⟨w.words.records, w.returned, w.live⟩

/-- The byte at `x` belongs to the payload of a block that a client owns. -/
def Payload (w : WordWorld) (x : Nat) : Prop :=
  ∃ a, a + headerSize ∈ w.live ∧ a + headerSize ≤ x ∧ x < a + 2 ^ (w.words.header a).level

/-- The clients have written into their own payloads and nowhere else. -/
inductive Stores (w : WordWorld) : Words → Prop
  | nothing : Stores w w.words
  | byte {words : Words} {x value : Nat} : Stores w words → w.Payload x →
      Stores w (words.store 1 x value)

variable {w w' : WordWorld} {start : Words} {request : Request} {requests : List Request}

theorem Stores.kept (stores : w.Stores words) : words.memoryManager = w.words.memoryManager ∧
    words.manager = w.words.manager ∧
    ∀ {b}, 32 ∣ b → ¬ Owned w.world b → words.header b = w.words.header b := by
  induction stores with
  | nothing => exact ⟨rfl, rfl, fun _ _ => rfl⟩
  | @byte words x value _ payload ih =>
    obtain ⟨memoryManager, manager, header⟩ := ih
    refine ⟨memoryManager, manager, fun {b} here outside => ?_⟩
    rw [← header here outside]
    refine Words.header_apart here (by omega) ?_
    obtain ⟨a, live, low, high⟩ := payload
    by_cases before : b ≤ a
    · unfold headerSize at low
      omega
    · have behind : a + 2 ^ (w.words.header a).level ≤ b := by
        by_contra inside
        exact outside ⟨a, live, by omega, Nat.lt_of_not_le inside⟩
      omega

/-- One request on the words and on the headers. -/
structure Follows (w : WordWorld) (v : World) : Prop where
  agrees : Agrees w.words v.heap
  returned : w.returned = v.returned
  live : w.live = v.live

theorem Follows.counted {v : World} (follows : Follows w v) (counted : Counted v p) :
    Counted w.world p := by
  have header : ∀ {a level}, p.Block a level → w.words.header a = v.heap.header a :=
    fun block => follows.agrees.header (counted.valid.placed block)
  have shown : Represents 0
      (w.world.heap.setManager fun manager => { manager with status := .ok }) p := by
    apply counted.shown.congr follows.agrees.memoryManager
    · exact congrArg (fun manager : MemoryManager => { manager with status := .ok })
        follows.agrees.manager
    · exact header
  refine ⟨counted.valid, shown, ?_, ?_, ?_⟩
  · exact (congrArg MemoryManager.usedMemory follows.agrees.manager).trans counted.used
  · intro address member
    apply counted.live
    rw [← follows.live]
    exact member
  · intro ok
    have tracks := counted.tracks (by
      rw [← follows.agrees.manager]
      exact ok)
    refine ⟨tracks.valid, tracks.settled, ?_, ?_, ?_, ?_⟩
    · exact tracks.shown.congr follows.agrees.memoryManager follows.agrees.manager header
    · exact (congrArg MemoryManager.usedMemory follows.agrees.manager).trans tracks.used
    · intro address
      have listed : address ∈ v.live ↔
          ∃ a level, (a, level) ∈ p.allocated ∧ address = a + headerSize := tracks.live
      rwa [← follows.live] at listed
    · have unique := tracks.liveNodup
      rwa [← follows.live] at unique

theorem Stores.counted (stores : w.Stores words) (counted : Counted w.world p) :
    Counted { w with words }.world p := by
  obtain ⟨memoryManager, manager, header⟩ := stores.kept
  -- Only the headers of blocks count.
  have writes : Writes w.world { words.records with
      header := fun b => if 32 ∣ b then words.header b else w.words.header b } := by
    refine ⟨memoryManager, manager, fun {b} outside => ?_⟩
    by_cases here : 32 ∣ b
    · exact (if_pos here).trans (header here outside)
    · exact if_neg here
  refine Follows.counted ⟨⟨rfl, rfl, fun {b} here => ?_⟩, rfl, rfl⟩ (counted.writes writes)
  exact (if_pos here.dvd).symm

/-- Every request of the runs is served as on the headers. -/
theorem serve_follows (counted : Counted w.world p) (sized : request.Sized w.world) :
    Follows (w.serve request) (w.world.serve request) := by
  by_cases ok : w.words.manager.status = .ok
  · have tracks := counted.tracks ok
    cases request with
    | alloc n =>
      have found : Matches (Words.allocMemory n w.words) (allocMemory n w.words.records) := by
        rcases sized.2 with large | none
        · exact Words.agrees_records.allocMemory tracks.shown tracks.valid large
        · by_cases listed : requestLevel n < blockLists
          · rw [Words.allocMemory_of_noBlock none listed]
            rcases allocMemory_cases tracks.ready listed with ⟨_, nothing⟩ | ⟨_, _, _, some, _⟩
            · have same : allocMemory n w.words.records = (0, w.words.records) := nothing
              rw [same]
              exact ⟨rfl, Words.agrees_records⟩
            · exact absurd none some
          · exact Words.agrees_records.allocMemory tracks.shown tracks.valid (by
              unfold blockLists maxLevel at listed
              omega)
      obtain ⟨address, agrees⟩ := found
      refine ⟨agrees, congrArg (· :: w.returned) address, ?_⟩
      change (if (Words.allocMemory n w.words).1 = 0 then w.live
        else (Words.allocMemory n w.words).1 :: w.live) = _
      rw [address]
      rfl
    | free address =>
      refine ⟨?_, rfl, rfl⟩
      rcases sized with ⟨live, honest⟩ | ⟨_, state⟩
      · obtain ⟨a, level, allocated, rfl⟩ := tracks.live.mp live
        exact Words.agrees_records.freeMemory honest_trusts tracks.shown tracks.valid allocated
          fun same => honestAt_release ((tracks.honest_iff allocated).mp honest) same
      · have idle : Words.freeMemory address w.words = w.words := by
          unfold Words.freeMemory
          split
          · rfl
          · exact if_pos state
        change Agrees (Words.freeMemory address w.words) (freeMemory address w.words.records)
        have free : freeMemory address w.words.records = w.words.records := free_unallocated state
        rw [idle, free]
        exact Words.agrees_records
  · have failed : w.world.heap.manager.status ≠ .ok := ok
    cases request with
    | alloc n =>
      have idle : Words.allocMemory n w.words = (0, w.words) := by
        unfold Words.allocMemory
        exact if_pos (.inr ok)
      have same : allocMemory n w.world.heap = (0, w.world.heap) := alloc_failed failed
      simp only [serve, World.serve, idle, same]
      exact ⟨Words.agrees_records, rfl, rfl⟩
    | free address =>
      have idle : Words.freeMemory address w.words = w.words := by
        unfold Words.freeMemory
        exact if_pos (.inr (.inr ok))
      have same : freeMemory address w.world.heap = w.world.heap := free_failed failed
      simp only [serve, World.serve, idle, same]
      exact ⟨Words.agrees_records, rfl, rfl⟩

/-- Clients write into what they own; then one of them makes a request: of any size, but not one
that is served from a block smaller than its own header. -/
def SizedStep (w : WordWorld) (request : Request) (w' : WordWorld) : Prop :=
  ∃ words, w.Stores words ∧ request.Sized { w with words }.world ∧
    w' = { w with words }.serve request

theorem SizedStep.counted (step : SizedStep w request w') (counted : Counted w.world p) :
    ∃ q, Counted w'.world q := by
  obtain ⟨words, stores, sized, rfl⟩ := step
  have written := stores.counted counted
  obtain ⟨q, after⟩ := Buddy.SizedStep.counted ⟨_, Writes.refl, sized, rfl⟩ written
  exact ⟨q, (serve_follows written sized).counted after⟩

/-- The words as `createMemoryManager` leaves them, but for the root block. -/
def unrooted (start : Words) : Words where
  memoryManager := memoryManagerAddress
  manager :=
    { memoryForMemoryManager := memoryManagerAddress
      managedMemory := heapStartAddress
      memorySize := heapSize
      usedMemory := 0
      status := .ok
      blocks := fun i => if 1 ≤ i ∧ i < blockLists then 0 else start.manager.blocks i }
  memory := start.memory

theorem boot_follows : Follows (boot start) (World.boot start.records) where
  agrees := by
    have aligned : ¬ (heapStartAddress % minBlockSize ≠ 0) := by decide
    have words : Words.createMemoryManager start =
        (Words.initMemoryBlock heapStartAddress (log2 (shiftOne (log2 heapSize)) % 256)
          (unrooted start)).setList (log2 (shiftOne (log2 heapSize)) % 256) heapStartAddress :=
      if_neg aligned
    have headers : createMemoryManager start.records =
        (initMemoryBlock heapStartAddress (log2 (shiftOne (log2 heapSize)) % 256)
          (unrooted start).records).setList (log2 (shiftOne (log2 heapSize)) % 256)
            heapStartAddress :=
      if_neg aligned
    have here : HeaderAligned heapStartAddress := ⟨by decide, by decide⟩
    unfold boot World.boot
    dsimp only
    rw [words, headers, rootLevel_eq]
    exact (Words.agrees_records.initMemoryBlock here (by decide)).setList
  returned := rfl
  live := rfl

theorem counted_of_run (run : Run SizedStep (boot start) requests w) :
    ∃ p, Counted w.world p := by
  apply run.preserves (fun w => ∃ p, Counted w.world p)
  · rintro w request w' ⟨p, counted⟩ step
    exact step.counted counted
  · exact ⟨root, boot_follows.counted boot_tracks.counted⟩

end WordWorld

/-! ## Best-level allocation -/

/-- The right half of a free block can hold a header. -/
theorem Partition.WellFormed.half (valid : p.WellFormed) {x k j : Nat} (member : x ∈ p.free k)
    (above : 5 ≤ j) (below : j < k) : HeaderAligned (x + 2 ^ j) where
  dvd := Nat.dvd_add (valid.listed member).dvd (two_pow_dvd above)
  stored := by
    have bounds := valid.bounds (.inl member)
    have smaller : 2 ^ j ≤ 2 ^ k := Nat.pow_le_pow_right (by decide) (Nat.le_of_lt below)
    rw [regionEnd_eq] at bounds
    unfold heapStartAddress at bounds
    omega

/-- What is promised of a request depends on the words at blocks only. -/
theorem BestLevel.follows {found : Nat × Words} {result : Nat × Heap} {lists : Nat → List Nat}
    (best : BestLevel heap result level lists) (same : Matches found result) (large : 5 ≤ level)
    (aligned : ∀ {x k}, x ∈ lists k → HeaderAligned x)
    (half : ∀ {x k j}, x ∈ lists k → 5 ≤ j → j < k → HeaderAligned (x + 2 ^ j)) :
    BestLevel heap (found.1, found.2.records) level lists where
  linked := best.linked
  granted_iff := by
    rw [same.1]
    exact best.granted_iff
  served := by
    intro i b rest low high head least
    obtain ⟨address, served⟩ := best.served i b rest low high head least
    have agrees := same.2
    have kept : ∀ {k items}, result.2.Lists k items → (∀ x ∈ items, HeaderAligned x) →
        found.2.records.Lists k items := by
      intro k items listed inside
      exact listed.frame found.2.records (congrArg (fun m => m.blocks k) agrees.manager)
        fun x member => agrees.header (inside x member)
    have here : HeaderAligned b := aligned (by rw [head]; exact List.mem_cons_self)
    refine ⟨same.1.trans address, ?_, ?_, ?_, ?_, ?_⟩
    · change (found.2.header b).blockState = _ ∧ (found.2.header b).level = _
      rw [agrees.header here]
      exact served.allocated
    · exact kept served.source fun x member =>
        aligned (by rw [head]; exact List.mem_cons_of_mem b member)
    · intro j above below
      refine kept (served.halves j above below) fun x member => ?_
      rw [List.mem_singleton.mp member]
      exact half (by rw [head]; exact List.mem_cons_self) (by omega) below
    · intro j positive inside apart
      exact kept (served.others j positive inside apart) fun x member => aligned member
    · exact (congrArg MemoryManager.usedMemory agrees.manager).trans served.used

namespace WordWorld

variable {w w' : WordWorld} {start : Words} {request : Request} {requests : List Request}

/-- `allocMemory`, with the words it leaves read as headers. -/
def allocated (w : WordWorld) (n : Nat) : Nat × Heap :=
  ((Words.allocMemory n w.words).1, (Words.allocMemory n w.words).2.records)

/-- As `SizedStep`, for requests of every size. -/
def AnyStep (w : WordWorld) (request : Request) (w' : WordWorld) : Prop :=
  ∃ words, w.Stores words ∧ request.Stored { w with words }.world ∧
    w' = { w with words }.serve request

/-- After a request whose size wraps to 8 bytes. -/
def wrapped : WordWorld := (boot Words.blank).serve (.alloc (2 ^ 64 - 24))

end WordWorld

end SoKernel.Buddy
