import SoKernel.Memory.HeaderWords

namespace SoKernel.Buddy
open Lib Buddy.Partition

variable {words words' : Words} {heap heap' : Heap} {p q : Partition}
variable {a b block level target i fuel n address value : Nat}

/-- A block of level 5 or above begins at a multiple of 32: there headers do not overlap. -/
structure HeaderAligned (block : Nat) : Prop where
  dvd : 32 ∣ block
  stored : block < 2 ^ 64

theorem aligned_zero : HeaderAligned 0 := ⟨Nat.dvd_zero 32, by decide⟩

/-! ## Headers after a store -/

namespace Words

/-- Bytes outside a header. -/
theorem header_apart {bytes : Nat} (here : 32 ∣ b) (field : a % 8 + bytes ≤ 8)
    (apart : b + 24 ≤ a ∨ a + bytes ≤ b) :
    (words.store bytes a value).header b = words.header b := by
  have kept : ∀ {width place}, place % 8 + width ≤ 8 → place + width ≤ 24 →
      (words.store bytes a value).load width (b + place) = words.load width (b + place) := by
    intro width place within short
    exact WordMemory.load_store_apart field (by omega) (by omega)
  unfold header
  rw [kept (by decide) (by decide), kept (by decide) (by decide), kept (by decide) (by decide)]
  have level : (words.store bytes a value).load 1 b = words.load 1 b :=
    @kept 1 0 (by decide) (by decide)
  rw [level]

/-- A field of the header at `a` is no part of a header elsewhere. -/
theorem header_store {offset bytes : Nat} (here : HeaderAligned a) (there : HeaderAligned b) (apart : b ≠ a)
    (inside : offset + bytes ≤ 24) (field : offset % 8 + bytes ≤ 8) :
    (words.store bytes (a + offset) value).header b = words.header b := by
  have here := here.dvd
  have there := there.dvd
  exact header_apart there (by omega) (by omega)

/-- Another field of the same header. -/
theorem load_store_field {offset bytes width place : Nat} (here : HeaderAligned a)
    (field : offset % 8 + bytes ≤ 8) (within : place % 8 + width ≤ 8)
    (apart : place + width ≤ offset ∨ offset + bytes ≤ place) :
    (words.store bytes (a + offset) value).load width (a + place) = words.load width (a + place) := by
  have here := here.dvd
  exact WordMemory.load_store_apart (by omega) (by omega) (by omega)

/-- The level stands in the first byte. -/
theorem load_store_level {offset bytes : Nat} (here : HeaderAligned a) (field : offset % 8 + bytes ≤ 8)
    (behind : 1 ≤ offset) :
    (words.store bytes (a + offset) value).load 1 a = words.load 1 a := by
  have here := here.dvd
  exact WordMemory.load_store_apart (by omega) (by omega) (by omega)

theorem load_store_same {offset bytes : Nat} (here : HeaderAligned a) (field : offset % 8 + bytes ≤ 8)
    (fits : value < 256 ^ bytes) :
    (words.store bytes (a + offset) value).load bytes (a + offset) = value := by
  have here := here.dvd
  exact (WordMemory.load_store (by omega)).trans (Nat.mod_eq_of_lt fits)

theorem header_setNext (here : HeaderAligned a) (there : HeaderAligned b) (fits : value < 2 ^ 64) :
    (words.setNext a value).header b =
      if b = a then { words.header a with next := value } else words.header b := by
  by_cases same : b = a
  · subst same
    unfold header setNext
    rw [if_pos rfl, load_store_level here (by decide) (by decide),
      load_store_field here (by decide) (by decide) (by decide),
      load_store_same here (by decide) fits,
      load_store_field here (by decide) (by decide) (by decide)]
  · rw [if_neg same]
    exact header_store here there same (by decide) (by decide)

theorem header_setPrev (here : HeaderAligned a) (there : HeaderAligned b) (fits : value < 2 ^ 64) :
    (words.setPrev a value).header b =
      if b = a then { words.header a with prev := value } else words.header b := by
  by_cases same : b = a
  · subst same
    unfold header setPrev
    rw [if_pos rfl, load_store_level here (by decide) (by decide),
      load_store_field here (by decide) (by decide) (by decide),
      load_store_field here (by decide) (by decide) (by decide),
      load_store_same here (by decide) fits]
  · rw [if_neg same]
    exact header_store here there same (by decide) (by decide)

theorem header_setLevel (here : HeaderAligned a) (there : HeaderAligned b) (byte : level < 256) :
    (words.setLevel a level).header b =
      if b = a then { words.header a with level := level } else words.header b := by
  by_cases same : b = a
  · subst same
    have dvd := here.dvd
    have kept : ∀ {width place}, place % 8 + width ≤ 8 → 1 ≤ place →
        (words.store 1 b level).load width (b + place) = words.load width (b + place) := by
      intro width place within behind
      exact WordMemory.load_store_apart (by omega) (by omega) (by omega)
    have stored : (words.store 1 b level).load 1 b = level :=
      (WordMemory.load_store (by omega)).trans (Nat.mod_eq_of_lt byte)
    unfold header setLevel
    rw [if_pos rfl, stored, kept (by decide) (by decide), kept (by decide) (by decide),
      kept (by decide) (by decide)]
  · rw [if_neg same]
    have first := here.dvd
    have second := there.dvd
    exact header_apart second (by omega) (by omega)

theorem ofCode_code (state : BlockState) : BlockState.ofCode state.code = state := by
  cases state <;> rfl

theorem code_lt (state : BlockState) : state.code < 256 ^ 4 := by
  cases state <;> decide

theorem header_setState (here : HeaderAligned a) (there : HeaderAligned b) (state : BlockState) :
    (words.setState a state).header b =
      if b = a then { words.header a with blockState := state } else words.header b := by
  by_cases same : b = a
  · subst same
    unfold header setState
    rw [if_pos rfl, load_store_level here (by decide) (by decide),
      load_store_same here (by decide) (code_lt state), ofCode_code,
      load_store_field here (by decide) (by decide) (by decide),
      load_store_field here (by decide) (by decide) (by decide)]
  · rw [if_neg same]
    exact header_store here there same (by decide) (by decide)

theorem header_initMemoryBlock (here : HeaderAligned a) (there : HeaderAligned b) (byte : level < 256) :
    (initMemoryBlock a level words).header b =
      if b = a then ⟨level, .free, 0, 0⟩ else words.header b := by
  unfold initMemoryBlock
  rw [header_setPrev here there (by decide), header_setNext here there (by decide),
    header_setNext here here (by decide), header_setState here there, header_setState here here,
    header_setLevel here there byte, header_setLevel here here byte]
  by_cases same : b = a <;> simp [same]

end Words

/-! ## The words and the headers -/

/-- The headers of the heap stand in the words. -/
structure Agrees (words : Words) (heap : Heap) : Prop where
  memoryManager : words.memoryManager = heap.memoryManager
  manager : words.manager = heap.manager
  header : ∀ {block}, HeaderAligned block → words.header block = heap.header block

namespace Agrees

theorem edit (agrees : Agrees words heap) (change : BuddyBlock → BuddyBlock)
    (memoryManager : words'.memoryManager = words.memoryManager)
    (manager : words'.manager = words.manager)
    (header : ∀ {b}, HeaderAligned b → words'.header b =
      if b = a then change (words.header a) else words.header b) :
    Agrees words' (heap.edit a change) where
  memoryManager := memoryManager.trans agrees.memoryManager
  manager := manager.trans agrees.manager
  header := by
    intro b there
    rw [header there, Heap.edit_header]
    by_cases same : b = a
    · subst same
      rw [if_pos rfl, if_pos rfl, agrees.header there]
    · rw [if_neg same, if_neg same, agrees.header there]

theorem setNext (agrees : Agrees words heap) (here : HeaderAligned a) (fits : value < 2 ^ 64) :
    Agrees (words.setNext a value) (heap.setNext a value) :=
  agrees.edit _ rfl rfl fun there => Words.header_setNext here there fits

theorem setPrev (agrees : Agrees words heap) (here : HeaderAligned a) (fits : value < 2 ^ 64) :
    Agrees (words.setPrev a value) (heap.setPrev a value) :=
  agrees.edit _ rfl rfl fun there => Words.header_setPrev here there fits

theorem setState (agrees : Agrees words heap) (here : HeaderAligned a) (state : BlockState) :
    Agrees (words.setState a state) (heap.setState a state) :=
  agrees.edit _ rfl rfl fun there => Words.header_setState here there state

theorem initMemoryBlock (agrees : Agrees words heap) (here : HeaderAligned a) (byte : level < 256) :
    Agrees (Words.initMemoryBlock a level words) (Buddy.initMemoryBlock a level heap) := by
  exact agrees.edit _ rfl rfl fun there => Words.header_initMemoryBlock here there byte

theorem setManager (agrees : Agrees words heap) (change : MemoryManager → MemoryManager) :
    Agrees (words.setManager change) (heap.setManager change) where
  memoryManager := agrees.memoryManager
  manager := congrArg change agrees.manager
  header := agrees.header

theorem setList (agrees : Agrees words heap) :
    Agrees (words.setList level a) (heap.setList level a) := agrees.setManager _

/-! ## The lists -/

theorem link (agrees : Agrees words heap) (here : HeaderAligned a)
    (head : HeaderAligned (heap.manager.blocks level)) :
    Agrees (words.link level a) (heap.link level a) := by
  have linked := agrees.setNext here head.stored
  unfold Words.link Heap.link
  dsimp only
  rw [agrees.manager]
  have same : (words.setNext a (heap.manager.blocks level)).manager.blocks level =
      heap.manager.blocks level := by
    rw [linked.manager]
    rfl
  have kept : (heap.setNext a (heap.manager.blocks level)).manager.blocks level =
      heap.manager.blocks level := rfl
  rw [same, kept]
  split
  · exact (linked.setPrev head here.stored).setList
  · exact linked.setList

theorem takeHead (agrees : Agrees words heap) (here : HeaderAligned a)
    (following : HeaderAligned (heap.header a).next) :
    Agrees (words.takeHead level a) (heap.takeHead level a) := by
  have zero : 0 < 2 ^ 64 := by decide
  have cut : Agrees (words.setList level (heap.header a).next)
      (heap.setList level (heap.header a).next) := agrees.setList
  have same : ((words.setList level (heap.header a).next).header a).next =
      (heap.header a).next := by
    rw [cut.header here]
    rfl
  have kept : ((heap.setList level (heap.header a).next).header a).next =
      (heap.header a).next := rfl
  unfold Words.takeHead Heap.takeHead
  dsimp only
  rw [agrees.header here, same, kept]
  split
  · exact ((cut.setPrev following zero).setNext here zero).setPrev here zero
  · exact (cut.setNext here zero).setPrev here zero

theorem unlink (agrees : Agrees words heap) (here : HeaderAligned a)
    (before : HeaderAligned (heap.header a).prev) (following : HeaderAligned (heap.header a).next)
    (one : (heap.header a).prev ≠ a) : Agrees (words.unlink a) (heap.unlink a) := by
  unfold Words.unlink Heap.unlink
  dsimp only
  rw [agrees.header here]
  split
  · have passed := agrees.setNext before following.stored
    rw [passed.header here]
    have kept : (heap.setNext (heap.header a).prev (heap.header a).next).header a =
        heap.header a := by
      rw [Heap.setNext, Heap.edit_header, if_neg (Ne.symm one)]
    rw [kept]
    split
    · exact passed.setPrev following before.stored
    · exact passed
  · have passed : Agrees (words.setList (heap.header a).level (heap.header a).next)
        (heap.setList (heap.header a).level (heap.header a).next) := agrees.setList
    rw [passed.header here]
    have kept : (heap.setList (heap.header a).level (heap.header a).next).header a =
        heap.header a := rfl
    rw [kept]
    split
    · exact passed.setPrev following before.stored
    · exact passed

end Agrees

/-! ## Listed blocks begin at multiples of 32 -/

theorem Represents.head_aligned (shown : Represents a heap p)
    (aligned : ∀ {x k}, x ∈ p.free k → HeaderAligned x) (low : 1 ≤ level) (high : level < blockLists) :
    HeaderAligned (heap.manager.blocks level) := by
  by_cases empty : heap.manager.blocks level = 0
  · rw [empty]
    exact aligned_zero
  · exact aligned ((shown.lists low high).head_mem empty)

theorem Represents.links_aligned (shown : Represents b heap p) (separate : p.Separate)
    (aligned : ∀ {x k}, x ∈ p.free k → HeaderAligned x) (free : a ∈ p.free level) :
    HeaderAligned (heap.header a).prev ∧ HeaderAligned (heap.header a).next := by
  obtain ⟨front, back, same, before, after⟩ := shown.neighbours separate free
  constructor
  · rcases before with ⟨_, none⟩ | member
    · rw [none]
      exact aligned_zero
    · exact aligned (by rw [same]; exact List.mem_append_left _ member)
  · rcases after with none | member
    · rw [none]
      exact aligned_zero
    · exact aligned (by
        rw [same]
        exact List.mem_append_right front (List.mem_cons_of_mem a member))

theorem Partition.WellFormed.placed (valid : p.WellFormed) (block : p.Block a level) :
    HeaderAligned a where
  dvd := Nat.dvd_of_mod_eq_zero (valid.aligned block)
  stored := by
    have bounds := valid.bounds block
    have wide := Nat.two_pow_pos level
    rw [regionEnd_eq] at bounds
    unfold heapStartAddress at bounds
    omega

theorem Partition.WellFormed.listed (valid : p.WellFormed) (free : a ∈ p.free level) : HeaderAligned a :=
  valid.placed (.inl free)

theorem two_pow_dvd (large : 5 ≤ level) : 32 ∣ 2 ^ level :=
  Nat.pow_dvd_pow 2 large

/-- So is the buddy of a block, below the end of the address space. -/
theorem HeaderAligned.buddy (here : HeaderAligned a) (large : 5 ≤ level)
    (inside : a ^^^ 2 ^ level < 2 ^ 64) : HeaderAligned (a ^^^ 2 ^ level) where
  dvd := by
    have start := here.dvd
    rcases buddy_halves a level with ⟨_, upper⟩ | ⟨_, lower⟩
    · rw [upper]
      exact Nat.dvd_add start (two_pow_dvd large)
    · rw [lower] at start
      exact (Nat.dvd_add_left (two_pow_dvd large)).mp start
  stored := inside

namespace Agrees

/-- The level in the header stays while the block is linked. -/
theorem linkBlock (agrees : Agrees words heap) (here : HeaderAligned a)
    (head : HeaderAligned (heap.manager.blocks (heap.header a).level)) :
    Agrees (words.linkBlock a) (heap.link (heap.header a).level a) := by
  have manager : (words.setNext a (heap.manager.blocks (heap.header a).level)).manager =
      heap.manager := agrees.manager
  have level : ((words.setNext a (heap.manager.blocks (heap.header a).level)).header a).level =
      (heap.header a).level := by
    rw [Words.header_setNext here here head.stored, if_pos rfl, agrees.header here]
  have after : (((words.setNext a (heap.manager.blocks (heap.header a).level)).setPrev
      (heap.manager.blocks (heap.header a).level) a).header a).level = (heap.header a).level := by
    rw [Words.header_setPrev head here here.stored]
    split
    · rename_i same
      exact (congrArg (fun x => ((words.setNext a
        (heap.manager.blocks (heap.header a).level)).header x).level) same.symm).trans level
    · exact level
  have same : words.linkBlock a = words.link (heap.header a).level a := by
    unfold Words.linkBlock Words.link
    dsimp only
    rw [agrees.header here, agrees.manager]
    simp only [level, manager]
    by_cases empty : heap.manager.blocks (heap.header a).level = 0
    · simp only [empty, ne_eq, not_true_eq_false, if_false] at level ⊢
      rw [level]
    · simp only [ne_eq, empty, not_false_eq_true, if_true, after]
  rw [same]
  exact agrees.link here head

end Agrees

/-! ## Requests -/

namespace Words

/-- One round of the loop of `splitBlockToLevel`. -/
def halveBlock (block newLevel : Nat) (words : Words) : Words :=
  let words := words.setState block .split
  let rightChild := u64 (block + shiftOne newLevel)
  (initMemoryBlock rightChild newLevel (initMemoryBlock block newLevel words)).link newLevel
    rightChild

theorem splitBlockToLevel_self : splitBlockToLevel a level level words = (a, words) := by
  cases level <;> simp [splitBlockToLevel]

theorem splitBlockToLevel_halve (above : target < level + 1) :
    splitBlockToLevel a (level + 1) target words =
      splitBlockToLevel a level target (halveBlock a level words) := by
  rw [splitBlockToLevel, if_neg (by omega)]
  by_cases last : level = target
  · rw [← last, splitBlockToLevel_self]
    simp [halveBlock]
  · simp [last, halveBlock]

end Words

/-- The same block, and headers that agree. -/
def Matches (found : Nat × Words) (result : Nat × Heap) : Prop :=
  found.1 = result.1 ∧ Agrees found.2 result.2

namespace Agrees

theorem halveBlock (agrees : Agrees words heap) (shown : Represents a heap p)
    (valid : p.WellFormed) (present : (a, level + 1) ∈ p.allocated) (large : 5 ≤ level) :
    Agrees (Words.halveBlock a level words) (Buddy.halveBlock a level heap) := by
  have block : p.Block a (level + 1) := .inr present
  have top := valid.level_le block
  have bounds := valid.bounds block
  have here := valid.placed block
  have child : u64 (a + shiftOne level) = a + 2 ^ level := by
    rw [shiftOne_of_lt (by omega)]
    apply u64_of_lt
    rw [Nat.pow_succ, regionEnd_eq] at bounds
    unfold heapStartAddress at bounds
    omega
  have right : HeaderAligned (a + 2 ^ level) := by
    refine ⟨Nat.dvd_add here.dvd (two_pow_dvd large), ?_⟩
    rw [Nat.pow_succ, regionEnd_eq] at bounds
    unfold heapStartAddress at bounds
    omega
  have head := shown.head_aligned valid.listed (by omega : 1 ≤ level)
    (by unfold blockLists maxLevel; omega)
  unfold Words.halveBlock Buddy.halveBlock
  simp only [child]
  exact (((agrees.setState here .split).initMemoryBlock here (by omega)).initMemoryBlock right
    (by omega)).link right head

theorem splitBlockToLevel (agrees : Agrees words heap) (shown : Represents a heap p)
    (valid : p.WellFormed) (present : p.allocated = (a, i) :: q.allocated) (large : 5 ≤ target)
    (above : target ≤ i) : Matches (Words.splitBlockToLevel a i target words)
      (Buddy.splitBlockToLevel a i target heap) := by
  induction i generalizing words heap p with
  | zero => omega
  | succ i ih =>
    by_cases done : i + 1 ≤ target
    · have same : target = i + 1 := by omega
      rw [same, Words.splitBlockToLevel_self, Buddy.splitBlockToLevel_self]
      exact ⟨rfl, agrees⟩
    · have member : (a, i + 1) ∈ p.allocated := by rw [present]; exact List.mem_cons_self
      have first : (p.halve a i).allocated = (a, i) :: q.allocated := by
        simp [Partition.halve, present]
      rw [Words.splitBlockToLevel_halve (by omega), Buddy.splitBlockToLevel_halve (by omega)]
      exact ih (agrees.halveBlock shown valid member (by omega))
        (halveBlock_refines shown valid member (by omega)).1 (valid.halve member (by omega)) first
        (by omega)

/-- The head of a list is taken off and cut. -/
theorem takeHead_split (agrees : Agrees words heap) (shown : Represents 0 heap p)
    (valid : p.WellFormed) (head : p.free i = a :: rest) (large : 5 ≤ target)
    (above : target ≤ i) : Matches (Words.splitBlockToLevel a i target (words.takeHead i a))
      (Buddy.splitBlockToLevel a i target (heap.takeHead i a)) := by
  have free : a ∈ p.free i := by rw [head]; exact List.mem_cons_self
  have claimed : (p.claim i).allocated = (a, i) :: p.allocated := by simp [claim, head]
  have links := shown.links_aligned valid.separate valid.listed free
  exact (agrees.takeHead (valid.listed free) links.2).splitBlockToLevel
    (shown.takeHead valid.separate head) (valid.claim head) claimed large above

theorem findInUpperLevels (agrees : Agrees words heap) (shown : Represents 0 heap p)
    (valid : p.WellFormed) (large : 5 ≤ target) (above : target ≤ i)
    (bound : i + fuel = blockLists) : Matches (Words.findInUpperLevels target fuel i words)
      (Buddy.findInUpperLevels target fuel i heap) := by
  induction fuel generalizing i with
  | zero => exact ⟨rfl, agrees⟩
  | succ fuel ih =>
    have listed : i < blockLists := by omega
    have empty := shown.head_eq_zero_iff (by omega : 1 ≤ i) listed
    unfold Words.findInUpperLevels Buddy.findInUpperLevels
    simp only [if_pos listed, agrees.manager]
    cases head : p.free i with
    | nil =>
      simp only [empty.mpr head, ne_eq, not_true_eq_false, if_false]
      exact ih (by omega) (by omega)
    | cons first rest =>
      have list := shown.lists (by omega : 1 ≤ i) listed
      rw [head] at list
      have same : heap.manager.blocks i = first := list.head_eq
      have present : first ≠ 0 := valid.pos (.inl (by rw [head]; exact List.mem_cons_self))
      have found := takeHead_split_refines shown valid head large above
      have result : (Buddy.splitBlockToLevel first i target (heap.takeHead i first)).1 = first :=
        found.1
      obtain ⟨block, cut⟩ := agrees.takeHead_split shown valid head large above
      simp only [same, present, ne_eq, not_false_eq_true, if_true, block, result]
      exact ⟨rfl, cut⟩

theorem findFreeBlock (agrees : Agrees words heap) (shown : Represents 0 heap p)
    (valid : p.WellFormed) (large : 5 ≤ target) (listed : target < blockLists) :
    Matches (Words.findFreeBlock target words) (Buddy.findFreeBlock target heap) := by
  have empty := shown.head_eq_zero_iff (by omega : 1 ≤ target) listed
  unfold Words.findFreeBlock Buddy.findFreeBlock
  dsimp only
  rw [agrees.manager]
  cases head : p.free target with
  | nil =>
    simp only [empty.mpr head, ne_eq, not_true_eq_false, if_false]
    exact agrees.findInUpperLevels shown valid large (by omega) (by omega)
  | cons first rest =>
    have list := shown.lists (by omega : 1 ≤ target) listed
    rw [head] at list
    have same : heap.manager.blocks target = first := list.head_eq
    have free : first ∈ p.free target := by rw [head]; exact List.mem_cons_self
    have links := shown.links_aligned valid.separate valid.listed free
    rw [same, agrees.header (valid.listed free)]
    simp only [ne_eq, valid.pos (.inl free), not_false_eq_true, if_true, (shown.free free).2,
      not_true_eq_false, if_false]
    exact ⟨rfl, agrees.takeHead (valid.listed free) links.2⟩

/-- A request that is served from level 5 or above, or for which there is no list. -/
theorem allocMemory (agrees : Agrees words heap) (shown : Represents 0 heap p)
    (valid : p.WellFormed) (large : 5 ≤ requestLevel n) :
    Matches (Words.allocMemory n words) (Buddy.allocMemory n heap) := by
  have level : memoryToLevel (requestSize n) = requestLevel n := rfl
  have ready : ¬ (heap.memoryManager = 0 ∨ heap.manager.status ≠ .ok) := by
    simp [shown.created, shown.status]
  unfold Words.allocMemory Buddy.allocMemory
  rw [agrees.memoryManager, agrees.manager, if_neg ready, if_neg ready]
  simp only [level]
  by_cases listed : blockLists ≤ requestLevel n
  · rw [if_pos listed, if_pos listed]
    refine ⟨rfl, ?_⟩
    dsimp only
    exact agrees.setManager _
  · rw [if_neg listed, if_neg listed]
    have found := findFreeBlock_refines shown valid large (Nat.lt_of_not_le listed)
    obtain ⟨block, same⟩ := agrees.findFreeBlock shown valid large (Nat.lt_of_not_le listed)
    rw [block]
    by_cases none : (Buddy.findFreeBlock (requestLevel n) heap).1 = 0
    · rw [if_pos none, if_pos none]
      exact ⟨rfl, same⟩
    · rw [if_neg none, if_neg none]
      have here : HeaderAligned (Buddy.findFreeBlock (requestLevel n) heap).1 := by
        cases outcome : take (requestLevel n) p with
        | none =>
          rw [outcome] at found
          have nothing : Buddy.findFreeBlock (requestLevel n) heap = (0, heap) := found
          exact absurd (by rw [nothing]) none
        | some pair =>
          obtain ⟨a, q⟩ := pair
          rw [outcome] at found
          obtain ⟨taken⟩ := take_taken outcome (by omega)
          rw [found.1]
          exact (taken.wellFormed valid large).placed (.inr (by
            rw [taken.allocated valid large]
            exact List.mem_cons_self))
      refine ⟨rfl, ?_⟩
      dsimp only
      exact (same.setState here .allocated).setManager _

/-! ## Frees -/

theorem getBuddy (agrees : Agrees words heap) (here : HeaderAligned a) :
    Words.getBuddy a words = Buddy.getBuddy a heap := by
  unfold Words.getBuddy Buddy.getBuddy
  rw [agrees.header here, agrees.manager]

end Agrees

/-- What `mergeBlocks` writes when the buddy is free. -/
def Words.mergePair (block buddy : Nat) (words : Words) : Words :=
  let words := (words.unlink buddy).unlink block
  let parent := if block < buddy then block else buddy
  (Words.initMemoryBlock parent ((words.header block).level + 1) words).linkBlock parent

theorem Words.mergeBlocks_succ : Words.mergeBlocks (fuel + 1) a words =
    if a = 0 ∨ blockLists ≤ (words.header a).level ∨ (words.header a).blockState ≠ .free
    then words
    else if getBuddy a words ≠ 0 ∧ (words.header (getBuddy a words)).blockState = .free ∧
        (words.header (getBuddy a words)).level = (words.header a).level then
      Words.mergeBlocks fuel (if a < getBuddy a words then a else getBuddy a words)
        (mergePair a (getBuddy a words) words)
    else words := rfl

namespace Agrees

theorem mergePair (agrees : Agrees words heap) (shown : Represents 0 heap p)
    (valid : p.WellFormed) (free : a ∈ p.free level) (other : a ^^^ 2 ^ level ∈ p.free level) :
    Agrees (Words.mergePair a (a ^^^ 2 ^ level) words)
      (Buddy.mergePair a (a ^^^ 2 ^ level) heap) := by
  have top := valid.level_le (.inl free)
  have large := valid.large (.inl free)
  have here := valid.listed free
  have there := valid.listed other
  have links := shown.links_aligned valid.separate valid.listed other
  have first := shown.unlink valid.separate other
  have cut : (p.remove level (a ^^^ 2 ^ level)).Separate := valid.separate.remove
  have still : a ∈ (p.remove level (a ^^^ 2 ^ level)).free level :=
    (valid.separate.mem_remove).mpr ⟨free, fun _ => (xor_two_pow_ne a level).symm⟩
  have once : ∀ {x k}, x ∈ (p.remove level (a ^^^ 2 ^ level)).free k → HeaderAligned x :=
    fun member => valid.listed (valid.separate.mem_remove.mp member).1
  have links' := first.links_aligned cut once still
  have unlinked := (agrees.unlink there links.1 links.2
    (shown.links_ne valid.separate other).1).unlink here links'.1 links'.2
      (first.links_ne cut still).1
  have second := first.unlink cut still
  have twice : ∀ {x k}, x ∈ ((p.remove level (a ^^^ 2 ^ level)).remove level a).free k → HeaderAligned x :=
    fun member => once (cut.mem_remove.mp member).1
  have lifted : SameFields heap ((heap.unlink (a ^^^ 2 ^ level)).unlink a) a :=
    unlink_fields.trans unlink_fields
  have height : (((heap.unlink (a ^^^ 2 ^ level)).unlink a).header a).level = level :=
    lifted.1.trans (shown.free free).1
  have start : HeaderAligned (if a < a ^^^ 2 ^ level then a else a ^^^ 2 ^ level) := by
    split
    · exact here
    · exact there
  unfold Words.mergePair Buddy.mergePair
  dsimp only
  rw [unlinked.header here, height]
  apply (unlinked.initMemoryBlock start (by omega)).linkBlock start
  rw [initMemoryBlock_header, if_pos rfl]
  have listed : level + 1 < blockLists := by
    unfold blockLists maxLevel
    omega
  exact second.head_aligned twice (Nat.succ_pos level) listed

/-- The merges agree as long as the inspected headers can be trusted. -/
theorem mergeBlocks {T : Heap → Partition → Nat → Nat → Prop} (fuel : Nat) (trusts : Trusts T)
    (agrees : Agrees words heap) (trusted : T heap p a level) (valid : p.WellFormed)
    (shown : Represents 0 heap p) (free : a ∈ p.free level) :
    Agrees (Words.mergeBlocks fuel a words) (Buddy.mergeBlocks fuel a heap) := by
  induction fuel generalizing words heap p a level with
  | zero => exact agrees
  | succ fuel ih =>
    have here := valid.listed free
    have large := valid.large (.inl free)
    have buddy := getBuddy_of_free shown valid free
    have there : HeaderAligned (Buddy.getBuddy a heap) := by
      rw [buddy]
      split
      · exact aligned_zero
      · rename_i inside
        refine here.buddy large ?_
        have finish : heapStartAddress + heapSize ≤ 2 ^ 64 := by decide
        omega
    rw [Words.mergeBlocks_succ, Buddy.mergeBlocks_succ, agrees.getBuddy here, agrees.header here,
      agrees.header there]
    split
    · exact agrees
    · split
      · rename_i going
        -- The buddy is what its header says.
        have same : Buddy.getBuddy a heap = a ^^^ 2 ^ level := by
          rw [buddy] at going ⊢
          split
          · rename_i beyond
            rw [if_pos beyond] at going
            exact absurd rfl going.1
          · rfl
        have looks : LooksFree heap (a ^^^ 2 ^ level) level := by
          rw [same] at going
          refine ⟨?_, going.2.1, going.2.2.trans (shown.free free).1⟩
          rw [buddy] at same
          have present := going.1
          unfold Managed
          by_contra away
          rw [if_pos (by omega)] at same
          exact present same.symm
        have other := trusts.sound trusted valid shown free looks
        rw [same]
        exact ih (agrees.mergePair shown valid free other)
          (trusts.join trusted valid shown free other mergePair_fields)
          (valid.join free other) (shown.merge valid free other) parent_mem_join
      · exact agrees

theorem freeMemory {T : Heap → Partition → Nat → Nat → Prop} (trusts : Trusts T)
    (agrees : Agrees words heap) (shown : Represents 0 heap p) (valid : p.WellFormed)
    (present : (a, level) ∈ p.allocated)
    (trusted : ∀ {heap'}, (∀ {x}, x ≠ a → SameFields heap heap' x) →
      T heap' (p.release a level) a level) :
    Agrees (Words.freeMemory (a + headerSize) words)
      (Buddy.freeMemory (a + headerSize) heap) := by
  have block : p.Block a level := .inr present
  have here := valid.placed block
  have bounds := valid.bounds block
  have large := valid.large block
  have top := valid.level_le block
  have wide := Nat.two_pow_pos level
  have fields := shown.allocated present
  have state := fields.2.1 (valid.pos block)
  have address : u64 (a + headerSize + 2 ^ 64 - headerSize) = a := by
    unfold u64 headerSize
    rw [regionEnd_eq] at bounds
    unfold heapStartAddress at bounds
    omega
  have ready : ¬ (a + headerSize = 0 ∨ heap.memoryManager = 0 ∨ heap.manager.status ≠ .ok) := by
    simp [shown.created, shown.status, headerSize]
  have head : HeaderAligned ((heap.setState a .free).manager.blocks
      ((heap.setState a .free).header a).level) := by
    have height : ((heap.setState a .free).header a).level = level := by
      rw [Heap.setState, Heap.edit_header, if_pos rfl]
      exact fields.1
    rw [height]
    exact shown.head_aligned valid.listed (by omega : 1 ≤ level)
      (by unfold blockLists maxLevel; omega)
  have given : Agrees ((words.setState a .free).linkBlock a) (giveBack a heap) :=
    (agrees.setState here .free).linkBlock here head
  rw [freeMemory_live state ready address]
  unfold Words.freeMemory
  dsimp only
  rw [agrees.memoryManager, agrees.manager, if_neg ready, address, agrees.header here,
    if_neg (fun other => other state), given.header here]
  have listed : a ∈ (p.release a level).free level := by simp [Partition.release]
  exact mergeBlocks (blockLists + 1) trusts (given.setManager _)
    (trusted fun different => (giveBack_fields different).trans (setManager_fields _))
    (valid.release present) ((shown.release valid present).1.setUsed _) listed

end Agrees

end SoKernel.Buddy
