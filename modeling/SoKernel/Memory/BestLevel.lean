import SoKernel.Memory.AnySize

namespace SoKernel.Buddy
open Lib Buddy.Partition

variable {w : World} {start heap : Heap} {p q : Partition} {requests : List Request}
variable {a b level target i fuel n : Nat}

/-! ## The level a request is served from -/

theorem takeFrom_eq_none (bound : i + fuel = blockLists) : takeFrom target fuel i p = none ↔
    ∀ j, i ≤ j → j < blockLists → p.free j = [] := by
  induction fuel generalizing i with
  | zero =>
    simp only [takeFrom, true_iff]
    intro j low high
    omega
  | succ fuel ih =>
    unfold takeFrom
    cases head : p.free i with
    | nil =>
      simp only [ih (i := i + 1) (by omega)]
      constructor
      · intro above j low high
        rcases Nat.eq_or_lt_of_le low with rfl | more
        · exact head
        · exact above j more high
      · intro all j low high
        exact all j (by omega) high
    | cons first rest =>
      simp only [reduceCtorEq, false_iff]
      intro all
      rw [all i (Nat.le_refl i) (by omega)] at head
      cases head

/-- What a request is to do with the free lists: the block comes from the head of the
least list that can serve it, and each level it is cut through keeps one right half. -/
structure ServedAt (heap heap' : Heap) (lists : Nat → List Nat) (level i b : Nat)
    (rest : List Nat) : Prop where
  allocated : (heap'.header b).blockState = .allocated ∧ (heap'.header b).level = level
  source : heap'.Lists i rest
  halves : ∀ j, level ≤ j → j < i → heap'.Lists j [b + 2 ^ j]
  others : ∀ j, 1 ≤ j → j < blockLists → (j < level ∨ i < j) → heap'.Lists j (lists j)
  used : heap'.manager.usedMemory = heap.manager.usedMemory + 2 ^ level

/-- The result of a request up to 4 GiB, next to the free lists it found. -/
structure BestLevel (heap : Heap) (result : Nat × Heap) (level : Nat) (lists : Nat → List Nat) :
    Prop where
  linked : ∀ j, 1 ≤ j → j < blockLists → heap.Lists j (lists j)
  granted_iff : result.1 ≠ 0 ↔ ∃ j, level ≤ j ∧ j < blockLists ∧ lists j ≠ []
  served : ∀ i b rest, level ≤ i → i < blockLists → lists i = b :: rest →
    (∀ j, level ≤ j → j < i → lists j = []) →
      result.1 = b + headerSize ∧ ServedAt heap result.2 lists level i b rest

theorem Tracks.bestLevel (tracks : Tracks w p) (bound : n + headerSize ≤ 2 ^ 32) :
    BestLevel w.heap (allocMemory n w.heap) (requestLevel n) p.free where
  linked _ low high := tracks.shown.lists low high
  granted_iff := by
    have ordinary := ordinary_of_bound bound
    have levels : requestLevel n + (blockLists - requestLevel n) = blockLists :=
      Nat.add_sub_of_le (Nat.le_of_lt ordinary.2)
    have granted := allocMemory_refines tracks.shown tracks.valid ordinary
    cases outcome : take (requestLevel n) p with
    | none =>
      rw [outcome] at granted
      have nothing : allocMemory n w.heap = (0, w.heap) := granted
      have empty := (takeFrom_eq_none levels).mp outcome
      simp only [nothing, ne_eq, not_true_eq_false, false_iff]
      rintro ⟨j, low, high, present⟩
      exact present (empty j low high)
    | some pair =>
      rw [outcome] at granted
      obtain ⟨taken⟩ := take_taken outcome (Nat.le_of_lt ordinary.2)
      have nonzero : pair.1 + headerSize ≠ 0 := by simp [headerSize]
      rw [granted.1]
      simp only [ne_eq, nonzero, not_false_eq_true, true_iff]
      exact ⟨taken.i, taken.above, taken.bounded, by rw [taken.head]; exact List.cons_ne_nil _ _⟩
  served := by
    intro i b rest low high head least
    have ordinary := ordinary_of_bound bound
    obtain ⟨large, listed⟩ := ordinary_of_bound bound
    have granted := allocMemory_refines tracks.shown tracks.valid ordinary
    cases outcome : take (requestLevel n) p with
    | none =>
      have empty := (takeFrom_eq_none (Nat.add_sub_of_le (Nat.le_of_lt listed))).mp outcome
      rw [empty i low high] at head
      cases head
    | some pair =>
      obtain ⟨a, q⟩ := pair
      rw [outcome] at granted
      obtain ⟨result, shown, used, _⟩ := granted
      obtain ⟨taken⟩ := take_taken outcome (Nat.le_of_lt listed)
      have same : taken.i = i := by
        rcases Nat.lt_trichotomy taken.i i with less | equal | more
        · have none := least taken.i taken.above less
          rw [taken.head] at none
          cases none
        · exact equal
        · have none := taken.least i low more
          rw [head] at none
          cases none
      have start : a :: taken.rest = b :: rest := by rw [← taken.head, same, head]
      obtain ⟨rfl, tail⟩ := List.cons.inj start
      have lists : ∀ {k}, q.free k = if k = i then rest
          else if requestLevel n ≤ k ∧ k < i then [a + 2 ^ k] else p.free k := by
        intro k
        rw [taken.free tracks.valid large, same, tail]
      have allocated := taken.allocated tracks.valid large
      have present : (a, requestLevel n) ∈ q.allocated := by
        rw [allocated]
        exact List.mem_cons_self
      have fields := shown.allocated present
      have valid := taken.wellFormed tracks.valid large
      refine ⟨result, ⟨fields.2.1 (valid.pos (.inr present)), fields.1⟩, ?_, ?_, ?_, ?_⟩
      · have source := shown.lists (by omega : 1 ≤ i) high
        rwa [lists, if_pos rfl] at source
      · intro j above below
        have half := shown.lists (by omega : 1 ≤ j) (by omega)
        rwa [lists, if_neg (by omega), if_pos ⟨above, below⟩] at half
      · intro j positive inside apart
        have other := shown.lists positive inside
        rwa [lists, if_neg (by omega), if_neg (by omega)] at other
      · have counted := used_cons allocated
        have capacity := valid.used_le
        rw [used, tracks.used, u64_of_lt (by omega)]

/-! ## What a granted address can hold -/

/-- The block an address belongs to, as `freeMemory` finds it. -/
def blockOf (address : Nat) : Nat := u64 (address + 2 ^ 64 - headerSize)

/-- If an address is granted, its block holds request and header. -/
def Roomy (heap : Heap) (n : Nat) : Prop :=
  (allocMemory n heap).1 ≠ 0 → n + headerSize ≤
    2 ^ ((allocMemory n heap).2.header (blockOf (allocMemory n heap).1)).level

/-- List 0 is never initialised. What stands there is taken for a block, and either its
payload starts at `NULL` or its bytes claim the room. -/
def Claims (heap : Heap) (n : Nat) : Prop :=
  let address := u64 (heap.manager.blocks 0 + headerSize)
  requestLevel n = 0 ∧ heap.manager.blocks 0 ≠ 0 ∧
    (address = 0 ∨ n + headerSize ≤ 2 ^ (heap.header (blockOf address)).level)

theorem blockOf_payload (inside : b < 2 ^ 64 - headerSize) :
    u64 (b + headerSize) = b + headerSize ∧ blockOf (b + headerSize) = b := by
  unfold headerSize at inside
  constructor
  · exact u64_of_lt (by unfold headerSize; omega)
  · unfold blockOf u64 headerSize
    omega

/-- The head of a list of level 1 or above is a free block of that level. -/
theorem Tracks.head (tracks : Tracks w p) (low : 1 ≤ level) (high : level < blockLists)
    (present : w.heap.manager.blocks level ≠ 0) :
    w.heap.manager.blocks level ∈ p.free level :=
  (tracks.shown.lists low high).head_mem present

theorem Tracks.roomy_iff (tracks : Tracks w p) (stored : n < 2 ^ 64) :
    Roomy w.heap n ↔
      n + headerSize ≤ 2 ^ 63 ∨ NoBlock w.heap (requestLevel n) ∨ Claims w.heap n := by
  have inside : ∀ {j}, 1 ≤ j → j < blockLists → w.heap.manager.blocks j ≠ 0 →
      w.heap.manager.blocks j < 2 ^ 64 - headerSize ∧
        (w.heap.header (w.heap.manager.blocks j)).level = j := by
    intro j low high present
    have free := tracks.head low high present
    have bounds := tracks.valid.bounds (.inl free)
    have wide := Nat.two_pow_pos j
    rw [regionEnd_eq] at bounds
    unfold heapStartAddress at bounds
    refine ⟨?_, (tracks.shown.free free).1⟩
    unfold headerSize
    omega
  by_cases half : n + headerSize ≤ 2 ^ 63
  · simp only [half, true_or, iff_true]
    intro granted
    have large := requestLevel_large half
    have fits := (requestLevel_le_iff half).mp (Nat.le_refl _)
    by_cases listed : requestLevel n < blockLists
    · rcases allocMemory_cases tracks.ready listed with
        ⟨_, nothing⟩ | ⟨j, b, heap', _, found, above, high, rfl, nonzero, kept, cut⟩
      · exact absurd (by rw [nothing]) granted
      · obtain ⟨low, height⟩ := inside (by omega : 1 ≤ j) high nonzero
        rw [found, (blockOf_payload low).1, (blockOf_payload low).2]
        rcases Nat.eq_or_lt_of_le above with same | more
        · rwa [kept same.symm, height, ← same]
        · rwa [(cut more).2]
    · rw [alloc_unlisted tracks.ready (Nat.le_of_not_lt listed)] at granted
      exact absurd rfl granted
  · have small := requestLevel_overflow (by omega) stored
    have listed : requestLevel n < blockLists := by
      unfold blockLists maxLevel
      omega
    have tight : ∀ {k}, k ≤ 32 → ¬ n + headerSize ≤ 2 ^ k := by
      intro k low room
      have narrow : 2 ^ k ≤ 2 ^ 32 := Nat.pow_le_pow_right (by decide) low
      omega
    simp only [half, false_or]
    rcases allocMemory_cases tracks.ready listed with
      ⟨none, nothing⟩ | ⟨j, b, heap', some, found, above, high, rfl, nonzero, kept, cut⟩
    · simp only [none, true_or, iff_true]
      intro granted
      exact absurd (by rw [nothing]) granted
    · simp only [some, false_or]
      unfold Roomy
      rw [found]
      rcases Nat.eq_zero_or_pos j with rfl | low
      · have zero : requestLevel n = 0 := Nat.le_zero.mp above
        unfold Claims
        simp only [zero, ne_eq, nonzero, not_false_eq_true, true_and, kept zero.symm]
        tauto
      · obtain ⟨low, height⟩ := inside low high nonzero
        obtain ⟨payload, block⟩ := blockOf_payload low
        have height : (heap'.header (w.heap.manager.blocks j)).level ≤ 32 := by
          unfold blockLists maxLevel at high
          rcases Nat.eq_or_lt_of_le above with same | more
          · rw [kept same.symm, height]
            omega
          · rw [(cut more).2]
            omega
        have claims : ¬ Claims w.heap n := by
          rintro ⟨zero, present, _⟩
          have empty := (cut (by omega)).1
          rw [zero] at empty
          exact present empty
        simp only [claims, iff_false, payload, block]
        intro room
        exact tight height (room (by simp [headerSize]))

end SoKernel.Buddy
