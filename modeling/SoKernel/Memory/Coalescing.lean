import SoKernel.Memory.ClientWrites

namespace SoKernel.Buddy
open Lib Buddy.Partition

variable {w w' : World} {start : Heap} {p q : Partition} {results : List Nat}
variable {a b d level k i target fuel x n m lo hi c : Nat} {requests : List Request}

/-! ## Splitting and merging over large blocks

The region starts at an odd multiple of 2^21, so the buddy of an address on the
levels 21 and 22 is not the other half of the block that was split. From level
23 up the two agree. -/

/-- The offset of a block in the region is a multiple of `size`. -/
def AtMultiple (size a : Nat) : Prop := ∃ c, a = heapStartAddress + size * c

theorem AtMultiple.weaken (multiple : AtMultiple (2 ^ level) a) (below : k ≤ level) :
    AtMultiple (2 ^ k) a := by
  obtain ⟨c, rfl⟩ := multiple
  refine ⟨2 ^ (level - k) * c, ?_⟩
  rw [← Nat.mul_assoc, ← Nat.pow_add, Nat.add_sub_cancel' below]

theorem AtMultiple.shift (multiple : AtMultiple (2 ^ k) a) (below : k ≤ level) :
    AtMultiple (2 ^ k) (a + 2 ^ level) := by
  obtain ⟨c, rfl⟩ := multiple
  refine ⟨c + 2 ^ (level - k), ?_⟩
  rw [Nat.mul_add, ← Nat.pow_add, Nat.add_sub_cancel' below, Nat.add_assoc]

theorem AtMultiple.unshift (multiple : AtMultiple (2 ^ k) (a + 2 ^ level)) (below : k ≤ level)
    (low : heapStartAddress ≤ a) : AtMultiple (2 ^ k) a := by
  obtain ⟨c, same⟩ := multiple
  have wide : 2 ^ level = 2 ^ k * 2 ^ (level - k) := by
    rw [← Nat.pow_add, Nat.add_sub_cancel' below]
  refine ⟨c - 2 ^ (level - k), ?_⟩
  rw [Nat.mul_sub, ← wide]
  omega

/-- A piece whose ends are multiples of `size` contains every aligned cell it meets. -/
theorem cell_inside {size u v : Nat} (after : size * u ≤ x) (before : x < size * v)
    (low : size * c ≤ x) (high : x < size * (c + 1)) :
    size * u ≤ size * c ∧ size * (c + 1) ≤ size * v := by
  have first : u < c + 1 := Nat.lt_of_mul_lt_mul_left (Nat.lt_of_le_of_lt after high)
  have second : c < v := Nat.lt_of_mul_lt_mul_left (Nat.lt_of_le_of_lt low before)
  exact ⟨Nat.mul_le_mul_left size (Nat.le_of_lt_succ first), Nat.mul_le_mul_left size second⟩

theorem parent_clear : ¬ HasBit (parent a level) level := by
  have wide := Nat.two_pow_pos level
  unfold parent
  by_cases set : HasBit a level
  · have lower := xor_two_pow_of_set set
    rw [if_neg (by omega), hasBit_xor]
    exact fun clear => clear set
  · have upper := xor_two_pow_of_clear set
    rw [if_pos (by omega)]
    exact set

theorem parent_cases : parent a level = a ∨ parent a level = a ^^^ 2 ^ level := by
  unfold parent
  split
  · exact .inl rfl
  · exact .inr rfl

/-- Both halves lie above the parent's start, the upper one in its middle. -/
theorem parent_halves : (parent a level = a ∧ a ^^^ 2 ^ level = parent a level + 2 ^ level) ∨
    (parent a level = a ^^^ 2 ^ level ∧ a = parent a level + 2 ^ level) := by
  unfold parent
  rcases buddy_halves a level with ⟨less, upper⟩ | ⟨less, lower⟩
  · rw [if_pos less]
    exact .inl ⟨rfl, upper⟩
  · rw [if_neg less]
    exact .inr ⟨rfl, lower⟩

/-! ## What large requests keep -/

/-- Every block is large and lies at a multiple of its own size. -/
def Aligned (p : Partition) : Prop :=
  ∀ a level, p.Block a level → 23 ≤ level ∧ AtMultiple (2 ^ level) a

theorem root_aligned : Aligned root := by
  intro a level block
  obtain ⟨rfl, rfl⟩ := root_block_iff.mp block
  exact ⟨by decide, 0, rfl⟩

theorem splitTo_aligned (aligned : Aligned p) (valid : p.WellFormed)
    (present : (a, i) ∈ p.allocated) (large : 23 ≤ target) : Aligned (splitTo a i target p) := by
  induction i generalizing p with
  | zero => exact aligned
  | succ i ih =>
    simp only [splitTo]
    split
    · exact aligned
    · have member : (a, i) ∈ (p.halve a i).allocated := List.mem_cons_self
      have cut : Aligned (p.halve a i) := by
        intro b k block
        have whole := (aligned _ _ (.inr present)).2
        rcases (halve_block valid present).mp block with ⟨old, _⟩ | ⟨rfl, rfl⟩ | ⟨rfl, rfl⟩
        · exact aligned _ _ old
        · exact ⟨by omega, whole.weaken (Nat.le_succ k)⟩
        · exact ⟨by omega, (whole.weaken (Nat.le_succ k)).shift (Nat.le_refl k)⟩
      exact ih cut (valid.halve present (by omega)) member

theorem Aligned.join (aligned : Aligned p) (valid : p.WellFormed) (free : a ∈ p.free level)
    (buddy : a ^^^ 2 ^ level ∈ p.free level) : Aligned (p.join a (a ^^^ 2 ^ level) level) := by
  intro b k block
  rcases (join_block valid free buddy).mp block with ⟨old, _⟩ | ⟨rfl, rfl⟩
  · exact aligned _ _ old
  · have large := (aligned _ _ (.inl free)).1
    have multiple : AtMultiple (2 ^ level) (parent a level) := by
      rcases @parent_cases a level with same | same
      · rw [same]
        exact (aligned _ _ (.inl free)).2
      · rw [same]
        exact (aligned _ _ (.inl buddy)).2
    obtain ⟨c, same⟩ := multiple
    have clear := @parent_clear a level
    have small : heapStartAddress < 2 ^ level :=
      Nat.lt_of_lt_of_le (by decide) (Nat.pow_le_pow_right (by decide) large)
    have quotient : parent a level / 2 ^ level = c := by
      rw [same, Nat.add_mul_div_left _ _ (Nat.two_pow_pos level), Nat.div_eq_of_lt small,
        Nat.zero_add]
    unfold HasBit at clear
    rw [quotient] at clear
    refine ⟨by omega, c / 2, ?_⟩
    have even : c = 2 * (c / 2) := by omega
    rw [same, Nat.pow_succ, Nat.mul_assoc, ← even]

theorem coalesce_aligned (aligned : Aligned p) (valid : p.WellFormed) (free : a ∈ p.free level) :
    Aligned (coalesce fuel a level p) := by
  induction fuel generalizing a level p with
  | zero => exact aligned
  | succ fuel ih =>
    simp only [coalesce]
    split
    · rename_i buddy
      exact ih (aligned.join valid free buddy) (valid.join free buddy) parent_mem_join
    · exact aligned

theorem Serves.aligned (served : Serves p (.alloc n) results q) (aligned : Aligned p)
    (valid : p.WellFormed) (large : 2 ^ 22 < n + headerSize) : Aligned q := by
  cases served with
  | granted bound found =>
    have fits := Nat.le_trans bound (by decide : 2 ^ 32 ≤ 2 ^ 63)
    have small := (requestLevel_le_iff fits).mpr bound
    have high : 23 ≤ requestLevel n := by
      have low : ¬ requestLevel n ≤ 22 := by
        rw [requestLevel_le_iff fits]
        omega
      omega
    obtain ⟨taken⟩ := take_taken found (by unfold blockLists maxLevel; omega)
    have claimed : Aligned (p.claim taken.i) :=
      fun b k block => aligned b k ((claim_block taken.head).mp block)
    rw [taken.result]
    apply splitTo_aligned claimed (valid.claim taken.head) _ high
    simp [claim, taken.head]
  | refused => exact aligned

theorem dispose_aligned (aligned : Aligned p) (valid : p.WellFormed)
    (present : (a, level) ∈ p.allocated) : Aligned (p.dispose a level) := by
  have released : Aligned (p.release a level) :=
    fun b k block => aligned b k ((release_block valid present).mp block)
  exact coalesce_aligned released (valid.release present) (by simp [Partition.release])

/-- With every block free and no buddies left, each aligned cell lies in one block. -/
theorem cell_in_block (aligned : Aligned p) (valid : p.WellFormed) (settled : p.NoBuddies)
    (empty : p.allocated = []) (large : 23 ≤ k) (inside : 2 ^ k * (c + 1) ≤ 2 ^ 28) :
    ∃ a level, p.Block a level ∧ k ≤ level ∧ a ≤ heapStartAddress + 2 ^ k * c ∧
      heapStartAddress + 2 ^ k * (c + 1) ≤ a + 2 ^ level := by
  -- Any block of level k or more that meets the cell contains it.
  have contains : ∀ {j c x a level}, p.Block a level → j ≤ level → a ≤ x → x < a + 2 ^ level →
      heapStartAddress + 2 ^ j * c ≤ x → x < heapStartAddress + 2 ^ j * (c + 1) →
      a ≤ heapStartAddress + 2 ^ j * c ∧ heapStartAddress + 2 ^ j * (c + 1) ≤ a + 2 ^ level := by
    intro j c x a level block above after before low high
    have multiple := (aligned a level block).2.weaken above
    have later := multiple.shift above
    obtain ⟨u, start⟩ := multiple
    obtain ⟨v, finish⟩ := later
    have cell := @cell_inside (x - heapStartAddress) c (2 ^ j) u v
      (by omega) (by omega) (by omega) (by omega)
    omega
  induction k, large using Nat.le_induction generalizing c with
  | base =>
    have wide : 2 ^ 23 * (c + 1) = 2 ^ 23 * c + 2 ^ 23 := Nat.mul_succ _ _
    obtain ⟨a, size, ⟨level, block, rfl⟩, after, before⟩ :=
      valid.tiles.cover (x := heapStartAddress + 2 ^ 23 * c) (Nat.le_add_right _ _)
        (by rw [regionEnd_eq]; omega)
    have high := (aligned a level block).1
    have cell := contains block high after before (Nat.le_refl _) (by omega)
    exact ⟨a, level, block, high, cell⟩
  | succ k large ih =>
    have left : 2 ^ (k + 1) * c = 2 ^ k * (2 * c) := by rw [Nat.pow_succ, Nat.mul_assoc]
    have right : 2 ^ (k + 1) * (c + 1) = 2 ^ k * (2 * c + 1 + 1) := by
      rw [Nat.pow_succ, Nat.mul_assoc]
      rfl
    have one : 2 ^ k * (2 * c + 1) = 2 ^ k * (2 * c) + 2 ^ k := Nat.mul_succ _ _
    have two : 2 ^ k * (2 * c + 1 + 1) = 2 ^ k * (2 * c + 1) + 2 ^ k := Nat.mul_succ _ _
    have wide := Nat.two_pow_pos k
    obtain ⟨a, level, block, above, first, second⟩ := ih (c := 2 * c) (by omega)
    obtain ⟨b, other, partner, atLeast, third, fourth⟩ := ih (c := 2 * c + 1) (by omega)
    by_cases bigger : k + 1 ≤ level
    · have cell := contains block bigger (x := heapStartAddress + 2 ^ k * (2 * c)) (c := c) first
        (by omega) (by omega) (by omega)
      exact ⟨a, level, block, bigger, cell⟩
    · by_cases larger : k + 1 ≤ other
      · have cell := contains partner larger (x := heapStartAddress + 2 ^ k * (2 * c + 1)) (c := c)
          third (by omega) (by omega) (by omega)
        exact ⟨b, other, partner, larger, cell⟩
      · exfalso
        have same : level = k := by omega
        have equal : other = k := by omega
        subst same
        subst equal
        have small : heapStartAddress < 2 ^ other :=
          Nat.lt_of_lt_of_le (by decide) (Nat.pow_le_pow_right (by decide) large)
        have start : a = heapStartAddress + 2 ^ other * (2 * c) := by omega
        have clear : ¬ HasBit a other := by
          unfold HasBit
          rw [start, Nat.add_mul_div_left _ _ wide, Nat.div_eq_of_lt small]
          omega
        have buddy := xor_two_pow_of_clear clear
        have adjacent : a ^^^ 2 ^ other = b := by omega
        have free : ∀ {x}, p.Block x other → x ∈ p.free other := by
          intro x found
          rcases found with free | allocated
          · exact free
          · rw [empty] at allocated
            cases allocated
        exact settled other a (free block) (by rw [adjacent]; exact free partner)

/-- Then nothing but the root block is left. -/
theorem eq_root (aligned : Aligned p) (valid : p.WellFormed) (settled : p.NoBuddies)
    (empty : p.allocated = []) : p = root := by
  obtain ⟨a, level, block, high, first, second⟩ :=
    cell_in_block (k := 28) (c := 0) aligned valid settled empty (by decide) (by decide)
  have top := valid.level_le block
  have bounds := valid.bounds block
  have level_eq : level = 28 := by omega
  subst level_eq
  have start : a = heapStartAddress := by omega
  subst start
  have free : heapStartAddress ∈ p.free 28 := by
    rcases block with free | allocated
    · exact free
    · rw [empty] at allocated
      cases allocated
  have only : ∀ {b k}, b ∈ p.free k → b = heapStartAddress ∧ k = 28 := by
    intro b k member
    have other := valid.bounds (.inl member)
    have wide := Nat.two_pow_pos k
    have same := valid.tiles.start_unique ⟨k, .inl member, rfl⟩ ⟨28, .inl free, rfl⟩ other.1
      (by rw [regionEnd_eq] at other; omega)
    subst same
    exact ⟨rfl, valid.level_unique (.inl member) (.inl free)⟩
  have lists : p.free = root.free := by
    funext k
    by_cases top : k = 28
    · subst top
      have list : root.free 28 = [heapStartAddress] := rfl
      rw [list]
      obtain ⟨rest, same⟩ : ∃ rest, p.free 28 = heapStartAddress :: rest := by
        cases items : p.free 28 with
        | nil =>
          rw [items] at free
          cases free
        | cons first rest =>
          have here : first ∈ p.free 28 := by
            rw [items]
            exact List.mem_cons_self
          exact ⟨rest, by rw [(only here).1]⟩
      cases rest with
      | nil => exact same
      | cons second rest =>
        have unique := valid.freeNodup 28
        have here : second ∈ p.free 28 := by
          rw [same]
          simp
        rw [same, (only here).1] at unique
        simp at unique
    · have list : root.free k = [] := by simp [root, top]
      rw [list]
      apply List.eq_nil_iff_forall_not_mem.mpr
      intro b member
      exact top (only member).2
  obtain ⟨free, allocated⟩ := p
  simp only at lists empty
  rw [lists, empty]
  rfl

/-! ## What a small request breaks for good -/

/-- `x` lies in a large block at a multiple of 2^23. -/
def Chunked (p : Partition) (x : Nat) : Prop :=
  ∃ a level, p.Block a level ∧ 23 ≤ level ∧ AtMultiple (2 ^ 23) a ∧ a ≤ x ∧ x < a + 2 ^ level

theorem splitTo_chunked (valid : p.WellFormed) (present : (a, i) ∈ p.allocated)
    (large : 5 ≤ target) (chunked : Chunked (splitTo a i target p) x) : Chunked p x := by
  induction i generalizing p with
  | zero => exact chunked
  | succ i ih =>
    simp only [splitTo] at chunked
    split at chunked
    · exact chunked
    · have member : (a, i) ∈ (p.halve a i).allocated := List.mem_cons_self
      obtain ⟨b, k, block, high, multiple, after, before⟩ :=
        ih (valid.halve present (by omega)) member chunked
      have bounds := valid.bounds (.inr present)
      have whole : 2 ^ (i + 1) = 2 ^ i + 2 ^ i := by rw [Nat.pow_succ]; omega
      rcases (halve_block valid present).mp block with ⟨old, _⟩ | ⟨rfl, rfl⟩ | ⟨rfl, rfl⟩
      · exact ⟨b, k, old, high, multiple, after, before⟩
      · exact ⟨b, k + 1, .inr present, by omega, multiple, after, by omega⟩
      · exact ⟨a, k + 1, .inr present, by omega, multiple.unshift high bounds.1, by omega, by omega⟩

/-- Merging makes no new large block at a multiple of 2^23. -/
theorem join_chunked (valid : p.WellFormed) (free : a ∈ p.free level)
    (buddy : a ^^^ 2 ^ level ∈ p.free level)
    (chunked : Chunked (p.join a (a ^^^ 2 ^ level) level) x) : Chunked p x := by
  obtain ⟨b, k, block, high, multiple, after, before⟩ := chunked
  rcases (join_block valid free buddy).mp block with ⟨old, _⟩ | ⟨rfl, rfl⟩
  · exact ⟨b, k, old, high, multiple, after, before⟩
  · have clear := @parent_clear a level
    have notLow : level ≠ 22 := by
      rintro rfl
      obtain ⟨c, start⟩ := multiple
      unfold HasBit at clear
      unfold heapStartAddress at start
      omega
    have large : 23 ≤ level := by omega
    have whole : 2 ^ (level + 1) = 2 ^ level + 2 ^ level := by rw [Nat.pow_succ]; omega
    have halves : p.Block (parent a level) level ∧ p.Block (parent a level + 2 ^ level) level := by
      rcases @parent_halves a level with ⟨lower, upper⟩ | ⟨lower, upper⟩
      · rw [← upper, lower]
        exact ⟨.inl free, .inl buddy⟩
      · rw [← upper, lower]
        exact ⟨.inl buddy, .inl free⟩
    by_cases half : x < parent a level + 2 ^ level
    · exact ⟨_, level, halves.1, large, multiple, after, half⟩
    · exact ⟨_, level, halves.2, large, multiple.shift large, by omega, by omega⟩

theorem coalesce_chunked (valid : p.WellFormed) (free : a ∈ p.free level)
    (chunked : Chunked (coalesce fuel a level p) x) : Chunked p x := by
  induction fuel generalizing a level p with
  | zero => exact chunked
  | succ fuel ih =>
    simp only [coalesce] at chunked
    split at chunked
    · rename_i buddy
      exact join_chunked valid free buddy (ih (valid.join free buddy) parent_mem_join chunked)
    · exact chunked

theorem Serves.chunked {request : Request} (served : Serves p request results q)
    (valid : p.WellFormed) (chunked : Chunked q x) : Chunked p x := by
  cases served with
  | granted bound found =>
    have large := requestLevel_large (Nat.le_trans bound (by decide))
    have small := (requestLevel_le_iff (Nat.le_trans bound (by decide))).mpr bound
    obtain ⟨taken⟩ := take_taken found (by unfold blockLists maxLevel; omega)
    rw [taken.result] at chunked
    obtain ⟨a, level, block, rest⟩ := splitTo_chunked (valid.claim taken.head)
      (by simp [claim, taken.head]) large chunked
    exact ⟨a, level, (claim_block taken.head).mp block, rest⟩
  | refused => exact chunked
  | freed present =>
    obtain ⟨a, level, block, rest⟩ := coalesce_chunked (valid.release present)
      (by simp [Partition.release]) chunked
    exact ⟨a, level, (release_block valid present).mp block, rest⟩

/-- Part of the region is lost to large blocks. -/
def Shattered (p : Partition) : Prop :=
  ∃ x, heapStartAddress ≤ x ∧ x < regionEnd ∧ ¬ Chunked p x

theorem Serves.shattered (served : Serves p (.alloc n) results q) (granted : results ≠ [0])
    (valid : p.WellFormed) (small : n + headerSize ≤ 2 ^ 22) : Shattered q := by
  cases served with
  | granted bound found =>
    rename_i a
    have fits := Nat.le_trans bound (by decide : 2 ^ 32 ≤ 2 ^ 63)
    have large := requestLevel_large fits
    have low := (requestLevel_le_iff fits).mpr small
    obtain ⟨taken⟩ := take_taken found (by unfold blockLists maxLevel; omega)
    have after := taken.wellFormed valid large
    have block : q.Block a (requestLevel n) := by
      right
      rw [taken.allocated valid large]
      exact List.mem_cons_self
    have bounds := after.bounds block
    have wide := Nat.two_pow_pos (requestLevel n)
    refine ⟨a, bounds.1, by omega, ?_⟩
    rintro ⟨b, k, other, high, _, start, inside⟩
    have same := after.tiles.start_unique ⟨_, block, rfl⟩ ⟨k, other, rfl⟩ start inside
    subst same
    have level := after.level_unique block other
    omega
  | refused => exact absurd rfl granted

/-! ## Runs -/

theorem Serves.valid {request : Request} (served : Serves p request results q)
    (valid : p.WellFormed) (settled : p.NoBuddies) : q.WellFormed ∧ q.NoBuddies := by
  cases served with
  | granted bound found =>
    have large := requestLevel_large (Nat.le_trans bound (by decide))
    have small := (requestLevel_le_iff (Nat.le_trans bound (by decide))).mpr bound
    obtain ⟨taken⟩ := take_taken found (by unfold blockLists maxLevel; omega)
    exact ⟨taken.wellFormed valid large, settled.take taken valid large⟩
  | refused => exact ⟨valid, settled⟩
  | freed present =>
    obtain ⟨after, none, _⟩ := dispose_spec valid settled present
    exact ⟨after, none⟩

/-- A request that the partition grants, or a free. -/
def Granted (p : Partition) (request : Request) (q : Partition) : Prop :=
  ∃ results, Serves p request results q ∧ results ≠ [0]

theorem aligned_of_large (run : Run Granted p requests q) (valid : p.WellFormed)
    (settled : p.NoBuddies) (aligned : Aligned p)
    (large : ∀ n, .alloc n ∈ requests → 2 ^ 22 < n + headerSize) :
    q.WellFormed ∧ q.NoBuddies ∧ Aligned q := by
  induction run with
  | nil => exact ⟨valid, settled, aligned⟩
  | cons one _ ih =>
    rename_i p request q requests last _
    obtain ⟨results, served, _⟩ := one
    obtain ⟨after, none⟩ := served.valid valid settled
    have kept : Aligned q := by
      cases request with
      | alloc n => exact served.aligned aligned valid (large n List.mem_cons_self)
      | free address =>
        cases served with
        | freed present => exact dispose_aligned aligned valid present
    exact ih after none kept fun n member => large n (List.mem_cons_of_mem _ member)

theorem shattered_of_small (run : Run Granted p requests q) (valid : p.WellFormed)
    (settled : p.NoBuddies)
    (small : Shattered p ∨ ∃ n, .alloc n ∈ requests ∧ n + headerSize ≤ 2 ^ 22) : Shattered q := by
  induction run with
  | nil =>
    rcases small with before | ⟨n, member, _⟩
    · exact before
    · cases member
  | cons one _ ih =>
    rename_i p request q requests last _
    obtain ⟨results, served, granted⟩ := one
    obtain ⟨after, none⟩ := served.valid valid settled
    apply ih after none
    rcases small with ⟨x, low, high, absent⟩ | ⟨n, member, bound⟩
    · exact .inl ⟨x, low, high, fun chunked => absent (served.chunked valid chunked)⟩
    · rcases List.mem_cons.mp member with rfl | later
      · exact .inl (served.shattered granted valid bound)
      · exact .inr ⟨n, later, bound⟩

/-- The request fits the root block and is granted. -/
def Request.Succeeds (w' : World) : Request → Prop
  | .alloc memoryToAllocate =>
    memoryToAllocate + headerSize ≤ 2 ^ 28 ∧ w'.returned.head? ≠ some 0
  | .free _ => True

def SuccessfulStep (w : World) (request : Request) (w' : World) : Prop :=
  ClientStep Honest w request w' ∧ request.Succeeds w'

/-- The free lists and the counter are those of the fresh heap, and the largest
request that the fresh heap could serve is served. -/
structure Restored (heap : Heap) : Prop where
  lists : ∀ level, 1 ≤ level → level < blockLists →
    heap.Lists level (if level = 28 then [heapStartAddress] else [])
  used : heap.manager.usedMemory = 0
  again : (allocMemory (2 ^ 28 - headerSize) heap).1 = heapStartAddress + headerSize

theorem partition_of_run (run : Run SuccessfulStep (World.boot start) requests w) :
    ∃ p, Run Granted root requests p ∧ Tracks w p := by
  apply run.simulate Tracks
  · intro w request w' p tracks step
    obtain ⟨client, succeeds⟩ := step
    obtain ⟨results, q, served, after, returned, _⟩ := tracks.client_step client
    refine ⟨q, ⟨results, served, ?_⟩, after⟩
    rintro rfl
    cases request with
    | alloc n =>
      apply succeeds.2
      rw [returned]
      rfl
    | free address => cases served
  · exact boot_tracks

theorem Tracks.restored (tracks : Tracks w root) : Restored w.heap where
  lists _ low high := tracks.shown.lists low high
  used := tracks.used
  again := by
    have level : requestLevel (2 ^ 28 - headerSize) = 28 := by decide +kernel
    have granted := allocMemory_refines (n := 2 ^ 28 - headerSize) tracks.shown tracks.valid
      (ordinary_of_bound (by decide))
    have served : ∃ q, take 28 root = some (heapStartAddress, q) := ⟨_, rfl⟩
    obtain ⟨q, found⟩ := served
    rw [level, found] at granted
    exact granted.1

/-- Once everything is freed, the heap is as fresh exactly if every request was
for more than half of a block of level 23. -/
theorem restored_iff (run : Run SuccessfulStep (World.boot start) requests w)
    (done : w.live = []) :
    Restored w.heap ↔ ∀ n, .alloc n ∈ requests → 2 ^ 22 < n + headerSize := by
  obtain ⟨p, granted, tracks⟩ := partition_of_run run
  have empty : p.allocated = [] := by
    apply List.eq_nil_iff_forall_not_mem.mpr
    rintro ⟨a, level⟩ member
    have live := tracks.live.mpr ⟨a, level, member, rfl⟩
    rw [done] at live
    cases live
  constructor
  · intro restored
    by_contra small
    simp only [not_forall] at small
    obtain ⟨n, member, bound⟩ := small
    obtain ⟨x, low, high, absent⟩ := shattered_of_small granted root_wellFormed root_noBuddies
      (.inr ⟨n, member, by omega⟩)
    have lists := restored.lists 28 (by decide) (by decide)
    have same := Linked.unique lists (tracks.shown.lists (by decide : 1 ≤ 28) (by decide))
    have block : p.Block heapStartAddress 28 := by
      left
      rw [← same]
      simp
    rw [regionEnd_eq] at high
    exact absent ⟨heapStartAddress, 28, block, by decide, ⟨0, rfl⟩, low, by omega⟩
  · intro large
    obtain ⟨valid, settled, aligned⟩ :=
      aligned_of_large granted root_wellFormed root_noBuddies root_aligned large
    have same := eq_root aligned valid settled empty
    subst same
    exact tracks.restored

/-! ## Without client writes every header is honest -/

/-- A grown block ends where a block of the partition ends. -/
theorem cascade_end (block : p.Block a level)
    (cascade : Cascade (fun k x => x ∈ p.free k) a level b k) :
    ∃ c j, p.Block c j ∧ c + 2 ^ j = b + 2 ^ k := by
  induction cascade with
  | start => exact ⟨a, level, block, rfl⟩
  | join _ member ih =>
    rename_i b k _
    have whole : 2 ^ (k + 1) = 2 ^ k + 2 ^ k := by rw [Nat.pow_succ]; omega
    rcases @parent_halves b k with ⟨lower, upper⟩ | ⟨lower, upper⟩
    · exact ⟨_, k, .inl member, by omega⟩
    · obtain ⟨c, j, found, same⟩ := ih
      exact ⟨c, j, found, by omega⟩

theorem Undisturbed.honest (undisturbed : Undisturbed w p) (live : a + headerSize ∈ w.live) :
    Honest w.heap (a + headerSize) := by
  obtain ⟨tracks, clean, _⟩ := undisturbed
  obtain ⟨c, level, allocated, same⟩ := tracks.live.mp live
  have equal : a = c := by
    unfold headerSize at same
    omega
  subst equal
  rw [tracks.honest_iff allocated]
  intro b k cascade looks
  exact clean_sound clean tracks.valid tracks.shown (cascade_end (.inr allocated) cascade)
    (cascade_level tracks.valid (.inr allocated) cascade).1 looks

/-- One granted request and the free of its result. -/
theorem alloc_free_run (bound : n + headerSize ≤ 2 ^ 28)
    (granted : (allocMemory n (createMemoryManager zeroHeap)).1 = a + headerSize) :
    Run SuccessfulStep (World.boot zeroHeap) [.alloc n, .free (a + headerSize)]
      (((World.boot zeroHeap).serve (.alloc n)).serve (.free (a + headerSize))) ∧
      (((World.boot zeroHeap).serve (.alloc n)).serve (.free (a + headerSize))).live = [] := by
  have fits : n + headerSize ≤ 2 ^ 32 := Nat.le_trans bound (by decide)
  have served : (World.boot zeroHeap).serve (.alloc n) =
      ⟨(allocMemory n (createMemoryManager zeroHeap)).2, [a + headerSize], [a + headerSize]⟩ := by
    have nonzero : a + headerSize ≠ 0 := by simp [headerSize]
    simp only [World.serve, World.boot, granted, if_neg nonzero]
  have live : a + headerSize ∈ ((World.boot zeroHeap).serve (.alloc n)).live := by
    rw [served]
    exact List.mem_singleton_self _
  have step : AllocatorStep (World.boot zeroHeap) (.alloc n) _ := ⟨fits, rfl⟩
  obtain ⟨p, undisturbed, _⟩ := undisturbed_of_run zeroHeap_zeroed (.single step)
  constructor
  · have succeeds : (Request.alloc n).Succeeds ((World.boot zeroHeap).serve (.alloc n)) := by
      refine ⟨bound, ?_⟩
      rw [served]
      simp [headerSize]
    exact .cons ⟨⟨_, .refl, fits, rfl⟩, succeeds⟩
      (.single ⟨⟨_, .refl, ⟨live, undisturbed.honest live⟩, rfl⟩, trivial⟩)
  · rw [served]
    simp [World.serve]

/-- A block of 8 MiB comes and goes, and the heap is fresh again. -/
theorem restored_after_large : Restored
    (((World.boot zeroHeap).serve (.alloc (2 ^ 22))).serve
      (.free (heapStartAddress + headerSize))).heap := by
  obtain ⟨run, done⟩ := @alloc_free_run heapStartAddress (2 ^ 22) (by decide) (by decide +kernel)
  apply (restored_iff run done).mpr
  intro n member
  simp only [List.mem_cons, Request.alloc.injEq, reduceCtorEq, List.not_mem_nil, or_false] at member
  rw [member]
  decide

/-- After one small block has come and gone the root block is gone for ever. -/
theorem not_restored_after_small : ¬ ∀ start requests w,
    Run SuccessfulStep (World.boot start) requests w → w.live = [] → Restored w.heap := by
  intro claim
  obtain ⟨run, done⟩ := @alloc_free_run heapStartAddress 0 (by decide) (by decide +kernel)
  have restored := claim _ _ _ run done
  have head := Linked.head_eq (restored.lists 28 (by decide) (by decide))
  have gone : (((World.boot zeroHeap).serve (.alloc 0)).serve
      (.free (heapStartAddress + headerSize))).heap.manager.blocks 28 = 0 := by decide +kernel
  rw [gone] at head
  exact absurd head (by decide)

end SoKernel.Buddy
