import SoKernel.Memory.Partition

namespace SoKernel.Buddy.Partition
open Lib

variable {p q : Partition} {a b level other target fuel i k : Nat} {rest : List Nat}

/-! ## Splitting -/

theorem halve_block (valid : p.WellFormed) (present : (a, level + 1) ∈ p.allocated) :
    (p.halve a level).Block b other ↔
      (p.Block b other ∧ b ≠ a) ∨ (b = a ∧ other = level) ∨ (b = a + 2 ^ level ∧ other = level) := by
  have notFree : ∀ k, a ∉ p.free k := fun k free => valid.apart free present
  simp only [halve, Block, List.mem_cons, Prod.mk.injEq, valid.erase_allocated present]
  by_cases same : other = level
  · subst same
    simp only [Function.update_self, List.mem_cons, and_true]
    constructor
    · rintro ((rfl | free) | (rfl | ⟨allocated, different⟩))
      · exact .inr (.inr rfl)
      · exact .inl ⟨.inl free, by rintro rfl; exact notFree other free⟩
      · exact .inr (.inl rfl)
      · exact .inl ⟨.inr allocated, different⟩
    · rintro (⟨free | allocated, different⟩ | rfl | rfl)
      · exact .inl (.inr free)
      · exact .inr (.inr ⟨allocated, different⟩)
      · exact .inr (.inl rfl)
      · exact .inl (.inl rfl)
  · simp only [Function.update_of_ne same, same, and_false, false_or, or_false]
    constructor
    · rintro (free | ⟨allocated, different⟩)
      · exact ⟨.inl free, by rintro rfl; exact notFree other free⟩
      · exact ⟨.inr allocated, different⟩
    · rintro ⟨free | allocated, different⟩
      · exact .inl free
      · exact .inr ⟨allocated, different⟩

/-- The middle of a block is not the start of another one. -/
theorem WellFormed.middle_not_block (valid : p.WellFormed) (block : p.Block a (level + 1)) :
    ¬ p.Block (a + 2 ^ level) other := by
  intro middle
  have wide := Nat.two_pow_pos level
  have inner : a + 2 ^ level < a + 2 ^ (level + 1) := by rw [Nat.pow_succ]; omega
  have same := valid.tiles.start_unique ⟨other, middle, rfl⟩ ⟨level + 1, block, rfl⟩ (by omega) inner
  omega

theorem WellFormed.halve (valid : p.WellFormed) (present : (a, level + 1) ∈ p.allocated)
    (large : 5 ≤ level) : (p.halve a level).WellFormed where
  tiles := by
    have block : p.Block a (level + 1) := .inr present
    apply valid.tiles.split (a := a) (n := 2 ^ level) (m := 2 ^ level)
      ⟨level + 1, block, by rw [Nat.pow_succ]; omega⟩ (Nat.two_pow_pos level) (Nat.two_pow_pos level)
    intro b n
    simp only [halve_block valid present]
    constructor
    · rintro ⟨k, ⟨old, different⟩ | ⟨rfl, rfl⟩ | ⟨rfl, rfl⟩, rfl⟩
      · exact .inl ⟨⟨k, old, rfl⟩, different⟩
      · exact .inr (.inl ⟨rfl, rfl⟩)
      · exact .inr (.inr ⟨rfl, rfl⟩)
    · rintro (⟨⟨k, old, rfl⟩, different⟩ | ⟨rfl, rfl⟩ | ⟨rfl, rfl⟩)
      · exact ⟨k, .inl ⟨old, different⟩, rfl⟩
      · exact ⟨level, .inr (.inl ⟨rfl, rfl⟩), rfl⟩
      · exact ⟨level, .inr (.inr ⟨rfl, rfl⟩), rfl⟩
  freeNodup := by
    intro k
    simp only [Partition.halve]
    by_cases same : k = level
    · subst same
      have fresh : a + 2 ^ k ∉ p.free k := fun free =>
        valid.middle_not_block (.inr present) (.inl free)
      simpa using ⟨fresh, valid.freeNodup k⟩
    · simpa [Function.update_of_ne same] using valid.freeNodup k
  allocatedNodup := by
    simp only [Partition.halve]
    apply List.nodup_cons.mpr ⟨?_, valid.allocatedNodup.erase _⟩
    simp [valid.erase_allocated present]
  apart := by
    intro b k j member
    simp only [Partition.halve, List.mem_cons, Prod.mk.injEq,
      valid.erase_allocated present] at member ⊢
    have start : ∀ {x n}, p.Block x n → x ≠ a + 2 ^ level := by
      rintro x n block rfl
      exact valid.middle_not_block (.inr present) block
    by_cases same : k = level
    · subst same
      rcases (by simpa using member : b = a + 2 ^ k ∨ b ∈ p.free k) with rfl | free
      · have wide := Nat.two_pow_pos k
        rintro (⟨equal, _⟩ | ⟨allocated, _⟩)
        · omega
        · exact start (.inr allocated) rfl
      · rintro (⟨rfl, _⟩ | ⟨allocated, _⟩)
        · exact valid.apart free present
        · exact valid.apart free allocated
    · have free : b ∈ p.free k := by simpa [Function.update_of_ne same] using member
      rintro (⟨rfl, _⟩ | ⟨allocated, _⟩)
      · exact valid.apart free present
      · exact valid.apart free allocated
  large block := by
    rcases (halve_block valid present).mp block with ⟨old, _⟩ | ⟨_, rfl⟩ | ⟨_, rfl⟩
    · exact valid.large old
    · exact large
    · exact large
  aligned block := by
    rcases (halve_block valid present).mp block with ⟨old, _⟩ | ⟨rfl, _⟩ | ⟨rfl, _⟩
    · exact valid.aligned old
    · exact valid.aligned (.inr present)
    · have base := valid.aligned (.inr present)
      obtain ⟨extra, rfl⟩ := Nat.exists_eq_add_of_le large
      rw [Nat.pow_add]
      omega

/-- Splitting down to `target` changes only the lists of the levels in between,
each of which receives one right half. -/
theorem splitTo_spec (valid : p.WellFormed) (present : p.allocated = (a, i) :: q.allocated)
    (large : 5 ≤ target) (above : target ≤ i) :
    (splitTo a i target p).WellFormed ∧
      (splitTo a i target p).allocated = (a, target) :: q.allocated ∧
      ∀ k, (splitTo a i target p).free k =
        if target ≤ k ∧ k < i then (a + 2 ^ k) :: p.free k else p.free k := by
  induction i generalizing p with
  | zero => omega
  | succ i ih =>
    simp only [splitTo]
    split
    · have same : target = i + 1 := by omega
      subst same
      refine ⟨valid, present, fun k => ?_⟩
      rw [if_neg (by omega)]
    · rename_i below
      have member : (a, i + 1) ∈ p.allocated := by simp [present]
      have halves : (p.halve a i).allocated = (a, i) :: q.allocated := by
        simp [halve, present]
      obtain ⟨kept, allocated, lists⟩ := ih (valid.halve member (by omega)) halves (by omega)
      refine ⟨kept, allocated, fun k => ?_⟩
      rw [lists k]
      simp only [halve]
      by_cases same : k = i
      · subst same
        rw [if_neg (by omega), if_pos (by omega), Function.update_self]
      · rw [Function.update_of_ne same]
        by_cases inside : target ≤ k ∧ k < i
        · rw [if_pos inside, if_pos (by omega)]
        · rw [if_neg inside, if_neg (by omega)]

/-- What a successful search does: the least non-empty level `i` loses its head,
the levels below it, which were empty, get one block each. -/
structure Taken (p : Partition) (target : Nat) (a : Nat) (q : Partition) where
  i : Nat
  rest : List Nat
  above : target ≤ i
  bounded : i < blockLists
  head : p.free i = a :: rest
  least : ∀ k, target ≤ k → k < i → p.free k = []
  result : q = (p.claim i).splitTo a i target

theorem takeFrom_taken (found : takeFrom target fuel i p = some (a, q)) (above : target ≤ i)
    (bound : i + fuel = blockLists) (least : ∀ k, target ≤ k → k < i → p.free k = []) :
    Nonempty (Taken p target a q) := by
  induction fuel generalizing i with
  | zero => simp [takeFrom] at found
  | succ fuel ih =>
    cases head : p.free i with
    | nil =>
      simp only [takeFrom, head] at found
      apply ih found (by omega) (by omega)
      intro k low high
      by_cases same : k = i
      · rw [same, head]
      · exact least k low (by omega)
    | cons first rest =>
      simp only [takeFrom, head, Option.some.injEq, Prod.mk.injEq] at found
      obtain ⟨rfl, rfl⟩ := found
      exact ⟨⟨i, rest, above, by omega, head, least, rfl⟩⟩

theorem take_taken (found : take target p = some (a, q)) (bounded : target ≤ blockLists) :
    Nonempty (Taken p target a q) :=
  takeFrom_taken found (Nat.le_refl target) (by omega) (fun k low high => by omega)

/-- What is handed out was on a free list. -/
theorem Taken.fresh (taken : Taken p target a q) (valid : p.WellFormed) : (a, k) ∉ p.allocated :=
  valid.apart (by rw [taken.head]; exact List.mem_cons_self)

theorem Taken.allocated (taken : Taken p target a q) (valid : p.WellFormed) (large : 5 ≤ target) :
    q.allocated = (a, target) :: p.allocated := by
  have claimed : (p.claim taken.i).allocated = (a, taken.i) :: p.allocated := by
    simp [claim, taken.head]
  rw [taken.result]
  exact (splitTo_spec (valid.claim taken.head) claimed large taken.above).2.1

theorem Taken.wellFormed (taken : Taken p target a q) (valid : p.WellFormed) (large : 5 ≤ target) :
    q.WellFormed := by
  have claimed : (p.claim taken.i).allocated = (a, taken.i) :: p.allocated := by
    simp [claim, taken.head]
  rw [taken.result]
  exact (splitTo_spec (valid.claim taken.head) claimed large taken.above).1

theorem Taken.free (taken : Taken p target a q) (valid : p.WellFormed) (large : 5 ≤ target) :
    q.free k = if k = taken.i then taken.rest
      else if target ≤ k ∧ k < taken.i then [a + 2 ^ k] else p.free k := by
  have claimed : (p.claim taken.i).allocated = (a, taken.i) :: p.allocated := by
    simp [claim, taken.head]
  have lists := (splitTo_spec (valid.claim taken.head) claimed large taken.above).2.2 k
  rw [← taken.result] at lists
  rw [lists]
  simp only [claim, taken.head]
  by_cases same : k = taken.i
  · rw [if_neg (by omega), if_pos same, same, Function.update_self]
  · rw [Function.update_of_ne same, if_neg same]
    by_cases inside : target ≤ k ∧ k < taken.i
    · rw [if_pos inside, if_pos inside, taken.least k inside.1 inside.2]
    · rw [if_neg inside, if_neg inside]

/-! ## Merging -/

/-- The lower of a block and its buddy starts the parent, the other one is its middle. -/
theorem buddy_halves (a level : Nat) :
    (a < a ^^^ 2 ^ level ∧ a ^^^ 2 ^ level = a + 2 ^ level) ∨
      (¬ a < a ^^^ 2 ^ level ∧ a = (a ^^^ 2 ^ level) + 2 ^ level) := by
  have wide := Nat.two_pow_pos level
  by_cases set : HasBit a level
  · have lower := xor_two_pow_of_set set
    exact .inr ⟨by omega, lower.symm⟩
  · have upper := xor_two_pow_of_clear set
    exact .inl ⟨by omega, upper⟩

/-- The start of the block a merge of `a` and its buddy makes. -/
def parent (a level : Nat) : Nat := if a < a ^^^ 2 ^ level then a else a ^^^ 2 ^ level

theorem mem_join_free (valid : p.WellFormed) :
    b ∈ (p.join a (a ^^^ 2 ^ level) level).free k ↔
      (k = level + 1 ∧ b = parent a level) ∨
        (b ∈ p.free k ∧ (k = level → b ≠ a ∧ b ≠ a ^^^ 2 ^ level)) := by
  simp only [join, parent]
  by_cases upper : k = level + 1
  · subst upper
    simp
  · rw [Function.update_of_ne upper]
    by_cases same : k = level
    · subst same
      rw [Function.update_self, ((valid.freeNodup k).erase _).mem_erase_iff,
        (valid.freeNodup k).mem_erase_iff]
      simp
      tauto
    · rw [Function.update_of_ne same]
      simp [upper, same]

theorem join_block (valid : p.WellFormed) (free : a ∈ p.free level)
    (buddy : a ^^^ 2 ^ level ∈ p.free level) :
    (p.join a (a ^^^ 2 ^ level) level).Block b k ↔
      (p.Block b k ∧ b ≠ a ∧ b ≠ a ^^^ 2 ^ level) ∨ (b = parent a level ∧ k = level + 1) := by
  simp only [Block, mem_join_free valid]
  have kept : (b, k) ∈ (p.join a (a ^^^ 2 ^ level) level).allocated ↔ (b, k) ∈ p.allocated := Iff.rfl
  rw [kept]
  constructor
  · rintro ((⟨rfl, rfl⟩ | ⟨old, apart⟩) | allocated)
    · exact .inr ⟨rfl, rfl⟩
    · by_cases same : k = level
      · exact .inl ⟨.inl old, apart same⟩
      · refine .inl ⟨.inl old, ?_, ?_⟩
        · rintro rfl
          exact same (valid.level_unique (.inl old) (.inl free))
        · rintro rfl
          exact same (valid.level_unique (.inl old) (.inl buddy))
    · refine .inl ⟨.inr allocated, ?_, ?_⟩
      · rintro rfl
        exact valid.apart free allocated
      · rintro rfl
        exact valid.apart buddy allocated
  · rintro (⟨old | allocated, apart⟩ | ⟨rfl, rfl⟩)
    · exact .inl (.inr ⟨old, fun _ => apart⟩)
    · exact .inr allocated
    · exact .inl (.inl ⟨rfl, rfl⟩)

theorem WellFormed.parent_fresh (valid : p.WellFormed) (free : a ∈ p.free level)
    (buddy : a ^^^ 2 ^ level ∈ p.free level) : parent a level ∉ p.free (level + 1) := by
  unfold parent
  intro member
  split at member
  · have same := valid.level_unique (.inl free) (.inl member)
    omega
  · have same := valid.level_unique (.inl buddy) (.inl member)
    omega

theorem WellFormed.join (valid : p.WellFormed) (free : a ∈ p.free level)
    (buddy : a ^^^ 2 ^ level ∈ p.free level) :
    (p.join a (a ^^^ 2 ^ level) level).WellFormed where
  tiles := by
    have merged : ∀ low, parent a level = low →
        ((a = low ∧ a ^^^ 2 ^ level = low + 2 ^ level) ∨
          (a ^^^ 2 ^ level = low ∧ a = low + 2 ^ level)) →
        Tiles heapStartAddress regionEnd fun b n =>
          ∃ k, (p.join a (a ^^^ 2 ^ level) level).Block b k ∧ n = 2 ^ k := by
      intro low start halves
      have left : p.Block low level := by
        rcases halves with ⟨same, _⟩ | ⟨same, _⟩
        · exact .inl (same ▸ free)
        · exact .inl (same ▸ buddy)
      have right : p.Block (low + 2 ^ level) level := by
        rcases halves with ⟨_, same⟩ | ⟨_, same⟩
        · exact .inl (same ▸ buddy)
        · exact .inl (same ▸ free)
      apply valid.tiles.merge ⟨level, left, rfl⟩ ⟨level, right, rfl⟩
      intro b n
      simp only [join_block valid free buddy, start]
      constructor
      · rintro ⟨k, ⟨old, one, two⟩ | ⟨rfl, rfl⟩, rfl⟩
        · refine .inl ⟨⟨k, old, rfl⟩, ?_⟩
          rcases halves with ⟨first, second⟩ | ⟨first, second⟩
          · exact ⟨first ▸ one, second ▸ two⟩
          · exact ⟨first ▸ two, second ▸ one⟩
        · exact .inr ⟨rfl, by rw [Nat.pow_succ]; omega⟩
      · rintro (⟨⟨k, old, rfl⟩, one, two⟩ | ⟨rfl, rfl⟩)
        · refine ⟨k, .inl ⟨old, ?_⟩, rfl⟩
          rcases halves with ⟨first, second⟩ | ⟨first, second⟩
          · exact ⟨first ▸ one, second ▸ two⟩
          · exact ⟨second ▸ two, first ▸ one⟩
        · exact ⟨level + 1, .inr ⟨rfl, rfl⟩, by rw [Nat.pow_succ]; omega⟩
    unfold parent at merged
    rcases buddy_halves a level with ⟨less, upper⟩ | ⟨less, lower⟩
    · exact merged a (if_pos less) (.inl ⟨rfl, upper⟩)
    · exact merged (a ^^^ 2 ^ level) (if_neg less) (.inr ⟨rfl, lower⟩)
  freeNodup := by
    intro k
    by_cases upper : k = level + 1
    · subst upper
      have fresh := valid.parent_fresh free buddy
      unfold parent at fresh
      simpa [Partition.join] using ⟨fresh, valid.freeNodup (level + 1)⟩
    · simp only [Partition.join, Function.update_of_ne upper]
      by_cases same : k = level
      · subst same
        simpa using ((valid.freeNodup k).erase _).erase _
      · simpa [Function.update_of_ne same] using valid.freeNodup k
  allocatedNodup := valid.allocatedNodup
  apart := by
    intro b k j member
    rcases (mem_join_free valid).mp member with ⟨_, rfl⟩ | ⟨old, _⟩
    · unfold parent
      split
      · exact valid.apart free
      · exact valid.apart buddy
    · exact valid.apart old
  large block := by
    rcases (join_block valid free buddy).mp block with ⟨old, _⟩ | ⟨_, rfl⟩
    · exact valid.large old
    · exact Nat.le_succ_of_le (valid.large (.inl free))
  aligned block := by
    rcases (join_block valid free buddy).mp block with ⟨old, _⟩ | ⟨rfl, _⟩
    · exact valid.aligned old
    · unfold parent
      split
      · exact valid.aligned (.inl free)
      · exact valid.aligned (.inl buddy)

theorem parent_mem_join : parent a level ∈ (p.join a (a ^^^ 2 ^ level) level).free (level + 1) := by
  simp [join, parent]

/-- No two free blocks of one level are buddies. -/
def NoBuddies (p : Partition) : Prop :=
  ∀ level a, a ∈ p.free level → a ^^^ 2 ^ level ∉ p.free level

/-- Only the block being merged may still have a free buddy. -/
def NoBuddiesBut (x : Nat) (p : Partition) : Prop :=
  ∀ level a, a ∈ p.free level → a ^^^ 2 ^ level ∈ p.free level → a = x ∨ a ^^^ 2 ^ level = x

theorem NoBuddiesBut.join (settled : NoBuddiesBut a p) (valid : p.WellFormed)
    (free : a ∈ p.free level) :
    NoBuddiesBut (parent a level) (p.join a (a ^^^ 2 ^ level) level) := by
  intro k b first second
  rcases (mem_join_free valid).mp first with ⟨_, same⟩ | ⟨oldFirst, apart⟩
  · exact .inl same
  · rcases (mem_join_free valid).mp second with ⟨_, same⟩ | ⟨oldSecond, distinct⟩
    · exact .inr same
    · exfalso
      rcases settled k b oldFirst oldSecond with rfl | same
      · exact (apart (valid.level_unique (.inl oldFirst) (.inl free))).1 rfl
      · have level_eq := valid.level_unique (.inl oldSecond) (.inl (same ▸ free))
        exact (distinct level_eq).1 same

/-- With enough fuel the merging of `a` stops only where no free buddy is left. -/
theorem coalesce_spec (valid : p.WellFormed) (settled : NoBuddiesBut a p)
    (free : a ∈ p.free level) (enough : blockLists ≤ fuel + level) :
    (coalesce fuel a level p).WellFormed ∧ (coalesce fuel a level p).NoBuddies ∧
      (coalesce fuel a level p).allocated = p.allocated := by
  induction fuel generalizing a level p with
  | zero =>
    have top := valid.level_le (.inl free)
    unfold blockLists maxLevel at enough
    omega
  | succ fuel ih =>
    simp only [coalesce]
    split
    · rename_i buddy
      exact ih (valid.join free buddy) (settled.join valid free) parent_mem_join (by omega)
    · rename_i alone
      refine ⟨valid, ?_, rfl⟩
      intro k b first second
      rcases settled k b first second with rfl | same
      · have level_eq := valid.level_unique (.inl first) (.inl free)
        subst level_eq
        exact alone second
      · have level_eq := valid.level_unique (.inl second) (.inl (same ▸ free))
        subst level_eq
        rw [← same, xor_two_pow_cancel] at alone
        exact alone first

theorem NoBuddies.take (settled : p.NoBuddies) (taken : Taken p target a q) (valid : p.WellFormed)
    (large : 5 ≤ target) : q.NoBuddies := by
  intro k b first second
  rw [taken.free valid large] at first second
  by_cases same : k = taken.i
  · rw [if_pos same] at first second
    have inside : ∀ {x}, x ∈ taken.rest → x ∈ p.free k := by
      intro x member
      rw [same, taken.head]
      exact List.mem_cons_of_mem a member
    exact settled k b (inside first) (inside second)
  · rw [if_neg same] at first second
    split at first
    · rw [if_pos ‹_›] at second
      simp only [List.mem_singleton] at first second
      exact xor_two_pow_ne b k (by rw [second, first])
    · rw [if_neg ‹_›] at second
      exact settled k b first second

theorem NoBuddies.release (settled : p.NoBuddies) : NoBuddiesBut a (p.release a level) := by
  intro k b first second
  simp only [Partition.release] at first second
  by_cases same : k = level
  · subst same
    rcases (by simpa using first : b = a ∨ b ∈ p.free k) with found | old
    · exact .inl found
    · rcases (by simpa using second : b ^^^ 2 ^ k = a ∨ b ^^^ 2 ^ k ∈ p.free k) with found | other
      · exact .inr found
      · exact absurd other (settled k b old)
  · rw [Function.update_of_ne same] at first second
    exact absurd second (settled k b first)

/-- Freeing a block: back to its list, then merged as far as it goes. -/
def dispose (p : Partition) (a level : Nat) : Partition :=
  coalesce (blockLists + 1) a level (p.release a level)

theorem dispose_spec (valid : p.WellFormed) (settled : p.NoBuddies)
    (present : (a, level) ∈ p.allocated) :
    (p.dispose a level).WellFormed ∧ (p.dispose a level).NoBuddies ∧
      (p.dispose a level).allocated = p.allocated.erase (a, level) :=
  coalesce_spec (valid.release present) settled.release (by simp [Partition.release]) (by omega)

theorem root_noBuddies : root.NoBuddies := by
  intro level a first second
  have start := (root_free_iff.mp first).2
  have other := (root_free_iff.mp second).2
  exact xor_two_pow_ne a level (by rw [other, start])

end SoKernel.Buddy.Partition
