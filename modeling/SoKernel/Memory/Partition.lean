import SoKernel.Memory.Buddy
import SoKernel.Lib.Tiling
import SoKernel.Lib.Bits
import Mathlib.Data.List.Nodup
import Mathlib.Algebra.Order.Group.Nat

namespace SoKernel.Buddy
open Lib

/-- What the allocator manages, without the headers: a free list for each level,
head first, and the allocated blocks with their levels. -/
structure Partition where
  free : Nat → List Nat
  allocated : List (Nat × Nat)

namespace Partition

def Block (p : Partition) (a level : Nat) : Prop :=
  a ∈ p.free level ∨ (a, level) ∈ p.allocated

/-- End of the region the root block covers. -/
def regionEnd : Nat := heapStartAddress + 2 ^ 28

/-- The blocks partition the region; every address occurs once, and no block is
too small to hold a header. -/
structure WellFormed (p : Partition) : Prop where
  tiles : Tiles heapStartAddress regionEnd (fun a n => ∃ level, p.Block a level ∧ n = 2 ^ level)
  freeNodup : ∀ level, (p.free level).Nodup
  allocatedNodup : p.allocated.Nodup
  apart : ∀ {a level other}, a ∈ p.free level → (a, other) ∉ p.allocated
  large : ∀ {a level}, p.Block a level → 5 ≤ level
  aligned : ∀ {a level}, p.Block a level → a % 32 = 0

/-- The one block of a fresh heap. -/
def root : Partition where
  free level := if level = 28 then [heapStartAddress] else []
  allocated := []

/-- Take the head of a free list. -/
def claim (p : Partition) (level : Nat) : Partition :=
  match p.free level with
  | [] => p
  | a :: rest =>
    { free := Function.update p.free level rest, allocated := (a, level) :: p.allocated }

/-- Cut the allocated block `a` of level `level + 1`; the right half becomes free. -/
def halve (p : Partition) (a level : Nat) : Partition where
  free := Function.update p.free level ((a + 2 ^ level) :: p.free level)
  allocated := (a, level) :: p.allocated.erase (a, level + 1)

def splitTo (a : Nat) : Nat → Nat → Partition → Partition
  | 0, _, p => p
  | level + 1, target, p =>
    if level + 1 ≤ target then p else splitTo a level target (p.halve a level)

/-- The search of the levels from `i` up, and the cut down to `target`. -/
def takeFrom (target : Nat) : Nat → Nat → Partition → Option (Nat × Partition)
  | 0, _, _ => none
  | fuel + 1, i, p =>
    match p.free i with
    | [] => takeFrom target fuel (i + 1) p
    | a :: _ => some (a, (p.claim i).splitTo a i target)

def take (target : Nat) (p : Partition) : Option (Nat × Partition) :=
  takeFrom target (blockLists - target) target p

def release (p : Partition) (a level : Nat) : Partition where
  free := Function.update p.free level (a :: p.free level)
  allocated := p.allocated.erase (a, level)

/-- Replace two free blocks of one level by one of the next level. -/
def join (p : Partition) (a buddy level : Nat) : Partition where
  free := Function.update
    (Function.update p.free level (((p.free level).erase buddy).erase a))
    (level + 1) ((if a < buddy then a else buddy) :: p.free (level + 1))
  allocated := p.allocated

def coalesce : Nat → Nat → Nat → Partition → Partition
  | 0, _, _, p => p
  | fuel + 1, a, level, p =>
    if a ^^^ 2 ^ level ∈ p.free level then
      coalesce fuel (if a < a ^^^ 2 ^ level then a else a ^^^ 2 ^ level) (level + 1)
        (p.join a (a ^^^ 2 ^ level) level)
    else p

/-- Bytes in allocated blocks. -/
def used (p : Partition) : Nat := (p.allocated.map fun entry => 2 ^ entry.2).sum

variable {p : Partition} {a b level other target fuel i : Nat} {rest : List Nat}

theorem WellFormed.level_unique (valid : p.WellFormed) (first : p.Block a level)
    (second : p.Block a other) : level = other :=
  Nat.pow_right_injective (Nat.le_refl 2)
    (valid.tiles.size_unique ⟨level, first, rfl⟩ ⟨other, second, rfl⟩)

theorem WellFormed.bounds (valid : p.WellFormed) (block : p.Block a level) :
    heapStartAddress ≤ a ∧ a + 2 ^ level ≤ regionEnd :=
  valid.tiles.inside ⟨level, block, rfl⟩

theorem WellFormed.level_le (valid : p.WellFormed) (block : p.Block a level) : level ≤ 28 := by
  have bounds := valid.bounds block
  have small : 2 ^ level ≤ 2 ^ 28 := by unfold regionEnd at bounds; omega
  exact (Nat.pow_le_pow_iff_right (by decide)).mp small

theorem WellFormed.pos (valid : p.WellFormed) (block : p.Block a level) : a ≠ 0 := by
  have bounds := valid.bounds block
  unfold heapStartAddress at bounds
  omega

theorem WellFormed.erase_allocated (valid : p.WellFormed) (present : (a, level) ∈ p.allocated) :
    (b, other) ∈ p.allocated.erase (a, level) ↔ (b, other) ∈ p.allocated ∧ b ≠ a := by
  rw [valid.allocatedNodup.mem_erase_iff]
  constructor
  · rintro ⟨different, member⟩
    refine ⟨member, ?_⟩
    rintro rfl
    exact different (by rw [valid.level_unique (.inr member) (.inr present)])
  · rintro ⟨member, different⟩
    exact ⟨fun same => different (congrArg Prod.fst same), member⟩

theorem regionEnd_eq : regionEnd = heapStartAddress + 268435456 := rfl

theorem root_free_iff : a ∈ root.free level ↔ level = 28 ∧ a = heapStartAddress := by
  by_cases top : level = 28 <;> simp [root, top]

theorem root_block_iff : root.Block a level ↔ level = 28 ∧ a = heapStartAddress := by
  have none : (a, level) ∉ root.allocated := List.not_mem_nil
  simp only [Block, root_free_iff, none, or_false]

theorem root_wellFormed : root.WellFormed where
  tiles := by
    have single : ∀ a n, (∃ level, root.Block a level ∧ n = 2 ^ level) ↔
        a = heapStartAddress ∧ n = regionEnd - heapStartAddress := by
      intro a n
      simp only [root_block_iff, regionEnd_eq]
      constructor
      · rintro ⟨level, ⟨rfl, rfl⟩, rfl⟩
        exact ⟨rfl, by omega⟩
      · rintro ⟨rfl, rfl⟩
        exact ⟨28, ⟨rfl, rfl⟩, by omega⟩
    exact (Tiles.whole (by decide)).congr single
  freeNodup := by
    intro level
    by_cases top : level = 28 <;> simp [root, top]
  allocatedNodup := List.nodup_nil
  apart := by simp [root]
  large block := by rw [(root_block_iff.mp block).1]; decide
  aligned block := by rw [(root_block_iff.mp block).2]; decide

/-! Taking a head and giving a block back keep the set of blocks. -/

theorem claim_block (head : p.free level = a :: rest) :
    (p.claim level).Block b other ↔ p.Block b other := by
  simp only [claim, head, Block]
  by_cases same : other = level
  · subst same
    simp [head]
    tauto
  · simp [same]

theorem WellFormed.claim (valid : p.WellFormed) (head : p.free level = a :: rest) :
    (p.claim level).WellFormed where
  tiles := valid.tiles.congr fun b k => by simp only [claim_block head]
  freeNodup := by
    intro other
    have all := valid.freeNodup level
    rw [head] at all
    simp only [Partition.claim, head]
    by_cases same : other = level
    · subst same
      simpa using (List.nodup_cons.mp all).2
    · simpa [Function.update_of_ne same] using valid.freeNodup other
  allocatedNodup := by
    simp only [Partition.claim, head]
    exact List.nodup_cons.mpr
      ⟨valid.apart (by rw [head]; exact List.mem_cons_self), valid.allocatedNodup⟩
  apart := by
    intro b k j member
    have all := valid.freeNodup level
    rw [head] at all
    simp only [Partition.claim, head] at member ⊢
    have taken : p.Block a level := .inl (by rw [head]; exact List.mem_cons_self)
    by_cases same : k = level
    · subst same
      have inRest : b ∈ rest := by simpa using member
      have old : b ∈ p.free k := by rw [head]; exact List.mem_cons_of_mem a inRest
      have different : b ≠ a := by rintro rfl; exact (List.nodup_cons.mp all).1 inRest
      simpa [different] using valid.apart old
    · have old : b ∈ p.free k := by simpa [Function.update_of_ne same] using member
      have different : b ≠ a := by
        rintro rfl
        exact same (valid.level_unique (.inl old) taken)
      simpa [different] using valid.apart old
  large block := valid.large ((claim_block head).mp block)
  aligned block := valid.aligned ((claim_block head).mp block)

theorem release_block (valid : p.WellFormed) (present : (a, level) ∈ p.allocated) :
    (p.release a level).Block b other ↔ p.Block b other := by
  simp only [release, Block, valid.erase_allocated present]
  by_cases same : other = level
  · subst same
    simp only [Function.update_self, List.mem_cons]
    constructor
    · rintro ((rfl | free) | ⟨allocated, _⟩)
      · exact .inr present
      · exact .inl free
      · exact .inr allocated
    · rintro (free | allocated)
      · exact .inl (.inr free)
      · by_cases equal : b = a
        · exact .inl (.inl equal)
        · exact .inr ⟨allocated, equal⟩
  · rw [Function.update_of_ne same]
    constructor
    · rintro (free | ⟨allocated, _⟩)
      · exact .inl free
      · exact .inr allocated
    · rintro (free | allocated)
      · exact .inl free
      · refine .inr ⟨allocated, ?_⟩
        rintro rfl
        exact same (valid.level_unique (.inr allocated) (.inr present))

theorem WellFormed.release (valid : p.WellFormed) (present : (a, level) ∈ p.allocated) :
    (p.release a level).WellFormed where
  tiles := valid.tiles.congr fun b k => by simp only [release_block valid present]
  freeNodup := by
    intro other
    simp only [Partition.release]
    by_cases same : other = level
    · subst same
      simpa using ⟨fun free => valid.apart free present, valid.freeNodup other⟩
    · simpa [Function.update_of_ne same] using valid.freeNodup other
  allocatedNodup := valid.allocatedNodup.erase _
  apart := by
    intro b k j member
    simp only [Partition.release] at member ⊢
    rw [valid.erase_allocated present]
    rintro ⟨allocated, different⟩
    by_cases same : k = level
    · subst same
      have old : b ∈ p.free k := by simpa [different] using member
      exact valid.apart old allocated
    · exact valid.apart (by simpa [Function.update_of_ne same] using member) allocated
  large block := valid.large ((release_block valid present).mp block)
  aligned block := valid.aligned ((release_block valid present).mp block)

end Partition
end SoKernel.Buddy
