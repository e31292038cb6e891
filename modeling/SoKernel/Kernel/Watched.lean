import SoKernel.Kernel.Ledger
import SoKernel.Kernel.Bump

namespace SoKernel
open MemoryManager QueueName Kernel

/-- What `getMemoryInfo` of an allocator says is used, and what a request adds to it. -/
structure Reports (M : Type) where
  usedMemory : M → Nat
  charge : Nat → Nat

/-- What the live blocks cost. -/
def Reports.cost {M : Type} (reports : Reports M) (live : List Block) : Nat :=
  (live.map fun block => reports.charge block.2).sum

/-- An allocator whose requests are watched: the blocks that are live, and whether every request
so far was granted, at an address that no live block has, and reported. -/
structure Watched {M : Type} (reports : Reports M) where
  memory : M
  live : List Block
  sound : Bool
  unique : (live.map Prod.fst).Nodup
  counted : sound = true → reports.usedMemory memory = reports.cost live

namespace Watched

variable {M : Type} {reports : Reports M} {a : Addr} {size : Nat} [MemoryManager M]

/-- After a request that went wrong nothing is recorded any more. -/
def alloc (size : Nat) (w : Watched reports) : Addr × Watched reports :=
  if granted : w.sound = true ∧ (allocMemory size w.memory).1 ≠ 0 ∧
      (allocMemory size w.memory).1 ∉ w.live.map Prod.fst ∧
      reports.usedMemory (allocMemory size w.memory).2 =
        reports.cost (((allocMemory size w.memory).1, size) :: w.live) then
    ((allocMemory size w.memory).1, {
      memory := (allocMemory size w.memory).2
      live := ((allocMemory size w.memory).1, size) :: w.live
      sound := true
      unique := List.nodup_cons.mpr ⟨granted.2.2.1, w.unique⟩
      counted := fun _ => granted.2.2.2 })
  else
    (1, {
      memory := (allocMemory size w.memory).2
      live := w.live
      sound := false
      unique := w.unique
      counted := fun sound => absurd sound Bool.false_ne_true })

def free (a : Addr) (w : Watched reports) : Watched reports where
  memory := freeMemory a w.memory
  live := w.live.eraseP fun block => block.1 = a
  sound := w.sound && decide (reports.usedMemory (freeMemory a w.memory) =
    reports.cost (w.live.eraseP fun block => block.1 = a))
  unique := w.unique.sublist (List.eraseP_sublist.map _)
  counted := by
    intro sound
    exact of_decide_eq_true (Bool.and_eq_true_iff.mp sound).2

instance : MemoryManager (Watched reports) where
  allocMemory := alloc
  freeMemory := free

theorem allocSucceeds : AllocSucceeds (Watched reports) := by
  intro size w
  change (alloc size w).1 ≠ 0
  unfold alloc
  split
  · rename_i granted
    exact granted.2.1
  · exact Nat.one_ne_zero

omit [MemoryManager M] in
theorem eraseP_address {live : List Block} (unique : (live.map Prod.fst).Nodup)
    (member : (a, size) ∈ live) :
    ((live.eraseP fun block => block.1 = a : List Block) : Multiset Block) =
      (live : Multiset Block).erase (a, size) := by
  induction live with
  | nil => cases member
  | cons block rest ih =>
    rw [List.map_cons, List.nodup_cons] at unique
    by_cases here : block.1 = a
    · have same : block = (a, size) := by
        rcases List.mem_cons.mp member with equal | later
        · exact equal.symm
        · have listed : a ∈ rest.map Prod.fst := List.mem_map_of_mem later
          rw [← here] at listed
          exact absurd listed unique.1
      rw [List.eraseP_cons_of_pos (by simpa using here), same, ← Multiset.cons_coe,
        Multiset.erase_cons_head]
    · have other : block ≠ (a, size) := by
        intro same
        rw [same] at here
        exact here rfl
      have later : (a, size) ∈ rest := by
        rcases List.mem_cons.mp member with equal | later
        · exact absurd equal.symm other
        · exact later
      rw [List.eraseP_cons_of_neg (by simpa using here), ← Multiset.cons_coe, ← Multiset.cons_coe,
        ih unique.2 later, Multiset.erase_cons_tail _ other]

/-- The books that the watch keeps. -/
def books (reports : Reports M) : Books (Watched reports) where
  clean w := w.sound = true
  live w := w.live
  charge := reports.charge
  usedMemory w := reports.usedMemory w.memory
  beforeAlloc := by
    intro size w
    change (alloc size w).2.sound = true → _
    unfold alloc
    split
    · rename_i granted
      exact fun _ => granted.1
    · exact fun sound => absurd sound Bool.false_ne_true
  beforeFree := by
    intro a w sound
    exact (Bool.and_eq_true_iff.mp sound).1
  granted := by
    intro size w
    change (alloc size w).2.sound = true → _ → ((alloc size w).2.live : Multiset Block) =
      ((alloc size w).1, size) ::ₘ (w.live : Multiset Block)
    unfold alloc
    split
    · exact fun _ _ => rfl
    · exact fun sound => absurd sound Bool.false_ne_true
  refused := by
    intro size w _ none
    exact absurd none (allocSucceeds size w)
  freed := by
    intro a size w _ member
    exact eraseP_address w.unique member
  reported := by
    intro w sound
    rw [w.counted sound]
    rfl

end Watched

/-- Unbounded memory, handed out upwards and never reused, that knows its blocks. -/
structure Arena where
  top : Nat
  blocks : List Block

instance : MemoryManager Arena where
  allocMemory size memory :=
    (memory.top + 1, ⟨memory.top + 1 + size, (memory.top + 1, size) :: memory.blocks⟩)
  freeMemory a memory := { memory with blocks := memory.blocks.eraseP fun block => block.1 = a }

namespace Arena

def reports : Reports Arena where
  usedMemory memory := (memory.blocks.map Prod.snd).sum
  charge size := size

def empty : Watched reports where
  memory := ⟨0, []⟩
  live := []
  sound := true
  unique := List.nodup_nil
  counted := fun _ => rfl

/-- The kernel booted on this memory. -/
def kernel : Kernel (Watched reports) := (boot 1 2 (fun _ => Bump.blank) empty).get (by decide +kernel)

theorem booted : Booted kernel where
  main := ⟨1, 2, fun _ => Bump.blank, empty, (Option.some_get _).symm⟩
  idle := by decide +kernel
  shell := ⟨kernel.processes.currentProcess, by decide +kernel, by decide +kernel⟩

end Arena
end SoKernel
