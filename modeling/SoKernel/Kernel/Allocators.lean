import SoKernel.Kernel.Bump
import SoKernel.Memory.BestLevel
import SoKernel.Memory.Bitmap

namespace SoKernel
open MemoryManager Kernel Lib

/-! ## The allocators of the repository -/

/-- `buddyMemoryManager.c`. -/
instance : MemoryManager Buddy.Heap where
  allocMemory := Buddy.allocMemory
  freeMemory := Buddy.freeMemory

/-- `bitmapMemoryManager.c`; `none` once the bitmap was left. -/
instance : MemoryManager (Option Bitmap.Mm) where
  allocMemory size memory :=
    match memory.bind fun m => m.allocMemory size with
    | none => (0, none)
    | some (address, m) => (address, some m)
  freeMemory address memory := memory.bind fun m => m.freeMemory address

namespace Buddy

/-- The kernel booted on the heap of the buddy build. -/
def kernel : Kernel Heap :=
  (boot 1 2 (fun _ => Bump.blank) (createMemoryManager zeroHeap)).get (by decide +kernel)

theorem kernel_booted : Booted kernel where
  main := ⟨1, 2, fun _ => Bump.blank, createMemoryManager zeroHeap, (Option.some_get _).symm⟩
  idle := by decide +kernel
  shell := ⟨kernel.processes.currentProcess, by decide +kernel, by decide +kernel⟩

/-! ## What was freed can be allocated again -/

variable {w : World} {p : Partition} {start : Heap} {requests : List Request}
variable {a address level fuel n : Nat}

/-- Merging only moves a free block up. -/
theorem Partition.coalesce_above (free : a ∈ p.free level) :
    ∃ k, level ≤ k ∧ (coalesce fuel a level p).free k ≠ [] := by
  induction fuel generalizing a level p with
  | zero => exact ⟨level, Nat.le_refl level, List.ne_nil_of_mem free⟩
  | succ fuel ih =>
    unfold coalesce
    split
    · obtain ⟨k, above, some⟩ := ih (@parent_mem_join p a level)
      exact ⟨k, Nat.le_of_succ_le above, some⟩
    · exact ⟨level, Nat.le_refl level, List.ne_nil_of_mem free⟩

theorem Tracks.reusable (tracks : Tracks w p) (present : (a, level) ∈ p.allocated)
    (honest : Honest w.heap (a + headerSize)) (bound : n + headerSize ≤ 2 ^ 32)
    (small : requestLevel n ≤ level) :
    (Buddy.allocMemory n (Buddy.freeMemory (a + headerSize) w.heap)).1 ≠ 0 := by
  obtain ⟨after, _⟩ := tracks.free honest_trusts present
    fun same => honestAt_release ((tracks.honest_iff present).mp honest) same
  have released : a ∈ (p.release a level).free level := by simp [Partition.release]
  obtain ⟨k, above, some⟩ := Partition.coalesce_above released
  obtain ⟨b, member⟩ := List.exists_mem_of_ne_nil _ some
  have listed := after.valid.level_le (.inl member)
  have bounded : k < blockLists := by
    unfold blockLists maxLevel
    omega
  exact (after.bestLevel bound).granted_iff.mpr ⟨k, Nat.le_trans small above, bounded, some⟩

/-- What `NodesReusable` asks of every address and memory, the heap grants for the node that was
just freed, as long as no request is for more than 4 GiB. -/
theorem node_reusable (run : Run (ClientStep Honest) (World.boot start) requests w)
    (live : address ∈ w.live) (honest : Honest w.heap address)
    (node : requestLevel nodeSize ≤ (w.heap.header (address - headerSize)).level) :
    (MemoryManager.allocMemory nodeSize (MemoryManager.freeMemory address w.heap)).1 ≠ 0 := by
  obtain ⟨p, tracks⟩ : ∃ p, Tracks w p := by
    apply run.preserves (fun w => ∃ p, Tracks w p)
    · rintro w request w' ⟨p, tracks⟩ step
      obtain ⟨_, q, _, after, _⟩ := tracks.client_step step
      exact ⟨q, after⟩
    · exact ⟨.root, boot_tracks⟩
  obtain ⟨a, level, present, rfl⟩ := tracks.live.mp live
  rw [Nat.add_sub_cancel, (tracks.shown.allocated present).1] at node
  exact tracks.reusable present honest (by decide) node

end Buddy
end SoKernel
