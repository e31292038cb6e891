import SoKernel.Memory.BitmapRuns
import SoKernel.Lib.Transition

namespace SoKernel.Bitmap
open Buddy Lib

/-! ## Calls with any argument -/

/-- The system calls pass on any 64-bit value. -/
inductive Call where
  | allocMemory (size : UInt64)
  | freeMemory (memory : UInt64)

/-- The state after the call; `none` where an access leaves the bitmap. -/
def perform : Call → Session → Option Session
  | .allocMemory size, s =>
    (s.mm.allocMemory size.toNat).map fun (p, m) =>
      ⟨m, if p = 0 then s.live else (p, sizeToBlockQty (u32 size.toNat)) :: s.live⟩
  | .freeMemory memory, s =>
    (s.mm.freeMemory memory.toNat).map fun m =>
      ⟨m, s.live.filter fun block => block.1 ≠ memory.toNat⟩

def CallStep (s : Session) (call : Call) (t : Session) : Prop := perform call s = some t

namespace Mm

/-- The index that `freeMemory` computes. -/
def blockIndex (m : Mm) (memory : Nat) : Nat := u32 (u64 (memory + 2 ^ 64 - m.start) / blockSize)

/-- What a request for zero blocks finds in order: there is an entry from `current` on, and the
last entry is FREE. -/
def LastFree (m : Mm) : Prop := m.current < m.blockQty ∧ m.FreeAt (m.blockQty - 1)

instance (m : Mm) : Decidable m.LastFree := inferInstanceAs (Decidable (_ ∧ _))

end Mm

variable {s t : Session} {m m' : Mm} {a i k left freeBlocks n p : Nat} {calls : List Call}

/-! ## Requests for zero blocks -/

/-- The search for zero blocks ends at the end of the bitmap. -/
theorem findFreeFrom_zero (left : Nat) (whole : i + left = m.bitmap.length) :
    m.findFreeFrom 0 left freeBlocks i =
      some (if (left = 0 ∧ freeBlocks = 0) ∨ (0 < left ∧ ¬ m.FreeAt (m.bitmap.length - 1))
        then m.blockAddress (m.bitmap.length + 1) else 0) := by
  induction left generalizing freeBlocks i with
  | zero =>
    have last : i = m.bitmap.length := by omega
    unfold Mm.findFreeFrom
    simp [last]
  | succ left ih =>
    obtain ⟨entry, here⟩ : ∃ entry, m.bitmap[i]? = some entry :=
      ⟨_, List.getElem?_eq_getElem (by omega)⟩
    have ends : left = 0 → m.bitmap.length - 1 = i := by omega
    unfold Mm.findFreeFrom
    rw [here]
    cases entry with
    | free =>
      have good : m.FreeAt i := here
      dsimp only
      rw [if_neg (Nat.succ_ne_zero _), ih (by omega)]
      by_cases last : left = 0
      · rw [ends last]
        simp [last, good]
      · simp [last, Nat.pos_of_ne_zero last]
    | used | startBoundary | endBoundary | singleBlock =>
      have bad : ¬ m.FreeAt i := by
        intro free
        unfold Mm.FreeAt at free
        rw [here] at free
        cases free
      dsimp only
      rw [ih (by omega)]
      by_cases last : left = 0
      · rw [ends last]
        simp [last, bad]
      · simp [last, Nat.pos_of_ne_zero last]

theorem Valid.nextFit_zero (valid : Valid m) : m.nextFit 0 =
    some (if m.LastFree then 0 else m.blockAddress (m.blockQty + 1)) := by
  obtain ⟨start, qty, length, _⟩ := valid.numbers
  have current := valid.current
  have search : ∀ from', from' ≤ m.blockQty → m.findFreeBlocks 0 from' m.blockQty =
      some (if from' < m.blockQty ∧ m.FreeAt (m.blockQty - 1) then 0
        else m.blockAddress (m.blockQty + 1)) := by
    intro from' inside
    unfold Mm.findFreeBlocks
    rw [findFreeFrom_zero _ (by rw [valid.length]; omega), valid.length]
    by_cases empty : from' = m.blockQty
    · simp [empty]
    · have some : 0 < m.blockQty - from' := by omega
      by_cases last : m.FreeAt (m.blockQty - 1) <;>
        simp [last, some, show from' < m.blockQty by omega,
          show m.blockQty - from' ≠ 0 by omega]
  have address : m.blockAddress (m.blockQty + 1) ≠ 0 := by
    unfold Mm.blockAddress
    omega
  unfold Mm.nextFit
  by_cases free : m.LastFree
  · have first : m.findFreeBlocks 0 m.current m.blockQty = some 0 :=
      (search _ current).trans (congrArg some (if_pos free))
    have second : m.findFreeBlocks 0 0 m.blockQty = some 0 :=
      (search 0 (Nat.zero_le _)).trans (congrArg some (if_pos ⟨by omega, free.2⟩))
    rw [if_pos free, first, Option.bind_eq_bind, Option.bind_some, if_pos rfl]
    exact second
  · have first : m.findFreeBlocks 0 m.current m.blockQty = some (m.blockAddress (m.blockQty + 1)) :=
      (search _ current).trans (congrArg some (if_neg free))
    rw [if_neg free, first, Option.bind_eq_bind, Option.bind_some, if_neg address]

/-- Nothing changes, or the bitmap is left behind its end. -/
theorem Valid.allocMemory_zero (valid : Valid m) (nothing : u32 k = 0) :
    m.allocMemory k = if m.LastFree then some (0, m) else none := by
  obtain ⟨start, qty, length, used⟩ := valid.numbers
  have zero : sizeToBlockQty (u32 k) = 0 := by
    rw [nothing]
    rfl
  unfold Mm.allocMemory
  rw [zero]
  dsimp only
  rw [if_neg (Nat.not_lt_zero _), valid.nextFit_zero, Option.bind_eq_bind, Option.bind_some]
  by_cases free : m.LastFree
  · rw [if_pos free, if_pos free, if_pos rfl]
  · have address : m.blockAddress (m.blockQty + 1) = m.start + (m.blockQty + 1) * blockSize := by
      unfold Mm.blockAddress
      rw [u32_small (by unfold blockSize; omega)]
    have index : u32 ((m.blockQty + 1) * blockSize / blockSize) = m.blockQty + 1 := by
      rw [Nat.mul_div_cancel _ (by decide), u32_small (by omega)]
    have outside : ¬ m.blockQty + 1 < m.bitmap.length := by omega
    have left : ∀ current, ({ m with current := current } : Mm).markGroupAsUsed 0 (m.blockQty + 1) =
        none := by
      intro current
      have written : ({ m with current := current } : Mm).write (m.blockQty + 1) .startBoundary =
          none := if_neg outside
      unfold Mm.markGroupAsUsed
      rw [written]
      rfl
    rw [if_neg free, if_neg free, address, if_neg (valid.address_ne_zero _), if_neg (by decide),
      Nat.add_sub_cancel_left, index]
    exact left _

/-! ## `freeMemory` of any pointer -/

/-- Beyond the end of the bitmap the read leaves it. -/
theorem Valid.freeMemory_outside (valid : Valid m) (aligned : ¬ (p = 0 ∨ p % blockSize ≠ 0))
    (outside : m.blockQty ≤ m.blockIndex p) : m.freeMemory p = none := by
  have length := valid.length
  have nothing : m.bitmap[m.blockIndex p]? = none := List.getElem?_eq_none (by omega)
  unfold Mm.blockIndex at nothing
  unfold Mm.freeMemory
  rw [if_neg aligned]
  dsimp only
  rw [nothing]

/-- A pointer with an index of the bitmap is taken for the block of this index. -/
theorem Valid.freeMemory_alias (valid : Valid m) (aligned : ¬ (p = 0 ∨ p % blockSize ≠ 0))
    (inside : m.blockIndex p < m.blockQty) :
    m.freeMemory p = m.freeMemory (m.start + m.blockIndex p * blockSize) := by
  obtain ⟨start, qty, _, _⟩ := valid.numbers
  have same : m.blockIndex (m.start + m.blockIndex p * blockSize) = m.blockIndex p := by
    generalize m.blockIndex p = i at inside
    unfold Mm.blockIndex u64
    rw [show m.start + i * blockSize + 2 ^ 64 - m.start = i * blockSize + 2 ^ 64 by omega,
      Nat.add_mod_right, Nat.mod_eq_of_lt (by unfold blockSize; omega),
      Nat.mul_div_cancel _ (by decide), u32_small (by omega)]
  have aligned' : ¬ (m.start + m.blockIndex p * blockSize = 0 ∨
      (m.start + m.blockIndex p * blockSize) % blockSize ≠ 0) := by
    unfold blockSize
    omega
  unfold Mm.blockIndex at same aligned'
  unfold Mm.freeMemory Mm.blockIndex
  rw [if_neg aligned, if_neg aligned']
  dsimp only
  rw [same]

/-! ## Runs -/

/-- A call that stays inside the bitmap keeps it in order. -/
theorem Valid.call {call : Call} (valid : Valid s.mm) (step : CallStep s call t) : Valid t.mm := by
  cases call with
  | allocMemory size =>
    by_cases positive : 0 < u32 size.toNat
    · obtain ⟨p, m, done, which⟩ := valid.allocMemory positive
      have result : some _ = some t := (congrArg (Option.map _) done).symm.trans step
      cases result
      rcases which with ⟨_, same, _⟩ | ⟨a, _, _, allocates⟩
      · dsimp only
        rw [same]
        exact valid
      · exact allocates.valid valid
    · have done := valid.allocMemory_zero (k := size.toNat) (by omega)
      unfold CallStep perform at step
      dsimp only at step
      rw [done] at step
      split at step
      · cases step
        exact valid
      · cases step
  | freeMemory memory =>
    obtain ⟨m, done, rfl⟩ := Option.map_eq_some_iff.mp step
    by_cases aligned : memory.toNat = 0 ∨ memory.toNat % blockSize ≠ 0
    · unfold Mm.freeMemory at done
      rw [if_pos aligned] at done
      cases done
      exact valid
    · by_cases inside : s.mm.blockIndex memory.toNat < s.mm.blockQty
      · rw [valid.freeMemory_alias aligned inside] at done
        obtain ⟨m', freed, which⟩ := valid.freeMemory (Nat.le_add_right _ _)
          (Nat.add_lt_add_left (Nat.mul_lt_mul_of_pos_right inside (by decide)) _)
        rw [freed] at done
        cases done
        rcases which with ⟨same, _⟩ | ⟨a, n, _, frees⟩
        · dsimp only
          rw [same]
          exact valid
        · exact frees.valid valid
      · rw [valid.freeMemory_outside aligned (Nat.le_of_not_lt inside)] at done
        cases done

theorem valid_of_run (run : Run CallStep begin calls s) : Valid s.mm :=
  run.preserves (fun s => Valid s.mm) (fun before step => before.call step) createMemoryManager_valid

end SoKernel.Bitmap
