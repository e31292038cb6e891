import SoKernel.Memory.NextFit

namespace SoKernel.Bitmap
open Buddy Lib

variable {s t : Session} {m m' : Mm} {a n p : Nat} {calls : List Call}

/-! ## What `freeMemory` does with a pointer -/

/-- The start of a live allocation frees its entries and no others, and any other pointer
nothing. -/
structure FreesExactly (s : Session) (p : Nat) (m' : Mm) : Prop where
  allocation : ∀ n, (p, n) ∈ s.live → ∃ a, p = s.mm.start + a * blockSize ∧
    (∀ j, a ≤ j → j < a + n → ¬ s.mm.FreeAt j ∧ m'.FreeAt j) ∧
    (∀ j, j < a ∨ a + n ≤ j → m'.bitmap[j]? = s.mm.bitmap[j]?) ∧
    m'.blocksUsed + n = s.mm.blocksUsed ∧ m'.start = s.mm.start ∧
    m'.blockQty = s.mm.blockQty ∧ m'.current = s.mm.current
  otherwise : (∀ n, (p, n) ∉ s.live) → m' = s.mm

namespace Mm

/-- The entry begins a group. -/
def BeginsAt (m : Mm) (i : Nat) : Prop :=
  m.bitmap[i]? = some .singleBlock ∨ m.bitmap[i]? = some .startBoundary

/-- NULL, an unaligned pointer, a pointer into the blocks; or one whose index is in the bitmap,
where no group begins. -/
def Harmless (m : Mm) (p : Nat) : Prop :=
  p = 0 ∨ p % blockSize ≠ 0 ∨ (m.start ≤ p ∧ p < m.start + m.blockQty * blockSize) ∨
    (m.blockIndex p < m.blockQty ∧ ¬ m.BeginsAt (m.blockIndex p))

end Mm

/-- Calls that free no pointer but harmless ones. -/
def CarefulStep (s : Session) (call : Call) (t : Session) : Prop :=
  CallStep s call t ∧ ∀ memory, call = .freeMemory memory → s.mm.Harmless memory.toNat

/-- Where a group begins there is one. -/
theorem Valid.groupAt (valid : Valid m) (begins : m.BeginsAt a) : ∃ n, GroupAt m.bitmap a n := by
  rcases begins with here | here
  · obtain ⟨pre, rest, rfl, split, _⟩ := valid.split here fun _ => rfl
    rw [split]
    exact ⟨1, .of_append Nat.one_pos⟩
  · obtain ⟨pre, inner, post, rfl, split⟩ := valid.long_group here
    rw [split]
    exact ⟨inner + 2, .of_append (Nat.succ_pos _)⟩

theorem GroupAt.begins (here : GroupAt m.bitmap a n) : m.BeginsAt a := by
  have first := here.first
  by_cases single : n = 1
  · exact .inl (by simpa [single] using first)
  · exact .inr (by simpa [single] using first)

/-- What was handed out starts inside the region. -/
theorem Kept.inside (kept : Kept s) (member : (p, n) ∈ s.live) :
    s.mm.start ≤ p ∧ p < s.mm.start + s.mm.blockQty * blockSize := by
  obtain ⟨a, rfl, here⟩ := (kept.live p n).mp member
  obtain ⟨inside, _⟩ := List.getElem?_eq_some_iff.mp here.first
  rw [kept.valid.length] at inside
  unfold blockSize
  omega

/-- The region itself: an allocation that begins there goes, or nothing does. -/
theorem Kept.frees (kept : Kept s) (low : s.mm.start ≤ p)
    (high : p < s.mm.start + s.mm.blockQty * blockSize) :
    ∃ m', s.mm.freeMemory p = some m' ∧ FreesExactly s p m' := by
  obtain ⟨m', done, which⟩ := kept.valid.freeMemory low high
  refine ⟨m', done, ?_⟩
  rcases which with ⟨rfl, nothing⟩ | ⟨a, n, rfl, frees⟩
  · refine ⟨?_, fun _ => rfl⟩
    intro n member
    obtain ⟨a, same, here⟩ := (kept.live p n).mp member
    exact absurd here (nothing a n same)
  · have placed := frees.placed
    constructor
    · intro k member
      obtain ⟨b, same, here⟩ := (kept.live _ k).mp member
      obtain rfl : a = b := by
        unfold blockSize at same
        omega
      obtain rfl := here.length_unique placed.groupAt
      refine ⟨a, rfl, ?_, fun j apart => (placed.elsewhere apart).symm, frees.blocksUsed,
        frees.start, frees.blockQty, frees.current⟩
      exact fun j after before => ⟨here.taken after before, placed.free after before⟩
    · intro dead
      exact absurd ((kept.live _ n).mpr ⟨a, rfl, placed.groupAt⟩) (dead n)

/-- What is not freed does not change. -/
theorem Kept.spared (kept : Kept s) (same : s.mm.freeMemory p = some s.mm)
    (outside : ¬ (s.mm.start ≤ p ∧ p < s.mm.start + s.mm.blockQty * blockSize)) :
    ∃ m', s.mm.freeMemory p = some m' ∧ FreesExactly s p m' :=
  ⟨s.mm, same, fun _ member => absurd (kept.inside member) outside, fun _ => rfl⟩

/-- Outside the region, an index where no group begins is passed over. -/
theorem Valid.freeMemory_passes (valid : Valid m) (aligned : ¬ (p = 0 ∨ p % blockSize ≠ 0))
    (inside : m.blockIndex p < m.blockQty) (inert : ¬ m.BeginsAt (m.blockIndex p)) :
    m.freeMemory p = some m := by
  rw [valid.freeMemory_alias aligned inside]
  obtain ⟨m', done, which⟩ := valid.freeMemory (Nat.le_add_right _ _)
    (Nat.add_lt_add_left (Nat.mul_lt_mul_of_pos_right inside (by decide)) _)
  rcases which with ⟨rfl, _⟩ | ⟨a, n, same, frees⟩
  · exact done
  · have equal : m.blockIndex p = a := by
      unfold blockSize at same
      omega
    rw [equal] at inert
    exact absurd frees.placed.groupAt.begins inert

/-- Outside the region, an index where a group begins frees that group. -/
theorem Valid.freeMemory_strays (valid : Valid m) (aligned : ¬ (p = 0 ∨ p % blockSize ≠ 0))
    (inside : m.blockIndex p < m.blockQty) (begins : m.BeginsAt (m.blockIndex p)) :
    m.freeMemory p ≠ some m := by
  rw [valid.freeMemory_alias aligned inside]
  obtain ⟨m', done, which⟩ := valid.freeMemory (Nat.le_add_right _ _)
    (Nat.add_lt_add_left (Nat.mul_lt_mul_of_pos_right inside (by decide)) _)
  rw [done]
  rintro ⟨⟩
  rcases which with ⟨_, nothing⟩ | ⟨a, n, _, frees⟩
  · obtain ⟨n, here⟩ := valid.groupAt begins
    exact nothing _ n rfl here
  · have fewer := frees.blocksUsed
    have positive := frees.placed.1
    omega

/-- Exactly the harmless pointers are freed as they should be. -/
theorem Kept.freesExactly_iff (kept : Kept s) :
    (∃ m', s.mm.freeMemory p = some m' ∧ FreesExactly s p m') ↔ s.mm.Harmless p := by
  have valid := kept.valid
  by_cases region : s.mm.start ≤ p ∧ p < s.mm.start + s.mm.blockQty * blockSize
  · exact ⟨fun _ => .inr (.inr (.inl region)), fun _ => kept.frees region.1 region.2⟩
  by_cases aligned : p = 0 ∨ p % blockSize ≠ 0
  · refine ⟨fun _ => ?_, fun _ => kept.spared (if_pos aligned) region⟩
    rcases aligned with null | odd
    · exact .inl null
    · exact .inr (.inl odd)
  constructor
  · rintro ⟨m', done, exactly⟩
    obtain rfl := exactly.otherwise fun n member => region (kept.inside member)
    have inside : s.mm.blockIndex p < s.mm.blockQty := by
      by_contra beyond
      rw [valid.freeMemory_outside aligned (Nat.le_of_not_lt beyond)] at done
      cases done
    right; right; right
    exact ⟨inside, fun begins => valid.freeMemory_strays aligned inside begins done⟩
  · rintro (null | odd | inner | ⟨inside, inert⟩)
    · exact absurd (.inl null) aligned
    · exact absurd (.inr odd) aligned
    · exact absurd inner region
    · exact kept.spared (valid.freeMemory_passes aligned inside inert) region

/-! ## Runs -/

/-- A free that was exact leaves an exact list of what is live. -/
theorem Kept.freed (kept : Kept s) (done : s.mm.freeMemory p = some m')
    (exactly : FreesExactly s p m') : Kept ⟨m', s.live.filter fun block => block.1 ≠ p⟩ := by
  by_cases region : s.mm.start ≤ p ∧ p < s.mm.start + s.mm.blockQty * blockSize
  · have within := region
    rw [kept.valid.start, kept.valid.blockQty] at within
    obtain ⟨t, served, after, _⟩ := kept.freeMemory within.1 within.2
    unfold Bitmap.serve at served
    dsimp only at served
    rw [done] at served
    cases served
    exact after
  · obtain rfl := exactly.otherwise fun n member => region (kept.inside member)
    have same : s.live.filter (fun block => block.1 ≠ p) = s.live := by
      apply List.filter_eq_self.mpr
      rintro ⟨q, k⟩ member
      exact decide_eq_true fun equal => region (equal ▸ kept.inside member)
    rw [same]
    exact kept

theorem Kept.careful {call : Call} (kept : Kept s) (step : CarefulStep s call t) : Kept t := by
  obtain ⟨step, careful⟩ := step
  cases call with
  | allocMemory size =>
    by_cases positive : 0 < u32 size.toNat
    · obtain ⟨p, m, done, which⟩ := kept.valid.allocMemory positive
      have result : some _ = some t := (congrArg (Option.map _) done).symm.trans step
      cases result
      rcases which with ⟨rfl, rfl, _⟩ | ⟨a, rfl, _, allocates⟩
      · exact kept
      · dsimp only
        rw [if_neg (kept.valid.address_ne_zero a)]
        exact kept.allocates allocates
    · have done := kept.valid.allocMemory_zero (k := size.toNat) (by omega)
      unfold CallStep perform at step
      dsimp only at step
      rw [done] at step
      split at step
      · cases step
        exact kept
      · cases step
  | freeMemory memory =>
    obtain ⟨m', done, exactly⟩ := kept.freesExactly_iff.mpr (careful memory rfl)
    have result : some _ = some t := (congrArg (Option.map _) done).symm.trans step
    cases result
    exact kept.freed done exactly

theorem kept_of_run (run : Run CarefulStep begin calls s) : Kept s :=
  run.preserves Kept (fun before step => before.careful step) begin_kept

/-- In every state that careful calls reach, exactly the harmless pointers free one live
allocation or nothing. -/
theorem frees_exactly_iff (run : Run CarefulStep begin calls s) (p : UInt64) :
    (∃ m', s.mm.freeMemory p.toNat = some m' ∧ FreesExactly s p.toNat m') ↔
      s.mm.Harmless p.toNat :=
  (kept_of_run run).freesExactly_iff

/-- The first request after `createMemoryManager` is granted the first blocks. -/
theorem first_granted : ∃ s, CallStep begin (.allocMemory 100) s ∧ s.mm.start = 39452672 ∧
    s.mm.blockQty = 8290304 ∧ s.live = [(39452672, 2)] := by
  have valid := createMemoryManager_valid
  have blocks : sizeToBlockQty (u32 (100 : UInt64).toNat) = 2 := by decide
  have whole : Stretch createMemoryManager.FreeAt 0 2 := by
    intro j _ below
    refine begin_free ?_
    rw [blockQty_eq]
    omega
  obtain ⟨p, m, done, which⟩ := valid.allocMemory (k := (100 : UInt64).toNat) (by decide)
  rw [blocks] at which
  rcases which with ⟨_, _, none⟩ | ⟨a, rfl, fit, allocates⟩
  · exact absurd whole (none 0)
  · obtain rfl : a = 0 :=
      fit.unique (.inl ⟨Nat.zero_le _, whole, fun b _ below => absurd below (Nat.not_lt_zero b)⟩)
    have start : createMemoryManager.start + 0 * blockSize = 39452672 := by
      rw [valid.numbers.1, Nat.zero_mul]
    rw [start] at done
    refine ⟨⟨m, [(39452672, 2)]⟩, ?_, allocates.start.trans valid.numbers.1,
      allocates.blockQty.trans blockQty_eq, rfl⟩
    unfold CallStep perform begin
    dsimp only
    rw [done, blocks, Option.map_some]
    dsimp only
    rw [if_neg (by decide)]

/-- What the first request was given is freed. -/
theorem frees_exactly_live : ∃ s, Run CarefulStep begin [.allocMemory 100] s ∧
    (39452672, 2) ∈ s.live ∧
      ∃ m', s.mm.freeMemory 39452672 = some m' ∧ FreesExactly s 39452672 m' := by
  obtain ⟨s, step, start, blockQty, live⟩ := first_granted
  have run : Run CarefulStep begin [.allocMemory 100] s := .single ⟨step, nofun⟩
  have inside : s.mm.Harmless 39452672 := .inr (.inr (.inl (by
    rw [start, blockQty]
    decide)))
  refine ⟨s, run, ?_, (frees_exactly_iff run 39452672).mpr inside⟩
  rw [live]
  exact List.mem_singleton_self _

/-- The address right behind the blocks has no entry. -/
theorem free_behind_blocks : ¬ ∀ calls s, Run CallStep begin calls s → ∀ p : UInt64,
    ∃ m', s.mm.freeMemory p.toNat = some m' ∧ FreesExactly s p.toNat m' := by
  intro claim
  rcases begin_kept.freesExactly_iff.mp (claim [] begin .nil 570032128) with
    null | odd | inside | ⟨inside, _⟩
  · exact absurd null (by decide)
  · exact absurd odd (by decide)
  · exact absurd inside.2 (by decide)
  · exact absurd inside (by decide)

end SoKernel.Bitmap
