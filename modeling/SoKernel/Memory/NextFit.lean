import SoKernel.Memory.BitmapCalls

namespace SoKernel.Bitmap
open Buddy Lib

variable {s : Session} {m m' : Mm} {a k n p size : Nat} {calls : List Call}

/-! ## Which blocks an allocation gets -/

/-- `p` answers a request for `n` bytes: NULL where there are not so many FREE blocks in a row,
else the first of them from `current` on, else the first of all. -/
structure CompleteNextFit (m : Mm) (n p : Nat) : Prop where
  refused : p = 0 ↔ ∀ a, ¬ Stretch m.FreeAt a (sizeToBlockQty n)
  fromCurrent : ∀ a, FirstStretch m.FreeAt (sizeToBlockQty n) m.current a →
    p = m.start + a * blockSize
  fromStart : (∀ b, m.current ≤ b → ¬ Stretch m.FreeAt b (sizeToBlockQty n)) →
    ∀ a, FirstStretch m.FreeAt (sizeToBlockQty n) 0 a → p = m.start + a * blockSize

theorem completeNextFit_of_none (none : ∀ a, ¬ Stretch m.FreeAt a (sizeToBlockQty n)) :
    CompleteNextFit m n 0 where
  refused := ⟨fun _ => none, fun _ => rfl⟩
  fromCurrent a first := absurd first.here (none a)
  fromStart _ a first := absurd first.here (none a)

theorem Valid.completeNextFit (valid : Valid m)
    (fit : NextFit m.FreeAt (sizeToBlockQty n) m.current a) :
    CompleteNextFit m n (m.start + a * blockSize) where
  refused := by
    constructor
    · intro null
      exact absurd null (valid.address_ne_zero a)
    · intro none
      exact absurd fit.here (none a)
  fromCurrent := by
    intro b first
    rw [fit.unique (.inl first)]
  fromStart := by
    intro none b first
    rw [fit.unique (.inr ⟨none, first⟩)]

/-- In every state that calls reach, a request of 1 to 2^32 - 1 bytes is served by next fit. -/
theorem next_fit_complete (run : Run CallStep begin calls s) (positive : 1 ≤ n)
    (small : n < 2 ^ 32) :
    ∃ p m', s.mm.allocMemory n = some (p, m') ∧ CompleteNextFit s.mm n p := by
  have valid := valid_of_run run
  obtain ⟨p, m', done, which⟩ :=
    valid.allocMemory (k := n) (by rw [u32_small small]; exact positive)
  rw [u32_small small] at which
  refine ⟨p, m', done, ?_⟩
  rcases which with ⟨rfl, _, none⟩ | ⟨a, rfl, fit, _⟩
  · exact completeNextFit_of_none none
  · exact valid.completeNextFit fit

/-- A page, right after `createMemoryManager`. -/
theorem next_fit_complete_page : ∃ p m', begin.mm.allocMemory 4096 = some (p, m') ∧
    CompleteNextFit begin.mm 4096 p :=
  next_fit_complete .nil (by decide) (by decide)

/-! ## How many blocks an allocation gets -/

/-- A request for `size` bytes changes nothing, or takes as many FREE blocks as the bytes need
and no others. -/
def ExactReservation (m : Mm) (size : Nat) : Prop :=
  ∃ p m', m.allocMemory size = some (p, m') ∧
    ((p = 0 ∧ m' = m) ∨ ∃ a, p = m.start + a * blockSize ∧
      size ≤ sizeToBlockQty size * blockSize ∧ a + sizeToBlockQty size ≤ m.blockQty ∧
      (∀ j, a ≤ j → j < a + sizeToBlockQty size →
        m.FreeAt j ∧ j < m'.bitmap.length ∧ ¬ m'.FreeAt j) ∧
      ∀ j, j < a ∨ a + sizeToBlockQty size ≤ j → m'.bitmap[j]? = m.bitmap[j]?)

/-- The size fits 32 bits and is not 0; or no blocks are there for what 32 bits leave of it; or
they leave nothing of it and the search for zero blocks fails. -/
def Narrowable (m : Mm) (size : Nat) : Prop :=
  (0 < size ∧ size < 2 ^ 32) ∨
    (0 < u32 size ∧ ∀ a, ¬ Stretch m.FreeAt a (sizeToBlockQty (u32 size))) ∨
    (u32 size = 0 ∧ m.LastFree)

theorem Allocates.reserves (allocates : Allocates a (sizeToBlockQty size) m m') (valid : Valid m) :
    a + sizeToBlockQty size ≤ m.blockQty ∧
      (∀ j, a ≤ j → j < a + sizeToBlockQty size →
        m.FreeAt j ∧ j < m'.bitmap.length ∧ ¬ m'.FreeAt j) ∧
      ∀ j, j < a ∨ a + sizeToBlockQty size ≤ j → m'.bitmap[j]? = m.bitmap[j]? := by
  have placed := allocates.placed
  obtain ⟨same, inside⟩ := placed.length
  refine ⟨by rw [← valid.length]; exact inside, ?_, fun j apart => placed.elsewhere apart⟩
  intro j low high
  exact ⟨placed.free low high, by omega, placed.groupAt.taken low high⟩

/-- A size of more than 32 bits needs more blocks than there are. -/
theorem Valid.too_large (valid : Valid m) (large : 2 ^ 32 ≤ size) :
    m.blockQty < sizeToBlockQty size := by
  have qty := valid.numbers.2.1
  have covers := (sizeToBlockQty_covers size).1
  unfold blockSize at covers
  omega

/-- Exactly these requests are served exactly. -/
theorem Valid.exactReservation_iff (valid : Valid m) :
    ExactReservation m size ↔ Narrowable m size := by
  by_cases positive : 0 < u32 size
  · obtain ⟨p, m', done, which⟩ := valid.allocMemory positive
    rcases which with ⟨rfl, rfl, none⟩ | ⟨a, rfl, fit, allocates⟩
    · exact ⟨fun _ => .inr (.inl ⟨positive, none⟩), fun _ => ⟨0, _, done, .inl ⟨rfl, rfl⟩⟩⟩
    · constructor
      · rintro ⟨p, m'', done', which⟩
        rw [done] at done'
        cases done'
        rcases which with ⟨null, _⟩ | ⟨b, _, _, inside, _⟩
        · exact absurd null (valid.address_ne_zero a)
        · left
          have small : size < 2 ^ 32 := by
            by_contra large
            have more := valid.too_large (Nat.le_of_not_lt large)
            omega
          rw [u32_small small] at positive
          exact ⟨positive, small⟩
      · rintro (⟨_, small⟩ | ⟨_, none⟩ | ⟨zero, _⟩)
        · rw [u32_small small] at allocates
          obtain ⟨inside, taken, others⟩ := allocates.reserves valid
          exact ⟨_, m', done, .inr ⟨a, rfl, (sizeToBlockQty_covers size).1, inside, taken, others⟩⟩
        · exact absurd fit.here (none a)
        · omega
  · have zero : u32 size = 0 := by omega
    have done := valid.allocMemory_zero zero
    constructor
    · rintro ⟨p, m', done', _⟩
      right; right
      refine ⟨zero, ?_⟩
      by_contra last
      rw [done, if_neg last] at done'
      cases done'
    · rintro (⟨some, small⟩ | ⟨some, _⟩ | ⟨_, last⟩)
      · rw [u32_small small] at zero
        omega
      · omega
      · rw [if_pos last] at done
        exact ⟨0, m, done, .inl ⟨rfl, rfl⟩⟩

/-- In every state that calls reach, for every size. -/
theorem exact_reservation_iff (run : Run CallStep begin calls s) (size : UInt64) :
    ExactReservation s.mm size.toNat ↔ Narrowable s.mm size.toNat :=
  (valid_of_run run).exactReservation_iff

theorem exact_reservation_page : ExactReservation begin.mm 4096 ↔ Narrowable begin.mm 4096 :=
  exact_reservation_iff .nil 4096

/-- In a fresh heap every block is FREE. -/
theorem begin_free (inside : a < createMemoryManager.blockQty) : begin.mm.FreeAt a :=
  List.getElem?_replicate_of_lt inside

/-- A request for 4 GiB and one byte gets one block. -/
theorem narrowed_request : ¬ ∀ calls s, Run CallStep begin calls s →
    ∀ size : UInt64, ExactReservation s.mm size.toNat := by
  intro claim
  have served := createMemoryManager_valid.exactReservation_iff.mp (claim [] begin .nil 4294967297)
  rcases served with ⟨_, small⟩ | ⟨_, none⟩ | ⟨zero, _⟩
  · exact absurd small (by decide)
  · apply none 0
    intro j _ below
    exact begin_free (by
      rw [blockQty_eq]
      change j < 0 + 1 at below
      omega)
  · exact absurd zero (by decide)

/-! ## Where the blocks lie -/

/-- The blocks between the bitmap and the end of the heap. -/
def heapBlocks : Nat := (heapEndAddress + 1 - createMemoryManager.start) / blockSize

/-- What a request for `n` bytes gets lies inside the heap, and not in the bitmap. -/
def StaysInHeap (m : Mm) (n : Nat) : Prop :=
  ∀ p m', m.allocMemory n = some (p, m') → p ≠ 0 →
    heapStartAddress ≤ p ∧ p + sizeToBlockQty n * blockSize ≤ heapEndAddress + 1 ∧
      (heapStartAddress + 4 * m.blockQty ≤ p ∨ p + sizeToBlockQty n * blockSize ≤ heapStartAddress)

/-- The blocks that come next end with the heap or before. -/
def FitsInHeap (m : Mm) (n : Nat) : Prop :=
  ∀ a, NextFit m.FreeAt (sizeToBlockQty n) m.current a → a + sizeToBlockQty n ≤ heapBlocks

theorem heapBlocks_eq : heapBlocks = 7772160 := rfl

/-- A range is inside the heap exactly when its last block is. -/
theorem Valid.inHeap_iff (valid : Valid m) : (heapStartAddress ≤ m.start + a * blockSize ∧
      m.start + a * blockSize + k * blockSize ≤ heapEndAddress + 1 ∧
      (heapStartAddress + 4 * m.blockQty ≤ m.start + a * blockSize ∨
        m.start + a * blockSize + k * blockSize ≤ heapStartAddress)) ↔ a + k ≤ heapBlocks := by
  obtain ⟨start, qty, _, _⟩ := valid.numbers
  rw [heapBlocks_eq, start, qty]
  unfold heapStartAddress heapEndAddress blockSize
  omega

theorem Valid.staysInHeap_iff (valid : Valid m) (positive : 1 ≤ n) (small : n < 2 ^ 32) :
    StaysInHeap m n ↔ FitsInHeap m n := by
  obtain ⟨p, m', done, which⟩ :=
    valid.allocMemory (k := n) (by rw [u32_small small]; exact positive)
  rw [u32_small small] at which
  rcases which with ⟨rfl, _, none⟩ | ⟨a, rfl, fit, _⟩
  · constructor
    · intro _ b other
      exact absurd other.here (none b)
    · intro _ p' m'' done' some
      rw [done] at done'
      cases done'
      exact absurd rfl some
  · constructor
    · intro stays b other
      rw [← fit.unique other]
      exact valid.inHeap_iff.mp (stays _ _ done (valid.address_ne_zero a))
    · intro fits p' m'' done' _
      rw [done] at done'
      cases done'
      exact valid.inHeap_iff.mpr (fits a fit)

/-- In every state that calls reach. -/
theorem stays_in_heap_iff (run : Run CallStep begin calls s) (positive : 1 ≤ n)
    (small : n < 2 ^ 32) : StaysInHeap s.mm n ↔ FitsInHeap s.mm n :=
  (valid_of_run run).staysInHeap_iff positive small

theorem stays_in_heap_page : StaysInHeap begin.mm 4096 ↔ FitsInHeap begin.mm 4096 :=
  stays_in_heap_iff .nil (by decide) (by decide)

/-- The block count ignores what the bitmap takes: all blocks together end 33 MB behind the
heap. -/
theorem heap_overrun : ¬ ∀ calls s, Run CallStep begin calls s →
    ∀ n, 1 ≤ n → n < 2 ^ 32 → StaysInHeap s.mm n := by
  intro claim
  have stays := claim [] begin .nil 530579456 (by decide) (by decide)
  have blocks : sizeToBlockQty 530579456 = 8290304 := rfl
  have whole : Stretch begin.mm.FreeAt 0 (sizeToBlockQty 530579456) := by
    intro j _ below
    rw [blocks] at below
    exact begin_free (by rw [blockQty_eq]; omega)
  have fits := (createMemoryManager_valid.staysInHeap_iff (by decide) (by decide)).mp stays 0
    (.inl ⟨Nat.zero_le _, whole, fun b _ below => absurd below (Nat.not_lt_zero b)⟩)
  rw [blocks, heapBlocks_eq] at fits
  omega

end SoKernel.Bitmap
