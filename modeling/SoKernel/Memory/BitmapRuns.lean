import SoKernel.Memory.BitmapIntegrity

namespace SoKernel.Bitmap

/-! ## Runs of requests -/

/-- Any size, and any address of the managed region. -/
inductive Request where
  | allocMemory (size : Nat) (positive : 1 ≤ size) (small : size < 2 ^ 32)
  | freeMemory (p : Nat) (low : createMemoryManager.start ≤ p)
      (high : p < createMemoryManager.start + createMemoryManager.blockQty * blockSize)

/-- The allocator, and what it has handed out and not got back: addresses with their blocks. -/
structure Session where
  mm : Mm
  live : List (Nat × Nat)

/-- The address that is returned, and the state after it; `none` where an access leaves the
bitmap. -/
def serve : Request → Session → Option (Nat × Session)
  | .allocMemory size _ _, s =>
    (s.mm.allocMemory size).map fun (p, m) =>
      (p, ⟨m, if p = 0 then s.live else (p, sizeToBlockQty size) :: s.live⟩)
  | .freeMemory p _ _, s =>
    (s.mm.freeMemory p).map fun m => (0, ⟨m, s.live.filter fun block => block.1 ≠ p⟩)

def exec : List Request → Session → Option Session
  | [], s => some s
  | request :: requests, s => (serve request s).bind fun (_, t) => exec requests t

/-- After `createMemoryManager`. -/
def begin : Session := ⟨createMemoryManager, []⟩

variable {s t : Session} {p q n k : Nat} {request : Request} {requests : List Request}

/-- The blocks from `p` and those from `q` do not meet. -/
def Apart (p n q k : Nat) : Prop := p + n * blockSize ≤ q ∨ q + k * blockSize ≤ p

/-- What holds between requests. -/
structure Integrity (s : Session) : Prop where
  length : s.mm.bitmap.length = s.mm.blockQty
  grammar : Grammar s.mm.bitmap
  blocksUsed : s.mm.blocksUsed = s.mm.bitmap.countP (· ≠ .free)
  current : s.mm.current ≤ s.mm.blockQty
  /-- What has been handed out are the groups of the bitmap. -/
  live : ∀ p n, (p, n) ∈ s.live ↔ ∃ a, p = s.mm.start + a * blockSize ∧ GroupAt s.mm.bitmap a n
  apart : ∀ block ∈ s.live, ∀ other ∈ s.live, block ≠ other →
    Apart block.1 block.2 other.1 other.2

/-- What a request does: an allocation is made of free entries and meets no other one; freeing
an address frees the entries of the group that begins there and no others. -/
def Serves : Request → Session → Nat → Session → Prop
  | .allocMemory size _ _, s, p, t => (p = 0 ∧ t = s) ∨
    ∃ a, p = s.mm.start + a * blockSize ∧ size ≤ sizeToBlockQty size * blockSize ∧
      a + sizeToBlockQty size ≤ s.mm.blockQty ∧
      (∀ j, a ≤ j → j < a + sizeToBlockQty size → s.mm.bitmap[j]? = some .free) ∧
      GroupAt t.mm.bitmap a (sizeToBlockQty size) ∧
      ∀ block ∈ s.live, Apart p (sizeToBlockQty size) block.1 block.2
  | .freeMemory p _ _, s, _, t => t = s ∨
    ∃ a n, p = s.mm.start + a * blockSize ∧ GroupAt s.mm.bitmap a n ∧
      (∀ j, a ≤ j → j < a + n → t.mm.bitmap[j]? = some .free) ∧
      ∀ j, j < a ∨ a + n ≤ j → t.mm.bitmap[j]? = s.mm.bitmap[j]?

/-- The invariant of a run. -/
structure Kept (s : Session) : Prop where
  valid : Valid s.mm
  live : ∀ p n, (p, n) ∈ s.live ↔ ∃ a, p = s.mm.start + a * blockSize ∧ GroupAt s.mm.bitmap a n

theorem GroupAt.apart {entries : List Entry} {start a b : Nat} (here : GroupAt entries a n)
    (other : GroupAt entries b k) (different : ¬ (a = b ∧ n = k)) :
    Apart (start + a * blockSize) n (start + b * blockSize) k := by
  have positive := here.1
  have positive' := other.1
  have side : a + n ≤ b ∨ b + k ≤ a := by
    by_contra overlap
    exact different (here.disjoint other (by omega) (by omega))
  unfold Apart blockSize
  omega

theorem Kept.integrity (kept : Kept s) : Integrity s where
  length := kept.valid.length
  grammar := kept.valid.grammar
  blocksUsed := kept.valid.blocksUsed
  current := kept.valid.current
  live := kept.live
  apart := by
    rintro ⟨p, n⟩ first ⟨q, k⟩ second different
    obtain ⟨a, rfl, here⟩ := (kept.live p n).mp first
    obtain ⟨b, rfl, other⟩ := (kept.live q k).mp second
    apply here.apart other
    rintro ⟨rfl, rfl⟩
    exact different rfl

theorem begin_kept : Kept begin where
  valid := createMemoryManager_valid
  live := by
    intro p n
    constructor
    · intro member
      cases member
    · rintro ⟨a, _, here⟩
      have first := here.first
      rw [show begin.mm.bitmap = List.replicate createMemoryManager.blockQty .free from rfl,
        List.getElem?_replicate] at first
      split at first
      · split at first <;> cases first
      · cases first

/-- What was handed out comes before what the next allocation hands out. -/
theorem Kept.allocates {m : Mm} {a : Nat} (kept : Kept s) (allocates : Allocates a n s.mm m) :
    Kept ⟨m, (s.mm.start + a * blockSize, n) :: s.live⟩ := by
  refine ⟨allocates.valid kept.valid, ?_⟩
  intro q k
  rw [List.mem_cons, kept.live]
  simp only [allocates.start, allocates.placed.groupAt_iff, Prod.mk.injEq]
  constructor
  · rintro (⟨rfl, rfl⟩ | ⟨b, rfl, here⟩)
    · exact ⟨a, rfl, .inr ⟨rfl, rfl⟩⟩
    · exact ⟨b, rfl, .inl here⟩
  · rintro ⟨b, rfl, here | ⟨rfl, rfl⟩⟩
    · exact .inr ⟨b, rfl, here⟩
    · exact .inl ⟨rfl, rfl⟩

theorem Valid.address_ne_zero {m : Mm} (valid : Valid m) (a : Nat) :
    m.start + a * blockSize ≠ 0 := by
  have start := valid.numbers.1
  omega

theorem Kept.allocMemory {size : Nat} (kept : Kept s) (positive : 1 ≤ size) (small : size < 2 ^ 32) :
    ∃ p t, serve (.allocMemory size positive small) s = some (p, t) ∧ Kept t ∧
      Serves (.allocMemory size positive small) s p t := by
  obtain ⟨p, m, done, which⟩ := kept.valid.allocMemory (k := size)
    (by rw [u32_small small]; exact positive)
  rw [u32_small small] at which
  refine ⟨p, _, congrArg (Option.map _) done, ?_⟩
  rcases which with ⟨rfl, rfl, _⟩ | ⟨a, rfl, _, allocates⟩
  · exact ⟨kept, .inl ⟨rfl, rfl⟩⟩
  · have placed := allocates.placed
    rw [if_neg (kept.valid.address_ne_zero a)]
    refine ⟨kept.allocates allocates, .inr ⟨a, rfl, (sizeToBlockQty_covers size).1, ?_, ?_,
      placed.groupAt, ?_⟩⟩
    · rw [← kept.valid.length]
      exact placed.length.2
    · exact fun j low high => placed.free low high
    · rintro ⟨q, k⟩ member
      obtain ⟨b, rfl, here⟩ := (kept.live q k).mp member
      refine placed.groupAt.apart (placed.groupAt_iff.mpr (.inl here)) ?_
      rintro ⟨rfl, rfl⟩
      exact here.taken (Nat.le_refl _) (by have := here.1; omega)
        (placed.free (Nat.le_refl _) (by have := here.1; omega))

theorem Kept.freeMemory (kept : Kept s) (low : createMemoryManager.start ≤ p)
    (high : p < createMemoryManager.start + createMemoryManager.blockQty * blockSize) :
    ∃ t, serve (.freeMemory p low high) s = some (0, t) ∧ Kept t ∧
      Serves (.freeMemory p low high) s 0 t := by
  obtain ⟨m, done, which⟩ := kept.valid.freeMemory (p := p) (by rw [kept.valid.start]; exact low)
    (by rw [kept.valid.start, kept.valid.blockQty]; exact high)
  refine ⟨_, congrArg (Option.map _) done, ?_⟩
  have remaining : ∀ q k, (q, k) ∈ s.live.filter (fun block => block.1 ≠ p) ↔
      (q, k) ∈ s.live ∧ q ≠ p := by
    simp [List.mem_filter]
  rcases which with ⟨rfl, nothing⟩ | ⟨a, n, rfl, frees⟩
  · have same : s.live.filter (fun block => block.1 ≠ p) = s.live := by
      apply List.filter_eq_self.mpr
      rintro ⟨q, k⟩ member
      obtain ⟨a, rfl, here⟩ := (kept.live q k).mp member
      exact decide_eq_true fun equal => nothing a k equal.symm here
    rw [same]
    exact ⟨kept, .inl rfl⟩
  · have placed := frees.placed
    refine ⟨⟨frees.valid kept.valid, ?_⟩, .inr ⟨a, n, rfl, placed.groupAt, fun j low high =>
      placed.free low high, fun j apart => (placed.elsewhere apart).symm⟩⟩
    intro q k
    rw [remaining, kept.live]
    simp only [frees.start, placed.groupAt_iff]
    constructor
    · rintro ⟨⟨b, rfl, here | ⟨rfl, rfl⟩⟩, other⟩
      · exact ⟨b, rfl, here⟩
      · exact absurd rfl other
    · rintro ⟨b, rfl, here⟩
      refine ⟨⟨b, rfl, .inl here⟩, ?_⟩
      intro same
      have equal : b = a := by
        unfold blockSize at same
        omega
      subst equal
      exact here.taken (Nat.le_refl _) (by have := here.1; omega)
        (placed.free (Nat.le_refl _) (by have := placed.1; omega))

/-- A request never leaves the bitmap, and keeps the invariant. -/
theorem Kept.serve (kept : Kept s) (request : Request) :
    ∃ p t, serve request s = some (p, t) ∧ Kept t ∧ Serves request s p t := by
  cases request with
  | allocMemory size positive small => exact kept.allocMemory positive small
  | freeMemory p low high =>
    obtain ⟨t, done, after, serves⟩ := kept.freeMemory low high
    exact ⟨0, t, done, after, serves⟩

theorem Kept.exec (kept : Kept s) (requests : List Request) :
    ∃ t, exec requests s = some t ∧ Kept t := by
  induction requests generalizing s with
  | nil => exact ⟨s, rfl, kept⟩
  | cons request requests ih =>
    obtain ⟨p, middle, first, between, _⟩ := kept.serve request
    obtain ⟨t, rest, after⟩ := ih between
    refine ⟨t, ?_, after⟩
    unfold Bitmap.exec
    rw [first]
    exact rest

/-- Any requests, in any order: each access is inside the bitmap, and the bitmap stays in order
before and after each of them. -/
theorem bitmap_integrity (requests : List Request) (request : Request) :
    ∃ s p t, exec requests begin = some s ∧ serve request s = some (p, t) ∧
      Integrity s ∧ Integrity t ∧ Serves request s p t := by
  obtain ⟨s, run, before⟩ := begin_kept.exec requests
  obtain ⟨p, t, done, after, serves⟩ := before.serve request
  exact ⟨s, p, t, run, done, before.integrity, after.integrity, serves⟩

end SoKernel.Bitmap
