import Mathlib.Tactic
import Mathlib.Algebra.BigOperators.Group.Finset.Basic
import Mathlib.Order.Interval.Finset.Nat
import Mathlib.Algebra.Order.BigOperators.Group.Finset

namespace SoKernel.Lib

/-- The `(start, size)` pairs of `piece` partition the interval `[lo, hi)`. -/
structure Tiles (lo hi : Nat) (piece : Nat → Nat → Prop) : Prop where
  positive : ∀ {a n}, piece a n → 0 < n
  inside : ∀ {a n}, piece a n → lo ≤ a ∧ a + n ≤ hi
  disjoint : ∀ {a n b m}, piece a n → piece b m → a < b + m → b < a + n → a = b ∧ n = m
  cover : ∀ {x}, lo ≤ x → x < hi → ∃ a n, piece a n ∧ a ≤ x ∧ x < a + n

variable {lo hi a b n m x : Nat} {piece changed : Nat → Nat → Prop}

theorem Tiles.whole (nonempty : lo < hi) :
    Tiles lo hi (fun a n => a = lo ∧ n = hi - lo) where
  positive := by rintro a n ⟨rfl, rfl⟩; omega
  inside := by rintro a n ⟨rfl, rfl⟩; omega
  disjoint := by rintro a n b m ⟨rfl, rfl⟩ ⟨rfl, rfl⟩ _ _; exact ⟨rfl, rfl⟩
  cover := by intro x above below; exact ⟨lo, hi - lo, ⟨rfl, rfl⟩, above, by omega⟩

theorem Tiles.congr (tiles : Tiles lo hi piece) (same : ∀ b k, changed b k ↔ piece b k) :
    Tiles lo hi changed := by
  have equal : changed = piece := funext fun b => funext fun k => propext (same b k)
  rw [equal]
  exact tiles

theorem Tiles.size_unique (tiles : Tiles lo hi piece) (first : piece a n) (second : piece a m) :
    n = m := by
  have wide := tiles.positive first
  have other := tiles.positive second
  exact (tiles.disjoint first second (by omega) (by omega)).2

/-- Only a piece itself contains its start. -/
theorem Tiles.start_unique (tiles : Tiles lo hi piece) (first : piece a n) (second : piece b m)
    (after : b ≤ a) (before : a < b + m) : b = a := by
  have wide := tiles.positive first
  exact (tiles.disjoint first second before (by omega)).1.symm

/-- Where a piece ends inside the interval, another piece begins. -/
theorem Tiles.next (tiles : Tiles lo hi piece) (present : piece a n) (room : a + n < hi) :
    ∃ m, piece (a + n) m := by
  obtain ⟨start, size, found, after, before⟩ :=
    tiles.cover (Nat.le_trans (tiles.inside present).1 (Nat.le_add_right a n)) room
  have exact_start : start = a + n := by
    by_contra different
    obtain ⟨same, width⟩ := tiles.disjoint present found (by omega) (by omega)
    omega
  exact ⟨size, exact_start ▸ found⟩

/-- Cutting one piece in two keeps the partition. -/
theorem Tiles.split (tiles : Tiles lo hi piece) (present : piece a (n + m))
    (left : 0 < n) (right : 0 < m)
    (cut : ∀ b k, changed b k ↔ (piece b k ∧ b ≠ a) ∨ (b = a ∧ k = n) ∨ (b = a + n ∧ k = m)) :
    Tiles lo hi changed := by
  have bounds := tiles.inside present
  -- A surviving piece lies wholly to one side of the piece that was cut.
  have apart : ∀ {b k}, piece b k → b ≠ a → b + k ≤ a ∨ a + (n + m) ≤ b := by
    intro b k other different
    by_contra overlap
    exact different (tiles.disjoint other present (by omega) (by omega)).1
  refine ⟨?_, ?_, ?_, ?_⟩
  · intro b k found
    rcases (cut b k).mp found with ⟨old, _⟩ | ⟨_, rfl⟩ | ⟨_, rfl⟩
    · exact tiles.positive old
    · exact left
    · exact right
  · intro b k found
    rcases (cut b k).mp found with ⟨old, _⟩ | ⟨rfl, rfl⟩ | ⟨rfl, rfl⟩
    · exact tiles.inside old
    · omega
    · omega
  · intro b k c j first second below above
    rcases (cut b k).mp first with ⟨old, different⟩ | ⟨rfl, rfl⟩ | ⟨rfl, rfl⟩ <;>
      rcases (cut c j).mp second with ⟨other, distinct⟩ | ⟨rfl, rfl⟩ | ⟨rfl, rfl⟩
    · exact tiles.disjoint old other below above
    · rcases apart old different with left | right <;> omega
    · rcases apart old different with left | right <;> omega
    · rcases apart other distinct with left | right <;> omega
    · omega
    · omega
    · rcases apart other distinct with left | right <;> omega
    · omega
    · omega
  · intro x low high
    obtain ⟨b, k, found, after, before⟩ := tiles.cover low high
    by_cases same : b = a
    · subst same
      have width := tiles.size_unique found present
      by_cases half : x < b + n
      · exact ⟨b, n, (cut b n).mpr (.inr (.inl ⟨rfl, rfl⟩)), after, half⟩
      · exact ⟨b + n, m, (cut (b + n) m).mpr (.inr (.inr ⟨rfl, rfl⟩)), by omega, by omega⟩
    · exact ⟨b, k, (cut b k).mpr (.inl ⟨found, same⟩), after, before⟩

/-- Joining two neighbouring pieces keeps the partition. -/
theorem Tiles.merge (tiles : Tiles lo hi piece) (left : piece a n) (right : piece (a + n) m)
    (joined : ∀ b k, changed b k ↔
      (piece b k ∧ b ≠ a ∧ b ≠ a + n) ∨ (b = a ∧ k = n + m)) :
    Tiles lo hi changed := by
  have lower := tiles.inside left
  have upper := tiles.inside right
  have wide := tiles.positive left
  have tall := tiles.positive right
  have apart : ∀ {b k}, piece b k → b ≠ a → b ≠ a + n → b + k ≤ a ∨ a + n + m ≤ b := by
    intro b k other first second
    have one : b + k ≤ a ∨ a + n ≤ b := by
      by_contra overlap
      exact first (tiles.disjoint other left (by omega) (by omega)).1
    have two : b + k ≤ a + n ∨ a + n + m ≤ b := by
      by_contra overlap
      exact second (tiles.disjoint other right (by omega) (by omega)).1
    have size := tiles.positive other
    omega
  refine ⟨?_, ?_, ?_, ?_⟩
  · intro b k found
    rcases (joined b k).mp found with ⟨old, _, _⟩ | ⟨_, rfl⟩
    · exact tiles.positive old
    · omega
  · intro b k found
    rcases (joined b k).mp found with ⟨old, _, _⟩ | ⟨rfl, rfl⟩
    · exact tiles.inside old
    · omega
  · intro b k c j first second below above
    rcases (joined b k).mp first with ⟨old, one, two⟩ | ⟨rfl, rfl⟩ <;>
      rcases (joined c j).mp second with ⟨other, three, four⟩ | ⟨rfl, rfl⟩
    · exact tiles.disjoint old other below above
    · rcases apart old one two with left | right <;> omega
    · rcases apart other three four with left | right <;> omega
    · omega
  · intro x low high
    obtain ⟨b, k, found, after, before⟩ := tiles.cover low high
    have whole : changed a (n + m) := (joined a (n + m)).mpr (.inr ⟨rfl, rfl⟩)
    by_cases first : b = a
    · subst first
      have width := tiles.size_unique found left
      exact ⟨b, n + m, whole, after, by omega⟩
    · by_cases second : b = a + n
      · subst second
        have width := tiles.size_unique found right
        exact ⟨a, n + m, whole, by omega, by omega⟩
      · exact ⟨b, k, (joined b k).mpr (.inl ⟨found, first, second⟩), after, before⟩

/-- Distinct pieces have as many points as their sizes add up to. -/
theorem Tiles.sum_eq_card (tiles : Tiles lo hi piece) {items : List (Nat × Nat)}
    (unique : items.Nodup) (pieces : ∀ entry ∈ items, piece entry.1 entry.2) :
    (items.toFinset.biUnion fun entry => Finset.Ico entry.1 (entry.1 + entry.2)).card =
      (items.map Prod.snd).sum := by
  have apart : ∀ one ∈ items.toFinset, ∀ two ∈ items.toFinset, one ≠ two →
      Disjoint (Finset.Ico one.1 (one.1 + one.2)) (Finset.Ico two.1 (two.1 + two.2)) := by
    intro one first two second different
    rw [Finset.disjoint_left]
    intro x inOne inTwo
    rw [Finset.mem_Ico] at inOne inTwo
    rw [List.mem_toFinset] at first second
    obtain ⟨start, size⟩ := tiles.disjoint (pieces one first) (pieces two second)
      (by omega) (by omega)
    exact different (Prod.ext start size)
  rw [Finset.card_biUnion apart, ← List.sum_toFinset Prod.snd unique]
  simp

/-- Distinct pieces do not add up to more than the interval. -/
theorem Tiles.sum_le (tiles : Tiles lo hi piece) {items : List (Nat × Nat)} (unique : items.Nodup)
    (pieces : ∀ entry ∈ items, piece entry.1 entry.2) :
    (items.map Prod.snd).sum ≤ hi - lo := by
  have covered : items.toFinset.biUnion (fun entry => Finset.Ico entry.1 (entry.1 + entry.2)) ⊆
      Finset.Ico lo hi := by
    intro x member
    obtain ⟨entry, present, inside⟩ := Finset.mem_biUnion.mp member
    have bounds := tiles.inside (pieces entry (List.mem_toFinset.mp present))
    rw [Finset.mem_Ico] at inside ⊢
    omega
  have count := Finset.card_le_card covered
  rwa [tiles.sum_eq_card unique pieces, Nat.card_Ico] at count

/-- All pieces together add up to the interval. -/
theorem Tiles.sum_eq (tiles : Tiles lo hi piece) {items : List (Nat × Nat)} (unique : items.Nodup)
    (pieces : ∀ entry, entry ∈ items ↔ piece entry.1 entry.2) :
    (items.map Prod.snd).sum = hi - lo := by
  apply Nat.le_antisymm
  · exact tiles.sum_le unique fun entry => (pieces entry).mp
  · have covered : Finset.Ico lo hi ⊆
        items.toFinset.biUnion fun entry => Finset.Ico entry.1 (entry.1 + entry.2) := by
      intro x member
      obtain ⟨low, high⟩ := Finset.mem_Ico.mp member
      obtain ⟨a, n, found, after, before⟩ := tiles.cover low high
      exact Finset.mem_biUnion.mpr ⟨(a, n), List.mem_toFinset.mpr ((pieces (a, n)).mpr found),
        Finset.mem_Ico.mpr ⟨after, before⟩⟩
    have count := Finset.card_le_card covered
    rwa [tiles.sum_eq_card unique fun entry => (pieces entry).mp, Nat.card_Ico] at count

end SoKernel.Lib
