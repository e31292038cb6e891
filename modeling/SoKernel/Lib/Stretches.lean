import Mathlib.Tactic
import Mathlib.Data.Nat.Find

namespace SoKernel.Lib

variable {P : Nat → Prop} {a b cursor i low n seen : Nat}

/-- `P` holds at `n` places in a row, from `a` on. -/
def Stretch (P : Nat → Prop) (a n : Nat) : Prop := ∀ j, a ≤ j → j < a + n → P j

/-- The first `n` places in a row, at `low` or later. -/
structure FirstStretch (P : Nat → Prop) (n low a : Nat) : Prop where
  after : low ≤ a
  here : Stretch P a n
  first : ∀ b, low ≤ b → b < a → ¬ Stretch P b n

/-- The first ones from the cursor on; where there are none, the first of all. -/
def NextFit (P : Nat → Prop) (n cursor a : Nat) : Prop :=
  FirstStretch P n cursor a ∨ (∀ b, cursor ≤ b → ¬ Stretch P b n) ∧ FirstStretch P n 0 a

theorem Stretch.snoc (stretch : Stretch P a n) (next : P (a + n)) : Stretch P a (n + 1) := by
  intro j low high
  rcases Nat.eq_or_lt_of_le (Nat.le_of_lt_succ high) with rfl | earlier
  · exact next
  · exact stretch j low earlier

theorem FirstStretch.unique (one : FirstStretch P n low a) (two : FirstStretch P n low b) :
    a = b := by
  rcases Nat.lt_trichotomy a b with less | same | more
  · exact absurd one.here (two.first a one.after less)
  · exact same
  · exact absurd two.here (one.first b two.after more)

theorem NextFit.here (fit : NextFit P n cursor a) : Stretch P a n := by
  rcases fit with fit | ⟨_, fit⟩
  · exact fit.here
  · exact fit.here

theorem NextFit.unique (one : NextFit P n cursor a) (two : NextFit P n cursor b) : a = b := by
  rcases one with one | ⟨none, one⟩
  · rcases two with two | ⟨none, _⟩
    · exact one.unique two
    · exact absurd one.here (none a one.after)
  · rcases two with two | ⟨_, two⟩
    · exact absurd two.here (none b two.after)
    · exact one.unique two

/-! ## A search that counts -/

/-- A search from `low` has come to place `i`: the last `seen` places are good, and nothing that
it is looking for begins before them. -/
structure Scanned (P : Nat → Prop) (n low seen i : Nat) : Prop where
  after : low + seen ≤ i
  fewer : seen < n
  good : Stretch P (i - seen) seen
  none : ∀ b, low ≤ b → b < i - seen → ¬ Stretch P b n

theorem Scanned.start (needed : 0 < n) : Scanned P n low 0 low where
  after := Nat.le_refl _
  fewer := needed
  good j above below := absurd above (by omega)
  none b above below := absurd above (by omega)

theorem Scanned.grown (scanned : Scanned P n low seen i) (good : P i) :
    Stretch P (i - seen) (seen + 1) := by
  have after := scanned.after
  apply scanned.good.snoc
  rw [Nat.sub_add_cancel (by omega)]
  exact good

theorem Scanned.more (scanned : Scanned P n low seen i) (good : P i) (fewer : seen + 1 < n) :
    Scanned P n low (seen + 1) (i + 1) where
  after := by
    have after := scanned.after
    omega
  fewer := fewer
  good := by
    rw [Nat.add_sub_add_right]
    exact scanned.grown good
  none := by
    rw [Nat.add_sub_add_right]
    exact scanned.none

theorem Scanned.found (scanned : Scanned P n low seen i) (good : P i) (enough : seen + 1 = n) :
    FirstStretch P n low (i + 1 - n) := by
  have after := scanned.after
  have begins : i + 1 - n = i - seen := by omega
  rw [begins]
  refine ⟨by omega, ?_, scanned.none⟩
  rw [← enough]
  exact scanned.grown good

/-- Whatever begins before a bad place and is long enough to reach it is broken. -/
theorem Scanned.restart (scanned : Scanned P n low seen i) (bad : ¬ P i) :
    Scanned P n low 0 (i + 1) where
  after := by
    have after := scanned.after
    omega
  fewer := Nat.zero_lt_of_lt scanned.fewer
  good j above below := absurd above (by omega)
  none := by
    intro b above below stretch
    have fewer := scanned.fewer
    by_cases early : b < i - seen
    · exact scanned.none b above early stretch
    · exact bad (stretch i (by omega) (by omega))

/-- At the end nothing was found. -/
theorem Scanned.done (scanned : Scanned P n low seen i) (bad : ∀ j, i ≤ j → ¬ P j) (b : Nat)
    (later : low ≤ b) : ¬ Stretch P b n := by
  intro stretch
  have fewer := scanned.fewer
  by_cases early : b < i + 1
  · exact (scanned.restart (bad i (Nat.le_refl i))).none b later early stretch
  · exact bad b (by omega) (stretch b (Nat.le_refl b) (by omega))

end SoKernel.Lib
