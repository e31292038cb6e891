import Mathlib.Data.List.Infix

namespace SoKernel.Lib

universe u

variable {α : Type u} {sets clears sets' clears' : α → Prop}
variable [DecidablePred sets] [DecidablePred clears] [DecidablePred sets'] [DecidablePred clears']
variable {labels done : List α} {a : α}

/-- A flag that some labels set and others clear. -/
def latch (sets clears : α → Prop) [DecidablePred sets] [DecidablePred clears] : List α → Bool :=
  List.foldl (fun flag a => if sets a then true else if clears a then false else flag) false

theorem latch_snoc : latch sets clears (done ++ [a]) =
    if sets a then true else if clears a then false else latch sets clears done := by
  unfold latch
  rw [List.foldl_append]
  rfl

/-- No label belongs to both sides, and none clears both. -/
structure Apart (sets clears sets' clears' : α → Prop) : Prop where
  sets : ∀ {a}, sets a ∨ sets' a → ¬ clears a ∧ ¬ clears' a
  clears : ∀ {a}, clears a → ¬ clears' a

namespace Apart

variable (apart : Apart sets clears sets' clears')
include apart

omit [DecidablePred sets] [DecidablePred clears] [DecidablePred sets'] [DecidablePred clears'] in
theorem symm : Apart sets' clears' sets clears :=
  ⟨fun some => (apart.sets some.symm).symm, fun other one => apart.clears one other⟩

omit [DecidablePred sets] [DecidablePred clears] in
/-- The label that clears one flag leaves the other as it was. -/
theorem latch_other (one : clears a) :
    latch sets' clears' (done ++ [a]) = latch sets' clears' done := by
  rw [latch_snoc, if_neg fun other => (apart.sets (.inr other)).1 one, if_neg (apart.clears one)]

omit [DecidablePred sets'] [DecidablePred clears'] in
theorem latch_cleared (one : clears a) : latch sets clears (done ++ [a]) = false := by
  rw [latch_snoc, if_neg fun set => (apart.sets (.inl set)).1 one, if_pos one]

theorem shared_cleared (one : clears a ∨ clears' a) :
    latch (fun a => sets a ∨ sets' a) (fun a => clears a ∨ clears' a) (done ++ [a]) = false := by
  rw [latch_snoc, if_neg fun set => one.elim (apart.sets set).1 (apart.sets set).2, if_pos one]

/-- One more label, with the flag right before it. -/
theorem shared_snoc
    (right : latch (fun a => sets a ∨ sets' a) (fun a => clears a ∨ clears' a) done =
      (latch sets clears done || latch sets' clears' done))
    (alone : clears a → latch sets' clears' done = false)
    (alone' : clears' a → latch sets clears done = false) :
    latch (fun a => sets a ∨ sets' a) (fun a => clears a ∨ clears' a) (done ++ [a]) =
      (latch sets clears (done ++ [a]) || latch sets' clears' (done ++ [a])) := by
  by_cases one : clears a
  · rw [apart.shared_cleared (.inl one), apart.latch_cleared one, apart.latch_other one, alone one]
    rfl
  · by_cases other : clears' a
    · rw [apart.shared_cleared (.inr other), apart.symm.latch_cleared other,
        apart.symm.latch_other other, alone' other]
      rfl
    · rw [latch_snoc, latch_snoc, latch_snoc, if_neg one, if_neg other,
        if_neg (not_or.mpr ⟨one, other⟩), right]
      by_cases set : sets a
      · rw [if_pos (.inl set), if_pos set, Bool.true_or]
      · by_cases set' : sets' a
        · rw [if_pos (.inr set'), if_pos set', Bool.or_true]
        · rw [if_neg (not_or.mpr ⟨set, set'⟩), if_neg set, if_neg set']

/-- One flag shared by two says whether one of them is set, if and only if neither is cleared
while the other is set. -/
theorem shared_iff :
    (∀ done, done <+: labels →
      latch (fun a => sets a ∨ sets' a) (fun a => clears a ∨ clears' a) done =
        (latch sets clears done || latch sets' clears' done)) ↔
    ∀ done a, done ++ [a] <+: labels →
      (clears a → latch sets' clears' done = false) ∧
        (clears' a → latch sets clears done = false) := by
  constructor
  · intro right done a before
    have now := right (done ++ [a]) before
    constructor
    · intro one
      rw [apart.shared_cleared (.inl one), apart.latch_other one] at now
      exact (Bool.or_eq_false_iff.mp now.symm).2
    · intro other
      rw [apart.shared_cleared (.inr other), apart.symm.latch_other other] at now
      exact (Bool.or_eq_false_iff.mp now.symm).1
  · intro alone done
    induction done using List.reverseRecOn with
    | nil => exact fun _ => rfl
    | append_singleton done a ih =>
      intro before
      obtain ⟨one, other⟩ := alone done a before
      exact apart.shared_snoc (ih ((List.prefix_append done [a]).trans before)) one other

end Apart

end SoKernel.Lib
