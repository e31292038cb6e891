import SoKernel.Lib.Buffer

namespace SoKernel.Lib

universe u

variable {α : Type u}

/-! ## Text that is written character by character -/

namespace Buffer

/-- The text was written from `start` on, every place of it, and nothing else. -/
structure Appends (start : Nat) (text : List α) (buffer after : Buffer α) : Prop where
  holds : after.Holds start text
  writes : Writes start (start + text.length) buffer after
  every : ∀ i, start ≤ i → i < start + text.length → i ∈ after.written

variable {buffer middle after : Buffer α} {start size : Nat} {text more : List α} {c : α}

theorem Appends.nothing : Appends start [] buffer buffer where
  holds := holds_nil buffer start
  writes := .refl
  every i low high := by
    rw [List.length_nil] at high
    omega

theorem Appends.single : Appends start [c] buffer (buffer.write start c) where
  holds := (holds_nil buffer start).snoc
  writes := writes_write (Nat.le_refl _) (Nat.lt_succ_self _)
  every i low high := by
    rw [List.length_singleton] at high
    rw [show i = start by omega]
    exact List.mem_cons_self

theorem Writes.logged {low high i : Nat} (writes : Writes low high buffer after)
    (member : i ∈ buffer.written) : i ∈ after.written := by
  obtain ⟨more, log, _⟩ := writes.written
  rw [log]
  exact List.mem_append_right _ member

theorem Appends.append (first : Appends start text buffer middle)
    (second : Appends (start + text.length) more middle after) :
    Appends start (text ++ more) buffer after where
  holds := (first.holds.kept second.writes (.inl (Nat.le_refl _))).append second.holds
  writes := by
    rw [List.length_append]
    exact (first.writes.mono (Nat.le_refl _) (by omega)).trans
      (second.writes.mono (by omega) (by omega))
  every i low high := by
    rw [List.length_append] at high
    by_cases early : i < start + text.length
    · exact second.writes.logged (first.every i low early)
    · exact second.every i (by omega) (by omega)

/-- The writes stay below a bound if and only if the text does. -/
theorem Appends.below_iff (appends : Appends 0 text buffer after) (fresh : buffer.written = []) :
    (∀ i ∈ after.written, i < size) ↔ text.length ≤ size := by
  constructor
  · intro below
    by_contra longer
    have last := below size (appends.every size (Nat.zero_le _) (by omega))
    omega
  · intro fits i member
    obtain ⟨more, log, bounds⟩ := appends.writes.written
    rw [log, fresh, List.append_nil] at member
    have bound := bounds i member
    omega

end Buffer
end SoKernel.Lib
