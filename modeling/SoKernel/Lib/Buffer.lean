import Mathlib.Tactic
import Mathlib.Logic.Function.Basic

namespace SoKernel.Lib

universe u

/-- An array, what lies behind it, and the indices that were written, the last one first. -/
structure Buffer (α : Type u) where
  char : Nat → α
  written : List Nat

namespace Buffer

variable {α : Type u}

def write (i : Nat) (c : α) (buffer : Buffer α) : Buffer α where
  char := Function.update buffer.char i c
  written := i :: buffer.written

/-- The text stands in the array from `start` on. -/
def Holds (buffer : Buffer α) (start : Nat) (text : List α) : Prop :=
  ∀ j (inside : j < text.length), buffer.char (start + j) = text[j]

/-- What the array holds from `start` on. -/
def slice (buffer : Buffer α) (start size : Nat) : List α :=
  (List.range size).map fun j => buffer.char (start + j)

/-- Only indices from `low` on and below `high` were written. -/
structure Writes (low high : Nat) (buffer after : Buffer α) : Prop where
  other : ∀ i, i < low ∨ high ≤ i → after.char i = buffer.char i
  written : ∃ more, after.written = more ++ buffer.written ∧ ∀ i ∈ more, low ≤ i ∧ i < high

variable {buffer middle after : Buffer α} {start size low high low' high' i : Nat}
variable {text more : List α} {c : α}

theorem write_char (j : Nat) :
    (buffer.write i c).char j = if j = i then c else buffer.char j :=
  Function.update_apply _ _ _ _

theorem holds_nil (buffer : Buffer α) (start : Nat) : buffer.Holds start [] :=
  fun j inside => absurd inside (Nat.not_lt_zero j)

theorem Holds.snoc (holds : buffer.Holds start text) :
    (buffer.write (start + text.length) c).Holds start (text ++ [c]) := by
  intro j inside
  rw [write_char]
  by_cases last : j = text.length
  · simp [last]
  · rw [List.length_append, List.length_singleton] at inside
    rw [if_neg (by omega), holds j (by omega), List.getElem_append_left (by omega)]

theorem Holds.append (first : buffer.Holds start text)
    (second : buffer.Holds (start + text.length) more) : buffer.Holds start (text ++ more) := by
  intro j inside
  rw [List.length_append] at inside
  by_cases early : j < text.length
  · rw [first j early, List.getElem_append_left early]
  · have there := second (j - text.length) (by omega)
    rw [show start + text.length + (j - text.length) = start + j by omega] at there
    rw [there, List.getElem_append_right (by omega)]

/-- What was not written is still there. -/
theorem Holds.kept (holds : buffer.Holds start text) (writes : Writes low high buffer after)
    (apart : start + text.length ≤ low ∨ high ≤ start) : after.Holds start text := by
  intro j inside
  rw [writes.other _ (by omega), holds j inside]

theorem Writes.refl : Writes low high buffer buffer where
  other _ _ := rfl
  written := ⟨[], rfl, fun _ never => nomatch never⟩

theorem Writes.trans (first : Writes low high buffer middle)
    (second : Writes low high middle after) : Writes low high buffer after where
  other i outside := (second.other i outside).trans (first.other i outside)
  written := by
    obtain ⟨earlier, log, bounds⟩ := first.written
    obtain ⟨later, log', bounds'⟩ := second.written
    refine ⟨later ++ earlier, by rw [log', log, List.append_assoc], ?_⟩
    intro i member
    rcases List.mem_append.mp member with here | there
    · exact bounds' i here
    · exact bounds i there

theorem Writes.mono (writes : Writes low high buffer after) (below : low' ≤ low)
    (above : high ≤ high') : Writes low' high' buffer after where
  other i outside := writes.other i (by omega)
  written := by
    obtain ⟨more, log, bounds⟩ := writes.written
    refine ⟨more, log, fun i member => ?_⟩
    have bound := bounds i member
    omega

theorem writes_write (lower : low ≤ i) (upper : i < high) :
    Writes low high buffer (buffer.write i c) where
  other j outside := by rw [write_char, if_neg (by omega)]
  written := by
    refine ⟨[i], rfl, fun j member => ?_⟩
    rw [List.mem_singleton] at member
    omega

theorem Writes.write (writes : Writes low high buffer after) (lower : low ≤ i) (upper : i < high) :
    Writes low high buffer (after.write i c) :=
  writes.trans (writes_write lower upper)

/-- A slice begins with the text that stands there. -/
theorem Holds.slice (holds : buffer.Holds start text) (enough : text.length ≤ size) :
    ∃ rest, buffer.slice start size = text ++ rest := by
  refine ⟨(buffer.slice start size).drop text.length, ?_⟩
  have same : (buffer.slice start size).take text.length = text := by
    apply List.ext_getElem
    · rw [List.length_take, Buffer.slice, List.length_map, List.length_range]
      omega
    · intro j before inside
      rw [List.getElem_take]
      simp only [Buffer.slice, List.getElem_map, List.getElem_range]
      exact holds j inside
  calc buffer.slice start size = (buffer.slice start size).take text.length ++
        (buffer.slice start size).drop text.length := (List.take_append_drop _ _).symm
    _ = text ++ (buffer.slice start size).drop text.length := by rw [same]

end Buffer
end SoKernel.Lib
