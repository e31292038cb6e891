import Mathlib.Tactic
import Mathlib.Data.List.Nodup

namespace SoKernel.Lib

variable {α : Type} {null : α} {next prev next' prev' : α → α}
variable {back head x : α} {items before after : List α}

/-- `head` starts the null-terminated doubly linked list `items`, and the first
node's backward link is `back`. -/
def Linked (null : α) (next prev : α → α) : α → α → List α → Prop
  | _, head, [] => head = null
  | back, head, x :: rest =>
    head = x ∧ x ≠ null ∧ prev x = back ∧ Linked null next prev x (next x) rest

/-- A list depends on the links of its own nodes only. -/
theorem Linked.frame (linked : Linked null next prev back head items)
    (forward : ∀ y ∈ items, next' y = next y) (backward : ∀ y ∈ items, prev' y = prev y) :
    Linked null next' prev' back head items := by
  induction items generalizing back head with
  | nil => exact linked
  | cons first rest ih =>
    obtain ⟨same, present, previous, tail⟩ := linked
    refine ⟨same, present, by rw [backward first (by simp), previous], ?_⟩
    rw [forward first (by simp)]
    exact ih tail (fun y member => forward y (by simp [member]))
      (fun y member => backward y (by simp [member]))

theorem Linked.head_eq (linked : Linked null next prev back head (x :: items)) : head = x :=
  linked.1

theorem Linked.eq_nil_iff (linked : Linked null next prev back head items) :
    head = null ↔ items = [] := by
  cases items with
  | nil => exact ⟨fun _ => rfl, fun _ => linked⟩
  | cons first rest =>
    obtain ⟨rfl, present, _, _⟩ := linked
    simp [present]

/-- The links determine the list. -/
theorem Linked.unique (one : Linked null next prev back head items)
    (two : Linked null next prev back head after) : items = after := by
  induction items generalizing back head after with
  | nil => exact (two.eq_nil_iff.mp one).symm
  | cons first rest ih =>
    cases after with
    | nil => exact one.eq_nil_iff.mp two
    | cons other tail =>
      obtain ⟨rfl, _, _, left⟩ := one
      obtain ⟨rfl, _, _, right⟩ := two
      rw [ih left right]

/-- Link a new node in front. -/
theorem Linked.push (linked : Linked null next prev null head items) (present : x ≠ null)
    (fresh : x ∉ items) (forward : next' x = head) (front : prev' x = null)
    (relinked : head ≠ null → prev' head = x)
    (nexts : ∀ y ∈ items, next' y = next y) (prevs : ∀ y ∈ items, y ≠ head → prev' y = prev y)
    (unique : items.Nodup) : Linked null next' prev' null x (x :: items) := by
  refine ⟨rfl, present, front, ?_⟩
  rw [forward]
  cases items with
  | nil => exact linked
  | cons first rest =>
    obtain ⟨rfl, nonnull, _, tail⟩ := linked
    have absent := (List.nodup_cons.mp unique).1
    refine ⟨rfl, nonnull, relinked nonnull, ?_⟩
    rw [nexts head (by simp)]
    exact tail.frame (fun y member => nexts y (by simp [member]))
      (fun y member => prevs y (by simp [member]) (by rintro rfl; exact absent member))

/-- Take the first node off. -/
theorem Linked.pop (linked : Linked null next prev null head (x :: items))
    (relinked : next x ≠ null → prev' (next x) = null)
    (nexts : ∀ y ∈ items, next' y = next y) (prevs : ∀ y ∈ items, y ≠ next x → prev' y = prev y)
    (unique : items.Nodup) : Linked null next' prev' null (next x) items := by
  obtain ⟨_, _, _, tail⟩ := linked
  cases items with
  | nil => exact tail
  | cons first rest =>
    obtain ⟨same, nonnull, _, remaining⟩ := tail
    have absent := (List.nodup_cons.mp unique).1
    rw [same] at relinked prevs ⊢
    refine ⟨rfl, nonnull, relinked nonnull, ?_⟩
    rw [nexts first (by simp)]
    exact remaining.frame (fun y member => nexts y (by simp [member]))
      (fun y member => prevs y (by simp [member]) (by rintro rfl; exact absent member))

/-- The neighbours of an inner node: what precedes it, or `back`. -/
theorem Linked.prev_mem (linked : Linked null next prev back head (before ++ x :: after)) :
    (before = [] ∧ prev x = back) ∨ prev x ∈ before := by
  induction before generalizing back head with
  | nil => exact .inl ⟨rfl, linked.2.2.1⟩
  | cons first rest ih =>
    obtain ⟨_, _, _, tail⟩ := linked
    right
    rcases ih tail with ⟨_, same⟩ | member
    · simp [same]
    · simp [member]

theorem Linked.next_mem (linked : Linked null next prev back head (before ++ x :: after)) :
    next x = null ∨ next x ∈ after := by
  induction before generalizing back head with
  | nil =>
    obtain ⟨_, _, _, tail⟩ := linked
    cases after with
    | nil => exact .inl tail
    | cons first rest => simp [tail.head_eq]
  | cons first rest ih => exact ih linked.2.2.2

/-- Take any node out: its neighbours are linked to each other. -/
theorem Linked.unlink [DecidableEq α]
    (linked : Linked null next prev back head (before ++ x :: after))
    (unique : (before ++ x :: after).Nodup) (outside : back ∉ before ++ x :: after)
    (nexts : ∀ y ∈ before ++ after, next' y = if y = prev x then next x else next y)
    (prevs : ∀ y ∈ before ++ after, prev' y = if y = next x then prev x else prev y) :
    Linked null next' prev' back (if before = [] then next x else head) (before ++ after) := by
  induction before generalizing back head with
  | nil =>
    obtain ⟨_, _, previous, tail⟩ := linked
    have inner : (x :: after).Nodup := unique
    have keptNext : ∀ y ∈ after, next' y = next y := by
      intro y member
      have other : y ≠ prev x := by rintro rfl; exact outside (by simp [← previous, member])
      simpa [other] using nexts y (by simpa using member)
    cases after with
    | nil => exact tail
    | cons first rest =>
      obtain ⟨same, nonnull, _, remaining⟩ := tail
      have absent : first ∉ rest := (List.nodup_cons.mp (List.nodup_cons.mp inner).2).1
      refine ⟨by simpa using same, nonnull, ?_, ?_⟩
      · simpa [← same, previous] using prevs first (by simp)
      · rw [keptNext first (by simp)]
        refine remaining.frame (fun y member => keptNext y (by simp [member])) ?_
        intro y member
        have other : y ≠ next x := by rw [same]; rintro rfl; exact absent member
        simpa [other] using prevs y (by simp [member])
  | cons first rest ih =>
    have nextCases := linked.next_mem
    have whole := linked
    obtain ⟨same, nonnull, previous, tail⟩ := linked
    have parts : (first :: (rest ++ x :: after)).Nodup := unique
    have absent := (List.nodup_cons.mp parts).1
    have inner := (List.nodup_cons.mp parts).2
    have shorter := ih tail inner absent (fun y member => nexts y (by simp_all))
      (fun y member => prevs y (by simp_all))
    refine ⟨by simpa using same, nonnull, ?_, ?_⟩
    · have other : first ≠ next x := by
        rcases nextCases with none | member
        · rw [none]; exact nonnull
        · rintro rfl; exact absent (by simp [member])
      simpa [other, previous] using prevs first (by simp)
    · have forward : next' first = if rest = [] then next x else next first := by
        rcases tail.prev_mem with ⟨empty, link⟩ | member
        · simpa [empty, link] using nexts first (by simp)
        · have other : first ≠ prev x := by rintro rfl; exact absent (by simp [member])
          have filled : rest ≠ [] := List.ne_nil_of_mem member
          simpa [other, filled] using nexts first (by simp)
      rw [forward]
      exact shorter

end SoKernel.Lib
