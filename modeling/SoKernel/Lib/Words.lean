import Mathlib.Data.List.TakeWhile

namespace SoKernel.Lib

universe u

variable {α : Type u} [DecidableEq α] {sep : α} {text run rest : List α}

/-- The maximal runs of a text without `sep`. -/
def words (sep : α) (text : List α) : List (List α) := (text.splitOn sep).filter (· ≠ [])

@[simp] theorem words_nil : words sep [] = [] := by simp [words, List.splitOn_nil]

theorem words_cons_sep : words sep (sep :: text) = words sep text := by
  have parts := List.splitOn_append_cons_self (a := sep) [] text
  rw [List.nil_append, List.splitOn_nil] at parts
  unfold words
  rw [parts]
  simp

theorem words_run (some : run ≠ []) (clean : sep ∉ run) : words sep run = [run] := by
  unfold words
  rw [List.splitOn_eq_singleton clean]
  simp [some]

theorem words_run_sep (some : run ≠ []) (clean : sep ∉ run) :
    words sep (run ++ sep :: rest) = run :: words sep rest := by
  unfold words
  rw [List.splitOn_append_cons_self, List.splitOn_eq_singleton clean]
  simp [some]

/-- A text is a run without `sep`, or begins with one that `sep` ends. -/
theorem run_induction (sep : α) {P : List α → Prop} (last : ∀ run, sep ∉ run → P run)
    (first : ∀ run rest, sep ∉ run → P rest → P (run ++ sep :: rest)) (text : List α) :
    P text := by
  induction size : text.length using Nat.strongRecOn generalizing text with
  | ind n ih =>
    subst size
    by_cases member : sep ∈ text
    · obtain ⟨run, rest, rfl, clean⟩ := List.eq_append_cons_of_mem member
      exact first run rest clean (ih rest.length (by simp; omega) rest rfl)
    · exact last text member

/-- The first of the parts ends at the first `sep`. -/
theorem splitOn_run (clean : sep ∉ run) :
    (run ++ sep :: rest).splitOn sep = run :: rest.splitOn sep := by
  rw [List.splitOn_append_cons_self, List.splitOn_eq_singleton clean, List.singleton_append]

/-- Separators in front do not count. -/
theorem words_dropWhile : words sep (text.dropWhile fun a => a = sep) = words sep text := by
  induction text with
  | nil => rfl
  | cons a text ih =>
    by_cases same : a = sep
    · subst same
      rw [words_cons_sep, ← ih]
      simp
    · simp [same]

/-- A text that begins with a run: the run, and what comes after it. -/
theorem exists_first_run (full : text ≠ []) (starts : text.head? ≠ some sep) :
    ∃ run rest, text = run ++ rest ∧ run ≠ [] ∧ sep ∉ run ∧ (∀ a ∈ rest.head?, a = sep) ∧
      words sep text = run :: words sep rest := by
  obtain ⟨run, here⟩ : ∃ run, run = text.takeWhile fun a => a ≠ sep := ⟨_, rfl⟩
  obtain ⟨rest, after⟩ : ∃ rest, rest = text.dropWhile fun a => a ≠ sep := ⟨_, rfl⟩
  have split : text = run ++ rest := by rw [here, after, List.takeWhile_append_dropWhile]
  have clean : sep ∉ run := by
    intro member
    rw [here] at member
    simpa using List.mem_takeWhile_imp member
  have ends : ∀ a ∈ rest.head?, a = sep := by
    intro a first
    have stopped := List.head?_dropWhile_not (fun a => a ≠ sep) text
    rw [← after, Option.mem_def.mp first] at stopped
    simpa using stopped
  have some : run ≠ [] := by
    rintro rfl
    rw [List.nil_append] at split
    rw [← split] at ends
    cases text with
    | nil => exact full rfl
    | cons a text => exact starts (congrArg Option.some (ends a rfl))
  refine ⟨run, rest, split, some, clean, ends, ?_⟩
  cases rest with
  | nil => rw [split, List.append_nil, words_run some clean, words_nil]
  | cons a rest =>
    obtain rfl := ends a rfl
    rw [split, words_run_sep some clean, words_cons_sep]

/-- A run is not empty, and made of other characters of the text. -/
theorem mem_words (member : run ∈ words sep text) :
    run ≠ [] ∧ sep ∉ run ∧ ∀ a ∈ run, a ∈ text := by
  induction size : text.length using Nat.strongRecOn generalizing text with
  | ind n ih =>
    subst size
    by_cases full : text = []
    · rw [full, words_nil] at member
      cases member
    by_cases starts : text.head? = some sep
    · obtain ⟨rest, rfl⟩ := List.head?_eq_some_iff.mp starts
      rw [words_cons_sep] at member
      obtain ⟨some, clean, inside⟩ := ih rest.length (by simp) member rfl
      exact ⟨some, clean, fun a here => List.mem_cons_of_mem _ (inside a here)⟩
    · obtain ⟨first, rest, rfl, some, clean, _, all⟩ := exists_first_run full starts
      rw [all] at member
      rcases List.mem_cons.mp member with rfl | later
      · exact ⟨some, clean, fun a here => List.mem_append_left _ here⟩
      · have positive := List.length_pos_iff.mpr some
        obtain ⟨some, clean, inside⟩ := ih rest.length (by simp; omega) later rfl
        exact ⟨some, clean, fun a here => List.mem_append_right _ (inside a here)⟩

end SoKernel.Lib
