import Mathlib.Tactic
import Mathlib.Order.Basic

namespace SoKernel.Lib

universe u v w

variable {σ : Type u} {τ : Type v} {α : Type w}

/-- Runs of a labelled transition relation. -/
inductive Run (step : σ → α → σ → Prop) : σ → List α → σ → Prop
  | nil {s} : Run step s [] s
  | cons {s label middle labels t} : step s label middle → Run step middle labels t →
      Run step s (label :: labels) t

variable {step step' : σ → α → σ → Prop} {other : τ → α → τ → Prop}
variable {s t middle : σ} {labels more : List α}

theorem Run.append (first : Run step s labels middle) (second : Run step middle more t) :
    Run step s (labels ++ more) t := by
  induction first with
  | nil => exact second
  | cons one _ ih => exact .cons one (ih second)

theorem Run.single {label : α} (one : step s label t) : Run step s [label] t := .cons one .nil

/-- What every step preserves, every run preserves. -/
theorem Run.preserves (Inv : σ → Prop) (run : Run step s labels t)
    (kept : ∀ {s label t}, Inv s → step s label t → Inv t) (start : Inv s) : Inv t := by
  induction run with
  | nil => exact start
  | cons one _ ih => exact ih (kept start one)

/-- What every step takes out of a budget, a run takes out of it. -/
theorem Run.spends (Inv : σ → Prop) (budget : σ → Nat) (cost : α → Nat) (run : Run step s labels t)
    (kept : ∀ {s label t}, Inv s → step s label t → Inv t ∧ cost label + budget t ≤ budget s)
    (start : Inv s) : Inv t ∧ (labels.map cost).sum + budget t ≤ budget s := by
  induction run with
  | nil => exact ⟨start, by simp⟩
  | cons one _ ih =>
    obtain ⟨next, first⟩ := kept start one
    obtain ⟨last, rest⟩ := ih next
    refine ⟨last, ?_⟩
    rw [List.map_cons, List.sum_cons]
    omega

/-- A run of the smaller relation is a run of the larger one. -/
theorem Run.mono (run : Run step s labels t)
    (wider : ∀ {s label t}, step s label t → step' s label t) : Run step' s labels t := by
  induction run with
  | nil => exact .nil
  | cons one _ ih => exact .cons (wider one) ih

/-- What holds of every label holds at every step. -/
theorem Run.with_labels {P : α → Prop} (run : Run step s labels t)
    (all : ∀ label ∈ labels, P label) :
    Run (fun s label t => step s label t ∧ P label) s labels t := by
  induction run with
  | nil => exact .nil
  | cons one _ ih =>
    exact .cons ⟨one, all _ List.mem_cons_self⟩
      (ih fun label member => all label (List.mem_cons_of_mem _ member))

/-- A forward simulation carries over to runs. -/
theorem Run.simulate (R : σ → τ → Prop) {s' : τ} (run : Run step s labels t)
    (follows : ∀ {s label t s'}, R s s' → step s label t → ∃ t', other s' label t' ∧ R t t')
    (start : R s s') : ∃ t', Run other s' labels t' ∧ R t t' := by
  induction run generalizing s' with
  | nil => exact ⟨s', .nil, start⟩
  | cons one _ ih =>
    obtain ⟨middle, step, related⟩ := follows start one
    obtain ⟨t', rest, last⟩ := ih related
    exact ⟨t', .cons step rest, last⟩

/-- Two runs with the same labels stay related when every pair of steps does. -/
theorem Run.lockstep (R : σ → τ → Prop) {s' t' : τ} (run : Run step s labels t)
    (run' : Run other s' labels t')
    (kept : ∀ {s label t s' t'}, R s s' → step s label t → other s' label t' → R t t')
    (start : R s s') : R t t' := by
  induction run generalizing s' with
  | nil =>
    cases run'
    exact start
  | cons one _ ih =>
    cases run' with
    | cons one' rest' => exact ih rest' (kept start one one')

end SoKernel.Lib
