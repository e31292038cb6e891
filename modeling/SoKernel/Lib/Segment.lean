import Mathlib.Tactic
import Mathlib.Data.List.Nodup

namespace SoKernel.Lib

universe u v

variable {α : Type u} {β : Type v} {cell cell' : α → Option (β × α)} {a b c x null : α} {value : β}
variable {nodes more : List (α × β)}

/-- Following `cell` from `a` to `b` passes these nodes, each with its value. -/
def Segment (cell : α → Option (β × α)) : α → List (α × β) → α → Prop
  | a, [], b => a = b
  | a, (x, value) :: rest, b =>
    a = x ∧ ∃ next, cell x = some (value, next) ∧ Segment cell next rest b

theorem segment_nil : Segment cell a [] b ↔ a = b := Iff.rfl

theorem segment_cons : Segment cell a ((x, value) :: nodes) b ↔
    a = x ∧ ∃ next, cell x = some (value, next) ∧ Segment cell next nodes b := Iff.rfl

theorem segment_append :
    Segment cell a (nodes ++ more) c ↔ ∃ b, Segment cell a nodes b ∧ Segment cell b more c := by
  induction nodes generalizing a with
  | nil => exact ⟨fun segment => ⟨a, rfl, segment⟩, fun ⟨_, same, segment⟩ => same ▸ segment⟩
  | cons node nodes ih =>
    obtain ⟨x, value⟩ := node
    simp only [List.cons_append, segment_cons]
    constructor
    · rintro ⟨same, next, here, rest⟩
      obtain ⟨b, first, second⟩ := ih.mp rest
      exact ⟨b, ⟨same, next, here, first⟩, second⟩
    · rintro ⟨b, ⟨same, next, here, first⟩, second⟩
      exact ⟨same, next, here, ih.mpr ⟨b, first, second⟩⟩

/-- A segment depends on its own cells only. -/
theorem Segment.frame (segment : Segment cell a nodes b)
    (same : ∀ node ∈ nodes, cell' node.1 = cell node.1) : Segment cell' a nodes b := by
  induction nodes generalizing a with
  | nil => exact segment
  | cons node nodes ih =>
    obtain ⟨start, next, here, rest⟩ := segment
    refine ⟨start, next, ?_, ih rest fun node member => same node (List.mem_cons_of_mem _ member)⟩
    rw [← here]
    exact same node List.mem_cons_self

theorem Segment.live (segment : Segment cell a nodes b) : ∀ node ∈ nodes, cell node.1 ≠ none := by
  induction nodes generalizing a with
  | nil => exact fun _ never => nomatch never
  | cons node nodes ih =>
    obtain ⟨_, next, here, rest⟩ := segment
    intro other member
    rcases List.mem_cons.mp member with rfl | later
    · rw [here]
      exact Option.some_ne_none _
    · exact ih rest other later

/-- The cells determine the nodes up to where nothing is. -/
theorem Segment.unique (ends : cell null = none) (one : Segment cell a nodes null)
    (two : Segment cell a more null) : nodes = more := by
  induction nodes generalizing a more with
  | nil =>
    subst one
    cases more with
    | nil => rfl
    | cons node more =>
      obtain ⟨rfl, next, here, _⟩ := two
      rw [ends] at here
      cases here
  | cons node nodes ih =>
    obtain ⟨rfl, next, here, rest⟩ := one
    cases more with
    | nil =>
      rw [segment_nil.mp two, ends] at here
      cases here
    | cons other more =>
      obtain ⟨same, next', here', rest'⟩ := two
      rw [same, here'] at here
      obtain ⟨values, nexts⟩ := Prod.mk.inj (Option.some.inj here)
      rw [← nexts] at rest
      rw [ih rest rest', Prod.ext same values.symm]

/-- What ends has no cycle. -/
theorem Segment.nodup (ends : cell null = none) (segment : Segment cell a nodes null) :
    (nodes.map Prod.fst).Nodup := by
  induction nodes generalizing a with
  | nil => exact List.nodup_nil
  | cons node nodes ih =>
    have whole := segment
    obtain ⟨rfl, next, here, rest⟩ := segment
    rw [List.map_cons, List.nodup_cons]
    refine ⟨fun member => ?_, ih rest⟩
    obtain ⟨other, again, same⟩ := List.mem_map.mp member
    obtain ⟨before, after, rfl⟩ := List.append_of_mem again
    obtain ⟨b, _, second⟩ := segment_append.mp rest
    have start : b = node.1 := second.1.trans same
    rw [start] at second
    have lengths := congrArg List.length (whole.unique ends second)
    simp only [List.length_cons, List.length_append] at lengths
    omega

theorem Segment.single (here : cell x = some (value, b)) : Segment cell x [(x, value)] b :=
  ⟨rfl, b, here, rfl⟩

/-- The last cell of a segment leads somewhere else. -/
theorem Segment.retarget (segment : Segment cell a (nodes ++ [(x, value)]) b)
    (here : cell' x = some (value, c)) (same : ∀ node ∈ nodes, cell' node.1 = cell node.1) :
    Segment cell' a (nodes ++ [(x, value)]) c := by
  obtain ⟨start, first, rfl, _⟩ := segment_append.mp segment
  exact segment_append.mpr ⟨start, first.frame same, .single here⟩

/-- Where the segment starts. -/
theorem Segment.start (segment : Segment cell a nodes b) :
    a = (nodes.head?.map Prod.fst).getD b := by
  cases nodes with
  | nil => exact segment
  | cons node nodes => exact segment.1

end SoKernel.Lib
