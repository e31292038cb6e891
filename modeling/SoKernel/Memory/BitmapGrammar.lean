import SoKernel.Memory.Bitmap
import Mathlib.Data.List.Basic

namespace SoKernel.Bitmap

/-! ## The groups of a bitmap -/

/-- The entries of `n` blocks that were allocated together. -/
def group (n : Nat) : List Entry :=
  if n = 1 then [.singleBlock]
  else .startBoundary :: (List.replicate (n - 2) .used ++ [.endBoundary])

/-- Free blocks and groups, one after the other. -/
inductive Grammar : List Entry → Prop
  | nil : Grammar []
  | free {rest : List Entry} : Grammar rest → Grammar (.free :: rest)
  | group {rest : List Entry} {n : Nat} : 0 < n → Grammar rest → Grammar (group n ++ rest)

variable {entries before after rest pre post : List Entry} {inside : Bool} {a b i j n m : Nat}

theorem group_two (inner : Nat) :
    group (inner + 2) = .startBoundary :: (List.replicate inner .used ++ [.endBoundary]) :=
  if_neg (by omega)

theorem group_length (positive : 0 < n) : (group n).length = n := by
  match n with
  | 1 => rfl
  | inner + 2 => simp [group_two]

theorem group_taken : ∀ entry ∈ group n, entry ≠ .free := by
  intro entry member
  unfold group at member
  split at member
  · simp at member
    simp [member]
  · simp at member
    rcases member with same | ⟨_, same⟩ | same
    · simp [same]
    · simp [same]
    · simp [same]

/-! ## The grammar, read from left to right -/

/-- Whether the entries end inside a group, when they begin inside or outside of one. -/
def parse : Bool → List Entry → Option Bool
  | inside, [] => some inside
  | false, .free :: rest | false, .singleBlock :: rest => parse false rest
  | false, .startBoundary :: rest => parse true rest
  | true, .used :: rest => parse true rest
  | true, .endBoundary :: rest => parse false rest
  | _, _ :: _ => none

theorem parse_append : parse inside (before ++ after) =
    (parse inside before).bind fun inside => parse inside after := by
  induction before generalizing inside with
  | nil => rfl
  | cons entry rest ih => cases inside <;> cases entry <;> simp [parse, ih]

theorem parse_used (inner : Nat) : parse true (List.replicate inner .used) = some true := by
  induction inner with
  | zero => rfl
  | succ inner ih => simpa [List.replicate_succ, parse] using ih

theorem parse_free (n : Nat) : parse false (List.replicate n .free) = some false := by
  induction n with
  | zero => rfl
  | succ n ih => simpa [List.replicate_succ, parse] using ih

theorem parse_group (positive : 0 < n) : parse false (group n) = some false := by
  match n with
  | 1 => rfl
  | inner + 2 => simp [group_two, parse, parse_append, parse_used]

/-- Inside a group its end follows. -/
theorem parse_inside (accepted : parse true entries = some false) :
    ∃ inner rest, entries = List.replicate inner .used ++ .endBoundary :: rest ∧
      parse false rest = some false := by
  induction entries with
  | nil => cases accepted
  | cons entry entries ih =>
    cases entry with
    | used =>
      obtain ⟨inner, rest, split, accepted⟩ := ih accepted
      refine ⟨inner + 1, rest, ?_, accepted⟩
      simp [split, List.replicate_succ]
    | endBoundary => exact ⟨0, entries, rfl, accepted⟩
    | free => cases accepted
    | startBoundary => cases accepted
    | singleBlock => cases accepted

theorem Grammar.accepted (grammar : Grammar entries) : parse false entries = some false := by
  induction grammar with
  | nil => rfl
  | free _ ih => exact ih
  | group positive _ ih => rw [parse_append, parse_group positive, Option.bind_some, ih]

theorem grammar_of_parse (accepted : parse false entries = some false) : Grammar entries := by
  induction length : entries.length using Nat.strongRecOn generalizing entries with
  | ind size ih =>
    subst length
    cases entries with
    | nil => exact .nil
    | cons entry entries =>
      cases entry with
      | free => exact .free (ih _ (by simp) accepted rfl)
      | singleBlock =>
        exact .group Nat.one_pos (ih entries.length (by simp) accepted rfl)
      | startBoundary =>
        obtain ⟨inner, rest, rfl, rests⟩ := parse_inside accepted
        have shorter : rest.length < (Entry.startBoundary ::
            (List.replicate inner .used ++ .endBoundary :: rest)).length := by
          simp
          omega
        have grammar := Grammar.group (Nat.succ_pos (inner + 1)) (ih _ shorter rests rfl)
        rw [group_two] at grammar
        simpa using grammar
      | used => cases accepted
      | endBoundary => cases accepted

/-- The grammar is what the automaton accepts. -/
theorem grammar_iff : Grammar entries ↔ parse false entries = some false :=
  ⟨Grammar.accepted, grammar_of_parse⟩

theorem grammar_free (n : Nat) : Grammar (List.replicate n .free) := grammar_of_parse (parse_free n)

/-- What stands before an entry that no group contains is complete. -/
theorem Grammar.split (grammar : Grammar (pre ++ after))
    (outside : parse true after ≠ some false) :
    parse false pre = some false ∧ parse false after = some false := by
  have accepted := grammar.accepted
  rw [parse_append] at accepted
  cases inside : parse false pre with
  | none => simp [inside] at accepted
  | some inside' =>
    cases inside' with
    | true =>
      rw [inside, Option.bind_some] at accepted
      exact absurd accepted outside
    | false =>
      rw [inside, Option.bind_some] at accepted
      exact ⟨rfl, accepted⟩

/-! ## Where a group stands -/

/-- The `n` entries from `a` on are a group. -/
def GroupAt (entries : List Entry) (a n : Nat) : Prop :=
  0 < n ∧ ∀ j < n, entries[a + j]? = (group n)[j]?

theorem group_first (positive : 0 < n) :
    (group n)[0]? = some (if n = 1 then .singleBlock else .startBoundary) := by
  match n with
  | 1 => rfl
  | inner + 2 => simp [group_two]

theorem group_next (later : 0 < j) (inner : j < n) :
    (group n)[j]? = some (if j + 1 = n then .endBoundary else .used) := by
  match n, j with
  | 1, j + 1 => omega
  | inner' + 2, j + 1 =>
    rw [group_two, List.getElem?_cons_succ]
    by_cases last : j = inner'
    · simp [last]
    · have used : j < inner' := by omega
      simp [List.getElem?_append_left, used, last]

namespace GroupAt

theorem of_append (positive : 0 < n) : GroupAt (pre ++ (group n ++ post)) pre.length n := by
  refine ⟨positive, ?_⟩
  intro j below
  rw [List.getElem?_append_right (Nat.le_add_right _ _), Nat.add_sub_cancel_left,
    List.getElem?_append_left (by rw [group_length positive]; exact below)]

theorem first (here : GroupAt entries a n) :
    entries[a]? = some (if n = 1 then .singleBlock else .startBoundary) :=
  (here.2 0 here.1).trans (group_first here.1)

theorem next (here : GroupAt entries a n) (later : a < j) (inner : j < a + n) :
    entries[j]? = some (if j + 1 = a + n then .endBoundary else .used) := by
  have entry := here.2 (j - a) (by omega)
  rw [group_next (by omega) (by omega)] at entry
  rw [show j = a + (j - a) by omega, entry]
  congr 1
  split <;> split <;> first | rfl | omega

theorem taken (here : GroupAt entries a n) (after : a ≤ j) (before : j < a + n) :
    entries[j]? ≠ some .free := by
  intro free
  rcases Nat.eq_or_lt_of_le after with rfl | later
  · rw [here.first] at free
    split at free <;> cases free
  · rw [here.next later before] at free
    split at free <;> cases free

/-- Only the first entry of a group begins one. -/
theorem starts (here : GroupAt entries a n) (other : GroupAt entries b m) (after : a ≤ b)
    (before : b < a + n) : a = b := by
  by_contra different
  have inner := here.next (by omega) before
  rw [other.first] at inner
  split at inner <;> split at inner <;> cases inner

theorem length_unique (here : GroupAt entries a n) (other : GroupAt entries a m) : n = m := by
  by_contra different
  have first := here.first
  rw [other.first] at first
  have positive := here.1
  have positive' := other.1
  by_cases single : n = 1 ∨ m = 1
  · split at first <;> split at first <;> first | omega | cases first
  · rcases Nat.lt_or_gt_of_ne different with shorter | shorter
    · have last := here.next (j := a + n - 1) (by omega) (by omega)
      rw [other.next (by omega) (by omega), if_neg (by omega), if_pos (by omega)] at last
      cases last
    · have last := other.next (j := a + m - 1) (by omega) (by omega)
      rw [here.next (by omega) (by omega), if_neg (by omega), if_pos (by omega)] at last
      cases last

/-- Two groups are the same or apart. -/
theorem disjoint (here : GroupAt entries a n) (other : GroupAt entries b m) (below : a < b + m)
    (above : b < a + n) : a = b ∧ n = m := by
  have same : a = b := by
    rcases Nat.le_total a b with after | after
    · exact here.starts other after above
    · exact (other.starts here after below).symm
  subst same
  exact ⟨rfl, here.length_unique other⟩

theorem congr (here : GroupAt entries a n)
    (same : ∀ j, a ≤ j → j < a + n → after[j]? = entries[j]?) : GroupAt after a n :=
  ⟨here.1, fun j below => (same (a + j) (by omega) (by omega)).trans (here.2 j below)⟩

end GroupAt

/-! ## A group takes the place of free blocks -/

/-- The bitmaps without and with a group of `n` at `i`. -/
def Placed (i n : Nat) (before after : List Entry) : Prop :=
  0 < n ∧ ∃ pre post, pre.length = i ∧ before = pre ++ (List.replicate n .free ++ post) ∧
    after = pre ++ (group n ++ post)

namespace Placed

theorem groupAt (placed : Placed i n before after) : GroupAt after i n := by
  obtain ⟨positive, pre, post, rfl, _, rfl⟩ := placed
  exact .of_append positive

theorem length (placed : Placed i n before after) :
    after.length = before.length ∧ i + n ≤ before.length := by
  obtain ⟨positive, pre, post, rfl, rfl, rfl⟩ := placed
  simp [group_length positive]

theorem free (placed : Placed i n before after) (low : i ≤ j) (high : j < i + n) :
    before[j]? = some .free := by
  obtain ⟨positive, pre, post, rfl, rfl, rfl⟩ := placed
  rw [List.getElem?_append_right low, List.getElem?_append_left (by simp; omega)]
  exact List.getElem?_replicate_of_lt (by omega)

theorem elsewhere (placed : Placed i n before after) (apart : j < i ∨ i + n ≤ j) :
    after[j]? = before[j]? := by
  obtain ⟨positive, pre, post, rfl, rfl, rfl⟩ := placed
  rcases apart with low | high
  · rw [List.getElem?_append_left low, List.getElem?_append_left low]
  · have past : pre.length ≤ j := by omega
    rw [List.getElem?_append_right past, List.getElem?_append_right past,
      List.getElem?_append_right (by rw [group_length positive]; omega),
      List.getElem?_append_right (by simp; omega), group_length positive]
    simp

theorem grammar_iff (placed : Placed i n before after) : Grammar before ↔ Grammar after := by
  obtain ⟨positive, pre, post, rfl, rfl, rfl⟩ := placed
  rw [Bitmap.grammar_iff, Bitmap.grammar_iff, parse_append, parse_append]
  cases parse false pre with
  | none => rfl
  | some inside =>
    cases inside with
    | false => simp [parse_append, parse_free, parse_group positive]
    | true =>
      have no_free : parse true (List.replicate n .free ++ post) = none := by
        obtain ⟨m, rfl⟩ := Nat.exists_eq_succ_of_ne_zero (Nat.pos_iff_ne_zero.mp positive)
        simp [List.replicate_succ, parse]
      have no_group : parse true (group n ++ post) = none := by
        match n with
        | 1 => rfl
        | inner + 2 => simp [group_two, parse]
      simp [no_free, no_group]

theorem count (placed : Placed i n before after) :
    after.countP (· ≠ .free) = before.countP (· ≠ .free) + n := by
  obtain ⟨positive, pre, post, rfl, rfl, rfl⟩ := placed
  have none : (List.replicate n Entry.free).countP (· ≠ .free) = 0 := by simp
  have all : (group n).countP (· ≠ .free) = n := by
    rw [List.countP_eq_length.mpr, group_length positive]
    exact fun entry member => decide_eq_true (group_taken entry member)
  simp only [List.countP_append, none, all]
  omega

/-- It is the only group that comes. -/
theorem groupAt_iff (placed : Placed i n before after) :
    GroupAt after b m ↔ GroupAt before b m ∨ (b = i ∧ m = n) := by
  constructor
  · intro here
    by_cases overlap : b < i + n ∧ i < b + m
    · exact .inr (here.disjoint placed.groupAt overlap.1 overlap.2)
    · refine .inl (here.congr fun j low high => (placed.elsewhere ?_).symm)
      omega
  · rintro (here | ⟨rfl, rfl⟩)
    · refine here.congr fun j low high => placed.elsewhere ?_
      by_contra inside
      exact here.taken low high (placed.free (by omega) (by omega))
    · exact placed.groupAt

end Placed

end SoKernel.Bitmap
