import SoKernel.Lib.Parties

namespace SoKernel.Phylo
open Lib

/-! ## `phylo.c` -/

def maxPhylos : Nat := 10
def minPhylos : Nat := 1
def mutexId : Int := 100

def philosopherSemaphore (i : Nat) : Int := mutexId + i + 1

/-- `state_t`. -/
inductive Mood where
  | thinking | hungry | eating
deriving DecidableEq, Repr

/-- `phylosCount` and `state`. -/
structure Dining where
  phylosCount : Nat
  state : Nat → Mood

namespace Dining

def left (t : Dining) (i : Nat) : Nat := (i + t.phylosCount - 1) % t.phylosCount
def right (t : Dining) (i : Nat) : Nat := (i + 1) % t.phylosCount

def set (i : Nat) (mood : Mood) (t : Dining) : Dining :=
  { t with state := Function.update t.state i mood }

end Dining

/-- The points of `test`: its three conditions, the assignment and the post. -/
inductive Check where
  | self | left | right | set | post
deriving DecidableEq, Repr

/-- The points of `takeForks`. -/
inductive Taking where
  | lock | hungry | test (check : Check) | unlock | await
deriving DecidableEq, Repr

/-- The points of `putForks`; `j` is the argument of `test`. -/
inductive Putting where
  | lock | thinking | left (j : Nat) (check : Check) | right (j : Nat) (check : Check) | unlock
deriving DecidableEq, Repr

/-- The points of `philosopher`. -/
inductive Phase where
  | start
  | take (point : Taking)
  | put (point : Putting)
deriving DecidableEq, Repr

/-- One step of `test(j)`, and where it goes on; `none` where it returns. -/
def test (j : Nat) : Check → Dining → Command Int × Option Check × Dining
  | .self, t => (.internal, if t.state j = .hungry then some .left else none, t)
  | .left, t => (.internal, if t.state (t.left j) ≠ .eating then some .right else none, t)
  | .right, t => (.internal, if t.state (t.right j) ≠ .eating then some .set else none, t)
  | .set, t => (.internal, some .post, t.set j .eating)
  | .post, t => (.post (philosopherSemaphore j), none, t)

def takeForks (i : Nat) : Taking → Dining → Command Int × Phase × Dining
  | .lock, t => (.wait mutexId, .take .hungry, t)
  | .hungry, t => (.internal, .take (.test .self), t.set i .hungry)
  | .test check, t =>
    let (c, next, t) := test i check t
    (c, match next with
      | some check => .take (.test check)
      | none => .take .unlock, t)
  | .unlock, t => (.post mutexId, .take .await, t)
  | .await, t => (.wait (philosopherSemaphore i), .put .lock, t)

def putForks (i : Nat) : Putting → Dining → Command Int × Phase × Dining
  | .lock, t => (.wait mutexId, .put .thinking, t)
  | .thinking, t => (.internal, .put (.left (t.left i) .self), t.set i .thinking)
  | .left j check, t =>
    let (c, next, t) := test j check t
    (c, match next with
      | some check => .put (.left j check)
      | none => .put (.right (t.right i) .self), t)
  | .right j check, t =>
    let (c, next, t) := test j check t
    (c, match next with
      | some check => .put (.right j check)
      | none => .put .unlock, t)
  | .unlock, t => (.post mutexId, .take .lock, t)

def philosopher (i : Nat) : Phase → Dining → Command Int × Phase × Dining
  | .start, t => (.internal, .take .lock, t.set i .thinking)
  | .take point, t => takeForks i point t
  | .put point, t => putForks i point t

/-! ## The ring -/

namespace Dining

variable {t : Dining} {i j : Nat} {mood : Mood}

/-- Nobody eats together with the neighbour on its right. -/
def Safe (t : Dining) : Prop :=
  ∀ i, i < t.phylosCount → i ≠ t.right i → t.state i = .eating → t.state (t.right i) ≠ .eating

@[simp] theorem set_phylosCount : (t.set i mood).phylosCount = t.phylosCount := rfl

@[simp] theorem set_left : (t.set i mood).left j = t.left j := rfl

@[simp] theorem set_right : (t.set i mood).right j = t.right j := rfl

@[simp] theorem set_self : (t.set i mood).state i = mood := Function.update_self _ _ _

theorem set_other (other : j ≠ i) : (t.set i mood).state j = t.state j :=
  Function.update_of_ne other _ _

theorem set_same (same : t.state i = mood) : t.set i mood = t := by
  unfold set
  rw [← same, Function.update_eq_self]

/-- One philosopher less may eat. -/
theorem Safe.set (safe : t.Safe) (mild : mood ≠ .eating) : (t.set i mood).Safe := by
  have before : ∀ {k}, (t.set i mood).state k = .eating → t.state k = .eating := by
    intro k eats
    by_cases same : k = i
    · rw [same, set_self] at eats
      exact absurd eats mild
    · rw [set_other same] at eats
      exact eats
  intro k below apart first second
  exact safe k below apart (before first) (before second)

/-- The left neighbour's right neighbour. -/
theorem right_left (below : i < t.phylosCount) : t.right (t.left i) = i := by
  unfold right left
  have positive : 0 < t.phylosCount := Nat.lt_of_le_of_lt (Nat.zero_le i) below
  have cycle : i + t.phylosCount - 1 + 1 = i + t.phylosCount := by omega
  rw [Nat.mod_add_mod, cycle, Nat.add_mod_right, Nat.mod_eq_of_lt below]

theorem left_right (below : i < t.phylosCount) : t.left (t.right i) = i := by
  unfold right left
  have positive : 0 < t.phylosCount := Nat.lt_of_le_of_lt (Nat.zero_le i) below
  by_cases last : i + 1 = t.phylosCount
  · rw [last, Nat.mod_self, Nat.zero_add, Nat.mod_eq_of_lt (by omega)]
    omega
  · have next : i + 1 < t.phylosCount := by omega
    have back : i + 1 + t.phylosCount - 1 = i + t.phylosCount := by omega
    rw [Nat.mod_eq_of_lt next, back, Nat.add_mod_right, Nat.mod_eq_of_lt below]

def Adjacent (t : Dining) (i j : Nat) : Prop := j = t.left i ∨ j = t.right i

/-- No two distinct neighbours both eat. -/
def Apart (t : Dining) : Prop :=
  ∀ i < t.phylosCount, ∀ j < t.phylosCount, i ≠ j → t.Adjacent i j →
    ¬ (t.state i = .eating ∧ t.state j = .eating)

theorem Safe.apart (safe : t.Safe) : t.Apart := by
  rintro i below j below' other (rfl | rfl) ⟨first, second⟩
  · refine safe _ below' ?_ second ?_
    · rw [right_left below]
      exact other.symm
    · rw [right_left below]
      exact first
  · exact safe i below other first second

theorem left_lt (positive : 0 < t.phylosCount) : t.left i < t.phylosCount :=
  Nat.mod_lt _ positive

theorem right_lt (positive : 0 < t.phylosCount) : t.right i < t.phylosCount :=
  Nat.mod_lt _ positive

/-- A philosopher may eat when neither neighbour does. -/
theorem Safe.eat (safe : t.Safe) (left : t.state (t.left i) ≠ .eating)
    (right : t.state (t.right i) ≠ .eating) : (t.set i .eating).Safe := by
  intro k below apart first second
  rw [set_right] at apart second
  by_cases here : k = i
  · rw [here] at apart second
    rw [set_other (Ne.symm apart)] at second
    exact right second
  · rw [set_other here] at first
    by_cases next : t.right k = i
    · have back : t.left i = k := by
        rw [← next]
        exact left_right below
      rw [back] at left
      exact left first
    · rw [set_other next] at second
      exact safe k below apart first second

end Dining

/-! ## What a step of a philosopher does -/

namespace Phase

/-- The argument of the `test` that is under way, and the point it has come to. -/
def testing (i : Nat) : Phase → Option (Nat × Check)
  | .take (.test check) => some (i, check)
  | .put (.left j check) | .put (.right j check) => some (j, check)
  | .start | .take .lock | .take .hungry | .take .unlock | .take .await => none
  | .put .lock | .put .thinking | .put .unlock => none

/-- The same call of `test`, at another point. -/
def goOn (check : Check) : Phase → Phase
  | .take _ => .take (.test check)
  | .put (.left j _) => .put (.left j check)
  | .put (.right j _) => .put (.right j check)
  | phase => phase

/-- Where `test` returns to. -/
def resume (i : Nat) (t : Dining) : Phase → Phase
  | .take _ => .take .unlock
  | .put (.left _ _) => .put (.right (t.right i) .self)
  | .put (.right _ _) => .put .unlock
  | phase => phase

end Phase

/-- The condition that `test` finds true at a point before it goes on to the next. -/
def Passes (t : Dining) (j : Nat) : Check → Check → Prop
  | .self, .left => t.state j = .hungry
  | .left, .right => t.state (t.left j) ≠ .eating
  | .right, .set => t.state (t.right j) ≠ .eating
  | _, _ => False

/-- The condition that it finds false before it returns. -/
def Fails (t : Dining) (j : Nat) : Check → Prop
  | .self => t.state j ≠ .hungry
  | .left => t.state (t.left j) = .eating
  | .right => t.state (t.right j) = .eating
  | .set | .post => False

/-- The steps of philosopher `i`. -/
inductive Move (i : Nat) (t : Dining) : Phase → Command Int → Phase → Dining → Prop
  | starts : Move i t .start .internal (.take .lock) (t.set i .thinking)
  | locks {phase next : Phase} : (phase = .take .lock ∧ next = .take .hungry) ∨
      (phase = .put .lock ∧ next = .put .thinking) → Move i t phase (.wait mutexId) next t
  | hungers : Move i t (.take .hungry) .internal (.take (.test .self)) (t.set i .hungry)
  | passes {phase : Phase} {j : Nat} {check check' : Check} : phase.testing i = some (j, check) →
      Passes t j check check' → Move i t phase .internal (phase.goOn check') t
  | fails {phase : Phase} {j : Nat} {check : Check} : phase.testing i = some (j, check) →
      Fails t j check → Move i t phase .internal (phase.resume i t) t
  | eats {phase : Phase} {j : Nat} : phase.testing i = some (j, .set) →
      Move i t phase .internal (phase.goOn .post) (t.set j .eating)
  | grants {phase : Phase} {j : Nat} : phase.testing i = some (j, .post) →
      Move i t phase (.post (philosopherSemaphore j)) (phase.resume i t) t
  | unlocks {phase next : Phase} : (phase = .take .unlock ∧ next = .take .await) ∨
      (phase = .put .unlock ∧ next = .take .lock) → Move i t phase (.post mutexId) next t
  | awaits : Move i t (.take .await) (.wait (philosopherSemaphore i)) (.put .lock) t
  | thinks : Move i t (.put .thinking) .internal (.put (.left (t.left i) .self))
      (t.set i .thinking)

theorem test_moves {i j : Nat} {t : Dining} (phase : Phase) {check : Check}
    (here : phase.testing i = some (j, check)) :
    Move i t phase (test j check t).1 (match (test j check t).2.1 with
      | some next => phase.goOn next
      | none => phase.resume i (test j check t).2.2) (test j check t).2.2 := by
  cases check with
  | self =>
    by_cases passes : t.state j = .hungry
    · simp only [test, passes, if_true]
      exact .passes here passes
    · simp only [test, passes, if_false]
      exact .fails here passes
  | left =>
    by_cases fails : t.state (t.left j) = .eating
    · simp only [test, fails, ne_eq, not_true, if_false]
      exact .fails here fails
    · simp only [test, fails, ne_eq, not_false_eq_true, if_true]
      exact .passes here fails
  | right =>
    by_cases fails : t.state (t.right j) = .eating
    · simp only [test, fails, ne_eq, not_true, if_false]
      exact .fails here fails
    · simp only [test, fails, ne_eq, not_false_eq_true, if_true]
      exact .passes here fails
  | set => exact .eats here
  | post => exact .grants here

theorem philosopher_moves (i : Nat) (phase : Phase) (t : Dining) :
    Move i t phase (philosopher i phase t).1 (philosopher i phase t).2.1
      (philosopher i phase t).2.2 := by
  cases phase with
  | start => exact .starts
  | take point =>
    cases point with
    | lock => exact .locks (.inl ⟨rfl, rfl⟩)
    | hungry => exact .hungers
    | test check => exact test_moves (.take (.test check)) rfl
    | unlock => exact .unlocks (.inl ⟨rfl, rfl⟩)
    | await => exact .awaits
  | put point =>
    cases point with
    | lock => exact .locks (.inr ⟨rfl, rfl⟩)
    | thinking => exact .thinks
    | left j check => exact test_moves (.put (.left j check)) rfl
    | right j check => exact test_moves (.put (.right j check)) rfl
    | unlock => exact .unlocks (.inr ⟨rfl, rfl⟩)

end SoKernel.Phylo
