import SoKernel.Userland.Phylo

namespace SoKernel.Phylo
open Lib

/-! ## What each step of a philosopher keeps -/

theorem fork_ne_mutex {i : Nat} : philosopherSemaphore i ≠ mutexId := by
  unfold philosopherSemaphore
  omega

theorem fork_injective {i j : Nat} (same : philosopherSemaphore i = philosopherSemaphore j) :
    i = j := by
  unfold philosopherSemaphore at same
  omega

namespace Phase

/-- It has the mutex, or waits for it. -/
def locks : Phase → Bool
  | .take .hungry | .take (.test _) | .take .unlock => true
  | .put .thinking | .put (.left _ _) | .put (.right _ _) | .put .unlock => true
  | .start | .take .lock | .take .await | .put .lock => false

/-- A philosopher that has waited for its forks and has not given them back. -/
def dines : Phase → Bool
  | .put .lock | .put .thinking => true
  | .start | .take _ | .put (.left _ _) | .put (.right _ _) | .put .unlock => false

theorem locks_of_testing {i : Nat} {phase : Phase} {j : Nat} {check : Check}
    (here : phase.testing i = some (j, check)) :
    phase.locks = true ∧ phase.dines = false ∧
      (∀ check', (phase.goOn check').locks = true ∧ (phase.goOn check').dines = false ∧
        (phase.goOn check').testing i = some (j, check')) ∧
      ∀ t, (phase.resume i t).locks = true ∧ (phase.resume i t).dines = false ∧
        ∀ k, (phase.resume i t).testing i ≠ some (k, .post) := by
  cases phase with
  | start => cases here
  | take point =>
    cases point with
    | test check =>
      cases here
      exact ⟨rfl, rfl, fun _ => ⟨rfl, rfl, rfl⟩, fun _ => ⟨rfl, rfl, fun _ never => nomatch never⟩⟩
    | lock => cases here
    | hungry => cases here
    | unlock => cases here
    | await => cases here
  | put point =>
    cases point with
    | left k check =>
      cases here
      exact ⟨rfl, rfl, fun _ => ⟨rfl, rfl, rfl⟩, fun _ => ⟨rfl, rfl, fun _ never => nomatch never⟩⟩
    | right k check =>
      cases here
      exact ⟨rfl, rfl, fun _ => ⟨rfl, rfl, rfl⟩, fun _ => ⟨rfl, rfl, fun _ never => nomatch never⟩⟩
    | lock => cases here
    | thinking => cases here
    | unlock => cases here

end Phase

variable {i j k : Nat} {c : Command Int} {phase phase' : Phase} {t t' : Dining}
variable {check check' : Check}

/-- What a philosopher at a point of its program knows of its own state. -/
def Phase.Fact (i : Nat) (t : Dining) : Phase → Prop
  | .start | .take .lock | .take .hungry => t.state i = .thinking
  | .take (.test _) | .take .unlock | .take .await => t.state i ≠ .thinking
  | .put .lock | .put .thinking => True
  | .put (.left _ _) | .put (.right _ _) | .put .unlock => t.state i = .thinking

/-- What `test(j)` has found. -/
def Checked (t : Dining) (j : Nat) : Check → Prop
  | .self => True
  | .left => t.state j = .hungry
  | .right => t.state j = .hungry ∧ t.state (t.left j) ≠ .eating
  | .set => t.state j = .hungry ∧ t.state (t.left j) ≠ .eating ∧ t.state (t.right j) ≠ .eating
  | .post => t.state j = .eating

/-- Of that, which neighbours do not eat. -/
def Unfed (t : Dining) (j : Nat) : Check → Prop
  | .self | .left | .post => True
  | .right => t.state (t.left j) ≠ .eating
  | .set => t.state (t.left j) ≠ .eating ∧ t.state (t.right j) ≠ .eating

theorem Checked.unfed (checked : Checked t j check) : Unfed t j check := by
  cases check with
  | right => exact checked.2
  | set => exact checked.2
  | _ => trivial

/-- Who has still to be tested while a philosopher at `k` has the mutex. -/
def Phase.Pending (k : Nat) (t : Dining) (i : Nat) : Phase → Prop
  | .take (.test check) => i = k ∧ check ≠ .post
  | .put (.left j check) => (i = j ∧ check ≠ .post) ∨ i = t.right k
  | .put (.right j check) => i = j ∧ check ≠ .post
  | .start | .take .lock | .take .hungry | .take .unlock | .take .await => False
  | .put .lock | .put .thinking | .put .unlock => False

def EatingNeighbour (t : Dining) (i : Nat) : Prop :=
  t.state (t.left i) = .eating ∨ t.state (t.right i) = .eating

def total (t : Dining) (i : Nat) : Nat := if t.state i = .eating then 1 else 0

/-- The mutex through one step, wherever the phases are part of a longer program. -/
theorem Move.mutex {Λ : Type} {held : Λ → Bool} {seat : Phase → Λ}
    (move : Move i t phase c phase' t') (locks : ∀ phase, held (seat phase) = phase.locks) :
    Parties.Balance mutexId held 1 (seat phase) c (seat phase') 1 := by
  have still : phase'.locks = phase.locks → Parties.Balance mutexId held 1 (seat phase)
      .internal (seat phase') 1 :=
    fun same => .still (by simp) (by simp) (by simp [locks, same])
  cases move with
  | starts => exact still rfl
  | locks kind =>
    rcases kind with ⟨rfl, rfl⟩ | ⟨rfl, rfl⟩
    · exact .waits (locks _) (locks _)
    · exact .waits (locks _) (locks _)
  | hungers => exact still rfl
  | passes here _ =>
    obtain ⟨before, _, goes, _⟩ := Phase.locks_of_testing here
    exact still ((goes _).1.trans before.symm)
  | fails here _ =>
    obtain ⟨before, _, _, stops⟩ := Phase.locks_of_testing here
    exact still ((stops t).1.trans before.symm)
  | eats here =>
    obtain ⟨before, _, goes, _⟩ := Phase.locks_of_testing here
    exact still ((goes _).1.trans before.symm)
  | grants here =>
    obtain ⟨before, _, _, stops⟩ := Phase.locks_of_testing here
    exact .still (by simp) (by simpa using fork_ne_mutex) (by simp [locks, (stops t).1, before])
  | unlocks kind =>
    rcases kind with ⟨rfl, rfl⟩ | ⟨rfl, rfl⟩
    · exact .posts (locks _) (locks _)
    · exact .posts (locks _) (locks _)
  | awaits => exact .still (by simpa using fork_ne_mutex) (by simp) (by simp [locks]; rfl)
  | thinks => exact still rfl

/-- Where a wait leads to. -/
theorem Move.enters {id : Int} (move : Move i t phase (.wait id) phase' t') :
    (id = mutexId ∧ (phase' = .take .hungry ∨ phase' = .put .thinking)) ∨
      (id = philosopherSemaphore i ∧ phase' = .put .lock) := by
  cases move with
  | locks kind => exact .inl ⟨rfl, kind.imp And.right And.right⟩
  | awaits => exact .inr ⟨rfl, rfl⟩

theorem Move.count (move : Move i t phase c phase' t') : t'.phylosCount = t.phylosCount := by
  cases move <;> rfl

/-- Only who has the mutex changes the table. -/
theorem Move.writes (move : Move i t phase c phase' t') (fact : phase.Fact i t) :
    t' = t ∨ phase.locks = true := by
  cases move with
  | starts => exact .inl (Dining.set_same fact)
  | hungers => exact .inr rfl
  | eats here => exact .inr (Phase.locks_of_testing here).1
  | thinks => exact .inr rfl
  | _ => exact .inl rfl

theorem Move.writes_thinking (move : Move i t phase c phase' t') :
    t' = t ∨ t' = t.set i .thinking ∨ phase.locks = true := by
  cases move with
  | starts => exact .inr (.inl rfl)
  | hungers => exact .inr (.inr rfl)
  | eats here => exact .inr (.inr (Phase.locks_of_testing here).1)
  | thinks => exact .inr (.inr rfl)
  | _ => exact .inl rfl

theorem Phase.Fact.kept {mood : Mood} (fact : phase.Fact i t) (before : t.state j ≠ .thinking)
    (after : mood ≠ .thinking) : phase.Fact i (t.set j mood) := by
  by_cases same : i = j
  · rw [same] at fact ⊢
    have busy : (t.set j mood).state j ≠ .thinking := by
      rw [Dining.set_self]
      exact after
    cases phase with
    | start => exact absurd fact before
    | take point =>
      cases point with
      | lock => exact absurd fact before
      | hungry => exact absurd fact before
      | test _ => exact busy
      | unlock => exact busy
      | await => exact busy
    | put point =>
      cases point with
      | lock => trivial
      | thinking => trivial
      | left _ _ => exact absurd fact before
      | right _ _ => exact absurd fact before
      | unlock => exact absurd fact before
  · unfold Fact at fact ⊢
    rw [Dining.set_other same]
    exact fact

theorem Phase.Fact.goOn (fact : phase.Fact i t) (here : phase.testing i = some (j, check))
    (check' : Check) : (phase.goOn check').Fact i t := by
  cases phase with
  | start => cases here
  | take point =>
    cases point with
    | test _ => exact fact
    | _ => cases here
  | put point =>
    cases point with
    | left _ _ => exact fact
    | right _ _ => exact fact
    | _ => cases here

theorem Phase.Fact.resume (fact : phase.Fact i t) (here : phase.testing i = some (j, check)) :
    (phase.resume i t).Fact i t := by
  cases phase with
  | start => cases here
  | take point =>
    cases point with
    | test _ => exact fact
    | _ => cases here
  | put point =>
    cases point with
    | left _ _ => exact fact
    | right _ _ => exact fact
    | _ => cases here

/-- What the philosopher knows after its step. -/
theorem Move.fact (move : Move i t phase c phase' t') (fact : phase.Fact i t)
    (checked : ∀ {j check}, phase.testing i = some (j, check) → Checked t j check) :
    phase'.Fact i t' := by
  cases move with
  | starts => exact Dining.set_self
  | locks kind =>
    rcases kind with ⟨rfl, rfl⟩ | ⟨rfl, rfl⟩
    · exact fact
    · trivial
  | hungers =>
    change (t.set i .hungry).state i ≠ .thinking
    rw [Dining.set_self]
    decide
  | passes here _ => exact fact.goOn here _
  | fails here _ => exact fact.resume here
  | eats here =>
    refine (fact.goOn here _).kept ?_ (by decide)
    rw [(checked here).1]
    decide
  | grants here => exact fact.resume here
  | unlocks kind =>
    rcases kind with ⟨rfl, rfl⟩ | ⟨rfl, rfl⟩
    · exact fact
    · exact fact
  | awaits => trivial
  | thinks => exact Dining.set_self

/-- What it does not change for others. -/
theorem Move.fact_other {other : Phase} (move : Move i t phase c phase' t') (fact : phase.Fact i t)
    (checked : ∀ {j check}, phase.testing i = some (j, check) → Checked t j check) (apart : k ≠ i)
    (theirs : other.Fact k t) : other.Fact k t' := by
  have kept : ∀ {mood}, other.Fact k (t.set i mood) := by
    intro mood
    unfold Phase.Fact at theirs ⊢
    rw [Dining.set_other apart]
    exact theirs
  cases move with
  | starts => exact kept
  | hungers => exact kept
  | eats here =>
    refine theirs.kept ?_ (by decide)
    rw [(checked here).1]
    decide
  | thinks => exact kept
  | _ => exact theirs

theorem Phase.testing_resume {k : Nat} (here : phase.testing i = some (j, check))
    (next : (phase.resume i t).testing i = some (k, check')) :
    k = t.right i ∧ check' = .self := by
  cases phase with
  | start => cases here
  | take point =>
    cases point with
    | test _ => cases next
    | _ => cases here
  | put point =>
    cases point with
    | left _ _ =>
      cases next
      exact ⟨rfl, rfl⟩
    | right _ _ => cases next
    | _ => cases here

/-- What `test` has found, after the step. -/
theorem Move.checked (move : Move i t phase c phase' t') (below : i < t.phylosCount)
    (checked : ∀ {j check}, phase.testing i = some (j, check) →
      j < t.phylosCount ∧ Checked t j check)
    (next : phase'.testing i = some (k, check)) : k < t'.phylosCount ∧ Checked t' k check := by
  have positive : 0 < t.phylosCount := Nat.lt_of_le_of_lt (Nat.zero_le i) below
  cases move with
  | starts => cases next
  | locks kind =>
    rcases kind with ⟨_, rfl⟩ | ⟨_, rfl⟩
    · cases next
    · cases next
  | hungers =>
    cases next
    exact ⟨below, trivial⟩
  | @passes _ j found found' here passes =>
    obtain ⟨inside, before⟩ := checked here
    have goes := ((Phase.locks_of_testing here).2.2.1 found').2.2
    rw [goes] at next
    cases next
    refine ⟨inside, ?_⟩
    cases found with
    | self =>
      cases check with
      | left => exact passes
      | _ => cases passes
    | left =>
      cases check with
      | right => exact ⟨before, passes⟩
      | _ => cases passes
    | right =>
      cases check with
      | set => exact ⟨before.1, before.2, passes⟩
      | _ => cases passes
    | set => cases passes
    | post => cases passes
  | fails here _ =>
    obtain ⟨rfl, rfl⟩ := Phase.testing_resume here next
    exact ⟨Dining.right_lt positive, trivial⟩
  | eats here =>
    have goes := ((Phase.locks_of_testing here).2.2.1 .post).2.2
    rw [goes] at next
    cases next
    exact ⟨(checked here).1, Dining.set_self⟩
  | grants here =>
    obtain ⟨rfl, rfl⟩ := Phase.testing_resume here next
    exact ⟨Dining.right_lt positive, trivial⟩
  | unlocks kind =>
    rcases kind with ⟨_, rfl⟩ | ⟨_, rfl⟩
    · cases next
    · cases next
  | awaits => cases next
  | thinks =>
    cases next
    exact ⟨Dining.left_lt positive, trivial⟩

theorem Move.safe (move : Move i t phase c phase' t') (safe : t.Safe)
    (unfed : ∀ {j check}, phase.testing i = some (j, check) → Unfed t j check) : t'.Safe := by
  cases move with
  | starts => exact safe.set (by decide)
  | hungers => exact safe.set (by decide)
  | eats here => exact safe.eat (unfed here).1 (unfed here).2
  | thinks => exact safe.set (by decide)
  | _ => exact safe

/-- The neighbours that `test` has looked at, after the step. -/
theorem Move.unfed (move : Move i t phase c phase' t')
    (unfed : ∀ {j check}, phase.testing i = some (j, check) → Unfed t j check)
    (next : phase'.testing i = some (k, check)) : Unfed t' k check := by
  cases move with
  | starts => cases next
  | locks kind =>
    rcases kind with ⟨_, rfl⟩ | ⟨_, rfl⟩
    · cases next
    · cases next
  | hungers =>
    cases next
    trivial
  | @passes _ j found found' here passes =>
    have before := unfed here
    have goes := ((Phase.locks_of_testing here).2.2.1 found').2.2
    rw [goes] at next
    cases next
    cases found with
    | self =>
      cases check with
      | left => trivial
      | _ => cases passes
    | left =>
      cases check with
      | right => exact passes
      | _ => cases passes
    | right =>
      cases check with
      | set => exact ⟨before, passes⟩
      | _ => cases passes
    | set => cases passes
    | post => cases passes
  | fails here _ =>
    obtain ⟨rfl, rfl⟩ := Phase.testing_resume here next
    trivial
  | eats here =>
    have goes := ((Phase.locks_of_testing here).2.2.1 .post).2.2
    rw [goes] at next
    cases next
    trivial
  | grants here =>
    obtain ⟨rfl, rfl⟩ := Phase.testing_resume here next
    trivial
  | unlocks kind =>
    rcases kind with ⟨_, rfl⟩ | ⟨_, rfl⟩
    · cases next
    · cases next
  | awaits => cases next
  | thinks =>
    cases next
    trivial

theorem EatingNeighbour.kept {mood : Mood} (eating : EatingNeighbour t k)
    (mild : t.state i ≠ .eating ∨ mood = .eating) : EatingNeighbour (t.set i mood) k := by
  have eats : ∀ {j}, t.state j = .eating → (t.set i mood).state j = .eating := by
    intro j before
    by_cases same : j = i
    · rw [same] at before
      rw [same, Dining.set_self]
      exact mild.resolve_left fun other => other before
    · rw [Dining.set_other same]
      exact before
  exact eating.imp eats eats

/-- Setting a philosopher to thinking makes its neighbours wait for their tests. -/
theorem EatingNeighbour.thinks (eating : EatingNeighbour t k) (below : k < t.phylosCount) :
    EatingNeighbour (t.set i .thinking) k ∨ k = t.left i ∨ k = t.right i := by
  rcases eating with left | right
  · by_cases same : t.left k = i
    · refine .inr (.inr ?_)
      rw [← same]
      exact (Dining.right_left below).symm
    · exact .inl (.inl ((Dining.set_other same).trans left))
  · by_cases same : t.right k = i
    · refine .inr (.inl ?_)
      rw [← same]
      exact (Dining.left_right below).symm
    · exact .inl (.inr ((Dining.set_other same).trans right))

theorem Phase.Pending.testing (pending : phase.Pending i t k) :
    ∃ j check, phase.testing i = some (j, check) := by
  cases phase with
  | start => cases pending
  | take point =>
    cases point with
    | test check => exact ⟨i, check, rfl⟩
    | _ => cases pending
  | put point =>
    cases point with
    | left j check => exact ⟨j, check, rfl⟩
    | right j check => exact ⟨j, check, rfl⟩
    | _ => cases pending

/-- At another point of the same `test`. -/
theorem Phase.Pending.goOn {check' : Check} (pending : phase.Pending i t k)
    (here : phase.testing i = some (j, check)) (before : k ≠ j ∨ check' ≠ .post) :
    (phase.goOn check').Pending i t k := by
  cases phase with
  | start => cases pending
  | take point =>
    cases point with
    | test _ =>
      cases here
      exact ⟨pending.1, before.resolve_left fun other => other pending.1⟩
    | _ => cases pending
  | put point =>
    cases point with
    | left _ _ =>
      cases here
      refine pending.imp_left fun both => ?_
      exact ⟨both.1, before.resolve_left fun other => other both.1⟩
    | right _ _ =>
      cases here
      exact ⟨pending.1, before.resolve_left fun other => other pending.1⟩
    | _ => cases pending

/-- After a `test` the other is still to come. -/
theorem Phase.Pending.resume (pending : phase.Pending i t k)
    (here : phase.testing i = some (j, check)) :
    (k = j ∧ check ≠ .post) ∨ (phase.resume i t).Pending i t k := by
  cases phase with
  | start => cases pending
  | take point =>
    cases point with
    | test _ =>
      cases here
      exact .inl pending
    | _ => cases pending
  | put point =>
    cases point with
    | left _ _ =>
      cases here
      exact pending.imp_right fun right => ⟨right, by decide⟩
    | right _ _ =>
      cases here
      exact .inl pending
    | _ => cases pending

/-- A hungry philosopher has an eating neighbour or is about to be tested. -/
theorem Move.fed (move : Move i t phase c phase' t') (below : k < t.phylosCount)
    (fact : phase.Fact i t)
    (checked : ∀ {j check}, phase.testing i = some (j, check) → Checked t j check)
    (before : t.state k = .hungry → EatingNeighbour t k ∨ phase.Pending i t k)
    (hungry : t'.state k = .hungry) : EatingNeighbour t' k ∨ phase'.Pending i t' k := by
  cases move with
  | starts =>
    rw [Dining.set_same fact] at hungry ⊢
    exact (before hungry).imp_right fun never => nomatch never
  | locks kind =>
    rcases kind with ⟨rfl, rfl⟩ | ⟨rfl, rfl⟩
    · exact before hungry
    · exact before hungry
  | hungers =>
    by_cases same : k = i
    · exact .inr ⟨same, by decide⟩
    · rw [Dining.set_other same] at hungry
      refine (before hungry).imp (fun eating => eating.kept (.inl ?_)) fun never => nomatch never
      rw [show t.state i = .thinking from fact]
      decide
  | @passes _ j found found' here passes =>
    refine (before hungry).imp_right fun pending => pending.goOn here (.inr ?_)
    rintro rfl
    cases found <;> cases passes
  | @fails _ j found here fails =>
    rcases before hungry with eating | pending
    · exact .inl eating
    · rcases pending.resume here with ⟨rfl, _⟩ | later
      · cases found with
        | self => exact absurd hungry fails
        | left => exact .inl (.inl fails)
        | right => exact .inl (.inr fails)
        | set => cases fails
        | post => cases fails
      · exact .inr later
  | @eats _ j here =>
    have other : k ≠ j := by
      rintro rfl
      rw [Dining.set_self] at hungry
      cases hungry
    rw [Dining.set_other other] at hungry
    refine (before hungry).imp (fun eating => eating.kept (.inr rfl)) fun pending => ?_
    exact pending.goOn here (.inl other)
  | @grants _ j here =>
    refine (before hungry).imp_right fun pending => ?_
    exact (pending.resume here).resolve_left fun both => both.2 rfl
  | unlocks kind =>
    rcases kind with ⟨rfl, rfl⟩ | ⟨rfl, rfl⟩
    · exact before hungry
    · exact before hungry
  | awaits => exact before hungry
  | thinks =>
    have other : k ≠ i := by
      rintro rfl
      rw [Dining.set_self] at hungry
      cases hungry
    rw [Dining.set_other other] at hungry
    have eating := (before hungry).resolve_right fun never => nomatch never
    refine (eating.thinks below).imp_right fun neighbour => ?_
    exact neighbour.imp_left fun left => ⟨left, by decide⟩

end SoKernel.Phylo
