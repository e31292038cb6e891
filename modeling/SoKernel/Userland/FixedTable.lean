import SoKernel.Userland.PhyloSteps

namespace SoKernel.Phylo
open Lib

/-! ## A fixed number of philosophers -/

/-- Where a process is, and at which seat. -/
inductive Loc where
  | outside
  | seat (i : Nat) (phase : Phase)
deriving DecidableEq

/-- A process at a seat takes a step of `philosopher`. -/
def Does (l : Loc) (t : Dining) (c : Command Int) (l' : Loc) (t' : Dining) : Prop :=
  ∃ i phase, l = .seat i phase ∧ c = (philosopher i phase t).1 ∧
    l' = .seat i (philosopher i phase t).2.1 ∧ t' = (philosopher i phase t).2.2

/-- The semaphores of a table of `n`. -/
def own (n : Nat) (id : Int) : Prop := mutexId ≤ id ∧ id ≤ mutexId + n

theorem own_mutex {n : Nat} : own n mutexId := by
  unfold own
  omega

theorem own_fork {n i : Nat} (below : i < n) : own n (philosopherSemaphore i) := by
  unfold own philosopherSemaphore
  omega

namespace Loc

def locks : Loc → Bool
  | .outside => false
  | .seat _ phase => phase.locks

/-- A token of the semaphore of `j`: the philosopher has taken it, or it is about to be posted. -/
def holdsFork (j : Nat) : Loc → Bool
  | .outside => false
  | .seat i phase => (i = j ∧ phase.dines = true) ∨ phase.testing i = some (j, .post)

end Loc

abbrev State (π : Type) := Parties Int π Loc Dining

variable {π : Type} [DecidableEq π] {n i j k : Nat} {pids : Nat → π} {s s' : State π} {p q : π}
variable {c : Command Int} {phase phase' : Phase} {t t' : Dining} {check : Check}

/-- The invariant of a table of `n`. -/
structure Dined (n : Nat) (pids : Nat → π) (s : State π) : Prop where
  count : s.shared.phylosCount = n
  seats : ∀ {p i phase}, s.loc p = .seat i phase → i < n ∧ p = pids i
  seated : ∀ {i}, i < n → ∃ phase, s.loc (pids i) = .seat i phase
  mutex : s.Books mutexId Loc.locks 1
  lockers : s.Queued mutexId fun l => ∃ i phase, l = .seat i phase ∧
    (phase = .take .hungry ∨ phase = .put .thinking)
  forks : ∀ {i}, i < n → s.Books (philosopherSemaphore i) (Loc.holdsFork i) (total s.shared i)
  diners : ∀ {i}, i < n → s.Queued (philosopherSemaphore i) fun l => l = .seat i (.put .lock)
  facts : ∀ {p i phase}, s.loc p = .seat i phase → phase.Fact i s.shared
  checked : ∀ {p i phase j check}, s.loc p = .seat i phase →
    phase.testing i = some (j, check) → j < n ∧ Checked s.shared j check
  safe : s.shared.Safe
  fed : ∀ {i}, i < n → s.shared.state i = .hungry → EatingNeighbour s.shared i ∨
    ∃ p k phase, s.loc p = .seat k phase ∧ phase.Pending k s.shared i

/-! ## Each step -/

theorem Loc.holdsFork_true (holds : (i = k ∧ phase.dines = true) ∨
    phase.testing i = some (k, .post)) : (Loc.seat i phase).holdsFork k = true :=
  decide_eq_true holds

theorem Loc.holdsFork_false (dines : i = k → phase.dines = false)
    (posts : phase.testing i ≠ some (k, .post)) : (Loc.seat i phase).holdsFork k = false := by
  apply decide_eq_false
  rintro (⟨same, dining⟩ | post)
  · rw [dines same] at dining
    cases dining
  · exact posts post

theorem total_set_other (other : k ≠ i) {mood : Mood} : total (t.set i mood) k = total t k := by
  unfold total
  rw [Dining.set_other other]

theorem total_set_mild {mood : Mood} (before : t.state i ≠ .eating) (after : mood ≠ .eating) :
    total (t.set i mood) k = total t k := by
  by_cases same : k = i
  · rw [same]
    unfold total
    rw [Dining.set_self, if_neg after, if_neg before]
  · exact total_set_other same

/-- The tokens of the semaphore of `k` through one step. -/
theorem Move.fork (move : Move i t phase c phase' t') (fact : phase.Fact i t)
    (checked : ∀ {j check}, phase.testing i = some (j, check) → Checked t j check)
    (dining : phase = .put .thinking → t.state i = .eating) (k : Nat) :
    Parties.Balance (philosopherSemaphore k) (Loc.holdsFork k) (total t k) (.seat i phase) c
      (.seat i phase') (total t' k) := by
  have quiet : ∀ (id : Int) {l l' : Loc}, id ≠ philosopherSemaphore k → l.holdsFork k = false →
      l'.holdsFork k = false → ∀ {c}, c = .wait id ∨ c = .post id ∨ c = Command.internal →
      Parties.Balance (philosopherSemaphore k) (Loc.holdsFork k) (total t k) l c l' (total t k) := by
    intro id l l' other before after c does
    refine .still ?_ ?_ (after.trans before.symm)
    · rcases does with rfl | rfl | rfl
      · simpa using other
      · simp
      · simp
    · rcases does with rfl | rfl | rfl
      · simp
      · simpa using other
      · simp
  have inside : ∀ {c}, c = .wait mutexId ∨ c = .post mutexId ∨ c = Command.internal →
      ∀ {l l' : Loc}, l.holdsFork k = false → l'.holdsFork k = false →
      Parties.Balance (philosopherSemaphore k) (Loc.holdsFork k) (total t k) l c l' (total t k) :=
    fun does _ _ before after => quiet mutexId fork_ne_mutex.symm before after does
  cases move with
  | starts =>
    rw [total_set_mild (by rw [show t.state i = .thinking from fact]; decide) (by decide)]
    exact inside (.inr (.inr rfl)) (Loc.holdsFork_false (fun _ => rfl) (by simp [Phase.testing]))
      (Loc.holdsFork_false (fun _ => rfl) (by simp [Phase.testing]))
  | locks kind =>
    rcases kind with ⟨rfl, rfl⟩ | ⟨rfl, rfl⟩
    · exact inside (.inl rfl) (Loc.holdsFork_false (fun _ => rfl) (by simp [Phase.testing]))
        (Loc.holdsFork_false (fun _ => rfl) (by simp [Phase.testing]))
    · refine .still (by simpa using fork_ne_mutex.symm) (by simp) ?_
      exact decide_eq_decide.mpr (by simp [Phase.testing, Phase.dines])
  | hungers =>
    rw [total_set_mild (by rw [show t.state i = .thinking from fact]; decide) (by decide)]
    exact inside (.inr (.inr rfl)) (Loc.holdsFork_false (fun _ => rfl) (by simp [Phase.testing]))
      (Loc.holdsFork_false (fun _ => rfl) (by simp [Phase.testing]))
  | @passes _ j check check' here passes =>
    obtain ⟨_, dines, goes, _⟩ := Phase.locks_of_testing here
    obtain ⟨_, dines', here'⟩ := goes check'
    refine inside (.inr (.inr rfl)) (Loc.holdsFork_false (fun _ => dines) ?_)
      (Loc.holdsFork_false (fun _ => dines') ?_)
    · rw [here]
      rintro ⟨rfl, rfl⟩
      cases passes
    · rw [here']
      rintro ⟨rfl, rfl⟩
      cases check <;> cases passes
  | @fails _ j check here fails =>
    obtain ⟨_, dines, _, stops⟩ := Phase.locks_of_testing here
    obtain ⟨_, dines', out⟩ := stops t
    refine inside (.inr (.inr rfl)) (Loc.holdsFork_false (fun _ => dines) ?_)
      (Loc.holdsFork_false (fun _ => dines') (out k))
    rw [here]
    rintro ⟨rfl, rfl⟩
    cases fails
  | @eats _ j here =>
    obtain ⟨_, dines, goes, _⟩ := Phase.locks_of_testing here
    obtain ⟨_, dines', here'⟩ := goes .post
    have out : (Loc.seat i phase).holdsFork k = false := by
      refine Loc.holdsFork_false (fun _ => dines) ?_
      rw [here]
      rintro ⟨_, never⟩
    by_cases same : k = j
    · subst same
      have hungry := (checked here).1
      refine .moves ?_
      rw [out, Loc.holdsFork_true (.inr here')]
      unfold total
      rw [Dining.set_self, hungry]
      rfl
    · rw [total_set_other same]
      refine inside (.inr (.inr rfl)) out (Loc.holdsFork_false (fun _ => dines') ?_)
      rw [here']
      rintro ⟨equal, _⟩
      exact same rfl
  | @grants _ j here =>
    obtain ⟨_, dines, _, stops⟩ := Phase.locks_of_testing here
    obtain ⟨_, dines', out⟩ := stops t
    by_cases same : k = j
    · subst same
      exact .posts (Loc.holdsFork_true (.inr here))
        (Loc.holdsFork_false (fun _ => dines') (out k))
    · refine quiet (philosopherSemaphore j) (fun equal => same (fork_injective equal).symm)
        (Loc.holdsFork_false (fun _ => dines) ?_)
        (Loc.holdsFork_false (fun _ => dines') (out k)) (.inr (.inl rfl))
      rw [here]
      rintro ⟨equal, _⟩
      exact same rfl
  | unlocks kind =>
    rcases kind with ⟨rfl, rfl⟩ | ⟨rfl, rfl⟩
    · exact inside (.inr (.inl rfl)) (Loc.holdsFork_false (fun _ => rfl) (by simp [Phase.testing]))
        (Loc.holdsFork_false (fun _ => rfl) (by simp [Phase.testing]))
    · exact inside (.inr (.inl rfl)) (Loc.holdsFork_false (fun _ => rfl) (by simp [Phase.testing]))
        (Loc.holdsFork_false (fun _ => rfl) (by simp [Phase.testing]))
  | awaits =>
    have out : (Loc.seat i (.take .await)).holdsFork k = false :=
      Loc.holdsFork_false (fun _ => rfl) (by simp [Phase.testing])
    by_cases same : i = k
    · subst same
      exact .waits out (Loc.holdsFork_true (.inl ⟨rfl, rfl⟩))
    · exact quiet (philosopherSemaphore i) (fun equal => same (fork_injective equal)) out
        (Loc.holdsFork_false (fun equal => absurd equal same) (by simp [Phase.testing]))
        (.inl rfl)
  | thinks =>
    have after : (Loc.seat i (.put (.left (t.left i) .self))).holdsFork k = false :=
      Loc.holdsFork_false (fun _ => rfl) (by simp [Phase.testing])
    by_cases same : i = k
    · subst same
      refine .moves ?_
      rw [after, Loc.holdsFork_true (.inl ⟨rfl, rfl⟩)]
      unfold total
      rw [Dining.set_self, dining rfl]
      rfl
    · rw [total_set_other (Ne.symm same)]
      exact inside (.inr (.inr rfl))
        (Loc.holdsFork_false (fun equal => absurd equal same) (by simp [Phase.testing])) after

/-! ## The table -/

omit [DecidableEq π] in
theorem Loc.locks_awake (dined : Dined n pids s) (place : s.loc p = .seat i phase)
    (here : phase.testing i = some (j, check)) :
    (s.loc p).locks = true ∧ p ∉ s.sems.waiting mutexId := by
  refine ⟨?_, ?_⟩
  · rw [place]
    exact (Phase.locks_of_testing here).1
  · intro waits
    obtain ⟨i', phase', same, entered⟩ := dined.lockers p waits
    rw [place] at same
    cases same
    rcases entered with rfl | rfl
    · cases here
    · cases here

/-- One step of a philosopher. -/
theorem Dined.turn (dined : Dined n pids s) (orderly : s.sems.Orderly) (awake : ¬ s.sems.Sleeps p)
    (place : s.loc p = .seat i phase) (move : Move i s.shared phase c phase' t') :
    Dined n pids (s.turn p c (.seat i phase') t') := by
  obtain ⟨below, here⟩ := dined.seats place
  have inside : i < s.shared.phylosCount := by
    rw [dined.count]
    exact below
  have fact := dined.facts place
  have found : ∀ {j check}, phase.testing i = some (j, check) →
      j < s.shared.phylosCount ∧ Checked s.shared j check := by
    intro j check testing
    rw [dined.count]
    exact dined.checked place testing
  have checked : ∀ {j check}, phase.testing i = some (j, check) → Checked s.shared j check :=
    fun testing => (found testing).2
  have count : t'.phylosCount = n := move.count.trans dined.count
  have self : (s.turn p c (.seat i phase') t').loc p = .seat i phase' := Function.update_self _ _ _
  have others : ∀ {q}, q ≠ p → (s.turn p c (.seat i phase') t').loc q = s.loc q :=
    fun other => Function.update_of_ne other _ _
  -- who tests has the mutex, so that nobody else writes
  have alone : ∀ {q k phase j check}, q ≠ p → s.loc q = .seat k phase →
      phase.testing k = some (j, check) → t' = s.shared := by
    intro q k other j check apart there testing
    refine (move.writes fact).resolve_right fun locks => apart ?_
    have mine : (s.loc p).locks = true ∧ p ∉ s.sems.waiting mutexId := by
      refine ⟨?_, fun member => awake ⟨mutexId, member⟩⟩
      rw [place]
      exact locks
    exact dined.mutex.alone (Loc.locks_awake dined there testing) mine
  refine ⟨count, ?_, ?_, ?_, ?_, ?_, ?_, ?_, ?_,
    move.safe dined.safe fun here => (checked here).unfed, ?_⟩
  · intro q k other there
    by_cases same : q = p
    · rw [same, self] at there
      cases there
      exact ⟨below, same.trans here⟩
    · rw [others same] at there
      exact dined.seats there
  · intro k inside
    by_cases same : pids k = p
    · obtain ⟨other, there⟩ := dined.seated inside
      rw [same, place] at there
      cases there
      exact ⟨phase', by rw [same, self]⟩
    · rw [others same]
      exact dined.seated inside
  · exact dined.mutex.turn orderly awake (by rw [place]; exact move.mutex fun _ => rfl)
  · refine dined.lockers.turn orderly awake ?_
    rintro rfl
    rcases move.enters with ⟨_, entered⟩ | ⟨same, _⟩
    · exact ⟨i, phase', rfl, entered⟩
    · exact absurd same.symm fork_ne_mutex
  · intro k inside
    refine (dined.forks inside).turn orderly awake ?_
    rw [place]
    refine move.fork fact checked ?_ k
    rintro rfl
    have eating := (dined.forks below).pos awake (by
      rw [place]
      exact Loc.holdsFork_true (.inl ⟨rfl, rfl⟩))
    unfold total at eating
    by_contra other
    rw [if_neg other] at eating
    cases eating
  · intro k inside
    refine (dined.diners inside).turn orderly awake ?_
    rintro rfl
    rcases move.enters with ⟨same, _⟩ | ⟨same, rfl⟩
    · exact absurd same fork_ne_mutex
    · rw [fork_injective same]
  · intro q k other there
    by_cases same : q = p
    · rw [same, self] at there
      cases there
      exact move.fact fact checked
    · rw [others same] at there
      refine move.fact_other fact checked ?_ (dined.facts there)
      rintro rfl
      exact same ((dined.seats there).2.trans here.symm)
  · intro q k other j check there testing
    by_cases same : q = p
    · rw [same, self] at there
      cases there
      rw [← count]
      exact move.checked inside found testing
    · rw [others same] at there
      change j < n ∧ Checked t' j check
      rw [alone same there testing]
      exact dined.checked there testing
  · intro k inside' hungry
    have inside' : k < s.shared.phylosCount := by
      rw [dined.count]
      exact inside'
    by_cases waiting : ∃ q l other, s.loc q = .seat l other ∧ other.Pending l s.shared k ∧ q ≠ p
    · obtain ⟨q, l, other, there, pending, apart⟩ := waiting
      obtain ⟨j, check, testing⟩ := pending.testing
      refine .inr ⟨q, l, other, ?_, ?_⟩
      · rw [others apart]
        exact there
      · change other.Pending l t' k
        rw [alone apart there testing]
        exact pending
    · refine (move.fed inside' fact checked ?_ hungry).imp_right fun pending =>
        ⟨p, i, phase', self, pending⟩
      intro before
      refine (dined.fed (by rw [← dined.count]; exact inside') before).imp_right ?_
      rintro ⟨q, l, other, there, pending⟩
      have same : q = p := by
        by_contra apart
        exact waiting ⟨q, l, other, there, pending, apart⟩
      rw [same, place] at there
      cases there
      exact pending

omit [DecidableEq π] in
/-- What goes on at other semaphores does not matter. -/
theorem Dined.others {sems : Semaphores Int π} (dined : Dined n pids s)
    (same : ∀ id, own n id →
      sems.value id = s.sems.value id ∧ sems.waiting id = s.sems.waiting id) :
    Dined n pids { s with sems := sems } := by
  refine ⟨dined.count, dined.seats, dined.seated, dined.mutex.others (same _ own_mutex), ?_,
    fun below => (dined.forks below).others (same _ (own_fork below)), ?_, dined.facts, dined.checked,
    dined.safe, dined.fed⟩
  · intro q member
    simp only [(same _ own_mutex).2] at member
    exact dined.lockers q member
  · intro k below q member
    simp only [(same _ (own_fork below)).2] at member
    exact dined.diners below q member

theorem Dined.step (dined : Dined n pids s) (orderly : s.sems.Orderly)
    (step : Parties.Step Does (own n) s s') : Dined n pids s' := by
  cases step with
  | others _ same => exact dined.others same
  | @turn p c l d awake does =>
    obtain ⟨i, phase, place, rfl, rfl, rfl⟩ := does
    exact dined.turn orderly awake place (philosopher_moves i phase s.shared)

/-! ## Runs -/

/-- `n` philosophers before their first step. -/
structure Laid (n : Nat) (pids : Nat → π) (s : State π) : Prop where
  some : minPhylos ≤ n
  few : n ≤ maxPhylos
  count : s.shared.phylosCount = n
  thinking : ∀ {i}, i < n → s.shared.state i = .thinking
  seated : ∀ {i}, i < n → s.loc (pids i) = .seat i .start
  outside : ∀ {p}, (∀ i < n, p ≠ pids i) → s.loc p = .outside
  mutex : s.sems.value mutexId = 1
  forks : ∀ {i}, i < n → s.sems.value (philosopherSemaphore i) = 0
  nobody : ∀ {id}, own n id → s.sems.waiting id = []
  orderly : s.sems.Orderly

omit [DecidableEq π] in
theorem Laid.place (laid : Laid n pids s) (p : π) :
    s.loc p = .outside ∨ ∃ i, i < n ∧ p = pids i ∧ s.loc p = .seat i .start := by
  by_cases seated : ∃ i, i < n ∧ p = pids i
  · obtain ⟨i, below, rfl⟩ := seated
    exact .inr ⟨i, below, rfl, laid.seated below⟩
  · exact .inl (laid.outside fun i below same => seated ⟨i, below, same⟩)

omit [DecidableEq π] in
theorem Laid.dined (laid : Laid n pids s) : Dined n pids s := by
  have at_start : ∀ {p i phase}, s.loc p = .seat i phase →
      i < n ∧ p = pids i ∧ phase = .start := by
    intro p i phase place
    rcases laid.place p with out | ⟨k, below, here, start⟩
    · rw [place] at out
      cases out
    · rw [place] at start
      cases start
      exact ⟨below, here, rfl⟩
  have calm : ∀ {i}, i < n → s.shared.state i ≠ .eating := by
    intro i below
    simp [laid.thinking below]
  refine ⟨laid.count, fun place => ⟨(at_start place).1, (at_start place).2.1⟩,
    fun below => ⟨.start, laid.seated below⟩, .start laid.mutex (laid.nobody own_mutex) ?_, ?_, ?_,
    ?_, ?_, ?_, ?_, ?_⟩
  · intro p
    rcases laid.place p with out | ⟨k, _, _, start⟩
    · rw [out]
      rfl
    · rw [start]
      rfl
  · intro q member
    simp [laid.nobody own_mutex] at member
  · intro i below
    refine .start ?_ (laid.nobody (own_fork below)) ?_
    · simp [laid.forks below, total, calm below]
    · intro p
      rcases laid.place p with out | ⟨k, _, _, start⟩
      · rw [out]
        rfl
      · rw [start]
        exact Loc.holdsFork_false (fun _ => rfl) (by simp [Phase.testing])
  · intro i below q member
    simp [laid.nobody (own_fork below)] at member
  · intro p i phase place
    obtain ⟨below, _, rfl⟩ := at_start place
    exact laid.thinking below
  · intro p i phase j check place testing
    obtain ⟨_, _, rfl⟩ := at_start place
    cases testing
  · intro i below _ eats
    rw [laid.count] at below
    exact absurd eats (calm below)
  · intro i below hungry
    simp [laid.thinking below] at hungry

/-- In a run of the philosophers the invariant holds. -/
theorem run_dined (laid : Laid n pids s)
    (run : Relation.ReflTransGen (Parties.Step Does (own n)) s s') :
    s'.sems.Orderly ∧ Dined n pids s' := by
  induction run with
  | refl => exact ⟨laid.orderly, laid.dined⟩
  | tail _ step ih =>
    obtain ⟨orderly, dined⟩ := ih
    exact ⟨step.orderly orderly, dined.step orderly step⟩

/-- Philosopher `i` has returned from the wait for its own semaphore and has not given its
forks back. -/
def Passed (pids : Nat → π) (i : Nat) (s : State π) : Prop :=
  (∃ phase, s.loc (pids i) = .seat i phase ∧ phase.dines = true) ∧
    pids i ∉ s.sems.waiting (philosopherSemaphore i)

/-- What holds at the table whenever the mutex is free. -/
structure Dinner (n : Nat) (pids : Nat → π) (s : State π) : Prop where
  apart : s.shared.Apart
  fed : ∀ i < n, s.shared.state i = .hungry →
    ∃ j, s.shared.Adjacent i j ∧ s.shared.state j = .eating
  token : ∀ i < n, s.sems.value (philosopherSemaphore i) ≤ 1 ∧
    (s.sems.value (philosopherSemaphore i) = 1 ↔
      s.shared.state i = .eating ∧ ¬ Passed pids i s)

omit [DecidableEq π] in
theorem Dined.nobody_locks (dined : Dined n pids s) (free : 0 < s.sems.value mutexId)
    (orderly : s.sems.Orderly) (p : π) : (s.loc p).locks = false := by
  apply dined.mutex.free free
  simp [orderly.eager _ free]

omit [DecidableEq π] in
/-- While nobody has the mutex, the tokens of a philosopher are in its semaphore or with it. -/
theorem Dined.tokens (dined : Dined n pids s) (orderly : s.sems.Orderly)
    (free : 0 < s.sems.value mutexId) (below : i < n) :
    (s.shared.state i = .eating ∧ ¬ Passed pids i s →
        s.sems.value (philosopherSemaphore i) = 1) ∧
      (s.shared.state i ≠ .eating ∨ Passed pids i s →
        s.sems.value (philosopherSemaphore i) = 0) := by
  obtain ⟨m, counts, law⟩ := (dined.forks below).law
  constructor
  · rintro ⟨eats, waits⟩
    have none : m = 0 := by
      refine counts.deterministic (.none ?_)
      rintro p ⟨holds, awake⟩
      have unlocked := dined.nobody_locks free orderly p
      cases place : s.loc p with
      | outside =>
        rw [place] at holds
        cases holds
      | seat k phase =>
        rw [place] at holds unlocked
        rcases of_decide_eq_true holds with ⟨rfl, dines⟩ | posts
        · obtain rfl := (dined.seats place).2
          exact waits ⟨⟨phase, place, dines⟩, awake⟩
        · exact absurd unlocked (by simp [Loc.locks, (Phase.locks_of_testing posts).1])
    simp [total, eats, none] at law
    exact law
  · rintro (calm | ⟨⟨phase, place, dines⟩, awake⟩)
    · simp [total, calm] at law
      exact law.1
    · have here : 0 < m := counts.pos ⟨by rw [place]; exact Loc.holdsFork_true (.inl ⟨rfl, dines⟩),
        awake⟩
      have most : total s.shared i ≤ 1 := by
        unfold total
        split <;> decide
      omega

omit [DecidableEq π] in
theorem Dined.dinner (dined : Dined n pids s) (orderly : s.sems.Orderly)
    (free : 0 < s.sems.value mutexId) : Dinner n pids s := by
  have unlocked := dined.nobody_locks free orderly
  refine ⟨dined.safe.apart, ?_, ?_⟩
  · intro i below hungry
    rcases dined.fed below hungry with (left | right) | ⟨p, k, phase, place, pending⟩
    · exact ⟨_, .inl rfl, left⟩
    · exact ⟨_, .inr rfl, right⟩
    · obtain ⟨j, check, testing⟩ := pending.testing
      have locked := unlocked p
      rw [place] at locked
      exact absurd locked (by simp [Loc.locks, (Phase.locks_of_testing testing).1])
  · intro i below
    obtain ⟨one, zero⟩ := dined.tokens orderly free below
    by_cases waits : s.shared.state i = .eating ∧ ¬ Passed pids i s
    · exact ⟨Nat.le_of_eq (one waits), fun _ => waits, one⟩
    · have none := zero (by tauto)
      refine ⟨by omega, fun token => ?_, fun both => absurd both waits⟩
      omega

/-- Philosophers at a table of any size, in any order of their steps. -/
theorem philosophers_dine (laid : Laid n pids s)
    (run : Relation.ReflTransGen (Parties.Step Does (own n)) s s')
    (free : 0 < s'.sems.value mutexId) : Dinner n pids s' := by
  obtain ⟨orderly, dined⟩ := run_dined laid run
  exact dined.dinner orderly free

/-! ## A dinner -/

def ids : List Int := (List.range (maxPhylos + 1)).map fun (k : Nat) => mutexId + (k : Int)

/-- The philosophers step in the order of the list. -/
def serve : List π → State π → Option (State π)
  | [], s => some s
  | p :: rest, s =>
    match s.loc p with
    | .outside => none
    | .seat i phase =>
      if s.asleep ids p = false ∧ i < maxPhylos then
        let (c, phase', t) := philosopher i phase s.shared
        serve rest (s.turn p c (.seat i phase') t)
      else none

theorem mem_ids {id : Int} (mine : own maxPhylos id) : id ∈ ids := by
  obtain ⟨low, high⟩ := mine
  refine List.mem_map.mpr ⟨(id - mutexId).toNat, List.mem_range.mpr ?_, ?_⟩
  · omega
  · omega

theorem run_of_serve {order : List π} (listed : s.Listed ids) (served : serve order s = some s') :
    Relation.ReflTransGen (Parties.Step Does (own n)) s s' := by
  induction order generalizing s with
  | nil =>
    cases served
    exact .refl
  | cons p rest ih =>
    unfold serve at served
    cases place : s.loc p with
    | outside => simp [place] at served
    | seat i phase =>
      simp only [place] at served
      split at served
      · rename_i guard
        have first : Parties.Step Does (own n) s (s.turn p (philosopher i phase s.shared).1
            (.seat i (philosopher i phase s.shared).2.1) (philosopher i phase s.shared).2.2) :=
          .turn (listed.awake guard.1) ⟨i, phase, place, rfl, rfl, rfl⟩
        refine .head first (ih (listed.turn ?_) served)
        intro id waits
        have move := philosopher_moves i phase s.shared
        rw [waits] at move
        rcases move.enters with ⟨rfl, _⟩ | ⟨rfl, _⟩
        · exact mem_ids own_mutex
        · exact mem_ids (own_fork guard.2)
      · cases served

/-- Four philosophers, each a process with the number of its seat. -/
def fourSeats : State Nat where
  sems := ⟨fun id => if id = mutexId then 1 else 0, fun _ => []⟩
  loc p := if p < 4 then .seat p .start else .outside
  shared := ⟨4, fun _ => .thinking⟩

theorem fourSeats_laid : Laid 4 id fourSeats where
  some := by decide
  few := by decide
  count := rfl
  thinking _ := rfl
  seated below := if_pos below
  outside := by
    intro p out
    refine if_neg fun below => ?_
    exact out p below rfl
  mutex := rfl
  forks _ := if_neg fork_ne_mutex
  nobody _ := rfl
  orderly := ⟨⟨fun _ => List.nodup_nil, fun member => nomatch member⟩, fun _ _ => rfl⟩

/-- Philosopher 0 takes its forks, 1 tries to, and 2 may take its own. -/
def order : List Nat := List.replicate 10 0 ++ List.replicate 7 1 ++ List.replicate 9 2

theorem order_served : (serve order fourSeats).isSome = true := by decide +kernel

def fourServed : State Nat := (serve order fourSeats).get order_served

theorem philosophers_dine_four : 0 < fourServed.sems.value mutexId ∧
    fourServed.shared.state 0 = .eating ∧ fourServed.shared.state 1 = .hungry ∧
    fourServed.shared.state 2 = .eating ∧ Passed id 0 fourServed ∧
    fourServed.sems.value (philosopherSemaphore 2) = 1 ∧ Dinner 4 id fourServed := by
  have run : Relation.ReflTransGen (Parties.Step Does (own 4)) fourSeats fourServed :=
    run_of_serve (fun _ _ => rfl) (Option.some_get order_served).symm
  have free : 0 < fourServed.sems.value mutexId := by decide +kernel
  have passed : Passed id 0 fourServed :=
    ⟨⟨.put .lock, by decide +kernel, rfl⟩, by decide +kernel⟩
  exact ⟨free, by decide +kernel, by decide +kernel, by decide +kernel, passed, by decide +kernel,
    philosophers_dine fourSeats_laid run free⟩

end SoKernel.Phylo
