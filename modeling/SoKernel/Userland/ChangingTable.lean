import SoKernel.Userland.FixedTable
import SoKernel.Lib.Transition

namespace SoKernel.Phylo
open Lib

/-! ## The controller of the table -/

/-- `phylosCount++`. -/
def Dining.grow (t : Dining) : Dining := { t with phylosCount := t.phylosCount + 1 }

/-- `phylosCount--`. -/
def Dining.shrink (t : Dining) : Dining := { t with phylosCount := t.phylosCount - 1 }

/-- The points of `addPhilosopher`; `close` is the way out of a call that has failed. -/
inductive Adding where
  | lock | thinking | open | idStr | argv | create | count | close | unlock
deriving DecidableEq, Repr

/-- The points of `removePhilosopher`. -/
inductive Removing where
  | lock | drop | kill | waitpid | close | unlock
deriving DecidableEq, Repr

/-- The points of `phylo` and `start`: `left` philosophers have still to be added before the
first key is read. -/
inductive Control where
  | next (left : Nat)
  | command
  | add (left : Nat) (point : Adding)
  | remove (point : Removing)
deriving DecidableEq, Repr

/-- The keys `'a'` and `'e'`. -/
inductive Key where
  | add | remove
deriving DecidableEq, Repr

inductive Place where
  | outside
  | seat (i : Nat) (phase : Phase)
  | control (point : Control)
deriving DecidableEq

/-- The parties, and what the controller and the kernel know of them. -/
structure Table (π : Type) where
  parties : Parties Int π Place Dining
  philosopherPids : Nat → Option π
  killed : π → Bool
  /-- The semaphores that are open. -/
  used : Int → Bool

/-- The key that is pressed, whether the system call succeeds, and the pid of a new process. -/
structure Choice (π : Type) where
  key : Key
  works : Bool
  pid : π

namespace Table

variable {π : Type} [DecidableEq π]

def shared (s : Table π) : Dining := s.parties.shared

def turn (p : π) (c : Command Int) (l : Place) (t : Dining) (s : Table π) : Table π :=
  { s with parties := s.parties.turn p c l t }

/-- The controller goes on to its next point. -/
def goes (p : π) (point : Control) (s : Table π) : Table π :=
  s.turn p .internal (.control point) s.shared

/-- The semaphore that the controller opens and closes. -/
def seatSemaphore (s : Table π) : Int := philosopherSemaphore s.shared.phylosCount

/-- A semaphore whose queue could not be created stays in use. -/
def semOpen (works : Bool) (id : Int) (s : Table π) : Bool × Table π :=
  if s.used id = true then (false, s)
  else (works, { s with
    parties := { s.parties with sems := s.parties.sems.reset id []}
    used := Function.update s.used id true })

/-- Who waited for it goes on waiting. -/
def semClose (id : Int) (s : Table π) : Bool × Table π :=
  if s.used id = true then
    (true, { s with
      parties := { s.parties with sems := s.parties.sems.reset id (s.parties.sems.waiting id) }
      used := Function.update s.used id false })
  else (false, s)

/-- A process of its own that begins with `philosopher`. -/
def createProcess (works : Bool) (pid : π) (s : Table π) : Table π :=
  let i := s.shared.phylosCount
  if works = true ∧ s.parties.loc pid = .outside then
    { s with
      parties := { s.parties with
        loc := Function.update s.parties.loc pid (.seat i .start) }
      philosopherPids := Function.update s.philosopherPids i (some pid) }
  else { s with philosopherPids := Function.update s.philosopherPids i none }

def kill (works : Bool) (s : Table π) : Bool × Table π :=
  match s.philosopherPids s.shared.phylosCount with
  | some pid =>
    if works = true then (true, { s with killed := Function.update s.killed pid true })
    else (false, s)
  | none => (false, s)

def addPhilosopher (p : π) (choice : Choice π) (left : Nat) : Adding → Table π → Table π
  | .lock, s => s.turn p (.wait mutexId) (.control (.add left .thinking)) s.shared
  | .thinking, s =>
    s.turn p .internal (.control (.add left .open)) (s.shared.set s.shared.phylosCount .thinking)
  | .open, s =>
    let (opened, s) := s.semOpen choice.works s.seatSemaphore
    s.goes p (.add left (if opened then .idStr else .unlock))
  | .idStr, s => s.goes p (.add left (if choice.works then .argv else .close))
  | .argv, s => s.goes p (.add left (if choice.works then .create else .close))
  | .create, s =>
    let s := s.createProcess choice.works choice.pid
    s.goes p (.add left
      (if (s.philosopherPids s.shared.phylosCount).isSome then .count else .close))
  | .count, s =>
    s.turn p .internal (.control (.add left .unlock))
      s.shared.grow
  | .close, s => (s.semClose s.seatSemaphore).2.goes p (.add left .unlock)
  | .unlock, s => s.turn p (.post mutexId) (.control (.next left)) s.shared

def removePhilosopher (p : π) (choice : Choice π) : Removing → Table π → Table π
  | .lock, s => s.turn p (.wait mutexId) (.control (.remove .drop)) s.shared
  | .drop, s =>
    s.turn p .internal (.control (.remove .kill))
      s.shared.shrink
  | .kill, s =>
    let (done, s) := s.kill choice.works
    s.goes p (.remove (if done then .waitpid else .unlock))
  | .waitpid, s => s.goes p (.remove .close)
  | .close, s => (s.semClose s.seatSemaphore).2.goes p (.remove .unlock)
  | .unlock, s => s.turn p (.post mutexId) (.control .command) s.shared

def control (p : π) (choice : Choice π) : Control → Table π → Table π
  | .next 0, s => s.goes p .command
  | .next (left + 1), s => s.goes p (.add left .lock)
  | .command, s =>
    match choice.key with
    | .add => s.goes p (if s.shared.phylosCount < maxPhylos then .add 0 .lock else .command)
    | .remove => s.goes p (if minPhylos < s.shared.phylosCount then .remove .lock else .command)
  | .add left point, s => s.addPhilosopher p choice left point
  | .remove point, s => s.removePhilosopher p choice point

/-- A philosopher goes on, or the controller does; or the wait of either finds no memory. -/
inductive Act (π : Type) where
  | philosopher (p : π)
  | controller (p : π) (choice : Choice π)
  | refused (p : π)

/-- The semaphore that a party is about to wait for, and where it goes on. -/
def awaits (p : π) (s : Table π) : Option (Int × Place) :=
  match s.parties.loc p with
  | .seat i phase =>
    match philosopher i phase s.shared with
    | (.wait id, phase', _) => if s.killed p = false then some (id, .seat i phase') else none
    | _ => none
  | .control (.add left .lock) => some (mutexId, .control (.add left .thinking))
  | .control (.remove .lock) => some (mutexId, .control (.remove .drop))
  | _ => none

/-- Who has not been killed and does not wait takes a step. The kernel's `wait` returns -1 where
the value is 0 and there is no memory for the pid, and nobody looks at what it returns. -/
inductive Step (s : Table π) : Act π → Table π → Prop
  | philosopher {p : π} {i : Nat} {phase : Phase} : s.parties.loc p = .seat i phase →
      s.killed p = false → ¬ s.parties.sems.Sleeps p →
      Step s (.philosopher p) (s.turn p (philosopher i phase s.shared).1
        (.seat i (philosopher i phase s.shared).2.1) (philosopher i phase s.shared).2.2)
  | controller {p : π} {choice : Choice π} {point : Control} :
      s.parties.loc p = .control point → ¬ s.parties.sems.Sleeps p →
      Step s (.controller p choice) (s.control p choice point)
  | refused {p : π} {id : Int} {l : Place} : s.awaits p = some (id, l) →
      ¬ s.parties.sems.Sleeps p → s.parties.sems.value id = 0 →
      Step s (.refused p) (s.turn p .internal l s.shared)

end Table

/-! ## The ring grows and shrinks -/

namespace Dining

variable {t : Dining}

theorem right_next {i : Nat} (next : i + 1 < t.phylosCount) : t.right i = i + 1 :=
  Nat.mod_eq_of_lt next

theorem right_last {i : Nat} (last : i + 1 = t.phylosCount) : t.right i = 0 := by
  simp [right, last]

/-- A new philosopher that does not eat. -/
theorem Safe.grow (safe : t.Safe) (calm : t.state t.phylosCount ≠ .eating) : t.grow.Safe := by
  intro i below apart first second
  change t.state i = .eating at first
  change t.state (t.grow.right i) = .eating at second
  have inside : i < t.phylosCount := by
    change i < t.phylosCount + 1 at below
    have other : i ≠ t.phylosCount := by
      rintro rfl
      exact calm first
    omega
  have next : t.grow.right i = i + 1 := right_next (Nat.succ_lt_succ inside)
  rw [next] at second
  have inside' : i + 1 < t.phylosCount := by
    have other : i + 1 ≠ t.phylosCount := by
      intro same
      rw [same] at second
      exact calm second
    omega
  refine safe i inside ?_ first ?_
  · rw [right_next inside']
    omega
  · rw [right_next inside']
    exact second

/-- Without its last seat the ring has two neighbours that both eat. -/
def Closes (t : Dining) : Prop :=
  4 ≤ t.phylosCount ∧ t.state 0 = .eating ∧ t.state (t.phylosCount - 2) = .eating

instance : Decidable t.Closes := inferInstanceAs (Decidable (_ ∧ _ ∧ _))

/-- The ring of the others is safe exactly when it does not close over two that eat. -/
theorem Safe.shrink_iff (safe : t.Safe) : t.shrink.Safe ↔ ¬ t.Closes := by
  constructor
  · rintro safe' ⟨many, first, last⟩
    have round : t.shrink.right (t.phylosCount - 2) = 0 := by
      apply right_last
      change t.phylosCount - 2 + 1 = t.phylosCount - 1
      omega
    refine safe' (t.phylosCount - 2) ?_ ?_ last ?_
    · change t.phylosCount - 2 < t.phylosCount - 1
      omega
    · rw [round]
      omega
    · rw [round]
      exact first
  · intro opens i below apart first second
    change i < t.phylosCount - 1 at below
    by_cases last : i + 1 = t.shrink.phylosCount
    · have same : i + 1 = t.phylosCount - 1 := last
      rw [right_last last] at apart second
      -- of three seats the two others were neighbours before
      by_cases three : t.phylosCount = 3
      · have one : i = 1 := by omega
        have next : t.right 0 = 1 := right_next (by omega)
        refine safe 0 (by omega) (by simp [next]) second ?_
        rw [next, ← one]
        exact first
      · refine opens ⟨by omega, second, ?_⟩
        rw [show t.phylosCount - 2 = i by omega]
        exact first
    · have next : i + 1 < t.phylosCount - 1 := by
        change i + 1 ≠ t.phylosCount - 1 at last
        omega
      have here : t.shrink.right i = i + 1 := right_next next
      have before : t.right i = i + 1 := right_next (by omega)
      rw [here] at apart second
      refine safe i (by omega) ?_ first ?_
      · rw [before]
        exact apart
      · rw [before]
        exact second

end Dining

/-! ## The invariant -/

namespace Control

/-- It has the mutex, or waits for it. -/
def locks : Control → Bool
  | .next _ | .command | .add _ .lock | .remove .lock => false
  | .add _ _ | .remove _ => true

/-- The seat that is about to be counted stays free of forks. -/
def Knows (t : Dining) : Control → Prop
  | .add _ .open | .add _ .idStr | .add _ .argv | .add _ .create | .add _ .count =>
    t.state t.phylosCount ≠ .eating
  | .add _ .lock | .add _ .thinking | .add _ .close | .add _ .unlock => True
  | .next _ | .command | .remove _ => True

end Control

namespace Place

def locks : Place → Bool
  | .outside => false
  | .seat _ phase => phase.locks
  | .control point => point.locks

/-- The wait for the mutex leads here. -/
def enters : Place → Bool
  | .seat _ (.take .hungry) | .seat _ (.put .thinking) => true
  | .control (.add _ .thinking) | .control (.remove .drop) => true
  | _ => false

/-- What a party has found out while it has the mutex. -/
def Knows (t : Dining) : Place → Prop
  | .outside => True
  | .seat i phase => ∀ {j check}, phase.testing i = some (j, check) → Unfed t j check
  | .control point => point.Knows t

variable {t : Dining} {l : Place} {i : Nat}

/-- Who has to wait for the mutex, or has just got it, has found out nothing. -/
theorem knows_of_waiting (waits : l.locks = false ∨ l.enters = true) : l.Knows t := by
  cases l with
  | outside => trivial
  | seat i phase =>
    intro j check here
    have locks := (Phase.locks_of_testing here).1
    rcases waits with outside | enters
    · rw [show (Place.seat i phase).locks = phase.locks from rfl, locks] at outside
      cases outside
    · cases phase with
      | start => cases enters
      | take point =>
        cases point with
        | hungry => cases here
        | _ => cases enters
      | put point =>
        cases point with
        | thinking => cases here
        | _ => cases enters
  | control point =>
    cases point with
    | add left point =>
      cases point with
      | lock => trivial
      | thinking => trivial
      | close => trivial
      | unlock => trivial
      | _ => rcases waits with never | never <;> cases never
    | _ => trivial

/-- A philosopher that begins spoils nothing. -/
theorem Knows.set_thinking (knows : l.Knows t) : l.Knows (t.set i .thinking) := by
  have calm : ∀ {k}, t.state k ≠ .eating → (t.set i .thinking).state k ≠ .eating := by
    intro k before
    by_cases same : k = i
    · simp [same]
    · rw [Dining.set_other same]
      exact before
  cases l with
  | outside => trivial
  | seat k phase =>
    intro j check here
    have before := knows here
    cases check with
    | right => exact calm before
    | set => exact ⟨calm before.1, calm before.2⟩
    | _ => trivial
  | control point =>
    cases point with
    | add left point =>
      cases point with
      | lock => trivial
      | thinking => trivial
      | close => trivial
      | unlock => trivial
      | _ => exact calm knows
    | _ => trivial

end Place

variable {π : Type} [DecidableEq π] {p q : π} {c : Command Int} {l : Place} {t : Dining}
variable {s s' : Parties Int π Place Dining}

/-- The invariant of a table that changes. -/
structure Ringed (s : Parties Int π Place Dining) : Prop where
  orderly : s.sems.Orderly
  mutex : s.Books mutexId Place.locks 1
  lockers : s.Queued mutexId fun l => l.enters = true
  knows : ∀ p, (s.loc p).Knows s.shared
  safe : s.shared.Safe

namespace Ringed

/-- Parties that do not have the mutex know nothing that a step under the mutex could spoil. -/
theorem knows_other (ringed : Ringed s) (awake : ¬ s.sems.Sleeps p)
    (locks : (s.loc p).locks = true) (other : q ≠ p) : (s.loc q).Knows t := by
  apply Place.knows_of_waiting
  by_cases waits : q ∈ s.sems.waiting mutexId
  · exact .inr (ringed.lockers q waits)
  · refine .inl (Bool.eq_false_iff.mpr fun theirs => other ?_)
    exact ringed.mutex.alone ⟨theirs, waits⟩ ⟨locks, fun member => awake ⟨mutexId, member⟩⟩

/-- One party takes a step: what it writes it writes under the mutex, unless it begins. -/
theorem turn (ringed : Ringed s) (awake : ¬ s.sems.Sleeps p)
    (balance : Parties.Balance mutexId Place.locks 1 (s.loc p) c l 1)
    (enters : c = .wait mutexId → l.enters = true)
    (writes : t = s.shared ∨ (∃ i, t = s.shared.set i .thinking) ∨ (s.loc p).locks = true)
    (knows : l.Knows t) (safe : t.Safe) : Ringed (s.turn p c l t) where
  orderly := by
    cases c with
    | wait i => exact ringed.orderly.wait awake
    | post i => exact ringed.orderly.post
    | internal => exact ringed.orderly
  mutex := ringed.mutex.turn ringed.orderly awake balance
  lockers := ringed.lockers.turn ringed.orderly awake enters
  knows := by
    intro q
    change (Function.update s.loc p l q).Knows t
    by_cases same : q = p
    · rw [same, Function.update_self]
      exact knows
    · rw [Function.update_of_ne same]
      rcases writes with rfl | ⟨i, rfl⟩ | locks
      · exact ringed.knows q
      · exact (ringed.knows q).set_thinking
      · exact ringed.knows_other awake locks same
  safe := safe

/-- A philosopher takes a step. -/
theorem philosopher {i : Nat} {phase phase' : Phase} (ringed : Ringed s)
    (awake : ¬ s.sems.Sleeps p) (place : s.loc p = .seat i phase)
    (move : Move i s.shared phase c phase' t) : Ringed (s.turn p c (.seat i phase') t) := by
  have knows := ringed.knows p
  rw [place] at knows
  refine ringed.turn awake ?_ ?_ ?_ (fun here => move.unfed knows here)
    (move.safe ringed.safe knows)
  · rw [place]
    exact move.mutex fun _ => rfl
  · rintro rfl
    rcases move.enters with ⟨_, rfl | rfl⟩ | ⟨same, _⟩
    · rfl
    · rfl
    · exact absurd same.symm fork_ne_mutex
  · rcases move.writes_thinking with same | thinking | locks
    · exact .inl same
    · exact .inr (.inl ⟨i, thinking⟩)
    · refine .inr (.inr ?_)
      rw [place]
      exact locks

/-- The controller goes on with the mutex, or without it. -/
theorem goes {point next : Control} (ringed : Ringed s) (awake : ¬ s.sems.Sleeps p)
    (place : s.loc p = .control point) (locks : next.locks = point.locks)
    (knows : next.Knows s.shared) :
    Ringed (s.turn p .internal (.control next) s.shared) := by
  refine ringed.turn awake (.still (by simp) (by simp) ?_) (by simp) (.inl rfl) knows ringed.safe
  rw [place]
  exact locks

omit [DecidableEq π] in
/-- Semaphores other than the mutex are opened and closed. -/
theorem reset {id : Int} {waiters : List π} (ringed : Ringed s) (other : mutexId ≠ id)
    (fewer : waiters.Sublist (s.sems.waiting id)) :
    Ringed { s with sems := s.sems.reset id waiters } where
  orderly := ringed.orderly.reset fewer
  mutex := ringed.mutex.others (Semaphores.reset_other other)
  lockers := by
    intro q member
    simp only [(Semaphores.reset_other other).2] at member
    exact ringed.lockers q member
  knows := ringed.knows
  safe := ringed.safe

/-- A new philosopher sits down. -/
theorem seats (ringed : Ringed s) (out : s.loc q = .outside) (i : Nat) :
    Ringed { s with loc := Function.update s.loc q (.seat i .start) } where
  orderly := ringed.orderly
  mutex := by
    apply ringed.mutex.relocate
    intro r
    by_cases same : r = q
    · rw [same, Function.update_self, out]
      rfl
    · rw [Function.update_of_ne same]
  lockers := by
    intro r member
    have other : r ≠ q := by
      rintro rfl
      have enters := ringed.lockers r member
      rw [out] at enters
      cases enters
    change (Function.update s.loc q (.seat i .start) r).enters = true
    rw [Function.update_of_ne other]
    exact ringed.lockers r member
  knows := by
    intro r
    change (Function.update s.loc q (.seat i .start) r).Knows s.shared
    by_cases same : r = q
    · rw [same, Function.update_self]
      exact fun never => nomatch never
    · rw [Function.update_of_ne same]
      exact ringed.knows r
  safe := ringed.safe

end Ringed

/-! ## The steps of the controller -/

namespace Table

variable {p : π} {choice : Choice π} {left : Nat} {s s' : Table π} {id : Int}

/-- The controller is at a point of its program and may go on. -/
structure At (p : π) (point : Control) (s : Table π) : Prop where
  ringed : Ringed s.parties
  place : s.parties.loc p = .control point
  awake : ¬ s.parties.sems.Sleeps p

omit [DecidableEq π] in
theorem At.reset {point : Control} {waiters : List π} (here : At p point s) (other : mutexId ≠ id)
    (fewer : waiters.Sublist (s.parties.sems.waiting id)) (used : Int → Bool) :
    At p point { s with
      parties := { s.parties with sems := s.parties.sems.reset id waiters }, used := used } where
  ringed := here.ringed.reset other fewer
  place := here.place
  awake := fun ⟨i, member⟩ => here.awake ⟨i, Semaphores.mem_reset fewer member⟩

omit [DecidableEq π] in
theorem At.semOpen {point : Control} (here : At p point s) (works : Bool) (other : mutexId ≠ id) :
    At p point (s.semOpen works id).2 ∧ (s.semOpen works id).2.shared = s.shared := by
  unfold Table.semOpen
  split
  · exact ⟨here, rfl⟩
  · exact ⟨here.reset other (List.nil_sublist _) _, rfl⟩

omit [DecidableEq π] in
theorem At.semClose {point : Control} (here : At p point s) (other : mutexId ≠ id) :
    At p point (s.semClose id).2 := by
  unfold Table.semClose
  split
  · exact here.reset other (List.Sublist.refl _) _
  · exact here

theorem At.createProcess {point : Control} (here : At p point s) (works : Bool) (pid : π) :
    At p point (s.createProcess works pid) ∧ (s.createProcess works pid).shared = s.shared := by
  unfold Table.createProcess
  dsimp only
  split
  · rename_i fresh
    have other : p ≠ pid := by
      rintro rfl
      rw [here.place] at fresh
      cases fresh.2
    refine ⟨⟨here.ringed.seats fresh.2 _, ?_, here.awake⟩, rfl⟩
    exact (Function.update_of_ne other _ _).trans here.place
  · exact ⟨⟨here.ringed, here.place, here.awake⟩, rfl⟩

theorem At.kill {point : Control} (here : At p point s) (works : Bool) :
    At p point (s.kill works).2 := by
  unfold Table.kill
  split
  · split
    · exact ⟨here.ringed, here.place, here.awake⟩
    · exact here
  · exact here

theorem At.goes {point next : Control} (here : At p point s) (locks : next.locks = point.locks)
    (knows : next.Knows s.shared) : Ringed (s.goes p next).parties :=
  here.ringed.goes here.awake here.place locks knows

omit [DecidableEq π] in
theorem seat_ne_mutex : mutexId ≠ s.seatSemaphore := fork_ne_mutex.symm

omit [DecidableEq π] in
theorem At.knows {point : Control} (here : At p point s) : point.Knows s.shared := by
  have knows := here.ringed.knows p
  rw [here.place] at knows
  exact knows

theorem At.addPhilosopher {point : Adding} (here : At p (.add left point) s) :
    Ringed (s.addPhilosopher p choice left point).parties := by
  have ringed := here.ringed
  have place := here.place
  have knows := here.knows
  cases point with
  | lock =>
    refine ringed.turn here.awake (.waits ?_ rfl) (fun _ => rfl) (.inl rfl) trivial ringed.safe
    rw [place]
    rfl
  | thinking =>
    refine ringed.turn here.awake (.still (by simp) (by simp) ?_) (by simp)
      (.inr (.inl ⟨_, rfl⟩)) ?_ (ringed.safe.set (by decide))
    · rw [place]
      rfl
    · change (s.shared.set s.shared.phylosCount .thinking).state s.shared.phylosCount ≠ .eating
      simp
  | «open» =>
    obtain ⟨opened, same⟩ := here.semOpen choice.works seat_ne_mutex
    unfold Table.addPhilosopher
    dsimp only
    generalize s.semOpen choice.works s.seatSemaphore = result at opened same ⊢
    split
    · refine opened.goes rfl ?_
      rw [same]
      exact knows
    · exact opened.goes rfl trivial
  | idStr =>
    change Ringed (s.goes p (.add left (if choice.works then .argv else .close))).parties
    split
    · exact here.goes rfl knows
    · exact here.goes rfl trivial
  | argv =>
    change Ringed (s.goes p (.add left (if choice.works then .create else .close))).parties
    split
    · exact here.goes rfl knows
    · exact here.goes rfl trivial
  | create =>
    obtain ⟨created, same⟩ := here.createProcess choice.works choice.pid
    unfold Table.addPhilosopher
    dsimp only
    generalize s.createProcess choice.works choice.pid = result at created same ⊢
    split
    · refine created.goes rfl ?_
      rw [same]
      exact knows
    · exact created.goes rfl trivial
  | count =>
    refine ringed.turn here.awake (.still (by simp) (by simp) ?_) (by simp) (.inr (.inr ?_)) trivial
      (ringed.safe.grow knows)
    · rw [place]
      rfl
    · rw [place]
      rfl
  | close => exact (here.semClose seat_ne_mutex).goes rfl trivial
  | unlock =>
    refine ringed.turn here.awake (.posts ?_ rfl) (by simp) (.inl rfl) trivial ringed.safe
    rw [place]
    rfl

theorem At.removePhilosopher {point : Removing} (here : At p (.remove point) s)
    (opens : point = .drop → ¬ s.shared.Closes) :
    Ringed (s.removePhilosopher p choice point).parties := by
  have ringed := here.ringed
  have place := here.place
  cases point with
  | lock =>
    refine ringed.turn here.awake (.waits ?_ rfl) (fun _ => rfl) (.inl rfl) trivial ringed.safe
    rw [place]
    rfl
  | drop =>
    refine ringed.turn here.awake (.still (by simp) (by simp) ?_) (by simp) (.inr (.inr ?_)) trivial
      (ringed.safe.shrink_iff.mpr (opens rfl))
    · rw [place]
      rfl
    · rw [place]
      rfl
  | kill =>
    have killed := here.kill choice.works
    unfold Table.removePhilosopher
    dsimp only
    generalize s.kill choice.works = result at killed ⊢
    split
    · exact killed.goes rfl trivial
    · exact killed.goes rfl trivial
  | waitpid => exact here.goes rfl trivial
  | close => exact (here.semClose seat_ne_mutex).goes rfl trivial
  | unlock =>
    refine ringed.turn here.awake (.posts ?_ rfl) (by simp) (.inl rfl) trivial ringed.safe
    rw [place]
    rfl

theorem At.control {point : Control} (here : At p point s)
    (opens : point = .remove .drop → ¬ s.shared.Closes) :
    Ringed (s.control p choice point).parties := by
  cases point with
  | next left =>
    cases left with
    | zero => exact here.goes rfl trivial
    | succ left => exact here.goes rfl trivial
  | command =>
    unfold Table.control
    cases choice.key with
    | add =>
      dsimp only
      split
      · exact here.goes rfl trivial
      · exact here.goes rfl trivial
    | remove =>
      dsimp only
      split
      · exact here.goes rfl trivial
      · exact here.goes rfl trivial
  | add left point => exact here.addPhilosopher
  | remove point =>
    refine here.removePhilosopher fun drops => opens ?_
    rw [drops]

/-! ## Runs -/

/-- `phylo` has opened the mutex and is about to add `aux` philosophers. -/
structure Begun (boss : π) (aux : Nat) (s : Table π) : Prop where
  some : minPhylos ≤ aux
  few : aux ≤ maxPhylos
  count : s.shared.phylosCount = 0
  controls : s.parties.loc boss = .control (.next aux)
  outside : ∀ {p}, p ≠ boss → s.parties.loc p = .outside
  mutex : s.parties.sems.value mutexId = 1
  nobody : s.parties.sems.waiting mutexId = []
  orderly : s.parties.sems.Orderly

omit [DecidableEq π] in
theorem Begun.ringed {boss : π} {aux : Nat} (begun : Begun boss aux s) : Ringed s.parties := by
  have places : ∀ p, s.parties.loc p = .outside ∨ s.parties.loc p = .control (.next aux) := by
    intro p
    by_cases same : p = boss
    · rw [same]
      exact .inr begun.controls
    · exact .inl (begun.outside same)
  refine ⟨begun.orderly, .start begun.mutex begun.nobody ?_, ?_, ?_, ?_⟩
  · intro p
    rcases places p with out | boss
    · rw [out]
      rfl
    · rw [boss]
      rfl
  · intro q member
    rw [begun.nobody] at member
    cases member
  · intro p
    rcases places p with out | boss
    · rw [out]
      trivial
    · rw [boss]
      trivial
  · intro i below
    change i < s.shared.phylosCount at below
    rw [begun.count] at below
    cases below

/-- The step takes the last seat away between two that eat. -/
def ClosesRing (act : Act π) (s : Table π) : Prop :=
  match act with
  | .philosopher _ | .refused _ => False
  | .controller p _ => s.parties.loc p = .control (.remove .drop) ∧ s.shared.Closes

/-- The wait, if it is one, finds its token or the memory to sleep. -/
def Granted (act : Act π) : Prop :=
  match act with
  | .philosopher _ | .controller _ _ => True
  | .refused _ => False

theorem Step.ringed {act : Act π} (step : Step s act s') (opens : ¬ ClosesRing act s)
    (granted : Granted act) (ringed : Ringed s.parties) : Ringed s'.parties := by
  cases step with
  | refused _ _ _ => exact granted.elim
  | @philosopher p i phase place _ awake =>
    exact ringed.philosopher awake place (philosopher_moves i phase s.shared)
  | @controller p choice point place awake =>
    have here : At p point s := ⟨ringed, place, awake⟩
    refine here.control fun drops closes => opens ⟨?_, closes⟩
    rw [place, drops]

/-- As long as no seat is taken away between two that eat and every wait finds memory, neighbours
do not eat together. -/
theorem neighbours_apart {boss : π} {aux : Nat} {acts : List (Act π)} (begun : Begun boss aux s)
    (run : Run (fun s act s' => Step s act s' ∧ ¬ ClosesRing act s ∧ Granted act) s acts s') :
    0 < s'.parties.sems.value mutexId → 2 ≤ s'.shared.phylosCount → s'.shared.Apart := by
  intro _ _
  have ringed := run.preserves (fun s => Ringed s.parties)
    (fun ringed step => step.1.ringed step.2.1 step.2.2 ringed) begun.ringed
  exact ringed.safe.apart

/-! ## Runs of the controller -/

def next (act : Act π) (s : Table π) : Option (Table π) :=
  match act with
  | .philosopher p =>
    match s.parties.loc p with
    | .seat i phase =>
      if s.killed p = false ∧ s.parties.asleep ids p = false ∧ i < maxPhylos then
        let (c, phase', t) := philosopher i phase s.shared
        some (s.turn p c (.seat i phase') t)
      else none
    | .outside | .control _ => none
  | .controller p choice =>
    match s.parties.loc p with
    | .control point =>
      if s.parties.asleep ids p = false then some (s.control p choice point) else none
    | .outside | .seat _ _ => none
  | .refused p =>
    match s.awaits p with
    | some (id, l) =>
      if s.parties.asleep ids p = false ∧ s.parties.sems.value id = 0 then
        some (s.turn p .internal l s.shared)
      else none
    | none => none

/-- The steps of the list, each only if it is allowed. -/
def exec (allowed : Act π → Table π → Bool) : List (Act π) → Table π → Option (Table π)
  | [], s => some s
  | act :: acts, s => if allowed act s then (s.next act).bind (exec allowed acts) else none

theorem turn_listed {c : Command Int} {l : Place} {t : Dining} (listed : s.parties.Listed ids)
    (on : ∀ id, c = .wait id → id = mutexId) : (s.turn p c l t).parties.Listed ids := by
  refine listed.turn fun id waits => ?_
  rw [on id waits]
  exact mem_ids own_mutex

omit [DecidableEq π] in
theorem semOpen_listed {works : Bool} (listed : s.parties.Listed ids) :
    (s.semOpen works id).2.parties.Listed ids := by
  unfold semOpen
  split
  · exact listed
  · exact listed.reset (List.nil_sublist _)

omit [DecidableEq π] in
theorem semClose_listed (listed : s.parties.Listed ids) :
    (s.semClose id).2.parties.Listed ids := by
  unfold semClose
  split
  · exact listed.reset (List.Sublist.refl _)
  · exact listed

theorem control_listed {point : Control} (listed : s.parties.Listed ids) :
    (s.control p choice point).parties.Listed ids := by
  cases point with
  | next left => cases left <;> exact turn_listed listed (by simp)
  | command =>
    unfold control
    cases choice.key <;> exact turn_listed listed (by simp)
  | add left point =>
    cases point with
    | lock => exact turn_listed listed (by simp)
    | «open» => exact turn_listed (semOpen_listed listed) (by simp)
    | create =>
      refine turn_listed ?_ (by simp)
      unfold createProcess
      dsimp only
      split
      · exact listed
      · exact listed
    | close => exact turn_listed (semClose_listed listed) (by simp)
    | _ => exact turn_listed listed (by simp)
  | remove point =>
    cases point with
    | lock => exact turn_listed listed (by simp)
    | kill =>
      refine turn_listed ?_ (by simp)
      change (s.kill choice.works).2.parties.Listed ids
      unfold kill
      split
      · split
        · exact listed
        · exact listed
      · exact listed
    | close => exact turn_listed (semClose_listed listed) (by simp)
    | _ => exact turn_listed listed (by simp)

theorem step_of_next {act : Act π} (listed : s.parties.Listed ids) (found : s.next act = some s') :
    Step s act s' ∧ s'.parties.Listed ids := by
  cases act with
  | philosopher p =>
    cases place : s.parties.loc p with
    | seat i phase =>
      simp only [next, place] at found
      split at found
      · rename_i guard
        cases found
        refine ⟨.philosopher place guard.1 (listed.awake guard.2.1), listed.turn ?_⟩
        intro id waits
        have move := philosopher_moves i phase s.shared
        rw [waits] at move
        rcases move.enters with ⟨rfl, _⟩ | ⟨rfl, _⟩
        · exact mem_ids own_mutex
        · exact mem_ids (own_fork guard.2.2)
      · cases found
    | _ => simp [next, place] at found
  | controller p choice =>
    cases place : s.parties.loc p with
    | control point =>
      simp only [next, place] at found
      split at found
      · rename_i guard
        cases found
        exact ⟨.controller place (listed.awake guard), control_listed listed⟩
      · cases found
    | _ => simp [next, place] at found
  | refused p =>
    cases waits : s.awaits p with
    | some wait =>
      simp only [next, waits] at found
      split at found
      · rename_i guard
        cases found
        exact ⟨.refused waits (listed.awake guard.1) guard.2, turn_listed listed (by simp)⟩
      · cases found
    | none => simp [next, waits] at found

theorem run_of_exec {allowed : Act π → Table π → Bool} {acts : List (Act π)}
    (listed : s.parties.Listed ids) (found : exec allowed acts s = some s') :
    Run (fun s act s' => Step s act s' ∧ allowed act s = true) s acts s' := by
  induction acts generalizing s with
  | nil =>
    cases found
    exact .nil
  | cons act acts ih =>
    unfold exec at found
    split at found
    · rename_i may
      obtain ⟨middle, first, rest⟩ := Option.bind_eq_some_iff.mp found
      obtain ⟨step, listed⟩ := step_of_next listed first
      exact .cons ⟨step, may⟩ (ih listed rest)
    · cases found

instance (act : Act π) (s : Table π) : Decidable (ClosesRing act s) := by
  unfold ClosesRing
  split <;> infer_instance

instance (act : Act π) : Decidable (Granted act) := by
  unfold Granted
  split <;> infer_instance

/-- Process 0 runs `phylo`. -/
def beginning (aux : Nat) : Table Nat where
  parties :=
    { sems := ⟨fun id => if id = mutexId then 1 else 0, fun _ => []⟩
      loc := fun p => if p = 0 then .control (.next aux) else .outside
      shared := ⟨0, fun _ => .thinking⟩ }
  philosopherPids _ := none
  killed _ := false
  used _ := false

theorem beginning_begun {aux : Nat} (some : minPhylos ≤ aux) (few : aux ≤ maxPhylos) :
    Begun 0 aux (beginning aux) where
  some := some
  few := few
  count := rfl
  controls := rfl
  outside other := if_neg other
  mutex := rfl
  nobody := rfl
  orderly := ⟨⟨fun _ => List.nodup_nil, fun member => nomatch member⟩, fun _ _ => rfl⟩

/-- The controller goes on, with every call that it makes. -/
def works (key : Key) (pid : Nat) : Act Nat := .controller 0 ⟨key, true, pid⟩

/-- Four philosophers are added, those of `eaters` take their forks, and the last seat is
taken away. -/
def removal (eaters : List Nat) : List (Act Nat) :=
  (List.range 4).flatMap (fun i => List.replicate 9 (works .add (i + 1))) ++ [works .add 0] ++
    eaters.flatMap (fun p => List.replicate 10 (.philosopher p)) ++
    List.replicate 7 (works .remove 0)

theorem removal_open : (exec (fun act s => ¬ ClosesRing act s ∧ Granted act) (removal [1])
    (beginning 4)).isSome = true := by
  decide +kernel

/-- Philosopher 0 eats while the last seat is taken away. -/
theorem neighbours_apart_removal : ∃ s' : Table Nat,
    Run (fun s act s' => Step s act s' ∧ ¬ ClosesRing act s ∧ Granted act) (beginning 4)
      (removal [1]) s' ∧ 0 < s'.parties.sems.value mutexId ∧ s'.shared.phylosCount = 3 ∧
      s'.shared.state 0 = .eating ∧ s'.shared.Apart := by
  have allowed := run_of_exec (fun _ _ => rfl) (Option.some_get removal_open).symm
  have run : Run (fun s act s' => Step s act s' ∧ ¬ ClosesRing act s ∧ Granted act) (beginning 4)
      (removal [1]) _ :=
    allowed.mono fun step => ⟨step.1, of_decide_eq_true step.2⟩
  exact ⟨_, run, by decide +kernel, by decide +kernel, by decide +kernel,
    neighbours_apart (beginning_begun (by decide) (by decide)) run (by decide +kernel)
      (by decide +kernel)⟩

theorem removal_closes :
    (exec (fun _ _ => true) (removal [1, 3]) (beginning 4)).isSome = true := by
  decide +kernel

/-- Philosophers 0 and 2 eat when seat 3 is taken away: then they are neighbours. -/
theorem neighbours_meet : ¬ ∀ (s s' : Table Nat) (aux : Nat) (acts : List (Act Nat)),
    Begun 0 aux s → Run Step s acts s' → 0 < s'.parties.sems.value mutexId →
      2 ≤ s'.shared.phylosCount → s'.shared.Apart := by
  intro apart
  have run := (run_of_exec (fun _ _ => rfl) (Option.some_get removal_closes).symm).mono And.left
  have never := apart _ _ 4 _ (beginning_begun (by decide) (by decide)) run (by decide +kernel)
    (by decide +kernel) 0 (by decide +kernel) 2 (by decide +kernel) (by decide)
    (.inl (by decide +kernel))
  exact never (by decide +kernel)

/-- Philosopher 0 has looked at its neighbours when the wait of philosopher 1 for the mutex is
refused: nobody is taken away. -/
def refusal : List (Act Nat) :=
  (List.range 4).flatMap (fun i => List.replicate 9 (works .add (i + 1))) ++ [works .add 0] ++
    List.replicate 6 (.philosopher 1) ++ [.philosopher 2, .refused 2] ++
    List.replicate 7 (.philosopher 2) ++ List.replicate 3 (.philosopher 1)

theorem refusal_runs : (exec (fun act s => ¬ ClosesRing act s) refusal (beginning 4)).isSome =
    true := by
  decide +kernel

/-- Then both eat. -/
theorem refused_wait_meets : ∃ s' : Table Nat,
    Run (fun s act s' => Step s act s' ∧ ¬ ClosesRing act s) (beginning 4) refusal s' ∧
      0 < s'.parties.sems.value mutexId ∧ ¬ s'.shared.Apart := by
  have allowed := run_of_exec (fun _ _ => rfl) (Option.some_get refusal_runs).symm
  refine ⟨_, allowed.mono fun step => ⟨step.1, of_decide_eq_true step.2⟩, by decide +kernel,
    fun apart => ?_⟩
  exact apart 0 (by decide +kernel) 1 (by decide +kernel) (by decide) (.inr (by decide +kernel))
    (by decide +kernel)

end Table

end SoKernel.Phylo
