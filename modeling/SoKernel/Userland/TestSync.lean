import SoKernel.Kernel.Clients
import Mathlib.Data.BitVec
import Mathlib.Tactic.Ring
import Mathlib.Algebra.BigOperators.Group.Finset.Basic

namespace SoKernel
open MemoryManager QueueName Lib Kernel SoKernel.System

variable {M : Type}

/-! ## `tests/test_sync.c` -/

namespace TestSync

/-- `SEM_ID`. -/
def semId : Int := 150

/-- Where a process is in `my_process_inc`, called with `n`, `inc` and `use_sem` set. -/
inductive Loc where
  | outside
  /-- At the test of the loop. -/
  | loop (n : Nat) (inc : BitVec 8) (i : Nat)
  /-- `sem_wait` has returned. -/
  | entered (n : Nat) (inc : BitVec 8) (i : Nat)
  /-- `slowInc` has read `*p` and is about to yield. -/
  | yielding (n : Nat) (inc : BitVec 8) (i : Nat) (aux : BitVec 64)
  | writing (n : Nat) (inc : BitVec 8) (i : Nat) (aux : BitVec 64)
  /-- About to post. -/
  | leaving (n : Nat) (inc : BitVec 8) (i : Nat)
  | returned (n : Nat) (inc : BitVec 8) (i : Nat) (status : Int)

/-- The arguments, as `satoi` parsed them. -/
structure Args where
  n : Nat
  inc : BitVec 8

/-- One step of `my_process_inc` and the `slowInc` in it. -/
def myProcessInc : Program Args Loc (BitVec 64) := fun args l _ global =>
  match l with
  | .outside =>
    if args.n = 0 ∨ args.inc = 0 then some (.nothing, .returned args.n args.inc 0 (-1), global)
    else some (.nothing, .loop args.n args.inc 0, global)
  | .loop n inc i =>
    if i < n then some (.wait semId, .entered n inc i, global)
    else some (.nothing, .returned n inc i 0, global)
  | .entered n inc i => some (.nothing, .yielding n inc i global, global)
  | .yielding n inc i aux => some (.yield, .writing n inc i aux, global)
  | .writing n inc i aux => some (.nothing, .leaving n inc i, aux + inc.signExtend 64)
  | .leaving n inc i => some (.post semId, .loop n inc (i + 1), global)
  | .returned _ _ _ _ => none

namespace Loc

/-- The iterations that have run to their end. -/
def completed : Loc → Nat
  | .outside => 0
  | .loop _ _ i | .entered _ _ i | .yielding _ _ i _ | .writing _ _ i _ | .leaving _ _ i => i
  | .returned _ _ i _ => i

def count : Loc → Nat
  | .outside => 0
  | .loop n _ _ | .entered n _ _ | .yielding n _ _ _ | .writing n _ _ _ | .leaving n _ _ => n
  | .returned n _ _ _ => n

def increment : Loc → BitVec 64
  | .outside => 0
  | .loop _ inc _ | .entered _ inc _ | .yielding _ inc _ _ | .writing _ inc _ _ => inc.signExtend 64
  | .leaving _ inc _ | .returned _ inc _ _ => inc.signExtend 64

/-- What the completed iterations add up to. -/
def sum (l : Loc) : BitVec 64 := l.completed * l.increment

/-- Between the return of `sem_wait` and `sem_post`. -/
def inside : Loc → Bool
  | .entered _ _ _ | .yielding _ _ _ _ | .writing _ _ _ _ | .leaving _ _ _ => true
  | .outside | .loop _ _ _ | .returned _ _ _ _ => false

def terminated : Loc → Bool
  | .returned _ _ _ _ => true
  | .outside | .loop _ _ _ | .entered _ _ _ | .yielding _ _ _ _ | .writing _ _ _ _ => false
  | .leaving _ _ _ => false

/-- What has been written, the iteration under way included. -/
def written (l : Loc) : BitVec 64 :=
  match l with
  | .leaving _ inc i => ((i + 1 : Nat) : BitVec 64) * inc.signExtend 64
  | l => l.sum

end Loc
abbrev State := Parties Int Int Loc ((Nat → Pipe) × BitVec 64)

variable {s t : State} {loc : Int → Loc} {participants : Finset Int} {p : Int} {l : Loc}
variable {start : BitVec 64}

/-- Only the semaphore of the test. -/
def own (id : Int) : Prop := id = semId

theorem within {choice : Args} {pipes : Nat → Pipe} {d d' : BitVec 64} {deed : Deed} {l l' : Loc}
    (does : myProcessInc choice l pipes d = some (deed, l', d')) : deed.On own := by
  cases l with
  | outside =>
    unfold myProcessInc at does
    dsimp only at does
    split at does
    · cases does
      trivial
    · cases does
      trivial
  | loop n inc i =>
    unfold myProcessInc at does
    dsimp only at does
    split at does
    · cases does
      rfl
    · cases does
      trivial
  | entered _ _ _ => cases does; trivial
  | yielding _ _ _ _ => cases does; trivial
  | writing _ _ _ _ => cases does; trivial
  | leaving _ _ _ => cases does; rfl
  | returned _ _ _ _ => cases does

/-- A process has run some of its iterations, or all when it has returned. -/
def Loc.Valid : Loc → Prop
  | .outside => True
  | .loop n _ i => i ≤ n
  | .entered n _ i | .yielding n _ i _ | .writing n _ i _ | .leaving n _ i => i < n
  | .returned n inc i _ => i = n ∨ (i = 0 ∧ inc = 0)

/-- The invariant: one process is inside, what it has read is still there, and the global
is what has been written. -/
structure Exact (start : BitVec 64) (s : State) : Prop where
  books : s.Books semId Loc.inside 1
  queued : s.Queued semId fun l => ∃ n inc i, l = .entered n inc i
  fresh : ∀ {p n inc i aux}, s.loc p = .yielding n inc i aux ∨ s.loc p = .writing n inc i aux →
    aux = s.shared.2
  total : ∃ participants : Finset Int, (∀ p, p ∈ participants ↔ s.loc p ≠ .outside) ∧
    s.shared.2 = start + ∑ p ∈ participants, (s.loc p).written
  valid : ∀ p, (s.loc p).Valid

theorem sum_move (member : p ∈ participants) :
    ∑ q ∈ participants, (Function.update loc p l q).written =
      ∑ q ∈ participants, (loc q).written + (l.written - (loc p).written) := by
  rw [← Finset.add_sum_erase _ _ member, ← Finset.add_sum_erase participants _ member]
  have others : ∑ q ∈ participants.erase p, (Function.update loc p l q).written =
      ∑ q ∈ participants.erase p, (loc q).written := by
    apply Finset.sum_congr rfl
    intro q other
    rw [Function.update_of_ne (Finset.ne_of_mem_erase other)]
  rw [others, Function.update_self]
  ring

variable {c : Command Int} {d : (Nat → Pipe) × BitVec 64}

/-- A process that is at a place between its reads and writes does not wait. -/
theorem Exact.not_waiting {n i : Nat} {inc : BitVec 8} {aux : BitVec 64} (exact : Exact start s)
    (place : s.loc p = .yielding n inc i aux ∨ s.loc p = .writing n inc i aux) :
    (s.loc p).inside = true ∧ p ∉ s.sems.waiting semId := by
  constructor
  · rcases place with here | here
    · rw [here]
      rfl
    · rw [here]
      rfl
  · intro waits
    obtain ⟨_, _, _, entered⟩ := exact.queued p waits
    rcases place with here | here
    · rw [here] at entered
      cases entered
    · rw [here] at entered
      cases entered

/-- What a step of one process must do. -/
theorem Exact.turn (exact : Exact start s) (orderly : s.sems.Orderly) (awake : ¬ s.sems.Sleeps p)
    (balance : Parties.Balance semId Loc.inside 1 (s.loc p) c l 1)
    (enters : c = .wait semId → ∃ n inc i, l = .entered n inc i)
    (reads : ∀ {n inc i aux}, l = .yielding n inc i aux ∨ l = .writing n inc i aux → aux = d.2)
    (writes : d.2 = s.shared.2 ∨ (s.loc p).inside = true)
    (sum : d.2 = s.shared.2 + (l.written - (s.loc p).written)) (started : l ≠ .outside)
    (valid : l.Valid) : Exact start (s.turn p c l d) where
  books := exact.books.turn orderly awake balance
  queued := exact.queued.turn orderly awake enters
  fresh := by
    intro q n inc i aux place
    change aux = d.2
    by_cases same : q = p
    · subst same
      have here : (s.turn q c l d).loc q = l := Function.update_self _ _ _
      rw [here] at place
      exact reads place
    · have there : (s.turn p c l d).loc q = s.loc q := Function.update_of_ne same _ _
      rw [there] at place
      rcases writes with unchanged | inside
      · rw [unchanged]
        exact exact.fresh place
      · have alone := exact.books.alone (exact.not_waiting place)
          ⟨inside, fun member => awake ⟨semId, member⟩⟩
        exact absurd alone same
  total := by
    obtain ⟨participants, started', total⟩ := exact.total
    refine ⟨insert p participants, ?_, ?_⟩
    · intro q
      rw [Finset.mem_insert, started']
      change _ ↔ Function.update s.loc p l q ≠ .outside
      rw [Function.update_apply]
      split
      · rename_i same
        simp [same, started]
      · rename_i other
        simp [other]
    · have before : ∑ q ∈ insert p participants, (s.loc q).written =
          ∑ q ∈ participants, (s.loc q).written := by
        apply Finset.sum_insert_of_eq_zero_if_notMem
        intro new
        have outside : s.loc p = .outside := by
          by_contra inside
          exact new ((started' p).mpr inside)
        rw [outside]
        rfl
      change d.2 = start + ∑ q ∈ insert p participants, (Function.update s.loc p l q).written
      rw [sum_move (Finset.mem_insert_self p participants), before, sum, total]
      ring
  valid := by
    intro q
    change (Function.update s.loc p l q).Valid
    rw [Function.update_apply]
    split
    · exact valid
    · exact exact.valid q

/-- A step that neither enters nor leaves, nor writes. -/
theorem Exact.quiet (exact : Exact start s) (orderly : s.sems.Orderly) (awake : ¬ s.sems.Sleeps p)
    (unchanged : d.2 = s.shared.2) (inside : l.inside = (s.loc p).inside)
    (reads : ∀ {n inc i aux}, l = .yielding n inc i aux ∨ l = .writing n inc i aux → aux = d.2)
    (written : l.written = (s.loc p).written) (started : l ≠ .outside) (valid : l.Valid) :
    Exact start (s.turn p .internal l d) := by
  refine exact.turn orderly awake ?_ (fun never => nomatch never) reads (.inl unchanged) ?_ started
    valid
  · unfold Parties.Balance
    rw [if_neg (by decide), if_neg (by decide), inside]
  · rw [written, unchanged]
    ring

/-- Every step of the program and of others keeps it. -/
theorem Exact.step (exact : Exact start s) (orderly : s.sems.Orderly)
    (step : Parties.Step myProcessInc.Does own s t) : Exact start t := by
  cases step with
  | others after same =>
    have kept := same semId rfl
    refine ⟨exact.books.others kept, ?_, exact.fresh, exact.total, exact.valid⟩
    intro q member
    have before : q ∈ s.sems.waiting semId := by
      rw [← kept.2]
      exact member
    exact exact.queued q before
  | @turn p c l d awake does =>
    obtain ⟨args, deed, does, rfl, _⟩ := does
    obtain ⟨pipes, global⟩ := d
    have valid := exact.valid p
    cases place : s.loc p with
    | outside =>
      rw [place] at does
      unfold myProcessInc at does
      dsimp only at does
      split at does
      · rename_i refused
        cases does
        have nothing : (Loc.returned args.n args.inc 0 (-1)).Valid :=
          refused.imp Eq.symm fun none => ⟨rfl, none⟩
        exact exact.quiet orderly awake rfl (by rw [place]; rfl) (by simp)
          (by rw [place]; simp [Loc.written, Loc.sum, Loc.completed]) (by simp) nothing
      · cases does
        exact exact.quiet orderly awake rfl (by rw [place]; rfl) (by simp)
          (by rw [place]; simp [Loc.written, Loc.sum, Loc.completed]) (by simp)
          (Nat.zero_le args.n)
    | loop n inc i =>
      rw [place] at does valid
      unfold myProcessInc at does
      dsimp only at does
      split at does
      · rename_i more
        cases does
        refine exact.turn orderly awake ?_ (fun _ => ⟨n, inc, i, rfl⟩) (by simp) (.inl rfl) ?_
          (by simp) more
        · unfold Parties.Balance
          rw [place]
          exact ⟨rfl, rfl, rfl⟩
        · rw [place]
          exact ((congrArg _ (sub_self _)).trans (add_zero _)).symm
      · rename_i done
        cases does
        have all : i = n := Nat.le_antisymm valid (Nat.le_of_not_lt done)
        exact exact.quiet orderly awake rfl (by rw [place]; rfl) (by simp) (by rw [place]; rfl)
          (by simp) (.inl all)
    | entered n inc i =>
      rw [place] at does valid
      cases does
      refine exact.quiet orderly awake rfl (by rw [place]; rfl) ?_ (by rw [place]; rfl) (by simp)
        valid
      rintro n' inc' i' aux' (here | never)
      · cases here
        rfl
      · cases never
    | yielding n inc i aux =>
      have read := exact.fresh (.inl place)
      rw [place] at does valid
      cases does
      refine exact.quiet orderly awake rfl (by rw [place]; rfl) ?_ (by rw [place]; rfl) (by simp)
        valid
      rintro n' inc' i' aux' (never | here)
      · cases never
      · cases here
        exact read
    | writing n inc i aux =>
      have read := exact.fresh (.inr place)
      rw [place] at does valid
      unfold myProcessInc at does
      simp only [Option.some.injEq, Prod.mk.injEq] at does
      obtain ⟨rfl, rfl, rfl⟩ := does
      refine exact.turn orderly awake ?_ (fun never => nomatch never) (by simp)
        (.inr (by rw [place]; rfl)) ?_ (by simp) valid
      · unfold Parties.Balance
        rw [place]
        rfl
      · rw [place, read]
        change s.shared.2 + inc.signExtend 64 = s.shared.2 +
          (((i + 1 : Nat) : BitVec 64) * inc.signExtend 64 - (i : BitVec 64) * inc.signExtend 64)
        rw [Nat.cast_succ, add_mul, one_mul, add_sub_cancel_left]
    | leaving n inc i =>
      rw [place] at does valid
      cases does
      refine exact.turn orderly awake ?_ (fun never => nomatch never) (by simp) (.inl rfl) ?_
        (by simp) valid
      · unfold Parties.Balance
        rw [place]
        rfl
      · rw [place]
        exact ((congrArg _ (sub_self _)).trans (add_zero _)).symm
    | returned _ _ _ _ =>
      rw [place] at does
      cases does

/-- What the processes have added, one by one. -/
def sumOf (f : Loc → BitVec 64) (s : Clients M Loc (BitVec 64)) : BitVec 64 :=
  ∑ a ∈ s.system.kernel.pcbs, f (s.loc (s.system.kernel.pcb a).pid)

/-- The claim on one state: whenever the semaphore is free the global is what the completed
iterations add up to, and so it is, for all iterations, once all processes have returned. -/
structure NoUpdateLost (start : BitVec 64) (s : Clients M Loc (BitVec 64)) : Prop where
  free : 0 < (s.system.kernel.semaphores semId).value → s.shared = start + sumOf Loc.sum s
  finished : (∀ p, s.loc p = .outside ∨ (s.loc p).terminated = true) →
    s.shared = start + sumOf (fun l => (l.count : BitVec 64) * l.increment) s

/-- The processes of the table are all that count. -/
theorem sumOf_eq {f : Loc → BitVec 64} {s : Clients M Loc (BitVec 64)} (nothing : f .outside = 0)
    (settled : Settled s.system.kernel) (known : Clients.Known .outside s)
    (started : ∀ p, p ∈ participants ↔ s.loc p ≠ .outside) :
    sumOf f s = ∑ p ∈ participants, f (s.loc p) := by
  have image : sumOf f s =
      ∑ p ∈ s.system.kernel.pcbs.image (fun a => (s.system.kernel.pcb a).pid), f (s.loc p) := by
    rw [Finset.sum_image]
    · rfl
    · intro a first b second same
      exact settled.table.pidUnique first second same
  rw [image]
  refine (Finset.sum_subset ?_ ?_).symm
  · intro p member
    obtain ⟨a, present, named⟩ := known p ((started p).mp member)
    exact Finset.mem_image.mpr ⟨a, present, named⟩
  · intro p _ new
    have outside : s.loc p = .outside := by
      by_contra inside
      exact new ((started p).mpr inside)
    rw [outside]
    exact nothing

/-- The test opens its semaphore and starts a process. -/
def opening : List Label :=
  [⟨.timerTick, 0⟩, ⟨.call (.semInit semId 1), 100⟩,
    ⟨.call (.createProcess ⟨some "my_process_inc", 3, [], 0, true, 0, 1⟩), 200⟩]

theorem opening_spares (k : Kernel M) : ∀ label ∈ opening, SparesWaiters label.event k := by
  intro label member
  simp only [opening, List.mem_cons, List.not_mem_nil, or_false] at member
  rcases member with rfl | rfl | rfl
  · trivial
  · trivial
  · trivial

variable [MemoryManager M] {first last : Clients M Loc (BitVec 64)} {acts : List (Act Args)}

/-- The semaphore has been opened with 1, and no process has begun. -/
structure Ready (s : Clients M Loc (BitVec 64)) : Prop where
  reached : Clients.Reached s.system
  used : (s.system.kernel.semaphores semId).used = true
  listed : (s.system.kernel.semaphores semId).blocked ≠ none
  value : (s.system.kernel.semaphores semId).value = 1
  nobody : (s.system.kernel.semaphores semId).waiting = []
  outside : ∀ p, s.loc p = .outside

/-- A step of a process or of the kernel. -/
abbrev Step : Clients M Loc (BitVec 64) → Act Args → Clients M Loc (BitVec 64) → Prop :=
  Clients.Step myProcessInc own

/-- The wait finds the memory it needs. -/
abbrev Fed : Act Args → Clients M Loc (BitVec 64) → Prop := Clients.Fed myProcessInc

theorem Ready.serviced (ready : Ready first) (reusable : NodesReusable M) :
    Serviced own first.system.kernel := by
  apply ready.reached.serviced reusable
  rintro id rfl
  exact ⟨ready.used, ready.listed⟩

theorem run_exact (reusable : NodesReusable M) (ready : Ready first)
    (run : Run (fun s act t => Step s act t ∧ Fed act s) first acts last) :
    Serviced own last.system.kernel ∧ Exact first.shared last.view := by
  have serviced := ready.serviced reusable
  have begun : Exact first.shared first.view := by
    have out : ∀ p, (first.loc p).inside = false := by
      intro p
      rw [ready.outside]
      rfl
    refine ⟨.start ready.value ready.nobody out, ?_, ?_, ⟨∅, ?_, ?_⟩, ?_⟩
    · intro q waits
      rw [show first.view.sems.waiting semId = [] from ready.nobody] at waits
      cases waits
    · intro p n inc i aux place
      have nowhere := ready.outside p
      rcases place with here | here
      · exact nomatch nowhere.symm.trans here
      · exact nomatch nowhere.symm.trans here
    · intro p
      simp [Clients.view, ready.outside]
    · exact (add_zero _).symm
    · intro p
      change (first.loc p).Valid
      rw [ready.outside]
      trivial
  refine Clients.run_preserves (Exact first.shared) run reusable (fun _ => within) ?_ ?_
    serviced begun
  · rintro s exact id rfl
    obtain ⟨n, _, law⟩ := exact.books.law
    omega
  · exact fun exact orderly step => exact.step orderly step

/-- As long as every wait finds the memory to queue up, no update is lost. -/
theorem no_update_lost (reusable : NodesReusable M) (ready : Ready first)
    (run : Run (fun s act t => Step s act t ∧ Fed act s) first acts last) :
    NoUpdateLost first.shared last := by
  obtain ⟨serviced, exact⟩ := run_exact reusable ready run
  have begun : Clients.Known .outside first := fun p inside => absurd (ready.outside p) inside
  obtain ⟨_, known⟩ := Clients.run_known (run.mono And.left) reusable
    (ready.serviced reusable).settled begun
  obtain ⟨participants, started, total⟩ := exact.total
  constructor
  · intro free
    rw [sumOf_eq (zero_mul _) serviced.settled known started]
    refine total.trans (congrArg _ (Finset.sum_congr rfl ?_))
    intro p _
    have nobody := serviced.eager semId free
    have out : (last.loc p).inside = false := exact.books.free free (by
      change p ∉ last.system.kernel.sems.waiting semId
      rw [nobody]
      exact List.not_mem_nil)
    change (last.loc p).written = (last.loc p).sum
    cases place : last.loc p with
    | leaving n inc i =>
      rw [place] at out
      cases out
    | _ => rfl
  · intro all
    rw [sumOf_eq (zero_mul _) serviced.settled known started]
    refine total.trans (congrArg _ (Finset.sum_congr rfl ?_))
    intro p member
    have done := (all p).resolve_left ((started p).mp member)
    have valid := exact.valid p
    change (last.loc p).written = _
    change (last.loc p).Valid at valid
    cases place : last.loc p with
    | returned n inc i status =>
      rw [place] at valid
      change (i : BitVec 64) * inc.signExtend 64 = (n : BitVec 64) * inc.signExtend 64
      rcases valid with same | ⟨_, none⟩
      · rw [same]
      · rw [none]
        simp
    | _ =>
      rw [place] at done
      cases done

instance : DecidablePred own := fun id => inferInstanceAs (Decidable (id = semId))

/-- Nobody is in the program yet. -/
def begin (s : System M) : Clients M Loc (BitVec 64) := ⟨s, fun _ => .outside, 0⟩

/-- The second process comes while the first is inside. -/
theorem no_update_lost_contended : ∃ first last : Clients Bump Loc (BitVec 64),
    Ready first ∧ Run Step first [.turn ⟨1, 1⟩ 0, .turn ⟨1, 1⟩ 300, .turn ⟨1, 1⟩ 300,
      .turn ⟨1, 1⟩ 300, .event ⟨.call .yield, 300⟩, .turn ⟨1, 2⟩ 400, .turn ⟨1, 2⟩ 400,
      .turn ⟨1, 1⟩ 500, .turn ⟨1, 1⟩ 500] last ∧ NoUpdateLost first.shared last := by
  have opened := System.run_of_exec (Option.some_get (show (System.exec opening
    (started Bump.kernel)).isSome = true by decide +kernel)).symm
  generalize reached : Option.get _ _ = s at opened
  have ready : Ready (begin s) := by
    refine ⟨Clients.reached_of_sparing Bump.nodesReusable Bump.booted opened
      (fun label member k => opening_spares k label member), ?_, ?_, ?_, ?_, fun _ => rfl⟩
    all_goals rw [← reached]
    all_goals decide +kernel
  have found : (Clients.exec myProcessInc own [.turn ⟨1, 1⟩ 0, .turn ⟨1, 1⟩ 300,
      .turn ⟨1, 1⟩ 300, .turn ⟨1, 1⟩ 300, .event ⟨.call .yield, 300⟩, .turn ⟨1, 2⟩ 400,
      .turn ⟨1, 2⟩ 400, .turn ⟨1, 1⟩ 500, .turn ⟨1, 1⟩ 500] (begin s)).isSome = true := by
    rw [← reached]
    decide +kernel
  have run := Clients.run_of_exec (Option.some_get found).symm
  refine ⟨_, _, ready, run, no_update_lost Bump.nodesReusable ready (run.mono ?_)⟩
  exact fun step => ⟨step, Clients.fed_of_succeeds Bump.allocSucceeds⟩

/-- The heap is used up when the second process waits: its wait fails, both are inside, and
one update is lost. -/
theorem update_lost_without_memory : ¬ ∀ (first last : Clients Cells Loc (BitVec 64)) acts,
    Ready first → Run Step first acts last → NoUpdateLost first.shared last := by
  intro exact
  have some : (System.exec opening (started Cells.kernel)).isSome = true := by decide +kernel
  have opened := System.run_of_exec (Option.some_get some).symm
  have ready : Ready (begin ((System.exec opening (started Cells.kernel)).get some)) := by
    refine ⟨Clients.reached_of_sparing Cells.nodesReusable Cells.booted opened
      (fun label member k => opening_spares k label member), ?_, ?_, ?_, ?_, fun _ => rfl⟩
    all_goals clear opened
    all_goals revert some
    all_goals decide +kernel
  have run := Clients.run_of_exec (Option.some_get (show (Clients.exec myProcessInc own
    [.turn ⟨1, 1⟩ 0, .turn ⟨1, 1⟩ 300, .turn ⟨1, 1⟩ 300, .turn ⟨1, 1⟩ 300,
      .event ⟨.call .yield, 300⟩, .turn ⟨1, 1⟩ 400, .turn ⟨1, 1⟩ 400, .turn ⟨1, 1⟩ 400,
      .turn ⟨1, 1⟩ 400, .turn ⟨1, 1⟩ 500, .turn ⟨1, 1⟩ 500, .event ⟨.call .yield, 500⟩,
      .turn ⟨1, 1⟩ 600, .turn ⟨1, 1⟩ 600]
    (begin ((System.exec opening (started Cells.kernel)).get some))).isSome = true by
      clear opened ready
      revert some
      decide +kernel)).symm
  have lost := (exact _ _ _ ready run).free
  clear run ready opened
  revert lost
  revert some
  decide +kernel

end TestSync
end SoKernel
