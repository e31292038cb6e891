import SoKernel.Kernel.Clients
import SoKernel.Userland.FixedTable

namespace SoKernel.Phylo
open MemoryManager Lib Kernel SoKernel.System

/-! ## The philosophers as processes of the kernel -/

/-- The system call of a step. -/
def deed : Command Int → Deed
  | .wait id => .wait id
  | .post id => .post id
  | .internal => .nothing

def program : Program Unit Loc Dining := fun _ l _ t =>
  match l with
  | .outside => none
  | .seat i phase =>
    let (c, next, t) := philosopher i phase t
    some (deed c, .seat i next, t)

/-- The table, without the pipes of the kernel. -/
def table (s : Parties Int Int Loc ((Nat → Pipe) × Dining)) : State Int :=
  ⟨s.sems, s.loc, s.shared.2⟩

variable {n : Nat} {pids : Nat → Int} {s t : Parties Int Int Loc ((Nat → Pipe) × Dining)}
variable {ids : Int → Prop}

theorem program_does {l l' : Loc} {pipes : Nat → Pipe} {d d' : Dining} {deed' : Deed}
    (does : program () l pipes d = some (deed', l', d')) :
    ∃ i phase, l = .seat i phase ∧ deed' = deed (philosopher i phase d).1 ∧
      l' = .seat i (philosopher i phase d).2.1 ∧ d' = (philosopher i phase d).2.2 := by
  cases l with
  | outside => cases does
  | seat i phase =>
    cases does
    exact ⟨i, phase, rfl, rfl, rfl, rfl⟩

theorem deed_command (c : Command Int) : (deed c).command = c := by
  cases c <;> rfl

theorem table_step (step : Parties.Step program.Does ids s t) :
    Parties.Step Does ids (table s) (table t) := by
  cases step with
  | others orderly same => exact .others orderly same
  | @turn p c l d awake does =>
    obtain ⟨_, deed', does, rfl, _⟩ := does
    obtain ⟨i, phase, place, rfl, moved, written⟩ := program_does does
    have step : Parties.Step Does ids (table s)
        ((table s).turn p (deed (philosopher i phase s.shared.2).1).command l d.2) :=
      .turn awake ⟨i, phase, place, deed_command _, moved, written⟩
    exact step

/-- Only the semaphores of the table are used. -/
theorem Dined.within (dined : Dined n pids (table s)) {choice : Unit} {p : Int} {deed' : Deed}
    {l : Loc} {d : Dining}
    (does : program choice (s.loc p) s.shared.1 s.shared.2 = some (deed', l, d)) :
    deed'.On (own n) := by
  obtain ⟨i, phase, place, rfl, _, _⟩ := program_does does
  have below := (dined.seats (p := p) place).1
  have move := philosopher_moves i phase s.shared.2
  generalize philosopher i phase s.shared.2 = result at move
  obtain ⟨c, phase', t'⟩ := result
  cases c with
  | wait id =>
    rcases move.enters with ⟨same, _⟩ | ⟨same, _⟩
    · rw [same]
      exact own_mutex
    · rw [same]
      exact own_fork below
  | post id =>
    cases move with
    | grants here => exact own_fork (dined.checked place here).1
    | unlocks _ => exact own_mutex
  | internal => trivial

/-- A semaphore of the table never has more than one token. -/
theorem Dined.room (dined : Dined n pids (table s)) (id : Int) (mine : own n id) :
    s.sems.value id + 1 < 2 ^ 32 := by
  have few : s.sems.value id ≤ 1 := by
    by_cases mutex : id = mutexId
    · rw [mutex]
      obtain ⟨_, _, law⟩ := dined.mutex.law
      change s.sems.value mutexId + _ = 1 at law
      omega
    · unfold own at mine
      have fork : id = philosopherSemaphore (id - mutexId - 1).toNat := by
        unfold philosopherSemaphore
        omega
      rw [fork]
      have below : (id - mutexId - 1).toNat < n := by omega
      obtain ⟨_, _, law⟩ := (dined.forks below).law
      have most : total (table s).shared (id - mutexId - 1).toNat ≤ 1 := by
        unfold total
        split <;> decide
      change s.sems.value _ + _ = _ at law
      omega
  omega

variable {M : Type} [MemoryManager M] {first last : Clients M Loc Dining} {acts : List (Act Unit)}

/-- The philosophers of the kernel dine as those of the table, as long as every wait finds the
memory to queue up. -/
theorem kernel_dinner (reusable : NodesReusable M) (serviced : Serviced (own n) first.system.kernel)
    (laid : Laid n pids (table first.view))
    (run : Run (fun s act t => Clients.Step program (own n) s act t ∧ Clients.Fed program act s)
      first acts last)
    (free : 0 < last.system.kernel.sems.value mutexId) : Dinner n pids (table last.view) := by
  obtain ⟨serviced', dined⟩ := Clients.run_preserves (fun s => Dined n pids (table s)) run reusable
    Dined.within Dined.room (fun dined orderly step => dined.step orderly (table_step step)) serviced
    laid.dined
  exact dined.dinner serviced'.orderly free

end SoKernel.Phylo
