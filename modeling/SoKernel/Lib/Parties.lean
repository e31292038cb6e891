import SoKernel.Lib.Semaphores
import SoKernel.Lib.Transition

namespace SoKernel.Lib

/-! ## Parties that share semaphores and data -/

/-- What a party does in one step, as far as semaphores see it. -/
inductive Command (ι : Type) where
  | wait (i : ι)
  | post (i : ι)
  | internal
deriving DecidableEq

variable {ι π Λ τ : Type}

def Command.run [DecidableEq ι] [DecidableEq π] (p : π) : Command ι → Semaphores ι π →
    Semaphores ι π
  | .wait i, s => s.wait i p
  | .post i, s => s.post i
  | .internal, s => s

/-- Where each party is in its program, and the data that they share. -/
structure Parties (ι π Λ τ : Type) where
  sems : Semaphores ι π
  loc : π → Λ
  shared : τ

namespace Parties

variable {s t : Parties ι π Λ τ} {p q : π} {l : Λ} {d : τ} {i : ι}
variable {held : Λ → Bool} {total after : Nat}

/-! ## The books of one semaphore -/

/-- The tokens of `i` are in the semaphore or with the parties whose place in the program
says so; a party that waits for a token has none yet. -/
structure Books (i : ι) (held : Λ → Bool) (total : Nat) (s : Parties ι π Λ τ) : Prop where
  sleepers : ∀ {q}, q ∈ s.sems.waiting i → held (s.loc q) = true
  law : ∃ n, Counts (fun q => held (s.loc q) = true ∧ q ∉ s.sems.waiting i) n ∧
    s.sems.value i + n = total

/-- Who holds a token is counted. -/
theorem Books.pos (books : Books i held total s) (awake : ¬ s.sems.Sleeps p)
    (holds : held (s.loc p) = true) : 0 < total := by
  obtain ⟨n, counts, law⟩ := books.law
  have some : 0 < n := counts.pos ⟨holds, fun member => awake ⟨i, member⟩⟩
  omega

/-- Of a single token there is one holder. -/
theorem Books.alone (books : Books i held 1 s)
    (first : held (s.loc p) = true ∧ p ∉ s.sems.waiting i)
    (second : held (s.loc q) = true ∧ q ∉ s.sems.waiting i) : p = q := by
  obtain ⟨n, counts, law⟩ := books.law
  have some : 0 < n := counts.pos first
  have one : n = 1 := by omega
  rw [one] at counts
  exact counts.unique first second

/-- Where there is a token in the semaphore, nobody holds the single one. -/
theorem Books.free (books : Books i held 1 s)
    (token : 0 < s.sems.value i) (out : p ∉ s.sems.waiting i) : held (s.loc p) = false := by
  obtain ⟨n, counts, law⟩ := books.law
  cases holds : held (s.loc p) with
  | false => rfl
  | true =>
    have some : 0 < n := counts.pos ⟨holds, out⟩
    omega

/-- Who waits for `i` is at a place where parties wait for it. -/
def Queued (i : ι) (place : Λ → Prop) (s : Parties ι π Λ τ) : Prop :=
  ∀ q ∈ s.sems.waiting i, place (s.loc q)

/-- At the start every token is in the semaphore. -/
theorem Books.start (value : s.sems.value i = total) (nobody : s.sems.waiting i = [])
    (outside : ∀ p, held (s.loc p) = false) : Books i held total s where
  sleepers := by
    intro q member
    rw [nobody] at member
    cases member
  law := by
    refine ⟨0, .none ?_, value⟩
    rintro q ⟨holds, _⟩
    rw [outside] at holds
    cases holds

/-- When nobody holds a token all are in the semaphore. -/
theorem Books.rest (books : Books i held total s) (outside : ∀ p, held (s.loc p) = false) :
    s.sems.value i = total := by
  obtain ⟨n, counts, law⟩ := books.law
  have none : n = 0 := by
    refine counts.deterministic (.none ?_)
    rintro p ⟨holds, _⟩
    rw [outside] at holds
    cases holds
  omega

/-- Where somebody waits for a token, and whoever should hold one waits too, there is none. -/
theorem Books.exhausted (books : Books i held total s) (orderly : s.sems.Orderly)
    (waits : p ∈ s.sems.waiting i)
    (nobody : ∀ q, held (s.loc q) = true → q ∈ s.sems.waiting i) : total = 0 := by
  have value : s.sems.value i = 0 := by
    by_contra some
    rw [orderly.eager i (Nat.pos_of_ne_zero some)] at waits
    cases waits
  obtain ⟨n, counts, law⟩ := books.law
  have none : n = 0 := counts.deterministic (.none fun q holds => holds.2 (nobody q holds.1))
  omega

/-- Use of other semaphores keeps the books. -/
theorem Books.others {sems : Semaphores ι π} (books : Books i held total s)
    (same : sems.value i = s.sems.value i ∧ sems.waiting i = s.sems.waiting i) :
    Books i held total { s with sems := sems } where
  sleepers := by
    intro q member
    change q ∈ sems.waiting i at member
    rw [same.2] at member
    exact books.sleepers member
  law := by
    change ∃ n, Counts (fun q => held (s.loc q) = true ∧ q ∉ sems.waiting i) n ∧
      sems.value i + n = total
    rw [same.1, same.2]
    exact books.law

/-- So does renaming places, as long as each still holds what it held. -/
theorem Books.relocate {loc : π → Λ} (books : Books i held total s)
    (same : ∀ q, held (loc q) = held (s.loc q)) : Books i held total { s with loc := loc } where
  sleepers := by
    intro q member
    exact (same q).trans (books.sleepers member)
  law := by
    simp only [same]
    exact books.law

variable [DecidableEq π]

/-- One party moves to another place of the program. -/
theorem counts_update (l : Λ) {loc : π → Λ} {n : Nat} (awake : π → Prop) (here : awake p)
    (counts : Counts (fun q => held (loc q) = true ∧ awake q) n) :
    ∃ m, Counts (fun q => held (Function.update loc p l q) = true ∧ awake q) m ∧
      m + (held (loc p)).toNat = n + (held l).toNat := by
  have others : ∀ {q}, q ≠ p → Function.update loc p l q = loc q := fun other =>
    Function.update_of_ne other _ _
  have self : Function.update loc p l p = l := Function.update_self _ _ _
  cases before : held (loc p) with
  | true =>
    have erased : ∀ q, (held (loc q) = true ∧ awake q) ∧ q ≠ p ↔
        (held (loc q) = true ∧ awake q) ∧ q ≠ p := fun _ => .rfl
    obtain ⟨m, grown, fewer⟩ := counts.erase ⟨before, here⟩ erased
    cases after : held l with
    | true =>
      refine ⟨m + 1, fewer.insert (a := p) (fun both => both.2 rfl) ?_, by simp; omega⟩
      intro q
      by_cases same : q = p
      · rw [same, self]
        simp [after, here]
      · rw [others same]
        simp [same]
    | false =>
      refine ⟨m, fewer.congr ?_, by simp; omega⟩
      intro q
      by_cases same : q = p
      · rw [same, self]
        simp [after]
      · rw [others same]
        simp [same]
  | false =>
    have out : ¬ (held (loc p) = true ∧ awake p) := by simp [before]
    cases after : held l with
    | true =>
      refine ⟨n + 1, counts.insert (a := p) out ?_, by simp⟩
      intro q
      by_cases same : q = p
      · rw [same, self]
        simp [after, here]
      · rw [others same]
        simp [same]
    | false =>
      refine ⟨n, counts.congr ?_, by simp⟩
      intro q
      by_cases same : q = p
      · rw [same, self]
        simp [after, before]
      · rw [others same]

/-! ## Steps -/

variable [DecidableEq ι] {c : Command ι} {does : Λ → τ → Command ι → Λ → τ → Prop} {own : ι → Prop}

/-- The party `p` has done `c`. -/
def turn (p : π) (c : Command ι) (l : Λ) (d : τ) (s : Parties ι π Λ τ) : Parties ι π Λ τ :=
  ⟨c.run p s.sems, Function.update s.loc p l, d⟩

/-- A party that does not wait takes a step of the program, or somebody uses semaphores
that are not the parties' own. -/
inductive Step (does : Λ → τ → Command ι → Λ → τ → Prop) (own : ι → Prop)
    (s : Parties ι π Λ τ) : Parties ι π Λ τ → Prop
  | turn {p : π} {c : Command ι} {l : Λ} {d : τ} : ¬ s.sems.Sleeps p →
      does (s.loc p) s.shared c l d → Step does own s (s.turn p c l d)
  | others {sems : Semaphores ι π} : sems.Orderly → (∀ i, own i → sems.value i = s.sems.value i ∧
      sems.waiting i = s.sems.waiting i) → Step does own s { s with sems := sems }

theorem Step.orderly (step : Step does own s t) (orderly : s.sems.Orderly) : t.sems.Orderly := by
  cases step with
  | @turn p c l d awake _ =>
    cases c with
    | wait i => exact orderly.wait awake
    | post i => exact orderly.post
    | internal => exact orderly
  | others after _ => exact after

/-- A step of the program keeps the books. -/
def Balance (i : ι) (held : Λ → Bool) (total : Nat) (l : Λ) (c : Command ι) (l' : Λ)
    (after : Nat) : Prop :=
  if c = .wait i then held l = false ∧ held l' = true ∧ after = total
  else after + (held l).toNat = total + (if c = .post i then 1 else 0) + (held l').toNat

theorem Balance.still {l' : Λ} (waits : c ≠ .wait i) (posts : c ≠ .post i)
    (same : held l' = held l) : Balance i held total l c l' total := by
  unfold Balance
  rw [if_neg waits, if_neg posts, same]
  rfl

theorem Balance.waits {l' : Λ} (outside : held l = false) (inside : held l' = true) :
    Balance i held total l (.wait i) l' total := by
  unfold Balance
  rw [if_pos rfl]
  exact ⟨outside, inside, rfl⟩

theorem Balance.posts {l' : Λ} (inside : held l = true) (outside : held l' = false) :
    Balance i held total l (.post i) l' total := by
  unfold Balance
  rw [if_neg (fun never => nomatch never), if_pos rfl, inside, outside]
  rfl

theorem Balance.moves {l' : Λ} (conserved : after + (held l).toNat = total + (held l').toNat) :
    Balance i held total l .internal l' after := by
  unfold Balance
  rw [if_neg (fun never => nomatch never), if_neg (fun never => nomatch never)]
  exact conserved

/-- A step that balances keeps the books. -/
theorem Books.turn (books : Books i held total s) (orderly : s.sems.Orderly)
    (awake : ¬ s.sems.Sleeps p) (balance : Balance i held total (s.loc p) c l after) :
    Books i held after (s.turn p c l d) := by
  have out : p ∉ s.sems.waiting i := fun member => awake ⟨i, member⟩
  obtain ⟨n, counts, law⟩ := books.law
  unfold Balance at balance
  by_cases waits : c = .wait i
  · rw [if_pos waits] at balance
    obtain ⟨outside, inside, same⟩ := balance
    subst waits
    have enters : ∀ q, held (Function.update s.loc p l q) = true ↔
        held (s.loc q) = true ∨ q = p := by
      intro q
      rw [Function.update_apply]
      split
      · rename_i equal
        simp [inside, equal]
      · rename_i other
        simp [other]
    have outside' : ¬ held (s.loc p) = true := by
      rw [outside]
      decide
    obtain ⟨m, counted, conserved⟩ := Semaphores.wait_counts awake outside' enters counts
    refine ⟨?_, m, counted, ?_⟩
    · intro q member
      rcases Semaphores.mem_wait.mp member with old | ⟨_, _, new⟩
      · exact (enters q).mpr (.inl (books.sleepers old))
      · exact (enters q).mpr (.inr new)
    · change (s.sems.wait i p).value i + m = after
      omega
  · rw [if_neg waits] at balance
    -- the semaphores first, then the place of `p`
    have moved : p ∉ (c.run p s.sems).waiting i ∧
        (∀ q ∈ (c.run p s.sems).waiting i, q ∈ s.sems.waiting i) ∧
        ∃ m, Counts (fun q => held (s.loc q) = true ∧ q ∉ (c.run p s.sems).waiting i) m ∧
          (c.run p s.sems).value i + m = s.sems.value i + n + (if c = .post i then 1 else 0) := by
      cases c with
      | wait j =>
        have other : i ≠ j := fun same => waits (by rw [same])
        obtain ⟨value, waiting⟩ := Semaphores.wait_other (s := s.sems) (p := p) other
        change p ∉ (s.sems.wait j p).waiting i ∧ _
        simp only [Command.run]
        rw [value, waiting]
        exact ⟨out, fun q member => member, n, counts, by simp⟩
      | post j =>
        by_cases same : j = i
        · subst same
          obtain ⟨m, counted, conserved⟩ := orderly.post_counts (fun q member =>
            books.sleepers member) counts
          refine ⟨fun member => out (orderly.mem_post.mp member).1,
            fun q member => (orderly.mem_post.mp member).1, m, counted, ?_⟩
          rw [if_pos rfl]
          exact conserved
        · have other : i ≠ j := Ne.symm same
          obtain ⟨value, waiting⟩ := Semaphores.post_other (s := s.sems) other
          change p ∉ (s.sems.post j).waiting i ∧ _
          simp only [Command.run]
          rw [value, waiting]
          exact ⟨out, fun q member => member, n, counts, by simp [same]⟩
      | internal => exact ⟨out, fun q member => member, n, counts, by simp [Command.run]⟩
    obtain ⟨here, fewer, m, counted, conserved⟩ := moved
    obtain ⟨m', final, exchange⟩ :=
      counts_update l (fun q => q ∉ (c.run p s.sems).waiting i) here counted
    refine ⟨?_, m', final, ?_⟩
    · intro q member
      have other : q ≠ p := by
        intro same
        rw [same] at member
        exact here member
      change held (Function.update s.loc p l q) = true
      rw [Function.update_of_ne other]
      exact books.sleepers (fewer q member)
    · change (c.run p s.sems).value i + m' = after
      omega

/-- A step keeps the places of the waiters if a wait leads to one of them. -/
theorem Queued.turn {place : Λ → Prop} (queued : Queued i place s) (orderly : s.sems.Orderly)
    (awake : ¬ s.sems.Sleeps p) (enters : c = .wait i → place l) :
    Queued i place (s.turn p c l d) := by
  have old : ∀ {q}, q ∈ s.sems.waiting i → place (Function.update s.loc p l q) := by
    intro q member
    have other : q ≠ p := by
      intro same
      rw [same] at member
      exact awake ⟨i, member⟩
    rw [Function.update_of_ne other]
    exact queued q member
  intro q member
  change place (Function.update s.loc p l q)
  cases c with
  | wait j =>
    rcases Semaphores.mem_wait.mp member with before | ⟨_, here, new⟩
    · exact old before
    · rw [new, Function.update_self]
      exact enters (by rw [here])
  | post j => exact old (orderly.mem_post.mp member).1
  | internal => exact old member

/-! ## Where all the waiting is on a list of semaphores -/

/-- Nobody waits for a semaphore that is not on the list. -/
def Listed (ids : List ι) (s : Parties ι π Λ τ) : Prop := ∀ i, i ∉ ids → s.sems.waiting i = []

def asleep (ids : List ι) (p : π) (s : Parties ι π Λ τ) : Bool :=
  ids.any fun i => (s.sems.waiting i).contains p

theorem Listed.awake {ids : List ι} (listed : Listed ids s) (awake : s.asleep ids p = false) :
    ¬ s.sems.Sleeps p := by
  rintro ⟨i, member⟩
  by_cases on : i ∈ ids
  · have found : s.asleep ids p = true :=
      List.any_eq_true.mpr ⟨i, on, List.contains_iff_mem.mpr member⟩
    rw [awake] at found
    cases found
  · rw [listed i on] at member
    cases member

theorem Listed.turn {ids : List ι} (listed : Listed ids s) (on : ∀ i, c = .wait i → i ∈ ids) :
    Listed ids (s.turn p c l d) := by
  intro i off
  have none := listed i off
  cases c with
  | wait j =>
    have other : i ≠ j := by
      rintro rfl
      exact off (on i rfl)
    exact (Semaphores.wait_other other).2.trans none
  | post j =>
    change (s.sems.post j).waiting i = []
    by_cases same : j = i
    · rw [same, Semaphores.post_counted none]
      exact none
    · exact (Semaphores.post_other (Ne.symm same)).2.trans none
  | internal => exact none

omit [DecidableEq π] in
theorem Listed.reset {ids : List ι} {waiters : List π} (listed : Listed ids s)
    (fewer : waiters.Sublist (s.sems.waiting i)) :
    Listed ids { s with sems := s.sems.reset i waiters } := by
  intro j off
  apply List.eq_nil_iff_forall_not_mem.mpr
  intro q member
  have before := Semaphores.mem_reset fewer member
  rw [listed j off] at before
  cases before

end Parties
end SoKernel.Lib
