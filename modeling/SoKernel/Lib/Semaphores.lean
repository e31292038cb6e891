import SoKernel.Lib.Exclusive
import Mathlib.Data.Finset.Card

namespace SoKernel.Lib

/-! ## Counting with a witness -/

section
variable {α : Type}

/-- Exactly `n` items satisfy `P`. -/
def Counts (P : α → Prop) (n : Nat) : Prop :=
  ∃ items : Finset α, (∀ a, a ∈ items ↔ P a) ∧ items.card = n

variable {P Q : α → Prop} {n m : Nat} {a : α}

theorem Counts.none (empty : ∀ a, ¬ P a) : Counts P 0 :=
  ⟨∅, fun a => ⟨fun never => absurd never (Finset.notMem_empty a), fun here => absurd here (empty a)⟩,
    Finset.card_empty⟩

theorem Counts.congr (counts : Counts P n) (same : ∀ a, Q a ↔ P a) : Counts Q n := by
  obtain ⟨items, member, card⟩ := counts
  exact ⟨items, fun a => (member a).trans (same a).symm, card⟩

theorem Counts.pos (counts : Counts P n) (holds : P a) : 0 < n := by
  obtain ⟨items, member, card⟩ := counts
  rw [← card]
  exact Finset.card_pos.mpr ⟨a, (member a).mpr holds⟩

theorem Counts.unique (counts : Counts P 1) {b : α} (first : P a) (second : P b) : a = b := by
  obtain ⟨items, member, card⟩ := counts
  exact Finset.card_le_one.mp (Nat.le_of_eq card) a ((member a).mpr first) b ((member b).mpr second)

theorem Counts.deterministic (first : Counts P n) (second : Counts P m) : n = m := by
  obtain ⟨items, member, card⟩ := first
  obtain ⟨others, member', card'⟩ := second
  have same : items = others := Finset.ext fun a => (member a).trans (member' a).symm
  rw [← card, ← card', same]

variable [DecidableEq α]

theorem Counts.insert (counts : Counts P n) (new : ¬ P a) (grows : ∀ b, Q b ↔ P b ∨ b = a) :
    Counts Q (n + 1) := by
  obtain ⟨items, member, card⟩ := counts
  refine ⟨Insert.insert a items, ?_, ?_⟩
  · intro b
    rw [Finset.mem_insert, member, grows]
    exact or_comm
  · rw [Finset.card_insert_of_notMem fun old => new ((member a).mp old), card]

theorem Counts.erase (counts : Counts P n) (old : P a) (shrinks : ∀ b, Q b ↔ P b ∧ b ≠ a) :
    ∃ m, n = m + 1 ∧ Counts Q m := by
  obtain ⟨items, member, card⟩ := counts
  have here := (member a).mpr old
  refine ⟨(items.erase a).card, ?_, items.erase a, ?_, rfl⟩
  · rw [Finset.card_erase_of_mem here, ← card]
    exact (Nat.sub_add_cancel (Finset.card_pos.mpr ⟨a, here⟩)).symm
  · intro b
    rw [Finset.mem_erase, member, shrinks]
    exact and_comm

end

/-! ## Semaphores that hand their token to the first waiter -/

variable {ι π : Type}

structure Semaphores (ι π : Type) where
  value : ι → Nat
  waiting : ι → List π

namespace Semaphores

variable [DecidableEq ι]
variable {s : Semaphores ι π} {i j : ι} {p q : π} {rest : List π} {n : Nat}

def Sleeps (s : Semaphores ι π) (p : π) : Prop := ∃ i, p ∈ s.waiting i

/-- Take a token or queue up. -/
def wait (i : ι) (p : π) (s : Semaphores ι π) : Semaphores ι π :=
  if 0 < s.value i then { s with value := Function.update s.value i (s.value i - 1) }
  else { s with waiting := push s.waiting i p }

theorem wait_taken (token : 0 < s.value i) :
    s.wait i p = { s with value := Function.update s.value i (s.value i - 1) } := if_pos token

theorem wait_queued (none : s.value i = 0) :
    s.wait i p = { s with waiting := push s.waiting i p } :=
  if_neg (Nat.not_lt.mpr (Nat.le_of_eq none))

/-- Waiting elsewhere changes nothing here. -/
theorem wait_other (other : j ≠ i) :
    (s.wait i p).value j = s.value j ∧ (s.wait i p).waiting j = s.waiting j := by
  rcases Nat.eq_zero_or_pos (s.value i) with none | token
  · rw [wait_queued none]
    exact ⟨rfl, Function.update_of_ne other _ _⟩
  · rw [wait_taken token]
    exact ⟨Function.update_of_ne other _ _, rfl⟩

/-- The semaphore begins anew, with those who wait for it. -/
def reset (i : ι) (waiters : List π) (s : Semaphores ι π) : Semaphores ι π :=
  ⟨Function.update s.value i 0, Function.update s.waiting i waiters⟩

theorem reset_self {waiters : List π} :
    (s.reset i waiters).value i = 0 ∧ (s.reset i waiters).waiting i = waiters :=
  ⟨Function.update_self _ _ _, Function.update_self _ _ _⟩

theorem reset_other {waiters : List π} (other : j ≠ i) :
    (s.reset i waiters).value j = s.value j ∧ (s.reset i waiters).waiting j = s.waiting j :=
  ⟨Function.update_of_ne other _ _, Function.update_of_ne other _ _⟩

variable [DecidableEq π]

omit [DecidableEq π] in
theorem mem_reset {waiters : List π} (fewer : waiters.Sublist (s.waiting i))
    (member : q ∈ (s.reset i waiters).waiting j) : q ∈ s.waiting j := by
  by_cases same : j = i
  · rw [same] at member ⊢
    rw [reset_self.2] at member
    exact fewer.subset member
  · rw [(reset_other same).2] at member
    exact member

/-- Give a token to the first waiter, or keep it. -/
def post (i : ι) (s : Semaphores ι π) : Semaphores ι π :=
  match s.waiting i with
  | [] => { s with value := Function.update s.value i (s.value i + 1) }
  | p :: _ => { s with waiting := drop s.waiting i p }

/-- Everyone waits once, and nobody waits where there is a token. -/
structure Orderly (s : Semaphores ι π) : Prop where
  exclusive : Exclusive s.waiting
  eager : ∀ i, 0 < s.value i → s.waiting i = []

omit [DecidableEq π] in
/-- Nobody new waits for it. -/
theorem Orderly.reset {waiters : List π} (orderly : s.Orderly)
    (fewer : waiters.Sublist (s.waiting i)) : (s.reset i waiters).Orderly where
  exclusive := by
    refine ⟨fun j => ?_, fun first second => orderly.exclusive.unique
      (mem_reset fewer first) (mem_reset fewer second)⟩
    by_cases same : j = i
    · rw [same, reset_self.2]
      exact (orderly.exclusive.nodup i).sublist fewer
    · rw [(reset_other same).2]
      exact orderly.exclusive.nodup j
  eager := by
    intro j token
    by_cases same : j = i
    · rw [same, reset_self.1] at token
      cases token
    · rw [(reset_other same).1] at token
      rw [(reset_other same).2]
      exact orderly.eager j token

theorem post_counted (empty : s.waiting i = []) :
    s.post i = { s with value := Function.update s.value i (s.value i + 1) } := by
  unfold post
  rw [empty]

theorem post_handed (front : s.waiting i = p :: rest) :
    s.post i = { s with waiting := drop s.waiting i p } := by
  unfold post
  rw [front]

omit [DecidableEq π] in
theorem mem_wait : q ∈ (s.wait i p).waiting j ↔ q ∈ s.waiting j ∨ (s.value i = 0 ∧ j = i ∧ q = p) := by
  rcases Nat.eq_zero_or_pos (s.value i) with none | token
  · rw [wait_queued none, mem_push]
    simp [none]
  · rw [wait_taken token]
    simp [Nat.pos_iff_ne_zero.mp token]

theorem Orderly.mem_post (orderly : s.Orderly) : q ∈ (s.post i).waiting j ↔
    q ∈ s.waiting j ∧ (s.waiting i).head? ≠ some q := by
  cases front : s.waiting i with
  | nil =>
    rw [post_counted front]
    simp
  | cons p rest =>
    have member : p ∈ s.waiting i := by
      rw [front]
      exact List.mem_cons_self
    rw [post_handed front, orderly.exclusive.mem_drop member]
    simp [eq_comm]

omit [DecidableEq π] in
theorem Orderly.wait (orderly : s.Orderly) (awake : ¬ s.Sleeps p) : (s.wait i p).Orderly := by
  rcases Nat.eq_zero_or_pos (s.value i) with none | token
  · rw [wait_queued none]
    constructor
    · exact orderly.exclusive.push fun j member => awake ⟨j, member⟩
    · intro j token
      have other : j ≠ i := by
        rintro rfl
        exact absurd none (Nat.pos_iff_ne_zero.mp token)
      exact (Function.update_of_ne other _ _).trans (orderly.eager j token)
  · rw [wait_taken token]
    refine ⟨orderly.exclusive, ?_⟩
    intro j more
    by_cases same : j = i
    · rw [same]
      exact orderly.eager i token
    · dsimp only at more
      rw [Function.update_of_ne same] at more
      exact orderly.eager j more

theorem Orderly.post (orderly : s.Orderly) : (s.post i).Orderly := by
  cases front : s.waiting i with
  | nil =>
    rw [post_counted front]
    refine ⟨orderly.exclusive, ?_⟩
    intro j more
    by_cases same : j = i
    · rw [same]
      exact front
    · dsimp only at more
      rw [Function.update_of_ne same] at more
      exact orderly.eager j more
  | cons p rest =>
    have member : p ∈ s.waiting i := by
      rw [front]
      exact List.mem_cons_self
    rw [post_handed front]
    constructor
    · exact orderly.exclusive.drop member
    · intro j token
      have empty := orderly.eager j token
      have other : j ≠ i := by
        rintro rfl
        rw [empty] at front
        cases front
      exact (Function.update_of_ne other _ _).trans empty

/-! ## Where the tokens are

A process *holds* a token of `i` while it is in the region between a wait and a post
on `i` and does not wait there any more. -/

/-- A process enters the region with a wait: the tokens stay as many. -/
theorem wait_counts {region inside : π → Prop} (awake : ¬ s.Sleeps p) (outside : ¬ region p)
    (enters : ∀ q, inside q ↔ region q ∨ q = p)
    (counts : Counts (fun q => region q ∧ q ∉ s.waiting i) n) :
    ∃ m, Counts (fun q => inside q ∧ q ∉ (s.wait i p).waiting i) m ∧
      (s.wait i p).value i + m = s.value i + n := by
  have here : p ∉ s.waiting i := fun member => awake ⟨i, member⟩
  rcases Nat.eq_zero_or_pos (s.value i) with none | token
  · refine ⟨n, counts.congr ?_, ?_⟩
    · intro q
      rw [enters, mem_wait]
      constructor
      · rintro ⟨old | new, awake⟩
        · exact ⟨old, fun member => awake (.inl member)⟩
        · exact absurd (.inr ⟨none, rfl, new⟩) awake
      · rintro ⟨old, awake⟩
        refine ⟨.inl old, ?_⟩
        rintro (member | ⟨_, _, same⟩)
        · exact awake member
        · rw [same] at old
          exact outside old
    · rw [wait_queued none]
  · refine ⟨n + 1, counts.insert (a := p) (fun both => outside both.1) ?_, ?_⟩
    · intro q
      rw [wait_taken token, enters]
      constructor
      · rintro ⟨old | new, awake⟩
        · exact .inl ⟨old, awake⟩
        · exact .inr new
      · rintro (⟨old, awake⟩ | new)
        · exact ⟨.inl old, awake⟩
        · rw [new]
          exact ⟨.inr rfl, here⟩
    · rw [wait_taken token]
      dsimp only
      rw [Function.update_self]
      omega

/-- A post adds one token, kept or handed to a process that waits in the region. -/
theorem Orderly.post_counts {region : π → Prop} (orderly : s.Orderly)
    (sleepers : ∀ q ∈ s.waiting i, region q)
    (counts : Counts (fun q => region q ∧ q ∉ s.waiting i) n) :
    ∃ m, Counts (fun q => region q ∧ q ∉ (s.post i).waiting i) m ∧
      (s.post i).value i + m = s.value i + n + 1 := by
  cases front : s.waiting i with
  | nil =>
    refine ⟨n, counts.congr ?_, ?_⟩
    · intro q
      rw [post_counted front]
    · rw [post_counted front]
      dsimp only
      rw [Function.update_self]
      omega
  | cons p rest =>
    have member : p ∈ s.waiting i := by
      rw [front]
      exact List.mem_cons_self
    refine ⟨n + 1, counts.insert (a := p) (fun both => both.2 member) ?_, ?_⟩
    · intro q
      rw [post_handed front, orderly.exclusive.mem_drop member]
      constructor
      · rintro ⟨inside, gone⟩
        by_cases same : q = p
        · exact .inr same
        · exact .inl ⟨inside, fun still => gone ⟨still, same⟩⟩
      · rintro (⟨inside, awake⟩ | same)
        · exact ⟨inside, fun still => awake still.1⟩
        · rw [same]
          exact ⟨sleepers p member, fun still => still.2 rfl⟩
    · rw [post_handed front]
      dsimp only
      omega

theorem post_other (other : j ≠ i) :
    (s.post i).value j = s.value j ∧ (s.post i).waiting j = s.waiting j := by
  cases front : s.waiting i with
  | nil =>
    rw [post_counted front]
    exact ⟨Function.update_of_ne other _ _, rfl⟩
  | cons p rest =>
    rw [post_handed front]
    exact ⟨rfl, Function.update_of_ne other _ _⟩

end Semaphores
end SoKernel.Lib
