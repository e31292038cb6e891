import SoKernel.Kernel.PipeOpening

namespace SoKernel
open MemoryManager QueueName Lib Kernel

variable {M : Type}

/-! ## Descriptors and slots -/

inductive PipeCall where
  | create
  | close (id : Int)

/-- A kernel, the descriptors that `createPipe` has returned and that are not closed, with
the slot each was given, and how many pipes have been opened. -/
structure Plumbing (M : Type) where
  kernel : Kernel M
  descriptors : List (Int × Nat)
  created : Nat

/-- The slot that is open after a call and was not before. -/
def openedSlot (k k' : Kernel M) : Option Nat :=
  (List.range maxPipes).find? fun slot => !(k.pipes slot).isOpen && (k'.pipes slot).isOpen

namespace Plumbing

variable [MemoryManager M]

def perform : PipeCall → Plumbing M → Plumbing M
  | .create, s =>
    let (id, k) := createPipe s.kernel
    match openedSlot s.kernel k with
    | none => { s with kernel := k }
    | some slot =>
      { kernel := k
        descriptors := if 0 ≤ id then (id, slot) :: s.descriptors else s.descriptors
        created := s.created + 1 }
  | .close id, s =>
    let (status, k) := closePipe id s.kernel
    { s with
      kernel := k
      descriptors := if status = 0 then s.descriptors.filter fun entry => entry.1 ≠ id
        else s.descriptors }

/-- After boot the shell has a pipe. -/
def begin (k : Kernel M) : Plumbing M := ⟨k, [(0, 0)], 1⟩

def run (calls : List PipeCall) (s : Plumbing M) : Plumbing M :=
  calls.foldl (fun s call => s.perform call) s

/-- Some pipe is not open. -/
def HasFree (s : Plumbing M) : Prop := ∃ slot, slot < maxPipes ∧ (s.kernel.pipes slot).isOpen = false

/-- The claim on one state: every descriptor leads to its slot, can be closed unless it is
the shell's, and a new pipe can be opened while fewer than `maxPipes` are open. -/
structure Sound (s : Plumbing M) : Prop where
  leads : ∀ entry ∈ s.descriptors, pipeSlot entry.1 s.kernel.pipes = some entry.2
  closes : ∀ entry ∈ s.descriptors, entry.1 ≠ 0 → (closePipe entry.1 s.kernel).1 = 0 ∧
    ((closePipe entry.1 s.kernel).2.pipes entry.2).isOpen = false
  creates : s.HasFree → 0 ≤ (createPipe s.kernel).1

/-- The descriptor of a slot. -/
def descriptor (slot : Nat) : Int := if slot = 0 then 0 else (slot : Int) + 2

/-- What is known after any calls. -/
structure InOrder (s : Plumbing M) : Prop where
  ready : s.kernel.pipeManagerInit = true
  counter : s.kernel.nextSemId = 3 * s.created
  unused : ∀ id, s.kernel.nextSemId ≤ id → (s.kernel.semaphores id).used = false
  entries : ∀ entry ∈ s.descriptors, entry.2 < maxPipes ∧ entry.1 = descriptor entry.2 ∧
    (s.kernel.pipes entry.2).isOpen = true

variable {s : Plumbing M} {k : Kernel M} {slot : Nat} {id : Int}

omit [MemoryManager M] in
/-- An id leads to the slot it was returned for unless that is one of the last two. -/
theorem pipeSlot_descriptor {pipes : Nat → Pipe} (isOpen : (pipes slot).isOpen = true) :
    pipeSlot (descriptor slot) pipes = if slot < 14 then some slot else none := by
  have size : (maxPipes : Int) = 16 := rfl
  unfold pipeSlot descriptor
  by_cases first : slot = 0
  · subst first
    simp [isOpen, size]
  · rw [if_neg first]
    by_cases fits : slot < 14
    · have range : ¬ ((slot : Int) + 2 < 0 ∨ (maxPipes : Int) ≤ slot + 2) := by omega
      have large : (2 : Int) < slot + 2 := by omega
      have back : ((slot : Int) + 2 - 2).toNat = slot := by omega
      simp only [range, large, back, isOpen, fits, if_true, if_false]
    · have range : (slot : Int) + 2 < 0 ∨ (maxPipes : Int) ≤ slot + 2 := by omega
      rw [if_pos range, if_neg fits]

omit [MemoryManager M] in
theorem pipeSlot_id {pipes : Nat → Pipe} (high : 2 < slot) (leads : pipeSlot id pipes = some slot) :
    id = descriptor slot := by
  have same : (if 2 < id then (id - 2).toNat else id.toNat) = slot := by
    unfold pipeSlot at leads
    dsimp only at leads
    generalize (if 2 < id then (id - 2).toNat else id.toNat) = found at leads
    split at leads
    · cases leads
    · split at leads
      · exact Option.some.inj leads
      · cases leads
  have range : 0 ≤ id := by
    by_contra negative
    unfold pipeSlot at leads
    rw [if_pos (.inl (Int.not_le.mp negative))] at leads
    cases leads
  unfold descriptor
  rw [if_neg (Nat.ne_of_gt (Nat.lt_of_le_of_lt (Nat.zero_le 2) high))]
  split at same
  · omega
  · omega

theorem semClose_kept (id : Int) (k : Kernel M) :
    (semClose id k).2.pipes = k.pipes ∧ (semClose id k).2.nextSemId = k.nextSemId ∧
      (semClose id k).2.pipeManagerInit = k.pipeManagerInit ∧
      ∀ other, (k.semaphores other).used = false →
        ((semClose id k).2.semaphores other).used = false := by
  unfold semClose
  split
  · exact ⟨rfl, rfl, rfl, fun _ unused => unused⟩
  · split
    · refine ⟨rfl, rfl, rfl, fun other unused => ?_⟩
      change (Function.update k.semaphores id _ other).used = false
      rw [Function.update_apply]
      split
      · rfl
      · exact unused
    · exact ⟨rfl, rfl, rfl, fun _ unused => unused⟩

/-- What `closePipe` does. -/
inductive Closes (id : Int) (k : Kernel M) : Int × Kernel M → Prop
  | refused : (∀ slot, pipeSlot id k.pipes = some slot → slot ≤ 2) → Closes id k (-1, k)
  | closed {slot : Nat} {k' : Kernel M} : pipeSlot id k.pipes = some slot → 2 < slot →
      k'.pipes = Function.update k.pipes slot (closedPipe (k.pipes slot).buffer) →
      k'.nextSemId = k.nextSemId → k'.pipeManagerInit = k.pipeManagerInit →
      (∀ other, (k.semaphores other).used = false → (k'.semaphores other).used = false) →
      Closes id k (0, k')

theorem closePipe_closes (id : Int) (ready : k.pipeManagerInit = true) :
    Closes id k (closePipe id k) := by
  unfold closePipe ensurePipeManagerInit
  rw [if_pos ready]
  dsimp only
  cases found : pipeSlot id k.pipes with
  | none => exact .refused fun slot never => by rw [found] at never; cases never
  | some slot =>
    dsimp only
    by_cases low : slot ≤ 2
    · rw [if_pos low]
      refine .refused fun other same => ?_
      rw [found] at same
      cases same
      exact low
    · rw [if_neg low]
      obtain ⟨pipes₁, next₁, init₁, unused₁⟩ := semClose_kept (k.pipes slot).semReaders k
      generalize (semClose (k.pipes slot).semReaders k).2 = k₁ at pipes₁ next₁ init₁ unused₁ ⊢
      obtain ⟨pipes₂, next₂, init₂, unused₂⟩ := semClose_kept (k.pipes slot).semWriters k₁
      generalize (semClose (k.pipes slot).semWriters k₁).2 = k₂ at pipes₂ next₂ init₂ unused₂ ⊢
      obtain ⟨pipes₃, next₃, init₃, unused₃⟩ := semClose_kept (k.pipes slot).mutex k₂
      generalize (semClose (k.pipes slot).mutex k₂).2 = k₃ at pipes₃ next₃ init₃ unused₃ ⊢
      have same : k₃.pipes = k.pipes := pipes₃.trans (pipes₂.trans pipes₁)
      refine .closed found (Nat.not_le.mp low) ?_ (next₃.trans (next₂.trans next₁))
        (init₃.trans (init₂.trans init₁)) fun other unused =>
          unused₃ other (unused₂ other (unused₁ other unused))
      unfold editPipe
      rw [same]

theorem InOrder.perform (inOrder : s.InOrder) (call : PipeCall) : (s.perform call).InOrder := by
  cases call with
  | create =>
    have creates := createPipe_creates inOrder.ready
    unfold Plumbing.perform
    dsimp only
    generalize createPipe s.kernel = result at creates ⊢
    cases creates with
    | full _ =>
      have none : openedSlot s.kernel s.kernel = none := by
        unfold openedSlot
        rw [List.find?_eq_none]
        intro slot _
        simp
      rw [none]
      exact inOrder
    | @opens slot result _ below closed lower opens =>
      have here : (result.2.pipes slot).isOpen = true := by
        rw [opens.pipes, Function.update_self]
        rfl
      have there : ∀ {other}, other ≠ slot → result.2.pipes other = s.kernel.pipes other := by
        intro other apart
        rw [opens.pipes, Function.update_of_ne apart]
      have found : openedSlot s.kernel result.2 = some slot := by
        unfold openedSlot
        rw [List.find?_range_eq_some]
        refine ⟨by simp [closed, here], List.mem_range.mpr below, fun other before => ?_⟩
        simp [lower other (Nat.zero_le other) before]
      rw [found]
      have kept : ∀ entry ∈ s.descriptors, entry.2 < maxPipes ∧ entry.1 = descriptor entry.2 ∧
          (result.2.pipes entry.2).isOpen = true := by
        intro entry member
        obtain ⟨range, named, isOpen⟩ := inOrder.entries entry member
        refine ⟨range, named, ?_⟩
        by_cases same : entry.2 = slot
        · rw [same]
          exact here
        · rw [there same]
          exact isOpen
      constructor
      · exact opens.pipeManagerInit.trans inOrder.ready
      · change result.2.nextSemId = 3 * ((s.created + 1 : Nat) : Int)
        rw [opens.nextSemId, inOrder.counter]
        omega
      · intro id above
        change result.2.nextSemId ≤ id at above
        rw [opens.nextSemId] at above
        have out : ¬ (assigned slot s.kernel).sems.own id := by
          change ¬ (id = s.kernel.nextSemId ∨ id = s.kernel.nextSemId + 1 ∨
            id = s.kernel.nextSemId + 2)
          omega
        change (result.2.semaphores id).used = false
        rw [opens.others out]
        exact inOrder.unused id (by omega)
      · intro entry member
        change entry ∈ (if 0 ≤ result.1 then (result.1, slot) :: s.descriptors
          else s.descriptors) at member
        split at member
        · rename_i positive
          rcases List.mem_cons.mp member with new | old
          · rw [new]
            refine ⟨below, ?_, here⟩
            rcases opens.id with failed | id
            · rw [failed] at positive
              exact absurd positive (by decide)
            · exact id
          · exact kept entry old
        · exact kept entry member
  | close id =>
    have closes := closePipe_closes id inOrder.ready
    unfold Plumbing.perform
    dsimp only
    generalize closePipe id s.kernel = result at closes ⊢
    cases closes with
    | refused _ => exact inOrder
    | @closed slot k' leads high pipes next init unused =>
      refine ⟨init.trans inOrder.ready, next.trans inOrder.counter, ?_, ?_⟩
      · intro other above
        change k'.nextSemId ≤ other at above
        rw [next] at above
        exact unused other (inOrder.unused other above)
      · intro entry member
        obtain ⟨old, apart⟩ := List.mem_filter.mp member
        obtain ⟨range, named, isOpen⟩ := inOrder.entries entry old
        refine ⟨range, named, ?_⟩
        have other : entry.2 ≠ slot := by
          intro same
          -- an entry with this slot has this id
          rw [same] at named isOpen
          have mine : id = descriptor slot := pipeSlot_id high leads
          exact of_decide_eq_true apart (named.trans mine.symm)
        change (k'.pipes entry.2).isOpen = true
        rw [pipes, Function.update_of_ne other]
        exact isOpen

theorem InOrder.run (inOrder : s.InOrder) (calls : List PipeCall) : (s.run calls).InOrder := by
  induction calls generalizing s with
  | nil => exact inOrder
  | cons call calls ih => exact ih (inOrder.perform call)

theorem begin_inOrder (booted : Booted k) : (begin k).InOrder := by
  have pipes := booted.pipes
  refine ⟨pipes.ready, pipes.nextSemId, fun id above => pipes.unused id ?_, ?_⟩
  · exact Int.le_trans (Int.le_of_eq pipes.nextSemId.symm) above
  · intro entry member
    rw [List.mem_singleton.mp member]
    exact ⟨by decide, rfl, pipes.shell.isOpen⟩

/-- A descriptor can be closed where it leads to a slot above 2. -/
theorem InOrder.closes_iff (inOrder : s.InOrder) {entry : Int × Nat} (member : entry ∈ s.descriptors) :
    ((closePipe entry.1 s.kernel).1 = 0 ∧
      ((closePipe entry.1 s.kernel).2.pipes entry.2).isOpen = false) ↔
    2 < entry.2 ∧ entry.2 < 14 := by
  obtain ⟨_, named, isOpen⟩ := inOrder.entries entry member
  have leads := pipeSlot_descriptor isOpen
  rw [← named] at leads
  have closes := closePipe_closes entry.1 inOrder.ready
  generalize closePipe entry.1 s.kernel = result at closes ⊢
  cases closes with
  | refused low =>
    constructor
    · exact fun never => nomatch never.1
    · rintro ⟨high, fits⟩
      rw [if_pos fits] at leads
      exact absurd (low _ leads) (Nat.not_le.mpr high)
  | @closed slot k' found high pipes _ _ _ =>
    rw [found] at leads
    split at leads
    · rename_i fits
      have same := Option.some.inj leads
      rw [← same]
      refine ⟨fun _ => ⟨high, by omega⟩, fun _ => ⟨rfl, ?_⟩⟩
      change (k'.pipes slot).isOpen = false
      rw [pipes, Function.update_self]
      rfl
    · cases leads

/-- While some slot is free a pipe can be opened unless the semaphore ids have run out. -/
theorem InOrder.creates_iff (inOrder : s.InOrder) (succeeds : AllocSucceeds M) (free : s.HasFree) :
    0 ≤ (createPipe s.kernel).1 ↔ s.created < 100 := by
  have counter := inOrder.counter
  have size : numSems = 300 := rfl
  have creates := createPipe_creates inOrder.ready
  generalize createPipe s.kernel = result at creates ⊢
  cases creates with
  | full taken =>
    obtain ⟨slot, below, closed⟩ := free
    rw [taken slot (Nat.zero_le slot) below] at closed
    cases closed
  | opens _ _ _ _ opens =>
    constructor
    · intro opened
      have range := opens.range opened
      omega
    · intro fewer
      exact opens.succeeds succeeds (by omega) inOrder.unused

/-- A descriptor is as good as its slot: the first three slots can never be closed, the last
two cannot be used, and the ids of the semaphores run out after a hundred pipes. -/
theorem sound_iff (succeeds : AllocSucceeds M) (booted : Booted k) (calls : List PipeCall) :
    ((begin k).run calls).Sound ↔
      (∀ entry ∈ ((begin k).run calls).descriptors,
        entry.2 = 0 ∨ (2 < entry.2 ∧ entry.2 < 14)) ∧
      (((begin k).run calls).HasFree → ((begin k).run calls).created < 100) := by
  have inOrder := (begin_inOrder booted).run calls
  generalize (begin k).run calls = s at inOrder
  constructor
  · intro sound
    refine ⟨fun entry member => ?_, fun free =>
      (inOrder.creates_iff succeeds free).mp (sound.creates free)⟩
    obtain ⟨_, named, _⟩ := inOrder.entries entry member
    by_cases first : entry.2 = 0
    · exact .inl first
    · have other : entry.1 ≠ 0 := by
        rw [named]
        unfold descriptor
        rw [if_neg first]
        omega
      exact .inr ((inOrder.closes_iff member).mp (sound.closes entry member other))
  · rintro ⟨slots, fewer⟩
    refine ⟨fun entry member => ?_, fun entry member other => ?_, fun free =>
      (inOrder.creates_iff succeeds free).mpr (fewer free)⟩
    · obtain ⟨_, named, isOpen⟩ := inOrder.entries entry member
      have fits : entry.2 < 14 := by
        rcases slots entry member with first | ⟨_, fits⟩
        · omega
        · exact fits
      rw [named, pipeSlot_descriptor isOpen, if_pos fits]
    · apply (inOrder.closes_iff member).mpr
      rcases slots entry member with first | fits
      · obtain ⟨_, named, _⟩ := inOrder.entries entry member
        rw [first] at named
        exact absurd named other
      · exact fits

/-- Three pipes are opened and the last is closed again. -/
def threePipes : Plumbing Bump := (begin Bump.kernel).run [.create, .create, .create, .close 5]

theorem sound_iff_threePipes : threePipes.Sound ↔
    (∀ entry ∈ threePipes.descriptors, entry.2 = 0 ∨ (2 < entry.2 ∧ entry.2 < 14)) ∧
    (threePipes.HasFree → threePipes.created < 100) :=
  sound_iff Bump.allocSucceeds Bump.booted [.create, .create, .create, .close 5]

/-- The first pipe after boot lies in slot 1: `closePipe` refuses its id. -/
theorem second_pipe_stays : ¬ ∀ (k : Kernel Bump) calls, Booted k →
    ((begin k).run calls).Sound := by
  intro sound
  have closes := (sound Bump.kernel [.create] Bump.booted).closes (3, 1) (by decide +kernel)
    (by decide)
  have refused : (closePipe 3 ((begin Bump.kernel).run [.create]).kernel).1 = -1 := by
    decide +kernel
  rw [refused] at closes
  exact absurd closes.1 (by decide)

end Plumbing
end SoKernel
