import SoKernel.Kernel.SemTable

namespace SoKernel
open MemoryManager QueueName Lib Kernel SoKernel.System

variable {M : Type}

/-- The account of one semaphore: its value when it was opened, the posts and the granted
waits since, and the pids in the order in which they fell asleep on it and in which posts
on it woke them. -/
structure Account where
  initial : Nat
  posts : Nat
  grants : Nat
  blocked : List Int
  woken : List Int

/-- A kernel and the accounts of its semaphores. -/
structure Audited (M : Type) where
  system : System M
  accounts : Int → Account

namespace Kernel

/-- The processes that slept on a semaphore and are ready now. -/
def woken (k k' : Kernel M) : List Int :=
  ((k.items blockedQueueBySem).filter (· ∈ k'.items readyQueue)).map fun a => (k.pcb a).pid

end Kernel

namespace Account

/-- A wait puts the caller to sleep or is granted at once. -/
def wait (pid : Int) (asleep : Bool) (account : Account) : Account :=
  if asleep then { account with blocked := account.blocked ++ [pid] }
  else { account with grants := account.grants + 1 }

/-- Every process that a post wakes is granted its wait. -/
def post (woken : List Int) (account : Account) : Account :=
  { account with
    posts := account.posts + 1
    grants := account.grants + woken.length
    woken := account.woken ++ woken }

/-- No token is lost, and who slept first was woken first. -/
structure Balanced (account : Account) (value : Nat) (waiting : List Int) : Prop where
  conserved : account.initial + account.posts = value + account.grants
  inOrder : account.blocked = account.woken ++ waiting

end Account

namespace Audited

variable [MemoryManager M]

/-- Ticks, calls on semaphores, and what processes need to exist. -/
def inScope : Event → Bool
  | .timerTick => true
  | .call .yield | .call (.createProcess _) | .call (.changePrio _ _) => true
  | .call (.semInit _ _) | .call (.semWait _) | .call (.semPost _) => true
  | _ => false

/-- Waits and posts are on open semaphores, and values stay below 2^32. -/
def Permitted (event : Event) (k : Kernel M) : Prop :=
  match event with
  | .call (.semInit _ value) => value < 2 ^ 32
  | .call (.semWait id) => (k.semaphores id).used = true
  | .call (.semPost id) => (k.semaphores id).used = true ∧ (k.semaphores id).value + 1 < 2 ^ 32
  | _ => True

def record (label : Label) (k k' : Kernel M) (accounts : Int → Account) : Int → Account :=
  match label.event with
  | .call (.semInit id value) =>
    if (Kernel.semInit id value k).1 = 0 then Function.update accounts id ⟨value, 0, 0, [], []⟩
    else accounts
  | .call (.semWait id) => Function.update accounts id
      ((accounts id).wait k.getCurrentPid (k.processes.currentProcess ∈ k'.items blockedQueueBySem))
  | .call (.semPost id) => Function.update accounts id ((accounts id).post (k.woken k'))
  | _ => accounts

def watch (label : Label) (t : System M) (s : Audited M) : Audited M :=
  ⟨t, record label s.system.kernel t.kernel s.accounts⟩

def Step (s : Audited M) (label : Label) (t : Audited M) : Prop :=
  inScope label.event = true ∧ Permitted label.event s.system.kernel ∧
    System.Step s.system label t.system ∧ t = s.watch label t.system

instance (event : Event) (k : Kernel M) : Decidable (Permitted event k) := by
  unfold Permitted
  split <;> infer_instance

/-- Run the events, where they can happen. -/
def exec : List Label → Audited M → Option (Audited M)
  | [], s => some s
  | label :: labels, s =>
    if inScope label.event = true ∧ Permitted label.event s.system.kernel then
      (s.system.next label).bind fun t => exec labels (s.watch label t)
    else none

theorem run_of_exec {labels : List Label} {s t : Audited M} (found : exec labels s = some t) :
    Run Step s labels t := by
  induction labels generalizing s with
  | nil =>
    cases found
    exact .nil
  | cons label labels ih =>
    unfold exec at found
    split at found
    · rename_i scope
      obtain ⟨middle, first, rest⟩ := Option.bind_eq_some_iff.mp found
      exact .cons ⟨scope.1, scope.2, step_of_next first, rfl⟩ (ih rest)
    · cases found

/-- The accounts open with the values that boot left. -/
def start (k : Kernel M) : Audited M :=
  ⟨started k, fun id => ⟨(k.semaphores id).value, 0, 0, [], []⟩⟩

/-- The claim on one state. -/
structure Fair (s : Audited M) : Prop where
  balanced : ∀ id, (s.accounts id).Balanced (s.system.kernel.semaphores id).value
    (s.system.kernel.semaphores id).waiting
  eager : ∀ id, 0 < (s.system.kernel.semaphores id).value →
    (s.system.kernel.semaphores id).waiting = []
  distinct : ∀ id, (s.system.kernel.semaphores id).waiting.Nodup
  asleep : ∀ id, ∀ pid ∈ (s.system.kernel.semaphores id).waiting,
    ∃ a ∈ s.system.kernel.items blockedQueueBySem,
      (s.system.kernel.pcb a).pid = pid ∧ (s.system.kernel.pcb a).state = .waitingSem
  oneList : ∀ a ∈ s.system.kernel.items blockedQueueBySem,
    ∃! id, (s.system.kernel.pcb a).pid ∈ (s.system.kernel.semaphores id).waiting

end Audited

namespace Kernel

variable {k k' : Kernel M} {a : Addr} {pid id : Int} {rsp : Nat} {account : Account}

/-- Nobody is woken where the queues stay as they are. -/
theorem SameRecords.woken (same : SameRecords k k') (table : Table k) : k.woken k' = [] := by
  have nobody : (k.items blockedQueueBySem).filter (· ∈ k'.items readyQueue) = [] := by
    apply List.filter_eq_nil_iff.mpr
    intro a asleep ready
    have before := same.items.mp (of_decide_eq_true ready)
    exact absurd (table.exclusive.unique asleep before) (by decide)
  unfold Kernel.woken
  rw [nobody]
  rfl

/-- Exactly the process that moved is woken. -/
theorem Relocates.woken (relocates : Relocates a readyQueue k k') (table : Table k)
    (asleep : a ∈ k.items blockedQueueBySem) : k.woken k' = [(k.pcb a).pid] := by
  have one : (k.items blockedQueueBySem).filter (· ∈ k'.items readyQueue) = [a] := by
    apply List.perm_singleton.mp
    apply (List.perm_ext_iff_of_nodup ((table.exclusive.nodup _).filter _)
      (List.nodup_singleton a)).mpr
    intro b
    rw [List.mem_filter, List.mem_singleton]
    constructor
    · rintro ⟨sleeps, ready⟩
      rcases relocates.items.mp (of_decide_eq_true ready) with ⟨old, _⟩ | ⟨_, same⟩
      · exact absurd (table.exclusive.unique sleeps old) (by decide)
      · exact same
    · intro same
      rw [same]
      exact ⟨asleep, decide_eq_true (relocates.items.mpr (.inr ⟨rfl, rfl⟩))⟩
  unfold Kernel.woken
  rw [one]
  rfl

end Kernel

namespace Audited

variable {s t : Audited M} {label : Label} {labels : List Label} {k k' : Kernel M}
variable {id : Int} {rsp : Nat} {accounts : Int → Account}

/-- The accounts balance. -/
def Balanced (accounts : Int → Account) (k : Kernel M) : Prop :=
  ∀ id, (accounts id).Balanced (k.sems.value id) (k.sems.waiting id)

theorem Balanced.same (balanced : Balanced accounts k) (same : k'.semaphores = k.semaphores) :
    Balanced accounts k' := by
  unfold Balanced
  rw [sems_congr same]
  exact balanced

variable [MemoryManager M]

theorem Balanced.semInit {value : Nat} (balanced : Balanced accounts k)
    (succeeds : AllocSucceeds M) (small : value < 2 ^ 32) :
    Balanced (record ⟨.call (.semInit id value), rsp⟩ k (semInit id value k).2 accounts)
      (semInit id value k).2 := by
  have way := semInit_opened id value k
  unfold record
  dsimp only
  generalize Kernel.semInit id value k = result at way ⊢
  cases way with
  | refused _ => exact balanced
  | @opened result after list queue closed changed empty same =>
    have sems := Opened.waiting changed empty
    have done : result = 0 := by
      rcases empty with ⟨_, fails, _⟩ | ⟨_, done⟩
      · exact absurd succeeds fails
      · exact done
    rw [if_pos done]
    intro other
    rw [sems, Function.update_apply]
    dsimp only
    rw [Function.update_apply, Function.update_apply]
    split
    · exact ⟨by rw [Nat.mod_eq_of_lt small], rfl⟩
    · exact balanced other

theorem Balanced.semWait (balanced : Balanced accounts k) (semTable : SemTable k)
    (succeeds : AllocSucceeds M) (settled : Settled k)
    (ready : k.processes.currentProcess ∈ k.items readyQueue)
    (used : (k.semaphores id).used = true) :
    Balanced (record ⟨.call (.semWait id), rsp⟩ k (semWait id rsp k).2 accounts)
      (semWait id rsp k).2 := by
  obtain ⟨sems, enters⟩ := semTable.enters rsp succeeds settled ready used
  intro other
  unfold record
  dsimp only
  by_cases here : other = id
  · subst here
    rw [Function.update_self, sems]
    obtain ⟨conserved, inOrder⟩ := balanced other
    cases enters with
    | taken token same =>
      have awake : k.processes.currentProcess ∉
          (Kernel.semWait other rsp k).2.items blockedQueueBySem := by
        intro asleep
        exact absurd (settled.table.exclusive.unique ready (same.items.mp asleep)) (by decide)
      simp only [awake, decide_false]
      rw [Semaphores.wait_taken token]
      refine ⟨?_, inOrder⟩
      change (accounts other).initial + (accounts other).posts =
        Function.update k.sems.value other (k.sems.value other - 1) other +
          ((accounts other).grants + 1)
      rw [Function.update_self]
      omega
    | queued none relocates =>
      have asleep : k.processes.currentProcess ∈
          (Kernel.semWait other rsp k).2.items blockedQueueBySem :=
        relocates.items.mpr (.inr ⟨rfl, rfl⟩)
      simp only [asleep, decide_true]
      rw [Semaphores.wait_queued none]
      refine ⟨conserved, ?_⟩
      change (accounts other).blocked ++ [k.getCurrentPid] = (accounts other).woken ++
        Function.update k.sems.waiting other (k.sems.waiting other ++ [k.getCurrentPid]) other
      rw [Function.update_self, inOrder, List.append_assoc]
  · rw [Function.update_of_ne here, sems]
    obtain ⟨value, waiting⟩ := Semaphores.wait_other (s := k.sems) (p := k.getCurrentPid) here
    rw [value, waiting]
    exact balanced other

theorem Balanced.semPost (balanced : Balanced accounts k) (semTable : SemTable k)
    (reusable : NodesReusable M) (settled : Settled k)
    (room : (k.semaphores id).value + 1 < 2 ^ 32) :
    Balanced (record ⟨.call (.semPost id), rsp⟩ k (semPost id k).2 accounts)
      (semPost id k).2 := by
  obtain ⟨sems, gives⟩ := semTable.gives reusable settled room
  intro other
  unfold record
  dsimp only
  by_cases here : other = id
  · subst here
    rw [Function.update_self, sems]
    obtain ⟨conserved, inOrder⟩ := balanced other
    cases gives with
    | counted empty same =>
      rw [same.woken settled.table, Semaphores.post_counted empty]
      refine ⟨?_, ?_⟩
      · change (accounts other).initial + ((accounts other).posts + 1) =
          Function.update k.sems.value other (k.sems.value other + 1) other +
            (accounts other).grants
        rw [Function.update_self]
        omega
      · change (accounts other).blocked = ((accounts other).woken ++ []) ++ k.sems.waiting other
        rw [List.append_nil]
        exact inOrder
    | handed front asleep relocates =>
      rw [relocates.woken settled.table asleep, Semaphores.post_handed front]
      refine ⟨?_, ?_⟩
      · change (accounts other).initial + ((accounts other).posts + 1) =
          k.sems.value other + ((accounts other).grants + 1)
        omega
      · change (accounts other).blocked = ((accounts other).woken ++ [_]) ++
          Function.update k.sems.waiting other ((k.sems.waiting other).erase _) other
        rw [Function.update_self, inOrder, front, List.erase_cons_head, List.append_assoc]
        rfl
  · rw [Function.update_of_ne here, sems]
    obtain ⟨value, waiting⟩ := Semaphores.post_other (s := k.sems) here
    rw [value, waiting]
    exact balanced other

/-- What holds in every state. -/
structure Sound (s : Audited M) : Prop where
  settled : Settled s.system.kernel
  semTable : SemTable s.system.kernel
  balanced : Balanced s.accounts s.system.kernel

theorem Step.sound (step : Step s label t) (succeeds : AllocSucceeds M) (sound : Sound s) :
    Sound t := by
  obtain ⟨scope, permitted, step, watched⟩ := step
  obtain ⟨settled, semTable, balanced⟩ := sound
  have table := settled.table
  have reusable := succeeds.nodesReusable
  have after := System.Step.settled step reusable settled
  suffices kept : SemTable t.system.kernel ∧ Balanced t.accounts t.system.kernel from
    ⟨after, kept.1, kept.2⟩
  rw [watched]
  generalize t.system = next at step
  cases step with
  | @timerTick rsp =>
    have same : (callTimerTick rsp s.system.kernel).semaphores = s.system.kernel.semaphores :=
      callTimerTick_semaphores reusable
    exact ⟨semTable.same same (callTimerTick_sameRecords table reusable), balanced.same same⟩
  | ctrlC => cases scope
  | resume _ _ => cases scope
  | @call rsp call runs _ admits =>
    have ready := runs.ready settled
    cases call with
    | yield =>
      have same : (Kernel.yield rsp s.system.kernel).semaphores = s.system.kernel.semaphores :=
        yield_semaphores reusable
      exact ⟨semTable.same same (yield_sameRecords table reusable), balanced.same same⟩
    | createProcess params =>
      have creates := createProcess_creates params settled admits runs.2
      exact ⟨semTable.creates table creates, balanced.same creates.semaphores⟩
    | changePrio pid newPrio =>
      exact ⟨semTable.same changePrio_semaphores changePrio_sameRecords,
        balanced.same changePrio_semaphores⟩
    | blockProcess _ => cases scope
    | unblockProcess _ => cases scope
    | blockProcessBySem => cases scope
    | unblockProcessBySem _ => cases scope
    | kill _ _ => cases scope
    | waitpid _ => cases scope
    | semInit id value =>
      have kept : Balanced (record ⟨.call (.semInit id value), rsp⟩ s.system.kernel
          (Kernel.semInit id value s.system.kernel).2 s.accounts)
          (Kernel.semInit id value s.system.kernel).2 := balanced.semInit succeeds permitted
      exact ⟨semTable.semInit succeeds, kept⟩
    | semWait id =>
      exact ⟨semTable.semWait succeeds settled ready permitted,
        balanced.semWait semTable succeeds settled ready permitted⟩
    | semPost id =>
      exact ⟨semTable.semPost reusable settled permitted.2,
        show Balanced (record ⟨.call (.semPost id), rsp⟩ _ _ _) _ from
          balanced.semPost semTable reusable settled permitted.2⟩

theorem start_sound (booted : Booted k) (succeeds : AllocSucceeds M) : Sound (start k) := by
  obtain ⟨shell, first⟩ := booted.start
  refine ⟨first.settled, first.semTable succeeds, ?_⟩
  intro id
  refine ⟨rfl, ?_⟩
  change [] = [] ++ (k.semaphores id).waiting
  rw [(first.quiet id).1]
  rfl

/-- Along every run of calls on open semaphores no token is lost, the wait lists and the
sleeping processes agree, and waits are granted in the order in which they blocked. -/
theorem semaphore_accounts (succeeds : AllocSucceeds M) (booted : Booted k)
    (run : Run Step (start k) labels t) : Fair t := by
  have sound : Sound t := run.preserves Sound
    (fun before step => step.sound succeeds before) (start_sound booted succeeds)
  obtain ⟨settled, semTable, balanced⟩ := sound
  refine ⟨balanced, semTable.eager, semTable.lists.exclusive.nodup, ?_, fun a => semTable.one_list⟩
  intro id pid member
  obtain ⟨a, asleep, named⟩ := semTable.lists.asleep member
  exact ⟨a, asleep, named, settled.table.fits asleep⟩

/-- A child sleeps on a semaphore of the shell and is woken by its post. -/
theorem semaphore_accounts_handover : ∃ t, Run Step (start Bump.kernel)
    [⟨.timerTick, 0⟩, ⟨.call (.semInit 100 0), 100⟩,
      ⟨.call (.createProcess ⟨some "child", 3, [], 0, true, 0, 1⟩), 200⟩, ⟨.call .yield, 300⟩,
      ⟨.call .yield, 400⟩, ⟨.call (.semWait 100), 500⟩, ⟨.call (.semPost 100), 600⟩] t ∧ Fair t := by
  have run := run_of_exec (Option.some_get (show (exec [⟨.timerTick, 0⟩,
    ⟨.call (.semInit 100 0), 100⟩,
    ⟨.call (.createProcess ⟨some "child", 3, [], 0, true, 0, 1⟩), 200⟩, ⟨.call .yield, 300⟩,
    ⟨.call .yield, 400⟩, ⟨.call (.semWait 100), 500⟩, ⟨.call (.semPost 100), 600⟩]
    (start Bump.kernel)).isSome = true by decide +kernel)).symm
  exact ⟨_, run, semaphore_accounts Bump.allocSucceeds Bump.booted run⟩

end Audited
end SoKernel
