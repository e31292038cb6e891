import SoKernel.Kernel.BootLedger
import SoKernel.Kernel.System
import SoKernel.Kernel.Watched

namespace SoKernel
open MemoryManager QueueName Lib

variable {M : Type}

namespace Kernel

variable {k k' k'' : Kernel M} {a shell : Addr} {pid parentPid : Int} {name source target : QueueName}
variable {rsp retValue : Nat} {state : ProcessState}

/-- The nodes of the four queues. -/
def nodes (k : Kernel M) : List (Node Addr) :=
  k.processes.queue readyQueue ++ k.processes.queue blockedQueue ++
    k.processes.queue blockedQueueBySem ++ k.processes.queue zombieQueue

/-- The blocks of a queued process: its node, its PCB, and its stack unless it is a zombie. -/
def footprint (k : Kernel M) (node : Node Addr) : Multiset Block :=
  (node.address, nodeSize) ::ₘ (node.data, pcbSize) ::ₘ stackBlocks (k.pcb node.data)

/-- The queued processes that were created after the shell. -/
def created (k : Kernel M) : List (Node Addr) :=
  k.nodes.filter fun node => shellPid < (k.pcb node.data).pid

def createdBlocks (k : Kernel M) : Multiset Block := (k.created.map k.footprint).sum

/-- The PCBs and the stacks of idle and the shell. -/
def household (k : Kernel M) (shell : Addr) : Multiset Block :=
  (k.processes.idleProcess, pcbSize) ::ₘ (shell, pcbSize) ::ₘ
    (stackBlocks (k.pcb k.processes.idleProcess) + stackBlocks (k.pcb shell))

/-- Every process but idle is on a queue. -/
def Enlisted (k : Kernel M) : Prop :=
  ∀ a ∈ k.pcbs, a ≠ k.processes.idleProcess → ∃ name, a ∈ k.items name

/-- A process of pid 1 that is not a zombie. -/
structure Resident (shell : Addr) (k : Kernel M) : Prop where
  member : shell ∈ k.pcbs
  pid : (k.pcb shell).pid = shellPid
  alive : (k.pcb shell).state ≠ .zombie

theorem mem_nodes {node : Node Addr} : node ∈ k.nodes ↔ ∃ name, node ∈ k.processes.queue name := by
  unfold nodes
  simp only [List.mem_append]
  constructor
  · rintro (((here | here) | here) | here)
    · exact ⟨_, here⟩
    · exact ⟨_, here⟩
    · exact ⟨_, here⟩
    · exact ⟨_, here⟩
  · rintro ⟨name, here⟩
    cases name with
    | readyQueue => exact .inl (.inl (.inl here))
    | blockedQueue => exact .inl (.inl (.inr here))
    | blockedQueueBySem => exact .inl (.inr here)
    | zombieQueue => exact .inr here

theorem mem_nodes_data : a ∈ k.nodes.map Node.data ↔ ∃ name, a ∈ k.items name := by
  constructor
  · intro member
    obtain ⟨node, here, same⟩ := List.mem_map.mp member
    obtain ⟨name, queued⟩ := mem_nodes.mp here
    exact ⟨name, List.mem_map.mpr ⟨node, queued, same⟩⟩
  · rintro ⟨name, member⟩
    obtain ⟨node, queued, same⟩ := List.mem_map.mp member
    exact List.mem_map.mpr ⟨node, mem_nodes.mpr ⟨name, queued⟩, same⟩

theorem Table.nodes_nodup (table : Table k) : (k.nodes.map Node.data).Nodup := by
  have apart : ∀ {first second : QueueName}, first ≠ second →
      List.Disjoint (k.items first) (k.items second) := by
    intro first second different a here there
    exact different (table.exclusive.unique here there)
  have each := table.exclusive.nodup
  have lists : k.nodes.map Node.data = k.items readyQueue ++ k.items blockedQueue ++
      k.items blockedQueueBySem ++ k.items zombieQueue := by
    unfold nodes
    simp only [List.map_append]
    rfl
  rw [lists]
  apply List.Nodup.append (List.Nodup.append (List.Nodup.append (each _) (each _) _) (each _) _)
    (each _)
  · rw [List.disjoint_append_left, List.disjoint_append_left]
    exact ⟨⟨apart (by decide), apart (by decide)⟩, apart (by decide)⟩
  · exact apart (by decide)
  · rw [List.disjoint_append_left]
    exact ⟨apart (by decide), apart (by decide)⟩

theorem queueBlocks_eq (k : Kernel M) :
    k.queueBlocks = (k.nodes.map fun node => {(node.address, nodeSize)}).sum := by
  have each : ∀ queue : Queue Addr,
      nodeBlocks queue =
        (queue.map fun node => ({(node.address, nodeSize)} : Multiset Block)).sum := by
    intro queue
    induction queue with
    | nil => rfl
    | cons node tail ih => simp [ih, Multiset.singleton_add]
  have names : (Finset.univ : Finset QueueName) =
    {readyQueue, blockedQueue, blockedQueueBySem, zombieQueue} := rfl
  unfold queueBlocks nodes
  rw [names]
  simp [each]

/-- Idle is the only process without a node. -/
theorem Table.pcbs_eq (table : Table k) (enlisted : k.Enlisted) :
    k.pcbs = insert k.processes.idleProcess (k.nodes.map Node.data).toFinset := by
  ext a
  rw [Finset.mem_insert, List.mem_toFinset, mem_nodes_data]
  constructor
  · intro member
    by_cases same : a = k.processes.idleProcess
    · exact .inl same
    · exact .inr (enlisted a member same)
  · rintro (same | ⟨name, member⟩)
    · rw [same]
      exact table.idle.1
    · exact table.queued member

theorem owned_footprints (table : Table k) (enlisted : k.Enlisted) :
    k.owned = ((k.processes.idleProcess, pcbSize) ::ₘ
      stackBlocks (k.pcb k.processes.idleProcess)) + (k.nodes.map k.footprint).sum := by
  have idle : k.processes.idleProcess ∉ (k.nodes.map Node.data).toFinset := by
    rw [List.mem_toFinset, mem_nodes_data]
    rintro ⟨name, member⟩
    exact table.idleAlone name member
  have each : (k.nodes.map k.footprint).sum =
      (k.nodes.map fun node => {(node.address, nodeSize)}).sum +
        ((k.nodes.map Node.data).map fun a => ((a, pcbSize) ::ₘ stackBlocks (k.pcb a))).sum := by
    rw [List.map_map, ← List.sum_map_add]
    congr 1
  unfold owned processBlocks
  rw [each, queueBlocks_eq, table.pcbs_eq enlisted, Finset.sum_insert idle,
    List.sum_toFinset _ table.nodes_nodup]
  ac_rfl

/-- The blocks of the table: the household, the node of the shell, and what belongs to the
processes that were created. -/
theorem owned_eq (table : Table k) (enlisted : k.Enlisted) (resident : Resident shell k) :
    ∃ node, (⟨node, shell⟩ : Node Addr) ∈ k.nodes ∧
      k.owned = (node, nodeSize) ::ₘ (k.household shell + k.createdBlocks) := by
  have notIdle : shell ≠ k.processes.idleProcess := by
    intro same
    have pid := resident.pid
    rw [same, table.idle.2] at pid
    exact absurd pid (by decide)
  obtain ⟨⟨node, data⟩, here, same⟩ := List.mem_map.mp
    (mem_nodes_data.mpr (enlisted shell resident.member notIdle))
  dsimp only at same
  subst same
  refine ⟨node, here, ?_⟩
  obtain ⟨before, after, whole⟩ := List.append_of_mem here
  have others : ∀ other ∈ before ++ after, shellPid < (k.pcb other.data).pid := by
    intro other member
    have queued : other.data ∈ k.nodes.map Node.data := by
      rw [whole]
      apply List.mem_map_of_mem
      rcases List.mem_append.mp member with left | right
      · exact List.mem_append_left _ left
      · exact List.mem_append_right _ (List.mem_cons_of_mem _ right)
    obtain ⟨name, listed⟩ := mem_nodes_data.mp queued
    have inTable := table.queued listed
    have different : other.data ≠ data := by
      have nodup := table.nodes_nodup
      rw [whole, List.map_append, List.map_cons] at nodup
      intro equal
      have apart := List.nodup_middle.mp nodup
      have mapped : other.data ∈ (before ++ after).map Node.data := List.mem_map_of_mem member
      rw [equal, List.map_append] at mapped
      exact (List.nodup_cons.mp apart).1 mapped
    have bound := (table.pidBound inTable).1
    have notZero : (k.pcb other.data).pid ≠ 0 := by
      intro zero
      have idle := table.pidUnique inTable table.idle.1 (zero.trans table.idle.2.symm)
      rw [idle] at listed
      exact table.idleAlone name listed
    have notOne : (k.pcb other.data).pid ≠ shellPid := by
      intro one
      exact different (table.pidUnique inTable resident.member (one.trans resident.pid.symm))
    unfold shellPid at notOne ⊢
    omega
  have created : k.created = before ++ after := by
    have own : ¬ shellPid < (k.pcb data).pid := by
      rw [resident.pid]
      exact lt_irrefl _
    unfold Kernel.created
    rw [whole, List.filter_append, List.filter_cons]
    simp only [own, decide_false, Bool.false_eq_true, if_false]
    rw [← List.filter_append, List.filter_eq_self]
    intro other member
    exact decide_eq_true (others other member)
  rw [owned_footprints table enlisted]
  unfold createdBlocks household
  rw [created, whole]
  simp only [List.map_append, List.map_cons, List.sum_append, List.sum_cons]
  unfold footprint
  simp only [← Multiset.singleton_add]
  abel

/-! ## Who stays in the table -/

/-- What no operation does to the processes of `main`, and to a pid that is gone. -/
structure Tends (k k' : Kernel M) : Prop where
  idle : k'.processes.idleProcess = k.processes.idleProcess
  residents : ∀ a ∈ k.pcbs, (k.pcb a).pid ≤ shellPid → a ∉ k.items zombieQueue →
    a ∈ k'.pcbs ∧ (k'.pcb a).pid = (k.pcb a).pid ∧ (k'.pcb a).base = (k.pcb a).base ∧
      a ∉ k'.items zombieQueue
  enlisted : k.Enlisted → k'.Enlisted
  pids : ∀ a ∈ k'.pcbs, (∃ b ∈ k.pcbs, (k.pcb b).pid = (k'.pcb a).pid) ∨
    k.nextFreePid ≤ (k'.pcb a).pid
  counts : k.nextFreePid ≤ k'.nextFreePid

theorem Tends.refl : Tends k k where
  idle := rfl
  residents _ member _ alive := ⟨member, rfl, rfl, alive⟩
  enlisted := id
  pids a member := .inl ⟨a, member, rfl⟩
  counts := le_rfl

theorem Tends.trans (first : Tends k k') (second : Tends k' k'') : Tends k k'' where
  idle := second.idle.trans first.idle
  residents := by
    intro a member old alive
    obtain ⟨here, pid, base, living⟩ := first.residents a member old alive
    obtain ⟨there, pid', base', living'⟩ := second.residents a here (by rw [pid]; exact old) living
    exact ⟨there, pid'.trans pid, base'.trans base, living'⟩
  enlisted := fun listed => second.enlisted (first.enlisted listed)
  pids := by
    intro a member
    rcases second.pids a member with ⟨b, here, same⟩ | fresh
    · rcases first.pids b here with ⟨c, there, equal⟩ | fresh
      · exact .inl ⟨c, there, equal.trans same⟩
      · exact .inr (by rw [← same]; exact fresh)
    · exact .inr (le_trans first.counts fresh)
  counts := le_trans first.counts second.counts

/-- The same table, with processes on other queues, but no new zombie of the first two. -/
theorem Tends.same (pcbs : k'.pcbs = k.pcbs)
    (idle : k'.processes.idleProcess = k.processes.idleProcess)
    (counts : k'.nextFreePid = k.nextFreePid) (pid : ∀ a, (k'.pcb a).pid = (k.pcb a).pid)
    (base : ∀ a, (k'.pcb a).base = (k.pcb a).base)
    (listed : ∀ {a}, (∃ name, a ∈ k.items name) → ∃ name, a ∈ k'.items name)
    (zombies : ∀ a ∈ k'.items zombieQueue, a ∈ k.items zombieQueue ∨ shellPid < (k.pcb a).pid) :
    Tends k k' where
  idle := idle
  residents := by
    intro a member old alive
    refine ⟨by rw [pcbs]; exact member, pid a, base a, ?_⟩
    intro dead
    rcases zombies a dead with here | young
    · exact alive here
    · exact absurd old (not_le.mpr young)
  enlisted := by
    intro enlisted a member other
    rw [pcbs] at member
    rw [idle] at other
    exact listed (enlisted a member other)
  pids := by
    intro a member
    rw [pcbs] at member
    exact .inl ⟨a, member, (pid a).symm⟩
  counts := le_of_eq counts.symm

theorem Switched.tends (switched : Switched rsp k k' a) (table : Table k) : Tends k k' := by
  have items : ∀ {x name}, x ∈ k'.items name ↔ x ∈ k.items name :=
    switched.mem_items table.exclusive
  apply Tends.same switched.pcbs switched.idle switched.nextFreePid
  · exact fun a => switched.pid
  · intro a
    rw [switched.pcb]
    rfl
  · rintro a ⟨name, member⟩
    exact ⟨name, items.mpr member⟩
  · exact fun a dead => .inl (items.mp dead)

theorem Moved.tends (moved : Moved pid source target state a k k') (table : Table k)
    (shown : target = zombieQueue → shellPid < pid) : Tends k k' := by
  have items : ∀ {x name}, x ∈ k'.items name ↔ (x ∈ k.items name ∧ x ≠ a) ∨ (name = target ∧ x = a) :=
    moved.mem_items table.exclusive
  have record : ∀ x, (k'.pcb x).base = (k.pcb x).base := by
    intro x
    rw [moved.pcb]
    split
    · rename_i same
      rw [same]
    · rfl
  have rest : k'.pcbs = k.pcbs ∧ k'.nextFreePid = k.nextFreePid := by
    obtain ⟨memory, queue, rfl, _⟩ := moved.requeued
    exact ⟨rfl, rfl⟩
  apply Tends.same rest.1 moved.idle rest.2
  · exact fun a => moved.pid_eq
  · exact record
  · rintro x ⟨name, member⟩
    by_cases same : x = a
    · exact ⟨target, items.mpr (.inr ⟨rfl, same⟩)⟩
    · exact ⟨name, items.mpr (.inl ⟨member, same⟩)⟩
  · intro x dead
    rcases items.mp dead with ⟨old, _⟩ | ⟨here, same⟩
    · exact .inl old
    · right
      rw [same, moved.named]
      exact shown here.symm

theorem Tends.editPcb (a : Addr) {change : PCB → PCB}
    (kept : ∀ pcb, (change pcb).pid = pcb.pid ∧ (change pcb).base = pcb.base) :
    Tends k (k.editPcb a change) := by
  have same : ∀ b, ((k.editPcb a change).pcb b).pid = (k.pcb b).pid ∧
      ((k.editPcb a change).pcb b).base = (k.pcb b).base := by
    intro b
    rw [editPcb_pcb]
    split
    · rename_i equal
      rw [equal]
      exact kept _
    · exact ⟨rfl, rfl⟩
  exact Tends.same rfl rfl rfl (fun b => (same b).1) (fun b => (same b).2) id fun _ dead => .inl dead

theorem Killed.tends (killed : Killed pid retValue source a k k') (table : Table k)
    (user : shellPid < pid) : Tends k k' := by
  have items : ∀ {x name}, x ∈ k'.items name ↔
      (x ∈ k.items name ∧ x ≠ a) ∨ (name = zombieQueue ∧ x = a) :=
    killed.mem_items table.exclusive
  have record : ∀ x, (k'.pcb x).pid = (k.pcb x).pid ∧ (k'.pcb x).base = (k.pcb x).base := by
    intro x
    rw [killed.pcb]
    split
    · rename_i same
      rw [same]
      exact ⟨rfl, rfl⟩
    · exact ⟨rfl, rfl⟩
  have rest : k'.pcbs = k.pcbs ∧ k'.processes.idleProcess = k.processes.idleProcess ∧
      k'.nextFreePid = k.nextFreePid := by
    obtain ⟨k₁, ⟨_, _, memory, queue, rfl, _⟩, rfl⟩ := killed.moved
    unfold vacate exiting
    split <;> split <;> exact ⟨rfl, rfl, rfl⟩
  apply Tends.same rest.1 rest.2.1 rest.2.2
  · exact fun x => (record x).1
  · exact fun x => (record x).2
  · rintro x ⟨name, member⟩
    by_cases same : x = a
    · exact ⟨zombieQueue, items.mpr (.inr ⟨rfl, same⟩)⟩
    · exact ⟨name, items.mpr (.inl ⟨member, same⟩)⟩
  · intro x dead
    rcases items.mp dead with ⟨old, _⟩ | ⟨_, same⟩
    · exact .inl old
    · right
      rw [same, killed.named]
      exact user

theorem Reaped.tends (reaped : Reaped a k k') (table : Table k) : Tends k k' := by
  have items : ∀ {x name}, x ∈ k'.items name ↔ x ∈ k.items name ∧ x ≠ a :=
    reaped.mem_items table.exclusive
  obtain ⟨pcbs, counts, _, _, idle, _⟩ := reaped.fields
  have member : ∀ {x}, x ∈ k'.pcbs ↔ x ≠ a ∧ x ∈ k.pcbs := by
    intro x
    rw [pcbs]
    exact Finset.mem_erase
  constructor
  · exact idle
  · intro x here _ alive
    have other : x ≠ a := by
      intro same
      rw [same] at alive
      exact alive reaped.member
    rw [reaped.pcb other]
    exact ⟨member.mpr ⟨other, here⟩, rfl, rfl, fun dead => alive (items.mp dead).1⟩
  · intro enlisted x here notIdle
    obtain ⟨other, old⟩ := member.mp here
    rw [idle] at notIdle
    obtain ⟨name, listed⟩ := enlisted x old notIdle
    exact ⟨name, items.mpr ⟨listed, other⟩⟩
  · intro x here
    obtain ⟨other, old⟩ := member.mp here
    exact .inl ⟨x, old, by rw [reaped.pcb other]⟩
  · exact le_of_eq counts.symm

theorem Wakes.tends (wakes : Wakes parentPid pid k k') (table : Table k) : Tends k k' := by
  cases wakes with
  | skip _ => exact .refl
  | wake _ moved => exact moved.tends table fun zombie => absurd zombie (by decide)

variable [MemoryManager M]

/-- The new process is on its queue. -/
theorem placed_tends {params : CreationParams} {listed : QueueName} (fresh : k.FreshPcb)
    (requeued : Requeued (k.described params) (k.placed params)
      (push k.items listed k.pcbRequest)) (alive : listed ≠ zombieQueue) :
    Tends k (k.placed params) := by
  obtain ⟨processes, pcbs, counts, others⟩ := described_fields params k
  have named : ((k.described params).pcb k.pcbRequest).pid = k.nextFreePid := described_pid
  have unused : k.pcbRequest ∉ k.pcbs := fresh
  obtain ⟨memory, queue, result, lists⟩ := requeued
  rw [result] at lists ⊢
  have items : ∀ {x name}, x ∈ ((k.described params).withQueues memory queue).items name ↔
      x ∈ k.items name ∨ (name = listed ∧ x = k.pcbRequest) := by
    intro x name
    rw [lists]
    exact mem_push
  have record : ∀ {x}, x ∈ k.pcbs → (k.described params).pcb x = k.pcb x := by
    intro x member
    apply others
    intro same
    rw [same] at member
    exact unused member
  have member : ∀ {x}, x ∈ ((k.described params).withQueues memory queue).pcbs ↔
      x = k.pcbRequest ∨ x ∈ k.pcbs := by
    intro x
    change x ∈ (k.described params).pcbs ↔ _
    rw [pcbs]
    exact Finset.mem_insert
  have idle : (k.described params).processes.idleProcess = k.processes.idleProcess := by
    rw [processes]
  constructor
  · exact idle
  · intro x here _ living
    change _ ∧ ((k.described params).pcb x).pid = _ ∧ ((k.described params).pcb x).base = _ ∧ _
    rw [record here]
    refine ⟨member.mpr (.inr here), rfl, rfl, ?_⟩
    intro dead
    rcases items.mp dead with old | ⟨same, _⟩
    · exact living old
    · exact alive same.symm
  · intro enlisted x here notIdle
    change x ≠ (k.described params).processes.idleProcess at notIdle
    rw [idle] at notIdle
    rcases member.mp here with same | old
    · exact ⟨listed, items.mpr (.inr ⟨rfl, same⟩)⟩
    · obtain ⟨name, queued⟩ := enlisted x old notIdle
      exact ⟨name, items.mpr (.inl queued)⟩
  · intro x here
    change (∃ b ∈ k.pcbs, (k.pcb b).pid = ((k.described params).pcb x).pid) ∨
      _ ≤ ((k.described params).pcb x).pid
    rcases member.mp here with same | old
    · rw [same, named]
      exact .inr le_rfl
    · rw [record old]
      exact .inl ⟨x, old, rfl⟩
  · change k.nextFreePid ≤ (k.described params).nextFreePid
    rw [counts]
    omega

theorem createProcess_tends {params : CreationParams} (settled : Settled k)
    (succeeds : AllocSucceeds M) (user : k.processes.currentProcess ≠ k.processes.idleProcess)
    (fresh : k.FreshPcb) (fits : params.Fits) (low : 0 ≤ params.priority)
    (high : params.priority ≤ maxPriority) : Tends k (createProcess params k).2 := by
  rw [createProcess_user params settled user]
  by_cases invalid : params.name = none ∨ params.function = 0
  · rw [if_pos invalid]
    exact .refl
  have pcb : k.pcbRequest ≠ 0 := succeeds _ _
  have built : builtRsp params k ≠ 0 := builtRsp_ne_zero fits (succeeds _ _)
  rw [if_neg invalid, if_neg pcb, if_neg built]
  have target : ∃ name, params.target = some name ∧ name ≠ zombieQueue := by
    unfold CreationParams.target
    split
    · exact ⟨_, rfl, by decide⟩
    · have user : (params.priority % 256).toNat ≠ idlePriority := by
        unfold maxPriority at high
        unfold idlePriority
        omega
      rw [if_pos user]
      exact ⟨_, rfl, by decide⟩
  obtain ⟨name, goes, alive⟩ := target
  rcases placed_cases params k with ⟨_, refused⟩ | ⟨listed, same, _, requeued⟩
  · exact absurd (refused name goes) (succeeds _ _)
  · rw [goes] at same
    cases same
    exact placed_tends fresh requeued alive

/-! ## Each operation -/

theorem callTimerTick_tends (settled : Settled k) (reusable : NodesReusable M) :
    Tends k (callTimerTick rsp k) := by
  rcases callTimerTick_cases rsp k reusable with ⟨_, same⟩ | ⟨_, next, switched⟩
  · rw [same]
    exact Tends.same rfl rfl rfl (fun _ => rfl) (fun _ => rfl) id fun _ dead => .inl dead
  · exact switched.tends settled.table

theorem yield_tends (table : Table k) (reusable : NodesReusable M) :
    Tends k (yield rsp k) := by
  obtain ⟨next, switched⟩ := yield_switches rsp k reusable
  exact switched.tends table

theorem blockProcess_tends (settled : Settled k) (reusable : NodesReusable M) :
    Tends k (blockProcess pid rsp k).2 := by
  rcases blockProcess_cases pid rsp k reusable with ⟨same, _⟩ | ⟨source, a, k', _, moved, same⟩
  · rw [same]
    exact .refl
  · have blocked : Tends k k' := moved.tends settled.table fun zombie => absurd zombie (by decide)
    have table : Table k' := moved.table settled.table rfl (by decide)
      fun zombie => absurd zombie (by decide)
    rw [same]
    dsimp only
    split
    · exact blocked.trans (yield_tends table reusable)
    · exact blocked

theorem unblockProcess_tends (settled : Settled k) (reusable : NodesReusable M) :
    Tends k (unblockProcess pid k).2 := by
  rcases unblockProcess_cases pid k reusable with ⟨same, _⟩ | ⟨a, k', same, moved⟩
  · rw [same]
    exact .refl
  · rw [same]
    exact moved.tends settled.table fun zombie => absurd zombie (by decide)

theorem kill_tends (settled : Settled k) (reusable : NodesReusable M) :
    Tends k (kill pid retValue rsp k).2 := by
  rcases kill_cases pid retValue rsp reusable settled with
    ⟨same, _⟩ | ⟨source, a, k₁, k₂, user, killed, wakes, same⟩
  · rw [same]
    exact .refl
  · have dead := killed.settled settled
    have woken := (killed.tends settled.table user).trans (wakes.tends dead.table)
    rw [same]
    dsimp only
    split
    · exact woken.trans (yield_tends (wakes.settled dead).table reusable)
    · exact woken

omit [MemoryManager M] in
theorem setWaiting_tends (a : Addr) (pid : Int) (k : Kernel M) :
    Tends k (k.setWaiting a pid) := Tends.editPcb a fun _ => ⟨rfl, rfl⟩

theorem waitpid_tends (settled : Settled k) (reusable : NodesReusable M)
    (ready : k.processes.currentProcess ∈ k.items readyQueue) :
    Tends k (waitpid pid rsp k).2 := by
  have way := waitpid_cases pid rsp reusable settled ready
  generalize waitpid pid rsp k = result at way ⊢
  obtain ⟨outcome, after⟩ := result
  cases way with
  | absent _ => exact .refl
  | stranger _ _ => exact .refl
  | refused _ _ => exact .refl
  | reaped _ _ _ reaped =>
    exact (setWaiting_tends _ _ k).trans (reaped.tends (settled.setWaiting _ _).table)
  | asleep _ _ _ moved same =>
    have table := (settled.setWaiting k.processes.currentProcess pid).table
    have blocked := moved.tends table fun zombie => absurd zombie (by decide)
    rw [same]
    have after := moved.table table rfl (by decide) fun zombie => absurd zombie (by decide)
    exact ((setWaiting_tends _ _ k).trans blocked).trans (yield_tends after reusable)

theorem waitpidResume_tends (settled : Settled k) (current : Addr) :
    Tends k (waitpidResume pid current k).2.2 := by
  rcases waitpidResume_cases pid current settled with ⟨_, same⟩ | ⟨k', _, reaped, same⟩
  · rw [same]
    exact .refl
  · rw [same]
    exact (setWaiting_tends _ _ k).trans (reaped.tends (settled.setWaiting _ _).table)

omit [MemoryManager M] in
theorem changePrio_tends (pid newPrio : Int) (k : Kernel M) :
    Tends k (changePrio pid newPrio k).2 := by
  unfold changePrio
  dsimp only
  split
  · exact .refl
  · split
    · exact .refl
    · dsimp only
      exact Tends.editPcb _ fun _ => ⟨rfl, rfl⟩

end Kernel

/-! ## Runs -/

open Kernel

/-- The events of the life of processes: no semaphore is used, a creation has a priority from 0
to 5 and arguments that fit the stack. -/
def Event.OfLife : Event → Prop
  | .timerTick | .ctrlC | .resume => True
  | .call request =>
    match request with
    | .yield | .blockProcess _ | .unblockProcess _ | .kill _ _ | .waitpid _ | .changePrio _ _ => True
    | .createProcess params =>
      0 ≤ params.priority ∧ params.priority ≤ maxPriority ∧ params.Fits
    | .blockProcessBySem | .unblockProcessBySem _ | .semInit _ _ | .semWait _ | .semPost _ => False

/-- The system, with the pids that were successfully waited for. -/
structure Lives (M : Type) where
  system : System M
  waited : List Int

variable [MemoryManager M]

namespace Lives

/-- The pid that a successful `waitpid` returns in this step. -/
def reaps (label : Label) (s : System M) : List Int :=
  match label.event with
  | .call (.waitpid pid) =>
    match waitpid pid label.rsp s.kernel with
    | (.returned child (some _), _) => [child]
    | _ => []
  | .resume =>
    match s.pending s.kernel.processes.currentProcess with
    | none => []
    | some pid =>
      match waitpidResume pid s.kernel.processes.currentProcess s.kernel with
      | (child, some _, _) => [child]
      | _ => []
  | _ => []

inductive Step : Lives M → Label → Lives M → Prop
  | step {s t : System M} {label waited} : System.Step s label t → label.event.OfLife →
      Step ⟨s, waited⟩ label ⟨t, waited ++ reaps label s⟩

/-- No pid was waited for when `main` has enabled interrupts. -/
def started (k : Kernel M) : Lives M := ⟨System.started k, []⟩

/-- A run of the system whose events are all of this kind. -/
theorem run_of {s t : System M} {labels : List Label} (run : Run System.Step s labels t)
    (life : ∀ label ∈ labels, label.event.OfLife) (waited : List Int) :
    ∃ after, Run Step ⟨s, waited⟩ labels ⟨t, after⟩ := by
  induction run generalizing waited with
  | nil => exact ⟨waited, .nil⟩
  | cons one _ ih =>
    obtain ⟨after, rest⟩ := ih (fun label member => life label (List.mem_cons_of_mem _ member)) _
    exact ⟨after, .cons (.step one (life _ List.mem_cons_self)) rest⟩

/-- The invariant of these runs. -/
structure Kept (books : Books M) (rest : Multiset Block) (k : Kernel M) (s : Lives M) : Prop where
  settled : Settled s.system.kernel
  balanced : Balanced books rest s.system.kernel
  tends : Tends k s.system.kernel
  gone : ∀ pid ∈ s.waited, pid < s.system.kernel.nextFreePid ∧
    ∀ a ∈ s.system.kernel.pcbs, (s.system.kernel.pcb a).pid ≠ pid

variable {books : Books M} {rest : Multiset Block} {k : Kernel M} {s t : Lives M} {label : Label}
variable {labels : List Label}

/-- What one event does to the blocks and to the table. -/
theorem step_tends {s t : System M} (step : System.Step s label t) (life : label.event.OfLife)
    (succeeds : AllocSucceeds M) (settled : Settled s.kernel)
    (balanced : Balanced books rest s.kernel) :
    Balanced books rest t.kernel ∧ Tends s.kernel t.kernel := by
  have reusable := succeeds.nodesReusable
  cases step with
  | timerTick =>
    exact ⟨balanced.callTimerTick settled.table reusable, callTimerTick_tends settled reusable⟩
  | ctrlC => exact ⟨balanced.kill reusable settled, kill_tends settled reusable⟩
  | resume _ _ => exact ⟨balanced.waitpidResume settled _, waitpidResume_tends settled _⟩
  | @call rsp request runs _ admits =>
    cases request with
    | yield => exact ⟨balanced.yield settled.table reusable, yield_tends settled.table reusable⟩
    | createProcess params =>
      obtain ⟨low, high, fits⟩ := life
      exact ⟨balanced.createProcess settled runs.2 admits fits,
        createProcess_tends settled succeeds runs.2 admits fits low high⟩
    | blockProcess pid =>
      exact ⟨balanced.blockProcess reusable settled, blockProcess_tends settled reusable⟩
    | unblockProcess pid =>
      exact ⟨balanced.unblockProcess reusable settled.table, unblockProcess_tends settled reusable⟩
    | kill pid retValue => exact ⟨balanced.kill reusable settled, kill_tends settled reusable⟩
    | waitpid pid =>
      rw [System.perform_waitpid]
      exact ⟨balanced.waitpid reusable settled (runs.ready settled),
        waitpid_tends settled reusable (runs.ready settled)⟩
    | changePrio pid newPrio => exact ⟨balanced.changePrio, changePrio_tends pid newPrio s.kernel⟩
    | blockProcessBySem => exact life.elim
    | unblockProcessBySem pid => exact life.elim
    | semInit id value => exact life.elim
    | semWait id => exact life.elim
    | semPost id => exact life.elim

omit [MemoryManager M] in
/-- A pid that is reaped belongs to nobody any more. -/
theorem reaped_gone {a : Addr} {k k' : Kernel M} (reaped : Reaped a k k') (table : Table k) :
    (k.pcb a).pid < k'.nextFreePid ∧ ∀ b ∈ k'.pcbs, (k'.pcb b).pid ≠ (k.pcb a).pid := by
  obtain ⟨pcbs, counts, _⟩ := reaped.fields
  have member := table.queued reaped.member
  refine ⟨?_, ?_⟩
  · rw [counts]
    exact (table.pidBound member).2
  · intro b here same
    rw [pcbs] at here
    obtain ⟨other, old⟩ := Finset.mem_erase.mp here
    rw [reaped.pcb other] at same
    exact other (table.pidUnique old member same)

omit [MemoryManager M] in
theorem target_gone {k k' : Kernel M} {a : Addr} {pid note : Int} (settled : Settled k)
    (reaped : Reaped (k.getProcess pid) (k.setWaiting a note) k') :
    pid < k'.nextFreePid ∧ ∀ b ∈ k'.pcbs, (k'.pcb b).pid ≠ pid := by
  have table := (settled.setWaiting a note).table
  have present : k.getProcess pid ≠ 0 := table.ne_zero (table.queued reaped.member)
  obtain ⟨_, named⟩ := found_of_getProcess settled.table present
  have gone := reaped_gone reaped table
  rw [(setWaiting_fields _ _ _ _).1, named] at gone
  exact gone

theorem reaps_gone {s t : System M} (step : System.Step s label t) (settled : Settled s.kernel)
    (reusable : NodesReusable M) : ∀ pid ∈ reaps label s,
      pid < t.kernel.nextFreePid ∧ ∀ a ∈ t.kernel.pcbs, (t.kernel.pcb a).pid ≠ pid := by
  intro pid member
  cases step with
  | timerTick => cases member
  | ctrlC => cases member
  | @resume rsp target _ pending =>
    unfold reaps at member
    dsimp only at member ⊢
    rw [pending] at member
    dsimp only at member
    rcases waitpidResume_cases target s.kernel.processes.currentProcess settled with
      ⟨_, same⟩ | ⟨k', _, reaped, same⟩
    · rw [same] at member
      cases member
    · rw [same] at member ⊢
      cases List.mem_singleton.mp member
      exact target_gone settled reaped
  | @call rsp request runs _ admits =>
    cases request with
    | waitpid target =>
      have way := waitpid_cases target rsp reusable settled (runs.ready settled)
      rw [System.perform_waitpid]
      unfold reaps at member
      dsimp only at member
      generalize waitpid target rsp s.kernel = result at way member ⊢
      obtain ⟨outcome, after⟩ := result
      cases way with
      | absent _ => cases member
      | stranger _ _ => cases member
      | refused _ _ => cases member
      | asleep _ _ _ _ _ => cases member
      | reaped _ _ _ reaped =>
        cases List.mem_singleton.mp member
        exact target_gone settled reaped
    | yield => cases member
    | createProcess params => cases member
    | blockProcess pid => cases member
    | unblockProcess pid => cases member
    | kill pid retValue => cases member
    | changePrio pid newPrio => cases member
    | blockProcessBySem => cases member
    | unblockProcessBySem pid => cases member
    | semInit id value => cases member
    | semWait id => cases member
    | semPost id => cases member

theorem Kept.step (kept : Kept books rest k s) (succeeds : AllocSucceeds M) (step : Step s label t) :
    Kept books rest k t := by
  have reusable := succeeds.nodesReusable
  obtain ⟨settled, balanced, tends, gone⟩ := kept
  cases step with
  | @step s t _ waited one life =>
    obtain ⟨after, moved⟩ := step_tends one life succeeds settled balanced
    refine ⟨System.Step.settled one reusable settled, after, tends.trans moved, ?_⟩
    intro pid member
    rcases List.mem_append.mp member with old | new
    · obtain ⟨bound, nobody⟩ := gone pid old
      refine ⟨lt_of_lt_of_le bound moved.counts, ?_⟩
      intro a here same
      rcases moved.pids a here with ⟨b, there, equal⟩ | fresh
      · exact nobody b there (equal.trans same)
      · dsimp only at bound
        rw [same] at fresh
        exact absurd bound (not_lt.mpr fresh)
    · exact reaps_gone one settled reusable pid new

theorem Kept.run (kept : Kept books rest k s) (succeeds : AllocSucceeds M)
    (run : Run Step s labels t) : Kept books rest k t :=
  run.preserves (Kept books rest k) (fun before step => before.step succeeds step) kept

/-- The balance of boot, with the shell on its queue and nobody else. -/
theorem kept_started {rest : Multiset Block} (booted : Booted k) (balanced : Balanced books rest k) :
    Kept books rest k (started k) := by
  obtain ⟨shell, start⟩ := booted.start
  exact ⟨start.settled, balanced, .refl, nofun⟩

/-- What boot leaves stays, the shell has one node, and each process created since has its
blocks and no others. -/
structure NoLeak (books : Books M) (k : Kernel M) (s : Lives M) : Prop where
  blocks : ∃ kept old new shell, (⟨old, shell⟩ : Node Addr) ∈ k.nodes ∧
    (⟨new, shell⟩ : Node Addr) ∈ s.system.kernel.nodes ∧
    books.live k.memory = (old, nodeSize) ::ₘ kept ∧
    books.live s.system.kernel.memory =
      (new, nodeSize) ::ₘ (kept + s.system.kernel.createdBlocks)
  returned : (∀ pid, shellPid < pid → pid < s.system.kernel.nextFreePid → pid ∈ s.waited) →
    s.system.kernel.createdBlocks = 0 ∧
    books.usedMemory s.system.kernel.memory = books.usedMemory k.memory

/-- If the books were off at the start, every balance would hold in the end. -/
theorem clean_before (booted : Booted k) (succeeds : AllocSucceeds M)
    (run : Run Step (started k) labels t) (clean : books.clean t.system.kernel.memory) :
    books.clean k.memory := by
  by_contra off
  have any : ∀ rest, books.live t.system.kernel.memory = rest + t.system.kernel.owned := by
    intro rest
    have before : Balanced books rest k := fun clean => absurd clean off
    exact ((kept_started booted before).run succeeds run).balanced clean
  have none := any 0
  rw [any {(0, 0)}, add_left_inj] at none
  exact absurd none (Multiset.singleton_ne_zero _)

theorem start_resident {shell : Addr} (start : Start shell k) : Resident shell k where
  member := by
    rw [start.pcbs]
    exact Finset.mem_insert_self _ _
  pid := start.shellRecord.pid
  alive := by
    rw [start.shellRecord.state]
    decide

theorem start_enlisted {shell : Addr} (start : Start shell k) : k.Enlisted := by
  intro a member other
  rw [start.pcbs] at member
  rcases Finset.mem_insert.mp member with same | idle
  · refine ⟨readyQueue, ?_⟩
    rw [start.items, same]
    exact mem_push.mpr (.inr ⟨rfl, rfl⟩)
  · exact absurd (Finset.mem_singleton.mp idle) other

/-- Only the shell and idle are there after boot. -/
theorem start_created {shell : Addr} (start : Start shell k) : k.createdBlocks = 0 := by
  have nobody : k.created = [] := by
    unfold created
    rw [List.filter_eq_nil_iff]
    intro node here young
    obtain ⟨name, queued⟩ := mem_nodes_data.mp (List.mem_map_of_mem here)
    rw [start.items] at queued
    rcases mem_push.mp queued with none | ⟨_, same⟩
    · cases none
    · rw [same, start.shellRecord.pid] at young
      exact absurd (of_decide_eq_true young) (lt_irrefl _)
  unfold createdBlocks
  rw [nobody]
  rfl

/-- The processes of `main` are the same ones, with the same stacks. -/
theorem Kept.resident {shell : Addr} (kept : Kept books rest k s) (start : Start shell k)
    (enlisted : s.system.kernel.Enlisted) :
    Resident shell s.system.kernel ∧ s.system.kernel.household shell = k.household shell := by
  have table := kept.settled.table
  have tends := kept.tends
  have before := start_resident start
  have free : ∀ a, a ∉ k.items zombieQueue := by
    intro a here
    rw [start.items] at here
    rcases mem_push.mp here with none | ⟨wrong, _⟩
    · cases none
    · cases wrong
  obtain ⟨member, pid, base, living⟩ := tends.residents shell before.member
    (le_of_eq before.pid) (free shell)
  obtain ⟨_, idlePid, idleBase, _⟩ := tends.residents _ start.settled.table.idle.1
    (by rw [start.settled.table.idle.2]; decide) (free _)
  have notIdle : shell ≠ s.system.kernel.processes.idleProcess := by
    rw [tends.idle]
    exact start.apart
  have alive : (s.system.kernel.pcb shell).state ≠ .zombie := by
    obtain ⟨name, queued⟩ := enlisted shell member notIdle
    apply table.alive queued
    intro zombie
    rw [zombie] at queued
    exact living queued
  refine ⟨⟨member, pid.trans before.pid, alive⟩, ?_⟩
  have idleAlive := table.idle_alive
  rw [tends.idle] at idleAlive
  unfold household
  rw [tends.idle, stackBlocks_alive alive, stackBlocks_alive idleAlive,
    stackBlocks_alive before.alive, stackBlocks_alive start.settled.table.idle_alive, base, idleBase]

theorem Kept.noLeak {shell : Addr} (kept : Kept books rest k s) (start : Start shell k)
    (balanced : Balanced books rest k) (before : books.clean k.memory)
    (clean : books.clean s.system.kernel.memory) : NoLeak books k s := by
  have enlisted := kept.tends.enlisted (start_enlisted start)
  obtain ⟨resident, household⟩ := kept.resident start enlisted
  obtain ⟨old, here, whole⟩ := owned_eq start.settled.table (start_enlisted start)
    (start_resident start)
  obtain ⟨new, there, rest'⟩ := owned_eq kept.settled.table enlisted resident
  have first : books.live k.memory = (old, nodeSize) ::ₘ (rest + k.household shell) := by
    rw [balanced before, whole, start_created start, add_zero, Multiset.add_cons]
  have second : books.live s.system.kernel.memory = (new, nodeSize) ::ₘ
      ((rest + k.household shell) + s.system.kernel.createdBlocks) := by
    rw [kept.balanced clean, rest', household, Multiset.add_cons, add_assoc]
  constructor
  · exact ⟨_, old, new, shell, here, there, first, second⟩
  · intro all
    have nobody : s.system.kernel.created = [] := by
      unfold created
      rw [List.filter_eq_nil_iff]
      intro node listed young
      obtain ⟨name, queued⟩ := mem_nodes_data.mp (List.mem_map_of_mem listed)
      have member := kept.settled.table.queued queued
      have bound := (kept.settled.table.pidBound member).2
      exact (kept.gone _ (all _ (of_decide_eq_true young) bound)).2 _ member rfl
    have none : s.system.kernel.createdBlocks = 0 := by
      unfold createdBlocks
      rw [nobody]
      rfl
    refine ⟨none, ?_⟩
    rw [books.reported clean, books.reported before, first, second, none, add_zero]
    simp

end Lives

open Lives

/-- The shell starts a process, kills it and waits for it. -/
def shortLife : List Label :=
  [⟨.timerTick, 0⟩, ⟨.call (.createProcess ⟨some "child", 3, [], 0, true, 0, 1⟩), 100⟩,
    ⟨.call (.kill 2 7), 200⟩, ⟨.call (.waitpid 2), 300⟩]

theorem shortLife_runs :
    (System.exec shortLife (System.started Arena.kernel)).isSome = true := by decide +kernel

theorem shortLife_ofLife : ∀ label ∈ shortLife, label.event.OfLife := by
  have child : CreationParams.Fits ⟨some "child", 3, [], 0, true, 0, 1⟩ := by
    unfold CreationParams.Fits
    decide
  simp [shortLife, Event.OfLife, child, maxPriority]

end SoKernel
