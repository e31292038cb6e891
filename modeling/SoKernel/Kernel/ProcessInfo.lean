import SoKernel.Kernel.MachineRuns
import SoKernel.Kernel.ProcessTable
import SoKernel.Kernel.Usage

namespace SoKernel
open MemoryManager QueueName Lib

variable {M : Type}

namespace Kernel

/-! ## `getProcessInfo` -/

/-- Idle is on no queue and counts as one. -/
def countProcesses (k : Kernel M) : Nat :=
  (k.items readyQueue).length + (k.items blockedQueue).length + (k.items zombieQueue).length +
    (k.items blockedQueueBySem).length + 1

/-- The 64-bit loop counter, passed as a `pid_t`. -/
def probedPid (i : Nat) : Int := (BitVec.ofNat 32 i).toInt

def copyProcess (src : PCB) : PCB where
  pid := src.pid
  parentPid := src.parentPid
  waitingForPid := src.waitingForPid
  priority := src.priority
  state := src.state
  rsp := src.rsp
  base := src.base
  entryPoint := src.entryPoint
  retValue := src.retValue
  foreground := src.foreground
  stdin := src.stdin
  stdout := src.stdout

/-- At most `fuel` rounds of the loop: the next pid to probe, and the entries of
`processInfo` that are written. -/
def probe (count : Nat) (k : Kernel M) : Nat → Nat × List PCB → Nat × List PCB
  | 0, found => found
  | fuel + 1, (i, processInfo) =>
    if processInfo.length < count then
      let process := k.getProcess (probedPid i)
      if process ≠ 0 then probe count k fuel (i + 1, processInfo ++ [copyProcess (k.pcb process)])
      else probe count k fuel (i + 1, processInfo)
    else (i, processInfo)

/-- `*cantProcesses` and what is returned; `none` if the loop still runs after `fuel` rounds. -/
def getProcessInfo [MemoryManager M] (fuel : Nat) (k : Kernel M) :
    Option ((Nat × Option (List PCB)) × Kernel M) :=
  let count := k.countProcesses
  let (processInfo, memory) := allocMemory (pcbSize * count) k.memory
  if processInfo = 0 then some ((0, none), { k with memory := memory })
  else
    let (_, entries) := probe count k fuel (0, [])
    if entries.length < count then none
    else some ((entries.length, some entries), { k with memory := memory })

variable {k : Kernel M} {a : Addr} {i j n : Nat}

theorem copyProcess_eq (src : PCB) : copyProcess src = src := rfl

theorem probedPid_eq (small : i < 2 ^ 31) : probedPid i = i := by
  unfold probedPid
  rw [BitVec.toInt_eq_toNat_of_lt]
  · rw [BitVec.toNat_ofNat, Nat.mod_eq_of_lt (by omega)]
  · rw [BitVec.toNat_ofNat, Nat.mod_eq_of_lt (by omega)]
    omega

/-! ## The processes in the order of their pids -/

/-- The PCB that `getProcess` finds under pid `i`. -/
def foundAt (k : Kernel M) (i : Nat) : Option Addr :=
  if k.getProcess i = 0 then none else some (k.getProcess i)

/-- The PCBs with pids below `n`, in the order of their pids. -/
def byPid (k : Kernel M) (n : Nat) : List Addr := (List.range n).filterMap k.foundAt

theorem byPid_succ : k.byPid (i + 1) =
    if k.getProcess i = 0 then k.byPid i else k.byPid i ++ [k.getProcess i] := by
  unfold byPid
  rw [List.range_succ, List.filterMap_append]
  by_cases none : k.getProcess i = 0 <;> simp [foundAt, none]

theorem byPid_initial (le : i ≤ j) : k.byPid i <+: k.byPid j := by
  induction j with
  | zero =>
    rw [Nat.le_zero.mp le]
  | succ j ih =>
    rcases Nat.eq_or_lt_of_le le with rfl | less
    · exact List.prefix_rfl
    · have earlier := ih (by omega)
      rw [byPid_succ]
      split
      · exact earlier
      · exact earlier.trans (List.prefix_append _ _)

theorem byPid_eq_of_enough (low : i ≤ j) (high : j ≤ n)
    (enough : (k.byPid n).length ≤ (k.byPid i).length) : k.byPid i = k.byPid j := by
  apply (byPid_initial low).eq_of_length_le
  exact Nat.le_trans (byPid_initial high).length_le enough

/-- The loop collects the processes in the order of their pids, and stops with the
last one. -/
theorem probe_eq (k : Kernel M) (fuel : Nat) (small : n ≤ 2 ^ 31) (below : i ≤ n) :
    (probe (k.byPid n).length k fuel (i, (k.byPid i).map k.pcb)).2 =
      (k.byPid (min n (i + fuel))).map k.pcb := by
  induction fuel generalizing i with
  | zero =>
    rw [Nat.add_zero, Nat.min_eq_right below]
    rfl
  | succ fuel ih =>
    unfold probe
    by_cases more : (k.byPid i).length < (k.byPid n).length
    · have less : i < n := by
        by_contra done
        rw [Nat.le_antisymm below (by omega)] at more
        exact Nat.lt_irrefl _ more
      have next := ih (i := i + 1) less
      rw [byPid_succ] at next
      rw [show i + (fuel + 1) = i + 1 + fuel by omega, ← next]
      simp only [List.length_map, if_pos more, probedPid_eq (by omega : i < 2 ^ 31), copyProcess_eq]
      by_cases none : k.getProcess i = 0 <;> simp [none]
    · simp only [List.length_map, if_neg more]
      rw [byPid_eq_of_enough (by omega) (Nat.min_le_left n (i + (fuel + 1))) (by omega)]

/-! ## All processes -/

theorem Table.foundAt_eq (table : Table k) (listed : k.Listed a) (named : (k.pcb a).pid = i) :
    k.foundAt i = some a := by
  have found := table.getProcess_eq listed named
  have nonzero := table.ne_zero (table.mem_of_listed listed)
  simp [foundAt, found, nonzero]

theorem Table.foundAt_some (table : Table k) (found : k.foundAt i = some a) :
    k.Listed a ∧ (k.pcb a).pid = i := by
  unfold foundAt at found
  split at found
  · cases found
  · rename_i nonzero
    cases found
    exact (getProcess_cases i table).resolve_left fun none => nonzero none.1

theorem Table.mem_byPid (table : Table k) (all : k.nextFreePid = n) :
    a ∈ k.byPid n ↔ k.Listed a := by
  unfold byPid
  rw [List.mem_filterMap]
  constructor
  · rintro ⟨i, _, found⟩
    exact (table.foundAt_some found).1
  · intro listed
    have bound := table.pidBound (table.mem_of_listed listed)
    refine ⟨(k.pcb a).pid.toNat, List.mem_range.mpr (by omega), ?_⟩
    exact table.foundAt_eq listed (by omega)

theorem Table.byPid_increasing (table : Table k) :
    (k.byPid n).Pairwise fun a b => (k.pcb a).pid < (k.pcb b).pid := by
  unfold byPid
  apply List.Pairwise.filterMap _ _ List.pairwise_lt_range
  intro i j less a first b second
  rw [(table.foundAt_some first).2, (table.foundAt_some second).2]
  omega

theorem Table.byPid_nodup (table : Table k) : (k.byPid n).Nodup :=
  (table.byPid_increasing).imp fun less same => by
    rw [same] at less
    exact Int.lt_irrefl _ less

/-- The PCBs of the four queues, and idle. -/
def everyProcess (k : Kernel M) : List Addr :=
  k.processes.idleProcess :: (k.items readyQueue ++ k.items blockedQueue ++ k.items zombieQueue ++
    k.items blockedQueueBySem)

theorem length_everyProcess : k.everyProcess.length = k.countProcesses := by
  simp only [everyProcess, countProcesses, List.length_cons, List.length_append]

theorem mem_everyProcess : a ∈ k.everyProcess ↔
    a = k.processes.idleProcess ∨ ∃ name, a ∈ k.items name := by
  simp only [everyProcess, List.mem_cons, List.mem_append]
  constructor
  · rintro (same | ((ready | blocked) | zombie) | bySem)
    · exact .inl same
    · exact .inr ⟨_, ready⟩
    · exact .inr ⟨_, blocked⟩
    · exact .inr ⟨_, zombie⟩
    · exact .inr ⟨_, bySem⟩
  · rintro (same | ⟨name, member⟩)
    · exact .inl same
    · cases name <;> simp [member]

theorem Table.everyProcess_nodup (table : Table k) : k.everyProcess.Nodup := by
  have apart : ∀ {name other}, name ≠ other → List.Disjoint (k.items name) (k.items other) := by
    intro name other different a first second
    exact different (table.exclusive.unique first second)
  have nodup := table.exclusive.nodup
  refine List.nodup_cons.mpr ⟨?_, ?_⟩
  · simp only [List.mem_append, table.idleAlone, or_self, not_false_eq_true]
  · refine List.nodup_append'.mpr ⟨List.nodup_append'.mpr ⟨List.nodup_append'.mpr
      ⟨nodup _, nodup _, apart (by decide)⟩, nodup _, ?_⟩, nodup _, ?_⟩
    · exact List.disjoint_append_left.mpr ⟨apart (by decide), apart (by decide)⟩
    · exact List.disjoint_append_left.mpr ⟨List.disjoint_append_left.mpr
        ⟨apart (by decide), apart (by decide)⟩, apart (by decide)⟩

theorem Settled.mem_byPid (settled : Settled k) (all : k.nextFreePid = n) :
    a ∈ k.byPid n ↔ a = k.processes.idleProcess ∨ ∃ name, a ∈ k.items name := by
  rw [settled.table.mem_byPid all]
  constructor
  · rintro (same | same | queued)
    · rw [same]
      rcases settled.scheduled with idle | ready
      · exact .inl idle
      · exact .inr ⟨_, ready⟩
    · exact .inl same
    · exact .inr queued
  · rintro (same | queued)
    · exact .inr (.inl same)
    · exact .inr (.inr queued)

theorem Settled.length_byPid (settled : Settled k) (all : k.nextFreePid = n) :
    (k.byPid n).length = k.countProcesses := by
  rw [← length_everyProcess]
  apply List.Perm.length_eq
  apply (List.perm_ext_iff_of_nodup settled.table.byPid_nodup settled.table.everyProcess_nodup).mpr
  intro a
  rw [settled.mem_byPid all, mem_everyProcess]

/-- The entries are copies of the PCBs of the four queues and of idle, each once, in
the order of their pids. -/
def ListsAll (k : Kernel M) (entries : List PCB) : Prop :=
  ∃ order : List Addr, order.Nodup ∧
    (∀ a, a ∈ order ↔ a = k.processes.idleProcess ∨ ∃ name, a ∈ k.items name) ∧
    entries = order.map k.pcb ∧ entries.Pairwise fun first second => first.pid < second.pid

theorem Settled.lists_all (settled : Settled k) (all : k.nextFreePid = n) :
    k.ListsAll ((k.byPid n).map k.pcb) := by
  refine ⟨k.byPid n, settled.table.byPid_nodup, fun a => settled.mem_byPid all, rfl, ?_⟩
  rw [List.pairwise_map]
  exact settled.table.byPid_increasing

/-- From `rounds` rounds of the loop on, `info` counts the processes and lists them all. -/
def Lists (rounds : Nat) (k : Kernel M) (info : Nat → Option (Nat × Option (List PCB))) : Prop :=
  ∃ entries, k.ListsAll entries ∧
    ∀ fuel : Nat, rounds ≤ fuel → info fuel = some (k.countProcesses, some entries)

/-- No two processes that `ps` lists have one pid. -/
theorem ListsAll.pidUnique {entries : List PCB} {b : Addr} (listed : k.ListsAll entries)
    (first : ∃ name, a ∈ k.items name) (second : ∃ name, b ∈ k.items name)
    (same : (k.pcb a).pid = (k.pcb b).pid) : a = b := by
  obtain ⟨order, _, all, rfl, increasing⟩ := listed
  rw [List.pairwise_map] at increasing
  have apart : (order.map fun a => (k.pcb a).pid).Nodup :=
    List.pairwise_map.mpr (increasing.imp fun less => Int.ne_of_lt less)
  exact List.inj_on_of_nodup_map apart ((all a).mpr (.inr first)) ((all b).mpr (.inr second)) same

variable [MemoryManager M]

/-- `getProcessInfo` ends after at most as many rounds as there were creations, having written
one entry for each process and none beyond; only memory changes. -/
def ListsProcesses (k : Kernel M) : Prop :=
  (∀ fuel, (probe k.countProcesses k fuel (0, [])).2.length ≤ k.countProcesses) ∧
    k.Lists k.nextFreePid.toNat (fun fuel => (getProcessInfo fuel k).map Prod.fst) ∧
    ∀ fuel info k', getProcessInfo fuel k = some (info, k') →
      k' = { k with memory := (allocMemory (pcbSize * k.countProcesses) k.memory).2 }

theorem Settled.listsProcesses (settled : Settled k) (few : k.nextFreePid ≤ 2 ^ 31)
    (allocated : (allocMemory (pcbSize * k.countProcesses) k.memory).1 ≠ 0) :
    ListsProcesses k := by
  have bound := settled.table.pidBound settled.table.idle.1
  obtain ⟨n, all⟩ := Int.eq_ofNat_of_zero_le (by omega : 0 ≤ k.nextFreePid)
  have size := settled.length_byPid all
  have collected : ∀ fuel, (probe k.countProcesses k fuel (0, [])).2 =
      (k.byPid (min n fuel)).map k.pcb := by
    intro fuel
    have found := probe_eq k fuel (by omega : n ≤ 2 ^ 31) (Nat.zero_le n)
    rwa [size, Nat.zero_add] at found
  have information : ∀ fuel, n ≤ fuel → getProcessInfo fuel k =
      some ((k.countProcesses, some ((k.byPid n).map k.pcb)),
        { k with memory := (allocMemory (pcbSize * k.countProcesses) k.memory).2 }) := by
    intro fuel enough
    have entries := collected fuel
    rw [Nat.min_eq_left enough] at entries
    simp only [getProcessInfo, if_neg allocated, entries, List.length_map, size, Nat.lt_irrefl,
      if_false]
  refine ⟨?_, ⟨_, settled.lists_all all, ?_⟩, ?_⟩
  · intro fuel
    rw [collected, List.length_map, ← size]
    exact (byPid_initial (Nat.min_le_left n fuel)).length_le
  · intro fuel enough
    change (getProcessInfo fuel k).map Prod.fst = _
    rw [information fuel (by omega)]
    rfl
  · intro fuel info k' found
    simp only [getProcessInfo, if_neg allocated] at found
    split at found
    · cases found
    · cases found
      rfl

end Kernel

/-! ## `getProcessInfo` in one memory -/

namespace Machine

def queueSize (queue : Addr) : Action Int := do
  if queue = 0 then return 0
  loadInt (sizeAt queue)

/-- The sum of the `int`s becomes a `uint64_t`. -/
def countProcesses : Action Nat := do
  if (← get).processes = 0 then return 0
  let ready ← queueSize (← queue readyQueue)
  let blocked ← queueSize (← queue blockedQueue)
  let zombie ← queueSize (← queue zombieQueue)
  let bySem ← queueSize (← queue blockedQueueBySem)
  return (BitVec.ofInt 64 (ready + blocked + zombie + bySem + 1)).toNat

def copyField (dest src : Addr) (bytes : Nat) (field : Addr → Addr) : Action Unit := do
  store bytes (field dest) (← load bytes (field src))

def copyProcess (dest src : Addr) : Action Unit := do
  copyField dest src 4 pidAt
  copyField dest src 4 parentPidAt
  copyField dest src 4 waitingForPidAt
  copyField dest src 1 priorityAt
  copyField dest src 4 stateAt
  copyField dest src 8 rspAt
  copyField dest src 8 baseAt
  copyField dest src 8 entryPointAt
  copyField dest src 8 retValueAt
  copyField dest src 1 foregroundAt
  copyField dest src 4 stdinAt
  copyField dest src 4 stdoutAt

def probe (count : Nat) (processInfo : Addr) : Nat → Nat → Nat → Action Nat
  | 0, _, _ => forever
  | fuel + 1, i, j => do
    if count ≤ j then return j
    let process ← getProcess (Kernel.probedPid i)
    if process ≠ 0 then
      copyProcess (processInfo + pcbSize * j) process
      probe count processInfo fuel (i + 1) (j + 1)
    else probe count processInfo fuel (i + 1) j

/-- `*cantProcesses` and the array. -/
def getProcessInfo (fuel : Nat) : Action (Nat × Addr) := do
  if (← get).processes = 0 then return (0, 0)
  let count ← countProcesses
  let processInfo ← allocMemory (pcbSize * count % 2 ^ 64)
  if processInfo = 0 then return (0, 0)
  let j ← probe count processInfo fuel 0 0
  return (j, processInfo)

/-- What the caller of `getProcessInfo` finds in the array. -/
def information (m : Machine) (fuel : Nat) : Option (Nat × Option (List PCB)) :=
  (getProcessInfo fuel m).map fun ((cantProcesses, processInfo), after) =>
    (cantProcesses, if processInfo = 0 then none else
      some ((List.range cantProcesses).map fun j => after.pcbAt (processInfo + pcbSize * j)))

end Machine

open Kernel SoKernel.System

variable [MemoryManager M]

end SoKernel
