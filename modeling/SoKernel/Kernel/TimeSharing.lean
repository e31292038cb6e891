import SoKernel.Kernel.Stacks
import SoKernel.Kernel.Interrupts

namespace SoKernel.TimeSharing
open MemoryManager QueueName Lib Bytes Kernel Interrupts ProcessStack SoKernel.System

variable {M : Type}

/-! ## The stacks -/

/-- The addresses of a stack, from the lowest up to the base. -/
structure Stack where
  lowest : Nat
  base : Nat
deriving DecidableEq, Repr

namespace Stack

def Has (stack : Stack) (x : Nat) : Prop := stack.lowest ≤ x ∧ x < stack.base

def Apart (stack other : Stack) : Prop := ∀ x, stack.Has x → ¬ other.Has x

/-- A context fits below the stack pointer. -/
def Room (stack : Stack) (cpu : Cpu) : Prop :=
  stack.lowest + 160 ≤ cpu.rsp.toNat / 16 * 16 ∧ cpu.rsp.toNat ≤ stack.base

end Stack

/-- The processor, the memory and the kernel. Once a process has exited idle goes `astray`: it
is resumed on the stack of that process, which was freed. -/
structure Machine (M : Type) where
  system : System M
  cpu : Cpu
  memory : Bytes
  astray : Bool

/-- Whose code is on the processor: before the first switch that of `main`. -/
def onCpu (k : Kernel M) : Option Addr := if k.first then none else some k.processes.currentProcess

/-- The stack of a process, or that of `main`. -/
def stackOf (main : Stack) (k : Kernel M) : Option Addr → Stack
  | none => main
  | some p => ⟨(k.pcb p).base - stackSize, (k.pcb p).base⟩

/-- The owner has a stack, and runs on it. -/
def InUse (astray : Bool) (k : Kernel M) : Option Addr → Prop
  | none => True
  | some p => Live k p ∧ (p = k.processes.idleProcess → astray = false)

/-! ## The machine -/

inductive Action where
  /-- The code on the processor computes, in its program or in a system call that it made, and
  leaves these registers and this memory. -/
  | runs (cpu : Cpu) (memory : Bytes)
  /-- The kernel serves an event, and leaves this memory. -/
  | event (event : Event) (memory : Bytes)

/-- The stacks of all but `owner` are left alone. -/
def Spares (main : Stack) (astray : Bool) (k : Kernel M) (owner : Option Addr) (m m' : Bytes) :
    Prop :=
  ∀ other, other ≠ owner → InUse astray k other → ∀ x, (stackOf main k other).Has x → m' x = m x

/-- A handler saves the registers and restores them: at every interrupt, and at the `int 20h`
of a system call that gives up the processor. -/
def interrupted [MemoryManager M] (label : Label) (k : Kernel M) : Bool :=
  match label.event with
  | .timerTick | .ctrlC => true
  | _ => gives label k

/-- The stack pointer that the handler restores the registers from. From the keyboard the
processor is taken away only from a process that dies, so what `kill` saves of it is lost. -/
def loaded [MemoryManager M] (label : Label) (k k' : Kernel M) : Nat :=
  match label.event with
  | .ctrlC => if gives label k then k'.stackPointer else label.rsp
  | _ => k'.stackPointer

/-- A new stack: in memory of nobody else, with what `setupProcessStack` puts on it. -/
structure Builds [MemoryManager M] (main : Stack) (wrapper : Nat) (astray : Bool)
    (params : CreationParams) (k : Kernel M) (m m' : Bytes) : Prop where
  small : k.stackRequest + stackSize < 2 ^ 64
  fits : ProcessStack.Fits (params.arg.map utf8) k.stackRequest
  apart : ∀ owner, InUse astray k owner →
    Stack.Apart ⟨k.stackRequest, k.stackRequest + stackSize⟩ (stackOf main k owner)
  content : ∃ done, ProcessStack.setupProcessStack wrapper k.stackRequest params.function
    (params.arg.map utf8) m = some done ∧
      ∀ x, Stack.Has ⟨k.stackRequest, k.stackRequest + stackSize⟩ x → m' x = done.memory x

variable [MemoryManager M]

/-- The stack pointer and the memory that the kernel is entered with. -/
def entered (label : Label) (s : Machine M) : Nat × Bytes :=
  if interrupted label s.system.kernel then saveContext s.cpu s.memory
  else (s.cpu.rsp.toNat, s.memory)

/-- The kernel works below the stack pointer that it was entered with, and on no stack that is
not a new one. -/
structure Serves (main : Stack) (wrapper : Nat) (label : Label) (s : Machine M) (m' : Bytes) :
    Prop where
  others : Spares main s.astray s.system.kernel (onCpu s.system.kernel) s.memory m'
  own : ∀ x, (stackOf main s.system.kernel (onCpu s.system.kernel)).Has x →
    (entered label s).1 ≤ x → m' x = (entered label s).2 x
  builds : ∀ params, creates label s.system.kernel = some params →
    Builds main wrapper s.astray params s.system.kernel s.memory m'

def served (label : Label) (system : System M) (m' : Bytes) (s : Machine M) : Machine M where
  system := system
  cpu := if interrupted label s.system.kernel then
    restoreContext (loaded label s.system.kernel system.kernel) m' else s.cpu
  memory := m'
  astray := s.astray || exits label s.system.kernel

/-- Whoever is on the processor computes on a stack of its own: the machine stops where idle is
resumed on the stack of a process that has exited. -/
inductive Step (main : Stack) (wrapper : Nat) : Machine M → Action → Machine M → Prop
  | runs {s : Machine M} {cpu : Cpu} {memory : Bytes} :
      InUse s.astray s.system.kernel (onCpu s.system.kernel) →
      Spares main s.astray s.system.kernel (onCpu s.system.kernel) s.memory memory →
      (stackOf main s.system.kernel (onCpu s.system.kernel)).Room cpu →
      Step main wrapper s (.runs cpu memory) { s with cpu := cpu, memory := memory }
  | event {s : Machine M} {event : Event} {memory : Bytes} {system : System M} :
      InUse s.astray s.system.kernel (onCpu s.system.kernel) →
      System.Step s.system ⟨event, (saveContext s.cpu s.memory).1⟩ system →
      Serves main wrapper ⟨event, (saveContext s.cpu s.memory).1⟩ s memory →
      Step main wrapper s (.event event memory)
        (served ⟨event, (saveContext s.cpu s.memory).1⟩ system memory s)

/-! ## Each process on a processor of its own -/

/-- The registers and the memory of a process, as it left them. -/
structure Own where
  cpu : Cpu
  memory : Bytes

structure Virtual (M : Type) where
  system : System M
  own : Option Addr → Own

/-- A new process begins at its function with its arguments. -/
def Virtual.begun (wrapper : Nat) (label : Label) (memory : Bytes) (v : Virtual M) :
    Option Addr → Own :=
  match creates label v.system.kernel with
  | none => v.own
  | some params => Function.update v.own (some v.system.kernel.pcbRequest)
    ⟨entryCpu wrapper params.function v.system.kernel.stackRequest (params.arg.map utf8), memory⟩

/-- Who computes changes its own registers and memory, and an event nobody's. -/
inductive Virtual.Step (wrapper : Nat) : Virtual M → Action → Virtual M → Prop
  | runs {v cpu memory} : Virtual.Step wrapper v (.runs cpu memory)
      { v with own := Function.update v.own (onCpu v.system.kernel) ⟨cpu, memory⟩ }
  | event {v event rsp memory system} : System.Step v.system ⟨event, rsp⟩ system →
      Virtual.Step wrapper v (.event event memory) ⟨system, v.begun wrapper ⟨event, rsp⟩ memory⟩

/-! ## What waits on a stack -/

omit [MemoryManager M]

variable {main : Stack} {wrapper : Nat} {k k' k₁ : Kernel M} {m m' : Bytes} {own own' : Own}
variable {p next : Addr} {owner : Option Addr} {astray : Bool} {label : Label}

/-- The process is off the processor, and its registers are on its stack. -/
structure Waits (k : Kernel M) (m : Bytes) (own : Own) (p : Addr) : Prop where
  pointer : (k.pcb p).rsp = contextAddress own.cpu
  room : Stack.Room ⟨(k.pcb p).base - stackSize, (k.pcb p).base⟩ own.cpu
  context : m.Holds (contextAddress own.cpu) ((contextWords own.cpu).reverse.flatMap word)
  above : ∀ x, own.cpu.rsp.toNat ≤ x → x < (k.pcb p).base → m x = own.memory x

/-- The process is on the processor, and computes on its stack. -/
structure Runs (main : Stack) (k : Kernel M) (m : Bytes) (own : Own) (owner : Option Addr) :
    Prop where
  room : (stackOf main k owner).Room own.cpu
  above : ∀ x, own.cpu.rsp.toNat ≤ x → x < (stackOf main k owner).base → m x = own.memory x

/-- The context lies on the stack of its process. -/
theorem Stack.Room.has {stack : Stack} {cpu : Cpu} (room : stack.Room cpu) {x : Nat}
    (low : contextAddress cpu ≤ x) (high : x < stack.base) : stack.Has x := by
  unfold contextAddress at low
  exact ⟨by have := room.1; omega, high⟩

theorem Stack.Room.high {stack : Stack} {cpu : Cpu} (room : stack.Room cpu) :
    contextAddress cpu + 160 ≤ stack.base := by
  have bottom := room.1
  have top := room.2
  unfold contextAddress
  omega

/-- Memory that is the same on the stack of a process is the same to it. -/
theorem Waits.congr (waits : Waits k m own p) (rsp : (k'.pcb p).rsp = (k.pcb p).rsp)
    (base : (k'.pcb p).base = (k.pcb p).base)
    (same : ∀ x, (stackOf main k (some p)).Has x → m' x = m x) : Waits k' m' own p := by
  have room := waits.room
  have inside : contextAddress own.cpu + 160 ≤ (k.pcb p).base := room.high
  have small := own.cpu.rsp.toNat_lt
  refine ⟨rsp.trans waits.pointer, ?_, ?_, ?_⟩
  · rw [base]
    exact room
  · have near : contextAddress own.cpu + 160 ≤ 2 ^ 64 := by
      unfold contextAddress
      have bottom := room.1
      omega
    refine waits.context.congr ?_ fun x low high => ?_
    · rw [contextWords_length]
      exact near
    · rw [contextWords_length] at high
      exact same x (room.has low (by dsimp only; omega))
  · intro x low high
    rw [base] at high
    rw [same x (room.has (by unfold contextAddress; omega) high)]
    exact waits.above x low high

/-- Memory that is the same from the stack pointer up is the same to who runs. -/
theorem Runs.congr (runs : Runs main k m own owner)
    (base : stackOf main k' owner = stackOf main k owner)
    (same : ∀ x, (stackOf main k owner).Has x → own.cpu.rsp.toNat ≤ x → m' x = m x) :
    Runs main k' m' own owner := by
  have low' : ∀ x, own.cpu.rsp.toNat ≤ x → contextAddress own.cpu ≤ x := by
    intro x low
    unfold contextAddress
    omega
  constructor
  · rw [base]
    exact runs.room
  · intro x low high
    rw [base] at high
    rw [same x (runs.room.has (low' x low) high) low]
    exact runs.above x low high

/-- A handler stores the context, and leaves what is above the stack pointer. -/
theorem Runs.handled (runs : Runs main k m own owner)
    (saved : ∀ x, (stackOf main k owner).Has x → contextAddress own.cpu ≤ x →
      m' x = (saveContext own.cpu m).2 x) :
    m'.Holds (contextAddress own.cpu) ((contextWords own.cpu).reverse.flatMap word) ∧
      Runs main k m' own owner := by
  have bottom := runs.room.1
  have top := runs.room.2
  have small := own.cpu.rsp.toNat_lt
  have place : contextAddress own.cpu = own.cpu.rsp.toNat / 16 * 16 - 160 := rfl
  obtain ⟨elsewhere, holds⟩ := saveContext_frame own.cpu m (by omega)
  constructor
  · refine holds.congr ?_ fun x low high => ?_
    · rw [contextWords_length]
      omega
    · rw [contextWords_length] at high
      have inside : x < (stackOf main k owner).base := by omega
      exact saved x (runs.room.has low inside) low
  · refine runs.congr rfl fun x here low => ?_
    have far : own.cpu.rsp.toNat / 16 * 16 ≤ x := by omega
    rw [saved x here (by omega), elsewhere x (.inr far)]

/-- Who ran waits where the handler left its context. -/
theorem Runs.waits (runs : Runs main k m own (some p))
    (holds : m.Holds (contextAddress own.cpu) ((contextWords own.cpu).reverse.flatMap word))
    (pointer : (k'.pcb p).rsp = contextAddress own.cpu)
    (base : (k'.pcb p).base = (k.pcb p).base) : Waits k' m own p := by
  refine ⟨pointer, ?_, holds, fun x low high => ?_⟩
  · rw [base]
    exact runs.room
  · rw [base] at high
    exact runs.above x low high

/-! ## The simulation -/

/-- The machine does what the processes do on processors of their own. -/
structure Shows (main : Stack) (s : Machine M) (v : Virtual M) : Prop where
  system : v.system = s.system
  settled : Settled s.system.kernel
  recorded : Recorded s.system.kernel
  apart : ∀ owner other, owner ≠ other → InUse s.astray s.system.kernel owner →
    InUse s.astray s.system.kernel other →
      (stackOf main s.system.kernel owner).Apart (stackOf main s.system.kernel other)
  running : InUse s.astray s.system.kernel (onCpu s.system.kernel) →
    s.cpu = (v.own (onCpu s.system.kernel)).cpu ∧
      Runs main s.system.kernel s.memory (v.own (onCpu s.system.kernel)) (onCpu s.system.kernel)
  waiting : ∀ p, onCpu s.system.kernel ≠ some p → InUse s.astray s.system.kernel (some p) →
    Waits s.system.kernel s.memory (v.own (some p)) p

/-- Who waits does not notice what respects its stack. -/
theorem Waits.spared (waits : Waits k m own p) (spares : Spares main astray k owner m m')
    (other : owner ≠ some p) (used : InUse astray k (some p))
    (rsp : (k'.pcb p).rsp = (k.pcb p).rsp) (base : (k'.pcb p).base = (k.pcb p).base) :
    Waits k' m' own p :=
  waits.congr rsp base (spares (some p) other.symm used)

theorem InUse.before {exited : Bool} (kept : StacksKept k k')
    (used : InUse (astray || exited) k' owner) : InUse astray k owner := by
  cases owner with
  | none => trivial
  | some p =>
    obtain ⟨alive, steady⟩ := used
    rw [kept.idle] at steady
    exact ⟨kept.live alive, fun idle => (Bool.or_eq_false_iff.mp (steady idle)).1⟩

theorem stackOf_kept (kept : StacksKept k k') (used : InUse astray k' owner) :
    stackOf main k' owner = stackOf main k owner := by
  cases owner with
  | none => rfl
  | some p =>
    unfold stackOf
    dsimp only
    rw [kept.base used.1]

variable {s : Machine M} {v : Virtual M} {cpu : Cpu} {memory : Bytes}

theorem Shows.runs (shows : Shows main s v)
    (spares : Spares main s.astray s.system.kernel (onCpu s.system.kernel) s.memory memory)
    (room : (stackOf main s.system.kernel (onCpu s.system.kernel)).Room cpu) :
    Shows main { s with cpu := cpu, memory := memory }
      { v with own := Function.update v.own (onCpu s.system.kernel) ⟨cpu, memory⟩ } := by
  refine ⟨shows.system, shows.settled, shows.recorded, shows.apart, fun _ => ?_, ?_⟩
  · dsimp only
    rw [Function.update_self]
    exact ⟨rfl, room, fun _ _ _ => rfl⟩
  · intro p other used
    dsimp only
    rw [Function.update_of_ne (Ne.symm other)]
    exact (shows.waiting p other used).spared spares other used rfl rfl

/-! ## Events -/

variable {system : System M}

/-- What the kernel leaves to the process that it was entered from. -/
theorem Shows.left [MemoryManager M] (shows : Shows main s v)
    (same : label.rsp = (saveContext s.cpu s.memory).1)
    (serves : Serves main wrapper label s memory)
    (used : InUse s.astray s.system.kernel (onCpu s.system.kernel)) :
    Runs main s.system.kernel memory (v.own (onCpu s.system.kernel)) (onCpu s.system.kernel) ∧
      (interrupted label s.system.kernel = true →
        label.rsp = contextAddress (v.own (onCpu s.system.kernel)).cpu ∧
        memory.Holds label.rsp
          ((contextWords (v.own (onCpu s.system.kernel)).cpu).reverse.flatMap word)) := by
  obtain ⟨cpu, runs⟩ := shows.running used
  have own := serves.own
  have room := runs.room.1
  unfold entered at own
  rw [cpu] at same own
  by_cases handler : interrupted label s.system.kernel = true
  · rw [if_pos handler] at own
    have big : 160 ≤ (v.own (onCpu s.system.kernel)).cpu.rsp.toNat / 16 * 16 := by omega
    have place := saveContext_rsp (m := s.memory) big
    rw [place] at own same
    obtain ⟨holds, kept⟩ := runs.handled own
    refine ⟨kept, fun _ => ⟨same, ?_⟩⟩
    rw [same]
    exact holds
  · rw [if_neg handler] at own
    exact ⟨runs.congr rfl own, fun yes => absurd yes handler⟩

theorem Shows.apart' (shows : Shows main s v) {astray' : Bool} {k' : Kernel M}
    (before : ∀ {owner}, InUse astray' k' owner → InUse s.astray s.system.kernel owner ∧
      stackOf main k' owner = stackOf main s.system.kernel owner)
    (owner other : Option Addr) (apart : owner ≠ other) (used : InUse astray' k' owner)
    (taken : InUse astray' k' other) : (stackOf main k' owner).Apart (stackOf main k' other) := by
  obtain ⟨there, same⟩ := before used
  obtain ⟨here, likewise⟩ := before taken
  rw [same, likewise]
  exact shows.apart owner other apart there here

/-- The process goes on where it was. -/
theorem Shows.goesOn [MemoryManager M] (shows : Shows main s v)
    (pointer : label.rsp = (saveContext s.cpu s.memory).1)
    (serves : Serves main wrapper label s memory)
    (used : InUse s.astray s.system.kernel (onCpu s.system.kernel))
    (given : gives label s.system.kernel = false)
    (tick : label.event = .timerTick → system.kernel.stackPointer = label.rsp) :
    (served label system memory s).cpu = (v.own (onCpu s.system.kernel)).cpu := by
  obtain ⟨_, saved⟩ := shows.left pointer serves used
  unfold served
  dsimp only
  by_cases handler : interrupted label s.system.kernel = true
  · rw [if_pos handler]
    have back : loaded label s.system.kernel system.kernel = label.rsp := by
      unfold interrupted at handler
      unfold loaded
      split at handler
      · rename_i event
        rw [event]
        exact tick event
      · rename_i event
        rw [event]
        dsimp only
        rw [given, if_neg Bool.false_ne_true]
      · rw [given] at handler
        cases handler
    rw [back]
    exact restoreContext_of_holds (saved handler).2
  · rw [if_neg handler]
    exact (shows.running used).1

theorem Shows.stays [MemoryManager M] (shows : Shows main s v)
    (pointer : label.rsp = (saveContext s.cpu s.memory).1)
    (serves : Serves main wrapper label s memory)
    (settled : Settled system.kernel) (recorded : Recorded system.kernel)
    (given : gives label s.system.kernel = false)
    (kept : StacksKept s.system.kernel system.kernel)
    (current : system.kernel.processes.currentProcess = s.system.kernel.processes.currentProcess)
    (tick : label.event = .timerTick → system.kernel.stackPointer = label.rsp) :
    Shows main (served label system memory s) ⟨system, v.own⟩ := by
  have same : onCpu system.kernel = onCpu s.system.kernel := by
    unfold onCpu
    rw [kept.first, current]
  have before : ∀ {owner}, InUse (served label system memory s).astray system.kernel owner →
      InUse s.astray s.system.kernel owner ∧
        stackOf main system.kernel owner = stackOf main s.system.kernel owner :=
    fun used => ⟨used.before kept, stackOf_kept kept used⟩
  refine ⟨rfl, settled, recorded, shows.apart' before, fun used => ?_, fun p away used => ?_⟩
  · obtain ⟨there, stack⟩ := before used
    change InUse _ _ (onCpu system.kernel) at there
    change stackOf main system.kernel (onCpu system.kernel) =
      stackOf main s.system.kernel (onCpu system.kernel) at stack
    change _ = (v.own (onCpu system.kernel)).cpu ∧
      Runs main system.kernel memory (v.own (onCpu system.kernel)) (onCpu system.kernel)
    rw [same] at there stack ⊢
    refine ⟨shows.goesOn pointer serves there given tick, ?_⟩
    exact (shows.left pointer serves there).1.congr stack fun _ _ _ => rfl
  · obtain ⟨there, stack⟩ := before used
    change onCpu system.kernel ≠ some p at away
    rw [same] at away
    exact (shows.waiting p away there).spared serves.others away there (kept.rsp used.1)
      (kept.base used.1)

/-- A new process waits at its function. -/
theorem Builds.waits [MemoryManager M] {params : CreationParams}
    (builds : Builds main wrapper astray params k m m') (granted : k.stackRequest ≠ 0)
    (rsp : (k'.pcb p).rsp = builtRsp params k)
    (base : (k'.pcb p).base = k.stackRequest + stackSize) :
    Waits k' m' ⟨entryCpu wrapper params.function k.stackRequest (params.arg.map utf8), m'⟩ p := by
  obtain ⟨small, fits, _, done, built, content⟩ := builds
  have holds := setupProcessStack_context small granted fits built
  have pointer := entryCpu_rsp wrapper params.function (params.arg.map utf8) small
  have room : Stack.Room ⟨k.stackRequest, k.stackRequest + stackSize⟩
    (entryCpu wrapper params.function k.stackRequest (params.arg.map utf8)) :=
    entryCpu_room small fits
  have bottom : (k'.pcb p).base - stackSize = k.stackRequest := by
    rw [base]
    exact Nat.add_sub_cancel _ _
  refine ⟨?_, ?_, ?_, fun _ _ _ => rfl⟩
  · rw [rsp, builtRsp_eq, if_neg granted, copiedArgs_eq]
    unfold contextAddress processStackFrame
    rw [pointer]
  · rw [bottom, base]
    exact room
  · have place := room.high
    refine holds.congr ?_ fun x low high => content x (room.has low ?_)
    · rw [contextWords_length]
      exact Nat.le_of_lt (Nat.lt_of_le_of_lt place small)
    · rw [contextWords_length] at high
      exact Nat.lt_of_lt_of_le high place

theorem Shows.creates [MemoryManager M] (shows : Shows main s v)
    (pointer : label.rsp = (saveContext s.cpu s.memory).1)
    (serves : Serves main wrapper label s memory)
    (settled : Settled system.kernel) (recorded : Recorded system.kernel)
    {params : CreationParams} (given : gives label s.system.kernel = false)
    (made : Kernel.creates label s.system.kernel = some params)
    (spares : Kernel.Spares s.system.kernel.pcbRequest s.system.kernel system.kernel)
    (alive : ∀ p, Live system.kernel p ↔
      Live s.system.kernel p ∨ p = s.system.kernel.pcbRequest)
    (granted : s.system.kernel.stackRequest ≠ 0)
    (rsp : (system.kernel.pcb s.system.kernel.pcbRequest).rsp = builtRsp params s.system.kernel)
    (base : (system.kernel.pcb s.system.kernel.pcbRequest).base =
      s.system.kernel.stackRequest + stackSize) :
    Shows main (served label system memory s) ⟨system,
      Function.update v.own (some s.system.kernel.pcbRequest)
        ⟨entryCpu wrapper params.function s.system.kernel.stackRequest
          (params.arg.map utf8), memory⟩⟩ := by
  have builds := serves.builds params made
  have same : onCpu system.kernel = onCpu s.system.kernel := by
    unfold onCpu
    rw [spares.first, spares.current]
  have calls : label.event ≠ .timerTick := by
    intro tick
    unfold Kernel.creates at made
    rw [tick] at made
    cases made
  -- The old ones and the new one.
  have old : ∀ {owner}, owner ≠ some s.system.kernel.pcbRequest →
      InUse (served label system memory s).astray system.kernel owner →
      InUse s.astray s.system.kernel owner ∧
        stackOf main system.kernel owner = stackOf main s.system.kernel owner := by
    intro owner other used
    cases owner with
    | none => exact ⟨trivial, rfl⟩
    | some p =>
      have away : p ≠ s.system.kernel.pcbRequest := fun same => other (congrArg _ same)
      obtain ⟨living, steady⟩ := used
      rw [spares.idle] at steady
      refine ⟨⟨((alive p).mp living).resolve_right away, fun idle => ?_⟩, ?_⟩
      · exact (Bool.or_eq_false_iff.mp (steady idle)).1
      · unfold stackOf
        dsimp only
        rw [spares.others away]
  have new : stackOf main system.kernel (some s.system.kernel.pcbRequest) =
      ⟨s.system.kernel.stackRequest, s.system.kernel.stackRequest + stackSize⟩ := by
    unfold stackOf
    dsimp only
    rw [base, Nat.add_sub_cancel]
  have running : onCpu s.system.kernel ≠ some s.system.kernel.pcbRequest := by
    unfold onCpu
    split
    · nofun
    · intro here
      exact spares.fresh (Option.some.inj here ▸ shows.settled.table.current)
  refine ⟨rfl, settled, recorded, fun owner other apart used taken => ?_, fun used => ?_,
    fun p away used => ?_⟩
  · change (stackOf main system.kernel owner).Apart (stackOf main system.kernel other)
    by_cases first : owner = some s.system.kernel.pcbRequest
    · obtain ⟨there, stack⟩ := old (fun second => apart (first.trans second.symm)) taken
      rw [first, new, stack]
      exact builds.apart other there
    · obtain ⟨there, stack⟩ := old first used
      by_cases second : other = some s.system.kernel.pcbRequest
      · rw [second, new, stack]
        exact fun x mine his => builds.apart owner there x his mine
      · obtain ⟨here, likewise⟩ := old second taken
        rw [stack, likewise]
        exact shows.apart owner other apart there here
  · change InUse _ _ (onCpu system.kernel) at used
    change _ = (Function.update v.own _ _ (onCpu system.kernel)).cpu ∧
      Runs main system.kernel memory (Function.update v.own _ _ (onCpu system.kernel))
        (onCpu system.kernel)
    rw [same] at used ⊢
    obtain ⟨there, stack⟩ := old running used
    rw [Function.update_of_ne running]
    exact ⟨shows.goesOn pointer serves there given fun tick => absurd tick calls,
      (shows.left pointer serves there).1.congr stack fun _ _ _ => rfl⟩
  · change onCpu system.kernel ≠ some p at away
    rw [same] at away
    change Waits system.kernel memory (Function.update v.own _ _ (some p)) p
    by_cases new : p = s.system.kernel.pcbRequest
    · rw [new, Function.update_self]
      exact builds.waits granted rsp base
    · have other : some p ≠ some s.system.kernel.pcbRequest := fun same =>
        new (Option.some.inj same)
      obtain ⟨there, _⟩ := old other used
      rw [Function.update_of_ne other]
      exact (shows.waiting p away there).spared serves.others away there
        (by rw [spares.others new]) (by rw [spares.others new])

theorem interrupted_of_gives [MemoryManager M] (k' : Kernel M) (given : gives label k = true) :
    interrupted label k = true ∧ loaded label k k' = k'.stackPointer := by
  unfold interrupted loaded
  constructor
  · split
    · rfl
    · rfl
    · exact given
  · split
    · exact if_pos given
    · rfl

/-- Who waits is restored. -/
theorem Waits.resumes (main : Stack) (waits : Waits k m own p) :
    restoreContext (k.pcb p).rsp m = own.cpu ∧ Runs main k m own (some p) := by
  constructor
  · rw [waits.pointer]
    exact restoreContext_of_holds waits.context
  · exact ⟨waits.room, waits.above⟩

/-- The processor is given to `next`: who leaves it waits, like everybody else. -/
theorem Shows.switched [MemoryManager M] (shows : Shows main s v)
    (pointer : label.rsp = (saveContext s.cpu s.memory).1)
    (serves : Serves main wrapper label s memory)
    (settled : Settled system.kernel) (recorded : Recorded system.kernel)
    (given : gives label s.system.kernel = true) (kept : StacksKept s.system.kernel k₁)
    (table : Table k₁) (switched : Switched label.rsp k₁ system.kernel next)
    (leaving : ∀ p, InUse (s.astray || exits label s.system.kernel) system.kernel (some p) →
      (p = k₁.processes.currentProcess ∧ k₁.first = false ↔ onCpu s.system.kernel = some p)) :
    Shows main (served label system memory s) ⟨system, v.own⟩ := by
  obtain ⟨handler, resumed⟩ := interrupted_of_gives system.kernel given
  have arrived : onCpu system.kernel = some next := by
    unfold onCpu
    rw [switched.started, switched.current]
    rfl
  have base : ∀ {p}, Live system.kernel p →
      (system.kernel.pcb p).base = (s.system.kernel.pcb p).base := fun living =>
    switched.base.trans (kept.base (switched.live table living))
  have before : ∀ {owner},
      InUse (s.astray || exits label s.system.kernel) system.kernel owner →
      InUse s.astray s.system.kernel owner ∧
        stackOf main system.kernel owner = stackOf main s.system.kernel owner := by
    intro owner used
    cases owner with
    | none => exact ⟨trivial, rfl⟩
    | some p =>
      obtain ⟨living, steady⟩ := used
      rw [switched.idle] at steady
      constructor
      · exact InUse.before kept ⟨switched.live table living, steady⟩
      · unfold stackOf
        dsimp only
        rw [base living]
  have allWait : ∀ p, InUse (s.astray || exits label s.system.kernel) system.kernel (some p) →
      Waits system.kernel memory (v.own (some p)) p := by
    intro p used
    obtain ⟨there, _⟩ := before used
    by_cases left : onCpu s.system.kernel = some p
    · obtain ⟨runs, saved⟩ := shows.left pointer serves (left ▸ there)
      obtain ⟨place, holds⟩ := saved handler
      rw [left] at runs place holds
      rw [place] at holds
      refine runs.waits holds ?_ (base used.1)
      rw [switched.savedPointer, if_pos ((leaving p used).mpr left)]
      exact place
    · refine (shows.waiting p left there).spared serves.others left there ?_ (base used.1)
      rw [switched.savedPointer, if_neg (mt (leaving p used).mp left)]
      exact kept.rsp (switched.live table used.1)
  refine ⟨rfl, settled, recorded, shows.apart' before, fun used => ?_,
    fun p _ used => allWait p used⟩
  change InUse _ _ (onCpu system.kernel) at used
  change _ = (v.own (onCpu system.kernel)).cpu ∧
    Runs main system.kernel memory (v.own (onCpu system.kernel)) (onCpu system.kernel)
  rw [arrived] at used ⊢
  obtain ⟨restored, runs⟩ := (allWait next used).resumes main
  refine ⟨?_, runs⟩
  unfold served
  dsimp only
  rw [if_pos handler, resumed, switched.stackPointer]
  exact restored

variable {act : Action} {t : Machine M} {actions : List Action}

/-- Who leaves the processor by a switch is who was on it. -/
theorem leaving_iff (kept : StacksKept k k₁)
    (current : k₁.processes.currentProcess = k.processes.currentProcess) :
    p = k₁.processes.currentProcess ∧ k₁.first = false ↔ onCpu k = some p := by
  unfold onCpu
  rw [current, kept.first]
  cases k.first with
  | false => simp [eq_comm]
  | true => simp

/-- Who dies has no stack to wait on, and idle, recorded in its place, goes astray. -/
theorem dying_iff [MemoryManager M] (ends : exits label k = true)
    (dead : ¬ Live k₁ k.processes.currentProcess)
    (current : k₁.processes.currentProcess = k.processes.idleProcess)
    (idle : k'.processes.idleProcess = k.processes.idleProcess)
    (living : Live k' p → Live k₁ p) (used : InUse (astray || exits label k) k' (some p)) :
    p = k₁.processes.currentProcess ∧ k₁.first = false ↔ onCpu k = some p := by
  obtain ⟨alive, steady⟩ := used
  constructor
  · rintro ⟨same, _⟩
    rw [current, ← idle] at same
    have calm := steady same
    rw [ends, Bool.or_true] at calm
    cases calm
  · intro here
    unfold onCpu at here
    split at here
    · cases here
    · rw [Option.some.inj here] at dead
      exact absurd (living alive) dead

theorem Shows.step [MemoryManager M] (shows : Shows main s v) (step : Step main wrapper s act t)
    (reusable : NodesReusable M) :
    ∃ v', Virtual.Step wrapper v act v' ∧ Shows main t v' := by
  obtain ⟨system, own⟩ := v
  obtain rfl : system = s.system := shows.system
  cases step with
  | runs _ spares room => exact ⟨_, .runs, shows.runs spares room⟩
  | @event event memory system _ step serves =>
    refine ⟨_, .event step, ?_⟩
    have settled := step.settled reusable shows.settled
    have recorded := step.recorded reusable shows.settled shows.recorded
    generalize same : Label.mk event (saveContext s.cpu s.memory).1 = label at step serves ⊢
    have pointer : label.rsp = (saveContext s.cpu s.memory).1 := by rw [← same]
    unfold Virtual.begun
    dsimp only
    cases event_outcome step shows.settled shows.recorded reusable with
    | stays given remains plain kept current tick =>
      rw [plain]
      exact shows.stays pointer serves settled recorded given kept current tick
    | creates given remains made spares alive granted rsp base =>
      rw [made]
      exact shows.creates pointer serves settled recorded given made spares alive granted rsp base
    | switches given remains plain kept current table switched =>
      rw [plain]
      exact shows.switched pointer serves settled recorded given kept table switched fun _ _ =>
        leaving_iff kept current
    | exits given ends plain kept dead current table switched =>
      rw [plain]
      exact shows.switched pointer serves settled recorded given kept table switched
        fun _ used => dying_iff ends dead current (switched.idle.trans kept.idle)
          (switched.live table) used

/-- A tick during which the kernel only saves the context. -/
def ticked (s : Machine M) : Machine M :=
  served ⟨.timerTick, (saveContext s.cpu s.memory).1⟩
    { s.system with kernel := s.system.kernel.callTimerTick (saveContext s.cpu s.memory).1 }
    (saveContext s.cpu s.memory).2 s

/-- A tick can come at any time. -/
theorem Shows.ticks [MemoryManager M] (shows : Shows main s v) (wrapper : Nat)
    (used : InUse s.astray s.system.kernel (onCpu s.system.kernel)) :
    Step main wrapper s (.event .timerTick (saveContext s.cpu s.memory).2) (ticked s) := by
  refine .event used .timerTick ?_
  obtain ⟨cpu, runs⟩ := shows.running used
  have room := runs.room
  have bottom := room.1
  rw [← cpu] at room bottom
  refine ⟨fun other away taken x his => ?_, fun _ _ _ => ?_, fun params made => ?_⟩
  · refine (saveContext_frame s.cpu s.memory (by omega)).1 x ?_
    by_contra inside
    unfold contextAddress at inside
    refine shows.apart _ other away.symm used taken x ?_ his
    have top := room.2
    exact ⟨by omega, by omega⟩
  · rfl
  · cases made

/-! ## From the first interrupt -/

/-- `main` runs, and the first two processes wait at their functions. -/
structure Prepared (main : Stack) (wrapper : Nat) (k : Kernel M) (cpu : Cpu) (memory : Bytes) :
    Prop where
  room : main.Room cpu
  apart : ∀ owner other, owner ≠ other → InUse false k owner → InUse false k other →
    (stackOf main k owner).Apart (stackOf main k other)
  built : ∀ p, Live k p → Waits k memory
    ⟨entryCpu wrapper (k.pcb p).entryPoint ((k.pcb p).base - stackSize) [], memory⟩ p

/-- Interrupts are enabled. -/
def Machine.begin (k : Kernel M) (cpu : Cpu) (memory : Bytes) : Machine M :=
  ⟨System.started k, cpu, memory, false⟩

def Virtual.begin (wrapper : Nat) (k : Kernel M) (cpu : Cpu) (memory : Bytes) : Virtual M where
  system := System.started k
  own
    | none => ⟨cpu, memory⟩
    | some p => ⟨entryCpu wrapper (k.pcb p).entryPoint ((k.pcb p).base - stackSize) [], memory⟩

theorem Prepared.shows [MemoryManager M] (prepared : Prepared main wrapper k cpu memory)
    (reusable : NodesReusable M) (booted : Booted k) :
    Shows main (Machine.begin k cpu memory) (Virtual.begin wrapper k cpu memory) := by
  obtain ⟨shell, start⟩ := booted.start
  obtain ⟨settled, recorded⟩ := Recorded.run reusable booted .nil
  refine ⟨rfl, settled, recorded, prepared.apart, fun _ => ?_, fun p _ used => ?_⟩
  · have main : onCpu k = none := if_pos start.first
    change _ = ((Virtual.begin wrapper k cpu memory).own (onCpu k)).cpu ∧
      Runs _ k memory ((Virtual.begin wrapper k cpu memory).own (onCpu k)) (onCpu k)
    rw [main]
    exact ⟨rfl, prepared.room, fun _ _ _ => rfl⟩
  · exact prepared.built p used.1

/-- The processor is shared without anybody noticing: every run of the machine is one in which
each process has a processor of its own, and whoever is on the processor finds there the
registers, and on its stack the bytes, that it left. -/
theorem time_shared [MemoryManager M] (reusable : NodesReusable M) (booted : Booted k)
    (prepared : Prepared main wrapper k cpu memory)
    (run : Run (Step main wrapper) (Machine.begin k cpu memory) actions t) :
    ∃ v, Run (Virtual.Step wrapper) (Virtual.begin wrapper k cpu memory) actions v ∧
      v.system = t.system ∧
      (InUse t.astray t.system.kernel (onCpu t.system.kernel) →
        t.cpu = (v.own (onCpu t.system.kernel)).cpu ∧
        ∀ x, t.cpu.rsp.toNat ≤ x → x < (stackOf main t.system.kernel (onCpu t.system.kernel)).base →
          t.memory x = (v.own (onCpu t.system.kernel)).memory x) := by
  have follows : ∀ {s act t v}, Shows main s v → Step main wrapper s act t →
      ∃ v', Virtual.Step wrapper v act v' ∧ Shows main t v' :=
    fun shows step => shows.step step reusable
  obtain ⟨v, same, shows⟩ := run.simulate (Shows main) follows (prepared.shows reusable booted)
  refine ⟨v, same, shows.system, fun used => ?_⟩
  obtain ⟨cpu, runs⟩ := shows.running used
  rw [cpu]
  exact ⟨rfl, runs.above⟩

/-! ## A shell that is interrupted -/

def mainStack : Stack := ⟨65536, 69632⟩

def mainCpu : Cpu := ⟨⟨0, 0, 0, 0, 0, 0, 0, 0, 0, 0, 0, 0, 0, 0, 0⟩, 0, 8, 0x202, 69632, 0⟩

/-- The registers that a process of the boot begins with; `wrapper` is at 3. -/
def entry (p : Addr) : Cpu :=
  entryCpu 3 (Bump.kernel.pcb p).entryPoint ((Bump.kernel.pcb p).base - stackSize) []

def image : Bytes :=
  (saveContext (entry Bump.shell) (saveContext (entry Bump.idle) fun _ => 0).2).2

theorem bases : (Bump.kernel.pcb Bump.idle).base = 4359 ∧
    (Bump.kernel.pcb Bump.shell).base = 13362 := by decide +kernel

theorem entries : (entry Bump.idle).rsp = 4359 ∧ (entry Bump.shell).rsp = 13362 := by
  decide +kernel

theorem bump_owner (astray : Bool) (owner : Option Addr)
    (used : InUse astray Bump.kernel owner) :
    owner = none ∨ owner = some Bump.shell ∨ owner = some Bump.idle := by
  have members : ∀ p ∈ Bump.kernel.pcbs, p = Bump.shell ∨ p = Bump.idle := by decide +kernel
  cases owner with
  | none => exact .inl rfl
  | some p =>
    rcases members p used.1.1 with same | same
    · exact .inr (.inl (congrArg _ same))
    · exact .inr (.inr (congrArg _ same))

/-- The contexts of the boot lie on their stacks. -/
theorem image_holds :
    image.Holds (contextAddress (entry Bump.shell))
        ((contextWords (entry Bump.shell)).reverse.flatMap word) ∧
      image.Holds (contextAddress (entry Bump.idle))
        ((contextWords (entry Bump.idle)).reverse.flatMap word) := by
  obtain ⟨idle, shell⟩ := entries
  have low : contextAddress (entry Bump.idle) + 160 ≤ 4359 := by
    unfold contextAddress
    rw [idle]
    decide
  have high : 4359 ≤ contextAddress (entry Bump.shell) := by
    unfold contextAddress
    rw [shell]
    decide
  obtain ⟨elsewhere, holds⟩ := saveContext_frame (entry Bump.shell)
    (saveContext (entry Bump.idle) fun _ => 0).2 (by rw [shell]; decide)
  refine ⟨holds, ?_⟩
  refine (saveContext_frame (entry Bump.idle) (fun _ => 0) (by rw [idle]; decide)).2.congr ?_
    fun x _ there => elsewhere x (.inl ?_)
  · rw [contextWords_length]
    omega
  · rw [contextWords_length] at there
    omega

theorem bump_prepared : Prepared mainStack 3 Bump.kernel mainCpu image := by
  obtain ⟨idle, shell⟩ := bases
  obtain ⟨first, second⟩ := entries
  obtain ⟨shellHolds, idleHolds⟩ := image_holds
  refine ⟨⟨by decide, by decide⟩, fun owner other apart used taken => ?_, fun p living => ?_⟩
  · unfold Stack.Apart Stack.Has
    rcases bump_owner _ _ used with rfl | rfl | rfl <;> rcases bump_owner _ _ taken with rfl | rfl | rfl
    all_goals
      first
      | exact absurd rfl apart
      | unfold stackOf mainStack stackSize
        dsimp only
        intro x _
        omega
  · have each : p = Bump.shell ∨ p = Bump.idle := by
      rcases bump_owner false (some p) ⟨living, fun _ => rfl⟩ with h | h | h
      · cases h
      · exact .inl (Option.some.inj h)
      · exact .inr (Option.some.inj h)
    rcases each with rfl | rfl
    · refine ⟨by decide +kernel, ⟨?_, ?_⟩, shellHolds, fun _ _ _ => rfl⟩
      · change _ ≤ (entry Bump.shell).rsp.toNat / 16 * 16
        rw [second, shell]
        decide
      · change (entry Bump.shell).rsp.toNat ≤ _
        rw [second, shell]
        decide
    · refine ⟨by decide +kernel, ⟨?_, ?_⟩, idleHolds, fun _ _ _ => rfl⟩
      · change _ ≤ (entry Bump.idle).rsp.toNat / 16 * 16
        rw [first, idle]
        decide
      · change (entry Bump.idle).rsp.toNat ≤ _
        rw [first, idle]
        decide

/-- The shell is dispatched, computes and is interrupted. -/
def shellCpu : Cpu := { entry Bump.shell with rsp := 13000 }

theorem time_shared_shell : ∃ first second t v,
    Run (Step mainStack 3) (Machine.begin Bump.kernel mainCpu image)
      [.event .timerTick first, .runs shellCpu first, .event .timerTick second] t ∧
    Run (Virtual.Step 3) (Virtual.begin 3 Bump.kernel mainCpu image)
      [.event .timerTick first, .runs shellCpu first, .event .timerTick second] v ∧
    v.system = t.system ∧
    (InUse t.astray t.system.kernel (onCpu t.system.kernel) →
      t.cpu = (v.own (onCpu t.system.kernel)).cpu ∧
      ∀ x, t.cpu.rsp.toNat ≤ x →
        x < (stackOf mainStack t.system.kernel (onCpu t.system.kernel)).base →
        t.memory x = (v.own (onCpu t.system.kernel)).memory x) := by
  have shows := bump_prepared.shows Bump.nodesReusable Bump.booted
  have tick := shows.ticks 3 trivial
  obtain ⟨v₁, _, shows₁⟩ := shows.step tick Bump.nodesReusable
  have here : onCpu (ticked (Machine.begin Bump.kernel mainCpu image)).system.kernel =
      some Bump.shell := by decide +kernel
  have stack : stackOf mainStack (ticked (Machine.begin Bump.kernel mainCpu image)).system.kernel
      (some Bump.shell) = ⟨9266, 13362⟩ := by decide +kernel
  have room : Stack.Room ⟨9266, 13362⟩ shellCpu := ⟨by decide, by decide⟩
  rw [← stack, ← here] at room
  have shellRuns : InUse false (ticked (Machine.begin Bump.kernel mainCpu image)).system.kernel
      (onCpu (ticked (Machine.begin Bump.kernel mainCpu image)).system.kernel) := by
    rw [here]
    exact ⟨⟨by decide +kernel, by decide +kernel⟩, fun _ => rfl⟩
  have computes : Step mainStack 3 _ _ _ := .runs shellRuns (fun _ _ _ _ _ => rfl) room
  obtain ⟨v₂, _, shows₂⟩ := shows₁.step computes Bump.nodesReusable
  have used := shows₂.ticks 3 shellRuns
  have run := Run.cons tick (.cons computes (.cons used .nil))
  obtain ⟨v, same, shown⟩ := time_shared Bump.nodesReusable Bump.booted bump_prepared run
  exact ⟨_, _, _, v, run, same, shown⟩

end SoKernel.TimeSharing
