import SoKernel.Lib.Assembly
import SoKernel.Kernel.Interrupts

namespace SoKernel.SystemCalls
open Lib Bytes Assembly Instruction Interrupts ProcessStack

/-! ## The way into the kernel -/

/-- What the processor saves at an interrupt beside the stack pointer. -/
structure Mode where
  rip : UInt64
  cs : UInt64
  rflags : UInt64
  ss : UInt64
deriving DecidableEq, Repr

def cpu (mode : Mode) (s : State) : Cpu where
  registers := ⟨s.register .rax, s.register .rbx, s.register .rcx, s.register .rdx,
    s.register .rsi, s.register .rdi, s.register .rbp, s.register .r8, s.register .r9,
    s.register .r10, s.register .r11, s.register .r12, s.register .r13, s.register .r14,
    s.register .r15⟩
  rip := mode.rip
  cs := mode.cs
  rflags := mode.rflags
  rsp := s.register .rsp
  ss := mode.ss

/-- The processor has saved what it saves. -/
def interrupted (mode : Mode) (s : State) : State where
  register := Function.update s.register .rsp (UInt64.ofNat (interrupt (cpu mode s) s.memory).1)
  memory := (interrupt (cpu mode s) s.memory).2

def returned (mode : Mode) (s : State) : Mode × State :=
  let back := iretq (cpu mode s).registers s.top s.memory
  (⟨back.rip, back.cs, back.rflags, back.ss⟩, s.set .rsp back.rsp)

/-- `asm/syscalls.asm`: the registers that `syscall` saves, and how it passes its parameters. -/
def used : List Register := [.rbx, .r12, .r13, .r15]

def asking : List Instruction :=
  [mov .rax .rdi, mov .rbx .rsi, mov .rdi .rdx, mov .rdx .rcx, mov .rcx .rdi]

/-- `_irq80Handler` of `asm/interrupts.asm`. -/
def passing : List Instruction :=
  [mov .rdi .rax, mov .rsi .rbx, mov .rax .rdx, mov .rdx .rcx, mov .rcx .rax]

/-- At `int 80h`. -/
def asked (s : State) : State := exec asking (exec (entering used) s)

/-- At the first instruction of the handler. -/
def handling (mode : Mode) (s : State) : State := interrupted mode (asked s)

/-- At `call syscallDispatcher`. -/
def passed (mode : Mode) (s : State) : State :=
  exec passing (exec (entering [.rbx]) (handling mode s))

/-- The state in which the kernel's function begins; `back` is where it returns to. -/
def entry (mode : Mode) (back : UInt64) (s : State) : State := (passed mode s).pushWord back

/-- From the `ret` of the kernel's function to that of `syscall`. -/
def leave (mode : Mode) (s : State) : Mode × State :=
  let (mode, s) := returned mode (exec (leaving [.rbx]) (s.set .rsp (s.register .rsp + 8)))
  (mode, exec (leaving used) s)

/-- `syscall`, where the kernel's function returns at all. -/
def syscall (mode : Mode) (back : UInt64) (function : State → Option State) (s : State) :
    Option (Mode × State) :=
  (function (entry mode back s)).map (leave mode)

variable {mode : Mode} {back : UInt64} {s t : State} {limit x : Nat} {r : Register}

/-! ## Interrupts -/

theorem interrupt_rsp (room : 40 ≤ s.top / 16 * 16) :
    (interrupt (cpu mode s) s.memory).1 = s.top / 16 * 16 - 40 := by
  have small : s.top < 2 ^ 64 := (s.register .rsp).toNat_lt
  unfold interrupt
  refine (pushAll_rsp (show s.top / 16 * 16 < 2 ^ 64 by omega)).trans ?_
  exact toU64_sub room (by omega)

theorem interrupted_top (room : 40 ≤ s.top / 16 * 16) :
    (interrupted mode s).top = s.top / 16 * 16 - 40 := by
  have small : s.top < 2 ^ 64 := (s.register .rsp).toNat_lt
  unfold interrupted State.top
  dsimp only
  rw [Function.update_self, interrupt_rsp room]
  exact UInt64.toNat_ofNat_of_lt' (show s.top / 16 * 16 - 40 < 2 ^ 64 by omega)

theorem interrupted_register (other : r ≠ .rsp) :
    (interrupted mode s).register r = s.register r :=
  Function.update_of_ne other _ _

/-- What the processor pushes lies below the stack. -/
theorem interrupted_frame (room : 40 ≤ s.top / 16 * 16)
    (outside : x < s.top / 16 * 16 - 40 ∨ s.top ≤ x) :
    (interrupted mode s).memory x = s.memory x := by
  have small : s.top < 2 ^ 64 := (s.register .rsp).toNat_lt
  obtain ⟨elsewhere, _⟩ := pushAll_frame [mode.ss.toNat, s.top, mode.rflags.toNat, mode.cs.toNat,
    mode.rip.toNat] s.memory room (by omega)
  exact elsewhere x (outside.imp id fun above => by omega)

/-- `iretq` finds what the processor pushed. -/
theorem returned_of_kept (room : 40 ≤ s.top / 16 * 16) (same : t.top = s.top / 16 * 16 - 40)
    (kept : ∀ x, t.top ≤ x → x < s.top → t.memory x = (interrupted mode s).memory x) :
    returned mode t = (mode, t.set .rsp (s.register .rsp)) := by
  have small : s.top < 2 ^ 64 := (s.register .rsp).toNat_lt
  obtain ⟨_, pushed⟩ := pushAll_frame [mode.ss.toNat, s.top, mode.rflags.toNat, mode.cs.toNat,
    mode.rip.toNat] s.memory room (by omega)
  have holds : t.memory.Holds t.top
      (([mode.rip, mode.cs, mode.rflags, s.register .rsp, mode.ss].map UInt64.toNat).flatMap
        word) := by
    rw [same] at kept ⊢
    refine Holds.congr pushed ?_ fun x low high => ?_
    · rw [words_length]
      change s.top / 16 * 16 - 40 + 40 ≤ 2 ^ 64
      omega
    · rw [words_length] at high
      change x < s.top / 16 * 16 - 40 + 40 at high
      exact kept x low (by omega)
  have each : ∀ i (inside : i < 5), readWord t.memory (t.top + 8 * i) =
      [mode.rip, mode.cs, mode.rflags, s.register .rsp, mode.ss].get ⟨i, inside⟩ :=
    fun i inside => readWord_saved holds inside
  have rip : readWord t.memory t.top = mode.rip := each 0 (by decide)
  have cs : readWord t.memory (t.top + 8) = mode.cs := each 1 (by decide)
  have rflags : readWord t.memory (t.top + 16) = mode.rflags := each 2 (by decide)
  have rsp : readWord t.memory (t.top + 24) = s.register .rsp := each 3 (by decide)
  have ss : readWord t.memory (t.top + 32) = mode.ss := each 4 (by decide)
  unfold returned iretq
  dsimp only
  rw [rip, cs, rflags, rsp, ss]

/-! ## The way in -/

/-- The moves between registers keep the stack, and what neither function uses. -/
structure Moved (s t : State) : Prop where
  rsp : t.register .rsp = s.register .rsp
  rbp : t.register .rbp = s.register .rbp
  r14 : t.register .r14 = s.register .r14
  memory : t.memory = s.memory

theorem asking_moved (s : State) : Moved s (exec asking s) := ⟨rfl, rfl, rfl, rfl⟩

theorem passing_moved (s : State) : Moved s (exec passing s) := ⟨rfl, rfl, rfl, rfl⟩

theorem Moved.top (moved : Moved s t) : t.top = s.top := congrArg UInt64.toNat moved.rsp

theorem asking_parameters (s : State) : (exec asking s).register .rax = s.register .rdi ∧
    (exec asking s).register .rbx = s.register .rsi ∧
    (exec asking s).register .rcx = s.register .rdx ∧
    (exec asking s).register .rdx = s.register .rcx := ⟨rfl, rfl, rfl, rfl⟩

theorem passing_parameters (s : State) : (exec passing s).register .rdi = s.register .rax ∧
    (exec passing s).register .rsi = s.register .rbx ∧
    (exec passing s).register .rdx = s.register .rcx ∧
    (exec passing s).register .rcx = s.register .rdx := ⟨rfl, rfl, rfl, rfl⟩

theorem asked_top (room : 128 ≤ s.top) : (asked s).top = s.top - 40 := by
  obtain ⟨top, _, _⟩ := enters used s (by decide) (show 40 ≤ s.top by omega)
  exact (asking_moved _).top.trans top

theorem asked_frame (room : 128 ≤ s.top) (outside : x < s.top - 40 ∨ s.top ≤ x) :
    (asked s).memory x = s.memory x := by
  obtain ⟨_, _, memory⟩ := enters used s (by decide) (show 40 ≤ s.top by omega)
  unfold asked
  rw [(asking_moved _).memory]
  exact memory x outside

/-- The parameters are where the handler looks for them. -/
theorem asked_parameters (room : 128 ≤ s.top) : (asked s).register .rax = s.register .rdi ∧
    (asked s).register .rbx = s.register .rsi ∧ (asked s).register .rcx = s.register .rdx ∧
    (asked s).register .rdx = s.register .rcx := by
  obtain ⟨_, kept, _⟩ := enters used s (by decide) (show 40 ≤ s.top by omega)
  obtain ⟨rax, rbx, rcx, rdx⟩ := asking_parameters (exec (entering used) s)
  refine ⟨rax.trans ?_, rbx.trans ?_, rcx.trans ?_, rdx.trans ?_⟩
  · exact kept .rdi (by decide) (by decide)
  · exact kept .rsi (by decide) (by decide)
  · exact kept .rdx (by decide) (by decide)
  · exact kept .rcx (by decide) (by decide)

theorem handling_top (mode : Mode) (room : 128 ≤ s.top) :
    (handling mode s).top = (s.top - 40) / 16 * 16 - 40 := by
  have top := asked_top room
  have wide : 40 ≤ (asked s).top / 16 * 16 := by omega
  rw [← top]
  exact interrupted_top wide

theorem handling_frame (room : 128 ≤ s.top)
    (outside : x < (s.top - 40) / 16 * 16 - 40 ∨ s.top - 40 ≤ x) :
    (handling mode s).memory x = (asked s).memory x := by
  have top := asked_top room
  have wide : 40 ≤ (asked s).top / 16 * 16 := by omega
  rw [← top] at outside
  exact interrupted_frame wide outside

theorem passed_enters (mode : Mode) (room : 128 ≤ s.top) :
    (passed mode s).top = (s.top - 40) / 16 * 16 - 56 ∧
      (∀ r, r ≠ .rsp → r ≠ .rbp →
        (exec (entering [.rbx]) (handling mode s)).register r = (asked s).register r) ∧
      ∀ x, x < (s.top - 40) / 16 * 16 - 56 ∨ (s.top - 40) / 16 * 16 - 40 ≤ x →
        (passed mode s).memory x = (handling mode s).memory x := by
  have top := handling_top mode room
  have one : 8 * [Register.rbx].length + 8 = 16 := rfl
  obtain ⟨lower, registers, memory⟩ := enters [.rbx] (handling mode s) (by decide)
    (show 16 ≤ (handling mode s).top by omega)
  rw [top, one] at lower memory
  have moved := passing_moved (exec (entering [.rbx]) (handling mode s))
  refine ⟨?_, fun r other away => ?_, fun x outside => ?_⟩
  · refine (moved.top.trans lower).trans ?_
    omega
  · exact (registers r other away).trans (interrupted_register other)
  · unfold passed
    rw [moved.memory]
    exact memory x (by omega)

theorem entry_top (mode : Mode) (back : UInt64) (room : 128 ≤ s.top) :
    (entry mode back s).top = (s.top - 40) / 16 * 16 - 64 := by
  obtain ⟨top, _⟩ := passed_enters mode room
  have lower := pushWord_top back (show 8 ≤ (passed mode s).top by omega)
  unfold entry
  omega

theorem entry_frame (room : 128 ≤ s.top)
    (outside : x < (s.top - 40) / 16 * 16 - 64 ∨ (s.top - 40) / 16 * 16 - 56 ≤ x) :
    (entry mode back s).memory x = (passed mode s).memory x := by
  obtain ⟨top, _⟩ := passed_enters mode room
  exact pushWord_frame (show 8 ≤ (passed mode s).top by omega) (by omega)

/-- The kernel's function gets the parameters of `syscall`. -/
theorem entry_parameters (mode : Mode) (back : UInt64) (room : 128 ≤ s.top) :
    (entry mode back s).register .rdi = s.register .rdi ∧
      (entry mode back s).register .rsi = s.register .rsi ∧
      (entry mode back s).register .rdx = s.register .rdx ∧
      (entry mode back s).register .rcx = s.register .rcx := by
  obtain ⟨rax, rbx, rcx, rdx⟩ := asked_parameters room
  obtain ⟨_, kept, _⟩ := passed_enters mode room
  have same : ∀ r, r ≠ .rsp → (entry mode back s).register r = (passed mode s).register r :=
    fun r other => pushWord_register other
  obtain ⟨rdi', rsi', rdx', rcx'⟩ := passing_parameters (exec (entering [.rbx]) (handling mode s))
  unfold passed at same
  refine ⟨?_, ?_, ?_, ?_⟩
  · rw [same .rdi (by decide), rdi', kept .rax (by decide) (by decide), rax]
  · rw [same .rsi (by decide), rsi', kept .rbx (by decide) (by decide), rbx]
  · rw [same .rdx (by decide), rdx', kept .rcx (by decide) (by decide), rcx]
  · rw [same .rcx (by decide), rcx', kept .rdx (by decide) (by decide), rdx]

/-- On the way in only the stack below the caller's is written. -/
theorem entry_memory (room : 128 ≤ s.top) (outside : x < (entry mode back s).top ∨ s.top ≤ x) :
    (entry mode back s).memory x = s.memory x := by
  have top := entry_top mode back room
  obtain ⟨_, _, passing⟩ := passed_enters mode room
  rw [entry_frame room (by omega), passing x (by omega), handling_frame room (by omega),
    asked_frame room (by omega)]

/-- The one register that a function keeps and that is not saved on the way. -/
theorem entry_r14 (mode : Mode) (back : UInt64) (room : 128 ≤ s.top) :
    (entry mode back s).register .r14 = s.register .r14 := by
  obtain ⟨_, first, _⟩ := enters used s (by decide) (show 40 ≤ s.top by omega)
  obtain ⟨_, second, _⟩ := passed_enters mode room
  have last : (entry mode back s).register .r14 = (passed mode s).register .r14 :=
    pushWord_register (by decide)
  unfold passed at last
  rw [last, (passing_moved _).r14, second .r14 (by decide) (by decide)]
  unfold asked
  rw [(asking_moved _).r14]
  exact first .r14 (by decide) (by decide)

/-! ## The way back -/

/-- The handler ends with what `iretq` needs, and its own registers as they were. -/
theorem handler_leaves (room : 128 ≤ s.top) (high : s.top ≤ limit)
    (abides : Abides limit (entry mode back s) t) :
    ∃ u, exec (leaving [.rbx]) (t.set .rsp (t.register .rsp + 8)) = u ∧ u.memory = t.memory ∧
      u.register .rsp = (handling mode s).register .rsp ∧
      u.register .rbp = (asked s).register .rbp ∧
      ∀ r, r ≠ .rbx → r ≠ .rsp → r ≠ .rbp → u.register r = t.register r := by
  have top := handling_top mode room
  have bottom := entry_top mode back room
  obtain ⟨body, _, _⟩ := passed_enters mode room
  have rsp : (t.set .rsp (t.register .rsp + 8)).register .rsp = (passed mode s).register .rsp := by
    rw [set_self, abides.rsp]
    unfold entry
    rw [pushWord_rsp]
    exact UInt64.sub_add_cancel _ _
  have moved := passing_moved (exec (entering [.rbx]) (handling mode s))
  have rbp : (t.set .rsp (t.register .rsp + 8)).register .rbp = (passed mode s).register .rbp := by
    rw [set_other (by decide), abides.saved .rbp (by decide)]
    exact pushWord_register (by decide)
  obtain ⟨rsp', rbp', _, others, memory⟩ := leaves [.rbx] (handling mode s)
    (t.set .rsp (t.register .rsp + 8)) (by decide) (by decide) (show 16 ≤ (handling mode s).top by omega) (rsp.trans moved.rsp)
    (rbp.trans moved.rbp) fun x low above => by
      rw [← moved.top] at low
      change (passed mode s).top ≤ x at low
      rw [← moved.memory, set_memory, abides.stack x (by omega) (by omega),
        entry_frame room (by omega)]
      rfl
  refine ⟨_, rfl, memory, rsp', rbp'.trans (interrupted_register (by decide)),
    fun r one two three => ?_⟩
  rw [others r (by simpa using one) two three, set_other two]

/-- What the kernel's function leaves on the stack of the stub. -/
theorem kept_of_abides (x : Nat) (room : 128 ≤ s.top) (abides : Abides limit (entry mode back s) t)
    (low : (s.top - 40) / 16 * 16 - 40 ≤ x)
    (below : x < limit) : t.memory x = (handling mode s).memory x := by
  have bottom := entry_top mode back room
  obtain ⟨_, _, passing⟩ := passed_enters mode room
  rw [abides.stack x (by omega) below, entry_frame room (by omega), passing x (by omega)]

/-- The caller of `syscall` gets everything back. -/
theorem leave_returns (room : 128 ≤ s.top) (high : s.top ≤ limit)
    (abides : Abides limit (entry mode back s) t) :
    ∃ u, leave mode t = (mode, u) ∧ u.register .rax = t.register .rax ∧ u.memory = t.memory ∧
      Abides limit s u := by
  have asks := asked_top room
  have top := handling_top mode room
  have kept := fun x => kept_of_abides x room abides
  have moved := asking_moved (exec (entering used) s)
  obtain ⟨f, same, memory, rsp, rbp, others⟩ := handler_leaves room high abides
  have ends : f.top = (asked s).top / 16 * 16 - 40 := by
    unfold State.top at top asks ⊢
    rw [rsp, top, asks]
  have back' : returned mode f = (mode, f.set .rsp ((asked s).register .rsp)) := by
    refine returned_of_kept (by omega) ends fun x low _ => ?_
    rw [memory]
    exact kept x (by omega) (by omega)
  obtain ⟨rsp', rbp', restored, rest, same'⟩ := leaves used s
    (f.set .rsp ((asked s).register .rsp)) (by decide) (by decide)
    (show 40 ≤ s.top by omega) (set_self.trans moved.rsp)
    ((set_other (by decide)).trans (rbp.trans moved.rbp)) fun x low above => by
      rw [← moved.top] at low
      change (asked s).top ≤ x at low
      rw [← moved.memory, set_memory, memory, kept x (by omega) (by omega),
        handling_frame room (by omega)]
      rfl
  have final : ∀ r, r ∉ used → r ≠ .rbx → r ≠ .rsp → r ≠ .rbp →
      (exec (leaving used) (f.set .rsp ((asked s).register .rsp))).register r = t.register r := by
    intro r outside one two three
    rw [rest r outside two three, set_other two, others r one two three]
  refine ⟨_, ?_, final .rax (by decide) (by decide) (by decide) (by decide), same'.trans memory,
    rsp', fun r saved => ?_, fun x low below => ?_⟩
  · unfold leave
    rw [same, back']
  · by_cases mine : r ∈ used
    · exact restored r mine
    · by_cases base : r = .rbp
      · rw [base]
        exact rbp'
      · have r14 : r = .r14 := by
          revert r
          decide
        rw [r14, final .r14 (by decide) (by decide) (by decide) (by decide),
          abides.saved .r14 (by decide), entry_r14 mode back room]
  · rw [same', set_memory, memory, kept x (by omega) below, handling_frame room (by omega),
      asked_frame room (by omega)]

/-! ## The tables -/

/-- `enum syscall_number` of `syscall.c`. -/
inductive SyscallNumber where
  | none | read | write | clearScreen | sizeUpFont | sizeDownFont | getHeight | getWidth
  | wait | allocMemory | freeMemory | createProcess | getpid | kill | block | unblock
  | changePrio | getProcessInfo | memInfo | exit | semOpen | semWait | semPost | semClose
  | yield | waitpid | openPipe | closePipe | clearPipe
deriving DecidableEq, Repr

/-- The functions of `syscallDispatcher.c`. -/
inductive Service where
  | read | write | clearScreen | fontSizeUp | fontSizeDown | getHeight | getWidth | wait
  | allocMemory | freeMemory | createProcess | getpid | kill | block | unblock | changePrio
  | getProcessInfo | memInfo | exit | semOpen | semWait | semPost | semClose | yield | waitpid
  | openPipe | closePipe | clearPipe
deriving DecidableEq, Repr

/-- The functions of `syscall.c`. -/
inductive Stub where
  | read | write | clearScreen | sizeUpFont | sizeDownFont | getHeight | getWidth | wait
  | allocMemory | freeMemory | createProcess | getpid | kill | block | unblock | changePrio
  | getProcessInfo | memInfo | exit | semOpen | semWait | semPost | semClose | yield | openPipe
  | closePipe | clearPipe | waitpid
deriving DecidableEq, Repr

/-- The types of parameters; a pointer is one of `uint64`. -/
inductive CType where
  | uint64 | int32 | int8
deriving DecidableEq, Repr

namespace CType

def Has : CType → Int → Prop
  | uint64, value => 0 ≤ value ∧ value < 2 ^ 64
  | int32, value => -2 ^ 31 ≤ value ∧ value < 2 ^ 31
  | int8, value => -2 ^ 7 ≤ value ∧ value < 2 ^ 7

/-- What the function makes of a register. -/
def decode : CType → UInt64 → Int
  | uint64, word => word.toNat
  | int32, word => (word.toNat : Int).bmod (2 ^ 32)
  | int8, word => (word.toNat : Int).bmod (2 ^ 8)

end CType

/-- Conversion to `uint64_t`. -/
def encode (value : Int) : UInt64 := UInt64.ofNat (toU64 value)

def SyscallNumber.number : SyscallNumber → Nat
  | none => 0 | read => 1 | write => 2 | clearScreen => 3 | sizeUpFont => 4
  | sizeDownFont => 5 | getHeight => 6 | getWidth => 7 | wait => 8 | allocMemory => 9
  | freeMemory => 10 | createProcess => 11 | getpid => 12 | kill => 13 | block => 14
  | unblock => 15 | changePrio => 16 | getProcessInfo => 17 | memInfo => 18 | exit => 19
  | semOpen => 20 | semWait => 21 | semPost => 22 | semClose => 23 | yield => 24
  | waitpid => 25 | openPipe => 26 | closePipe => 27 | clearPipe => 28

/-- `CANT_SYSCALLS`. -/
def cantSyscalls : Nat := 29

def syscalls : List (Option Service) :=
  [none, some .read, some .write, some .clearScreen, some .fontSizeUp, some .fontSizeDown,
    some .getHeight, some .getWidth, some .wait, some .allocMemory, some .freeMemory,
    some .createProcess, some .getpid, some .kill, some .block, some .unblock, some .changePrio,
    some .getProcessInfo, some .memInfo, some .exit, some .semOpen, some .semWait, some .semPost,
    some .semClose, some .yield, some .waitpid, some .openPipe, some .closePipe, some .clearPipe]

def Service.parameters : Service → List CType
  | read | write => [.uint64, .uint64, .uint64]
  | fontSizeUp | fontSizeDown | wait | allocMemory | freeMemory | createProcess | kill | block
  | unblock | getProcessInfo | memInfo | exit => [.uint64]
  | clearScreen | getHeight | getWidth | getpid | yield | openPipe => []
  | changePrio => [.uint64, .int8]
  | semOpen | waitpid => [.int32, .uint64]
  | semWait | semPost | semClose | closePipe | clearPipe => [.int32]

namespace Stub

def asks : Stub → SyscallNumber
  | read => .read | write => .write | clearScreen => .clearScreen | sizeUpFont => .sizeUpFont
  | sizeDownFont => .sizeDownFont | getHeight => .getHeight | getWidth => .getWidth
  | wait => .wait | allocMemory => .allocMemory | freeMemory => .freeMemory
  | createProcess => .createProcess | getpid => .getpid | kill => .kill | block => .block
  | unblock => .unblock | changePrio => .changePrio | getProcessInfo => .getProcessInfo
  | memInfo => .memInfo | exit => .exit | semOpen => .semOpen | semWait => .semWait
  | semPost => .semPost | semClose => .semClose | yield => .yield | openPipe => .openPipe
  | closePipe => .closePipe | clearPipe => .clearPipe | waitpid => .waitpid

/-- The parameters that the stub passes on; `createProcess` passes the address of its record. -/
def parameters : Stub → List CType
  | read | write => [.uint64, .uint64, .uint64]
  | sizeUpFont | sizeDownFont | wait | allocMemory | freeMemory | createProcess | kill | block
  | unblock | getProcessInfo | memInfo => [.uint64]
  | clearScreen | getHeight | getWidth | getpid | yield | openPipe | exit => []
  | changePrio => [.uint64, .int8]
  | semOpen | waitpid => [.int32, .uint64]
  | semWait | semPost | semClose | closePipe | clearPipe => [.int32]

/-- What the program means to call. -/
def service : Stub → Service
  | read => .read | write => .write | clearScreen => .clearScreen | sizeUpFont => .fontSizeUp
  | sizeDownFont => .fontSizeDown | getHeight => .getHeight | getWidth => .getWidth
  | wait => .wait | allocMemory => .allocMemory | freeMemory => .freeMemory
  | createProcess => .createProcess | getpid => .getpid | kill => .kill | block => .block
  | unblock => .unblock | changePrio => .changePrio | getProcessInfo => .getProcessInfo
  | memInfo => .memInfo | exit => .exit | semOpen => .semOpen | semWait => .semWait
  | semPost => .semPost | semClose => .semClose | yield => .yield | openPipe => .openPipe
  | closePipe => .closePipe | clearPipe => .clearPipe | waitpid => .waitpid

end Stub

/-- The other parameters of `syscall`; what a stub does not use is 0. -/
def arguments (s : State) : List UInt64 := [s.register .rsi, s.register .rdx, s.register .rcx]

def padded (values : List Int) : List Int := values ++ List.replicate (3 - values.length) 0

/-- Nothing is returned where the function does not return, or the address 0 is called. -/
def syscallDispatcher (serve : Service → List Int → State → Option State) (s : State) :
    Option State :=
  if cantSyscalls ≤ (s.register .rdi).toNat then some (s.set .rax 0)
  else (syscalls.getD (s.register .rdi).toNat none).bind fun service =>
    serve service (List.zipWith CType.decode service.parameters (arguments s)) s

/-! ## What is called -/

variable {values : List Int} {types rest : List CType} {type : CType} {value : Int} {stub : Stub}
variable {serve : Service → List Int → State → Option State}

theorem encode_toNat (value : Int) : ((encode value).toNat : Int) = value % 2 ^ 64 := by
  unfold encode
  rw [UInt64.toNat_ofNat_of_lt' (toU64_lt)]
  unfold toU64
  omega

/-- A signed value is read off the lower bits. -/
theorem bmod_wrapped {half : Nat} (low : -(half : Int) ≤ value) (high : value < half)
    (divides : (2 * half : Int) ∣ 2 ^ 64) : (value % 2 ^ 64).bmod (2 * half) = value := by
  have same : (value % 2 ^ 64) % ((2 * half : Nat) : Int) = value % ((2 * half : Nat) : Int) := by
    push_cast
    exact Int.emod_emod_of_dvd value divides
  rw [← Int.emod_bmod, same, Int.emod_bmod]
  apply Int.bmod_eq_of_le
  · omega
  · omega

/-- A value that has the type arrives as it is. -/
theorem decode_encode (has : type.Has value) : type.decode (encode value) = value := by
  have word := encode_toNat value
  cases type with
  | uint64 =>
    obtain ⟨low, high⟩ := has
    exact word.trans (Int.emod_eq_of_lt low high)
  | int32 =>
    obtain ⟨low, high⟩ := has
    have width : 2 ^ 32 = 2 * 2 ^ 31 := rfl
    unfold CType.decode
    dsimp only
    rw [word, width]
    exact bmod_wrapped low high ⟨2 ^ 32, by norm_num⟩
  | int8 =>
    obtain ⟨low, high⟩ := has
    have width : 2 ^ 8 = 2 * 2 ^ 7 := rfl
    unfold CType.decode
    dsimp only
    rw [word, width]
    exact bmod_wrapped low high ⟨2 ^ 56, by norm_num⟩

theorem decode_zero (type : CType) : type.decode (encode 0) = 0 := by
  apply decode_encode
  cases type <;> exact ⟨by decide, by decide⟩

theorem decode_zeros (rest : List CType) (n : Nat) :
    List.zipWith CType.decode rest ((List.replicate n (0 : Int)).map encode) =
      (List.replicate n 0).take rest.length := by
  induction rest generalizing n with
  | nil => rfl
  | cons type rest ih =>
    cases n with
    | zero => rfl
    | succ n =>
      rw [List.replicate_succ, List.map_cons, List.zipWith_cons_cons, decode_zero, ih,
        List.length_cons, List.take_succ_cons]

/-- The parameters arrive, and what the function takes besides is 0. -/
theorem decode_all (fits : List.Forall₂ CType.Has types values) (n : Nat) :
    List.zipWith CType.decode (types ++ rest) ((values ++ List.replicate n 0).map encode) =
      (values ++ List.replicate n 0).take (types ++ rest).length := by
  induction fits with
  | nil => exact decode_zeros rest n
  | cons has _ ih =>
    rw [List.cons_append, List.cons_append, List.map_cons, List.zipWith_cons_cons,
      decode_encode has, ih, List.length_cons, List.take_succ_cons]

/-- Both tables agree. -/
theorem syscalls_asks (stub : Stub) :
    syscalls.getD stub.asks.number none = some stub.service ∧ stub.asks.number < cantSyscalls ∧
      stub.parameters <+: stub.service.parameters := by
  cases stub <;> decide

theorem dispatches (serve : Service → List Int → State → Option State)
    (number : s.register .rdi = UInt64.ofNat stub.asks.number)
    (passes : arguments s = (padded values).map encode)
    (fits : List.Forall₂ CType.Has stub.parameters values) :
    syscallDispatcher serve s = serve stub.service
      ((padded values).take stub.service.parameters.length) s := by
  obtain ⟨entry, known, rest, types⟩ := syscalls_asks stub
  have index : (s.register .rdi).toNat = stub.asks.number := by
    rw [number]
    exact UInt64.toNat_ofNat_of_lt' (known.trans (by decide))
  unfold syscallDispatcher
  rw [index, if_neg (Nat.not_le.mpr known), entry, Option.bind_some, passes, ← types]
  unfold padded
  rw [decode_all fits]

/-- A system call is a call of the kernel's function: it gets the parameters, its result and its
memory are the caller's, and the caller finds its stack and its registers as after any call. -/
theorem stub_served (mode : Mode) (back : UInt64)
    (serve : Service → List Int → State → Option State) (stub : Stub) (values : List Int) (room : 128 ≤ s.top) (high : s.top ≤ limit)
    (abides : ∀ service values e t, e.top < s.top → serve service values e = some t →
      Abides limit e t)
    (number : s.register .rdi = UInt64.ofNat stub.asks.number)
    (passes : arguments s = (padded values).map encode)
    (fits : List.Forall₂ CType.Has stub.parameters values) :
    ∃ e, (∀ x, x < e.top ∨ s.top ≤ x → e.memory x = s.memory x) ∧
      match serve stub.service ((padded values).take stub.service.parameters.length) e with
      | none => syscall mode back (syscallDispatcher serve) s = none
      | some t => ∃ u, syscall mode back (syscallDispatcher serve) s = some (mode, u) ∧
        u.register .rax = t.register .rax ∧ u.memory = t.memory ∧ Abides limit s u := by
  obtain ⟨rdi, rsi, rdx, rcx⟩ := entry_parameters mode back room
  have top := entry_top mode back room
  have same : arguments (entry mode back s) = arguments s := by
    unfold arguments
    rw [rsi, rdx, rcx]
  have called := dispatches serve (rdi.trans number) (same.trans passes) fits
  refine ⟨entry mode back s, fun x outside => entry_memory room outside, ?_⟩
  unfold syscall
  rw [called]
  generalize served : serve stub.service _ (entry mode back s) = result
  cases result with
  | none => rfl
  | some t =>
    obtain ⟨u, left, rax, memory, kept⟩ :=
      leave_returns room high (abides _ _ _ _ (by omega) served)
    exact ⟨u, congrArg some left, rax, memory, kept⟩

/-! ## `changePrio` of a process to a negative priority -/

/-- A kernel whose functions add up their parameters. -/
def adding (_ : Service) (values : List Int) (s : State) : Option State :=
  some (s.set .rax (encode values.sum))

def caller : State where
  register
    | .rdi => 16
    | .rsi => 5
    | .rdx => encode (-2)
    | .rcx => 0
    | .rsp => 65536
    | _ => 7
  memory := fun _ => 0

theorem changePrio_served : ∃ e : State, (∀ x, x < e.top ∨ 65536 ≤ x → e.memory x = 0) ∧ ∃ u,
    syscall ⟨1, 8, 0x202, 0⟩ 2 (syscallDispatcher adding) caller =
      some (⟨1, 8, 0x202, 0⟩, u) ∧
    u.register .rax = 3 ∧ u.memory = e.memory ∧ Abides 65600 caller u := by
  obtain ⟨e, memory, u, served, rax, same, kept⟩ := stub_served ⟨1, 8, 0x202, 0⟩ 2 adding
    .changePrio [5, -2] (show 128 ≤ caller.top by decide) (show caller.top ≤ 65600 by decide) (fun _ values e t _ added => by
      rw [← Option.some.inj added]
      refine ⟨set_other (by decide), fun r saved => set_other ?_, fun _ _ _ => rfl⟩
      rintro rfl
      exact absurd saved (by decide))
    rfl rfl (.cons ⟨by decide, by decide⟩ (.cons ⟨by decide, by decide⟩ .nil))
  refine ⟨e, memory, u, served, ?_, same, kept⟩
  rw [rax, set_self]
  rfl

end SoKernel.SystemCalls
