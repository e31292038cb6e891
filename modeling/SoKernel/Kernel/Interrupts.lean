import SoKernel.Lib.Copying
import SoKernel.Lib.LittleEndian
import SoKernel.Kernel.ProcessStack

namespace SoKernel.Interrupts
open Lib Bytes ProcessStack

/-! ## The processor -/

/-- What `pushState` saves. -/
structure Registers where
  rax : UInt64
  rbx : UInt64
  rcx : UInt64
  rdx : UInt64
  rsi : UInt64
  rdi : UInt64
  rbp : UInt64
  r8 : UInt64
  r9 : UInt64
  r10 : UInt64
  r11 : UInt64
  r12 : UInt64
  r13 : UInt64
  r14 : UInt64
  r15 : UInt64
deriving DecidableEq, Repr

/-- With what an interrupt saves by itself. -/
structure Cpu where
  registers : Registers
  rip : UInt64
  cs : UInt64
  rflags : UInt64
  rsp : UInt64
  ss : UInt64
deriving DecidableEq, Repr

def readWord (m : Bytes) (a : Nat) : UInt64 := UInt64.ofNat (ofLittleEndian (m.fetch a 8))

/-! ## `asm/interrupts.asm` -/

def pushState (r : Registers) (rsp : Nat) (m : Bytes) : Nat × Bytes :=
  pushAll [r.r15.toNat, r.r14.toNat, r.r13.toNat, r.r12.toNat, r.r11.toNat, r.r10.toNat,
    r.r9.toNat, r.r8.toNat, r.rbp.toNat, r.rdi.toNat, r.rsi.toNat, r.rdx.toNat, r.rcx.toNat,
    r.rbx.toNat, r.rax.toNat] rsp m

def popState (rsp : Nat) (m : Bytes) : Registers × Nat :=
  (⟨readWord m rsp, readWord m (rsp + 8), readWord m (rsp + 16), readWord m (rsp + 24),
    readWord m (rsp + 32), readWord m (rsp + 40), readWord m (rsp + 48), readWord m (rsp + 56),
    readWord m (rsp + 64), readWord m (rsp + 72), readWord m (rsp + 80), readWord m (rsp + 88),
    readWord m (rsp + 96), readWord m (rsp + 104), readWord m (rsp + 112)⟩, rsp + 120)

/-- What the processor pushes, at a multiple of 16, before a handler runs. -/
def interrupt (cpu : Cpu) (m : Bytes) : Nat × Bytes :=
  pushAll [cpu.ss.toNat, cpu.rsp.toNat, cpu.rflags.toNat, cpu.cs.toNat, cpu.rip.toNat]
    (cpu.rsp.toNat / 16 * 16) m

def iretq (registers : Registers) (rsp : Nat) (m : Bytes) : Cpu :=
  ⟨registers, readWord m rsp, readWord m (rsp + 8), readWord m (rsp + 16), readWord m (rsp + 24),
    readWord m (rsp + 32)⟩

/-- A handler up to its call of the kernel. -/
def saveContext (cpu : Cpu) (m : Bytes) : Nat × Bytes :=
  let (rsp, m) := interrupt cpu m
  pushState cpu.registers rsp m

/-- The rest of a handler, on the stack that it was left. -/
def restoreContext (rsp : Nat) (m : Bytes) : Cpu :=
  let (registers, rsp) := popState rsp m
  iretq registers rsp m

/-! ## Words on the stack -/

variable {m m' : Bytes} {a rsp : Nat} {cpu : Cpu} {values more : List Nat}

theorem readWord_of_holds {value : UInt64} (holds : m.Holds a (word value.toNat)) :
    readWord m a = value := by
  have bytes := fetch_of_holds holds
  have small : value.toNat % 256 ^ 8 = value.toNat := Nat.mod_eq_of_lt value.toNat_lt
  rw [word_length] at bytes
  unfold readWord
  rw [bytes, word_eq_littleEndian, ofLittleEndian_littleEndian, small]
  exact UInt64.ofNat_toNat

theorem holds_words (holds : m.Holds a (values.flatMap word)) {i : Nat}
    (inside : i < values.length) : m.Holds (a + 8 * i) (word values[i]) := by
  induction values generalizing a i with
  | nil => exact absurd inside (Nat.not_lt_zero i)
  | cons value values ih =>
    rw [List.flatMap_cons, holds_append, word_length] at holds
    cases i with
    | zero => exact holds.1
    | succ i =>
      have there := ih holds.2 (Nat.lt_of_succ_lt_succ inside)
      rwa [show a + 8 + 8 * i = a + 8 * (i + 1) by omega] at there

theorem pushAll_append : pushAll (values ++ more) rsp m =
    pushAll more (pushAll values rsp m).1 (pushAll values rsp m).2 := by
  induction values generalizing rsp m with
  | nil => rfl
  | cons value values ih => exact ih

/-! ## Saving and restoring -/

/-- The words of a context, as they are pushed. -/
def contextWords (cpu : Cpu) : List Nat :=
  [cpu.ss.toNat, cpu.rsp.toNat, cpu.rflags.toNat, cpu.cs.toNat, cpu.rip.toNat,
    cpu.registers.r15.toNat, cpu.registers.r14.toNat, cpu.registers.r13.toNat,
    cpu.registers.r12.toNat, cpu.registers.r11.toNat, cpu.registers.r10.toNat,
    cpu.registers.r9.toNat, cpu.registers.r8.toNat, cpu.registers.rbp.toNat,
    cpu.registers.rdi.toNat, cpu.registers.rsi.toNat, cpu.registers.rdx.toNat,
    cpu.registers.rcx.toNat, cpu.registers.rbx.toNat, cpu.registers.rax.toNat]

/-- Where the saved context of a process lies. -/
def contextAddress (cpu : Cpu) : Nat := cpu.rsp.toNat / 16 * 16 - 160

theorem saveContext_eq : saveContext cpu m =
    pushAll (contextWords cpu) (cpu.rsp.toNat / 16 * 16) m := by
  unfold saveContext interrupt pushState
  dsimp only
  rw [← pushAll_append]
  rfl

theorem saveContext_rsp (room : 160 ≤ cpu.rsp.toNat / 16 * 16) :
    (saveContext cpu m).1 = contextAddress cpu := by
  have small := cpu.rsp.toNat_lt
  rw [saveContext_eq, pushAll_rsp (by omega)]
  exact toU64_sub (by exact room) (by omega)

/-- The words of a context from the lowest up. -/
def savedWords (cpu : Cpu) : List UInt64 :=
  [cpu.registers.rax, cpu.registers.rbx, cpu.registers.rcx, cpu.registers.rdx,
    cpu.registers.rsi, cpu.registers.rdi, cpu.registers.rbp, cpu.registers.r8, cpu.registers.r9,
    cpu.registers.r10, cpu.registers.r11, cpu.registers.r12, cpu.registers.r13,
    cpu.registers.r14, cpu.registers.r15, cpu.rip, cpu.cs, cpu.rflags, cpu.rsp, cpu.ss]

theorem contextWords_reverse :
    (contextWords cpu).reverse = (savedWords cpu).map UInt64.toNat := rfl

theorem readWord_saved {words : List UInt64}
    (holds : m.Holds a ((words.map UInt64.toNat).flatMap word)) {i : Nat}
    (inside : i < words.length) : readWord m (a + 8 * i) = words[i] := by
  have there := holds_words holds (i := i) (by rwa [List.length_map])
  rw [List.getElem_map] at there
  exact readWord_of_holds there

/-- A stored context is read back. -/
theorem restoreContext_of_holds
    (holds : m.Holds rsp ((contextWords cpu).reverse.flatMap word)) :
    restoreContext rsp m = cpu := by
  rw [contextWords_reverse] at holds
  have each : ∀ i (inside : i < 20), readWord m (rsp + 8 * i) = (savedWords cpu).get ⟨i, inside⟩ :=
    fun i inside => readWord_saved holds inside
  unfold restoreContext popState iretq
  dsimp only
  simp only [Nat.add_assoc, Nat.reduceAdd]
  have rax : readWord m rsp = cpu.registers.rax := each 0 (by decide)
  have rbx : readWord m (rsp + 8) = cpu.registers.rbx := each 1 (by decide)
  have rcx : readWord m (rsp + 16) = cpu.registers.rcx := each 2 (by decide)
  have rdx : readWord m (rsp + 24) = cpu.registers.rdx := each 3 (by decide)
  have rsi : readWord m (rsp + 32) = cpu.registers.rsi := each 4 (by decide)
  have rdi : readWord m (rsp + 40) = cpu.registers.rdi := each 5 (by decide)
  have rbp : readWord m (rsp + 48) = cpu.registers.rbp := each 6 (by decide)
  have r8 : readWord m (rsp + 56) = cpu.registers.r8 := each 7 (by decide)
  have r9 : readWord m (rsp + 64) = cpu.registers.r9 := each 8 (by decide)
  have r10 : readWord m (rsp + 72) = cpu.registers.r10 := each 9 (by decide)
  have r11 : readWord m (rsp + 80) = cpu.registers.r11 := each 10 (by decide)
  have r12 : readWord m (rsp + 88) = cpu.registers.r12 := each 11 (by decide)
  have r13 : readWord m (rsp + 96) = cpu.registers.r13 := each 12 (by decide)
  have r14 : readWord m (rsp + 104) = cpu.registers.r14 := each 13 (by decide)
  have r15 : readWord m (rsp + 112) = cpu.registers.r15 := each 14 (by decide)
  have rip : readWord m (rsp + 120) = cpu.rip := each 15 (by decide)
  have cs : readWord m (rsp + 128) = cpu.cs := each 16 (by decide)
  have rflags : readWord m (rsp + 136) = cpu.rflags := each 17 (by decide)
  have pointer : readWord m (rsp + 144) = cpu.rsp := each 18 (by decide)
  have ss : readWord m (rsp + 152) = cpu.ss := each 19 (by decide)
  rw [rax, rbx, rcx, rdx, rsi, rdi, rbp, r8, r9, r10, r11, r12,
    r13, r14, r15, rip, cs, rflags, pointer, ss]

/-- The words of a context lie below the stack pointer, and nothing else is written. -/
theorem saveContext_frame (cpu : Cpu) (m : Bytes) (room : 160 ≤ cpu.rsp.toNat / 16 * 16) :
    (∀ x, x < contextAddress cpu ∨ cpu.rsp.toNat / 16 * 16 ≤ x → (saveContext cpu m).2 x = m x) ∧
      (saveContext cpu m).2.Holds (contextAddress cpu)
        ((contextWords cpu).reverse.flatMap word) := by
  have small := cpu.rsp.toNat_lt
  rw [saveContext_eq]
  exact pushAll_frame (contextWords cpu) m room (by omega)

theorem contextWords_length : ((contextWords cpu).reverse.flatMap word).length = 160 := by
  rw [words_length]
  rfl

/-! ## The context that a new process starts with -/

/-- `wrapper` calls `r8` with the number of arguments and their vector. -/
def entryCpu (wrapper entryPoint block : Nat) (argv : List (List UInt8)) : Cpu where
  registers := ⟨0, 0, 0, 0,
    UInt64.ofNat (if argv = [] then 0 else block + stackSize - arraySize argv),
    UInt64.ofNat argv.length, 0, UInt64.ofNat entryPoint, 0, 0, 0, 0, 0, 0, 0⟩
  rip := UInt64.ofNat wrapper
  cs := 0x8
  rflags := 0x202
  rsp := UInt64.ofNat (block + stackSize - (arraySize argv + below argv argv.length))
  ss := 0

theorem word_ofNat (value : Nat) : word (UInt64.ofNat value).toNat = word value := by
  unfold word
  refine List.map_congr_left fun i inside => ?_
  have below := List.mem_range.mp inside
  apply UInt8.toNat_inj.mp
  rw [UInt8.toNat_ofNat', UInt8.toNat_ofNat', UInt64.toNat_ofNat']
  have split : 2 ^ 64 = 256 ^ i * 256 ^ (8 - i) := by
    rw [← Nat.pow_add, Nat.add_sub_cancel' (Nat.le_of_lt below)]
    rfl
  have byte : 2 ^ 8 ∣ 256 ^ (8 - i) := dvd_pow_self 256 (Nat.sub_ne_zero_of_lt below)
  rw [split, Nat.mod_mul_right_div_self, Nat.mod_mod_of_dvd _ byte]

variable {argv : List (List UInt8)} {block wrapper entryPoint : Nat} {done : Setup}

/-- The frame of `processStackFrame` is the context of the new process. -/
theorem entry_words :
    (frame wrapper (block + stackSize - (arraySize argv + below argv argv.length)) entryPoint
      argv.length (if argv = [] then 0 else block + stackSize - arraySize argv)).reverse.flatMap
        word = (contextWords (entryCpu wrapper entryPoint block argv)).reverse.flatMap word := by
  unfold contextWords entryCpu frame
  simp only [List.reverse_cons, List.reverse_nil, List.flatMap_append, List.flatMap_singleton,
    word_ofNat]
  rfl

theorem entryCpu_rsp (wrapper entryPoint : Nat) (argv : List (List UInt8))
    (small : block + stackSize < 2 ^ 64) :
    (entryCpu wrapper entryPoint block argv).rsp.toNat =
      block + stackSize - (arraySize argv + below argv argv.length) :=
  UInt64.toNat_ofNat_of_lt' (show _ < 2 ^ 64 by omega)

/-- The context of a new process fits on its stack. -/
theorem entryCpu_room (small : block + stackSize < 2 ^ 64) (fits : ProcessStack.Fits argv block) :
    block + 160 ≤ (entryCpu wrapper entryPoint block argv).rsp.toNat / 16 * 16 ∧
      (entryCpu wrapper entryPoint block argv).rsp.toNat ≤ block + stackSize := by
  rw [entryCpu_rsp _ _ _ small]
  exact ⟨fits, Nat.sub_le _ _⟩

/-- What `setupProcessStack` leaves is a stored context. -/
theorem setupProcessStack_context {m : Bytes} (small : block + stackSize < 2 ^ 64)
    (granted : block ≠ 0) (fits : ProcessStack.Fits argv block)
    (built : setupProcessStack wrapper block entryPoint argv m = some done) :
    done.memory.Holds (contextAddress (entryCpu wrapper entryPoint block argv))
      ((contextWords (entryCpu wrapper entryPoint block argv)).reverse.flatMap word) := by
  obtain ⟨_, countable, short⟩ := fits.numbers
  unfold ProcessStack.Fits at fits
  have params := copyArgs_paramsBase (m := m) countable short small
  rw [toU64_sub (by omega) small] at params
  have vector : (copyArgsToProcessStack (block + stackSize) argv m).1 =
      if argv = [] then 0 else block + stackSize - arraySize argv := by
    by_cases empty : argv = []
    · rw [if_pos empty, empty]
      rfl
    · rw [if_neg empty, copyArgs_of_ne empty short]
      exact toU64_sub (by omega) small
  unfold setupProcessStack at built
  rw [if_neg granted] at built
  dsimp only at built
  rw [Nat.mod_eq_of_lt small, params, vector] at built
  rw [← Option.some.inj built, ← entry_words]
  unfold contextAddress
  rw [entryCpu_rsp _ _ _ small]
  have top : block + stackSize - (arraySize argv + below argv argv.length) < 2 ^ 64 := by omega
  generalize (copyArgsToProcessStack (block + stackSize) argv m).2.2 = middle
  generalize block + stackSize - (arraySize argv + below argv argv.length) = start at fits top ⊢
  generalize (if argv = [] then 0 else block + stackSize - arraySize argv) = newArgv
  have framed : Framed (frame wrapper start entryPoint argv.length newArgv) start _ middle _ :=
    processStackFrame_framed (by omega) top
  have holds := framed.holds
  rw [framed.lowest] at holds
  exact holds

end SoKernel.Interrupts
