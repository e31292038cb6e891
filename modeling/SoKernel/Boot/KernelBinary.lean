import SoKernel.Boot.ModuleLoader

namespace SoKernel.KernelBinary
open Lib Routines ModulePacker ModuleLoader

/-! ## `kernel.c`, up to `main` -/

/-- `.text` of the kernel starts here, and the image is read to this address. -/
def text : Nat := 0x100000

def sampleCodeModuleAddress : Nat := 0x400000

def sampleDataModuleAddress : Nat := 0x500000

/-- The symbols of `kernel.ld`, in their order. -/
structure Layout where
  endOfKernelBinary : Nat
  bss : Nat
  endOfKernel : Nat
  afterText : text ≤ endOfKernelBinary
  afterData : endOfKernelBinary ≤ bss
  afterBss : bss ≤ endOfKernel

def clearBSS (bssAddress bssSize : Nat) (m : Bytes) : Bytes := memset bssAddress 0 bssSize m

def PageSize : Nat := 0x1000

def getStackBase (layout : Layout) : Nat := layout.endOfKernel + PageSize * 8 - 8

/-- The array of two addresses; `behind` is what stands behind it. -/
def moduleAddresses (behind : Nat → Nat) : Nat → Nat
  | 0 => sampleCodeModuleAddress
  | 1 => sampleDataModuleAddress
  | i + 2 => behind i

def initializeKernelBinary (layout : Layout) (behind : Nat → Nat) (m : Bytes) : Nat × Bytes :=
  let m := loadModules layout.endOfKernelBinary (moduleAddresses behind) m
  let m := clearBSS layout.bss (layout.endOfKernel - layout.bss) m
  (getStackBase layout, m)

/-! ## `_loader.c`, up to `main` of the shell -/

/-- The symbols of the linker script of the sample code module. -/
structure UserLayout where
  bss : Nat
  endOfBinary : Nat
  afterBss : bss ≤ endOfBinary

def _start (layout : UserLayout) (m : Bytes) : Bytes :=
  memset layout.bss 0 (layout.endOfBinary - layout.bss) m

/-! ## From the image on disk to the shell -/

/-- The addresses from `low` on and below `high` are zero. -/
def Zero (low high : Nat) (m : Bytes) : Prop := ∀ x, low ≤ x → x < high → m x = 0

/-- Memory when `initializeKernelBinary` and the shell's `_start` have run; what `main` writes between
the two is left out. -/
structure Ready (kernel code data : List UInt8) (layout : Layout) (user : UserLayout)
    (m : Bytes) : Prop where
  kernel : m.Holds text kernel
  code : m.Holds sampleCodeModuleAddress code
  data : m.Holds sampleDataModuleAddress data
  kernelBss : Zero layout.bss layout.endOfKernel m
  userBss : Zero user.bss user.endOfBinary m

variable {layout : Layout} {user : UserLayout} {behind : Nat → Nat} {m m' : Bytes}
variable {kernel code data : List UInt8} {low high : Nat}

theorem zero_memset (ordered : low ≤ high) (fits : high ≤ 2 ^ 64) :
    Zero low high (memset low 0 (high - low) m) :=
  fun x lower upper => memset_fills (by omega) lower (by omega)

/-- Clearing apart from the bytes leaves them. -/
theorem holds_memset {a : Nat} {bytes : List UInt8} (holds : m.Holds a bytes)
    (room : a + bytes.length ≤ 2 ^ 64) (ordered : low ≤ high) (fits : high ≤ 2 ^ 64)
    (apart : a + bytes.length ≤ low ∨ high ≤ a) :
    (memset low 0 (high - low) m).Holds a bytes :=
  holds.congr room fun _ lower upper => memset_other (by omega) (by omega)

/-- Where things are. -/
theorem addresses : text = 0x100000 ∧ sampleCodeModuleAddress = 0x400000 ∧
    sampleDataModuleAddress = 0x500000 := ⟨rfl, rfl, rfl⟩

theorem index_cases {i : Nat} (inside : i < [code, data].length) : i = 0 ∨ i = 1 := by
  simp only [List.length_cons, List.length_nil] at inside
  omega

theorem modules_placed (behind : Nat → Nat) (start : Nat) (fits : high ≤ sampleCodeModuleAddress)
    (room : code.length ≤ sampleDataModuleAddress - sampleCodeModuleAddress)
    (small : data.length < 2 ^ 32) : Placed (moduleAddresses behind) start high [code, data] := by
  obtain ⟨_, first, second⟩ := addresses
  have place : moduleAddresses behind 0 = sampleCodeModuleAddress := rfl
  have place' : moduleAddresses behind 1 = sampleDataModuleAddress := rfl
  constructor
  · intro i inside
    rcases index_cases inside with rfl | rfl
    · rw [List.getElem_cons_zero]
      omega
    · rw [List.getElem_cons_succ, List.getElem_cons_zero]
      omega
  · intro i inside
    rcases index_cases inside with rfl | rfl <;> omega
  · intro i j inside inside' different
    rcases index_cases inside with rfl | rfl <;> rcases index_cases inside' with rfl | rfl
    · exact absurd rfl different
    · rw [List.getElem_cons_zero, List.getElem_cons_succ, List.getElem_cons_zero]
      omega
    · rw [List.getElem_cons_zero, List.getElem_cons_succ, List.getElem_cons_zero]
      omega
    · exact absurd rfl different

/-- The kernel's `.bss` lies over the packed modules, and is cleared after they were moved. -/
theorem shell_ready (user : UserLayout) (behind : Nat → Nat)
    (binary : layout.endOfKernelBinary = text + kernel.length)
    (image : m.Holds text (buildImage kernel [code, data]))
    (fits : text + (buildImage kernel [code, data]).length ≤ sampleCodeModuleAddress)
    (below : layout.endOfKernel ≤ sampleCodeModuleAddress)
    (room : code.length ≤ sampleDataModuleAddress - sampleCodeModuleAddress)
    (small : data.length < 2 ^ 32) (userBss : sampleCodeModuleAddress + code.length ≤ user.bss)
    (userEnd : user.endOfBinary ≤ sampleDataModuleAddress) :
    Ready kernel code data layout user
      (_start user (initializeKernelBinary layout behind m).2) := by
  obtain ⟨start, first, second⟩ := addresses
  have lengths : ∀ module ∈ [code, data], module.length < 2 ^ 32 := by
    intro module member
    rcases List.mem_cons.mp member with rfl | member
    · omega
    · rw [List.mem_singleton.mp member]
      exact small
  have few : [code, data].length < 2 ^ 31 := by
    rw [List.length_cons, List.length_singleton]
    decide
  have loaded := packed_modules_loaded lengths few image (by omega)
    (modules_placed behind _ fits room small)
  rw [← binary] at loaded
  have code' := loaded.arrived 0 (by simp)
  have data' := loaded.arrived 1 (by simp)
  rw [buildImage_eq, List.length_append] at fits
  rw [buildImage_eq, Bytes.holds_append] at image
  have afterText := layout.afterText
  have afterData := layout.afterData
  have afterBss := layout.afterBss
  have userOrder := user.afterBss
  have kernel' : (loadModules layout.endOfKernelBinary (moduleAddresses behind) m).Holds
      text kernel := by
    refine image.1.congr (by omega) fun x lower upper => loaded.other x fun i inside => ?_
    have place : moduleAddresses behind 0 = sampleCodeModuleAddress := rfl
    have place' : moduleAddresses behind 1 = sampleDataModuleAddress := rfl
    rcases index_cases inside with rfl | rfl <;> omega
  unfold _start initializeKernelBinary clearBSS
  dsimp only
  constructor
  · exact holds_memset (holds_memset kernel' (by omega) afterBss (by omega) (by omega)) (by omega)
      userOrder (by omega) (by omega)
  · exact holds_memset (holds_memset code' (by omega) afterBss (by omega) (by omega)) (by omega)
      userOrder (by omega) (by omega)
  · exact holds_memset (holds_memset data' (by omega) afterBss (by omega) (by omega)) (by omega)
      userOrder (by omega) (by omega)
  · intro x lower upper
    rw [memset_other (by omega) (by omega)]
    exact zero_memset afterBss (by omega) x lower upper
  · exact zero_memset userOrder (by omega)

/-- A kernel whose `.bss` begins in the page of its modules. -/
def smallLayout : Layout where
  endOfKernelBinary := 0x100002
  bss := 0x100004
  endOfKernel := 0x102000
  afterText := by decide
  afterData := by decide
  afterBss := by decide

def smallUserLayout : UserLayout where
  bss := 0x401000
  endOfBinary := 0x402000
  afterBss := by decide

theorem small_shell_ready : Ready [7, 8] [1, 2, 3] [4] smallLayout smallUserLayout
    (_start smallUserLayout (initializeKernelBinary smallLayout id
      (imageAt text [7, 8] [[1, 2, 3], [4]])).2) := by
  have size : (buildImage [7, 8] [[1, 2, 3], [4]]).length = 18 := by
    rw [buildImage_eq]
    decide
  exact shell_ready smallUserLayout id (by decide) (imageAt_holds (by rw [size]; decide))
    (by rw [size]; decide) (by decide) (by decide) (by decide) (by decide) (by decide)

end SoKernel.KernelBinary
