import SoKernel.Boot.ModulePacker
import SoKernel.Kernel.MemoryRoutines

namespace SoKernel.ModuleLoader
open Lib Routines ModulePacker

/-! ## `moduleLoader.c` -/

/-- The number, and the address behind it. -/
def readUint32 (address : Nat) (m : Bytes) : Nat × Nat :=
  (ofLittleEndian (m.fetch address wordSize), address + wordSize)

/-- The next module, and memory with this one in place. -/
def loadModule (module targetModuleAddress : Nat) (m : Bytes) : Nat × Bytes :=
  let (moduleSize, module) := readUint32 module m
  (module + moduleSize, memcpy targetModuleAddress module moduleSize m)

/-- The loop of `loadModules`, from index `i` on. -/
def loadFrom (targetModuleAddress : Nat → Nat) : Nat → Nat → Nat → Bytes → Bytes
  | 0, _, _, m => m
  | remaining + 1, i, currentModule, m =>
    let (currentModule, m) := loadModule currentModule (targetModuleAddress i) m
    loadFrom targetModuleAddress remaining (i + 1) currentModule m

def loadModules (payloadStart : Nat) (targetModuleAddress : Nat → Nat) (m : Bytes) : Bytes :=
  let (moduleCount, currentModule) := readUint32 payloadStart m
  loadFrom targetModuleAddress moduleCount 0 currentModule m

/-! ## What the packer wrote, the loader finds -/

/-- The places of the modules lie apart from what is read, `[low, high)`, and from each other. -/
structure Placed (target : Nat → Nat) (low high : Nat) (modules : List (List UInt8)) : Prop where
  fits : ∀ i (inside : i < modules.length), target i + modules[i].length ≤ 2 ^ 64
  clear : ∀ i (inside : i < modules.length),
    target i + modules[i].length ≤ low ∨ high ≤ target i
  apart : ∀ i j (inside : i < modules.length) (inside' : j < modules.length), i ≠ j →
    target i + modules[i].length ≤ target j ∨ target j + modules[j].length ≤ target i

/-- The address belongs to no place. -/
def Outside (target : Nat → Nat) (modules : List (List UInt8)) (x : Nat) : Prop :=
  ∀ i (inside : i < modules.length), x < target i ∨ target i + modules[i].length ≤ x

/-- Every module is in its place, and nothing else changed. -/
structure Loaded (target : Nat → Nat) (modules : List (List UInt8)) (m m' : Bytes) : Prop where
  arrived : ∀ i (inside : i < modules.length), m'.Holds (target i) modules[i]
  other : ∀ x, Outside target modules x → m' x = m x

variable {target : Nat → Nat} {low high base c i n : Nat} {m : Bytes}
variable {kernel module : List UInt8} {modules : List (List UInt8)}

theorem Placed.tail (placed : Placed target low high (module :: modules)) :
    Placed (fun i => target (i + 1)) low high modules where
  fits i inside := placed.fits (i + 1) (by simpa using inside)
  clear i inside := placed.clear (i + 1) (by simpa using inside)
  apart i j inside inside' different :=
    placed.apart (i + 1) (j + 1) (by simpa using inside) (by simpa using inside') (by omega)

theorem outside_cons {x : Nat} : Outside target (module :: modules) x ↔
    (x < target 0 ∨ target 0 + module.length ≤ x) ∧
      Outside (fun i => target (i + 1)) modules x := by
  constructor
  · intro outside
    exact ⟨outside 0 (by simp), fun i inside => outside (i + 1) (by simpa using inside)⟩
  · rintro ⟨first, rest⟩ i inside
    cases i with
    | zero => exact first
    | succ i => exact rest i (by simpa using inside)

theorem loadFrom_shift : loadFrom target n (i + 1) c m =
    loadFrom (fun i => target (i + 1)) n i c m := by
  induction n generalizing i c m with
  | zero => rfl
  | succ n ih =>
    rw [loadFrom, loadFrom]
    exact ih

theorem readUint32_littleEndian {value : Nat} (small : value < 2 ^ 32)
    (holds : m.Holds c (littleEndian sizeField value)) :
    readUint32 c m = (value, c + wordSize) := by
  have bytes := Bytes.fetch_of_holds holds
  rw [littleEndian_length] at bytes
  have number : value % 256 ^ sizeField = value := Nat.mod_eq_of_lt small
  rw [readUint32, show wordSize = sizeField from rfl, bytes, ofLittleEndian_littleEndian, number]

theorem loadModule_packed (small : module.length < 2 ^ 32) (holds : m.Holds c (packed module))
    (target : Nat) : loadModule c target m =
      (c + (packed module).length, memcpy target (c + sizeField) module.length m) := by
  unfold packed at holds
  rw [loadModule, readUint32_littleEndian small (Bytes.holds_append.mp holds).1]
  dsimp only
  rw [packed_length, ← Nat.add_assoc]
  rfl

/-- What is still packed from `c` on goes to its places. -/
theorem loadFrom_loaded (small : ∀ module ∈ modules, module.length < 2 ^ 32)
    (packing : m.Holds c (modules.flatMap packed)) (after : low ≤ c)
    (before : c + (modules.flatMap packed).length ≤ high) (bounded : high ≤ 2 ^ 64)
    (placed : Placed target low high modules) :
    Loaded target modules m (loadFrom target modules.length 0 c m) := by
  induction modules generalizing m c target with
  | nil => exact ⟨fun i inside => absurd inside (Nat.not_lt_zero i), fun _ _ => rfl⟩
  | cons module modules ih =>
    rw [List.flatMap_cons, List.length_append, packed_length] at before
    rw [List.flatMap_cons, Bytes.holds_append, packed_length] at packing
    have bytes := packing.1
    unfold packed at bytes
    rw [Bytes.holds_append, littleEndian_length] at bytes
    have room : target 0 + module.length ≤ 2 ^ 64 := placed.fits 0 (by simp)
    have clear : target 0 + module.length ≤ low ∨ high ≤ target 0 := placed.clear 0 (by simp)
    have moved : Bytes.Moved (target 0) (c + sizeField) module.length m
        (memcpy (target 0) (c + sizeField) module.length m) :=
      memcpy_moved room (by omega) (by unfold Forward; omega) m
    have first := moved.holds bytes.2 room (by omega)
    have rest : (memcpy (target 0) (c + sizeField) module.length m).Holds
        (c + (packed module).length) (modules.flatMap packed) := by
      rw [packed_length]
      exact packing.2.congr (by omega) fun x _ _ => moved.other x (by omega)
    have loaded := ih (fun other member => small other (List.mem_cons_of_mem _ member)) rest
      (by rw [packed_length]; omega) (by rw [packed_length]; omega) placed.tail
    have step : loadFrom target (module :: modules).length 0 c m =
        loadFrom (fun i => target (i + 1)) modules.length 0 (c + (packed module).length)
          (memcpy (target 0) (c + sizeField) module.length m) := by
      rw [List.length_cons, loadFrom, loadModule_packed (small module List.mem_cons_self) packing.1]
      exact loadFrom_shift
    rw [step]
    constructor
    · intro i inside
      cases i with
      | zero =>
        refine first.congr room fun x low high => loaded.other x fun i inside' => ?_
        have apart := placed.apart 0 (i + 1) (by simp) (by simpa using inside') (by omega)
        simp only [List.getElem_cons_zero, List.getElem_cons_succ] at apart high
        dsimp only
        omega
      | succ i => exact loaded.arrived i (by simpa using inside)
    · intro x outside
      obtain ⟨here, there⟩ := outside_cons.mp outside
      rw [loaded.other x there, moved.other x here]

/-- Every module of an image that the packer built is loaded, whole and in its place. -/
theorem packed_modules_loaded (small : ∀ module ∈ modules, module.length < 2 ^ 32)
    (few : modules.length < 2 ^ 31) (image : m.Holds base (buildImage kernel modules))
    (fits : base + (buildImage kernel modules).length ≤ 2 ^ 64)
    (placed : Placed target (base + kernel.length) (base + (buildImage kernel modules).length)
      modules) :
    Loaded target modules m (loadModules (base + kernel.length) target m) := by
  rw [buildImage_eq] at image fits placed
  unfold payloadOf at image fits placed
  rw [Bytes.holds_append, Bytes.holds_append, littleEndian_length] at image
  simp only [List.length_append, littleEndian_length] at fits placed
  rw [loadModules, readUint32_littleEndian (by omega) image.2.1]
  have same : wordSize = sizeField := rfl
  exact loadFrom_loaded small image.2.2 (by omega) (by omega) fits placed

/-- Memory with an image at an address, and zeros elsewhere. -/
def imageAt (base : Nat) (kernel : List UInt8) (modules : List (List UInt8)) : Bytes :=
  Bytes.storeAll (fun _ => 0) base (buildImage kernel modules)

theorem imageAt_holds (fits : base + (buildImage kernel modules).length ≤ 2 ^ 64) :
    (imageAt base kernel modules).Holds base (buildImage kernel modules) :=
  Bytes.holds_storeAll fits

def twoModules : List (List UInt8) := [[1, 2, 3], [4]]

theorem twoModules_short (i : Nat) (inside : i < twoModules.length) :
    i < 2 ∧ twoModules[i].length ≤ 3 := by
  match i with
  | 0 => exact ⟨by decide, Nat.le_refl 3⟩
  | 1 => exact ⟨by decide, Nat.le_add_left 1 2⟩
  | i + 2 => exact absurd inside (by simp [twoModules])

/-- A kernel of two bytes with two modules. -/
theorem two_modules_loaded : Loaded (fun i => 0x400000 + 0x100000 * i) twoModules
    (imageAt 0x100000 [7, 8] twoModules)
    (loadModules (0x100000 + 2) (fun i => 0x400000 + 0x100000 * i)
      (imageAt 0x100000 [7, 8] twoModules)) := by
  have size : (buildImage [7, 8] twoModules).length = 18 := by
    rw [buildImage_eq]
    decide
  refine packed_modules_loaded (by decide) (by decide)
    (imageAt_holds (by rw [size]; decide)) (by rw [size]; decide) ?_
  rw [size]
  constructor
  · intro i inside
    have bound := twoModules_short i inside
    omega
  · intro i inside
    right
    show 0x100000 + 18 ≤ 0x400000 + 0x100000 * i
    omega
  · intro i j inside inside' different
    have bound := twoModules_short i inside
    have bound' := twoModules_short j inside'
    omega

end SoKernel.ModuleLoader
