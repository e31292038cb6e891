import SoKernel.Lib.LittleEndian

namespace SoKernel.ModulePacker
open Lib

/-! ## `Toolchain/ModulePacker/modulePacker.c`

The files were all found readable by `checkFiles`. -/

def BUFFER_SIZE : Nat := 128

/-- A file opened for reading: what was not read yet, and the end-of-file indicator. -/
structure Source where
  rest : List UInt8
  atEnd : Bool

def fopen (content : List UInt8) : Source := ⟨content, false⟩

/-- A read that comes back short sets the indicator. -/
def fread (count : Nat) (source : Source) : List UInt8 × Source :=
  (source.rest.take count, ⟨source.rest.drop count, source.atEnd || source.rest.length < count⟩)

/-- What bounds the reads still to come. -/
def Source.remaining (source : Source) : Nat :=
  if source.atEnd then 0 else source.rest.length + 1

theorem fread_remaining {source : Source} (going : ¬ source.atEnd = true) :
    (fread BUFFER_SIZE source).2.remaining < source.remaining := by
  obtain ⟨rest, atEnd⟩ := source
  cases atEnd with
  | true => exact absurd rfl going
  | false =>
    unfold Source.remaining fread
    have positive : 0 < BUFFER_SIZE := by decide
    by_cases short : rest.length < BUFFER_SIZE
    · simp [short]
    · simp only [short, decide_false, Bool.or_self, Bool.false_eq_true, if_false, List.length_drop]
      omega

/-- `while (!feof(source))`. -/
def write_file (target : List UInt8) (source : Source) : List UInt8 :=
  if source.atEnd then target
  else
    let result := fread BUFFER_SIZE source
    write_file (target ++ result.1) result.2
termination_by source.remaining
decreasing_by exact fread_remaining ‹_›

/-- `sizeof(uint32_t)`, and the size of the `int` that counts the modules. -/
def sizeField : Nat := 4

/-- The size as a `uint32_t`. -/
def write_size (target : List UInt8) (content : List UInt8) : List UInt8 :=
  target ++ littleEndian sizeField content.length

/-- `array[0]` is the kernel, the others are the modules. -/
def buildImage (kernel : List UInt8) (modules : List (List UInt8)) : List UInt8 :=
  let target := write_file [] (fopen kernel)
  let target := target ++ littleEndian sizeField modules.length
  modules.foldl (fun target module => write_file (write_size target module) (fopen module)) target

/-! ## What the image holds -/

variable {content target kernel payload : List UInt8} {modules : List (List UInt8)}

/-- The loop over the buffer copies the whole file. -/
theorem write_file_content (source : Source) (going : source.atEnd = false) :
    write_file target source = target ++ source.rest := by
  induction target, source using write_file.induct with
  | case1 target source ended => simp [going] at ended
  | case2 target source _ result ih =>
    rw [write_file, if_neg (by simp [going])]
    by_cases short : source.rest.length < BUFFER_SIZE
    · have ended : (fread BUFFER_SIZE source).2.atEnd = true := by simp [fread, short]
      rw [write_file, if_pos ended]
      dsimp only [fread]
      rw [List.take_of_length_le (by omega)]
    · rw [ih (by simp [result, fread, short, going])]
      dsimp only [result, fread]
      rw [List.append_assoc, List.take_append_drop]

/-- A module as it stands in the image: its size, then its bytes. -/
def packed (module : List UInt8) : List UInt8 := littleEndian sizeField module.length ++ module

/-- What follows the kernel in the image. -/
def payloadOf (modules : List (List UInt8)) : List UInt8 :=
  littleEndian sizeField modules.length ++ modules.flatMap packed

@[simp] theorem packed_length (module : List UInt8) :
    (packed module).length = sizeField + module.length := by simp [packed]

theorem foldl_packed (target : List UInt8) : modules.foldl
    (fun target module => write_file (write_size target module) (fopen module)) target =
      target ++ modules.flatMap packed := by
  induction modules generalizing target with
  | nil => simp
  | cons module modules ih =>
    rw [List.foldl_cons, ih, write_file_content (fopen module) rfl]
    simp [write_size, fopen, packed]

theorem buildImage_eq : buildImage kernel modules = kernel ++ payloadOf modules := by
  rw [buildImage, foldl_packed, write_file_content (fopen kernel) rfl]
  simp [fopen, payloadOf]

end SoKernel.ModulePacker
