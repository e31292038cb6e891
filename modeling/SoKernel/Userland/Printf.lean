import SoKernel.Lib.Appending
import SoKernel.Userland.SignedNumerals

namespace SoKernel.Printf
open Lib Numerals

/-! ## `format_printf` of `stdlib.c`

The strings lie in memory apart from `output`, an array of its own. -/

def MAX_LENGTH : Nat := 2000

def percent : UInt8 := 37

/-- The letters behind a `%`. -/
def letterD : UInt8 := 100
def letterL : UInt8 := 108
def letterS : UInt8 := 115
def letterC : UInt8 := 99
def letterX : UInt8 := 120
def letterP : UInt8 := 112

def zeroDigit : UInt8 := 48

/-- What `va_arg(args, int)` takes of a word. -/
def asInt (word : UInt64) : Int32 := word.toUInt32.toInt32

/-- The conversions that go through an array on the stack; it held anything before. -/
def convert (letter : UInt8) (word : UInt64) (str : Buffer UInt8) : Option (Buffer UInt8) :=
  if letter = letterD then signedIntToStr (asInt word) 0 str
  else if letter = letterX then
    (uintToBase (asInt word).toInt64.toUInt64 0 16 str).map Prod.snd
  else if letter = letterP then (uintToBase word 0 16 str).map Prod.snd
  else (uintToBase word 0 10 str).map Prod.snd

/-- `for (int j = 0; str[j] != 0; j++, k++) output[k] = str[j];`, at most `rounds` times. -/
def copyFrom (str : Nat → UInt8) : Nat → Nat → Nat → Buffer UInt8 → Option (Nat × Buffer UInt8)
  | 0, _, _, _ => none
  | rounds + 1, j, k, output =>
    if str j = 0 then some (k, output)
    else copyFrom str rounds (j + 1) (k + 1) (output.write k (str j))

/-- The number of arguments taken, `k`, and the array. -/
structure Printed where
  taken : Nat
  k : Nat
  output : Buffer UInt8

section
variable (memory : Nat → UInt8) (args : Nat → UInt64) (str : Buffer UInt8) (rounds : Nat)

/-- A numeral of the next argument. -/
def printConverted (letter : UInt8) (printed : Printed) : Option Printed :=
  (convert letter (args printed.taken) str).bind fun str =>
    (copyFrom str.char rounds 0 printed.k printed.output).map fun (k, output) =>
      ⟨printed.taken + 1, k, output⟩

/-- The `switch`. -/
def conversion (letter : UInt8) (printed : Printed) : Option Printed :=
  let { taken, k, output } := printed
  if letter = letterD ∨ letter = letterL ∨ letter = letterX then
    printConverted args str rounds letter printed
  else if letter = letterP then
    printConverted args str rounds letter
      ⟨taken, k + 2, (output.write k zeroDigit).write (k + 1) letterX⟩
  else if letter = letterS then
    (copyFrom (fun j => memory ((args taken).toNat + j)) rounds 0 k output).map fun (k, output) =>
      ⟨taken + 1, k, output⟩
  else if letter = letterC then some ⟨taken + 1, k + 1, output.write k (args taken).toUInt8⟩
  else some printed

/-- The loop over the format, at most `steps` times; `none` if it, or a copy, goes on. -/
def formatLoop (format : Nat) : Nat → Nat → Printed → Option Printed
  | 0, _, _ => none
  | steps + 1, i, printed =>
    let c := memory (format + i)
    let next := memory (format + i + 1)
    if c = 0 then some printed
    else if c = percent ∧ next ≠ 0 then
      (conversion memory args str rounds next printed).bind (formatLoop format steps (i + 2))
    else
      formatLoop format steps (i + 1)
        { printed with k := printed.k + 1, output := printed.output.write printed.k c }

end

/-! ## What a format stands for -/

/-- The digits that a conversion writes. -/
def converted (letter : UInt8) (word : UInt64) : List UInt8 :=
  if letter = letterD then
    signOf (asInt word) ++ (numeral 10 (magnitude (asInt word))).map figure
  else if letter = letterX then
    (numeral 16 (asInt word).toInt64.toUInt64.toNat).map figure
  else if letter = letterP then (numeral 16 word.toNat).map figure
  else (numeral 10 word.toNat).map figure

/-- The letter takes an argument. -/
def Takes (letter : UInt8) : Prop :=
  letter = letterD ∨ letter = letterL ∨ letter = letterX ∨ letter = letterP ∨ letter = letterS ∨
    letter = letterC

instance (letter : UInt8) : Decidable (Takes letter) := inferInstanceAs (Decidable (_ ∨ _))

/-- The text for a letter and the next argument; a letter without a meaning stands for nothing. -/
def piece (strings : UInt64 → List UInt8) (letter : UInt8) (word : UInt64) : List UInt8 :=
  if letter = letterD ∨ letter = letterL ∨ letter = letterX then converted letter word
  else if letter = letterP then [zeroDigit, letterX] ++ converted letter word
  else if letter = letterS then strings word
  else if letter = letterC then [word.toUInt8]
  else []

/-- The text of a format, the arguments being those from `taken` on. -/
def rendering (strings : UInt64 → List UInt8) (args : Nat → UInt64) :
    List UInt8 → Nat → List UInt8
  | [], _ => []
  | [c], _ => [c]
  | c :: letter :: rest, taken =>
    if c = percent then
      piece strings letter (args taken) ++
        rendering strings args rest (if Takes letter then taken + 1 else taken)
    else c :: rendering strings args (letter :: rest) taken

/-- The strings that the format asks for. -/
def pointers (args : Nat → UInt64) : List UInt8 → Nat → List UInt64
  | [], _ => []
  | [_], _ => []
  | c :: letter :: rest, taken =>
    if c = percent then
      (if letter = letterS then [args taken] else []) ++
        pointers args rest (if Takes letter then taken + 1 else taken)
    else pointers args (letter :: rest) taken

/-- A string stands in memory, with its terminator. -/
structure Stands (memory : Nat → UInt8) (address : Nat) (text : List UInt8) : Prop where
  chars : ∀ j (inside : j < text.length), memory (address + j) = text[j]
  ended : memory (address + text.length) = 0
  clean : 0 ∉ text

end SoKernel.Printf
