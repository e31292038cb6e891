import SoKernel.Kernel.Pipe
import SoKernel.Kernel.TextModule

namespace SoKernel.Descriptors

/-! ## `syscall_read` and `syscall_write` of `syscallDispatcher.c` -/

/-- An `int` that becomes a `uint64_t`. -/
def toUnsigned (value : Int) : UInt64 := .ofInt value

def white : UInt32 := 0x00FFFFFF
def red : UInt32 := 0x00FF0000

/-- Where the bytes go to, or come from. -/
inductive Target where
  | pipe (id : Int)
  | screen (color : UInt32)
  /-- The call returns -1. -/
  | refused
deriving DecidableEq, Repr

/-- The `switch` of `syscall_write`, for a caller with these descriptors. -/
def writeTarget (fd : UInt64) (stdin stdout : Int) : Target :=
  let fd := if fd = 1 then toUnsigned stdout else if fd = 0 then toUnsigned stdin else fd
  let color := if fd = 1 then white else red
  if fd = 0 then .pipe 0
  else if fd = 1 ∨ fd = 2 then .screen color
  else if UInt64.ofNat (3 + maxPipes) ≤ fd then .refused
  else .pipe fd.toNat

/-- `syscall_read`. -/
def readTarget (fd : UInt64) (stdin : Int) : Target :=
  if UInt64.ofNat (3 + maxPipes) ≤ fd then .refused
  else if fd = 0 then
    if toUnsigned stdin = toUnsigned (-1) then .refused else .pipe stdin
  else .pipe fd.toNat

/-- `-1` as a `char`; a write to the screen stops there. -/
def minusOne : UInt8 := 0xFF

def shown (text : List UInt8) : List UInt8 := text.takeWhile fun c => c ≠ minusOne

/-- The calls of `putChar` in the loop. -/
def screenCalls (color : UInt32) (text : List UInt8) : List TextModule.Call :=
  (shown text).map fun c => .putChar c color

/-- What a write puts on the screen. -/
def written (fd : UInt64) (stdin stdout : Int) (text : List UInt8) : List TextModule.Call :=
  match writeTarget fd stdin stdout with
  | .screen color => screenCalls color text
  | .pipe _ | .refused => []

end SoKernel.Descriptors
