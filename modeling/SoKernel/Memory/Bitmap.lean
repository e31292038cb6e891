import SoKernel.Memory.Buddy

namespace SoKernel.Bitmap
open Buddy

/-! ## `bitmapMemoryManager.c` -/

def blockSize : Nat := 64

/-- Arithmetic on `uint32_t`. -/
def u32 (value : Nat) : Nat := value % 2 ^ 32

/-- `a - b` on `uint32_t`. -/
def sub32 (a b : Nat) : Nat := u32 (a + 2 ^ 32 - b)

inductive Entry where
  | free | used | startBoundary | endBoundary | singleBlock
deriving DecidableEq, Repr

/-- `mm`; the bitmap has an entry for each block, and nothing else of memory may be read or
written through it. -/
structure Mm where
  start : Nat
  blockQty : Nat
  blocksUsed : Nat
  bitmap : List Entry
  current : Nat

/-- `bitmap` is a `uint32_t *`: its arithmetic counts entries of four bytes. -/
def createMemoryManager : Mm :=
  let blockQty := u32 heapSize / blockSize
  let bitMapSize := blockQty / blockSize
  { start := heapStartAddress + 4 * (bitMapSize * blockSize)
    blockQty := blockQty
    blocksUsed := 0
    bitmap := List.replicate blockQty .free
    current := 0 }

def sizeToBlockQty (size : Nat) : Nat :=
  if size % blockSize ≠ 0 then size / blockSize + 1 else size / blockSize

namespace Mm

def blockAddress (m : Mm) (i : Nat) : Nat := m.start + u32 (i * blockSize)

/-- `none` where the bitmap has no such entry. -/
def write (m : Mm) (i : Nat) (entry : Entry) : Option Mm :=
  if i < m.bitmap.length then some { m with bitmap := m.bitmap.set i entry } else none

/-- The loop of `findFreeBlocks`, with `left` entries still to be seen. -/
def findFreeFrom (m : Mm) (blocksNeeded : Nat) : Nat → Nat → Nat → Option Nat
  | 0, freeBlocks, i =>
    some (if freeBlocks = blocksNeeded then m.blockAddress (i + 1 - blocksNeeded) else 0)
  | left + 1, freeBlocks, i =>
    match m.bitmap[i]? with
    | none => none
    | some .free =>
      if freeBlocks + 1 = blocksNeeded then some (m.blockAddress (i + 1 - blocksNeeded))
      else m.findFreeFrom blocksNeeded left (freeBlocks + 1) (i + 1)
    | some _ => m.findFreeFrom blocksNeeded left 0 (i + 1)

def findFreeBlocks (m : Mm) (blocksNeeded start stop : Nat) : Option Nat :=
  m.findFreeFrom blocksNeeded (stop - start) 0 start

/-- The loop of `markGroupAsUsed`. -/
def markUsed (index : Nat) : Nat → Nat → Mm → Option Mm
  | 0, _, m => some m
  | left + 1, i, m =>
    match ({ m with blocksUsed := u32 (m.blocksUsed + 1) } : Mm).write (u32 (index + i)) .used with
    | none => none
    | some m => markUsed index left (i + 1) m

def markGroupAsUsed (m : Mm) (blocksNeeded index : Nat) : Option (Nat × Mm) := do
  let m ← m.write index .startBoundary
  let m ← m.write (u32 (index + blocksNeeded - 1)) .endBoundary
  let m ← markUsed index (blocksNeeded - 2) 1 { m with blocksUsed := u32 (m.blocksUsed + 2) }
  some (m.blockAddress index, m)

/-- The two searches of `allocMemory`: from `current`, then from the start. -/
def nextFit (m : Mm) (blocksNeeded : Nat) : Option Nat := do
  let initialBlockAddress ← m.findFreeBlocks blocksNeeded m.current m.blockQty
  if initialBlockAddress = 0 then m.findFreeBlocks blocksNeeded 0 m.blockQty
  else some initialBlockAddress

/-- The address is 0 where there is no room; `none` where the bitmap is left. -/
def allocMemory (m : Mm) (memoryToAllocate : Nat) : Option (Nat × Mm) :=
  let blocksNeeded := sizeToBlockQty (u32 memoryToAllocate)
  if sub32 m.blockQty m.blocksUsed < blocksNeeded then some (0, m)
  else do
    let initialBlockAddress ← m.nextFit blocksNeeded
    if initialBlockAddress = 0 then some (0, m)
    else
      let offset := initialBlockAddress - m.start
      let m := { m with current := u32 (sizeToBlockQty (u32 offset) + blocksNeeded) }
      if blocksNeeded = 1 then
        let m ← m.write (offset / blockSize) .singleBlock
        some (initialBlockAddress, { m with blocksUsed := u32 (m.blocksUsed + 1) })
      else m.markGroupAsUsed blocksNeeded (u32 (offset / blockSize))

/-- The loop of `freeMemory` that looks for the end of the group. -/
def freeGroup (blockIndex : Nat) : Nat → Nat → Mm → Option Mm
  | 0, _, _ => none
  | left + 1, blocksToFree, m =>
    match m.bitmap[u32 (blockIndex + blocksToFree)]? with
    | none => none
    | some .endBoundary =>
      (m.write (u32 (blockIndex + blocksToFree)) .free).map fun m =>
        { m with blocksUsed := sub32 m.blocksUsed (blocksToFree + 1) }
    | some _ =>
      match m.write (u32 (blockIndex + blocksToFree)) .free with
      | none => none
      | some m => freeGroup blockIndex left (blocksToFree + 1) m

def freeMemory (m : Mm) (memory : Nat) : Option Mm :=
  if memory = 0 ∨ memory % blockSize ≠ 0 then some m
  else
    let blockIndex := u32 (u64 (memory + 2 ^ 64 - m.start) / blockSize)
    match m.bitmap[blockIndex]? with
    | none => none
    | some .singleBlock =>
      (m.write blockIndex .free).map fun m => { m with blocksUsed := sub32 m.blocksUsed 1 }
    | some .startBoundary => freeGroup blockIndex (m.bitmap.length + 1) 0 m
    | some _ => some m

end Mm

end SoKernel.Bitmap
