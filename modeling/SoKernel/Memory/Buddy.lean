import Mathlib.Tactic
import Mathlib.Logic.Function.Basic

namespace SoKernel

/-! Addresses are 64-bit values; address `0` is `NULL`. -/

/-- Result of a 64-bit unsigned operation. -/
def u64 (value : Nat) : Nat := value % 2 ^ 64

/-- `1ULL << count`; the hardware uses the count modulo 64. -/
def shiftOne (count : Nat) : Nat := 2 ^ (count % 64)

def heapStartAddress : Nat := 0x600000
def heapEndAddress : Nat := 512 * 1024 * 1024 - 1
def heapSize : Nat := heapEndAddress - heapStartAddress + 1
def memoryManagerAddress : Nat := 0x50000

namespace Buddy

def minBlockSize : Nat := 8
def maxLevel : Nat := 32
/-- `BLOCKS`: one free list per level. -/
def blockLists : Nat := maxLevel + 1
/-- `sizeof(BuddyBlock)`. -/
def headerSize : Nat := 24

/-- `enum state`; a stored value that is none of the three compares like `split`. -/
inductive BlockState where
  | free | split | allocated
deriving DecidableEq, Repr

inductive BuddyStatus where
  | ok | error
deriving DecidableEq, Repr

structure BuddyBlock where
  level : Nat
  blockState : BlockState
  next : Nat
  prev : Nat
deriving DecidableEq, Repr

structure MemoryManager where
  memoryForMemoryManager : Nat
  managedMemory : Nat
  memorySize : Nat
  usedMemory : Nat
  status : BuddyStatus
  blocks : Nat → Nat

/-- The static pointer, the structure it points to, and physical memory read as
a block header at each address. Headers of current blocks never overlap while each
block is as large as its header: their addresses are multiples of 32
(`Partition.aligned`). `Words` has the bytes of headers that do. -/
structure Heap where
  memoryManager : Nat
  manager : MemoryManager
  header : Nat → BuddyBlock

namespace Heap

def edit (heap : Heap) (block : Nat) (change : BuddyBlock → BuddyBlock) : Heap :=
  { heap with header := Function.update heap.header block (change (heap.header block)) }

def setNext (heap : Heap) (block value : Nat) : Heap :=
  heap.edit block fun header => { header with next := value }

def setPrev (heap : Heap) (block value : Nat) : Heap :=
  heap.edit block fun header => { header with prev := value }

def setState (heap : Heap) (block : Nat) (state : BlockState) : Heap :=
  heap.edit block fun header => { header with blockState := state }

def setManager (heap : Heap) (change : MemoryManager → MemoryManager) : Heap :=
  { heap with manager := change heap.manager }

/-- `memoryManager->blocks[level] = block`. -/
def setList (heap : Heap) (level : Nat) (block : Nat) : Heap :=
  heap.setManager fun manager =>
    { manager with blocks := Function.update manager.blocks level block }

/-- Put `block` in front of list `level`; the caller's four lines do not touch
`block->prev`. -/
def link (heap : Heap) (level : Nat) (block : Nat) : Heap :=
  let heap := heap.setNext block (heap.manager.blocks level)
  let heap := if heap.manager.blocks level ≠ 0
    then heap.setPrev (heap.manager.blocks level) block else heap
  heap.setList level block

/-- Take the head `block` off list `level` and clear its links. -/
def takeHead (heap : Heap) (level : Nat) (block : Nat) : Heap :=
  let heap := heap.setList level (heap.header block).next
  let heap := if (heap.header block).next ≠ 0
    then heap.setPrev (heap.header block).next 0 else heap
  (heap.setNext block 0).setPrev block 0

/-- Take `block` out of the middle of the list of its level. -/
def unlink (heap : Heap) (block : Nat) : Heap :=
  let heap := if (heap.header block).prev ≠ 0
    then heap.setNext (heap.header block).prev (heap.header block).next
    else heap.setList (heap.header block).level (heap.header block).next
  if (heap.header block).next ≠ 0
    then heap.setPrev (heap.header block).next (heap.header block).prev else heap

end Heap

/-- The loop `while (x /= 2) result++` of `log2`, with a `uint8_t` counter. -/
def log2Loop : Nat → Nat → Nat → Nat
  | 0, _, result => result
  | fuel + 1, x, result =>
    if x / 2 = 0 then result else log2Loop fuel (x / 2) ((result + 1) % 256)

/-- A 64-bit operand reaches zero in at most 64 halvings. -/
def log2 (x : Nat) : Nat := log2Loop 64 x 0

def initMemoryBlock (block : Nat) (level : Nat) (heap : Heap) : Heap :=
  heap.edit block fun _ => ⟨level, .free, 0, 0⟩

/-- `blocks[0]` keeps what the memory at `memoryManagerAddress` held before. -/
def createMemoryManager (heap : Heap) : Heap :=
  let heap := { heap with memoryManager := memoryManagerAddress }
  let heap := heap.setManager fun manager =>
    { manager with
      memoryForMemoryManager := memoryManagerAddress
      managedMemory := heapStartAddress
      memorySize := heapSize
      usedMemory := 0
      status := .ok }
  if heap.manager.managedMemory % minBlockSize ≠ 0 then
    heap.setManager fun manager => { manager with status := .error }
  else
    let heap := heap.setManager fun manager =>
      { manager with
        blocks := fun i => if 1 ≤ i ∧ i < blockLists then 0 else manager.blocks i }
    let rootBlockSize := shiftOne (log2 heap.manager.memorySize)
    let rootLevel := log2 rootBlockSize % 256
    let rootBlock := heap.manager.managedMemory
    (initMemoryBlock rootBlock rootLevel heap).setList rootLevel rootBlock

def memoryToLevel (memoryToAllocate : Nat) : Nat :=
  let level := log2 memoryToAllocate % 256
  if shiftOne level < memoryToAllocate then (level + 1) % 256 else level

/-- The header added, the minimum applied, rounded up to a power of two. -/
def requestSize (memoryToAllocate : Nat) : Nat :=
  let size := u64 (memoryToAllocate + headerSize)
  let size := if size < minBlockSize then minBlockSize else size
  if size &&& (size - 1) ≠ 0 then shiftOne (log2 size + 1) else size

/-- The right half of every split goes on its free list; the left half is split on. -/
def splitBlockToLevel (block : Nat) : Nat → Nat → Heap → Nat × Heap
  | 0, targetLevel, heap => (if 0 = targetLevel then block else 0, heap)
  | newLevel + 1, targetLevel, heap =>
    if newLevel + 1 ≤ targetLevel then
      (if newLevel + 1 = targetLevel then block else 0, heap)
    else
      let heap := heap.setState block .split
      let rightChild := u64 (block + shiftOne newLevel)
      let heap := initMemoryBlock rightChild newLevel (initMemoryBlock block newLevel heap)
      let heap := heap.link newLevel rightChild
      if newLevel = targetLevel then (block, heap)
      else splitBlockToLevel block newLevel targetLevel heap

/-- The loop of `findFreeBlock` over the levels from `i` up; `fuel` counts the
levels that are left. -/
def findInUpperLevels (level : Nat) : Nat → Nat → Heap → Nat × Heap
  | 0, _, heap => (0, heap)
  | fuel + 1, i, heap =>
    if i < blockLists then
      let block := heap.manager.blocks i
      if block ≠ 0 then
        let (result, heap) := splitBlockToLevel block i level (heap.takeHead i block)
        if result ≠ 0 then (result, heap)
        else findInUpperLevels level fuel (i + 1) (heap.link i block)
      else findInUpperLevels level fuel (i + 1) heap
    else (0, heap)

def findFreeBlock (level : Nat) (heap : Heap) : Nat × Heap :=
  let block := heap.manager.blocks level
  if block ≠ 0 then
    if (heap.header block).blockState ≠ .free then (0, heap)
    else (block, heap.takeHead level block)
  else findInUpperLevels level (blockLists - (level + 1)) (level + 1) heap

def allocMemory (memoryToAllocate : Nat) (heap : Heap) : Nat × Heap :=
  if heap.memoryManager = 0 ∨ heap.manager.status ≠ .ok then (0, heap)
  else
    let level := memoryToLevel (requestSize memoryToAllocate)
    if blockLists ≤ level then
      (0, heap.setManager fun manager => { manager with status := .error })
    else
      let (block, heap) := findFreeBlock level heap
      if block = 0 then (0, heap)
      else
        let heap := heap.setState block .allocated
        let heap := heap.setManager fun manager =>
          { manager with usedMemory := u64 (manager.usedMemory + shiftOne level) }
        (u64 (block + headerSize), heap)

/-- The XOR is taken on the absolute address. -/
def getBuddy (block : Nat) (heap : Heap) : Nat :=
  if block = 0 ∨ blockLists ≤ (heap.header block).level then 0
  else
    let buddyAddr := block ^^^ shiftOne (heap.header block).level
    if buddyAddr < heap.manager.managedMemory ∨
        u64 (heap.manager.managedMemory + heap.manager.memorySize) ≤ buddyAddr then 0
    else buddyAddr

/-- Each call raises the level by one and a level of `blockLists` returns at
once, so `blockLists + 1` calls are enough (`mergeBlocks_fuel`). -/
def mergeBlocks : Nat → Nat → Heap → Heap
  | 0, _, heap => heap
  | fuel + 1, block, heap =>
    if block = 0 ∨ blockLists ≤ (heap.header block).level ∨
        (heap.header block).blockState ≠ .free then heap
    else
      let buddy := getBuddy block heap
      if buddy ≠ 0 ∧ (heap.header buddy).blockState = .free ∧
          (heap.header buddy).level = (heap.header block).level then
        let heap := (heap.unlink buddy).unlink block
        let parent := if block < buddy then block else buddy
        let heap := initMemoryBlock parent ((heap.header block).level + 1) heap
        let heap := heap.link (heap.header parent).level parent
        mergeBlocks fuel parent heap
      else heap

def freeMemory (address : Nat) (heap : Heap) : Heap :=
  if address = 0 ∨ heap.memoryManager = 0 ∨ heap.manager.status ≠ .ok then heap
  else
    let block := u64 (address + 2 ^ 64 - headerSize)
    if (heap.header block).blockState ≠ .allocated then heap
    else
      let heap := heap.setState block .free
      let heap := heap.link (heap.header block).level block
      let heap := heap.setManager fun manager =>
        { manager with
          usedMemory := u64 (manager.usedMemory + 2 ^ 64 - shiftOne (heap.header block).level) }
      mergeBlocks (blockLists + 1) block heap

end Buddy
end SoKernel
