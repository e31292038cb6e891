import SoKernel.Lib.WordMemory
import SoKernel.Memory.AnySize

namespace SoKernel.Buddy
open Lib

/-! ## The allocator on the words of memory

`Heap` keeps a header for each address. In memory a header is 24 bytes, and those of two blocks that
are closer overlap. -/

/-- The encoding of `enum state`. -/
def BlockState.code : BlockState → Nat
  | .free => 0
  | .split => 1
  | .allocated => 2

/-- What is none of the three is compared with `FREE` and `ALLOCATED` only. -/
def BlockState.ofCode (code : Nat) : BlockState :=
  if code = 0 then .free else if code = 2 then .allocated else .split

/-- The manager, and physical memory. -/
structure Words where
  memoryManager : Nat
  manager : MemoryManager
  memory : WordMemory

namespace Words

def load (words : Words) (bytes address : Nat) : Nat := words.memory.load bytes address

def store (words : Words) (bytes address value : Nat) : Words :=
  { words with memory := words.memory.store bytes address value }

/-- The header that begins at `block`: a `uint8_t`, an `int` behind three bytes that nobody uses,
and two pointers. -/
def header (words : Words) (block : Nat) : BuddyBlock where
  level := words.load 1 block
  blockState := .ofCode (words.load 4 (block + 4))
  next := words.load 8 (block + 8)
  prev := words.load 8 (block + 16)

def setNext (words : Words) (block value : Nat) : Words := words.store 8 (block + 8) value

def setPrev (words : Words) (block value : Nat) : Words := words.store 8 (block + 16) value

def setLevel (words : Words) (block level : Nat) : Words := words.store 1 block level

def setState (words : Words) (block : Nat) (state : BlockState) : Words :=
  words.store 4 (block + 4) state.code

def setManager (words : Words) (change : MemoryManager → MemoryManager) : Words :=
  { words with manager := change words.manager }

def setList (words : Words) (level block : Nat) : Words :=
  words.setManager fun manager =>
    { manager with blocks := Function.update manager.blocks level block }

def link (words : Words) (level block : Nat) : Words :=
  let words := words.setNext block (words.manager.blocks level)
  let words := if words.manager.blocks level ≠ 0
    then words.setPrev (words.manager.blocks level) block else words
  words.setList level block

/-- As `link`, with the level that stands in the header, which is read again for every access. -/
def linkBlock (words : Words) (block : Nat) : Words :=
  let words := words.setNext block (words.manager.blocks (words.header block).level)
  let words := if words.manager.blocks (words.header block).level ≠ 0
    then words.setPrev (words.manager.blocks (words.header block).level) block else words
  words.setList (words.header block).level block

def takeHead (words : Words) (level block : Nat) : Words :=
  let words := words.setList level (words.header block).next
  let words := if (words.header block).next ≠ 0
    then words.setPrev (words.header block).next 0 else words
  (words.setNext block 0).setPrev block 0

def unlink (words : Words) (block : Nat) : Words :=
  let words := if (words.header block).prev ≠ 0
    then words.setNext (words.header block).prev (words.header block).next
    else words.setList (words.header block).level (words.header block).next
  if (words.header block).next ≠ 0
    then words.setPrev (words.header block).next (words.header block).prev else words

def initMemoryBlock (block level : Nat) (words : Words) : Words :=
  (((words.setLevel block level).setState block .free).setNext block 0).setPrev block 0

def createMemoryManager (words : Words) : Words :=
  let words := { words with memoryManager := memoryManagerAddress }
  let words := words.setManager fun manager =>
    { manager with
      memoryForMemoryManager := memoryManagerAddress
      managedMemory := heapStartAddress
      memorySize := heapSize
      usedMemory := 0
      status := .ok }
  if words.manager.managedMemory % minBlockSize ≠ 0 then
    words.setManager fun manager => { manager with status := .error }
  else
    let words := words.setManager fun manager =>
      { manager with
        blocks := fun i => if 1 ≤ i ∧ i < blockLists then 0 else manager.blocks i }
    let rootBlockSize := shiftOne (log2 words.manager.memorySize)
    let rootLevel := log2 rootBlockSize % 256
    let rootBlock := words.manager.managedMemory
    (initMemoryBlock rootBlock rootLevel words).setList rootLevel rootBlock

def splitBlockToLevel (block : Nat) : Nat → Nat → Words → Nat × Words
  | 0, targetLevel, words => (if 0 = targetLevel then block else 0, words)
  | newLevel + 1, targetLevel, words =>
    if newLevel + 1 ≤ targetLevel then
      (if newLevel + 1 = targetLevel then block else 0, words)
    else
      let words := words.setState block .split
      let rightChild := u64 (block + shiftOne newLevel)
      let words := initMemoryBlock rightChild newLevel (initMemoryBlock block newLevel words)
      let words := words.link newLevel rightChild
      if newLevel = targetLevel then (block, words)
      else splitBlockToLevel block newLevel targetLevel words

def findInUpperLevels (level : Nat) : Nat → Nat → Words → Nat × Words
  | 0, _, words => (0, words)
  | fuel + 1, i, words =>
    if i < blockLists then
      let block := words.manager.blocks i
      if block ≠ 0 then
        let (result, words) := splitBlockToLevel block i level (words.takeHead i block)
        if result ≠ 0 then (result, words)
        else findInUpperLevels level fuel (i + 1) (words.link i block)
      else findInUpperLevels level fuel (i + 1) words
    else (0, words)

def findFreeBlock (level : Nat) (words : Words) : Nat × Words :=
  let block := words.manager.blocks level
  if block ≠ 0 then
    if (words.header block).blockState ≠ .free then (0, words)
    else (block, words.takeHead level block)
  else findInUpperLevels level (blockLists - (level + 1)) (level + 1) words

def allocMemory (memoryToAllocate : Nat) (words : Words) : Nat × Words :=
  if words.memoryManager = 0 ∨ words.manager.status ≠ .ok then (0, words)
  else
    let level := memoryToLevel (requestSize memoryToAllocate)
    if blockLists ≤ level then
      (0, words.setManager fun manager => { manager with status := .error })
    else
      let (block, words) := findFreeBlock level words
      if block = 0 then (0, words)
      else
        let words := words.setState block .allocated
        let words := words.setManager fun manager =>
          { manager with usedMemory := u64 (manager.usedMemory + shiftOne level) }
        (u64 (block + headerSize), words)

def getBuddy (block : Nat) (words : Words) : Nat :=
  if block = 0 ∨ blockLists ≤ (words.header block).level then 0
  else
    let buddyAddr := block ^^^ shiftOne (words.header block).level
    if buddyAddr < words.manager.managedMemory ∨
        u64 (words.manager.managedMemory + words.manager.memorySize) ≤ buddyAddr then 0
    else buddyAddr

def mergeBlocks : Nat → Nat → Words → Words
  | 0, _, words => words
  | fuel + 1, block, words =>
    if block = 0 ∨ blockLists ≤ (words.header block).level ∨
        (words.header block).blockState ≠ .free then words
    else
      let buddy := getBuddy block words
      if buddy ≠ 0 ∧ (words.header buddy).blockState = .free ∧
          (words.header buddy).level = (words.header block).level then
        let words := (words.unlink buddy).unlink block
        let parent := if block < buddy then block else buddy
        let words := initMemoryBlock parent ((words.header block).level + 1) words
        let words := words.linkBlock parent
        mergeBlocks fuel parent words
      else words

def freeMemory (address : Nat) (words : Words) : Words :=
  if address = 0 ∨ words.memoryManager = 0 ∨ words.manager.status ≠ .ok then words
  else
    let block := u64 (address + 2 ^ 64 - headerSize)
    if (words.header block).blockState ≠ .allocated then words
    else
      let words := words.setState block .free
      let words := words.linkBlock block
      let words := words.setManager fun manager =>
        { manager with
          usedMemory := u64 (manager.usedMemory + 2 ^ 64 - shiftOne (words.header block).level) }
      mergeBlocks (blockLists + 1) block words

/-- Zeros everywhere. -/
def blank : Words := ⟨0, ⟨0, 0, 0, 0, .ok, fun _ => 0⟩, ⟨fun _ => 0, .nothing⟩⟩

end Words

end SoKernel.Buddy
