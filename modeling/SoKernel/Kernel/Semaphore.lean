import SoKernel.Kernel.Scheduler

namespace SoKernel
open MemoryManager

variable {M : Type} [MemoryManager M]

def numSems : Int := 300
/-- `sizeof(pid_t)`. -/
def pidSize : Nat := 4

namespace Kernel

/-! ## `semaphores/semaphore.c`

Every function releases the lock before it returns or gives up the processor, so
`acquire` never spins. -/

def acquire (id : Int) (k : Kernel M) : Kernel M := k.editSem id fun sem => { sem with lock := true }

def release (id : Int) (k : Kernel M) : Kernel M := k.editSem id fun sem => { sem with lock := false }

/-- Where there is no memory for the wait list, the code frees the table of the semaphores and goes
on using it. Here the table is kept apart from the heap; `Machine.semInit` has it in memory. -/
def semInit (id : Int) (value : Nat) (k : Kernel M) : Int × Kernel M :=
  if id < 0 ∨ numSems ≤ id then (-1, k)
  else if (k.semaphores id).used then (-1, k)
  else
    let (queue, memory) := allocMemory queueSize k.memory
    let k := { k with memory := memory }
    let k := k.editSem id fun _ =>
      ⟨value % 2 ^ 32, false, true, if queue = 0 then none else some [], queue⟩
    if queue = 0 then (-1, { k with memory := freeMemory k.manager k.memory }) else (0, k)

/-- The pointer to the freed queue stays. Here it names the list that was freed; what the code finds
there once the memory is given to someone else is in `Machine.semClose`. -/
def semClose (id : Int) (k : Kernel M) : Int × Kernel M :=
  if id < 0 ∨ numSems ≤ id then (-1, k)
  else if (k.semaphores id).used then
    let memory :=
      match (k.semaphores id).blocked with
      | none => k.memory
      | some blocked => blocked.freeQueue (k.semaphores id).queue k.memory
    (0, { k with memory := memory }.editSem id fun sem =>
      { sem with used := false, value := 0, lock := false })
  else (-1, k)

def wait (id : Int) (rsp : Nat) (k : Kernel M) : Int × Kernel M :=
  let k := k.acquire id
  if 0 < (k.semaphores id).value then
    (0, (k.editSem id fun sem => { sem with value := sem.value - 1 }).release id)
  else
    let (address, memory) := allocMemory pidSize k.memory
    let k := { k with memory := memory }
    if address = 0 then (-1, k.release id)
    else
      let pid := k.getCurrentPid
      let k :=
        match (k.semaphores id).blocked with
        | none => k
        | some blocked =>
          match blocked.enqueue ⟨address, pid⟩ k.memory with
          | (none, memory) => { k with memory := memory }
          | (some blocked, memory) =>
            { k with memory := memory }.editSem id fun sem => { sem with blocked := some blocked }
      (0, (blockProcessBySem pid rsp (k.release id)).2)

def post (id : Int) (k : Kernel M) : Int × Kernel M :=
  let k := k.acquire id
  match (k.semaphores id).blocked.bind fun blocked => blocked.dequeue k.memory with
  | some (cell, blocked, memory) =>
    let k := { k with memory := freeMemory cell.address memory }.editSem id fun sem =>
      { sem with blocked := some blocked }
    (0, (unblockProcessBySem cell.pid k).2.release id)
  | none => (0, (k.editSem id fun sem => { sem with value := (sem.value + 1) % 2 ^ 32 }).release id)

/-- `semWait` and `semPost` name the semaphore by its id. -/
def semWait (id : Int) (rsp : Nat) (k : Kernel M) : Int × Kernel M := wait id rsp k

def semPost (id : Int) (k : Kernel M) : Int × Kernel M := post id k

end Kernel
end SoKernel
