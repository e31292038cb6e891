import SoKernel.Kernel.System

namespace SoKernel
open MemoryManager QueueName Lib Kernel

/-- Unbounded memory, handed out upwards and never reused. -/
structure Bump where
  top : Nat

instance : MemoryManager Bump where
  allocMemory size memory := (memory.top + 1, ⟨memory.top + 1 + size⟩)
  freeMemory _ memory := memory

namespace Bump

theorem allocSucceeds : AllocSucceeds Bump := fun _ memory => Nat.succ_ne_zero memory.top

theorem nodesReusable : NodesReusable Bump := allocSucceeds.nodesReusable

/-- What memory holds before it is written. -/
def blank : PCB := ⟨0, 0, 0, 0, .ready, 0, 0, 0, 0, false, 0, 0⟩

/-- The kernel booted on this memory; idle's code is at 1 and the shell's at 2. -/
def kernel : Kernel Bump := (boot 1 2 (fun _ => blank) ⟨0⟩).get (by decide +kernel)

def idle : Addr := kernel.processes.idleProcess
def shell : Addr := kernel.processes.currentProcess

theorem booted : Booted kernel where
  main := ⟨1, 2, fun _ => blank, ⟨0⟩, (Option.some_get _).symm⟩
  idle := by decide +kernel
  shell := ⟨shell, by decide +kernel, by decide +kernel⟩

end Bump

/-- A stock of cells, each large enough for any request. -/
structure Cells where
  free : List Addr

instance : MemoryManager Cells where
  allocMemory _ memory :=
    match memory.free with
    | [] => (0, memory)
    | cell :: rest => (max cell 1, ⟨rest⟩)
  freeMemory cell memory := ⟨cell :: memory.free⟩

namespace Cells

theorem nodesReusable : NodesReusable Cells := fun address _ =>
  Nat.pos_iff_ne_zero.mp (Nat.le_max_right address 1)

/-- `cells` cells of 8192 bytes. -/
def stock (cells : Nat) : Cells := ⟨(List.range cells).map fun i => (i + 1) * 8192⟩

/-- The kernel booted on 18 cells: four are left. -/
def kernel : Kernel Cells := (boot 1 2 (fun _ => Bump.blank) (stock 18)).get (by decide +kernel)

theorem booted : Booted kernel where
  main := ⟨1, 2, fun _ => Bump.blank, stock 18, (Option.some_get _).symm⟩
  idle := by decide +kernel
  shell := ⟨kernel.processes.currentProcess, by decide +kernel, by decide +kernel⟩

end Cells
end SoKernel
