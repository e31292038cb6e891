import SoKernel.Lib.Tiling
import SoKernel.Lib.LinkedList
import SoKernel.Memory.Buddy
import SoKernel.Lib.Bits
import SoKernel.Memory.Partition
import SoKernel.Memory.SplitMerge
import SoKernel.Memory.Representation
import SoKernel.Memory.Allocation
import SoKernel.Memory.Deallocation
import SoKernel.Lib.Transition
import SoKernel.Memory.Requests
import SoKernel.Memory.HeapIntegrity
import SoKernel.Memory.ClientWrites
import SoKernel.Memory.Coalescing
import SoKernel.Kernel.Queue
import SoKernel.Kernel.Process
import SoKernel.Kernel.Scheduler
import SoKernel.Kernel.Creation
import SoKernel.Kernel.Table
import SoKernel.Kernel.TableInvariant
import SoKernel.Kernel.Dispatch
import SoKernel.Kernel.Moves
import SoKernel.Kernel.Children
import SoKernel.Kernel.Exit
import SoKernel.Kernel.Waiting
import SoKernel.Kernel.Creating
import SoKernel.Kernel.SemaphoreSteps
import SoKernel.Kernel.Booting
import SoKernel.Kernel.Bump
import SoKernel.Kernel.ProcessTable
import SoKernel.Kernel.ContextSwitch
import SoKernel.Kernel.Family
import SoKernel.Kernel.ExitStatus
import SoKernel.Kernel.WaitLists
import SoKernel.Memory.RefusedRequests
import SoKernel.Kernel.PostEffect
import SoKernel.Kernel.Tokens
import SoKernel.Kernel.SemTable
import SoKernel.Kernel.Accounts
import SoKernel.Lib.Parties
import SoKernel.Kernel.Clients
import SoKernel.Userland.TestSync
import SoKernel.Lib.Ring
import SoKernel.Kernel.PipeCalls
import SoKernel.Kernel.PipeTokens
import SoKernel.Kernel.PipeOpening
import SoKernel.Kernel.PipeFifo
import SoKernel.Kernel.PipeSlots
import SoKernel.Kernel.PipeClear
import SoKernel.Userland.PhyloSteps
import SoKernel.Userland.FixedTable
import SoKernel.Userland.PhyloProcesses
import SoKernel.Userland.ChangingTable
import SoKernel.Kernel.Usage
import SoKernel.Kernel.Allocators
import SoKernel.Memory.Bitmap
import SoKernel.Memory.BitmapGrammar
import SoKernel.Memory.BitmapIntegrity
import SoKernel.Memory.BitmapRuns
import SoKernel.Lib.Turns
import SoKernel.Kernel.RoundRobin
import SoKernel.Kernel.Ledger
import SoKernel.Kernel.LedgerSteps
import SoKernel.Kernel.CreationOutcome
import SoKernel.Kernel.BootLedger
import SoKernel.Kernel.Watched
import SoKernel.Kernel.LifeCycles
import SoKernel.Memory.AnySize
import SoKernel.Memory.BestLevel
import SoKernel.Lib.WordMemory
import SoKernel.Memory.HeaderWords
import SoKernel.Memory.WordAgreement
import SoKernel.Memory.WordRuns
import SoKernel.Memory.Accounting
import SoKernel.Kernel.Machine
import SoKernel.Kernel.MachineRuns
import SoKernel.Kernel.KillFrame
import SoKernel.Kernel.ProcessInfo
import SoKernel.Kernel.AllOrNothing
import SoKernel.Kernel.Services
import SoKernel.Kernel.StaleWait
import SoKernel.Kernel.FailedPipe
import SoKernel.Kernel.Stranded
import SoKernel.Kernel.Keyboard
import SoKernel.Kernel.RunsOn
import SoKernel.Kernel.Keystrokes
import SoKernel.Memory.BitmapCalls
import SoKernel.Memory.NextFit
import SoKernel.Memory.StrayPointers
import SoKernel.Kernel.Refusals
import SoKernel.Kernel.ProcessStack
import SoKernel.Userland.Arguments
import SoKernel.Userland.ArgumentGrammar
import SoKernel.Lib.LineEditor
import SoKernel.Userland.Shell
import SoKernel.Userland.TypedLine
import SoKernel.Userland.ShellLoop
import SoKernel.Kernel.Clock
import SoKernel.Lib.Calendar
import SoKernel.Lib.Buffer
import SoKernel.Lib.Numeral
import SoKernel.Userland.Numerals
import SoKernel.Userland.SignedNumerals
import SoKernel.Userland.ArgumentBounds
import SoKernel.Kernel.TextModule
import SoKernel.Lib.Latch
import SoKernel.Kernel.Modifiers
import SoKernel.Userland.Filters
import SoKernel.Lib.Segment
import SoKernel.Kernel.QueueNodes
import SoKernel.Kernel.QueueChain
import SoKernel.Kernel.QueueRuns
import SoKernel.Lib.Copying
import SoKernel.Lib.LittleEndian
import SoKernel.Kernel.MemoryRoutines
import SoKernel.Boot.ModulePacker
import SoKernel.Boot.ModuleLoader
import SoKernel.Boot.KernelBinary
import SoKernel.Lib.RowMajor
import SoKernel.Kernel.VideoDriver
import SoKernel.Kernel.ScreenMemory
import SoKernel.Lib.CharGrid
import SoKernel.Kernel.CharTerminal
import SoKernel.Lib.Appending
import SoKernel.Userland.Printf
import SoKernel.Userland.PrintfRendering
import SoKernel.Userland.PrintfMemory
import SoKernel.Kernel.Interrupts
import SoKernel.Kernel.Stacks
import SoKernel.Kernel.TimeSharing
import SoKernel.Lib.Assembly
import SoKernel.Kernel.SystemCalls
import SoKernel.Kernel.Bystanders
import SoKernel.Userland.TestProcesses
import SoKernel.Kernel.Descriptors
import SoKernel.Userland.Pipeline
import SoKernel.Userland.PipelineRuns
import SoKernel.Lib.Roll
import SoKernel.Userland.Console
