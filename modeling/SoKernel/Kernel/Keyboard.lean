import SoKernel.Kernel.PipeTokens

namespace SoKernel
open MemoryManager QueueName Lib Kernel SoKernel.System

variable {M : Type}

/-! ## `drivers/keyboardDriver.c` -/

/-- The characters of a key, without and with shift. -/
def pressKeys : List (Char × Char) := [
  ('\x00', '\x00'), ('\x1b', '\x1b'), ('1', '!'), ('2', '\x22'), ('3', '#'), ('4', '$'), ('5', '%'),
  ('6', '&'), ('7', '('), ('8', ')'), ('9', ')'), ('0', '='), ('-', '_'), ('=', '+'),
  ('\x08', '\x08'), ('\t', '\t'), ('q', 'Q'), ('w', 'W'), ('e', 'E'), ('r', 'R'), ('t', 'T'),
  ('y', 'Y'), ('u', 'U'), ('i', 'I'), ('o', 'O'), ('p', 'P'), ('[', '\x7b'), (']', '\x7d'),
  ('\n', '\n'), ('\x00', '\x00'), ('a', 'A'), ('s', 'S'), ('d', 'D'), ('f', 'F'), ('g', 'G'),
  ('h', 'H'), ('j', 'J'), ('k', 'K'), ('l', 'L'), (';', ':'), ('\x27', '\x22'), ('\x60', '~'),
  ('\x00', '\x00'), ('\x5c', '|'), ('z', 'Z'), ('x', 'X'), ('c', 'C'), ('v', 'V'), ('b', 'B'),
  ('n', 'N'), ('m', 'M'), (',', ';'), ('.', ':'), ('-', '_'), ('\x00', '\x00'), ('*', '*'),
  ('\x00', '\x00'), (' ', ' '), ('\x00', '\x00'), ('\x00', '\x00'), ('\x00', '\x00'),
  ('\x00', '\x00'), ('\x00', '\x00'), ('\x00', '\x00'), ('\x00', '\x00'), ('\x00', '\x00'),
  ('\x00', '\x00'), ('\x00', '\x00'), ('\x00', '\x00'), ('\x00', '\x00'), ('7', '7'), ('8', '8'),
  ('9', '9'), ('-', '_'), ('4', '4'), ('5', '5'), ('6', '6'), ('+', '+'), ('1', '1'), ('2', '2'),
  ('3', '3'), ('0', '0'), ('.', '>'), ('\x00', '\x00'), ('\x00', '\x00'), ('\x00', '\x00'),
  ('\x00', '\x00'), ('\x00', '\x00')]

def lshiftPress : UInt8 := 0x2A
def lshiftRelease : UInt8 := 0xAA
def rshiftPress : UInt8 := 0x36
def rshiftRelease : UInt8 := 0xB6
def capsPress : UInt8 := 0x3A
def f12Press : UInt8 := 0x58
def escPress : UInt8 := 0x01
def altPress : UInt8 := 0x3B
def ctrlPress : UInt8 := 0x1D
def ctrlRelease : UInt8 := 0x9D

/-- `EOF` as a character. -/
def eof : UInt8 := 0xFF

def specialKeys : List UInt8 := [lshiftPress, lshiftRelease, rshiftRelease, rshiftPress, capsPress,
  altPress, ctrlPress, ctrlRelease, escPress]

structure Keyboard where
  shift : Bool
  caps : Bool
  ctrlPressed : Bool
deriving DecidableEq

/-- What a scan code asks of the kernel. -/
inductive Keystroke where
  | ignored
  /-- Ctrl+C. -/
  | interrupt
  | byte (byte : UInt8)
deriving DecidableEq

namespace Keyboard

def handleSpecialKeys (key : UInt8) (keyboard : Keyboard) : Keyboard :=
  if key = lshiftPress ∨ key = rshiftPress then { keyboard with shift := true }
  else if key = lshiftRelease ∨ key = rshiftRelease then { keyboard with shift := false }
  else if key = capsPress then { keyboard with caps := !keyboard.caps }
  else if key = ctrlPress then { keyboard with ctrlPressed := true }
  else if key = ctrlRelease then { keyboard with ctrlPressed := false }
  else keyboard

def isAlpha (ascii : Char) : Bool := 'a' ≤ ascii ∧ ascii ≤ 'z'

/-- `bufferWrite` up to its calls of `kill` and `addToBuffer`; what it prints is left out. -/
def bufferWrite (c : UInt8) (keyboard : Keyboard) : Keyboard × Keystroke :=
  if c ∈ specialKeys then (keyboard.handleSpecialKeys c, .ignored)
  else if c < f12Press then
    let (ascii, shiftAscii) := pressKeys.getD c.toNat ('\x00', '\x00')
    if keyboard.ctrlPressed ∧ ascii = 'c' then (keyboard, .interrupt)
    else if keyboard.ctrlPressed ∧ ascii = 'd' then (keyboard, .byte eof)
    else
      let mayus := xor keyboard.caps keyboard.shift
      let key := if (isAlpha ascii ∧ mayus) ∨ (¬ isAlpha ascii ∧ keyboard.shift) then shiftAscii
        else ascii
      (keyboard, .byte key.toNat.toUInt8)
  else (keyboard, .ignored)

end Keyboard

/-! ## The handler in the interrupted process -/

/-- The kernel and the calls on pipe 0, and the keys that are held. -/
structure Terminal (M : Type) where
  clients : Clients M PipePlace PipeLog
  keyboard : Keyboard

namespace Terminal

variable [MemoryManager M]

/-- The `writePipe` of the handler goes on until it returns or its process gives up the
processor; the fuel counts what it does for the semaphores and the buffer. -/
def goOn (pid : Int) (rsp : Nat) : Nat → Clients M PipePlace PipeLog → Clients M PipePlace PipeLog
  | 0, s => s
  | fuel + 1, s =>
    match s.loc pid with
    | .running false stage call =>
      let (deed, place, log) := writePipe 0 stage call s.system.kernel.pipes s.shared
      let t : Clients M PipePlace PipeLog :=
        ⟨{ s.system with kernel := deed.run rsp s.system.kernel },
          Function.update s.loc pid place, log⟩
      if t.system.kernel.getCurrentPid = pid then goOn pid rsp fuel t else t
    | _ => s

/-- `writePipe(0, &c, 1)` in the interrupted process, which is then where it was; if it
fell asleep it writes when it is woken. -/
def addToBuffer (byte : UInt8) (rsp : Nat) (s : Clients M PipePlace PipeLog) :
    Clients M PipePlace PipeLog :=
  let pid := s.system.kernel.getCurrentPid
  match enterPipe 0 (.write 0 (some fun _ => byte) 1) s.system.kernel.pipes s.shared with
  | none => s
  | some (_, place, log) =>
    let t := goOn pid rsp 6 ⟨s.system, Function.update s.loc pid place, log⟩
    if (t.loc pid).idle then { t with loc := Function.update t.loc pid (s.loc pid) } else t

/-- The keyboard interrupt. -/
def press (code : UInt8) (rsp : Nat) (s : Terminal M) : Terminal M :=
  let (keyboard, keystroke) := s.keyboard.bufferWrite code
  match keystroke with
  | .ignored => ⟨s.clients, keyboard⟩
  | .interrupt =>
    let system := s.clients.system
    ⟨{ s.clients with system := system.endProcess system.kernel.getForegroundPid 1 rsp }, keyboard⟩
  | .byte byte => ⟨addToBuffer byte rsp s.clients, keyboard⟩

/-- The running process is not inside a call on the pipe: interrupts are off there. -/
def AtRest (s : Terminal M) : Prop :=
  (s.clients.loc s.clients.system.kernel.getCurrentPid).idle = true

inductive Input where
  | event (label : Label)
  | turn (request : PipeRequest) (rsp : Nat)
  | key (code : UInt8) (rsp : Nat)

/-- Events that leave the semaphores of the pipe alone, calls that read and write it, and
keystrokes. -/
inductive Step (own : Int → Prop) (s : Terminal M) : Input → Terminal M → Prop
  | event {label : Label} {t : System M} : s.AtRest → Clients.Avoids own label.event →
      System.Step s.clients.system label t →
      Step own s (.event label) { s with clients := { s.clients with system := t } }
  | turn {request : PipeRequest} {rsp : Nat} {t : Clients M PipePlace PipeLog} :
      Clients.Step (transferProgram 0) own s.clients (.turn request rsp) t →
      Step own s (.turn request rsp) { s with clients := t }
  | key {code : UInt8} {rsp : Nat} : s.AtRest → Step own s (.key code rsp) (s.press code rsp)

/-- When `main` has enabled interrupts, before any key. -/
def start (k : Kernel M) : Terminal M :=
  ⟨⟨started k, fun _ => .outside, .empty⟩, ⟨false, false, false⟩⟩

end Terminal
end SoKernel
