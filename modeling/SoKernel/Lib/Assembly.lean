import SoKernel.Lib.Copying
import SoKernel.Lib.LittleEndian

namespace SoKernel.Lib.Assembly
open Bytes

/-! ## Straight code -/

inductive Register where
  | rax | rbx | rcx | rdx | rsi | rdi | rbp | rsp
  | r8 | r9 | r10 | r11 | r12 | r13 | r14 | r15
deriving DecidableEq, Repr

structure State where
  register : Register → UInt64
  memory : Bytes

inductive Instruction where
  | push (source : Register)
  | pop (target : Register)
  | mov (target source : Register)
deriving DecidableEq, Repr

open Instruction

namespace State

def set (s : State) (r : Register) (value : UInt64) : State :=
  { s with register := Function.update s.register r value }

/-- Where the stack ends. -/
def top (s : State) : Nat := (s.register .rsp).toNat

def pushWord (s : State) (value : UInt64) : State where
  register := Function.update s.register .rsp (s.register .rsp - 8)
  memory := s.memory.storeAll (s.register .rsp - 8).toNat (word value.toNat)

/-- The word that the stack ends with. -/
def topWord (s : State) : UInt64 := UInt64.ofNat (ofLittleEndian (s.memory.fetch s.top 8))

end State

def Instruction.exec (s : State) : Instruction → State
  | push source => s.pushWord (s.register source)
  | pop target => (s.set .rsp (s.register .rsp + 8)).set target s.topWord
  | mov target source => s.set target (s.register source)

def exec (code : List Instruction) (s : State) : State := code.foldl Instruction.exec s

/-- How a function begins that uses the registers `saved`. -/
def entering (saved : List Register) : List Instruction :=
  Instruction.push .rbp :: mov .rbp .rsp :: saved.map Instruction.push

def leaving (saved : List Register) : List Instruction :=
  saved.reverse.map pop ++ [mov .rsp .rbp, pop .rbp]

/-- The registers that a function keeps. -/
def calleeSaved : List Register := [.rbx, .rbp, .r12, .r13, .r14, .r15]

/-- A function gives back the stack, with what is on it before `limit`, and the registers that it
has to keep. -/
structure Abides (limit : Nat) (s t : State) : Prop where
  rsp : t.register .rsp = s.register .rsp
  saved : ∀ r ∈ calleeSaved, t.register r = s.register r
  stack : ∀ x, s.top ≤ x → x < limit → t.memory x = s.memory x

variable {s t u : State} {r : Register} {saved : List Register} {value : UInt64} {limit x : Nat}
variable {code more : List Instruction}

/-! ## One instruction -/

@[simp] theorem exec_nil : exec [] s = s := rfl

@[simp] theorem exec_cons {one : Instruction} : exec (one :: code) s = exec code (one.exec s) := rfl

theorem exec_append : exec (code ++ more) s = exec more (exec code s) := List.foldl_append

@[simp] theorem set_memory : (s.set r value).memory = s.memory := rfl

@[simp] theorem set_self : (s.set r value).register r = value := by
  unfold State.set
  dsimp only
  rw [Function.update_self]

theorem set_other {q : Register} (other : q ≠ r) : (s.set r value).register q = s.register q := by
  unfold State.set
  dsimp only
  rw [Function.update_of_ne other]

theorem pushWord_rsp (s : State) (value : UInt64) :
    (s.pushWord value).register .rsp = s.register .rsp - 8 := by
  unfold State.pushWord
  dsimp only
  rw [Function.update_self]

theorem pushWord_register (other : r ≠ .rsp) : (s.pushWord value).register r = s.register r := by
  unfold State.pushWord
  dsimp only
  rw [Function.update_of_ne other]

theorem lower_top (room : 8 ≤ s.top) : (s.register .rsp - 8).toNat = s.top - 8 :=
  UInt64.toNat_sub_of_le _ _ (UInt64.le_iff_toNat_le.mpr room)

theorem pushWord_top (value : UInt64) (room : 8 ≤ s.top) : (s.pushWord value).top = s.top - 8 := by
  have lower := lower_top room
  rw [← pushWord_rsp s value] at lower
  exact lower

theorem pushWord_memory (room : 8 ≤ s.top) :
    (s.pushWord value).memory = s.memory.storeAll (s.top - 8) (word value.toNat) := by
  unfold State.pushWord
  dsimp only
  rw [lower_top room]

/-- Pushing leaves alone what is on the stack, and what is further down. -/
theorem pushWord_frame (room : 8 ≤ s.top) (outside : x < s.top - 8 ∨ s.top ≤ x) :
    (s.pushWord value).memory x = s.memory x := by
  have small : s.top < 2 ^ 64 := (s.register .rsp).toNat_lt
  rw [pushWord_memory room]
  apply storeAll_other
  · rw [word_length]
    omega
  · rw [word_length]
    omega

/-- What is pushed is read again as long as it stays there. -/
theorem topWord_of_push (room : 8 ≤ s.top) (same : t.top = s.top - 8)
    (kept : ∀ x, s.top - 8 ≤ x → x < s.top → t.memory x = (s.pushWord value).memory x) :
    t.topWord = value := by
  have small : s.top < 2 ^ 64 := (s.register .rsp).toNat_lt
  have pushed : (s.pushWord value).memory.Holds (s.top - 8) (word value.toNat) := by
    rw [pushWord_memory room]
    apply holds_storeAll
    rw [word_length]
    omega
  have holds : t.memory.Holds (s.top - 8) (word value.toNat) := by
    apply pushed.congr
    · rw [word_length]
      omega
    · intro x low high
      rw [word_length] at high
      exact kept x low (by omega)
  have bytes := fetch_of_holds holds
  have fits : value.toNat % 256 ^ 8 = value.toNat := Nat.mod_eq_of_lt value.toNat_lt
  rw [word_length] at bytes
  unfold State.topWord
  rw [same, bytes, word_eq_littleEndian, ofLittleEndian_littleEndian, fits]
  exact UInt64.ofNat_toNat

/-! ## Saving registers -/

/-- Pushing registers only moves the end of the stack. -/
theorem pushes (s : State) (plain : .rsp ∉ saved) (room : 8 * saved.length ≤ s.top) :
    (exec (saved.map Instruction.push) s).top = s.top - 8 * saved.length ∧
      (∀ r, r ≠ .rsp → (exec (saved.map Instruction.push) s).register r = s.register r) ∧
      ∀ x, x < s.top - 8 * saved.length ∨ s.top ≤ x →
        (exec (saved.map Instruction.push) s).memory x = s.memory x := by
  induction saved generalizing s with
  | nil => exact ⟨rfl, fun _ _ => rfl, fun _ _ => rfl⟩
  | cons r saved ih =>
    rw [List.length_cons] at room ⊢
    have here : 8 ≤ s.top := by omega
    have moved := pushWord_top (s.register r) here
    obtain ⟨end', registers, memory⟩ := ih (s.pushWord (s.register r))
      (fun inside => plain (List.mem_cons_of_mem r inside)) (by omega)
    refine ⟨?_, fun q other => ?_, fun x outside => ?_⟩
    · rw [List.map_cons, exec_cons]
      refine end'.trans ?_
      omega
    · exact (registers q other).trans (pushWord_register other)
    · refine (memory x ?_).trans (pushWord_frame here ?_)
      · omega
      · omega

/-- Popping them in the other order gives them back. -/
theorem pops (s : State) (plain : .rsp ∉ saved) (room : 8 * saved.length ≤ s.top)
    (same : t.register .rsp = (exec (saved.map Instruction.push) s).register .rsp)
    (kept : ∀ x, s.top - 8 * saved.length ≤ x → x < s.top →
      t.memory x = (exec (saved.map Instruction.push) s).memory x) :
    (exec (saved.reverse.map pop) t).register .rsp = s.register .rsp ∧
      (∀ r ∈ saved, (exec (saved.reverse.map pop) t).register r = s.register r) ∧
      (∀ r, r ∉ saved → r ≠ .rsp →
        (exec (saved.reverse.map pop) t).register r = t.register r) ∧
      (exec (saved.reverse.map pop) t).memory = t.memory := by
  induction saved generalizing s with
  | nil => exact ⟨same, nofun, fun _ _ _ => rfl, rfl⟩
  | cons r saved ih =>
    rw [List.length_cons] at room kept
    obtain ⟨first, rest⟩ := not_or.mp (mt List.mem_cons.mpr plain)
    have here : 8 ≤ s.top := by omega
    have moved := pushWord_top (s.register r) here
    obtain ⟨_, _, above⟩ := pushes (s.pushWord (s.register r)) rest (by omega)
    obtain ⟨rsp, restored, others, memory⟩ := ih (s.pushWord (s.register r)) rest (by omega)
      same fun x low high => kept x (by omega) (by omega)
    have code : (r :: saved).reverse.map pop = saved.reverse.map pop ++ [pop r] := by
      rw [List.reverse_cons, List.map_append]
      rfl
    rw [code, exec_append]
    generalize exec (saved.reverse.map pop) t = u at rsp restored others memory ⊢
    have ends : u.top = s.top - 8 := by
      unfold State.top at moved ⊢
      rw [rsp]
      exact moved
    have word : u.topWord = s.register r := by
      refine topWord_of_push here ends fun x low high => ?_
      rw [memory, kept x (by omega) high]
      exact above x (.inr (by omega))
    refine ⟨?_, fun q inside => ?_, fun q outside other => ?_, ?_⟩
    · change ((u.set .rsp _).set r _).register .rsp = _
      rw [set_other first, set_self, rsp, pushWord_rsp]
      exact UInt64.sub_add_cancel _ _
    · change ((u.set .rsp _).set r _).register q = _
      by_cases equal : q = r
      · rw [equal, set_self, word]
      · have inner := (List.mem_cons.mp inside).resolve_left equal
        have away : q ≠ .rsp := fun same => rest (same ▸ inner)
        rw [set_other equal, set_other away, restored q inner, pushWord_register away]
    · change ((u.set .rsp _).set r _).register q = _
      obtain ⟨equal, outer⟩ := not_or.mp (mt List.mem_cons.mpr outside)
      rw [set_other equal, set_other other, others q outer other]
    · exact memory

/-! ## The frame of a function -/

/-- The state after `push rbp` and `mov rbp, rsp`. -/
def State.based (s : State) : State :=
  (s.pushWord (s.register .rbp)).set .rbp ((s.pushWord (s.register .rbp)).register .rsp)

theorem based_top (room : 8 ≤ s.top) : s.based.top = s.top - 8 := by
  unfold State.based State.top
  rw [set_other (by decide)]
  exact pushWord_top _ room

/-- A function saves what it uses below what was on the stack. -/
theorem enters (saved : List Register) (s : State) (plain : .rsp ∉ saved)
    (room : 8 * saved.length + 8 ≤ s.top) :
    (exec (entering saved) s).top = s.top - (8 * saved.length + 8) ∧
      (∀ r, r ≠ .rsp → r ≠ .rbp → (exec (entering saved) s).register r = s.register r) ∧
      ∀ x, x < s.top - (8 * saved.length + 8) ∨ s.top ≤ x →
        (exec (entering saved) s).memory x = s.memory x := by
  have here : 8 ≤ s.top := by omega
  have base := based_top here
  obtain ⟨moved, registers, memory⟩ := pushes s.based plain (by omega)
  refine ⟨?_, fun r other away => ?_, fun x outside => ?_⟩
  · refine moved.trans ?_
    omega
  · refine (registers r other).trans ?_
    unfold State.based
    rw [set_other away, pushWord_register other]
  · refine (memory x (by omega)).trans ?_
    exact pushWord_frame here (by omega)

theorem exec_unwind (u : State) : exec [mov .rsp .rbp, pop .rbp] u =
    ((u.set .rsp (u.register .rbp)).set .rsp ((u.set .rsp (u.register .rbp)).register .rsp + 8)).set
      .rbp (u.set .rsp (u.register .rbp)).topWord := rfl

/-- What it leaves is what it found. -/
theorem leaves (saved : List Register) (s t : State) (plain : .rsp ∉ saved) (free : .rbp ∉ saved)
    (room : 8 * saved.length + 8 ≤ s.top)
    (rsp : t.register .rsp = (exec (entering saved) s).register .rsp)
    (rbp : t.register .rbp = (exec (entering saved) s).register .rbp)
    (kept : ∀ x, (exec (entering saved) s).top ≤ x → x < s.top →
      t.memory x = (exec (entering saved) s).memory x) :
    (exec (leaving saved) t).register .rsp = s.register .rsp ∧
      (exec (leaving saved) t).register .rbp = s.register .rbp ∧
      (∀ r ∈ saved, (exec (leaving saved) t).register r = s.register r) ∧
      (∀ r, r ∉ saved → r ≠ .rsp → r ≠ .rbp →
        (exec (leaving saved) t).register r = t.register r) ∧
      (exec (leaving saved) t).memory = t.memory := by
  have here : 8 ≤ s.top := by omega
  have base := based_top here
  have body : exec (entering saved) s = exec (saved.map Instruction.push) s.based := rfl
  rw [body] at rsp rbp kept
  obtain ⟨moved, registers, memory⟩ := pushes s.based plain (by omega)
  rw [moved] at kept
  obtain ⟨ends, restored, others, same⟩ := pops s.based plain (by omega) rsp
    fun x low high => kept x low (by omega)
  unfold leaving
  rw [exec_append]
  generalize exec (saved.reverse.map pop) t = u at ends restored others same ⊢
  -- `mov rsp, rbp` finds the stack where the registers have been popped from.
  have found : u.register .rbp = s.based.register .rbp := by
    rw [others .rbp free (by decide), rbp, registers .rbp (by decide)]
  have bottom : s.based.register .rbp = s.register .rsp - 8 := by
    unfold State.based
    rw [set_self]
    exact pushWord_rsp _ _
  have word : (u.set .rsp (u.register .rbp)).topWord = s.register .rbp := by
    refine topWord_of_push here ?_ fun x low high => ?_
    · unfold State.top
      rw [set_self, found, bottom]
      exact lower_top here
    · rw [set_memory, same, kept x (by omega) high]
      exact memory x (.inr (by omega))
  rw [exec_unwind, word]
  refine ⟨?_, set_self, fun r inside => ?_, fun r outside other away => ?_, same⟩
  · rw [set_other (by decide), set_self, set_self, found, bottom]
    exact UInt64.sub_add_cancel _ _
  · have other : r ≠ .rsp := fun equal => plain (equal ▸ inside)
    have away : r ≠ .rbp := fun equal => free (equal ▸ inside)
    rw [set_other away, set_other other, set_other other, restored r inside]
    unfold State.based
    rw [set_other away, pushWord_register other]
  · rw [set_other away, set_other other, set_other other, others r outside other]

end SoKernel.Lib.Assembly
