import Mathlib.Tactic

namespace SoKernel.Lib

/-! ## Words by their numbers -/

/-- The words that were written, in a binary tree: an odd number goes on in the first subtree, an
even one in the second. -/
inductive Written where
  | nothing
  | node (here : Option Nat) (odd even : Written)

namespace Written

def here : Written → Option Nat
  | nothing => none
  | node value _ _ => value

def odd : Written → Written
  | nothing => nothing
  | node _ first _ => first

def even : Written → Written
  | nothing => nothing
  | node _ _ second => second

def get : Written → Nat → Option Nat
  | nothing, _ => none
  | node value first second, i =>
    if i = 0 then value else if i % 2 = 1 then first.get (i / 2) else second.get (i / 2 - 1)

/-- The path to `i` has at most `i` steps. -/
def insert : Nat → Nat → Nat → Written → Written
  | 0, _, value, tree => node (some value) tree.odd tree.even
  | fuel + 1, i, value, tree =>
    if i = 0 then node (some value) tree.odd tree.even
    else if i % 2 = 1 then node tree.here (insert fuel (i / 2) value tree.odd) tree.even
    else node tree.here tree.odd (insert fuel (i / 2 - 1) value tree.even)

variable {tree : Written} {fuel i j value : Nat}

theorem get_eq : tree.get i = if i = 0 then tree.here
    else if i % 2 = 1 then tree.odd.get (i / 2) else tree.even.get (i / 2 - 1) := by
  cases tree with
  | nothing => simp [get, here, odd, even]
  | node value first second => rw [get]; rfl

theorem get_insert (enough : i ≤ fuel) :
    (insert fuel i value tree).get j = if j = i then some value else tree.get j := by
  induction fuel generalizing tree i j with
  | zero =>
    have zero : i = 0 := Nat.le_zero.mp enough
    subst zero
    rw [insert, get, @get_eq tree]
    by_cases first : j = 0 <;> simp [first]
  | succ fuel ih =>
    rw [insert]
    by_cases root : i = 0
    · subst root
      rw [if_pos rfl, get, @get_eq tree]
      by_cases first : j = 0 <;> simp [first]
    · rw [if_neg root]
      by_cases uneven : i % 2 = 1
      · rw [if_pos uneven, get, @get_eq tree, ih (by omega)]
        by_cases first : j = 0
        · rw [if_pos first, if_pos first, if_neg (by omega)]
        · rw [if_neg first, if_neg first]
          by_cases same : j % 2 = 1
          · rw [if_pos same, if_pos same]
            by_cases equal : j = i
            · rw [if_pos equal, if_pos (by omega)]
            · rw [if_neg equal, if_neg (by omega)]
          · rw [if_neg same, if_neg same, if_neg (by omega)]
      · rw [if_neg uneven, get, @get_eq tree, ih (by omega)]
        by_cases first : j = 0
        · rw [if_pos first, if_pos first, if_neg (by omega)]
        · rw [if_neg first, if_neg first]
          by_cases same : j % 2 = 1
          · rw [if_pos same, if_pos same, if_neg (by omega)]
          · rw [if_neg same, if_neg same]
            by_cases equal : j = i
            · rw [if_pos equal, if_pos (by omega)]
            · rw [if_neg equal, if_neg (by omega)]

end Written

/-- Memory in little-endian words of 64 bits, word `i` with the bytes from `8 * i` on: what it
held before, and what was written. -/
structure WordMemory where
  before : Nat → Nat
  written : Written

/-- `value` in the place of some bytes of a word. -/
def splice (word offset bytes value : Nat) : Nat :=
  word % 256 ^ offset + 256 ^ offset * (value % 256 ^ bytes) +
    256 ^ (offset + bytes) * (word / 256 ^ (offset + bytes))

namespace WordMemory

def read (memory : WordMemory) (i : Nat) : Nat := (memory.written.get i).getD (memory.before i)

def write (memory : WordMemory) (i word : Nat) : WordMemory :=
  { memory with written := memory.written.insert i i word }

/-- At most eight bytes, in one word or in two. -/
def load (memory : WordMemory) (bytes address : Nat) : Nat :=
  if address % 8 + bytes ≤ 8 then memory.read (address / 8) / 256 ^ (address % 8) % 256 ^ bytes
  else (memory.read (address / 8) % 2 ^ 64 + 2 ^ 64 * memory.read (address / 8 + 1)) /
    256 ^ (address % 8) % 256 ^ bytes

def store (memory : WordMemory) (bytes address value : Nat) : WordMemory :=
  if address % 8 + bytes ≤ 8 then
    memory.write (address / 8)
      (splice (memory.read (address / 8)) (address % 8) bytes value)
  else
    let both := splice
      (memory.read (address / 8) % 2 ^ 64 + 2 ^ 64 * memory.read (address / 8 + 1))
      (address % 8) bytes value
    (memory.write (address / 8) (both % 2 ^ 64)).write (address / 8 + 1) (both / 2 ^ 64)

variable {memory : WordMemory} {i j word : Nat}

theorem read_write : (memory.write i word).read j = if j = i then word else memory.read j := by
  unfold read write
  rw [Written.get_insert (Nat.le_refl i)]
  by_cases same : j = i <;> simp [same]

end WordMemory

/-! ## The bytes of a word -/

variable {word offset other bytes width value : Nat}

theorem splice_low : splice word offset bytes value % 256 ^ offset = word % 256 ^ offset := by
  unfold splice
  rw [Nat.pow_add, Nat.mul_assoc, Nat.add_mul_mod_self_left, Nat.add_mul_mod_self_left,
    Nat.mod_mod]

theorem splice_middle :
    splice word offset bytes value / 256 ^ offset % 256 ^ bytes = value % 256 ^ bytes := by
  have positive : 0 < 256 ^ offset := Nat.pow_pos (by decide)
  unfold splice
  rw [Nat.pow_add, Nat.mul_assoc, Nat.add_assoc, ← Nat.mul_add, Nat.add_mul_div_left _ _ positive,
    Nat.div_eq_of_lt (Nat.mod_lt _ positive), Nat.zero_add, Nat.add_mul_mod_self_left, Nat.mod_mod]

theorem splice_high :
    splice word offset bytes value / 256 ^ (offset + bytes) = word / 256 ^ (offset + bytes) := by
  have positive : 0 < 256 ^ offset := Nat.pow_pos (by decide)
  have wide : 0 < 256 ^ bytes := Nat.pow_pos (by decide)
  have low : word % 256 ^ offset + 256 ^ offset * (value % 256 ^ bytes) < 256 ^ (offset + bytes) := by
    have first := Nat.mod_lt word positive
    have second : value % 256 ^ bytes + 1 ≤ 256 ^ bytes := Nat.mod_lt value wide
    calc word % 256 ^ offset + 256 ^ offset * (value % 256 ^ bytes)
        < 256 ^ offset + 256 ^ offset * (value % 256 ^ bytes) := Nat.add_lt_add_right first _
      _ = 256 ^ offset * (value % 256 ^ bytes + 1) := by rw [Nat.mul_add, Nat.mul_one, Nat.add_comm]
      _ ≤ 256 ^ offset * 256 ^ bytes := Nat.mul_le_mul_left _ second
      _ = 256 ^ (offset + bytes) := (Nat.pow_add ..).symm
  unfold splice
  rw [Nat.add_mul_div_left _ _ (Nat.pow_pos (by decide)), Nat.div_eq_of_lt low, Nat.zero_add]

/-- Bytes behind the spliced ones stay. -/
theorem splice_behind (behind : offset + bytes ≤ other) :
    splice word offset bytes value / 256 ^ other = word / 256 ^ other := by
  obtain ⟨more, rfl⟩ := Nat.exists_eq_add_of_le behind
  rw [Nat.pow_add 256 (offset + bytes), ← Nat.div_div_eq_div_mul, splice_high,
    Nat.div_div_eq_div_mul]

/-- Bytes before the spliced ones stay. -/
theorem splice_before (before : other + width ≤ offset) :
    splice word offset bytes value / 256 ^ other % 256 ^ width =
      word / 256 ^ other % 256 ^ width := by
  have divides : 256 ^ (other + width) ∣ 256 ^ offset := Nat.pow_dvd_pow 256 before
  have low : splice word offset bytes value % 256 ^ (other + width) =
      word % 256 ^ (other + width) := by
    rw [← Nat.mod_mod_of_dvd _ divides, splice_low, Nat.mod_mod_of_dvd _ divides]
  rw [← Nat.mod_mul_right_div_self, ← Nat.mod_mul_right_div_self, ← Nat.pow_add, low]

/-! ## Reading what was written -/

namespace WordMemory

variable {memory : WordMemory} {address place : Nat}

theorem load_store (inside : address % 8 + bytes ≤ 8) :
    (memory.store bytes address value).load bytes address = value % 256 ^ bytes := by
  unfold load store
  rw [if_pos inside, if_pos inside, read_write, if_pos rfl]
  exact splice_middle

theorem load_store_apart (inside : address % 8 + bytes ≤ 8) (within : place % 8 + width ≤ 8)
    (apart : place + width ≤ address ∨ address + bytes ≤ place) :
    (memory.store bytes address value).load width place = memory.load width place := by
  unfold load store
  rw [if_pos within, if_pos inside, if_pos within]
  rw [read_write]
  by_cases same : place / 8 = address / 8
  · rw [if_pos same, same]
    rcases apart with before | behind
    · exact splice_before (by omega)
    · rw [splice_behind (by omega)]
  · rw [if_neg same]

theorem load_lt : memory.load bytes address < 256 ^ bytes := by
  unfold load
  split
  · exact Nat.mod_lt _ (Nat.pow_pos (by decide))
  · exact Nat.mod_lt _ (Nat.pow_pos (by decide))

end WordMemory
end SoKernel.Lib
