import SoKernel.Memory.BitmapGrammar
import SoKernel.Lib.Stretches

namespace SoKernel.Bitmap
open Buddy Lib

/-! ## The invariant of the allocator -/

/-- The bitmap is made of free blocks and groups, and the counters agree with it. -/
structure Valid (m : Mm) : Prop where
  start : m.start = createMemoryManager.start
  blockQty : m.blockQty = createMemoryManager.blockQty
  length : m.bitmap.length = m.blockQty
  grammar : Grammar m.bitmap
  blocksUsed : m.blocksUsed = m.bitmap.countP (· ≠ .free)
  current : m.current ≤ m.blockQty

variable {m m' : Mm} {a b i j k n index left low freeBlocks p : Nat} {entry x : Entry}
variable {entries pre post before rest body : List Entry}

theorem start_eq : createMemoryManager.start = 39452672 := rfl

theorem blockQty_eq : createMemoryManager.blockQty = 8290304 := rfl

theorem Valid.numbers (valid : Valid m) : m.start = 39452672 ∧ m.blockQty = 8290304 ∧
    m.bitmap.length = 8290304 ∧ m.blocksUsed ≤ 8290304 := by
  have qty := valid.blockQty.trans blockQty_eq
  have length := valid.length.trans qty
  have used : m.bitmap.countP (· ≠ .free) ≤ m.bitmap.length := List.countP_le_length
  have counted := valid.blocksUsed
  refine ⟨valid.start.trans start_eq, qty, length, ?_⟩
  omega

theorem createMemoryManager_valid : Valid createMemoryManager where
  start := rfl
  blockQty := rfl
  length := List.length_replicate
  grammar := grammar_free _
  blocksUsed := by
    change 0 = (List.replicate createMemoryManager.blockQty Entry.free).countP (· ≠ .free)
    rw [List.countP_eq_zero.mpr]
    simp
  current := Nat.zero_le _

theorem u32_small (small : a < 2 ^ 32) : u32 a = a := Nat.mod_eq_of_lt small

theorem sub32_small (less : b ≤ a) (small : a < 2 ^ 32) : sub32 a b = a - b := by
  unfold sub32
  rw [show a + 2 ^ 32 - b = (a - b) + 2 ^ 32 by omega]
  unfold u32
  rw [Nat.add_mod_right, Nat.mod_eq_of_lt (by omega)]

theorem sizeToBlockQty_blocks (i : Nat) : sizeToBlockQty (i * blockSize) = i := by
  simp [sizeToBlockQty, blockSize]

/-- The blocks that a request gets are large enough, and no more than needed. -/
theorem sizeToBlockQty_covers (n : Nat) : n ≤ sizeToBlockQty n * blockSize ∧
    sizeToBlockQty n ≤ n ∧ (0 < n → 0 < sizeToBlockQty n) := by
  unfold sizeToBlockQty blockSize
  split
  · omega
  · omega

theorem Valid.blockAddress (valid : Valid m) (inside : i ≤ m.blockQty) :
    m.blockAddress i = m.start + i * blockSize := by
  obtain ⟨_, qty, _, _⟩ := valid.numbers
  unfold Mm.blockAddress
  rw [u32_small]
  unfold blockSize
  omega

/-! ## The search -/

/-- The entry at `i` is FREE. -/
def Mm.FreeAt (m : Mm) (i : Nat) : Prop := m.bitmap[i]? = some .free

instance (m : Mm) (i : Nat) : Decidable (m.FreeAt i) := inferInstanceAs (Decidable (_ = _))

/-- The loop finds the first free blocks in a row that are as many as needed, or returns 0. -/
theorem findFreeFrom_spec (left : Nat) (scanned : Scanned m.FreeAt n low freeBlocks i)
    (whole : i + left = m.bitmap.length) : ∃ p,
    m.findFreeFrom n left freeBlocks i = some p ∧
      ((p = 0 ∧ ∀ b, low ≤ b → ¬ Stretch m.FreeAt b n) ∨
        ∃ a, p = m.blockAddress a ∧ FirstStretch m.FreeAt n low a) := by
  induction left generalizing freeBlocks i with
  | zero =>
    have fewer := scanned.fewer
    refine ⟨0, congrArg some (if_neg (by omega)), .inl ⟨rfl, scanned.done ?_⟩⟩
    intro j past free
    have inside := (List.getElem?_eq_some_iff.mp free).1
    omega
  | succ left ih =>
    obtain ⟨entry, here⟩ : ∃ entry, m.bitmap[i]? = some entry :=
      ⟨_, List.getElem?_eq_getElem (by omega)⟩
    unfold Mm.findFreeFrom
    rw [here]
    cases entry with
    | free =>
      dsimp only
      by_cases enough : freeBlocks + 1 = n
      · rw [if_pos enough]
        exact ⟨_, rfl, .inr ⟨_, rfl, scanned.found here enough⟩⟩
      · rw [if_neg enough]
        have fewer := scanned.fewer
        exact ih (scanned.more here (by omega)) (by omega)
    | used | startBoundary | endBoundary | singleBlock =>
      have taken : ¬ m.FreeAt i := by
        intro free
        unfold Mm.FreeAt at free
        rw [here] at free
        cases free
      exact ih (scanned.restart taken) (by omega)

theorem findFreeBlocks_spec {start : Nat} (needed : 0 < n) (inside : start ≤ m.bitmap.length) :
    ∃ p, m.findFreeBlocks n start m.bitmap.length = some p ∧
      ((p = 0 ∧ ∀ b, start ≤ b → ¬ Stretch m.FreeAt b n) ∨
        ∃ a, p = m.blockAddress a ∧ FirstStretch m.FreeAt n start a) :=
  findFreeFrom_spec _ (.start needed) (by omega)

theorem free_inside (positive : 0 < n) (free : Stretch m.FreeAt a n) : a + n ≤ m.bitmap.length := by
  have inside := (List.getElem?_eq_some_iff.mp (free (a + n - 1) (by omega) (by omega))).1
  omega

/-- Free blocks in a row, and what stands before and after them. -/
theorem free_run (positive : 0 < n) (free : ∀ j, a ≤ j → j < a + n → entries[j]? = some .free) :
    ∃ pre post, pre.length = a ∧ entries = pre ++ (List.replicate n .free ++ post) := by
  have long : a + n ≤ entries.length := by
    have last := free (a + n - 1) (by omega) (by omega)
    have inside := (List.getElem?_eq_some_iff.mp last).1
    omega
  have run : (entries.drop a).take n = List.replicate n .free := by
    apply List.ext_getElem?
    intro j
    by_cases below : j < n
    · rw [List.getElem?_take_of_lt below, List.getElem?_drop,
        List.getElem?_replicate_of_lt below]
      exact free (a + j) (by omega) (by omega)
    · rw [List.getElem?_eq_none (by simp; omega), List.getElem?_eq_none (by simp; omega)]
  refine ⟨entries.take a, (entries.drop a).drop n, by simp; omega, ?_⟩
  rw [← run, List.take_append_drop, List.take_append_drop]

/-! ## The writes -/

theorem write_append (before rest : List Entry) (split : m.bitmap = before ++ x :: rest)
    (here : before.length = i) :
    m.write i entry = some { m with bitmap := before ++ entry :: rest } := by
  unfold Mm.write
  rw [split, if_pos (by simp; omega), ← here]
  simp

/-- The inner blocks of a group. -/
theorem markUsed_spec (left : Nat) (before rest : List Entry)
    (split : m.bitmap = before ++ (List.replicate left .free ++ rest))
    (here : before.length = index + i) (small : m.bitmap.length < 2 ^ 32)
    (room : m.blocksUsed + left < 2 ^ 32) : Mm.markUsed index left i m =
      some { m with
        blocksUsed := m.blocksUsed + left
        bitmap := before ++ (List.replicate left .used ++ rest) } := by
  induction left generalizing before i m with
  | zero =>
    unfold Mm.markUsed
    obtain ⟨start, qty, used, bitmap, current⟩ := m
    cases split
    rfl
  | succ left ih =>
    have long := congrArg List.length split
    simp at long
    rw [List.replicate_succ, List.cons_append] at split
    have position : u32 (index + i) = before.length := by
      rw [u32_small (by omega), here]
    unfold Mm.markUsed
    rw [position, u32_small (by omega),
      write_append (m := { m with blocksUsed := m.blocksUsed + 1 }) before _ split rfl]
    dsimp only
    rw [ih (before ++ [.used]) (by simp) (by simp; omega) (by simp; omega) (by simp; omega)]
    simp [List.replicate_succ, Nat.add_comm, Nat.add_left_comm]

/-- A group of two or more takes the place of free blocks. -/
theorem markGroupAsUsed_spec (split : m.bitmap = pre ++ (List.replicate n .free ++ post))
    (many : 2 ≤ n) (small : m.bitmap.length < 2 ^ 32) (room : m.blocksUsed + n < 2 ^ 32) :
    m.markGroupAsUsed n pre.length = some (m.blockAddress pre.length,
      { m with
        blocksUsed := m.blocksUsed + n
        bitmap := pre ++ (group n ++ post) }) := by
  obtain ⟨inner, rfl⟩ := Nat.exists_eq_add_of_le' many
  have long := congrArg List.length split
  simp at long
  have first : m.bitmap = pre ++ .free :: (List.replicate (inner + 1) .free ++ post) := split
  have last : u32 (pre.length + (inner + 2) - 1) =
      (pre ++ Entry.startBoundary :: List.replicate inner .free).length := by
    rw [u32_small (by omega)]
    simp
  have between : pre ++ .startBoundary :: (List.replicate (inner + 1) .free ++ post) =
      (pre ++ .startBoundary :: List.replicate inner .free) ++ Entry.free :: post := by
    simp [List.replicate_succ']
  have counted : u32 (m.blocksUsed + 2) = m.blocksUsed + 2 := u32_small (by omega)
  have marked := markUsed_spec (m := { m with
      blocksUsed := m.blocksUsed + 2
      bitmap := (pre ++ .startBoundary :: List.replicate inner .free) ++ .endBoundary :: post })
    inner (pre ++ [.startBoundary]) (.endBoundary :: post) (by simp)
    (show (pre ++ [Entry.startBoundary]).length = pre.length + 1 by simp) (by simp; omega)
    (by dsimp only; omega)
  unfold Mm.markGroupAsUsed
  rw [write_append pre _ first rfl, Option.bind_eq_bind, Option.bind_some, last,
    write_append _ post between rfl, Option.bind_some]
  dsimp only
  rw [counted, Nat.add_sub_cancel, marked]
  simp [group_two, Mm.blockAddress]
  omega

/-! ## `allocMemory` -/

/-- What an allocation of `n` blocks at entry `a` changes. -/
structure Allocates (a n : Nat) (m m' : Mm) : Prop where
  start : m'.start = m.start
  blockQty : m'.blockQty = m.blockQty
  current : m'.current = a + n
  blocksUsed : m'.blocksUsed = m.blocksUsed + n
  placed : Placed a n m.bitmap m'.bitmap

theorem Allocates.valid (allocates : Allocates a n m m') (valid : Valid m) : Valid m' where
  start := allocates.start.trans valid.start
  blockQty := allocates.blockQty.trans valid.blockQty
  length := by
    rw [allocates.placed.length.1, valid.length, allocates.blockQty]
  grammar := allocates.placed.grammar_iff.mp valid.grammar
  blocksUsed := by
    rw [allocates.blocksUsed, valid.blocksUsed, allocates.placed.count]
  current := by
    rw [allocates.current, allocates.blockQty, ← valid.length]
    exact allocates.placed.length.2

/-- The two searches together. -/
theorem Valid.nextFit (valid : Valid m) (needed : 0 < n) : ∃ p, m.nextFit n = some p ∧
    ((p = 0 ∧ ∀ b, ¬ Stretch m.FreeAt b n) ∨
      ∃ a, p = m.start + a * blockSize ∧ NextFit m.FreeAt n m.current a) := by
  obtain ⟨start, qty, length, _⟩ := valid.numbers
  have named : ∀ {p a}, p = m.blockAddress a → Stretch m.FreeAt a n →
      p = m.start + a * blockSize := by
    intro p a same free
    have inside := free_inside needed free
    rw [same, valid.blockAddress (by omega)]
  obtain ⟨found, search, first⟩ := findFreeBlocks_spec (m := m) needed
    (show m.current ≤ m.bitmap.length by rw [valid.length]; exact valid.current)
  obtain ⟨again, search', second⟩ := findFreeBlocks_spec (m := m) needed (Nat.zero_le _)
  rw [valid.length] at search search'
  unfold Mm.nextFit
  rw [search, Option.bind_eq_bind, Option.bind_some]
  rcases first with ⟨rfl, nothing⟩ | ⟨a, same, here⟩
  · refine ⟨again, (if_pos rfl).trans search', ?_⟩
    rcases second with ⟨rfl, nowhere⟩ | ⟨a, same, here⟩
    · exact .inl ⟨rfl, fun b => nowhere b (Nat.zero_le b)⟩
    · exact .inr ⟨a, named same here.here, .inr ⟨nothing, here⟩⟩
  · have address := named same here.here
    exact ⟨found, if_neg (by omega), .inr ⟨a, address, .inl here⟩⟩

/-- Where more blocks are needed than are free there are not so many in a row. -/
theorem Valid.crowded (valid : Valid m) (positive : 0 < n) (full : m.blockQty - m.blocksUsed < n)
    (a : Nat) : ¬ Stretch m.FreeAt a n := by
  intro free
  obtain ⟨pre, post, _, split⟩ := free_run positive free
  have counted := valid.blocksUsed
  have length := valid.length
  have others : pre.countP (· ≠ .free) + post.countP (· ≠ .free) ≤ pre.length + post.length :=
    Nat.add_le_add List.countP_le_length List.countP_le_length
  have none : (List.replicate n Entry.free).countP (· ≠ .free) = 0 := by simp
  rw [split] at counted length
  simp only [List.countP_append, none, List.length_append, List.length_replicate] at counted length
  omega

/-- An allocation succeeds on the next fit, or there is none and nothing changes. -/
theorem Valid.allocMemory (valid : Valid m) (positive : 0 < u32 k) :
    ∃ p m', m.allocMemory k = some (p, m') ∧
      ((p = 0 ∧ m' = m ∧ ∀ b, ¬ Stretch m.FreeAt b (sizeToBlockQty (u32 k))) ∨
        ∃ a, p = m.start + a * blockSize ∧
          NextFit m.FreeAt (sizeToBlockQty (u32 k)) m.current a ∧
          Allocates a (sizeToBlockQty (u32 k)) m m') := by
  obtain ⟨start, qty, length, used⟩ := valid.numbers
  have needed := (sizeToBlockQty_covers (u32 k)).2.2 positive
  unfold Mm.allocMemory
  rw [sub32_small (by omega) (by omega)]
  dsimp only
  generalize sizeToBlockQty (u32 k) = n at needed ⊢
  by_cases full : m.blockQty - m.blocksUsed < n
  · exact ⟨0, m, if_pos full, .inl ⟨rfl, rfl, valid.crowded needed full⟩⟩
  · obtain ⟨p, found, which⟩ := valid.nextFit needed
    rw [if_neg full, found, Option.bind_eq_bind, Option.bind_some]
    rcases which with ⟨rfl, nowhere⟩ | ⟨a, rfl, fit⟩
    · exact ⟨0, m, if_pos rfl, .inl ⟨rfl, rfl, nowhere⟩⟩
    · have inside := free_inside needed fit.here
      obtain ⟨pre, post, here, split⟩ := free_run needed fit.here
      have present : m.start + a * blockSize ≠ 0 := by omega
      have offset : m.start + a * blockSize - m.start = a * blockSize := by omega
      have index : a * blockSize / blockSize = a := Nat.mul_div_cancel _ (by decide)
      have position : u32 (a * blockSize) = a * blockSize := u32_small (by
        unfold blockSize
        omega)
      have current : u32 (a + n) = a + n := u32_small (by omega)
      rw [if_neg present, offset, index, position, sizeToBlockQty_blocks, current]
      have placed : Placed a n m.bitmap (pre ++ (group n ++ post)) :=
        ⟨needed, pre, post, here, split, rfl⟩
      by_cases single : n = 1
      · subst single
        have written : ({ m with current := a + 1 } : Mm).write a .singleBlock = _ :=
          write_append pre post split here
        rw [if_pos rfl, written, Option.bind_eq_bind, Option.bind_some]
        refine ⟨_, _, rfl, .inr ⟨a, rfl, fit, rfl, rfl, rfl, u32_small ?_, placed⟩⟩
        dsimp only
        omega
      · have marked := markGroupAsUsed_spec (m := { m with current := a + n }) split (by omega)
          (by dsimp only; omega) (by dsimp only; omega)
        rw [if_neg single, u32_small (by omega), ← here]
        rw [← here] at marked
        rw [marked]
        have address : ({ m with current := pre.length + n } : Mm).blockAddress pre.length =
            m.start + pre.length * blockSize := valid.blockAddress (by omega)
        rw [address]
        refine ⟨_, _, rfl, .inr ⟨pre.length, rfl, by rw [here]; exact fit, rfl, rfl, rfl, rfl, ?_⟩⟩
        rw [here]
        exact placed

/-! ## `freeMemory` -/

/-- What freeing the `n` blocks at entry `a` changes. -/
structure Frees (a n : Nat) (m m' : Mm) : Prop where
  start : m'.start = m.start
  blockQty : m'.blockQty = m.blockQty
  current : m'.current = m.current
  blocksUsed : m'.blocksUsed + n = m.blocksUsed
  placed : Placed a n m'.bitmap m.bitmap

theorem Frees.valid (frees : Frees a n m m') (valid : Valid m) : Valid m' where
  start := frees.start.trans valid.start
  blockQty := frees.blockQty.trans valid.blockQty
  length := by
    rw [← frees.placed.length.1, valid.length, frees.blockQty]
  grammar := frees.placed.grammar_iff.mpr valid.grammar
  blocksUsed := by
    have counted := frees.placed.count
    have before := valid.blocksUsed
    have after := frees.blocksUsed
    omega
  current := by
    rw [frees.current, frees.blockQty]
    exact valid.current

/-- The loop frees up to the first end of a group. -/
theorem freeGroup_spec (left : Nat) (before body post : List Entry)
    (split : m.bitmap = before ++ (body ++ .endBoundary :: post))
    (inner : ∀ entry ∈ body, entry ≠ .endBoundary) (here : before.length = index + k)
    (small : m.bitmap.length < 2 ^ 32) (enough : body.length < left) :
    Mm.freeGroup index left k m = some { m with
      blocksUsed := sub32 m.blocksUsed (k + body.length + 1)
      bitmap := before ++ (List.replicate (body.length + 1) .free ++ post) } := by
  have long := congrArg List.length split
  simp at long
  have position : u32 (index + k) = before.length := by
    rw [u32_small (by omega), here]
  induction body generalizing before k left m with
  | nil =>
    obtain ⟨left, rfl⟩ := Nat.exists_eq_succ_of_ne_zero (Nat.pos_iff_ne_zero.mp enough)
    have entry : m.bitmap[before.length]? = some .endBoundary := by simp [split]
    unfold Mm.freeGroup
    rw [position, entry]
    dsimp only
    rw [write_append before post split rfl]
    rfl
  | cons first body ih =>
    obtain ⟨left, rfl⟩ := Nat.exists_eq_succ_of_ne_zero (Nat.pos_iff_ne_zero.mp
      (Nat.lt_of_le_of_lt (Nat.zero_le _) enough))
    have entry : m.bitmap[before.length]? = some first := by simp [split]
    have written : m.write before.length .free = _ :=
      write_append before (body ++ .endBoundary :: post) split rfl
    have rest := ih left (k := k + 1)
      (m := { m with bitmap := before ++ .free :: (body ++ .endBoundary :: post) }) (before ++ [.free])
      (by simp) (fun entry member => inner entry (List.mem_cons_of_mem _ member))
      (by simp; omega) (by simp; simp at long; omega) (by simp at enough; omega)
      (by simp; simp at long; omega) (by
        simp at long
        rw [u32_small (by omega)]
        simp
        omega)
    have other := inner first List.mem_cons_self
    unfold Mm.freeGroup
    rw [position, entry]
    cases first with
    | endBoundary => exact absurd rfl other
    | _ =>
      dsimp only
      rw [written]
      dsimp only
      rw [rest]
      simp [List.replicate_succ, Nat.add_comm, Nat.add_left_comm]

/-- Before an entry that begins something the bitmap is complete. -/
theorem Valid.split (valid : Valid m) (here : m.bitmap[a]? = some entry)
    (begins : ∀ rest, parse true (entry :: rest) = none) : ∃ pre rest, pre.length = a ∧
      m.bitmap = pre ++ entry :: rest ∧ parse false (entry :: rest) = some false := by
  obtain ⟨inside, same⟩ := List.getElem?_eq_some_iff.mp here
  have split : m.bitmap = m.bitmap.take a ++ entry :: m.bitmap.drop (a + 1) := by
    rw [← same, List.getElem_cons_drop, List.take_append_drop]
  have grammar := valid.grammar
  rw [split] at grammar
  obtain ⟨_, accepted⟩ := grammar.split (by simp [begins])
  exact ⟨_, _, by simp; omega, split, accepted⟩

/-- A group of two or more, with what stands before and after it. -/
theorem Valid.long_group (valid : Valid m) (here : m.bitmap[a]? = some .startBoundary) :
    ∃ pre inner post, pre.length = a ∧ m.bitmap = pre ++ (group (inner + 2) ++ post) := by
  obtain ⟨pre, rest, before, split, accepted⟩ := valid.split here fun _ => rfl
  obtain ⟨inner, post, rfl, _⟩ := parse_inside accepted
  refine ⟨pre, inner, post, before, ?_⟩
  rw [split, group_two]
  simp

/-- An aligned address of the heap, and the entry it stands for. -/
theorem Valid.exists_entry (valid : Valid m) (low : m.start ≤ p)
    (high : p < m.start + m.blockQty * blockSize) (aligned : p % blockSize = 0) :
    ∃ a, p = m.start + a * blockSize ∧ a < m.bitmap.length ∧
      u32 (u64 (p + 2 ^ 64 - m.start) / blockSize) = a := by
  obtain ⟨start, qty, length, _⟩ := valid.numbers
  obtain ⟨a, rfl⟩ : ∃ a, p = m.start + a * blockSize := by
    refine ⟨(p - m.start) / blockSize, ?_⟩
    unfold blockSize at aligned ⊢
    omega
  have inside : a < 8290304 := by
    unfold blockSize at high
    omega
  refine ⟨a, rfl, by omega, ?_⟩
  unfold u64
  rw [show m.start + a * blockSize + 2 ^ 64 - m.start = a * blockSize + 2 ^ 64 by omega,
    Nat.add_mod_right, Nat.mod_eq_of_lt (by unfold blockSize; omega),
    Nat.mul_div_cancel _ (by decide), u32_small (by omega)]

/-- Freeing an address of the region frees the group that begins there; where none begins
nothing changes. -/
theorem Valid.freeMemory (valid : Valid m) (low : m.start ≤ p)
    (high : p < m.start + m.blockQty * blockSize) : ∃ m', m.freeMemory p = some m' ∧
      ((m' = m ∧ ∀ a n, p = m.start + a * blockSize → ¬ GroupAt m.bitmap a n) ∨
        ∃ a n, p = m.start + a * blockSize ∧ Frees a n m m') := by
  obtain ⟨start, qty, length, used⟩ := valid.numbers
  unfold Mm.freeMemory
  by_cases aligned : p = 0 ∨ p % blockSize ≠ 0
  · refine ⟨m, if_pos aligned, .inl ⟨rfl, ?_⟩⟩
    rintro a n rfl _
    unfold blockSize at aligned
    omega
  · rw [if_neg aligned]
    dsimp only
    obtain ⟨a, rfl, inside, index⟩ :=
      valid.exists_entry low high (not_not.mp (not_or.mp aligned).2)
    rw [index]
    obtain ⟨entry, here⟩ : ∃ entry, m.bitmap[a]? = some entry :=
      ⟨_, List.getElem?_eq_getElem inside⟩
    have nothing : (∀ n, entry ≠ if n = 1 then .singleBlock else .startBoundary) →
        ∀ b n, m.start + a * blockSize = m.start + b * blockSize → ¬ GroupAt m.bitmap b n := by
      intro other b n same group
      have equal : a = b := by
        unfold blockSize at same
        omega
      rw [← equal] at group
      exact other n (Option.some.inj (here.symm.trans group.first))
    rw [here]
    cases entry with
    | free => exact ⟨m, rfl, .inl ⟨rfl, nothing fun n => by split <;> decide⟩⟩
    | used => exact ⟨m, rfl, .inl ⟨rfl, nothing fun n => by split <;> decide⟩⟩
    | endBoundary => exact ⟨m, rfl, .inl ⟨rfl, nothing fun n => by split <;> decide⟩⟩
    | singleBlock =>
      obtain ⟨pre, rest, before, split, _⟩ := valid.split here fun _ => rfl
      have placed : Placed a 1 (pre ++ .free :: rest) m.bitmap :=
        ⟨Nat.one_pos, pre, rest, before, rfl, split⟩
      have counted := placed.count
      have total := valid.blocksUsed
      have written : m.write a .free = _ := write_append pre rest split before
      dsimp only
      rw [written]
      refine ⟨_, rfl, .inr ⟨a, 1, rfl, rfl, rfl, rfl, ?_, placed⟩⟩
      dsimp only
      rw [sub32_small (by omega) (by omega)]
      omega
    | startBoundary =>
      obtain ⟨pre, inner, post, before, split⟩ := valid.long_group here
      have placed : Placed a (inner + 2) (pre ++ (List.replicate (inner + 2) .free ++ post))
          m.bitmap := ⟨Nat.succ_pos _, pre, post, before, rfl, split⟩
      have whole : m.bitmap = pre ++ ((.startBoundary :: List.replicate inner .used) ++
          .endBoundary :: post) := by
        rw [split, group_two]
        simp
      have counted := placed.count
      have total := valid.blocksUsed
      have long := congrArg List.length whole
      simp at long
      have freed : Mm.freeGroup a (m.bitmap.length + 1) 0 m = _ :=
        freeGroup_spec _ pre _ post whole (by simp) before (by omega) (by simp; omega)
      dsimp only
      rw [freed]
      refine ⟨_, rfl, .inr ⟨a, inner + 2, rfl, rfl, rfl, rfl, ?_, ?_⟩⟩
      · simp
        rw [sub32_small (by omega) (by omega)]
        omega
      · simpa using placed

end SoKernel.Bitmap
