import SoKernel.Lib.Bytes
import SoKernel.Kernel.Creation

namespace SoKernel.ProcessStack
open Lib Bytes

/-! ## `process/processStackFrame.c`, byte by byte -/

/-- Conversion to `int`. -/
def int32 (value : Nat) : Int := Int.bmod value (2 ^ 32)

/-- Conversion to `uint64_t`. -/
def toU64 (value : Int) : Nat := (value % 2 ^ 64).toNat

/-- The string without its terminator. Both loops of `lib/lib.c`: what follows the string is
filled up with NUL. -/
def strncpy (destination : Nat) : List UInt8 → Nat → Bytes → Bytes
  | _, 0, m => m
  | [], length + 1, m => strncpy (destination + 1) [] length (m.store destination 0)
  | char :: source, length + 1, m =>
    strncpy (destination + 1) source length (m.store destination char)

/-- The loop of `copyArgsToProcessStack`, at the argument before the `i`-th. -/
def copyStrings (argv : List (List UInt8)) (newArgv : Nat) : Nat → Nat → Bytes → Nat × Bytes
  | 0, paramsBase, m => (paramsBase, m)
  | i + 1, paramsBase, m =>
    let arg := argv.getD i []
    let len := int32 (arg.length + 1)
    let paramsBase := toU64 (paramsBase - len)
    let m := strncpy paramsBase arg (toU64 len) m
    copyStrings argv newArgv i paramsBase (m.storeAll (newArgv + 8 * i) (word paramsBase))

/-- The new vector, what is left of the stack, and memory. -/
def copyArgsToProcessStack (paramsBase : Nat) (argv : List (List UInt8)) (m : Bytes) :
    Nat × Nat × Bytes :=
  let argc := argv.length
  if 0 < argc then
    let newArgv := toU64 (paramsBase - 8 * (argc + 1))
    let copied := copyStrings argv newArgv (int32 (argc - 1) + 1).toNat newArgv m
    (newArgv, copied.1, copied.2.storeAll (newArgv + 8 * argc) (word 0))
  else (0, paramsBase, m)

/-- The words that `processStackFrame` pushes: for `iretq`, then the registers from `r15` to
`rax`. -/
def frame (wrapper paramsBase entryPoint argc newArgv : Nat) : List Nat :=
  [0, paramsBase, 0x202, 0x8, wrapper,
    0, 0, 0, 0, 0, 0, 0, entryPoint, 0, argc, newArgv, 0, 0, 0, 0]

def pushAll : List Nat → Nat → Bytes → Nat × Bytes
  | [], rsp, m => (rsp, m)
  | value :: values, rsp, m =>
    let rsp := toU64 (rsp - 8)
    pushAll values rsp (m.storeAll rsp (word value))

def processStackFrame (wrapper paramsBase entryPoint argc newArgv : Nat) (m : Bytes) :
    Nat × Bytes :=
  pushAll (frame wrapper paramsBase entryPoint argc newArgv) (paramsBase / 16 * 16) m

structure Setup where
  stackBase : Nat
  newArgv : Nat
  paramsBase : Nat
  rsp : Nat
  memory : Bytes

/-- On the block that `allocMemory` returned; `none` for NULL. -/
def setupProcessStack (wrapper block entryPoint : Nat) (argv : List (List UInt8)) (m : Bytes) :
    Option Setup :=
  if block = 0 then none
  else
    let stackBase := (block + stackSize) % 2 ^ 64
    let copied := copyArgsToProcessStack stackBase argv m
    let framed :=
      processStackFrame wrapper copied.2.1 entryPoint argv.length copied.1 copied.2.2
    some ⟨stackBase, copied.1, copied.2.1, framed.1, framed.2⟩

/-! ## What should arrive -/

/-- The bytes of the first `i` strings, terminators included. -/
def below (argv : List (List UInt8)) (i : Nat) : Nat :=
  ((argv.take i).map fun arg => arg.length + 1).sum

/-- What the vector takes; the empty one is NULL. -/
def arraySize (argv : List (List UInt8)) : Nat := if argv = [] then 0 else 8 * (argv.length + 1)

/-- The frame, the copies that `pointer` finds, and the vector. -/
def regions (argv : List (List UInt8)) (pointer : Nat → Nat) (done : Setup) : List Region :=
  ⟨done.rsp, 160⟩ :: ((List.range argv.length).map fun i =>
    ⟨pointer i, (argv.getD i []).length + 1⟩) ++ [⟨done.newArgv, arraySize argv⟩]

/-- The vector and its strings are on the new stack, nothing overlaps, and nothing was written
elsewhere. -/
structure Arrived (argv : List (List UInt8)) (wrapper block entryPoint : Nat) (m : Bytes)
    (done : Setup) (pointer : Nat → Nat) : Prop where
  entries : ∀ i < argv.length, done.memory.Holds (done.newArgv + 8 * i) (word (pointer i))
  copies : ∀ i < argv.length, done.memory.Holds (pointer i) (argv.getD i [] ++ [0])
  terminated : argv ≠ [] → done.memory.Holds (done.newArgv + 8 * argv.length) (word 0)
  empty : argv = [] → done.newArgv = 0
  framed : done.memory.Holds done.rsp
    ((frame wrapper done.paramsBase entryPoint argv.length done.newArgv).reverse.flatMap word)
  disjoint : (regions argv pointer done).Pairwise Region.Disjoint
  inside : ∀ region ∈ regions argv pointer done, region.Inside ⟨block, stackSize⟩
  outside : ∀ x, ¬ Region.Has ⟨block, stackSize⟩ x → done.memory x = m x

/-- The vector, its strings and, on a multiple of 16, twenty words fit on the stack. -/
def Fits (argv : List (List UInt8)) (block : Nat) : Prop :=
  block + 160 ≤ (block + stackSize - (arraySize argv + below argv argv.length)) / 16 * 16

variable {argv : List (List UInt8)} {m : Bytes} {block entryPoint i j newArgv paramsBase rsp : Nat}
variable {wrapper x : Nat} {values : List Nat} {source : List UInt8} {length destination : Nat}

/-! ## Conversions -/

theorem toU64_sub {a b : Nat} (less : b ≤ a) (small : a < 2 ^ 64) :
    toU64 ((a : Int) - b) = a - b := by
  unfold toU64
  omega

theorem toU64_small {a : Nat} (small : a < 2 ^ 64) : toU64 a = a := by
  unfold toU64
  omega

theorem toU64_lt {value : Int} : toU64 value < 2 ^ 64 := by
  unfold toU64
  omega

theorem toU64_twice {value other : Int} :
    toU64 ((toU64 value : Int) - other) = toU64 (value - other) := by
  unfold toU64
  omega

theorem int32_small {a : Nat} (small : a < 2 ^ 31) : int32 a = a := by
  unfold int32 Int.bmod
  have same : (a : Int) % (2 ^ 32 : Nat) = a := by omega
  rw [same, if_pos (by omega)]

/-! ## Strings -/

theorem strncpy_string : strncpy destination source (source.length + 1) m =
    m.storeAll destination (source ++ [0]) := by
  induction source generalizing destination m with
  | nil => rfl
  | cons char source ih => exact ih

theorem below_succ (inside : i < argv.length) :
    below argv (i + 1) = below argv i + ((argv.getD i []).length + 1) := by
  unfold below
  rw [List.take_succ_eq_append_getElem inside, List.map_append, List.sum_append]
  simp [inside]

theorem below_mono (le : i ≤ j) (inside : j ≤ argv.length) : below argv i ≤ below argv j := by
  induction j with
  | zero => rw [Nat.le_zero.mp le]
  | succ j ih =>
    rcases Nat.eq_or_lt_of_le le with rfl | less
    · exact Nat.le_refl _
    · have before := ih (by omega) (by omega)
      rw [below_succ (by omega)]
      omega

/-- Arguments whose length and terminator fit an `int`. -/
def Countable (argv : List (List UInt8)) : Prop :=
  ∀ i < argv.length, (argv.getD i []).length + 1 < 2 ^ 31

theorem copyStrings_paramsBase (countable : Countable argv) (inside : i ≤ argv.length)
    (small : paramsBase < 2 ^ 64) :
    (copyStrings argv newArgv i paramsBase m).1 = toU64 (paramsBase - below argv i) := by
  induction i generalizing paramsBase m with
  | zero =>
    unfold copyStrings below
    simp [toU64_small small]
  | succ i ih =>
    unfold copyStrings
    dsimp only
    rw [ih (by omega) toU64_lt, toU64_twice, int32_small (countable i (by omega)),
      below_succ (by omega)]
    congr 1
    omega

/-- The first `i` strings between `start` and `stop`, and their entries in the vector. -/
structure Copied (argv : List (List UInt8)) (newArgv i start stop : Nat) (m m' : Bytes) : Prop where
  elsewhere : ∀ x, x < start ∨ stop ≤ x → x < newArgv ∨ newArgv + 8 * i ≤ x → m' x = m x
  entries : ∀ j < i, m'.Holds (newArgv + 8 * j) (word (start + below argv j))
  copies : ∀ j < i, m'.Holds (start + below argv j) (argv.getD j [] ++ [0])

/-- One argument more, at the front. -/
theorem Copied.more {m' middle : Bytes} {start : Nat}
    (copied : Copied argv newArgv i start (start + below argv i) middle m')
    (strings : middle = (m.storeAll (start + below argv i) (argv.getD i [] ++ [0])).storeAll
      (newArgv + 8 * i) (word (start + below argv i)))
    (inside : i < argv.length) (apart : start + below argv (i + 1) ≤ newArgv)
    (small : newArgv + 8 * (i + 1) ≤ 2 ^ 64) :
    Copied argv newArgv (i + 1) start (start + below argv (i + 1)) m m' := by
  have longer := below_succ inside
  have length : (argv.getD i [] ++ [0]).length = (argv.getD i []).length + 1 := by simp
  have word_length := word_length (start + below argv i)
  have before : ∀ x, x < start + below argv i ∨ start + below argv (i + 1) ≤ x →
      x < newArgv + 8 * i ∨ newArgv + 8 * (i + 1) ≤ x → middle x = m x := by
    intro x string entry
    rw [strings, storeAll_other (by omega) (by omega), storeAll_other (by omega) (by omega)]
  refine ⟨?_, ?_, ?_⟩
  · intro x string entry
    rw [copied.elsewhere x (by omega) (by omega), before x (by omega) (by omega)]
  · intro j early
    rcases Nat.eq_or_lt_of_le (Nat.le_of_lt_succ early) with rfl | earlier
    · have stored : middle.Holds (newArgv + 8 * j) (word (start + below argv j)) := by
        rw [strings]
        exact holds_storeAll (by omega)
      refine stored.congr (by omega) fun x low high => copied.elsewhere x ?_ (by omega)
      omega
    · exact copied.entries j earlier
  · intro j early
    rcases Nat.eq_or_lt_of_le (Nat.le_of_lt_succ early) with rfl | earlier
    · have stored : (m.storeAll (start + below argv j) (argv.getD j [] ++ [0])).Holds
          (start + below argv j) (argv.getD j [] ++ [0]) := holds_storeAll (by omega)
      refine stored.congr (by omega) ?_
      intro x low high
      rw [copied.elsewhere x (by omega) (by omega), strings,
        storeAll_other (by omega) (by omega)]
    · exact copied.copies j earlier

theorem copyStrings_copied {start : Nat} (newArgv : Nat) (countable : Countable argv)
    (inside : i ≤ argv.length)
    (apart : start + below argv i ≤ newArgv) (small : newArgv + 8 * i ≤ 2 ^ 64) :
    Copied argv newArgv i start (start + below argv i) m
      (copyStrings argv newArgv i (start + below argv i) m).2 := by
  induction i generalizing m with
  | zero =>
    refine ⟨fun _ _ _ => rfl, ?_, ?_⟩
    · exact fun j early => absurd early (Nat.not_lt_zero j)
    · exact fun j early => absurd early (Nat.not_lt_zero j)
  | succ i ih =>
    have longer := below_succ (Nat.lt_of_succ_le inside)
    have fits := countable i (by omega)
    have length : toU64 (((argv.getD i []).length + 1 : Nat) : Int) = (argv.getD i []).length + 1 :=
      toU64_small (by omega)
    have first : toU64 (((start + below argv (i + 1) : Nat) : Int) -
        ((argv.getD i []).length + 1 : Nat)) = start + below argv i := by
      rw [toU64_sub (by omega) (by omega)]
      omega
    unfold copyStrings
    dsimp only
    rw [int32_small fits, length, first, strncpy_string]
    exact (ih (by omega) (by omega) (by omega)).more rfl (by omega) apart small

/-! ## The frame -/

theorem pushAll_rsp (small : rsp < 2 ^ 64) :
    (pushAll values rsp m).1 = toU64 ((rsp : Int) - 8 * values.length) := by
  induction values generalizing rsp m with
  | nil =>
    unfold pushAll
    simp [toU64_small small]
  | cons value values ih =>
    unfold pushAll
    dsimp only
    rw [ih toU64_lt, toU64_twice]
    congr 1
    simp
    ring

theorem words_length (values : List Nat) : (values.flatMap word).length = 8 * values.length := by
  induction values with
  | nil => rfl
  | cons value values ih =>
    rw [List.flatMap_cons, List.length_append, ih, word_length, List.length_cons]
    omega

/-- The words are below the old stack pointer, the last one lowest. -/
theorem pushAll_frame (values : List Nat) (m : Bytes) (room : 8 * values.length ≤ rsp)
    (small : rsp < 2 ^ 64) :
    (∀ x, x < rsp - 8 * values.length ∨ rsp ≤ x → (pushAll values rsp m).2 x = m x) ∧
      (pushAll values rsp m).2.Holds (rsp - 8 * values.length) (values.reverse.flatMap word) := by
  induction values generalizing m rsp with
  | nil => exact ⟨fun _ _ => rfl, fun j inside => absurd inside (Nat.not_lt_zero j)⟩
  | cons value values ih =>
    rw [List.length_cons] at room ⊢
    have pushed : toU64 ((rsp : Int) - 8) = rsp - 8 := by
      have less : 8 ≤ rsp := by omega
      exact toU64_sub less small
    obtain ⟨elsewhere, rest⟩ := ih (m.storeAll (rsp - 8) (word value))
      (show 8 * values.length ≤ rsp - 8 by omega) (by omega)
    have length := word_length value
    have bottom : rsp - 8 * (values.length + 1) = rsp - 8 - 8 * values.length := by omega
    unfold pushAll
    dsimp only
    rw [pushed, bottom]
    constructor
    · intro x outside
      rw [elsewhere x (by omega), storeAll_other (by omega) (by omega)]
    · have stored : (m.storeAll (rsp - 8) (word value)).Holds (rsp - 8) (word value) :=
        holds_storeAll (by omega)
      rw [List.reverse_cons, List.flatMap_append, List.flatMap_singleton]
      apply rest.append
      rw [words_length, List.length_reverse,
        show rsp - 8 - 8 * values.length + 8 * values.length = rsp - 8 by omega]
      exact stored.congr (by omega) fun x low high => elsewhere x (by omega)

/-! ## The whole stack -/

theorem arraySize_of_ne (some : argv ≠ []) : arraySize argv = 8 * (argv.length + 1) := if_neg some

theorem copyArgs_of_ne {base : Nat} (some : argv ≠ []) (short : argv.length < 2 ^ 31) :
    copyArgsToProcessStack base argv m =
      (toU64 (base - arraySize argv),
        (copyStrings argv (toU64 (base - arraySize argv)) argv.length
          (toU64 (base - arraySize argv)) m).1,
        (copyStrings argv (toU64 (base - arraySize argv)) argv.length
          (toU64 (base - arraySize argv)) m).2.storeAll
            (toU64 (base - arraySize argv) + 8 * argv.length) (word 0)) := by
  have positive := List.length_pos_iff.mpr some
  have count : (int32 (argv.length - 1) + 1).toNat = argv.length := by
    rw [int32_small (by omega)]
    omega
  have vector : toU64 (base - 8 * ((argv.length : Nat) + 1)) = toU64 (base - arraySize argv) := by
    rw [arraySize_of_ne some, Nat.cast_mul, Nat.cast_add]
    rfl
  unfold copyArgsToProcessStack
  dsimp only
  rw [if_pos positive, count, vector]

/-- However much there is, the strings go below the vector and the vector below the base. -/
theorem copyArgs_paramsBase {base : Nat} (countable : Countable argv) (short : argv.length < 2 ^ 31)
    (small : base < 2 ^ 64) : (copyArgsToProcessStack base argv m).2.1 =
      toU64 (base - (arraySize argv + below argv argv.length : Nat)) := by
  by_cases empty : argv = []
  · subst empty
    exact (toU64_small small).symm
  · rw [copyArgs_of_ne empty short]
    dsimp only
    rw [copyStrings_paramsBase countable (Nat.le_refl _) toU64_lt, toU64_twice]
    congr 1
    omega

/-- What fits leaves its place for the frame, and is countable. -/
theorem Fits.numbers (fits : Fits argv block) :
    arraySize argv + below argv argv.length + 160 ≤ stackSize ∧ Countable argv ∧
      argv.length < 2 ^ 31 := by
  have room : arraySize argv + below argv argv.length + 160 ≤ stackSize := by
    unfold Fits at fits
    unfold stackSize at fits ⊢
    omega
  refine ⟨room, ?_, ?_⟩
  · intro i inside
    have one := below_succ inside
    have all := below_mono (show i + 1 ≤ argv.length from inside) (Nat.le_refl argv.length)
    unfold stackSize at room
    omega
  · by_cases empty : argv = []
    · simp [empty]
    · rw [arraySize_of_ne empty] at room
      unfold stackSize at room
      omega

/-- The vector and the strings, where there is room for them. -/
structure Placed (argv : List (List UInt8)) (base start : Nat) (m m' : Bytes) : Prop where
  elsewhere : ∀ x, x < start ∨ base ≤ x → m' x = m x
  entries : ∀ i < argv.length,
    m'.Holds (base - arraySize argv + 8 * i) (word (start + below argv i))
  copies : ∀ i < argv.length, m'.Holds (start + below argv i) (argv.getD i [] ++ [0])
  terminated : argv ≠ [] → m'.Holds (base - arraySize argv + 8 * argv.length) (word 0)

theorem copyArgs_placed {start : Nat} (countable : Countable argv) (short : argv.length < 2 ^ 31)
    (small : start + below argv argv.length + arraySize argv < 2 ^ 64) :
    Placed argv (start + below argv argv.length + arraySize argv) start m
      (copyArgsToProcessStack (start + below argv argv.length + arraySize argv) argv m).2.2 := by
  by_cases empty : argv = []
  · subst empty
    refine ⟨fun _ _ => rfl, ?_, ?_, fun some => absurd rfl some⟩
    · exact fun i inside => absurd inside (Nat.not_lt_zero i)
    · exact fun i inside => absurd inside (Nat.not_lt_zero i)
  · have size := arraySize_of_ne empty
    have array : toU64 (((start + below argv argv.length + arraySize argv : Nat) : Int) -
        arraySize argv) = start + below argv argv.length := by
      rw [toU64_sub (by omega) small]
      omega
    have copied := copyStrings_copied (m := m) (start + below argv argv.length) countable
      (Nat.le_refl _) (Nat.le_refl _) (by omega)
    have word_length := word_length 0
    rw [copyArgs_of_ne empty short, array]
    dsimp only
    refine ⟨?_, ?_, ?_, ?_⟩
    · intro x outside
      rw [storeAll_other (by omega) (by omega), copied.elsewhere x (by omega) (by omega)]
    · intro i inside
      rw [Nat.add_sub_cancel]
      refine (copied.entries i inside).congr (by rw [Bytes.word_length]; omega) ?_
      intro x low high
      rw [Bytes.word_length] at high
      exact storeAll_other (by omega) (by omega)
    · intro i inside
      have longer := below_succ inside
      have all := below_mono (show i + 1 ≤ argv.length from inside) (Nat.le_refl argv.length)
      have length : (argv.getD i [] ++ [0]).length = (argv.getD i []).length + 1 := by simp
      refine (copied.copies i inside).congr (by omega) ?_
      intro x low high
      exact storeAll_other (by omega) (by omega)
    · intro _
      rw [Nat.add_sub_cancel]
      exact holds_storeAll (by omega)

theorem frame_length {argc newArgv : Nat} :
    (frame wrapper paramsBase entryPoint argc newArgv).length = 20 := rfl

/-- The regions in the order of their addresses. -/
theorem regions_ordered {start stop : Nat} (done : Setup) (pointer : Nat → Nat)
    (frame : Region.Between ⟨done.rsp, 160⟩ block start)
    (copies : ∀ i < argv.length, Region.Between ⟨pointer i, (argv.getD i []).length + 1⟩
      (start + below argv i) (start + below argv (i + 1)))
    (array : Region.Between ⟨done.newArgv, arraySize argv⟩ (start + below argv argv.length) stop)
    (ordered : block ≤ start) (fits : start + below argv argv.length ≤ stop)
    (bound : stop ≤ block + stackSize) (small : block + stackSize < 2 ^ 64) :
    (regions argv pointer done).Pairwise Region.Disjoint ∧
      ∀ region ∈ regions argv pointer done, region.Inside ⟨block, stackSize⟩ := by
  have total : ∀ i < argv.length, below argv (i + 1) ≤ below argv argv.length := by
    intro i inside
    exact below_mono inside (Nat.le_refl _)
  unfold regions
  rw [List.cons_append]
  constructor
  · rw [List.pairwise_cons, List.pairwise_append, List.pairwise_map]
    refine ⟨?_, ?_, List.pairwise_singleton _ _, ?_⟩
    · intro region member
      rcases List.mem_append.mp member with copied | vector
      · obtain ⟨i, inside, rfl⟩ := List.mem_map.mp copied
        exact frame.disjoint (copies i (List.mem_range.mp inside)) (Nat.le_add_right _ _)
      · rw [List.mem_singleton.mp vector]
        exact frame.disjoint array (Nat.le_add_right _ _)
    · refine List.pairwise_lt_range.imp_of_mem ?_
      intro i j first second less
      refine (copies i (List.mem_range.mp first)).disjoint (copies j (List.mem_range.mp second)) ?_
      have between := below_mono (show i + 1 ≤ j from less) (List.mem_range.mp second).le
      omega
    · intro region copied vector member
      obtain ⟨i, inside, rfl⟩ := List.mem_map.mp copied
      rw [List.mem_singleton.mp member]
      have within := total i (List.mem_range.mp inside)
      exact (copies i (List.mem_range.mp inside)).disjoint array (by omega)
  · intro region member
    rcases List.mem_cons.mp member with rfl | rest
    · exact frame.inside small.le (Nat.le_refl _) (by dsimp only; omega)
    · rcases List.mem_append.mp rest with copied | vector
      · obtain ⟨i, inside, rfl⟩ := List.mem_map.mp copied
        have within := total i (List.mem_range.mp inside)
        exact (copies i (List.mem_range.mp inside)).inside small.le (by dsimp only; omega)
          (by dsimp only; omega)
      · rw [List.mem_singleton.mp vector]
        exact array.inside small.le (by dsimp only; omega) bound

/-- The frame lies below the strings, at a multiple of 16. -/
structure Framed (words : List Nat) (start rsp : Nat) (m m' : Bytes) : Prop where
  lowest : rsp = start / 16 * 16 - 160
  elsewhere : ∀ x, x < start / 16 * 16 - 160 ∨ start / 16 * 16 ≤ x → m' x = m x
  holds : m'.Holds rsp (words.reverse.flatMap word)

theorem processStackFrame_rsp {start argc : Nat} (small : start < 2 ^ 64) :
    (processStackFrame wrapper start entryPoint argc newArgv m).1 =
      toU64 ((start / 16 * 16 : Nat) - 160) := by
  unfold processStackFrame
  rw [pushAll_rsp (by omega), frame_length]
  norm_num

theorem processStackFrame_framed {start argc : Nat} (room : 160 ≤ start / 16 * 16)
    (small : start < 2 ^ 64) : Framed (frame wrapper start entryPoint argc newArgv) start
      (processStackFrame wrapper start entryPoint argc newArgv m).1 m
      (processStackFrame wrapper start entryPoint argc newArgv m).2 := by
  have rsp : (processStackFrame wrapper start entryPoint argc newArgv m).1 =
      start / 16 * 16 - 160 := by
    rw [processStackFrame_rsp small]
    exact toU64_sub room (by omega)
  obtain ⟨elsewhere, holds⟩ := pushAll_frame (frame wrapper start entryPoint argc newArgv) m
    (show 8 * 20 ≤ start / 16 * 16 by omega) (by omega)
  refine ⟨rsp, elsewhere, ?_⟩
  rw [rsp]
  exact holds

/-- The vector and its strings survive the frame. -/
theorem Placed.arrived {middle m' : Bytes} {start : Nat}
    (placed : Placed argv (block + stackSize) start m middle)
    (whole : start + below argv argv.length + arraySize argv = block + stackSize)
    (vector : argv ≠ [] → newArgv = block + stackSize - arraySize argv)
    (null : argv = [] → newArgv = 0) (aligned : block + 160 ≤ start / 16 * 16)
    (framed : Framed (frame wrapper start entryPoint argv.length newArgv) start rsp middle m')
    (small : block + stackSize < 2 ^ 64) :
    Arrived argv wrapper block entryPoint m ⟨block + stackSize, newArgv, start, rsp, m'⟩
      fun i => start + below argv i := by
  have position := framed.lowest
  have kept : ∀ x, start ≤ x → m' x = middle x := fun x above => framed.elsewhere x (by omega)
  have below_all : ∀ i < argv.length,
      below argv i + ((argv.getD i []).length + 1) ≤ below argv argv.length := by
    intro i inside
    rw [← below_succ inside]
    exact below_mono inside (Nat.le_refl _)
  have array : Region.Between ⟨newArgv, arraySize argv⟩ (start + below argv argv.length)
      (block + stackSize) := by
    by_cases empty : argv = []
    · exact Region.between_of_empty (if_pos empty)
    · have between := Region.between (r := ⟨newArgv, arraySize argv⟩) (by
        dsimp only
        rw [vector empty]
        omega)
      intro x here
      have bounds := between x here
      dsimp only at bounds
      rw [vector empty] at bounds
      omega
  have copied : ∀ i < argv.length, Region.Between
      ⟨start + below argv i, (argv.getD i []).length + 1⟩ (start + below argv i)
      (start + below argv (i + 1)) := by
    intro i inside
    have fits := below_all i inside
    rw [below_succ inside, ← Nat.add_assoc]
    exact Region.between (by dsimp only; omega)
  have frame : Region.Between ⟨rsp, 160⟩ block start := by
    have between := Region.between (r := ⟨rsp, 160⟩) (by dsimp only; omega)
    intro x here
    have bounds := between x here
    dsimp only at bounds
    omega
  obtain ⟨disjoint, inside⟩ := regions_ordered ⟨block + stackSize, newArgv, start, rsp, m'⟩
    (fun i => start + below argv i) frame copied array (by omega) (by omega) (Nat.le_refl _) small
  refine ⟨?_, ?_, ?_, null, framed.holds, disjoint, inside, ?_⟩
  · intro i early
    have some : argv ≠ [] := List.ne_nil_of_length_pos (Nat.zero_lt_of_lt early)
    have size := arraySize_of_ne some
    have length := word_length (start + below argv i)
    dsimp only
    rw [vector some]
    exact (placed.entries i early).congr (by omega) fun x low _ => kept x (by omega)
  · intro i early
    have fits := below_all i early
    have length : (argv.getD i [] ++ [0]).length = (argv.getD i []).length + 1 := by simp
    exact (placed.copies i early).congr (by omega) fun x low _ => kept x (by omega)
  · intro some
    have size := arraySize_of_ne some
    have length := word_length 0
    dsimp only
    rw [vector some]
    exact (placed.terminated some).congr (by omega) fun x low _ => kept x (by omega)
  · intro x outside
    rw [Region.has_iff small.le] at outside
    dsimp only at outside ⊢
    rw [framed.elsewhere x (by omega), placed.elsewhere x (by omega)]

/-- Where there is room, everything arrives. -/
theorem arrived_of_fits (small : block + stackSize < 2 ^ 64) (granted : block ≠ 0)
    (fits : Fits argv block) : ∃ done pointer,
      setupProcessStack wrapper block entryPoint argv m = some done ∧
        Arrived argv wrapper block entryPoint m done pointer := by
  obtain ⟨room, countable, short⟩ := fits.numbers
  obtain ⟨start, whole⟩ : ∃ start,
      start + below argv argv.length + arraySize argv = block + stackSize :=
    ⟨block + stackSize - (arraySize argv + below argv argv.length), by omega⟩
  have left : block + stackSize - (arraySize argv + below argv argv.length) = start := by omega
  have aligned : block + 160 ≤ start / 16 * 16 := by
    unfold Fits at fits
    rw [left] at fits
    exact fits
  have placed := copyArgs_placed (m := m) countable short (whole ▸ small)
  have params := copyArgs_paramsBase (m := m) countable short small
  have vector : argv ≠ [] → (copyArgsToProcessStack (block + stackSize) argv m).1 =
      block + stackSize - arraySize argv := by
    intro some
    rw [copyArgs_of_ne some short]
    exact toU64_sub (by omega) small
  have null : argv = [] → (copyArgsToProcessStack (block + stackSize) argv m).1 = 0 := by
    rintro rfl
    rfl
  rw [whole] at placed
  rw [toU64_sub (by omega) small, left] at params
  refine ⟨_, fun i => start + below argv i, ?_, placed.arrived whole vector null aligned
    (processStackFrame_framed (by omega) (by omega)) small⟩
  unfold setupProcessStack
  rw [if_neg granted]
  dsimp only
  rw [Nat.mod_eq_of_lt small, params]

/-- What is not larger than the stack is countable. -/
theorem Arrived.countable {done : Setup} {pointer : Nat → Nat}
    (arrived : Arrived argv wrapper block entryPoint m done pointer) :
    arraySize argv ≤ stackSize ∧ ∀ i < argv.length, (argv.getD i []).length + 1 ≤ stackSize := by
  have small : stackSize ≤ 2 ^ 62 := by decide
  constructor
  · refine Region.Inside.size_le (arrived.inside ⟨done.newArgv, arraySize argv⟩ ?_) small
    simp [regions]
  · intro i inside
    refine Region.Inside.size_le
      (arrived.inside ⟨pointer i, (argv.getD i []).length + 1⟩ ?_) small
    unfold regions
    apply List.mem_append_left
    apply List.mem_cons_of_mem
    exact List.mem_map.mpr ⟨i, List.mem_range.mpr inside, rfl⟩

theorem below_le {n : Nat} (each : ∀ i < argv.length, (argv.getD i []).length + 1 ≤ n)
    (inside : i ≤ argv.length) : below argv i ≤ i * n := by
  induction i with
  | zero => exact Nat.zero_le _
  | succ i ih =>
    have before := ih (by omega)
    have one := each i inside
    rw [below_succ inside, Nat.succ_mul]
    omega

theorem setup_rsp {done : Setup} (granted : block ≠ 0) (small : block + stackSize < 2 ^ 64)
    (built : setupProcessStack wrapper block entryPoint argv m = some done)
    (params : (copyArgsToProcessStack (block + stackSize) argv m).2.1 = paramsBase)
    (lower : paramsBase < 2 ^ 64) : done.rsp = toU64 ((paramsBase / 16 * 16 : Nat) - 160) := by
  unfold setupProcessStack at built
  rw [if_neg granted] at built
  dsimp only at built
  rw [Nat.mod_eq_of_lt small, params] at built
  rw [← Option.some.inj built]
  dsimp only
  rw [processStackFrame_rsp lower]

/-- Where everything arrives, there was room. -/
theorem fits_of_arrived {done : Setup} {pointer : Nat → Nat} (small : block + stackSize < 2 ^ 64)
    (granted : block ≠ 0) (built : setupProcessStack wrapper block entryPoint argv m = some done)
    (arrived : Arrived argv wrapper block entryPoint m done pointer) : Fits argv block := by
  obtain ⟨array, strings⟩ := arrived.countable
  have short : argv.length < 512 := by
    by_cases empty : argv = []
    · simp [empty]
    · rw [arraySize_of_ne empty] at array
      unfold stackSize at array
      omega
  have countable : Countable argv := by
    intro i inside
    have one := strings i inside
    unfold stackSize at one
    omega
  have total := below_le strings (Nat.le_refl _)
  have params := copyArgs_paramsBase (m := m) countable (by omega) small
  have rsp := setup_rsp granted small built params toU64_lt
  have framed := arrived.inside ⟨done.rsp, 160⟩ List.mem_cons_self
  obtain ⟨i, first, low⟩ := framed _ ⟨0, Nat.zero_lt_succ _, rfl⟩
  unfold Fits
  unfold toU64 at rsp
  unfold stackSize at *
  dsimp only at first low
  omega

/-- Everything arrives exactly where there is room for it on the stack. -/
theorem arguments_arrive_iff (small : block + stackSize < 2 ^ 64) (granted : block ≠ 0)
    (wrapper entryPoint : Nat) (argv : List (List UInt8)) (m : Bytes) :
    (∃ done pointer, setupProcessStack wrapper block entryPoint argv m = some done ∧
      Arrived argv wrapper block entryPoint m done pointer) ↔ Fits argv block :=
  ⟨fun ⟨_, _, built, arrived⟩ => fits_of_arrived small granted built arrived,
    arrived_of_fits small granted⟩

/-- Two short arguments. -/
theorem short_arguments_arrive_iff :
    (∃ done pointer, setupProcessStack 1 8192 2 [[97], [98, 99]] (fun _ => 0) = some done ∧
      Arrived [[97], [98, 99]] 1 8192 2 (fun _ => 0) done pointer) ↔ Fits [[97], [98, 99]] 8192 :=
  arguments_arrive_iff (by decide) (by decide) 1 2 [[97], [98, 99]] fun _ => 0

/-- An argument of the size of the stack leaves it. -/
theorem long_argument_overruns : ¬ ∀ block wrapper entryPoint argv m, block ≠ 0 →
    block + stackSize < 2 ^ 64 → ∃ done pointer,
      setupProcessStack wrapper block entryPoint argv m = some done ∧
        Arrived argv wrapper block entryPoint m done pointer := by
  intro claim
  obtain ⟨long, same⟩ : ∃ long : List UInt8, long = List.replicate 4096 97 := ⟨_, rfl⟩
  obtain ⟨done, pointer, built, arrived⟩ :=
    claim 8192 1 2 [long] (fun _ => 0) (by decide) (by decide)
  have fits := fits_of_arrived (by decide) (by decide) built arrived
  have length : long.length = 4096 := by rw [same, List.length_replicate]
  have room := fits.numbers.1
  simp [arraySize, below, length, stackSize] at room

/-! ## The stack of `createProcess` -/

def utf8 (arg : String) : List UInt8 := arg.toByteArray.data.toList

theorem copiedArgs_eq (arg : List String) : copiedArgs arg =
    arraySize (arg.map utf8) + below (arg.map utf8) (arg.map utf8).length := by
  have sizes : (fun s : String => s.utf8ByteSize + 1) =
      (fun bytes => bytes.length + 1) ∘ utf8 := rfl
  unfold copiedArgs arraySize below
  rw [List.take_length, List.length_map, List.map_map, sizes]
  by_cases empty : arg = []
  · simp [empty]
  · simp [empty]

variable {M : Type} [MemoryManager M]

/-- Where there is room, the numbers that `createProcess` gets are those of the bytes. -/
theorem setupProcessStack_agrees {arg : List String} {k : Kernel M}
    (granted : (MemoryManager.allocMemory stackSize k.memory).1 = block) (some : block ≠ 0)
    (small : block + stackSize < 2 ^ 64) (fits : Fits (arg.map utf8) block) :
    ∃ done, setupProcessStack wrapper block entryPoint (arg.map utf8) m = .some done ∧
      (k.setupProcessStack arg).1 = done.stackBase ∧ (k.setupProcessStack arg).2.1 = done.rsp := by
  obtain ⟨room, countable, short⟩ := fits.numbers
  have params := copyArgs_paramsBase (m := m) countable short small
  rw [← copiedArgs_eq, toU64_sub (by rw [copiedArgs_eq]; omega) small] at params
  unfold Fits at fits
  rw [← copiedArgs_eq] at fits
  unfold Kernel.setupProcessStack
  dsimp only
  rw [granted, if_neg some]
  unfold setupProcessStack
  rw [if_neg some]
  refine ⟨_, rfl, ?_, ?_⟩
  · dsimp only
    rw [Nat.mod_eq_of_lt small]
  · dsimp only
    rw [Nat.mod_eq_of_lt small, params, processStackFrame_rsp (by omega)]
    unfold SoKernel.processStackFrame
    exact (toU64_sub (by omega) (by omega)).symm

end SoKernel.ProcessStack
