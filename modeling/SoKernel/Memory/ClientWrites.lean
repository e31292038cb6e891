import SoKernel.Memory.HeapIntegrity

namespace SoKernel.Buddy
open Lib Buddy.Partition

variable {w w' v v' : World} {start heap heap' : Heap} {p q : Partition}
variable {a b level k x n address : Nat}

/-! ## Bytes that clients write -/

/-- A header at `x` has bytes inside the payload of a block that a client owns. -/
def Owned (w : World) (x : Nat) : Prop :=
  ∃ a, a + headerSize ∈ w.live ∧ a < x ∧ x < a + 2 ^ (w.heap.header a).level

/-- The clients have written into their own payloads and nowhere else. -/
structure Writes (w : World) (heap : Heap) : Prop where
  memoryManager : heap.memoryManager = w.heap.memoryManager
  manager : heap.manager = w.heap.manager
  header : ∀ {x}, ¬ Owned w x → heap.header x = w.heap.header x

theorem Writes.refl : Writes w w.heap := ⟨rfl, rfl, fun _ => rfl⟩

/-- A client may write any header inside its payload. -/
theorem Owned.writes (owned : Owned w x) (change) : Writes w (w.heap.edit x change) := by
  refine ⟨rfl, rfl, ?_⟩
  intro y outside
  rw [Heap.edit_header, if_neg]
  rintro rfl
  exact outside owned

theorem Represents.congr (shown : Represents 0 heap p)
    (memoryManager : heap'.memoryManager = heap.memoryManager)
    (manager : heap'.manager = heap.manager)
    (header : ∀ {a level}, p.Block a level → heap'.header a = heap.header a) :
    Represents 0 heap' p := by
  refine ⟨?_, ?_, ?_, ?_, ?_, ?_, ?_⟩
  · rw [memoryManager]
    exact shown.created
  · rw [manager]
    exact shown.status
  · rw [manager]
    exact shown.managed
  · rw [manager]
    exact shown.size
  · intro level low high
    apply (shown.lists low high).frame heap' (by rw [manager])
    intro x member
    exact header (.inl member)
  · intro a level member
    rw [header (.inl member)]
    exact shown.free member
  · intro a level member
    rw [header (.inr member)]
    exact shown.allocated member

/-- No header of a block is inside a payload. -/
theorem Partition.WellFormed.not_owned (valid : p.WellFormed)
    (levels : ∀ {a level}, (a, level) ∈ p.allocated → (w.heap.header a).level = level)
    (live : ∀ address ∈ w.live, ∃ a level, (a, level) ∈ p.allocated ∧ address = a + headerSize)
    (block : p.Block b k) : ¬ Owned w b := by
  intro owned
  obtain ⟨a, member, after, before⟩ := owned
  obtain ⟨c, level, allocated, same⟩ := live _ member
  have equal : a = c := by
    unfold headerSize at same
    omega
  subst equal
  rw [levels allocated] at before
  have start := valid.tiles.start_unique ⟨k, block, rfl⟩ ⟨level, .inr allocated, rfl⟩
    (Nat.le_of_lt after) before
  omega

theorem Tracks.not_owned (tracks : Tracks w p) (block : p.Block b k) : ¬ Owned w b :=
  tracks.valid.not_owned (fun allocated => (tracks.shown.allocated allocated).1)
    (fun _ => tracks.live.mp) block

theorem Tracks.writes (tracks : Tracks w p) (writes : Writes w heap) :
    Tracks { w with heap := heap } p where
  valid := tracks.valid
  settled := tracks.settled
  shown := tracks.shown.congr writes.memoryManager writes.manager
    fun block => writes.header (tracks.not_owned block)
  used := by
    change heap.manager.usedMemory = p.used
    rw [writes.manager]
    exact tracks.used
  live := tracks.live
  liveNodup := tracks.liveNodup

/-! ## Headers that a merge inspects -/

/-- `x` is on the free list of this level. -/
def OnList (heap : Heap) (level x : Nat) : Prop := ∃ items, heap.Lists level items ∧ x ∈ items

/-- The blocks a free of `a` grows into, as long as the buddy is on the free list. -/
inductive Cascade (free : Nat → Nat → Prop) (a level : Nat) : Nat → Nat → Prop
  | start : Cascade free a level a level
  | join {b k : Nat} : Cascade free a level b k → free k (b ^^^ 2 ^ k) →
      Cascade free a level (parent b k) (k + 1)

/-- Wherever the merge after a free of `address` looks for a buddy, bytes that
read as the header of a free block of the right level belong to such a block. -/
def Honest (heap : Heap) (address : Nat) : Prop :=
  ∀ {b k}, Cascade (OnList heap) (address - headerSize)
      (heap.header (address - headerSize)).level b k →
    LooksFree heap (b ^^^ 2 ^ k) k → OnList heap k (b ^^^ 2 ^ k)

/-- A grown block contains the block the cascade began with. -/
theorem Cascade.covers {free : Nat → Nat → Prop} (cascade : Cascade free a level b k) :
    level ≤ k ∧ b ≤ a ∧ a + 2 ^ level ≤ b + 2 ^ k := by
  induction cascade with
  | start => exact ⟨Nat.le_refl _, Nat.le_refl _, Nat.le_refl _⟩
  | join _ _ ih =>
    rename_i b k _ _
    obtain ⟨above, low, high⟩ := ih
    have wide := Nat.two_pow_pos k
    unfold parent
    rw [Nat.pow_succ]
    rcases buddy_halves b k with ⟨less, upper⟩ | ⟨less, lower⟩
    · rw [if_pos less]
      omega
    · rw [if_neg less]
      omega

/-- The buddy it looks at next lies outside. -/
theorem Cascade.buddy_ne {free : Nat → Nat → Prop} (cascade : Cascade free a level b k) :
    b ^^^ 2 ^ k ≠ a := by
  obtain ⟨_, low, high⟩ := cascade.covers
  have wide := Nat.two_pow_pos level
  rcases buddy_halves b k with ⟨_, upper⟩ | ⟨_, lower⟩
  · omega
  · omega

theorem Cascade.mono {free other : Nat → Nat → Prop} (cascade : Cascade free a level b k)
    (weaker : ∀ {k x}, x ≠ a → level ≤ k → free k x → other k x) : Cascade other a level b k := by
  induction cascade with
  | start => exact .start
  | join reached member ih => exact ih.join (weaker reached.buddy_ne reached.covers.1 member)

theorem Cascade.trans {free : Nat → Nat → Prop} {c j : Nat} (first : Cascade free a level b k)
    (second : Cascade free b k c j) : Cascade free a level c j := by
  induction second with
  | start => exact first
  | join _ member ih => exact ih.join member

/-- `Honest`, over the partition the heap represents. -/
def HonestAt (heap : Heap) (p : Partition) (a level : Nat) : Prop :=
  ∀ {b k}, Cascade (fun k x => x ∈ p.free k) a level b k →
    LooksFree heap (b ^^^ 2 ^ k) k → b ^^^ 2 ^ k ∈ p.free k

theorem looksFree_of_sameFields (same : SameFields heap heap' x) (looks : LooksFree heap' x level) :
    LooksFree heap x level := by
  obtain ⟨managed, state, height⟩ := looks
  obtain ⟨sameLevel, sameState⟩ := same
  exact ⟨managed, sameState ▸ state, sameLevel ▸ height⟩

theorem honest_trusts : Trusts HonestAt where
  sound honest _ _ _ looks := honest .start looks
  join := by
    intro heap heap' p a level honest valid shown free buddy same b k cascade looks
    have above := cascade.covers.1
    -- Blocks of the new partition that the cascade can still reach are old ones.
    have old : Cascade (fun k x => x ∈ p.free k) (parent a level) (level + 1) b k := by
      apply cascade.mono
      intro k x other high member
      rcases (mem_join_free valid).mp member with ⟨_, start⟩ | ⟨listed, _⟩
      · exact absurd start other
      · exact listed
    have grown : Cascade (fun k x => x ∈ p.free k) a level (parent a level) (level + 1) :=
      Cascade.start.join buddy
    have listed := honest (grown.trans old)
      (looksFree_of_sameFields (same cascade.buddy_ne) looks)
    exact (mem_join_free valid).mpr (.inr ⟨listed, fun lower => by omega⟩)

theorem honestAt_release (honest : HonestAt heap p a level)
    (same : ∀ {x}, x ≠ a → SameFields heap heap' x) :
    HonestAt heap' (p.release a level) a level := by
  intro b k cascade looks
  have lists : ∀ {j x}, x ≠ a → (x ∈ (p.release a level).free j ↔ x ∈ p.free j) := by
    intro j x other
    by_cases here : j = level
    · subst here
      simp [Partition.release, other]
    · simp [Partition.release, here]
  have old : Cascade (fun k x => x ∈ p.free k) a level b k :=
    cascade.mono fun other _ member => (lists other).mp member
  exact (lists cascade.buddy_ne).mpr
    (honest old (looksFree_of_sameFields (same cascade.buddy_ne) looks))

theorem onList_iff (shown : Represents 0 heap p) (low : 1 ≤ level) (high : level < blockLists) :
    OnList heap level x ↔ x ∈ p.free level := by
  constructor
  · rintro ⟨items, lists, member⟩
    rwa [Linked.unique lists (shown.lists low high)] at member
  · intro member
    exact ⟨p.free level, shown.lists low high, member⟩

theorem cascade_level (valid : p.WellFormed) (block : p.Block a level)
    (cascade : Cascade (fun k x => x ∈ p.free k) a level b k) : 1 ≤ k ∧ k < blockLists := by
  have large := valid.large block
  have above := cascade.covers.1
  unfold blockLists maxLevel
  cases cascade with
  | start =>
    have top := valid.level_le block
    omega
  | join _ member =>
    have top := valid.level_le (.inl member)
    omega

/-- The lists of the heap and of the partition give the same cascades. -/
theorem cascade_iff (shown : Represents 0 heap p) (valid : p.WellFormed)
    (block : p.Block a level) :
    Cascade (OnList heap) a level b k ↔ Cascade (fun k x => x ∈ p.free k) a level b k := by
  constructor
  · intro cascade
    induction cascade with
    | start => exact .start
    | join _ member ih =>
      obtain ⟨low, high⟩ := cascade_level valid block ih
      exact ih.join ((onList_iff shown low high).mp member)
  · intro cascade
    apply cascade.mono
    intro k x _ _ member
    have range := valid.separate.inRange member
    exact (onList_iff shown range.2.1 range.2.2).mpr member

/-- The condition on the heap is the condition on the partition. -/
theorem Tracks.honest_iff (tracks : Tracks w p) (allocated : (a, level) ∈ p.allocated) :
    Honest w.heap (a + headerSize) ↔ HonestAt w.heap p a level := by
  have block : p.Block a level := .inr allocated
  have address : a + headerSize - headerSize = a := Nat.add_sub_cancel ..
  unfold Honest HonestAt
  rw [address, (tracks.shown.allocated allocated).1]
  constructor
  · intro honest b k cascade looks
    obtain ⟨low, high⟩ := cascade_level tracks.valid block cascade
    have seen := (cascade_iff tracks.shown tracks.valid block).mpr cascade
    exact (onList_iff tracks.shown low high).mp (honest seen looks)
  · intro honest b k cascade looks
    have seen := (cascade_iff tracks.shown tracks.valid block).mp cascade
    obtain ⟨low, high⟩ := cascade_level tracks.valid block seen
    exact (onList_iff tracks.shown low high).mpr (honest seen looks)

/-! ## Runs with clients -/

/-- A request that a client may make: up to 4 GiB, and frees of live addresses
at which `trusted` holds. -/
def Request.Served (trusted : Heap → Nat → Prop) (w : World) : Request → Prop
  | .alloc memoryToAllocate => memoryToAllocate + headerSize ≤ 2 ^ 32
  | .free address => address ∈ w.live ∧ trusted w.heap address

/-- Clients write into what they own, then one of them makes a request. -/
def ClientStep (trusted : Heap → Nat → Prop) (w : World) (request : Request) (w' : World) : Prop :=
  ∃ heap, Writes w heap ∧ request.Served trusted { w with heap } ∧
    w' = { w with heap }.serve request

theorem served_alloc {trusted : Heap → Nat → Prop} (bound : n + headerSize ≤ 2 ^ 32) :
    (Request.alloc n).Served trusted w := bound

theorem ClientStep.quiet {trusted : Heap → Nat → Prop} {request : Request}
    (served : request.Served trusted w) : ClientStep trusted w request (w.serve request) :=
  ⟨w.heap, .refl, served, rfl⟩

theorem ClientStep.after_write {trusted : Heap → Nat → Prop} {request : Request} {change}
    (owned : Owned w x) (served : request.Served trusted { w with heap := w.heap.edit x change }) :
    ClientStep trusted w request ({ w with heap := w.heap.edit x change }.serve request) :=
  ⟨_, owned.writes change, served, rfl⟩

/-- The same request, served from a partition: the results it adds and the
partition it leaves. -/
inductive Serves (p : Partition) : Request → List Nat → Partition → Prop
  | granted {n a : Nat} {q : Partition} : n + headerSize ≤ 2 ^ 32 →
      take (requestLevel n) p = some (a, q) → Serves p (.alloc n) [a + headerSize] q
  | refused {n : Nat} : n + headerSize ≤ 2 ^ 32 → take (requestLevel n) p = none →
      Serves p (.alloc n) [0] p
  | freed {a level : Nat} : (a, level) ∈ p.allocated →
      Serves p (.free (a + headerSize)) [] (p.dispose a level)

/-- Honest runs refine the partition. -/
theorem Tracks.client_step (tracks : Tracks w p) {request : Request}
    (step : ClientStep Honest w request w') : ∃ results q, Serves p request results q ∧
      Tracks w' q ∧ w'.returned = results ++ w.returned ∧
      w'.heap.manager.blocks 0 = w.heap.manager.blocks 0 := by
  obtain ⟨heap, writes, served, rfl⟩ := step
  have written := tracks.writes writes
  have list0 : heap.manager.blocks 0 = w.heap.manager.blocks 0 := by rw [writes.manager]
  cases request with
  | alloc n =>
    have bound : n + headerSize ≤ 2 ^ 32 := served
    cases outcome : take (requestLevel n) p with
    | none =>
      rw [written.alloc_none (ordinary_of_bound bound) outcome]
      exact ⟨[0], p, .refused bound outcome, ⟨tracks.valid, tracks.settled, written.shown,
        written.used, tracks.live, tracks.liveNodup⟩, rfl, list0⟩
    | some pair =>
      obtain ⟨a, q⟩ := pair
      obtain ⟨after, _, returned, kept, _⟩ := written.alloc_some (ordinary_of_bound bound) outcome
      exact ⟨_, q, .granted bound outcome, after, returned, kept.trans list0⟩
  | free address =>
    obtain ⟨live, honest⟩ := served
    obtain ⟨a, level, allocated, rfl⟩ := written.live.mp live
    obtain ⟨after, kept, _⟩ := written.free honest_trusts allocated
      fun same => honestAt_release ((written.honest_iff allocated).mp honest) same
    exact ⟨_, _, .freed allocated, after, rfl, kept.trans list0⟩

theorem Serves.deterministic (valid : p.WellFormed) {request : Request} {results results' : List Nat}
    {q' : Partition} (one : Serves p request results q) (two : Serves p request results' q') :
    results = results' ∧ q = q' := by
  cases one with
  | granted _ found =>
    cases two with
    | granted _ other =>
      rw [found] at other
      cases other
      exact ⟨rfl, rfl⟩
    | refused _ none =>
      rw [found] at none
      cases none
  | refused _ none =>
    cases two with
    | granted _ other =>
      rw [none] at other
      cases other
    | refused _ _ => exact ⟨rfl, rfl⟩
  | freed one =>
    rename_i a level
    generalize address : a + headerSize = freed at two
    cases two with
    | freed two =>
      rename_i b k
      have same : a = b := by
        unfold headerSize at address
        omega
      subst same
      rw [valid.level_unique (.inr one) (.inr two)]
      exact ⟨rfl, rfl⟩

/-! ## Independence from client data -/

/-- The results so far and the content of every free list. List 0 is never set up
nor used: only its head is compared. -/
def Agree (w v : World) : Prop :=
  w.returned = v.returned ∧ w.heap.manager.blocks 0 = v.heap.manager.blocks 0 ∧
    ∀ level items, 1 ≤ level → level < blockLists →
      (w.heap.Lists level items ↔ v.heap.Lists level items)

/-- Runs that make the same requests agree, whatever clients write, as long as
every merge inspects honest bytes. -/
theorem agree_of_honest {requests : List Request}
    (one : Run (ClientStep Honest) (World.boot start) requests w)
    (two : Run (ClientStep Honest) (World.boot start) requests v) : Agree w v := by
  have common : ∃ p, Tracks w p ∧ Tracks v p ∧ w.returned = v.returned ∧
      w.heap.manager.blocks 0 = v.heap.manager.blocks 0 := by
    apply one.lockstep (fun w v => ∃ p, Tracks w p ∧ Tracks v p ∧ w.returned = v.returned ∧
      w.heap.manager.blocks 0 = v.heap.manager.blocks 0) two
    · intro w request w' v v' related left right
      obtain ⟨p, first, second, returned, list0⟩ := related
      obtain ⟨results, q, served, after, recorded, kept⟩ := first.client_step left
      obtain ⟨results', q', served', after', recorded', kept'⟩ := second.client_step right
      obtain ⟨rfl, rfl⟩ := served.deterministic first.valid served'
      exact ⟨q, after, after', by rw [recorded, recorded', returned], by rw [kept, kept', list0]⟩
    · exact ⟨root, boot_tracks, boot_tracks, rfl, rfl⟩
  obtain ⟨p, first, second, returned, list0⟩ := common
  refine ⟨returned, list0, ?_⟩
  intro level items low high
  constructor
  · intro lists
    rw [Linked.unique lists (first.shown.lists low high)]
    exact second.shown.lists low high
  · intro lists
    rw [Linked.unique lists (second.shown.lists low high)]
    exact first.shown.lists low high

/-- The client of the first block writes into it before the second request. -/
theorem agree_after_write : Agree
    (((World.boot zeroHeap).serve (.alloc 100)).serve (.alloc 100))
    ({ (World.boot zeroHeap).serve (.alloc 100) with
        heap := ((World.boot zeroHeap).serve (.alloc 100)).heap.edit 0x600020
          fun _ => ⟨5, .allocated, 1, 2⟩ }.serve (.alloc 100)) := by
  have bound : 100 + headerSize ≤ 2 ^ 32 := by decide
  have owned : Owned ((World.boot zeroHeap).serve (.alloc 100)) 0x600020 :=
    ⟨heapStartAddress, by decide +kernel, by decide, by decide +kernel⟩
  exact agree_of_honest
    (.cons (.quiet (served_alloc bound)) (.single (.quiet (served_alloc bound))))
    (.cons (.quiet (served_alloc bound)) (.single (.after_write owned (served_alloc bound))))

/-- Two clients with a block of 4 MiB and one of 2 MiB. -/
def twoClients : World :=
  ((World.boot zeroHeap).serve (.alloc (2 ^ 22 - 24))).serve (.alloc (2 ^ 21 - 24))

/-- The first one writes a header into its payload, the second one frees its block. -/
def forgery (change : BuddyBlock → BuddyBlock) : World :=
  { twoClients with heap := twoClients.heap.edit 0x800000 change }.serve (.free 0xA00018)

/-- A client that writes a free header of level 21 into the middle of its own
4 MiB block makes the allocator hand out that middle again. -/
theorem client_forges_header : ¬ ∀ start requests w v, Zeroed start →
    Run (ClientStep fun _ _ => True) (World.boot start) requests w →
    Run (ClientStep fun _ _ => True) (World.boot start) requests v → Agree w v := by
  intro claim
  have large : 2 ^ 22 - 24 + headerSize ≤ 2 ^ 32 := by decide
  have small : 2 ^ 21 - 24 + headerSize ≤ 2 ^ 32 := by decide
  have owned : Owned twoClients 0x800000 :=
    ⟨heapStartAddress, by decide +kernel, by decide, by decide +kernel⟩
  have live : 0xA00018 ∈ twoClients.live := by decide +kernel
  have run : ∀ change, Run (ClientStep fun _ _ => True) (World.boot zeroHeap)
      [.alloc (2 ^ 22 - 24), .alloc (2 ^ 21 - 24), .free 0xA00018, .alloc (2 ^ 22 - 24)]
      ((forgery change).serve (.alloc (2 ^ 22 - 24))) := by
    intro change
    have freed : ClientStep (fun _ _ => True) twoClients (.free 0xA00018) (forgery change) :=
      .after_write owned ⟨live, trivial⟩
    exact .cons (.quiet (served_alloc large)) (.cons (.quiet (served_alloc small))
      (.cons freed (.single (.quiet (served_alloc large)))))
  have agree := claim zeroHeap _ _ _ zeroHeap_zeroed (run id) (run fun _ => ⟨21, .free, 0, 0⟩)
  have different : ((forgery id).serve (.alloc (2 ^ 22 - 24))).returned ≠
      ((forgery fun _ => ⟨21, .free, 0, 0⟩).serve (.alloc (2 ^ 22 - 24))).returned := by
    decide +kernel
  exact different agree.1

end SoKernel.Buddy
