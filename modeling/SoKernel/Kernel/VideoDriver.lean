import SoKernel.Kernel.MemoryRoutines
import SoKernel.Lib.RowMajor
import Mathlib.Order.Interval.Finset.Nat
import Mathlib.Data.Finset.Prod

namespace SoKernel.VideoDriver
open Lib Routines

/-! ## `drivers/videoDriver.c` -/

/-- What the driver reads of `vbe_mode_info_structure`. -/
structure VBEModeInfo where
  framebuffer : UInt32
  pitch : UInt16
  width : UInt16
  height : UInt16
  bpp : UInt8

variable (mode : VBEModeInfo)

/-- The bytes of a pixel, the first one at its offset. -/
def putPixel (hexColor : UInt32) (x y : UInt64) (m : Bytes) : Bytes :=
  let framebuffer := mode.framebuffer.toNat
  let offset := x * (mode.bpp / 8).toUInt64 + y * mode.pitch.toUInt64
  let m := m.store (framebuffer + offset.toNat) (hexColor &&& 0xFF).toUInt8
  let m := m.store (framebuffer + (offset + 1).toNat) ((hexColor >>> 8) &&& 0xFF).toUInt8
  m.store (framebuffer + (offset + 2).toNat) ((hexColor >>> 16) &&& 0xFF).toUInt8

def clearScreen (color : UInt32) (m : Bytes) : Bytes :=
  (List.range mode.height.toNat).foldl (fun m y =>
    (List.range mode.width.toNat).foldl (fun m x =>
      putPixel mode color (UInt64.ofNat x) (UInt64.ofNat y) m) m) m

/-- What a counter passes from `first` on while it is below both bounds. -/
def counts (first bound : UInt64) (limit : UInt16) : List UInt64 :=
  (List.range' first.toNat (min bound.toNat limit.toNat - first.toNat)).map UInt64.ofNat

/-- The second component is memory; the first one is returned. -/
def drawSquare (x y sideLength : UInt64) (hexColor : UInt32) (m : Bytes) : Int32 × Bytes :=
  if x > mode.width.toUInt64 ∨ y > mode.height.toUInt64 ∨ sideLength ≤ 0 then (-1, m)
  else
    let columns := counts x (x + sideLength) mode.width
    let rows := counts y (y + sideLength) mode.height
    let m := columns.foldl (fun m i => rows.foldl (fun m j => putPixel mode hexColor i j m) m) m
    let i := x + UInt64.ofNat columns.length
    -- Without a column the inner loop never starts.
    let j := if columns.length = 0 then y else y + UInt64.ofNat rows.length
    ((sideLength * sideLength - (i - x) * (j - y)).toUInt32.toInt32, m)

/-! ## The picture -/

/-- Pixels of three bytes or more, and rows that hold them. -/
structure Usable (mode : VBEModeInfo) : Prop where
  deep : 3 ≤ mode.bpp.toNat / 8
  wide : mode.width.toNat * (mode.bpp.toNat / 8) ≤ mode.pitch.toNat

def OnScreen (x y : Nat) : Prop := x < mode.width.toNat ∧ y < mode.height.toNat

/-- The frame buffer begins here. -/
def base : Nat := mode.framebuffer.toNat

/-- The number of bytes of the frame buffer. -/
def size : Nat := mode.height.toNat * mode.pitch.toNat

def pixelAddress (x y : Nat) : Nat :=
  base mode + RowMajor.place (mode.bpp.toNat / 8) mode.pitch.toNat x y

/-- Blue, green and red. -/
abbrev Color := UInt8 × UInt8 × UInt8

def colorOf (hexColor : UInt32) : Color :=
  ((hexColor &&& 0xFF).toUInt8, ((hexColor >>> 8) &&& 0xFF).toUInt8,
    ((hexColor >>> 16) &&& 0xFF).toUInt8)

def black : Color := (0, 0, 0)

def pixel (m : Bytes) (x y : Nat) : Color :=
  (m (pixelAddress mode x y), m (pixelAddress mode x y + 1), m (pixelAddress mode x y + 2))

/-- Only the frame buffer was written. -/
def FrameOnly (m m' : Bytes) : Prop :=
  ∀ a, a < base mode ∨ base mode + size mode ≤ a → m' a = m a

/-- The pixels of a set took a colour, the other pixels kept theirs. -/
structure Painted (points : Nat → Nat → Prop) (color : Color) (m m' : Bytes) : Prop where
  hit : ∀ x y, OnScreen mode x y → points x y → pixel mode m' x y = color
  missed : ∀ x y, OnScreen mode x y → ¬ points x y → pixel mode m' x y = pixel mode m x y
  frame : FrameOnly mode m m'

variable {mode} {m m' middle : Bytes} {x y a b : Nat} {hexColor : UInt32} {color : Color}
variable {points more : Nat → Nat → Prop}

theorem FrameOnly.refl : FrameOnly mode m m := fun _ _ => rfl

theorem FrameOnly.trans (first : FrameOnly mode m middle) (second : FrameOnly mode middle m') :
    FrameOnly mode m m' :=
  fun a outside => (second a outside).trans (first a outside)

theorem Painted.nothing (none : ∀ x y, ¬ points x y) : Painted mode points color m m where
  hit x y _ inside := absurd inside (none x y)
  missed _ _ _ _ := rfl
  frame := .refl

/-- The same colour twice. -/
theorem Painted.union (first : Painted mode points color m middle)
    (second : Painted mode more color middle m') :
    Painted mode (fun x y => points x y ∨ more x y) color m m' where
  hit x y shown inside := by
    by_cases again : more x y
    · exact second.hit x y shown again
    · rw [second.missed x y shown again]
      exact first.hit x y shown (inside.resolve_right again)
  missed x y shown outside := by
    rw [not_or] at outside
    rw [second.missed x y shown outside.2, first.missed x y shown outside.1]
  frame := first.frame.trans second.frame

theorem Painted.congr (painted : Painted mode points color m m')
    (same : ∀ x y, OnScreen mode x y → (points x y ↔ more x y)) :
    Painted mode more color m m' where
  hit x y shown inside := painted.hit x y shown ((same x y shown).mpr inside)
  missed x y shown outside := painted.missed x y shown fun inside =>
    outside ((same x y shown).mp inside)
  frame := painted.frame

/-! ## One pixel -/

theorem pixelAddress_bounds (usable : Usable mode) (shown : OnScreen mode x y) :
    base mode ≤ pixelAddress mode x y ∧ pixelAddress mode x y + 3 ≤ base mode + size mode := by
  have inside := RowMajor.place_lt usable.wide shown.1 shown.2
  have deep := usable.deep
  unfold pixelAddress size
  omega

theorem size_bound (mode : VBEModeInfo) : base mode + size mode ≤ 2 ^ 33 := by
  have start := mode.framebuffer.toNat_lt
  have rows : mode.height.toNat ≤ 65535 := Nat.le_of_lt_succ mode.height.toNat_lt
  have bytes : mode.pitch.toNat ≤ 65535 := Nat.le_of_lt_succ mode.pitch.toNat_lt
  have area : mode.height.toNat * mode.pitch.toNat ≤ 65535 * 65535 := Nat.mul_le_mul rows bytes
  unfold base size
  omega

/-- The offset of a pixel on the screen does not wrap around. -/
theorem offset_toNat (usable : Usable mode) (shown : OnScreen mode x y) :
    (UInt64.ofNat x * (mode.bpp / 8).toUInt64 + UInt64.ofNat y * mode.pitch.toUInt64).toNat =
      RowMajor.place (mode.bpp.toNat / 8) mode.pitch.toNat x y := by
  have inside := RowMajor.place_lt usable.wide shown.1 shown.2
  have bound := size_bound mode
  have column := Nat.lt_trans shown.1 mode.width.toNat_lt
  have row := Nat.lt_trans shown.2 mode.height.toNat_lt
  unfold size at bound
  unfold RowMajor.place at inside ⊢
  have depth : (mode.bpp / 8).toUInt64.toNat = mode.bpp.toNat / 8 := by
    rw [UInt8.toNat_toUInt64, UInt8.toNat_div]
    rfl
  rw [UInt64.toNat_add, UInt64.toNat_mul, UInt64.toNat_mul, depth, UInt16.toNat_toUInt64,
    UInt64.toNat_ofNat_of_lt' (show x < 2 ^ 64 by omega),
    UInt64.toNat_ofNat_of_lt' (show y < 2 ^ 64 by omega),
    Nat.mod_eq_of_lt (a := x * _) (by omega), Nat.mod_eq_of_lt (a := y * _) (by omega),
    Nat.mod_eq_of_lt (by omega)]

/-- On the screen, three bytes are stored at the address of the pixel. -/
theorem putPixel_eq (usable : Usable mode) (shown : OnScreen mode x y) :
    putPixel mode hexColor (UInt64.ofNat x) (UInt64.ofNat y) m =
      m.storeAll (pixelAddress mode x y)
        [(colorOf hexColor).1, (colorOf hexColor).2.1, (colorOf hexColor).2.2] := by
  have bounds := pixelAddress_bounds usable shown
  have bound := size_bound mode
  have offset := offset_toNat usable shown
  unfold pixelAddress base at bounds
  unfold base at bound
  have one : (UInt64.ofNat x * (mode.bpp / 8).toUInt64 + UInt64.ofNat y * mode.pitch.toUInt64 +
      1).toNat = RowMajor.place (mode.bpp.toNat / 8) mode.pitch.toNat x y + 1 := by
    rw [UInt64.toNat_add, offset]
    exact Nat.mod_eq_of_lt (show _ + 1 < 2 ^ 64 by omega)
  have two : (UInt64.ofNat x * (mode.bpp / 8).toUInt64 + UInt64.ofNat y * mode.pitch.toUInt64 +
      2).toNat = RowMajor.place (mode.bpp.toNat / 8) mode.pitch.toNat x y + 2 := by
    rw [UInt64.toNat_add, offset]
    exact Nat.mod_eq_of_lt (show _ + 2 < 2 ^ 64 by omega)
  unfold putPixel
  dsimp only
  rw [offset, one, two]
  rfl

theorem putPixel_painted (usable : Usable mode) (shown : OnScreen mode x y) :
    Painted mode (fun a b => a = x ∧ b = y) (colorOf hexColor) m
      (putPixel mode hexColor (UInt64.ofNat x) (UInt64.ofNat y) m) := by
  have bounds := pixelAddress_bounds usable shown
  have bound := size_bound mode
  rw [putPixel_eq usable shown]
  constructor
  · rintro a b _ ⟨rfl, rfl⟩
    have stored : ∀ j (inside : j < 3), m.storeAll (pixelAddress mode a b) [(colorOf hexColor).1,
        (colorOf hexColor).2.1, (colorOf hexColor).2.2] (pixelAddress mode a b + j) =
          [(colorOf hexColor).1, (colorOf hexColor).2.1, (colorOf hexColor).2.2][j] :=
      fun j inside => Bytes.storeAll_inside
        (by simp only [List.length_cons, List.length_nil]; omega) inside
    exact Prod.ext (stored 0 (by decide))
      (Prod.ext (stored 1 (by decide)) (stored 2 (by decide)))
  · intro a b shown' different
    have apart := RowMajor.place_apart usable.wide shown.1 shown'.1 different
    have deep := usable.deep
    have kept : ∀ j < 3, m.storeAll (pixelAddress mode x y) [(colorOf hexColor).1,
        (colorOf hexColor).2.1, (colorOf hexColor).2.2] (pixelAddress mode a b + j) =
          m (pixelAddress mode a b + j) := by
      intro j inside
      refine Bytes.storeAll_other ?_ ?_
      · simp only [List.length_cons, List.length_nil]
        omega
      · simp only [List.length_cons, List.length_nil]
        unfold pixelAddress
        omega
    exact Prod.ext (kept 0 (by decide)) (Prod.ext (kept 1 (by decide)) (kept 2 (by decide)))
  · intro address outside
    refine Bytes.storeAll_other ?_ ?_
    · simp only [List.length_cons, List.length_nil]
      omega
    · simp only [List.length_cons, List.length_nil]
      omega

/-! ## Many pixels -/

/-- What each step of a loop paints, the loop paints. -/
theorem foldl_painted {ι : Type} {items : List ι} {paint : Bytes → ι → Bytes}
    {area : ι → Nat → Nat → Prop}
    (each : ∀ m, ∀ item ∈ items, Painted mode (area item) color m (paint m item)) (m : Bytes) :
    Painted mode (fun x y => ∃ item ∈ items, area item x y) color m (items.foldl paint m) := by
  induction items generalizing m with
  | nil => exact .nothing fun _ _ ⟨_, never, _⟩ => nomatch never
  | cons item items ih =>
    have rest := ih (fun m other member => each m other (List.mem_cons_of_mem _ member))
      (paint m item)
    refine ((each m item List.mem_cons_self).union rest).congr fun x y _ => ?_
    simp only [List.mem_cons, exists_eq_or_imp]

variable {first bound x' y' sideLength : UInt64} {limit : UInt16}

theorem mem_counts {n : UInt64} : n ∈ counts first bound limit ↔
    ∃ k, first.toNat ≤ k ∧ k < bound.toNat ∧ k < limit.toNat ∧ UInt64.ofNat k = n := by
  simp only [counts, List.mem_map, List.mem_range'_1]
  constructor
  · rintro ⟨k, ⟨low, high⟩, same⟩
    exact ⟨k, low, by omega, by omega, same⟩
  · rintro ⟨k, low, high, high', same⟩
    exact ⟨k, ⟨low, by omega⟩, same⟩

theorem counts_length (first bound : UInt64) (limit : UInt16) :
    (counts first bound limit).length = min bound.toNat limit.toNat - first.toNat := by
  simp [counts]

/-- The square from a corner on; a side that wraps around leaves nothing. -/
def Square (x y sideLength : UInt64) (a b : Nat) : Prop :=
  (x.toNat ≤ a ∧ a < (x + sideLength).toNat) ∧ y.toNat ≤ b ∧ b < (y + sideLength).toNat

theorem loops_painted (usable : Usable mode) (m : Bytes) :
    Painted mode (Square x' y' sideLength) (colorOf hexColor) m
      ((counts x' (x' + sideLength) mode.width).foldl (fun m i =>
        (counts y' (y' + sideLength) mode.height).foldl (fun m j =>
          putPixel mode hexColor i j m) m) m) := by
  have column : ∀ i ∈ counts x' (x' + sideLength) mode.width, ∀ m, Painted mode
      (fun a b => ∃ j ∈ counts y' (y' + sideLength) mode.height, a = i.toNat ∧ b = j.toNat)
      (colorOf hexColor) m ((counts y' (y' + sideLength) mode.height).foldl (fun m j =>
        putPixel mode hexColor i j m) m) := by
    intro i member m
    obtain ⟨p, _, _, inside, rfl⟩ := mem_counts.mp member
    refine foldl_painted (fun m j member => ?_) m
    obtain ⟨q, _, _, inside', rfl⟩ := mem_counts.mp member
    have small := Nat.lt_trans inside mode.width.toNat_lt
    have small' := Nat.lt_trans inside' mode.height.toNat_lt
    rw [UInt64.toNat_ofNat_of_lt' (show p < 2 ^ 64 by omega),
      UInt64.toNat_ofNat_of_lt' (show q < 2 ^ 64 by omega)]
    exact putPixel_painted usable ⟨inside, inside'⟩
  refine (foldl_painted (fun m i member => column i member m) m).congr fun a b shown => ?_
  have small := Nat.lt_trans shown.1 mode.width.toNat_lt
  have small' := Nat.lt_trans shown.2 mode.height.toNat_lt
  constructor
  · rintro ⟨i, member, j, member', rfl, rfl⟩
    obtain ⟨p, low, high, inside, rfl⟩ := mem_counts.mp member
    obtain ⟨q, low', high', inside', rfl⟩ := mem_counts.mp member'
    have bound := Nat.lt_trans inside mode.width.toNat_lt
    have bound' := Nat.lt_trans inside' mode.height.toNat_lt
    unfold Square
    rw [UInt64.toNat_ofNat_of_lt' (show p < 2 ^ 64 by omega),
      UInt64.toNat_ofNat_of_lt' (show q < 2 ^ 64 by omega)]
    exact ⟨⟨low, high⟩, low', high'⟩
  · rintro ⟨⟨low, high⟩, low', high'⟩
    refine ⟨UInt64.ofNat a, mem_counts.mpr ⟨a, low, high, shown.1, rfl⟩, UInt64.ofNat b,
      mem_counts.mpr ⟨b, low', high', shown.2, rfl⟩, ?_, ?_⟩
    · exact (UInt64.toNat_ofNat_of_lt' (show a < 2 ^ 64 by omega)).symm
    · exact (UInt64.toNat_ofNat_of_lt' (show b < 2 ^ 64 by omega)).symm

/-- The square is clipped at the edges of the screen, whatever the arguments are. -/
theorem drawSquare_painted (usable : Usable mode) (x y sideLength : UInt64) (m : Bytes) :
    Painted mode (Square x y sideLength) (colorOf hexColor) m
      (drawSquare mode x y sideLength hexColor m).2 := by
  unfold drawSquare
  split
  · rename_i refused
    have nothing : Painted mode (fun _ _ => False) (colorOf hexColor) m m :=
      .nothing fun _ _ never => never
    refine nothing.congr fun a b shown => ?_
    refine iff_of_false not_false ?_
    rintro ⟨⟨low, high⟩, low', high'⟩
    rcases refused with right | below | empty
    · rw [gt_iff_lt, UInt64.lt_iff_toNat_lt, UInt16.toNat_toUInt64] at right
      have inside := shown.1
      omega
    · rw [gt_iff_lt, UInt64.lt_iff_toNat_lt, UInt16.toNat_toUInt64] at below
      have inside := shown.2
      omega
    · rw [UInt64.le_iff_toNat_le] at empty
      have none : sideLength = 0 := UInt64.toNat_inj.mp (Nat.le_zero.mp empty)
      rw [none, UInt64.add_zero] at high
      omega
  · exact loops_painted usable m

theorem clearScreen_painted (usable : Usable mode) (m : Bytes) :
    Painted mode (fun _ _ => True) (colorOf hexColor) m (clearScreen mode hexColor m) := by
  have row : ∀ y ∈ List.range mode.height.toNat, ∀ m, Painted mode
      (fun a b => ∃ x ∈ List.range mode.width.toNat, a = x ∧ b = y) (colorOf hexColor) m
      ((List.range mode.width.toNat).foldl (fun m x =>
        putPixel mode hexColor (UInt64.ofNat x) (UInt64.ofNat y) m) m) :=
    fun y member m => foldl_painted (fun _ _ member' => putPixel_painted usable
      ⟨List.mem_range.mp member', List.mem_range.mp member⟩) m
  refine (foldl_painted (fun m y member => row y member m) m).congr fun a b shown => ?_
  refine iff_of_true ?_ trivial
  exact ⟨b, List.mem_range.mpr shown.2, a, List.mem_range.mpr shown.1, rfl, rfl⟩

/-! ## What `drawSquare` returns -/

variable {x y : UInt64}

/-- A number that fits an `int` is what it becomes. -/
theorem toInt_of_small {n : UInt64} (small : n.toNat < 2 ^ 31) :
    n.toUInt32.toInt32.toInt = n.toNat := by
  have low : n.toUInt32.toNat = n.toNat := by
    rw [UInt64.toNat_toUInt32]
    omega
  show n.toUInt32.toBitVec.toInt = n.toNat
  rw [BitVec.toInt_eq_toNat_of_lt]
  · exact congrArg Nat.cast low
  · show 2 * n.toUInt32.toNat < 2 ^ 32
    omega

/-- The points of the square that are not on the screen. -/
def clipped (mode : VBEModeInfo) (x y side : Nat) : Finset (Nat × Nat) :=
  (Finset.Ico x (x + side) ×ˢ Finset.Ico y (y + side)).filter
    fun p => ¬ (p.1 < mode.width.toNat ∧ p.2 < mode.height.toNat)

theorem clipped_card (mode : VBEModeInfo) (x y side : Nat) : (clipped mode x y side).card =
    side * side - (min (x + side) mode.width.toNat - x) * (min (y + side) mode.height.toNat - y) := by
  have shown : (Finset.Ico x (x + side) ×ˢ Finset.Ico y (y + side)).filter
      (fun p => p.1 < mode.width.toNat ∧ p.2 < mode.height.toNat) =
        Finset.Ico x (min (x + side) mode.width.toNat) ×ˢ
          Finset.Ico y (min (y + side) mode.height.toNat) := by
    ext p
    simp only [Finset.mem_filter, Finset.mem_product, Finset.mem_Ico, lt_min_iff]
    tauto
  have whole := Finset.card_filter_add_card_filter_not
    (s := Finset.Ico x (x + side) ×ˢ Finset.Ico y (y + side))
    (fun p => p.1 < mode.width.toNat ∧ p.2 < mode.height.toNat)
  rw [shown, Finset.card_product, Finset.card_product] at whole
  simp only [Nat.card_Ico, Nat.add_sub_cancel_left] at whole
  unfold clipped
  omega

/-- `drawSquare` returns how many pixels of the square it did not draw. -/
theorem drawSquare_counts_clipped (corner : x ≤ mode.width.toUInt64)
    (corner' : y ≤ mode.height.toUInt64) (some : 0 < sideLength)
    (small : sideLength.toNat * sideLength.toNat < 2 ^ 31) :
    (drawSquare mode x y sideLength hexColor m).1.toInt =
      (clipped mode x.toNat y.toNat sideLength.toNat).card := by
  have width := mode.width.toNat_lt
  have height := mode.height.toNat_lt
  have bound : sideLength.toNat < 2 ^ 31 := by nlinarith
  rw [UInt64.le_iff_toNat_le, UInt16.toNat_toUInt64] at corner corner'
  have side : (x + sideLength).toNat = x.toNat + sideLength.toNat := by
    rw [UInt64.toNat_add]
    omega
  have side' : (y + sideLength).toNat = y.toNat + sideLength.toNat := by
    rw [UInt64.toNat_add]
    omega
  have accepted : ¬ (x > mode.width.toUInt64 ∨ y > mode.height.toUInt64 ∨ sideLength ≤ 0) := by
    rw [gt_iff_lt, gt_iff_lt, UInt64.lt_iff_toNat_lt, UInt64.lt_iff_toNat_lt,
      UInt64.le_iff_toNat_le, UInt16.toNat_toUInt64, UInt16.toNat_toUInt64]
    rw [UInt64.lt_iff_toNat_lt] at some
    simp only [UInt64.toNat_zero] at *
    omega
  have cells := clipped_card mode x.toNat y.toNat sideLength.toNat
  have columns := counts_length x (x + sideLength) mode.width
  have rows := counts_length y (y + sideLength) mode.height
  rw [side] at columns
  rw [side'] at rows
  rw [← columns, ← rows] at cells
  unfold drawSquare
  rw [if_neg accepted]
  dsimp only
  rw [cells]
  generalize (counts x (x + sideLength) mode.width).length = p at columns ⊢
  generalize (counts y (y + sideLength) mode.height).length = q at rows ⊢
  have drawn : p * q ≤ sideLength.toNat * sideLength.toNat :=
    Nat.mul_le_mul (by omega) (by omega)
  have cancel : ∀ a b : UInt64, a + b - a = b := by
    intro a b
    rw [UInt64.add_comm, UInt64.add_sub_cancel]
  have product : (x + UInt64.ofNat p - x) * ((if p = 0 then y else y + UInt64.ofNat q) - y) =
      UInt64.ofNat (p * q) := by
    rw [UInt64.ofNat_mul, cancel]
    split
    · rename_i none
      rw [none]
      exact (UInt64.zero_mul).trans (UInt64.zero_mul).symm
    · rw [cancel]
  have whole : (sideLength * sideLength).toNat = sideLength.toNat * sideLength.toNat := by
    rw [UInt64.toNat_mul]
    omega
  have part : (UInt64.ofNat (p * q)).toNat = p * q :=
    UInt64.toNat_ofNat_of_lt' (show p * q < 2 ^ 64 by omega)
  have rest : (sideLength * sideLength - UInt64.ofNat (p * q)).toNat =
      sideLength.toNat * sideLength.toNat - p * q := by
    rw [UInt64.toNat_sub_of_le _ _ (by rw [UInt64.le_iff_toNat_le, whole, part]; exact drawn),
      whole, part]
  rw [product, toInt_of_small (by rw [rest]; omega), rest]

/-- 1024 by 768 pixels of 24 bits. -/
def defaultMode : VBEModeInfo where
  framebuffer := 0xFD000000
  pitch := 3072
  width := 1024
  height := 768
  bpp := 24

theorem defaultMode_usable : Usable defaultMode := ⟨by decide, by decide⟩

/-- A square over the lower right corner. -/
theorem corner_square_counts : (drawSquare defaultMode 1020 760 16 0xFF (fun _ => 0)).1.toInt =
    (clipped defaultMode 1020 760 16).card :=
  drawSquare_counts_clipped (by decide) (by decide) (by decide) (by decide)

end SoKernel.VideoDriver
