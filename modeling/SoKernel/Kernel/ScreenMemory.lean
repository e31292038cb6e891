import SoKernel.Kernel.TextModule
import SoKernel.Kernel.VideoDriver

namespace SoKernel.ScreenMemory
open Lib Routines VideoDriver TextModule

/-! ## `moveScreenUpIfFull`, in the frame buffer -/

variable (mode : VBEModeInfo)

/-- One row up for each row, then the rows at the bottom. -/
def moveUp (scroll_amount : UInt64) (m : Bytes) : Bytes :=
  let frame_buffer := mode.framebuffer.toNat
  let pitch := mode.pitch.toNat
  let height := mode.height.toUInt64
  let m := (List.range (height - scroll_amount).toNat).foldl (fun m y =>
    memcpy (frame_buffer + y * pitch) (frame_buffer + (y + scroll_amount.toNat) * pitch) pitch m) m
  let low := (height - scroll_amount).toNat
  (List.range' low (height.toNat - low)).foldl (fun m y =>
    memset (frame_buffer + y * pitch) 0x00 pitch m) m

/-- What the driver does for a drawing. -/
def perform (m : Bytes) : Drawing → Bytes
  | .drawSquare x y sideLength color => (drawSquare mode x y sideLength color m).2
  | .clearScreen color => clearScreen mode color m
  | .moveUp scrollAmount => moveUp mode scrollAmount m

/-- Memory after the drawings. -/
def render (drawings : List Drawing) (m : Bytes) : Bytes := drawings.foldl (perform mode) m

/-! ## Rows of the frame buffer -/

def rowAddress (y c : Nat) : Nat := mode.framebuffer.toNat + y * mode.pitch.toNat + c

/-- Row by row, memory is what `source` says. -/
def RowsAre (source : Nat → Nat → UInt8) (m : Bytes) : Prop :=
  ∀ y c, y < mode.height.toNat → c < mode.pitch.toNat → m (rowAddress mode y c) = source y c

variable {mode} {m m' : Bytes} {x y c k scroll : Nat} {source : Nat → Nat → UInt8}

theorem rows_apart (pitch : Nat) (above : y < k) : y * pitch + pitch ≤ k * pitch := by
  have rows : (y + 1) * pitch ≤ k * pitch := Nat.mul_le_mul_right pitch above
  rwa [Nat.succ_mul] at rows

/-- Writing one row leaves the others. -/
theorem row_other (different : y ≠ k) (inside : c < mode.pitch.toNat)
    (kept : ∀ a, a < rowAddress mode k 0 ∨ rowAddress mode k 0 + mode.pitch.toNat ≤ a → m' a = m a) :
    m' (rowAddress mode y c) = m (rowAddress mode y c) := by
  apply kept
  unfold rowAddress
  rcases Nat.lt_or_gt_of_ne different with above | below
  · have apart := rows_apart mode.pitch.toNat above
    omega
  · have apart := rows_apart mode.pitch.toNat below
    omega

theorem row_frame (inside : k < mode.height.toNat)
    (kept : ∀ a, a < rowAddress mode k 0 ∨ rowAddress mode k 0 + mode.pitch.toNat ≤ a → m' a = m a) :
    FrameOnly mode m m' := by
  intro a outside
  apply kept
  have last := rows_apart mode.pitch.toNat inside
  unfold base size at outside
  unfold rowAddress
  omega

theorem row_bound (inside : k < mode.height.toNat) :
    rowAddress mode k 0 + mode.pitch.toNat ≤ 2 ^ 64 := by
  have bound := size_bound mode
  have last := rows_apart mode.pitch.toNat inside
  unfold base size at bound
  unfold rowAddress
  omega

/-- The rows copied so far are those `scroll` further down. -/
theorem copied_rows (scroll k : Nat) (rows : RowsAre mode source m)
    (fits : k + scroll ≤ mode.height.toNat) :
    RowsAre mode (fun y c => if y < k then source (y + scroll) c else source y c)
      ((List.range k).foldl (fun m y => memcpy (rowAddress mode y 0) (rowAddress mode (y + scroll) 0)
        mode.pitch.toNat m) m) ∧
    FrameOnly mode m ((List.range k).foldl (fun m y => memcpy (rowAddress mode y 0)
      (rowAddress mode (y + scroll) 0) mode.pitch.toNat m) m) := by
  induction k with
  | zero => exact ⟨fun y c low inside => rows y c low inside, .refl⟩
  | succ k ih =>
    obtain ⟨before, frame⟩ := ih (by omega)
    rw [List.range_succ, List.foldl_append, List.foldl_cons, List.foldl_nil]
    generalize (List.range k).foldl _ m = middle at before frame ⊢
    have below : rowAddress mode k 0 ≤ rowAddress mode (k + scroll) 0 := by
      have longer : k * mode.pitch.toNat ≤ (k + scroll) * mode.pitch.toNat :=
        Nat.mul_le_mul_right _ (Nat.le_add_right k scroll)
      unfold rowAddress
      omega
    have moved := memcpy_moved (row_bound (by omega)) (row_bound (k := k + scroll) (by omega))
      (.inl below) middle
    refine ⟨fun y c low inside => ?_, frame.trans (row_frame (by omega) moved.other)⟩
    by_cases here : y = k
    · subst here
      have copied := moved.arrived c inside
      have there := before (y + scroll) c (by omega) inside
      dsimp only at there ⊢
      rw [if_neg (by omega)] at there
      rw [if_pos (Nat.lt_succ_self y), ← there]
      exact copied
    · rw [row_other here inside moved.other, before y c low inside]
      have same : y < k ↔ y < k + 1 := by omega
      simp only [same]

/-- The rows cleared so far are zero. -/
theorem cleared_rows (rows : RowsAre mode source m) (first n : Nat)
    (fits : first + n ≤ mode.height.toNat) :
    RowsAre mode (fun y c => if first ≤ y ∧ y < first + n then 0 else source y c)
      ((List.range' first n).foldl (fun m y =>
        memset (rowAddress mode y 0) 0x00 mode.pitch.toNat m) m) ∧
    FrameOnly mode m ((List.range' first n).foldl (fun m y =>
      memset (rowAddress mode y 0) 0x00 mode.pitch.toNat m) m) := by
  induction n with
  | zero =>
    refine ⟨fun y c low inside => ?_, .refl⟩
    dsimp only
    rw [if_neg (by omega)]
    exact rows y c low inside
  | succ n ih =>
    obtain ⟨before, frame⟩ := ih (by omega)
    rw [List.range'_1_concat, List.foldl_append, List.foldl_cons, List.foldl_nil]
    generalize (List.range' first n).foldl _ m = middle at before frame ⊢
    have room : rowAddress mode (first + n) 0 + mode.pitch.toNat ≤ 2 ^ 64 := row_bound (by omega)
    have other : ∀ a, a < rowAddress mode (first + n) 0 ∨
        rowAddress mode (first + n) 0 + mode.pitch.toNat ≤ a →
        memset (rowAddress mode (first + n) 0) 0x00 mode.pitch.toNat middle a = middle a :=
      fun a outside => memset_other room outside
    refine ⟨fun y c low inside => ?_, frame.trans (row_frame (by omega) other)⟩
    by_cases here : y = first + n
    · subst here
      dsimp only
      rw [if_pos (by omega)]
      have filled := memset_fills (c := 0x00) (m := middle) room (x := rowAddress mode (first + n) c)
        (by unfold rowAddress; omega) (by unfold rowAddress; omega)
      exact filled
    · rw [row_other here inside other, before y c low inside]
      have same : (first ≤ y ∧ y < first + n) ↔ (first ≤ y ∧ y < first + (n + 1)) := by omega
      simp only [same]

/-! ## Scrolling -/

/-- The picture moved up, with black below. -/
structure Scrolled (mode : VBEModeInfo) (scroll : Nat) (m m' : Bytes) : Prop where
  moved : ∀ x y, OnScreen mode x y → y + scroll < mode.height.toNat →
    pixel mode m' x y = pixel mode m x (y + scroll)
  cleared : ∀ x y, OnScreen mode x y → mode.height.toNat ≤ y + scroll → pixel mode m' x y = black
  frame : FrameOnly mode m m'

theorem pixel_of_rows (usable : Usable mode) (shown : OnScreen mode x y)
    (rows : RowsAre mode source m) : pixel mode m x y =
      (source y (x * (mode.bpp.toNat / 8)), source y (x * (mode.bpp.toNat / 8) + 1),
        source y (x * (mode.bpp.toNat / 8) + 2)) := by
  have deep := usable.deep
  have cells : (x + 1) * (mode.bpp.toNat / 8) ≤ mode.width.toNat * (mode.bpp.toNat / 8) :=
    Nat.mul_le_mul_right _ shown.1
  have wide := usable.wide
  rw [Nat.succ_mul] at cells
  have byte : ∀ j < 3, m (pixelAddress mode x y + j) = source y (x * (mode.bpp.toNat / 8) + j) := by
    intro j small
    rw [← rows y (x * (mode.bpp.toNat / 8) + j) shown.2 (by omega)]
    congr 1
    unfold pixelAddress rowAddress RowMajor.place base
    omega
  exact Prod.ext (byte 0 (by decide)) (Prod.ext (byte 1 (by decide)) (byte 2 (by decide)))

/-- The loops of `moveScreenUpIfFull` move the whole picture at once. -/
theorem moveUp_scrolled (usable : Usable mode) (amount : UInt64)
    (fits : amount.toNat ≤ mode.height.toNat) (m : Bytes) :
    Scrolled mode amount.toNat m (moveUp mode amount m) := by
  have height : (mode.height.toUInt64 - amount).toNat = mode.height.toNat - amount.toNat := by
    rw [UInt64.toNat_sub_of_le _ _ (by rw [UInt64.le_iff_toNat_le, UInt16.toNat_toUInt64]; exact fits),
      UInt16.toNat_toUInt64]
  have start : RowsAre mode (fun y c => m (rowAddress mode y c)) m := fun _ _ _ _ => rfl
  obtain ⟨copied, frame⟩ := copied_rows amount.toNat (mode.height.toNat - amount.toNat)
    start (by omega)
  obtain ⟨cleared, frame'⟩ := cleared_rows copied (mode.height.toNat - amount.toNat) amount.toNat
    (by omega)
  have same : moveUp mode amount m = (List.range' (mode.height.toNat - amount.toNat)
      amount.toNat).foldl (fun m y => memset (rowAddress mode y 0) 0x00 mode.pitch.toNat m)
        ((List.range (mode.height.toNat - amount.toNat)).foldl (fun m y =>
          memcpy (rowAddress mode y 0) (rowAddress mode (y + amount.toNat) 0) mode.pitch.toNat m)
            m) := by
    unfold moveUp
    dsimp only
    rw [height, UInt16.toNat_toUInt64,
      show mode.height.toNat - (mode.height.toNat - amount.toNat) = amount.toNat by omega]
    rfl
  rw [same]
  constructor
  · intro x y shown within
    have kept : ¬ (mode.height.toNat - amount.toNat ≤ y ∧
        y < mode.height.toNat - amount.toNat + amount.toNat) := by omega
    have early : y < mode.height.toNat - amount.toNat := by omega
    rw [pixel_of_rows usable shown cleared, pixel_of_rows usable ⟨shown.1, within⟩ start]
    simp only [kept, early, if_true, if_false]
  · intro x y shown below
    have bottom : mode.height.toNat - amount.toNat ≤ y ∧
        y < mode.height.toNat - amount.toNat + amount.toNat := by
      have low := shown.2
      omega
    rw [pixel_of_rows usable shown cleared]
    simp only [bottom, and_self, if_true]
    rfl
  · exact frame.trans frame'

/-! ## Nothing but the frame buffer is written -/

/-- The move, if it is one, fits the screen. -/
def Mild (mode : VBEModeInfo) : Drawing → Prop
  | .drawSquare _ _ _ _ => True
  | .clearScreen _ => True
  | .moveUp scrollAmount => scrollAmount.toNat ≤ mode.height.toNat

theorem perform_frame (usable : Usable mode) {drawing : Drawing} (mild : Mild mode drawing)
    (m : Bytes) : FrameOnly mode m (perform mode m drawing) := by
  cases drawing with
  | drawSquare x y sideLength color => exact (drawSquare_painted usable x y sideLength m).frame
  | clearScreen color => exact (clearScreen_painted usable m).frame
  | moveUp scrollAmount => exact (moveUp_scrolled usable scrollAmount mild m).frame

theorem render_frame (usable : Usable mode) {drawings : List Drawing}
    (mild : ∀ drawing ∈ drawings, Mild mode drawing) (m : Bytes) :
    FrameOnly mode m (render mode drawings m) := by
  induction drawings generalizing m with
  | nil => exact .refl
  | cons drawing drawings ih =>
    exact (perform_frame usable (mild drawing List.mem_cons_self) m).trans
      (ih (fun other member => mild other (List.mem_cons_of_mem _ member)) _)

variable {screen : Screen} {text : Text} {call : Call} {calls : List Call}

/-- The height of a line, at a font size in range. -/
theorem line_toNat (range : InRange text.fontSize) :
    (fontHeight * text.fontSize).toNat = 8 * text.fontSize.toNat := by
  obtain ⟨_, high⟩ := inRange_iff.mp range
  rw [UInt64.toNat_mul]
  exact Nat.mod_eq_of_lt (show 8 * _ < 2 ^ 64 by omega)

theorem moveScreenUpIfFull_drawn (screen : Screen) (text : Text) :
    ∀ drawing ∈ (moveScreenUpIfFull screen text).drawn,
      drawing ∈ text.drawn ∨ drawing = .moveUp (fontHeight * text.fontSize) := by
  intro drawing member
  unfold moveScreenUpIfFull at member
  split at member
  · simpa [Text.draw] using member
  · exact .inl member

theorem deleteChar_drawn (screen : Screen) (text : Text) :
    ∀ drawing ∈ (deleteChar screen text).drawn,
      drawing ∈ text.drawn ∨ ∃ x y side, drawing = .drawSquare x y side 0 := by
  have moved : ∀ text' : Text, text'.drawn = text.drawn → ∀ drawing ∈ (text'.draw
      (pixels.flatMap fun i => pixels.map fun j => .drawSquare (text'.xPos + i * text'.fontSize)
        (text'.yPos + j * text'.fontSize) text'.fontSize 0)).drawn,
      drawing ∈ text.drawn ∨ ∃ x y side, drawing = .drawSquare x y side 0 := by
    intro text' same drawing member
    rw [Text.draw, List.mem_append, same, List.mem_flatMap] at member
    rcases member with old | ⟨i, _, new⟩
    · exact .inl old
    · obtain ⟨j, _, rfl⟩ := List.mem_map.mp new
      exact .inr ⟨_, _, _, rfl⟩
  unfold deleteChar
  dsimp only
  split
  · split <;> exact moved _ rfl
  · exact moved _ rfl

theorem printChar_drawn (screen : Screen) (char : UInt8) (color : UInt32) (text : Text) :
    ∀ drawing ∈ (printChar screen char color text).drawn,
      drawing ∈ text.drawn ∨ ∃ x y side, drawing = .drawSquare x y side color := by
  intro drawing member
  rw [printChar, Text.draw, List.mem_append, List.mem_flatMap] at member
  rcases member with old | ⟨i, _, new⟩
  · exact .inl old
  · obtain ⟨j, _, rfl⟩ := List.mem_map.mp new
    exact .inr ⟨_, _, _, rfl⟩

/-- What a call adds to the drawings. -/
theorem serve_drawn (screen : Screen) (text : Text) (call : Call) :
    ∀ drawing ∈ (serve screen text call).drawn, drawing ∈ text.drawn ∨
      (∃ x y side color, drawing = .drawSquare x y side color) ∨
      (∃ color, drawing = .clearScreen color) ∨
      drawing = .moveUp (fontHeight * text.fontSize) := by
  intro drawing member
  cases call with
  | fontSizeUp increase =>
    left
    unfold serve syscall_fontSizeUp fontSizeUp at member
    dsimp only at member
    split at member <;> exact member
  | fontSizeDown decrease =>
    left
    unfold serve syscall_fontSizeDown fontSizeDown at member
    dsimp only at member
    split at member <;> exact member
  | deleteChar =>
    rcases deleteChar_drawn screen text drawing member with old | ⟨x, y, side, rfl⟩
    · exact .inl old
    · exact .inr (.inl ⟨x, y, side, 0, rfl⟩)
  | lineFeed =>
    rcases moveScreenUpIfFull_drawn screen _ drawing member with old | rfl
    · exact .inl old
    · exact .inr (.inr (.inr rfl))
  | clearText color =>
    rw [serve, clearText, Text.draw, List.mem_append, List.mem_singleton] at member
    rcases member with old | rfl
    · exact .inl old
    · exact .inr (.inr (.inl ⟨color, rfl⟩))
  | putChar char color =>
    have print : ∀ char (text' : Text), drawing ∈ (printChar screen char color text').drawn →
        drawing ∈ text'.drawn ∨ ∃ x y side color, drawing = .drawSquare x y side color := by
      intro char text' member
      rcases printChar_drawn screen char color text' drawing member with old | ⟨x, y, side, rfl⟩
      · exact .inl old
      · exact .inr ⟨x, y, side, color, rfl⟩
    unfold serve TextModule.putChar at member
    dsimp only at member
    split at member
    · have fed : drawing ∈ (lineFeed screen text).drawn ∨
          ∃ x y side color, drawing = .drawSquare x y side color := by
        split at member
        · exact .inl member
        · exact print char _ member
      rcases fed with old | square
      · rcases moveScreenUpIfFull_drawn screen _ drawing old with older | rfl
        · exact .inl older
        · exact .inr (.inr (.inr rfl))
      · exact .inr (.inl square)
    · split at member
      · exact (print space text member).imp_right .inl
      · split at member
        · rcases deleteChar_drawn screen text drawing member with old | ⟨x, y, side, rfl⟩
          · exact .inl old
          · exact .inr (.inl ⟨x, y, side, 0, rfl⟩)
        · exact (print char text member).imp_right .inl

/-- At font sizes in range, every drawing of a run fits. -/
theorem drawn_mild (tall : 40 ≤ mode.height.toNat)
    (range : ∀ done, done <+: calls → InRange (after screen done).fontSize) :
    ∀ drawing ∈ (after screen calls).drawn, Mild mode drawing := by
  induction calls using List.reverseRecOn with
  | nil => exact fun _ never => nomatch never
  | append_singleton calls call ih =>
    have before := ih fun done early => range done (early.trans (List.prefix_append calls [call]))
    have now := range calls (List.prefix_append calls [call])
    have high := (inRange_iff.mp now).2
    intro drawing member
    rw [after_snoc] at member
    rcases serve_drawn screen _ call drawing member with
      old | ⟨x, y, side, color, rfl⟩ | ⟨color, rfl⟩ | rfl
    · exact before drawing old
    · trivial
    · trivial
    · show (fontHeight * (after screen calls).fontSize).toNat ≤ _
      rw [line_toNat now]
      omega

/-- The screen that the text module sees. -/
def screenOf (mode : VBEModeInfo) (font8x8_basic : UInt8 → UInt64 → UInt8) : Screen :=
  ⟨mode.width, mode.height, font8x8_basic⟩

/-- Whatever is printed, deleted, cleared and resized, only the frame buffer is written. -/
theorem text_stays_in_frame (font : UInt8 → UInt64 → UInt8) (usable : Usable mode)
    (tall : 40 ≤ mode.height.toNat)
    (fits : ∀ done call, done ++ [call] <+: calls →
      call.Fits (after (screenOf mode font) done).fontSize)
    (m : Bytes) : FrameOnly mode m (render mode (after (screenOf mode font) calls).drawn m) :=
  render_frame usable (drawn_mild tall (fitting_inRange fits)) m

/-- One size up, and a letter. -/
theorem letter_stays_in_frame : FrameOnly defaultMode (fun _ => 7)
    (render defaultMode (after (screenOf defaultMode fun _ _ => 0x18)
      [.fontSizeUp 1, .putChar 65 0xFFFFFF]).drawn fun _ => 7) := by
  refine text_stays_in_frame _ defaultMode_usable (by decide) ?_ _
  rintro done call ⟨rest, same⟩
  match done with
  | [] =>
    obtain ⟨rfl, _⟩ := List.cons.inj same
    show 2 + 1 < 2 ^ 64
    decide
  | [first] =>
    obtain ⟨rfl, tail⟩ := List.cons.inj same
    obtain ⟨rfl, _⟩ := List.cons.inj tail
    trivial
  | first :: second :: done =>
    have lengths := congrArg List.length same
    simp at lengths

end SoKernel.ScreenMemory
