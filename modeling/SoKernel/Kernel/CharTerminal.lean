import SoKernel.Kernel.ScreenMemory
import SoKernel.Lib.CharGrid

namespace SoKernel.CharTerminal
open Lib VideoDriver TextModule ScreenMemory

/-! ## The terminal that the screen shows -/

structure Glyph where
  char : UInt8
  color : UInt32
deriving DecidableEq

/-- The dot of a character in a line and a column of its map. -/
def Lit (font : UInt8 → UInt64 → UInt8) (char : UInt8) (i j : Nat) : Prop :=
  (mask <<< (UInt64.ofNat j).toUInt8) &&& font char (UInt64.ofNat i) ≠ 0

instance {font : UInt8 → UInt64 → UInt8} {char : UInt8} {i j : Nat} :
    Decidable (Lit font char i j) := inferInstanceAs (Decidable (_ ≠ _))

/-- A dot is a square of `size` pixels, a cell has eight dots by eight. -/
def appearance (font : UInt8 → UInt64 → UInt8) (size : Nat) (grid : CharGrid Glyph) (x y : Nat) :
    Color :=
  match grid.cell (y / size / 8) (x / size / 8) with
  | none => black
  | some glyph =>
    if Lit font glyph.char (y / size % 8) (x / size % 8) then colorOf glyph.color else black

/-- The line that ends at the bottom of the screen is never used. -/
def rows (mode : VBEModeInfo) (size : Nat) : Nat := (mode.height.toNat - 1) / (8 * size)

def columns (mode : VBEModeInfo) (size : Nat) : Nat := mode.width.toNat / (8 * size)

/-- What a call does to the cells. In a full row every character but a newline is printed. -/
def step (rows columns : Nat) (grid : CharGrid Glyph) : Call → CharGrid Glyph
  | .putChar char color =>
    if char = newline then grid.newline rows
    else if grid.column < columns ∧ char = backspace then grid.rubout columns
    else
      let char := if grid.column < columns ∧ char = tab then space else char
      grid.put rows columns (some ⟨char, color⟩)
  | .deleteChar => grid.rubout columns
  | .lineFeed => grid.newline rows
  | .clearText _ => .clear
  | .fontSizeUp _ => grid
  | .fontSizeDown _ => grid

/-- The calls of a terminal: one font size, and a black background. -/
def Plain : Call → Prop
  | .clearText color => color = 0
  | .fontSizeUp _ => False
  | .fontSizeDown _ => False
  | .putChar _ _ => True
  | .deleteChar => True
  | .lineFeed => True

/-- A font size for which whole cells fill the rows of the screen. -/
structure Fitting (mode : VBEModeInfo) (size : Nat) : Prop where
  usable : Usable mode
  low : 1 ≤ size
  high : size ≤ 5
  whole : 8 * size ∣ mode.width.toNat
  wide : 0 < mode.width.toNat
  tall : 8 * size < mode.height.toNat

/-- The cursor is that of the grid, and every pixel is as the grid has it. -/
structure Shows (mode : VBEModeInfo) (map : UInt8 → UInt64 → UInt8) (size : Nat)
    (grid : CharGrid Glyph) (text : Text) (m : Bytes) : Prop where
  font : text.fontSize.toNat = size
  x : text.xPos.toNat = grid.column * (8 * size)
  y : text.yPos.toNat = grid.row * (8 * size)
  ordered : grid.Ordered (rows mode size) (columns mode size)
  picture : ∀ x y, OnScreen mode x y → pixel mode m x y = appearance map size grid x y

variable {mode : VBEModeInfo} {font : UInt8 → UInt64 → UInt8} {size : Nat}
variable {grid : CharGrid Glyph} {text : Text} {m : Bytes} {x y a b i j column row : Nat}

/-! ## Cells and dots -/

theorem dot_iff (low : 1 ≤ size) (inside : j < 8) :
    column * (8 * size) + j * size ≤ a ∧ a < column * (8 * size) + j * size + size ↔
      a / size / 8 = column ∧ a / size % 8 = j := by
  have first : column * (8 * size) + j * size = (column * 8 + j) * size := by ring
  have dot : (column * 8 + j) * size ≤ a ∧ a < (column * 8 + j) * size + size ↔
      a / size = column * 8 + j := by
    rw [Nat.div_eq_iff low]
    omega
  rw [first, dot]
  omega

theorem Fitting.columns_pos (fitting : Fitting mode size) : 0 < columns mode size := by
  have low := fitting.low
  exact Nat.div_pos (Nat.le_of_dvd fitting.wide fitting.whole) (by omega)

theorem Fitting.rows_pos (fitting : Fitting mode size) : 0 < rows mode size := by
  have low := fitting.low
  have tall := fitting.tall
  exact Nat.div_pos (by omega) (by omega)

theorem Fitting.width (fitting : Fitting mode size) :
    columns mode size * (8 * size) = mode.width.toNat :=
  Nat.div_mul_cancel fitting.whole

/-- A row of cells ends above the bottom of the screen. -/
theorem Fitting.row_fits (fitting : Fitting mode size) :
    row < rows mode size ↔ (row + 1) * (8 * size) < mode.height.toNat := by
  have low := fitting.low
  have tall := fitting.tall
  rw [rows, Nat.lt_iff_add_one_le, Nat.le_div_iff_mul_le (by omega)]
  omega

theorem mem_pixels {n : UInt64} : n ∈ pixels ↔ ∃ k < 8, UInt64.ofNat k = n := by
  constructor
  · intro member
    simp only [pixels, List.mem_cons, List.not_mem_nil, or_false] at member
    rcases member with rfl | rfl | rfl | rfl | rfl | rfl | rfl | rfl
    · exact ⟨0, by decide, rfl⟩
    · exact ⟨1, by decide, rfl⟩
    · exact ⟨2, by decide, rfl⟩
    · exact ⟨3, by decide, rfl⟩
    · exact ⟨4, by decide, rfl⟩
    · exact ⟨5, by decide, rfl⟩
    · exact ⟨6, by decide, rfl⟩
    · exact ⟨7, by decide, rfl⟩
  · rintro ⟨k, small, rfl⟩
    interval_cases k <;> decide

/-- The square of a dot, in pixels. -/
theorem square_iff (low : 1 ≤ size) (high : size ≤ 5) {xPos yPos fontSize : UInt64}
    (font : fontSize.toNat = size) (atColumn : xPos.toNat = column * (8 * size))
    (atRow : yPos.toNat = row * (8 * size)) (near : column * (8 * size) ≤ 2 ^ 17)
    (near' : row * (8 * size) ≤ 2 ^ 17) (inside : j < 8) (inside' : i < 8) :
    Square (xPos + UInt64.ofNat j * fontSize) (yPos + UInt64.ofNat i * fontSize) fontSize a b ↔
      (a / size / 8 = column ∧ a / size % 8 = j) ∧ b / size / 8 = row ∧ b / size % 8 = i := by
  have dot : ∀ n < 8, (UInt64.ofNat n * fontSize).toNat = n * size := by
    intro n small
    have product : n * size ≤ 7 * 5 := Nat.mul_le_mul (by omega) high
    rw [UInt64.toNat_mul, UInt64.toNat_ofNat_of_lt' (show n < 2 ^ 64 by omega), font]
    omega
  have product : j * size ≤ 7 * 5 := Nat.mul_le_mul (by omega) high
  have product' : i * size ≤ 7 * 5 := Nat.mul_le_mul (by omega) high
  have left : (xPos + UInt64.ofNat j * fontSize).toNat = column * (8 * size) + j * size := by
    rw [UInt64.toNat_add, dot j inside, atColumn]
    omega
  have top : (yPos + UInt64.ofNat i * fontSize).toNat = row * (8 * size) + i * size := by
    rw [UInt64.toNat_add, dot i inside', atRow]
    omega
  have right : (xPos + UInt64.ofNat j * fontSize + fontSize).toNat =
      column * (8 * size) + j * size + size := by
    rw [UInt64.toNat_add, left, font]
    omega
  have bottom : (yPos + UInt64.ofNat i * fontSize + fontSize).toNat =
      row * (8 * size) + i * size + size := by
    rw [UInt64.toNat_add, top, font]
    omega
  unfold Square
  rw [left, right, top, bottom, dot_iff low inside, dot_iff low inside']

/-! ## What the drawings paint -/

/-- The points of a square that is drawn. -/
def Area : Drawing → Nat → Nat → Prop
  | .drawSquare x y sideLength _, a, b => Square x y sideLength a b
  | .clearScreen _, _, _ => False
  | .moveUp _, _, _ => False

theorem squares_painted (usable : Usable mode) {drawings : List Drawing} {color : UInt32}
    (squares : ∀ drawing ∈ drawings, ∃ x y side, drawing = .drawSquare x y side color) (m : Bytes) :
    Painted mode (fun a b => ∃ drawing ∈ drawings, Area drawing a b) (colorOf color) m
      (render mode drawings m) := by
  refine foldl_painted (fun m drawing member => ?_) m
  obtain ⟨x, y, side, rfl⟩ := squares drawing member
  exact drawSquare_painted usable x y side m

/-- The squares of a character at the cursor. -/
def glyphSquares (font : UInt8 → UInt64 → UInt8) (char : UInt8) (color : UInt32) (text : Text) :
    List Drawing :=
  pixels.flatMap fun i =>
    (pixels.filter fun j => (mask <<< j.toUInt8) &&& font char i ≠ 0).map fun j =>
      .drawSquare (text.xPos + j * text.fontSize) (text.yPos + i * text.fontSize) text.fontSize
        color

/-- The squares of the whole cell at the cursor. -/
def cellSquares (text : Text) : List Drawing :=
  pixels.flatMap fun i => pixels.map fun j =>
    .drawSquare (text.xPos + i * text.fontSize) (text.yPos + j * text.fontSize) text.fontSize 0

/-- The cursor is on a cell of the screen, at the font size. -/
structure AtCell (size column row : Nat) (text : Text) : Prop where
  font : text.fontSize.toNat = size
  x : text.xPos.toNat = column * (8 * size)
  y : text.yPos.toNat = row * (8 * size)
  near : column * (8 * size) ≤ 2 ^ 17
  near' : row * (8 * size) ≤ 2 ^ 17

theorem glyph_painted (font : UInt8 → UInt64 → UInt8) (fitting : Fitting mode size)
    (place : AtCell size column row text) (char : UInt8) (color : UInt32) (m : Bytes) :
    Painted mode (fun a b => (a / size / 8 = column ∧ b / size / 8 = row) ∧
        Lit font char (b / size % 8) (a / size % 8)) (colorOf color) m
      (render mode (glyphSquares font char color text) m) := by
  refine (squares_painted fitting.usable (fun drawing member => ?_) m).congr fun a b _ => ?_
  · obtain ⟨i, _, member⟩ := List.mem_flatMap.mp member
    obtain ⟨j, _, rfl⟩ := List.mem_map.mp member
    exact ⟨_, _, _, rfl⟩
  · constructor
    · rintro ⟨drawing, member, here⟩
      obtain ⟨i, dot, member⟩ := List.mem_flatMap.mp member
      obtain ⟨j, marked, rfl⟩ := List.mem_map.mp member
      obtain ⟨dot', lit⟩ := List.mem_filter.mp marked
      obtain ⟨p, inside', rfl⟩ := mem_pixels.mp dot
      obtain ⟨q, inside, rfl⟩ := mem_pixels.mp dot'
      obtain ⟨⟨atColumn, rfl⟩, atRow, rfl⟩ := (square_iff fitting.low fitting.high place.font place.x
        place.y place.near place.near' inside inside').mp here
      exact ⟨⟨atColumn, atRow⟩, of_decide_eq_true lit⟩
    · rintro ⟨⟨atColumn, atRow⟩, lit⟩
      have inside : a / size % 8 < 8 := Nat.mod_lt _ (by decide)
      have inside' : b / size % 8 < 8 := Nat.mod_lt _ (by decide)
      refine ⟨_, List.mem_flatMap.mpr ⟨_, mem_pixels.mpr ⟨_, inside', rfl⟩,
        List.mem_map.mpr ⟨_, List.mem_filter.mpr ⟨mem_pixels.mpr ⟨_, inside, rfl⟩,
          decide_eq_true lit⟩, rfl⟩⟩, ?_⟩
      exact (square_iff fitting.low fitting.high place.font place.x place.y place.near place.near'
        inside inside').mpr ⟨⟨atColumn, rfl⟩, atRow, rfl⟩

theorem cell_painted (fitting : Fitting mode size) (place : AtCell size column row text)
    (m : Bytes) : Painted mode (fun a b => a / size / 8 = column ∧ b / size / 8 = row) black m
      (render mode (cellSquares text) m) := by
  have squares : ∀ drawing ∈ cellSquares text, ∃ x y side, drawing = .drawSquare x y side 0 := by
    intro drawing member
    obtain ⟨i, _, member⟩ := List.mem_flatMap.mp member
    obtain ⟨j, _, rfl⟩ := List.mem_map.mp member
    exact ⟨_, _, _, rfl⟩
  refine (squares_painted fitting.usable squares m).congr fun a b _ => ?_
  constructor
  · rintro ⟨drawing, member, here⟩
    obtain ⟨i, dot, member⟩ := List.mem_flatMap.mp member
    obtain ⟨j, dot', rfl⟩ := List.mem_map.mp member
    obtain ⟨p, inside, rfl⟩ := mem_pixels.mp dot
    obtain ⟨q, inside', rfl⟩ := mem_pixels.mp dot'
    obtain ⟨⟨atColumn, _⟩, atRow, _⟩ := (square_iff fitting.low fitting.high place.font place.x
      place.y place.near place.near' inside inside').mp here
    exact ⟨atColumn, atRow⟩
  · rintro ⟨atColumn, atRow⟩
    have inside : a / size % 8 < 8 := Nat.mod_lt _ (by decide)
    have inside' : b / size % 8 < 8 := Nat.mod_lt _ (by decide)
    refine ⟨_, List.mem_flatMap.mpr ⟨_, mem_pixels.mpr ⟨_, inside, rfl⟩,
      List.mem_map.mpr ⟨_, mem_pixels.mpr ⟨_, inside', rfl⟩, rfl⟩⟩, ?_⟩
    exact (square_iff fitting.low fitting.high place.font place.x place.y place.near place.near'
      inside inside').mpr ⟨⟨atColumn, rfl⟩, atRow, rfl⟩

/-! ## The operations, one by one -/

section
variable {m₀ : Bytes} {char : UInt8} {color : UInt32}

theorem render_append {drawings more : List Drawing} :
    render mode (drawings ++ more) m₀ = render mode more (render mode drawings m₀) :=
  List.foldl_append

theorem Shows.place (shows : Shows mode font size grid text m) (fitting : Fitting mode size) :
    AtCell size grid.column grid.row text where
  font := shows.font
  x := shows.x
  y := shows.y
  near := by
    have left : grid.column * (8 * size) ≤ columns mode size * (8 * size) :=
      Nat.mul_le_mul_right _ shows.ordered.column
    have bound := mode.width.toNat_lt
    rw [fitting.width] at left
    omega
  near' := by
    have above := fitting.row_fits.mp shows.ordered.row
    have bound := mode.height.toNat_lt
    rw [Nat.add_one_mul grid.row] at above
    omega

theorem side_toNat {fontSize : UInt64} (font : fontSize.toNat = size) (high : size ≤ 5) :
    (fontWidth * fontSize).toNat = 8 * size := by
  rw [UInt64.toNat_mul, font]
  exact Nat.mod_eq_of_lt (show 8 * size < 2 ^ 64 by omega)

theorem Shows.print (shows : Shows mode font size grid text (render mode text.drawn m₀))
    (fitting : Fitting mode size) (inside : grid.column < columns mode size) :
    Shows mode font size (grid.advance (some ⟨char, color⟩))
      (printChar (screenOf mode font) char color text)
      (render mode (printChar (screenOf mode font) char color text).drawn m₀) := by
  have place := shows.place fitting
  have drawn : (printChar (screenOf mode font) char color text).drawn =
      text.drawn ++ glyphSquares font char color text := rfl
  have painted := glyph_painted font fitting place char color
    (render mode text.drawn m₀)
  rw [drawn, render_append]
  refine ⟨shows.font, ?_, shows.y, shows.ordered.advance inside, fun x y shown => ?_⟩
  · show (text.xPos + fontWidth * text.fontSize).toNat = (grid.column + 1) * (8 * size)
    have near := place.near
    have high := fitting.high
    rw [UInt64.toNat_add, side_toNat shows.font high, shows.x, Nat.add_one_mul grid.column]
    generalize grid.column * (8 * size) = left at near ⊢
    omega
  · have before := shows.picture x y shown
    by_cases here : x / size / 8 = grid.column ∧ y / size / 8 = grid.row
    · have blank := shows.ordered.ahead grid.row grid.column (.inr ⟨rfl, Nat.le_refl _⟩)
      have cell : (grid.advance (some ⟨char, color⟩)).cell (y / size / 8) (x / size / 8) =
          some ⟨char, color⟩ := if_pos ⟨here.2, here.1⟩
      unfold appearance at before ⊢
      rw [here.1, here.2, blank] at before
      rw [cell]
      by_cases lit : Lit font char (y / size % 8) (x / size % 8)
      · rw [painted.hit x y shown ⟨here, lit⟩]
        exact (if_pos lit).symm
      · rw [painted.missed x y shown fun both => lit both.2, before]
        exact (if_neg lit).symm
    · have cell : (grid.advance (some ⟨char, color⟩)).cell (y / size / 8) (x / size / 8) =
          grid.cell (y / size / 8) (x / size / 8) :=
        if_neg fun both => here ⟨both.2, both.1⟩
      rw [painted.missed x y shown fun both => here both.1, before]
      unfold appearance
      rw [cell]

/-- Where `deleteChar` puts the cursor. -/
def moveBack (screen : Screen) (text : Text) : Text :=
  if text.xPos = 0 then
    if text.yPos > 0 then
      { text with
        xPos := screen.getWidth - fontWidth * text.fontSize
        yPos := text.yPos - text.fontSize * fontHeight }
    else text
  else { text with xPos := text.xPos - text.fontSize * fontWidth }

theorem deleteChar_eq (screen : Screen) (text : Text) :
    deleteChar screen text = (moveBack screen text).draw (cellSquares (moveBack screen text)) := rfl

theorem moveBack_drawn (screen : Screen) (text : Text) :
    (moveBack screen text).drawn = text.drawn ∧ (moveBack screen text).fontSize = text.fontSize := by
  unfold moveBack
  split
  · split <;> exact ⟨rfl, rfl⟩
  · exact ⟨rfl, rfl⟩

theorem Shows.back (shows : Shows mode font size grid text m) (fitting : Fitting mode size) :
    AtCell size (grid.back (columns mode size)).column (grid.back (columns mode size)).row
      (moveBack (screenOf mode font) text) := by
  have place := shows.place fitting
  have low := fitting.low
  have high := fitting.high
  have side := side_toNat shows.font high
  have side' : (text.fontSize * fontHeight).toNat = 8 * size := by
    rw [UInt64.mul_comm]
    exact side
  have bound := mode.width.toNat_lt
  have start : text.xPos = 0 ↔ grid.column = 0 := by
    rw [← UInt64.toNat_inj, shows.x, UInt64.toNat_zero, Nat.mul_eq_zero]
    omega
  unfold moveBack CharGrid.back
  by_cases first : grid.column = 0
  · rw [if_pos (start.mpr first), if_pos first]
    by_cases below : 0 < grid.row
    · have one : 8 * size ≤ grid.row * (8 * size) := Nat.le_mul_of_pos_left _ below
      have up : text.yPos > 0 := by
        rw [gt_iff_lt, UInt64.lt_iff_toNat_lt, shows.y, UInt64.toNat_zero]
        omega
      have width := fitting.width
      have some := fitting.columns_pos
      have last : 8 * size ≤ columns mode size * (8 * size) := Nat.le_mul_of_pos_left _ some
      have wide : (screenOf mode font).getWidth.toNat = mode.width.toNat := UInt16.toNat_toUInt64 _
      rw [if_pos up, if_pos below]
      refine ⟨shows.font, ?_, ?_, ?_, ?_⟩
      · dsimp only
        rw [UInt64.toNat_sub_of_le _ _ (by rw [UInt64.le_iff_toNat_le, side, wide]; omega), side,
          wide, Nat.sub_one_mul, width]
      · dsimp only
        rw [UInt64.toNat_sub_of_le _ _ (by rw [UInt64.le_iff_toNat_le, side', shows.y]; exact one),
          side', shows.y, Nat.sub_one_mul]
      · dsimp only
        rw [Nat.sub_one_mul, width]
        omega
      · have near := place.near'
        dsimp only
        rw [Nat.sub_one_mul]
        omega
    · have top : ¬ text.yPos > 0 := by
        rw [gt_iff_lt, UInt64.lt_iff_toNat_lt, shows.y, UInt64.toNat_zero]
        rw [Nat.eq_zero_of_not_pos below, Nat.zero_mul]
        exact Nat.lt_irrefl 0
      rw [if_neg top, if_neg below]
      exact place
  · have one : 8 * size ≤ grid.column * (8 * size) :=
      Nat.le_mul_of_pos_left _ (Nat.pos_of_ne_zero first)
    have near := place.near
    rw [if_neg (mt start.mp first), if_neg first]
    refine ⟨shows.font, ?_, shows.y, ?_, place.near'⟩
    · dsimp only
      have side'' : (text.fontSize * fontWidth).toNat = 8 * size := side'
      rw [UInt64.toNat_sub_of_le _ _ (by rw [UInt64.le_iff_toNat_le, side'', shows.x]; exact one),
        side'', shows.x, Nat.sub_one_mul]
    · dsimp only
      rw [Nat.sub_one_mul]
      omega

theorem Shows.rubout (shows : Shows mode font size grid text (render mode text.drawn m₀))
    (fitting : Fitting mode size) :
    Shows mode font size (grid.rubout (columns mode size)) (deleteChar (screenOf mode font) text)
      (render mode (deleteChar (screenOf mode font) text).drawn m₀) := by
  have place := shows.back fitting
  obtain ⟨drawn, _⟩ := moveBack_drawn (screenOf mode font) text
  have painted := cell_painted fitting place (render mode text.drawn m₀)
  rw [deleteChar_eq]
  show Shows _ _ _ _ _ (render mode ((moveBack (screenOf mode font) text).drawn ++ _) m₀)
  rw [drawn, render_append]
  refine ⟨place.font, place.x, place.y, shows.ordered.rubout fitting.columns_pos,
    fun x y shown => ?_⟩
  have cells : (grid.rubout (columns mode size)).cell (y / size / 8) (x / size / 8) =
      if y / size / 8 = (grid.back (columns mode size)).row ∧
        x / size / 8 = (grid.back (columns mode size)).column then none
      else grid.cell (y / size / 8) (x / size / 8) := by
    simp only [CharGrid.rubout, CharGrid.set, CharGrid.back_cell]
  unfold appearance
  rw [cells]
  by_cases here : x / size / 8 = (grid.back (columns mode size)).column ∧
      y / size / 8 = (grid.back (columns mode size)).row
  · rw [painted.hit x y shown here, if_pos ⟨here.2, here.1⟩]
  · rw [painted.missed x y shown here, if_neg fun both => here ⟨both.2, both.1⟩,
      shows.picture x y shown]
    rfl

/-- The line below is on the grid, or the picture moves up. -/
theorem Shows.feed (shows : Shows mode font size grid text (render mode text.drawn m₀))
    (fitting : Fitting mode size) :
    Shows mode font size (grid.newline (rows mode size)) (lineFeed (screenOf mode font) text)
      (render mode (lineFeed (screenOf mode font) text).drawn m₀) := by
  have place := shows.place fitting
  have low := fitting.low
  have high := fitting.high
  have tall := fitting.tall
  have side : (fontHeight * text.fontSize).toNat = 8 * size := side_toNat shows.font fitting.high
  have tallWord : (screenOf mode font).getHeight.toNat = mode.height.toNat :=
    UInt16.toNat_toUInt64 _
  have next : (text.yPos + fontHeight * text.fontSize).toNat = (grid.row + 1) * (8 * size) := by
    have near := place.near'
    rw [UInt64.toNat_add, side, shows.y, Nat.add_one_mul grid.row]
    generalize grid.row * (8 * size) = top at near ⊢
    omega
  have limit : ((screenOf mode font).getHeight - fontHeight * text.fontSize - MARGIN).toNat =
      mode.height.toNat - 8 * size := by
    have zero : ∀ n : UInt64, n - MARGIN = n := fun n => UInt64.sub_zero n
    rw [zero, UInt64.toNat_sub_of_le _ _ (by rw [UInt64.le_iff_toNat_le, side, tallWord]; omega),
      side, tallWord]
  have full : text.yPos + fontHeight * text.fontSize ≥
      (screenOf mode font).getHeight - fontHeight * text.fontSize - MARGIN ↔
        ¬ grid.row + 1 < rows mode size := by
    rw [ge_iff_le, UInt64.le_iff_toNat_le, limit, next, fitting.row_fits,
      Nat.add_one_mul (grid.row + 1)]
    omega
  have ordered := shows.ordered.newline
  unfold lineFeed moveScreenUpIfFull
  dsimp only
  unfold CharGrid.newline at ordered ⊢
  by_cases below : grid.row + 1 < rows mode size
  · rw [if_neg (full.not.mpr (not_not.mpr below))]
    rw [if_pos below] at ordered ⊢
    exact ⟨shows.font, (Nat.zero_mul _).symm, next, ordered, shows.picture⟩
  · rw [if_pos (full.mpr below)]
    rw [if_neg below] at ordered ⊢
    show Shows _ _ _ _ _ (render mode (text.drawn ++ [.moveUp (fontHeight * text.fontSize)]) m₀)
    rw [render_append]
    have scrolled := moveUp_scrolled fitting.usable (fontHeight * text.fontSize)
      (by rw [side]; omega) (render mode text.drawn m₀)
    rw [side] at scrolled
    have dots : ∀ n, (n + 8 * size) / size = n / size + 8 := fun n =>
      Nat.add_mul_div_right n 8 low
    refine ⟨shows.font, (Nat.zero_mul _).symm, ?_, ordered, fun x y shown => ?_⟩
    · show (text.yPos + fontHeight * text.fontSize - fontHeight * text.fontSize).toNat = _
      rw [UInt64.add_sub_cancel]
      exact shows.y
    · have cell : (y + 8 * size) / size / 8 = y / size / 8 + 1 := by
        rw [dots]
        omega
      by_cases within : y + 8 * size < mode.height.toNat
      · have before := shows.picture x (y + 8 * size) ⟨shown.1, within⟩
        have dot : (y + 8 * size) / size % 8 = y / size % 8 := by
          rw [dots]
          omega
        unfold appearance at before ⊢
        rw [cell, dot] at before
        exact (scrolled.moved x y shown within).trans before
      · have bottom : rows mode size ≤ y / size / 8 + 1 := by
          rw [← cell, Nat.div_div_eq_div_mul, Nat.mul_comm size 8]
          exact Nat.div_le_div_right (by omega)
        have row := shows.ordered.row
        have blank := shows.ordered.ahead (y / size / 8 + 1) (x / size / 8) (.inl (by omega))
        unfold appearance
        dsimp only
        rw [blank]
        exact scrolled.cleared x y shown (Nat.le_of_not_lt within)

theorem cleared_shows (fitting : Fitting mode size) (text : Text)
    (fontSize : text.fontSize.toNat = size) :
    Shows mode font size .clear (clearText 0 text) (render mode (clearText 0 text).drawn m₀) := by
  have painted : Painted mode (fun _ _ => True) (colorOf 0) (render mode text.drawn m₀)
      (clearScreen mode 0 (render mode text.drawn m₀)) := clearScreen_painted fitting.usable _
  show Shows _ _ _ _ _ (render mode (text.drawn ++ [.clearScreen 0]) m₀)
  rw [render_append]
  exact ⟨fontSize, (Nat.zero_mul _).symm, (Nat.zero_mul _).symm,
    CharGrid.clear_ordered fitting.rows_pos, fun x y shown => painted.hit x y shown trivial⟩

/-! ## One call, and a run -/

theorem Shows.full_iff (shows : Shows mode font size grid text m) (fitting : Fitting mode size) :
    text.xPos + fontWidth * text.fontSize > (screenOf mode font).getWidth ↔
      ¬ grid.column < columns mode size := by
  have near := (shows.place fitting).near
  have side := side_toNat shows.font fitting.high
  have wide : (screenOf mode font).getWidth.toNat = mode.width.toNat := UInt16.toNat_toUInt64 _
  have high := fitting.high
  have low := fitting.low
  have next : (text.xPos + fontWidth * text.fontSize).toNat = (grid.column + 1) * (8 * size) := by
    rw [UInt64.toNat_add, side, shows.x, Nat.add_one_mul grid.column]
    generalize grid.column * (8 * size) = left at near ⊢
    omega
  have inside : grid.column < columns mode size ↔
      (grid.column + 1) * (8 * size) ≤ mode.width.toNat := by
    rw [columns, Nat.lt_iff_add_one_le, Nat.le_div_iff_mul_le (by omega)]
  rw [gt_iff_lt, UInt64.lt_iff_toNat_lt, next, wide, inside, not_le]

theorem Shows.step (shows : Shows mode font size grid text (render mode text.drawn m₀))
    (fitting : Fitting mode size) {call : Call} (plain : Plain call) :
    Shows mode font size (CharTerminal.step (rows mode size) (columns mode size) grid call)
      (serve (screenOf mode font) text call)
      (render mode (serve (screenOf mode font) text call).drawn m₀) := by
  cases call with
  | fontSizeUp increase => exact plain.elim
  | fontSizeDown decrease => exact plain.elim
  | deleteChar => exact shows.rubout fitting
  | lineFeed => exact shows.feed fitting
  | clearText color =>
    subst plain
    exact cleared_shows fitting text shows.font
  | putChar char color =>
    have full := shows.full_iff fitting
    unfold CharTerminal.step serve TextModule.putChar
    dsimp only
    by_cases ended : char = newline
    · have feeds : char = newline ∨ text.xPos + fontWidth * text.fontSize >
          (screenOf mode font).getWidth := .inl ended
      rw [if_pos ended, if_pos feeds, if_pos ended]
      exact shows.feed fitting
    · rw [if_neg ended]
      by_cases inside : grid.column < columns mode size
      · have room : ¬ (char = newline ∨ text.xPos + fontWidth * text.fontSize >
            (screenOf mode font).getWidth) :=
          fun either => either.elim ended fun wide => full.mp wide inside
        have printed : ∀ char, grid.put (rows mode size) (columns mode size) (some ⟨char, color⟩) =
            grid.advance (some ⟨char, color⟩) := by
          intro char
          unfold CharGrid.put CharGrid.wrap
          rw [if_pos inside]
        rw [if_neg room]
        simp only [inside, true_and]
        by_cases tabbed : char = tab
        · have erases : ¬ char = backspace := by
            rw [tabbed]
            decide
          rw [if_pos tabbed, if_neg erases, if_pos tabbed, printed]
          exact shows.print fitting inside
        · simp only [tabbed, if_false]
          by_cases erases : char = backspace
          · rw [if_pos erases, if_pos erases]
            exact shows.rubout fitting
          · rw [if_neg erases, if_neg erases, printed]
            exact shows.print fitting inside
      · have wrapped : grid.put (rows mode size) (columns mode size) (some ⟨char, color⟩) =
            (grid.newline (rows mode size)).advance (some ⟨char, color⟩) := by
          unfold CharGrid.put CharGrid.wrap
          rw [if_neg inside]
        have fed := shows.feed fitting
        have start : (grid.newline (rows mode size)).column < columns mode size := by
          unfold CharGrid.newline
          split <;> exact fitting.columns_pos
        have feeds : char = newline ∨ text.xPos + fontWidth * text.fontSize >
            (screenOf mode font).getWidth := .inr (full.mpr inside)
        rw [if_pos feeds, if_neg ended]
        simp only [inside, false_and, if_false]
        rw [wrapped]
        exact fed.print fitting start

end

/-- The screen goes on showing the terminal. -/
theorem Shows.run {done : List Call} (calls : List Call)
    (shows : Shows mode font size grid (after (screenOf mode font) done)
      (render mode (after (screenOf mode font) done).drawn m))
    (fitting : Fitting mode size) (plain : ∀ call ∈ calls, Plain call) :
    Shows mode font size (calls.foldl (CharTerminal.step (rows mode size) (columns mode size)) grid)
      (after (screenOf mode font) (done ++ calls))
      (render mode (after (screenOf mode font) (done ++ calls)).drawn m) := by
  induction calls using List.reverseRecOn with
  | nil =>
    rw [List.append_nil]
    exact shows
  | append_singleton calls call ih =>
    have earlier := ih fun other member => plain other (List.mem_append_left _ member)
    rw [List.foldl_append, ← List.append_assoc, after_snoc]
    exact earlier.step fitting (plain call (by simp))

theorem after_cleared (fitting : Fitting mode size) (m : Bytes) (before : List Call)
    (fontSize : (after (screenOf mode font) before).fontSize.toNat = size) :
    Shows mode font size .clear (after (screenOf mode font) (before ++ [.clearText 0]))
      (render mode (after (screenOf mode font) (before ++ [.clearText 0])).drawn m) := by
  rw [after_snoc]
  exact cleared_shows fitting _ fontSize

/-- After a clear, whatever was there before, the screen shows what the terminal holds. -/
theorem screen_shows_terminal (fitting : Fitting mode size) (m : Bytes) (before calls : List Call)
    (fontSize : (after (screenOf mode font) before).fontSize.toNat = size)
    (plain : ∀ call ∈ calls, Plain call) :
    Shows mode font size
      (calls.foldl (step (rows mode size) (columns mode size)) .clear)
      (after (screenOf mode font) (before ++ .clearText 0 :: calls))
      (render mode (after (screenOf mode font) (before ++ .clearText 0 :: calls)).drawn m) := by
  have shows := (after_cleared fitting m before fontSize).run calls fitting plain
  rw [List.append_assoc] at shows
  exact shows

/-- Two letters and a backspace, on 1024 by 768 pixels at the size at boot. -/
theorem letters_shown : Shows defaultMode (fun _ _ => 0x18) 2
    ([.putChar 65 0xFFFFFF, .putChar 66 0xFFFFFF, .putChar backspace 0].foldl
      (step (rows defaultMode 2) (columns defaultMode 2)) .clear)
    (after (screenOf defaultMode fun _ _ => 0x18)
      ([] ++ .clearText 0 :: [.putChar 65 0xFFFFFF, .putChar 66 0xFFFFFF, .putChar backspace 0]))
    (render defaultMode (after (screenOf defaultMode fun _ _ => 0x18)
      ([] ++ .clearText 0 ::
        [.putChar 65 0xFFFFFF, .putChar 66 0xFFFFFF, .putChar backspace 0])).drawn fun _ => 7) := by
  refine screen_shows_terminal ⟨defaultMode_usable, by decide, by decide, by decide, by decide,
    by decide⟩ _ [] _ (by decide) fun call member => ?_
  simp only [List.mem_cons, List.not_mem_nil, or_false] at member
  rcases member with rfl | rfl | rfl <;> trivial

end SoKernel.CharTerminal
