import Mathlib.Data.List.Infix
import Mathlib.Tactic

namespace SoKernel.TextModule

/-! ## `drivers/textModule.c` -/

def fontHeight : UInt64 := 8

def fontWidth : UInt64 := 8

def TOPE_FONT : UInt64 := 5

def MARGIN : UInt64 := 0

/-- The video mode, and the font. -/
structure Screen where
  width : UInt16
  height : UInt16
  font8x8_basic : UInt8 → UInt64 → UInt8

/-- What the video driver is asked for. -/
inductive Drawing
  | drawSquare (x y sideLength : UInt64) (color : UInt32)
  | clearScreen (color : UInt32)
  | moveUp (scrollAmount : UInt64)
deriving DecidableEq

/-- The cursor, the font size, and all that was drawn. -/
structure Text where
  xPos : UInt64
  yPos : UInt64
  fontSize : UInt64
  drawn : List Drawing
deriving DecidableEq

def start : Text := { xPos := 0, yPos := 0, fontSize := 2, drawn := [] }

variable (screen : Screen)

def Screen.getWidth : UInt64 := screen.width.toUInt64

def Screen.getHeight : UInt64 := screen.height.toUInt64

def pixels : List UInt64 := [0, 1, 2, 3, 4, 5, 6, 7]

def Text.draw (text : Text) (drawings : List Drawing) : Text :=
  { text with drawn := text.drawn ++ drawings }

def deleteChar (text : Text) : Text :=
  let text :=
    if text.xPos = 0 then
      if text.yPos > 0 then
        { text with
          xPos := screen.getWidth - fontWidth * text.fontSize
          yPos := text.yPos - text.fontSize * fontHeight }
      else text
    else { text with xPos := text.xPos - text.fontSize * fontWidth }
  text.draw <| pixels.flatMap fun i => pixels.map fun j =>
    .drawSquare (text.xPos + i * text.fontSize) (text.yPos + j * text.fontSize) text.fontSize 0

def moveScreenUpIfFull (text : Text) : Text :=
  if text.yPos ≥ screen.getHeight - fontHeight * text.fontSize - MARGIN then
    let scrollAmount := fontHeight * text.fontSize
    let text := text.draw [.moveUp scrollAmount]
    { text with yPos := text.yPos - scrollAmount }
  else text

def lineFeed (text : Text) : Text :=
  moveScreenUpIfFull screen
    { text with yPos := text.yPos + fontHeight * text.fontSize, xPos := 0 }

def mask : UInt8 := 0x01

/-- The last lines of `putChar`. -/
def printChar (char : UInt8) (color : UInt32) (text : Text) : Text :=
  let text := text.draw <| pixels.flatMap fun i =>
    (pixels.filter fun j => (mask <<< j.toUInt8) &&& screen.font8x8_basic char i ≠ 0).map fun j =>
      .drawSquare (text.xPos + j * text.fontSize) (text.yPos + i * text.fontSize) text.fontSize
        color
  { text with xPos := text.xPos + fontWidth * text.fontSize }

def newline : UInt8 := 0x0A

def tab : UInt8 := 0x09

def backspace : UInt8 := 0x08

def space : UInt8 := 0x20

def putChar (char : UInt8) (color : UInt32) (text : Text) : Text :=
  if char = newline ∨ text.xPos + fontWidth * text.fontSize > screen.getWidth then
    let text := lineFeed screen text
    if char = newline then text else printChar screen char color text
  else if char = tab then printChar screen space color text
  else if char = backspace then deleteChar screen text
  else printChar screen char color text

def clearText (color : UInt32) (text : Text) : Text :=
  { text.draw [.clearScreen color] with xPos := 0, yPos := 0 }

def fontSizeUp (increase : UInt64) (text : Text) : UInt64 × Text :=
  if text.fontSize + increase ≤ TOPE_FONT then
    let text := { text with fontSize := text.fontSize + increase }
    (text.fontSize, text)
  else (text.fontSize, text)

def fontSizeDown (decrease : UInt64) (text : Text) : UInt64 × Text :=
  if text.fontSize - decrease ≥ 1 then
    let text := { text with fontSize := text.fontSize - decrease }
    (text.fontSize, text)
  else (text.fontSize, text)

def syscall_fontSizeUp (increase : UInt64) (text : Text) : UInt64 × Text :=
  fontSizeUp increase text

def syscall_fontSizeDown (decrease : UInt64) (text : Text) : UInt64 × Text :=
  fontSizeDown decrease text

/-! ## Runs -/

inductive Call
  | fontSizeUp (increase : UInt64)
  | fontSizeDown (decrease : UInt64)
  | putChar (char : UInt8) (color : UInt32)
  | deleteChar
  | lineFeed
  | clearText (color : UInt32)

def serve (text : Text) : Call → Text
  | .fontSizeUp increase => (syscall_fontSizeUp increase text).2
  | .fontSizeDown decrease => (syscall_fontSizeDown decrease text).2
  | .putChar char color => putChar screen char color text
  | .deleteChar => deleteChar screen text
  | .lineFeed => lineFeed screen text
  | .clearText color => clearText color text

/-- The text after the calls, from boot. -/
def after (calls : List Call) : Text := calls.foldl (serve screen) start

variable {screen} {text : Text} {size size' : UInt64} {calls done : List Call} {call : Call}

@[simp] theorem deleteChar_fontSize : (deleteChar screen text).fontSize = text.fontSize := by
  unfold deleteChar
  split
  · split <;> rfl
  · rfl

@[simp] theorem lineFeed_fontSize : (lineFeed screen text).fontSize = text.fontSize := by
  unfold lineFeed moveScreenUpIfFull
  split <;> rfl

@[simp] theorem printChar_fontSize (char : UInt8) (color : UInt32) :
    (printChar screen char color text).fontSize = text.fontSize := rfl

@[simp] theorem putChar_fontSize (char : UInt8) (color : UInt32) :
    (putChar screen char color text).fontSize = text.fontSize := by
  unfold putChar
  dsimp only
  split
  · split <;> simp
  · split
    · simp
    · split <;> simp

/-- The font size the call leaves. -/
def Call.resize (size : UInt64) : Call → UInt64
  | .fontSizeUp increase => if size + increase ≤ TOPE_FONT then size + increase else size
  | .fontSizeDown decrease => if size - decrease ≥ 1 then size - decrease else size
  | _ => size

/-- Only the two calls on the font size touch it, and they look at nothing else. -/
theorem serve_fontSize : (serve screen text call).fontSize = call.resize text.fontSize := by
  cases call with
  | fontSizeUp increase =>
    simp only [serve, syscall_fontSizeUp, fontSizeUp, Call.resize]
    split <;> rfl
  | fontSizeDown decrease =>
    simp only [serve, syscall_fontSizeDown, fontSizeDown, Call.resize]
    split <;> rfl
  | putChar char color => exact putChar_fontSize char color
  | deleteChar => exact deleteChar_fontSize
  | lineFeed => exact lineFeed_fontSize
  | clearText color => rfl

/-! ## The range -/

def InRange (size : UInt64) : Prop := 1 ≤ size ∧ size ≤ TOPE_FONT

/-- The call changes the size by exactly what it was asked for, or not at all. -/
def Call.Exact (size size' : UInt64) (call : Call) : Prop :=
  size' = size ∨
    match call with
    | .fontSizeUp increase => size'.toNat = size.toNat + increase.toNat
    | .fontSizeDown decrease => size'.toNat + decrease.toNat = size.toNat
    | _ => False

/-- The test of the call does not wrap around. -/
def Call.Fits (size : UInt64) : Call → Prop
  | .fontSizeUp increase => size.toNat + increase.toNat < 2 ^ 64
  | .fontSizeDown decrease => decrease.toNat ≤ size.toNat
  | _ => True

instance : Decidable (InRange size) := inferInstanceAs (Decidable (_ ∧ _))

theorem inRange_iff : InRange size ↔ 1 ≤ size.toNat ∧ size.toNat ≤ 5 := Iff.rfl

section
variable {increase decrease : UInt64}

theorem resize_up (fits : (Call.fontSizeUp increase).Fits size) :
    ((Call.fontSizeUp increase).resize size).toNat =
      if size.toNat + increase.toNat ≤ 5 then size.toNat + increase.toNat else size.toNat := by
  have sum : (size + increase).toNat = size.toNat + increase.toNat := by
    rw [UInt64.toNat_add, Nat.mod_eq_of_lt fits]
  have low : size + increase ≤ TOPE_FONT ↔ size.toNat + increase.toNat ≤ 5 := by
    rw [UInt64.le_iff_toNat_le, sum]
    rfl
  simp only [Call.resize, low, apply_ite UInt64.toNat, sum]

theorem resize_down (fits : (Call.fontSizeDown decrease).Fits size) :
    ((Call.fontSizeDown decrease).resize size).toNat =
      if 1 ≤ size.toNat - decrease.toNat then size.toNat - decrease.toNat else size.toNat := by
  have difference : (size - decrease).toNat = size.toNat - decrease.toNat :=
    UInt64.toNat_sub_of_le _ _ fits
  have high : size - decrease ≥ 1 ↔ 1 ≤ size.toNat - decrease.toNat := by
    rw [ge_iff_le, UInt64.le_iff_toNat_le, difference]
    rfl
  simp only [Call.resize, high, apply_ite UInt64.toNat, difference]

/-- A sum that wraps around passes the test, and the font shrinks. -/
theorem resize_up_wrapped (range : InRange size)
    (wraps : ¬ (Call.fontSizeUp increase).Fits size) :
    ((Call.fontSizeUp increase).resize size).toNat < size.toNat := by
  have bound := increase.toNat_lt
  rw [inRange_iff] at range
  simp only [Call.Fits, Nat.not_lt] at wraps
  have sum : (size + increase).toNat = size.toNat + increase.toNat - 2 ^ 64 := by
    rw [UInt64.toNat_add]
    omega
  have low : size + increase ≤ TOPE_FONT := by
    rw [UInt64.le_iff_toNat_le, sum]
    show _ ≤ 5
    omega
  rw [Call.resize, if_pos low, sum]
  omega

/-- A difference that wraps around passes the test, and the font grows. -/
theorem resize_down_wrapped (wraps : ¬ (Call.fontSizeDown decrease).Fits size) :
    size.toNat < ((Call.fontSizeDown decrease).resize size).toNat := by
  have bound := decrease.toNat_lt
  simp only [Call.Fits, Nat.not_le] at wraps
  have difference : (size - decrease).toNat = 2 ^ 64 - decrease.toNat + size.toNat := by
    rw [UInt64.toNat_sub]
    omega
  have high : size - decrease ≥ 1 := by
    rw [ge_iff_le, UInt64.le_iff_toNat_le, difference]
    show 1 ≤ _
    omega
  rw [Call.resize, if_pos high, difference]
  omega

end

theorem Call.Fits.inRange (fits : call.Fits size) (range : InRange size) :
    InRange (call.resize size) := by
  rw [inRange_iff] at range ⊢
  cases call with
  | fontSizeUp increase =>
    rw [resize_up fits]
    split <;> omega
  | fontSizeDown decrease =>
    rw [resize_down fits]
    split <;> omega
  | putChar | deleteChar | lineFeed | clearText => exact range

/-- One call on a size in range is exact if and only if its test does not wrap around. -/
theorem resize_exact_iff (range : InRange size) :
    call.Exact size (call.resize size) ↔ call.Fits size := by
  cases call with
  | fontSizeUp increase =>
    constructor
    · intro exact
      by_contra wraps
      have shrinks := resize_up_wrapped range wraps
      rcases exact with same | grows
      · rw [same] at shrinks
        exact absurd shrinks (Nat.lt_irrefl _)
      · dsimp only at grows
        omega
    · intro fits
      have size' := resize_up fits
      split at size'
      · exact .inr size'
      · exact .inl (UInt64.toNat_inj.mp size')
  | fontSizeDown decrease =>
    constructor
    · intro exact
      by_contra wraps
      have grows := resize_down_wrapped wraps
      rcases exact with same | shrinks
      · rw [same] at grows
        exact absurd grows (Nat.lt_irrefl _)
      · dsimp only at shrinks
        omega
    · intro fits
      have size' := resize_down fits
      have low : decrease.toNat ≤ size.toNat := fits
      split at size'
      · right
        dsimp only
        omega
      · exact .inl (UInt64.toNat_inj.mp size')
  | putChar | deleteChar | lineFeed | clearText => exact ⟨fun _ => trivial, fun _ => .inl rfl⟩

/-! ## Over whole runs -/

theorem after_snoc : after screen (done ++ [call]) = serve screen (after screen done) call := by
  rw [after, List.foldl_append]
  rfl

/-- The font size stays in range along the calls, and every call is exact. -/
structure Keeps (screen : Screen) (calls : List Call) : Prop where
  inRange : ∀ done, done <+: calls → InRange (after screen done).fontSize
  exact : ∀ done call, done ++ [call] <+: calls →
    call.Exact (after screen done).fontSize (after screen (done ++ [call])).fontSize

theorem fitting_inRange
    (fits : ∀ done call, done ++ [call] <+: calls → call.Fits (after screen done).fontSize) :
    ∀ done, done <+: calls → InRange (after screen done).fontSize := by
  intro done
  induction done using List.reverseRecOn with
  | nil => exact fun _ => (by decide : InRange 2)
  | append_singleton done call ih =>
    intro before
    rw [after_snoc, serve_fontSize]
    exact (fits done call before).inRange (ih ((List.prefix_append done [call]).trans before))

theorem size_kept_iff : Keeps screen calls ↔
    ∀ done call, done ++ [call] <+: calls → call.Fits (after screen done).fontSize := by
  constructor
  · intro keeps done call before
    have range := keeps.inRange done ((List.prefix_append done [call]).trans before)
    have exact := keeps.exact done call before
    rw [after_snoc, serve_fontSize] at exact
    exact (resize_exact_iff range).mp exact
  · intro fits
    have range := fitting_inRange fits
    refine ⟨range, fun done call before => ?_⟩
    rw [after_snoc, serve_fontSize]
    exact (resize_exact_iff (range done ((List.prefix_append done [call]).trans before))).mpr
      (fits done call before)

def blank : Screen := { width := 1024, height := 768, font8x8_basic := fun _ _ => 0 }

/-- Three down from two. -/
theorem down_three_breaks : ¬ ∀ screen calls, Keeps screen calls := by
  intro all
  have keeps := all blank [.fontSizeDown 3]
  exact absurd (keeps.inRange [.fontSizeDown 3] (List.prefix_refl _)) (by decide)

end SoKernel.TextModule
