import SoKernel.Kernel.Keystrokes
import SoKernel.Lib.Latch

namespace SoKernel
open MemoryManager Lib Kernel SoKernel.System

/-! ## The keys that are held -/

namespace Keyboard

variable {keyboard : Keyboard} {codes done : List UInt8} {code : UInt8}

def released : Keyboard := ⟨false, false, false⟩

/-- The flags after the scan codes, from boot. -/
def afterCodes (codes : List UInt8) : Keyboard :=
  codes.foldl (fun keyboard code => (keyboard.bufferWrite code).1) released

/-- The key is down after the scan codes. -/
def held (press release : UInt8) (codes : List UInt8) : Bool :=
  latch (fun code => code = press) (fun code => code = release) codes

def leftHeld (codes : List UInt8) : Bool := held lshiftPress lshiftRelease codes

def rightHeld (codes : List UInt8) : Bool := held rshiftPress rshiftRelease codes

def shiftHeld (codes : List UInt8) : Bool := leftHeld codes || rightHeld codes

def ctrlHeld (codes : List UInt8) : Bool := held ctrlPress ctrlRelease codes

def capsOn (codes : List UInt8) : Bool := codes.count capsPress % 2 = 1

/-- What a key says while these are held. -/
def typed (codes : List UInt8) (code : UInt8) : Keystroke :=
  let (plain, shifted) := pressKeys.getD code.toNat ('\x00', '\x00')
  if ctrlHeld codes ∧ plain = 'c' then .interrupt
  else if ctrlHeld codes ∧ plain = 'd' then .byte eof
  else
    let variant :=
      if isAlpha plain then xor (shiftHeld codes) (capsOn codes) else shiftHeld codes
    .byte (if variant then shifted else plain).toNat.toUInt8

theorem afterCodes_snoc : afterCodes (done ++ [code]) = ((afterCodes done).bufferWrite code).1 := by
  unfold afterCodes
  rw [List.foldl_append]
  rfl

/-- Whatever else a scan code is, it is a special key first. -/
theorem bufferWrite_keyboard :
    (keyboard.bufferWrite code).1 = keyboard.handleSpecialKeys code := by
  unfold bufferWrite
  by_cases special : code ∈ specialKeys
  · rw [if_pos special]
  · have plain : keyboard.handleSpecialKeys code = keyboard := by
      simp only [specialKeys, List.mem_cons, List.not_mem_nil, or_false, not_or] at special
      simp [handleSpecialKeys, special]
    rw [if_neg special, plain]
    split
    · dsimp only
      split
      · rfl
      · split <;> rfl
    · rfl

/-- Each flag has keys of its own. -/
theorem handleSpecialKeys_eq : keyboard.handleSpecialKeys code =
    { shift :=
        if code = lshiftPress ∨ code = rshiftPress then true
        else if code = lshiftRelease ∨ code = rshiftRelease then false else keyboard.shift
      caps := if code = capsPress then !keyboard.caps else keyboard.caps
      ctrlPressed :=
        if code = ctrlPress then true else if code = ctrlRelease then false
        else keyboard.ctrlPressed } := by
  unfold handleSpecialKeys
  by_cases pressed : code = lshiftPress ∨ code = rshiftPress
  · have other : code ≠ capsPress ∧ code ≠ ctrlPress ∧ code ≠ ctrlRelease := by
      rcases pressed with rfl | rfl <;> decide
    rw [if_pos pressed, if_pos pressed, if_neg other.1, if_neg other.2.1, if_neg other.2.2]
  rw [if_neg pressed, if_neg pressed]
  by_cases lifted : code = lshiftRelease ∨ code = rshiftRelease
  · have other : code ≠ capsPress ∧ code ≠ ctrlPress ∧ code ≠ ctrlRelease := by
      rcases lifted with rfl | rfl <;> decide
    rw [if_pos lifted, if_pos lifted, if_neg other.1, if_neg other.2.1, if_neg other.2.2]
  rw [if_neg lifted, if_neg lifted]
  by_cases caps : code = capsPress
  · have other : code ≠ ctrlPress ∧ code ≠ ctrlRelease := by
      rw [caps]
      decide
    rw [if_pos caps, if_pos caps, if_neg other.1, if_neg other.2]
  rw [if_neg caps, if_neg caps]
  split
  · rfl
  · split <;> rfl

/-- Both shift keys set the flag, and either of them clears it. -/
theorem afterCodes_shift : (afterCodes codes).shift =
    latch (fun code => code = lshiftPress ∨ code = rshiftPress)
      (fun code => code = lshiftRelease ∨ code = rshiftRelease) codes := by
  induction codes using List.reverseRecOn with
  | nil => rfl
  | append_singleton codes code ih =>
    rw [afterCodes_snoc, bufferWrite_keyboard, handleSpecialKeys_eq, latch_snoc, ih]

theorem afterCodes_ctrlPressed : (afterCodes codes).ctrlPressed = ctrlHeld codes := by
  induction codes using List.reverseRecOn with
  | nil => rfl
  | append_singleton codes code ih =>
    rw [afterCodes_snoc, bufferWrite_keyboard, handleSpecialKeys_eq, ih]
    unfold ctrlHeld held
    rw [latch_snoc]

theorem afterCodes_caps : (afterCodes codes).caps = capsOn codes := by
  induction codes using List.reverseRecOn with
  | nil => rfl
  | append_singleton codes code ih =>
    rw [afterCodes_snoc, bufferWrite_keyboard, handleSpecialKeys_eq, ih]
    unfold capsOn
    rw [List.count_append, List.count_singleton]
    by_cases caps : code = capsPress
    · rw [if_pos caps, if_pos (beq_iff_eq.mpr caps)]
      by_cases odd : codes.count capsPress % 2 = 1
      · simp [odd, Nat.add_mod]
      · have even : codes.count capsPress % 2 = 0 := by omega
        simp [even, Nat.add_mod]
    · rw [if_neg caps, if_neg (fun same => caps (beq_iff_eq.mp same)), Nat.add_zero]

theorem shift_apart : Apart (fun code => code = lshiftPress) (fun code => code = lshiftRelease)
    (fun code => code = rshiftPress) (fun code => code = rshiftRelease) := by
  constructor
  · rintro code (rfl | rfl) <;> decide
  · rintro code rfl
    decide

/-- `mayus` and the test after it, as one choice. -/
theorem variant_eq {letter caps shift : Bool} {plain shifted : Char} :
    (if (letter ∧ xor caps shift) ∨ (¬ letter ∧ shift) then shifted else plain) =
      if (if letter then xor shift caps else shift) then shifted else plain := by
  cases letter <;> cases caps <;> cases shift <;> rfl

/-- With the flags right, a key that is not special says what it should. -/
theorem bufferWrite_typed (right : (afterCodes codes).shift = shiftHeld codes)
    (ordinary : code ∉ specialKeys) (low : code < f12Press) :
    ((afterCodes codes).bufferWrite code).2 = typed codes code := by
  unfold bufferWrite typed
  rw [if_neg ordinary, if_pos low, afterCodes_ctrlPressed, afterCodes_caps, right]
  generalize pressKeys.getD code.toNat ('\x00', '\x00') = key
  obtain ⟨plain, shifted⟩ := key
  dsimp only
  rw [variant_eq]
  split
  · rfl
  · split <;> rfl

end Keyboard

/-! ## What reaches the pipe -/

namespace Terminal

open Keyboard

variable {M : Type} [MemoryManager M]

/-- A byte is written into pipe 0 by one call, and is there at once if the pipe has a token
for it; without a byte the pipe stays as it is. -/
def Delivers (keystroke : Keystroke) (code : UInt8) (rsp : Nat) (a : Terminal M) : Prop :=
  let k := a.clients.system.kernel
  match keystroke with
  | .byte byte =>
    (a.press code rsp).clients = addToBuffer byte rsp a.clients ∧
      (0 < (k.semaphores (k.pipes 0).semWriters).value → ∃ pipe,
        (k.pipes 0).putByte byte = some pipe ∧
          (a.press code rsp).clients.system.kernel.pipes = Function.update k.pipes 0 pipe)
  | _ => (a.press code rsp).clients.system.kernel.pipes = k.pipes

variable {ids : PipeSems} {a : Terminal M} {codes : List UInt8}

theorem Sound.delivers (code : UInt8) (rsp : Nat) (sound : Sound ids a.clients)
    (distinct : ids.Distinct) (reusable : NodesReusable M) (rest : a.AtRest) :
    Delivers (a.keyboard.bufferWrite code).2 code rsp a := by
  have clients := press_clients code rsp a
  unfold Delivers
  dsimp only
  cases keystroke : (a.keyboard.bufferWrite code).2 with
  | ignored =>
    rw [keystroke] at clients
    dsimp only
    rw [clients]
  | interrupt =>
    rw [keystroke] at clients
    dsimp only
    rw [clients]
    have dies : System.Step a.clients.system ⟨.ctrlC, rsp⟩ _ := .ctrlC
    exact congrArg Prod.fst (System.Step.pipeState dies sound.serviced.settled)
  | byte byte =>
    rw [keystroke] at clients
    refine ⟨clients, fun token => ?_⟩
    have writers : (a.clients.system.kernel.pipes 0).semWriters = ids.writers :=
      congrArg PipeSems.writers sound.tokens.named
    rw [writers] at token
    rw [clients]
    exact (sound.adds distinct reusable rest byte rsp token).2.2.2

/-- After the scan codes the flags say what is held, and every key that is not special puts
the byte it should into pipe 0. -/
structure Tracks (codes : List UInt8) : Prop where
  shift : (afterCodes codes).shift = shiftHeld codes
  ctrlPressed : (afterCodes codes).ctrlPressed = ctrlHeld codes
  caps : (afterCodes codes).caps = capsOn codes
  keys : ∀ code, code ∉ specialKeys → code < f12Press →
    ((afterCodes codes).bufferWrite code).2 = typed codes code
  delivers : ∀ {M : Type} [MemoryManager M] {ids : PipeSems} {a : Terminal M} (code rsp),
    a.keyboard = afterCodes codes → code ∉ specialKeys → code < f12Press →
    NodesReusable M → ids.Distinct → Sound ids a.clients → a.AtRest →
      Delivers (typed codes code) code rsp a

omit [MemoryManager M] in
theorem tracks_of_shift (right : (afterCodes codes).shift = shiftHeld codes) : Tracks codes where
  shift := right
  ctrlPressed := afterCodes_ctrlPressed
  caps := afterCodes_caps
  keys := fun _ ordinary low => bufferWrite_typed right ordinary low
  delivers := by
    intro M _ ids a code rsp same ordinary low reusable distinct sound rest
    have delivers := sound.delivers code rsp distinct reusable rest
    rw [same, bufferWrite_typed right ordinary low] at delivers
    exact delivers

/-- The modifier keys are tracked if and only if no shift key is released while the other is
held; the keys may repeat. -/
theorem modifiers_tracked_iff : (∀ done, done <+: codes → Tracks done) ↔
    ∀ done code, done ++ [code] <+: codes →
      (code = lshiftRelease → rightHeld done = false) ∧
        (code = rshiftRelease → leftHeld done = false) := by
  refine Iff.trans ?_ shift_apart.shared_iff
  constructor
  · intro tracks done before
    rw [← afterCodes_shift]
    exact (tracks done before).shift
  · intro right done before
    apply tracks_of_shift
    rw [afterCodes_shift]
    exact right done before

/-- The codes of the press and the release of each modifier key. -/
def modifierKeys : List (UInt8 × UInt8) :=
  [(lshiftPress, lshiftRelease), (rshiftPress, rshiftRelease), (ctrlPress, ctrlRelease),
    (capsPress, 0xBA)]

/-- The key is pressed while it is up and released while it is down. -/
def KeyAlternates (codes : List UInt8) (key : UInt8 × UInt8) : Prop :=
  ∀ i : Fin codes.length, (codes.get i = key.1 → held key.1 key.2 (codes.take i) = false) ∧
    (codes.get i = key.2 → held key.1 key.2 (codes.take i) = true)

def Alternates (codes : List UInt8) : Prop := ∀ key ∈ modifierKeys, KeyAlternates codes key

instance : DecidablePred (KeyAlternates codes) := fun _ => Nat.decidableForallFin _

instance : Decidable (Alternates codes) := List.decidableBAll _ _

/-- The left shift key is released and the right one still held. -/
theorem two_shifts_lost : ¬ ∀ codes, Alternates codes → ∀ done, done <+: codes → Tracks done := by
  intro all
  have tracks := all [lshiftPress, rshiftPress, lshiftRelease] (by decide) _ (List.prefix_refl _)
  exact absurd tracks.shift (by decide)

end Terminal
end SoKernel
