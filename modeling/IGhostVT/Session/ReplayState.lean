import IGhostVT.Lib.Decimal
import IGhostVT.Lib.Dict

/-!
# Session/ReplayState — what a session's output leaves a terminal holding

`TerminalReplayState` is the part of a terminal a replay cannot rebuild by itself: modes, pens,
charsets, colours, the screen shown, the kitty flag stacks and the saved cursors.  Every change is a
pure function here, under the name it has in `TerminalReplayState.swift`.

A dictionary is a `Dict`, and a `UInt16` is a natural number: the tracker's parameter register
saturates at `65535`, so no value outside that range ever reaches a change.
-/

/-- One value for each of the two screens. -/
structure Screens (α : Type*) where
  /-- The primary screen's. -/
  primary : α
  /-- The alternate screen's. -/
  alternate : α
deriving DecidableEq

namespace Screens

variable {α : Type*}

/-- The value of the alternate screen, or of the primary one. -/
def get (s : Screens α) (alternate : Bool) : α := if alternate then s.alternate else s.primary

/-- `s` with `v` for one screen. -/
def set (s : Screens α) (alternate : Bool) (v : α) : Screens α :=
  if alternate then { s with alternate := v } else { s with primary := v }

@[simp] theorem get_true (s : Screens α) : s.get true = s.alternate := rfl

@[simp] theorem get_false (s : Screens α) : s.get false = s.primary := rfl

@[simp] theorem set_true (s : Screens α) (v : α) : s.set true v = { s with alternate := v } := rfl

@[simp] theorem set_false (s : Screens α) (v : α) : s.set false v = { s with primary := v } := rfl

/-- The other screen keeps its value. -/
theorem get_set (s : Screens α) (a b : Bool) (v : α) :
    (s.set a v).get b = if a = b then v else s.get b := by cases a <;> cases b <;> rfl

end Screens

namespace TerminalReplayState

/-- The DEC private modes kept. -/
def trackedDECModes : List ℕ :=
  [1, 4, 5, 6, 7, 8, 12, 25, 40, 45, 66, 67, 69, 1004, 1007, 1035, 1036, 1039,
    1045, 2004, 2027, 2031, 2033, 2048, 5522]

/-- The modes that set the one mouse event mode. -/
def mouseEventModes : List ℕ := [9, 1000, 1002, 1003]

/-- The modes that set the one mouse format. -/
def mouseFormatModes : List ℕ := [1005, 1006, 1015, 1016]

/-- The modes that switch screens. -/
def alternateScreenModes : List ℕ := [47, 1047, 1049]

/-- The ANSI modes kept. -/
def trackedANSIModes : List ℕ := [2, 4, 12, 20]

/-- The DEC modes a terminal starts with on. -/
def defaultDECMode (mode : ℕ) : Bool := mode ∈ [7, 25, 1007, 1035, 1036]

/-- The ANSI modes a terminal starts with on. -/
def defaultANSIMode (mode : ℕ) : Bool := mode == 12

/-- `G0`–`G3` and which of them `GL` and `GR` invoke.  A slot holds `0` for the initial UTF-8 set,
or the final byte that designated it. -/
structure Charsets where
  slots : Fin 4 → UInt8 := fun _ => 0
  gl : ℕ := 0
  gr : ℕ := 2
deriving DecidableEq

/-- The SGR sequences since the pen was last reset, each as its parameter bytes. -/
abbrev Pen := List (List UInt8)

/-- How many SGR sequences a pen keeps. -/
def maximumPenSequences : ℕ := 16

structure Cursor where
  pen : Pen := []
  charsets : Charsets := {}
  origin : Bool := false
deriving DecidableEq

-- The slots of the stack have literals.
instance instNeZeroEight : NeZero 8 := ⟨Nat.succ_ne_zero 7⟩

/-- The kitty keyboard flag stack: eight entries, the index wrapping both ways. -/
structure KittyFlags where
  flags : Fin 8 → UInt8 := fun _ => 0
  index : Fin 8 := 0
deriving DecidableEq

namespace KittyFlags

def push (s : KittyFlags) (value : UInt8) : KittyFlags :=
  { flags := Function.update s.flags (s.index + 1) (value &&& 0x1F), index := s.index + 1 }

/-- One entry cleared and left. -/
def popOne (s : KittyFlags) : KittyFlags :=
  { flags := Function.update s.flags s.index 0, index := s.index + 7 }

def pop (s : KittyFlags) (count : ℕ) : KittyFlags :=
  if 8 ≤ count then {} else popOne^[count] s

def set (s : KittyFlags) (value : UInt8) (mode : ℕ) : KittyFlags :=
  let entry := s.flags s.index
  match mode with
  | 1 => { s with flags := Function.update s.flags s.index (value &&& 0x1F) }
  | 2 => { s with flags := Function.update s.flags s.index (entry ||| (value &&& 0x1F)) }
  | 3 => { s with flags := Function.update s.flags s.index (entry &&& (~~~value &&& 0x1F)) }
  | _ => s

end KittyFlags

end TerminalReplayState

open TerminalReplayState in
/-- What a terminal is left holding by a session's output.  A setting is kept once it was ever
touched, at its current value, the default included. -/
structure TerminalReplayState where
  decModes : Dict ℕ Bool := ∅
  /-- XTSAVE's record, for a later XTRESTORE. -/
  savedDECModes : Dict ℕ Bool := ∅
  alternateModeBits : Dict ℕ Bool := ∅
  ansiModes : Dict ℕ Bool := ∅
  /-- The mode that set the mouse event last, `0` for none; `none` while never touched. -/
  mouseEvent : Option ℕ := none
  mouseFormat : Option ℕ := none
  /-- The last `CSI > … m` or `CSI > … n`, everything after the `[`. -/
  modifyKeyFormat : Option (List UInt8) := none
  cursorStyle : Option ℕ := none
  palette : Dict ℕ (List UInt8) := ∅
  /-- OSC 10–19 by index from `0`; an empty value is a reset. -/
  dynamicColors : Dict ℕ (List UInt8) := ∅
  title : Option (List UInt8) := none
  workingDirectory : Option (List UInt8) := none
  cursor : Cursor := {}
  charsetsTouched : Bool := false
  /-- The open OSC 8 link, as its `params;uri`. -/
  hyperlink : Option (List UInt8) := none
  hyperlinkTouched : Bool := false
  scrollRegion : Option (ℕ × ℕ) := none
  scrollRegionTouched : Bool := false
  isAlternateActive : Bool := false
  alternateEntryMode : ℕ := 1049
  alternateEverUsed : Bool := false
  kitty : Screens KittyFlags := ⟨{}, {}⟩
  kittyTouched : Screens Bool := ⟨false, false⟩
  savedCursor : Screens (Option Cursor) := ⟨none, none⟩
deriving DecidableEq

namespace TerminalReplayState

/-! ## Changes -/

/-- Whether a DEC mode is on. -/
def decMode (s : TerminalReplayState) (mode : ℕ) : Bool :=
  if mode ∈ alternateScreenModes then (s.alternateModeBits.get? mode).getD false
  else if mode ∈ mouseEventModes then s.mouseEvent == some mode
  else if mode ∈ mouseFormatModes then s.mouseFormat == some mode
  else (s.decModes.get? mode).getD (defaultDECMode mode)

def saveCursor (s : TerminalReplayState) : TerminalReplayState :=
  { s with savedCursor := s.savedCursor.set s.isAlternateActive (some s.cursor) }

def restoreCursor (s : TerminalReplayState) : TerminalReplayState :=
  let restored := (s.savedCursor.get s.isAlternateActive).getD {}
  { s with
    cursor := restored
    decModes :=
      if restored.origin || (s.decModes.get? 6).isSome then s.decModes.insert 6 restored.origin
      else s.decModes }

/-- A screen switch: 1049 saves the cursor on the way in and restores it on the way out, and
every switch ends the hyperlink. -/
def switchScreen (s : TerminalReplayState) (mode : ℕ) (enabled : Bool) : TerminalReplayState :=
  let s := if mode == 1049 && enabled then s.saveCursor else s
  let s :=
    if enabled != s.isAlternateActive then
      { s with hyperlink := none, isAlternateActive := enabled }
    else s
  if enabled then { s with alternateEntryMode := mode, alternateEverUsed := true }
  else if mode == 1049 then s.restoreCursor
  else s

def setDECMode (s : TerminalReplayState) (mode : ℕ) (enabled : Bool) : TerminalReplayState :=
  if mode ∈ trackedDECModes then
    { s with
      decModes := s.decModes.insert mode enabled
      cursor := if mode == 6 then { s.cursor with origin := enabled } else s.cursor }
  else if mode ∈ mouseEventModes then { s with mouseEvent := some (if enabled then mode else 0) }
  else if mode ∈ mouseFormatModes then { s with mouseFormat := some (if enabled then mode else 0) }
  else if mode ∈ alternateScreenModes then
    switchScreen { s with alternateModeBits := s.alternateModeBits.insert mode enabled }
      mode enabled
  else if mode == 1048 then (if enabled then s.saveCursor else s.restoreCursor)
  else s

def saveDECMode (s : TerminalReplayState) (mode : ℕ) : TerminalReplayState :=
  { s with savedDECModes := s.savedDECModes.insert mode (s.decMode mode) }

def restoreDECMode (s : TerminalReplayState) (mode : ℕ) : TerminalReplayState :=
  s.setDECMode mode ((s.savedDECModes.get? mode).getD false)

def setANSIMode (s : TerminalReplayState) (mode : ℕ) (enabled : Bool) : TerminalReplayState :=
  if mode ∈ trackedANSIModes then { s with ansiModes := s.ansiModes.insert mode enabled } else s

def applySGR (s : TerminalReplayState) (parameters : List UInt8) (isReset startsWithReset : Bool) :
    TerminalReplayState :=
  if isReset then { s with cursor := { s.cursor with pen := [] } }
  else if startsWithReset then { s with cursor := { s.cursor with pen := [parameters] } }
  else
    let pen := s.cursor.pen ++ [parameters]
    { s with cursor := { s.cursor with pen := pen.drop (pen.length - maximumPenSequences) } }

def designateCharset (s : TerminalReplayState) (slot : Fin 4) (final : UInt8) :
    TerminalReplayState :=
  { s with
    cursor := { s.cursor with
      charsets := { s.cursor.charsets with
        slots := Function.update s.cursor.charsets.slots slot final } }
    charsetsTouched := true }

def invokeCharset (s : TerminalReplayState) (gl gr : Option ℕ) : TerminalReplayState :=
  { s with
    cursor := { s.cursor with
      charsets := { s.cursor.charsets with
        gl := gl.getD s.cursor.charsets.gl
        gr := gr.getD s.cursor.charsets.gr } }
    charsetsTouched := true }

/-- A change of the active screen's kitty flags. -/
def changeKitty (s : TerminalReplayState) (f : KittyFlags → KittyFlags) : TerminalReplayState :=
  { s with
    kitty := s.kitty.set s.isAlternateActive (f (s.kitty.get s.isAlternateActive))
    kittyTouched := s.kittyTouched.set s.isAlternateActive true }

def kittyPush (s : TerminalReplayState) (flags : UInt8) : TerminalReplayState :=
  s.changeKitty fun k => k.push flags

def kittyPop (s : TerminalReplayState) (count : ℕ) : TerminalReplayState :=
  s.changeKitty fun k => k.pop count

def kittySet (s : TerminalReplayState) (flags : UInt8) (mode : ℕ) : TerminalReplayState :=
  s.changeKitty fun k => k.set flags mode

def setScrollRegion (s : TerminalReplayState) (top bottom : ℕ) : TerminalReplayState :=
  { s with
    scrollRegionTouched := true
    scrollRegion := if top ≤ 1 ∧ bottom = 0 then none else some (top, bottom) }

def setHyperlink (s : TerminalReplayState) (value : Option (List UInt8)) : TerminalReplayState :=
  { s with hyperlink := value, hyperlinkTouched := true }

/-- `modes`, each at its default where it was ever touched. -/
def resetTouched (d : Dict ℕ Bool) (modes : List ℕ) (value : ℕ → Bool) : Dict ℕ Bool :=
  modes.foldl (fun d mode => if (d.get? mode).isSome then d.insert mode (value mode) else d) d

/-- DECSTR. -/
def softReset (s : TerminalReplayState) : TerminalReplayState :=
  { s with
    decModes := resetTouched s.decModes [25, 6, 7, 45, 1045, 1, 66, 69] defaultDECMode
    ansiModes := resetTouched s.ansiModes [4, 2] fun _ => false
    scrollRegion := if s.scrollRegionTouched then none else s.scrollRegion
    cursor := { pen := [], charsets := {}, origin := false }
    savedCursor := s.savedCursor.set s.isAlternateActive none
    modifyKeyFormat := s.modifyKeyFormat.map fun _ => ascii ">m"
    cursorStyle := s.cursorStyle.map fun _ => 0
    palette := ∅ }

/-- RIS: everything back to its default, every touched setting still written out. -/
def fullReset (s : TerminalReplayState) : TerminalReplayState :=
  { s with
    decModes := s.decModes.mapKeys defaultDECMode
    ansiModes := s.ansiModes.mapKeys defaultANSIMode
    alternateModeBits := ∅
    savedDECModes := ∅
    mouseEvent := s.mouseEvent.map fun _ => 0
    mouseFormat := s.mouseFormat.map fun _ => 0
    modifyKeyFormat := s.modifyKeyFormat.map fun _ => ascii ">m"
    cursorStyle := s.cursorStyle.map fun _ => 0
    palette := ∅
    title := s.title.map fun _ => []
    workingDirectory := none
    cursor := {}
    hyperlink := none
    scrollRegion := if s.scrollRegionTouched then none else s.scrollRegion
    isAlternateActive := false
    kitty := ⟨{}, {}⟩
    savedCursor := ⟨none, none⟩ }

end TerminalReplayState
