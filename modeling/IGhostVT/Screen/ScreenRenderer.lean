import IGhostVT.Lib.Checked
import IGhostVT.Lib.Decimal
import Mathlib.Data.List.Basic

/-!
# Screen/ScreenRenderer — a session's replay as the text the terminal shows

A `Character` is its scalars, and a row a list of them.  What Unicode says of scalars is a
parameter: which are marks, and which lists are one character.  Every subscript, every range and
every sum that a parameter or the count of lines gone goes into is checked (`Checked`), so a byte
that would stop the program makes nothing.
-/

open Checked

/-- A character, as its scalars. -/
abbrev Cell := List Char

/-- What Unicode says of scalars. -/
structure UnicodeTables where
  /-- A nonspacing or enclosing mark, or a format character. -/
  isMark : Char → Bool
  /-- These scalars are one character. -/
  isCharacter : List Char → Bool

namespace ScreenRenderer

/-- The right-hand half of a double-width character.  Never printed. -/
def spacer : Cell := [Char.ofNat 0]

def blank : Cell := [' ']

def scrollbackLineLimit : ℤ := 20000

/-! ## Character width -/

def wideRanges : List (ℕ × ℕ) :=
  [(0x1100, 0x115F), (0x2E80, 0x303E), (0x3041, 0x33FF), (0x3400, 0x4DBF), (0x4E00, 0x9FFF),
    (0xA000, 0xA4CF), (0xA960, 0xA97F), (0xAC00, 0xD7A3), (0xF900, 0xFAFF), (0xFE10, 0xFE19),
    (0xFE30, 0xFE6F), (0xFF00, 0xFF60), (0xFFE0, 0xFFE6), (0x1F300, 0x1F64F), (0x1F680, 0x1F6FF),
    (0x1F900, 0x1F9FF), (0x20000, 0x2FFFD), (0x30000, 0x3FFFD)]

/-- Columns a scalar occupies. -/
def width (u : UnicodeTables) (scalar : Char) : ℤ :=
  if u.isMark scalar then if scalar.toNat = 0x00AD then 1 else 0
  else if wideRanges.any fun range => range.1 ≤ scalar.toNat && scalar.toNat ≤ range.2 then 2
  else 1

/-! ## The state -/

inductive State
  | ground
  | escape
  | csi
  | operatingSystemCommand
  | ignoredString
  | stringEscape
  | charset
deriving DecidableEq

/-- The shell's screen, while a full-screen program draws on the other. -/
structure Saved where
  screen : List (List Cell)
  cursor : ℤ × ℤ
  usesCursor : Bool

end ScreenRenderer

structure ScreenRenderer where
  columns : ℤ
  rows : ℤ
  screen : List (List Cell)
  scrollback : List (List Cell) := []
  cursorRow : ℤ := 0
  cursorColumn : ℤ := 0
  savedCursor : ℤ × ℤ := (0, 0)
  scrollTop : ℤ := 0
  scrollBottom : ℤ
  autoWrap : Bool := true
  /-- The next character is what moves to the new line. -/
  wrapPending : Bool := false
  saved : Option ScreenRenderer.Saved := none
  outputStartRow : Option ℤ := none
  promptStartRow : Option ℤ := none
  /-- How many lines left the buffer at its top. -/
  scrolledOffRows : ℤ := 0
  state : ScreenRenderer.State := .ground
  controlSequence : List UInt8 := []
  operatingSystemCommand : List UInt8 := []
  pendingScalar : List UInt8 := []
  pendingScalarLength : ℕ := 0

namespace ScreenRenderer

def blankRow (s : ScreenRenderer) : List Cell := List.replicate s.columns.toNat blank

def blankRows (s : ScreenRenderer) (count : ℤ) : List (List Cell) :=
  List.replicate count.toNat s.blankRow

def clampRow (s : ScreenRenderer) (row : ℤ) : ℤ := min (max 0 row) (s.rows - 1)

def clampColumn (s : ScreenRenderer) (column : ℤ) : ℤ := min (max 0 column) (s.columns - 1)

/-- `init`. -/
def start (columns rows : UInt16) : ScreenRenderer where
  columns := max 1 columns.toNat
  rows := max 1 rows.toNat
  screen := List.replicate (max 1 rows.toNat) (List.replicate (max 1 columns.toNat) blank)
  scrollBottom := max 1 rows.toNat - 1

/-! ## Scrolling -/

/-- The lines that leave the primary screen at its top, and the ones that leave the buffer for
them. -/
def keepLines (s : ScreenRenderer) (lines : ℤ) : Option ScreenRenderer := do
  let scrollback := s.scrollback ++ (← slice s.screen 0 lines)
  if scrollback.length > scrollbackLineLimit then
    let excess := scrollback.length - scrollbackLineLimit
    let scrollback ← removeFirst scrollback excess
    some { s with scrollback, scrolledOffRows := ← int (s.scrolledOffRows + excess) }
  else some { s with scrollback }

def scrollUp (s : ScreenRenderer) (count : ℤ) : Option ScreenRenderer := do
  let lines := min (max 1 count) (← int (s.scrollBottom - s.scrollTop + 1))
  let s ← (if s.saved.isNone ∧ s.scrollTop = 0 then s.keepLines lines else some s)
  let screen ← removeSubrange s.screen s.scrollTop (← int (s.scrollTop + lines))
  let screen ← insert screen (s.blankRows lines) (← int (s.scrollBottom + 1 - lines))
  some { s with screen }

def scrollDown (s : ScreenRenderer) (count : ℤ) : Option ScreenRenderer := do
  let lines := min (max 1 count) (← int (s.scrollBottom - s.scrollTop + 1))
  let screen ← removeSubrange s.screen (← int (s.scrollBottom + 1 - lines))
    (← int (s.scrollBottom + 1))
  let screen ← insert screen (s.blankRows lines) s.scrollTop
  some { s with screen }

def index (s : ScreenRenderer) : Option ScreenRenderer := do
  let s ←
    (if s.cursorRow = s.scrollBottom then s.scrollUp 1
    else if s.cursorRow < s.rows - 1 then do
      some { s with cursorRow := ← int (s.cursorRow + 1) }
    else some s)
  some { s with wrapPending := false }

def reverseIndex (s : ScreenRenderer) : Option ScreenRenderer := do
  let s ←
    (if s.cursorRow = s.scrollTop then s.scrollDown 1
    else if s.cursorRow > 0 then do
      some { s with cursorRow := ← int (s.cursorRow - 1) }
    else some s)
  some { s with wrapPending := false }

def insertLines (s : ScreenRenderer) (count : ℤ) : Option ScreenRenderer :=
  if s.cursorRow ≥ s.scrollTop ∧ s.cursorRow ≤ s.scrollBottom then do
    let lines := min count (← int (s.scrollBottom - s.cursorRow + 1))
    let screen ← removeSubrange s.screen (← int (s.scrollBottom + 1 - lines))
      (← int (s.scrollBottom + 1))
    let screen ← insert screen (s.blankRows lines) s.cursorRow
    some { s with screen, cursorColumn := 0, wrapPending := false }
  else some s

def deleteLines (s : ScreenRenderer) (count : ℤ) : Option ScreenRenderer :=
  if s.cursorRow ≥ s.scrollTop ∧ s.cursorRow ≤ s.scrollBottom then do
    let lines := min count (← int (s.scrollBottom - s.cursorRow + 1))
    let screen ← removeSubrange s.screen s.cursorRow (← int (s.cursorRow + lines))
    let screen ← insert screen (s.blankRows lines) (← int (s.scrollBottom + 1 - lines))
    some { s with screen, cursorColumn := 0, wrapPending := false }
  else some s

/-! ## Cells -/

/-- The cells of the cursor's row from one column to another become blank. -/
def blankCells (s : ScreenRenderer) (start stop : ℤ) : Option ScreenRenderer := do
  let screen ← forRange start stop s.screen fun screen column =>
    modify screen s.cursorRow fun row => set row column blank
  some { s with screen }

/-- The rows from one to another become blank. -/
def blankLines (s : ScreenRenderer) (start stop : ℤ) : Option ScreenRenderer := do
  let screen ← forRange start stop s.screen fun screen row => set screen row s.blankRow
  some { s with screen }

def eraseInLine (s : ScreenRenderer) (mode : ℤ) : Option ScreenRenderer :=
  if mode = 0 then do
    let s ← s.blankCells s.cursorColumn s.columns
    some { s with wrapPending := false }
  else if mode = 1 then do
    let s ← s.blankCells 0 (← int (min s.cursorColumn (s.columns - 1) + 1))
    some { s with wrapPending := false }
  else if mode = 2 then do
    let screen ← set s.screen s.cursorRow s.blankRow
    some { s with screen, wrapPending := false }
  else some s

/-- The history goes, and its lines are lines gone. -/
def forgetScrollback (s : ScreenRenderer) : Option ScreenRenderer := do
  some
    { s with scrolledOffRows := ← int (s.scrolledOffRows + s.scrollback.length), scrollback := [] }

def eraseInDisplay (s : ScreenRenderer) (mode : ℤ) : Option ScreenRenderer :=
  if mode = 0 then do
    let s ← s.eraseInLine 0
    let s ← s.blankLines (← int (s.cursorRow + 1)) s.rows
    some { s with wrapPending := false }
  else if mode = 1 then do
    let s ← s.eraseInLine 1
    let s ← s.blankLines 0 s.cursorRow
    some { s with wrapPending := false }
  else if mode = 2 ∨ mode = 3 then do
    let s ← s.blankLines 0 s.rows
    let s ← (if mode = 3 then s.forgetScrollback else some s)
    some { s with wrapPending := false }
  else some s

def insertCharacters (s : ScreenRenderer) (count : ℤ) : Option ScreenRenderer := do
  let cells := min count (← int (s.columns - s.cursorColumn))
  let screen ← modify s.screen s.cursorRow fun row => do
    let row ← removeLast row cells
    insert row (List.replicate cells.toNat blank) s.cursorColumn
  some { s with screen, wrapPending := false }

def deleteCharacters (s : ScreenRenderer) (count : ℤ) : Option ScreenRenderer := do
  let cells := min count (← int (s.columns - s.cursorColumn))
  let screen ← modify s.screen s.cursorRow fun row => do
    let row ← removeSubrange row s.cursorColumn (← int (s.cursorColumn + cells))
    some (row ++ List.replicate cells.toNat blank)
  some { s with screen, wrapPending := false }

def eraseCharacters (s : ScreenRenderer) (count : ℤ) : Option ScreenRenderer := do
  let stop := min s.columns (← int (s.cursorColumn + count))
  if s.cursorColumn < stop then
    let s ← s.blankCells s.cursorColumn stop
    some { s with wrapPending := false }
  else some s

/-! ## Characters -/

/-- The cursor where the next character goes: behind a deferred wrap, and with the whole of a wide
character inside the line.  Without wrapping a wide character may not fit. -/
def makeRoom (s : ScreenRenderer) (width : ℤ) : Option (ScreenRenderer × Bool) := do
  let s ←
    (if s.wrapPending ∧ s.autoWrap then do
      let s ← ({ s with cursorColumn := 0 }).index
      some { s with wrapPending := false }
    else some s)
  if width = 2 ∧ s.cursorColumn = s.columns - 1 then
    if s.autoWrap then do
      let s ← ({ s with cursorColumn := 0 }).index
      some (s, true)
    else some (s, false)
  else some (s, true)

/-- A character into a line.  Writing over half of a wide glyph blanks its other half. -/
def writeCells (columns column width : ℤ) (character : Cell) (row : List Cell) :
    Option (List Cell) := do
  let cell ← get row column
  let row ← (if cell = spacer ∧ column > 0 then set row (column - 1) blank else some row)
  let next ← int (column + width)
  let row ←
    (if next < columns then do
      let cell ← get row next
      if cell = spacer then set row next blank else some row
    else some row)
  let row ← set row column character
  if width = 2 ∧ column + 1 < columns then set row (column + 1) spacer else some row

def write (s : ScreenRenderer) (character : Cell) (width : ℤ) : Option ScreenRenderer := do
  let screen ← modify s.screen s.cursorRow (writeCells s.columns s.cursorColumn width character)
  let next ← int (s.cursorColumn + width)
  if next ≥ s.columns then
    some { s with screen, cursorColumn := s.columns - 1, wrapPending := true }
  else some { s with screen, cursorColumn := next }

def place (s : ScreenRenderer) (character : Cell) (width : ℤ) : Option ScreenRenderer := do
  let (s, fits) ← s.makeRoom width
  if fits then s.write character width else some s

/-- Past spacers to the left: the column of a mark's character, or one left of the row. -/
def columnOfMark (row : List Cell) : ℕ → ℤ → Option ℤ
  | 0, column => some column
  | turns + 1, column => do
    if column ≥ 0 then
      if (← get row column) = spacer then columnOfMark row turns (column - 1) else some column
    else some column

/-- A combining mark belongs to the character already written; one that does not join is dropped. -/
def attachCombining (u : UnicodeTables) (s : ScreenRenderer) (mark : Char) :
    Option ScreenRenderer := do
  let column := if s.wrapPending then s.cursorColumn else s.cursorColumn - 1
  let row ← get s.screen s.cursorRow
  -- a turn for every column there may be
  let column ← columnOfMark row (column + 1).toNat column
  if column ≥ 0 then
    let joined := (← get row column) ++ [mark]
    if u.isCharacter joined then
      let screen ← modify s.screen s.cursorRow fun row => set row column joined
      some { s with screen }
    else some s
  else some s

/-! ## Modes -/

/-- The alternate screen, and back. -/
def setAlternateScreen (s : ScreenRenderer) (enabled restoresCursor : Bool) : ScreenRenderer :=
  if enabled then
    if s.saved.isSome then s
    else
      { s with
        saved := some ⟨s.screen, (s.cursorRow, s.cursorColumn), restoresCursor⟩
        screen := s.blankRows s.rows
        cursorRow := 0
        cursorColumn := 0
        wrapPending := false }
  else
    match s.saved with
    | none => s
    | some saved =>
      let s :=
        if saved.usesCursor then
          { s with
            cursorRow := s.clampRow saved.cursor.1, cursorColumn := s.clampColumn saved.cursor.2 }
        else s
      { s with screen := saved.screen, saved := none, wrapPending := false }

def setPrivateMode (s : ScreenRenderer) (enabled : Bool) (mode : ℤ) : ScreenRenderer :=
  if mode = 7 then { s with autoWrap := enabled }
  else if mode = 47 ∨ mode = 1047 ∨ mode = 1049 then s.setAlternateScreen enabled (mode = 1049)
  else s

def reset (s : ScreenRenderer) : ScreenRenderer :=
  { s with
    screen := s.blankRows s.rows
    cursorRow := 0
    cursorColumn := 0
    savedCursor := (0, 0)
    scrollTop := 0
    scrollBottom := s.rows - 1
    autoWrap := true
    wrapPending := false
    saved := none }

/-! ## Control sequences -/

/-- Each parameter is clamped as it is read, and one that is no number is zero. -/
def parameters (body : List UInt8) : List ℤ :=
  ((body.filter fun b => ¬ (0x20 ≤ b ∧ b ≤ 0x2F)).splitOn 0x3B).map fun text =>
    min ((parseInteger (-2 ^ 63) (2 ^ 63 - 1) text).getD 0) 65535

/-- A parameter that is absent or zero is the fallback. -/
def parameter (parameters : List ℤ) (index : ℕ) (fallback : ℤ) : ℤ :=
  match parameters[index]? with
  | none => fallback
  | some value => if value = 0 then fallback else value

def rawParameter (parameters : List ℤ) (index : ℕ) : ℤ := parameters.getD index 0

/-- The cursor moves, and no wrap is due any more. -/
def moveTo (s : ScreenRenderer) (row column : ℤ) : ScreenRenderer :=
  { s with cursorRow := row, cursorColumn := column, wrapPending := false }

/-- `CSI r`. -/
def setRegion (s : ScreenRenderer) (top bottom : ℤ) : ScreenRenderer :=
  let s :=
    if top < bottom then { s with scrollTop := top, scrollBottom := bottom }
    else { s with scrollTop := 0, scrollBottom := s.rows - 1 }
  s.moveTo s.scrollTop 0

def applyPublic (s : ScreenRenderer) (ps : List ℤ) (final : UInt8) : Option ScreenRenderer := do
  let first := parameter ps 0 1
  match final with
  | 0x41 =>
    let row ← int (s.cursorRow - first)
    some (s.moveTo (max (if s.cursorRow ≥ s.scrollTop then s.scrollTop else 0) row) s.cursorColumn)
  | 0x42 =>
    let row ← int (s.cursorRow + first)
    some (s.moveTo (min (if s.cursorRow ≤ s.scrollBottom then s.scrollBottom else s.rows - 1) row)
      s.cursorColumn)
  | 0x43 => some (s.moveTo s.cursorRow (min (s.columns - 1) (← int (s.cursorColumn + first))))
  | 0x44 => some (s.moveTo s.cursorRow (max 0 (← int (s.cursorColumn - first))))
  | 0x45 => some (s.moveTo (min (s.rows - 1) (← int (s.cursorRow + first))) 0)
  | 0x46 => some (s.moveTo (max 0 (← int (s.cursorRow - first))) 0)
  | 0x47 | 0x60 => some (s.moveTo s.cursorRow (s.clampColumn (← int (first - 1))))
  | 0x64 => some (s.moveTo (s.clampRow (← int (first - 1))) s.cursorColumn)
  | 0x48 | 0x66 =>
    let row ← int (first - 1)
    let column ← int (parameter ps 1 1 - 1)
    some (s.moveTo (s.clampRow row) (s.clampColumn column))
  | 0x4A => s.eraseInDisplay (rawParameter ps 0)
  | 0x4B => s.eraseInLine (rawParameter ps 0)
  | 0x4C => s.insertLines first
  | 0x4D => s.deleteLines first
  | 0x40 => s.insertCharacters first
  | 0x50 => s.deleteCharacters first
  | 0x58 => s.eraseCharacters first
  | 0x53 => s.scrollUp first
  | 0x54 => s.scrollDown first
  | 0x72 =>
    let top ← int (first - 1)
    let bottom ← int (parameter ps 1 s.rows - 1)
    some (s.setRegion (s.clampRow top) (s.clampRow bottom))
  | 0x73 => some { s with savedCursor := (s.cursorRow, s.cursorColumn) }
  | 0x75 => some (s.moveTo (s.clampRow s.savedCursor.1) (s.clampColumn s.savedCursor.2))
  | _ => some s

/-- A private sequence never means what the public final would, and only `?` has finals. -/
def applyPrivate (s : ScreenRenderer) (ps : List ℤ) (final : UInt8) : ScreenRenderer :=
  match final with
  | 0x68 => ps.foldl (fun s mode => s.setPrivateMode true mode) s
  | 0x6C => ps.foldl (fun s mode => s.setPrivateMode false mode) s
  | _ => s

def applyControlSequence (s : ScreenRenderer) (sequence : List UInt8) (final : UInt8) :
    Option ScreenRenderer :=
  match sequence with
  | [] => s.applyPublic (parameters []) final
  | first :: body =>
    if 0x3C ≤ first ∧ first ≤ 0x3F then
      if first = 0x3F then some (s.applyPrivate (parameters body) final) else some s
    else s.applyPublic (parameters sequence) final

/-- The prompt marks' rows. -/
def applyOperatingSystemCommand (s : ScreenRenderer) : Option ScreenRenderer :=
  let body := s.operatingSystemCommand
  let s : ScreenRenderer := { s with operatingSystemCommand := [] }
  if s.saved.isSome then some s
  else match body with
    | 0x31 :: 0x33 :: 0x33 :: 0x3B :: mark :: _ => do
      let row ← int ((← int (s.scrolledOffRows + s.scrollback.length)) + s.cursorRow)
      if mark = 0x41 then some { s with promptStartRow := some row }
      else if mark = 0x43 then some { s with outputStartRow := some row }
      else some s
    | _ => some s

/-! ## Bytes -/

/-- The scalar some bytes are the UTF-8 of. -/
def decodeScalar (bytes : List UInt8) : Option Char :=
  let value :=
    match bytes with
    | [a, b] => a.toNat % 32 * 64 + b.toNat % 64
    | [a, b, c] => (a.toNat % 16 * 64 + b.toNat % 64) * 64 + c.toNat % 64
    | [a, b, c, d] => ((a.toNat % 8 * 64 + b.toNat % 64) * 64 + c.toNat % 64) * 64 + d.toNat % 64
    | _ => 0
  let scalar := Char.ofNat value
  -- an overlong form, a surrogate, a value past the last: none reads back
  if String.utf8EncodeChar scalar = bytes then some scalar else none

def emitPendingScalar (u : UnicodeTables) (s : ScreenRenderer) : Option ScreenRenderer :=
  let bytes := s.pendingScalar
  let s := { s with pendingScalar := [], pendingScalarLength := 0 }
  match decodeScalar bytes with
  | none => some s
  | some scalar =>
    if width u scalar = 0 then s.attachCombining u scalar else s.place [scalar] (width u scalar)

/-- A byte of text, with no scalar begun. -/
def text (s : ScreenRenderer) (byte : UInt8) : Option ScreenRenderer := do
  match byte with
  | 0x00 | 0x07 => some s
  | 0x08 => some (s.moveTo s.cursorRow (max 0 (s.cursorColumn - 1)))
  | 0x09 =>
    let next ← int ((s.cursorColumn / 8 + 1) * 8)
    some (s.moveTo s.cursorRow (min (s.columns - 1) next))
  | 0x0A | 0x0B | 0x0C => s.index
  | 0x0D => some (s.moveTo s.cursorRow 0)
  | 0x1B => some { s with state := .escape }
  | 0x7F => some s
  | _ =>
    if byte < 0x20 then some s
    else if byte < 0x80 then s.place [Char.ofNat byte.toNat] 1
    else if byte &&& 0xE0 = 0xC0 then
      some { s with pendingScalarLength := 2, pendingScalar := [byte] }
    else if byte &&& 0xF0 = 0xE0 then
      some { s with pendingScalarLength := 3, pendingScalar := [byte] }
    else if byte &&& 0xF8 = 0xF0 then
      some { s with pendingScalarLength := 4, pendingScalar := [byte] }
    else some s

def ground (u : UnicodeTables) (s : ScreenRenderer) (byte : UInt8) : Option ScreenRenderer :=
  if s.pendingScalarLength > 0 then
    if byte &&& 0xC0 = 0x80 then
      let s := { s with pendingScalar := s.pendingScalar ++ [byte] }
      if s.pendingScalar.length = s.pendingScalarLength then s.emitPendingScalar u else some s
    else ({ s with pendingScalar := [], pendingScalarLength := 0 }).text byte
  else s.text byte

def escape (s : ScreenRenderer) (byte : UInt8) : Option ScreenRenderer :=
  let s := { s with state := .ground }
  match byte with
  | 0x5B => some { s with controlSequence := [], state := .csi }
  | 0x5D => some { s with operatingSystemCommand := [], state := .operatingSystemCommand }
  | 0x50 | 0x58 | 0x5E | 0x5F => some { s with state := .ignoredString }
  | 0x28 | 0x29 | 0x2A | 0x2B => some { s with state := .charset }
  | 0x37 => some { s with savedCursor := (s.cursorRow, s.cursorColumn) }
  | 0x38 =>
    some (s.moveTo (min (s.rows - 1) s.savedCursor.1) (min (s.columns - 1) s.savedCursor.2))
  | 0x44 => s.index
  | 0x45 => ({ s with cursorColumn := 0 }).index
  | 0x4D => s.reverseIndex
  | 0x63 => some s.reset
  | _ => some s

def consume (u : UnicodeTables) (s : ScreenRenderer) (byte : UInt8) : Option ScreenRenderer :=
  match s.state with
  | .ground => s.ground u byte
  | .escape => s.escape byte
  | .csi =>
    if 0x40 ≤ byte ∧ byte ≤ 0x7E then
      ({ s with controlSequence := [], state := .ground }).applyControlSequence
        s.controlSequence byte
    else if 0x20 ≤ byte ∧ byte ≤ 0x3F then
      some (if s.controlSequence.length < 64 then
        { s with controlSequence := s.controlSequence ++ [byte] } else s)
    else
      -- a control byte abandons the sequence and acts
      ({ s with controlSequence := [], state := .ground }).ground u byte
  | .operatingSystemCommand =>
    if byte = 0x07 then ({ s with state := .ground }).applyOperatingSystemCommand
    else if byte = 0x1B then ({ s with state := .stringEscape }).applyOperatingSystemCommand
    else if s.operatingSystemCommand.length < 8 then
      some { s with operatingSystemCommand := s.operatingSystemCommand ++ [byte] }
    else some s
  | .ignoredString => some (if byte = 0x1B then { s with state := .stringEscape } else s)
  | .stringEscape =>
    some { s with
      state :=
        if byte = 0x5C then .ground else if byte = 0x1B then .stringEscape else .ignoredString }
  | .charset => some { s with state := .ground }

/-- Bytes one after the other; nothing if one of them would stop the program. -/
def feed (u : UnicodeTables) (s : ScreenRenderer) (data : List UInt8) : Option ScreenRenderer :=
  data.foldlM (consume u) s

end ScreenRenderer
