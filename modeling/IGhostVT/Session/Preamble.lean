import IGhostVT.Session.ReplayState

/-!
# Session/Preamble — a terminal state written back as sequences

`preamble` writes a `TerminalReplayState` as the escape sequences that put a terminal into it, and
`includingSettings` widens a state by the settings a later one touched, each at its default, so that
the preamble also undoes what a reused terminal may hold.
-/

/-- `ESC [ body`. -/
def csi (body : List UInt8) : List UInt8 := [0x1B, 0x5B] ++ body

/-- `ESC ] body ESC \`. -/
def osc (body : List UInt8) : List UInt8 := [0x1B, 0x5D] ++ body ++ [0x1B, 0x5C]

namespace TerminalReplayState

/-- This state, with every setting `later` touched that this one never did written out at its
default. -/
def includingSettings (s later : TerminalReplayState) : TerminalReplayState :=
  { s with
    decModes := s.decModes.fill later.decModes.keys defaultDECMode
    savedDECModes := s.savedDECModes.fill later.savedDECModes.keys fun _ => false
    ansiModes := s.ansiModes.fill later.ansiModes.keys defaultANSIMode
    mouseEvent := s.mouseEvent.or (later.mouseEvent.map fun _ => 0)
    mouseFormat := s.mouseFormat.or (later.mouseFormat.map fun _ => 0)
    modifyKeyFormat := s.modifyKeyFormat.or (later.modifyKeyFormat.map fun _ => ascii ">m")
    cursorStyle := s.cursorStyle.or (later.cursorStyle.map fun _ => 0)
    dynamicColors := s.dynamicColors.fill later.dynamicColors.keys fun _ => []
    title := s.title.or (later.title.map fun _ => [])
    charsetsTouched := s.charsetsTouched || later.charsetsTouched
    hyperlinkTouched := s.hyperlinkTouched || later.hyperlinkTouched
    alternateEverUsed := s.alternateEverUsed || later.alternateEverUsed
    kittyTouched :=
      ⟨s.kittyTouched.primary || later.kittyTouched.primary,
        s.kittyTouched.alternate || later.kittyTouched.alternate⟩ }

/-- The intermediates that designate `G0`–`G3`. -/
def slotIntermediate (slot : Fin 4) : UInt8 := 0x28 + UInt8.ofNat slot

/-- The slots designated so far: a slot an earlier state changed is put back as ASCII, the initial
UTF-8 set having no designation of its own. -/
abbrev PreambleWriter := Fin 4 → Bool

namespace PreambleWriter

/-- No slot designated. -/
def fresh : PreambleWriter := fun _ => false

/-- The designation a slot needs, if any. -/
def designation (designated : PreambleWriter) (charsets : Charsets) (slot : Fin 4) : List UInt8 :=
  if charsets.slots slot ≠ 0 then [0x1B, slotIntermediate slot, charsets.slots slot]
  else if designated slot then [0x1B, slotIntermediate slot, 0x42]
  else []

/-- The sequence that invokes a set into `GL`. -/
def invokeGL (gl : ℕ) : List UInt8 :=
  match gl with
  | 1 => [0x0E]
  | 2 => [0x1B, 0x6E]
  | 3 => [0x1B, 0x6F]
  | _ => [0x0F]

/-- The sequence that invokes a set into `GR`. -/
def invokeGR (gr : ℕ) : List UInt8 :=
  match gr with
  | 1 => [0x1B, 0x7E]
  | 3 => [0x1B, 0x7C]
  | _ => [0x1B, 0x7D]

/-- The pen, as a reset and its SGR sequences. -/
def penState (pen : Pen) : List UInt8 :=
  csi (ascii "0m") ++ pen.flatMap fun parameters => [0x1B, 0x5B] ++ parameters ++ [0x6D]

/-- The charsets: each slot's designation, then `GL` and `GR`. -/
def charsetState (designated : PreambleWriter) (charsets : Charsets) : List UInt8 :=
  (List.finRange 4).flatMap (designated.designation charsets)
    ++ invokeGL charsets.gl ++ invokeGR charsets.gr

/-- A cursor's pen and charsets. -/
def cursorState (designated : PreambleWriter) (cursor : Cursor) (charsetsTouched : Bool) :
    List UInt8 :=
  penState cursor.pen ++
    if charsetsTouched || (List.finRange 4).any designated then
      charsetState designated cursor.charsets
    else []

/-- The slots designated once `cursor`'s charsets are written. -/
def after (designated : PreambleWriter) (cursor : Cursor) : PreambleWriter := fun slot =>
  designated slot || cursor.charsets.slots slot != 0

end PreambleWriter

/-- Rebuilds a kitty flag stack: emptied, then the index walked to its place and every entry
written.  When nothing above the index is set, the base is set and the rest pushed. -/
def kittyRebuild (stack : KittyFlags) : List UInt8 :=
  let pushed (slot : Fin 8) : List UInt8 :=
    csi (ascii ">" ++ decimal (stack.flags slot).toNat ++ ascii "u")
  csi (ascii "<8u") ++
    if ∀ slot : Fin 8, stack.index < slot → stack.flags slot = 0 then
      (if stack.flags 0 ≠ 0 then csi (ascii "=" ++ decimal (stack.flags 0).toNat ++ ascii ";1u")
        else []) ++
        ((List.finRange 8).filter fun slot => 1 ≤ slot ∧ slot ≤ stack.index).flatMap pushed
    else
      (List.replicate stack.index (csi (ascii ">0u"))).flatten ++
        (List.finRange 8).flatMap fun step => pushed (stack.index + (step + 1))

/-- A saved cursor written and saved again, and the slots designated after it. -/
def savedCursorState (designated : PreambleWriter) (saved : Option Cursor) :
    List UInt8 × PreambleWriter :=
  match saved with
  | some cursor =>
    (designated.cursorState cursor true ++ [0x1B, 0x37], designated.after cursor)
  | none => ([], designated)

/-- `CSI ? mode h` or `l`. -/
def decModeState (mode : ℕ) (enabled : Bool) : List UInt8 :=
  csi (ascii "?" ++ decimal mode ++ ascii (if enabled then "h" else "l"))

/-- The alternate screen visited while it is not shown: its kitty flags and saved cursor. -/
def hiddenAlternate (s : TerminalReplayState) : List UInt8 × PreambleWriter :=
  if s.alternateEverUsed && !s.isAlternateActive then
    let (saved, designated) := savedCursorState PreambleWriter.fresh s.savedCursor.alternate
    (csi (ascii "?1047h") ++ csi (ascii "!p")
      ++ (if s.kittyTouched.alternate then kittyRebuild s.kitty.alternate else [])
      ++ saved ++ csi (ascii "?1047l"), designated)
  else ([], PreambleWriter.fresh)

/-- Both screens' saved cursors, and the switch to the screen shown. -/
def shownScreen (s : TerminalReplayState) (designated : PreambleWriter) :
    List UInt8 × PreambleWriter :=
  if s.isAlternateActive then
    let switch :=
      if s.alternateEntryMode = 1049 then
        -- 1049 saves the primary cursor as it switches.
        designated.cursorState (s.savedCursor.primary.getD {}) true ++ csi (ascii "?1049h")
      else
        (savedCursorState designated s.savedCursor.primary).1
          ++ csi (ascii "?" ++ decimal s.alternateEntryMode ++ ascii "h")
          ++ csi (ascii "H") ++ csi (ascii "2J")
    let (saved, designated) := savedCursorState PreambleWriter.fresh s.savedCursor.alternate
    (switch ++ csi (ascii "!p")
      ++ (if s.kittyTouched.alternate then kittyRebuild s.kitty.alternate else []) ++ saved,
      designated)
  else savedCursorState designated s.savedCursor.primary

/-- XTSAVE's record, each mode set to what was saved and saved again. -/
def savedModesState (s : TerminalReplayState) : List UInt8 :=
  (s.savedDECModes.entries.filter fun e => e.1 ∉ alternateScreenModes ∧ e.1 ≠ 1048).flatMap fun e =>
    decModeState e.1 e.2 ++ csi (ascii "?" ++ decimal e.1 ++ ascii "s")

/-- Every mode's own value. -/
def modesState (s : TerminalReplayState) : List UInt8 :=
  s.decModes.entries.flatMap (fun e => decModeState e.1 e.2)
    ++ (match s.mouseEvent with
      | some event => if event = 0 then csi (ascii "?1000l") else decModeState event true
      | none => [])
    ++ (match s.mouseFormat with
      | some format => if format = 0 then csi (ascii "?1006l") else decModeState format true
      | none => [])
    ++ s.ansiModes.entries.flatMap fun e => csi (decimal e.1 ++ ascii (if e.2 then "h" else "l"))

/-- A dynamic colour set, or reset. -/
def dynamicColorState (index : ℕ) (value : List UInt8) : List UInt8 :=
  if value = [] then osc (decimal (110 + index))
    else osc (decimal (10 + index) ++ ascii ";" ++ value)

/-- Key formats, cursor style, colours, title and directory. -/
def settingsState (s : TerminalReplayState) : List UInt8 :=
  (match s.modifyKeyFormat with
    | some format => [0x1B, 0x5B] ++ format
    | none => [])
    ++ (match s.cursorStyle with
      | some style => csi (decimal style ++ ascii " q")
      | none => [])
    ++ s.palette.entries.flatMap (fun e => osc (ascii "4;" ++ decimal e.1 ++ ascii ";" ++ e.2))
    ++ s.dynamicColors.entries.flatMap (fun e => dynamicColorState e.1 e.2)
    ++ (match s.title with
      | some title => osc (ascii "2;" ++ title)
      | none => [])
    ++ (match s.workingDirectory with
      | some directory => osc (ascii "7;" ++ directory)
      | none => [])

/-- The link and the scroll region. -/
def linkAndRegionState (s : TerminalReplayState) : List UInt8 :=
  (if s.hyperlinkTouched then osc (ascii "8;" ++ s.hyperlink.getD (ascii ";")) else [])
    ++ (match s.scrollRegion with
      | some (top, bottom) =>
        if bottom = 0 then csi (decimal top ++ ascii "r")
        else csi (decimal top ++ ascii ";" ++ decimal bottom ++ ascii "r")
      | none => [])

/-- The sequences that put a terminal into this state, from wherever it stands. -/
def preamble (s : TerminalReplayState) : List UInt8 :=
  let (hidden, designated) := s.hiddenAlternate
  let (shown, designated) := s.shownScreen designated
  (if s.alternateEverUsed then csi (ascii "?1049l") else [])
    ++ csi (ascii "!p") ++ csi (ascii "H") ++ csi (ascii "2J")
    ++ hidden
    ++ (if s.kittyTouched.primary then kittyRebuild s.kitty.primary else [])
    ++ shown ++ s.savedModesState ++ s.modesState ++ s.settingsState
    ++ designated.cursorState s.cursor s.charsetsTouched
    ++ s.linkAndRegionState ++ csi (ascii "H")

end TerminalReplayState
