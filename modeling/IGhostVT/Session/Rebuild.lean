import IGhostVT.Session.PreambleReading

/-!
# Session/Rebuild — what a whole preamble does to a terminal

`rebuild p` is the preamble of `p` as a function on terminals, stage by stage as it is written:
`writes_preamble` says that a tracker at rest reads the one as the other.
-/

namespace TerminalReplayState

open TerminalStreamTracker

/-- A state a preamble can write: `Sound` but for what XTSAVE recorded of modes never touched. -/
structure Writable (s : TerminalReplayState) : Prop where
  dec : ∀ m v, s.decModes.get? m = some v → m ∈ trackedDECModes
  ansi : ∀ m v, s.ansiModes.get? m = some v → m ∈ trackedANSIModes
  event : ∀ m, s.mouseEvent = some m → m = 0 ∨ m ∈ mouseEventModes
  format : ∀ m, s.mouseFormat = some m → m = 0 ∨ m ∈ mouseFormatModes
  saved_le : ∀ m v, s.savedDECModes.get? m = some v → m ≤ 65535
  /-- Only a touched or a tracked mode was ever saved on. -/
  saved : ∀ m v, s.savedDECModes.get? m = some v → m ∉ alternateScreenModes →
    m ∉ trackedDECModes → s.touched m = false → v = false
  screens : ScreensSound s
  cursors : CursorsSound s
  settings : SettingsSound s

/-- A sound state saved a mode it never touched at the mode's default, and that is off unless the
mode is tracked. -/
theorem Sound.writable {s : TerminalReplayState} (h : Sound s) : Writable s where
  dec := h.modes.dec
  ansi := h.modes.ansi
  event := h.modes.event
  format := h.modes.format
  saved_le := h.modes.saved_le
  saved m v hm halt htracked htouched := by
    have hdefault : ∀ m, m ∉ trackedDECModes → defaultDECMode m = false := by
      intro m hm
      simp only [defaultDECMode, decide_eq_false_iff_not]
      intro hin
      refine hm ?_
      fin_cases hin <;> decide
    rw [h.modes.saved m v hm halt htouched, hdefault m htracked]
  screens := h.screens
  cursors := h.cursors
  settings := h.settings

/-! ## The stages

What each part of a preamble does, as a function on terminals. They come in the order the preamble
writes them, for later ones overwrite what earlier ones had to leave behind. -/

/-- A cursor's pen and charsets put in place. -/
def putCursor (designated : PreambleWriter) (cursor : Cursor) (charsetsTouched : Bool)
    (s : TerminalReplayState) : TerminalReplayState :=
  if charsetsTouched || (List.finRange 4).any designated then
    { s with
      cursor := { s.cursor with
        pen := cursor.pen
        charsets := { slots := writtenSlots designated cursor.charsets s.cursor.charsets.slots
                      gl := cursor.charsets.gl, gr := cursor.charsets.gr } }
      charsetsTouched := true }
  else { s with cursor := { s.cursor with pen := cursor.pen } }

/-- A saved cursor put in place and saved. -/
def putSavedCursor (designated : PreambleWriter) (saved : Option Cursor) (s : TerminalReplayState) :
    TerminalReplayState :=
  match saved with
  | some cursor => (s.putCursor designated cursor true).saveCursor
  | none => s

/-- The active screen's flag stack put in place. -/
def putKitty (touched : Bool) (stack : KittyFlags) (s : TerminalReplayState) :
    TerminalReplayState :=
  if touched then s.changeKitty fun _ => stack else s

/-- The alternate screen entered afresh and filled. -/
def putAlternate (p s : TerminalReplayState) : TerminalReplayState :=
  (s.softReset.putKitty p.kittyTouched.alternate p.kitty.alternate).putSavedCursor
    PreambleWriter.fresh p.savedCursor.alternate

/-- The alternate screen filled while it is not shown. -/
def putHidden (p s : TerminalReplayState) : TerminalReplayState :=
  if p.alternateEverUsed && !p.isAlternateActive then
    (p.putAlternate (s.setDECMode 1047 true)).setDECMode 1047 false
  else s

/-- The screen shown, with its saved cursors. -/
def putShown (p : TerminalReplayState) (designated : PreambleWriter) (s : TerminalReplayState) :
    TerminalReplayState :=
  if p.isAlternateActive then
    p.putAlternate
      (if p.alternateEntryMode = 1049 then
        (s.putCursor designated (p.savedCursor.primary.getD {}) true).setDECMode 1049 true
      else (s.putSavedCursor designated p.savedCursor.primary).setDECMode p.alternateEntryMode true)
  else s.putSavedCursor designated p.savedCursor.primary

/-- XTSAVE's record. -/
def putSavedModes (p s : TerminalReplayState) : TerminalReplayState :=
  (p.savedDECModes.entries.filter fun e => e.1 ∉ alternateScreenModes ∧ e.1 ≠ 1048).foldl
    (fun s e => (s.setDECMode e.1 e.2).saveDECMode e.1) s

/-- The mode of a mouse setting, its reset written through `off`. -/
def putMouse (mode : Option ℕ) (off : ℕ) (s : TerminalReplayState) : TerminalReplayState :=
  match mode with
  | some m => if m = 0 then s.setDECMode off false else s.setDECMode m true
  | none => s

/-- Every mode. -/
def putModes (p s : TerminalReplayState) : TerminalReplayState :=
  p.ansiModes.entries.foldl (fun s e => s.setANSIMode e.1 e.2)
    (putMouse p.mouseFormat 1006 (putMouse p.mouseEvent 1000
      (p.decModes.entries.foldl (fun s e => s.setDECMode e.1 e.2) s)))

/-- Key formats, cursor style, colours, title and directory. -/
def putSettings (p s : TerminalReplayState) : TerminalReplayState :=
  { s with
    modifyKeyFormat := p.modifyKeyFormat.or s.modifyKeyFormat
    cursorStyle := p.cursorStyle.or s.cursorStyle
    palette := p.palette.entries.foldl (fun d e => d.insert e.1 e.2) s.palette
    dynamicColors := p.dynamicColors.entries.foldl (fun d e => d.insert e.1 e.2) s.dynamicColors
    title := p.title.or s.title
    workingDirectory := p.workingDirectory.or s.workingDirectory }

/-- The link and the scroll region. -/
def putLinkAndRegion (p s : TerminalReplayState) : TerminalReplayState :=
  let s := if p.hyperlinkTouched then s.setHyperlink p.hyperlink else s
  match p.scrollRegion with
  | some (top, bottom) => s.setScrollRegion top bottom
  | none => s

/-- The terminal reset, on its primary screen. -/
def putReset (p s : TerminalReplayState) : TerminalReplayState :=
  (if p.alternateEverUsed then s.setDECMode 1049 false else s).softReset

/-- **The preamble of `p`, as a function on terminals.** -/
def rebuild (p s : TerminalReplayState) : TerminalReplayState :=
  let s := p.putHidden (p.putReset s)
  let s := s.putKitty p.kittyTouched.primary p.kitty.primary
  let s := p.putShown p.hiddenAlternate.2 s
  let s := p.putSettings (p.putModes (p.putSavedModes s))
  p.putLinkAndRegion (s.putCursor (p.shownScreen p.hiddenAlternate.2).2 p.cursor p.charsetsTouched)

/-! ## Reading them

One lemma for each stage: a tracker at rest that reads the part applies the stage. A part is a row
of commands, each with a lemma of its own in PreambleReading. -/

variable {p : TerminalReplayState}

/-- A cursor's pen and charsets are read back as they were written. -/
theorem writes_putCursor {cursor : Cursor} (h : CursorSound cursor) (designated : PreambleWriter)
    (charsetsTouched : Bool) :
    Writes (designated.cursorState cursor charsetsTouched)
      fun s => s.putCursor designated cursor charsetsTouched :=
  writes_cursorState h designated charsetsTouched

/-- DECSC behind a cursor saves the one that was written. -/
theorem writes_putSavedCursor {saved : Option Cursor} (h : ∀ c, saved = some c → CursorSound c)
    (designated : PreambleWriter) :
    Writes (savedCursorState designated saved).1 fun s => s.putSavedCursor designated saved := by
  cases saved with
  | none => exact writes_nil
  | some c => exact (writes_putCursor (h c rfl) designated true).append writes_saveCursor

/-- The stack of keyboard flags is written only when it was touched. -/
theorem writes_putKitty {stack : KittyFlags} (h : stack.Narrow) (touched : Bool) :
    Writes (if touched then kittyRebuild stack else []) fun s => s.putKitty touched stack :=
  writes_ite fun _ => writes_kittyRebuild h

/-- The alternate screen's stack and saved cursor, behind a soft reset that clears the pen. -/
theorem writes_putAlternate (h : Writable p) :
    Writes
      (csi (ascii "!p") ++ (if p.kittyTouched.alternate then kittyRebuild p.kitty.alternate else [])
        ++ (savedCursorState PreambleWriter.fresh p.savedCursor.alternate).1)
      fun s => p.putAlternate s :=
  (writes_softReset.append (writes_putKitty (h.screens.kitty_flags true) _)).append
    (writes_putSavedCursor (h.cursors.saved true) _)

/-- The alternate screen is entered, set up and left again, when there is something to set up. -/
theorem writes_putHidden (h : Writable p) : Writes p.hiddenAlternate.1 fun s => p.putHidden s := by
  have hon : csi (ascii "?1047h") = decModeState 1047 true := by decide
  have hoff : csi (ascii "?1047l") = decModeState 1047 false := by decide
  unfold hiddenAlternate putHidden
  split
  · have hseq := ((@writes_decModeState 1047 (by decide) true).append
      (writes_putAlternate h)).append (@writes_decModeState 1047 (by decide) false)
    simpa only [List.append_assoc, hon, hoff] using hseq
  · exact writes_nil

/-- The primary screen's saved cursor, and the alternate screen on top when it is shown. -/
theorem writes_putShown (h : Writable p) (designated : PreambleWriter) :
    Writes (p.shownScreen designated).1 fun s => p.putShown designated s := by
  have hempty : ∀ c, p.savedCursor.primary.getD {} = c → CursorSound c := by
    rintro c rfl
    cases hc : p.savedCursor.primary with
    | none => exact cursorSound_empty
    | some c => exact h.cursors.saved false c hc
  have hprimary : ∀ c, p.savedCursor.primary = some c → CursorSound c := h.cursors.saved false
  have hentry : p.alternateEntryMode ≤ 65535 := by
    have : ∀ m ∈ alternateScreenModes, m ≤ 65535 := by decide
    exact this _ h.screens.entry
  unfold shownScreen putShown
  split
  · dsimp only
    rw [List.append_assoc]
    have halternate := writes_putAlternate h
    by_cases h1049 : p.alternateEntryMode = 1049
    · rw [if_pos h1049]
      have hon : csi (ascii "?1049h") = decModeState 1049 true := by decide
      have hseq := ((writes_putCursor (hempty _ rfl) designated true).append
        (@writes_decModeState 1049 (by decide) true)).append halternate
      simp only [if_pos h1049]
      simpa only [List.append_assoc, hon] using hseq
    · rw [if_neg h1049]
      have hseq := ((((writes_putSavedCursor hprimary designated).append
        (writes_decModeState hentry true)).append writes_home).append writes_erase).append
          halternate
      simp only [if_neg h1049]
      simpa only [List.append_assoc, decModeState, if_true] using hseq
  · exact writes_putSavedCursor hprimary designated

/-- Each mode XTSAVE recorded is set to what it was saved at, and saved. -/
theorem writes_putSavedModes (h : Writable p) :
    Writes p.savedModesState fun s => p.putSavedModes s := by
  refine writes_flatMap _ fun e he => ?_
  have hmem := (List.mem_filter.mp he).1
  have hle := h.saved_le e.1 e.2 (Dict.mem_entries_iff.mp hmem)
  exact (writes_decModeState hle e.2).append (writes_saveDECMode hle)

/-- Every mode that is tracked can be written as a parameter. -/
theorem tracked_le {m : ℕ} (h : m ∈ trackedDECModes ∨ m ∈ mouseEventModes ∨ m ∈ mouseFormatModes
    ∨ m ∈ trackedANSIModes) : m ≤ 65535 := by
  have hall : ∀ m ∈ trackedDECModes ++ mouseEventModes ++ mouseFormatModes ++ trackedANSIModes,
      m ≤ 65535 := by decide
  refine hall m ?_
  simp only [List.mem_append]
  tauto

/-- One mouse mode is on, or all are off, or none was ever set. -/
theorem writes_putMouse {mode : Option ℕ} {modes : List ℕ}
    (h : ∀ m, mode = some m → m = 0 ∨ m ∈ modes) (hmodes : ∀ m ∈ modes, m ≤ 65535) (off : ℕ)
    (hoff : off ≤ 65535) :
    Writes (mode.elim [] fun m => if m = 0 then decModeState off false else decModeState m true)
      fun s => putMouse mode off s := by
  cases mode with
  | none => exact writes_nil
  | some m =>
    unfold putMouse
    rw [Option.elim_some]
    dsimp only
    split
    · exact writes_decModeState hoff false
    case isFalse hne =>
      exact writes_decModeState (hmodes m ((h m rfl).resolve_left hne)) true

/-- The modes of a preamble with the mouse's written as options, which the stages go by. -/
theorem modesState_eq (p : TerminalReplayState) :
    p.modesState = p.decModes.entries.flatMap (fun e => decModeState e.1 e.2)
      ++ p.mouseEvent.elim []
        (fun m => if m = 0 then decModeState 1000 false else decModeState m true)
      ++ p.mouseFormat.elim []
        (fun m => if m = 0 then decModeState 1006 false else decModeState m true)
      ++ p.ansiModes.entries.flatMap fun e =>
        csi (decimal e.1 ++ ascii (if e.2 then "h" else "l")) := by
  have hevent : csi (ascii "?1000l") = decModeState 1000 false := by decide
  have hformat : csi (ascii "?1006l") = decModeState 1006 false := by decide
  rw [modesState, hevent, hformat]
  cases p.mouseEvent <;> cases p.mouseFormat <;> rfl

/-- DEC modes, the two mouse modes and ANSI modes, one command each. -/
theorem writes_putModes (h : Writable p) : Writes p.modesState fun s => p.putModes s := by
  have hdec : Writes (p.decModes.entries.flatMap fun e => decModeState e.1 e.2) fun s =>
      p.decModes.entries.foldl (fun s e => s.setDECMode e.1 e.2) s :=
    writes_flatMap _ fun e he => writes_decModeState
      (tracked_le (Or.inl (h.dec e.1 e.2 (Dict.mem_entries_iff.mp he)))) e.2
  have hansi : Writes (p.ansiModes.entries.flatMap fun e =>
      csi (decimal e.1 ++ ascii (if e.2 then "h" else "l"))) fun s =>
      p.ansiModes.entries.foldl (fun s e => s.setANSIMode e.1 e.2) s :=
    writes_flatMap _ fun e he => writes_setANSIMode
      (tracked_le (Or.inr (Or.inr (Or.inr (h.ansi e.1 e.2 (Dict.mem_entries_iff.mp he)))))) e.2
  have hevent := writes_putMouse h.event (fun m hm => tracked_le (Or.inr (Or.inl hm)))
    1000 (by decide)
  have hformat := writes_putMouse h.format (fun m hm => tracked_le (Or.inr (Or.inr (Or.inl hm))))
    1006 (by decide)
  rw [modesState_eq]
  exact ((hdec.append hevent).append hformat).append hansi

/-- Colors inserted one by one change the palette alone. -/
theorem foldl_palette (s : TerminalReplayState) (es : List (ℕ × List UInt8)) :
    es.foldl (fun s e => { s with palette := s.palette.insert e.1 e.2 }) s
      = { s with palette := es.foldl (fun d e => d.insert e.1 e.2) s.palette } := by
  induction es generalizing s with
  | nil => rfl
  | cons e es ih => rw [List.foldl_cons, ih]; rfl

/-- And so for the dynamic colors. -/
theorem foldl_dynamicColors (s : TerminalReplayState) (es : List (ℕ × List UInt8)) :
    es.foldl (fun s e => { s with dynamicColors := s.dynamicColors.insert e.1 e.2 }) s
      = { s with dynamicColors := es.foldl (fun d e => d.insert e.1 e.2) s.dynamicColors } := by
  induction es generalizing s with
  | nil => rfl
  | cons e es ih => rw [List.foldl_cons, ih]; rfl

/-- A piece for a setting that may never have been touched. -/
theorem writes_option {α : Type*} (value : Option α) {piece : α → List UInt8}
    {f : Option α → TerminalReplayState → TerminalReplayState} (hnone : ∀ s, f none s = s)
    (h : ∀ a, value = some a → Writes (piece a) (f (some a))) :
    Writes (value.elim [] piece) (f value) := by
  cases value with
  | none => exact writes_nil.congr fun s => (hnone s).symm
  | some a => exact h a rfl

/-- The settings of a preamble, one option or one table each. -/
theorem settingsState_eq (p : TerminalReplayState) :
    p.settingsState = p.modifyKeyFormat.elim [] (fun f => [0x1B, 0x5B] ++ f)
      ++ p.cursorStyle.elim [] (fun v => csi (decimal v ++ ascii " q"))
      ++ p.palette.entries.flatMap (fun e => osc (ascii "4;" ++ decimal e.1 ++ ascii ";" ++ e.2))
      ++ p.dynamicColors.entries.flatMap (fun e => dynamicColorState e.1 e.2)
      ++ p.title.elim [] (fun text => osc (ascii "2;" ++ text))
      ++ p.workingDirectory.elim [] fun text => osc (ascii "7;" ++ text) := by
  rw [settingsState]
  cases p.modifyKeyFormat <;> cases p.cursorStyle <;> cases p.title <;>
    cases p.workingDirectory <;> rfl

/-- Every setting is read back as it was written. -/
theorem writes_putSettings (h : Writable p) : Writes p.settingsState fun s => p.putSettings s := by
  have hsettings := h.settings
  have hformat := writes_option p.modifyKeyFormat
    (f := fun v s => { s with modifyKeyFormat := v.or s.modifyKeyFormat }) (fun _ => rfl)
      fun f hf => by
      obtain ⟨colons, params, final, hkey⟩ := hsettings.modifyKeyFormat f hf
      exact writes_modifyKeyFormat hkey
  have hstyle := writes_option p.cursorStyle
    (f := fun v s => { s with cursorStyle := v.or s.cursorStyle }) (fun _ => rfl) fun v hv =>
      writes_cursorStyle (hsettings.cursorStyle v hv)
  have hpalette := (writes_flatMap p.palette.entries fun e he =>
    writes_palette (hsettings.palette e.1 e.2 (Dict.mem_entries_iff.mp he))).congr
      fun s => foldl_palette s _
  have hdynamic := (writes_flatMap p.dynamicColors.entries fun e he =>
    writes_dynamicColor (hsettings.dynamicColors e.1 e.2 (Dict.mem_entries_iff.mp he))).congr
      fun s => foldl_dynamicColors s _
  have htitle := writes_option p.title
    (f := fun v s => { s with title := v.or s.title }) (fun _ => rfl) fun text ht =>
      writes_title (hsettings.title text ht)
  have hdirectory := writes_option p.workingDirectory
    (f := fun v s => { s with workingDirectory := v.or s.workingDirectory }) (fun _ => rfl)
      fun text ht => writes_workingDirectory (hsettings.workingDirectory text ht)
  rw [settingsState_eq]
  exact ((((hformat.append hstyle).append hpalette).append hdynamic).append htitle).append
    hdirectory

/-- The hyperlink that is open, and the scroll region, which puts the cursor at home. -/
theorem writes_putLinkAndRegion (h : Writable p) :
    Writes p.linkAndRegionState fun s => p.putLinkAndRegion s := by
  have hlink := writes_ite (c := p.hyperlinkTouched = true) fun _ =>
    writes_hyperlink fun text ht => (h.settings.hyperlink text ht).1
  unfold linkAndRegionState putLinkAndRegion
  cases hr : p.scrollRegion with
  | none => exact hlink.append writes_nil
  | some r =>
    obtain ⟨-, htop, hbottom, -⟩ := h.settings.scrollRegion r hr
    exact hlink.append (writes_scrollRegion htop hbottom)

/-- The reset a preamble begins with: the primary screen, soft reset, home and an empty screen. -/
theorem writes_putReset :
    Writes ((if p.alternateEverUsed then csi (ascii "?1049l") else []) ++ csi (ascii "!p")
      ++ csi (ascii "H") ++ csi (ascii "2J")) fun s => p.putReset s := by
  have hoff : csi (ascii "?1049l") = decModeState 1049 false := by decide
  have hswitch := writes_ite (c := p.alternateEverUsed = true) fun _ =>
    @writes_decModeState 1049 (by decide) false
  rw [hoff]
  exact (((hswitch.append writes_softReset).append writes_home).append writes_erase).congr
    fun s => by rw [putReset]

/-- **A preamble is read as its rebuild.** -/
theorem writes_preamble (h : Writable p) : Writes p.preamble fun s => p.rebuild s := by
  unfold preamble rebuild
  dsimp only
  exact (((((((((writes_putReset (p := p)).append (writes_putHidden h)).append
    (writes_putKitty (h.screens.kitty_flags false) p.kittyTouched.primary)).append
    (writes_putShown h p.hiddenAlternate.2)).append (writes_putSavedModes h)).append
    (writes_putModes h)).append (writes_putSettings h)).append
    (writes_putCursor h.cursors.cursor (p.shownScreen p.hiddenAlternate.2).2
      p.charsetsTouched)).append
    (writes_putLinkAndRegion h)).append writes_home

end TerminalReplayState
