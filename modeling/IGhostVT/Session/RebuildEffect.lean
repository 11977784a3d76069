import IGhostVT.Session.Rebuild

/-!
# Session/RebuildEffect — a rebuilt terminal holds what was written

The effect of `rebuild p` on any terminal whose settings `p` covers.  `Blank` is what the resets
leave of the settings until they are written, `Settled` what the screens' cursors may leave of the
charsets; each stage keeps them, and the last ones put every setting in place.
-/

namespace TerminalReplayState

open TerminalStreamTracker

/-! ## Equal by effect -/

/-- A slot's set, the initial UTF-8 set and ASCII being the same. -/
def slotEffect (slot : UInt8) : UInt8 := if slot = 0 then 0x42 else slot

/-- Charsets equal by effect. -/
structure SameCharsets (a b : Charsets) : Prop where
  slots : ∀ i, slotEffect (a.slots i) = slotEffect (b.slots i)
  gl : a.gl = b.gl
  gr : a.gr = b.gr

/-- Pens and charsets equal by effect. -/
structure SameCursor (a b : Cursor) : Prop where
  pen : a.pen = b.pen
  charsets : SameCharsets a.charsets b.charsets

/-- Charsets have their own effect. -/
theorem SameCharsets.refl (a : Charsets) : SameCharsets a a := ⟨fun _ => rfl, rfl, rfl⟩

/-- And so has a cursor. -/
theorem SameCursor.refl (a : Cursor) : SameCursor a a := ⟨rfl, .refl _⟩

/-! ## Covering -/

/-- Every setting of `u` is one of `p`'s: what a preamble of `p` undoes in a reused terminal. -/
structure Covers (p u : TerminalReplayState) : Prop where
  dec : ∀ m, (u.decModes.get? m).isSome → (p.decModes.get? m).isSome
  ansi : ∀ m, (u.ansiModes.get? m).isSome → (p.ansiModes.get? m).isSome
  event : u.mouseEvent.isSome → p.mouseEvent.isSome
  format : u.mouseFormat.isSome → p.mouseFormat.isSome
  keyFormat : u.modifyKeyFormat.isSome → p.modifyKeyFormat.isSome
  style : u.cursorStyle.isSome → p.cursorStyle.isSome
  dynamic : ∀ i, (u.dynamicColors.get? i).isSome → (p.dynamicColors.get? i).isSome
  title : u.title.isSome → p.title.isSome
  link : u.hyperlinkTouched = true → p.hyperlinkTouched = true
  alternate : u.alternateEverUsed = true → p.alternateEverUsed = true
  kitty : ∀ b, u.kittyTouched.get b = true → p.kittyTouched.get b = true
  /-- A cursor saved with origin mode on touched the mode. -/
  origin : ∀ b c, u.savedCursor.get b = some c → c.origin = true → (p.decModes.get? 6).isSome

/-- Every state covers a new terminal. -/
theorem covers_empty (p : TerminalReplayState) : Covers p {} where
  dec := by simp
  ansi := by simp
  event := by simp
  format := by simp
  keyFormat := by simp
  style := by simp
  dynamic := by simp
  title := by simp
  link := by simp
  alternate := by simp
  kitty b := by cases b <;> simp
  origin b c h := by cases b <;> simp at h

/-- What is left of a covered terminal's settings before they are written. -/
structure Held (p u s : TerminalReplayState) : Prop where
  dec : ∀ m, (s.decModes.get? m).isSome → (p.decModes.get? m).isSome
  saved : s.savedDECModes = u.savedDECModes
  ansi : ∀ m, (s.ansiModes.get? m).isSome → (p.ansiModes.get? m).isSome
  event : s.mouseEvent.isSome → p.mouseEvent.isSome
  format : s.mouseFormat.isSome → p.mouseFormat.isSome
  keyFormat : s.modifyKeyFormat.isSome → p.modifyKeyFormat.isSome
  style : s.cursorStyle.isSome → p.cursorStyle.isSome
  dynamic : ∀ i, (s.dynamicColors.get? i).isSome → (p.dynamicColors.get? i).isSome
  title : s.title.isSome → p.title.isSome
  directory : s.workingDirectory = u.workingDirectory
  link : s.hyperlink.isSome → p.hyperlinkTouched = true

/-- The same once reset, the palette and the scroll region gone. -/
structure Blank (p u s : TerminalReplayState) : Prop extends Held p u s where
  palette : s.palette = ∅
  region : s.scrollRegion = none

variable {p u s : TerminalReplayState}

/-- A change of the screens alone, an open link possibly ended. -/
theorem Blank.congr {s' : TerminalReplayState} (h : Blank p u s) (hdec : s'.decModes = s.decModes)
    (hsaved : s'.savedDECModes = s.savedDECModes) (hansi : s'.ansiModes = s.ansiModes)
    (hevent : s'.mouseEvent = s.mouseEvent) (hformat : s'.mouseFormat = s.mouseFormat)
    (hkey : s'.modifyKeyFormat = s.modifyKeyFormat) (hstyle : s'.cursorStyle = s.cursorStyle)
    (hdynamic : s'.dynamicColors = s.dynamicColors) (htitle : s'.title = s.title)
    (hdirectory : s'.workingDirectory = s.workingDirectory)
    (hlink : s'.hyperlink = s.hyperlink ∨ s'.hyperlink = none) (hpalette : s'.palette = s.palette)
    (hregion : s'.scrollRegion = s.scrollRegion) : Blank p u s' where
  dec := by rw [hdec]; exact h.dec
  saved := hsaved.trans h.saved
  ansi := by rw [hansi]; exact h.ansi
  event := by rw [hevent]; exact h.event
  format := by rw [hformat]; exact h.format
  keyFormat := by rw [hkey]; exact h.keyFormat
  style := by rw [hstyle]; exact h.style
  dynamic := by rw [hdynamic]; exact h.dynamic
  title := by rw [htitle]; exact h.title
  directory := hdirectory.trans h.directory
  link := by
    rcases hlink with hlink | hlink
    · rw [hlink]; exact h.link
    · simp [hlink]
  palette := hpalette.trans h.palette
  region := hregion.trans h.region

/-- Saving the cursor sets nothing else. -/
theorem Blank.saveCursor (h : Blank p u s) : Blank p u s.saveCursor :=
  h.congr rfl rfl rfl rfl rfl rfl rfl rfl rfl rfl (Or.inl rfl) rfl rfl

/-- Setting it sets nothing but pen and charsets. -/
theorem Blank.putCursor (h : Blank p u s) (designated : PreambleWriter) (c : Cursor)
    (touched : Bool) :
    Blank p u (s.putCursor designated c touched) := by
  unfold TerminalReplayState.putCursor
  split
  all_goals exact h.congr rfl rfl rfl rfl rfl rfl rfl rfl rfl rfl (Or.inl rfl) rfl rfl

/-- Nor does saving the one it is set to. -/
theorem Blank.putSavedCursor (h : Blank p u s) (designated : PreambleWriter)
    (saved : Option Cursor) :
    Blank p u (s.putSavedCursor designated saved) := by
  cases saved with
  | none => exact h
  | some c => exact (h.putCursor designated c true).saveCursor

/-- Keyboard flags belong to a screen. -/
theorem Blank.putKitty (h : Blank p u s) (touched : Bool) (stack : KittyFlags) :
    Blank p u (s.putKitty touched stack) := by
  unfold TerminalReplayState.putKitty
  split
  · exact h.congr rfl rfl rfl rfl rfl rfl rfl rfl rfl rfl (Or.inl rfl) rfl rfl
  · exact h

/-- A soft reset clears what is left. -/
theorem Held.softReset (h : Held p u s)
    (hregion : s.scrollRegion.isSome → s.scrollRegionTouched = true) : Blank p u s.softReset := by
  have hdec := s.softReset_decModes
  have hansi := s.softReset_ansiModes
  refine
    { dec := fun m hm => h.dec m (by simpa [hdec] using hm)
      saved := by rw [TerminalReplayState.softReset]; exact h.saved
      ansi := fun m hm => h.ansi m (by simpa [hansi] using hm)
      event := by rw [TerminalReplayState.softReset]; exact h.event
      format := by rw [TerminalReplayState.softReset]; exact h.format
      keyFormat := by rw [TerminalReplayState.softReset]; simpa using h.keyFormat
      style := by rw [TerminalReplayState.softReset]; simpa using h.style
      dynamic := by rw [TerminalReplayState.softReset]; exact h.dynamic
      title := by rw [TerminalReplayState.softReset]; exact h.title
      directory := by rw [TerminalReplayState.softReset]; exact h.directory
      link := by rw [TerminalReplayState.softReset]; exact h.link
      palette := by rw [TerminalReplayState.softReset]
      region := ?_ }
  rw [TerminalReplayState.softReset]
  dsimp only
  split
  · rfl
  case isFalse htouched => exact Option.not_isSome_iff_eq_none.mp fun h => htouched (hregion h)

/-- A second one has nothing left to clear. -/
theorem Blank.softReset (h : Blank p u s) : Blank p u s.softReset :=
  h.toHeld.softReset (by simp [h.region])

/-- A screen switch that restores no cursor. -/
theorem setDECMode_switch {m : ℕ} (hm : m ∈ alternateScreenModes) (enabled : Bool)
    (s : TerminalReplayState) : s.setDECMode m enabled
      = switchScreen { s with alternateModeBits := s.alternateModeBits.insert m enabled } m
        enabled := by
  have hnot : ∀ m ∈ alternateScreenModes, m ∉ trackedDECModes ∧ m ∉ mouseEventModes ∧
      m ∉ mouseFormatModes := by decide
  obtain ⟨h1, h2, h3⟩ := hnot m hm
  rw [setDECMode, if_neg h1, if_neg h2, if_neg h3, if_pos hm]

/-- Switching screens sets nothing but the screen. -/
theorem Blank.switch (h : Blank p u s) {m : ℕ} (hm : m ∈ alternateScreenModes) {enabled : Bool}
    (hswitch : enabled = true ∨ m ≠ 1049) : Blank p u (s.setDECMode m enabled) := by
  rw [setDECMode_switch hm]
  unfold switchScreen
  dsimp only
  have hsave : ∀ s, Blank p u s → Blank p u (if m == 1049 && enabled then s.saveCursor else s) := by
    intro s hs
    split
    exacts [hs.saveCursor, hs]
  have hactive : ∀ s, Blank p u s → Blank p u (if enabled != s.isAlternateActive then
      { s with hyperlink := none, isAlternateActive := enabled } else s) := by
    intro s hs
    split
    exacts [hs.congr rfl rfl rfl rfl rfl rfl rfl rfl rfl rfl (Or.inr rfl) rfl rfl, hs]
  have hbits : Blank p u { s with alternateModeBits := s.alternateModeBits.insert m enabled } :=
    h.congr rfl rfl rfl rfl rfl rfl rfl rfl rfl rfl (Or.inl rfl) rfl rfl
  have hdone := hactive _ (hsave _ hbits)
  split
  · exact hdone.congr rfl rfl rfl rfl rfl rfl rfl rfl rfl rfl (Or.inl rfl) rfl rfl
  case isFalse hoff =>
    have hne : ¬ (m == 1049) = true := by
      rcases hswitch with h | h
      · exact absurd h hoff
      · simpa using h
    rw [if_neg hne]
    exact hdone

/-- So the alternate screen may be set up. -/
theorem Blank.putAlternate (h : Blank p u s) : Blank p u (p.putAlternate s) :=
  (h.softReset.putKitty _ _).putSavedCursor _ _

/-- And left again. -/
theorem Blank.putHidden (h : Blank p u s) : Blank p u (p.putHidden s) := by
  unfold TerminalReplayState.putHidden
  split
  · exact ((h.switch (by decide) (Or.inl rfl)).putAlternate).switch (by decide) (Or.inr (by decide))
  · exact h

/-- Or stay shown. -/
theorem Blank.putShown (h : Blank p u s) (hentry : p.alternateEntryMode ∈ alternateScreenModes)
    (designated : PreambleWriter) : Blank p u (p.putShown designated s) := by
  unfold TerminalReplayState.putShown
  split
  · refine Blank.putAlternate ?_
    split
    · exact (h.putCursor _ _ _).switch (by decide) (Or.inl rfl)
    · exact (h.putSavedCursor _ _).switch hentry (Or.inl rfl)
  · exact h.putSavedCursor _ _

/-! ## The screens, stage by stage -/

/-- The charsets a preamble's writer may find: initial but where it designated. -/
structure Settled (touched : Bool) (designated : PreambleWriter) (charsets : Charsets) : Prop where
  slots : ∀ i, designated i = false → charsets.slots i = 0
  untouched : touched = false → charsets = {} ∧ designated = PreambleWriter.fresh

/-- A new terminal is settled. -/
theorem settled_empty (touched : Bool) : Settled touched PreambleWriter.fresh {} :=
  ⟨fun _ _ => rfl, fun _ => ⟨rfl, rfl⟩⟩

/-- Charsets at their defaults leave nothing designated. -/
theorem after_fresh {c : Cursor} (h : c.charsets = {}) :
    PreambleWriter.fresh.after c = PreambleWriter.fresh := by
  funext i
  rw [PreambleWriter.after, h]
  rfl

/-- A cursor written over settled charsets is in place, and leaves them settled. -/
theorem Settled.putCursor {touched : Bool} {designated : PreambleWriter}
    (h : Settled touched designated s.cursor.charsets) {c : Cursor}
    (hc : touched = false → c.charsets = {}) :
    SameCursor (s.putCursor designated c true).cursor c ∧
      Settled touched (designated.after c) (s.putCursor designated c true).cursor.charsets := by
  rw [TerminalReplayState.putCursor, Bool.true_or, if_pos rfl]
  refine ⟨⟨rfl, ⟨fun i => ?_, rfl, rfl⟩⟩, fun i hi => ?_, fun ht => ?_⟩
  · dsimp only [writtenSlots]
    split_ifs with hslot hdesignated
    · rfl
    · rw [not_not.mp hslot]; rfl
    · rw [not_not.mp hslot, h.slots i (by simpa using hdesignated)]
  · simp only [PreambleWriter.after, Bool.or_eq_false_iff, bne_eq_false_iff_eq] at hi
    dsimp only [writtenSlots]
    rw [if_neg (by simpa using hi.2), hi.1]
    exact h.slots i hi.1
  · obtain ⟨hs, rfl⟩ := h.untouched ht
    refine ⟨?_, after_fresh (hc ht)⟩
    rw [hc ht, hs]
    rfl

/-- A cursor written with its charsets left out when nothing ever touched one. -/
theorem Settled.sameCursor {touched : Bool} {designated : PreambleWriter}
    (h : Settled touched designated s.cursor.charsets) {c : Cursor}
    (hc : touched = false → c.charsets = {}) :
    SameCursor (s.putCursor designated c touched).cursor c := by
  cases touched with
  | true => exact (h.putCursor hc).1
  | false =>
    obtain ⟨hs, rfl⟩ := h.untouched rfl
    have hany : (List.finRange 4).any PreambleWriter.fresh = false := by decide
    rw [TerminalReplayState.putCursor, hany, Bool.or_self, if_neg Bool.false_ne_true]
    refine ⟨rfl, ?_⟩
    rw [hc rfl]
    exact hs ▸ .refl _

/-- Setting a cursor shows no other screen. -/
theorem putCursor_isAlternateActive (designated : PreambleWriter) (c : Cursor) (touched : Bool) :
    (s.putCursor designated c touched).isAlternateActive = s.isAlternateActive := by
  rw [TerminalReplayState.putCursor]; split <;> rfl

/-- It pushes no keyboard flags. -/
theorem putCursor_kitty (designated : PreambleWriter) (c : Cursor) (touched : Bool) :
    (s.putCursor designated c touched).kitty = s.kitty := by
  rw [TerminalReplayState.putCursor]; split <;> rfl

/-- And it saves nothing. -/
theorem putCursor_savedCursor (designated : PreambleWriter) (c : Cursor) (touched : Bool) :
    (s.putCursor designated c touched).savedCursor = s.savedCursor := by
  rw [TerminalReplayState.putCursor]; split <;> rfl

/-- What the writer knows of the screens between two stages. -/
structure Stage (p s : TerminalReplayState) (active : Bool) (designated : PreambleWriter) :
    Prop where
  active : s.isAlternateActive = active
  settled : Settled p.charsetsTouched designated s.cursor.charsets
  kitty : ∀ b, p.kittyTouched.get b = false → s.kitty.get b = p.kitty.get b

/-- A screen's saved cursor is in place. -/
def SavedAs (p s : TerminalReplayState) (b : Bool) : Prop :=
  SameCursor ((s.savedCursor.get b).getD {}) ((p.savedCursor.get b).getD {})

variable {active : Bool} {designated : PreambleWriter}

/-- The cursor of a stage may be set. -/
theorem Stage.putCursor (h : Stage p s active designated) {c : Cursor}
    (hc : p.charsetsTouched = false → c.charsets = {}) :
    Stage p (s.putCursor designated c true) active (designated.after c) where
  active := (putCursor_isAlternateActive ..).trans h.active
  settled := (h.settled.putCursor hc).2
  kitty b hb := by rw [putCursor_kitty]; exact h.kitty b hb

/-- It may be saved. -/
theorem Stage.saveCursor (h : Stage p s active designated) :
    Stage p s.saveCursor active designated :=
  ⟨h.active, h.settled, h.kitty⟩

/-- And set for being saved. -/
theorem Stage.putSavedCursor (h : Stage p s active designated) {saved : Option Cursor}
    (hc : p.charsetsTouched = false → ∀ c, saved = some c → c.charsets = {}) :
    Stage p (s.putSavedCursor designated saved) active (savedCursorState designated saved).2 := by
  cases saved with
  | none => exact h
  | some c => exact (h.putCursor fun ht => hc ht c rfl).saveCursor

/-- The active screen's saved cursor put in place, where none was left. -/
theorem Stage.savedAs (h : Stage p s active designated)
    (hc : p.charsetsTouched = false → ∀ c, p.savedCursor.get active = some c → c.charsets = {})
    (hnone : s.savedCursor.get active = none) :
    SavedAs p (s.putSavedCursor designated (p.savedCursor.get active)) active := by
  unfold SavedAs
  cases hsaved : p.savedCursor.get active with
  | none =>
    rw [TerminalReplayState.putSavedCursor, hnone]
    exact .refl _
  | some c =>
    have hcursor := (h.settled.putCursor fun ht => hc ht c hsaved).1
    simpa [TerminalReplayState.putSavedCursor, TerminalReplayState.saveCursor,
      putCursor_isAlternateActive, h.active, Screens.get_set] using hcursor

/-- Which pushes no keyboard flags either. -/
theorem putSavedCursor_kitty (designated : PreambleWriter) (saved : Option Cursor) :
    (s.putSavedCursor designated saved).kitty = s.kitty := by
  cases saved with
  | none => rfl
  | some c => exact putCursor_kitty (s := s) designated c true

/-- Saving a cursor leaves the other screen's alone. -/
theorem putSavedCursor_other (designated : PreambleWriter) (saved : Option Cursor) {b : Bool}
    (hb : s.isAlternateActive ≠ b) :
    (s.putSavedCursor designated saved).savedCursor.get b = s.savedCursor.get b := by
  cases saved with
  | none => rfl
  | some c =>
    simp [TerminalReplayState.putSavedCursor, TerminalReplayState.saveCursor,
      putCursor_isAlternateActive, putCursor_savedCursor, Screens.get_set, hb]

/-- Keyboard flags are set for the screen that is shown. -/
theorem putKitty_kitty (touched : Bool) (stack : KittyFlags) (b : Bool) :
    (s.putKitty touched stack).kitty.get b
      = if touched = true ∧ s.isAlternateActive = b then stack else s.kitty.get b := by
  cases touched <;> simp [TerminalReplayState.putKitty, changeKitty, Screens.get_set]

/-- They are no part of a saved cursor. -/
theorem putKitty_savedCursor (touched : Bool) (stack : KittyFlags) :
    (s.putKitty touched stack).savedCursor = s.savedCursor := by
  cases touched <;> rfl

/-- The active screen's flags put in place. -/
theorem Stage.putKitty (h : Stage p s active designated) :
    Stage p (s.putKitty (p.kittyTouched.get active) (p.kitty.get active)) active designated ∧
      (s.putKitty (p.kittyTouched.get active) (p.kitty.get active)).kitty.get active
        = p.kitty.get active := by
  have hset : ∀ b, (p.kittyTouched.get b = false ∨ b = active) →
      (s.putKitty (p.kittyTouched.get active) (p.kitty.get active)).kitty.get b =
      p.kitty.get b := by
    intro b hb
    rw [putKitty_kitty, h.active]
    split_ifs with ht
    · rw [ht.2]
    · rcases hb with hb | rfl
      · exact h.kitty b hb
      · exact h.kitty b (by simpa using ht)
  refine ⟨⟨?_, ?_, fun b hb => hset b (Or.inl hb)⟩, hset active (Or.inr rfl)⟩
  · cases p.kittyTouched.get active <;> exact h.active
  · cases p.kittyTouched.get active <;> exact h.settled

/-! ## Switching -/

/-- A soft reset brings charsets back to their defaults. -/
theorem Stage.softReset (h : Stage p s active designated) :
    Stage p s.softReset active PreambleWriter.fresh where
  active := by rw [TerminalReplayState.softReset]; exact h.active
  settled := by rw [TerminalReplayState.softReset]; exact settled_empty _
  kitty b hb := by rw [TerminalReplayState.softReset]; exact h.kitty b hb

/-- And clears the saved cursor of the screen that is shown. -/
theorem softReset_savedCursor (b : Bool) :
    s.softReset.savedCursor.get b =
      if s.isAlternateActive = b then none else s.savedCursor.get b := by
  rw [TerminalReplayState.softReset]
  exact Screens.get_set ..

/-- The alternate screen entered. -/
theorem setDECMode_enter {m : ℕ} (hm : m ∈ alternateScreenModes)
    (hs : s.isAlternateActive = false) :
    s.setDECMode m true =
      { (if m = 1049 then s.saveCursor else s) with
        alternateModeBits := s.alternateModeBits.insert m true
        hyperlink := none
        isAlternateActive := true
        alternateEntryMode := m
        alternateEverUsed := true } := by
  rw [setDECMode_switch hm, switchScreen]
  by_cases h1049 : m = 1049
  · subst h1049
    simp [TerminalReplayState.saveCursor, hs]
  · simp [h1049, hs]

/-- The alternate screen left, with no cursor restored. -/
theorem setDECMode_exit (hs : s.isAlternateActive = true) :
    s.setDECMode 1047 false =
      { s with
        alternateModeBits := s.alternateModeBits.insert 1047 false
        hyperlink := none
        isAlternateActive := false } := by
  rw [setDECMode_switch (by decide), switchScreen]
  simp [hs]

/-- The alternate screen is entered from the primary one. -/
theorem Stage.enter (h : Stage p s false designated) {m : ℕ} (hm : m ∈ alternateScreenModes) :
    Stage p (s.setDECMode m true) true designated := by
  rw [setDECMode_enter hm h.active]
  refine ⟨rfl, ?_, ?_⟩ <;> split
  exacts [h.settled, h.settled, h.kitty, h.kitty]

/-- The alternate screen filled: its flags and saved cursor, and nothing of the primary one's. -/
theorem Stage.putAlternate (hp : Writable p) (h : Stage p s true designated) :
    Stage p (p.putAlternate s) true
        (savedCursorState PreambleWriter.fresh p.savedCursor.alternate).2 ∧
      (p.putAlternate s).kitty.get true = p.kitty.get true ∧ SavedAs p (p.putAlternate s) true ∧
      (p.putAlternate s).kitty.get false = s.kitty.get false ∧
      (p.putAlternate s).savedCursor.get false = s.savedCursor.get false := by
  have hreset := h.softReset
  obtain ⟨hstage, hkitty⟩ := hreset.putKitty
  have huntouched := fun ht => hp.cursors.saved_untouched ht true
  rw [TerminalReplayState.putAlternate]
  refine ⟨hstage.putSavedCursor huntouched, ?_, hstage.savedAs huntouched ?_, ?_, ?_⟩
  · rw [putSavedCursor_kitty]
    exact hkitty
  · rw [putKitty_savedCursor, softReset_savedCursor, if_pos h.active]
  · rw [putSavedCursor_kitty, putKitty_kitty, hreset.active, if_neg (by simp),
      TerminalReplayState.softReset]
  · have hother :
        (s.softReset.putKitty p.kittyTouched.alternate p.kitty.alternate).isAlternateActive
        ≠ false := fun hne => absurd (hstage.active.symm.trans hne) (by decide)
    rw [putSavedCursor_other _ _ hother, putKitty_savedCursor, softReset_savedCursor, h.active,
      if_neg (by decide)]

/-- What the resets leave of the screens. -/
structure Reset (p u s : TerminalReplayState) :
    Prop extends Stage p s false PreambleWriter.fresh where
  primary : s.savedCursor.get false = none
  alternate : s.savedCursor.get true = u.savedCursor.get true

/-- The hidden alternate screen filled. -/
theorem Reset.putHidden (hp : Writable p) (h : Reset p u s)
    (hused : p.alternateEverUsed = false → u.savedCursor.get true = none) :
    Stage p (p.putHidden s) false p.hiddenAlternate.2 ∧
      (p.putHidden s).savedCursor.get false = none ∧
      (p.isAlternateActive = false → (p.putHidden s).kitty.get true = p.kitty.get true ∧
        SavedAs p (p.putHidden s) true) := by
  unfold TerminalReplayState.putHidden hiddenAlternate
  by_cases hhidden : (p.alternateEverUsed && !p.isAlternateActive) = true
  · rw [if_pos hhidden, if_pos hhidden]
    have henter := h.toStage.enter (m := 1047) (by decide)
    obtain ⟨hstage, hkitty, hsaved, -, hprimary⟩ := henter.putAlternate hp
    have hentered : (s.setDECMode 1047 true).savedCursor.get false = none := by
      rw [setDECMode_enter (by decide) h.active]
      exact h.primary
    rw [setDECMode_exit hstage.active]
    exact ⟨⟨rfl, hstage.settled, hstage.kitty⟩, hprimary.trans hentered, fun _ => ⟨hkitty, hsaved⟩⟩
  · rw [if_neg hhidden, if_neg hhidden]
    refine ⟨h.toStage, h.primary, fun hactive => ?_⟩
    have hunused : p.alternateEverUsed = false := by simpa [hactive] using hhidden
    have hkitty : p.kittyTouched.alternate = false := by
      by_contra hne
      exact absurd (hp.screens.kitty_used (by simpa using hne)) (by simp [hunused])
    have hsaved : p.savedCursor.get true = none := by
      by_contra hne
      exact absurd (hp.screens.saved_used (Option.isSome_iff_ne_none.mpr hne)) (by simp [hunused])
    refine ⟨h.kitty true hkitty, ?_⟩
    rw [SavedAs, h.alternate, hused hunused, hsaved]
    exact .refl _

/-- The screen shown, both of them filled. -/
theorem Stage.putShown (hp : Writable p) (h : Stage p s false designated)
    (hkitty : s.kitty.get false = p.kitty.get false) (hnone : s.savedCursor.get false = none)
    (halternate : p.isAlternateActive = false → s.kitty.get true = p.kitty.get true ∧
    SavedAs p s true) :
    Stage p (p.putShown designated s) p.isAlternateActive (p.shownScreen designated).2 ∧
      ∀ b, (p.putShown designated s).kitty.get b = p.kitty.get b ∧
        SavedAs p (p.putShown designated s) b := by
  have huntouched := fun ht => hp.cursors.saved_untouched ht false
  have hsaved := h.savedAs huntouched hnone
  unfold TerminalReplayState.putShown shownScreen
  by_cases hactive : p.isAlternateActive = true
  · rw [if_pos hactive, if_pos hactive, hactive]
    -- Entering through 1049 saves the primary cursor, through another mode it was saved before.
    have hentered : ∃ e designated', e = (if p.alternateEntryMode = 1049 then
        (s.putCursor designated (p.savedCursor.primary.getD {}) true).setDECMode 1049 true
        else (s.putSavedCursor designated p.savedCursor.primary).setDECMode
          p.alternateEntryMode true)
        ∧ Stage p e true designated' ∧ e.kitty.get false = p.kitty.get false ∧
          SavedAs p e false := by
      by_cases h1049 : p.alternateEntryMode = 1049
      · have huntouched' : p.charsetsTouched = false →
            (p.savedCursor.primary.getD {}).charsets = {} := by
          intro ht
          cases hc : p.savedCursor.primary with
          | none => rfl
          | some c => exact huntouched ht c hc
        have hput := h.putCursor huntouched'
        refine ⟨_, _, (if_pos h1049).symm, hput.enter (by decide), ?_, ?_⟩
        · rw [setDECMode_enter (by decide) hput.active, if_pos rfl]
          simpa [TerminalReplayState.saveCursor, putCursor_kitty] using hkitty
        · have hcursor := (h.settled.putCursor huntouched').1
          rw [SavedAs, setDECMode_enter (by decide) hput.active, if_pos rfl]
          simpa [TerminalReplayState.saveCursor, hput.active] using hcursor
      · have hput : Stage p (s.putSavedCursor designated p.savedCursor.primary) false
            (savedCursorState designated p.savedCursor.primary).2 := h.putSavedCursor huntouched
        refine ⟨_, _, (if_neg h1049).symm, hput.enter hp.screens.entry, ?_, ?_⟩
        · rw [setDECMode_enter hp.screens.entry hput.active, if_neg h1049]
          exact (congrArg (Screens.get · false) (putSavedCursor_kitty ..)).trans hkitty
        · rw [SavedAs, setDECMode_enter hp.screens.entry hput.active, if_neg h1049]
          exact hsaved
    obtain ⟨e, designated', rfl, hstage, hprimary, hsavedPrimary⟩ := hentered
    obtain ⟨hdone, hkitty', hsaved', hkittyOther, hsavedOther⟩ := hstage.putAlternate hp
    refine ⟨hdone, fun b => ?_⟩
    cases b with
    | true => exact ⟨hkitty', hsaved'⟩
    | false =>
      refine ⟨hkittyOther.trans hprimary, ?_⟩
      rw [SavedAs, hsavedOther]
      exact hsavedPrimary
  · have hactive : p.isAlternateActive = false := by simpa using hactive
    rw [if_neg (by simp [hactive]), if_neg (by simp [hactive]), hactive]
    obtain ⟨hkitty', hsaved'⟩ := halternate hactive
    refine ⟨h.putSavedCursor huntouched, fun b => ?_⟩
    rw [putSavedCursor_kitty]
    cases b with
    | false => exact ⟨hkitty, hsaved⟩
    | true =>
      refine ⟨hkitty', ?_⟩
      rw [SavedAs, putSavedCursor_other _ _ (by rw [h.active]; decide)]
      exact hsaved'

/-! ## The resets -/

/-- The alternate screen left through 1049. -/
theorem setDECMode_leave (s : TerminalReplayState) : s.setDECMode 1049 false =
    { s with
      alternateModeBits := s.alternateModeBits.insert 1049 false
      hyperlink := if s.isAlternateActive then none else s.hyperlink
      isAlternateActive := false
      cursor := (s.savedCursor.get false).getD {}
      decModes :=
        if ((s.savedCursor.get false).getD {}).origin || (s.decModes.get? 6).isSome then
          s.decModes.insert 6 ((s.savedCursor.get false).getD {}).origin
        else s.decModes } := by
  rw [setDECMode_switch (by decide), switchScreen]
  cases s.isAlternateActive <;> simp [TerminalReplayState.restoreCursor]

/-- A covered terminal has what it had, and nothing the cover has not. -/
theorem Covers.held (h : Covers p u) (hu : Sound u) : Held p u u where
  dec := h.dec
  saved := rfl
  ansi := h.ansi
  event := h.event
  format := h.format
  keyFormat := h.keyFormat
  style := h.style
  dynamic := h.dynamic
  title := h.title
  directory := rfl
  link hlink := by
    obtain ⟨text, ht⟩ := Option.isSome_iff_exists.mp hlink
    exact h.link (hu.settings.hyperlink text ht).2

/-- Leaving the alternate screen restores a cursor, and with it origin mode. -/
theorem Covers.held_leave (h : Covers p u) (hu : Sound u) : Held p u (u.setDECMode 1049 false) := by
  have hheld := h.held hu
  rw [setDECMode_leave]
  refine { hheld with dec := fun m hm => ?_, link := fun hlink => ?_ }
  · dsimp only at hm
    split_ifs at hm with horigin
    · rw [Dict.get?_insert] at hm
      split_ifs at hm with h6
      · subst h6
        rcases Bool.or_eq_true_iff.mp horigin with ho | ho
        · cases hc : u.savedCursor.get false with
          | none => simp [hc] at ho
          | some c => exact h.origin false c hc (by simpa [hc] using ho)
        · exact h.dec 6 ho
      · exact h.dec m hm
    · exact h.dec m hm
  · dsimp only at hlink
    split_ifs at hlink
    · simp at hlink
    · exact hheld.link hlink

/-- Behind the reset there is nothing but what the preamble writes. -/
theorem Covers.blank (h : Covers p u) (hu : Sound u) : Blank p u (p.putReset u) := by
  have hregion : u.scrollRegion.isSome → u.scrollRegionTouched = true := fun hr => by
    obtain ⟨r, hr⟩ := Option.isSome_iff_exists.mp hr
    exact (hu.settings.scrollRegion r hr).1
  rw [putReset]
  split
  · refine (h.held_leave hu).softReset ?_
    rw [setDECMode_leave]
    exact hregion
  · exact (h.held hu).softReset hregion

/-- **The preamble's resets bring every covered terminal to the same start.** -/
theorem Covers.reset (h : Covers p u) (hp : Writable p) (hu : Sound u) :
    Reset p u (p.putReset u) := by
  have hkitty : ∀ b, p.kittyTouched.get b = false → u.kitty.get b = p.kitty.get b := by
    intro b hb
    have hub : u.kittyTouched.get b = false := by
      by_contra hne
      exact absurd (h.kitty b (by simpa using hne)) (by simp [hb])
    rw [hu.screens.kitty_untouched b hub, hp.screens.kitty_untouched b hb]
  have hreset : ∀ v : TerminalReplayState, v.isAlternateActive = false → v.kitty = u.kitty →
      v.savedCursor = u.savedCursor → Reset p u v.softReset := by
    intro v hactive hk hsaved
    refine ⟨⟨?_, ?_, fun b hb => ?_⟩, ?_, ?_⟩
    · rw [TerminalReplayState.softReset]; exact hactive
    · rw [TerminalReplayState.softReset]; exact settled_empty _
    · rw [TerminalReplayState.softReset, hk]; exact hkitty b hb
    · rw [softReset_savedCursor, if_pos hactive]
    · rw [softReset_savedCursor, hactive, if_neg (by decide), hsaved]
  rw [putReset]
  split
  · exact hreset _ (by rw [setDECMode_leave]) (by rw [setDECMode_leave]) (by rw [setDECMode_leave])
  case isFalse hused =>
    refine hreset u ?_ rfl rfl
    by_contra hne
    exact hused (h.alternate (hu.screens.active (by simpa using hne)))

/-- **The screens are rebuilt**, and the settings still to be written are left blank. -/
theorem Covers.screens (h : Covers p u) (hp : Writable p) (hu : Sound u) :
    ∃ s, s = p.putShown p.hiddenAlternate.2
        ((p.putHidden (p.putReset u)).putKitty p.kittyTouched.primary p.kitty.primary) ∧
      Blank p u s ∧ Stage p s p.isAlternateActive (p.shownScreen p.hiddenAlternate.2).2 ∧
      ∀ b, s.kitty.get b = p.kitty.get b ∧ SavedAs p s b := by
  have hused : p.alternateEverUsed = false → u.savedCursor.get true = none := by
    intro hused
    by_contra hne
    exact absurd (h.alternate (hu.screens.saved_used (Option.isSome_iff_ne_none.mpr hne)))
      (by simp [hused])
  obtain ⟨hhidden, hprimary, halternate⟩ := (h.reset hp hu).putHidden hp hused
  obtain ⟨hstage, hkitty⟩ := hhidden.putKitty
  refine ⟨_, rfl, ?_, hstage.putShown hp hkitty ?_ fun hactive => ?_⟩
  · exact (((h.blank hu).putHidden).putKitty _ _).putShown hp.screens.entry _
  · rw [putKitty_savedCursor]
    exact hprimary
  · obtain ⟨hk, hsaved⟩ := halternate hactive
    rw [SavedAs, putKitty_savedCursor, putKitty_kitty, hhidden.active, if_neg (by simp)]
    exact ⟨hk, hsaved⟩

end TerminalReplayState
