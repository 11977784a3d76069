import IGhostVT.Session.RoundTrip

/-!
# Session/Neutral — settings written out at their defaults

A replay's preamble also writes out what the rest of the replay touched.  `includingSettings` leaves
a state that can be written, and `includingSettings_neutral_iff` says exactly when reading the
widened preamble back finds the state's own values.
-/

namespace TerminalReplayState

open TerminalStreamTracker

variable {p s later : TerminalReplayState}

/-! ## Widening -/

theorem includingSettings_dec (m : ℕ) : (s.includingSettings later).decModes.get? m
    = (s.decModes.get? m).or ((later.decModes.get? m).map fun _ => defaultDECMode m) :=
  Dict.get?_fill_keys ..

theorem includingSettings_saved (m : ℕ) : (s.includingSettings later).savedDECModes.get? m
    = (s.savedDECModes.get? m).or ((later.savedDECModes.get? m).map fun _ => false) :=
  Dict.get?_fill_keys ..

theorem includingSettings_ansi (m : ℕ) : (s.includingSettings later).ansiModes.get? m
    = (s.ansiModes.get? m).or ((later.ansiModes.get? m).map fun _ => defaultANSIMode m) :=
  Dict.get?_fill_keys ..

theorem includingSettings_dynamic (i : ℕ) : (s.includingSettings later).dynamicColors.get? i
    = (s.dynamicColors.get? i).or ((later.dynamicColors.get? i).map fun _ => []) :=
  Dict.get?_fill_keys ..

/-- A value of a widened setting is the state's own, or the default of one the later state
touched. -/
theorem or_map_eq_some {α β : Type*} {a : Option α} {b : Option β} {d v : α}
    (h : a.or (b.map fun _ => d) = some v) : a = some v ∨ a = none ∧ b.isSome ∧ v = d := by
  cases a with
  | some a => exact Or.inl h
  | none =>
    cases b with
    | none => simp at h
    | some b => exact Or.inr ⟨rfl, rfl, by simpa using h.symm⟩

theorem touched_of_includingSettings {m : ℕ} (h : (s.includingSettings later).touched m = false) :
    s.touched m = false := by
  rw [touched] at h ⊢
  split_ifs at h ⊢
  · simp only [includingSettings, Option.isSome_or, Bool.or_eq_false_iff] at h
    exact h.1
  · simp only [includingSettings, Option.isSome_or, Bool.or_eq_false_iff] at h
    exact h.1
  · rw [includingSettings_dec, Option.isSome_or, Bool.or_eq_false_iff] at h
    exact h.1

theorem SettingsSound.includingSettings (h : SettingsSound s) (hl : SettingsSound later) :
    SettingsSound (s.includingSettings later) where
  modifyKeyFormat f hf := by
    rcases or_map_eq_some hf with hf | ⟨-, -, rfl⟩
    · exact h.modifyKeyFormat f hf
    · exact ⟨0, [], 0x6D, keyFormat_reset⟩
  cursorStyle v hv := by
    rcases or_map_eq_some hv with hv | ⟨-, -, rfl⟩
    · exact h.cursorStyle v hv
    · exact Nat.zero_le _
  palette := h.palette
  dynamicColors i v hv := by
    rw [includingSettings_dynamic] at hv
    rcases or_map_eq_some hv with hv | ⟨-, hsome, rfl⟩
    · exact h.dynamicColors i v hv
    · obtain ⟨w, hw⟩ := Option.isSome_iff_exists.mp hsome
      have hentry := hl.dynamicColors i w hw
      exact ⟨⟨by simp [Printable], by simp, by simp⟩, hentry.index_le, by decide⟩
  title text ht := by
    rcases or_map_eq_some ht with ht | ⟨-, -, rfl⟩
    · exact h.title text ht
    · exact ⟨by simp [Printable], by decide⟩
  workingDirectory := h.workingDirectory
  hyperlink text ht := by
    obtain ⟨hopen, htouched⟩ := h.hyperlink text ht
    exact ⟨hopen, by simp [TerminalReplayState.includingSettings, htouched]⟩
  scrollRegion := h.scrollRegion

theorem ScreensSound.includingSettings (h : ScreensSound s) (hl : ScreensSound later) :
    ScreensSound (s.includingSettings later) where
  active ha := by simp [TerminalReplayState.includingSettings, h.active ha]
  entry := h.entry
  kitty_used hk := by
    simp only [TerminalReplayState.includingSettings, Bool.or_eq_true] at hk ⊢
    exact hk.imp h.kitty_used hl.kitty_used
  saved_used hs := by simp [TerminalReplayState.includingSettings, h.saved_used hs]
  kitty_untouched b hb := by
    refine h.kitty_untouched b ?_
    cases b
    all_goals
      simp only [TerminalReplayState.includingSettings, Screens.get_true, Screens.get_false,
        Bool.or_eq_false_iff] at hb ⊢
      exact hb.1
  kitty_flags := h.kitty_flags

/-- **A widened state can be written.** -/
theorem Sound.includingSettings_writable (h : Sound s) (hl : Sound later) :
    Writable (s.includingSettings later) where
  dec m v hm := by
    rw [includingSettings_dec] at hm
    rcases or_map_eq_some hm with hm | ⟨-, hsome, -⟩
    · exact h.modes.dec m v hm
    · obtain ⟨w, hw⟩ := Option.isSome_iff_exists.mp hsome
      exact hl.modes.dec m w hw
  ansi m v hm := by
    rw [includingSettings_ansi] at hm
    rcases or_map_eq_some hm with hm | ⟨-, hsome, -⟩
    · exact h.modes.ansi m v hm
    · obtain ⟨w, hw⟩ := Option.isSome_iff_exists.mp hsome
      exact hl.modes.ansi m w hw
  event m hm := by
    rcases or_map_eq_some hm with hm | ⟨-, -, rfl⟩
    · exact h.modes.event m hm
    · exact Or.inl rfl
  format m hm := by
    rcases or_map_eq_some hm with hm | ⟨-, -, rfl⟩
    · exact h.modes.format m hm
    · exact Or.inl rfl
  saved_le m v hm := by
    rw [includingSettings_saved] at hm
    rcases or_map_eq_some hm with hm | ⟨-, hsome, -⟩
    · exact h.modes.saved_le m v hm
    · obtain ⟨w, hw⟩ := Option.isSome_iff_exists.mp hsome
      exact hl.modes.saved_le m w hw
  saved m v hm halt htracked htouched := by
    rw [includingSettings_saved] at hm
    rcases or_map_eq_some hm with hm | ⟨-, -, rfl⟩
    · exact h.writable.saved m v hm halt htracked (touched_of_includingSettings htouched)
    · rfl
  screens := h.screens.includingSettings hl.screens
  cursors :=
    { cursor := h.cursors.cursor
      saved := h.cursors.saved
      untouched := fun ht => h.cursors.untouched (by
        simp only [TerminalReplayState.includingSettings, Bool.or_eq_false_iff] at ht
        exact ht.1)
      saved_untouched := fun ht => h.cursors.saved_untouched (by
        simp only [TerminalReplayState.includingSettings, Bool.or_eq_false_iff] at ht
        exact ht.1) }
  settings := h.settings.includingSettings hl.settings

/-! ## The screen-switching modes' own bits -/

theorem putCursor_alternateModeBits (designated : PreambleWriter) (c : Cursor) (touched : Bool) :
    (s.putCursor designated c touched).alternateModeBits = s.alternateModeBits := by
  rw [putCursor]; split <;> rfl

theorem putSavedCursor_alternateModeBits (designated : PreambleWriter) (saved : Option Cursor) :
    (s.putSavedCursor designated saved).alternateModeBits = s.alternateModeBits := by
  cases saved with
  | none => rfl
  | some c => exact putCursor_alternateModeBits designated c true

theorem putKitty_alternateModeBits (touched : Bool) (stack : KittyFlags) :
    (s.putKitty touched stack).alternateModeBits = s.alternateModeBits := by
  cases touched <;> rfl

theorem putAlternate_alternateModeBits :
    (p.putAlternate s).alternateModeBits = s.alternateModeBits := by
  rw [putAlternate, putSavedCursor_alternateModeBits, putKitty_alternateModeBits, softReset]

theorem switchScreen_alternateModeBits (m : ℕ) (enabled : Bool) :
    (s.switchScreen m enabled).alternateModeBits = s.alternateModeBits := by
  rw [switchScreen]
  split_ifs <;> rfl

theorem setDECMode_alternateModeBits {m : ℕ} (hm : m ∈ alternateScreenModes) (enabled : Bool) :
    (s.setDECMode m enabled).alternateModeBits = s.alternateModeBits.insert m enabled := by
  rw [setDECMode_switch hm, switchScreen_alternateModeBits]

/-- A screen-switching mode read off its bit. -/
def screenBit (s : TerminalReplayState) (m : ℕ) : Bool := (s.alternateModeBits.get? m).getD false

theorem screenBit_setDECMode {k : ℕ} (hk : k ∈ alternateScreenModes) (enabled : Bool) (m : ℕ) :
    (s.setDECMode k enabled).screenBit m = if k = m then enabled else s.screenBit m := by
  rw [screenBit, setDECMode_alternateModeBits hk, Dict.get?_insert]
  split <;> rfl

/-- The stages up to the screen shown leave every bit off in a fresh terminal. -/
theorem screenBit_putHidden (p : TerminalReplayState) (m : ℕ) :
    (p.putHidden (p.putReset {})).screenBit m = false := by
  have hreset : (p.putReset {}).screenBit m = false := by
    rw [putReset, screenBit, softReset]
    dsimp only
    split
    · rw [setDECMode_alternateModeBits (by decide), Dict.get?_insert]
      split <;> rfl
    · rfl
  rw [putHidden]
  split
  · rw [screenBit_setDECMode (by decide), screenBit, putAlternate_alternateModeBits, ← screenBit,
      screenBit_setDECMode (by decide), hreset]
    split <;> rfl
  · exact hreset

/-- **Only the mode that shows the alternate screen is on** in a fresh terminal rebuilt. -/
theorem decMode_rebuild_of_mem (hp : Writable p) {m : ℕ} (hm : m ∈ alternateScreenModes) :
    (p.rebuild {}).decMode m = (p.isAlternateActive && p.alternateEntryMode == m) := by
  obtain ⟨s, hs, hblank, -, -⟩ := (covers_empty p).screens hp sound_empty
  have hdec : ∀ k v, s.decModes.get? k = some v → k ∈ trackedDECModes := by
    intro k v hk
    obtain ⟨v', hv'⟩ := Option.isSome_iff_exists.mp (hblank.dec k (by simp [hk]))
    exact hp.dec k v' hv'
  -- The stages after the screens leave the bits alone.
  have hmodes := (hp.moded (s := p.putSavedModes s)).rest.trans (hp.resaved hdec).rest
  have hbits : (p.rebuild {}).screenBit m = s.screenBit m := by
    have hrest : (p.putModes (p.putSavedModes s)).alternateModeBits = s.alternateModeBits :=
      congrArg (fun s => s.alternateModeBits) hmodes
    have hlast : ∀ r, (p.putLinkAndRegion r).alternateModeBits = r.alternateModeBits := by
      intro r
      rw [putLinkAndRegion]
      cases p.scrollRegion with
      | none => dsimp only; split <;> rfl
      | some r => dsimp only; split <;> rfl
    rw [screenBit, rebuild, ← hs, hlast, putCursor_alternateModeBits, screenBit, ← hrest]
    rfl
  have hshown : s.screenBit m = (p.isAlternateActive && p.alternateEntryMode == m) := by
    have hbefore : ∀ m, ((p.putHidden (p.putReset {})).putKitty p.kittyTouched.primary
        p.kitty.primary).screenBit m = false := by
      intro m
      rw [screenBit, putKitty_alternateModeBits]
      exact screenBit_putHidden p m
    rw [hs, putShown]
    cases hactive : p.isAlternateActive with
    | false =>
      rw [if_neg Bool.false_ne_true, screenBit, putSavedCursor_alternateModeBits]
      exact hbefore m
    | true =>
      rw [if_pos rfl, screenBit, putAlternate_alternateModeBits, ← screenBit, Bool.true_and]
      split
      case isTrue h1049 =>
        rw [screenBit_setDECMode (by decide), h1049, screenBit, putCursor_alternateModeBits,
          ← screenBit, hbefore]
        by_cases h : 1049 = m <;> simp [h]
      case isFalse =>
        rw [screenBit_setDECMode hp.screens.entry, screenBit, putSavedCursor_alternateModeBits,
          ← screenBit, hbefore]
        by_cases h : p.alternateEntryMode = m <;> simp [h]
  rw [decMode, if_pos hm]
  exact hbits.trans hshown

/-! ## Neutrality -/

/-- The same value, by effect, for each setting a preamble may write out at its default. -/
structure SameSettings (w s : TerminalReplayState) : Prop where
  decMode : ∀ m, w.decMode m = s.decMode m
  ansiMode : ∀ m, (w.ansiModes.get? m).getD (defaultANSIMode m)
    = (s.ansiModes.get? m).getD (defaultANSIMode m)
  palette : ∀ i, w.palette.get? i = s.palette.get? i
  dynamicColor : ∀ i, (w.dynamicColors.get? i).getD [] = (s.dynamicColors.get? i).getD []
  modifyKeyFormat : w.modifyKeyFormat.getD (ascii ">m") = s.modifyKeyFormat.getD (ascii ">m")
  cursorStyle : w.cursorStyle.getD 0 = s.cursorStyle.getD 0

/-- No mode that starts on was only ever saved, and that only later. -/
def NotSavedLater (s later : TerminalReplayState) : Prop :=
  ∀ m, defaultDECMode m = true → s.decModes.get? m = none → later.decModes.get? m = none →
    s.savedDECModes.get? m = none → later.savedDECModes.get? m = none

/-- Each screen-switching mode is on exactly when it shows the alternate screen. -/
def ScreenModesShown (s : TerminalReplayState) : Prop :=
  ∀ m ∈ alternateScreenModes, s.decMode m = (s.isAlternateActive && s.alternateEntryMode == m)

theorem getD_or_map {α β : Type*} (a : Option α) (b : Option β) (d : α) :
    (a.or (b.map fun _ => d)).getD d = a.getD d := by
  cases a <;> cases b <;> rfl

/-- The mode a widened preamble leaves: wrong exactly where a mode that starts on was saved
later. -/
theorem Sound.decMode_widened (h : Sound s) (m : ℕ) :
    (((s.includingSettings later).decModes.get? m).or (if m ∈ trackedDECModes then
        (s.includingSettings later).savedDECModes.get? m else none)).getD (defaultDECMode m)
      = (s.decModes.get? m).getD (defaultDECMode m) ↔
    ¬ (defaultDECMode m = true ∧ s.decModes.get? m = none ∧ later.decModes.get? m = none ∧
      s.savedDECModes.get? m = none ∧ (later.savedDECModes.get? m).isSome) := by
  have htracked : defaultDECMode m = true → m ∈ trackedDECModes := by
    intro hm
    simp only [defaultDECMode, decide_eq_true_eq] at hm
    fin_cases hm <;> decide
  rw [includingSettings_dec, includingSettings_saved]
  cases hdec : s.decModes.get? m with
  | some v => simp
  | none =>
    cases hlater : later.decModes.get? m with
    | some v => simp
    | none =>
      cases hsaved : s.savedDECModes.get? m with
      | some v =>
        -- Saved while never set: at its default.
        have horiginal := h.modes.or_saved m
        rw [hdec, hsaved] at horiginal
        simpa using horiginal
      | none =>
        cases hlsaved : later.savedDECModes.get? m with
        | none => simp
        | some v =>
          cases hdefault : defaultDECMode m with
          | true => simp [htracked hdefault]
          | false => by_cases hm : m ∈ trackedDECModes <;> simp [hm]

/-- **Reading the widened preamble back.** -/
theorem Sound.sameSettings_iff (h : Sound s) (hl : Sound later) :
    SameSettings ((s.includingSettings later).rebuild {}) s ↔
      NotSavedLater s later ∧ ScreenModesShown s := by
  have hp := h.includingSettings_writable hl
  have hr := rebuilt_of_covers hp sound_empty (covers_empty _)
  have hevent : ((s.includingSettings later).rebuild {}).mouseEvent.getD 0 = s.mouseEvent.getD 0 :=
    hr.event.trans (getD_or_map ..)
  have hformat : ((s.includingSettings later).rebuild {}).mouseFormat.getD 0 =
      s.mouseFormat.getD 0 :=
    hr.format.trans (getD_or_map ..)
  have hscreen : ∀ m ∈ alternateScreenModes, ((s.includingSettings later).rebuild {}).decMode m
      = (s.isAlternateActive && s.alternateEntryMode == m) :=
        fun m hm => decMode_rebuild_of_mem hp hm
  have hdefault : ∀ m, defaultDECMode m = true →
      m ∉ alternateScreenModes ∧ m ∉ mouseEventModes ∧ m ∉ mouseFormatModes := by
    intro m hm
    simp only [defaultDECMode, decide_eq_true_eq] at hm
    fin_cases hm <;> decide
  constructor
  · refine fun hsame => ⟨fun m hm hdec hlater hsaved => ?_, fun m hm => ?_⟩
    · obtain ⟨halt, hevent, hformat⟩ := hdefault m hm
      have hmode := hsame.decMode m
      rw [decMode, decMode, if_neg halt, if_neg halt, if_neg hevent, if_neg hevent, if_neg hformat,
        if_neg hformat, hr.dec, h.decMode_widened] at hmode
      by_contra hne
      exact hmode ⟨hm, hdec, hlater, hsaved, Option.isSome_iff_ne_none.mpr hne⟩
    · rw [← hsame.decMode m, hscreen m hm]
  · rintro ⟨hnot, hshown⟩
    constructor
    case decMode =>
      intro m
      by_cases halt : m ∈ alternateScreenModes
      · rw [hscreen m halt, hshown m halt]
      · refine decMode_congr halt ?_ hevent hformat
        rw [hr.dec, h.decMode_widened]
        rintro ⟨hm, hdec, hlater, hsaved, hsome⟩
        exact absurd (hnot m hm hdec hlater hsaved) (Option.isSome_iff_ne_none.mp hsome)
    case ansiMode =>
      intro m
      rw [hr.ansi, includingSettings_ansi, getD_or_map]
    case palette => exact fun i => by rw [hr.palette]; rfl
    case dynamicColor =>
      intro i
      rw [hr.dynamic, includingSettings_dynamic, getD_or_map]
    case modifyKeyFormat =>
      rw [hr.keyFormat]
      exact getD_or_map ..
    case cursorStyle =>
      rw [hr.style]
      exact getD_or_map ..

end TerminalReplayState

namespace TerminalStreamTracker

open TerminalReplayState

/-- A tracker that has read `stream` and then `more`. -/
def trackedOn (stream more : List UInt8) : TerminalStreamTracker :=
  (tracked stream).consume more stream.length

/-- **Writing out what a stream touched later leaves every setting at its value, exactly when** no
mode that starts on was saved only later and the screen-switching modes are those of the screen
shown. -/
theorem includingSettings_neutral_iff (stream more : List UInt8) :
    SameSettings
        (reread
          ((tracked stream).terminal.includingSettings (trackedOn stream more).terminal)).terminal
        (tracked stream).terminal ↔
      NotSavedLater (tracked stream).terminal (trackedOn stream more).terminal ∧
        ScreenModesShown (tracked stream).terminal := by
  have hsound := sound_tracked stream
  have hlater : Sound (trackedOn stream more).terminal := by
    have happend := sound_tracked (stream ++ more)
    rwa [tracked, consume_append, ← tracked, zero_add] at happend
  rw [(wrote_reread (hsound.includingSettings_writable hlater)).terminal]
  exact hsound.sameSettings_iff hlater

/-- The cursor is shown; XTSAVE of its mode, later, has the preamble hide it. -/
theorem includingSettings_hides_cursor :
    ¬ SameSettings
        (reread ((tracked []).terminal.includingSettings
          (trackedOn [] (csi (ascii "?25s"))).terminal)).terminal (tracked []).terminal ∧
      (tracked []).terminal.decMode 25 = true ∧
      (reread ((tracked []).terminal.includingSettings
        (trackedOn [] (csi (ascii "?25s"))).terminal)).terminal.decMode 25 = false := by
  refine ⟨fun h => absurd (h.decMode 25) (by decide +kernel), ?_⟩
  decide +kernel

end TerminalStreamTracker
