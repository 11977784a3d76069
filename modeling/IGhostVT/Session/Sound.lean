import IGhostVT.Session.Change
import Mathlib.Data.Fintype.Basic

/-!
# Session/Sound — the terminals a stream can leave

A terminal reached from a fresh one by changes is `Sound`: only tracked modes are kept, a setting
never touched is at its default, the alternate screen holds nothing before it was used, and every
kept text, pen and flag stack is one a preamble can write back.
-/

namespace TerminalReplayState

open TerminalStreamTracker (serializeFrom maximumParams maximumPayload)

/-! ## Modes -/

/-- Whether a DEC mode that switches no screen was ever set or reset. -/
def touched (s : TerminalReplayState) (mode : ℕ) : Bool :=
  if mode ∈ mouseEventModes then s.mouseEvent.isSome
  else if mode ∈ mouseFormatModes then s.mouseFormat.isSome
  else (s.decModes.get? mode).isSome

/-- The kept modes: all of them tracked, XTSAVE's record of a mode never touched at its default, and
the cursor's origin mode the mode's own value. -/
structure ModesSound (s : TerminalReplayState) : Prop where
  dec : ∀ m v, s.decModes.get? m = some v → m ∈ trackedDECModes
  ansi : ∀ m v, s.ansiModes.get? m = some v → m ∈ trackedANSIModes
  event : ∀ m, s.mouseEvent = some m → m = 0 ∨ m ∈ mouseEventModes
  format : ∀ m, s.mouseFormat = some m → m = 0 ∨ m ∈ mouseFormatModes
  origin : s.cursor.origin = (s.decModes.get? 6).getD false
  bits : ∀ m v, s.alternateModeBits.get? m = some v → m ∈ alternateScreenModes
  saved_le : ∀ m v, s.savedDECModes.get? m = some v → m ≤ 65535
  saved : ∀ m v, s.savedDECModes.get? m = some v → m ∉ alternateScreenModes →
    s.touched m = false → v = defaultDECMode m

/-! ## Screens -/

/-- What the two screens hold: nothing on the alternate one before it was used, and flag stacks of
five-bit entries, empty until touched. -/
structure ScreensSound (s : TerminalReplayState) : Prop where
  active : s.isAlternateActive = true → s.alternateEverUsed = true
  entry : s.alternateEntryMode ∈ alternateScreenModes
  kitty_used : s.kittyTouched.alternate = true → s.alternateEverUsed = true
  saved_used : s.savedCursor.alternate.isSome → s.alternateEverUsed = true
  kitty_untouched : ∀ b, s.kittyTouched.get b = false → s.kitty.get b = {}
  kitty_flags : ∀ b slot, (s.kitty.get b).flags slot < 32

/-! ## Cursors -/

/-- The parameters of one SGR sequence of a pen, written out. -/
structure PenEntry (entry : List UInt8) (colons : ℕ) (params : List ℕ) : Prop where
  eq : entry = serializeFrom colons 0 params
  paramList : ParamList params
  ne_nil : params ≠ []
  not_reset : params ≠ [0]

/-- A pen: few enough sequences, none a reset and only the first opening with one. -/
structure PenSound (pen : Pen) : Prop where
  length_le : pen.length ≤ maximumPenSequences
  entry : ∀ p ∈ pen, ∃ colons params, PenEntry p colons params
  continues : ∀ p ∈ pen.tail, ∃ colons params, PenEntry p colons params ∧
    ¬ (params.head? = some 0 ∧ colons.testBit 0 = false)

structure CharsetsSound (c : Charsets) : Prop where
  slots : ∀ i, c.slots i = 0 ∨ c.slots i = 0x42 ∨ c.slots i = 0x41 ∨ c.slots i = 0x30
  gl : c.gl ≤ 3
  gr : c.gr ∈ [1, 2, 3]

structure CursorSound (c : Cursor) : Prop where
  pen : PenSound c.pen
  charsets : CharsetsSound c.charsets

/-- Every cursor kept, and its charsets initial while none was ever touched. -/
structure CursorsSound (s : TerminalReplayState) : Prop where
  cursor : CursorSound s.cursor
  saved : ∀ b c, s.savedCursor.get b = some c → CursorSound c
  untouched : s.charsetsTouched = false → s.cursor.charsets = {}
  saved_untouched : s.charsetsTouched = false → ∀ b c, s.savedCursor.get b = some c →
    c.charsets = {}

/-! ## Texts and the rest -/

/-- A key format as the last `CSI > … m` or `n` left it. -/
structure KeyFormat (format : List UInt8) (colons : ℕ) (params : List ℕ) (final : UInt8) :
    Prop where
  eq : format = ascii ">" ++ serializeFrom colons 0 params ++ [final]
  paramList : ParamList params
  final_eq : final = 0x6D ∨ final = 0x6E ∧ colons = 0

structure SettingsSound (s : TerminalReplayState) : Prop where
  modifyKeyFormat : ∀ f, s.modifyKeyFormat = some f → ∃ colons params final,
    KeyFormat f colons params final
  cursorStyle : ∀ v, s.cursorStyle = some v → v ≤ 65535
  palette : ∀ c spec, s.palette.get? c = some spec → PaletteEntry c spec
  dynamicColors : ∀ i v, s.dynamicColors.get? i = some v → DynamicEntry i v
  title : ∀ text, s.title = some text → KeptText text
  workingDirectory : ∀ text, s.workingDirectory = some text → KeptText text
  hyperlink : ∀ text, s.hyperlink = some text → OpenLink text ∧ s.hyperlinkTouched = true
  scrollRegion : ∀ r, s.scrollRegion = some r → s.scrollRegionTouched = true ∧ r.1 ≤ 65535 ∧
    r.2 ≤ 65535 ∧ ¬ (r.1 ≤ 1 ∧ r.2 = 0)

/-- **A terminal some stream leaves.** -/
structure Sound (s : TerminalReplayState) : Prop where
  modes : ModesSound s
  screens : ScreensSound s
  cursors : CursorsSound s
  settings : SettingsSound s

/-! ## A fresh terminal -/

/-- A pen without attributes writes nothing but its reset. -/
theorem penSound_nil : PenSound [] := ⟨Nat.zero_le _, by simp, by simp⟩

/-- A fresh cursor has that pen and the default charsets. -/
theorem cursorSound_empty : CursorSound {} :=
  ⟨penSound_nil, ⟨fun _ => Or.inl rfl, Nat.zero_le _, by decide⟩⟩

/-- **A fresh terminal is sound.** -/
theorem sound_empty : Sound {} where
  modes :=
    { dec := by simp
      ansi := by simp
      event := by simp
      format := by simp
      origin := rfl
      bits := by simp
      saved_le := by simp
      saved := by simp }
  screens :=
    { active := by simp
      entry := by decide
      kitty_used := by simp
      saved_used := by simp
      kitty_untouched := fun b _ => by cases b <;> rfl
      kitty_flags := fun b _ => by cases b <;> exact (by decide : (0 : UInt8) < 32) }
  cursors :=
    { cursor := cursorSound_empty
      saved := fun b c h => by cases b <;> simp at h
      untouched := fun _ => rfl
      saved_untouched := fun _ b c h => by cases b <;> simp at h }
  settings :=
    { modifyKeyFormat := by simp
      cursorStyle := by simp
      palette := by simp
      dynamicColors := by simp
      title := by simp
      workingDirectory := by simp
      hyperlink := by simp
      scrollRegion := by simp }

/-! ## Modes are kept -/

/-- Soundness of the modes goes by the modes alone. -/
theorem ModesSound.congr {s s' : TerminalReplayState} (h : ModesSound s)
    (hdec : s'.decModes = s.decModes) (hansi : s'.ansiModes = s.ansiModes)
    (hevent : s'.mouseEvent = s.mouseEvent) (hformat : s'.mouseFormat = s.mouseFormat)
    (horigin : s'.cursor.origin = s.cursor.origin)
    (hbits : s'.alternateModeBits = s.alternateModeBits)
    (hsaved : s'.savedDECModes = s.savedDECModes) : ModesSound s' where
  dec := hdec ▸ h.dec
  ansi := hansi ▸ h.ansi
  event := hevent ▸ h.event
  format := hformat ▸ h.format
  origin := by rw [horigin, hdec, h.origin]
  bits := hbits ▸ h.bits
  saved_le := hsaved ▸ h.saved_le
  saved m v := by
    have htouched : s'.touched m = s.touched m := by rw [touched, touched, hdec, hevent, hformat]
    rw [hsaved, htouched]
    exact h.saved m v

/-- A mode set leaves the ones touched before it touched. -/
theorem touched_of_insert {s s' : TerminalReplayState} {m mode : ℕ} {v : Bool}
    (h : s'.touched m = false) (hdec : s'.decModes = s.decModes.insert mode v)
    (hevent : s'.mouseEvent = s.mouseEvent) (hformat : s'.mouseFormat = s.mouseFormat) :
    s.touched m = false := by
  simp only [touched, hdec, hevent, hformat, Dict.get?_insert] at h ⊢
  split_ifs at h ⊢ with _ _ hm
  · exact h
  · exact h
  · simp at h
  · exact h

/-- A restored cursor brings back origin mode, which is tracked. -/
theorem ModesSound.restoreCursor {s : TerminalReplayState} (h : ModesSound s) :
    ModesSound s.restoreCursor := by
  set restored := (s.savedCursor.get s.isAlternateActive).getD {} with hrestored
  have heq : s.restoreCursor = { s with
      cursor := restored
      decModes := if restored.origin || (s.decModes.get? 6).isSome then
        s.decModes.insert 6 restored.origin else s.decModes } := rfl
  rw [heq]
  by_cases hset : (restored.origin || (s.decModes.get? 6).isSome) = true
  · refine ⟨?_, h.ansi, h.event, h.format, ?_, h.bits, h.saved_le, ?_⟩
    · intro m v hm
      simp only [hset, if_true, Dict.get?_insert] at hm
      split_ifs at hm with h6
      · subst h6
        decide
      · exact h.dec m v hm
    · simp [hset]
    · intro m v hm halt htouched
      exact h.saved m v hm halt (touched_of_insert htouched (if_pos hset) rfl rfl)
  · obtain ⟨horigin, hnone⟩ : restored.origin = false ∧ s.decModes.get? 6 = none := by
      simpa using hset
    have hdec : (if restored.origin || (s.decModes.get? 6).isSome then
        s.decModes.insert 6 restored.origin else s.decModes) = s.decModes := if_neg hset
    refine h.congr hdec rfl rfl rfl ?_ rfl rfl
    rw [h.origin, hnone, Option.getD_none]
    exact horigin

/-- Going to the other screen and back may restore a cursor, and no more. -/
theorem ModesSound.switchScreen {s : TerminalReplayState} (h : ModesSound s) (mode : ℕ)
    (enabled : Bool) : ModesSound (s.switchScreen mode enabled) := by
  have hsave : ModesSound (if mode == 1049 && enabled then s.saveCursor else s) := by
    split
    exacts [h.congr rfl rfl rfl rfl rfl rfl rfl, h]
  unfold TerminalReplayState.switchScreen
  dsimp only
  generalize (if mode == 1049 && enabled then s.saveCursor else s) = s at hsave
  have hactive : ModesSound (if enabled != s.isAlternateActive then
      { s with hyperlink := none, isAlternateActive := enabled } else s) := by
    split
    exacts [hsave.congr rfl rfl rfl rfl rfl rfl rfl, hsave]
  generalize (if enabled != s.isAlternateActive then
      { s with hyperlink := none, isAlternateActive := enabled } else s) = s at hactive
  split
  · exact hactive.congr rfl rfl rfl rfl rfl rfl rfl
  · split
    exacts [hactive.restoreCursor, hactive]

/-- A mode is recorded when it is tracked; a mouse mode takes the other's place. -/
theorem ModesSound.setDECMode {s : TerminalReplayState} (h : ModesSound s) (mode : ℕ)
    (enabled : Bool) : ModesSound (s.setDECMode mode enabled) := by
  unfold TerminalReplayState.setDECMode
  split
  case isTrue htracked =>
    refine ⟨?_, h.ansi, h.event, h.format, ?_, h.bits, h.saved_le, ?_⟩
    · intro m v hm
      rw [Dict.get?_insert] at hm
      split_ifs at hm with heq
      · exact heq ▸ htracked
      · exact h.dec m v hm
    · rw [Dict.get?_insert]
      by_cases h6 : mode = 6
      · simp [h6]
      · simpa [h6] using h.origin
    · intro m v hm halt htouched
      exact h.saved m v hm halt (touched_of_insert htouched rfl rfl rfl)
  case isFalse htracked =>
    split
    case isTrue hevent =>
      refine ⟨h.dec, h.ansi, ?_, h.format, h.origin, h.bits, h.saved_le, ?_⟩
      · intro m hm
        obtain rfl := Option.some.inj hm
        cases enabled
        exacts [Or.inl rfl, Or.inr hevent]
      · intro m v hm halt htouched
        refine h.saved m v hm halt ?_
        simp only [touched, Option.isSome_some] at htouched ⊢
        split_ifs at htouched ⊢ <;> assumption
    case isFalse =>
      split
      case isTrue hformat =>
        refine ⟨h.dec, h.ansi, h.event, ?_, h.origin, h.bits, h.saved_le, ?_⟩
        · intro m hm
          obtain rfl := Option.some.inj hm
          cases enabled
          exacts [Or.inl rfl, Or.inr hformat]
        · intro m v hm halt htouched
          refine h.saved m v hm halt ?_
          simp only [touched, Option.isSome_some] at htouched ⊢
          split_ifs at htouched ⊢ <;> assumption
      case isFalse =>
        split
        case isTrue halternate =>
          refine ModesSound.switchScreen ?_ mode enabled
          refine ⟨h.dec, h.ansi, h.event, h.format, h.origin, ?_, h.saved_le, h.saved⟩
          intro m v hm
          rw [Dict.get?_insert] at hm
          split_ifs at hm with heq
          · exact heq ▸ halternate
          · exact h.bits m v hm
        case isFalse =>
          split
          · split
            exacts [h.congr rfl rfl rfl rfl rfl rfl rfl, h.restoreCursor]
          · exact h

/-- A mode never touched is at its default. -/
theorem decMode_of_untouched {s : TerminalReplayState} {m : ℕ} (halt : m ∉ alternateScreenModes)
    (h : s.touched m = false) : s.decMode m = defaultDECMode m := by
  simp only [decMode, touched, if_neg halt] at h ⊢
  split_ifs at h ⊢ with hevent hformat
  · have hnone : s.mouseEvent = none := by simpa using h
    have hdefault : ∀ m ∈ mouseEventModes, defaultDECMode m = false := by decide
    rw [hnone, hdefault m hevent]
    rfl
  · have hnone : s.mouseFormat = none := by simpa using h
    have hdefault : ∀ m ∈ mouseFormatModes, defaultDECMode m = false := by decide
    rw [hnone, hdefault m hformat]
    rfl
  · have hnone : s.decModes.get? m = none := by simpa using h
    rw [hnone, Option.getD_none]

/-- XTSAVE records what the mode is, its default when it was never set. -/
theorem ModesSound.saveDECMode {s : TerminalReplayState} (h : ModesSound s) {mode : ℕ}
    (hmode : mode ≤ 65535) : ModesSound (s.saveDECMode mode) := by
  refine ⟨h.dec, h.ansi, h.event, h.format, h.origin, h.bits, ?_, ?_⟩
  · intro m v hm
    simp only [TerminalReplayState.saveDECMode, Dict.get?_insert] at hm
    split_ifs at hm with heq
    · exact heq ▸ hmode
    · exact h.saved_le m v hm
  · intro m v hm halt htouched
    simp only [TerminalReplayState.saveDECMode, Dict.get?_insert] at hm
    split_ifs at hm with heq
    · subst heq
      obtain rfl := Option.some.inj hm
      exact decMode_of_untouched halt htouched
    · exact h.saved m v hm halt htouched

/-- A reset puts touched modes at a value and touches no other. -/
theorem get?_resetTouched (d : Dict ℕ Bool) (modes : List ℕ) (value : ℕ → Bool) (m : ℕ) :
    (resetTouched d modes value).get? m
      = (d.get? m).map fun v => if m ∈ modes then value m else v := by
  induction modes generalizing d with
  | nil => simp [resetTouched]
  | cons a modes ih =>
    rw [resetTouched, List.foldl_cons, ← resetTouched, ih]
    by_cases hm : a = m
    · subst hm
      cases hd : d.get? a <;> simp [hd]
    · have hne : m ≠ a := fun h => hm h.symm
      have hstep : (if (d.get? a).isSome then d.insert a (value a) else d).get? m = d.get? m := by
        split
        exacts [Dict.get?_insert_of_ne _ hm _, rfl]
      rw [hstep]
      simp [hne]

/-- What DECSTR makes of each DEC mode. -/
theorem softReset_decModes (s : TerminalReplayState) (m : ℕ) :
    s.softReset.decModes.get? m = (s.decModes.get? m).map fun v =>
      if m ∈ [25, 6, 7, 45, 1045, 1, 66, 69] then defaultDECMode m else v := by
  rw [softReset]
  dsimp only
  rw [get?_resetTouched]

/-- And of each ANSI mode. -/
theorem softReset_ansiModes (s : TerminalReplayState) (m : ℕ) :
    s.softReset.ansiModes.get? m
      = (s.ansiModes.get? m).map fun v => if m ∈ [4, 2] then false else v := by
  rw [softReset]
  dsimp only
  rw [get?_resetTouched]

/-- Modes a soft reset leaves alone keep what XTSAVE recorded of them. -/
theorem ModesSound.softReset {s : TerminalReplayState} (h : ModesSound s) :
    ModesSound s.softReset := by
  have hdec := s.softReset_decModes
  have hansi := s.softReset_ansiModes
  have htouched : ∀ m, s.softReset.touched m = s.touched m := by
    intro m
    rw [touched, touched, hdec, Option.isSome_map]
    rfl
  have horigin : s.softReset.cursor.origin = false := by rw [TerminalReplayState.softReset]
  have hsaved : s.softReset.savedDECModes = s.savedDECModes := by rw [TerminalReplayState.softReset]
  refine
    { dec := fun m v hm => ?_
      ansi := fun m v hm => ?_
      event := by rw [TerminalReplayState.softReset]; exact h.event
      format := by rw [TerminalReplayState.softReset]; exact h.format
      origin := ?_
      bits := by rw [TerminalReplayState.softReset]; exact h.bits
      saved_le := by rw [hsaved]; exact h.saved_le
      saved := fun m v => ?_ }
  · rw [hdec, Option.map_eq_some_iff] at hm
    obtain ⟨w, hw, -⟩ := hm
    exact h.dec m w hw
  · rw [hansi, Option.map_eq_some_iff] at hm
    obtain ⟨w, hw, -⟩ := hm
    exact h.ansi m w hw
  · rw [horigin, hdec]
    cases s.decModes.get? 6 <;> rfl
  · rw [hsaved, htouched]
    exact h.saved m v

/-- RIS forgets what was saved. -/
theorem ModesSound.fullReset {s : TerminalReplayState} (h : ModesSound s) :
    ModesSound s.fullReset := by
  refine ⟨?_, ?_, ?_, ?_, ?_, by simp [TerminalReplayState.fullReset],
    by simp [TerminalReplayState.fullReset], by simp [TerminalReplayState.fullReset]⟩
  · intro m v hm
    simp only [TerminalReplayState.fullReset, Dict.get?_mapKeys, Option.map_eq_some_iff] at hm
    obtain ⟨w, hw, -⟩ := hm
    exact h.dec m w hw
  · intro m v hm
    simp only [TerminalReplayState.fullReset, Dict.get?_mapKeys, Option.map_eq_some_iff] at hm
    obtain ⟨w, hw, -⟩ := hm
    exact h.ansi m w hw
  · intro m hm
    simp only [TerminalReplayState.fullReset, Option.map_eq_some_iff] at hm
    obtain ⟨w, -, rfl⟩ := hm
    exact Or.inl rfl
  · intro m hm
    simp only [TerminalReplayState.fullReset, Option.map_eq_some_iff] at hm
    obtain ⟨w, -, rfl⟩ := hm
    exact Or.inl rfl
  · simp only [TerminalReplayState.fullReset, Dict.get?_mapKeys]
    cases s.decModes.get? 6 <;> rfl

/-- Only tracked ANSI modes are recorded. -/
theorem ModesSound.setANSIMode {s : TerminalReplayState} (h : ModesSound s) (mode : ℕ)
    (enabled : Bool) : ModesSound (s.setANSIMode mode enabled) := by
  unfold TerminalReplayState.setANSIMode
  split
  case isTrue htracked =>
    refine ⟨h.dec, ?_, h.event, h.format, h.origin, h.bits, h.saved_le, h.saved⟩
    intro m v hm
    rw [Dict.get?_insert] at hm
    split_ifs at hm with heq
    · exact heq ▸ htracked
    · exact h.ansi m v hm
  case isFalse => exact h

/-- SGR changes the pen and nothing else. -/
theorem applySGR_eq (s : TerminalReplayState) (parameters : List UInt8)
    (isReset startsWithReset : Bool) : ∃ pen,
    s.applySGR parameters isReset startsWithReset =
      { s with cursor := { s.cursor with pen := pen } } := by
  unfold TerminalReplayState.applySGR
  dsimp only
  split
  · exact ⟨_, rfl⟩
  · split
    all_goals exact ⟨_, rfl⟩

/-- **The modes stay sound by every change**, one case each. -/
theorem ModesSound.change {s s' : TerminalReplayState} (h : ModesSound s) (hc : Change s s') :
    ModesSound s' := by
  cases hc with
  | setDECMode mode enabled _ => exact h.setDECMode mode enabled
  | setANSIMode mode enabled => exact h.setANSIMode mode enabled
  | saveDECMode mode hmode => exact h.saveDECMode hmode
  | restoreCursor => exact h.restoreCursor
  | softReset => exact h.softReset
  | fullReset => exact h.fullReset
  | applySGR colons params _ =>
    obtain ⟨pen, hpen⟩ := applySGR_eq s (serializeFrom colons 0 params) (params = [] ∨ params = [0])
      (params.head? = some 0 ∧ colons.testBit 0 = false)
    rw [hpen]
    exact h.congr rfl rfl rfl rfl rfl rfl rfl
  | _ => exact h.congr rfl rfl rfl rfl rfl rfl rfl

/-! ## Screens are kept -/

/-- Five bits of flags are below 32, so a decimal of two digits writes them. -/
theorem and_mask_lt (v : UInt8) : v &&& 0x1F < 32 := by
  rw [UInt8.lt_iff_toNat_lt, UInt8.toNat_and]
  exact Nat.lt_of_le_of_lt Nat.and_le_right (by decide)

/-- Every entry of a flag stack has five bits. -/
def KittyFlags.Narrow (k : KittyFlags) : Prop := ∀ slot, k.flags slot < 32

namespace KittyFlags

/-- An empty stack has none. -/
theorem narrow_empty : Narrow {} := fun _ => (by decide : (0 : UInt8) < 32)

/-- One slot is set to flags that are narrow. -/
theorem Narrow.update {k : KittyFlags} (h : k.Narrow) (i : Fin 8) {v : UInt8} (hv : v < 32)
    (index : Fin 8) : Narrow { flags := Function.update k.flags i v, index := index } := by
  intro slot
  by_cases hs : slot = i
  · simpa [hs] using hv
  · simpa [hs] using h slot

/-- Pushed flags are masked. -/
theorem Narrow.push {k : KittyFlags} (h : k.Narrow) (v : UInt8) : (k.push v).Narrow :=
  h.update _ (and_mask_lt v) _

/-- A popped slot goes back to zero. -/
theorem Narrow.pop {k : KittyFlags} (h : k.Narrow) (count : ℕ) : (k.pop count).Narrow := by
  rw [KittyFlags.pop]
  split
  · exact narrow_empty
  · induction count with
    | zero => exact h
    | succ n ih =>
      rw [Function.iterate_succ_apply']
      exact (ih (by omega)).update _ (by decide) _

/-- Set, added or removed flags are masked. -/
theorem Narrow.set {k : KittyFlags} (h : k.Narrow) (v : UInt8) (mode : ℕ) :
    (k.set v mode).Narrow := by
  have hindex := h k.index
  unfold KittyFlags.set
  split
  · exact h.update _ (and_mask_lt v) _
  · refine h.update _ ?_ _
    have hv := and_mask_lt v
    rw [UInt8.lt_iff_toNat_lt] at *
    rw [UInt8.toNat_or]
    exact @Nat.or_lt_two_pow _ _ 5 hindex hv
  · refine h.update _ ?_ _
    rw [UInt8.lt_iff_toNat_lt] at *
    rw [UInt8.toNat_and]
    exact Nat.lt_of_le_of_lt Nat.and_le_left hindex
  · exact h

end KittyFlags

/-- Soundness of the screens goes by which one is shown and what each has. -/
theorem ScreensSound.congr {s s' : TerminalReplayState} (h : ScreensSound s)
    (hactive : s'.isAlternateActive = s.isAlternateActive)
    (hentry : s'.alternateEntryMode = s.alternateEntryMode)
    (hused : s'.alternateEverUsed = s.alternateEverUsed) (hkitty : s'.kitty = s.kitty)
    (htouched : s'.kittyTouched = s.kittyTouched) (hsaved : s'.savedCursor = s.savedCursor) :
    ScreensSound s' where
  active := by rw [hactive, hused]; exact h.active
  entry := by rw [hentry]; exact h.entry
  kitty_used := by rw [htouched, hused]; exact h.kitty_used
  saved_used := by rw [hsaved, hused]; exact h.saved_used
  kitty_untouched := by rw [htouched, hkitty]; exact h.kitty_untouched
  kitty_flags := by rw [hkitty]; exact h.kitty_flags

/-- DECSC saves on the screen that is shown. -/
theorem ScreensSound.saveCursor {s : TerminalReplayState} (h : ScreensSound s) :
    ScreensSound s.saveCursor := by
  refine ⟨h.active, h.entry, h.kitty_used, ?_, h.kitty_untouched, h.kitty_flags⟩
  intro hsaved
  unfold TerminalReplayState.saveCursor at hsaved
  cases hactive : s.isAlternateActive
  · rw [hactive] at hsaved
    exact h.saved_used hsaved
  · exact h.active hactive

/-- DECRC changes the cursor and origin mode alone. -/
theorem ScreensSound.restoreCursor {s : TerminalReplayState} (h : ScreensSound s) :
    ScreensSound s.restoreCursor := h.congr rfl rfl rfl rfl rfl rfl

/-- The mode a screen was entered by is one of the three. -/
theorem ScreensSound.switchScreen {s : TerminalReplayState} (h : ScreensSound s) {mode : ℕ}
    (hmode : mode ∈ alternateScreenModes) (enabled : Bool) :
    ScreensSound (s.switchScreen mode enabled) := by
  have hsave : ScreensSound (if mode == 1049 && enabled then s.saveCursor else s) := by
    split
    exacts [h.saveCursor, h]
  unfold TerminalReplayState.switchScreen
  dsimp only
  generalize (if mode == 1049 && enabled then s.saveCursor else s) = s at hsave
  cases enabled with
  | true =>
    have hused : ∀ s : TerminalReplayState, ScreensSound s →
        ScreensSound { s with alternateEntryMode := mode, alternateEverUsed := true } := fun s hs =>
      ⟨fun _ => rfl, hmode, fun _ => rfl, fun _ => rfl, hs.kitty_untouched, hs.kitty_flags⟩
    simp only [if_true]
    split
    · exact ⟨fun _ => rfl, hmode, fun _ => rfl, fun _ => rfl, hsave.kitty_untouched,
        hsave.kitty_flags⟩
    · exact hused s hsave
  | false =>
    have hleft : ScreensSound (if false != s.isAlternateActive then
        { s with hyperlink := none, isAlternateActive := false } else s) := by
      split
      · exact ⟨by simp, hsave.entry, hsave.kitty_used, hsave.saved_used, hsave.kitty_untouched,
          hsave.kitty_flags⟩
      · exact hsave
    simp only [Bool.false_eq_true, if_false]
    split
    exacts [hleft.restoreCursor, hleft]

/-- Other modes leave the screens alone. -/
theorem ScreensSound.setDECMode {s : TerminalReplayState} (h : ScreensSound s) (mode : ℕ)
    (enabled : Bool) : ScreensSound (s.setDECMode mode enabled) := by
  unfold TerminalReplayState.setDECMode
  split
  · exact h.congr rfl rfl rfl rfl rfl rfl
  split
  · exact h.congr rfl rfl rfl rfl rfl rfl
  split
  · exact h.congr rfl rfl rfl rfl rfl rfl
  split
  case isTrue hmode =>
    refine ScreensSound.switchScreen ?_ hmode enabled
    exact h.congr rfl rfl rfl rfl rfl rfl
  split
  · split
    exacts [h.saveCursor, h.restoreCursor]
  · exact h

/-- A change of the shown screen's stack that keeps flags narrow. -/
theorem ScreensSound.changeKitty {s : TerminalReplayState} (h : ScreensSound s)
    {f : KittyFlags → KittyFlags} (hf : ∀ k : KittyFlags, k.Narrow → (f k).Narrow) :
    ScreensSound (s.changeKitty f) := by
  unfold TerminalReplayState.changeKitty
  refine ⟨h.active, h.entry, ?_, h.saved_used, ?_, ?_⟩
  · intro htouched
    cases hactive : s.isAlternateActive
    · rw [hactive] at htouched
      exact h.kitty_used htouched
    · exact h.active hactive
  · intro b htouched
    rw [Screens.get_set] at htouched ⊢
    split_ifs at htouched ⊢
    exact h.kitty_untouched b htouched
  · intro b
    rw [Screens.get_set]
    split
    · exact hf _ (h.kitty_flags _)
    · exact h.kitty_flags b

/-- A soft reset clears the saved cursor of the screen that is shown. -/
theorem ScreensSound.softReset {s : TerminalReplayState} (h : ScreensSound s) :
    ScreensSound s.softReset := by
  rw [TerminalReplayState.softReset]
  refine ⟨h.active, h.entry, h.kitty_used, ?_, h.kitty_untouched, h.kitty_flags⟩
  intro hsaved
  dsimp only at hsaved
  cases hactive : s.isAlternateActive
  · rw [hactive] at hsaved
    exact h.saved_used hsaved
  · exact h.active hactive

/-- RIS goes back to the primary screen and empties both stacks. -/
theorem ScreensSound.fullReset {s : TerminalReplayState} (h : ScreensSound s) :
    ScreensSound s.fullReset := by
  rw [TerminalReplayState.fullReset]
  exact ⟨by simp, h.entry, h.kitty_used, by simp, fun b _ => by cases b <;> rfl,
    fun b => by cases b <;> exact KittyFlags.narrow_empty⟩

/-- **The screens stay sound by every change.** -/
theorem ScreensSound.change {s s' : TerminalReplayState} (h : ScreensSound s) (hc : Change s s') :
    ScreensSound s' := by
  cases hc with
  | setDECMode mode enabled _ => exact h.setDECMode mode enabled
  | setANSIMode mode enabled =>
    unfold TerminalReplayState.setANSIMode
    split
    exacts [h.congr rfl rfl rfl rfl rfl rfl, h]
  | saveCursor => exact h.saveCursor
  | restoreCursor => exact h.restoreCursor
  | softReset => exact h.softReset
  | fullReset => exact h.fullReset
  | kittyPush flags => exact h.changeKitty fun k hk => hk.push flags
  | kittyPop count => exact h.changeKitty fun k hk => hk.pop count
  | kittySet flags mode => exact h.changeKitty fun k hk => hk.set flags mode
  | applySGR colons params _ =>
    obtain ⟨pen, hpen⟩ := applySGR_eq s (serializeFrom colons 0 params) (params = [] ∨ params = [0])
      (params.head? = some 0 ∧ colons.testBit 0 = false)
    rw [hpen]
    exact h.congr rfl rfl rfl rfl rfl rfl
  | _ => exact h.congr rfl rfl rfl rfl rfl rfl

/-! ## Cursors are kept -/

/-- Attributes set behind one another are a pen that can be written back, as long as none of them
resets it. -/
theorem PenSound.applySGR {pen : Pen} (h : PenSound pen) {colons : ℕ} {params : List ℕ}
    (hparams : ParamList params) (hreset : ¬ (params = [] ∨ params = [0]))
    (hstarts : ¬ (params.head? = some 0 ∧ colons.testBit 0 = false)) :
    PenSound ((pen ++ [serializeFrom colons 0 params]).drop
      ((pen ++ [serializeFrom colons 0 params]).length - maximumPenSequences)) := by
  have hentry : PenEntry (serializeFrom colons 0 params) colons params :=
    ⟨rfl, hparams, fun h => hreset (Or.inl h), fun h => hreset (Or.inr h)⟩
  refine ⟨by rw [List.length_drop]; omega, ?_, ?_⟩
  · intro p hp
    rcases List.mem_append.mp (List.mem_of_mem_drop hp) with hp | hp
    · exact h.entry p hp
    · exact List.mem_singleton.mp hp ▸ ⟨colons, params, hentry⟩
  · intro p hp
    have hp : p ∈ (pen ++ [serializeFrom colons 0 params]).tail := by
      rw [List.tail_drop, Nat.add_comm, ← List.drop_drop, List.drop_one] at hp
      exact List.mem_of_mem_drop hp
    cases pen with
    | nil => simp at hp
    | cons q pen =>
      rw [List.cons_append, List.tail_cons] at hp
      rcases List.mem_append.mp hp with hp | hp
      · exact h.continues p hp
      · exact List.mem_singleton.mp hp ▸ ⟨colons, params, hentry, hstarts⟩

/-- Soundness of the cursors goes by the pen, the charsets and what is saved. -/
theorem CursorsSound.congr {s s' : TerminalReplayState} (h : CursorsSound s)
    (hpen : s'.cursor.pen = s.cursor.pen) (hcharsets : s'.cursor.charsets = s.cursor.charsets)
    (htouched : s'.charsetsTouched = s.charsetsTouched) (hsaved : s'.savedCursor = s.savedCursor) :
    CursorsSound s' where
  cursor := ⟨by rw [hpen]; exact h.cursor.pen, by rw [hcharsets]; exact h.cursor.charsets⟩
  saved := by rw [hsaved]; exact h.saved
  untouched := by rw [htouched, hcharsets]; exact h.untouched
  saved_untouched := by rw [htouched, hsaved]; exact h.saved_untouched

/-- What is saved is the cursor there is. -/
theorem CursorsSound.saveCursor {s : TerminalReplayState} (h : CursorsSound s) :
    CursorsSound s.saveCursor := by
  rw [TerminalReplayState.saveCursor]
  refine ⟨h.cursor, ?_, h.untouched, ?_⟩
  · intro b c hc
    rw [Screens.get_set] at hc
    split_ifs at hc
    · exact Option.some.inj hc ▸ h.cursor
    · exact h.saved b c hc
  · intro htouched b c hc
    rw [Screens.get_set] at hc
    split_ifs at hc
    · exact Option.some.inj hc ▸ h.untouched htouched
    · exact h.saved_untouched htouched b c hc

/-- What comes back was saved, or is a fresh cursor. -/
theorem CursorsSound.restoreCursor {s : TerminalReplayState} (h : CursorsSound s) :
    CursorsSound s.restoreCursor := by
  rw [TerminalReplayState.restoreCursor]
  refine ⟨?_, h.saved, ?_, h.saved_untouched⟩
  · dsimp only
    cases hc : s.savedCursor.get s.isAlternateActive with
    | none => exact cursorSound_empty
    | some c => exact h.saved _ c hc
  · intro htouched
    dsimp only
    cases hc : s.savedCursor.get s.isAlternateActive with
    | none => rfl
    | some c => exact h.saved_untouched htouched _ c hc

/-- Entering and leaving save and restore. -/
theorem CursorsSound.switchScreen {s : TerminalReplayState} (h : CursorsSound s) (mode : ℕ)
    (enabled : Bool) : CursorsSound (s.switchScreen mode enabled) := by
  have hsave : CursorsSound (if mode == 1049 && enabled then s.saveCursor else s) := by
    split
    exacts [h.saveCursor, h]
  unfold TerminalReplayState.switchScreen
  dsimp only
  generalize (if mode == 1049 && enabled then s.saveCursor else s) = s at hsave
  have hactive : CursorsSound (if enabled != s.isAlternateActive then
      { s with hyperlink := none, isAlternateActive := enabled } else s) := by
    split
    exacts [hsave.congr rfl rfl rfl rfl, hsave]
  generalize (if enabled != s.isAlternateActive then
      { s with hyperlink := none, isAlternateActive := enabled } else s) = s at hactive
  split
  · exact hactive.congr rfl rfl rfl rfl
  · split
    exacts [hactive.restoreCursor, hactive]

/-- Mode 1048 does so by itself. -/
theorem CursorsSound.setDECMode {s : TerminalReplayState} (h : CursorsSound s) (mode : ℕ)
    (enabled : Bool) : CursorsSound (s.setDECMode mode enabled) := by
  unfold TerminalReplayState.setDECMode
  split
  · dsimp only
    split
    all_goals exact h.congr rfl rfl rfl rfl
  split
  · exact h.congr rfl rfl rfl rfl
  split
  · exact h.congr rfl rfl rfl rfl
  split
  · refine CursorsSound.switchScreen ?_ mode enabled
    exact h.congr rfl rfl rfl rfl
  split
  · split
    exacts [h.saveCursor, h.restoreCursor]
  · exact h

/-- Charsets changed: from here on they are touched. -/
theorem CursorsSound.setCharsets {s : TerminalReplayState} (h : CursorsSound s)
    {charsets : Charsets} (hcharsets : CharsetsSound charsets) :
    CursorsSound { s with
      cursor := { s.cursor with charsets := charsets }, charsetsTouched := true } :=
  ⟨⟨h.cursor.pen, hcharsets⟩, h.saved, by simp, by simp⟩

/-- **The cursors stay sound by every change.** -/
theorem CursorsSound.change {s s' : TerminalReplayState} (h : CursorsSound s) (hc : Change s s') :
    CursorsSound s' := by
  have hcharsets := h.cursor.charsets
  cases hc with
  | setDECMode mode enabled _ => exact h.setDECMode mode enabled
  | setANSIMode mode enabled =>
    unfold TerminalReplayState.setANSIMode
    split
    exacts [h.congr rfl rfl rfl rfl, h]
  | saveCursor => exact h.saveCursor
  | restoreCursor => exact h.restoreCursor
  | softReset =>
    rw [TerminalReplayState.softReset]
    refine ⟨cursorSound_empty, fun b c hc => ?_, fun _ => rfl, fun htouched b c hc => ?_⟩
    all_goals
      dsimp only at hc
      rw [Screens.get_set] at hc
      split_ifs at hc
    exacts [h.saved b c hc, h.saved_untouched htouched b c hc]
  | fullReset =>
    rw [TerminalReplayState.fullReset]
    refine ⟨cursorSound_empty, fun b c hc => ?_, fun _ => rfl, fun _ b c hc => ?_⟩
    all_goals cases b <;> simp at hc
  | applySGR colons params hparams =>
    unfold TerminalReplayState.applySGR
    split
    case isTrue => exact ⟨⟨penSound_nil, hcharsets⟩, h.saved, h.untouched, h.saved_untouched⟩
    case isFalse hreset =>
      have hreset : ¬ (params = [] ∨ params = [0]) := by simpa using hreset
      split
      · refine ⟨⟨⟨by simp [maximumPenSequences], ?_, by simp⟩, hcharsets⟩, h.saved, h.untouched,
          h.saved_untouched⟩
        intro p hp
        exact List.mem_singleton.mp hp ▸ ⟨colons, params, rfl, hparams, fun h => hreset (Or.inl h),
          fun h => hreset (Or.inr h)⟩
      case isFalse hstarts =>
        exact ⟨⟨h.cursor.pen.applySGR hparams hreset (by simpa using hstarts), hcharsets⟩, h.saved,
          h.untouched, h.saved_untouched⟩
  | designateCharset slot final hfinal =>
    refine h.setCharsets ⟨fun i => ?_, hcharsets.gl, hcharsets.gr⟩
    by_cases hi : i = slot
    · simpa [hi] using Or.inr hfinal
    · simpa [hi] using hcharsets.slots i
  | invokeGL gl hgl => exact h.setCharsets ⟨hcharsets.slots, hgl, hcharsets.gr⟩
  | invokeGR gr hgr => exact h.setCharsets ⟨hcharsets.slots, hcharsets.gl, hgr⟩
  | _ => exact h.congr rfl rfl rfl rfl

/-! ## Settings are kept -/

/-- Soundness of the settings goes by the settings alone. -/
theorem SettingsSound.congr {s s' : TerminalReplayState} (h : SettingsSound s)
    (hformat : s'.modifyKeyFormat = s.modifyKeyFormat) (hstyle : s'.cursorStyle = s.cursorStyle)
    (hpalette : s'.palette = s.palette) (hdynamic : s'.dynamicColors = s.dynamicColors)
    (htitle : s'.title = s.title) (hdirectory : s'.workingDirectory = s.workingDirectory)
    (hlink : s'.hyperlink = s.hyperlink ∨ s'.hyperlink = none)
    (htouched : s'.hyperlinkTouched = s.hyperlinkTouched)
    (hregion : s'.scrollRegion = s.scrollRegion)
    (hregionTouched : s'.scrollRegionTouched = s.scrollRegionTouched) : SettingsSound s' where
  modifyKeyFormat := by rw [hformat]; exact h.modifyKeyFormat
  cursorStyle := by rw [hstyle]; exact h.cursorStyle
  palette := by rw [hpalette]; exact h.palette
  dynamicColors := by rw [hdynamic]; exact h.dynamicColors
  title := by rw [htitle]; exact h.title
  workingDirectory := by rw [hdirectory]; exact h.workingDirectory
  hyperlink := by
    rw [htouched]
    rcases hlink with hlink | hlink
    · rw [hlink]; exact h.hyperlink
    · simp [hlink]
  scrollRegion := by rw [hregion, hregionTouched]; exact h.scrollRegion

/-- A restored cursor is no setting. -/
theorem SettingsSound.restoreCursor {s : TerminalReplayState} (h : SettingsSound s) :
    SettingsSound s.restoreCursor := h.congr rfl rfl rfl rfl rfl rfl (Or.inl rfl) rfl rfl rfl

/-- Nor is the screen that is shown. -/
theorem SettingsSound.switchScreen {s : TerminalReplayState} (h : SettingsSound s) (mode : ℕ)
    (enabled : Bool) : SettingsSound (s.switchScreen mode enabled) := by
  have hsave : SettingsSound (if mode == 1049 && enabled then s.saveCursor else s) := by
    split
    exacts [h.congr rfl rfl rfl rfl rfl rfl (Or.inl rfl) rfl rfl rfl, h]
  unfold TerminalReplayState.switchScreen
  dsimp only
  generalize (if mode == 1049 && enabled then s.saveCursor else s) = s at hsave
  have hactive : SettingsSound (if enabled != s.isAlternateActive then
      { s with hyperlink := none, isAlternateActive := enabled } else s) := by
    split
    exacts [hsave.congr rfl rfl rfl rfl rfl rfl (Or.inr rfl) rfl rfl rfl, hsave]
  generalize (if enabled != s.isAlternateActive then
      { s with hyperlink := none, isAlternateActive := enabled } else s) = s at hactive
  split
  · exact hactive.congr rfl rfl rfl rfl rfl rfl (Or.inl rfl) rfl rfl rfl
  · split
    exacts [hactive.restoreCursor, hactive]

/-- Nor is a mode. -/
theorem SettingsSound.setDECMode {s : TerminalReplayState} (h : SettingsSound s) (mode : ℕ)
    (enabled : Bool) : SettingsSound (s.setDECMode mode enabled) := by
  unfold TerminalReplayState.setDECMode
  split
  · exact h.congr rfl rfl rfl rfl rfl rfl (Or.inl rfl) rfl rfl rfl
  split
  · exact h.congr rfl rfl rfl rfl rfl rfl (Or.inl rfl) rfl rfl rfl
  split
  · exact h.congr rfl rfl rfl rfl rfl rfl (Or.inl rfl) rfl rfl rfl
  split
  · refine SettingsSound.switchScreen ?_ mode enabled
    exact h.congr rfl rfl rfl rfl rfl rfl (Or.inl rfl) rfl rfl rfl
  split
  · split
    exacts [h.congr rfl rfl rfl rfl rfl rfl (Or.inl rfl) rfl rfl rfl, h.restoreCursor]
  · exact h

/-- The reset `CSI > m`. -/
theorem keyFormat_reset : KeyFormat (ascii ">m") 0 [] 0x6D :=
  ⟨by decide, ⟨Nat.zero_le _, by simp⟩, Or.inl rfl⟩

/-- A reset puts the key format and the cursor's style at their defaults, which can be written. -/
theorem SettingsSound.resetFormats {s : TerminalReplayState} (h : SettingsSound s) :
    (∀ f, (s.modifyKeyFormat.map fun _ => ascii ">m") = some f → ∃ colons params final,
        KeyFormat f colons params final)
      ∧ (∀ v, (s.cursorStyle.map fun _ => 0) = some v → v ≤ 65535)
      ∧ ∀ r, (if s.scrollRegionTouched then none else s.scrollRegion) = some r →
        s.scrollRegionTouched = true ∧ r.1 ≤ 65535 ∧ r.2 ≤ 65535 ∧ ¬ (r.1 ≤ 1 ∧ r.2 = 0) := by
  refine ⟨fun f hf => ?_, fun v hv => ?_, fun r hr => ?_⟩
  · obtain ⟨-, -, rfl⟩ := Option.map_eq_some_iff.mp hf
    exact ⟨0, [], 0x6D, keyFormat_reset⟩
  · obtain ⟨-, -, rfl⟩ := Option.map_eq_some_iff.mp hv
    exact Nat.zero_le _
  · split_ifs at hr
    exact h.scrollRegion r hr

/-- **The settings stay sound by every change.** -/
theorem SettingsSound.change {s s' : TerminalReplayState} (h : SettingsSound s) (hc : Change s s') :
    SettingsSound s' := by
  cases hc with
  | setDECMode mode enabled _ => exact h.setDECMode mode enabled
  | setANSIMode mode enabled =>
    unfold TerminalReplayState.setANSIMode
    split
    exacts [h.congr rfl rfl rfl rfl rfl rfl (Or.inl rfl) rfl rfl rfl, h]
  | applySGR colons params _ =>
    obtain ⟨pen, hpen⟩ := applySGR_eq s (serializeFrom colons 0 params) (params = [] ∨ params = [0])
      (params.head? = some 0 ∧ colons.testBit 0 = false)
    rw [hpen]
    exact h.congr rfl rfl rfl rfl rfl rfl (Or.inl rfl) rfl rfl rfl
  | modifyKeyFormat colons params final hparams hfinal =>
    refine { h with modifyKeyFormat := fun f hf => ?_ }
    exact Option.some.inj hf ▸ ⟨colons, params, final, rfl, hparams, hfinal⟩
  | cursorStyle style hstyle =>
    exact { h with cursorStyle := fun v hv => Option.some.inj hv ▸ hstyle }
  | restoreCursor => exact h.restoreCursor
  | softReset =>
    obtain ⟨hformat, hstyle, hregion⟩ := h.resetFormats
    rw [TerminalReplayState.softReset]
    exact ⟨hformat, hstyle, by simp, h.dynamicColors, h.title, h.workingDirectory, h.hyperlink,
      hregion⟩
  | fullReset =>
    obtain ⟨hformat, hstyle, hregion⟩ := h.resetFormats
    rw [TerminalReplayState.fullReset]
    refine ⟨hformat, hstyle, by simp, h.dynamicColors, ?_, by simp, by simp, hregion⟩
    intro text htext
    obtain ⟨-, -, rfl⟩ := Option.map_eq_some_iff.mp htext
    exact ⟨by simp [Printable], by decide⟩
  | setScrollRegion top bottom htop hbottom =>
    rw [TerminalReplayState.setScrollRegion]
    refine { h with scrollRegion := fun r hr => ?_ }
    dsimp only at hr
    split_ifs at hr with hwhole
    obtain rfl := Option.some.inj hr
    exact ⟨rfl, htop, hbottom, hwhole⟩
  | title text htext => exact { h with title := fun t ht => Option.some.inj ht ▸ htext }
  | workingDirectory text htext =>
    exact { h with workingDirectory := fun t ht => Option.some.inj ht ▸ htext }
  | setHyperlink value hvalue =>
    exact { h with hyperlink := fun text ht => ⟨hvalue text ht, rfl⟩ }
  | insertPalette color spec hspec =>
    refine { h with palette := fun c p hp => ?_ }
    rw [Dict.get?_insert] at hp
    split_ifs at hp with heq
    · exact heq ▸ Option.some.inj hp ▸ hspec
    · exact h.palette c p hp
  | erasePalette color =>
    refine { h with palette := fun c p hp => ?_ }
    rw [Dict.get?_erase] at hp
    split_ifs at hp
    exact h.palette c p hp
  | clearPalette => exact { h with palette := by simp }
  | insertDynamicColor index value hvalue =>
    refine { h with dynamicColors := fun i v hv => ?_ }
    rw [Dict.get?_insert] at hv
    split_ifs at hv with heq
    · exact heq ▸ Option.some.inj hv ▸ hvalue
    · exact h.dynamicColors i v hv
  | _ => exact h.congr rfl rfl rfl rfl rfl rfl (Or.inl rfl) rfl rfl rfl

/-! ## Every reachable terminal -/

/-- **A sound state stays sound by every change.** -/
theorem Sound.change {s s' : TerminalReplayState} (h : Sound s) (hc : Change s s') : Sound s' :=
  ⟨h.modes.change hc, h.screens.change hc, h.cursors.change hc, h.settings.change hc⟩

/-- And by any number of them. -/
theorem Sound.changes {s s' : TerminalReplayState} (h : Sound s) (hc : Changes s s') : Sound s' :=
  hc.keeps (fun _ _ hs => hs.change) h

/-- **Every terminal a stream leaves is sound.** -/
theorem sound_of_stream (stream : List UInt8) (offset : ℤ) :
    Sound (({} : TerminalStreamTracker).run stream offset).terminal :=
  sound_empty.changes (TerminalStreamTracker.changes_of_stream stream offset)

end TerminalReplayState
