import IGhostVT.Session.ParserPosition
import IGhostVT.Session.Reading
import IGhostVT.Session.Sound

/-!
# Session/ThemeChanges — what turns the reports of light and dark on and off

Of all the changes a byte can make to a terminal, three reach DEC mode 2031: a full reset, a private
set or reset that names it, and a restore of it.  The first two are what a program asks with; the
third puts back what an XTSAVE kept.
-/

namespace TerminalReplayState

/-- DEC mode 2031. -/
def themeMode : ℕ := 2031

variable {s s' s'' : TerminalReplayState}

/-- The mode is as it was. -/
def SameTheme (s s' : TerminalReplayState) : Prop :=
  s'.decModes.get? themeMode = s.decModes.get? themeMode

/-- Nothing changes the theme mode by doing nothing. -/
theorem SameTheme.refl (s : TerminalReplayState) : SameTheme s s := rfl

/-- Two changes that leave it leave it together. -/
theorem SameTheme.trans (h : SameTheme s s') (h' : SameTheme s' s'') : SameTheme s s'' :=
  Eq.trans h' h

/-- Both branches leave it. -/
theorem sameTheme_ite {c : Prop} [Decidable c] {a b : TerminalReplayState} (ha : c → SameTheme s a)
    (hb : ¬ c → SameTheme s b) : SameTheme s (if c then a else b) := by
  split
  exacts [ha ‹_›, hb ‹_›]

/-- A theme mode that was never set is off. -/
theorem decMode_theme (s : TerminalReplayState) :
    s.decMode themeMode = (s.decModes.get? themeMode).getD false := by
  rw [decMode, if_neg (by decide), if_neg (by decide), if_neg (by decide)]
  rfl

/-- What leaves the mode leaves its value. -/
theorem SameTheme.decMode (h : SameTheme s s') : s'.decMode themeMode = s.decMode themeMode := by
  rw [decMode_theme, decMode_theme, h]

/-- Any number of changes that leave it. -/
theorem sameTheme_foldl {α : Type*} {f : TerminalReplayState → α → TerminalReplayState}
    (as : List α) (hf : ∀ a ∈ as, ∀ s, SameTheme s (f s a)) (s : TerminalReplayState) :
    SameTheme s (as.foldl f s) := by
  induction as generalizing s with
  | nil => exact .refl s
  | cons a as ih =>
    exact (hf a List.mem_cons_self s).trans
      (ih (fun b hb => hf b (List.mem_cons_of_mem _ hb)) (f s a))

/-- DECRC brings back origin mode, which is another. -/
theorem sameTheme_restoreCursor (s : TerminalReplayState) : SameTheme s s.restoreCursor := by
  rw [SameTheme, restoreCursor]
  dsimp only
  split
  · exact Dict.get?_insert_of_ne _ (by decide) _
  · rfl

/-- The screens are others, too. -/
theorem sameTheme_switchScreen (s : TerminalReplayState) (mode : ℕ) (enabled : Bool) :
    SameTheme s (s.switchScreen mode enabled) := by
  have hsaved : SameTheme s (if mode == 1049 && enabled then s.saveCursor else s) :=
    sameTheme_ite (fun _ => rfl) fun _ => rfl
  unfold switchScreen
  dsimp only
  generalize (if mode == 1049 && enabled then s.saveCursor else s) = s₁ at hsaved
  have hshown : SameTheme s₁ (if enabled != s₁.isAlternateActive then
      { s₁ with hyperlink := none, isAlternateActive := enabled } else s₁) :=
    sameTheme_ite (fun _ => rfl) fun _ => rfl
  generalize (if enabled != s₁.isAlternateActive then
      { s₁ with hyperlink := none, isAlternateActive := enabled } else s₁) = s₂ at hshown
  refine (hsaved.trans hshown).trans (sameTheme_ite (fun _ => rfl) fun _ => ?_)
  exact sameTheme_ite (fun _ => sameTheme_restoreCursor s₂) fun _ => rfl

/-- A set or a reset of another mode. -/
theorem sameTheme_setDECMode (s : TerminalReplayState) {mode : ℕ} (enabled : Bool)
    (hother : mode ≠ themeMode) : SameTheme s (s.setDECMode mode enabled) := by
  unfold setDECMode
  refine sameTheme_ite (fun _ => Dict.get?_insert_of_ne _ hother _) fun _ => ?_
  refine sameTheme_ite (fun _ => rfl) fun _ => ?_
  refine sameTheme_ite (fun _ => rfl) fun _ => ?_
  refine sameTheme_ite (fun _ => ?_) fun _ => ?_
  · exact sameTheme_switchScreen
      { s with alternateModeBits := s.alternateModeBits.insert mode enabled } mode enabled
  refine sameTheme_ite (fun _ => ?_) fun _ => rfl
  exact sameTheme_ite (fun _ => rfl) fun _ => sameTheme_restoreCursor s

/-- Setting it is recorded. -/
theorem setDECMode_theme (s : TerminalReplayState) (enabled : Bool) :
    (s.setDECMode themeMode enabled).decModes.get? themeMode = some enabled := by
  rw [setDECMode, if_pos (by decide)]
  exact Dict.get?_insert_self _ _ _

/-- Setting a mode saves none. -/
theorem setDECMode_savedDECModes (s : TerminalReplayState) (mode : ℕ) (enabled : Bool) :
    (s.setDECMode mode enabled).savedDECModes = s.savedDECModes := by
  unfold setDECMode switchScreen
  dsimp only
  split_ifs <;> rfl

/-- Several modes changed in turn, this one to `value` whenever its turn comes. -/
theorem foldl_theme {f : TerminalReplayState → ℕ → TerminalReplayState} {value : Bool}
    {p : TerminalReplayState → Prop} (hkeep : ∀ s mode, p s → p (f s mode))
    (hother : ∀ s mode, mode ≠ themeMode → SameTheme s (f s mode))
    (hset : ∀ s, p s → (f s themeMode).decModes.get? themeMode = some value) :
    ∀ (modes : List ℕ) {s : TerminalReplayState}, p s → (modes.foldl f s).decModes.get? themeMode
      = if themeMode ∈ modes then some value else s.decModes.get? themeMode := by
  intro modes
  induction modes with
  | nil => exact fun _ => rfl
  | cons mode modes ih =>
    intro s hs
    rw [List.foldl_cons, ih (hkeep s mode hs)]
    by_cases hmem : themeMode ∈ modes
    · rw [if_pos hmem, if_pos (List.mem_cons_of_mem _ hmem)]
    · rw [if_neg hmem]
      by_cases hmode : mode = themeMode
      · rw [if_pos (hmode ▸ List.mem_cons_self), hmode, hset s hs]
      · rw [if_neg fun h => hmem ((List.mem_cons.mp h).resolve_left (Ne.symm hmode)),
          hother s mode hmode]

/-- Several modes set at once set it when they name it. -/
theorem foldl_setDECMode_theme (modes : List ℕ) (enabled : Bool) (s : TerminalReplayState) :
    (modes.foldl (fun s mode => s.setDECMode mode enabled) s).decMode themeMode
      = if themeMode ∈ modes then enabled else s.decMode themeMode := by
  rw [decMode_theme, decMode_theme,
    @foldl_theme (fun s mode => s.setDECMode mode enabled) enabled (fun _ => True) (fun _ _ h => h)
      (fun s _ h => sameTheme_setDECMode s enabled h)
        (fun s _ => setDECMode_theme s enabled) modes s
      trivial]
  split <;> rfl

/-- XTRESTORE puts it at what was saved, or at its default. -/
theorem foldl_restoreDECMode_theme (modes : List ℕ) (s : TerminalReplayState) :
    (modes.foldl (fun s mode => s.restoreDECMode mode) s).decMode themeMode
      = if themeMode ∈ modes then (s.savedDECModes.get? themeMode).getD false
        else s.decMode themeMode := by
  rw [decMode_theme, decMode_theme,
    @foldl_theme (fun s mode => s.restoreDECMode mode) ((s.savedDECModes.get? themeMode).getD false)
      (fun s' => s'.savedDECModes = s.savedDECModes)
      (fun s' mode h => (setDECMode_savedDECModes s' mode _).trans h)
      (fun s' _ h => sameTheme_setDECMode s' _ h)
      (fun s' h => by rw [restoreDECMode, h]; exact setDECMode_theme s' _) modes s rfl]
  split <;> rfl

/-- DECSTR leaves it alone. -/
theorem sameTheme_softReset (s : TerminalReplayState) : SameTheme s s.softReset := by
  rw [SameTheme, softReset]
  dsimp only
  rw [get?_resetTouched]
  cases s.decModes.get? themeMode <;> rfl

/-- RIS turns it off. -/
theorem fullReset_theme (s : TerminalReplayState) : s.fullReset.decMode themeMode = false := by
  rw [decMode_theme]
  change ((s.decModes.mapKeys defaultDECMode).get? themeMode).getD false = false
  rw [Dict.get?_mapKeys]
  cases s.decModes.get? themeMode <;> rfl

end TerminalReplayState

namespace TerminalStreamTracker

open TerminalReplayState

variable {t : TerminalStreamTracker} {byte : UInt8}

/-- The parameters a final byte completes. -/
def finished (t : TerminalStreamTracker) : List ℕ :=
  if 0 < t.paramDigits then t.params ++ [t.paramValue] else t.params

/-- A final byte would dispatch a private CSI that names the mode. -/
structure NamesTheme (t : TerminalStreamTracker) : Prop where
  state : t.state = .csiEntry ∨ t.state = .csiParam ∨ t.state = .csiIntermediate
  intermediates : t.intermediates = [0x3F]
  colons : t.colons = 0
  overflowed : t.paramsOverflowed = false
  length : t.params.length < maximumParams
  named : themeMode ∈ t.finished

/-- A `c` would be a full reset. -/
structure Resets (t : TerminalStreamTracker) : Prop where
  state : t.state = .escape ∨ t.state = .escapeIntermediate
  intermediates : t.intermediates = []

/-- A set, a reset or a restore. -/
def ChangesMode (final : UInt8) : Prop := final = 0x68 ∨ final = 0x6C ∨ final = 0x72

/-! ## Dispatches

Two commands reach the theme mode: a CSI sequence that names 2031, and RIS. Every other dispatch
leaves it, by one lemma for each function of the tracker. -/

/-- Cutting out is nothing the terminal sees. -/
theorem sameTheme_excise (lower upper : ℤ) :
    SameTheme t.terminal (t.excise lower upper).terminal := by
  rw [excise_terminal]
  exact .refl _

/-- Both branches leave the terminal's. -/
theorem sameTheme_terminal_ite {c : Prop} [Decidable c] {a b : TerminalStreamTracker}
    (ha : c → SameTheme t.terminal a.terminal) (hb : ¬ c → SameTheme t.terminal b.terminal) :
    SameTheme t.terminal (if c then a else b).terminal := by
  split
  exacts [ha ‹_›, hb ‹_›]

/-- Controls leave it. -/
theorem sameTheme_execute (byte : UInt8) (o : ℤ) :
    SameTheme t.terminal (t.execute byte o).terminal := by
  unfold execute
  refine sameTheme_terminal_ite (fun _ => sameTheme_excise _ _) fun _ => ?_
  iterate 2 refine sameTheme_terminal_ite (fun _ => rfl) fun _ => ?_
  exact .refl _

/-- Escape sequences but RIS leave it. -/
theorem sameTheme_escapeDispatch (o : ℤ) (hreset : t.intermediates = [] → byte ≠ 0x63) :
    SameTheme t.terminal (t.escapeDispatch byte o).terminal := by
  unfold escapeDispatch
  refine sameTheme_terminal_ite (fun _ => rfl) fun _ => ?_
  have hpending : SameTheme t.terminal { t with terminatorPending := false }.terminal := rfl
  refine hpending.trans ?_
  have hreset' : { t with terminatorPending := false }.intermediates = [] → byte ≠ 0x63 := hreset
  generalize ({ t with terminatorPending := false } : TerminalStreamTracker) = t at hreset'
  dsimp only
  rcases hintermediates : t.intermediates with _ | ⟨intermediate, _ | ⟨_, _⟩⟩
  · have hnot := hreset' hintermediates
    dsimp only
    refine sameTheme_terminal_ite (fun _ => rfl) fun _ => ?_
    refine sameTheme_terminal_ite (fun _ => sameTheme_restoreCursor _) fun _ => ?_
    iterate 2
      refine sameTheme_terminal_ite (fun _ => sameTheme_setDECMode _ _ (by decide)) fun _ => ?_
    refine sameTheme_terminal_ite (fun _ => sameTheme_excise _ _) fun _ => ?_
    refine sameTheme_terminal_ite (fun h => absurd h hnot) fun _ => ?_
    iterate 5 refine sameTheme_terminal_ite (fun _ => rfl) fun _ => ?_
    exact .refl _
  · dsimp only
    cases charsetSlot intermediate with
    | none => exact .refl _
    | some slot => exact sameTheme_terminal_ite (fun _ => rfl) fun _ => rfl
  · exact .refl _

/-- RIS turns it off. -/
theorem escapeDispatch_reset (o : ℤ) (hintermediates : t.intermediates = []) :
    (t.escapeDispatch 0x63 o).terminal.decMode themeMode = false := by
  have hreset : (t.escapeDispatch 0x63 o).terminal = t.terminal.fullReset := by
    rw [escapeDispatch, if_neg fun h => absurd h.1 (by decide)]
    dsimp only
    rw [hintermediates]
    rfl
  rw [hreset, fullReset_theme]

/-- Nothing but a private set, reset or restore that names the mode changes it. -/
theorem sameTheme_csiApply (final : UInt8) (o : ℤ)
    (hother : ChangesMode final → t.intermediates = [0x3F] → themeMode ∉ t.params) :
    SameTheme t.terminal (t.csiApply final o).terminal := by
  have hexcise : SameTheme t.terminal (t.excise t.sequenceStart (o + 1)).terminal :=
    sameTheme_excise _ _
  have hset : (final = 0x68 ∨ final = 0x6C) → t.intermediates = [0x3F] → SameTheme t.terminal
      (t.mapTerminal fun s =>
        t.params.foldl (fun s mode => s.setDECMode mode (final == 0x68)) s).terminal :=
    fun hfinal hprivate => sameTheme_foldl t.params (fun mode hmode s =>
      sameTheme_setDECMode s _ fun heq =>
        hother (by unfold ChangesMode; tauto) hprivate (heq ▸ hmode)) _
  have hrestore : final = 0x72 → t.intermediates = [0x3F] → SameTheme t.terminal
      (t.mapTerminal fun s => t.params.foldl (fun s mode => s.restoreDECMode mode) s).terminal :=
    fun hfinal hprivate => sameTheme_foldl t.params (fun mode hmode s =>
      sameTheme_setDECMode s _ fun heq => hother (.inr (.inr hfinal)) hprivate (heq ▸ hmode)) _
  have hansi : ∀ enabled, SameTheme t.terminal
      (t.mapTerminal fun s =>
        t.params.foldl (fun s mode => s.setANSIMode mode enabled) s).terminal :=
    fun enabled => sameTheme_foldl t.params (fun mode _ s => by
      unfold setANSIMode
      exact sameTheme_ite (fun _ => rfl) fun _ => rfl) _
  have hsave : SameTheme t.terminal
      (t.mapTerminal fun s => t.params.foldl (fun s mode => s.saveDECMode mode) s).terminal :=
    sameTheme_foldl t.params (fun mode _ s => (rfl : SameTheme s (s.saveDECMode mode))) _
  have hpen : SameTheme t.terminal t.applySGR.terminal := by
    unfold applySGR mapTerminal TerminalReplayState.applySGR
    exact sameTheme_ite (fun _ => rfl) fun _ => sameTheme_ite (fun _ => rfl) fun _ => rfl
  have hsoft : SameTheme t.terminal (t.mapTerminal fun s => s.softReset).terminal :=
    sameTheme_softReset _
  have hcursor : SameTheme t.terminal (t.mapTerminal fun s => s.restoreCursor).terminal :=
    sameTheme_restoreCursor _
  unfold csiApply
  dsimp only
  repeat' first
    | with_reducible exact hset ‹_› ‹_›
    | with_reducible exact hrestore ‹_› ‹_›
    | with_reducible exact hansi _
    | with_reducible exact hsave
    | with_reducible exact hpen
    | with_reducible exact hexcise
    | with_reducible exact hsoft
    | with_reducible exact hcursor
    | with_reducible exact .refl _
    | refine sameTheme_terminal_ite (fun _ => ?_) fun _ => ?_
    | rfl

/-- What a final byte dispatches: the parameters complete, unless the sequence is dropped. -/
theorem csiDispatch_cases (t : TerminalStreamTracker) (final : UInt8) (o : ℤ) :
    (t.csiDispatch final o).terminal = t.terminal ∨
      t.paramsOverflowed = false ∧ t.params.length < maximumParams ∧ (final ≠ 0x6D → t.colons = 0) ∧
        ∃ t' : TerminalStreamTracker, t.csiDispatch final o = t'.csiApply final o ∧
          t'.terminal = t.terminal ∧ t'.intermediates = t.intermediates ∧
          t'.params = t.finished := by
  unfold csiDispatch
  dsimp only
  split
  · exact .inl rfl
  case isFalse hwhole =>
    obtain ⟨hoverflow, hlength⟩ := not_or.mp hwhole
    have hfinished : ∃ t' : TerminalStreamTracker,
        (if 0 < t.paramDigits then
          ({ t with terminatorPending := false, params := t.params ++ [t.paramValue] } :
            TerminalStreamTracker)
        else { t with terminatorPending := false }) = t' ∧ t'.terminal = t.terminal ∧
          t'.intermediates = t.intermediates ∧ t'.params = t.finished ∧ t'.colons = t.colons := by
      refine ⟨_, rfl, ?_⟩
      unfold finished
      split <;> exact ⟨rfl, rfl, rfl, rfl⟩
    obtain ⟨t', heq, hterminal, hintermediates, hparams, hcolons⟩ := hfinished
    rw [heq, hcolons]
    split
    case isTrue => exact .inl hterminal
    case isFalse hbare =>
      refine .inr ⟨Bool.eq_false_of_not_eq_true hoverflow, Nat.lt_of_not_le hlength, ?_, t', rfl,
        hterminal, hintermediates, hparams⟩
      intro hfinal
      by_contra hne
      exact hbare ⟨hfinal, hne⟩

/-- CSI sequences leave it but for those that name it. -/
theorem sameTheme_csiDispatch (o : ℤ)
    (hstate : t.state = .csiEntry ∨ t.state = .csiParam ∨ t.state = .csiIntermediate)
    (hother : ChangesMode byte → ¬ t.NamesTheme) :
    SameTheme t.terminal
      (({ t with state := .ground } : TerminalStreamTracker).csiDispatch byte o).terminal := by
  rcases csiDispatch_cases { t with state := .ground } byte o with
    hsame | ⟨hoverflow, hlength, hcolons, t', heq, hterminal, hintermediates, hparams⟩
  · exact congrArg (fun s => s.decModes.get? themeMode) hsame
  · rw [heq]
    have hterminal : t'.terminal = t.terminal := hterminal
    rw [← hterminal]
    refine sameTheme_csiApply byte o fun hchanges hprivate hnamed => hother hchanges ?_
    have hnotSGR : byte ≠ 0x6D := by
      rcases hchanges with rfl | rfl | rfl <;> decide
    exact ⟨hstate, hintermediates ▸ hprivate, hcolons hnotSGR, hoverflow, hlength, hparams ▸ hnamed⟩

/-- A set, a reset or a restore that names the mode is carried out. -/
theorem NamesTheme.csiDispatch (h : t.NamesTheme) (hchanges : ChangesMode byte) (o : ℤ) :
    (({ t with state := .ground } : TerminalStreamTracker).csiDispatch byte o).terminal.decMode
      themeMode
      = if byte = 0x72 then (t.terminal.savedDECModes.get? themeMode).getD false
        else byte == 0x68 := by
  have happly : ∃ t' : TerminalStreamTracker,
      ({ t with state := .ground } : TerminalStreamTracker).csiDispatch byte o =
      t'.csiApply byte o ∧
        t'.terminal = t.terminal ∧ t'.intermediates = [0x3F] ∧ t'.params = t.finished := by
    unfold TerminalStreamTracker.csiDispatch
    dsimp only
    rw [if_neg
      (by rw [h.overflowed]; exact not_or.mpr ⟨Bool.false_ne_true, Nat.not_le.mpr h.length⟩)]
    refine ⟨_, if_neg ?_, ?_⟩
    · intro hbare
      refine hbare.2 ?_
      split <;> exact h.colons
    · unfold finished
      split <;> exact ⟨rfl, h.intermediates, rfl⟩
  obtain ⟨t', heq, hterminal, hprivate, hparams⟩ := happly
  have hnamed : themeMode ∈ t'.params := hparams ▸ h.named
  rw [heq, ← hterminal]
  unfold csiApply
  dsimp only
  rcases hchanges with rfl | rfl | rfl
  · rw [if_pos (.inl rfl), if_pos hprivate]
    exact (foldl_setDECMode_theme t'.params true t'.terminal).trans (if_pos hnamed)
  · rw [if_pos (.inr rfl), if_pos hprivate]
    exact (foldl_setDECMode_theme t'.params false t'.terminal).trans (if_pos hnamed)
  · have hnotBare : t'.intermediates ≠ [] := by
      rw [hprivate]
      exact List.cons_ne_nil _ _
    have hskip : ∀ {α : Type} {a b : α} {c : Prop} [Decidable c], ¬ c → (if c then a else b) = b :=
      fun h => if_neg h
    rw [hskip (by decide), hskip (by decide), hskip (by decide), hskip (by decide),
      hskip (by decide), hskip (by decide), if_pos rfl, if_neg hnotBare, if_pos hprivate]
    exact (foldl_restoreDECMode_theme t'.params t'.terminal).trans (if_pos hnamed)

/-! ## Steps

What one byte does to the theme mode, by whether it ends one of the two. -/

/-- The end of a string is no mode's. -/
theorem sameTheme_leave (newState : ParserState) (finish : StringEnd) (o : ℤ) :
    SameTheme t.terminal (t.leave newState finish o).terminal := by
  have hfinished := onlyTexts_finishString { t with terminatorPending := false } finish
  have hbegins : ∀ t' : TerminalStreamTracker,
      (t'.beginSequence newState o).terminal = t'.terminal := by
    intro t'
    rw [beginSequence]
    cases newState <;> rfl
  unfold leave
  dsimp only
  generalize ({ t with terminatorPending := false } : TerminalStreamTracker).finishString finish
    = finished at hfinished
  have hsame : SameTheme t.terminal finished.1.terminal := by
    rw [SameTheme, hfinished]
  rw [hbegins]
  refine hsame.trans ?_
  dsimp only
  exact sameTheme_terminal_ite (fun _ => sameTheme_excise _ _) fun _ => .refl _

/-- C1 controls leave it. -/
theorem sameTheme_anywhere (byte : UInt8) (o : ℤ) :
    SameTheme t.terminal (t.anywhere byte o).terminal := by
  unfold anywhere
  iterate 8 refine sameTheme_terminal_ite (fun _ => sameTheme_leave _ _ _) fun _ => ?_
  exact .refl _

/-- No byte at rest reaches it. -/
theorem sameTheme_ground (byte : UInt8) (o : ℤ) :
    SameTheme t.terminal (t.ground byte o).terminal := by
  have hbyte : ∀ (t : TerminalStreamTracker) (interrupts : Bool),
      SameTheme t.terminal (t.groundByte interrupts byte o).terminal := by
    intro t interrupts
    unfold groundByte
    iterate 2 refine sameTheme_terminal_ite (fun _ => rfl) fun _ => ?_
    refine sameTheme_terminal_ite (fun _ => sameTheme_execute byte o) fun _ => ?_
    refine sameTheme_terminal_ite (fun _ => .refl _) fun _ => ?_
    unfold utf8Lead
    iterate 7 refine sameTheme_terminal_ite (fun _ => rfl) fun _ => ?_
    exact .refl _
  unfold ground
  refine sameTheme_terminal_ite (fun _ => sameTheme_terminal_ite (fun _ => rfl) fun _ => ?_)
    fun _ => hbyte t false
  exact hbyte t.resetUtf8 true

/-- A byte of a sequence does when it ends RIS or a sequence that names the mode. -/
theorem sameTheme_sequenceByte (o : ℤ) (hreset : byte = 0x63 → ¬ t.Resets)
    (hother : ChangesMode byte → ¬ t.NamesTheme) :
    SameTheme t.terminal (t.sequenceByte byte o).terminal := by
  have hsame : ∀ t' : TerminalStreamTracker, t'.terminal = t.terminal →
      SameTheme t.terminal t'.terminal := fun t' h => by rw [SameTheme, h]
  have hexecute := @sameTheme_execute t byte o
  have hanywhere := @sameTheme_anywhere t byte o
  have hcollect : (t.collect byte).terminal = t.terminal := by
    rw [collect]
    split <;> rfl
  have hparam : (t.param byte).terminal = t.terminal := by
    rw [param]
    split_ifs <;> rfl
  have hpayload : (t.appendPayload byte).terminal = t.terminal := by
    rw [appendPayload]
    split <;> rfl
  have hescape : (t.state = .escape ∨ t.state = .escapeIntermediate) → SameTheme t.terminal
      (({ t with state := .ground } : TerminalStreamTracker).escapeDispatch byte o).terminal :=
    fun hstate => @sameTheme_escapeDispatch { t with state := .ground } byte o
      fun hnil hbyte => hreset hbyte ⟨hstate, hnil⟩
  have hcsi : (t.state = .csiEntry ∨ t.state = .csiParam ∨ t.state = .csiIntermediate) →
      SameTheme t.terminal
        (({ t with state := .ground } : TerminalStreamTracker).csiDispatch byte o).terminal :=
    fun hstate => sameTheme_csiDispatch o hstate hother
  unfold sequenceByte
  split
  case h_1 => exact sameTheme_ground byte o
  case h_2 heq | h_3 heq =>
    have hescape := hescape (by rw [heq]; simp)
    repeat' first
      | with_reducible exact hexecute
      | with_reducible exact hanywhere
      | with_reducible exact hescape
      | refine sameTheme_terminal_ite (fun _ => ?_) fun _ => ?_
      | exact hsame _ hcollect
      | exact .refl _
  case h_4 heq | h_5 heq | h_6 heq =>
    have hcsi := hcsi (by rw [heq]; simp)
    repeat' first
      | with_reducible exact hexecute
      | with_reducible exact hanywhere
      | with_reducible exact hcsi
      | refine sameTheme_terminal_ite (fun _ => ?_) fun _ => ?_
      | exact hsame _ hcollect
      | exact hsame _ hparam
      | exact .refl _
  all_goals
    repeat' first
      | with_reducible exact hexecute
      | with_reducible exact hanywhere
      | with_reducible exact sameTheme_leave _ _ _
      | refine sameTheme_terminal_ite (fun _ => ?_) fun _ => ?_
      | exact hsame _ hcollect
      | exact hsame _ hparam
      | exact hsame _ hpayload
      | exact .refl _

/-- And only then. -/
theorem sameTheme_sequence (o : ℤ) (hreset : byte = 0x63 → ¬ t.Resets)
    (hother : ChangesMode byte → ¬ t.NamesTheme) :
    SameTheme t.terminal (t.sequence byte o).terminal := by
  unfold sequence
  refine sameTheme_terminal_ite (fun _ => sameTheme_anywhere byte o) fun _ => ?_
  refine @sameTheme_sequenceByte { t with
    head := if t.head.length < maximumHead then t.head ++ [byte] else t.head } byte o ?_ ?_
  · exact fun hbyte h => hreset hbyte ⟨h.state, h.intermediates⟩
  · exact fun hbyte h => hother hbyte
      ⟨h.state, h.intermediates, h.colons, h.overflowed, h.length, h.named⟩

/-- **No other byte changes the mode.** -/
theorem sameTheme_step (hidle : t.zmodem = .idle) (o : ℤ) (hreset : byte = 0x63 → ¬ t.Resets)
    (hother : ChangesMode byte → ¬ t.NamesTheme) :
    (t.step byte o).terminal.decMode themeMode = t.terminal.decMode themeMode := by
  refine SameTheme.decMode ?_
  unfold step
  dsimp only
  rw [if_neg (not_not.mpr hidle)]
  refine sameTheme_terminal_ite (fun _ => .refl _) fun _ => ?_
  refine sameTheme_terminal_ite (fun _ => sameTheme_ground byte o) fun _ => ?_
  refine @sameTheme_sequence { t with recent := pushRecent t.recent byte } byte o ?_ ?_
  · exact fun hbyte h => hreset hbyte ⟨h.state, h.intermediates⟩
  · exact fun hbyte h => hother hbyte
      ⟨h.state, h.intermediates, h.colons, h.overflowed, h.length, h.named⟩

/-- A byte of a sequence goes to the state's own rows. -/
theorem step_sequence (hidle : t.zmodem = .idle) (hstate : t.state ≠ .ground)
    (hbyte : byte ≠ 0x42 ∧ byte ≠ 0x18 ∧ byte ≠ 0x1A ∧ byte ≠ 0x1B) (o : ℤ) :
    t.step byte o = (t.noted byte).sequenceByte byte o := by
  have hcontrol : ¬ (byte = 0x18 ∨ byte = 0x1A ∨ byte = 0x1B) := by
    rintro (h | h | h)
    exacts [hbyte.2.1 h, hbyte.2.2.1 h, hbyte.2.2.2 h]
  rw [step_of_ne_header hidle (.inl hbyte.1), if_neg hstate, sequence, if_neg hcontrol]
  rfl

/-- The byte that ends RIS turns it off. -/
theorem Resets.step (h : t.Resets) (hidle : t.zmodem = .idle) (o : ℤ) :
    (t.step 0x63 o).terminal.decMode themeMode = false := by
  have hstate : t.state ≠ .ground := by
    rcases h.state with heq | heq <;> rw [heq] <;> decide
  have hdispatch : (t.noted 0x63).sequenceByte 0x63 o
      = ({ t.noted 0x63 with state := .ground } : TerminalStreamTracker).escapeDispatch 0x63 o := by
    have hnoted : (t.noted 0x63).state = t.state := rfl
    rw [sequenceByte, hnoted]
    rcases h.state with heq | heq <;> rw [heq] <;> rfl
  rw [step_sequence hidle hstate (by decide), hdispatch]
  exact escapeDispatch_reset o h.intermediates

/-- The byte that ends such a sequence sets, resets, saves or restores it. -/
theorem NamesTheme.step (h : t.NamesTheme) (hidle : t.zmodem = .idle) (hchanges : ChangesMode byte)
    (o : ℤ) : (t.step byte o).terminal.decMode themeMode
      = if byte = 0x72 then (t.terminal.savedDECModes.get? themeMode).getD false
        else byte == 0x68 := by
  have hstate : t.state ≠ .ground := by
    rcases h.state with heq | heq | heq <;> rw [heq] <;> decide
  have hdispatch : (t.noted byte).sequenceByte byte o
      = ({ t.noted byte with state := .ground } : TerminalStreamTracker).csiDispatch byte o := by
    have hnoted : (t.noted byte).state = t.state := rfl
    rw [sequenceByte, hnoted]
    rcases hchanges with rfl | rfl | rfl <;> rcases h.state with heq | heq | heq <;>
      rw [heq] <;> rfl
  have hnames : (t.noted byte).NamesTheme :=
    ⟨h.state, h.intermediates, h.colons, h.overflowed, h.length, h.named⟩
  rw [step_sequence hidle hstate (by rcases hchanges with rfl | rfl | rfl <;> decide), hdispatch]
  exact hnames.csiDispatch hchanges o

end TerminalStreamTracker
