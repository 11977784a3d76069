import IGhostVT.Session.Consume

/-!
# Session/ParserPosition — what a sequence's effect leaves alone

A finished sequence changes the terminal, what is recorded and what its `\` goes with; the parser
stands where it stood (`SameParser`).  Only the ground state reads characters, so an ESC ends an
unfinished one wherever it comes (`Ready`).
-/

namespace TerminalReplayState

/-- All but the colours, the texts and the link is as it was. -/
def OnlyTexts (s s' : TerminalReplayState) : Prop :=
  s' = { s with
    palette := s'.palette, dynamicColors := s'.dynamicColors, title := s'.title
    workingDirectory := s'.workingDirectory, hyperlink := s'.hyperlink
    hyperlinkTouched := s'.hyperlinkTouched }

/-- `OnlyTexts` of both branches, each under its condition. -/
theorem onlyTexts_fst_ite {α : Type*} {c : Prop} [Decidable c] {s : TerminalReplayState}
    {a b : TerminalReplayState × α} (ha : c → OnlyTexts s a.1) (hb : ¬ c → OnlyTexts s b.1) :
    OnlyTexts s (if c then a else b).1 := by
  split
  exacts [ha ‹_›, hb ‹_›]

end TerminalReplayState

namespace TerminalStreamTracker

open TerminalReplayState

/-! ## Strings

Finishing an OSC, DCS or APC string runs its command, which sets texts of the terminal and nothing
the parser's place depends on. -/

/-- No OSC reaches a mode, a flag stack or a screen. -/
theorem onlyTexts_applyOSC (s : TerminalReplayState) (number : ℕ) (hasSemicolon : Bool)
    (body : List UInt8) (complete : Bool) :
    OnlyTexts s (applyOSC s number hasSemicolon body complete).1 := by
  have hpalette : OnlyTexts s (applyPalette s body complete).1 := by
    rw [applyPalette]
    dsimp only
    split_ifs <;> rfl
  have hdynamic : OnlyTexts s (applyDynamicColors s (number - 10) body complete).1 := by
    rw [applyDynamicColors]
    split_ifs <;> rfl
  unfold applyOSC
  repeat' first
    | exact hpalette
    | exact hdynamic
    | refine onlyTexts_fst_ite (fun _ => ?_) fun _ => ?_
    | rfl
    | (dsimp only; split_ifs <;> rfl)

/-- A finished string changes the texts its command sets and no part of the parser's place. -/
theorem onlyTexts_finishString (t : TerminalStreamTracker) (finish : StringEnd) :
    OnlyTexts t.terminal (t.finishString finish).1.terminal := by
  rw [finishString]
  split
  · rw [finishOSC]
    split
    · rfl
    dsimp only
    split
    · rfl
    · exact onlyTexts_applyOSC _ _ _ _ _
  · rfl
  · rw [finishAPC]
    split <;> rfl
  · rfl

variable {t t' t'' : TerminalStreamTracker}

/-! ## What is finished

Most of what a byte can do leaves the parser where it is but for one field; those lemmas are one for
each function of the tracker and are used by name in `Ready`. -/

/-- The parser stands as it did, but for the parameter a final byte completes. -/
def SameParser (t t' : TerminalStreamTracker) : Prop :=
  t' = { t with
    terminal := t'.terminal, params := t'.params, excisions := t'.excisions
    kittyChain := t'.kittyChain, terminatorPending := t'.terminatorPending }

/-- A tracker reads on as itself. -/
theorem SameParser.refl (t : TerminalStreamTracker) : SameParser t t := rfl

/-- Two changes that leave the parser leave it together. -/
theorem SameParser.trans (h : SameParser t t') (h' : SameParser t' t'') : SameParser t t'' := by
  rw [SameParser] at h h' ⊢
  rw [h] at h'
  exact h'

/-- Both branches leave the parser alone. -/
theorem sameParser_ite {c : Prop} [Decidable c] {a b : TerminalStreamTracker}
    (ha : c → SameParser t a) (hb : ¬ c → SameParser t b) : SameParser t (if c then a else b) := by
  split
  exacts [ha ‹_›, hb ‹_›]

/-- The terminal is no part of the parser. -/
theorem sameParser_mapTerminal (f : TerminalReplayState → TerminalReplayState) :
    SameParser t (t.mapTerminal f) := rfl

/-- Nor are the excisions recorded. -/
theorem sameParser_record (e : Excision) : SameParser t (t.record e) := rfl

/-- Excising records a stretch and does no more. -/
theorem sameParser_excise (lower upper : ℤ) : SameParser t (t.excise lower upper) := by
  unfold excise
  exact sameParser_ite (fun _ => sameParser_record _) fun _ => .refl t

/-- It leaves the terminal, too. -/
@[simp] theorem excise_terminal (lower upper : ℤ) :
    (t.excise lower upper).terminal = t.terminal := by
  rw [excise]
  split <;> rfl

/-- A control byte moves the terminal and may be cut out; the parser stays. -/
theorem sameParser_execute (byte : UInt8) (offset : ℤ) : SameParser t (t.execute byte offset) := by
  unfold execute
  refine sameParser_ite (fun _ => sameParser_excise _ _) fun _ => ?_
  iterate 2 refine sameParser_ite (fun _ => sameParser_mapTerminal _) fun _ => ?_
  exact .refl t

/-- A string's end runs its command on the terminal. -/
theorem sameParser_finishString (finish : StringEnd) :
    SameParser t (t.finishString finish).1 := by
  rw [finishString]
  split
  · rw [finishOSC]
    dsimp only
    split_ifs <;> rfl
  · rfl
  · rw [finishAPC]
    split <;> rfl
  · rfl

/-- An escape sequence ends where it is dispatched; the state was set before. -/
theorem sameParser_escapeDispatch (final : UInt8) (offset : ℤ) :
    SameParser t (t.escapeDispatch final offset) := by
  unfold escapeDispatch
  refine sameParser_ite (fun _ => rfl) fun _ => ?_
  have hpending : SameParser t { t with terminatorPending := false } := rfl
  refine hpending.trans ?_
  generalize ({ t with terminatorPending := false } : TerminalStreamTracker) = t
  dsimp only
  rcases t.intermediates with _ | ⟨intermediate, _ | ⟨_, _⟩⟩
  · iterate 4 refine sameParser_ite (fun _ => sameParser_mapTerminal _) fun _ => ?_
    refine sameParser_ite (fun _ => sameParser_excise _ _) fun _ => ?_
    iterate 6 refine sameParser_ite (fun _ => sameParser_mapTerminal _) fun _ => ?_
    exact .refl t
  · dsimp only
    cases charsetSlot intermediate with
    | none => exact .refl t
    | some slot => exact sameParser_ite (fun _ => sameParser_mapTerminal _) fun _ => .refl t
  · exact .refl t

/-- A CSI sequence changes the terminal, or is cut out. -/
theorem sameParser_csiApply (final : UInt8) (offset : ℤ) :
    SameParser t (t.csiApply final offset) := by
  have hexcise : SameParser t (t.excise t.sequenceStart (offset + 1)) := sameParser_excise _ _
  unfold csiApply applySGR
  dsimp only
  repeat' first
    | exact sameParser_mapTerminal _
    | exact hexcise
    | exact .refl t
    | refine sameParser_ite (fun _ => ?_) fun _ => ?_

/-- And so with the check of its parameters before it. -/
theorem sameParser_csiDispatch (final : UInt8) (offset : ℤ) :
    SameParser t (t.csiDispatch final offset) := by
  unfold csiDispatch
  have hpending : SameParser t { t with terminatorPending := false } := rfl
  refine hpending.trans ?_
  generalize ({ t with terminatorPending := false } : TerminalStreamTracker) = t
  dsimp only
  refine sameParser_ite (fun _ => .refl t) fun _ => ?_
  have hlast : SameParser t
      (if 0 < t.paramDigits then { t with params := t.params ++ [t.paramValue] } else t) :=
    sameParser_ite (fun _ => rfl) fun _ => .refl t
  exact hlast.trans (sameParser_ite (fun _ => .refl _) fun _ => sameParser_csiApply final offset)

/-! ## Unfinished characters

In a sequence no character is unfinished, and no byte of a sequence begins one. -/

/-- The character being read is where it was. -/
structure SameCharacter (t t' : TerminalStreamTracker) : Prop where
  remaining : t'.utf8Remaining = t.utf8Remaining
  lower : t'.utf8Lower = t.utf8Lower
  upper : t'.utf8Upper = t.utf8Upper
  zmodem : t'.zmodem = t.zmodem

/-- What leaves the unfinished character alone twice leaves it alone. -/
theorem SameCharacter.trans (h : SameCharacter t t') (h' : SameCharacter t' t'') :
    SameCharacter t t'' :=
  ⟨h'.remaining.trans h.remaining, h'.lower.trans h.lower, h'.upper.trans h.upper,
    h'.zmodem.trans h.zmodem⟩

/-- Leaving the whole parser is more. -/
theorem SameParser.sameCharacter (h : SameParser t t') : SameCharacter t t' := by
  rw [h]
  exact ⟨rfl, rfl, rfl, rfl⟩

/-- In particular its state. -/
theorem SameParser.state (h : SameParser t t') : t'.state = t.state := by rw [h]

/-- Both branches leave the character alone. -/
theorem sameCharacter_ite {c : Prop} [Decidable c] {a b : TerminalStreamTracker}
    (ha : c → SameCharacter t a) (hb : ¬ c → SameCharacter t b) :
    SameCharacter t (if c then a else b) := by
  split
  exacts [ha ‹_›, hb ‹_›]

/-- Collecting an intermediate byte begins no character. -/
theorem sameCharacter_collect (byte : UInt8) : SameCharacter t (t.collect byte) := by
  rw [collect]
  split <;> exact ⟨rfl, rfl, rfl, rfl⟩

/-- Nor does a digit of a parameter. -/
theorem sameCharacter_param (byte : UInt8) : SameCharacter t (t.param byte) := by
  rw [param]
  split_ifs <;> exact ⟨rfl, rfl, rfl, rfl⟩

/-- Nor does a byte of a string, whatever it is. -/
theorem sameCharacter_appendPayload (byte : UInt8) : SameCharacter t (t.appendPayload byte) := by
  rw [appendPayload]
  split <;> exact ⟨rfl, rfl, rfl, rfl⟩

/-- A sequence that begins clears what the last one left, no character being unfinished. -/
theorem sameCharacter_beginSequence (newState : ParserState) (offset : ℤ) :
    SameCharacter t (t.beginSequence newState offset) := by
  rw [beginSequence]
  cases newState <;> exact ⟨rfl, rfl, rfl, rfl⟩

/-- A string left early is finished, and its state is another; the character is not touched. -/
theorem sameCharacter_leave (newState : ParserState) (finish : StringEnd) (offset : ℤ) :
    SameCharacter t (t.leave newState finish offset) := by
  have hfinished := @sameParser_finishString { t with terminatorPending := false } finish
  unfold leave
  dsimp only
  generalize ({ t with terminatorPending := false } : TerminalStreamTracker).finishString finish
    = finished at hfinished
  have hfinished : SameCharacter t finished.1 :=
    (⟨rfl, rfl, rfl, rfl⟩ : SameCharacter t { t with terminatorPending := false }).trans
      hfinished.sameCharacter
  refine SameCharacter.trans ?_ (sameCharacter_beginSequence newState offset)
  split
  · have hexcise := (@sameParser_excise finished.1 finished.1.sequenceStart
      (if newState == .escape then offset else offset + 1)).sameCharacter
    exact (hfinished.trans hexcise).trans ⟨rfl, rfl, rfl, rfl⟩
  · exact hfinished.trans ⟨rfl, rfl, rfl, rfl⟩

/-- C1 controls end or begin a sequence wherever they come. -/
theorem sameCharacter_anywhere (byte : UInt8) (offset : ℤ) :
    SameCharacter t (t.anywhere byte offset) := by
  unfold anywhere
  iterate 8 refine sameCharacter_ite (fun _ => sameCharacter_leave _ _ _) fun _ => ?_
  exact ⟨rfl, rfl, rfl, rfl⟩

/-- In a sequence no byte is read as part of a character. -/
theorem sameCharacter_sequenceByte (hstate : t.state ≠ .ground) (byte : UInt8) (offset : ℤ) :
    SameCharacter t (t.sequenceByte byte offset) := by
  have hexecute := (@sameParser_execute t byte offset).sameCharacter
  have hmoved : ∀ (t : TerminalStreamTracker) (state : ParserState),
      SameCharacter t { t with state := state } := fun _ _ => ⟨rfl, rfl, rfl, rfl⟩
  have hescape := (hmoved t .ground).trans (sameParser_escapeDispatch byte offset).sameCharacter
  have hcsi := (hmoved t .ground).trans (sameParser_csiDispatch byte offset).sameCharacter
  have hcollect := fun state => (@sameCharacter_collect t byte).trans (hmoved _ state)
  have hparam := fun state => (@sameCharacter_param t byte).trans (hmoved _ state)
  have hhook : SameCharacter t (t.hookDCS byte) := ⟨rfl, rfl, rfl, rfl⟩
  have hstring : ∀ state, SameCharacter t (t.enterString state) := fun _ => ⟨rfl, rfl, rfl, rfl⟩
  unfold sequenceByte
  split
  case h_1 heq => exact absurd heq hstate
  all_goals
    repeat' first
      | exact ⟨rfl, rfl, rfl, rfl⟩
      | exact hexecute
      | exact sameCharacter_anywhere byte offset
      | exact hescape
      | exact hcsi
      | exact hhook
      | exact hcollect _
      | exact hparam _
      | exact sameCharacter_collect byte
      | exact sameCharacter_param byte
      | exact sameCharacter_appendPayload byte
      | exact sameCharacter_leave _ _ _
      | exact hstring _
      | exact hmoved _ _
      | refine sameCharacter_ite (fun _ => ?_) fun _ => ?_

/-- Inside a sequence no byte is a character's. -/
theorem sameCharacter_sequence (hstate : t.state ≠ .ground) (byte : UInt8) (offset : ℤ) :
    SameCharacter t (t.sequence byte offset) := by
  unfold sequence
  refine sameCharacter_ite (fun _ => sameCharacter_anywhere byte offset) fun _ => ?_
  refine SameCharacter.trans ?_ (sameCharacter_sequenceByte ?_ byte offset)
  · exact ⟨rfl, rfl, rfl, rfl⟩
  · exact hstate

/-! ## The run

`Ready` is kept by every byte: outside of a ZMODEM conversation by the cases above, inside of one
because its end puts the parser at rest. -/

/-- Only the ground state, outside a conversation, has a character to finish, and no control is part
of one. -/
structure Ready (t : TerminalStreamTracker) : Prop where
  lower : 0x80 ≤ t.utf8Lower
  rest : t.utf8Remaining = 0 → t.utf8Lower = 0x80 ∧ t.utf8Upper = 0xBF
  between : t.state ≠ .ground ∨ t.zmodem ≠ .idle → t.utf8Remaining = 0
  conversing : t.zmodem ≠ .idle → t.state = .ground

/-- At rest with no character unfinished, a tracker is ready again. -/
theorem ready_of_same (h : SameCharacter t t') (hrest : t.utf8Lower = 0x80 ∧ t.utf8Upper = 0xBF)
    (hremaining : t.utf8Remaining = 0) (hzmodem : t.zmodem = .idle) : Ready t' :=
  ⟨by rw [h.lower, hrest.1]; decide, fun _ => ⟨h.lower.trans hrest.1, h.upper.trans hrest.2⟩,
    fun _ => h.remaining.trans hremaining, fun hnot => absurd (h.zmodem.trans hzmodem) hnot⟩

/-- A byte at rest prints, runs a control, or begins a sequence or a character. -/
theorem ready_groundByte (hrest : t.utf8Lower = 0x80 ∧ t.utf8Upper = 0xBF)
    (hremaining : t.utf8Remaining = 0)
    (hstate : t.state = .ground) (hzmodem : t.zmodem = .idle) (interrupts : Bool) (byte : UInt8)
    (offset : ℤ) : Ready (t.groundByte interrupts byte offset) := by
  have hlower : 0x80 ≤ t.utf8Lower := by
    rw [hrest.1]
    decide
  have hsame : ∀ t', SameCharacter t t' → Ready t' := fun t' h =>
    ready_of_same h hrest hremaining hzmodem
  have hlead : ∀ remaining (lower upper : UInt8), 0x80 ≤ lower → remaining ≠ 0 → Ready { t with
      utf8Remaining := remaining, utf8Lower := lower, utf8Upper := upper } :=
    fun _ _ _ h hremaining => ⟨h, fun hnot => absurd hnot hremaining,
      fun hnot => absurd hnot (by simp [hstate, hzmodem]), fun hnot => absurd hzmodem hnot⟩
  by_cases hbyte : byte ≤ 0x7F
  · refine hsame _ ?_
    unfold groundByte
    refine sameCharacter_ite (fun _ => ⟨rfl, rfl, rfl, rfl⟩) fun _ => ?_
    refine sameCharacter_ite (fun _ => ⟨rfl, rfl, rfl, rfl⟩) fun _ => ?_
    refine sameCharacter_ite (fun _ => (sameParser_execute byte offset).sameCharacter) fun _ => ?_
    exact sameCharacter_ite (fun _ => ⟨rfl, rfl, rfl, rfl⟩) fun hnot => absurd hbyte hnot
  · have hlate : t.groundByte interrupts byte offset = t.utf8Lead byte := by
      unfold groundByte
      rw [if_neg (by grind), if_neg (by grind), if_neg (by grind), if_neg hbyte]
    rw [hlate, utf8Lead]
    split_ifs
    all_goals first
      | exact hlead _ _ _ hlower (by decide)
      | exact hlead _ 0xA0 _ (by decide) (by decide)
      | exact hlead _ 0x90 _ (by decide) (by decide)
      | exact hsame _ ⟨rfl, rfl, rfl, rfl⟩

/-- A byte on the ground finishes or breaks off a character, or is one of those. -/
theorem Ready.ground (h : Ready t) (hstate : t.state = .ground) (hzmodem : t.zmodem = .idle)
    (byte : UInt8) (offset : ℤ) : Ready (t.ground byte offset) := by
  have hfirst : (0x80 : UInt8) ≤ 0x80 := by decide
  unfold TerminalStreamTracker.ground
  split_ifs with hremaining
  · exact ⟨hfirst, fun _ => ⟨rfl, rfl⟩, fun hnot => absurd hnot (by simp [hstate, hzmodem]),
      fun hnot => absurd hzmodem hnot⟩
  · exact @ready_groundByte t.resetUtf8 ⟨rfl, rfl⟩ rfl hstate hzmodem true byte offset
  · have hremaining := Nat.eq_zero_of_not_pos hremaining
    exact ready_groundByte (h.rest hremaining) hremaining hstate hzmodem false byte offset

/-- The lone `O` behind a conversation is text. -/
theorem ground_plain (hremaining : t.utf8Remaining = 0) (offset : ℤ) :
    t.ground 0x4F offset = t := by
  rw [TerminalStreamTracker.ground, if_neg (by omega)]
  rfl

/-- A conversation that ends leaves the parser where it was put when it began. -/
theorem Ready.endZmodem (h : Ready t) (hzmodem : t.zmodem ≠ .idle) (finish : ℤ) :
    Ready (t.endZmodem finish) := by
  have hstate := h.conversing hzmodem
  have hremaining := h.between (.inr hzmodem)
  rw [TerminalStreamTracker.endZmodem, exciseConversation]
  split <;> exact ⟨h.lower, fun _ => h.rest hremaining, fun _ => hremaining, fun _ => hstate⟩

/-- No character is unfinished then. -/
theorem Ready.endZmodem_remaining (h : Ready t) (hzmodem : t.zmodem ≠ .idle) (finish : ℤ) :
    (t.endZmodem finish).utf8Remaining = 0 := by
  rw [← h.between (.inr hzmodem), TerminalStreamTracker.endZmodem, exciseConversation]
  split <;> rfl

/-- A byte behind the conversation is read from the ground state. -/
theorem Ready.ended (h : Ready t) (hzmodem : t.zmodem ≠ .idle) (finish : ℤ) (byte : UInt8)
    (offset : ℤ) : Ready ((t.endZmodem finish).ground byte offset) := by
  refine (h.endZmodem hzmodem finish).ground ?_ rfl byte offset
  rw [TerminalStreamTracker.endZmodem, exciseConversation]
  split <;> exact h.conversing hzmodem

/-- A byte of a conversation goes on with it, or ends it and is read again at rest. -/
theorem Ready.stepZmodemWith (h : Ready t) (hzmodem : t.zmodem ≠ .idle)
    {again : TerminalStreamTracker → TerminalStreamTracker} {byte : UInt8} {offset : ℤ}
    (hagain : ∀ t' : TerminalStreamTracker, t'.zmodem ≠ .idle → Ready t' → Ready (again t')) :
    Ready (t.stepZmodemWith again byte offset) := by
  have hstate := h.conversing hzmodem
  have hremaining := h.between (.inr hzmodem)
  obtain ⟨progress, hprogress⟩ : ∃ progress,
      (t.trackPromptMark byte).1 = { t with promptMarkProgress := progress } := by
    rw [trackPromptMark]
    dsimp only
    split_ifs <;> exact ⟨_, rfl⟩
  unfold TerminalStreamTracker.stepZmodemWith
  dsimp only
  rw [hprogress]
  generalize ht' : ({ t with promptMarkProgress := progress } : TerminalStreamTracker) = t'
  have hremaining' : t'.utf8Remaining = 0 := ht' ▸ hremaining
  have hzmodem' : t'.zmodem ≠ .idle := ht' ▸ hzmodem
  have h' : Ready t' := ht' ▸ ⟨h.lower, h.rest, fun _ => hremaining, fun _ => hstate⟩
  have hgoes : ∀ phase, Ready { t' with zmodem := phase } :=
    fun _ => ⟨h'.lower, h'.rest, fun _ => hremaining', fun _ => h'.conversing hzmodem'⟩
  split
  · -- The mark that ends a conversation is a string.
    have hended := h'.endZmodem hzmodem' (offset - 6)
    exact ⟨hended.lower, hended.rest, fun _ => h'.endZmodem_remaining hzmodem' (offset - 6),
      fun hnot => absurd rfl hnot⟩
  split
  case h_1 heq => exact absurd heq hzmodem'
  case h_2 =>
    split_ifs
    · exact hgoes _
    · exact hagain _ (by simp) (hgoes _)
    · exact hgoes _
    · exact hgoes _
  case h_3 =>
    split
    exacts [h'.ended hzmodem' _ _ _, h']
  case h_4 =>
    split
    exacts [hgoes _, h']
  case h_5 =>
    split_ifs
    exacts [h', hgoes _, h'.ended hzmodem' _ _ _]
  case h_6 =>
    split
    · exact h'.endZmodem hzmodem' _
    · rw [ground_plain (h'.endZmodem_remaining hzmodem' _)]
      exact h'.ended hzmodem' _ _ _

/-- **One byte keeps a tracker ready.** -/
theorem Ready.step (h : Ready t) (byte : UInt8) (offset : ℤ) : Ready (t.step byte offset) := by
  have hrecent : Ready { t with recent := pushRecent t.recent byte } :=
    ⟨h.lower, h.rest, h.between, h.conversing⟩
  unfold TerminalStreamTracker.step
  dsimp only
  split
  case isTrue hzmodem =>
    exact hrecent.stepZmodemWith hzmodem fun t' hz h' => h'.stepZmodemWith hz fun _ _ h'' => h''
  case isFalse hzmodem =>
    have hidle : t.zmodem = .idle := not_not.mp hzmodem
    split
    · exact ⟨(by decide : (0x80 : UInt8) ≤ 0x80), fun _ => ⟨rfl, rfl⟩, fun _ => rfl, fun _ => rfl⟩
    split
    case isTrue hstate => exact hrecent.ground hstate hidle byte offset
    case isFalse hstate =>
      have hremaining := h.between (.inl hstate)
      refine ready_of_same (sameCharacter_sequence ?_ byte offset) (h.rest hremaining) hremaining
        hidle
      exact hstate

/-- **An ESC is never read as part of a character**, wherever a stream has left the parser. -/
theorem Ready.run (h : Ready t) (bytes : List UInt8) (offset : ℤ) : Ready (t.run bytes offset) := by
  induction bytes generalizing t offset with
  | nil => exact h
  | cons b bs ih => exact ih (h.step b offset) (offset + 1)

/-- A new tracker is ready. -/
theorem ready_start (terminal : TerminalReplayState) : Ready { terminal } :=
  ⟨(by decide : (0x80 : UInt8) ≤ 0x80), fun _ => ⟨rfl, rfl⟩, fun _ => rfl, fun _ => rfl⟩

end TerminalStreamTracker
