import IGhostVT.Session.ParserPosition
import IGhostVT.Session.PreambleReading

/-!
# Session/KittyRebuild — a flag stack written back into any terminal

A terminal that is reused may be inside anything but a transfer: an unfinished character, a
sequence, a string.  The rebuild's first ESC ends it, and none of these ends touches a flag stack
(`Ready.escape`), so what a program built up is written back whole.
-/

namespace TerminalReplayState

/-- What a program asks of a flag stack. -/
inductive KittyOp
  | push (value : UInt8)
  | pop (count : ℕ)
  | set (value : UInt8) (mode : ℕ)
deriving DecidableEq

namespace KittyFlags

/-- One request. -/
def apply (k : KittyFlags) : KittyOp → KittyFlags
  | .push value => k.push value
  | .pop count => k.pop count
  | .set value mode => k.set value mode

theorem Narrow.apply {k : KittyFlags} (h : k.Narrow) : ∀ op, (k.apply op).Narrow
  | .push value => h.push value
  | .pop count => h.pop count
  | .set value mode => h.set value mode

/-- No program leaves a bit beyond the five. -/
theorem narrow_foldl (ops : List KittyOp) : (ops.foldl apply {}).Narrow := by
  induction ops using List.reverseRecOn with
  | nil => exact narrow_empty
  | append_singleton ops op ih =>
    rw [List.foldl_append]
    exact ih.apply op

end KittyFlags

/-- The stack of the screen shown. -/
def activeKitty (s : TerminalReplayState) : KittyFlags := s.kitty.get s.isAlternateActive

theorem activeKitty_changeKitty (s : TerminalReplayState) (f : KittyFlags → KittyFlags) :
    (s.changeKitty f).activeKitty = f s.activeKitty := by
  simp only [changeKitty, activeKitty, Screens.get_set, if_true]

end TerminalReplayState

namespace TerminalStreamTracker

open TerminalReplayState

theorem finishString_activeKitty (t : TerminalStreamTracker) (finish : StringEnd) :
    (t.finishString finish).1.terminal.activeKitty = t.terminal.activeKitty := by
  rw [onlyTexts_finishString t finish]
  rfl

/-- Inside a sequence, before its first separator. -/
structure Inside (t : TerminalStreamTracker) (state : ParserState) (intermediates : List UInt8)
    (value digits : ℕ) : Prop where
  state : t.state = state
  utf8 : t.utf8Remaining = 0
  zmodem : t.zmodem = .idle
  recent : t.recent.head? ≠ some 0x18
  registers : Registers t intermediates [] 0 value digits

/-- An ESC was just read, and nothing of its sequence. -/
def Escaped (t : TerminalStreamTracker) : Prop := Inside t .escape [] 0 0

variable {t : TerminalStreamTracker}

/-- An ESC ends whatever the table was reading. -/
theorem escaped_leave (hutf8 : t.utf8Remaining = 0) (hzmodem : t.zmodem = .idle)
    (hrecent : t.recent.head? ≠ some 0x18) (offset : ℤ) :
    Escaped (t.leave .escape .terminated offset) ∧
      (t.leave .escape .terminated offset).terminal.activeKitty = t.terminal.activeKitty := by
  have hkitty := finishString_activeKitty { t with terminatorPending := false } .terminated
  have hfinished := @sameParser_finishString { t with terminatorPending := false } .terminated
  unfold leave
  dsimp only
  generalize ({ t with terminatorPending := false } : TerminalStreamTracker).finishString
    .terminated
    = finished at hfinished hkitty
  obtain ⟨t', leftOut⟩ := finished
  dsimp only at hfinished hkitty ⊢
  -- Finished, and left out or not.
  obtain ⟨t'', hleave, hsame, hkitty''⟩ : ∃ t'', (if leftOut = true then
      { t'.excise t'.sequenceStart
          (if (ParserState.escape == .escape) = true then offset else offset + 1) with
        terminatorPending := ParserState.escape == .escape }
      else t') = t'' ∧ SameParser t t'' ∧ t''.terminal.activeKitty = t.terminal.activeKitty := by
    have hpending : SameParser t { t with terminatorPending := false } := rfl
    refine ⟨_, rfl, ?_, ?_⟩
    · refine (hpending.trans hfinished).trans (sameParser_ite (fun _ => ?_) fun _ => .refl _)
      exact (sameParser_excise _ _).trans rfl
    · split
      · exact (congrArg activeKitty (excise_terminal _ _)).trans hkitty
      · exact hkitty
  rw [hleave]
  refine ⟨⟨rfl, ?_, ?_, ?_, ⟨rfl, rfl, rfl, rfl, rfl, rfl⟩⟩, hkitty''⟩
  all_goals
    rw [hsame]
    assumption

/-- **An ESC begins a sequence anywhere but in a transfer.** -/
theorem Ready.escape (h : Ready t) (hzmodem : t.zmodem = .idle) (offset : ℤ) :
    Escaped (t.step 0x1B offset) ∧
      (t.step 0x1B offset).terminal.activeKitty = t.terminal.activeKitty := by
  have hrecent : (pushRecent t.recent 0x1B).head? ≠ some 0x18 := by simp [pushRecent]
  rw [step_of_ne_header hzmodem (Or.inl (by decide))]
  by_cases hstate : t.state = .ground
  · have hfresh : ∀ (t' : TerminalStreamTracker) (interrupts : Bool), t'.utf8Remaining = 0 →
        t'.zmodem = .idle → t'.recent.head? ≠ some 0x18 →
        Escaped (t'.groundByte interrupts 0x1B offset) ∧
          (t'.groundByte interrupts 0x1B offset).terminal.activeKitty =
          t'.terminal.activeKitty := by
      intro t' interrupts hutf8 hzmodem hrecent
      rw [groundByte, if_pos rfl]
      exact ⟨⟨rfl, hutf8, hzmodem, hrecent, ⟨rfl, rfl, rfl, rfl, rfl, rfl⟩⟩, rfl⟩
    rw [if_pos hstate, TerminalStreamTracker.ground]
    split
    case isTrue =>
      have hlower := h.lower
      rw [if_neg fun hin => by have := hin.1; dsimp only at this; grind]
      exact hfresh _ true rfl hzmodem hrecent
    case isFalse hremaining =>
      exact hfresh _ false (Nat.eq_zero_of_not_pos hremaining) hzmodem hrecent
  · rw [if_neg hstate, sequence, if_pos (.inr (.inr rfl)), anywhere, if_neg (by decide),
      if_neg (by decide), if_neg (by decide), if_pos rfl]
    exact escaped_leave (t := { t with recent := pushRecent t.recent 0x1B })
      (h.between (.inl hstate))
      hzmodem hrecent offset

variable {state : ParserState} {i : List UInt8} {v d : ℕ}

theorem Inside.noted (h : Inside t state i v d) {b : UInt8} (hb : b ≠ 0x18) :
    Inside (t.noted b) state i v d :=
  ⟨h.state, h.utf8, h.zmodem, by simpa [TerminalStreamTracker.noted, pushRecent] using hb,
    h.registers.noted b⟩

theorem Inside.step_eq (h : Inside t state i v d) (hstate : state ≠ .ground) {b : UInt8}
    (hb : b ≠ 0x18 ∧ b ≠ 0x1A ∧ b ≠ 0x1B) (o : ℤ) : t.step b o = (t.noted b).sequenceByte b o :=
  step_inside h.zmodem h.recent (by rw [h.state]; exact hstate) hb o

/-- The bracket. -/
theorem Escaped.bracket (h : Escaped t) (o : ℤ) :
    Inside (t.step 0x5B o) .csiEntry [] 0 0 ∧ (t.step 0x5B o).terminal = t.terminal := by
  have hn := Inside.noted h (b := 0x5B) (by decide)
  rw [Inside.step_eq h (by decide) (by decide), sequenceByte, hn.state]
  exact ⟨⟨rfl, hn.utf8, hn.zmodem, hn.recent, ⟨hn.registers.intermediates, hn.registers.params,
    hn.registers.colons, hn.registers.value, hn.registers.digits, hn.registers.overflowed⟩⟩, rfl⟩

/-- The marker of a pop. -/
theorem Inside.marker (h : Inside t .csiEntry [] 0 0) (o : ℤ) :
    Inside (t.step 0x3C o) .csiParam [0x3C] 0 0 ∧ (t.step 0x3C o).terminal = t.terminal := by
  have hn := h.noted (b := 0x3C) (by decide)
  have hcollect : (t.noted 0x3C).collect 0x3C = { t.noted 0x3C with intermediates := [0x3C] } := by
    rw [collect, hn.registers.intermediates]
    rfl
  rw [h.step_eq (by decide) (by decide), sequenceByte, hn.state]
  simp only [isExecutedInSequence]
  rw [if_neg (by decide), if_neg (by decide), if_neg (by decide), if_neg (by decide),
    if_neg (by decide), if_neg (by decide), if_pos (by decide), hcollect]
  exact ⟨⟨rfl, hn.utf8, hn.zmodem, hn.recent, ⟨rfl, hn.registers.params, hn.registers.colons,
    hn.registers.value, hn.registers.digits, hn.registers.overflowed⟩⟩, rfl⟩

/-- The count. -/
theorem Inside.count (h : Inside t .csiParam [0x3C] 0 0) (o : ℤ) :
    Inside (t.step 0x38 o) .csiParam [0x3C] 8 1 ∧ (t.step 0x38 o).terminal = t.terminal := by
  have hn := h.noted (b := 0x38) (by decide)
  have hparam : (t.noted 0x38).param 0x38 =
      { t.noted 0x38 with paramValue := 8, paramDigits := 1 } := by
    rw [param, if_neg (by decide), hn.registers.value, hn.registers.digits]
    rfl
  rw [h.step_eq (by decide) (by decide), sequenceByte, hn.state]
  simp only [isExecutedInSequence]
  rw [if_neg (by decide), if_pos (by decide), hparam]
  exact ⟨⟨hn.state, hn.utf8, hn.zmodem, hn.recent, ⟨hn.registers.intermediates, hn.registers.params,
    hn.registers.colons, rfl, rfl, hn.registers.overflowed⟩⟩, rfl⟩

/-- The final byte pops as many as there are. -/
theorem Inside.popAll (h : Inside t .csiParam [0x3C] 8 1) (o : ℤ) :
    AtRest (t.step 0x75 o) ∧ (t.step 0x75 o).terminal = t.terminal.changeKitty fun _ => {} := by
  have hn := h.noted (b := 0x75) (by decide)
  rw [h.step_eq (by decide) (by decide), sequenceByte, hn.state]
  simp only [isExecutedInSequence]
  rw [if_neg (by decide), if_neg (by decide), if_neg (by decide), if_pos (by decide), csiDispatch]
  dsimp only
  rw [hn.registers.overflowed, hn.registers.params, hn.registers.colons, hn.registers.digits,
    hn.registers.value, if_neg (by decide), if_pos Nat.zero_lt_one]
  have hpop : ∀ t' : TerminalStreamTracker, t'.intermediates = [0x3C] → t'.params = [8] →
      t'.csiApply 0x75 o = t'.mapTerminal fun s => s.changeKitty fun _ => {} := by
    intro t' hi hp
    simp [csiApply, hi, hp, kittyPop, KittyFlags.pop]
  rw [if_neg (by simp only [not_true, and_false, not_false_eq_true, ne_eq]),
    hpop _ ?_ rfl]
  · exact ⟨⟨rfl, hn.utf8, hn.zmodem⟩, rfl⟩
  · exact hn.registers.intermediates

/-- `[<8u` behind the ESC empties the stack shown. -/
theorem Escaped.popAll (h : Escaped t) (o : ℤ) :
    AtRest (t.run [0x5B, 0x3C, 0x38, 0x75] o) ∧
      (t.run [0x5B, 0x3C, 0x38, 0x75] o).terminal = t.terminal.changeKitty fun _ => {} := by
  obtain ⟨hbracket, hterminal₁⟩ := h.bracket o
  obtain ⟨hmarker, hterminal₂⟩ := hbracket.marker (o + 1)
  obtain ⟨hcount, hterminal₃⟩ := hmarker.count (o + 1 + 1)
  obtain ⟨hrest, hterminal₄⟩ := hcount.popAll (o + 1 + 1 + 1)
  refine ⟨hrest, hterminal₄.trans ?_⟩
  rw [hterminal₃, hterminal₂, hterminal₁]

/-- **A flag stack is written back into any terminal that is not in a transfer**, whatever its stack
held. -/
theorem kittyRebuild_anywhere (ops : List KittyOp) (terminal : TerminalReplayState)
    (stream : List UInt8) (o o' : ℤ)
    (hidle : (({ terminal } : TerminalStreamTracker).consume stream o).isInZmodemConversation
      = false) :
    ((({ terminal } : TerminalStreamTracker).consume stream o).consume
      (kittyRebuild (ops.foldl KittyFlags.apply {})) o').terminal.activeKitty
        = ops.foldl KittyFlags.apply {} := by
  rw [consume_eq_run, consume_eq_run]
  rw [consume_eq_run] at hidle
  have hready := (ready_start terminal).run stream o
  generalize ({ terminal } : TerminalStreamTracker).run stream o = t at hidle hready
  have hzmodem : t.zmodem = .idle := by simpa [isInZmodemConversation] using hidle
  obtain ⟨rest, f, hbytes, hwrites, hf⟩ := kittyRebuild_spec (KittyFlags.narrow_foldl ops)
  obtain ⟨hescaped, -⟩ := hready.escape hzmodem o'
  obtain ⟨hrest, hempty⟩ := hescaped.popAll (o' + 1)
  have hpop : t.run (csi (ascii "<8u")) o' =
      (t.step 0x1B o').run [0x5B, 0x3C, 0x38, 0x75] (o' + 1) := rfl
  rw [hbytes, run_append, hpop, (hwrites _ _ hrest).terminal, hempty, hf, activeKitty_changeKitty]

/-- A terminal three flags deep, in the middle of a clipboard write. -/
theorem kittyRebuild_anywhere_clipboard :
    ((({ terminal := ({} : TerminalReplayState).changeKitty fun _ => ⟨fun _ => 7, 3⟩ } :
      TerminalStreamTracker).consume [0x1B, 0x5D, 0x35, 0x32, 0x3B] 0).consume
        (kittyRebuild ([.push 5, .push 9, .pop 1, .set 2 2].foldl KittyFlags.apply {})) 5
      ).terminal.activeKitty = [.push 5, .push 9, .pop 1, .set 2 2].foldl KittyFlags.apply {} :=
  kittyRebuild_anywhere [.push 5, .push 9, .pop 1, .set 2 2] _ [0x1B, 0x5D, 0x35, 0x32, 0x3B] 0 5
    (by decide +kernel)

end TerminalStreamTracker
