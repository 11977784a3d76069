import IGhostVT.Session.SequenceHeads

/-!
# Session/Continuation — a parser put where another one is

A replay that ends inside a sequence is followed by `continuationPrefix`, which is to put the parser
reading the replay where the tracker is.  An ESC or CSI is written as it began; a string, an ignored
sequence or an over-long one is stood in for by one that is ignored (`StandsIn`), and as long as it
lasts the two are `Apart`.  `continuationPrefix_continues` says what the bytes behind the prefix do
then, and `continuation_drops` what an interrupted OSC loses.
-/

namespace TerminalStreamTracker

open TerminalReplayState

variable {P : Prop} {x : List UInt8} {t f t' f' : TerminalStreamTracker} {byte : UInt8} {o o' : ℤ}

/-! ## A sequence that is ignored instead

While it lasts both only execute controls, and the byte that ends it in one ends it in the other. -/

/-- The states of a CSI. -/
def isCSI : ParserState → Bool
  | .csiEntry | .csiParam | .csiIntermediate | .csiIgnore => true
  | _ => false

theorem isCSI_cases {state : ParserState} (h : isCSI state) : state = .csiEntry ∨
    state = .csiParam ∨ state = .csiIntermediate ∨ state = .csiIgnore := by
  cases state <;> simp [isCSI] at h ⊢

/-- The states of a DCS before its final byte. -/
def isDCSHead : ParserState → Bool
  | .dcsEntry | .dcsParam | .dcsIntermediate => true
  | _ => false

/-- The states of a DCS. -/
def isDCS (state : ParserState) : Bool :=
  isDCSHead state || state == .dcsPassthrough || state == .dcsIgnore

/-- A CSI is neither an OSC nor a DCS. -/
theorem isCSI_other {state : ParserState} (h : isCSI state) :
    (state == .oscString) = false ∧ isDCS state = false := by
  rcases isCSI_cases h with rfl | rfl | rfl | rfl <;> exact ⟨rfl, rfl⟩

/-- The bytes that end the sequence a tracker in `state` is in, where something stands in for it. -/
def endsSequence (state : ParserState) (byte : UInt8) : Bool :=
  byte == 0x18 || byte == 0x1A || byte == 0x1B || (state == .oscString && byte == 0x07) ||
    (isCSI state && ((0x40 ≤ byte && byte ≤ 0x7E) || (0x80 ≤ byte && byte ≤ 0x9F)))

/-- Whether a C1 control comes while the head of a DCS is read: the tracker leaves there, and what
stands in reads on. -/
def breaksHead (t : TerminalStreamTracker) : List UInt8 → ℤ → Prop
  | [], _ => False
  | byte :: bytes, o =>
    isDCSHead t.state ∧
      (0x80 ≤ byte ∧ byte ≤ 0x9F ∨ (t.step byte o).breaksHead bytes (o + 1))

/-- What stands in for the sequence `t` is in. -/
inductive StandsIn (t f : TerminalStreamTracker) : Prop
  | osc (ht : t.state = .oscString) (hf : f.state = .oscString)
      (hpayload : f.payload.head? = some 0x3B)
  | csi (ht : isCSI t.state) (hf : f.state = .csiIgnore)
  | dcs (ht : isDCS t.state) (hf : f.state = .dcsIgnore)

/-- `t` is in a sequence, and `f` in what stands in for it, given `P` on the same terminal. -/
structure Apart (P : Prop) (x : List UInt8) (t f : TerminalStreamTracker) : Prop
    extends Beside P x t f where
  standsIn : StandsIn t f
  idle : t.zmodem = .idle
  quiet : f.recent.head? ≠ some 0x18

/-- A high byte is nothing to a sequence. -/
theorem anywhere_high (h : 0xA0 ≤ byte) : t.anywhere byte o = t := by
  unfold anywhere
  iterate 8 rw [if_neg (by grind)]

/-- The controls that end a CSI and those that begin a sequence leave every state. -/
theorem Beside.anywhere (h : Beside P x t f) {Q : Prop}
    (hbyte : byte = 0x18 ∨ byte = 0x1A ∨ byte = 0x1B ∨ 0x80 ≤ byte ∧ byte ≤ 0x9F)
    (hterminal : ∀ finish, Q → f.terminalBehind finish = t.terminalBehind finish) (o o' : ℤ) :
    Alike Q x (t.anywhere byte o) (f.anywhere byte o') := by
  unfold TerminalStreamTracker.anywhere
  iterate 8 refine alike_ite (fun _ => h.leave (hterminal _) _ _ _) fun _ => ?_
  grind

/-- A string that does nothing leaves nothing. -/
theorem terminal_anywhere (h : ∀ finish, t.terminalBehind finish = t.terminal) (byte : UInt8)
    (o : ℤ) :
    (t.anywhere byte o).terminal = t.terminal := by
  have hleave : ∀ newState finish, (t.leave newState finish o).terminal = t.terminal :=
    fun newState finish => (terminal_leave t newState finish o).trans (h finish)
  unfold anywhere
  iterate 8
    split
    · exact hleave _ _
  rfl

/-- Only an OSC changes the terminal when it ends. -/
theorem terminalBehind_of_ne (h : t.state ≠ .oscString) (finish : StringEnd) :
    t.terminalBehind finish = t.terminal := by
  rw [terminalBehind, finishString]
  split
  next heq => exact absurd heq h
  next => rfl
  next => exact terminal_finishAPC _
  next => rfl

/-- And one without a number changes nothing. -/
theorem terminalBehind_of_semicolon (hstate : t.state = .oscString)
    (hpayload : t.payload.head? = some 0x3B) (finish : StringEnd) :
    t.terminalBehind finish = t.terminal := by
  obtain ⟨rest, hrest⟩ : ∃ rest, t.payload = 0x3B :: rest := by
    cases hp : t.payload with
    | nil => simp [hp] at hpayload
    | cons first rest => exact ⟨rest, by simpa [hp] using hpayload⟩
  have hnumber : oscNumber 0 (0x3B :: rest) = (0, 0x3B :: rest) := rfl
  rw [terminalBehind, finishString]
  dsimp only
  rw [hstate]
  dsimp only
  rw [finishOSC]
  split
  · rfl
  · dsimp only
    rw [hrest, hnumber, if_pos rfl]

/-- What is not executed in a sequence changes no terminal. -/
theorem terminal_execute_of_not (h : ¬ isExecutedInSequence byte) :
    (t.execute byte o).terminal = t.terminal := by
  rw [execute]
  split_ifs with h5 hE hF
  · exact excise_terminal _ _
  · subst hE
    exact absurd rfl h
  · subst hF
    exact absurd rfl h
  · rfl

theorem onlySequence_collect : OnlySequence t (t.collect byte) t.terminal := by
  rw [collect]
  split <;> exact ⟨rfl, rfl, rfl, rfl, rfl, rfl, rfl⟩

theorem onlySequence_param : OnlySequence t (t.param byte) t.terminal := by
  rw [param]
  split_ifs <;> exact ⟨rfl, rfl, rfl, rfl, rfl, rfl, rfl⟩

theorem onlySequence_appendPayload : OnlySequence t (t.appendPayload byte) t.terminal := by
  rw [appendPayload]
  split <;> exact ⟨rfl, rfl, rfl, rfl, rfl, rfl, rfl⟩

/-- In another state it is where it was. -/
theorem OnlySequence.moved {u : TerminalStreamTracker} {terminal : TerminalReplayState}
    (h : OnlySequence t u terminal) (state : ParserState) :
    OnlySequence t { u with state := state } terminal := { h with }

/-- The bytes that do not end a CSI. -/
theorem csi_byte {state : ParserState} (h : isCSI state) (hbyte : ¬ endsSequence state byte) :
    (byte ≠ 0x18 ∧ byte ≠ 0x1A ∧ byte ≠ 0x1B) ∧ ¬ (0x40 ≤ byte ∧ byte ≤ 0x7E) ∧
      (byte ≤ 0x7F ∨ 0xA0 ≤ byte) := by
  simp only [endsSequence, h, Bool.or_eq_true, Bool.and_eq_true, beq_iff_eq, decide_eq_true_eq,
    true_and, not_or] at hbyte
  grind

/-- What no sequence executes, and no state reads alike, is no control. -/
theorem le_of_not_executed (hcan : byte ≠ 0x18 ∧ byte ≠ 0x1A ∧ byte ≠ 0x1B)
    (h : ¬ isExecutedInSequence byte) : 0x20 ≤ byte := by
  simp only [isExecutedInSequence, Bool.or_eq_true, Bool.and_eq_true, beq_iff_eq,
    decide_eq_true_eq, not_or] at h
  grind

/-- What a byte that ends nothing leaves: one of `states`, and all else where it was. -/
structure GoesOn (states : ParserState → Bool) (t u : TerminalStreamTracker)
    (terminal : TerminalReplayState) : Prop where
  state : states u.state
  only : OnlySequence t u terminal

variable {states : ParserState → Bool}

theorem goesOn_same (h : states t.state) : GoesOn states t t t.terminal :=
  ⟨h, rfl, rfl, rfl, rfl, rfl, rfl, rfl⟩

theorem goesOn_moved {state : ParserState} (h : states state) :
    GoesOn states t { t with state := state } t.terminal :=
  ⟨h, rfl, rfl, rfl, rfl, rfl, rfl, rfl⟩

theorem goesOn_collect (h : states t.state) : GoesOn states t (t.collect byte) t.terminal :=
  ⟨(state_collect t byte).symm ▸ h, onlySequence_collect⟩

theorem goesOn_collect_moved {state : ParserState} (h : states state) :
    GoesOn states t { t.collect byte with state := state } t.terminal :=
  ⟨h, onlySequence_collect.moved state⟩

theorem goesOn_param (h : states t.state) : GoesOn states t (t.param byte) t.terminal :=
  ⟨(state_param t byte).symm ▸ h, onlySequence_param⟩

theorem goesOn_param_moved {state : ParserState} (h : states state) :
    GoesOn states t { t.param byte with state := state } t.terminal :=
  ⟨h, onlySequence_param.moved state⟩

/-- A byte that does not end a CSI: a control is executed, and no other changes anything else. -/
theorem csi_goesOn (h : isCSI t.state) (hbyte : ¬ endsSequence t.state byte) (o : ℤ) :
    GoesOn isCSI t (t.sequenceByte byte o) (t.execute byte o).terminal := by
  obtain ⟨hcan, hfinal, hhigh⟩ := csi_byte h hbyte
  by_cases hcontrol : isExecutedInSequence byte
  · have hexecuted : GoesOn isCSI t (t.execute byte o) (t.execute byte o).terminal :=
      ⟨(sameParser_execute byte o).state.symm ▸ h, (sameParser_execute byte o).onlySequence⟩
    rcases isCSI_cases h with hs | hs | hs | hs
    all_goals
      rw [sequenceByte, hs]
      dsimp only
      rw [if_pos hcontrol]
      exact hexecuted
  have hlow := le_of_not_executed hcan hcontrol
  rw [terminal_execute_of_not hcontrol]
  have hanywhere (hnot : ¬ byte ≤ 0x7F) : GoesOn isCSI t (t.anywhere byte o) t.terminal := by
    rw [anywhere_high (by grind)]
    exact goesOn_same h
  rcases isCSI_cases h with hs | hs | hs | hs
  all_goals
    rw [sequenceByte, hs]
    dsimp only
    rw [if_neg hcontrol]
    split_ifs
  all_goals first
    | exact absurd ‹_› hfinal
    | exact goesOn_same h
    | exact goesOn_moved rfl
    | exact goesOn_collect h
    | exact goesOn_collect_moved rfl
    | exact goesOn_param h
    | exact goesOn_param_moved rfl
    | exact hanywhere (by grind)

/-- An ignored CSI stays one. -/
theorem csiIgnore_goesOn (h : t.state = .csiIgnore) (hbyte : ¬ endsSequence t.state byte) (o : ℤ) :
    (t.sequenceByte byte o).state = .csiIgnore := by
  obtain ⟨-, hfinal, hhigh⟩ := csi_byte (by rw [h]; rfl) hbyte
  rw [sequenceByte, h]
  dsimp only
  split_ifs
  · exact (sameParser_execute byte o).state.trans h
  · rw [anywhere_high (by grind)]
    exact h
  · exact h

/-- A byte of a DCS that does not end it. -/
theorem dcs_goesOn (h : isDCS t.state) (hbyte : ¬ endsSequence t.state byte)
    (hhead : isDCSHead t.state → ¬ (0x80 ≤ byte ∧ byte ≤ 0x9F)) (o : ℤ) :
    GoesOn isDCS t (t.sequenceByte byte o) t.terminal := by
  have hstates : t.state = .dcsEntry ∨ t.state = .dcsParam ∨ t.state = .dcsIntermediate ∨
      t.state = .dcsPassthrough ∨ t.state = .dcsIgnore := by
    cases hs : t.state <;> simp [isDCS, isDCSHead, hs] at h ⊢
  have hcan : byte ≠ 0x18 ∧ byte ≠ 0x1A ∧ byte ≠ 0x1B := by
    simp only [endsSequence, Bool.or_eq_true, beq_iff_eq, not_or] at hbyte
    exact ⟨hbyte.1.1.1.1, hbyte.1.1.1.2, hbyte.1.1.2⟩
  have hhook : GoesOn isDCS t (t.hookDCS byte) t.terminal :=
    ⟨rfl, rfl, rfl, rfl, rfl, rfl, rfl, rfl⟩
  rcases hstates with hs | hs | hs | hs | hs
  case inr.inr.inr.inl | inr.inr.inr.inr =>
    rw [sequenceByte, hs]
    exact goesOn_same h
  all_goals
    have hnot : ¬ (0x80 ≤ byte ∧ byte ≤ 0x9F) := hhead (by rw [hs]; rfl)
    have hanywhere (hnot : ¬ byte ≤ 0x7F) : GoesOn isDCS t (t.anywhere byte o) t.terminal := by
      rw [anywhere_high (by grind)]
      exact goesOn_same h
    rw [sequenceByte, hs]
    dsimp only
    by_cases hcontrol : isExecutedInSequence byte = true ∨ byte = 0x7F
    · rw [if_pos hcontrol]
      exact goesOn_same h
    have hlow := le_of_not_executed hcan fun hexecuted => hcontrol (.inl hexecuted)
    rw [if_neg hcontrol]
    split_ifs
  all_goals first
    | exact hhook
    | exact goesOn_moved rfl
    | exact goesOn_collect h
    | exact goesOn_collect_moved rfl
    | exact goesOn_param h
    | exact goesOn_param_moved rfl
    | exact hanywhere (by grind)

/-- A byte of an OSC that does not end it. -/
theorem osc_goesOn (h : t.state = .oscString) (hbyte : ¬ endsSequence t.state byte) (o : ℤ) :
    GoesOn (· == .oscString) t (t.sequenceByte byte o) t.terminal ∧
      (t.payload.head? = some 0x3B → (t.sequenceByte byte o).payload.head? = some 0x3B) := by
  have hbell : byte ≠ 0x07 := by
    rintro rfl
    rw [h] at hbyte
    exact hbyte rfl
  have hosc : (t.state == .oscString) = true := by
    rw [h]
    rfl
  rw [sequenceByte, h]
  dsimp only
  rw [if_neg hbell]
  split
  · refine ⟨⟨(state_appendPayload t byte).symm ▸ hosc, onlySequence_appendPayload⟩, fun hhead => ?_⟩
    rw [appendPayload]
    split
    · rw [List.head?_append_of_ne_nil _ (by rintro hnil; simp [hnil] at hhead)]
      exact hhead
    · exact hhead
  · exact ⟨goesOn_same hosc, id⟩

/-- Of one kind: what ends one ends the other. -/
structure SameKind (s s' : ParserState) : Prop where
  ends : endsSequence s' = endsSequence s
  dcs : isDCS s' = isDCS s

theorem SameKind.trans {s s' s'' : ParserState} (h : SameKind s s') (h' : SameKind s' s'') :
    SameKind s s'' := ⟨h'.ends.trans h.ends, h'.dcs.trans h.dcs⟩

theorem sameKind_csi {s s' : ParserState} (h : isCSI s) (h' : isCSI s') : SameKind s s' := by
  refine ⟨?_, (isCSI_other h').2.trans (isCSI_other h).2.symm⟩
  funext byte
  rw [endsSequence, endsSequence, h, h', (isCSI_other h).1, (isCSI_other h').1]

theorem sameKind_dcs {s s' : ParserState} (h : isDCS s) (h' : isDCS s') : SameKind s s' := by
  have hother : ∀ s, isDCS s = true → (s == .oscString) = false ∧ isCSI s = false := by
    intro s hs
    cases s <;> first
      | exact ⟨rfl, rfl⟩
      | cases hs
  refine ⟨?_, h'.trans h.symm⟩
  funext byte
  obtain ⟨hosc, hcsi⟩ := hother s h
  obtain ⟨hosc', hcsi'⟩ := hother s' h'
  rw [endsSequence, endsSequence, hosc, hosc', hcsi, hcsi']

/-- **A byte that ends nothing**: both go on, and do the same. -/
theorem StandsIn.goesOn (h : StandsIn t f) (hbyte : ¬ endsSequence t.state byte)
    (hhead : isDCSHead t.state → ¬ (0x80 ≤ byte ∧ byte ≤ 0x9F)) (o o' : ℤ) :
    ∃ s s', OnlySequence t (t.sequenceByte byte o) s ∧
      OnlySequence f (f.sequenceByte byte o') s' ∧ (f.terminal = t.terminal → s' = s) ∧
      StandsIn (t.sequenceByte byte o) (f.sequenceByte byte o') ∧
      SameKind t.state (t.sequenceByte byte o).state ∧
      (isDCSHead (t.sequenceByte byte o).state → isDCSHead t.state) := by
  cases h with
  | osc ht hf hpayload =>
    obtain ⟨hgoes, -⟩ := osc_goesOn ht hbyte o
    obtain ⟨hgoes', hpayload'⟩ := osc_goesOn hf (by rwa [hf, ← ht]) o'
    have hstate := beq_iff_eq.mp hgoes.state
    refine ⟨_, _, hgoes.only, hgoes'.only, id,
      .osc hstate (beq_iff_eq.mp hgoes'.state) (hpayload' hpayload), ?_, fun hin => ?_⟩
    · rw [ht, hstate]
      exact ⟨rfl, rfl⟩
    · rw [hstate] at hin
      cases hin
  | csi ht hf =>
    have hf' : isCSI f.state := by rw [hf]; rfl
    have hbyte' : ¬ endsSequence f.state byte := (sameKind_csi ht hf').ends ▸ hbyte
    have hgoes := csi_goesOn ht hbyte o
    have hgoes' := csi_goesOn hf' hbyte' o'
    exact ⟨_, _, hgoes.only, hgoes'.only, fun hsame => terminal_execute hsame byte o o',
      .csi hgoes.state (csiIgnore_goesOn hf hbyte' o'), sameKind_csi ht hgoes.state,
      fun hin => absurd (isCSI_other hgoes.state).2 (by simp [isDCS, hin])⟩
  | dcs ht hf =>
    have hgoes := dcs_goesOn ht hbyte hhead o
    have hgoes' : f.sequenceByte byte o' = f := by rw [sequenceByte, hf]
    rw [hgoes']
    refine ⟨_, f.terminal, hgoes.only, ⟨rfl, rfl, rfl, rfl, rfl, rfl, rfl⟩, id,
      .dcs hgoes.state hf, sameKind_dcs ht hgoes.state, fun hin => ?_⟩
    -- Behind the final byte the state no longer changes.
    by_contra hnot
    have hstays : t.sequenceByte byte o = t := by
      rw [sequenceByte]
      cases hs : t.state <;> first
        | rfl
        | (rw [hs] at hnot; exact absurd rfl hnot)
        | (rw [hs] at ht; cases ht)
    exact hnot (hstays ▸ hin)

/-- A byte read in a sequence that completes no header. -/
theorem step_inSequence (hz : t.zmodem = .idle) (hs : t.state ≠ .ground)
    (hheader : (pushRecent t.recent byte).take 4 ≠ zmodemHeader) (o : ℤ) :
    t.step byte o = ({ t with recent := pushRecent t.recent byte } :
      TerminalStreamTracker).sequence byte o := by
  rw [TerminalStreamTracker.step]
  dsimp only
  rw [if_neg (not_not.mpr hz), if_neg hheader, if_neg hs]

/-- States and payload are all it asks about. -/
theorem StandsIn.congr (h : StandsIn t f) (ht : t'.state = t.state) (hf : f'.state = f.state)
    (hpayload : f'.payload = f.payload) : StandsIn t' f' := by
  cases h with
  | osc hosc hosc' hfirst => exact .osc (ht.trans hosc) (hf.trans hosc') (hpayload ▸ hfirst)
  | csi hcsi hignored => exact .csi (ht ▸ hcsi) (hf.trans hignored)
  | dcs hdcs hignored => exact .dcs (ht ▸ hdcs) (hf.trans hignored)

theorem StandsIn.ne_ground (h : StandsIn t f) : t.state ≠ .ground ∧ f.state ≠ .ground := by
  have hnot : isCSI .ground = false ∧ isDCS .ground = false := ⟨rfl, rfl⟩
  cases h with
  | osc ht hf => exact ⟨by simp [ht], by simp [hf]⟩
  | csi ht hf =>
    refine ⟨fun heq => ?_, by simp [hf]⟩
    rw [heq] at ht
    cases ht
  | dcs ht hf =>
    refine ⟨fun heq => ?_, by simp [hf]⟩
    rw [heq] at ht
    cases ht

/-- In the sequence no header is completed, so the byte is the sequence's. -/
theorem Apart.read (h : Apart P (byte :: x) t f) (o o' : ℤ) :
    t.step byte o
        = ({ t with recent := pushRecent t.recent byte } : TerminalStreamTracker).sequence byte o ∧
      f.step byte o'
        = ({ f with recent := pushRecent f.recent byte } : TerminalStreamTracker).sequence byte o' ∧
      Beside P x { t with recent := pushRecent t.recent byte }
        { f with recent := pushRecent f.recent byte } := by
  have hheader : (pushRecent f.recent byte).take 4 ≠ zmodemHeader := by
    intro heq
    rw [pushRecent] at heq
    cases hrecent : f.recent with
    | nil => simp [hrecent, zmodemHeader] at heq
    | cons newest older =>
      rw [hrecent, zmodemHeader] at heq
      simp only [List.take_succ_cons, List.cons.injEq] at heq
      exact h.quiet (by rw [hrecent, heq.2.1]; rfl)
  have hsame : (pushRecent f.recent byte).take 4 = zmodemHeader ↔
      (pushRecent t.recent byte).take 4 = zmodemHeader := h.headers.head (by decide)
  obtain ⟨hs, hs'⟩ := h.standsIn.ne_ground
  refine ⟨step_inSequence h.idle hs (mt hsame.mpr hheader) o,
    step_inSequence (h.zmodem.trans h.idle) hs' hheader o', ?_⟩
  exact { h.toBeside with
    headers := h.headers.tail (by decide)
    finishes := fun hz => absurd h.idle hz }

/-- **A byte that does not end the sequence keeps them apart.** -/
theorem Apart.step (h : Apart P (byte :: x) t f) (hbyte : ¬ endsSequence t.state byte)
    (hhead : isDCSHead t.state → ¬ (0x80 ≤ byte ∧ byte ≤ 0x9F)) (o o' : ℤ) :
    Apart P x (t.step byte o) (f.step byte o') ∧ SameKind t.state (t.step byte o).state ∧
      (isDCSHead (t.step byte o).state → isDCSHead t.state) := by
  obtain ⟨ht, hf, hpushed⟩ := h.read o o'
  have hcan : ¬ (byte = 0x18 ∨ byte = 0x1A ∨ byte = 0x1B) := by
    simp only [endsSequence, Bool.or_eq_true, beq_iff_eq, not_or] at hbyte
    exact fun hany => hany.elim hbyte.1.1.1.1 fun hany => hany.elim hbyte.1.1.1.2 hbyte.1.1.2
  rw [ht, hf, sequence, sequence, if_neg hcan, if_neg hcan]
  have hstands : StandsIn
      { t with
        recent := pushRecent t.recent byte
        head := if t.head.length < maximumHead then t.head ++ [byte] else t.head }
      { f with
        recent := pushRecent f.recent byte
        head := if f.head.length < maximumHead then f.head ++ [byte] else f.head } :=
    h.standsIn.congr rfl rfl rfl
  obtain ⟨s, s', honly, honly', hsame, hstands', hkind⟩ := hstands.goesOn hbyte hhead o o'
  refine ⟨⟨Beside.onlySequence (P := P) ?_ honly honly' fun hp => hsame (h.terminal hp), hstands',
    honly.zmodem.trans h.idle, ?_⟩, hkind⟩
  · exact { hpushed with }
  · rw [honly'.recent]
    intro hnewest
    exact hcan (.inl (Option.some.inj hnewest))

/-- What stands in does nothing at its end. -/
theorem StandsIn.terminalBehind (h : StandsIn t f) (finish : StringEnd) :
    f.terminalBehind finish = f.terminal := by
  cases h with
  | osc _ hf hpayload => exact terminalBehind_of_semicolon hf hpayload finish
  | csi _ hf => exact terminalBehind_of_ne (by simp [hf]) finish
  | dcs _ hf => exact terminalBehind_of_ne (by simp [hf]) finish

/-- Nor does a DCS. -/
theorem terminalBehind_of_dcs (h : isDCS t.state) (finish : StringEnd) :
    t.terminalBehind finish = t.terminal := by
  refine terminalBehind_of_ne (fun hosc => ?_) finish
  rw [hosc] at h
  cases h

/-- The final byte of a CSI. -/
theorem csi_final (h : isCSI t.state) (hfinal : 0x40 ≤ byte ∧ byte ≤ 0x7E) (o : ℤ) :
    ∃ terminal, OnlySequence t (t.sequenceByte byte o) terminal ∧
      (t.sequenceByte byte o).state = .ground := by
  have hcontrol : ¬ isExecutedInSequence byte := by
    simp only [isExecutedInSequence]
    grind
  have hdispatched : OnlySequence t
      (({ t with state := .ground } : TerminalStreamTracker).csiDispatch byte o)
      (({ t with state := .ground } : TerminalStreamTracker).csiDispatch byte o).terminal ∧
        (({ t with state := .ground } : TerminalStreamTracker).csiDispatch byte o).state
          = .ground := by
    have hsame := @sameParser_csiDispatch { t with state := .ground } byte o
    exact ⟨{ hsame.onlySequence with }, hsame.state⟩
  have hignored : OnlySequence t { t with state := .ground } t.terminal :=
    ⟨rfl, rfl, rfl, rfl, rfl, rfl, rfl⟩
  rcases isCSI_cases h with hs | hs | hs | hs
  all_goals
    rw [sequenceByte, hs]
    dsimp only
    rw [if_neg hcontrol]
    split_ifs
  all_goals first
    | exact ⟨_, hdispatched⟩
    | exact ⟨_, hignored, rfl⟩
    | grind

/-- A C1 control in a CSI. -/
theorem csi_control (h : isCSI t.state) (hcontrol : 0x80 ≤ byte ∧ byte ≤ 0x9F) {o : ℤ} :
    t.sequenceByte byte o = t.anywhere byte o := by
  have hnot : ¬ isExecutedInSequence byte := by
    simp only [isExecutedInSequence]
    grind
  rcases isCSI_cases h with hs | hs | hs | hs
  all_goals
    rw [sequenceByte, hs]
    dsimp only
    rw [if_neg hnot]
    split_ifs
  all_goals first
    | rfl
    | grind

/-- In both an OSC is left at its BEL, and a CSI at its final byte or at a control. -/
theorem StandsIn.ended (h : StandsIn t f) (hbeside : Beside P x t f)
    (hbyte : endsSequence t.state byte) (o o' : ℤ) :
    Alike (P ∧ isDCS t.state = true) x (t.sequence byte o) (f.sequence byte o') ∧
      (f.sequence byte o').terminal = f.terminal := by
  have hfinished : ∀ finish, P ∧ isDCS t.state = true →
      f.terminalBehind finish = t.terminalBehind finish := fun finish hdcs => by
    rw [h.terminalBehind, terminalBehind_of_dcs hdcs.2, hbeside.terminal hdcs.1]
  rw [sequence, sequence]
  by_cases hcan : byte = 0x18 ∨ byte = 0x1A ∨ byte = 0x1B
  · rw [if_pos hcan, if_pos hcan]
    exact ⟨hbeside.anywhere (by grind) hfinished o o', terminal_anywhere h.terminalBehind byte o'⟩
  rw [if_neg hcan, if_neg hcan]
  generalize hu : ({ t with
    head := if t.head.length < maximumHead then t.head ++ [byte] else t.head } :
      TerminalStreamTracker) = u
  generalize hv : ({ f with
    head := if f.head.length < maximumHead then f.head ++ [byte] else f.head } :
      TerminalStreamTracker) = v
  have hstate : u.state = t.state := hu ▸ rfl
  have hheld : Beside P x u v := hu ▸ hv ▸ { hbeside with }
  have hstands : StandsIn u v := h.congr hstate (hv ▸ rfl) (hv ▸ rfl)
  have hterminal : v.terminal = f.terminal := hv ▸ rfl
  have hdone := hstands.terminalBehind
  rw [← hstate] at hbyte ⊢
  rw [← hterminal]
  cases hstands with
  | osc hosc hosc' hpayload =>
    have hbell : byte = 0x07 := by
      simp only [hosc, endsSequence, isCSI] at hbyte
      grind
    subst hbell
    have hread : ∀ u : TerminalStreamTracker, u.state = .oscString → ∀ o : ℤ,
        u.sequenceByte 0x07 o = u.leave .ground .terminated o := fun u hu o => by
      rw [sequenceByte, hu]
      rfl
    rw [hread u hosc, hread v hosc']
    refine ⟨hheld.leave (fun hdcs => ?_) _ _ _, ?_⟩
    · rw [hosc] at hdcs
      cases hdcs.2
    · rw [terminal_leave]
      exact hdone _
  | csi hcsi hignored =>
    obtain ⟨hnot, hdcs⟩ := isCSI_other hcsi
    have hnever : ¬ (P ∧ isDCS u.state = true) := by simp [hdcs]
    have hignored' : isCSI v.state := by
      rw [hignored]
      rfl
    have hends : 0x40 ≤ byte ∧ byte ≤ 0x7E ∨ 0x80 ≤ byte ∧ byte ≤ 0x9F := by
      simp only [endsSequence, hcsi, hnot] at hbyte
      grind
    rcases hends with hfinal | hcontrol
    · obtain ⟨terminal, honly, hground⟩ := csi_final hcsi hfinal o
      have honly' : v.sequenceByte byte o' = { v with state := .ground } := by
        rw [sequenceByte, hignored]
        dsimp only
        rw [if_neg (by simp only [isExecutedInSequence]; grind), if_pos hfinal]
      rw [honly']
      have hleft : OnlySequence v { v with state := .ground } v.terminal :=
        ⟨rfl, rfl, rfl, rfl, rfl, rfl, rfl⟩
      exact ⟨Beside.inGround (hheld.onlySequence honly hleft fun hdcs => absurd hdcs hnever) hground
        rfl, rfl⟩
    · rw [csi_control hcsi hcontrol, csi_control hignored' hcontrol]
      exact ⟨hheld.anywhere (.inr (.inr (.inr hcontrol))) (fun _ hdcs => absurd hdcs hnever) o o',
        terminal_anywhere hdone byte o'⟩
  | dcs hdcs hignored =>
    refine absurd hbyte ?_
    rw [(sameKind_dcs (s := .dcsIgnore) rfl hdcs).ends]
    simp only [endsSequence, isCSI]
    grind

/-- **The byte that ends it ends it in both**, and what stood in has done nothing. -/
theorem Apart.ended (h : Apart P (byte :: x) t f) (hbyte : endsSequence t.state byte) (o o' : ℤ) :
    Alike (P ∧ isDCS t.state = true) x (t.step byte o) (f.step byte o') ∧
      (f.step byte o').terminal = f.terminal := by
  obtain ⟨ht, hf, hpushed⟩ := h.read o o'
  have hstands : StandsIn { t with recent := pushRecent t.recent byte }
      { f with recent := pushRecent f.recent byte } := h.standsIn.congr rfl rfl rfl
  rw [ht, hf]
  exact hstands.ended hpushed hbyte o o'

/-! ## Runs of bytes -/

/-- **While nothing ends the sequence** both go on. -/
theorem Apart.run (y : List UInt8) (h : Apart P (y ++ x) t f)
    (hquiet : ∀ b ∈ y, ¬ endsSequence t.state b) (hhead : ¬ t.breaksHead (y ++ x) o) (o' : ℤ) :
    Apart P x (t.run y o) (f.run y o') ∧ SameKind t.state (t.run y o).state ∧
      ¬ (t.run y o).breaksHead x (o + y.length) := by
  induction y generalizing t f o o' with
  | nil => exact ⟨h, ⟨rfl, rfl⟩, by simpa using hhead⟩
  | cons b y ih =>
    obtain ⟨hnext, hkind, hin⟩ := h.step (hquiet b List.mem_cons_self)
      (fun hdcs hcontrol => hhead ⟨hdcs, .inl hcontrol⟩) o o'
    have hhead' : ¬ (t.step b o).breaksHead (y ++ x) (o + 1) := by
      by_cases hdcs : isDCSHead t.state
      · exact fun hbreaks => hhead ⟨hdcs, .inr hbreaks⟩
      · cases hyx : y ++ x with
        | nil => exact id
        | cons c cs => exact fun hbreaks => hdcs (hin hbreaks.1)
    obtain ⟨hrun, hkind', hrest⟩ := ih hnext
      (fun c hc => hkind.ends ▸ hquiet c (List.mem_cons_of_mem _ hc)) hhead' (o' + 1)
    refine ⟨hrun, hkind.trans hkind', ?_⟩
    rw [run_cons, List.length_cons]
    convert hrest using 2
    push_cast
    ring

/-- **Behind the byte that ends it they read on alike**, and on one terminal behind a DCS. -/
theorem Apart.run_ended (y : List UInt8) (h : Apart P (y ++ x) t f)
    (hends : ∃ b ∈ y, endsSequence t.state b) (hhead : ¬ t.breaksHead (y ++ x) o) (o' : ℤ) :
    Alike (P ∧ isDCS t.state = true) x (t.run y o) (f.run y o') := by
  induction y generalizing t f o o' with
  | nil =>
    obtain ⟨b, hb, -⟩ := hends
    cases hb
  | cons b y ih =>
    by_cases hbyte : endsSequence t.state b
    · exact (h.ended hbyte o o').1.run y (o + 1) (o' + 1)
    obtain ⟨hnext, hkind, hhead'⟩ := @Apart.run P (y ++ x) t f o [b] h
      (fun c hc => by rwa [List.mem_singleton.mp hc]) hhead o'
    have hlater : ∃ c ∈ y, endsSequence (t.step b o).state c := by
      obtain ⟨c, hc, hends⟩ := hends
      rcases List.mem_cons.mp hc with rfl | hc
      exacts [absurd hends hbyte, ⟨c, hc, hkind.ends ▸ hends⟩]
    have hdone := @ih (t.step b o) (f.step b o') (o + 1) hnext hlater (by simpa using hhead')
      (o' + 1)
    rwa [show isDCS t.state = isDCS (t.step b o).state from hkind.dcs.symm]

/-! ## What the prefix is for

An OSC and a CSI too long to be written again are ignored instead, so what they would do is
dropped; everything else, and everything behind them, does what it would have done. -/

/-- Whether what `t` is in is dropped: an OSC, or a sequence too long to be written again. -/
def isDropped (t : TerminalStreamTracker) : Prop :=
  t.state = .oscString ∨ readsRegisters t.state ∧ maximumHead ≤ t.head.length

/-- `x` completes a ZMODEM header that began before it. -/
def completesHeader (t : TerminalStreamTracker) (x : List UInt8) : Prop :=
  ∃ y, y <+: x ∧ y ≠ [] ∧ y.length < 4 ∧ (y.reverse ++ t.recent).take 4 = zmodemHeader

/-- Where the prefix does not lead to the parser's place: an ESC too long is stood in for by a CSI,
a C1 control ends the head of a DCS and not what stands in for it, and a header that began in what
is stood in for is not seen. -/
inductive Parts (t : TerminalStreamTracker) (x : List UInt8) (o : ℤ) : Prop
  | escape (hstate : t.state = .escape ∨ t.state = .escapeIntermediate)
      (hhead : maximumHead ≤ t.head.length)
  | control (hbreaks : t.breaksHead x o)
  | header (hstands : ¬ (readsRegisters t.state ∧ t.head.length < maximumHead))
      (hcompletes : t.completesHeader x)

-- `9C` behind `ESC P 1`, `[` behind an ESC with 63 NULs, and `18 42` behind `ESC ] **`.
example : (({} : TerminalStreamTracker).run [0x1B, 0x50, 0x31, 0x9C] 0).state = .ground ∧
    (({} : TerminalStreamTracker).run [0x1B, 0x50, 0x3A, 0x9C] 0).state = .dcsIgnore ∧
    (({} : TerminalStreamTracker).run (0x1B :: List.replicate 63 0 ++ [0x5B]) 0).state
      = .csiEntry ∧
    (({} : TerminalStreamTracker).run [0x1B, 0x5B, 0x3A, 0x5B] 0).state = .ground ∧
    (({} : TerminalStreamTracker).run [0x1B, 0x5D, 0x2A, 0x2A, 0x18, 0x42, 0x1B] 0).state
      = .ground ∧
    (({} : TerminalStreamTracker).run [0x1B, 0x5D, 0x3B, 0x18, 0x42, 0x1B] 0).state = .escape := by
  decide +kernel

/-- **`f` goes on for `t`** with the bytes `x`: it is in the ground state behind the same of them,
and from any terminal it makes the same of them, but for what is dropped. -/
structure Continues (t f : TerminalStreamTracker) (x : List UInt8) (o o' : ℤ) : Prop where
  grounds : ∀ y, y <+: x →
    ((f.consume y o').state = .ground ↔ (t.consume y o).state = .ground)
  /-- What is not dropped is done, and so is everything behind what is. -/
  changes : ∀ y z, y ++ z <+: x → (¬ t.isDropped ∨ ∃ b ∈ y, endsSequence t.state b) →
    ∀ (terminal : TerminalReplayState) (p p' : ℤ),
      (((f.consume y o').on terminal).consume z p').terminal
        = (((t.consume y o).on terminal).consume z p).terminal
  /-- Until the sequence ends the controls in it are executed. -/
  kept : ∀ y, y <+: x → (∀ b ∈ y, ¬ endsSequence t.state b) → ∀ terminal : TerminalReplayState,
    ((f.on terminal).consume y o').terminal = ((t.on terminal).consume y o).terminal
  /-- The byte that ends what is dropped does nothing. -/
  dropped : t.isDropped → ∀ y b, y ++ [b] <+: x → (∀ c ∈ y, ¬ endsSequence t.state c) →
    endsSequence t.state b → ∀ terminal : TerminalReplayState,
      ((f.on terminal).consume (y ++ [b]) o').terminal = ((t.on terminal).consume y o).terminal

/-- What reads on alike goes on for it. -/
theorem Alike.continues (h : Alike P x t f) (hkept : ¬ t.isDropped) : Continues t f x o o' := by
  refine ⟨fun y hy => ?_, fun y z hyz _ terminal p p' => ?_, fun y hy _ terminal => ?_,
    fun hdropped => absurd hdropped hkept⟩
  · obtain ⟨z, rfl⟩ := hy
    rw [consume_eq_run, consume_eq_run, (h.run y o o').state]
  · obtain ⟨w, rfl⟩ := hyz
    rw [List.append_assoc] at h
    simp only [consume_eq_run]
    exact (((h.run y o o').on (Q := True) terminal).run z p p').terminal trivial
  · obtain ⟨z, rfl⟩ := hy
    simp only [consume_eq_run]
    exact ((h.on (Q := True) terminal).run y o o').terminal trivial

/-- Put on one terminal, both are on the same. -/
theorem Apart.on (h : Apart P x t f) {Q : Prop} (terminal : TerminalReplayState) :
    Apart Q x (t.on terminal) (f.on terminal) :=
  { h with terminal := fun _ => rfl, standsIn := h.standsIn.congr rfl rfl rfl }

/-- Where the head breaks is nothing to the terminal. -/
theorem breaksHead_on (x : List UInt8) (o p : ℤ) (terminal : TerminalReplayState) :
    (t.on terminal).breaksHead x p ↔ t.breaksHead x o := by
  have halike : ∀ {u v : TerminalStreamTracker} (x : List UInt8) (o p : ℤ), Alike False x u v →
      (v.breaksHead x p ↔ u.breaksHead x o) := by
    intro u v x
    induction x generalizing u v with
    | nil => exact fun _ _ _ => Iff.rfl
    | cons b x ih =>
      intro o p h
      rw [breaksHead, breaksHead, h.state, ih (o + 1) (p + 1) (h.step o p)]
  exact halike x o p { Alike.refl (P := True) t with
    terminal := False.elim
    registers := fun _ => ⟨rfl, rfl, rfl, rfl, rfl, rfl⟩ }

/-- What stands in goes on for it, as far as it does not do too much. -/
theorem Apart.continues (h : Apart P x t f) (hhead : ¬ t.breaksHead x o)
    (hdcs : ¬ t.isDropped → isDCS t.state) : Continues t f x o o' := by
  refine ⟨fun y hy => ?_, fun y z hyz hdone terminal p p' => ?_, fun y hy hquiet terminal => ?_,
    fun hdropped y b hyb hquiet hb terminal => ?_⟩
  · obtain ⟨z, rfl⟩ := hy
    simp only [consume_eq_run]
    by_cases hends : ∃ b ∈ y, endsSequence t.state b
    · rw [(h.run_ended y hends hhead o').state]
    · have hstands := (h.run y (by simpa using hends) hhead o').1.standsIn.ne_ground
      exact iff_of_false hstands.2 hstands.1
  · obtain ⟨w, rfl⟩ := hyz
    rw [List.append_assoc] at h hhead
    simp only [consume_eq_run]
    by_cases hends : ∃ b ∈ y, endsSequence t.state b
    · have halike := h.run_ended y hends hhead o'
      exact ((halike.on (Q := True) terminal).run z p p').terminal trivial
    obtain ⟨hrun, hkind, hrest⟩ := h.run y (by simpa using hends) hhead o'
    have hstill := hdcs (hdone.resolve_right hends)
    have hon := hrun.on (Q := True) terminal
    have hrest' : ¬ ((t.run y o).on terminal).breaksHead (z ++ w) p :=
      mt (breaksHead_on _ _ _ _).mp hrest
    by_cases hends' : ∃ b ∈ z, endsSequence (t.run y o).state b
    · exact (hon.run_ended z hends' hrest' p').terminal ⟨trivial, hkind.dcs.trans hstill⟩
    · have hquiet : ∀ b ∈ z, ¬ endsSequence (t.run y o).state b := by simpa using hends'
      exact (hon.run z hquiet hrest' p').1.terminal trivial
  · obtain ⟨z, rfl⟩ := hy
    simp only [consume_eq_run]
    exact ((h.on (Q := True) terminal).run y hquiet
      (mt (breaksHead_on _ o o _).mp hhead) o').1.terminal trivial
  · obtain ⟨z, rfl⟩ := hyb
    rw [List.append_assoc] at h hhead
    simp only [consume_eq_run, run_append]
    obtain ⟨hrun, hkind, -⟩ := (h.on (Q := True) terminal).run y hquiet
      (mt (breaksHead_on _ o o _).mp hhead) o'
    have hlast : endsSequence ((t.on terminal).run y o).state b := hkind.ends ▸ hb
    exact (Apart.ended (x := z) hrun hlast (o + y.length) (o' + y.length)).2.trans
      (hrun.terminal trivial)

/-! ## The prefix -/

/-- Where no header is completed behind `t` none is seen behind what stands in. -/
theorem sameSeen_of_not_completes (ht : ¬ t.completesHeader x)
    (hf : ∃ newest older, f.recent = newest :: older ∧ newest ∉ zmodemHeader) :
    SameSeen zmodemHeader x t.recent f.recent := by
  obtain ⟨newest, older, hrecent, hnewest⟩ := hf
  intro y hy hne
  rw [hrecent]
  change (y.reverse ++ newest :: older).take 4 = zmodemHeader ↔
    (y.reverse ++ t.recent).take 4 = zmodemHeader
  by_cases hlength : y.length < 4
  · exact iff_of_false (take_ne_header hnewest hlength) fun heq => ht ⟨y, hy, hne, hlength, heq⟩
  · rw [List.take_append_of_le_length (by simp; omega),
      List.take_append_of_le_length (by simp; omega)]

/-- What stands in is at no character and in no conversation, and so is the tracker. -/
theorem beside_standIn (hready : Ready t) (hstate : t.state ≠ .ground)
    (ht : ¬ t.completesHeader x) (hremaining : f.utf8Remaining = 0)
    (hbounds : f.utf8Lower = 0x80 ∧ f.utf8Upper = 0xBF) (hz : f.zmodem = .idle)
    (hf : ∃ newest older, f.recent = newest :: older ∧ newest ∉ zmodemHeader) :
    Beside False x t f := by
  have hidle : t.zmodem = .idle := not_not.mp (mt hready.conversing hstate)
  have hrest := hready.between (.inl hstate)
  obtain ⟨hlower, hupper⟩ := hready.rest hrest
  exact ⟨False.elim, hremaining.trans hrest.symm, hbounds.1.trans hlower.symm,
    hbounds.2.trans hupper.symm, hz.trans hidle.symm, fun h => absurd hidle h,
    sameSeen_of_not_completes ht hf, fun h => absurd hidle h⟩

/-- **The prefix puts a new parser where the tracker is**: behind the same bytes it is in the ground
state, and it makes the same changes but for those of a sequence that is dropped. -/
theorem continuationPrefix_continues {excisions : Option (List Excision)} {stream : List UInt8}
    (hread : ({ excisions } : TerminalStreamTracker).consume stream 0 = t)
    (hstate : t.state ≠ .ground) (hparts : ¬ t.Parts x stream.length) :
    Continues t (({} : TerminalStreamTracker).consume t.continuationPrefix 0) x stream.length
      t.continuationPrefix.length := by
  rw [consume_eq_run] at hread
  have hstart : Ready { excisions } :=
    ⟨(by decide : (0x80 : UInt8) ≤ 0x80), fun _ => ⟨rfl, rfl⟩, fun _ => rfl, fun _ => rfl⟩
  have hready : Ready t := hread ▸ hstart.run stream 0
  have hrereads : Rereads t := by
    rw [← hread]
    exact Rereads.run (fun hreads => by cases hreads) hstart stream 0
  rw [consume_eq_run]
  by_cases hwritten : readsRegisters t.state ∧ t.head.length < maximumHead
  · have hwrites : t.continuationPrefix = t.head := by
      rw [continuationPrefix]
      split <;> first
        | exact if_pos hwritten.2
        | simp_all [readsRegisters]
    rw [hwrites]
    refine (hrereads hwritten.1 hwritten.2 x).continues ?_
    rintro (hosc | ⟨-, hlong⟩)
    · rw [hosc] at hwritten
      cases hwritten.1
    · exact absurd hwritten.2 (Nat.not_lt.mpr hlong)
  have hcompletes : ¬ t.completesHeader x := fun h => hparts (.header hwritten h)
  have hhead : ¬ t.breaksHead x stream.length := fun h => hparts (.control h)
  have hidle : t.zmodem = .idle := not_not.mp (mt hready.conversing hstate)
  have hlong : readsRegisters t.state → maximumHead ≤ t.head.length := fun hreads =>
    Nat.not_lt.mp fun hshort => hwritten ⟨hreads, hshort⟩
  have hbeside : ∀ f : TerminalStreamTracker, f.utf8Remaining = 0 →
      (f.utf8Lower = 0x80 ∧ f.utf8Upper = 0xBF) → f.zmodem = .idle →
      (∃ newest older, f.recent = newest :: older ∧ newest ∉ zmodemHeader) → Beside False x t f :=
    fun _ => beside_standIn hready hstate hcompletes
  have hkept : t.state = .csiIgnore ∨ t.state = .apcString → ¬ t.isDropped := by
    rintro (hs | hs) (hosc | ⟨hreads, -⟩)
    all_goals first
      | (rw [hs] at hosc; cases hosc)
      | (rw [hs] at hreads; cases hreads)
  cases hs : t.state
  case ground => exact absurd hs hstate
  case escape => exact absurd (.escape (.inl hs) (hlong (by rw [hs]; rfl))) hparts
  case escapeIntermediate => exact absurd (.escape (.inr hs) (hlong (by rw [hs]; rfl))) hparts
  case csiEntry | csiParam | csiIntermediate =>
    have hreads : readsRegisters t.state := by
      rw [hs]
      rfl
    have hwrites : t.continuationPrefix = [0x1B, 0x5B, 0x3A] := by
      rw [continuationPrefix, hs]
      exact if_neg (Nat.not_lt.mpr (hlong hreads))
    rw [hwrites]
    refine Apart.continues ⟨hbeside _ rfl ⟨rfl, rfl⟩ rfl ⟨_, _, rfl, by decide⟩,
      .csi (by rw [hs]; rfl) rfl, hidle, by decide⟩ hhead fun hkept => ?_
    exact absurd (.inr ⟨hreads, hlong hreads⟩) hkept
  case csiIgnore =>
    have hwrites : t.continuationPrefix = [0x1B, 0x5B, 0x3A] := by rw [continuationPrefix, hs]
    have halike : Alike False x t
        (({} : TerminalStreamTracker).run [0x1B, 0x5B, 0x3A] 0) :=
      ⟨hbeside _ rfl ⟨rfl, rfl⟩ rfl ⟨_, _, rfl, by decide⟩, by rw [hs]; rfl,
        not_readsRegisters (by decide) hs, fun hosc => by rw [hs] at hosc; cases hosc⟩
    rw [hwrites]
    exact halike.continues (hkept (.inl hs))
  case dcsEntry | dcsParam | dcsIntermediate | dcsPassthrough | dcsIgnore =>
    have hwrites : t.continuationPrefix = [0x1B, 0x50, 0x3A] := by rw [continuationPrefix, hs]
    rw [hwrites]
    exact Apart.continues ⟨hbeside _ rfl ⟨rfl, rfl⟩ rfl ⟨_, _, rfl, by decide⟩,
      .dcs (by rw [hs]; rfl) rfl, hidle, by decide⟩ hhead fun _ => by rw [hs]; rfl
  case oscString =>
    have hwrites : t.continuationPrefix = [0x1B, 0x5D, 0x3B] := by rw [continuationPrefix, hs]
    rw [hwrites]
    exact Apart.continues ⟨hbeside _ rfl ⟨rfl, rfl⟩ rfl ⟨_, _, rfl, by decide⟩,
      .osc hs rfl rfl, hidle, by decide⟩ hhead fun hkept => absurd (.inl hs) hkept
  case apcString =>
    have hwrites : t.continuationPrefix = [0x1B, 0x5F, 0x20] := by rw [continuationPrefix, hs]
    have halike : Alike False x t
        (({} : TerminalStreamTracker).run [0x1B, 0x5F, 0x20] 0) :=
      ⟨hbeside _ rfl ⟨rfl, rfl⟩ rfl ⟨_, _, rfl, by decide⟩, by rw [hs]; rfl,
        not_readsRegisters (by decide) hs, fun hosc => by rw [hs] at hosc; cases hosc⟩
    rw [hwrites]
    exact halike.continues (hkept (.inr hs))

/-- A title cut behind its first letter. -/
def cutTitle : TerminalStreamTracker :=
  ({} : TerminalStreamTracker).consume [0x1B, 0x5D, 0x32, 0x3B, 0x41] 0

/-- `B`, the BEL that ends it, and bold. -/
def restOfTitle : List UInt8 := [0x42, 0x07, 0x1B, 0x5B, 0x31, 0x6D]

theorem not_parts_cutTitle : ¬ cutTitle.Parts restOfTitle 5 := by
  intro h
  cases h with
  | escape hstate => exact absurd hstate (by decide)
  | control hbreaks => exact absurd hbreaks.1 (by decide)
  | header _ hcompletes =>
    obtain ⟨y, hy, -, hlength, heq⟩ := hcompletes
    have hnone : ∀ n < 4, ((restOfTitle.take n).reverse ++ cutTitle.recent).take 4
        ≠ zmodemHeader := by decide
    refine hnone y.length hlength ?_
    rwa [← List.prefix_iff_eq_take.mp hy]

/-- The tracker sets it, the parser put there does not, and the text behind it is bold in both. -/
theorem continuationPrefix_continues_title :
    Continues cutTitle (({} : TerminalStreamTracker).consume cutTitle.continuationPrefix 0)
        restOfTitle 5 3 ∧
      (cutTitle.consume restOfTitle 5).terminal
        = { title := some [0x41, 0x42], cursor := { pen := [[0x31]] } } ∧
      ((({} : TerminalStreamTracker).consume cutTitle.continuationPrefix 0).consume restOfTitle
        3).terminal = { cursor := { pen := [[0x31]] } } :=
  ⟨@continuationPrefix_continues restOfTitle cutTitle none [0x1B, 0x5D, 0x32, 0x3B, 0x41] rfl
    (by decide) not_parts_cutTitle, by decide, by decide⟩

/-- `f` is behind the same bytes of `x` in the ground state as `t`, and makes the same changes. -/
def Agrees (t f : TerminalStreamTracker) (x : List UInt8) (o o' : ℤ) : Prop :=
  ∀ y, y <+: x → ((f.consume y o').state = .ground ↔ (t.consume y o).state = .ground) ∧
    ∀ terminal : TerminalReplayState,
      ((f.on terminal).consume y o').terminal = ((t.on terminal).consume y o).terminal

/-- What the rest of a title sets is not set. -/
theorem continuation_drops : ¬ ∀ stream x : List UInt8,
    (({} : TerminalStreamTracker).consume stream 0).state ≠ .ground →
      Agrees (({} : TerminalStreamTracker).consume stream 0)
        (({} : TerminalStreamTracker).consume
          (({} : TerminalStreamTracker).consume stream 0).continuationPrefix 0) x stream.length
        (({} : TerminalStreamTracker).consume stream 0).continuationPrefix.length := by
  intro h
  have htitle := congrArg TerminalReplayState.title
    ((h [0x1B, 0x5D, 0x32, 0x3B, 0x41] [0x07] (by decide) [0x07] (List.prefix_refl _)).2 {})
  exact absurd htitle (by decide)

end TerminalStreamTracker
