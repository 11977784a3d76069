import IGhostVT.Lib.Checked
import IGhostVT.Session.ReplaySize

/-!
# Session/ReplayRanges — no replay slices or subtracts out of range

A slice out of range, or an offset that 64 bits do not hold, would end the process that holds every
shell.  `checkedRebuilt` is `rebuilt` with every slice it takes and every offset it computes
checked; `excisions_inRange` says that none of the checks fails before the stream is `2 ^ 63` bytes
long, whatever it is and wherever recording began, and `Offsets.recording` that no offset is
recorded without its check.
-/

/-! ## Recording begun anywhere -/

namespace TerminalStreamTracker

variable {lo o : ℤ} {t : TerminalStreamTracker}

/-- Recording may begin inside a sequence or a conversation: what is recorded then may lie before
it. -/
theorem Recording.beginRecording (h : Recording lo o t) : Recording lo o t.beginRecording where
  within es hes e he := by
    obtain rfl : [] = es := Option.some.inj hes
    cases he
  start := h.start
  standIn := h.standIn
  begun := h.begun
  conversing := ⟨h.conversing.progress, h.conversing.firstO, h.conversing.cancels⟩

theorem recording_empty : Recording 0 0 ({} : TerminalStreamTracker) where
  within es hes := by cases hes
  start := le_rfl
  standIn := Nat.zero_le _
  begun h := absurd rfl h
  conversing := conversing_of_idle rfl

/-! ## The checked tracker -/

/-- The offsets a step may count back and forth to; `Offsets.step` is that it stores no others. -/
def stepOffsets (offset : ℤ) : List ℤ := [offset - 6, offset - 3, offset - 1, offset + 1]

/-- The byte is one of those `consume` runs straight through, where it computes no offset. -/
def runsThrough (t : TerminalStreamTracker) (byte : UInt8) : Bool :=
  t.zmodem = .idle && t.state = .ground && t.utf8Remaining = 0 && t.recent.head? ≠ some 0x18 &&
    isPlain byte

/-- `step` behind the check of every offset it may compute. -/
def checkedStep (t : TerminalStreamTracker) (byte : UInt8) (offset : ℤ) :
    Option TerminalStreamTracker :=
  if t.runsThrough byte then some (t.step byte offset)
  else do
    let offset ← Checked.int offset
    let _ ← (stepOffsets offset).mapM Checked.int
    return t.step byte offset

/-- `consume`, nothing where an offset would trap. -/
def checkedConsume : TerminalStreamTracker → List UInt8 → ℤ → Option TerminalStreamTracker
  | t, [], _ => some t
  | t, byte :: bytes, offset =>
    (t.checkedStep byte offset).bind fun t => checkedConsume t bytes (offset + 1)

theorem int_eq {x : ℤ} (hlo : -2 ^ 63 ≤ x) (hhi : x < 2 ^ 63) : Checked.int x = some x :=
  if_pos ⟨hlo, hhi⟩

theorem stepOffsets_eq {offset : ℤ} (hlo : 0 ≤ offset) (hhi : offset + 1 < 2 ^ 63) :
    (stepOffsets offset).mapM Checked.int = some (stepOffsets offset) := by
  rw [stepOffsets, List.mapM_cons, List.mapM_cons, List.mapM_cons, List.mapM_cons, List.mapM_nil,
    int_eq (by omega) (by omega), int_eq (by omega) (by omega), int_eq (by omega) (by omega),
    int_eq (by omega) (by omega)]
  rfl

/-- **No offset of a stream shorter than `2 ^ 63` bytes traps**, from any state. -/
theorem checkedConsume_eq (bytes : List UInt8) (t : TerminalStreamTracker) {offset : ℤ}
    (hlo : 0 ≤ offset) (hhi : offset + bytes.length < 2 ^ 63) :
    t.checkedConsume bytes offset = some (t.consume bytes offset) := by
  rw [consume_eq_run]
  induction bytes generalizing t offset with
  | nil => rfl
  | cons byte bytes ih =>
    rw [List.length_cons, Int.natCast_succ] at hhi
    have hstep : t.checkedStep byte offset = some (t.step byte offset) := by
      rw [checkedStep]
      split
      · rfl
      · rw [int_eq (by omega) (by omega), Option.bind_eq_bind, Option.bind_some,
          stepOffsets_eq hlo (by omega)]
        rfl
    rw [checkedConsume, hstep, Option.bind_some, run_cons]
    exact ih _ (by omega) (by omega)

/-- A number that is checked is the number. -/
theorem int_of_some {x y : ℤ} (h : Checked.int x = some y) : y = x := by
  rw [Checked.int] at h
  split at h
  · exact (Option.some.inj h).symm
  · cases h

/-- Where numbers are checked one after another, each of them fits. -/
theorem int_of_mapM : ∀ {xs ys : List ℤ}, xs.mapM Checked.int = some ys →
    ∀ x ∈ xs, Checked.int x = some x
  | [], _, _, _, hx => by cases hx
  | y :: xs, ys, h, x, hx => by
    rw [List.mapM_cons] at h
    obtain ⟨v, hv, h⟩ := Option.bind_eq_some_iff.mp h
    obtain ⟨vs, hvs, -⟩ := Option.bind_eq_some_iff.mp h
    rcases List.mem_cons.mp hx with rfl | hx
    · rw [int_of_some hv] at hv
      exact hv
    · exact int_of_mapM hvs x hx

/-! ## What a step computes

`stepOffsets` is written beside the tracker, not taken from it.  `Offsets` says of everything a
tracker stores that it has a property, and each function keeps it that computes only such offsets:
so no offset is stored that a checked step did not check. -/

/-- Every offset stored has the property. -/
structure Offsets (P : ℤ → Prop) (t : TerminalStreamTracker) : Prop where
  excisions : ∀ es, t.excisions = some es → ∀ e ∈ es, P e.lower ∧ P e.upper
  sequenceStart : P t.sequenceStart
  zmodemStart : P t.zmodemStart

variable {P : ℤ → Prop} {t t' : TerminalStreamTracker} {offset : ℤ}

namespace Offsets

/-- A new tracker stores where it begins, nothing else. -/
theorem empty (hzero : P 0) : Offsets P {} where
  excisions es hes := by cases hes
  sequenceStart := hzero
  zmodemStart := hzero

/-- A change of anything but what is stored. -/
theorem congr (h : Offsets P t) (hexcisions : t'.excisions = t.excisions)
    (hsequence : t'.sequenceStart = t.sequenceStart) (hzmodem : t'.zmodemStart = t.zmodemStart) :
    Offsets P t' :=
  ⟨hexcisions ▸ h.excisions, hsequence ▸ h.sequenceStart, hzmodem ▸ h.zmodemStart⟩

theorem ite {c : Prop} [Decidable c] {a b : TerminalStreamTracker} (ha : c → Offsets P a)
    (hb : ¬ c → Offsets P b) : Offsets P (if c then a else b) := by
  split
  exacts [ha ‹_›, hb ‹_›]

/-- Recording begins with nothing recorded. -/
theorem beginRecording (h : Offsets P t) : Offsets P t.beginRecording where
  excisions es hes e he := by
    obtain rfl : [] = es := Option.some.inj hes
    cases he
  sequenceStart := h.sequenceStart
  zmodemStart := h.zmodemStart

/-- A stretch that is recorded stores its two ends. -/
theorem record (h : Offsets P t) {e : Excision} (hlower : P e.lower) (hupper : P e.upper) :
    Offsets P (t.record e) := by
  refine ⟨fun es hes a ha => ?_, h.sequenceStart, h.zmodemStart⟩
  obtain ⟨es', hes', rfl⟩ := Option.map_eq_some_iff.mp hes
  rcases List.mem_append.mp ha with ha | ha
  · exact h.excisions es' hes' a ha
  · obtain rfl := List.mem_singleton.mp ha
    exact ⟨hlower, hupper⟩

theorem excise (h : Offsets P t) {lower upper : ℤ} (hlower : P lower) (hupper : P upper) :
    Offsets P (t.excise lower upper) :=
  ite (fun _ => h.record hlower hupper) fun _ => h

theorem mapTerminal (h : Offsets P t) (f : TerminalReplayState → TerminalReplayState) :
    Offsets P (t.mapTerminal f) := h.congr rfl rfl rfl

theorem collect (h : Offsets P t) (byte : UInt8) : Offsets P (t.collect byte) :=
  ite (fun _ => h.congr rfl rfl rfl) fun _ => h

theorem param (h : Offsets P t) (byte : UInt8) : Offsets P (t.param byte) :=
  ite (fun _ => ite (fun _ => h.congr rfl rfl rfl) fun _ => h.congr rfl rfl rfl)
    fun _ => h.congr rfl rfl rfl

theorem appendPayload (h : Offsets P t) (byte : UInt8) : Offsets P (t.appendPayload byte) :=
  ite (fun _ => h.congr rfl rfl rfl) fun _ => h.congr rfl rfl rfl

/-- Finishing a string stores no offset. -/
theorem finishString (h : Offsets P t) (finish : StringEnd) :
    Offsets P (t.finishString finish).1 := by
  rw [TerminalStreamTracker.finishString]
  split
  · rw [finishOSC]
    dsimp only
    split_ifs
    all_goals exact h.congr rfl rfl rfl
  · exact h
  · rw [finishAPC]
    split
    all_goals exact h.congr rfl rfl rfl
  · exact h

/-- A sequence stores where it begins. -/
theorem beginSequence (h : Offsets P t) (newState : ParserState) (hhere : P offset) :
    Offsets P (t.beginSequence newState offset) := by
  have hbegins : ∀ t', t'.sequenceStart = offset → t'.excisions = t.excisions →
      t'.zmodemStart = t.zmodemStart → Offsets P t' :=
    fun t' hsequence hexcisions hzmodem =>
      ⟨hexcisions ▸ h.excisions, hsequence ▸ hhere, hzmodem ▸ h.zmodemStart⟩
  rw [TerminalStreamTracker.beginSequence]
  cases newState
  case ground => exact h.congr rfl rfl rfl
  all_goals exact hbegins _ rfl rfl rfl

/-- A string that is left out ends at this byte or behind it. -/
theorem leave (h : Offsets P t) (newState : ParserState) (finish : StringEnd) (hhere : P offset)
    (hnext : P (offset + 1)) : Offsets P (t.leave newState finish offset) := by
  have hpending : Offsets P { t with terminatorPending := false } := h.congr rfl rfl rfl
  have hfinished := hpending.finishString finish
  have hstandIn : ∀ r standIn, Offsets P r → Offsets P { r with sequenceStandIn := standIn } :=
    fun _ _ hr => hr.congr rfl rfl rfl
  unfold TerminalStreamTracker.leave
  dsimp only
  refine beginSequence (hstandIn _ _ (ite (fun _ => ?_) fun _ => hfinished)) newState hhere
  refine (hfinished.excise hfinished.sequenceStart ?_).congr rfl rfl rfl
  split
  exacts [hhere, hnext]

theorem anywhere (h : Offsets P t) (byte : UInt8) (hhere : P offset) (hnext : P (offset + 1)) :
    Offsets P (t.anywhere byte offset) := by
  unfold TerminalStreamTracker.anywhere
  iterate 8 refine ite (fun _ => h.leave _ _ hhere hnext) fun _ => ?_
  exact h

/-- A terminator moves the end of what was left out last behind itself, or leaves it. -/
theorem stringTerminator (h : Offsets P t) (hnext : P (offset + 1)) :
    Offsets P (t.stringTerminator offset) := by
  refine ⟨fun es hes e he => ?_, h.sequenceStart, h.zmodemStart⟩
  rw [TerminalStreamTracker.stringTerminator] at hes
  dsimp only at hes
  split at hes
  · obtain ⟨es', hes', rfl⟩ := Option.map_eq_some_iff.mp hes
    have hstored := h.excisions es' hes'
    split at he
    case h_1 last hlast =>
      have hl := hstored last (List.mem_of_getLast? hlast)
      rcases List.mem_append.mp he with he | he
      · exact hstored e (List.mem_of_mem_dropLast he)
      · obtain rfl := List.mem_singleton.mp he
        refine ⟨hl.1, ?_⟩
        dsimp only
        rcases max_choice last.upper (offset + 1) with hmax | hmax
        all_goals rw [hmax]
        exacts [hl.2, hnext]
    case h_2 => exact hstored e he
  · exact h.excisions es hes e he

theorem escapeDispatch (h : Offsets P t) (final : UInt8) (hnext : P (offset + 1)) :
    Offsets P (t.escapeDispatch final offset) := by
  unfold TerminalStreamTracker.escapeDispatch
  refine ite (fun _ => h.stringTerminator hnext) fun _ => ?_
  have hpending : Offsets P { t with terminatorPending := false } := h.congr rfl rfl rfl
  revert hpending
  generalize ({ t with terminatorPending := false } : TerminalStreamTracker) = t
  intro h
  dsimp only
  rcases t.intermediates with _ | ⟨intermediate, _ | ⟨_, _⟩⟩
  · iterate 4 refine ite (fun _ => h.mapTerminal _) fun _ => ?_
    refine ite (fun _ => h.excise h.sequenceStart hnext) fun _ => ?_
    iterate 6 refine ite (fun _ => h.mapTerminal _) fun _ => ?_
    exact h
  · dsimp only
    cases charsetSlot intermediate with
    | none => exact h
    | some slot => exact ite (fun _ => h.mapTerminal _) fun _ => h
  · exact h

theorem csiApply (h : Offsets P t) (final : UInt8) (hnext : P (offset + 1)) :
    Offsets P (t.csiApply final offset) := by
  have hexcise := h.excise h.sequenceStart hnext
  unfold TerminalStreamTracker.csiApply applySGR
  dsimp only
  repeat' first
    | exact h.mapTerminal _
    | exact hexcise
    | exact h
    | refine ite (fun _ => ?_) fun _ => ?_

theorem csiDispatch (h : Offsets P t) (final : UInt8) (hnext : P (offset + 1)) :
    Offsets P (t.csiDispatch final offset) := by
  unfold TerminalStreamTracker.csiDispatch
  have hpending : Offsets P { t with terminatorPending := false } := h.congr rfl rfl rfl
  revert hpending
  generalize ({ t with terminatorPending := false } : TerminalStreamTracker) = t
  intro h
  dsimp only
  refine ite (fun _ => h) fun _ => ?_
  have hlast : Offsets P
      (if 0 < t.paramDigits then { t with params := t.params ++ [t.paramValue] } else t) :=
    ite (fun _ => h.congr rfl rfl rfl) fun _ => h
  exact ite (fun _ => hlast) fun _ => hlast.csiApply final hnext

theorem execute (h : Offsets P t) (byte : UInt8) (hhere : P offset) (hnext : P (offset + 1)) :
    Offsets P (t.execute byte offset) := by
  unfold TerminalStreamTracker.execute
  refine ite (fun _ => h.excise hhere hnext) fun _ => ?_
  iterate 2 refine ite (fun _ => h.mapTerminal _) fun _ => ?_
  exact h

/-- A byte at rest that is no control computes no offset. -/
theorem groundByte_plain (h : Offsets P t) (interrupts : Bool) {byte : UInt8}
    (hbyte : 0x1F < byte) : Offsets P (t.groundByte interrupts byte offset) := by
  have hle : ¬ byte ≤ 0x1F := UInt8.not_le.mpr hbyte
  have hescape : byte ≠ 0x1B := by
    rintro rfl
    exact hle (by decide)
  have hanswer : ¬ (byte = 0x05 ∧ interrupts) := by
    rintro ⟨rfl, -⟩
    exact hle (by decide)
  unfold TerminalStreamTracker.groundByte
  rw [if_neg hescape, if_neg hanswer, if_neg hle]
  refine ite (fun _ => h) fun _ => ?_
  unfold utf8Lead
  iterate 7 refine ite (fun _ => h.congr rfl rfl rfl) fun _ => ?_
  exact h

/-- A control computes where it is and what is behind it. -/
theorem groundByte (h : Offsets P t) (interrupts : Bool) (byte : UInt8) (hhere : P offset)
    (hnext : P (offset + 1)) : Offsets P (t.groundByte interrupts byte offset) := by
  by_cases hbyte : byte ≤ 0x1F
  · unfold TerminalStreamTracker.groundByte
    refine ite (fun _ => ⟨h.excisions, hhere, h.zmodemStart⟩) fun _ => ?_
    refine ite (fun _ => h.record hhere hnext) fun _ => ?_
    rw [if_pos hbyte]
    exact h.execute byte hhere hnext
  · exact h.groundByte_plain interrupts (UInt8.not_le.mp hbyte)

/-- At rest, whatever a byte of the kind at hand keeps. -/
theorem ground_of (h : Offsets P t) {byte : UInt8}
    (hbyte : ∀ (t : TerminalStreamTracker) (interrupts : Bool), Offsets P t →
      Offsets P (t.groundByte interrupts byte offset)) : Offsets P (t.ground byte offset) := by
  unfold TerminalStreamTracker.ground
  refine ite (fun _ => ite (fun _ => h.congr rfl rfl rfl) fun _ => ?_) fun _ => hbyte t false h
  exact hbyte _ true (h.congr rfl rfl rfl)

theorem ground (h : Offsets P t) (byte : UInt8) (hhere : P offset) (hnext : P (offset + 1)) :
    Offsets P (t.ground byte offset) :=
  h.ground_of fun _ interrupts h => h.groundByte interrupts byte hhere hnext

theorem sequenceByte (h : Offsets P t) (byte : UInt8) (hhere : P offset) (hnext : P (offset + 1)) :
    Offsets P (t.sequenceByte byte offset) := by
  have hstate : ∀ state, Offsets P { t with state := state } := fun _ => h.congr rfl rfl rfl
  have hescape := (hstate .ground).escapeDispatch byte hnext
  have hcsi := (hstate .ground).csiDispatch byte hnext
  have hstring : ∀ state, Offsets P (t.enterString state) := fun _ => h.congr rfl rfl rfl
  have hhook : Offsets P (t.hookDCS byte) := h.congr rfl rfl rfl
  have hcollects : ∀ state, Offsets P { t.collect byte with state := state } :=
    fun _ => (h.collect byte).congr rfl rfl rfl
  have hparams : ∀ state, Offsets P { t.param byte with state := state } :=
    fun _ => (h.param byte).congr rfl rfl rfl
  unfold TerminalStreamTracker.sequenceByte
  split
  case h_1 => exact h.ground byte hhere hnext
  all_goals
    repeat' first
      | exact h
      | exact h.execute byte hhere hnext
      | exact h.anywhere byte hhere hnext
      | exact hescape
      | exact hcsi
      | exact hhook
      | exact h.collect byte
      | exact h.param byte
      | exact hstring _
      | exact hstate _
      | exact hcollects _
      | exact hparams _
      | exact h.appendPayload byte
      | exact h.leave _ _ hhere hnext
      | refine ite (fun _ => ?_) fun _ => ?_

theorem sequence (h : Offsets P t) (byte : UInt8) (hhere : P offset) (hnext : P (offset + 1)) :
    Offsets P (t.sequence byte offset) := by
  unfold TerminalStreamTracker.sequence
  have hhead : ∀ head, Offsets P { t with head := head } := fun _ => h.congr rfl rfl rfl
  exact ite (fun _ => h.anywhere byte hhere hnext) fun _ => (hhead _).sequenceByte byte hhere hnext

/-- A conversation that ends is left out from where it began, or from the stream's first byte. -/
theorem endZmodem (h : Offsets P t) (hzero : P 0) (hhere : P offset) :
    Offsets P (t.endZmodem offset) := by
  have hconversation : Offsets P (t.exciseConversation offset) := by
    refine ite (fun _ => h.record ?_ hhere) fun _ => h
    dsimp only
    rcases max_choice t.zmodemStart 0 with hmax | hmax
    all_goals rw [hmax]
    exacts [h.zmodemStart, hzero]
  exact hconversation.congr rfl rfl rfl

/-- **A byte of a conversation counts back six bytes, or one, and forth one.** -/
theorem stepZmodemWith (h : Offsets P t) {again : TerminalStreamTracker → TerminalStreamTracker}
    (hagain : ∀ t, Offsets P t → Offsets P (again t)) (hzero : P 0) (hhere : P offset)
    (hcomputed : ∀ x ∈ stepOffsets offset, P x) (byte : UInt8) :
    Offsets P (t.stepZmodemWith again byte offset) := by
  have hsix : P (offset - 6) := hcomputed _ (by simp [stepOffsets])
  have hback : P (offset - 1) := hcomputed _ (by simp [stepOffsets])
  have hnext : P (offset + 1) := hcomputed _ (by simp [stepOffsets])
  have htracked : Offsets P (t.trackPromptMark byte).1 := by
    rw [trackPromptMark]
    dsimp only
    split
    all_goals exact h.congr rfl rfl rfl
  unfold TerminalStreamTracker.stepZmodemWith
  dsimp only
  revert htracked
  generalize (t.trackPromptMark byte).1 = t
  intro h
  have hphase : ∀ phase, Offsets P { t with zmodem := phase } := fun _ => h.congr rfl rfl rfl
  have hended : Offsets P ((t.endZmodem offset).ground byte offset) :=
    (h.endZmodem hzero hhere).ground byte hhere hnext
  refine ite (fun _ => ?_) fun _ => ?_
  · have hmarked := h.endZmodem hzero hsix
    exact ⟨hmarked.excisions, hsix, hmarked.zmodemStart⟩
  cases t.zmodem with
  | idle => exact h
  | data cancels =>
    dsimp only
    refine ite (fun _ => hphase _) fun _ => ite (fun _ => hagain _ (hphase _)) fun _ => ?_
    exact ite (fun _ => hphase _) fun _ => hphase _
  | afterCancel => exact ite (fun _ => hended) fun _ => h
  | finishHex => exact ite (fun _ => hphase _) fun _ => h
  | finishTrailer => exact ite (fun _ => h) fun _ => ite (fun _ => hphase _) fun _ => hended
  | finishFirstO =>
    refine ite (fun _ => h.endZmodem hzero hnext) fun _ => ?_
    have hlone : Offsets P ((t.endZmodem (offset - 1)).ground 0x4F (offset - 1)) :=
      (h.endZmodem hzero hback).ground_of fun _ interrupts h =>
        h.groundByte_plain interrupts (by decide)
    exact hlone.ground byte hhere hnext

/-- **Whatever a step stores was stored before, or is the byte's offset or one of
`stepOffsets`.** -/
theorem step (h : Offsets P t) (hzero : P 0) (hhere : P offset)
    (hcomputed : ∀ x ∈ stepOffsets offset, P x) (byte : UInt8) :
    Offsets P (t.step byte offset) := by
  have hsix : P (offset - 6) := hcomputed _ (by simp [stepOffsets])
  have hthree : P (offset - 3) := hcomputed _ (by simp [stepOffsets])
  have hnext : P (offset + 1) := hcomputed _ (by simp [stepOffsets])
  have hrecent : Offsets P { t with recent := pushRecent t.recent byte } := h.congr rfl rfl rfl
  unfold TerminalStreamTracker.step
  dsimp only
  refine ite (fun _ => ?_) fun _ => ite (fun _ => ?_) fun _ => ite (fun _ => ?_) fun _ => ?_
  · refine hrecent.stepZmodemWith (fun t h => ?_) hzero hhere hcomputed byte
    exact h.stepZmodemWith (fun _ h => h) hzero hhere hcomputed byte
  · refine ⟨h.excisions, h.sequenceStart, ?_⟩
    change P (if _ then _ else _)
    split
    exacts [hsix, hthree]
  · exact hrecent.ground byte hhere hnext
  · exact hrecent.sequence byte hhere hnext

/-- A byte that is run straight through stores nothing. -/
theorem step_runsThrough (h : Offsets P t) {byte : UInt8} (hruns : t.runsThrough byte = true) :
    Offsets P (t.step byte offset) := by
  simp only [runsThrough, Bool.and_eq_true, decide_eq_true_eq] at hruns
  obtain ⟨⟨⟨⟨hzmodem, hground⟩, hwhole⟩, hheader⟩, hplain⟩ := hruns
  rw [step_of_isPlain t hzmodem hground hwhole hheader hplain]
  exact h.congr rfl rfl rfl

/-- **A checked step stores nothing that was not checked.** -/
theorem checkedStep (h : Offsets P t) (hfits : ∀ x, Checked.int x = some x → P x)
    {byte : UInt8} (hstep : t.checkedStep byte offset = some t') : Offsets P t' := by
  rw [TerminalStreamTracker.checkedStep] at hstep
  split at hstep
  case isTrue hruns =>
    obtain rfl := Option.some.inj hstep
    exact h.step_runsThrough hruns
  case isFalse =>
    simp only [Option.bind_eq_bind, Option.bind_eq_some_iff] at hstep
    obtain ⟨here, hhere, computed, hcomputed, hstep⟩ := hstep
    obtain rfl := int_of_some hhere
    obtain rfl := Option.some.inj hstep
    exact h.step (hfits 0 (int_eq (by norm_num) (by norm_num))) (hfits here hhere)
      (fun x hx => hfits x (int_of_mapM hcomputed x hx)) byte

/-- **Nor does a checked run**: all the tracker stores fits its 64 bits. -/
theorem checkedConsume (hfits : ∀ x, Checked.int x = some x → P x) (bytes : List UInt8) :
    ∀ {t t' : TerminalStreamTracker} {offset : ℤ}, Offsets P t →
      t.checkedConsume bytes offset = some t' → Offsets P t' := by
  induction bytes with
  | nil =>
    intro t t' offset h hrun
    obtain rfl := Option.some.inj hrun
    exact h
  | cons byte bytes ih =>
    intro t t' offset h hrun
    obtain ⟨u, hstep, hrest⟩ := Option.bind_eq_some_iff.mp hrun
    exact ih (h.checkedStep hfits hstep) hrest

/-- **What is recorded of a stream fits**, whatever a new tracker read of it before. -/
theorem recording {past rest : List UInt8}
    (hpast : ({} : TerminalStreamTracker).checkedConsume past 0 = some t)
    (hrest : t.beginRecording.checkedConsume rest offset = some t') :
    Offsets (fun x => Checked.int x = some x) t' := by
  have hzero : Checked.int 0 = some 0 := int_eq (by norm_num) (by norm_num)
  have hbefore := (empty hzero).checkedConsume (fun _ hx => hx) past hpast
  exact hbefore.beginRecording.checkedConsume (fun _ hx => hx) rest hrest

end Offsets

/-! ## What is recorded -/

/-- What a stream makes a tracker record from its `past.length`-th byte on. -/
def recorded (past rest : List UInt8) : List Excision :=
  ((({} : TerminalStreamTracker).consume past 0).beginRecording.consume rest
    past.length).takeExcisions
    (past ++ rest).length

theorem recorded_within {past rest : List UInt8} {e : Excision} (he : e ∈ recorded past rest) :
    Within 0 (past ++ rest).length e := by
  have hpast := (recording_empty.run le_rfl past le_rfl).beginRecording
  have hrest := hpast.run le_rfl rest (by omega)
  rw [recorded, consume_eq_run, consume_eq_run] at he
  rw [zero_add] at hrest
  rw [List.length_append, Int.natCast_add] at he ⊢
  exact hrest.takeExcisions (by omega) he

end TerminalStreamTracker

namespace SessionOutputLog

open TerminalStreamTracker

/-! ## The merged list -/

/-- Joined stretches lie one behind another. -/
theorem apart_joinFrom (es : List Excision) (hes : ∀ e ∈ es, e.lower < e.upper) :
    ∀ {last : Excision}, last.lower < last.upper →
      (joinFrom last es).Pairwise (fun a b => a.upper ≤ b.lower) ∧
        ∀ e ∈ joinFrom last es, last.lower ≤ e.lower := by
  induction es with
  | nil =>
    intro last _
    exact ⟨List.pairwise_singleton _ last, fun e he => List.mem_singleton.mp he ▸ le_rfl⟩
  | cons e es ih =>
    intro last hlast
    have he := hes e List.mem_cons_self
    have ih := @ih fun a ha => hes a (List.mem_cons_of_mem _ ha)
    rw [joinFrom]
    split
    case isTrue =>
      exact @ih { last with upper := max last.upper e.upper } (hlast.trans_le (le_max_left _ _))
    case isFalse hapart =>
      obtain ⟨hpairwise, hlower⟩ := ih he
      have hbehind : ∀ a ∈ joinFrom e es, last.upper ≤ a.lower := fun a ha =>
        (not_lt.mp hapart).trans (hlower a ha)
      refine ⟨List.pairwise_cons.mpr ⟨hbehind, hpairwise⟩, fun a ha => ?_⟩
      rcases List.mem_cons.mp ha with rfl | ha
      exacts [le_rfl, hlast.le.trans (hbehind a ha)]

theorem apart_merged {es : List Excision} (hes : ∀ e ∈ es, e.lower < e.upper) :
    (merged es).Pairwise fun a b => a.upper ≤ b.lower := by
  have hsorted : ∀ e ∈ es.insertionSort fun a b => a.lower ≤ b.lower, e.lower < e.upper :=
    fun e he =>
    hes e ((List.perm_insertionSort _ es).mem_iff.mp he)
  rw [merged]
  split
  · exact List.Pairwise.nil
  case h_2 e es heq =>
    rw [heq] at hsorted
    exact (apart_joinFrom es (fun a ha => hsorted a (List.mem_cons_of_mem _ ha))
      (hsorted e List.mem_cons_self)).1

/-- No stretch is empty, or lies out of the stream. -/
theorem Spaced.inRange {hi lo : ℤ} {es : List Excision} (h : Spaced hi lo es) :
    ∀ e ∈ es, 0 ≤ e.lower ∧ e.lower < e.upper ∧ e.upper ≤ hi := by
  induction es generalizing lo with
  | nil =>
    intro e he
    cases he
  | cons a es ih =>
    intro e he
    rcases List.mem_cons.mp he with rfl | he
    exacts [⟨h.1.nonneg, h.1.lower_lt, h.1.upper_le⟩, ih h.2 e he]

/-! ## The checked rebuild -/

/-- `Int64(truncatingIfNeeded:)`. -/
def truncated (offset : ℕ) : ℤ := (offset : ℤ).bmod (2 ^ 64)

/-- Forward to the first quiescent point from `start` on; `fuel` bounds the rounds. -/
def checkedSeek (bytes : List UInt8) (base : ℤ) :
    ℕ → TerminalStreamTracker → ℤ → Option (TerminalStreamTracker × ℤ)
  | 0, t, start => some (t, start)
  | fuel + 1, t, start =>
    if start < bytes.length ∧ t.isQuiescent = false then do
      let byte ← Checked.slice bytes start (start + 1)
      let offset ← Checked.int (base + start)
      checkedSeek bytes base fuel (← t.checkedConsume byte offset) (start + 1)
    else some (t, start)

/-- The bytes from `cursor` on behind `out`, each excision's stretch replaced. -/
def checkedSplice (bytes : List UInt8) (base : ℤ) :
    List UInt8 → ℤ → List Excision → Option (List UInt8)
  | out, cursor, [] => do
    if cursor < bytes.length then return out ++ (← Checked.slice bytes cursor bytes.length)
    else return out
  | out, cursor, e :: es => do
    let count : ℤ := bytes.length
    let lower := min count (max cursor (← Checked.int (e.lower - base)))
    let upper := min count (max lower (← Checked.int (e.upper - base)))
    let kept ← (if cursor < lower then Checked.slice bytes cursor lower else some [])
    checkedSplice bytes base (out ++ kept ++ e.replacement) (max cursor upper) es

/-- `rebuilt`, nothing where it would trap. -/
def checkedRebuilt (log : SessionOutputLog) : Option Replay := do
  let base := truncated log.startOffset
  let bytes := log.buffer
  let count : ℤ := bytes.length
  let windowStart := max 0 (count - log.capacity)
  let dropped ← (if 0 < windowStart then Checked.slice bytes 0 windowStart else some [])
  let tracker ← log.startState.checkedConsume dropped base
  let (tracker, start) ← checkedSeek bytes base bytes.length tracker windowStart
  let startTerminal := tracker.terminal
  if start < count then
    let rest ← Checked.slice bytes start count
    let tracker ← tracker.beginRecording.checkedConsume rest (← Checked.int (base + start))
    let finish ← Checked.int (base + count)
    let out := (startTerminal.includingSettings tracker.terminal).preamble
    let data ← checkedSplice bytes base out start (merged (tracker.takeExcisions finish))
    return .rebuilt data tracker.isInZmodemConversation
  else
    return .rebuilt (startTerminal.preamble ++ tracker.continuationPrefix)
      tracker.isInZmodemConversation

variable {bytes : List UInt8} {base : ℕ}

theorem truncated_eq {offset : ℕ} (h : offset < 2 ^ 63) : truncated offset = offset := by
  unfold truncated
  exact Int.bmod_eq_of_le (by omega) (by omega)

theorem slice_all {xs : List UInt8} (n : ℕ) (h : n ≤ xs.length) :
    Checked.slice xs n xs.length = some (xs.drop n) := by
  rw [Checked.slice, if_pos (by omega), Int.toNat_natCast, Int.toNat_natCast, List.take_length]

theorem slice_take {xs : List UInt8} {n : ℕ} (h : n ≤ xs.length) :
    (if (0 : ℤ) < n then Checked.slice xs 0 n else some []) = some (xs.take n) := by
  split
  · rw [Checked.slice, if_pos (by omega), Int.toNat_natCast]
    rfl
  · rw [show n = 0 by omega]
    rfl

/-- The seek reads a byte at a time what is left of the window. -/
theorem checkedSeek_eq (hfits : base + bytes.length < 2 ^ 63) :
    ∀ (fuel k : ℕ) (t : TerminalStreamTracker), k ≤ bytes.length → bytes.length - k ≤ fuel →
      ∃ k' ≤ bytes.length, checkedSeek bytes base fuel t k
        = some ((seekQuiescent t (bytes.drop k) (base + k)).1, (k' : ℤ)) ∧
        (seekQuiescent t (bytes.drop k) (base + k)).2 = bytes.drop k' := by
  intro fuel
  induction fuel with
  | zero =>
    intro k t hk hfuel
    rw [List.drop_eq_nil_of_le (by omega)]
    exact ⟨k, hk, rfl, (List.drop_eq_nil_of_le (by omega)).symm⟩
  | succ fuel ih =>
    intro k t hk hfuel
    rw [checkedSeek]
    rcases Nat.eq_or_lt_of_le hk with rfl | hlt
    · rw [if_neg fun h => lt_irrefl _ h.1, List.drop_length]
      exact ⟨bytes.length, le_rfl, rfl, List.drop_length.symm⟩
    · rw [List.drop_eq_getElem_cons hlt, seekQuiescent]
      by_cases hquiet : t.isQuiescent = true
      · rw [if_neg fun h => absurd (hquiet.symm.trans h.2) (by decide), if_pos hquiet]
        exact ⟨k, hk, rfl, (List.drop_eq_getElem_cons hlt).symm⟩
      · have hslice : Checked.slice bytes k (k + 1) = some [bytes[k]] := by
          rw [Checked.slice, if_pos (by omega), Int.toNat_natCast, ← Int.natCast_succ,
            Int.toNat_natCast, List.take_succ_eq_append_getElem hlt, List.drop_append_of_le_length,
            List.drop_eq_nil_of_le]
          · rfl
          · rw [List.length_take]
            exact Nat.min_le_left _ _
          · rw [List.length_take]
            omega
        rw [if_pos ⟨by exact_mod_cast hlt, Bool.not_eq_true _ ▸ hquiet⟩, if_neg hquiet, hslice,
          int_eq (by omega) (by omega)]
        have hread :
            t.checkedConsume [bytes[k]] (base + k) = some (t.consume [bytes[k]] (base + k)) :=
          checkedConsume_eq _ t (by omega) (by rw [List.length_singleton]; omega)
        simp only [Option.bind_eq_bind, Option.bind_some, hread]
        obtain ⟨k', hk', hseek, hrest⟩ :=
          ih (k + 1) (t.consume [bytes[k]] (base + k)) hlt (by omega)
        rw [Int.natCast_succ, ← add_assoc] at hseek hrest
        exact ⟨k', hk', hseek, hrest⟩

/-- What the excisions leave is spliced without a trap. -/
theorem checkedSplice_eq (hfits : base + bytes.length < 2 ^ 63) :
    ∀ (es : List Excision), (∀ e ∈ es, 0 ≤ e.lower ∧ e.lower < e.upper ∧
      e.upper ≤ (base + bytes.length : ℕ)) →
      ∀ (out : List UInt8) (cursor : ℕ), cursor ≤ bytes.length →
        checkedSplice bytes base out cursor es = some (out ++ spliced bytes base cursor es) := by
  intro es
  induction es with
  | nil =>
    intro _ out cursor hcursor
    rw [checkedSplice, spliced]
    split
    · rw [slice_all cursor hcursor]
      rfl
    · rw [List.drop_eq_nil_of_le (by omega), List.append_nil]
      rfl
  | cons e es ih =>
    intro hes out cursor hcursor
    obtain ⟨hnonneg, hlt, hle⟩ := hes e List.mem_cons_self
    obtain ⟨lower, hlower⟩ : ∃ l, l = min bytes.length (max cursor (e.lower - base).toNat) :=
      ⟨_, rfl⟩
    obtain ⟨upper, hupper⟩ : ∃ u, u = min bytes.length (max lower (e.upper - base).toNat) :=
      ⟨_, rfl⟩
    have hlower' : min (bytes.length : ℤ) (max cursor (e.lower - base)) = lower := by omega
    have hupper' : min (bytes.length : ℤ) (max lower (e.upper - base)) = upper := by omega
    have hkept : (if (cursor : ℤ) < lower then Checked.slice bytes cursor lower else some [])
        = some ((bytes.take lower).drop cursor) := by
      split
      · rw [Checked.slice, if_pos (by omega), Int.toNat_natCast, Int.toNat_natCast]
      · rw [List.drop_eq_nil_of_le]
        rw [List.length_take]
        omega
    have hmax : max (cursor : ℤ) upper = (max cursor upper : ℕ) := by omega
    have hrest := ih (fun a ha => hes a (List.mem_cons_of_mem _ ha))
      (out ++ (bytes.take lower).drop cursor ++ e.replacement) (max cursor upper) (by omega)
    rw [checkedSplice, spliced, int_eq (by omega) (by omega), int_eq (by omega) (by omega)]
    simp only [Option.bind_eq_bind, Option.bind_some, hlower', hupper', hkept, hmax, ← hlower,
      ← hupper]
    rw [hrest, List.append_assoc, List.append_assoc, List.append_assoc]

variable {capacity : ℕ} {stream : List UInt8} {log : SessionOutputLog}

/-- **The rebuild of a stream whose offsets 64 bits hold traps nowhere.** -/
theorem LogInvariant.checkedRebuilt_eq (h : LogInvariant capacity stream log)
    (hfits : stream.length < 2 ^ 63) : log.checkedRebuilt = some log.rebuilt := by
  have hend : log.startOffset + log.buffer.length = stream.length := h.endOffset_eq
  have hbase : truncated log.startOffset = log.startOffset := truncated_eq (by omega)
  obtain ⟨windowStart, hwindow⟩ : ∃ w, w = log.buffer.length - log.capacity := ⟨_, rfl⟩
  have hmax : max 0 ((log.buffer.length : ℤ) - log.capacity) = windowStart := by omega
  have hdropped :
      (if (0 : ℤ) < windowStart then Checked.slice log.buffer 0 windowStart else some [])
      = some (log.buffer.take windowStart) := slice_take (by omega)
  obtain ⟨start, hstart, hseek, hrest⟩ := @checkedSeek_eq log.buffer log.startOffset (by omega)
    log.buffer.length windowStart
    (log.startState.consume (log.buffer.take windowStart) log.startOffset) (by omega) (by omega)
  obtain ⟨k, hk, hsought, -⟩ := seekQuiescent_eq
    (log.startState.consume (log.buffer.take windowStart) log.startOffset)
    (log.buffer.drop windowStart) (log.startOffset + windowStart)
  rw [List.length_drop] at hk
  rw [hsought] at hseek hrest
  dsimp only at hseek hrest
  -- The tracker the recording begins from has read the stream up to there.
  have hfrom : windowStart + k = start := by
    have hlength := congrArg List.length hrest
    rw [List.length_drop, List.length_drop, List.length_drop] at hlength
    omega
  have hread : (log.startState.consume (log.buffer.take windowStart) log.startOffset).run
      ((log.buffer.drop windowStart).take k) (log.startOffset + windowStart)
      = ({} : TerminalStreamTracker).consume (stream.take (log.startOffset + start)) 0 := by
    have htake : stream.take (log.startOffset + start) = stream.take log.startOffset
        ++ (log.buffer.take windowStart ++ (log.buffer.drop windowStart).take k) := by
      rw [List.take_add, ← h.buffer_eq, ← hfrom, List.take_add]
    have hlength : (stream.take log.startOffset).length = log.startOffset :=
      List.length_take_of_le h.startOffset_le
    have hdropLength : (log.buffer.take windowStart).length = windowStart :=
      List.length_take_of_le (by omega)
    rw [htake, consume_eq_run, consume_eq_run, run_append, run_append, hlength, hdropLength,
      zero_add, ← h.startState_eq]
  rw [hread] at hseek hsought
  rw [hrest] at hsought
  have hrebuilt : log.rebuilt = rebuiltFrom log.buffer log.startOffset
      (({} : TerminalStreamTracker).consume (stream.take (log.startOffset + start)) 0)
      (log.buffer.drop start) := by
    simp only [rebuilt, ← hwindow, hsought]
  have hwindowRead : log.startState.checkedConsume (log.buffer.take windowStart) log.startOffset
      = some (log.startState.consume (log.buffer.take windowStart) log.startOffset) :=
    checkedConsume_eq _ _ (by omega) (by rw [List.length_take]; omega)
  rw [hrebuilt, checkedRebuilt, rebuiltFrom]
  simp only [hbase, hmax, hdropped, hwindowRead, hseek, Option.bind_eq_bind, Option.bind_some]
  rcases Nat.eq_or_lt_of_le hstart with heq | hlt
  · rw [if_neg (by omega), if_pos (List.drop_eq_nil_of_le (by omega))]
    rfl
  · have hne : log.buffer.drop start ≠ [] := fun hnil => by
      have := List.drop_eq_nil_iff.mp hnil
      omega
    have hback : log.buffer.length - (log.buffer.drop start).length = start := by
      rw [List.length_drop]
      omega
    rw [if_pos (by omega), if_neg hne, slice_all start hstart, int_eq (by omega) (by omega),
      int_eq (by omega) (by omega), hback]
    simp only [Option.bind_some]
    rw [checkedConsume_eq _ _ (by omega) (by rw [List.length_drop]; omega)]
    have hpast : (stream.take (log.startOffset + start)).length = log.startOffset + start :=
      List.length_take_of_le (by omega)
    have hall : (stream.take (log.startOffset + start) ++ log.buffer.drop start).length
        = log.startOffset + log.buffer.length := by
      rw [List.length_append, hpast, List.length_drop]
      omega
    have hrecorded : ((({} : TerminalStreamTracker).consume
        (stream.take (log.startOffset + start)) 0).beginRecording.consume (log.buffer.drop start)
          (log.startOffset + start)).takeExcisions (log.startOffset + log.buffer.length)
        = recorded (stream.take (log.startOffset + start)) (log.buffer.drop start) := by
      rw [recorded, hpast, hall, Int.natCast_add, Int.natCast_add]
    have hinRange : ∀ e ∈ merged (recorded (stream.take (log.startOffset + start))
        (log.buffer.drop start)), 0 ≤ e.lower ∧ e.lower < e.upper ∧
          e.upper ≤ (log.startOffset + log.buffer.length : ℕ) := by
      rw [← hall]
      exact (spaced_merged fun e he => recorded_within he).inRange
    simp only [Option.bind_some, hrecorded, checkedSplice_eq (by omega) _ hinRange _ start hstart]
    rfl

/-- **Excisions never build a bad range.**  Each lies in the stream read, the merged ones behind one
another, and a rebuild takes every slice in range and computes every offset in 64 bits. -/
theorem excisions_inRange (stream : List UInt8) (hfits : stream.length < 2 ^ 63) :
    (∀ past rest, past ++ rest = stream →
      (∀ e ∈ recorded past rest, 0 ≤ e.lower ∧ e.lower < e.upper ∧ e.upper ≤ stream.length) ∧
      (merged (recorded past rest)).Pairwise fun a b => a.lower ≤ b.lower ∧ a.upper ≤ b.lower) ∧
    (∀ i < stream.length, ∀ x ∈ stepOffsets i, Checked.int x = some x) ∧
    ∀ capacity chunks, chunks.flatten = stream →
      (afterAppends capacity chunks).checkedRebuilt =
      some (afterAppends capacity chunks).rebuilt := by
  refine ⟨?_, ?_, ?_⟩
  · rintro past rest rfl
    have hwithin : ∀ e ∈ recorded past rest, Within 0 (past ++ rest).length e :=
      fun e he => recorded_within he
    refine ⟨fun e he => ⟨(hwithin e he).nonneg, (hwithin e he).lower_lt, (hwithin e he).upper_le⟩,
      ?_⟩
    have hmerged := (spaced_merged hwithin).inRange
    refine (apart_merged fun e he => (hwithin e he).lower_lt).imp_of_mem fun ha _ hab => ?_
    exact ⟨(hmerged _ ha).2.1.le.trans hab, hab⟩
  · intro i hi x hx
    simp only [stepOffsets, List.mem_cons, List.not_mem_nil, or_false] at hx
    exact int_eq (by omega) (by omega)
  · rintro capacity chunks rfl
    exact (logInvariant_afterAppends capacity chunks).checkedRebuilt_eq hfits

/-- A question in the replay, and the bytes around it. -/
theorem excisions_inRange_question :
    (afterAppends 3 [[0x61, 0x1B], [0x5A, 0x62]]).checkedRebuilt
      = some (afterAppends 3 [[0x61, 0x1B], [0x5A, 0x62]]).rebuilt :=
  (excisions_inRange [0x61, 0x1B, 0x5A, 0x62] (by decide)).2.2 3 [[0x61, 0x1B], [0x5A, 0x62]] rfl

/-! ## A longer stream -/

/-- The offset just past the byte before 64 bits run out is one they do not hold. -/
theorem LogInvariant.checkedRebuilt_overflow (h : LogInvariant capacity stream log)
    (hcapacity : 0 < capacity) (hplain : ∀ b ∈ stream, isPlain b = true)
    (hlength : stream.length = 2 ^ 63) : log.checkedRebuilt = none := by
  have hend : log.startOffset + log.buffer.length = stream.length := h.endOffset_eq
  have hretained := h.retained
  have hbase : truncated log.startOffset = log.startOffset := truncated_eq (by omega)
  obtain ⟨windowStart, hwindow⟩ : ∃ w, w = log.buffer.length - log.capacity := ⟨_, rfl⟩
  have hcap := h.capacity_eq
  have hmax : max 0 ((log.buffer.length : ℤ) - log.capacity) = windowStart := by omega
  have hlt : windowStart < log.buffer.length := by omega
  have hdropped :
      (if (0 : ℤ) < windowStart then Checked.slice log.buffer 0 windowStart else some [])
      = some (log.buffer.take windowStart) := slice_take hlt.le
  -- Text leaves the parser at rest.
  have hquiet : (log.startState.consume (log.buffer.take windowStart) log.startOffset).isQuiescent
      = true := by
    have hread : log.startState.consume (log.buffer.take windowStart) log.startOffset
        = ({} : TerminalStreamTracker).run (stream.take (log.startOffset + windowStart)) 0 := by
      rw [consume_eq_run, h.startState_eq, List.take_add, ← h.buffer_eq, run_append,
        List.length_take, Nat.min_eq_left h.startOffset_le, zero_add]
    rw [hread]
    have hrun := run_of_isPlain {} rfl rfl rfl (stream.take (log.startOffset + windowStart))
      (fun b hb => hplain b (List.mem_of_mem_take hb)) (List.replicate 8 0) (by decide) 0
    exact (congrArg isQuiescent hrun).trans rfl
  obtain ⟨fuel, hfuel⟩ : ∃ n, log.buffer.length = n + 1 := ⟨log.buffer.length - 1, by omega⟩
  have hseek : checkedSeek log.buffer log.startOffset log.buffer.length
      (log.startState.consume (log.buffer.take windowStart) log.startOffset) windowStart
      = some (log.startState.consume (log.buffer.take windowStart) log.startOffset,
        (windowStart : ℤ)) := by
    conv_lhs => rw [hfuel, checkedSeek]
    exact if_neg fun hnot => absurd (hquiet.symm.trans hnot.2) (by decide)
  have hfinish : Checked.int ((log.startOffset : ℤ) + log.buffer.length) = none :=
    if_neg (by omega)
  have hwindowRead : log.startState.checkedConsume (log.buffer.take windowStart) log.startOffset
      = some (log.startState.consume (log.buffer.take windowStart) log.startOffset) :=
    checkedConsume_eq _ _ (by omega) (by rw [List.length_take]; omega)
  rw [checkedRebuilt]
  simp only [hbase, hmax, hdropped, hwindowRead, hseek, Option.bind_eq_bind, Option.bind_some]
  rw [if_pos (by exact_mod_cast hlt), slice_all windowStart hlt.le, int_eq (by omega) (by omega)]
  simp only [Option.bind_some, hfinish, Option.bind_none]
  exact Option.bind_fun_none _

/-- One byte after another for `2 ^ 63` of them: the end of the last is an offset that overflows. -/
theorem rebuilt_overflows :
    (afterAppends 1 (List.replicate (2 ^ 63) [0x61])).checkedRebuilt = none := by
  have hflatten : (List.replicate (2 ^ 63) [(0x61 : UInt8)]).flatten =
      List.replicate (2 ^ 63) 0x61 :=
    List.flatten_replicate_singleton
  refine (logInvariant_afterAppends 1 _).checkedRebuilt_overflow one_pos (fun b hb => ?_) ?_
  · rw [hflatten] at hb
    rw [List.eq_of_mem_replicate hb]
    rfl
  · rw [hflatten, List.length_replicate]

end SessionOutputLog
