import IGhostVT.Session.Consume
import IGhostVT.Session.OutputLog

/-!
# Session/Excisions — where the stretches left out lie

Every excision a tracker records while it reads on from a resting place is a stretch of what it read
since, and leaves at most two bytes in its place (`recording_run`).
-/

namespace TerminalStreamTracker

/-- A stretch that ends behind `lo` and by `hi`. -/
structure Within (lo hi : ℤ) (e : Excision) : Prop where
  nonneg : 0 ≤ e.lower
  lower_lt : e.lower < e.upper
  lt_upper : lo < e.upper
  upper_le : e.upper ≤ hi
  replacement : e.replacement.length ≤ 2

/-- A stretch inside stays inside when the end moves on. -/
theorem Within.mono {lo hi hi' : ℤ} {e : Excision} (h : Within lo hi e) (hle : hi ≤ hi') :
    Within lo hi' e := { h with upper_le := h.upper_le.trans hle }

/-- What a recording tracker keeps while it reads the byte at `o`. -/
structure Kept (lo o : ℤ) (t : TerminalStreamTracker) : Prop where
  within : ∀ es, t.excisions = some es → ∀ e ∈ es, Within lo (o + 1) e
  start : 0 ≤ t.sequenceStart
  standIn : t.sequenceStandIn.length ≤ 2

/-- A part of a step that keeps what is recorded in range, and the conversation as it is. -/
structure Marks (lo o : ℤ) (t t' : TerminalStreamTracker) : Prop where
  kept : Kept lo o t → Kept lo o t'
  zmodem : t'.zmodem = t.zmodem
  promptMark : t'.promptMarkProgress = t.promptMarkProgress

variable {lo o : ℤ} {t t' t'' : TerminalStreamTracker}

/-- Doing nothing marks nothing. -/
theorem Marks.refl (t : TerminalStreamTracker) : Marks lo o t t := ⟨id, rfl, rfl⟩

/-- What marks twice marks inside both times. -/
theorem Marks.trans (h : Marks lo o t t') (h' : Marks lo o t' t'') : Marks lo o t t'' :=
  ⟨fun hk => h'.kept (h.kept hk), h'.zmodem.trans h.zmodem, h'.promptMark.trans h.promptMark⟩

/-- `Kept` goes by what was cut out and where the sequence began. -/
theorem Kept.congr (h : Kept lo o t) (hexcisions : t'.excisions = t.excisions)
    (hstart : t'.sequenceStart = t.sequenceStart)
    (hstandIn : t'.sequenceStandIn = t.sequenceStandIn) : Kept lo o t' :=
  ⟨hexcisions ▸ h.within, hstart ▸ h.start, hstandIn ▸ h.standIn⟩

/-- A change of anything but what is recorded. -/
theorem marks_of_eq (hexcisions : t'.excisions = t.excisions)
    (hstart : t'.sequenceStart = t.sequenceStart)
    (hstandIn : t'.sequenceStandIn = t.sequenceStandIn) (hzmodem : t'.zmodem = t.zmodem)
    (hmark : t'.promptMarkProgress = t.promptMarkProgress) : Marks lo o t t' :=
  ⟨fun h => h.congr hexcisions hstart hstandIn, hzmodem, hmark⟩

/-- Both branches mark inside. -/
theorem marks_ite {c : Prop} [Decidable c] {a b : TerminalStreamTracker} (ha : c → Marks lo o t a)
    (hb : ¬ c → Marks lo o t b) : Marks lo o t (if c then a else b) := by
  split
  exacts [ha ‹_›, hb ‹_›]

/-! ## One function at a time

Every function of the tracker cuts out stretches between where its sequence began and the byte it
reads. Those that cut out nothing are closed by `Kept.congr`. -/

/-- A stretch is recorded when recording is on. -/
theorem Kept.record (h : Kept lo o t) {e : Excision} (he : Within lo (o + 1) e) :
    Kept lo o (t.record e) := by
  refine ⟨fun es hes a ha => ?_, h.start, h.standIn⟩
  obtain ⟨es', hes', rfl⟩ := Option.map_eq_some_iff.mp hes
  rcases List.mem_append.mp ha with ha | ha
  · exact h.within es' hes' a ha
  · exact List.mem_singleton.mp ha ▸ he

/-- What is excised lies behind the start of recording, or is cut off there. -/
theorem Kept.excise (h : Kept lo o t) {lower upper : ℤ} (hnonneg : 0 ≤ lower) (hlo : lo < upper)
    (hle : upper ≤ o + 1) : Kept lo o (t.excise lower upper) := by
  rw [TerminalStreamTracker.excise]
  split
  case isTrue hlt =>
    refine h.record ⟨hnonneg, hlt, hlo, hle, ?_⟩
    dsimp only
    split
    exacts [h.standIn, Nat.zero_le _]
  case isFalse => exact h

/-- Excising leaves a conversation as it is. -/
theorem excise_zmodem (lower upper : ℤ) : (t.excise lower upper).zmodem = t.zmodem := by
  rw [excise]; split <;> rfl

/-- And the search for a prompt's mark. -/
theorem excise_promptMarkProgress (lower upper : ℤ) :
    (t.excise lower upper).promptMarkProgress = t.promptMarkProgress := by
  rw [excise]; split <;> rfl

/-- Nothing is left out from before the stream began. -/
theorem marks_excise {lower upper : ℤ} (hlower : 0 ≤ t.sequenceStart → 0 ≤ lower) (hlo : lo < upper)
    (hle : upper ≤ o + 1) : Marks lo o t (t.excise lower upper) :=
  ⟨fun h => h.excise (hlower h.start) hlo hle, excise_zmodem .., excise_promptMarkProgress ..⟩

theorem marks_mapTerminal (f : TerminalReplayState → TerminalReplayState) :
    Marks lo o t (t.mapTerminal f) := marks_of_eq rfl rfl rfl rfl rfl

theorem marks_collect (byte : UInt8) (state : ParserState) :
    Marks lo o t { t.collect byte with state := state } := by
  rw [collect]
  split <;> exact marks_of_eq rfl rfl rfl rfl rfl

theorem marks_param (byte : UInt8) (state : ParserState) :
    Marks lo o t { t.param byte with state := state } := by
  rw [param]
  split_ifs <;> exact marks_of_eq rfl rfl rfl rfl rfl

theorem marks_appendPayload (byte : UInt8) : Marks lo o t (t.appendPayload byte) := by
  rw [appendPayload]
  split <;> exact marks_of_eq rfl rfl rfl rfl rfl

/-- A string that is finished is a string, and finishing it records nothing. -/
theorem finishString_spec (finish : StringEnd) : Marks lo o t (t.finishString finish).1 ∧
    (t.finishString finish).1.sequenceStart = t.sequenceStart ∧
    ((t.finishString finish).2 = true → t.state ≠ .ground) := by
  have hosc : Marks lo o t (t.finishOSC finish).1 ∧
      (t.finishOSC finish).1.sequenceStart = t.sequenceStart := by
    rw [finishOSC]
    dsimp only
    split_ifs
    all_goals exact ⟨marks_of_eq rfl rfl rfl rfl rfl, rfl⟩
  have hapc : Marks lo o t t.finishAPC.1 ∧ t.finishAPC.1.sequenceStart = t.sequenceStart := by
    rw [finishAPC]
    split
    all_goals exact ⟨marks_of_eq rfl rfl rfl rfl rfl, rfl⟩
  rw [finishString]
  split
  case h_1 hs => exact ⟨hosc.1, hosc.2, fun _ => by simp [hs]⟩
  case h_2 hs => exact ⟨.refl t, rfl, fun _ => by simp [hs]⟩
  case h_3 hs => exact ⟨hapc.1, hapc.2, fun _ => by simp [hs]⟩
  case h_4 => exact ⟨.refl t, rfl, by simp⟩

theorem marks_beginSequence (newState : ParserState) {offset : ℤ} (hoffset : 0 ≤ offset) :
    Marks lo o t (t.beginSequence newState offset) := by
  have hbegins : ∀ t' : TerminalStreamTracker, t'.sequenceStart = offset →
      t'.excisions = t.excisions →
      t'.sequenceStandIn = t.sequenceStandIn → t'.zmodem = t.zmodem →
      t'.promptMarkProgress = t.promptMarkProgress → Marks lo o t t' :=
    fun t' hstart hexcisions hstandIn hzmodem hmark =>
      ⟨fun h => ⟨hexcisions ▸ h.within, hstart ▸ hoffset, hstandIn ▸ h.standIn⟩, hzmodem, hmark⟩
  rw [beginSequence]
  cases newState
  case ground => exact marks_of_eq rfl rfl rfl rfl rfl
  all_goals exact hbegins _ rfl rfl rfl rfl rfl

/-- A sequence that is left early is cut out up to the byte that ended it. -/
theorem marks_leave (ho : 0 ≤ o) (hbegun : t.state ≠ .ground → lo < o) (newState : ParserState)
    (finish : StringEnd) : Marks lo o t (t.leave newState finish o) := by
  obtain ⟨hfinished, hstart, hstring⟩ := @finishString_spec lo o
    { t with terminatorPending := false } finish
  have hpending : Marks lo o t { t with terminatorPending := false } :=
    marks_of_eq rfl rfl rfl rfl rfl
  have hstandIn : ∀ r : TerminalStreamTracker, Marks lo o t r → ∀ standIn : List UInt8,
      standIn.length ≤ 2 → Marks lo o t { r with sequenceStandIn := standIn } :=
    fun r hr standIn hle =>
      ⟨fun h => ⟨(hr.kept h).within, (hr.kept h).start, hle⟩, hr.zmodem, hr.promptMark⟩
  unfold leave
  dsimp only
  refine Marks.trans (hstandIn _ ?_ _ ?_) (marks_beginSequence newState ho)
  · refine (hpending.trans hfinished).trans (marks_ite (fun hleft => ?_) fun _ => .refl _)
    have hlt := hbegun (hstring hleft)
    refine Marks.trans (marks_excise id ?_ ?_) (marks_of_eq rfl rfl rfl rfl rfl)
    all_goals split <;> omega
  · split_ifs <;> simp

/-- C1 controls and ESC leave what is being read, and may begin a sequence. -/
theorem marks_anywhere (ho : 0 ≤ o) (hbegun : t.state ≠ .ground → lo < o) (byte : UInt8) :
    Marks lo o t (t.anywhere byte o) := by
  unfold anywhere
  iterate 8 refine marks_ite (fun _ => marks_leave ho hbegun _ _) fun _ => ?_
  exact .refl t

/-- A terminator that comes behind a string belongs to what was cut out for it. -/
theorem marks_stringTerminator (hlo : lo ≤ o) : Marks lo o t (t.stringTerminator o) := by
  refine ⟨fun h => ⟨fun es hes e he => ?_, h.start, h.standIn⟩, rfl, rfl⟩
  rw [stringTerminator] at hes
  dsimp only at hes
  split at hes
  · obtain ⟨es', hes', rfl⟩ := Option.map_eq_some_iff.mp hes
    have hwithin := h.within es' hes'
    split at he
    case h_1 last hlast =>
      rcases List.mem_append.mp he with he | he
      · exact hwithin e (List.mem_of_mem_dropLast he)
      · have hl := hwithin last (List.mem_of_getLast? hlast)
        obtain rfl := List.mem_singleton.mp he
        have hlt := hl.lower_lt
        have hupper := hl.upper_le
        refine ⟨hl.nonneg, ?_, ?_, ?_, hl.replacement⟩
        · dsimp only; omega
        · dsimp only; omega
        · dsimp only; omega
    case h_2 => exact hwithin e he
  · exact h.within es hes e he

/-- DECID and such are cut out whole. -/
theorem marks_escapeDispatch (hlo : lo ≤ o) (final : UInt8) :
    Marks lo o t (t.escapeDispatch final o) := by
  unfold escapeDispatch
  refine marks_ite (fun _ => marks_stringTerminator hlo) fun _ => ?_
  have hpending : Marks lo o t { t with terminatorPending := false } :=
    marks_of_eq rfl rfl rfl rfl rfl
  refine hpending.trans ?_
  generalize ({ t with terminatorPending := false } : TerminalStreamTracker) = t
  dsimp only
  rcases t.intermediates with _ | ⟨intermediate, _ | ⟨_, _⟩⟩
  · iterate 4 refine marks_ite (fun _ => marks_mapTerminal _) fun _ => ?_
    refine marks_ite (fun _ => marks_excise id (by omega) (by omega)) fun _ => ?_
    iterate 6 refine marks_ite (fun _ => marks_mapTerminal _) fun _ => ?_
    exact .refl t
  · dsimp only
    cases charsetSlot intermediate with
    | none => exact .refl t
    | some slot => exact marks_ite (fun _ => marks_mapTerminal _) fun _ => .refl t
  · exact .refl t

/-- So are the queries among the CSI sequences. -/
theorem marks_csiApply (hlo : lo ≤ o) (final : UInt8) : Marks lo o t (t.csiApply final o) := by
  have hexcise : Marks lo o t (t.excise t.sequenceStart (o + 1)) :=
    marks_excise id (by omega) le_rfl
  unfold csiApply applySGR
  dsimp only
  repeat' first
    | exact marks_mapTerminal _
    | exact hexcise
    | exact .refl t
    | refine marks_ite (fun _ => ?_) fun _ => ?_

/-- A sequence whose parameters do not count does nothing. -/
theorem marks_csiDispatch (hlo : lo ≤ o) (final : UInt8) :
    Marks lo o t (t.csiDispatch final o) := by
  unfold csiDispatch
  have hpending : Marks lo o t { t with terminatorPending := false } :=
    marks_of_eq rfl rfl rfl rfl rfl
  refine hpending.trans ?_
  generalize ({ t with terminatorPending := false } : TerminalStreamTracker) = t
  dsimp only
  refine marks_ite (fun _ => .refl t) fun _ => ?_
  have hlast : Marks lo o t
      (if 0 < t.paramDigits then { t with params := t.params ++ [t.paramValue] } else t) :=
    marks_ite (fun _ => marks_of_eq rfl rfl rfl rfl rfl) fun _ => .refl t
  exact hlast.trans (marks_ite (fun _ => .refl _) fun _ => marks_csiApply hlo final)

/-- ENQ is cut out by itself. -/
theorem marks_execute (ho : 0 ≤ o) (hlo : lo ≤ o) (byte : UInt8) :
    Marks lo o t (t.execute byte o) := by
  unfold execute
  refine marks_ite (fun _ => marks_excise (fun _ => ho) (by omega) le_rfl) fun _ => ?_
  iterate 2 refine marks_ite (fun _ => marks_mapTerminal _) fun _ => ?_
  exact .refl t

/-- A byte at rest, with an unfinished character before it or none. -/
theorem marks_ground (ho : 0 ≤ o) (hlo : lo ≤ o) (byte : UInt8) :
    Marks lo o t (t.ground byte o) := by
  have hbyte : ∀ (t : TerminalStreamTracker) (interrupts : Bool),
      Marks lo o t (t.groundByte interrupts byte o) := by
    intro t interrupts
    unfold groundByte
    refine marks_ite (fun _ => ⟨fun h => ⟨h.within, ho, ?_⟩, rfl, rfl⟩) fun _ => ?_
    · dsimp only
      split <;> simp
    refine marks_ite (fun _ => ⟨fun h => h.record ⟨ho, ?_, ?_, le_rfl, by simp⟩, rfl, rfl⟩) fun _ =>
      ?_
    · dsimp only; omega
    · dsimp only; omega
    refine marks_ite (fun _ => marks_execute ho hlo byte) fun _ =>
      marks_ite (fun _ => .refl t) fun _ => ?_
    unfold utf8Lead
    iterate 7 refine marks_ite (fun _ => marks_of_eq rfl rfl rfl rfl rfl) fun _ => ?_
    exact .refl t
  unfold ground
  refine marks_ite (fun _ => marks_ite (fun _ => marks_of_eq rfl rfl rfl rfl rfl) fun _ => ?_)
    fun _ => hbyte t false
  have hreset : Marks lo o t t.resetUtf8 := marks_of_eq rfl rfl rfl rfl rfl
  exact hreset.trans (hbyte _ true)

/-- A byte of a sequence, by the parser's state. -/
theorem marks_sequenceByte (ho : 0 ≤ o) (hlo : lo ≤ o) (hbegun : t.state ≠ .ground → lo < o)
    (byte : UInt8) :
    Marks lo o t (t.sequenceByte byte o) := by
  have hexecute := marks_execute (t := t) ho hlo byte
  have hanywhere := marks_anywhere (t := t) ho hbegun byte
  have hstate : ∀ state, Marks lo o t { t with state := state } :=
    fun _ => marks_of_eq rfl rfl rfl rfl rfl
  have hescape : Marks lo o t
      (({ t with state := .ground } : TerminalStreamTracker).escapeDispatch byte o) :=
    (hstate _).trans (marks_escapeDispatch hlo byte)
  have hcsi : Marks lo o t
      (({ t with state := .ground } : TerminalStreamTracker).csiDispatch byte o) :=
    (hstate _).trans (marks_csiDispatch hlo byte)
  have hhook : Marks lo o t (t.hookDCS byte) := marks_of_eq rfl rfl rfl rfl rfl
  have hstring : ∀ state, Marks lo o t (t.enterString state) :=
    fun _ => marks_of_eq rfl rfl rfl rfl rfl
  have hcollect : Marks lo o t (t.collect byte) := by
    rw [collect]
    split
    exacts [marks_of_eq rfl rfl rfl rfl rfl, .refl t]
  have hparam : Marks lo o t (t.param byte) := by
    rw [param]
    split_ifs <;> exact marks_of_eq rfl rfl rfl rfl rfl
  unfold sequenceByte
  split
  case h_1 => exact marks_ground ho hlo byte
  all_goals
    repeat' first
      | exact .refl t
      | exact hexecute
      | exact hanywhere
      | exact hescape
      | exact hcsi
      | exact hhook
      | exact hcollect
      | exact hparam
      | exact hstring _
      | exact hstate _
      | exact marks_collect byte _
      | exact marks_param byte _
      | exact marks_appendPayload byte
      | exact marks_leave ho hbegun _ _
      | refine marks_ite (fun _ => ?_) fun _ => ?_

/-- Behind the check for CAN, SUB and ESC. -/
theorem marks_sequence (ho : 0 ≤ o) (hlo : lo ≤ o) (hbegun : t.state ≠ .ground → lo < o)
    (byte : UInt8) :
    Marks lo o t (t.sequence byte o) := by
  unfold sequence
  refine marks_ite (fun _ => marks_anywhere ho hbegun byte) fun _ => ?_
  refine Marks.trans ?_ (marks_sequenceByte ho hlo ?_ byte)
  · exact marks_of_eq rfl rfl rfl rfl rfl
  · exact hbegun

/-! ## Conversations

A ZMODEM conversation is cut out whole, from the mark that began it to where it ended; the marks of
its beginning lie up to six bytes before the byte that is read. -/

/-- A conversation began behind `lo`, and its prompt mark behind that. -/
structure Conversing (lo o : ℤ) (t : TerminalStreamTracker) : Prop where
  progress : t.zmodem ≠ .idle → lo + 1 + t.promptMarkProgress ≤ o
  firstO : t.zmodem = .finishFirstO → lo + 2 ≤ o
  /-- A CAN is no part of a mark. -/
  cancels : ∀ n, t.zmodem = .data (n + 1) → t.promptMarkProgress = 0

/-- Outside of one nothing is to be said. -/
theorem conversing_of_idle (h : t.zmodem = .idle) : Conversing lo o t :=
  ⟨fun hne => absurd h hne, fun hf => by simp [h] at hf, fun n hn => by simp [h] at hn⟩

/-- The mark moves by a byte, from its start where nothing of it was read. -/
theorem trackPromptMark_spec (t : TerminalStreamTracker) (byte : UInt8) :
    ∃ progress, (t.trackPromptMark byte).1 = { t with promptMarkProgress := progress } ∧
      progress ≤ t.promptMarkProgress + 1 ∧
      ((t.trackPromptMark byte).2 = true → t.promptMarkProgress = 6) ∧
      (byte = 0x18 → progress = 0) ∧
      (t.promptMarkProgress ≤ 1 → byte = 0x1B ∨ t.promptMarkProgress = 0 → progress ≤ 1) ∧
      (t.promptMarkProgress = 0 → byte = 0x1B ∨ progress = 0) := by
  rw [trackPromptMark]
  dsimp only
  by_cases hdone : t.promptMarkProgress = promptMark.length ∧ (byte = 0x41 ∨ byte = 0x44)
  · rw [if_pos hdone]
    exact ⟨0, rfl, Nat.zero_le _, fun _ => hdone.1, fun _ => rfl, fun _ _ => Nat.zero_le _,
      fun _ => Or.inr rfl⟩
  · rw [if_neg hdone]
    refine ⟨_, rfl, ?_, by simp, ?_, fun hle hbyte => ?_, fun hzero => ?_⟩
    · split_ifs <;> simp
    · rintro rfl
      have hmark : (0x18 : UInt8) ∉ promptMark := by decide
      rw [if_neg fun h => hmark (List.mem_of_getElem? h), if_neg (by decide)]
    · have hnot : t.promptMarkProgress ≠ promptMark.length := by
        intro h
        have : promptMark.length = 6 := rfl
        omega
      rw [if_neg hnot]
      rcases hbyte with rfl | hzero
      · interval_cases t.promptMarkProgress <;> decide
      · rw [hzero]
        split_ifs <;> simp
    · by_cases hbyte : byte = 0x1B
      · exact Or.inl hbyte
      · have hfirst : promptMark[0]? ≠ some byte :=
          fun hb => hbyte (by simpa [promptMark] using hb.symm)
        rw [hzero, ite_self, if_neg hfirst, if_neg hbyte]
        exact Or.inr rfl

/-- The conversation's end, recorded. -/
theorem Kept.endZmodem (h : Kept lo o t) {finish : ℤ} (hlo : lo < finish) (hle : finish ≤ o + 1) :
    Kept lo o (t.endZmodem finish) := by
  have hconversation : Kept lo o (t.exciseConversation finish) := by
    rw [exciseConversation]
    split
    case isTrue hlt => exact h.record ⟨le_max_right _ _, hlt, hlo, hle, by simp⟩
    case isFalse => exact h
  exact hconversation.congr rfl rfl rfl

/-- What a byte of a conversation leaves. -/
structure Conversed (lo o : ℤ) (t : TerminalStreamTracker) : Prop where
  kept : Kept lo o t
  conversing : Conversing lo (o + 1) t

/-- A conversation that ends is cut out, and the byte is read at rest. -/
theorem Kept.ended (h : Kept lo o t) (ho : 0 ≤ o) (hlo : lo < o) (byte : UInt8) :
    Conversed lo o ((t.endZmodem o).ground byte o) := by
  have hmarks := marks_ground (t := t.endZmodem o) ho hlo.le byte
  refine ⟨hmarks.kept (h.endZmodem hlo (by omega)), conversing_of_idle ?_⟩
  rw [hmarks.zmodem]
  rfl

/-- A lone `O` behind a finished conversation is read once the next byte is not another. -/
theorem Kept.endedAtO (h : Kept lo (o - 1) t) (hzero : 0 ≤ lo) (hlo : lo + 2 ≤ o) (byte : UInt8) :
    Conversed lo o (((t.endZmodem (o - 1)).ground 0x4F (o - 1)).ground byte o) := by
  have hended : Kept lo (o - 1) (t.endZmodem (o - 1)) := h.endZmodem (by omega) (by omega)
  have hfirst := @marks_ground lo (o - 1) (t.endZmodem (o - 1)) (by omega) (by omega) 0x4F
  have hkept := hfirst.kept hended
  have hmarks :=
    @marks_ground lo o ((t.endZmodem (o - 1)).ground 0x4F (o - 1)) (by omega) (by omega) byte
  refine ⟨hmarks.kept
    ⟨fun es hes e he => (hkept.within es hes e he).mono (by omega), hkept.start, hkept.standIn⟩,
    conversing_of_idle ?_⟩
  rw [hmarks.zmodem, hfirst.zmodem]
  rfl

/-- The byte behind a cancel. -/
theorem Kept.afterCancel (h : Kept lo o t) (ho : 0 ≤ o) (hlo : lo < o)
    (hz : t.zmodem = .afterCancel) {byte : UInt8} (hone : t.promptMarkProgress ≤ 1)
    (hmark : byte = 0x1B ∨ t.promptMarkProgress = 0) :
    Conversed lo o (t.stepZmodemWith id byte o) := by
  obtain ⟨progress, hprogress, -, hmarked, -, hle, -⟩ := trackPromptMark_spec t byte
  unfold stepZmodemWith
  dsimp only
  rw [if_neg fun h => absurd (hmarked h) (by omega), hprogress]
  dsimp only
  rw [hz]
  dsimp only
  have hkept : Kept lo o { t with promptMarkProgress := progress, zmodem := .afterCancel } :=
    h.congr rfl rfl rfl
  split
  · exact hkept.ended ho hlo byte
  · have hle := hle hone hmark
    refine ⟨hkept, fun _ => ?_, by simp, by simp⟩
    dsimp only
    omega

/-- A byte goes on with a conversation, or ends it inside what was read. -/
theorem Conversing.step (h : Conversing lo o t) (hzero : 0 ≤ lo) (hkept : Kept lo (o - 1) t)
    (hz : t.zmodem ≠ .idle) (byte : UInt8) : Conversed lo o (t.stepZmodem byte o) := by
  obtain ⟨progress, hprogress, hstep, hmarked, hcan, hone, hesc⟩ := trackPromptMark_spec t byte
  have hlo := h.progress hz
  have hwithin : Kept lo o t := ⟨fun es hes e he => (hkept.within es hes e he).mono (by omega),
    hkept.start, hkept.standIn⟩
  unfold stepZmodem stepZmodemWith
  dsimp only
  rw [hprogress]
  dsimp only
  have hat : ∀ phase, Kept lo o { t with promptMarkProgress := progress, zmodem := phase } :=
    fun _ => hwithin.congr rfl rfl rfl
  -- A conversation that goes on, `phase` its place.
  have hgoes : ∀ phase : ZmodemPhase, (phase = .finishFirstO → lo + 2 ≤ o + 1) →
      (∀ n, phase = .data (n + 1) → progress = 0) →
      Conversed lo o { t with promptMarkProgress := progress, zmodem := phase } := by
    intro phase hfirst hcancels
    refine ⟨hat phase, fun _ => ?_, hfirst, hcancels⟩
    dsimp only
    omega
  by_cases hdone : (t.trackPromptMark byte).2 = true
  · rw [if_pos hdone]
    have hsix := hmarked hdone
    have hended := (hat t.zmodem).endZmodem (show lo < o - 6 by omega) (by omega)
    exact ⟨⟨hended.within, show 0 ≤ o - 6 by omega, hended.standIn⟩, conversing_of_idle rfl⟩
  rw [if_neg hdone]
  cases hphase : t.zmodem with
  | idle => exact absurd hphase hz
  | data cancels =>
    dsimp only
    by_cases h18 : byte = 0x18
    · rw [if_pos h18]
      exact hgoes _ (by simp) fun _ _ => hcan h18
    rw [if_neg h18]
    by_cases h5 : 5 ≤ cancels
    · rw [if_pos h5]
      have hzero : t.promptMarkProgress = 0 := by
        obtain ⟨n, rfl⟩ : ∃ n, cancels = n + 1 := ⟨cancels - 1, by omega⟩
        exact h.cancels n hphase
      have hle := hone (by omega) (Or.inr hzero)
      exact (hat .afterCancel).afterCancel (by omega) (by omega) rfl hle (hesc hzero)
    rw [if_neg h5]
    split
    · exact hgoes _ (by simp) (by simp)
    · exact hgoes _ (by simp) (by simp)
  | afterCancel =>
    dsimp only
    split
    · exact (hat .afterCancel).ended (by omega) (by omega) byte
    · exact hgoes .afterCancel (by simp) (by simp)
  | finishHex =>
    dsimp only
    split
    · exact hgoes _ (by simp) (by simp)
    · exact hgoes .finishHex (by simp) (by simp)
  | finishTrailer =>
    dsimp only
    split
    · exact hgoes .finishTrailer (by simp) (by simp)
    split
    · exact hgoes _ (fun _ => by omega) (by simp)
    · exact (hat .finishTrailer).ended (by omega) (by omega) byte
  | finishFirstO =>
    have hfirst := h.firstO hphase
    dsimp only
    split
    · exact ⟨(hat .finishFirstO).endZmodem (by omega) le_rfl, conversing_of_idle rfl⟩
    · -- The `O` before this byte was the first of what follows the conversation.
      have hbefore : Kept lo (o - 1)
          { t with promptMarkProgress := progress, zmodem := .finishFirstO } :=
            hkept.congr rfl rfl rfl
      exact hbefore.endedAtO hzero hfirst byte

/-! ## Runs

From where recording begins every stretch lies between there and the end of what was read. -/

/-- **What a recording tracker keeps between two bytes**, the next one at `o`, having begun at
`lo`. -/
structure Recording (lo o : ℤ) (t : TerminalStreamTracker) : Prop where
  within : ∀ es, t.excisions = some es → ∀ e ∈ es, Within lo o e
  start : 0 ≤ t.sequenceStart
  standIn : t.sequenceStandIn.length ≤ 2
  begun : t.state ≠ .ground → lo < o
  conversing : Conversing lo o t

/-- One byte keeps the stretches inside. -/
theorem Recording.step (h : Recording lo o t) (hzero : 0 ≤ lo) (hlo : lo ≤ o) (byte : UInt8) :
    Recording lo (o + 1) (t.step byte o) := by
  have hkept : Kept lo o t := ⟨fun es hes e he => (h.within es hes e he).mono (by omega), h.start,
    h.standIn⟩
  have hidle : ∀ t', t.zmodem = .idle →
      Marks lo o { t with recent := pushRecent t.recent byte } t' →
      Recording lo (o + 1) t' := by
    intro t' hz hmarks
    have hkept' := hmarks.kept (hkept.congr rfl rfl rfl)
    exact ⟨hkept'.within, hkept'.start, hkept'.standIn, fun _ => by omega,
      conversing_of_idle (hmarks.zmodem.trans hz)⟩
  unfold TerminalStreamTracker.step
  dsimp only
  by_cases hz : t.zmodem = .idle
  · rw [if_neg (not_not.mpr hz)]
    split
    · refine ⟨hkept.within, hkept.start, hkept.standIn, fun _ => by omega, fun _ => ?_, ?_, ?_⟩
      all_goals simp [beginZmodem, clear]
      omega
    split
    · exact hidle _ hz (marks_ground (hzero.trans hlo) hlo byte)
    · refine hidle _ hz (marks_sequence (hzero.trans hlo) hlo ?_ byte)
      exact h.begun
  · rw [if_pos hz]
    have hbefore : Kept lo (o - 1) { t with recent := pushRecent t.recent byte } := by
      refine ⟨?_, h.start, h.standIn⟩
      rw [sub_add_cancel]
      exact h.within
    have hconversing : Conversing lo o { t with recent := pushRecent t.recent byte } :=
      ⟨h.conversing.progress, h.conversing.firstO, h.conversing.cancels⟩
    obtain ⟨hkept', hconversing'⟩ := hconversing.step hzero hbefore hz byte
    exact ⟨hkept'.within, hkept'.start, hkept'.standIn, fun _ => by omega, hconversing'⟩

/-- **So does a whole stream.** -/
theorem Recording.run (hzero : 0 ≤ lo) (bytes : List UInt8) : ∀ {o : ℤ} {t : TerminalStreamTracker},
    Recording lo o t → lo ≤ o → Recording lo (o + bytes.length) (t.run bytes o) := by
  induction bytes with
  | nil => intro o t h _; simpa using h
  | cons b bs ih =>
    intro o t h hlo
    have hrest := ih (h.step hzero hlo b) (by omega)
    rw [run_cons, List.length_cons]
    convert hrest using 1
    push_cast
    ring

/-- **Every stretch left out is one of what was read since recording began.** -/
theorem Recording.takeExcisions (h : Recording lo o t) (hlo : lo ≤ o) {e : Excision}
    (he : e ∈ t.takeExcisions o) : Within lo o e := by
  have hkept : Kept lo (o - 1) t := by
    refine ⟨?_, h.start, h.standIn⟩
    rw [sub_add_cancel]
    exact h.within
  rw [TerminalStreamTracker.takeExcisions] at he
  have hall : ∀ t', Kept lo (o - 1) t' → e ∈ t'.excisions.getD [] → Within lo o e := by
    intro t' ht' he
    cases hes : t'.excisions with
    | none => simp [hes] at he
    | some es =>
      rw [hes] at he
      exact (ht'.within es hes e he).mono (by omega)
  split at he
  case isTrue hz =>
    have hprogress := h.conversing.progress hz
    refine hall _ ?_ he
    rw [exciseConversation]
    split
    case isTrue hlt =>
      exact hkept.record
        ⟨le_max_right _ _, hlt, by dsimp only; omega, by dsimp only; omega, by simp⟩
    case isFalse => exact hkept
  case isFalse => exact hall t hkept he

end TerminalStreamTracker
