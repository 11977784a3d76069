import IGhostVT.Link.ThemeReportMode
import IGhostVT.Session.ThemeChanges

/-!
# Link/ThemeReports — the app's scanner against the host's parser

While nothing but printing bytes stand since the last ESC, the parser is where those bytes alone put
it (`Follows`), and there the scanner and the parser read a set, a reset and a full reset alike.
They part where the parser reads on and the scanner does not — over a control, a DEL or an 8-bit
introducer — and at sequences only one of them carries out: one with too many parameters, and a
restore.
-/

namespace TerminalStreamTracker

open TerminalReplayState ThemeReportMode

variable {t : TerminalStreamTracker} {seq : Option (List UInt8)} {q ps past stream : List UInt8}
  {byte : UInt8}

/-- A byte that prints. -/
def Prints (byte : UInt8) : Prop := 0x20 ≤ byte ∧ byte ≤ 0x7E

/-! ## Where the bytes since an ESC put the parser -/

/-- The registers that `[ ?` and parameters leave. -/
structure Holds (ps : List UInt8) (t : TerminalStreamTracker) : Prop where
  intermediates : t.intermediates = [0x3F]
  colons : t.colons = 0
  params : t.params = ((numbers ps).1.take maximumParams).map (min · 65535)
  value : (numbers ps).1.length ≤ maximumParams → t.paramValue = min (numbers ps).2 65535
  digits : (numbers ps).2 ≠ 0 → 0 < t.paramDigits
  overflowed : t.paramsOverflowed = true ↔ maximumParams < (numbers ps).1.length

/-- No set or reset can follow, nor a full reset. -/
structure Elsewhere (t : TerminalStreamTracker) : Prop where
  escape : t.state ≠ .escape
  entry : t.state ≠ .csiEntry
  param : t.state = .csiParam → t.intermediates = [0x3F] → t.colons ≠ 0 ∨ t.paramsOverflowed = true
  intermediate : t.state = .csiIntermediate → t.intermediates ≠ [0x3F]

/-- **Where the parser is, `q` read since an ESC.** -/
inductive Follows (t : TerminalStreamTracker) : List UInt8 → Prop
  | escape : t.state = .escape → Registers t [] [] 0 0 0 → Follows t []
  | entry : t.state = .csiEntry → Registers t [] [] 0 0 0 → Follows t [0x5B]
  | params (ps : List UInt8) : IsParameters ps → t.state = .csiParam → Holds ps t →
      Follows t (0x5B :: 0x3F :: ps)
  | elsewhere (q : List UInt8) : q ≠ [] → q ≠ [0x5B] →
      (∀ ps, IsParameters ps → q ≠ 0x5B :: 0x3F :: ps) → Elsewhere t → Follows t q

theorem elsewhere_of_state (hstate : t.state ∉ [.escape, .csiEntry, .csiParam, .csiIntermediate]) :
    Elsewhere t := by
  simp only [List.mem_cons, List.not_mem_nil, or_false, not_or] at hstate
  exact ⟨hstate.1, hstate.2.1, fun h => absurd h hstate.2.2.1, fun h => absurd h hstate.2.2.2⟩

theorem elsewhere_moved (t : TerminalStreamTracker) {state : ParserState}
    (hstate : state ∉ [.escape, .csiEntry, .csiParam, .csiIntermediate]) :
    Elsewhere { t with state := state } :=
  elsewhere_of_state hstate

theorem elsewhere_enterString (t : TerminalStreamTracker) {state : ParserState}
    (hstate : state ∉ [.escape, .csiEntry, .csiParam, .csiIntermediate]) :
    Elsewhere (t.enterString state) :=
  elsewhere_of_state hstate

theorem Elsewhere.not_names (h : Elsewhere t) : ¬ t.NamesTheme := by
  intro hnames
  rcases hnames.state with hstate | hstate | hstate
  · exact h.entry hstate
  · rcases h.param hstate hnames.intermediates with hcolons | hoverflow
    · exact hcolons hnames.colons
    · rw [hnames.overflowed] at hoverflow
      cases hoverflow
  · exact h.intermediate hstate hnames.intermediates

/-- What is collected of a sequence makes it no set or reset. -/
theorem collect_intermediates_ne (t : TerminalStreamTracker) (hbyte : byte ≠ 0x3F) :
    (t.collect byte).intermediates ≠ [0x3F] := by
  rw [collect]
  split
  · intro heq
    have heq : t.intermediates ++ [byte] = [] ++ [0x3F] := heq
    exact hbyte (List.singleton_inj.mp (List.append_inj' heq rfl).2)
  case isFalse hfull =>
    intro heq
    rw [heq] at hfull
    exact hfull (by decide)

theorem elsewhere_collect (t : TerminalStreamTracker) (hbyte : byte ≠ 0x3F) :
    Elsewhere { t.collect byte with state := .csiIntermediate } where
  escape h := by cases h
  entry h := by cases h
  param h := by cases h
  intermediate _ := collect_intermediates_ne t hbyte

/-- A printing byte begins and ends no string and no sequence. -/
theorem Prints.anywhere (h : Prints byte) (t : TerminalStreamTracker) (o : ℤ) :
    t.anywhere byte o = t := by
  obtain ⟨hlo, hhi⟩ := h
  unfold TerminalStreamTracker.anywhere
  iterate 8 rw [if_neg (by grind)]

theorem Prints.not_executed (h : Prints byte) : isExecutedInSequence byte = false := by
  obtain ⟨hlo, hhi⟩ := h
  simp only [isExecutedInSequence, Bool.or_eq_false_iff, Bool.and_eq_false_iff,
    decide_eq_false_iff_not, beq_eq_false_iff_ne]
  grind

theorem param_intermediates (t : TerminalStreamTracker) (byte : UInt8) :
    (t.param byte).intermediates = t.intermediates := by
  rw [param]
  split_ifs <;> rfl

/-- A parameter more neither lifts a colon nor makes room. -/
theorem elsewhere_param (h : t.intermediates = [0x3F] → t.colons ≠ 0 ∨ t.paramsOverflowed = true) :
    Elsewhere { t.param byte with state := .csiParam } where
  escape h := by cases h
  entry h := by cases h
  intermediate h := by cases h
  param _ hprivate := by
    have hprivate : (t.param byte).intermediates = [0x3F] := hprivate
    rw [param_intermediates] at hprivate
    change (t.param byte).colons ≠ 0 ∨ (t.param byte).paramsOverflowed = true
    rw [TerminalStreamTracker.param]
    rcases h hprivate with hcolons | hoverflow
    · split_ifs
      · refine .inl fun heq => hcolons (Nat.or_eq_zero_iff.mp heq).1
      · exact .inl hcolons
      · exact .inl hcolons
      · exact .inl hcolons
    · split_ifs <;> exact .inr (by first | exact hoverflow | rfl)

theorem state_escapeDispatch (t : TerminalStreamTracker) (byte : UInt8) (o : ℤ) :
    (({ t with state := .ground } : TerminalStreamTracker).escapeDispatch byte o).state = .ground :=
  (sameParser_escapeDispatch byte o).state

theorem state_csiDispatch (t : TerminalStreamTracker) (byte : UInt8) (o : ℤ) :
    (({ t with state := .ground } : TerminalStreamTracker).csiDispatch byte o).state = .ground :=
  (sameParser_csiDispatch byte o).state

theorem elsewhere_ite {c : Prop} [Decidable c] {a b : TerminalStreamTracker} (ha : c → Elsewhere a)
    (hb : ¬ c → Elsewhere b) : Elsewhere (if c then a else b) := by
  split
  exacts [ha ‹_›, hb ‹_›]

/-- No printing byte leads back. -/
theorem Elsewhere.sequenceByte (h : Elsewhere t) (hground : t.state ≠ .ground)
    (hprints : Prints byte) (o : ℤ) : Elsewhere (t.sequenceByte byte o) := by
  have hanywhere := hprints.anywhere t o
  have hexecuted := hprints.not_executed
  have hescape :
      Elsewhere (({ t with state := .ground } : TerminalStreamTracker).escapeDispatch byte o) :=
    elsewhere_of_state (by rw [state_escapeDispatch]; decide)
  have hcsi :
      Elsewhere (({ t with state := .ground } : TerminalStreamTracker).csiDispatch byte o) :=
    elsewhere_of_state (by rw [state_csiDispatch]; decide)
  have hcollected : ∀ state, t.state = state →
      t.collect byte = { t.collect byte with state := state } := by
    rintro state rfl
    rw [collect]
    split <;> rfl
  have hparam : t.state = .csiParam → t.param byte = { t.param byte with state := .csiParam } := by
    intro heq
    rw [TerminalStreamTracker.param]
    split_ifs <;> rw [← heq]
  have hdcsParam : t.state = .dcsParam →
      t.param byte = { t.param byte with state := .dcsParam } := by
    intro heq
    rw [TerminalStreamTracker.param]
    split_ifs <;> rw [← heq]
  have hpayload : Elsewhere (t.appendPayload byte) := by
    rw [appendPayload]
    split <;> exact ⟨h.escape, h.entry, h.param, h.intermediate⟩
  have hhook : Elsewhere (t.hookDCS byte) := by
    refine elsewhere_of_state ?_
    change ParserState.dcsPassthrough ∉ _
    decide
  have hnever : ∀ {a : TerminalStreamTracker}, false = true → Elsewhere a := fun h => by cases h
  unfold TerminalStreamTracker.sequenceByte
  rw [hanywhere, hexecuted]
  split
  case h_1 heq => exact absurd heq hground
  case h_2 heq => exact absurd heq h.escape
  case h_3 heq =>
    refine elsewhere_ite hnever fun _ => elsewhere_ite (fun _ => ?_) fun _ => ?_
    · rw [hcollected _ heq]
      exact elsewhere_moved _ (by decide)
    exact elsewhere_ite (fun _ => h) fun _ => elsewhere_ite (fun _ => hescape) fun _ => h
  case h_4 heq => exact absurd heq h.entry
  case h_5 heq =>
    refine elsewhere_ite hnever fun _ => elsewhere_ite (fun _ => ?_) fun _ => ?_
    · rw [hparam heq]
      exact elsewhere_param (h.param heq)
    refine elsewhere_ite (fun _ => h) fun _ => elsewhere_ite (fun _ => hcsi) fun _ => ?_
    refine elsewhere_ite (fun _ => elsewhere_moved _ (by decide)) fun _ => ?_
    exact elsewhere_ite (fun hbyte => elsewhere_collect t (by grind)) fun _ => h
  case h_6 heq =>
    refine elsewhere_ite hnever fun _ => elsewhere_ite (fun hbyte => ?_) fun _ => ?_
    · rw [hcollected _ heq]
      exact elsewhere_collect t (by grind)
    refine elsewhere_ite (fun _ => h) fun _ => elsewhere_ite (fun _ => hcsi) fun _ => ?_
    exact elsewhere_ite (fun _ => elsewhere_moved _ (by decide)) fun _ => h
  case h_7 =>
    refine elsewhere_ite hnever fun _ =>
      elsewhere_ite (fun _ => elsewhere_moved _ (by decide)) fun _ => ?_
    exact elsewhere_ite (fun _ => h) fun _ => h
  case h_8 | h_9 | h_10 =>
    repeat' first
      | exact h
      | exact elsewhere_moved _ (by decide)
      | with_reducible refine elsewhere_ite (fun _ => ?_) fun _ => ?_
      | (rw [hcollected _ ‹_›]; exact elsewhere_moved _ (by decide))
      | (rw [hdcsParam ‹_›]; exact elsewhere_moved _ (by decide))
      | exact hhook
  case h_11 | h_12 => exact h
  case h_13 =>
    refine elsewhere_ite (fun hbell => ?_) fun _ => elsewhere_ite (fun _ => hpayload) fun _ => h
    rw [hbell] at hprints
    exact absurd hprints.1 (by decide)
  case h_14 =>
    exact elsewhere_ite (fun _ => hpayload) fun _ => elsewhere_ite (fun _ => h) fun _ => h

/-- A printing byte inside a sequence goes to the state's own rows. -/
theorem step_prints (hidle : t.zmodem = .idle) (hstate : t.state ≠ .ground)
    (hprints : Prints byte) {o : ℤ} (hquiet : (t.step byte o).zmodem = .idle) :
    t.step byte o = (t.noted byte).sequenceByte byte o := by
  have hcontrol : ¬ (byte = 0x18 ∨ byte = 0x1A ∨ byte = 0x1B) := by
    obtain ⟨hlo, -⟩ := hprints
    rintro (rfl | rfl | rfl) <;> exact absurd hlo (by decide)
  unfold step at hquiet ⊢
  dsimp only at hquiet ⊢
  rw [if_neg (not_not.mpr hidle)] at hquiet ⊢
  split at hquiet
  · cases hquiet
  case isFalse hheader =>
    rw [if_neg hheader, if_neg hstate, sequence, if_neg hcontrol]
    rfl

/-- In the ground state a printing byte is text. -/
theorem step_prints_ground (hidle : t.zmodem = .idle) (hstate : t.state = .ground)
    (hprints : Prints byte) {o : ℤ} (hquiet : (t.step byte o).zmodem = .idle) :
    (t.step byte o).state = .ground := by
  obtain ⟨hlo, hhi⟩ := hprints
  have hbyte : ∀ (t : TerminalStreamTracker) (interrupts : Bool),
      t.groundByte interrupts byte o = t := by
    intro t interrupts
    unfold groundByte
    rw [if_neg (by grind), if_neg (by grind), if_neg (by grind), if_pos (by grind)]
  unfold step at hquiet ⊢
  dsimp only at hquiet ⊢
  rw [if_neg (not_not.mpr hidle)] at hquiet ⊢
  split at hquiet
  · cases hquiet
  case isFalse hheader =>
    rw [if_neg hheader, if_pos hstate, ground]
    split_ifs
    · exact hstate
    · rw [hbyte]
      exact hstate
    · rw [hbyte]
      exact hstate

theorem Elsewhere.step (h : Elsewhere t) (hidle : t.zmodem = .idle) (hprints : Prints byte) {o : ℤ}
    (hquiet : (t.step byte o).zmodem = .idle) : Elsewhere (t.step byte o) := by
  by_cases hstate : t.state = .ground
  · refine elsewhere_of_state ?_
    rw [step_prints_ground hidle hstate hprints hquiet]
    decide
  · have hnoted : Elsewhere (t.noted byte) := ⟨h.escape, h.entry, h.param, h.intermediate⟩
    rw [step_prints hidle hstate hprints hquiet]
    exact hnoted.sequenceByte hstate hprints o

/-! ## One byte more -/

/-- The first byte behind an ESC. -/
theorem sequenceByte_escape (hstate : t.state = .escape) (hregisters : Registers t [] [] 0 0 0)
    (hprints : Prints byte) (o : ℤ) : Follows (t.sequenceByte byte o) [byte] := by
  have hexecuted := hprints.not_executed
  obtain ⟨hlo, hhi⟩ := hprints
  by_cases hopen : byte = 0x5B
  · subst hopen
    unfold TerminalStreamTracker.sequenceByte
    rw [hstate]
    exact .entry rfl ⟨hregisters.intermediates, hregisters.params, hregisters.colons,
      hregisters.value, hregisters.digits, hregisters.overflowed⟩
  refine .elsewhere [byte] (List.cons_ne_nil _ _) (fun h => hopen (List.singleton_inj.mp h))
    (fun ps _ h => by cases h) ?_
  have hescape :
      Elsewhere (({ t with state := .ground } : TerminalStreamTracker).escapeDispatch byte o) :=
    elsewhere_of_state (by rw [state_escapeDispatch]; decide)
  unfold TerminalStreamTracker.sequenceByte
  rw [hstate, hexecuted]
  refine elsewhere_ite (fun h => by cases h) fun _ =>
    elsewhere_ite (fun h => absurd h (by grind)) fun _ => ?_
  refine elsewhere_ite (fun _ => elsewhere_moved _ (by decide)) fun hcollect => ?_
  refine elsewhere_ite (fun h => absurd h hopen) fun _ => ?_
  refine elsewhere_ite (fun _ => elsewhere_enterString t (by decide)) fun _ => ?_
  refine elsewhere_ite (fun _ => elsewhere_moved t (by decide)) fun _ => ?_
  refine elsewhere_ite (fun _ => elsewhere_enterString t (by decide)) fun _ => ?_
  exact elsewhere_ite (fun _ => hescape) fun h => absurd (by grind) h

/-- The byte behind a `[`. -/
theorem sequenceByte_entry (hstate : t.state = .csiEntry) (hregisters : Registers t [] [] 0 0 0)
    (hprints : Prints byte) (o : ℤ) : Follows (t.sequenceByte byte o) [0x5B, byte] := by
  have hexecuted := hprints.not_executed
  obtain ⟨hlo, hhi⟩ := hprints
  have hcollect : t.collect byte = { t with intermediates := [byte] } := by
    rw [collect, hregisters.intermediates]
    rfl
  by_cases hprivate : byte = 0x3F
  · subst hprivate
    unfold TerminalStreamTracker.sequenceByte
    rw [hstate, hcollect]
    refine .params [] (fun b hb => by cases hb) rfl ⟨rfl, hregisters.colons, hregisters.params,
      fun _ => hregisters.value, fun h => absurd rfl h, ?_⟩
    change t.paramsOverflowed = true ↔ _
    rw [hregisters.overflowed]
    decide
  refine .elsewhere [0x5B, byte] (List.cons_ne_nil _ _) (fun h => by cases h) ?_ ?_
  · intro ps _ heq
    rw [List.cons.injEq, List.cons.injEq] at heq
    exact hprivate heq.2.1
  have hcsi :
      Elsewhere (({ t with state := .ground } : TerminalStreamTracker).csiDispatch byte o) :=
    elsewhere_of_state (by rw [state_csiDispatch]; decide)
  unfold TerminalStreamTracker.sequenceByte
  rw [hstate, hexecuted]
  refine elsewhere_ite (fun h => by cases h) fun _ =>
    elsewhere_ite (fun h => absurd h (by grind)) fun _ => ?_
  refine elsewhere_ite (fun _ => hcsi) fun hfinal => ?_
  refine elsewhere_ite (fun _ => elsewhere_moved _ (by decide)) fun hcolon => ?_
  refine elsewhere_ite (fun _ => elsewhere_collect t hprivate) fun hintermediate => ?_
  refine elsewhere_ite (fun _ => elsewhere_param fun h => ?_) fun hparam => ?_
  · rw [hregisters.intermediates] at h
    cases h
  refine elsewhere_ite (fun _ => ?_) fun h => absurd (by grind) h
  rw [hcollect]
  refine ⟨fun h => (by cases h), fun h => (by cases h), fun _ h => ?_, fun h => by cases h⟩
  exact absurd (List.singleton_inj.mp h) hprivate

/-- A colon makes the sequence no set or reset. -/
theorem elsewhere_colon (hstate : t.state = .csiParam) (hcolon : byte = 0x3A) :
    Elsewhere (t.param byte) := by
  rw [TerminalStreamTracker.param, if_pos (.inr hcolon)]
  split
  · refine ⟨fun h => absurd (hstate.symm.trans h) (by decide),
      fun h => absurd (hstate.symm.trans h) (by decide), fun _ _ => .inl ?_,
      fun h => absurd (hstate.symm.trans h) (by decide)⟩
    intro hzero
    have hbit := (Nat.or_eq_zero_iff.mp hzero).2
    rw [Nat.one_shiftLeft] at hbit
    exact absurd hbit (Nat.two_pow_pos _).ne'
  · exact ⟨fun h => absurd (hstate.symm.trans h) (by decide),
      fun h => absurd (hstate.symm.trans h) (by decide), fun _ _ => .inr rfl,
      fun h => absurd (hstate.symm.trans h) (by decide)⟩

/-- The registers keep the numbers. -/
theorem Holds.param (h : Holds ps t) (hbyte : isDigit byte = true ∨ byte = 0x3B) :
    Holds (ps ++ [byte]) (t.param byte) := by
  have hlength : t.params.length = min maximumParams (numbers ps).1.length := by
    rw [h.params, List.length_map, List.length_take]
  by_cases hsemicolon : byte = 0x3B
  · have hnumbers : numbers (ps ++ [byte]) = ((numbers ps).1 ++ [(numbers ps).2], 0) := by
      rw [numbers_concat, if_pos hsemicolon]
    rw [TerminalStreamTracker.param, if_pos (.inl hsemicolon)]
    split
    case isTrue hroom =>
      have hshort : (numbers ps).1.length < maximumParams := by omega
      have hnot : t.paramsOverflowed ≠ true := fun hover => by
        have := h.overflowed.mp hover
        omega
      refine ⟨h.intermediates, ?_, ?_, ?_, fun hne => ?_, ?_⟩
      · dsimp only
        rw [if_neg (by rw [hsemicolon]; decide)]
        exact h.colons
      · dsimp only
        rw [hnumbers, h.params, h.value hshort.le, List.take_of_length_le hshort.le,
          List.take_of_length_le (by rw [List.length_append]; exact hshort), List.map_append]
        rfl
      · rw [hnumbers]
        exact fun _ => rfl
      · rw [hnumbers] at hne
        exact absurd rfl hne
      · rw [hnumbers]
        dsimp only
        rw [List.length_append]
        exact ⟨fun hover => absurd hover hnot, fun hlong => absurd hlong (Nat.not_lt.mpr hshort)⟩
    case isFalse hfull =>
      have hlong : maximumParams ≤ (numbers ps).1.length := by omega
      refine ⟨h.intermediates, h.colons, ?_, ?_, fun hne => ?_, ?_⟩
      · dsimp only
        rw [hnumbers, h.params, List.take_append_of_le_length hlong]
      · rw [hnumbers]
        dsimp only
        rw [List.length_append]
        exact fun hshort => absurd hshort (Nat.not_le.mpr (Nat.lt_succ_of_le hlong))
      · rw [hnumbers] at hne
        exact absurd rfl hne
      · rw [hnumbers]
        dsimp only
        rw [List.length_append]
        exact ⟨fun _ => Nat.lt_succ_of_le hlong, fun _ => rfl⟩
  · have hdigit := hbyte.resolve_right hsemicolon
    have hnumbers :
        numbers (ps ++ [byte]) = ((numbers ps).1, (numbers ps).2 * 10 + digitValue byte) := by
      rw [numbers_concat, if_neg hsemicolon]
    have hcolon : byte ≠ 0x3A := fun heq => by rw [heq] at hdigit; cases hdigit
    rw [TerminalStreamTracker.param, if_neg (not_or.mpr ⟨hsemicolon, hcolon⟩)]
    refine ⟨h.intermediates, h.colons, ?_, ?_, fun _ => Nat.succ_pos _, ?_⟩
    · rw [hnumbers]
      exact h.params
    · rw [hnumbers]
      dsimp only
      intro hshort
      rw [h.value hshort]
      omega
    · rw [hnumbers]
      exact h.overflowed

/-- A byte behind `[ ?` and parameters. -/
theorem sequenceByte_params (hps : IsParameters ps) (hstate : t.state = .csiParam)
    (hholds : Holds ps t) (hprints : Prints byte) (o : ℤ) :
    Follows (t.sequenceByte byte o) (0x5B :: 0x3F :: (ps ++ [byte])) := by
  have hexecuted := hprints.not_executed
  obtain ⟨hlo, hhi⟩ := hprints
  by_cases hparameter : isDigit byte = true ∨ byte = 0x3B
  · have hrow : t.sequenceByte byte o = t.param byte := by
      have hrange : 0x30 ≤ byte ∧ byte ≤ 0x3B := by
        rcases hparameter with hdigit | rfl
        · simp only [isDigit, Bool.and_eq_true, decide_eq_true_eq] at hdigit
          grind
        · decide
      unfold TerminalStreamTracker.sequenceByte
      rw [hstate, hexecuted]
      dsimp only
      rw [if_neg Bool.false_ne_true, if_pos hrange]
    have hparamState : (t.param byte).state = .csiParam := by
      rw [TerminalStreamTracker.param]
      split_ifs <;> exact hstate
    rw [hrow]
    exact .params (ps ++ [byte]) (isParameters_concat.mpr ⟨hps, hparameter⟩) hparamState
      (hholds.param hparameter)
  refine .elsewhere _ (List.cons_ne_nil _ _) (fun h => by cases h) ?_ ?_
  · intro after hafter heq
    rw [List.cons.injEq, List.cons.injEq] at heq
    exact hparameter (isParameters_concat.mp (heq.2.2 ▸ hafter)).2
  obtain ⟨hdigit, hsemicolon⟩ := not_or.mp hparameter
  simp only [isDigit, Bool.and_eq_true, decide_eq_true_eq] at hdigit
  have hcsi :
      Elsewhere (({ t with state := .ground } : TerminalStreamTracker).csiDispatch byte o) :=
    elsewhere_of_state (by rw [state_csiDispatch]; decide)
  unfold TerminalStreamTracker.sequenceByte
  rw [hstate, hexecuted]
  refine elsewhere_ite (fun h => by cases h) fun _ =>
    elsewhere_ite (fun hrange => ?_) fun hrange => ?_
  · have hcolon : byte = 0x3A := by grind
    exact elsewhere_colon hstate hcolon
  refine elsewhere_ite (fun h => absurd h (by grind)) fun _ => ?_
  refine elsewhere_ite (fun _ => hcsi) fun hfinal => ?_
  refine elsewhere_ite (fun _ => elsewhere_moved t (by decide)) fun hignored => ?_
  exact elsewhere_ite (fun _ => elsewhere_collect t (by grind)) fun h => absurd (by grind) h

theorem Follows.step (h : Follows t q) (hidle : t.zmodem = .idle) (hprints : Prints byte) {o : ℤ}
    (hquiet : (t.step byte o).zmodem = .idle) : Follows (t.step byte o) (q ++ [byte]) := by
  cases h with
  | escape hstate hregisters =>
    rw [step_prints hidle (by rw [hstate]; decide) hprints hquiet]
    exact @sequenceByte_escape (t.noted byte) byte hstate (hregisters.noted byte) hprints o
  | entry hstate hregisters =>
    rw [step_prints hidle (by rw [hstate]; decide) hprints hquiet]
    exact @sequenceByte_entry (t.noted byte) byte hstate (hregisters.noted byte) hprints o
  | params ps hps hstate hholds =>
    rw [step_prints hidle (by rw [hstate]; decide) hprints hquiet]
    exact @sequenceByte_params (t.noted byte) ps byte hps hstate
      ⟨hholds.intermediates, hholds.colons, hholds.params,
      hholds.value, hholds.digits, hholds.overflowed⟩ hprints o
  | elsewhere q hnil hopen hparameters helsewhere =>
    refine .elsewhere (q ++ [byte]) ?_ ?_ ?_ (helsewhere.step hidle hprints hquiet)
    · exact List.append_ne_nil_of_right_ne_nil q (List.cons_ne_nil _ _)
    · intro heq
      have heq : q ++ [byte] = [] ++ [0x5B] := heq
      exact hnil (List.append_inj' heq rfl).1
    · intro ps hps heq
      rcases opens_concat heq with ⟨rfl, -⟩ | ⟨before, rfl, rfl⟩
      exacts [hopen rfl, hparameters before (isParameters_concat.mp hps).1 rfl]

/-! ## Since the last ESC -/

/-- An ESC ends what was being read and begins a sequence. -/
theorem follows_escape (h : Ready t) (hidle : t.zmodem = .idle) (o : ℤ) :
    Follows (t.step 0x1B o) [] := by
  rw [step_of_ne_header hidle (.inl (by decide))]
  have hbyte : ∀ (t : TerminalStreamTracker) (interrupts : Bool),
      Follows (t.groundByte interrupts 0x1B o) [] := fun t interrupts => by
    rw [groundByte, if_pos rfl]
    exact .escape rfl ⟨rfl, rfl, rfl, rfl, rfl, rfl⟩
  split
  · rw [ground]
    split_ifs with hremaining hrange
    · have hlower : (0x80 : UInt8) ≤ 0x1B := UInt8.le_trans h.lower hrange.1
      exact absurd hlower (by decide)
    · exact hbyte _ true
    · exact hbyte _ false
  · rw [sequence, if_pos (.inr (.inr rfl)), anywhere, if_neg (by decide), if_neg (by decide),
      if_neg (by decide), if_pos rfl]
    exact .escape rfl ⟨rfl, rfl, rfl, rfl, rfl, rfl⟩

/-- Output that starts no ZMODEM conversation. -/
def StaysIdle (stream : List UInt8) : Prop := ∀ p, p <+: stream → (run {} p 0).zmodem = .idle

theorem staysIdle_of_inits
    (h : stream.inits.all (fun p => decide ((run {} p 0).zmodem = .idle)) = true) :
    StaysIdle stream := fun p hp =>
  of_decide_eq_true (List.all_eq_true.mp h p (List.mem_inits _ _ |>.mpr hp))

theorem StaysIdle.of_prefix (h : StaysIdle stream) (hpast : past <+: stream) : StaysIdle past :=
  fun p hp => h p (hp.trans hpast)

theorem run_concat (past : List UInt8) (byte : UInt8) :
    run {} (past ++ [byte]) 0 = (run {} past 0).step byte (0 + past.length) := by
  rw [run_append]
  rfl

/-- **While printing bytes alone stand since the last ESC, they tell where the parser is.** -/
theorem follows_run (hidle : StaysIdle past) (hseq : sinceEscape past = some q)
    (hprints : ∀ b ∈ q, Prints b) : Follows (run {} past 0) q := by
  induction past using List.reverseRecOn generalizing q with
  | nil => cases hseq
  | append_singleton past byte ih =>
    have hnow := hidle _ List.prefix_rfl
    have hpast : StaysIdle past := hidle.of_prefix (List.prefix_append _ _)
    have hbefore := hpast _ List.prefix_rfl
    rw [run_concat] at hnow ⊢
    rw [sinceEscape_concat] at hseq
    split at hseq
    case isTrue hesc =>
      obtain rfl := Option.some.inj hseq
      rw [hesc]
      exact follows_escape ((ready_start {}).run past 0) hbefore _
    case isFalse =>
      obtain ⟨q', hq', rfl⟩ := Option.map_eq_some_iff.mp hseq
      have hbyte : Prints byte := hprints byte (List.mem_append_right _ (List.mem_singleton_self _))
      exact (ih hpast hq' fun b hb => hprints b (List.mem_append_left _ hb)).step hbefore hbyte hnow

/-! ## Agreement -/

theorem prints_of_isParameters (h : IsParameters ps) :
    ∀ b ∈ (0x5B :: 0x3F :: ps : List UInt8), Prints b := by
  intro b hb
  rcases List.mem_cons.mp hb with rfl | hb
  · exact ⟨by decide, by decide⟩
  rcases List.mem_cons.mp hb with rfl | hb
  · exact ⟨by decide, by decide⟩
  rcases h b hb with hdigit | rfl
  · simp only [isDigit, Bool.and_eq_true, decide_eq_true_eq] at hdigit
    unfold Prints
    grind
  · exact ⟨by decide, by decide⟩

/-- Where the parser holds `[ ?` and parameters, it carries out what they ask for if they fit. -/
theorem Holds.names_iff (h : Holds ps t) (hstate : t.state = .csiParam) :
    t.NamesTheme ↔ (mode ∈ (numbers ps).1 ∨ (numbers ps).2 = mode)
      ∧ (numbers ps).1.length < maximumParams := by
  have hlength : t.params.length = min maximumParams (numbers ps).1.length := by
    rw [h.params, List.length_map, List.length_take]
  have hcapped : ∀ n : ℕ, min n 65535 = themeMode ↔ n = mode := by
    intro n
    unfold themeMode mode
    omega
  constructor
  · intro hnames
    have hroom := hnames.length
    have hshort : (numbers ps).1.length < maximumParams := by omega
    have hmem := hnames.named
    have hparams := h.params
    rw [List.take_of_length_le hshort.le] at hparams
    refine ⟨?_, hshort⟩
    have hcases : themeMode ∈ t.params ∨ themeMode = t.paramValue := by
      rw [finished] at hmem
      split at hmem
      · rcases List.mem_append.mp hmem with hmem | hmem
        exacts [.inl hmem, .inr (List.mem_singleton.mp hmem)]
      · exact .inl hmem
    rcases hcases with hmem | hvalue
    · rw [hparams] at hmem
      obtain ⟨n, hn, heq⟩ := List.mem_map.mp hmem
      exact .inl ((hcapped n).mp heq ▸ hn)
    · rw [h.value hshort.le] at hvalue
      exact .inr ((hcapped _).mp hvalue.symm)
  · rintro ⟨hnamed, hshort⟩
    have hparams := h.params
    rw [List.take_of_length_le hshort.le] at hparams
    refine ⟨.inr (.inl hstate), h.intermediates, h.colons, ?_, by omega, ?_⟩
    · refine Bool.eq_false_of_not_eq_true fun hover => ?_
      exact absurd (h.overflowed.mp hover) (Nat.not_lt.mpr hshort.le)
    · rcases hnamed with hmem | hvalue
      · have hmem : themeMode ∈ t.params := by
          rw [hparams]
          exact List.mem_map.mpr ⟨mode, hmem, rfl⟩
        rw [finished]
        split
        exacts [List.mem_append_left _ hmem, hmem]
      · have hdigits : 0 < t.paramDigits := h.digits (by rw [hvalue]; decide)
        have hlast : t.paramValue = themeMode := by
          rw [h.value hshort.le, hvalue]
          rfl
        rw [finished, if_pos hdigits, hlast]
        exact List.mem_append_right _ (List.mem_singleton_self _)

/-- **What keeps the two together at a byte**: a full reset and a change of the mode follow their
ESC with nothing but printing bytes between, a restore puts back what is set, and a set or a reset
has no more parameters than the parser keeps — or else they change nothing. -/
structure InStep (t : TerminalStreamTracker) (seq : Option (List UInt8)) (byte : UInt8) : Prop where
  reset : t.Resets → byte = 0x63 → t.terminal.decMode themeMode = true → seq = some []
  change : t.NamesTheme → byte = 0x68 ∨ byte = 0x6C →
    t.terminal.decMode themeMode ≠ (byte == 0x68) →
    ∃ q, seq = some q ∧ ∀ b ∈ q, Prints b
  restore : t.NamesTheme → byte = 0x72 →
    (t.terminal.savedDECModes.get? themeMode).getD false = t.terminal.decMode themeMode
  fits : ∀ ps, Asks seq ps → byte = 0x68 ∨ byte = 0x6C →
    t.terminal.decMode themeMode ≠ (byte == 0x68) →
    (numbers ps).1.length < maximumParams

/-- A printing sequence that names the mode is one the scanner reads too. -/
theorem Follows.asks (h : Follows t q) (hnames : t.NamesTheme) : ∃ ps, Asks (some q) ps := by
  cases h with
  | escape hstate =>
    rcases hnames.state with h | h | h <;> exact absurd (hstate.symm.trans h) (by decide)
  | entry _ hregisters =>
    have hnone := hnames.intermediates
    rw [hregisters.intermediates] at hnone
    cases hnone
  | params ps hps hstate hholds => exact ⟨ps, rfl, hps, ((hholds.names_iff hstate).mp hnames).1⟩
  | elsewhere q _ _ _ helsewhere => exact absurd hnames helsewhere.not_names

/-- A sequence that asks has put the parser behind its parameters. -/
theorem Follows.of_asks (h : Follows t q) (hasks : Asks (some q) ps) :
    t.NamesTheme ↔ (numbers ps).1.length < maximumParams := by
  have hopens := Option.some.inj hasks.opens
  cases h with
  | escape => cases hopens
  | entry => cases hopens
  | params ps' _ hstate hholds =>
    have heq : ps' = ps := by
      rw [List.cons.injEq, List.cons.injEq] at hopens
      exact hopens.2.2
    rw [heq] at hholds
    rw [hholds.names_iff hstate, and_iff_right hasks.named]
  | elsewhere _ _ _ hparameters => exact absurd hopens (hparameters ps hasks.isParameters)

variable {m : ThemeReportMode} {o : ℤ}

theorem agrees_reset (hscans : Scans m seq)
    (hfollows : ∀ q, seq = some q → (∀ b ∈ q, Prints b) → Follows t q) (hidle : t.zmodem = .idle)
    (hagrees : m.isEnabled = t.terminal.decMode themeMode) :
    (m.step 0x63).isEnabled = (t.step 0x63 o).terminal.decMode themeMode ↔ InStep t seq 0x63 := by
  have hfinal : ¬ ((0x63 : UInt8) = 0x68 ∨ (0x63 : UInt8) = 0x6C) := by decide
  have hchanges : ¬ ChangesMode 0x63 := by
    unfold ChangesMode
    decide
  have hin : InStep t seq 0x63 ↔
      (t.Resets → t.terminal.decMode themeMode = true → seq = some []) :=
    ⟨fun h hresets hset => h.reset hresets rfl hset,
      fun h => ⟨fun hresets _ hset => h hresets hset, fun _ h => absurd h hfinal,
        fun _ h => absurd h (by decide), fun _ _ h => absurd h hfinal⟩⟩
  by_cases hnil : seq = some []
  · have hresets : t.Resets := by
      cases hfollows [] hnil fun b hb => (by cases hb) with
      | escape hstate hregisters => exact ⟨.inl hstate, hregisters.intermediates⟩
      | elsewhere _ h => exact absurd rfl h
    have hoff : (m.step 0x63).isEnabled = false := by
      rw [hnil] at hscans
      exact hscans.resets
    rw [hin, hoff, hresets.step hidle]
    exact iff_of_true rfl fun _ _ => hnil
  · rw [hin, hscans.keeps (fun _ => hnil) fun h => absurd h hfinal, hagrees]
    by_cases hresets : t.Resets
    · rw [hresets.step hidle]
      refine ⟨fun hoff _ hset => ?_, fun h => Bool.eq_false_of_not_eq_true fun hset => ?_⟩
      · rw [hoff] at hset
        cases hset
      · exact hnil (h hresets hset)
    · rw [sameTheme_step hidle o (fun _ => hresets) fun h => absurd h hchanges]
      exact iff_of_true rfl fun h => absurd h hresets

theorem agrees_final (hscans : Scans m seq)
    (hfollows : ∀ q, seq = some q → (∀ b ∈ q, Prints b) → Follows t q) (hidle : t.zmodem = .idle)
    (hagrees : m.isEnabled = t.terminal.decMode themeMode) (hfinal : byte = 0x68 ∨ byte = 0x6C) :
    (m.step byte).isEnabled = (t.step byte o).terminal.decMode themeMode ↔ InStep t seq byte := by
  have hreset : byte ≠ 0x63 := by
    rcases hfinal with rfl | rfl <;> decide
  have hrestore : byte ≠ 0x72 := by
    rcases hfinal with rfl | rfl <;> decide
  have hchanges : ChangesMode byte := hfinal.imp_right .inl
  have hin : t.terminal.decMode themeMode = (byte == 0x68) → InStep t seq byte := fun hsame =>
    ⟨fun _ h => absurd h hreset, fun _ _ h => absurd hsame h, fun _ h => absurd h hrestore,
      fun _ _ _ h => absurd hsame h⟩
  have hsets : t.NamesTheme → (t.step byte o).terminal.decMode themeMode = (byte == 0x68) := by
    intro hnames
    rw [hnames.step hidle hchanges, if_neg hrestore]
  have hkeeps : ¬ t.NamesTheme →
      (t.step byte o).terminal.decMode themeMode = t.terminal.decMode themeMode := fun hnot =>
    sameTheme_step hidle o (fun h => absurd h hreset) fun _ => hnot
  by_cases hasked : ∃ ps, Asks seq ps
  · obtain ⟨ps, hasks⟩ := hasked
    have hopens := hasks.opens
    have hprints := prints_of_isParameters hasks.isParameters
    have hnames := (hfollows _ hopens hprints).of_asks (hopens ▸ hasks)
    rw [hscans.sets hasks hfinal]
    by_cases hshort : (numbers ps).1.length < maximumParams
    · rw [hsets (hnames.mpr hshort)]
      refine iff_of_true rfl ⟨fun _ h => absurd h hreset, fun _ _ _ => ⟨_, hopens, hprints⟩,
        fun _ h => absurd h hrestore, fun ps' hasks' _ _ => ?_⟩
      have heq := hopens.symm.trans hasks'.opens
      rw [Option.some.injEq, List.cons.injEq, List.cons.injEq] at heq
      exact heq.2.2 ▸ hshort
    · rw [hkeeps fun h => hshort (hnames.mp h)]
      refine ⟨fun hsame => hin hsame.symm, fun h => ?_⟩
      by_contra hdiffers
      exact hshort (h.fits ps hasks hfinal fun hsame => hdiffers hsame.symm)
  · rw [hscans.keeps (fun h => absurd h hreset) fun _ ps hasks => hasked ⟨ps, hasks⟩, hagrees]
    by_cases hnames : t.NamesTheme
    · rw [hsets hnames]
      refine ⟨hin, fun h => ?_⟩
      by_contra hdiffers
      obtain ⟨q, hq, hprints⟩ := h.change hnames hfinal hdiffers
      exact hasked (hq ▸ (hfollows q hq hprints).asks hnames)
    · rw [hkeeps hnames]
      exact iff_of_true rfl ⟨fun _ h => absurd h hreset, fun h => absurd h hnames,
        fun h => absurd h hnames, fun ps hasks => absurd ⟨ps, hasks⟩ hasked⟩

theorem agrees_restore (hscans : Scans m seq) (hidle : t.zmodem = .idle)
    (hagrees : m.isEnabled = t.terminal.decMode themeMode) :
    (m.step 0x72).isEnabled = (t.step 0x72 o).terminal.decMode themeMode ↔ InStep t seq 0x72 := by
  have hfinal : ¬ ((0x72 : UInt8) = 0x68 ∨ (0x72 : UInt8) = 0x6C) := by decide
  have hin : InStep t seq 0x72 ↔ (t.NamesTheme →
      (t.terminal.savedDECModes.get? themeMode).getD false = t.terminal.decMode themeMode) :=
    ⟨fun h hnames => h.restore hnames rfl,
      fun h =>
        ⟨fun _ h => absurd h (by decide), fun _ h => absurd h hfinal, fun hnames _ => h hnames,
        fun _ _ h => absurd h hfinal⟩⟩
  rw [hin, hscans.keeps (fun h => absurd h (by decide)) fun h => absurd h hfinal, hagrees]
  by_cases hnames : t.NamesTheme
  · rw [hnames.step hidle (.inr (.inr rfl)), if_pos rfl]
    exact ⟨fun h _ => h.symm, fun h => (h hnames).symm⟩
  · rw [sameTheme_step hidle o (fun h => absurd h (by decide)) fun _ => hnames]
    exact iff_of_true rfl fun h => absurd h hnames

/-- A byte leaves the two agreed exactly when it is in step. -/
theorem agrees_step (hscans : Scans m seq)
    (hfollows : ∀ q, seq = some q → (∀ b ∈ q, Prints b) → Follows t q) (hidle : t.zmodem = .idle)
    (hagrees : m.isEnabled = t.terminal.decMode themeMode) :
    (m.step byte).isEnabled = (t.step byte o).terminal.decMode themeMode ↔ InStep t seq byte := by
  by_cases hreset : byte = 0x63
  · exact hreset ▸ agrees_reset hscans hfollows hidle hagrees
  by_cases hfinal : byte = 0x68 ∨ byte = 0x6C
  · exact agrees_final hscans hfollows hidle hagrees hfinal
  by_cases hrestore : byte = 0x72
  · exact hrestore ▸ agrees_restore hscans hidle hagrees
  have hchanges : ¬ ChangesMode byte := by
    rw [ChangesMode, ← or_assoc]
    exact not_or.mpr ⟨hfinal, hrestore⟩
  rw [hscans.keeps (fun h => absurd h hreset) fun h => absurd h hfinal, hagrees,
    sameTheme_step hidle o (fun h => absurd h hreset) fun h => absurd h hchanges]
  exact iff_of_true rfl ⟨fun _ h => absurd h hreset, fun _ h => absurd h hfinal,
    fun _ h => absurd h hrestore, fun _ _ h => absurd h hfinal⟩

end TerminalStreamTracker

namespace ThemeReportMode

open TerminalStreamTracker TerminalReplayState

variable {past stream : List UInt8}

theorem scans_run (past : List UInt8) : Scans (past.foldl step {}) (sinceEscape past) := by
  induction past using List.reverseRecOn with
  | nil => exact scans_start
  | append_singleton past byte ih =>
    rw [List.foldl_append]
    exact ih.step byte

/-- The scanner and the tracker, having read `past`, hold the same answer. -/
def Agrees (past : List UInt8) : Prop :=
  (past.foldl step {}).isEnabled = (run {} past 0).terminal.decMode themeMode

theorem agrees_concat (hidle : StaysIdle past) (hagrees : Agrees past) (byte : UInt8) :
    Agrees (past ++ [byte]) ↔ InStep (run {} past 0) (sinceEscape past) byte := by
  rw [Agrees, List.foldl_append, run_concat]
  exact agrees_step (scans_run past) (fun q hq hprints => follows_run hidle hq hprints)
    (hidle _ List.prefix_rfl) hagrees

/-- Agreement all along, byte by byte. -/
theorem agrees_prefixes_iff (hidle : StaysIdle stream) : (∀ past, past <+: stream → Agrees past) ↔
    ∀ past byte, past ++ [byte] <+: stream → InStep (run {} past 0) (sinceEscape past) byte := by
  constructor
  · intro hagrees past byte hmore
    have hpast : past <+: stream := (List.prefix_append _ _).trans hmore
    exact (agrees_concat (hidle.of_prefix hpast) (hagrees past hpast) byte).mp (hagrees _ hmore)
  · intro hin past
    induction past using List.reverseRecOn with
    | nil => exact fun _ => rfl
    | append_singleton past byte ih =>
      intro hmore
      have hpast : past <+: stream := (List.prefix_append _ _).trans hmore
      exact (agrees_concat (hidle.of_prefix hpast) (ih hpast) byte).mpr (hin past byte hmore)

/-- **The app's scanner answers as the host's parser exactly while each byte is in step**, in
whatever chunks the output comes. -/
theorem isEnabled_iff_tracked (stream : List UInt8) (hidle : StaysIdle stream) :
    (∀ chunks : List (List UInt8), chunks.flatten <+: stream → (chunks.foldl feed {}).isEnabled
        = (({} : TerminalStreamTracker).consume chunks.flatten 0).terminal.decMode themeMode) ↔
      ∀ past byte, past ++ [byte] <+: stream → InStep (run {} past 0) (sinceEscape past) byte := by
  rw [← agrees_prefixes_iff hidle]
  constructor
  · intro h past hpast
    have hone : [past].flatten = past := List.append_nil past
    have hsame := h [past] (hone.symm ▸ hpast)
    rwa [foldl_feed, consume_eq_run, hone] at hsame
  · intro h chunks hchunks
    rw [foldl_feed, consume_eq_run]
    exact h _ hchunks

/-- A line feed inside the sequence, and only the parser has read the request. -/
theorem isEnabled_iff_tracked_lineFeed : ¬ ∀ chunks : List (List UInt8),
    chunks.flatten <+: [0x1B, 0x5B, 0x3F, 0x32, 0x30, 0x33, 0x31, 0x0A, 0x68] →
      (chunks.foldl feed {}).isEnabled
        = (({} : TerminalStreamTracker).consume chunks.flatten 0).terminal.decMode themeMode := by
  have hidle : StaysIdle [0x1B, 0x5B, 0x3F, 0x32, 0x30, 0x33, 0x31, 0x0A, 0x68] :=
    staysIdle_of_inits (by decide +kernel)
  rw [isEnabled_iff_tracked _ hidle]
  intro hin
  have hlast := hin [0x1B, 0x5B, 0x3F, 0x32, 0x30, 0x33, 0x31, 0x0A] 0x68 List.prefix_rfl
  obtain ⟨q, hq, hprints⟩ := hlast.change
    ⟨by decide +kernel, by decide +kernel, by decide +kernel, by decide +kernel, by decide +kernel,
      by decide +kernel⟩ (.inl rfl) (by decide +kernel)
  have hcontrol : (0x0A : UInt8) ∈ q := by
    have hsince : sinceEscape [0x1B, 0x5B, 0x3F, 0x32, 0x30, 0x33, 0x31, 0x0A]
        = some [0x5B, 0x3F, 0x32, 0x30, 0x33, 0x31, 0x0A] := by decide +kernel
    rw [← Option.some.inj (hsince.symm.trans hq)]
    decide
  exact absurd (hprints _ hcontrol).1 (by decide)

/-- **While each byte is in step, the app follows the host after every chunk**, and a next byte
keeps the two together exactly when it is in step itself. -/
theorem feed_follows_tracker (chunks : List (List UInt8)) (hidle : StaysIdle chunks.flatten)
    (hin : ∀ past byte, past ++ [byte] <+: chunks.flatten →
      InStep (run {} past 0) (sinceEscape past) byte) :
    (∀ fed, fed <+: chunks → (fed.foldl feed {}).isEnabled
        = (({} : TerminalStreamTracker).consume fed.flatten 0).terminal.decMode themeMode) ∧
      ∀ byte, ((chunks ++ [[byte]]).foldl feed {}).isEnabled
          = (({} : TerminalStreamTracker).consume (chunks ++ [[byte]]).flatten 0).terminal.decMode
            themeMode ↔
        InStep (run {} chunks.flatten 0) (sinceEscape chunks.flatten) byte := by
  have hagrees := (agrees_prefixes_iff hidle).mpr hin
  constructor
  · rintro fed ⟨rest, rfl⟩
    rw [foldl_feed, consume_eq_run]
    exact hagrees _ (List.flatten_append ▸ List.prefix_append _ _)
  · intro byte
    rw [foldl_feed, consume_eq_run, List.flatten_append, List.flatten_singleton]
    exact agrees_concat hidle (hagrees _ List.prefix_rfl) byte

/-- A set that comes in two chunks. -/
theorem feed_follows_tracker_set :
    let chunks : List (List UInt8) := [[0x1B, 0x5B, 0x3F, 0x32], [0x30, 0x33, 0x31, 0x68]]
    (∀ fed, fed <+: chunks → (fed.foldl feed {}).isEnabled
        = (({} : TerminalStreamTracker).consume fed.flatten 0).terminal.decMode themeMode) ∧
      ∀ byte, ((chunks ++ [[byte]]).foldl feed {}).isEnabled
          = (({} : TerminalStreamTracker).consume (chunks ++ [[byte]]).flatten 0).terminal.decMode
            themeMode ↔
        InStep (run {} chunks.flatten 0) (sinceEscape chunks.flatten) byte := by
  intro chunks
  have hidle : StaysIdle chunks.flatten := staysIdle_of_inits (by decide +kernel)
  refine feed_follows_tracker chunks hidle ((agrees_prefixes_iff hidle).mp fun past hpast => ?_)
  rw [Agrees]
  have hall : chunks.flatten.inits.all (fun past => decide ((past.foldl step {}).isEnabled
      = (run {} past 0).terminal.decMode themeMode)) = true := by decide +kernel
  exact of_decide_eq_true (List.all_eq_true.mp hall past (List.mem_inits _ _ |>.mpr hpast))

/-- The app and the host part over a request with a line feed in it. -/
theorem feed_parts_from_tracker : ¬ ∀ chunks : List (List UInt8), StaysIdle chunks.flatten →
    (chunks.foldl feed {}).isEnabled
      = (({} : TerminalStreamTracker).consume chunks.flatten 0).terminal.decMode themeMode := by
  intro hagrees
  have hidle : StaysIdle [[0x1B, 0x5B, 0x3F, 0x32, 0x30, 0x33, 0x31, 0x0A, 0x68]].flatten :=
    staysIdle_of_inits (by decide +kernel)
  have hsame := hagrees _ hidle
  rw [foldl_feed, consume_eq_run] at hsame
  exact absurd hsame (by decide +kernel)

end ThemeReportMode
