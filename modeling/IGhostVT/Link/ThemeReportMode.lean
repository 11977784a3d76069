import IGhostVT.Lib.Decimal
import Mathlib.Data.List.DropRight
import Mathlib.Tactic.SplitIfs

/-!
# Link/ThemeReportMode — whether a program asked to hear about light and dark

`ThemeReportMode` scans a tab's output for DEC private mode 2031.  All it holds of a sequence
follows from the bytes since the last ESC (`Scans`): it enters one at an ESC and leaves it at the
first byte that is no part of a set or a reset.
-/

namespace ThemeReportMode

inductive Phase
  | ground
  | escape
  | controlSequence
  | privateParameters
deriving DecidableEq

def mode : ℕ := 2031

end ThemeReportMode

structure ThemeReportMode where
  isEnabled : Bool := false
  phase : ThemeReportMode.Phase := .ground
  parameter : ℕ := 0
  namesMode : Bool := false
deriving DecidableEq

namespace ThemeReportMode

def step (m : ThemeReportMode) (byte : UInt8) : ThemeReportMode :=
  match m.phase with
  | .ground => if byte = 0x1B then { m with phase := .escape } else m
  | .escape =>
    if byte = 0x5B then { m with phase := .controlSequence }
    else if byte = 0x63 then { m with isEnabled := false, phase := .ground }
    else if byte = 0x1B then m
    else { m with phase := .ground }
  | .controlSequence =>
    if byte = 0x3F then { m with phase := .privateParameters, parameter := 0, namesMode := false }
    else { m with phase := if byte = 0x1B then .escape else .ground }
  | .privateParameters =>
    if isDigit byte then
      -- Capped, never overflowed.
      if m.parameter < 100000 then { m with parameter := m.parameter * 10 + digitValue byte } else m
    else if byte = 0x3B then
      { m with namesMode := m.namesMode || m.parameter == mode, parameter := 0 }
    else if byte = 0x68 ∨ byte = 0x6C then
      { m with
        isEnabled := if m.namesMode || m.parameter == mode then byte == 0x68 else m.isEnabled
        phase := .ground }
    else if byte = 0x1B then { m with phase := .escape }
    else { m with phase := .ground }

/-- `feed`'s loop, `fuel` bounding its rounds: from ground it goes on behind the next ESC. -/
def feedLoop : ℕ → ThemeReportMode → List UInt8 → ThemeReportMode
  | 0, m, _ => m
  | fuel + 1, m, data =>
    if m.phase = .ground then
      match data.dropWhile (· ≠ 0x1B) with
      | [] => m
      | _ :: rest => feedLoop fuel { m with phase := .escape } rest
    else
      match data with
      | [] => m
      | byte :: rest => feedLoop fuel (m.step byte) rest

def feed (m : ThemeReportMode) (data : List UInt8) : ThemeReportMode := feedLoop data.length m data

/-! ## The jump to the next ESC -/

/-- In ground nothing is read but an ESC. -/
theorem foldl_step_ground {m : ThemeReportMode} (hground : m.phase = .ground) (data : List UInt8) :
    data.foldl step m = (data.dropWhile (· ≠ 0x1B)).foldl step m := by
  induction data with
  | nil => rfl
  | cons byte data ih =>
    by_cases hesc : byte = 0x1B
    · rw [List.dropWhile_cons_of_neg (by simpa using hesc)]
    · have hstep : m.step byte = m := by rw [step, hground]; exact if_neg hesc
      rw [List.dropWhile_cons_of_pos (by simpa using hesc), List.foldl_cons, hstep, ih]

theorem feedLoop_eq : ∀ (fuel : ℕ) (m : ThemeReportMode) (data : List UInt8), data.length ≤ fuel →
    feedLoop fuel m data = data.foldl step m := by
  intro fuel
  induction fuel with
  | zero =>
    intro m data hfuel
    rw [List.length_eq_zero_iff.mp (Nat.le_zero.mp hfuel)]
    rfl
  | succ fuel ih =>
    intro m data hfuel
    unfold feedLoop
    split
    case isTrue hground =>
      rw [foldl_step_ground hground]
      have hshort :=
        (List.dropWhile_suffix (fun b : UInt8 => decide (b ≠ 0x1B)) (l := data)).length_le
      cases hrest : data.dropWhile (· ≠ 0x1B) with
      | nil => rfl
      | cons byte rest =>
        have hesc : byte = 0x1B := by
          have hnot := List.head?_dropWhile_not (fun b : UInt8 => decide (b ≠ 0x1B)) data
          rw [hrest] at hnot
          simpa using hnot
        have hstep : m.step byte = { m with phase := .escape } := by
          rw [step, hground]
          exact if_pos hesc
        rw [hrest, List.length_cons] at hshort
        dsimp only
        rw [ih _ rest (by omega), List.foldl_cons, hstep]
    case isFalse =>
      cases data with
      | nil => rfl
      | cons byte data => exact ih _ data (Nat.le_of_succ_le_succ hfuel)

/-- **The jump changes nothing**, and neither does where the stream was cut. -/
theorem foldl_feed (m : ThemeReportMode) (chunks : List (List UInt8)) :
    chunks.foldl feed m = chunks.flatten.foldl step m := by
  induction chunks generalizing m with
  | nil => rfl
  | cons data chunks ih =>
    rw [List.foldl_cons, ih, feed, feedLoop_eq _ m data le_rfl, List.flatten_cons,
      List.foldl_append]

/-! ## The bytes since the last ESC -/

/-- The bytes since the last ESC, if there was one. -/
def sinceEscape (past : List UInt8) : Option (List UInt8) :=
  if 0x1B ∈ past then some (past.rtakeWhile (· ≠ 0x1B)) else none

theorem sinceEscape_concat (past : List UInt8) (byte : UInt8) : sinceEscape (past ++ [byte])
    = if byte = 0x1B then some [] else (sinceEscape past).map (· ++ [byte]) := by
  unfold sinceEscape
  by_cases hesc : byte = 0x1B
  · rw [if_pos hesc, if_pos (by simp [hesc]),
      List.rtakeWhile_concat_neg _ _ _ (by simpa using hesc)]
  · rw [if_neg hesc, List.rtakeWhile_concat_pos _ _ _ (by simpa using hesc)]
    have hmem : 0x1B ∈ past ++ [byte] ↔ 0x1B ∈ past := by
      rw [List.mem_append, List.mem_singleton, or_iff_left (fun h => hesc h.symm)]
    by_cases hpast : 0x1B ∈ past
    · rw [if_pos (hmem.mpr hpast), if_pos hpast]
      rfl
    · rw [if_neg fun h => hpast (hmem.mp h), if_neg hpast]
      rfl

/-- Digits and the semicolons between them. -/
def IsParameters (ps : List UInt8) : Prop := ∀ b ∈ ps, isDigit b = true ∨ b = 0x3B

/-- The numbers before the semicolons, and the one behind the last. -/
def numbers (ps : List UInt8) : List ℕ × ℕ :=
  ps.foldl (fun (done, n) b => if b = 0x3B then (done ++ [n], 0) else (done, n * 10 + digitValue b))
    ([], 0)

/-- `ESC [ ?` and parameters that name the mode. -/
structure Asks (seq : Option (List UInt8)) (ps : List UInt8) : Prop where
  opens : seq = some (0x5B :: 0x3F :: ps)
  isParameters : IsParameters ps
  named : mode ∈ (numbers ps).1 ∨ (numbers ps).2 = mode

theorem numbers_concat (ps : List UInt8) (byte : UInt8) : numbers (ps ++ [byte])
    = if byte = 0x3B then ((numbers ps).1 ++ [(numbers ps).2], 0)
      else ((numbers ps).1, (numbers ps).2 * 10 + digitValue byte) := by
  rw [numbers, List.foldl_append]
  rfl

theorem isParameters_concat {ps : List UInt8} {byte : UInt8} :
    IsParameters (ps ++ [byte]) ↔ IsParameters ps ∧ (isDigit byte = true ∨ byte = 0x3B) := by
  simp only [IsParameters, List.mem_append, List.mem_singleton, or_imp, forall_and, forall_eq]

/-- **What the scanner holds follows from the bytes since the last ESC.** -/
def Scans (m : ThemeReportMode) (seq : Option (List UInt8)) : Prop :=
  match m.phase with
  | .ground =>
    seq ≠ some [] ∧ seq ≠ some [0x5B] ∧ ∀ ps, IsParameters ps → seq ≠ some (0x5B :: 0x3F :: ps)
  | .escape => seq = some []
  | .controlSequence => seq = some [0x5B]
  | .privateParameters => ∃ ps, seq = some (0x5B :: 0x3F :: ps) ∧ IsParameters ps ∧
      (m.namesMode = true ↔ mode ∈ (numbers ps).1) ∧
      (m.parameter = (numbers ps).2 ∨ 100000 ≤ m.parameter ∧ 100000 ≤ (numbers ps).2)

variable {m : ThemeReportMode} {past ps : List UInt8} {seq : Option (List UInt8)} {byte : UInt8}

theorem scans_start : Scans {} (sinceEscape []) :=
  ⟨(Option.some_ne_none _).symm, (Option.some_ne_none _).symm,
    fun _ _ => (Option.some_ne_none _).symm⟩

/-- Behind a byte that ends the sequence, the bytes since its ESC open no other. -/
theorem scans_left (hground : m.phase = .ground) (hseq : ∀ q, seq = some q →
    q ++ [byte] ≠ [0x5B] ∧ ∀ ps, IsParameters ps → q ++ [byte] ≠ 0x5B :: 0x3F :: ps) :
    Scans m (seq.map (· ++ [byte])) := by
  rw [Scans, hground]
  cases seq with
  | none =>
    exact ⟨(Option.some_ne_none _).symm, (Option.some_ne_none _).symm,
      fun _ _ => (Option.some_ne_none _).symm⟩
  | some q =>
    obtain ⟨hopen, hparameters⟩ := hseq q rfl
    refine ⟨fun h => ?_, fun h => hopen (Option.some.inj h), fun ps hps h =>
      hparameters ps hps (Option.some.inj h)⟩
    exact List.append_ne_nil_of_right_ne_nil q (List.cons_ne_nil _ _) (Option.some.inj h)

/-- A sequence that goes on has its parameters but the last byte of them before it. -/
theorem opens_concat {q : List UInt8} (h : q ++ [byte] = 0x5B :: 0x3F :: ps) :
    q = [0x5B] ∧ byte = 0x3F ∧ ps = [] ∨ ∃ before, q = 0x5B :: 0x3F :: before ∧
    ps = before ++ [byte] := by
  rcases List.eq_nil_or_concat ps with rfl | ⟨before, last, rfl⟩
  · have heq : q ++ [byte] = [0x5B] ++ [0x3F] := h
    obtain ⟨rfl, hbyte⟩ := List.append_inj' heq rfl
    exact .inl ⟨rfl, List.singleton_inj.mp hbyte, rfl⟩
  · rw [List.concat_eq_append, ← List.cons_append, ← List.cons_append] at h
    obtain ⟨rfl, hbyte⟩ := List.append_inj' h rfl
    rw [List.singleton_inj.mp hbyte]
    exact .inr ⟨before, rfl, List.concat_eq_append⟩

theorem phase_parameters (hphase : m.phase = .privateParameters)
    (hbyte : isDigit byte = true ∨ byte = 0x3B) : (m.step byte).phase = .privateParameters := by
  rw [ThemeReportMode.step, hphase]
  dsimp only
  rcases hbyte with hdigit | hsemicolon
  · rw [if_pos hdigit]
    split
    exacts [rfl, hphase]
  · rw [if_neg (by rw [hsemicolon]; decide), if_pos hsemicolon]

/-- The cap is out of the mode's reach. -/
theorem parameter_eq_mode {parameter n : ℕ} (h : parameter = n ∨ 100000 ≤ parameter ∧ 100000 ≤ n) :
    parameter = mode ↔ n = mode := by
  unfold mode
  omega

theorem Scans.step (h : Scans m (sinceEscape past)) (byte : UInt8) :
    Scans (m.step byte) (sinceEscape (past ++ [byte])) := by
  rw [sinceEscape_concat]
  by_cases hesc : byte = 0x1B
  · have hescape : (m.step byte).phase = .escape := by
      subst hesc
      unfold ThemeReportMode.step
      split
      case h_2 hphase => exact hphase
      all_goals rfl
    rw [if_pos hesc, Scans, hescape]
  rw [if_neg hesc]
  generalize sinceEscape past = seq at h
  cases hphase : m.phase with
  | ground =>
    rw [Scans, hphase] at h
    obtain ⟨hnil, hopen, hparameters⟩ := h
    have hstep : m.step byte = m := by rw [ThemeReportMode.step, hphase]; exact if_neg hesc
    rw [hstep]
    refine scans_left hphase fun q hq => ⟨fun heq => ?_, fun ps hps heq => ?_⟩
    · have heq : q ++ [byte] = [] ++ [0x5B] := heq
      exact hnil (hq.trans (congrArg some (List.append_inj' heq rfl).1))
    · rcases opens_concat heq with ⟨rfl, -⟩ | ⟨before, rfl, rfl⟩
      exacts [hopen hq, hparameters before (isParameters_concat.mp hps).1 hq]
  | escape =>
    rw [Scans, hphase] at h
    subst h
    by_cases hopen : byte = 0x5B
    · have hstep : (m.step byte).phase = .controlSequence := by
        rw [ThemeReportMode.step, hphase]
        exact congrArg phase (if_pos hopen)
      rw [Scans, hstep, hopen]
      rfl
    · have hground : (m.step byte).phase = .ground := by
        rw [ThemeReportMode.step, hphase]
        dsimp only
        rw [if_neg hopen, if_neg hesc]
        split <;> rfl
      refine scans_left hground fun q hq => ⟨fun heq => ?_, fun ps hps heq => ?_⟩
      · rw [← Option.some.inj hq] at heq
        exact hopen (List.singleton_inj.mp heq)
      · rw [← Option.some.inj hq] at heq
        cases heq
  | controlSequence =>
    rw [Scans, hphase] at h
    subst h
    by_cases hprivate : byte = 0x3F
    · have hstep : m.step byte
          = { m with phase := .privateParameters, parameter := 0, namesMode := false } := by
        rw [ThemeReportMode.step, hphase]
        exact if_pos hprivate
      rw [hstep, hprivate]
      refine ⟨[], rfl, fun b hb => (by cases hb), ?_, .inl rfl⟩
      exact ⟨Bool.noConfusion, fun hmem => by cases hmem⟩
    · have hground : (m.step byte).phase = .ground := by
        rw [ThemeReportMode.step, hphase]
        dsimp only
        rw [if_neg hprivate, if_neg hesc]
      refine scans_left hground fun q hq => ⟨fun heq => ?_, fun ps hps heq => ?_⟩
      · rw [← Option.some.inj hq] at heq
        cases heq
      · rcases opens_concat heq with ⟨-, hbyte, -⟩ | ⟨before, rfl, -⟩
        · exact hprivate hbyte
        · cases Option.some.inj hq
  | privateParameters =>
    rw [Scans, hphase] at h
    obtain ⟨ps, rfl, hps, hnames, hparameter⟩ := h
    by_cases hbyte : isDigit byte = true ∨ byte = 0x3B
    · refine (Scans.eq_1 _ _).mpr ?_
      rw [phase_parameters hphase hbyte]
      refine ⟨ps ++ [byte], rfl, isParameters_concat.mpr ⟨hps, hbyte⟩, ?_⟩
      rw [numbers_concat]
      by_cases hdigit : isDigit byte = true
      · have hsemicolon : byte ≠ 0x3B := fun heq => by rw [heq] at hdigit; cases hdigit
        rw [ThemeReportMode.step, hphase, if_neg hsemicolon]
        dsimp only
        rw [if_pos hdigit]
        split
        · refine ⟨hnames, ?_⟩
          dsimp only
          omega
        · refine ⟨hnames, ?_⟩
          omega
      · have hsemicolon := hbyte.resolve_left hdigit
        rw [ThemeReportMode.step, hphase, if_pos hsemicolon]
        dsimp only
        rw [if_neg hdigit, if_pos hsemicolon]
        refine ⟨?_, .inl rfl⟩
        rw [Bool.or_eq_true, hnames, beq_iff_eq, List.mem_append, List.mem_singleton,
          eq_comm (a := mode), parameter_eq_mode hparameter]
    · have hground : (m.step byte).phase = .ground := by
        rw [not_or] at hbyte
        rw [ThemeReportMode.step, hphase]
        dsimp only
        rw [if_neg hbyte.1, if_neg hbyte.2, if_neg hesc]
        split <;> rfl
      refine scans_left hground fun q hq => ⟨fun heq => ?_, fun after hafter heq => ?_⟩
      · rw [← Option.some.inj hq] at heq
        cases heq
      · rcases opens_concat heq with ⟨rfl, -⟩ | ⟨before, -, rfl⟩
        · cases Option.some.inj hq
        · exact hbyte (isParameters_concat.mp hafter).2

/-! ## What turns it on and off -/

theorem Scans.resets (h : Scans m (some [])) : (m.step 0x63).isEnabled = false := by
  cases hphase : m.phase with
  | escape =>
    rw [ThemeReportMode.step, hphase]
    rfl
  | ground =>
    rw [Scans, hphase] at h
    exact absurd rfl h.1
  | controlSequence =>
    rw [Scans, hphase] at h
    cases h
  | privateParameters =>
    rw [Scans, hphase] at h
    obtain ⟨_, h, -⟩ := h
    cases h

theorem Scans.sets (h : Scans m seq) (hasks : Asks seq ps) (hfinal : byte = 0x68 ∨ byte = 0x6C) :
    (m.step byte).isEnabled = (byte == 0x68) := by
  obtain ⟨rfl, hps, hnamed⟩ := hasks
  cases hphase : m.phase with
  | escape =>
    rw [Scans, hphase] at h
    cases h
  | ground =>
    rw [Scans, hphase] at h
    exact absurd rfl (h.2.2 ps hps)
  | controlSequence =>
    rw [Scans, hphase] at h
    cases h
  | privateParameters =>
    rw [Scans, hphase] at h
    obtain ⟨ps', heq, -, hnames, hparameter⟩ := h
    obtain rfl : ps = ps' := by simpa using heq
    have hnamed' : (m.namesMode || m.parameter == mode) = true := by
      rw [Bool.or_eq_true, hnames, beq_iff_eq, parameter_eq_mode hparameter]
      exact hnamed
    rw [ThemeReportMode.step, hphase]
    dsimp only
    rw [if_neg, if_neg, if_pos hfinal, hnamed']
    · rfl
    · rcases hfinal with rfl | rfl <;> decide
    · rcases hfinal with rfl | rfl <;> decide

/-- No other byte changes the mode. -/
theorem Scans.keeps (h : Scans m seq) (hreset : byte = 0x63 → seq ≠ some [])
    (hset : byte = 0x68 ∨ byte = 0x6C → ∀ ps, ¬ Asks seq ps) :
    (m.step byte).isEnabled = m.isEnabled := by
  rw [ThemeReportMode.step]
  cases hphase : m.phase with
  | ground =>
    dsimp only
    split <;> rfl
  | escape =>
    rw [Scans, hphase] at h
    have hfinal : byte ≠ 0x63 := fun heq => hreset heq h
    dsimp only
    rw [if_neg hfinal]
    split_ifs <;> rfl
  | controlSequence =>
    dsimp only
    split <;> rfl
  | privateParameters =>
    rw [Scans, hphase] at h
    obtain ⟨ps, hopens, hps, hnames, hparameter⟩ := h
    have hnamed : byte = 0x68 ∨ byte = 0x6C → ¬ (m.namesMode || m.parameter == mode) = true := by
      intro hfinal hnamed
      rw [Bool.or_eq_true, hnames, beq_iff_eq, parameter_eq_mode hparameter] at hnamed
      exact hset hfinal ps ⟨hopens, hps, hnamed⟩
    dsimp only
    split_ifs with hdigit hcap hsemicolon hfinal hnames'
    all_goals first
      | rfl
      | exact absurd hnames' (hnamed hfinal)

end ThemeReportMode
