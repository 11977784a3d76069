import IGhostVT.Session.Change
import IGhostVT.Session.Preamble
import Mathlib.Tactic.FinCases

/-!
# Session/Reading — what one whole sequence does to a resting tracker

`Writes bytes f`: from wherever a tracker rests, reading `bytes` leaves it resting with `f` applied
to its terminal and nothing recorded.  Each kind of sequence a preamble is made of has its
`Writes`, and `Writes.append` chains them.
-/

namespace TerminalStreamTracker

open TerminalReplayState

/-- Between sequences, between characters, and outside a transfer. -/
structure AtRest (t : TerminalStreamTracker) : Prop where
  state : t.state = .ground
  utf8 : t.utf8Remaining = 0
  zmodem : t.zmodem = .idle

theorem isQuiescent_iff {t : TerminalStreamTracker} : t.isQuiescent = true ↔ AtRest t := by
  simp only [isQuiescent, Bool.and_eq_true, beq_iff_eq]
  exact ⟨fun h => ⟨h.1.1, h.1.2, h.2⟩, fun h => ⟨⟨h.state, h.utf8⟩, h.zmodem⟩⟩

/-- What reading whole sequences leaves: a tracker at rest, its terminal changed by `f`. -/
structure Wrote (f : TerminalReplayState → TerminalReplayState) (t t' : TerminalStreamTracker) :
    Prop where
  rest : AtRest t'
  terminal : t'.terminal = f t.terminal
  excisions : t'.excisions = t.excisions
  kittyChain : t'.kittyChain = t.kittyChain

/-- **`bytes` write `f`.** -/
def Writes (bytes : List UInt8) (f : TerminalReplayState → TerminalReplayState) : Prop :=
  ∀ t o, AtRest t → Wrote f t (t.run bytes o)

theorem writes_nil : Writes [] fun s => s := fun _ _ h => ⟨h, rfl, rfl, rfl⟩

theorem Writes.append {as bs : List UInt8} {f g : TerminalReplayState → TerminalReplayState}
    (ha : Writes as f) (hb : Writes bs g) : Writes (as ++ bs) (fun s => g (f s)) := by
  intro t o h
  have hf := ha t o h
  have hg := hb _ (o + as.length) hf.rest
  rw [run_append]
  exact ⟨hg.rest, by rw [hg.terminal, hf.terminal], hg.excisions.trans hf.excisions,
    hg.kittyChain.trans hf.kittyChain⟩

theorem Writes.congr {bs : List UInt8} {f g : TerminalReplayState → TerminalReplayState}
    (h : Writes bs f) (hfg : ∀ s, f s = g s) : Writes bs g := (funext hfg : f = g) ▸ h

/-- One piece for each entry. -/
theorem writes_flatMap {α : Type*} {piece : α → List UInt8}
    {f : TerminalReplayState → α → TerminalReplayState} (as : List α)
    (h : ∀ a ∈ as, Writes (piece a) fun s => f s a) :
    Writes (as.flatMap piece) fun s => as.foldl f s := by
  induction as with
  | nil => exact writes_nil
  | cons a as ih =>
    rw [List.flatMap_cons]
    exact (h a List.mem_cons_self).append (ih fun b hb => h b (List.mem_cons_of_mem _ hb))

/-- A piece that may be left away. -/
theorem writes_ite {c : Prop} [Decidable c] {bs : List UInt8}
    {f : TerminalReplayState → TerminalReplayState} (h : c → Writes bs f) :
    Writes (if c then bs else []) fun s => if c then f s else s := by
  split
  · exact (h ‹_›).congr fun s => by simp [*]
  · exact writes_nil.congr fun s => by simp [*]

/-! ## Steps -/

/-- No byte but `B` right after a CAN completes a transfer's header. -/
theorem step_of_ne_header {t : TerminalStreamTracker} (hz : t.zmodem = .idle) {b : UInt8}
    (hb : b ≠ 0x42 ∨ t.recent.head? ≠ some 0x18) (o : ℤ) :
    t.step b o =
      if t.state = .ground then
        ({ t with recent := pushRecent t.recent b } : TerminalStreamTracker).ground b o
      else ({ t with recent := pushRecent t.recent b } : TerminalStreamTracker).sequence b o := by
  have hheader : (pushRecent t.recent b).take 4 ≠ zmodemHeader := by
    intro h
    rw [pushRecent, zmodemHeader, List.take_succ_cons] at h
    obtain ⟨rfl, h⟩ := List.cons.inj h
    refine hb.elim (fun hb => hb rfl) fun hb => hb ?_
    cases hr : t.recent with
    | nil => simp [hr] at h
    | cons r rs =>
      simp only [hr, List.take_succ_cons, List.cons.injEq] at h
      simp [h.2.1]
  rw [step]
  simp only [hz, ne_eq, not_true_eq_false, if_false, hheader]

/-- ESC at rest begins a sequence. -/
structure Begun (t t' : TerminalStreamTracker) (state : ParserState) : Prop where
  terminal : t'.terminal = t.terminal
  excisions : t'.excisions = t.excisions
  kittyChain : t'.kittyChain = t.kittyChain
  state : t'.state = state
  utf8 : t'.utf8Remaining = 0
  zmodem : t'.zmodem = .idle
  recent : t'.recent.head? ≠ some 0x18
  terminatorPending : t'.terminatorPending = false

/-- The registers of a sequence being read. -/
structure Registers (t : TerminalStreamTracker) (intermediates : List UInt8) (params : List ℕ)
    (colons value digits : ℕ) : Prop where
  intermediates : t.intermediates = intermediates
  params : t.params = params
  colons : t.colons = colons
  value : t.paramValue = value
  digits : t.paramDigits = digits
  overflowed : t.paramsOverflowed = false

theorem begun_escape {t : TerminalStreamTracker} (h : AtRest t) (o : ℤ) :
    Begun t (t.step 0x1B o) .escape ∧ Registers (t.step 0x1B o) [] [] 0 0 0 := by
  rw [step_of_ne_header h.zmodem (Or.inl (by decide)), if_pos h.state, ground,
    if_neg (by simp [h.utf8]), groundByte, if_pos rfl]
  exact ⟨⟨rfl, rfl, rfl, rfl, h.utf8, h.zmodem, by simp [enter, clear, pushRecent], rfl⟩,
    ⟨rfl, rfl, rfl, rfl, rfl, rfl⟩⟩

/-- The tracker once a sequence's byte is in `recent` and `head`. -/
def noted (t : TerminalStreamTracker) (b : UInt8) : TerminalStreamTracker :=
  { t with
    recent := pushRecent t.recent b
    head := if t.head.length < maximumHead then t.head ++ [b] else t.head }

theorem Begun.noted {t t' : TerminalStreamTracker} {state : ParserState} (h : Begun t t' state)
    {b : UInt8} (hb : b ≠ 0x18) : Begun t (t'.noted b) state :=
  ⟨h.terminal, h.excisions, h.kittyChain, h.state, h.utf8, h.zmodem,
    by simpa [TerminalStreamTracker.noted, pushRecent] using hb, h.terminatorPending⟩

theorem Registers.noted {t : TerminalStreamTracker} {i : List UInt8} {p : List ℕ} {c v d : ℕ}
    (h : Registers t i p c v d) (b : UInt8) : Registers (t.noted b) i p c v d :=
  ⟨h.intermediates, h.params, h.colons, h.value, h.digits, h.overflowed⟩

/-- A byte read inside a sequence goes to the state's own rows. -/
theorem step_inside {t : TerminalStreamTracker} (hzmodem : t.zmodem = .idle)
    (hrecent : t.recent.head? ≠ some 0x18) (hstate : t.state ≠ .ground) {b : UInt8}
    (hb : b ≠ 0x18 ∧ b ≠ 0x1A ∧ b ≠ 0x1B) (o : ℤ) :
    t.step b o = (t.noted b).sequenceByte b o := by
  have hb' : ¬ (b = 0x18 ∨ b = 0x1A ∨ b = 0x1B) := by
    rintro (hb' | hb' | hb')
    exacts [hb.1 hb', hb.2.1 hb', hb.2.2 hb']
  rw [step_of_ne_header hzmodem (Or.inr hrecent), if_neg hstate, sequence, if_neg hb']
  rfl

theorem Begun.step_eq {t t' : TerminalStreamTracker} {state : ParserState} (h : Begun t t' state)
    (hstate : state ≠ .ground) {b : UInt8} (hb : b ≠ 0x18 ∧ b ≠ 0x1A ∧ b ≠ 0x1B) (o : ℤ) :
    t'.step b o = (t'.noted b).sequenceByte b o :=
  step_inside h.zmodem h.recent (by rw [h.state]; exact hstate) hb o

/-! ## Control sequences -/

/-- `[` after the ESC. -/
theorem Begun.bracket {t t' : TerminalStreamTracker} (hb : Begun t t' .escape)
    (hr : Registers t' [] [] 0 0 0) (o : ℤ) :
    Begun t (t'.step 0x5B o) .csiEntry ∧ Registers (t'.step 0x5B o) [] [] 0 0 0 := by
  have hb' := hb.noted (b := 0x5B) (by decide)
  have hr' := hr.noted 0x5B
  rw [hb.step_eq (by decide) (by decide), sequenceByte, hb'.state]
  simp only [isExecutedInSequence]
  exact ⟨⟨hb'.terminal, hb'.excisions, hb'.kittyChain, rfl, hb'.utf8, hb'.zmodem, hb'.recent,
    hb'.terminatorPending⟩, ⟨hr'.intermediates, hr'.params, hr'.colons, hr'.value, hr'.digits,
    hr'.overflowed⟩⟩

/-- A digit, the sequence's first byte or a later one. -/
theorem Begun.digit {t t' : TerminalStreamTracker} {state : ParserState} (h : Begun t t' state)
    (hstate : state = .csiEntry ∨ state = .csiParam) {i : List UInt8} {p : List ℕ} {c v d : ℕ}
    (hr : Registers t' i p c v d) {b : UInt8} (hb : isDigit b = true) (o : ℤ) :
    Begun t (t'.step b o) .csiParam
      ∧ Registers (t'.step b o) i p c (min (v * 10 + digitValue b) 65535) (d + 1) := by
  simp only [isDigit, Bool.and_eq_true, decide_eq_true_eq] at hb
  have hne : b ≠ 0x18 := by grind
  have hb' := h.noted hne
  have hr' := hr.noted b
  have hexecuted : isExecutedInSequence b = false := by
    simp only [isExecutedInSequence]
    grind
  have hparam : (t'.noted b).param b = { t'.noted b with
      paramValue := min (v * 10 + digitValue b) 65535, paramDigits := d + 1 } := by
    rw [TerminalStreamTracker.param, if_neg (by grind), hr'.value, hr'.digits]
  rw [h.step_eq (by rcases hstate with rfl | rfl <;> decide) (by grind), sequenceByte, hb'.state]
  rcases hstate with rfl | rfl
  all_goals
    simp only [hexecuted, Bool.false_eq_true, if_false]
  · rw [if_neg (by grind), if_neg (by grind), if_neg (by grind), if_neg (by grind),
      if_pos (Or.inl hb), hparam]
    exact ⟨⟨hb'.terminal, hb'.excisions, hb'.kittyChain, rfl, hb'.utf8, hb'.zmodem, hb'.recent,
      hb'.terminatorPending⟩, ⟨hr'.intermediates, hr'.params, hr'.colons, rfl, rfl, hr'.overflowed⟩⟩
  · rw [if_pos (by grind), hparam]
    exact ⟨⟨hb'.terminal, hb'.excisions, hb'.kittyChain, hb'.state, hb'.utf8, hb'.zmodem,
      hb'.recent, hb'.terminatorPending⟩,
      ⟨hr'.intermediates, hr'.params, hr'.colons, rfl, rfl, hr'.overflowed⟩⟩

/-- A run of digits is a number read on. -/
theorem Begun.digits {t : TerminalStreamTracker} {i : List UInt8} {p : List ℕ} {c : ℕ} :
    ∀ (ds : List UInt8) {t' : TerminalStreamTracker} {state : ParserState} {v d : ℕ}, ds ≠ [] →
      (∀ b ∈ ds, isDigit b = true) → Begun t t' state → (state = .csiEntry ∨ state = .csiParam) →
      Registers t' i p c v d → ∀ o : ℤ,
      Begun t (t'.run ds o) .csiParam
        ∧ Registers (t'.run ds o) i p c (saturate 65535 v ds) (d + ds.length) := by
  intro ds
  induction ds with
  | nil => exact fun hne => absurd rfl hne
  | cons b ds ih =>
    intro t' state v d _ hds h hstate hr o
    obtain ⟨hb, hr'⟩ := h.digit hstate hr (hds b List.mem_cons_self) o
    rw [run_cons]
    cases ds with
    | nil => exact ⟨hb, hr'⟩
    | cons b' ds =>
      have :=
        ih (by simp) (fun c hc => hds c (List.mem_cons_of_mem _ hc)) hb (Or.inr rfl) hr' (o + 1)
      rwa [List.length_cons, Nat.add_comm (b' :: ds).length, ← Nat.add_assoc]

/-- A number written out is read back. -/
theorem Begun.number {t t' : TerminalStreamTracker} {state : ParserState} (h : Begun t t' state)
    (hstate : state = .csiEntry ∨ state = .csiParam) {i : List UInt8} {p : List ℕ} {c : ℕ}
    (hr : Registers t' i p c 0 0) {n : ℕ} (hn : n ≤ 65535) (o : ℤ) :
    Begun t (t'.run (decimal n) o) .csiParam
      ∧ ∃ d, 0 < d ∧ Registers (t'.run (decimal n) o) i p c n d := by
  obtain ⟨hb, hr'⟩ := Begun.digits _ (decimal_ne_nil n) (fun b hb => isDigit_of_mem_decimal hb) h
    hstate hr o
  rw [saturate_decimal hn] at hr'
  exact ⟨hb, _, by have := length_decimal_pos n; omega, hr'⟩

/-- A separator ends the parameter before it. -/
theorem Begun.separator {t t' : TerminalStreamTracker} (h : Begun t t' .csiParam) {i : List UInt8}
    {p : List ℕ} {c v d : ℕ} (hr : Registers t' i p c v d) (hp : p.length < maximumParams)
    (colon : Bool) (o : ℤ) :
    Begun t (t'.step (if colon then 0x3A else 0x3B) o) .csiParam
      ∧ Registers (t'.step (if colon then 0x3A else 0x3B) o) i (p ++ [v])
          (if colon then c ||| (1 <<< p.length) else c) 0 0 := by
  set b : UInt8 := if colon then 0x3A else 0x3B with hb
  have hb2 : b = 0x3A ∨ b = 0x3B := by cases colon <;> simp [hb]
  have hb' := h.noted (b := b) (by grind)
  have hr' := hr.noted b
  rw [h.step_eq (by decide) (by grind), sequenceByte, hb'.state]
  dsimp only
  rw [if_neg (by simp only [isExecutedInSequence]; grind), if_pos (by grind),
    TerminalStreamTracker.param, if_pos (by tauto), if_pos (by rw [hr'.params]; exact hp)]
  refine ⟨⟨hb'.terminal, hb'.excisions, hb'.kittyChain, hb'.state, hb'.utf8, hb'.zmodem, hb'.recent,
    hb'.terminatorPending⟩, ⟨hr'.intermediates, ?_, ?_, rfl, rfl, hr'.overflowed⟩⟩
  · dsimp only
    rw [hr'.params, hr'.value]
  · dsimp only
    rw [hr'.params, hr'.colons]
    cases colon <;> simp [hb]

/-- The colons read so far, one more parameter on. -/
theorem mod_two_pow_succ (colons k : ℕ) :
    colons % 2 ^ (k + 1)
      = if colons.testBit k then colons % 2 ^ k ||| (1 <<< k) else colons % 2 ^ k := by
  rw [Nat.one_shiftLeft]
  apply Nat.eq_of_testBit_eq
  intro i
  by_cases hi : k = i
  · subst hi
    split <;> simp_all [Nat.testBit_mod_two_pow]
  · have hlt : i < k + 1 ↔ i < k := by omega
    split <;> simp [Nat.testBit_mod_two_pow, hi, hlt]

/-- The parameters after the first, each behind its separator. -/
theorem Begun.serialized {t : TerminalStreamTracker} {i : List UInt8} (colons : ℕ) :
    ∀ (vs : List ℕ) {t' : TerminalStreamTracker} {p : List ℕ} {u d : ℕ}, Begun t t' .csiParam →
      0 < d → Registers t' i p (colons % 2 ^ p.length) u d →
      p.length + vs.length < maximumParams → (∀ v ∈ vs, v ≤ 65535) → ∀ o : ℤ,
      Begun t (t'.run (serializeFrom colons (p.length + 1) vs) o) .csiParam
        ∧ ∃ p' u' d', 0 < d' ∧ p' ++ [u'] = p ++ u :: vs
          ∧ Registers (t'.run (serializeFrom colons (p.length + 1) vs) o) i p'
              (colons % 2 ^ p'.length) u' d' := by
  intro vs
  induction vs with
  | nil => exact fun h hd hr _ _ o => ⟨h, _, _, _, hd, rfl, hr⟩
  | cons v vs ih =>
    intro t' p u d h hd hr hlen hle o
    rw [List.length_cons] at hlen
    have hsep := h.separator hr (by omega) (colons.testBit p.length) o
    set t₁ := t'.step (if colons.testBit p.length then 0x3A else 0x3B) o with ht₁
    rw [← mod_two_pow_succ] at hsep
    obtain ⟨hb₂, d₂, hd₂, hr₂⟩ := hsep.1.number (Or.inr rfl) hsep.2
      (hle v List.mem_cons_self) (o + 1)
    set t₂ := t₁.run (decimal v) (o + 1)
    have hlen' : (p ++ [u]).length = p.length + 1 := by simp
    rw [← hlen'] at hr₂
    obtain ⟨hb₃, p', u', d', hd', happ, hr₃⟩ := ih hb₂ hd₂ hr₂ (by rw [hlen']; omega)
      (fun w hw => hle w (List.mem_cons_of_mem _ hw)) (o + 1 + (decimal v).length)
    have hrun : t'.run (serializeFrom colons (p.length + 1) (v :: vs)) o
        = t₂.run (serializeFrom colons ((p ++ [u]).length + 1) vs)
          (o + 1 + (decimal v).length) := by
      rw [serializeFrom, if_neg (Nat.succ_ne_zero _), Nat.add_sub_cancel, List.append_assoc,
        List.singleton_append, run_cons, run_append, hlen']
    rw [hrun]
    exact ⟨hb₃, p', u', d', hd', by rw [happ, List.append_assoc, List.singleton_append], hr₃⟩

/-- **Parameters written out are read back**: all of them but the last are in, and the last is being
read. -/
theorem Begun.params {t t' : TerminalStreamTracker} {state : ParserState} (h : Begun t t' state)
    (hstate : state = .csiEntry ∨ state = .csiParam) {i : List UInt8}
    (hr : Registers t' i [] 0 0 0) (colons : ℕ) {params : List ℕ} (hparams : ParamList params)
    (hne : params ≠ []) (o : ℤ) :
    Begun t (t'.run (serializeFrom colons 0 params) o) .csiParam
      ∧ ∃ p u d, 0 < d ∧ p ++ [u] = params
        ∧ Registers (t'.run (serializeFrom colons 0 params) o) i p (colons % 2 ^ p.length) u d := by
  cases params with
  | nil => exact absurd rfl hne
  | cons v vs =>
    obtain ⟨hb, d, hd, hr'⟩ := h.number hstate hr (hparams.le v List.mem_cons_self) o
    have hlen := hparams.length_le
    rw [List.length_cons] at hlen
    have hzero : colons % 2 ^ ([] : List ℕ).length = 0 := by simp [Nat.mod_one]
    rw [← hzero] at hr'
    obtain ⟨hb₂, p', u', d', hd', happ, hr₂⟩ := Begun.serialized colons vs hb hd hr'
      (by rw [List.length_nil]; omega) (fun w hw => hparams.le w (List.mem_cons_of_mem _ hw))
      (o + (decimal v).length)
    have hrun : t'.run (serializeFrom colons 0 (v :: vs)) o
        = (t'.run (decimal v) o).run (serializeFrom colons (([] : List ℕ).length + 1) vs)
            (o + (decimal v).length) := by
      rw [serializeFrom, if_pos rfl, List.nil_append, run_append]
      rfl
    rw [hrun]
    exact ⟨hb₂, p', u', d', hd', happ, hr₂⟩

/-- The private marker, first behind the `[`. -/
theorem Begun.marker {t t' : TerminalStreamTracker} (h : Begun t t' .csiEntry)
    (hr : Registers t' [] [] 0 0 0) {b : UInt8} (hlo : 0x3C ≤ b) (hhi : b ≤ 0x3F) (o : ℤ) :
    Begun t (t'.step b o) .csiParam ∧ Registers (t'.step b o) [b] [] 0 0 0 := by
  have hb' := h.noted (b := b) (by grind)
  have hr' := hr.noted b
  rw [h.step_eq (by decide) (by grind), sequenceByte, hb'.state]
  dsimp only
  rw [if_neg (by simp only [isExecutedInSequence]; grind), if_neg (by grind), if_neg (by grind),
    if_neg (by grind), if_neg (by grind), if_neg (by grind), if_pos ⟨hlo, hhi⟩, collect,
    if_pos (by simp [hr'.intermediates, maximumIntermediates])]
  exact ⟨⟨hb'.terminal, hb'.excisions, hb'.kittyChain, rfl, hb'.utf8, hb'.zmodem, hb'.recent,
    hb'.terminatorPending⟩, ⟨by simp [hr'.intermediates], hr'.params, hr'.colons, hr'.value,
    hr'.digits, hr'.overflowed⟩⟩

/-- An intermediate behind the parameters. -/
theorem Begun.intermediate {t t' : TerminalStreamTracker} {state : ParserState}
    (h : Begun t t' state) (hstate : state = .csiEntry ∨ state = .csiParam) {i : List UInt8}
    {p : List ℕ} {c v d : ℕ} (hr : Registers t' i p c v d) (hi : i.length < maximumIntermediates)
    {b : UInt8} (hlo : 0x20 ≤ b) (hhi : b ≤ 0x2F) (o : ℤ) :
    Begun t (t'.step b o) .csiIntermediate ∧ Registers (t'.step b o) (i ++ [b]) p c v d := by
  have hb' := h.noted (b := b) (by grind)
  have hr' := hr.noted b
  have hexecuted : isExecutedInSequence b = false := by
    simp only [isExecutedInSequence]
    grind
  have hcollect : (t'.noted b).collect b
      = { t'.noted b with intermediates := i ++ [b] } := by
    rw [collect, if_pos (by rw [hr'.intermediates]; exact hi), hr'.intermediates]
  rw [h.step_eq (by rcases hstate with rfl | rfl <;> decide) (by grind), sequenceByte, hb'.state]
  rcases hstate with rfl | rfl
  all_goals
    simp only [hexecuted, Bool.false_eq_true, if_false]
  · rw [if_neg (by grind), if_neg (by grind), if_neg (by grind), if_pos ⟨hlo, hhi⟩, hcollect]
    exact ⟨⟨hb'.terminal, hb'.excisions, hb'.kittyChain, rfl, hb'.utf8, hb'.zmodem, hb'.recent,
      hb'.terminatorPending⟩, ⟨rfl, hr'.params, hr'.colons, hr'.value, hr'.digits, hr'.overflowed⟩⟩
  · rw [if_neg (by grind), if_neg (by grind), if_neg (by grind), if_neg (by grind),
      if_pos ⟨hlo, hhi⟩, hcollect]
    exact ⟨⟨hb'.terminal, hb'.excisions, hb'.kittyChain, rfl, hb'.utf8, hb'.zmodem, hb'.recent,
      hb'.terminatorPending⟩, ⟨rfl, hr'.params, hr'.colons, hr'.value, hr'.digits, hr'.overflowed⟩⟩

/-- What a dispatch hands to its sequence: the parser back in ground, nothing else changed. -/
structure Dispatched (t t' : TerminalStreamTracker) (intermediates : List UInt8) (params : List ℕ)
    (colons : ℕ) : Prop extends Begun t t' .ground where
  intermediates : t'.intermediates = intermediates
  params : t'.params = params
  colons : t'.colons = colons

/-- The final byte dispatches. -/
theorem Begun.final {t t' : TerminalStreamTracker} {state : ParserState} (h : Begun t t' state)
    (hstate : state = .csiEntry ∨ state = .csiParam ∨ state = .csiIntermediate) {i : List UInt8}
    {p : List ℕ} {c v d : ℕ} (hr : Registers t' i p c v d) (hp : p.length < maximumParams)
    {b : UInt8} (hlo : 0x40 ≤ b) (hhi : b ≤ 0x7E) (hcolons : b = 0x6D ∨ c = 0) (o : ℤ) :
    ∃ t'', t'.step b o = t''.csiApply b o
      ∧ Dispatched t t'' i (if 0 < d then p ++ [v] else p) c := by
  have hb' := h.noted (b := b) (by grind)
  have hr' := hr.noted b
  have hexecuted : isExecutedInSequence b = false := by
    simp only [isExecutedInSequence]
    grind
  have hstep : t'.step b o
      = ({ t'.noted b with state := .ground } : TerminalStreamTracker).csiDispatch b o := by
    rw [h.step_eq (by rcases hstate with rfl | rfl | rfl <;> decide) (by grind), sequenceByte,
      hb'.state]
    rcases hstate with rfl | rfl | rfl
    all_goals
      simp only [hexecuted, Bool.false_eq_true, if_false]
    · rw [if_neg (by grind), if_pos ⟨hlo, hhi⟩]
    · rw [if_neg (by grind), if_neg (by grind), if_pos ⟨hlo, hhi⟩]
    · rw [if_neg (by grind), if_neg (by grind), if_pos ⟨hlo, hhi⟩]
  have hroom : ¬ ((t'.noted b).paramsOverflowed = true
      ∨ maximumParams ≤ (t'.noted b).params.length) := by
    rw [hr'.overflowed, hr'.params]
    simp only [Bool.false_eq_true, false_or, not_le]
    exact hp
  rw [hstep, csiDispatch]
  dsimp only
  rw [if_neg hroom, hr'.digits, hr'.params, hr'.value]
  split
  all_goals
    dsimp only
    rw [if_neg (by rw [hr'.colons]; tauto)]
    exact ⟨_, rfl, ⟨hb'.terminal, hb'.excisions, hb'.kittyChain, rfl, hb'.utf8, hb'.zmodem,
      hb'.recent, rfl⟩, hr'.intermediates, rfl, hr'.colons⟩

/-- A dispatch that changes the terminal by `f` writes `f`. -/
theorem Dispatched.wrote {t t' : TerminalStreamTracker} {i : List UInt8} {p : List ℕ} {c : ℕ}
    (h : Dispatched t t' i p c) (f : TerminalReplayState → TerminalReplayState) :
    Wrote f t (t'.mapTerminal f) :=
  ⟨⟨h.state, h.utf8, h.zmodem⟩, congrArg f h.terminal, h.excisions, h.kittyChain⟩

/-- What stands behind the `[`, read. -/
theorem Begun.csi {t t₁ : TerminalStreamTracker} (hb : Begun t t₁ .csiEntry)
    (hr : Registers t₁ [] [] 0 0 0) (marker : Option UInt8) (colons : ℕ) (params : List ℕ)
    (intermediate : Option UInt8) (final : UInt8) {f : TerminalReplayState → TerminalReplayState}
    (hmarker : ∀ b ∈ marker, 0x3C ≤ b ∧ b ≤ 0x3F) (hparams : ParamList params)
    (hintermediate : ∀ b ∈ intermediate, 0x20 ≤ b ∧ b ≤ 0x2F)
    (hfinal : 0x40 ≤ final ∧ final ≤ 0x7E) (hcolons : final = 0x6D ∨ colons = 0)
    (happly : ∀ (t : TerminalStreamTracker) (o : ℤ),
      t.intermediates = marker.toList ++ intermediate.toList → t.params = params →
      t.colons = colons % 2 ^ (params.length - 1) → t.csiApply final o = t.mapTerminal f) (o₁ : ℤ) :
    Wrote f t (t₁.run
      (marker.toList ++ serializeFrom colons 0 params ++ intermediate.toList ++ [final]) o₁) := by
  -- The marker.
  have hmarked : ∃ state, (state = .csiEntry ∨ state = .csiParam) ∧
      Begun t (t₁.run marker.toList o₁) state ∧
      Registers (t₁.run marker.toList o₁) marker.toList [] 0 0 0 := by
    cases marker with
    | none => exact ⟨.csiEntry, Or.inl rfl, hb, hr⟩
    | some b =>
      obtain ⟨hlo, hhi⟩ := hmarker b rfl
      obtain ⟨hb', hr'⟩ := hb.marker hr hlo hhi o₁
      exact ⟨.csiParam, Or.inr rfl, hb', hr'⟩
  obtain ⟨state, hstate, hb, hr⟩ := hmarked
  rw [List.append_assoc, List.append_assoc, run_append]
  generalize t₁.run marker.toList o₁ = t₂ at hb hr
  generalize (o₁ + (marker.toList.length : ℤ)) = o₂
  -- The parameters, the last one still being read.
  have hread : ∃ state p c u d, (state = .csiEntry ∨ state = .csiParam) ∧
      Begun t (t₂.run (serializeFrom colons 0 params) o₂) state ∧
      Registers (t₂.run (serializeFrom colons 0 params) o₂) marker.toList p c u d ∧
      (if 0 < d then p ++ [u] else p) = params ∧ p.length < maximumParams ∧
      c = colons % 2 ^ (params.length - 1) := by
    by_cases hne : params = []
    · subst hne
      refine ⟨state, [], 0, 0, 0, hstate, hb, hr, rfl, by decide, ?_⟩
      simp [Nat.mod_one]
    · obtain ⟨hb', p, u, d, hd, happ, hr'⟩ := hb.params hstate hr colons hparams hne o₂
      have hlen : p.length + 1 = params.length := by rw [← happ]; simp
      have hle := hparams.length_le
      refine ⟨.csiParam, p, _, u, d, Or.inr rfl, hb', hr', by rw [if_pos hd, happ], by omega, ?_⟩
      rw [← hlen, Nat.add_sub_cancel]
  obtain ⟨state, p, c, u, d, hstate, hb, hr, hp, hroom, hc⟩ := hread
  rw [run_append]
  generalize t₂.run (serializeFrom colons 0 params) o₂ = t₃ at hb hr
  generalize (o₂ + ((serializeFrom colons 0 params).length : ℤ)) = o₃
  -- The intermediate, and the final byte.
  have hcollected : ∃ state, (state = .csiEntry ∨ state = .csiParam ∨ state = .csiIntermediate) ∧
      Begun t (t₃.run intermediate.toList o₃) state ∧
      Registers (t₃.run intermediate.toList o₃) (marker.toList ++ intermediate.toList) p c u d := by
    cases intermediate with
    | none => exact ⟨state, hstate.imp_right Or.inl, hb, by simpa using hr⟩
    | some b =>
      obtain ⟨hlo, hhi⟩ := hintermediate b rfl
      have hi : marker.toList.length < maximumIntermediates := by
        cases marker <;> simp [maximumIntermediates]
      obtain ⟨hb', hr'⟩ := hb.intermediate hstate hr hi hlo hhi o₃
      exact ⟨.csiIntermediate, by simp, hb', hr'⟩
  obtain ⟨state, hstate, hb, hr⟩ := hcollected
  rw [run_append]
  generalize t₃.run intermediate.toList o₃ = t₄ at hb hr
  generalize (o₃ + (intermediate.toList.length : ℤ)) = o₄
  have hc' : final = 0x6D ∨ c = 0 := hcolons.imp_right fun h => by rw [hc, h, Nat.zero_mod]
  obtain ⟨t₅, hstep, hd⟩ := hb.final hstate hr hroom hfinal.1 hfinal.2 hc' o₄
  rw [hp] at hd
  rw [run_cons, run_nil, hstep, happly t₅ o₄ hd.intermediates hd.params (hd.colons.trans hc)]
  exact hd.wrote f

/-- **A control sequence writes what its dispatch does.** -/
theorem writes_csi (marker : Option UInt8) (colons : ℕ) (params : List ℕ)
    (intermediate : Option UInt8) (final : UInt8) {f : TerminalReplayState → TerminalReplayState}
    (hmarker : ∀ b ∈ marker, 0x3C ≤ b ∧ b ≤ 0x3F) (hparams : ParamList params)
    (hintermediate : ∀ b ∈ intermediate, 0x20 ≤ b ∧ b ≤ 0x2F)
    (hfinal : 0x40 ≤ final ∧ final ≤ 0x7E) (hcolons : final = 0x6D ∨ colons = 0)
    (happly : ∀ (t : TerminalStreamTracker) (o : ℤ),
      t.intermediates = marker.toList ++ intermediate.toList → t.params = params →
      t.colons = colons % 2 ^ (params.length - 1) → t.csiApply final o = t.mapTerminal f) :
    Writes (csi (marker.toList ++ serializeFrom colons 0 params ++ intermediate.toList ++ [final]))
      f := by
  intro t o hrest
  obtain ⟨hescape, hcleared⟩ := begun_escape hrest o
  obtain ⟨hb, hr⟩ := hescape.bracket hcleared (o + 1)
  rw [csi, List.cons_append, List.cons_append, List.nil_append, run_cons, run_cons]
  exact hb.csi hr marker colons params intermediate final hmarker hparams hintermediate hfinal
    hcolons happly _

/-! ## Escape sequences -/

/-- **A two-byte escape sequence writes what its dispatch does.** -/
theorem writes_escape {final : UInt8} {f : TerminalReplayState → TerminalReplayState}
    (hfinal : final = 0x37 ∨ final = 0x6E ∨ final = 0x6F ∨ final = 0x7C ∨ final = 0x7D ∨
    final = 0x7E)
    (hdispatch : ∀ (t : TerminalStreamTracker) (o : ℤ), t.intermediates = [] →
      t.terminatorPending = false → t.escapeDispatch final o = t.mapTerminal f) :
    Writes [0x1B, final] f := by
  intro t o hrest
  obtain ⟨hb, hr⟩ := begun_escape hrest o
  rw [run_cons, run_cons, run_nil]
  generalize t.step 0x1B o = t₁ at hb hr
  have hb' := hb.noted (b := final) (by grind)
  have hr' := hr.noted final
  rw [hb.step_eq (by decide) (by grind), sequenceByte, hb'.state]
  dsimp only
  rw [if_neg (by simp only [isExecutedInSequence]; grind), if_neg (by grind), if_neg (by grind),
    if_neg (by grind), if_neg (by grind), if_neg (by grind), if_neg (by grind), if_pos (by grind),
    hdispatch { t₁.noted final with state := .ground } _ hr'.intermediates hb'.terminatorPending]
  exact ⟨⟨rfl, hb'.utf8, hb'.zmodem⟩, congrArg f hb'.terminal, hb'.excisions, hb'.kittyChain⟩

/-- **A designation writes its slot.** -/
theorem writes_designation {slot : Fin 4} {final : UInt8}
    (hfinal : final = 0x42 ∨ final = 0x41 ∨ final = 0x30) :
    Writes [0x1B, slotIntermediate slot, final] fun s => s.designateCharset slot final := by
  intro t o hrest
  obtain ⟨hb, hr⟩ := begun_escape hrest o
  rw [run_cons, run_cons, run_cons, run_nil]
  generalize t.step 0x1B o = t₁ at hb hr
  set i := slotIntermediate slot with hi
  have hrange : 0x28 ≤ i ∧ i ≤ 0x2B := by fin_cases slot <;> decide
  have hslot : charsetSlot i = some slot := by fin_cases slot <;> decide
  have hb₁ := hb.noted (b := i) (by grind)
  have hr₁ := hr.noted i
  -- The intermediate is collected.
  have hstep : t₁.step i (o + 1)
      = { t₁.noted i with intermediates := [i], state := .escapeIntermediate } := by
    rw [hb.step_eq (by decide) (by grind), sequenceByte, hb₁.state]
    dsimp only
    rw [if_neg (by simp only [isExecutedInSequence]; grind), if_neg (by grind), if_pos (by grind),
      collect, if_pos (by simp [hr₁.intermediates, maximumIntermediates]), hr₁.intermediates]
    rfl
  have hb₂ : Begun t (t₁.step i (o + 1)) .escapeIntermediate := by
    rw [hstep]
    exact ⟨hb₁.terminal, hb₁.excisions, hb₁.kittyChain, rfl, hb₁.utf8, hb₁.zmodem, hb₁.recent,
      hb₁.terminatorPending⟩
  have hi₂ : (t₁.step i (o + 1)).intermediates = [i] := by rw [hstep]
  generalize t₁.step i (o + 1) = t₂ at hb₂ hi₂
  have hb₃ := hb₂.noted (b := final) (by grind)
  rw [hb₂.step_eq (by decide) (by grind), sequenceByte, hb₃.state]
  dsimp only
  rw [if_neg (by simp only [isExecutedInSequence]; grind), if_neg (by grind), if_neg (by grind),
    if_pos (by grind), escapeDispatch, if_neg (by grind)]
  have hi₃ : (t₂.noted final).intermediates = [i] := hi₂
  dsimp only
  rw [hi₃]
  dsimp only
  rw [hslot]
  dsimp only
  rw [if_pos hfinal]
  exact ⟨⟨rfl, hb₃.utf8, hb₃.zmodem⟩,
    congrArg (fun s => s.designateCharset slot final) hb₃.terminal, hb₃.excisions, hb₃.kittyChain⟩

/-- **SO and SI write `GL`.** -/
theorem writes_shift {b : UInt8} {gl : ℕ} (h : b = 0x0E ∧ gl = 1 ∨ b = 0x0F ∧ gl = 0) :
    Writes [b] fun s => s.invokeCharset (some gl) none := by
  intro t o hrest
  rw [run_cons, run_nil, step_of_ne_header hrest.zmodem (Or.inl (by grind)), if_pos hrest.state,
    ground, if_neg (by simp [hrest.utf8]), groundByte, if_neg (by grind), if_neg (by grind),
    if_pos (by grind), execute, if_neg (by grind)]
  rcases h with ⟨rfl, rfl⟩ | ⟨rfl, rfl⟩
  · rw [if_pos rfl]
    exact ⟨⟨hrest.state, hrest.utf8, hrest.zmodem⟩, rfl, rfl, rfl⟩
  · rw [if_neg (by decide), if_pos rfl]
    exact ⟨⟨hrest.state, hrest.utf8, hrest.zmodem⟩, rfl, rfl, rfl⟩

/-! ## Operating system commands -/

/-- What a whole OSC does, and whether a replay leaves it out. -/
def oscEffect (body : List UInt8) (s : TerminalReplayState) : TerminalReplayState × Bool :=
  let (number, rest) := oscNumber 0 body
  if rest.length = body.length then (s, false)
  else
    applyOSC s number (rest.head? == some 0x3B)
      (if rest.head? == some 0x3B then rest.tail else []) true

theorem finishOSC_eq (t : TerminalStreamTracker) (h : t.payloadOverflowed = false) :
    t.finishOSC .terminated
      = ({ t with terminal := (oscEffect t.payload t.terminal).1 },
          (oscEffect t.payload t.terminal).2) := by
  rw [finishOSC, if_neg (by simp)]
  dsimp only [oscEffect]
  by_cases hnone : (oscNumber 0 t.payload).2.length = t.payload.length
  · rw [if_pos hnone, if_pos hnone]
  · rw [if_neg hnone, if_neg hnone, h]
    rfl

/-- The payload so far. -/
structure Payload (t : TerminalStreamTracker) (payload : List UInt8) : Prop where
  payload : t.payload = payload
  overflowed : t.payloadOverflowed = false

/-- A printable payload is read whole. -/
theorem Begun.payload {t : TerminalStreamTracker} :
    ∀ (body : List UInt8) {t' : TerminalStreamTracker} {before : List UInt8},
      Begun t t' .oscString → Payload t' before → Printable body →
      before.length + body.length ≤ maximumPayload → ∀ o : ℤ,
      Begun t (t'.run body o) .oscString ∧ Payload (t'.run body o) (before ++ body) := by
  intro body
  induction body with
  | nil => exact fun hb hp _ _ _ => ⟨hb, by simpa using hp⟩
  | cons b body ih =>
    intro t' before hb hp hprint hlen o
    have hlo : 0x20 ≤ b := hprint b List.mem_cons_self
    rw [List.length_cons] at hlen
    have hb' := hb.noted (b := b) (by grind)
    have hstep : t'.step b o = { t'.noted b with payload := before ++ [b] } := by
      rw [hb.step_eq (by decide) (by grind), sequenceByte, hb'.state]
      dsimp only
      have hpayload : (t'.noted b).payload = before := hp.payload
      rw [if_neg (by grind), if_pos hlo, appendPayload, hpayload, if_pos (by omega)]
    have hnext := @ih (t'.step b o) (before ++ [b])
      (by
        rw [hstep]
        exact ⟨hb'.terminal, hb'.excisions, hb'.kittyChain, hb'.state, hb'.utf8, hb'.zmodem,
          hb'.recent, hb'.terminatorPending⟩)
      (by rw [hstep]; exact ⟨rfl, hp.overflowed⟩)
      (fun c hc => hprint c (List.mem_cons_of_mem _ hc))
      (by rw [List.length_append, List.length_singleton]; omega) (o + 1)
    rwa [List.append_assoc, List.singleton_append] at hnext

/-- The ESC of the terminator: the OSC takes effect, and an escape sequence begins. -/
theorem Begun.finishOSC {t t' : TerminalStreamTracker} (h : Begun t t' .oscString)
    {body : List UInt8} (hp : Payload t' body) (hkept : (oscEffect body t.terminal).2 = false)
    (o : ℤ) :
    Begun { t with terminal := (oscEffect body t.terminal).1 } (t'.step 0x1B o) .escape
      ∧ (t'.step 0x1B o).intermediates = [] := by
  set r := pushRecent t'.recent 0x1B with hr
  set t₁ : TerminalStreamTracker :=
    { t' with recent := r, terminatorPending := false } with ht₁
  have hfinish : t₁.finishString .terminated
      = ({ t₁ with terminal := (oscEffect body t.terminal).1 }, false) := by
    have hstate : t₁.state = .oscString := h.state
    have hpayload : t₁.payload = body := hp.payload
    have hterminal : t₁.terminal = t.terminal := h.terminal
    have heffect : oscEffect t₁.payload t₁.terminal = oscEffect body t.terminal := by
      rw [hpayload, hterminal]
    have hstring : t₁.finishString .terminated = t₁.finishOSC .terminated := by
      rw [finishString, hstate]
    rw [hstring, finishOSC_eq t₁ hp.overflowed, heffect, hkept]
  have hstep : t'.step 0x1B o = ({ t₁ with
      terminal := (oscEffect body t.terminal).1
      sequenceStandIn := [0x1B, 0x5C] } : TerminalStreamTracker).beginSequence .escape o := by
    rw [step_of_ne_header h.zmodem (Or.inl (by decide)), if_neg (by rw [h.state]; decide), sequence,
      if_pos (by decide), anywhere, if_neg (by decide), if_neg (by decide), if_neg (by decide),
      if_pos rfl, leave]
    have hstring : isString t'.state = true := by rw [h.state]; rfl
    dsimp only
    rw [← hr, ← ht₁, hfinish, hstring]
    rfl
  rw [hstep]
  exact ⟨⟨rfl, h.excisions, h.kittyChain, rfl, h.utf8, h.zmodem,
    by simp [beginSequence, clear, ht₁, hr, pushRecent], rfl⟩, rfl⟩

/-- `]` after the ESC. -/
theorem begun_osc {t : TerminalStreamTracker} (h : AtRest t) (o : ℤ) :
    Begun t (t.run [0x1B, 0x5D] o) .oscString ∧ Payload (t.run [0x1B, 0x5D] o) [] := by
  obtain ⟨hb, -⟩ := begun_escape h o
  have hb' := hb.noted (b := 0x5D) (by decide)
  rw [run_cons, run_cons, run_nil, hb.step_eq (by decide) (by decide), sequenceByte, hb'.state]
  simp only [isExecutedInSequence]
  exact ⟨⟨hb'.terminal, hb'.excisions, hb'.kittyChain, rfl, hb'.utf8, hb'.zmodem, hb'.recent,
    hb'.terminatorPending⟩, ⟨rfl, rfl⟩⟩

/-- A backslash after the ESC, with nothing left out pending. -/
theorem Begun.terminator {t t' : TerminalStreamTracker} (h : Begun t t' .escape)
    (hi : t'.intermediates = []) (o : ℤ) : Wrote id t (t'.step 0x5C o) := by
  have hb := h.noted (b := 0x5C) (by decide)
  have hi' : (t'.noted 0x5C).intermediates = [] := hi
  have hpending : (t'.noted 0x5C).terminatorPending = false := hb.terminatorPending
  rw [h.step_eq (by decide) (by decide), sequenceByte, hb.state]
  change Wrote id t
    (({ t'.noted 0x5C with state := .ground } : TerminalStreamTracker).escapeDispatch
    0x5C o)
  rw [escapeDispatch, if_pos ⟨rfl, hi'⟩, stringTerminator]
  dsimp only
  rw [hpending]
  exact ⟨⟨rfl, hb.utf8, hb.zmodem⟩, hb.terminal, hb.excisions, hb.kittyChain⟩

/-- **An OSC writes its effect**, when it is not one a replay leaves out. -/
theorem writes_osc {body : List UInt8} (hprint : Printable body)
    (hlen : body.length ≤ maximumPayload) (hkept : ∀ s, (oscEffect body s).2 = false) :
    Writes (osc body) fun s => (oscEffect body s).1 := by
  intro t o hrest
  obtain ⟨hb, hp⟩ := begun_osc hrest o
  obtain ⟨hb, hp⟩ := hb.payload body hp hprint (by simpa using hlen) (o + 2)
  rw [List.nil_append] at hp
  obtain ⟨hb, hi⟩ := hb.finishOSC hp (hkept t.terminal) (o + 2 + body.length)
  have hend := hb.terminator hi (o + 2 + body.length + 1)
  have hrun : t.run (osc body) o = ((((t.run [0x1B, 0x5D] o).run body (o + 2)).step 0x1B
      (o + 2 + body.length)).step 0x5C (o + 2 + body.length + 1)) := by
    rw [osc, List.append_assoc, run_append, run_append, run_cons _ 0x1B [0x5C]]
    rfl
  rw [hrun]
  exact ⟨hend.rest, hend.terminal, hend.excisions, hend.kittyChain⟩

end TerminalStreamTracker
