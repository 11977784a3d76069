import IGhostVT.Session.ParserPosition

/-!
# Session/ReadsAlike — two trackers that read on alike

What a tracker has recorded, and what earlier sequences left in registers that the next one clears,
is nothing to what it makes of the bytes that follow.  `Alike P x` leaves all of that out: both
stand at the same place, on the same terminal if `P`, and the bytes `x` complete a ZMODEM header
behind both or behind neither.  Every byte of `x` keeps it (`Alike.step`, `Alike.run`).
-/

namespace TerminalStreamTracker

open TerminalReplayState

/-! ## What was read before

The last eight bytes matter to a header only, and only as far as what follows completes it. -/

/-- The bytes of `x` complete `pattern` behind `a` where they do so behind `b`. -/
def SameSeen (pattern x a b : List UInt8) : Prop :=
  ∀ y, y <+: x → y ≠ [] →
    ((y.reverse ++ b).take pattern.length = pattern ↔
      (y.reverse ++ a).take pattern.length = pattern)

/-- The same bytes complete the same patterns. -/
theorem SameSeen.refl (pattern x a : List UInt8) : SameSeen pattern x a a := fun _ _ _ => Iff.rfl

/-- Of eight bytes the oldest goes, and no pattern is longer. -/
theorem take_append_pushRecent (l a : List UInt8) (byte : UInt8) {n : ℕ} (hn : n ≤ 8) :
    (l ++ pushRecent a byte).take n = (l ++ byte :: a).take n := by
  rw [pushRecent, List.take_append, List.take_append]
  congr 1
  obtain hzero | ⟨k, hk⟩ : n - l.length = 0 ∨ ∃ k, n - l.length = k + 1 := by
    cases n - l.length
    exacts [.inl rfl, .inr ⟨_, rfl⟩]
  · rw [hzero]
    rfl
  · rw [hk, List.take_succ_cons, List.take_succ_cons, List.take_take, min_eq_left (by omega)]

variable {pattern x a b : List UInt8} {byte : UInt8}

/-- The next byte completes it behind both or behind neither. -/
theorem SameSeen.head (h : SameSeen pattern (byte :: x) a b) (hlength : pattern.length ≤ 8) :
    (pushRecent b byte).take pattern.length = pattern ↔
      (pushRecent a byte).take pattern.length = pattern := by
  have hone := h [byte] ⟨x, rfl⟩ (List.cons_ne_nil _ _)
  have hb := take_append_pushRecent [] b byte hlength
  have ha := take_append_pushRecent [] a byte hlength
  rw [List.nil_append, List.nil_append] at ha hb
  rw [ha, hb]
  exact hone

/-- And so with those behind it. -/
theorem SameSeen.tail (h : SameSeen pattern (byte :: x) a b) (hlength : pattern.length ≤ 8) :
    SameSeen pattern x (pushRecent a byte) (pushRecent b byte) := by
  intro y hy hne
  have hlonger := h (byte :: y) (List.cons_prefix_cons.mpr ⟨rfl, hy⟩) (List.cons_ne_nil _ _)
  rw [List.reverse_cons, List.append_assoc, List.append_assoc] at hlonger
  rw [take_append_pushRecent _ _ _ hlength, take_append_pushRecent _ _ _ hlength]
  exact hlonger

/-- A hex header of a ZFIN, newest byte first. -/
def zmodemFinish : List UInt8 := [0x38, 0x30, 0x42, 0x18, 0x2A, 0x2A]

/-- Behind a whole header a ZFIN is the same two bytes. -/
theorem sameSeen_finish (ha : a.take 4 = zmodemHeader) (hb : b.take 4 = zmodemHeader) :
    SameSeen zmodemFinish x a b := by
  intro y _ hne
  have hsplit : ∀ c : List UInt8, c.take 4 = zmodemHeader →
      ((y.reverse ++ c).take 6 = zmodemFinish ↔
        (y.reverse ++ zmodemHeader).take 6 = zmodemFinish) := by
    intro c hc
    rw [← List.take_append_drop 4 c, hc, ← List.append_assoc]
    have hlast : y.reverse ≠ [] := mt List.reverse_eq_nil_iff.mp hne
    cases hy : y.reverse with
    | nil => exact absurd hy hlast
    | cons newest older =>
      cases older with
      | nil => simp [zmodemFinish, zmodemHeader]
      | cons second older =>
        rw [List.take_append_of_le_length (by simp [zmodemHeader])]
  exact (hsplit b hb).trans (hsplit a ha).symm

/-! ## The relation

Registers are compared in the states that read them, and a payload in the one state that acts
on it. -/

/-- The states of a sequence that can still be one of those that are acted on. -/
def readsRegisters : ParserState → Bool
  | .escape | .escapeIntermediate | .csiEntry | .csiParam | .csiIntermediate => true
  | _ => false

/-- The registers of a sequence are the same. -/
structure SameRegisters (t f : TerminalStreamTracker) : Prop where
  intermediates : f.intermediates = t.intermediates
  params : f.params = t.params
  colons : f.colons = t.colons
  paramValue : f.paramValue = t.paramValue
  paramDigits : f.paramDigits = t.paramDigits
  paramsOverflowed : f.paramsOverflowed = t.paramsOverflowed

/-- They are at the same character, the same conversation, and given `P` on the same terminal. -/
structure Beside (P : Prop) (x : List UInt8) (t f : TerminalStreamTracker) : Prop where
  terminal : P → f.terminal = t.terminal
  remaining : f.utf8Remaining = t.utf8Remaining
  lower : f.utf8Lower = t.utf8Lower
  upper : f.utf8Upper = t.utf8Upper
  zmodem : f.zmodem = t.zmodem
  progress : t.zmodem ≠ .idle → f.promptMarkProgress = t.promptMarkProgress
  headers : SameSeen zmodemHeader x t.recent f.recent
  finishes : t.zmodem ≠ .idle → SameSeen zmodemFinish x t.recent f.recent

/-- **`f` stands where `t` does**, and makes of `x` what `t` makes of it. -/
structure Alike (P : Prop) (x : List UInt8) (t f : TerminalStreamTracker) : Prop
    extends Beside P x t f where
  state : f.state = t.state
  registers : readsRegisters t.state → SameRegisters t f
  payload : t.state = .oscString →
    f.payload = t.payload ∧ f.payloadOverflowed = t.payloadOverflowed

variable {P : Prop} {t f t' f' : TerminalStreamTracker} {o o' : ℤ}

/-- A tracker reads on as itself. -/
theorem Alike.refl (t : TerminalStreamTracker) : Alike P x t t :=
  ⟨⟨fun _ => rfl, rfl, rfl, rfl, rfl, fun _ => rfl, .refl _ _ _, fun _ => .refl _ _ _⟩, rfl,
    fun _ => ⟨rfl, rfl, rfl, rfl, rfl, rfl⟩, fun _ => ⟨rfl, rfl⟩⟩

/-- Both branches of both trackers. -/
theorem alike_ite {c : Prop} [Decidable c] {u v u' v' : TerminalStreamTracker}
    (hu : c → Alike P x u u') (hv : ¬ c → Alike P x v v') :
    Alike P x (if c then u else v) (if c then u' else v') := by
  split
  exacts [hu ‹_›, hv ‹_›]

/-- A state that reads no registers needs none. -/
theorem not_readsRegisters {state : ParserState} (h : ¬ readsRegisters state)
    (heq : t.state = state) : readsRegisters t.state → SameRegisters t f :=
  fun hreads => absurd (heq ▸ hreads) h

/-- What leaves the parser alone leaves it alike. -/
theorem Alike.of_sameParser (h : Alike P x t f) (ht : SameParser t t') (hf : SameParser f f')
    (hterminal : P → f'.terminal = t'.terminal)
    (hparams : readsRegisters t.state → f'.params = t'.params) : Alike P x t' f' := by
  rw [SameParser] at ht hf
  rw [ht, hf]
  exact ⟨⟨hterminal, h.remaining, h.lower, h.upper, h.zmodem, h.progress, h.headers, h.finishes⟩,
    h.state, fun hs => { h.registers hs with params := hparams hs }, h.payload⟩

/-! ## Controls and sequences -/

theorem params_execute (t : TerminalStreamTracker) (byte : UInt8) (o : ℤ) :
    (t.execute byte o).params = t.params := by
  rw [execute, excise]
  split_ifs <;> rfl

/-- One change of the terminal. -/
theorem terminal_mapTerminal (h : f.terminal = t.terminal)
    (g : TerminalReplayState → TerminalReplayState) :
    (f.mapTerminal g).terminal = (t.mapTerminal g).terminal := congrArg g h

/-- An excision is none. -/
theorem terminal_excise (h : f.terminal = t.terminal) (lower upper lower' upper' : ℤ) :
    (f.excise lower' upper').terminal = (t.excise lower upper).terminal := by
  rw [excise_terminal, excise_terminal, h]

/-- The same terminal in both branches. -/
theorem terminal_ite {c : Prop} [Decidable c] {u v u' v' : TerminalStreamTracker}
    (hu : c → u'.terminal = u.terminal) (hv : ¬ c → v'.terminal = v.terminal) :
    (if c then u' else v').terminal = (if c then u else v).terminal := by
  split
  exacts [hu ‹_›, hv ‹_›]

theorem terminal_execute (h : f.terminal = t.terminal) (byte : UInt8) (o o' : ℤ) :
    (f.execute byte o').terminal = (t.execute byte o).terminal := by
  unfold TerminalStreamTracker.execute
  refine terminal_ite (fun _ => terminal_excise h _ _ _ _) fun _ => ?_
  refine terminal_ite (fun _ => terminal_mapTerminal h _) fun _ => ?_
  exact terminal_ite (fun _ => terminal_mapTerminal h _) fun _ => h

/-- A control is executed in both. -/
theorem Alike.execute (h : Alike P x t f) (byte : UInt8) (o o' : ℤ) :
    Alike P x (t.execute byte o) (f.execute byte o') :=
  h.of_sameParser (sameParser_execute byte o) (sameParser_execute byte o')
    (fun hp => terminal_execute (h.terminal hp) byte o o') fun hs => by
      rw [params_execute, params_execute, (h.registers hs).params]

theorem terminal_escapeDispatch (hterminal : f.terminal = t.terminal)
    (hintermediates : f.intermediates = t.intermediates) (final : UInt8) (o o' : ℤ) :
    (f.escapeDispatch final o').terminal = (t.escapeDispatch final o).terminal := by
  unfold TerminalStreamTracker.escapeDispatch
  dsimp only
  rw [hintermediates]
  by_cases hst : final = 0x5C ∧ t.intermediates = []
  · rw [if_pos hst, if_pos hst]
    exact hterminal
  rw [if_neg hst, if_neg hst]
  have hmapped : ∀ {u v : TerminalStreamTracker} {g : TerminalReplayState → TerminalReplayState},
      u.terminal = t.terminal → v.terminal = f.terminal →
        (v.mapTerminal g).terminal = (u.mapTerminal g).terminal :=
    fun hu hv => terminal_mapTerminal (hv.trans (hterminal.trans hu.symm)) _
  rcases t.intermediates with _ | ⟨intermediate, _ | ⟨_, _⟩⟩
  · iterate 4 refine terminal_ite (fun _ => hmapped rfl rfl) fun _ => ?_
    refine terminal_ite (fun _ => ?_) fun _ => ?_
    · rw [excise_terminal, excise_terminal]
      exact hterminal
    iterate 6 refine terminal_ite (fun _ => hmapped rfl rfl) fun _ => ?_
    exact hterminal
  · dsimp only
    cases charsetSlot intermediate with
    | none => exact hterminal
    | some slot => exact terminal_ite (fun _ => hmapped rfl rfl) fun _ => hterminal
  · exact hterminal

theorem terminal_csiApply (hterminal : f.terminal = t.terminal)
    (hintermediates : f.intermediates = t.intermediates) (hparams : f.params = t.params)
    (hcolons : f.colons = t.colons) (final : UInt8) (o o' : ℤ) :
    (f.csiApply final o').terminal = (t.csiApply final o).terminal := by
  have hserialized : f.serializedParams = t.serializedParams := by
    rw [serializedParams, serializedParams, hparams, hcolons]
  unfold csiApply TerminalStreamTracker.applySGR
  dsimp only
  rw [hintermediates, hparams, hserialized, hterminal, hcolons]
  repeat' first
    | exact terminal_mapTerminal hterminal _
    | exact terminal_excise hterminal _ _ _ _
    | exact hterminal
    | refine terminal_ite (fun _ => ?_) fun _ => ?_

theorem terminal_csiDispatch (hterminal : f.terminal = t.terminal) (h : SameRegisters t f)
    (final : UInt8) (o o' : ℤ) :
    (f.csiDispatch final o').terminal = (t.csiDispatch final o).terminal := by
  have hlast : ∀ u v : TerminalStreamTracker, v.terminal = u.terminal → SameRegisters u v →
      (if final ≠ 0x6D ∧ v.colons ≠ 0 then v else v.csiApply final o').terminal
        = (if final ≠ 0x6D ∧ u.colons ≠ 0 then u else u.csiApply final o).terminal := by
    intro u v hsame hr
    rw [hr.colons]
    exact terminal_ite (fun _ => hsame) fun _ =>
      terminal_csiApply hsame hr.intermediates hr.params hr.colons final o o'
  unfold csiDispatch
  dsimp only
  rw [h.paramsOverflowed, h.params]
  refine terminal_ite (fun _ => hterminal) fun _ => hlast _ _ ?_ ?_
  · rw [h.paramDigits]
    exact terminal_ite (fun _ => hterminal) fun _ => hterminal
  · rw [h.paramDigits]
    split
    · exact ⟨h.intermediates, by rw [h.paramValue], h.colons, h.paramValue, rfl, rfl⟩
    · exact ⟨h.intermediates, rfl, h.colons, h.paramValue, rfl, rfl⟩

/-- A sequence that is finished leaves its registers behind. -/
theorem Beside.toGround (h : Beside P x t f) :
    Alike P x { t with state := .ground } { f with state := .ground } :=
  ⟨{ h with }, rfl, not_readsRegisters (by simp [readsRegisters]) rfl, fun heq => by cases heq⟩

/-- The same ESC does the same. -/
theorem Alike.escapeDispatch (h : Alike P x t f) (hs : readsRegisters t.state) (final : UInt8)
    (o o' : ℤ) :
    Alike P x (({ t with state := .ground } : TerminalStreamTracker).escapeDispatch final o)
      (({ f with state := .ground } : TerminalStreamTracker).escapeDispatch final o') :=
  h.toGround.of_sameParser (sameParser_escapeDispatch final o) (sameParser_escapeDispatch final o')
    (fun hp => @terminal_escapeDispatch { t with state := .ground } { f with state := .ground }
      (h.terminal hp) (h.registers hs).intermediates final o o')
    fun hground => absurd hground (by simp [readsRegisters])

/-- The same CSI does the same. -/
theorem Alike.csiDispatch (h : Alike P x t f) (hs : readsRegisters t.state) (final : UInt8)
    (o o' : ℤ) :
    Alike P x (({ t with state := .ground } : TerminalStreamTracker).csiDispatch final o)
      (({ f with state := .ground } : TerminalStreamTracker).csiDispatch final o') := by
  have hregisters : SameRegisters { t with state := .ground } { f with state := .ground } :=
    { h.registers hs with }
  exact h.toGround.of_sameParser (sameParser_csiDispatch final o) (sameParser_csiDispatch final o')
    (fun hp => @terminal_csiDispatch { t with state := .ground } { f with state := .ground }
      (h.terminal hp) hregisters final o o')
    fun hground => absurd hground (by simp [readsRegisters])

/-- In another state, with the same registers if it reads them. -/
theorem Alike.moved (h : Alike P x t f) {state : ParserState}
    (hs : readsRegisters state → readsRegisters t.state) (hstring : state ≠ .oscString) :
    Alike P x { t with state := state } { f with state := state } :=
  ⟨{ h.toBeside with }, rfl, fun hreads => { h.registers (hs hreads) with },
    fun heq => absurd heq hstring⟩

/-- A string begins with its payload empty. -/
theorem Beside.enterString (h : Beside P x t f) {state : ParserState}
    (hs : ¬ readsRegisters state) :
    Alike P x (t.enterString state) (f.enterString state) :=
  ⟨{ h with }, rfl, not_readsRegisters hs rfl, fun _ => ⟨rfl, rfl⟩⟩

theorem Alike.hookDCS (h : Alike P x t f) (final : UInt8) :
    Alike P x (t.hookDCS final) (f.hookDCS final) :=
  ⟨{ h.toBeside with }, rfl,
    @not_readsRegisters _ _ .dcsPassthrough (by simp [readsRegisters]) rfl,
    fun heq => by cases heq⟩

theorem state_collect (t : TerminalStreamTracker) (byte : UInt8) :
    (t.collect byte).state = t.state := by
  rw [collect]
  split <;> rfl

theorem state_param (t : TerminalStreamTracker) (byte : UInt8) :
    (t.param byte).state = t.state := by
  rw [param]
  split_ifs <;> rfl

/-- Another intermediate, where they are read. -/
theorem Alike.collect (h : Alike P x t f) (byte : UInt8) :
    Alike P x (t.collect byte) (f.collect byte) := by
  by_cases hs : readsRegisters t.state
  · have hr := h.registers hs
    rw [TerminalStreamTracker.collect, TerminalStreamTracker.collect, hr.intermediates]
    exact alike_ite (fun _ => { h with registers := fun _ => { hr with intermediates := rfl } })
      fun _ => h
  · rw [TerminalStreamTracker.collect, TerminalStreamTracker.collect]
    split <;> split <;> exact { h with registers := fun hreads => absurd hreads hs }

/-- A digit or a separator. -/
theorem Alike.param (h : Alike P x t f) (byte : UInt8) :
    Alike P x (t.param byte) (f.param byte) := by
  by_cases hs : readsRegisters t.state
  · have hr := h.registers hs
    rw [TerminalStreamTracker.param, TerminalStreamTracker.param, hr.params, hr.colons,
      hr.paramValue, hr.paramDigits]
    refine alike_ite (fun _ => alike_ite (fun _ => ?_) fun _ => ?_) fun _ => ?_
    · exact { h with
        registers := fun _ => ⟨hr.intermediates, rfl, rfl, rfl, rfl, hr.paramsOverflowed⟩ }
    · exact { h with registers := fun _ => ⟨hr.intermediates, rfl, rfl, rfl, rfl, rfl⟩ }
    · exact { h with
        registers := fun _ => ⟨hr.intermediates, rfl, rfl, rfl, rfl, hr.paramsOverflowed⟩ }
  · rw [TerminalStreamTracker.param, TerminalStreamTracker.param]
    split_ifs <;> exact { h with registers := fun hreads => absurd hreads hs }

/-! ## Strings -/

theorem Alike.appendPayload (h : Alike P x t f) (byte : UInt8) :
    Alike P x (t.appendPayload byte) (f.appendPayload byte) := by
  by_cases hosc : t.state = .oscString
  · obtain ⟨hpayload, hoverflowed⟩ := h.payload hosc
    rw [TerminalStreamTracker.appendPayload, TerminalStreamTracker.appendPayload, hpayload]
    exact alike_ite
      (fun _ => { h with
        registers := fun hreads => { h.registers hreads with }
        payload := fun _ => ⟨rfl, hoverflowed⟩ })
      fun _ => { h with
        registers := fun hreads => { h.registers hreads with }
        payload := fun _ => ⟨rfl, rfl⟩ }
  · rw [TerminalStreamTracker.appendPayload, TerminalStreamTracker.appendPayload]
    split <;> split <;> exact { h with
      registers := fun hreads => { h.registers hreads with }
      payload := fun heq => absurd heq hosc }

/-- An APC leaves the terminal as it was. -/
theorem terminal_finishAPC (t : TerminalStreamTracker) :
    t.finishAPC.1.terminal = t.terminal := by
  rw [finishAPC]
  split <;> rfl

/-- The same string does the same. -/
theorem terminal_finishString (h : Alike P x t f) (hp : P) (finish : StringEnd) :
    (f.finishString finish).1.terminal = (t.finishString finish).1.terminal := by
  have hterminal := h.terminal hp
  rw [finishString, finishString, h.state]
  split
  next hosc =>
    obtain ⟨hpayload, hoverflowed⟩ := h.payload hosc
    rw [finishOSC, finishOSC, hpayload, hoverflowed, hterminal]
    dsimp only
    split_ifs <;> first
      | exact hterminal
      | rfl
  next => exact hterminal
  next => exact (terminal_finishAPC f).trans (hterminal.trans (terminal_finishAPC t).symm)
  next => exact hterminal

/-- A sequence begins with its registers clear. -/
theorem Beside.beginSequence (h : Beside P x t f) (newState : ParserState) (o o' : ℤ) :
    Alike P x (t.beginSequence newState o) (f.beginSequence newState o') := by
  have hcleared : SameRegisters t.clear f.clear := ⟨rfl, rfl, rfl, rfl, rfl, rfl⟩
  cases newState
  case ground => exact h.toGround
  case oscString =>
    exact ⟨{ h with }, rfl, fun _ => { hcleared with }, fun _ => ⟨rfl, rfl⟩⟩
  all_goals exact ⟨{ h with }, rfl, fun _ => { hcleared with }, fun heq => by cases heq⟩

/-- All but the sequence being read is where it was, on the terminal given. -/
structure OnlySequence (t u : TerminalStreamTracker) (terminal : TerminalReplayState) : Prop where
  terminal : u.terminal = terminal
  remaining : u.utf8Remaining = t.utf8Remaining
  lower : u.utf8Lower = t.utf8Lower
  upper : u.utf8Upper = t.utf8Upper
  zmodem : u.zmodem = t.zmodem
  progress : u.promptMarkProgress = t.promptMarkProgress
  recent : u.recent = t.recent

theorem SameParser.onlySequence (h : SameParser t t') : OnlySequence t t' t'.terminal := by
  rw [h]
  exact ⟨rfl, rfl, rfl, rfl, rfl, rfl, rfl⟩

/-- The terminal behind the string being read, finished. -/
def terminalBehind (t : TerminalStreamTracker) (finish : StringEnd) : TerminalReplayState :=
  (({ t with terminatorPending := false } : TerminalStreamTracker).finishString finish).1.terminal

/-- Leaving is finishing the string, and beginning what comes next. -/
theorem leave_eq (t : TerminalStreamTracker) (newState : ParserState) (finish : StringEnd)
    (o : ℤ) : ∃ u : TerminalStreamTracker, t.leave newState finish o = u.beginSequence newState o ∧
      OnlySequence t u (t.terminalBehind finish) := by
  have hfinished :=
    (@sameParser_finishString { t with terminatorPending := false } finish).onlySequence
  unfold TerminalStreamTracker.leave
  dsimp only
  refine ⟨_, rfl, ?_⟩
  split
  · have hexcised := (@sameParser_excise
      (({ t with terminatorPending := false } : TerminalStreamTracker).finishString finish).1
      (({ t with terminatorPending := false } : TerminalStreamTracker).finishString
        finish).1.sequenceStart (if newState == .escape then o else o + 1)).onlySequence
    exact ⟨excise_terminal _ _, hexcised.remaining.trans hfinished.remaining,
      hexcised.lower.trans hfinished.lower, hexcised.upper.trans hfinished.upper,
      hexcised.zmodem.trans hfinished.zmodem, hexcised.progress.trans hfinished.progress,
      hexcised.recent.trans hfinished.recent⟩
  · exact ⟨rfl, hfinished.remaining, hfinished.lower, hfinished.upper, hfinished.zmodem,
      hfinished.progress, hfinished.recent⟩

/-- What ends a string leaves both beside each other. -/
theorem Beside.onlySequence (h : Beside P x t f) {Q : Prop} {s s' : TerminalReplayState}
    (ht : OnlySequence t t' s) (hf : OnlySequence f f' s') (hterminal : Q → s' = s) :
    Beside Q x t' f' := by
  refine ⟨fun hq => ?_, ?_, ?_, ?_, ?_, fun hz => ?_, ?_, fun hz => ?_⟩
  · rw [hf.terminal, ht.terminal, hterminal hq]
  · rw [hf.remaining, ht.remaining, h.remaining]
  · rw [hf.lower, ht.lower, h.lower]
  · rw [hf.upper, ht.upper, h.upper]
  · rw [hf.zmodem, ht.zmodem, h.zmodem]
  · rw [hf.progress, ht.progress, h.progress (ht.zmodem ▸ hz)]
  · rw [hf.recent, ht.recent]
    exact h.headers
  · rw [hf.recent, ht.recent]
    exact h.finishes (ht.zmodem ▸ hz)

/-- A sequence that begins changes no terminal. -/
theorem terminal_leave (t : TerminalStreamTracker) (newState : ParserState) (finish : StringEnd)
    (o : ℤ) : (t.leave newState finish o).terminal = t.terminalBehind finish := by
  obtain ⟨u, hu, ht⟩ := leave_eq t newState finish o
  rw [hu, ← ht.terminal, TerminalStreamTracker.beginSequence]
  cases newState <;> rfl

/-- Both leave the state they are in, whichever it is. -/
theorem Beside.leave (h : Beside P x t f) {Q : Prop} {finish : StringEnd}
    (hterminal : Q → f.terminalBehind finish = t.terminalBehind finish) (newState : ParserState)
    (o o' : ℤ) :
    Alike Q x (t.leave newState finish o) (f.leave newState finish o') := by
  obtain ⟨u, hu, ht⟩ := leave_eq t newState finish o
  obtain ⟨v, hv, hf⟩ := leave_eq f newState finish o'
  rw [hu, hv]
  exact (h.onlySequence ht hf hterminal).beginSequence newState o o'

/-- The string ends in both, and the next sequence begins. -/
theorem Alike.leave (h : Alike P x t f) (newState : ParserState) (finish : StringEnd) (o o' : ℤ) :
    Alike P x (t.leave newState finish o) (f.leave newState finish o') := by
  have hcleared : Alike P x { t with terminatorPending := false }
      { f with terminatorPending := false } :=
    { h with registers := fun hreads => { h.registers hreads with } }
  exact h.toBeside.leave (fun hp => terminal_finishString hcleared hp finish) newState o o'

/-- The transitions every state shares are made by both. -/
theorem Alike.anywhere (h : Alike P x t f) (byte : UInt8) (o o' : ℤ) :
    Alike P x (t.anywhere byte o) (f.anywhere byte o') := by
  unfold TerminalStreamTracker.anywhere
  iterate 8 refine alike_ite (fun _ => h.leave _ _ _ _) fun _ => ?_
  exact h

/-! ## Ground -/

/-- In the ground state only the character counts. -/
theorem Beside.inGround (h : Beside P x t f) (ht : t.state = .ground) (hf : f.state = .ground) :
    Alike P x t f :=
  ⟨h, hf.trans ht.symm, not_readsRegisters (by simp [readsRegisters]) ht,
    fun heq => by rw [ht] at heq; cases heq⟩

theorem Alike.resetUtf8 (h : Alike P x t f) : Alike P x t.resetUtf8 f.resetUtf8 :=
  { h with
    remaining := rfl, lower := rfl, upper := rfl
    registers := fun hreads => { h.registers hreads with } }

theorem Alike.record (h : Alike P x t f) (e e' : Excision) : Alike P x (t.record e) (f.record e') :=
  { h with registers := fun hreads => { h.registers hreads with } }

/-- The lead of a character. -/
theorem Alike.utf8Lead (h : Alike P x t f) (byte : UInt8) :
    Alike P x (t.utf8Lead byte) (f.utf8Lead byte) := by
  have hlead : ∀ remaining (lower upper lower' upper' : UInt8), lower' = lower → upper' = upper →
      Alike P x { t with utf8Remaining := remaining, utf8Lower := lower, utf8Upper := upper }
        { f with utf8Remaining := remaining, utf8Lower := lower', utf8Upper := upper' } :=
    fun _ _ _ _ _ hlower hupper => { h with
      remaining := rfl, lower := hlower, upper := hupper
      registers := fun hreads => { h.registers hreads with } }
  unfold TerminalStreamTracker.utf8Lead
  iterate 7
    refine alike_ite (fun _ => ?_) fun _ => ?_
    · first
        | exact hlead _ _ _ _ _ h.lower h.upper
        | exact hlead _ _ _ _ _ rfl h.upper
        | exact hlead _ _ _ _ _ h.lower rfl
  exact h

/-- A byte read in the ground state, no character before it left to finish. -/
theorem Alike.groundByte (h : Alike P x t f) (interrupts : Bool) (byte : UInt8) (o o' : ℤ) :
    Alike P x (t.groundByte interrupts byte o) (f.groundByte interrupts byte o') := by
  unfold TerminalStreamTracker.groundByte
  refine alike_ite (fun _ => ?_) fun _ => ?_
  · exact ⟨{ h.toBeside with }, rfl, fun _ => ⟨rfl, rfl, rfl, rfl, rfl, rfl⟩,
      fun heq => by cases heq⟩
  refine alike_ite (fun _ => h.record _ _) fun _ => ?_
  refine alike_ite (fun _ => h.execute byte o o') fun _ => ?_
  exact alike_ite (fun _ => h) fun _ => h.utf8Lead byte

theorem Alike.ground (h : Alike P x t f) (byte : UInt8) (o o' : ℤ) :
    Alike P x (t.ground byte o) (f.ground byte o') := by
  rw [TerminalStreamTracker.ground, TerminalStreamTracker.ground, h.remaining, h.lower, h.upper]
  refine alike_ite (fun _ => alike_ite (fun _ => ?_) fun _ => ?_) fun _ => ?_
  · exact { h with
      remaining := rfl, lower := rfl, upper := rfl
      registers := fun hreads => { h.registers hreads with } }
  · exact h.resetUtf8.groundByte true byte o o'
  · exact h.groundByte false byte o o'

/-! ## The sequence states -/

theorem Alike.sequenceByte (h : Alike P x t f) (byte : UInt8) (o o' : ℤ) :
    Alike P x (t.sequenceByte byte o) (f.sequenceByte byte o') := by
  have hanywhere := h.anywhere byte o o'
  have hexecute := h.execute byte o o'
  have hcollect : ∀ {state : ParserState}, (readsRegisters state → readsRegisters t.state) →
      state ≠ .oscString →
      Alike P x { t.collect byte with state := state } { f.collect byte with state := state } :=
    fun hs => (h.collect byte).moved fun hreads => (state_collect t byte).symm ▸ hs hreads
  have hparam : ∀ {state : ParserState}, (readsRegisters state → readsRegisters t.state) →
      state ≠ .oscString →
      Alike P x { t.param byte with state := state } { f.param byte with state := state } :=
    fun hs => (h.param byte).moved fun hreads => (state_param t byte).symm ▸ hs hreads
  unfold TerminalStreamTracker.sequenceByte
  rw [h.state]
  split
  case h_1 => exact h.ground byte o o'
  all_goals
    next heq =>
    repeat' first
      | exact h
      | exact hexecute
      | exact hanywhere
      | exact h.escapeDispatch (by simp [readsRegisters, heq]) byte o o'
      | exact h.csiDispatch (by simp [readsRegisters, heq]) byte o o'
      | exact hcollect (by simp [readsRegisters, heq]) (by decide)
      | exact hparam (by simp [readsRegisters, heq]) (by decide)
      | exact h.collect byte
      | exact h.param byte
      | exact h.toBeside.enterString (by simp [readsRegisters])
      | exact h.hookDCS byte
      | exact h.appendPayload byte
      | exact h.leave _ _ _ _
      | exact h.moved (by simp [readsRegisters, heq]) (by decide)
      | refine alike_ite (fun _ => ?_) fun _ => ?_

/-- The bytes of a sequence kept for its head are not compared. -/
theorem Alike.sequence (h : Alike P x t f) (byte : UInt8) (o o' : ℤ) :
    Alike P x (t.sequence byte o) (f.sequence byte o') := by
  unfold TerminalStreamTracker.sequence
  refine alike_ite (fun _ => h.anywhere byte o o') fun _ => ?_
  refine Alike.sequenceByte ?_ byte o o'
  exact { h with registers := fun hreads => { h.registers hreads with } }

/-! ## ZMODEM -/

theorem Alike.endZmodem (h : Alike P x t f) (o o' : ℤ) :
    Alike P x (t.endZmodem o) (f.endZmodem o') := by
  have hended : ∀ e e' : Option (List Excision), Alike P x
      { t with excisions := e, zmodem := .idle, recent := List.replicate 8 0 }
      { f with excisions := e', zmodem := .idle, recent := List.replicate 8 0 } :=
    fun _ _ => { h with
      zmodem := rfl
      progress := fun hz => absurd rfl hz
      headers := .refl _ _ _
      finishes := fun hz => absurd rfl hz
      registers := fun hreads => { h.registers hreads with } }
  rw [TerminalStreamTracker.endZmodem, TerminalStreamTracker.endZmodem, exciseConversation,
    exciseConversation]
  split <;> split <;> exact hended _ _

/-- The mark's next byte, read by both. -/
theorem Alike.trackPromptMark (h : Alike P x t f) (hz : t.zmodem ≠ .idle) (byte : UInt8) :
    Alike P x (t.trackPromptMark byte).1 (f.trackPromptMark byte).1 ∧
      (f.trackPromptMark byte).2 = (t.trackPromptMark byte).2 := by
  have hread : ∀ progress : ℕ, Alike P x { t with promptMarkProgress := progress }
      { f with promptMarkProgress := progress } :=
    fun _ => { h with
      progress := fun _ => rfl
      registers := fun hreads => { h.registers hreads with } }
  rw [TerminalStreamTracker.trackPromptMark, TerminalStreamTracker.trackPromptMark, h.progress hz]
  dsimp only
  split
  · exact ⟨hread 0, rfl⟩
  · exact ⟨hread _, rfl⟩

/-- One byte of a conversation both are in. -/
theorem Alike.stepZmodemWith (h : Alike P x t f) (hz : t.zmodem ≠ .idle)
    {again again' : TerminalStreamTracker → TerminalStreamTracker} {byte : UInt8}
    (hfinish : f.recent.take 6 = zmodemFinish ↔ t.recent.take 6 = zmodemFinish)
    (hagain : ∀ u v : TerminalStreamTracker, Alike P x u v → u.zmodem ≠ .idle →
      (v.recent.take 6 = zmodemFinish ↔ u.recent.take 6 = zmodemFinish) →
      Alike P x (again u) (again' v)) :
    Alike P x (t.stepZmodemWith again byte o) (f.stepZmodemWith again' byte o') := by
  obtain ⟨hread, hmarked⟩ := h.trackPromptMark hz byte
  obtain ⟨progress, ht⟩ : ∃ progress,
      (t.trackPromptMark byte).1 = { t with promptMarkProgress := progress } := by
    rw [TerminalStreamTracker.trackPromptMark]
    dsimp only
    split_ifs <;> exact ⟨_, rfl⟩
  obtain ⟨progress', hf⟩ : ∃ progress,
      (f.trackPromptMark byte).1 = { f with promptMarkProgress := progress } := by
    rw [TerminalStreamTracker.trackPromptMark]
    dsimp only
    split_ifs <;> exact ⟨_, rfl⟩
  unfold TerminalStreamTracker.stepZmodemWith
  dsimp only
  rw [hmarked]
  have hzmodem : (t.trackPromptMark byte).1.zmodem ≠ .idle := by rwa [ht]
  have hfinish' : ((f.trackPromptMark byte).1.recent.take 6 = zmodemFinish ↔
      (t.trackPromptMark byte).1.recent.take 6 = zmodemFinish) := by rwa [ht, hf]
  generalize (t.trackPromptMark byte).1 = u at hread hzmodem hfinish'
  generalize (f.trackPromptMark byte).1 = v at hread hfinish'
  have hphase : ∀ phase, phase ≠ .idle → Alike P x { u with zmodem := phase }
      { v with zmodem := phase } :=
    fun phase _ => { hread with
      zmodem := rfl
      progress := fun _ => hread.progress hzmodem
      finishes := fun _ => hread.finishes hzmodem
      registers := fun hreads => { hread.registers hreads with } }
  refine alike_ite (fun _ => ?_) fun _ => ?_
  · -- Both are inside the mark.
    exact ⟨{ (hread.endZmodem (o - 6) (o' - 6)).toBeside with }, rfl,
      @not_readsRegisters _ _ .oscString (by simp [readsRegisters]) rfl, fun _ => ⟨rfl, rfl⟩⟩
  rw [hread.zmodem]
  split
  · exact hread
  next cancels heq =>
    refine alike_ite (fun _ => hphase _ (by simp)) fun _ => ?_
    refine alike_ite (fun _ => hagain _ _ (hphase _ (by simp)) (by simp) hfinish') fun _ => ?_
    rw [zmodemFinish] at hfinish'
    by_cases hseen : u.recent.take 6 = [0x38, 0x30, 0x42, 0x18, 0x2A, 0x2A]
    · rw [if_pos hseen, if_pos (hfinish'.mpr hseen)]
      exact hphase _ (by simp)
    · rw [if_neg hseen, if_neg (mt hfinish'.mp hseen)]
      exact hphase _ (by simp)
  · exact alike_ite (fun _ => (hread.endZmodem _ _).ground byte o o') fun _ => hread
  · exact alike_ite (fun _ => hphase _ (by simp)) fun _ => hread
  · refine alike_ite (fun _ => hread) fun _ => ?_
    exact alike_ite (fun _ => hphase _ (by simp)) fun _ => (hread.endZmodem _ _).ground byte o o'
  · refine alike_ite (fun _ => hread.endZmodem _ _) fun _ => ?_
    exact ((hread.endZmodem _ _).ground _ _ _).ground byte o o'

/-! ## Reading on -/

/-- **One byte keeps them alike.** -/
theorem Alike.step (h : Alike P (byte :: x) t f) (o o' : ℤ) :
    Alike P x (t.step byte o) (f.step byte o') := by
  have hpushed : Alike P x { t with recent := pushRecent t.recent byte }
      { f with recent := pushRecent f.recent byte } :=
    { h with
      headers := h.headers.tail (by decide)
      finishes := fun hz => (h.finishes hz).tail (by decide)
      registers := fun hreads => { h.registers hreads with } }
  have hheader : (pushRecent f.recent byte).take 4 = zmodemHeader ↔
      (pushRecent t.recent byte).take 4 = zmodemHeader := h.headers.head (by decide)
  have hconversing : f.zmodem ≠ .idle ↔ t.zmodem ≠ .idle := by rw [h.zmodem]
  have hground : f.state = .ground ↔ t.state = .ground := by rw [h.state]
  unfold TerminalStreamTracker.step
  dsimp only
  by_cases hz : t.zmodem ≠ .idle
  · rw [if_pos hz, if_pos (hconversing.mpr hz)]
    refine hpushed.stepZmodemWith hz ((h.finishes hz).head (by decide)) fun u v huv hu hfinish => ?_
    exact huv.stepZmodemWith hu hfinish fun _ _ hkept _ _ => hkept
  rw [if_neg hz, if_neg (mt hconversing.mp hz)]
  by_cases hbegins : (pushRecent t.recent byte).take 4 = zmodemHeader
  · -- A conversation begins in both, with the same four bytes behind it.
    rw [if_pos hbegins, if_pos (hheader.mpr hbegins)]
    exact ⟨{ hpushed.toBeside with
        remaining := rfl, lower := rfl, upper := rfl, zmodem := rfl
        progress := fun _ => rfl
        finishes := fun _ => sameSeen_finish hbegins (hheader.mpr hbegins) }, rfl,
      fun _ => ⟨rfl, rfl, rfl, rfl, rfl, rfl⟩, fun heq => by cases heq⟩
  rw [if_neg hbegins, if_neg (mt hheader.mp hbegins)]
  by_cases hs : t.state = .ground
  · rw [if_pos hs, if_pos (hground.mpr hs)]
    exact hpushed.ground byte o o'
  · rw [if_neg hs, if_neg (mt hground.mp hs)]
    exact hpushed.sequence byte o o'

/-- **And so does every run of them.** -/
theorem Alike.run (y : List UInt8) (h : Alike P (y ++ x) t f) (o o' : ℤ) :
    Alike P x (t.run y o) (f.run y o') := by
  induction y generalizing t f o o' with
  | nil => exact h
  | cons byte y ih => exact ih (h.step o o') (o + 1) (o' + 1)

end TerminalStreamTracker
