import IGhostVT.Session.ReadsAlike

/-!
# Session/SequenceHeads — the bytes of a sequence, read again

`head` holds the bytes of the ESC or CSI being read from its introducer on.  As long as all of them
fit, a new tracker that reads them stands where the tracker does (`Rereads`, kept by every byte:
`Rereads.step`), whatever came before.
-/

namespace TerminalStreamTracker

open TerminalReplayState

variable {P : Prop} {x : List UInt8} {t f t' f' : TerminalStreamTracker} {byte : UInt8} {o o' : ℤ}

/-! ## The terminal

What a stretch of bytes changes is compared from any terminal. -/

/-- The tracker on another terminal. -/
def on (t : TerminalStreamTracker) (terminal : TerminalReplayState) : TerminalStreamTracker :=
  { t with terminal := terminal }

/-- Put on one terminal, both are on the same. -/
theorem Alike.on (h : Alike P x t f) {Q : Prop} (terminal : TerminalReplayState) :
    Alike Q x (t.on terminal) (f.on terminal) :=
  { h with terminal := fun _ => rfl, registers := fun hs => { h.registers hs with } }

/-! ## A sequence written as it began

Every byte of it is in `head`, its introducer as ESC and `[`. -/

/-- A sequence has just begun, behind a byte that is no part of a header. -/
structure Entered (t : TerminalStreamTracker) : Prop where
  head : t.state = .escape ∧ t.head = [0x1B] ∨ t.state = .csiEntry ∧ t.head = [0x1B, 0x5B]
  intermediates : t.intermediates = []
  params : t.params = []
  colons : t.colons = 0
  paramValue : t.paramValue = 0
  paramDigits : t.paramDigits = 0
  paramsOverflowed : t.paramsOverflowed = false
  recent : ∃ newest older, t.recent = newest :: older ∧ newest ∉ zmodemHeader

/-- Fewer than four bytes do not make a header behind one that is no part of it. -/
theorem take_ne_header {c : UInt8} {a y : List UInt8} (hc : c ∉ zmodemHeader)
    (hlength : y.length < 4) : (y.reverse ++ c :: a).take 4 ≠ zmodemHeader := by
  intro heq
  refine hc (heq ▸ ?_)
  rw [List.take_append, List.length_reverse]
  obtain ⟨k, hk⟩ : ∃ k, 4 - y.length = k + 1 := ⟨3 - y.length, by omega⟩
  rw [hk, List.take_succ_cons]
  simp

/-- A byte that is no part of a header parts what follows from what was before. -/
theorem sameSeen_of_break {a b : List UInt8}
    (ha : ∃ newest older, a = newest :: older ∧ newest ∉ zmodemHeader)
    (hb : ∃ newest older, b = newest :: older ∧ newest ∉ zmodemHeader) :
    SameSeen zmodemHeader x a b := by
  obtain ⟨c, a, rfl, hc⟩ := ha
  obtain ⟨d, b, rfl, hd⟩ := hb
  intro y _ _
  change (y.reverse ++ d :: b).take 4 = zmodemHeader ↔ (y.reverse ++ c :: a).take 4 = zmodemHeader
  by_cases hlength : y.length < 4
  · exact iff_of_false (take_ne_header hd hlength) (take_ne_header hc hlength)
  · rw [List.take_append_of_le_length (by simp; omega),
      List.take_append_of_le_length (by simp; omega)]

/-- Two sequences that have just begun in the same state go on alike. -/
theorem Entered.alike (ht : Entered t) (hf : Entered f) (hready : Ready t) (hready' : Ready f)
    (hstate : f.state = t.state) : Alike False x t f := by
  have hs : t.state ≠ .ground := by
    rcases ht.head with ⟨h, -⟩ | ⟨h, -⟩ <;> simp [h]
  have hs' : f.state ≠ .ground := hstate ▸ hs
  have hz : t.zmodem = .idle := not_not.mp (mt hready.conversing hs)
  have hz' : f.zmodem = .idle := not_not.mp (mt hready'.conversing hs')
  have hremaining := hready.between (.inl hs)
  have hremaining' := hready'.between (.inl hs')
  refine ⟨⟨False.elim, hremaining'.trans hremaining.symm,
    (hready'.rest hremaining').1.trans (hready.rest hremaining).1.symm,
    (hready'.rest hremaining').2.trans (hready.rest hremaining).2.symm, hz'.trans hz.symm,
    fun h => absurd hz h, sameSeen_of_break ht.recent hf.recent, fun h => absurd hz h⟩, hstate,
    fun _ => ?_, fun hosc => ?_⟩
  · exact ⟨hf.intermediates.trans ht.intermediates.symm, hf.params.trans ht.params.symm,
      hf.colons.trans ht.colons.symm, hf.paramValue.trans ht.paramValue.symm,
      hf.paramDigits.trans ht.paramDigits.symm, hf.paramsOverflowed.trans ht.paramsOverflowed.symm⟩
  · rcases ht.head with ⟨h, -⟩ | ⟨h, -⟩ <;> simp [h] at hosc

/-- A new tracker that reads the introducer. -/
theorem entered_run (h : Entered t) : Entered (({} : TerminalStreamTracker).run t.head 0) ∧
    (({} : TerminalStreamTracker).run t.head 0).state = t.state := by
  rcases h.head with ⟨hstate, hhead⟩ | ⟨hstate, hhead⟩
  · rw [hhead, hstate]
    exact ⟨⟨.inl ⟨rfl, rfl⟩, rfl, rfl, rfl, rfl, rfl, rfl, _, _, rfl, by decide⟩, rfl⟩
  · rw [hhead, hstate]
    exact ⟨⟨.inr ⟨rfl, rfl⟩, rfl, rfl, rfl, rfl, rfl, rfl, _, _, rfl, by decide⟩, rfl⟩

/-- What a byte read in a sequence leaves: none that is acted on, a new one, or the same. -/
def Goes (t u : TerminalStreamTracker) : Prop :=
  ¬ readsRegisters u.state ∨ Entered u ∨ readsRegisters t.state ∧ u.head = t.head

/-- Both branches. -/
theorem goes_ite {c : Prop} [Decidable c] {u v : TerminalStreamTracker} (hu : c → Goes t u)
    (hv : ¬ c → Goes t v) : Goes t (if c then u else v) := by
  split
  exacts [hu ‹_›, hv ‹_›]

/-- A sequence that is read has just begun. -/
def Opens (t : TerminalStreamTracker) : Prop := readsRegisters t.state → Entered t

theorem opens_of_ground (h : t.state = .ground) : Opens t := by
  intro hreads
  rw [h] at hreads
  cases hreads

theorem Opens.goes {u : TerminalStreamTracker} (h : Opens u) : Goes t u := by
  by_cases hs : readsRegisters u.state
  exacts [.inr (.inl (h hs)), .inl hs]

/-- A shared transition begins a sequence with its registers clear. -/
theorem opens_leave (newState : ParserState) (finish : StringEnd) (o : ℤ)
    (hrecent : readsRegisters newState → (newState = .escape ∨ newState = .csiEntry) ∧
      ∃ newest older, t.recent = newest :: older ∧ newest ∉ zmodemHeader) :
    Opens (t.leave newState finish o) := by
  obtain ⟨u, hu, ht⟩ := leave_eq t newState finish o
  rw [hu]
  intro hreads
  have hs : readsRegisters newState := by
    cases newState <;> first
      | rfl
      | exact hreads
  obtain ⟨hnew, hbreak⟩ := hrecent hs
  rw [← ht.recent] at hbreak
  rcases hnew with rfl | rfl
  · exact ⟨.inl ⟨rfl, rfl⟩, rfl, rfl, rfl, rfl, rfl, rfl, hbreak⟩
  · exact ⟨.inr ⟨rfl, rfl⟩, rfl, rfl, rfl, rfl, rfl, rfl, hbreak⟩

theorem goes_leave (newState : ParserState) (finish : StringEnd) (o : ℤ)
    (hrecent : readsRegisters newState → (newState = .escape ∨ newState = .csiEntry) ∧
      ∃ newest older, t.recent = newest :: older ∧ newest ∉ zmodemHeader) :
    Goes t (t.leave newState finish o) := (opens_leave newState finish o hrecent).goes

/-- A byte that every state reads alike ends the sequence, begins one or does nothing. -/
theorem goes_anywhere (byte : UInt8) (o : ℤ) (hrecent : ∃ older, t.recent = byte :: older) :
    Goes t (t.anywhere byte o) := by
  obtain ⟨older, holder⟩ := hrecent
  have hbegins : ∀ {newState : ParserState}, (newState = .escape ∨ newState = .csiEntry) →
      byte ∉ zmodemHeader → readsRegisters newState →
      (newState = .escape ∨ newState = .csiEntry) ∧
        ∃ newest older, t.recent = newest :: older ∧ newest ∉ zmodemHeader :=
    fun hnew hbyte _ => ⟨hnew, _, _, holder, hbyte⟩
  have hother : ∀ {newState : ParserState}, ¬ readsRegisters newState → ∀ finish,
      Goes t (t.leave newState finish o) :=
    fun hnot _ => goes_leave _ _ _ fun hs => absurd hs hnot
  unfold anywhere
  iterate 3 refine goes_ite (fun _ => hother (by decide) _) fun _ => ?_
  refine goes_ite (fun heq => goes_leave _ _ _ (hbegins (.inl rfl) ?_)) fun _ => ?_
  · rw [heq]
    decide
  refine goes_ite (fun _ => hother (by decide) _) fun _ => ?_
  refine goes_ite (fun heq => goes_leave _ _ _ (hbegins (.inr rfl) ?_)) fun _ => ?_
  · rw [heq]
    decide
  iterate 2 refine goes_ite (fun _ => hother (by decide) _) fun _ => ?_
  by_cases hs : readsRegisters t.state
  exacts [.inr (.inr ⟨hs, rfl⟩), .inl hs]

theorem head_collect (t : TerminalStreamTracker) (byte : UInt8) :
    (t.collect byte).head = t.head := by
  rw [collect]
  split <;> rfl

theorem head_param (t : TerminalStreamTracker) (byte : UInt8) : (t.param byte).head = t.head := by
  rw [param]
  split_ifs <;> rfl

theorem state_appendPayload (t : TerminalStreamTracker) (byte : UInt8) :
    (t.appendPayload byte).state = t.state := by
  rw [appendPayload]
  split <;> rfl

/-- In a sequence a byte goes on with it, leaves it, or begins another. -/
theorem goes_sequenceByte (hstate : t.state ≠ .ground) (byte : UInt8) (o : ℤ)
    (hrecent : ∃ older, t.recent = byte :: older) : Goes t (t.sequenceByte byte o) := by
  have hanywhere := goes_anywhere byte o hrecent
  have hends : ∀ {u : TerminalStreamTracker}, u.state = .ground → Goes t u := fun hu =>
    .inl (by simp [readsRegisters, hu])
  have hescape : Goes t
      (({ t with state := .ground } : TerminalStreamTracker).escapeDispatch byte o) :=
    hends (sameParser_escapeDispatch byte o).state
  have hcsi : Goes t (({ t with state := .ground } : TerminalStreamTracker).csiDispatch byte o) :=
    hends (sameParser_csiDispatch byte o).state
  have hexecute : Goes t (t.execute byte o) := by
    have hsame := @sameParser_execute t byte o
    by_cases hs : readsRegisters t.state
    · exact .inr (.inr ⟨hs, by rw [hsame]⟩)
    · exact .inl (hsame.state.symm ▸ hs)
  have hkept : ∀ {u : TerminalStreamTracker}, u.head = t.head → u.state = t.state → Goes t u := by
    intro u hhead hsame
    by_cases hs : readsRegisters t.state
    exacts [.inr (.inr ⟨hs, hhead⟩), .inl (hsame.symm ▸ hs)]
  have hmoved : ∀ {u : TerminalStreamTracker}, u.head = t.head →
      (readsRegisters u.state → readsRegisters t.state) → Goes t u := by
    intro u hhead hsame
    by_cases hs : readsRegisters t.state
    exacts [.inr (.inr ⟨hs, hhead⟩), .inl (mt hsame hs)]
  have hcollect := head_collect t byte
  have hparam := head_param t byte
  unfold sequenceByte
  split
  case h_1 heq => exact absurd heq hstate
  all_goals
    next heq =>
    repeat' first
      | exact hexecute
      | exact hanywhere
      | exact hescape
      | exact hcsi
      | exact hkept hcollect (state_collect t byte)
      | exact hkept hparam (state_param t byte)
      | exact .inl (state_appendPayload t byte ▸ heq ▸ by decide)
      | exact goes_leave _ _ _ fun hs => absurd hs (by simp [readsRegisters])
      | refine goes_ite (fun _ => ?_) fun _ => ?_
      | exact hkept rfl rfl
      | exact hmoved hcollect (by simp [readsRegisters, heq])
      | exact hmoved hparam (by simp [readsRegisters, heq])
      | exact hends rfl
      | exact hmoved rfl (by simp [readsRegisters, heq, enterString, hookDCS])

/-! ## From the ground state -/

theorem state_groundByte (hbyte : byte ≠ 0x1B) (interrupts : Bool) (o : ℤ) :
    (t.groundByte interrupts byte o).state = t.state := by
  rw [groundByte, if_neg hbyte]
  split_ifs
  · rfl
  · exact (sameParser_execute byte o).state
  · rfl
  · rw [utf8Lead]
    split_ifs <;> rfl

/-- Only an ESC begins a sequence there. -/
theorem opens_ground (h : Ready t) (hstate : t.state = .ground) (byte : UInt8) (o : ℤ)
    (hrecent : byte = 0x1B → ∃ newest older, t.recent = newest :: older ∧ newest ∉ zmodemHeader) :
    Opens (t.ground byte o) := by
  rw [TerminalStreamTracker.ground]
  by_cases hbyte : byte = 0x1B
  · subst hbyte
    have hlower : ¬ (t.utf8Lower ≤ 0x1B ∧ 0x1B ≤ t.utf8Upper) := by
      have hready := h.lower
      grind
    intro _
    rw [if_neg hlower]
    split <;> exact ⟨.inl ⟨rfl, rfl⟩, rfl, rfl, rfl, rfl, rfl, rfl, hrecent rfl⟩
  · refine opens_of_ground ?_
    split_ifs
    · exact hstate
    · exact (state_groundByte hbyte true o).trans hstate
    · exact (state_groundByte hbyte false o).trans hstate

/-- What a conversation leaves when it ends: its last bytes are forgotten. -/
theorem endZmodem_eq (t : TerminalStreamTracker) (finish : ℤ) : ∃ e, t.endZmodem finish
    = { t with excisions := e, zmodem := .idle, recent := List.replicate 8 0 } := by
  rw [TerminalStreamTracker.endZmodem, exciseConversation]
  split <;> exact ⟨_, rfl⟩

/-- Behind a conversation, too. -/
theorem opens_ended (h : Ready t) (hz : t.zmodem ≠ .idle) (finish : ℤ) (byte : UInt8) (o : ℤ) :
    Opens ((t.endZmodem finish).ground byte o) := by
  obtain ⟨e, he⟩ := endZmodem_eq t finish
  refine opens_ground (h.endZmodem hz finish) ?_ byte o fun _ => ?_
  · rw [he]
    exact h.conversing hz
  · rw [he]
    exact ⟨0, List.replicate 7 0, rfl, by decide⟩

/-- A byte of a conversation begins a sequence only where it ends the conversation. -/
theorem opens_stepZmodemWith (h : Ready t) (hz : t.zmodem ≠ .idle)
    {again : TerminalStreamTracker → TerminalStreamTracker}
    (hagain : ∀ t' : TerminalStreamTracker, t'.zmodem ≠ .idle → Ready t' → Opens (again t')) :
    Opens (t.stepZmodemWith again byte o) := by
  obtain ⟨progress, hprogress⟩ : ∃ progress,
      (t.trackPromptMark byte).1 = { t with promptMarkProgress := progress } := by
    rw [trackPromptMark]
    dsimp only
    split_ifs <;> exact ⟨_, rfl⟩
  unfold TerminalStreamTracker.stepZmodemWith
  dsimp only
  rw [hprogress]
  generalize ht' : ({ t with promptMarkProgress := progress } : TerminalStreamTracker) = t'
  have hz' : t'.zmodem ≠ .idle := ht' ▸ hz
  have h' : Ready t' := ht' ▸ ⟨h.lower, h.rest, h.between, h.conversing⟩
  have hstate := h'.conversing hz'
  have hremaining := h'.between (.inr hz')
  have hgoes : ∀ phase, Opens { t' with zmodem := phase } := fun _ => opens_of_ground hstate
  split
  · -- Inside the mark, in a string.
    intro hreads
    cases hreads
  split
  case h_1 heq => exact absurd heq hz'
  case h_2 =>
    split_ifs
    · exact hgoes _
    · exact hagain _ (by simp) ⟨h'.lower, h'.rest, fun _ => hremaining, fun _ => hstate⟩
    · exact hgoes _
    · exact hgoes _
  case h_3 =>
    split
    exacts [opens_ended h' hz' _ _ _, opens_of_ground hstate]
  case h_4 =>
    split
    exacts [hgoes _, opens_of_ground hstate]
  case h_5 =>
    split_ifs
    exacts [opens_of_ground hstate, hgoes _, opens_ended h' hz' _ _ _]
  case h_6 =>
    obtain ⟨e, he⟩ := endZmodem_eq t' (o + 1)
    split
    · refine opens_of_ground ?_
      rw [he]
      exact hstate
    · rw [ground_plain (h'.endZmodem_remaining hz' _)]
      exact opens_ended h' hz' _ _ _

/-! ## The bytes of a sequence, read again -/

/-- Read from the start, the bytes of the sequence lead to where it is. -/
def Rereads (t : TerminalStreamTracker) : Prop :=
  readsRegisters t.state → t.head.length < maximumHead →
    ∀ x, Alike False x t (({} : TerminalStreamTracker).run t.head 0)

/-- A sequence that has just begun is read again by its introducer. -/
theorem rereads_of_opens (h : Opens t) (hready : Ready t) : Rereads t := by
  intro hreads _ x
  obtain ⟨hrun, hstate⟩ := entered_run (h hreads)
  exact (h hreads).alike hrun hready ((ready_start {}).run t.head 0) hstate

/-- A byte begins a sequence, or is added to the head of the one that is read. -/
theorem opens_or_head (hready : Ready t) (byte : UInt8) (o : ℤ) :
    Opens (t.step byte o) ∨ readsRegisters t.state ∧
      (t.step byte o).head
        = if t.head.length < maximumHead then t.head ++ [byte] else t.head := by
  have hpushed : Ready { t with recent := pushRecent t.recent byte } :=
    ⟨hready.lower, hready.rest, hready.between, hready.conversing⟩
  unfold TerminalStreamTracker.step
  dsimp only
  by_cases hz : t.zmodem ≠ .idle
  · rw [if_pos hz]
    exact .inl (opens_stepZmodemWith hpushed hz fun t' hz' h' =>
      opens_stepZmodemWith h' hz' fun t'' hz'' h'' => opens_of_ground (h''.conversing hz''))
  rw [if_neg hz]
  split
  · exact .inl (opens_of_ground rfl)
  by_cases hs : t.state = .ground
  · rw [if_pos hs]
    exact .inl (opens_ground hpushed hs byte o fun heq => ⟨_, _, rfl, heq ▸ by decide⟩)
  rw [if_neg hs, sequence]
  by_cases hany : byte = 0x18 ∨ byte = 0x1A ∨ byte = 0x1B
  · rw [if_pos hany]
    rcases hany with rfl | rfl | rfl
    · exact .inl (opens_leave .ground .cancelled o fun hs => absurd hs (by decide))
    · exact .inl (opens_leave .ground .cancelled o fun hs => absurd hs (by decide))
    · exact .inl (opens_leave .escape .terminated o fun _ =>
        ⟨.inl rfl, _, _, rfl, by decide⟩)
  rw [if_neg hany]
  obtain hnot | hopens | ⟨hreads, hhead⟩ := @goes_sequenceByte
    { t with
      recent := pushRecent t.recent byte
      head := if t.head.length < maximumHead then t.head ++ [byte] else t.head }
    hs byte o ⟨_, rfl⟩
  · exact .inl fun hreads => absurd hreads hnot
  · exact .inl fun _ => hopens
  · exact .inr ⟨hreads, hhead⟩

/-- **Every byte keeps it**: it goes on with the sequence in both, or begins another. -/
theorem Rereads.step (h : Rereads t) (hready : Ready t) (byte : UInt8) (o : ℤ) :
    Rereads (t.step byte o) := by
  rcases opens_or_head hready byte o with hopens | ⟨hreads, hhead⟩
  · exact rereads_of_opens hopens (hready.step byte o)
  intro _ hlength x
  rw [hhead] at hlength ⊢
  split at hlength
  next hshort =>
    rw [if_pos hshort, run_append]
    exact (h hreads hshort (byte :: x)).step o (0 + t.head.length)
  next hfull => exact absurd hlength hfull

/-- Wherever a stream has left the parser, the head leads there. -/
theorem Rereads.run (h : Rereads t) (hready : Ready t) (bytes : List UInt8) (o : ℤ) :
    Rereads (t.run bytes o) := by
  induction bytes generalizing t o with
  | nil => exact h
  | cons byte bytes ih => exact ih (h.step hready byte o) (hready.step byte o) (o + 1)

end TerminalStreamTracker
