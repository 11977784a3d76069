import IGhostVT.Lib.Fields
import IGhostVT.Session.Consume
import Mathlib.Logic.Relation

/-!
# Session/Change — everything one byte can do to a terminal

`Change` lists the changes a dispatched sequence makes, with what the parser guarantees of their
arguments: a parameter is a 16-bit number, a kept text is printable and short enough for the payload
it came in.  `run_changes` says that reading any bytes is a run of such changes, so a property of
terminals is an invariant as soon as every `Change` keeps it.
-/

namespace TerminalReplayState

open TerminalStreamTracker (serializeFrom maximumParams maximumPayload)

/-- No control byte: what an OSC's payload holds. -/
def Printable (text : List UInt8) : Prop := ∀ b ∈ text, 0x20 ≤ b

instance (text : List UInt8) : Decidable (Printable text) := List.decidableBAll (0x20 ≤ ·) text

/-- The parameters of a dispatched sequence. -/
structure ParamList (params : List ℕ) : Prop where
  length_le : params.length ≤ maximumParams
  le : ∀ v ∈ params, v ≤ 65535

/-- A text an OSC with a one-digit number carried whole. -/
structure KeptText (text : List UInt8) : Prop where
  printable : Printable text
  length_le : text.length + 2 ≤ maximumPayload

/-- A link that is open: it names a uri. -/
structure OpenLink (text : List UInt8) : Prop extends KeptText text where
  uri : text.idxOf 0x3B + 1 < text.length

/-- One field of an OSC, not a question. -/
structure ColorSpec (spec : List UInt8) : Prop where
  printable : Printable spec
  no_separator : 0x3B ∉ spec
  not_question : spec ≠ [0x3F]

/-- A palette entry an OSC 4 set. -/
structure PaletteEntry (color : ℕ) (spec : List UInt8) : Prop extends ColorSpec spec where
  color_le : color ≤ 255
  length_le : (decimal color).length + 3 + spec.length ≤ maximumPayload

/-- A dynamic colour an OSC 10–19 set or an OSC 110–119 reset. -/
structure DynamicEntry (index : ℕ) (value : List UInt8) : Prop extends ColorSpec value where
  index_le : index ≤ 9
  length_le : 3 + value.length ≤ maximumPayload

/-- **The changes of a terminal.** -/
inductive Change (s : TerminalReplayState) : TerminalReplayState → Prop
  | setDECMode (mode : ℕ) (enabled : Bool) : mode ≤ 65535 → Change s (s.setDECMode mode enabled)
  | setANSIMode (mode : ℕ) (enabled : Bool) : Change s (s.setANSIMode mode enabled)
  | saveDECMode (mode : ℕ) : mode ≤ 65535 → Change s (s.saveDECMode mode)
  | applySGR (colons : ℕ) (params : List ℕ) : ParamList params →
      Change s (s.applySGR (serializeFrom colons 0 params) (params = [] ∨ params = [0])
        (params.head? = some 0 ∧ colons.testBit 0 = false))
  | modifyKeyFormat (colons : ℕ) (params : List ℕ) (final : UInt8) : ParamList params →
      (final = 0x6D ∨ final = 0x6E ∧ colons = 0) →
      Change s { s with
        modifyKeyFormat := some (ascii ">" ++ serializeFrom colons 0 params ++ [final]) }
  | cursorStyle (style : ℕ) : style ≤ 65535 → Change s { s with cursorStyle := some style }
  | saveCursor : Change s s.saveCursor
  | restoreCursor : Change s s.restoreCursor
  | softReset : Change s s.softReset
  | fullReset : Change s s.fullReset
  | setScrollRegion (top bottom : ℕ) : top ≤ 65535 → bottom ≤ 65535 →
      Change s (s.setScrollRegion top bottom)
  | kittyPush (flags : UInt8) : Change s (s.kittyPush flags)
  | kittyPop (count : ℕ) : Change s (s.kittyPop count)
  | kittySet (flags : UInt8) (mode : ℕ) : Change s (s.kittySet flags mode)
  | designateCharset (slot : Fin 4) (final : UInt8) : final = 0x42 ∨ final = 0x41 ∨ final = 0x30 →
      Change s (s.designateCharset slot final)
  | invokeGL (gl : ℕ) : gl ≤ 3 → Change s (s.invokeCharset (some gl) none)
  | invokeGR (gr : ℕ) : gr ∈ [1, 2, 3] → Change s (s.invokeCharset none (some gr))
  | title (text : List UInt8) : KeptText text → Change s { s with title := some text }
  | workingDirectory (text : List UInt8) : KeptText text →
      Change s { s with workingDirectory := some text }
  | setHyperlink (value : Option (List UInt8)) : (∀ text ∈ value, OpenLink text) →
      Change s (s.setHyperlink value)
  | insertPalette (color : ℕ) (spec : List UInt8) : PaletteEntry color spec →
      Change s { s with palette := s.palette.insert color spec }
  | erasePalette (color : ℕ) : Change s { s with palette := s.palette.erase color }
  | clearPalette : Change s { s with palette := ∅ }
  | insertDynamicColor (index : ℕ) (value : List UInt8) : DynamicEntry index value →
      Change s { s with dynamicColors := s.dynamicColors.insert index value }

/-- A run of changes. -/
def Changes : TerminalReplayState → TerminalReplayState → Prop := Relation.ReflTransGen Change

/-- No change at all. -/
theorem Changes.refl (s : TerminalReplayState) : Changes s s := Relation.ReflTransGen.refl

/-- Some changes and then others. -/
theorem Changes.trans {s s' s'' : TerminalReplayState} (h : Changes s s') (h' : Changes s' s'') :
    Changes s s'' := Relation.ReflTransGen.trans h h'

/-- One change is some. -/
theorem Change.changes {s s' : TerminalReplayState} (h : Change s s') : Changes s s' :=
  Relation.ReflTransGen.single h

/-- Both branches, each under its condition. -/
theorem changes_ite {c : Prop} [Decidable c] {s a b : TerminalReplayState} (ha : c → Changes s a)
    (hb : ¬ c → Changes s b) : Changes s (if c then a else b) := by
  split
  exacts [ha ‹_›, hb ‹_›]

/-- And so with a value beside the state. -/
theorem changes_fst_ite {α : Type*} {c : Prop} [Decidable c] {s : TerminalReplayState}
    {a b : TerminalReplayState × α} (ha : c → Changes s a.1) (hb : ¬ c → Changes s b.1) :
    Changes s (if c then a else b).1 := by
  split
  exacts [ha ‹_›, hb ‹_›]

/-- A fold of changes is a run of them. -/
theorem changes_foldl {α : Type*} (f : TerminalReplayState → α → TerminalReplayState) (as : List α)
    (hf : ∀ a ∈ as, ∀ s, Changes s (f s a)) (s : TerminalReplayState) :
    Changes s (as.foldl f s) := by
  induction as generalizing s with
  | nil => exact .refl s
  | cons a as ih =>
    exact (hf a List.mem_cons_self s).trans
      (ih (fun b hb => hf b (List.mem_cons_of_mem _ hb)) (f s a))

/-- **What every change keeps, every run of them keeps.** -/
theorem Changes.keeps {p : TerminalReplayState → Prop}
    (hp : ∀ s s', p s → Change s s' → p s') {s s' : TerminalReplayState} (h : Changes s s')
    (hs : p s) : p s' := by
  induction h with
  | refl => exact hs
  | tail _ hstep ih => exact hp _ _ ih hstep

end TerminalReplayState

namespace TerminalStreamTracker

open TerminalReplayState

/-! ## What the parser holds at any time

What is collected of a sequence is bounded, and made of the bytes a preamble may write again. -/

/-- **The parser's registers stay in their ranges.** -/
structure Bounded (t : TerminalStreamTracker) : Prop where
  params_length : t.params.length ≤ maximumParams
  params_le : ∀ v ∈ t.params, v ≤ 65535
  paramValue_le : t.paramValue ≤ 65535
  payload_length : t.payload.length ≤ maximumPayload
  payload_printable : t.state = .oscString → Printable t.payload
  head_length : t.head.length ≤ maximumHead

/-- A new tracker has read nothing. -/
theorem bounded_empty : Bounded {} where
  params_length := Nat.zero_le _
  params_le := by simp
  paramValue_le := Nat.zero_le _
  payload_length := Nat.zero_le _
  payload_printable := by simp
  head_length := Nat.zero_le _

/-- `Bounded` looks at the registers only. -/
theorem Bounded.congr {t t' : TerminalStreamTracker} (h : Bounded t)
    (hparams : t'.params = t.params) (hvalue : t'.paramValue = t.paramValue)
    (hpayload : t'.payload = t.payload) (hhead : t'.head = t.head)
    (hstate : t'.state = .oscString → t.state = .oscString) :
    Bounded t' where
  params_length := hparams ▸ h.params_length
  params_le := hparams ▸ h.params_le
  paramValue_le := hvalue ▸ h.paramValue_le
  payload_length := hpayload ▸ h.payload_length
  payload_printable hs := hpayload ▸ h.payload_printable (hstate hs)
  head_length := hhead ▸ h.head_length

/-- Reading: the registers stay bounded and the terminal goes through changes. -/
def Reads (t t' : TerminalStreamTracker) : Prop :=
  Bounded t → Bounded t' ∧ Changes t.terminal t'.terminal

/-- One step reads after another. -/
theorem Reads.trans {t t' t'' : TerminalStreamTracker} (h : Reads t t') (h' : Reads t' t'') :
    Reads t t'' := fun hb =>
  ⟨(h' (h hb).1).1, (h hb).2.trans (h' (h hb).1).2⟩

/-- A change of anything but the registers and the terminal. -/
theorem reads_of_eq {t t' : TerminalStreamTracker} (hparams : t'.params = t.params)
    (hvalue : t'.paramValue = t.paramValue) (hpayload : t'.payload = t.payload)
    (hhead : t'.head = t.head) (hstate : t'.state = .oscString → t.state = .oscString)
    (hterminal : t'.terminal = t.terminal) : Reads t t' := fun hb =>
  ⟨hb.congr hparams hvalue hpayload hhead hstate, hterminal ▸ .refl _⟩

/-- Reading nothing. -/
theorem Reads.refl (t : TerminalStreamTracker) : Reads t t := reads_of_eq rfl rfl rfl rfl id rfl

/-- A change of the terminal alone. -/
theorem reads_mapTerminal {t : TerminalStreamTracker}
    {f : TerminalReplayState → TerminalReplayState}
    (hf : Bounded t → Changes t.terminal (f t.terminal)) : Reads t (t.mapTerminal f) := fun hb =>
  ⟨hb.congr rfl rfl rfl rfl id, hf hb⟩

variable (t : TerminalStreamTracker)

/-- What is recorded is no part of what was read. -/
theorem reads_record (e : Excision) : Reads t (t.record e) := reads_of_eq rfl rfl rfl rfl id rfl

theorem reads_excise (lower upper : ℤ) : Reads t (t.excise lower upper) := by
  rw [excise]
  by_cases h : lower < upper
  · rw [if_pos h]
    exact reads_record _ _
  · rw [if_neg h]
    exact .refl _

theorem reads_exciseConversation (finish : ℤ) : Reads t (t.exciseConversation finish) := by
  simp only [exciseConversation]
  split_ifs
  exacts [reads_record _ _, .refl _]

/-- A sequence begins with nothing collected. -/
theorem reads_clear : Reads t t.clear := fun hb =>
  ⟨{ params_length := Nat.zero_le _
     params_le := by simp [clear]
     paramValue_le := Nat.zero_le _
     payload_length := hb.payload_length
     payload_printable := hb.payload_printable
     head_length := hb.head_length }, .refl _⟩

/-- An intermediate byte more, up to the bound. -/
theorem reads_collect (byte : UInt8) : Reads t (t.collect byte) := by
  rw [collect]
  split_ifs
  exacts [reads_of_eq rfl rfl rfl rfl id rfl, .refl _]

/-- A digit more, and the parameter no larger than 65535. -/
theorem reads_param (byte : UInt8) : Reads t (t.param byte) := by
  intro hb
  rw [param]
  by_cases hsep : byte = 0x3B ∨ byte = 0x3A
  · rw [if_pos hsep]
    by_cases hlt : t.params.length < maximumParams
    · rw [if_pos hlt]
      refine ⟨⟨by simpa using hlt, fun v hv => ?_, Nat.zero_le _, hb.payload_length,
        hb.payload_printable, hb.head_length⟩, .refl _⟩
      rcases List.mem_append.mp hv with hv | hv
      · exact hb.params_le v hv
      · exact List.mem_singleton.mp hv ▸ hb.paramValue_le
    · rw [if_neg hlt]
      exact ⟨hb.congr rfl rfl rfl rfl id, .refl _⟩
  · rw [if_neg hsep]
    exact ⟨⟨hb.params_length, hb.params_le, min_le_right _ _, hb.payload_length,
      hb.payload_printable, hb.head_length⟩, .refl _⟩

/-- A byte of a string, up to the bound. -/
theorem reads_appendPayload {byte : UInt8} (hbyte : t.state = .oscString → 0x20 ≤ byte) :
    Reads t (t.appendPayload byte) := by
  intro hb
  rw [appendPayload]
  split_ifs with hlt
  · refine ⟨⟨hb.params_length, hb.params_le, hb.paramValue_le, by simpa using hlt, ?_,
      hb.head_length⟩, .refl _⟩
    intro hs b hmem
    rcases List.mem_append.mp hmem with hmem | hmem
    · exact hb.payload_printable hs b hmem
    · exact List.mem_singleton.mp hmem ▸ hbyte hs
  · exact ⟨hb.congr rfl rfl rfl rfl id, .refl _⟩

/-- A string begins empty. -/
theorem reads_enterString (newState : ParserState) : Reads t (t.enterString newState) := fun hb =>
  ⟨⟨hb.params_length, hb.params_le, hb.paramValue_le, Nat.zero_le _, by
    simp [enterString, Printable],
    hb.head_length⟩, .refl _⟩

/-- `head` begun over. -/
theorem reads_head {head : List UInt8} (h : head.length ≤ maximumHead) :
    Reads t { t with head := head } := fun hb =>
  ⟨⟨hb.params_length, hb.params_le, hb.paramValue_le, hb.payload_length, hb.payload_printable, h⟩,
    .refl _⟩

/-- A state that is not an OSC's. -/
theorem reads_state {state : ParserState} (h : state ≠ .oscString) :
    Reads t { t with state := state } := reads_of_eq rfl rfl rfl rfl (fun hs => absurd hs h) rfl

/-- No terminator is pending any more. -/
theorem reads_pending : Reads t { t with terminatorPending := false } :=
  reads_of_eq rfl rfl rfl rfl id rfl

/-! ## Operating system commands

A palette, a color or a title is taken as it was written, when a preamble can write it again. -/

/-- What was read as a number is its digits. -/
theorem parseDigits_eq_some {text : List UInt8} {n : ℕ} (h : parseDigits text = some n) :
    text ≠ [] ∧ (∀ b ∈ text, isDigit b = true) ∧ n = digitsValue 0 text := by
  rw [parseDigits] at h
  split_ifs at h with hbad
  simp only [Bool.or_eq_true, List.isEmpty_iff, Bool.not_eq_true', not_or, Bool.not_eq_false,
    List.all_eq_true] at hbad
  exact ⟨hbad.1, hbad.2, (Option.some.inj h).symm⟩

/-- Written again it takes no more of them. -/
theorem length_decimal_of_parseDigits {text : List UInt8} {n : ℕ} (h : parseDigits text = some n) :
    (decimal n).length ≤ text.length := by
  obtain ⟨hne, hdigits, rfl⟩ := parseDigits_eq_some h
  exact length_decimal_digitsValue_le hne hdigits

/-- A number read back is written no longer than it was. -/
theorem length_decimal_of_readUInt16 {text : List UInt8} {n : ℕ} (h : readUInt16 text = some n) :
    (decimal n).length ≤ text.length := by
  rw [readUInt16, Option.map_eq_some_iff] at h
  obtain ⟨v, hv, rfl⟩ := h
  unfold parseInteger at hv
  obtain ⟨hv, hrange⟩ := Option.filter_eq_some_iff.mp hv
  simp only [decide_eq_true_eq] at hrange
  split at hv
  · simp at hv
  · obtain ⟨n, hn, rfl⟩ := Option.map_eq_some_iff.mp hv
    have hzero : n = 0 := by omega
    subst hzero
    rw [List.length_cons]
    exact Nat.le_add_left 1 _
  · obtain ⟨n, hn, rfl⟩ := Option.map_eq_some_iff.mp hv
    exact (length_decimal_of_parseDigits hn).trans (Nat.le_succ _)
  · obtain ⟨n, hn, rfl⟩ := Option.map_eq_some_iff.mp hv
    exact length_decimal_of_parseDigits hn

/-- The digits an OSC's number was read from. -/
theorem oscNumber_spec (n : ℕ) (bs : List UInt8) :
    ∃ digits, bs = digits ++ (oscNumber n bs).2 ∧ (∀ b ∈ digits, isDigit b = true)
      ∧ (oscNumber n bs).1 = digitsValue n digits := by
  induction bs generalizing n with
  | nil => exact ⟨[], rfl, by simp, rfl⟩
  | cons b bs ih =>
    rw [oscNumber]
    split_ifs with h
    · obtain ⟨digits, hbs, hdigits, hn⟩ := ih (n * 10 + digitValue b)
      refine ⟨b :: digits, congrArg (b :: ·) hbs, ?_, by rw [hn, digitsValue_cons]⟩
      intro c hc
      rcases List.mem_cons.mp hc with rfl | hc
      · exact (Bool.and_eq_true_iff.mp h).1
      · exact hdigits c hc
    · exact ⟨[], rfl, by simp, rfl⟩

/-- The pairs of a palette command are each shorter than the command. -/
theorem palettePairs_entries {limit : ℕ} : ∀ (fields : List (List UInt8)),
    (∀ f ∈ fields, Printable f ∧ 0x3B ∉ f) → fields.joinedLength ≤ limit →
      ∀ e ∈ (palettePairs fields).1,
        ColorSpec e.2 ∧ e.1 ≤ 255 ∧ (decimal e.1).length + 1 + e.2.length ≤ limit
  | [], _, _, e, he => by simp [palettePairs] at he
  | [_], _, _, e, he => by simp [palettePairs] at he
  | index :: spec :: fields, hfields, hlen, e, he => by
      have hjoin : index.length + 1 + spec.length ≤ limit
          ∧ fields.joinedLength ≤ limit := by
        rw [List.joinedLength.eq_3 _ _ (by simp)] at hlen
        cases fields with
        | nil => exact ⟨by simpa [List.joinedLength] using hlen, Nat.zero_le _⟩
        | cons g fields =>
          rw [List.joinedLength.eq_3 _ _ (by simp)] at hlen
          omega
      rw [palettePairs] at he
      split_ifs at he with hquestion
      · simp at he
      · have hrest := palettePairs_entries fields
          (fun f hf => hfields f (List.mem_cons_of_mem _ (List.mem_cons_of_mem _ hf))) hjoin.2
        dsimp only at he
        split at he
        · rename_i color hcolor
          rcases List.mem_cons.mp he with rfl | he
          · obtain ⟨hread, hle⟩ := Option.filter_eq_some_iff.mp hcolor
            have hspec := hfields spec (by simp)
            have hwidth := length_decimal_of_readUInt16 hread
            exact ⟨⟨hspec.1, hspec.2, hquestion⟩, by simpa using hle, by dsimp only; omega⟩
          · exact hrest e he
        · exact hrest e he

/-- The fields of a printable body. -/
theorem splitKeeping_fields {body : List UInt8} (hbody : Printable body) :
    ∀ f ∈ splitKeeping 0x3B body, Printable f ∧ 0x3B ∉ f := fun _ hf =>
  ⟨fun b hb => hbody b (List.mem_of_mem_splitOn hf hb).1,
    fun h => (List.mem_of_mem_splitOn hf h).2 rfl⟩

/-- Each pair sets one entry, or asks for it. -/
theorem applyPalette_changes (s : TerminalReplayState) {body : List UInt8} (complete : Bool)
    (hbody : Printable body) (hlen : body = [] ∨ 2 + body.length ≤ maximumPayload) :
    Changes s (applyPalette s body complete).1 := by
  have hentries : ∀ e ∈ (palettePairs (splitKeeping 0x3B body)).1, PaletteEntry e.1 e.2 := by
    intro e he
    rcases hlen with rfl | hlen
    · simp [splitKeeping, palettePairs] at he
    · obtain ⟨hspec, hcolor, hwidth⟩ := palettePairs_entries _ (splitKeeping_fields hbody)
        (List.joinedLength_splitOn 0x3B body).le e he
      exact { hspec with color_le := hcolor, length_le := by omega }
  simp only [applyPalette]
  split_ifs
  · exact .refl s
  · revert hentries
    generalize (palettePairs (splitKeeping 0x3B body)).1 = pairs
    intro hentries
    -- Each pair is one change; the fold runs over the palette alone.
    induction pairs generalizing s with
    | nil => exact .refl s
    | cons e pairs ih =>
      exact (Change.insertPalette e.1 e.2 (hentries e List.mem_cons_self)).changes.trans
        (ih _ fun e' he' => hentries e' (List.mem_cons_of_mem _ he'))
  · exact .refl s

/-- Colors one after another set consecutive ones. -/
theorem setDynamicColors_changes (s : TerminalReplayState) (first : ℕ) (specs : List (List UInt8))
    (hspecs : ∀ spec ∈ specs, ColorSpec spec ∧ 3 + spec.length ≤ maximumPayload) :
    Changes s { s with dynamicColors := setDynamicColors s.dynamicColors first specs } := by
  induction specs generalizing s first with
  | nil => exact .refl s
  | cons spec specs ih =>
    have htail := fun spec' h' => hspecs spec' (List.mem_cons_of_mem _ h')
    rw [setDynamicColors]
    split_ifs with hset
    · obtain ⟨hspec, hlen⟩ := hspecs spec List.mem_cons_self
      exact (Change.insertDynamicColor first spec
        { hspec with index_le := hset.1, length_le := hlen }).changes.trans (ih _ _ htail)
    · exact ih s (first + 1) htail

/-- Split at semicolons. -/
theorem applyDynamicColors_changes (s : TerminalReplayState) (first : ℕ) {body : List UInt8}
    (complete : Bool) (hbody : Printable body)
    (hlen : body = [] ∨ 3 + body.length ≤ maximumPayload) :
    Changes s (applyDynamicColors s first body complete).1 := by
  simp only [applyDynamicColors]
  split_ifs with hasks
  · exact .refl s
  · refine setDynamicColors_changes s first _ fun spec hspec => ?_
    have hfield := splitKeeping_fields hbody spec hspec
    have hwidth := (List.length_le_joinedLength hspec).trans
      (List.joinedLength_splitOn 0x3B body).le
    refine ⟨⟨hfield.1, hfield.2, ?_⟩, ?_⟩
    · rintro rfl
      exact hasks (by simpa using hspec)
    · rcases hlen with rfl | hlen
      · simp only [splitKeeping, List.splitOn_nil, List.mem_singleton] at hspec
        simp [hspec, maximumPayload]
      · omega
  · exact .refl s

/-- Entries are put back at their defaults. -/
theorem erasePalette_changes (s : TerminalReplayState) (indices : List ℕ) :
    Changes s { s with palette := indices.foldl (fun p i => p.erase i) s.palette } := by
  induction indices generalizing s with
  | nil => exact .refl s
  | cons i indices ih => exact (Change.erasePalette i).changes.trans (ih _)

/-- **An OSC is a run of changes.** -/
theorem applyOSC_changes (s : TerminalReplayState) (number : ℕ) (hasSemicolon : Bool)
    {body : List UInt8} (complete : Bool) (hbody : Printable body)
    (hlen : body = [] ∨ (decimal number).length + 1 + body.length ≤ maximumPayload) :
    Changes s (applyOSC s number hasSemicolon body complete).1 := by
  have hpos := length_decimal_pos number
  have htext : KeptText body := by
    refine ⟨hbody, ?_⟩
    rcases hlen with rfl | hlen
    · simp [maximumPayload]
    · omega
  have hlen' : body = [] ∨ 2 + body.length ≤ maximumPayload := hlen.imp_right fun h => by omega
  unfold applyOSC
  refine changes_fst_ite (fun _ => ?_) fun _ => ?_
  · exact changes_ite (fun _ => (Change.title body htext).changes) fun _ => .refl s
  refine changes_fst_ite (fun _ => applyPalette_changes s complete hbody hlen') fun _ => ?_
  refine changes_fst_ite (fun _ => .refl s) fun _ => ?_
  refine changes_fst_ite (fun _ => ?_) fun _ => ?_
  · exact changes_ite (fun _ => (Change.workingDirectory body htext).changes) fun _ => .refl s
  refine changes_fst_ite (fun _ => ?_) fun _ => ?_
  · refine changes_ite (fun _ => (Change.setHyperlink _ fun text ht => ?_).changes) fun _ => .refl s
    split_ifs at ht with huri
    · obtain rfl : body = text := Option.some.inj ht
      exact { htext with uri := huri }
    · simp at ht
  refine changes_fst_ite (fun _ => .refl s) fun _ => ?_
  refine changes_fst_ite (fun h10 => ?_) fun _ => ?_
  · refine applyDynamicColors_changes s _ complete hbody (hlen.imp_right fun h => ?_)
    have := @lt_length_decimal number 1 (by omega)
    omega
  refine changes_fst_ite (fun _ => .refl s) fun _ => ?_
  refine changes_fst_ite (fun _ => ?_) fun _ => ?_
  · refine changes_ite (fun _ => Change.clearPalette.changes) fun _ => ?_
    exact erasePalette_changes s _
  refine changes_fst_ite (fun h110 => ?_) fun _ => ?_
  · exact (Change.insertDynamicColor (number - 110) []
      ⟨⟨by simp [Printable], by simp, by simp⟩, by omega, by simp [maximumPayload]⟩).changes
  exact changes_fst_ite (fun _ => .refl s) fun _ => .refl s

/-- Both branches, each under its condition. -/
theorem reads_ite {c : Prop} [Decidable c] {t a b : TerminalStreamTracker} (ha : c → Reads t a)
    (hb : ¬ c → Reads t b) : Reads t (if c then a else b) := by
  split
  exacts [ha ‹_›, hb ‹_›]

/-! ## Strings

A string that ends runs its command; one that is cut short does not. -/

/-- A command by its number. -/
theorem reads_finishOSC (finish : StringEnd) (hs : t.state = .oscString) :
    Reads t (t.finishOSC finish).1 := by
  rw [finishOSC]
  by_cases hfinish : finish ≠ .terminated
  · rw [if_pos hfinish]
    exact .refl t
  rw [if_neg hfinish]
  dsimp only
  by_cases hnone : (oscNumber 0 t.payload).2.length = t.payload.length
  · rw [if_pos hnone]
    exact .refl t
  rw [if_neg hnone]
  intro hb
  refine ⟨hb.congr rfl rfl rfl rfl id, ?_⟩
  obtain ⟨digits, hpayload, hdigits, hnumber⟩ := oscNumber_spec 0 t.payload
  set number := (oscNumber 0 t.payload).1
  set rest := (oscNumber 0 t.payload).2
  have hprintable := hb.payload_printable hs
  have hlen := hb.payload_length
  rw [hpayload] at hprintable hlen
  have hne : digits ≠ [] := by
    rintro rfl
    exact hnone (congrArg List.length hpayload).symm
  have hwidth := length_decimal_digitsValue_le hne hdigits
  rw [← hnumber] at hwidth
  rw [List.length_append] at hlen
  refine applyOSC_changes _ _ _ _ ?_ ?_
  · intro b hmem
    split at hmem
    · exact hprintable b (List.mem_append_right _ (List.mem_of_mem_tail hmem))
    · simp at hmem
  · cases hrest : rest with
    | nil => exact Or.inl (by simp)
    | cons c cs =>
      rw [hrest, List.length_cons] at hlen
      by_cases hc : c = 0x3B
      · refine Or.inr ?_
        simp only [hc, List.head?_cons, beq_self_eq_true, if_true, List.tail_cons]
        omega
      · exact Or.inl (by simp [hc])

/-- An APC string begins or goes on with a chunked picture. -/
theorem reads_finishAPC : Reads t t.finishAPC.1 := by
  rw [finishAPC]
  split
  all_goals exact reads_of_eq rfl rfl rfl rfl id rfl

/-- By the kind of the string. -/
theorem reads_finishString (finish : StringEnd) : Reads t (t.finishString finish).1 := by
  rw [finishString]
  split
  · exact reads_finishOSC t finish ‹_›
  · exact .refl t
  · exact reads_finishAPC t
  · exact .refl t

/-- Nothing is collected yet. -/
theorem reads_beginSequence (newState : ParserState) (offset : ℤ) :
    Reads t (t.beginSequence newState offset) := by
  rw [beginSequence]
  cases newState
  case ground => exact reads_state t (by decide)
  case oscString =>
    exact fun _ => ⟨⟨Nat.zero_le _, by simp [enterString, clear], Nat.zero_le _, Nat.zero_le _,
      by simp [enterString, Printable], by simp [enterString, maximumHead]⟩, .refl _⟩
  case apcString =>
    exact fun _ => ⟨⟨Nat.zero_le _, by simp [enterString, clear], Nat.zero_le _, Nat.zero_le _,
      by simp [enterString], by simp [enterString, maximumHead]⟩, .refl _⟩
  all_goals
    exact fun hb => ⟨⟨Nat.zero_le _, by simp [clear], Nat.zero_le _, hb.payload_length,
      by simp [clear], by simp [maximumHead]⟩, .refl _⟩

/-- What was collected is finished or dropped. -/
theorem reads_leave (newState : ParserState) (finish : StringEnd) (offset : ℤ) :
    Reads t (t.leave newState finish offset) := by
  have hfinished := (reads_pending t).trans (reads_finishString _ finish)
  unfold leave
  dsimp only
  refine Reads.trans ?_ (reads_beginSequence _ newState offset)
  generalize ({ t with terminatorPending := false } : TerminalStreamTracker).finishString finish = f
    at hfinished
  obtain ⟨f, leftOut⟩ := f
  cases leftOut
  · exact hfinished.trans (reads_of_eq rfl rfl rfl rfl id rfl)
  · exact hfinished.trans ((reads_excise _ _ _).trans (reads_of_eq rfl rfl rfl rfl id rfl))

/-- A C1 control, wherever it comes. -/
theorem reads_anywhere (byte : UInt8) (offset : ℤ) : Reads t (t.anywhere byte offset) := by
  unfold anywhere
  iterate 8 refine reads_ite (fun _ => reads_leave _ _ _ _) fun _ => ?_
  exact .refl t

/-! ## Dispatches

What a final byte does, by the intermediates before it. -/

/-- ST behind a string that ended by ESC. -/
theorem reads_stringTerminator (offset : ℤ) : Reads t (t.stringTerminator offset) :=
  reads_of_eq rfl rfl rfl rfl id rfl

/-- An escape sequence's final byte. -/
theorem reads_escapeDispatch (final : UInt8) (offset : ℤ) :
    Reads t (t.escapeDispatch final offset) := by
  unfold escapeDispatch
  refine reads_ite (fun _ => reads_stringTerminator t offset) fun _ => ?_
  refine (reads_pending t).trans ?_
  generalize ({ t with terminatorPending := false } : TerminalStreamTracker) = t
  dsimp only
  rcases t.intermediates with _ | ⟨intermediate, _ | ⟨_, _⟩⟩
  · refine reads_ite (fun _ => reads_mapTerminal fun _ => Change.saveCursor.changes) fun _ => ?_
    refine reads_ite (fun _ => reads_mapTerminal fun _ => Change.restoreCursor.changes) fun _ => ?_
    iterate 2
      refine reads_ite (fun _ => reads_mapTerminal fun _ =>
        (Change.setDECMode 66 _ (by decide)).changes) fun _ => ?_
    refine reads_ite (fun _ => reads_excise _ _ _) fun _ => ?_
    refine reads_ite (fun _ => reads_mapTerminal fun _ => Change.fullReset.changes) fun _ => ?_
    iterate 2
      refine reads_ite (fun _ => reads_mapTerminal fun _ =>
        (Change.invokeGL _ (by decide)).changes) fun _ => ?_
    iterate 3
      refine reads_ite (fun _ => reads_mapTerminal fun _ =>
        (Change.invokeGR _ (by decide)).changes) fun _ => ?_
    exact .refl t
  · dsimp only
    cases charsetSlot intermediate with
    | none => exact .refl t
    | some slot =>
      refine reads_ite (fun hfinal => ?_) fun _ => .refl t
      exact reads_mapTerminal fun _ => (Change.designateCharset slot final hfinal).changes
  · exact .refl t

/-- The parameters a dispatch hands on. -/
theorem Bounded.paramList {t : TerminalStreamTracker} (h : Bounded t) : ParamList t.params :=
  ⟨h.params_length, h.params_le⟩

/-- The first parameter fits 16 bits. -/
theorem Bounded.first_le {t : TerminalStreamTracker} (h : Bounded t) :
    t.params.head?.getD 0 ≤ 65535 := by
  cases hp : t.params with
  | nil => simp
  | cons v vs => exact h.params_le v (by simp [hp])

/-- And so does the second. -/
theorem Bounded.second_le {t : TerminalStreamTracker} (h : Bounded t) :
    t.params[1]?.getD 0 ≤ 65535 := by
  cases hp : t.params[1]? with
  | none => simp
  | some v => exact h.params_le v (List.mem_of_getElem? hp)

/-- One change for each parameter. -/
theorem reads_forEachParam {f : TerminalReplayState → ℕ → TerminalReplayState}
    (hf : ∀ s mode, mode ≤ 65535 → Change s (f s mode)) :
    Reads t (t.mapTerminal fun s => t.params.foldl f s) :=
  reads_mapTerminal fun hb => changes_foldl f t.params
    (fun mode hmode s => (hf s mode (hb.params_le mode hmode)).changes) t.terminal

/-- A CSI sequence whose parameters have no colons, but for SGR. -/
theorem reads_csiApply (final : UInt8) (offset : ℤ) (hcolons : final = 0x6D ∨ t.colons = 0) :
    Reads t (t.csiApply final offset) := by
  have hexcise : Reads t (t.excise t.sequenceStart (offset + 1)) := reads_excise _ _ _
  unfold csiApply
  dsimp only
  -- Modes.
  refine reads_ite (fun _ => ?_) fun _ => ?_
  · refine reads_ite (fun _ => ?_) fun _ => reads_ite (fun _ => ?_) fun _ => .refl t
    · exact reads_forEachParam t fun s mode hmode => .setDECMode mode _ hmode
    · exact reads_forEachParam t fun s mode _ => .setANSIMode mode _
  -- SGR, and the key formats.
  refine reads_ite (fun _ => ?_) fun hm => ?_
  · refine reads_ite (fun _ => ?_) fun _ => reads_ite (fun _ => ?_) fun _ =>
      reads_ite (fun _ => hexcise) fun _ => .refl t
    · exact reads_mapTerminal fun hb => (Change.applySGR t.colons t.params hb.paramList).changes
    · exact reads_mapTerminal fun hb =>
        (Change.modifyKeyFormat t.colons t.params 0x6D hb.paramList (Or.inl rfl)).changes
  refine reads_ite (fun _ => ?_) fun _ => ?_
  · refine reads_ite (fun _ => hexcise) fun _ => reads_ite (fun _ => ?_) fun _ => .refl t
    exact reads_mapTerminal fun hb => (Change.modifyKeyFormat t.colons t.params 0x6E hb.paramList
      (Or.inr ⟨rfl, hcolons.resolve_left hm⟩)).changes
  refine reads_ite (fun _ => reads_ite (fun _ => hexcise) fun _ => .refl t) fun _ => ?_
  -- Resets and requests.
  refine reads_ite (fun _ => ?_) fun _ => ?_
  · refine reads_ite (fun _ => reads_mapTerminal fun _ => Change.softReset.changes) fun _ => ?_
    exact reads_ite (fun _ => hexcise) fun _ => .refl t
  refine reads_ite (fun _ => ?_) fun _ => ?_
  · refine reads_ite (fun _ => reads_ite (fun _ => ?_) fun _ => .refl t) fun _ =>
      reads_ite (fun _ => hexcise) fun _ => .refl t
    exact reads_mapTerminal fun hb => (Change.cursorStyle _ hb.first_le).changes
  refine reads_ite (fun _ => ?_) fun _ => ?_
  · refine reads_ite (fun _ => reads_ite (fun _ => ?_) fun _ => .refl t) fun _ =>
      reads_ite (fun _ => ?_) fun _ => .refl t
    · refine reads_mapTerminal fun hb => (Change.setScrollRegion _ _ hb.first_le ?_).changes
      split_ifs
      exacts [hb.second_le, Nat.zero_le _]
    · exact reads_forEachParam t fun s mode hmode => .setDECMode mode _ hmode
  refine reads_ite (fun _ => ?_) fun _ => ?_
  · refine reads_ite (fun _ => reads_mapTerminal fun _ => Change.saveCursor.changes) fun _ =>
      reads_ite (fun _ => ?_) fun _ => .refl t
    exact reads_forEachParam t fun s mode hmode => .saveDECMode mode hmode
  refine reads_ite (fun _ => reads_ite (fun _ => hexcise) fun _ => .refl t) fun _ => ?_
  -- The cursor, and the kitty flags.
  refine reads_ite (fun _ => ?_) fun _ => ?_
  · refine reads_ite (fun _ => reads_mapTerminal fun _ => Change.restoreCursor.changes) fun _ => ?_
    refine reads_ite (fun _ => hexcise) fun _ => ?_
    refine reads_ite (fun _ => ?_) fun _ => reads_ite (fun _ => ?_) fun _ =>
      reads_ite (fun _ => ?_) fun _ => .refl t
    · refine reads_ite (fun _ => ?_) fun _ => reads_ite (fun _ => ?_) fun _ => .refl t
      all_goals exact reads_mapTerminal fun _ => (Change.kittyPush _).changes
    · exact reads_mapTerminal fun _ => (Change.kittyPop _).changes
    · refine reads_ite (fun _ => ?_) fun _ => .refl t
      exact reads_mapTerminal fun _ => (Change.kittySet _ _).changes
  refine reads_ite (fun _ => reads_ite (fun _ => hexcise) fun _ => .refl t) fun _ => ?_
  exact reads_ite (fun _ => reads_ite (fun _ => hexcise) fun _ => .refl t) fun _ => .refl t

/-- Any CSI sequence. -/
theorem reads_csiDispatch (final : UInt8) (offset : ℤ) : Reads t (t.csiDispatch final offset) := by
  unfold csiDispatch
  refine (reads_pending t).trans ?_
  generalize ({ t with terminatorPending := false } : TerminalStreamTracker) = t
  dsimp only
  refine reads_ite (fun _ => .refl t) fun hroom => ?_
  have hlast : Reads t
      (if 0 < t.paramDigits then { t with params := t.params ++ [t.paramValue] } else t) := by
    refine reads_ite (fun _ hb => ⟨⟨?_, ?_, hb.paramValue_le, hb.payload_length,
      hb.payload_printable, hb.head_length⟩, .refl _⟩) fun _ => .refl t
    · simp only [not_or, not_le] at hroom
      simpa using hroom.2
    · intro v hv
      rcases List.mem_append.mp hv with hv | hv
      · exact hb.params_le v hv
      · exact List.mem_singleton.mp hv ▸ hb.paramValue_le
  refine hlast.trans (reads_ite (fun _ => .refl _) fun hcolons => ?_)
  exact reads_csiApply _ final offset (by tauto)

/-! ## Bytes -/

theorem reads_execute (byte : UInt8) (offset : ℤ) : Reads t (t.execute byte offset) := by
  unfold execute
  refine reads_ite (fun _ => reads_excise _ _ _) fun _ => ?_
  iterate 2
    refine reads_ite (fun _ => reads_mapTerminal fun _ =>
      (Change.invokeGL _ (by decide)).changes) fun _ => ?_
  exact .refl t

theorem reads_enter (offset : ℤ) : Reads t (t.enter .escape offset) := fun hb =>
  ⟨⟨Nat.zero_le _, by simp [enter, clear], Nat.zero_le _, hb.payload_length, by simp [enter, clear],
    by simp [enter, maximumHead]⟩, .refl _⟩

theorem reads_resetUtf8 : Reads t t.resetUtf8 := reads_of_eq rfl rfl rfl rfl id rfl

theorem reads_utf8Lead (byte : UInt8) : Reads t (t.utf8Lead byte) := by
  unfold utf8Lead
  iterate 7 refine reads_ite (fun _ => reads_of_eq rfl rfl rfl rfl id rfl) fun _ => ?_
  exact .refl t

theorem reads_ground (byte : UInt8) (offset : ℤ) : Reads t (t.ground byte offset) := by
  have hbyte : ∀ (t : TerminalStreamTracker) (interrupts : Bool),
      Reads t (t.groundByte interrupts byte offset) := by
    intro t interrupts
    unfold groundByte
    refine reads_ite (fun _ => (reads_enter t offset).trans (reads_of_eq rfl rfl rfl rfl id rfl))
      fun _ => ?_
    refine reads_ite (fun _ => reads_record _ _) fun _ => ?_
    refine reads_ite (fun _ => reads_execute _ _ _) fun _ => ?_
    exact reads_ite (fun _ => .refl t) fun _ => reads_utf8Lead _ _
  unfold ground
  refine reads_ite (fun _ => reads_ite (fun _ => reads_of_eq rfl rfl rfl rfl id rfl) fun _ => ?_)
    fun _ => hbyte t false
  exact (reads_resetUtf8 t).trans (hbyte _ true)

/-- A byte a state passes over, or one that moves it where no payload is read. -/
theorem reads_sequenceByte (byte : UInt8) (offset : ℤ) : Reads t (t.sequenceByte byte offset) := by
  have hexecute := reads_execute t byte offset
  have hanywhere := reads_anywhere t byte offset
  have hescape :
      Reads t (({ t with state := .ground } : TerminalStreamTracker).escapeDispatch byte offset) :=
    (reads_state t (by decide)).trans (reads_escapeDispatch _ _ _)
  have hcsi :
      Reads t (({ t with state := .ground } : TerminalStreamTracker).csiDispatch byte offset) :=
    (reads_state t (by decide)).trans (reads_csiDispatch _ _ _)
  have hcollect : ∀ state, state ≠ .oscString → Reads t { t.collect byte with state := state } :=
    fun state h => (reads_collect t byte).trans (reads_state _ h)
  have hparam : ∀ state, state ≠ .oscString → Reads t { t.param byte with state := state } :=
    fun state h => (reads_param t byte).trans (reads_state _ h)
  have hhook : Reads t (t.hookDCS byte) :=
    reads_of_eq rfl rfl rfl rfl (fun h => absurd h (by simp [hookDCS])) rfl
  unfold sequenceByte
  split
  case h_1 => exact reads_ground t byte offset
  case h_2 =>
    refine reads_ite (fun _ => hexecute) fun _ => reads_ite (fun _ => .refl t) fun _ => ?_
    refine reads_ite (fun _ => hcollect _ (by decide)) fun _ => ?_
    refine reads_ite (fun _ => reads_state t (by decide)) fun _ => ?_
    refine reads_ite (fun _ => reads_enterString t _) fun _ => ?_
    refine reads_ite (fun _ => reads_state t (by decide)) fun _ => ?_
    refine reads_ite (fun _ => reads_enterString t _) fun _ => ?_
    exact reads_ite (fun _ => hescape) fun _ => hanywhere
  case h_3 =>
    refine reads_ite (fun _ => hexecute) fun _ =>
      reads_ite (fun _ => reads_collect t byte) fun _ => ?_
    refine reads_ite (fun _ => .refl t) fun _ => ?_
    exact reads_ite (fun _ => hescape) fun _ => hanywhere
  case h_4 =>
    refine reads_ite (fun _ => hexecute) fun _ => reads_ite (fun _ => .refl t) fun _ => ?_
    refine reads_ite (fun _ => hcsi) fun _ => ?_
    refine reads_ite (fun _ => reads_state t (by decide)) fun _ => ?_
    refine reads_ite (fun _ => hcollect _ (by decide)) fun _ => ?_
    refine reads_ite (fun _ => hparam _ (by decide)) fun _ => ?_
    exact reads_ite (fun _ => hcollect _ (by decide)) fun _ => hanywhere
  case h_5 =>
    refine reads_ite (fun _ => hexecute) fun _ =>
      reads_ite (fun _ => reads_param t byte) fun _ => ?_
    refine reads_ite (fun _ => .refl t) fun _ => reads_ite (fun _ => hcsi) fun _ => ?_
    refine reads_ite (fun _ => reads_state t (by decide)) fun _ => ?_
    exact reads_ite (fun _ => hcollect _ (by decide)) fun _ => hanywhere
  case h_6 =>
    refine reads_ite (fun _ => hexecute) fun _ =>
      reads_ite (fun _ => reads_collect t byte) fun _ => ?_
    refine reads_ite (fun _ => .refl t) fun _ => reads_ite (fun _ => hcsi) fun _ => ?_
    exact reads_ite (fun _ => reads_state t (by decide)) fun _ => hanywhere
  case h_7 =>
    refine reads_ite (fun _ => hexecute) fun _ => ?_
    refine reads_ite (fun _ => reads_state t (by decide)) fun _ => ?_
    exact reads_ite (fun _ => hanywhere) fun _ => .refl t
  case h_8 =>
    refine reads_ite (fun _ => .refl t) fun _ =>
      reads_ite (fun _ => hcollect _ (by decide)) fun _ => ?_
    refine reads_ite (fun _ => reads_state t (by decide)) fun _ => ?_
    refine reads_ite (fun _ => hparam _ (by decide)) fun _ => ?_
    refine reads_ite (fun _ => hcollect _ (by decide)) fun _ => ?_
    exact reads_ite (fun _ => hhook) fun _ => hanywhere
  case h_9 =>
    refine reads_ite (fun _ => .refl t) fun _ => reads_ite (fun _ => reads_param t byte) fun _ => ?_
    refine reads_ite (fun _ => reads_state t (by decide)) fun _ => ?_
    refine reads_ite (fun _ => hcollect _ (by decide)) fun _ => ?_
    exact reads_ite (fun _ => hhook) fun _ => hanywhere
  case h_10 =>
    refine reads_ite (fun _ => .refl t) fun _ =>
      reads_ite (fun _ => reads_collect t byte) fun _ => ?_
    refine reads_ite (fun _ => reads_state t (by decide)) fun _ => ?_
    exact reads_ite (fun _ => hhook) fun _ => hanywhere
  case h_11 => exact .refl t
  case h_12 => exact .refl t
  case h_13 =>
    refine reads_ite (fun _ => reads_leave _ _ _ _) fun _ => ?_
    exact reads_ite (fun h => reads_appendPayload t fun _ => h) fun _ => .refl t
  case h_14 hstate =>
    refine reads_ite (fun _ => reads_appendPayload t fun h => ?_) fun _ =>
      reads_ite (fun _ => hanywhere) fun _ => .refl t
    exact absurd (hstate.symm.trans h) (by decide)

theorem reads_sequence (byte : UInt8) (offset : ℤ) : Reads t (t.sequence byte offset) := by
  unfold sequence
  refine reads_ite (fun _ => reads_anywhere t byte offset) fun _ => ?_
  refine Reads.trans (fun hb => ?_) (reads_sequenceByte _ byte offset)
  refine reads_head t ?_ hb
  split_ifs with h
  · simpa using h
  · exact hb.head_length

/-! ## ZMODEM -/

theorem reads_beginZmodem (start : ℤ) : Reads t (t.beginZmodem start) := by
  unfold beginZmodem
  refine Reads.trans ?_ (reads_clear _)
  exact reads_of_eq rfl rfl rfl rfl (fun h => absurd h (by simp)) rfl

theorem reads_endZmodem (offset : ℤ) : Reads t (t.endZmodem offset) :=
  (reads_exciseConversation t offset).trans (reads_of_eq rfl rfl rfl rfl id rfl)

theorem reads_stepZmodemWith {again : TerminalStreamTracker → TerminalStreamTracker}
    (hagain : ∀ t, Reads t (again t)) (byte : UInt8) (offset : ℤ) :
    Reads t (t.stepZmodemWith again byte offset) := by
  have hmark : Reads t (t.trackPromptMark byte).1
      ∧ ((t.trackPromptMark byte).2 = true → byte = 0x41 ∨ byte = 0x44) := by
    simp only [trackPromptMark]
    split
    · exact ⟨reads_of_eq rfl rfl rfl rfl id rfl, fun _ => by tauto⟩
    · exact ⟨reads_of_eq rfl rfl rfl rfl id rfl, by simp⟩
  obtain ⟨hread, hbyte⟩ := hmark
  unfold stepZmodemWith
  dsimp only
  refine hread.trans ?_
  generalize (t.trackPromptMark byte).1 = t
  refine reads_ite (fun hmarked => ?_) fun _ => ?_
  · have hprint : Printable (ascii "133;" ++ [byte]) := by
      rcases hbyte hmarked with rfl | rfl <;> decide
    refine (reads_endZmodem t _).trans (fun hb => ⟨⟨Nat.zero_le _, by simp [enterString, clear],
      Nat.zero_le _, by simp [ascii, maximumPayload], fun _ => hprint,
      by simp [enterString, maximumHead]⟩, .refl _⟩)
  have hset : ∀ phase, Reads t { t with zmodem := phase } := fun _ =>
    reads_of_eq rfl rfl rfl rfl id rfl
  have hend : ∀ o, Reads t ((t.endZmodem o).ground byte offset) := fun o =>
    (reads_endZmodem t o).trans (reads_ground _ _ _)
  split
  · exact .refl t
  · refine reads_ite (fun _ => hset _) fun _ => ?_
    refine reads_ite (fun _ => (hset _).trans (hagain _)) fun _ => ?_
    exact reads_ite (fun _ => hset _) fun _ => hset _
  · exact reads_ite (fun _ => hend _) fun _ => .refl t
  · exact reads_ite (fun _ => hset _) fun _ => .refl t
  · refine reads_ite (fun _ => .refl t) fun _ => ?_
    exact reads_ite (fun _ => hset _) fun _ => hend _
  · refine reads_ite (fun _ => reads_endZmodem t _) fun _ => ?_
    exact ((reads_endZmodem t _).trans (reads_ground _ _ _)).trans (reads_ground _ _ _)

theorem reads_stepZmodem (byte : UInt8) (offset : ℤ) : Reads t (t.stepZmodem byte offset) :=
  reads_stepZmodemWith t (fun t => reads_stepZmodemWith t (fun t => .refl t) byte offset)
    byte offset

/-! ## Runs -/

theorem reads_step (byte : UInt8) (offset : ℤ) : Reads t (t.step byte offset) := by
  have hrecent : Reads t { t with recent := pushRecent t.recent byte } :=
    reads_of_eq rfl rfl rfl rfl id rfl
  unfold step
  refine hrecent.trans ?_
  refine reads_ite (fun _ => reads_stepZmodem _ _ _) fun _ => ?_
  refine reads_ite (fun _ => reads_beginZmodem _ _) fun _ => ?_
  exact reads_ite (fun _ => reads_ground _ _ _) fun _ => reads_sequence _ _ _

/-- **Reading is a run of changes**, and keeps the registers in their ranges. -/
theorem reads_run (bytes : List UInt8) (offset : ℤ) : Reads t (t.run bytes offset) := by
  induction bytes generalizing t offset with
  | nil => exact .refl t
  | cons b bs ih => exact (reads_step t b offset).trans (ih _ _)

/-- The terminal a stream leaves is reached by changes from a fresh one. -/
theorem changes_of_stream (stream : List UInt8) (offset : ℤ) :
    Changes {} (({} : TerminalStreamTracker).run stream offset).terminal :=
  (reads_run {} stream offset bounded_empty).2

end TerminalStreamTracker
