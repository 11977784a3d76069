import Mathlib.Algebra.Group.Nat.Defs
import Mathlib.Data.List.Basic
import Mathlib.Data.List.Pairwise
import Mathlib.Tactic.SplitIfs

/-!
# Session/PTYInput — input waiting for a program to read it

The input side of `PTYSession`: what the kernel does not take waits in `pendingInput`, a write past
the limit is refused whole, and a paste one chunk of which was refused stays refused
(`refusedPaste`).

`refusedPaste` holds *one* paste.  A chunk of a second paste refused for want of room displaces the
first, whose next chunk is then taken if the queue has drained meanwhile: what arrives of the first
paste has a hole in it (`paste_with_a_hole`).  `accepted_prefix` says that nothing else goes wrong.
-/

/-- What one non-blocking write to the PTY came to. -/
inductive WriteOutcome
  /-- The kernel took this many bytes. -/
  | wrote (count : ℕ)
  /-- It took none: `EAGAIN`. -/
  | wouldBlock
  /-- The slave is closed. -/
  | failed
deriving DecidableEq

/-- Input one session holds for a program that is not reading, `4 << 20` bytes. -/
def sessionPendingInputByteCount : ℕ := 4 * 2 ^ 20

/-- The input side of a session. -/
structure PTYSession where
  isAlive : Bool := true
  /-- Input the kernel has not taken yet, oldest first, behind a prefix it has. -/
  pendingInput : List UInt8 := []
  pendingInputOffset : ℕ := 0
  /-- The paste a chunk of which was last refused. -/
  refusedPaste : ℕ := 0
  /-- What the kernel has taken, oldest first. -/
  taken : List UInt8 := []
deriving DecidableEq

namespace PTYSession

/-- Input accepted but not yet handed to the kernel. -/
def pendingInputByteCount (s : PTYSession) : ℕ := s.pendingInput.length - s.pendingInputOffset

/-- Whether `data` fits beside what is pending. -/
def fits (s : PTYSession) (data : List UInt8) : Prop :=
  s.pendingInputByteCount + data.length ≤ sessionPendingInputByteCount

instance (s : PTYSession) (data : List UInt8) : Decidable (s.fits data) :=
  inferInstanceAs (Decidable (_ ≤ _))

/-- `data` taken in, `outcome` being what the kernel says if it is asked. -/
def accept (s : PTYSession) (data : List UInt8) (outcome : WriteOutcome) : PTYSession :=
  if s.pendingInputByteCount = 0 then
    match outcome with
    | .wrote count =>
      if count = data.length then { s with taken := s.taken ++ data }
      else
        { s with
          taken := s.taken ++ data.take count
          pendingInput := s.pendingInput ++ data.drop count }
    | .wouldBlock => { s with pendingInput := s.pendingInput ++ data }
    | .failed => s
  else { s with pendingInput := s.pendingInput ++ data }

/-- Input for the program; `false` when it was refused whole.  `paste` names the input `data` is a
chunk of, `0` for input that is one message. -/
def write (s : PTYSession) (data : List UInt8) (paste : ℕ) (outcome : WriteOutcome) :
    PTYSession × Bool :=
  if s.isAlive = false ∨ data = [] then (s, true)
  else if paste ≠ 0 ∧ paste = s.refusedPaste then (s, false)
  else if ¬ s.fits data then
    ({ s with refusedPaste := if paste ≠ 0 then paste else s.refusedPaste }, false)
  else (s.accept data outcome, true)

/-- Drops the already-written prefix once it outweighs what is left. -/
def compactPendingInput (s : PTYSession) : PTYSession :=
  if s.pendingInput.length - s.pendingInputOffset < s.pendingInputOffset then
    { s with pendingInput := s.pendingInput.drop s.pendingInputOffset, pendingInputOffset := 0 }
  else s

def discardPendingInput (s : PTYSession) : PTYSession :=
  { s with pendingInput := [], pendingInputOffset := 0 }

/-- The master has room again: pending input pushed, the kernel answering `outcomes` in turn. -/
def flushPendingInput (s : PTYSession) : List WriteOutcome → PTYSession
  | [] => s
  | outcome :: outcomes =>
    if s.pendingInputByteCount = 0 then s.discardPendingInput
    else
      match outcome with
      | .wrote count =>
        flushPendingInput
          { s with
            taken := s.taken ++ (s.pendingInput.drop s.pendingInputOffset).take count
            pendingInputOffset := s.pendingInputOffset + count } outcomes
      | .wouldBlock => s.compactPendingInput
      | .failed => s.discardPendingInput

/-! ## Runs -/

/-- A chunk as clients send it: never empty. -/
abbrev Chunk := { data : List UInt8 // data ≠ [] }

/-- What can happen to a live session's input: a chunk arrives, or the kernel makes room. -/
inductive InputEvent
  | write (data : Chunk) (paste : ℕ) (outcome : WriteOutcome)
  | flush (outcomes : List WriteOutcome)

/-- The session after an event. -/
def step (s : PTYSession) : InputEvent → PTYSession
  | .write data paste outcome => (s.write data.1 paste outcome).1
  | .flush outcomes => s.flushPendingInput outcomes

/-- **Which chunks of `paste` a run accepts**, in the order they arrive. -/
def decisions (paste : ℕ) (s : PTYSession) : List InputEvent → List Bool
  | [] => []
  | .write data p outcome :: events =>
    let rest := decisions paste (s.step (.write data p outcome)) events
    if p = paste then (s.write data.1 p outcome).2 :: rest else rest
  | .flush outcomes :: events => decisions paste (s.step (.flush outcomes)) events

/-- `event` carries a chunk of `paste`. -/
def InputEvent.Carries (paste : ℕ) : InputEvent → Prop
  | .write _ p _ => p = paste
  | .flush _ => False

/-- **No remembered refusal is displaced too early**: a chunk of one paste is refused for want of
room only while no other paste that still has a chunk to come is remembered as refused. -/
def NoDisplacement (s : PTYSession) : List InputEvent → Prop
  | [] => True
  | .write data p outcome :: events =>
    (p ≠ 0 → s.refusedPaste ≠ 0 → s.refusedPaste ≠ p → ¬ s.fits data.1 →
        ∀ e ∈ events, ¬ e.Carries s.refusedPaste)
      ∧ NoDisplacement (s.step (.write data p outcome)) events
  | .flush outcomes :: events => NoDisplacement (s.step (.flush outcomes)) events

/-- Accepted chunks come first: a `true` has no `false` before it. -/
def IsPrefix (decisions : List Bool) : Prop := decisions.Pairwise fun a b => b = true → a = true

/-! ## What a step keeps -/

@[simp] theorem accept_isAlive (s : PTYSession) (data : List UInt8) (outcome : WriteOutcome) :
    (s.accept data outcome).isAlive = s.isAlive := by
  unfold accept
  repeat' split
  all_goals rfl

@[simp] theorem accept_refusedPaste (s : PTYSession) (data : List UInt8) (outcome : WriteOutcome) :
    (s.accept data outcome).refusedPaste = s.refusedPaste := by
  unfold accept
  repeat' split
  all_goals rfl

theorem flushPendingInput_keeps (outcomes : List WriteOutcome) : ∀ s : PTYSession,
    (s.flushPendingInput outcomes).isAlive = s.isAlive
      ∧ (s.flushPendingInput outcomes).refusedPaste = s.refusedPaste := by
  induction outcomes with
  | nil => exact fun s => ⟨rfl, rfl⟩
  | cons outcome outcomes ih =>
    intro s
    unfold flushPendingInput
    split_ifs
    · exact ⟨rfl, rfl⟩
    · cases outcome with
      | wrote count => exact ih _
      | wouldBlock =>
        rw [compactPendingInput]
        split_ifs <;> exact ⟨rfl, rfl⟩
      | failed => exact ⟨rfl, rfl⟩

theorem step_isAlive (s : PTYSession) (e : InputEvent) : (s.step e).isAlive = s.isAlive := by
  cases e with
  | write data p outcome =>
    rw [step, write]
    split_ifs <;> simp
  | flush outcomes => exact (flushPendingInput_keeps outcomes s).1

/-- What a live session answers a chunk, and which refusal it then remembers. -/
theorem write_cases {s : PTYSession} (halive : s.isAlive = true) (data : Chunk) (p : ℕ)
    (outcome : WriteOutcome) :
    (p ≠ 0 ∧ p = s.refusedPaste ∧ s.write data.1 p outcome = (s, false))
      ∨ (¬ (p ≠ 0 ∧ p = s.refusedPaste) ∧ ¬ s.fits data.1
          ∧ (s.write data.1 p outcome).2 = false
          ∧ (s.write data.1 p outcome).1.refusedPaste = if p ≠ 0 then p else s.refusedPaste)
      ∨ (¬ (p ≠ 0 ∧ p = s.refusedPaste) ∧ s.fits data.1
          ∧ (s.write data.1 p outcome).2 = true
          ∧ (s.write data.1 p outcome).1.refusedPaste = s.refusedPaste) := by
  have hlive : ¬ (s.isAlive = false ∨ data.1 = []) := by simp [halive, data.2]
  rw [write, if_neg hlive]
  by_cases hremembered : p ≠ 0 ∧ p = s.refusedPaste
  · exact Or.inl ⟨hremembered.1, hremembered.2, if_pos hremembered⟩
  · rw [if_neg hremembered]
    by_cases hfits : s.fits data.1
    · refine Or.inr (Or.inr ⟨hremembered, hfits, ?_⟩)
      simp [hfits]
    · refine Or.inr (Or.inl ⟨hremembered, hfits, ?_⟩)
      simp [hfits]

/-! ## What a run accepts -/

theorem decisions_of_not_carries {paste : ℕ} : ∀ (events : List InputEvent) (s : PTYSession),
    (∀ e ∈ events, ¬ e.Carries paste) → decisions paste s events = [] := by
  intro events
  induction events with
  | nil => intros; rfl
  | cons e events ih =>
    intro s h
    have hrest := fun f hf => h f (List.mem_cons_of_mem _ hf)
    cases e with
    | write data p outcome =>
      have hp : p ≠ paste := h (.write data p outcome) List.mem_cons_self
      rw [decisions, if_neg hp, ih _ hrest]
    | flush outcomes => exact ih _ hrest

/-- **A remembered refusal refuses the rest of its paste.** -/
theorem decisions_of_remembered {paste : ℕ} (hpaste : paste ≠ 0) :
    ∀ (events : List InputEvent) (s : PTYSession), s.isAlive = true → s.refusedPaste = paste →
      NoDisplacement s events → ∀ d ∈ decisions paste s events, d = false := by
  intro events
  induction events with
  | nil =>
    intro s _ _ _ d hd
    simp [decisions] at hd
  | cons e events ih =>
    intro s halive hrefused hok d hd
    have halive' := (step_isAlive s e).trans halive
    cases e with
    | flush outcomes =>
      exact ih _ halive' ((flushPendingInput_keeps outcomes s).2.trans hrefused) hok d hd
    | write data p outcome =>
      obtain ⟨hdisplace, hok⟩ := hok
      rw [decisions] at hd
      by_cases hp : p = paste
      · subst hp
        rw [if_pos rfl] at hd
        have hwrite : s.write data.1 p outcome = (s, false) := by
          rcases write_cases halive data p outcome with h | h | h
          · exact h.2.2
          · exact absurd ⟨hpaste, hrefused.symm⟩ h.1
          · exact absurd ⟨hpaste, hrefused.symm⟩ h.1
        rcases List.mem_cons.mp hd with rfl | hd
        · rw [hwrite]
        · exact ih _ halive' (by rw [step, hwrite]; exact hrefused) hok d hd
      · rw [if_neg hp] at hd
        rcases write_cases halive data p outcome with h | h | h
        · exact absurd (h.2.1.trans hrefused) hp
        · by_cases hp0 : p = 0
          · have hkeep : (s.step (.write data p outcome)).refusedPaste = paste := by
              rw [step, h.2.2.2, if_neg (not_not.mpr hp0), hrefused]
            exact ih _ halive' hkeep hok d hd
          · -- The refusal is displaced here: the paste has no chunk left to come.
            have hnone := hdisplace hp0 (hrefused ▸ hpaste)
              (fun hc => hp (hc.symm.trans hrefused)) h.2.1
            rw [decisions_of_not_carries events _ (hrefused ▸ hnone)] at hd
            simp at hd
        · exact ih _ halive' (by rw [step, h.2.2.2, hrefused]) hok d hd

theorem isPrefix_decisions {paste : ℕ} (hpaste : paste ≠ 0) :
    ∀ (events : List InputEvent) (s : PTYSession), s.isAlive = true → NoDisplacement s events →
      IsPrefix (decisions paste s events) := by
  intro events
  induction events with
  | nil => intro s _ _; exact List.Pairwise.nil
  | cons e events ih =>
    intro s halive hok
    have halive' := (step_isAlive s e).trans halive
    cases e with
    | flush outcomes => exact ih _ halive' hok
    | write data p outcome =>
      obtain ⟨hdisplace, hok⟩ := hok
      have hrest := ih _ halive' hok
      rw [decisions]
      by_cases hp : p = paste
      · subst hp
        rw [if_pos rfl]
        refine List.pairwise_cons.mpr ⟨fun d hd hacc => ?_, hrest⟩
        rcases write_cases halive data p outcome with h | h | h
        · have hkeep : (s.step (.write data p outcome)).refusedPaste = p := by
            rw [step, h.2.2]
            exact h.2.1.symm
          exact absurd (decisions_of_remembered hpaste events _ halive' hkeep hok d hd)
            (by simp [hacc])
        · have hkeep : (s.step (.write data p outcome)).refusedPaste = p := by
            rw [step, h.2.2.2, if_pos hpaste]
          exact absurd (decisions_of_remembered hpaste events _ halive' hkeep hok d hd)
            (by simp [hacc])
        · exact h.2.2.1
      · rw [if_neg hp]
        exact hrest

/-- **A paste arrives whole or as a prefix** in every run that displaces no refusal of a paste with
chunks to come, whatever the interleaving with other pastes, plain input and drains. -/
theorem accepted_prefix (events : List InputEvent) (h : NoDisplacement {} events) (paste : ℕ)
    (hpaste : paste ≠ 0) : IsPrefix (decisions paste {} events) :=
  isPrefix_decisions hpaste events {} rfl h

/-! ## A full queue -/

/-- The queue filled by four mebibytes of plain input, `full` being one. -/
def fillingRun (full : Chunk) : List InputEvent :=
  List.replicate 4 (.write full 0 .wouldBlock)

/-- A chunk of paste 1 refused at a full queue, the queue drained, and its next chunk. -/
def refusedRun (full one : Chunk) : List InputEvent :=
  fillingRun full ++ [.write one 1 .wouldBlock, .flush [.wrote 4194304], .write one 1 .wouldBlock]

/-- The same with a chunk of paste 2 refused before the queue drains. -/
def displacingRun (full one : Chunk) : List InputEvent :=
  fillingRun full ++ [.write one 1 .wouldBlock, .write one 2 .wouldBlock, .flush [.wrote 4194304],
    .write one 1 .wouldBlock]

theorem noDisplacement_refusedRun {full one : Chunk} (hfull : full.1.length = 1048576)
    (hone : one.1.length = 1) : NoDisplacement {} (refusedRun full one) := by
  simp [refusedRun, fillingRun, List.replicate, NoDisplacement, step, write, fits, accept,
    pendingInputByteCount, sessionPendingInputByteCount, flushPendingInput, hfull, hone, full.2,
    one.2]

theorem decisions_displacingRun {full one : Chunk} (hfull : full.1.length = 1048576)
    (hone : one.1.length = 1) : decisions 1 {} (displacingRun full one) = [false, true] := by
  simp [displacingRun, fillingRun, List.replicate, decisions, step, write, fits, accept,
    pendingInputByteCount, sessionPendingInputByteCount, flushPendingInput, hfull, hone, full.2,
    one.2]

/-- A mebibyte of plain input, as much as one message carries. -/
def mebibyte : Chunk :=
  ⟨List.replicate 1048576 0x61,
    List.ne_nil_of_length_pos (by rw [List.length_replicate]; decide)⟩

theorem length_mebibyte : mebibyte.1.length = 1048576 := by
  rw [mebibyte, List.length_replicate]

/-- One byte of a paste. -/
def oneByte : Chunk := ⟨[0x62], List.cons_ne_nil _ _⟩

/-- One paste refused at a full queue, its next chunk refused though the queue drained. -/
theorem accepted_prefix_refusedRun : IsPrefix (decisions 1 {} (refusedRun mebibyte oneByte)) :=
  accepted_prefix _ (noDisplacement_refusedRun length_mebibyte rfl) 1 Nat.one_ne_zero

/-- **A paste with a hole**: its first chunk is refused and its second accepted, the refusal having
been displaced by another paste's. -/
theorem paste_with_a_hole :
    decisions 1 {} (displacingRun mebibyte oneByte) = [false, true]
      ∧ ¬ IsPrefix (decisions 1 {} (displacingRun mebibyte oneByte)) := by
  have h := @decisions_displacingRun mebibyte oneByte length_mebibyte rfl
  refine ⟨h, ?_⟩
  rw [h]
  simp [IsPrefix]

end PTYSession
