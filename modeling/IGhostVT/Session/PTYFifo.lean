import IGhostVT.Lib.Run
import IGhostVT.Session.PTYInput

/-!
# Session/PTYFifo — what is typed reaches the program once, in order

`PTYSession` asks the kernel through `writeAvailable`, which asks again after an `EINTR`.  Between
the direct write, the queue and its lazily dropped prefix, the bytes of the accepted writes are
neither lost, repeated nor reordered: `Holds` says that what the kernel took and what is pending are
together what was accepted, every operation keeps it (`Holds.write`, `Holds.flush`), and
`run_exactFifo` follows for every run.
-/

/-- One answer of the kernel to a `write` on the PTY. -/
inductive KernelAnswer
  /-- There is room for this many bytes: it takes them, or all it was offered if that is less. -/
  | room (count : ℕ)
  | EINTR
  | EAGAIN
  /-- Any other `errno`: the slave is closed. -/
  | error
deriving DecidableEq

namespace PTYSession

/-- One non-blocking write of `offered` bytes, the kernel answering in turn.  A kernel that has no
answer left has no room. -/
def writeAvailable (offered : ℕ) : List KernelAnswer → WriteOutcome
  | [] => .wouldBlock
  | .room count :: _ => .wrote (min count offered)
  | .EINTR :: answers => writeAvailable offered answers
  | .EAGAIN :: _ => .wouldBlock
  | .error :: _ => .failed

/-- What the successive writes of a flush come to, one list of answers each, `pending` bytes being
offered to the first. -/
def flushOutcomes : ℕ → List (List KernelAnswer) → List WriteOutcome
  | _, [] => [.wouldBlock]
  | pending, answers :: calls =>
    match writeAvailable pending answers with
    | .wrote count => .wrote count :: flushOutcomes (pending - count) calls
    | outcome => [outcome]

/-- What can happen to a session's input: a client writes, or the kernel makes room. -/
inductive KernelEvent
  | write (data : List UInt8) (paste : ℕ) (answers : List KernelAnswer)
  | flush (calls : List (List KernelAnswer))

/-- A client's write, and whether it was accepted. -/
def writing (s : PTYSession) (data : List UInt8) (paste : ℕ) (answers : List KernelAnswer) :
    PTYSession × Bool :=
  s.write data paste (writeAvailable data.length answers)

/-- A flush of what is pending. -/
def flushing (s : PTYSession) (calls : List (List KernelAnswer)) : PTYSession :=
  s.flushPendingInput (flushOutcomes s.pendingInputByteCount calls)

/-- The session after an event. -/
def react (s : PTYSession) : KernelEvent → PTYSession
  | .write data paste answers => (s.writing data paste answers).1
  | .flush calls => s.flushing calls

/-- The data of the writes a run accepts, in the order they were made. -/
def acceptedBytes (s : PTYSession) : List KernelEvent → List UInt8
  | [] => []
  | .write data paste answers :: events =>
    (if (s.writing data paste answers).2 then data else [])
      ++ acceptedBytes (s.react (.write data paste answers)) events
  | .flush calls :: events => acceptedBytes (s.react (.flush calls)) events

/-- The slave stays open: the kernel never answers with another error. -/
def KernelEvent.Open : KernelEvent → Prop
  | .write _ _ answers => .error ∉ answers
  | .flush calls => ∀ answers ∈ calls, .error ∉ answers

/-! ## What the kernel answers -/

theorem writeAvailable_cases (offered : ℕ) : ∀ answers : List KernelAnswer, .error ∉ answers →
    (∃ count ≤ offered, writeAvailable offered answers = .wrote count)
      ∨ writeAvailable offered answers = .wouldBlock
  | [], _ => Or.inr rfl
  | .room count :: _, _ => Or.inl ⟨min count offered, Nat.min_le_right _ _, rfl⟩
  | .EINTR :: answers, h =>
    writeAvailable_cases offered answers fun herror => h (List.mem_cons_of_mem _ herror)
  | .EAGAIN :: _, _ => Or.inr rfl
  | .error :: _, h => absurd List.mem_cons_self h

/-! ## The queue -/

/-- The pending bytes themselves. -/
def live (s : PTYSession) : List UInt8 := s.pendingInput.drop s.pendingInputOffset

@[simp] theorem length_live (s : PTYSession) : s.live.length = s.pendingInputByteCount :=
  List.length_drop

/-- **The queue holds `accepted`**: what the kernel took, then what is pending. -/
structure Holds (s : PTYSession) (accepted : List UInt8) : Prop where
  isAlive : s.isAlive = true
  offset : s.pendingInputOffset ≤ s.pendingInput.length
  bytes : s.taken ++ s.live = accepted
  bounded : s.pendingInputByteCount ≤ sessionPendingInputByteCount

variable {s : PTYSession} {accepted : List UInt8}

theorem live_eq_nil (h : s.pendingInputByteCount = 0) : s.live = [] :=
  List.length_eq_zero_iff.mp ((length_live s).trans h)

/-- What is queued behind the pending bytes is pending behind them. -/
theorem drop_append_live (h : s.pendingInputOffset ≤ s.pendingInput.length) (data : List UInt8) :
    (s.pendingInput ++ data).drop s.pendingInputOffset = s.live ++ data :=
  List.drop_append_of_le_length h

/-- **Data queued whole**: nothing is asked of the kernel. -/
theorem Holds.queue (h : s.Holds accepted) {data : List UInt8} (hfits : s.fits data) :
    Holds { s with pendingInput := s.pendingInput ++ data } (accepted ++ data) where
  isAlive := h.isAlive
  offset := by
    have := h.offset
    simp only [List.length_append]
    omega
  bytes := by
    rw [live, drop_append_live h.offset, ← List.append_assoc, h.bytes]
  bounded := by
    have hoffset := h.offset
    rw [fits, pendingInputByteCount] at hfits
    simp only [pendingInputByteCount, List.length_append]
    omega

/-- **Data of which the kernel takes the first `count` bytes**, nothing being pending before it. -/
theorem Holds.short (h : s.Holds accepted) {data : List UInt8}
    (hempty : s.pendingInputByteCount = 0) (hfits : s.fits data) (count : ℕ) :
    Holds { s with
      taken := s.taken ++ data.take count
      pendingInput := s.pendingInput ++ data.drop count } (accepted ++ data) where
  isAlive := h.isAlive
  offset := by
    have := h.offset
    simp only [List.length_append]
    omega
  bytes := by
    have htaken : s.taken = accepted := by rw [← h.bytes, live_eq_nil hempty, List.append_nil]
    rw [live, drop_append_live h.offset, live_eq_nil hempty, htaken, List.nil_append,
      List.append_assoc, List.take_append_drop]
  bounded := by
    have hoffset := h.offset
    rw [fits, hempty] at hfits
    rw [pendingInputByteCount] at hempty
    simp only [pendingInputByteCount, List.length_append, List.length_drop]
    omega

theorem Holds.accept (h : s.Holds accepted) {data : List UInt8} (hfits : s.fits data)
    {outcome : WriteOutcome} (hopen : outcome ≠ .failed) :
    Holds (s.accept data outcome) (accepted ++ data) := by
  unfold PTYSession.accept
  by_cases hempty : s.pendingInputByteCount = 0
  · rw [if_pos hempty]
    cases outcome with
    | wrote count =>
      by_cases hall : count = data.length
      · have hshort := h.short hempty hfits count
        rw [hall, List.take_length, List.drop_length, List.append_nil] at hshort
        simpa only [if_pos hall] using hshort
      · simpa only [if_neg hall] using h.short hempty hfits count
    | wouldBlock => exact h.queue hfits
    | failed => exact absurd rfl hopen
  · rw [if_neg hempty]
    exact h.queue hfits

/-- **A refused write leaves the queue and the kernel alone.** -/
theorem write_refused {data : List UInt8} {paste : ℕ} {outcome : WriteOutcome}
    (h : (s.write data paste outcome).2 = false) :
    (s.write data paste outcome).1.isAlive = s.isAlive
      ∧ (s.write data paste outcome).1.pendingInput = s.pendingInput
      ∧ (s.write data paste outcome).1.pendingInputOffset = s.pendingInputOffset
      ∧ (s.write data paste outcome).1.taken = s.taken := by
  unfold write at h ⊢
  split_ifs at h ⊢ <;> exact ⟨rfl, rfl, rfl, rfl⟩

theorem Holds.refused (h : s.Holds accepted) {data : List UInt8} {paste : ℕ}
    {outcome : WriteOutcome} (hrefused : (s.write data paste outcome).2 = false) :
    Holds (s.write data paste outcome).1 accepted := by
  obtain ⟨halive, hpending, hoffset, htaken⟩ := write_refused hrefused
  constructor
  · rw [halive, h.isAlive]
  · rw [hpending, hoffset]
    exact h.offset
  · rw [live, hpending, hoffset, htaken]
    exact h.bytes
  · rw [pendingInputByteCount, hpending, hoffset]
    exact h.bounded

/-- An accepted write was empty, or fitted and was taken in. -/
theorem write_accepted (halive : s.isAlive = true) {data : List UInt8} {paste : ℕ}
    {outcome : WriteOutcome} (h : (s.write data paste outcome).2 = true) :
    (data = [] ∧ (s.write data paste outcome).1 = s)
      ∨ (s.fits data ∧ (s.write data paste outcome).1 = s.accept data outcome) := by
  unfold write at h ⊢
  split_ifs at h ⊢ with hnothing hpaste hfits
  · exact Or.inl ⟨hnothing.resolve_left (by simp [halive]), rfl⟩
  · exact Or.inr ⟨hfits, rfl⟩

/-- **One write**: its data is added to what the queue holds if it is accepted. -/
theorem Holds.write (h : s.Holds accepted) {data : List UInt8} (paste : ℕ)
    {outcome : WriteOutcome} (hopen : outcome ≠ .failed) :
    Holds (s.write data paste outcome).1
      (accepted ++ if (s.write data paste outcome).2 then data else []) := by
  cases hanswer : (s.write data paste outcome).2 with
  | false => simpa using h.refused hanswer
  | true =>
    rcases write_accepted h.isAlive hanswer with ⟨rfl, hsame⟩ | ⟨hfits, htaken⟩
    · simpa [hsame] using h
    · simpa [htaken] using h.accept hfits hopen

theorem Holds.discard (h : s.Holds accepted) (hempty : s.pendingInputByteCount = 0) :
    Holds s.discardPendingInput accepted where
  isAlive := h.isAlive
  offset := Nat.le_refl 0
  bytes := by rw [← h.bytes, live_eq_nil hempty]; rfl
  bounded := Nat.zero_le _

theorem Holds.compact (h : s.Holds accepted) : Holds s.compactPendingInput accepted := by
  unfold compactPendingInput
  split_ifs
  · exact ⟨h.isAlive, Nat.zero_le _, h.bytes, by
      have hbounded := h.bounded
      simpa only [pendingInputByteCount, List.length_drop, Nat.sub_zero] using hbounded⟩
  · exact h

/-- Pending bytes the kernel takes. -/
theorem Holds.advance (h : s.Holds accepted) {count : ℕ}
    (hcount : count ≤ s.pendingInputByteCount) :
    Holds { s with
      taken := s.taken ++ s.live.take count
      pendingInputOffset := s.pendingInputOffset + count } accepted where
  isAlive := h.isAlive
  offset := by
    have := h.offset
    rw [pendingInputByteCount] at hcount
    dsimp only
    omega
  bytes := by
    have hlive : s.pendingInput.drop (s.pendingInputOffset + count) = s.live.drop count :=
      List.drop_drop.symm
    dsimp only [live] at hlive ⊢
    rw [hlive, List.append_assoc, List.take_append_drop]
    exact h.bytes
  bounded := by
    have := h.bounded
    simp only [pendingInputByteCount] at this ⊢
    omega

/-- **A flush** keeps what the queue holds, whatever the kernel answers. -/
theorem Holds.flush : ∀ (calls : List (List KernelAnswer)) {s : PTYSession},
    s.Holds accepted → (∀ answers ∈ calls, .error ∉ answers) →
    Holds (s.flushing calls) accepted := by
  intro calls
  induction calls with
  | nil =>
    intro s h _
    unfold flushing flushOutcomes flushPendingInput
    split_ifs with hempty
    · exact h.discard hempty
    · exact h.compact
  | cons answers calls ih =>
    intro s h hopen
    have hrest := fun as hmem => hopen as (List.mem_cons_of_mem _ hmem)
    unfold flushing flushOutcomes
    rcases writeAvailable_cases s.pendingInputByteCount answers (hopen answers List.mem_cons_self)
      with ⟨count, hcount, hwrote⟩ | hblock
    · rw [hwrote]
      dsimp only
      unfold flushPendingInput
      split_ifs with hempty
      · exact h.discard hempty
      · have hkept := ih (h.advance hcount) hrest
        have hleft : s.pendingInputByteCount - count
            = s.pendingInput.length - (s.pendingInputOffset + count) := by
          rw [pendingInputByteCount]
          omega
        rw [hleft]
        exact hkept
    · rw [hblock]
      dsimp only
      unfold flushPendingInput
      split_ifs with hempty
      · exact h.discard hempty
      · exact h.compact

/-- The storage the compaction leaves is at most twice the live bytes. -/
theorem length_compactPendingInput (s : PTYSession) :
    s.compactPendingInput.pendingInput.length ≤
      2 * s.compactPendingInput.pendingInputByteCount := by
  unfold compactPendingInput
  split_ifs with hdead
  · simp only [pendingInputByteCount]
    omega
  · simp only [pendingInputByteCount]
    omega

/-- **No flush leaves more dead bytes than live ones.** -/
theorem length_flushPendingInput : ∀ (outcomes : List WriteOutcome) (s : PTYSession),
    .wouldBlock ∈ outcomes → (s.flushPendingInput outcomes).pendingInput.length
      ≤ 2 * (s.flushPendingInput outcomes).pendingInputByteCount
  | [], _, h => absurd h List.not_mem_nil
  | outcome :: outcomes, s, h => by
    unfold flushPendingInput
    split_ifs
    · exact Nat.zero_le _
    · cases outcome with
      | wrote count =>
        have hrest : WriteOutcome.wouldBlock ∈ outcomes := by simpa using h
        exact length_flushPendingInput outcomes _ hrest
      | wouldBlock => exact length_compactPendingInput s
      | failed => exact Nat.zero_le _

theorem wouldBlock_mem_flushOutcomes : ∀ (calls : List (List KernelAnswer)) (pending : ℕ),
    (∀ answers ∈ calls, .error ∉ answers) → .wouldBlock ∈ flushOutcomes pending calls
  | [], _, _ => List.mem_cons_self
  | answers :: calls, pending, h => by
    unfold flushOutcomes
    rcases writeAvailable_cases pending answers (h answers List.mem_cons_self)
      with ⟨count, -, hwrote⟩ | hblock
    · rw [hwrote]
      exact List.mem_cons_of_mem _ (wouldBlock_mem_flushOutcomes calls _ fun as hmem =>
        h as (List.mem_cons_of_mem _ hmem))
    · rw [hblock]
      exact List.mem_cons_self

/-! ## Runs -/

theorem writeAvailable_ne_failed {offered : ℕ} {answers : List KernelAnswer}
    (h : .error ∉ answers) : writeAvailable offered answers ≠ .failed := by
  rcases writeAvailable_cases offered answers h with ⟨count, -, hwrote⟩ | hblock
  · rw [hwrote]
    nofun
  · rw [hblock]
    nofun

theorem Holds.run : ∀ (events : List KernelEvent) {s : PTYSession} {accepted : List UInt8},
    s.Holds accepted → (∀ e ∈ events, e.Open) →
      Holds (Run.after react s events) (accepted ++ acceptedBytes s events) := by
  intro events
  induction events with
  | nil =>
    intro s accepted h _
    rw [acceptedBytes, List.append_nil]
    exact h
  | cons e events ih =>
    intro s accepted h hopen
    have hrest := fun f hf => hopen f (List.mem_cons_of_mem _ hf)
    have he := hopen e List.mem_cons_self
    cases e with
    | write data paste answers =>
      rw [acceptedBytes, ← List.append_assoc]
      exact ih (h.write paste (writeAvailable_ne_failed he)) hrest
    | flush calls => exact ih (h.flush calls he) hrest

/-- **PTY input is an exact bounded FIFO.**  After any run on an open slave, what the kernel took
and what is pending are together the accepted writes in order, the pending bytes are within the
limit, a write that is refused now changes neither, and a flush that leaves anything pending keeps
at most twice the storage it needs. -/
theorem run_exactFifo (events : List KernelEvent) (hopen : ∀ e ∈ events, e.Open) :
    let s := Run.after react {} events
    s.taken ++ s.live = acceptedBytes {} events
      ∧ s.pendingInputByteCount ≤ sessionPendingInputByteCount
      ∧ (∀ data paste answers, (s.writing data paste answers).2 = false →
          (s.writing data paste answers).1.live = s.live
            ∧ (s.writing data paste answers).1.taken = s.taken)
      ∧ ∀ calls, (KernelEvent.flush calls).Open →
          (s.flushing calls).pendingInput.length ≤
          2 * (s.flushing calls).pendingInputByteCount := by
  have hstart : Holds {} [] := ⟨rfl, Nat.le_refl 0, rfl, Nat.zero_le _⟩
  have h := hstart.run events hopen
  rw [List.nil_append] at h
  refine ⟨h.bytes, h.bounded, fun data paste answers hrefused => ?_, fun calls hcalls => ?_⟩
  · obtain ⟨-, hpending, hoffset, htaken⟩ := write_refused hrefused
    refine ⟨?_, htaken⟩
    rw [live, live]
    exact congrArg₂ (fun offset bytes => List.drop offset bytes) hoffset hpending
  · exact length_flushPendingInput _ _ (wouldBlock_mem_flushOutcomes calls _ hcalls)

/-- Three bytes of which an interrupted write takes one, a second write behind them, and a flush the
kernel stops short of. -/
def shortWrites : List KernelEvent :=
  [.write [0x61, 0x62, 0x63] 0 [.EINTR, .room 1], .write [0x64] 7 [], .flush [[.room 1], [.EAGAIN]]]

theorem open_shortWrites : ∀ e ∈ shortWrites, e.Open := by
  simp [shortWrites, KernelEvent.Open]

/-- Two bytes are with the kernel and two pending, of the four accepted. -/
theorem run_shortWrites :
    let s := Run.after react {} shortWrites
    s.taken = [0x61, 0x62] ∧ s.live = [0x63, 0x64]
      ∧ s.taken ++ s.live = acceptedBytes {} shortWrites := by
  exact ⟨by decide, by decide, (run_exactFifo shortWrites open_shortWrites).1⟩

end PTYSession
