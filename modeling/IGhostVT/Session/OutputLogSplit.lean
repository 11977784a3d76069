import IGhostVT.Session.Consume
import IGhostVT.Session.OutputLog

/-!
# Session/OutputLogSplit — the log answers for the stream, not for its chunks

Appends trim lazily, so what a log physically holds depends on how the stream was cut.
`LogInvariant` says what it holds all the same: the stream from `startOffset` on, the state of a
tracker over exactly what was dropped, and always the newest `capacity` bytes.  Every answer is then
the answer of the `untrimmed` log, which never dropped a byte.
-/

namespace SessionOutputLog

open TerminalStreamTracker

/-- The log of a stream that never dropped a byte. -/
def untrimmed (capacity : ℕ) (stream : List UInt8) : SessionOutputLog :=
  { capacity := capacity, buffer := stream }

/-- **What a log holds of the stream appended to it.** -/
structure LogInvariant (capacity : ℕ) (stream : List UInt8) (log : SessionOutputLog) : Prop where
  capacity_eq : log.capacity = capacity
  startOffset_le : log.startOffset ≤ stream.length
  buffer_eq : log.buffer = stream.drop log.startOffset
  startState_eq : log.startState = ({} : TerminalStreamTracker).run (stream.take log.startOffset) 0
  /-- Trimming keeps a replay's worth. -/
  retained : log.startOffset = 0 ∨ log.startOffset + capacity ≤ stream.length
  storage_le : log.buffer.length ≤ 2 * capacity

variable {capacity : ℕ} {stream : List UInt8} {log : SessionOutputLog}

theorem logInvariant_empty (capacity : ℕ) : LogInvariant capacity [] { capacity := capacity } where
  capacity_eq := rfl
  startOffset_le := le_rfl
  buffer_eq := rfl
  startState_eq := rfl
  retained := Or.inl rfl
  storage_le := Nat.zero_le _

/-- **One append keeps the invariant**, trimmed or not. -/
theorem LogInvariant.append (h : LogInvariant capacity stream log) (data : List UInt8) :
    LogInvariant capacity (stream ++ data) (log.append data) := by
  have hstart := h.startOffset_le
  have hbuffer : log.buffer ++ data = (stream ++ data).drop log.startOffset := by
    rw [h.buffer_eq, List.drop_append_of_le_length hstart]
  have hlen : (log.buffer ++ data).length = stream.length + data.length - log.startOffset := by
    rw [hbuffer, List.length_drop, List.length_append]
  have hcap := h.capacity_eq
  rw [SessionOutputLog.append]
  split_ifs with hsmall
  · exact
      { capacity_eq := hcap
        startOffset_le := by rw [List.length_append]; exact hstart.trans (Nat.le_add_right _ _)
        buffer_eq := hbuffer
        startState_eq := by
          change log.startState = _
          rw [h.startState_eq, List.take_append_of_le_length hstart]
        retained := h.retained.imp_right fun hr => by
          rw [List.length_append]
          exact hr.trans (Nat.le_add_right _ _)
        storage_le := hcap ▸ hsmall }
  · rw [hcap] at hsmall
    simp only [hcap]
    set dropped := (log.buffer ++ data).length - capacity with hdropped
    have hend : log.startOffset + dropped + capacity = (stream ++ data).length := by
      rw [List.length_append]
      omega
    refine
      { capacity_eq := rfl
        startOffset_le := by dsimp only; omega
        buffer_eq := by
          dsimp only
          rw [hbuffer, List.drop_drop]
        startState_eq := ?_
        retained := Or.inr hend.le
        storage_le := by
          dsimp only
          rw [List.length_drop]
          omega }
    have htake : (stream ++ data).take (log.startOffset + dropped)
        = stream.take log.startOffset ++ (log.buffer ++ data).take dropped := by
      rw [List.take_add, hbuffer, List.take_append_of_le_length hstart]
    dsimp only
    rw [consume_eq_run, h.startState_eq, htake, run_append, List.length_take,
      Nat.min_eq_left hstart, zero_add]

/-- **…and so does a run of appends.** -/
theorem LogInvariant.foldl_append (h : LogInvariant capacity stream log) :
    ∀ chunks : List (List UInt8),
      LogInvariant capacity (stream ++ chunks.flatten)
        (chunks.foldl SessionOutputLog.append log) := by
  intro chunks
  induction chunks generalizing stream log with
  | nil => simpa using h
  | cons data chunks ih =>
    rw [List.flatten_cons, ← List.append_assoc]
    exact ih (h.append data)

theorem logInvariant_afterAppends (capacity : ℕ) (chunks : List (List UInt8)) :
    LogInvariant capacity chunks.flatten (afterAppends capacity chunks) :=
  (logInvariant_empty capacity).foldl_append chunks

theorem LogInvariant.endOffset_eq (h : LogInvariant capacity stream log) :
    log.endOffset = stream.length := by
  have := h.startOffset_le
  rw [endOffset, h.buffer_eq, List.length_drop]
  omega

/-! ## Where a rebuild starts reading -/

/-- The bytes left are a tail of those given. -/
theorem seekQuiescent_suffix (t : TerminalStreamTracker) (bs : List UInt8) (o : ℤ) :
    (seekQuiescent t bs o).2 <:+ bs := by
  induction bs generalizing t o with
  | nil => exact List.suffix_rfl
  | cons b bs ih =>
    rw [seekQuiescent]
    split_ifs
    · exact List.suffix_rfl
    · exact (ih _ _).trans (List.suffix_cons b bs)

/-- A tracker that has read a trimmed stretch stands where one that reads the whole stream does. -/
theorem LogInvariant.consume_window (h : LogInvariant capacity stream log) :
    log.startState.consume (log.buffer.take (log.buffer.length - capacity)) log.startOffset
      = ({} : TerminalStreamTracker).consume (stream.take (stream.length - capacity)) 0 := by
  have hstart := h.startOffset_le
  have hlen : log.startOffset + (log.buffer.length - capacity) = stream.length - capacity := by
    rw [h.buffer_eq, List.length_drop]
    have := h.retained
    omega
  rw [consume_eq_run, consume_eq_run, h.startState_eq, ← hlen, List.take_add, run_append,
    List.length_take, Nat.min_eq_left hstart, zero_add, h.buffer_eq]

/-! ## Splicing -/

/-- The excisions carry stream offsets, so what they leave does not depend on where the buffer
starts. -/
theorem spliced_drop (bytes : List UInt8) {k : ℕ} (hk : k ≤ bytes.length) :
    ∀ (es : List Excision) (cursor : ℕ),
      spliced (bytes.drop k) k cursor es = spliced bytes 0 (k + cursor) es := by
  intro es
  induction es with
  | nil => intro cursor; rw [spliced, spliced, List.drop_drop]
  | cons e es ih =>
    intro cursor
    have hmax : ∀ (a : ℕ) (z : ℤ), max (k + a) (z - 0).toNat = k + max a (z - k).toNat := by
      intro a z
      omega
    have hmin : ∀ a : ℕ, min bytes.length (k + a) = k + min (bytes.drop k).length a := by
      intro a
      rw [List.length_drop]
      omega
    rw [spliced, spliced, ih, hmax, hmin, hmax, hmin, List.take_drop, List.drop_drop,
      ← Nat.add_max_add_left]

/-- What a replay of a stretch says does not depend on how much before it was trimmed. -/
theorem rebuiltFrom_drop (bytes : List UInt8) {k : ℕ} (hk : k ≤ bytes.length)
    (t : TerminalStreamTracker) {rest : List UInt8} (hrest : rest.length ≤ bytes.length - k) :
    rebuiltFrom (bytes.drop k) k t rest = rebuiltFrom bytes 0 t rest := by
  have hstart : k + ((bytes.drop k).length - rest.length) = bytes.length - rest.length := by
    rw [List.length_drop]
    omega
  have hstart' : (k : ℤ) + (((bytes.drop k).length - rest.length : ℕ) : ℤ)
      = 0 + ((bytes.length - rest.length : ℕ) : ℤ) := by
    rw [zero_add]
    exact_mod_cast hstart
  have hcount : (k : ℤ) + ((bytes.drop k).length : ℤ) = 0 + (bytes.length : ℤ) := by
    rw [List.length_drop, zero_add]
    omega
  simp only [rebuiltFrom]
  rw [hstart', hcount, spliced_drop _ hk, hstart]

/-- **The rebuild is the untrimmed log's.** -/
theorem LogInvariant.rebuilt_eq (h : LogInvariant capacity stream log) :
    log.rebuilt = (untrimmed capacity stream).rebuilt := by
  have hstart := h.startOffset_le
  have hcount : log.startOffset + log.buffer.length = stream.length := h.endOffset_eq
  have hwindow : log.startOffset + (log.buffer.length - capacity) = stream.length - capacity := by
    have := h.retained
    omega
  have hrest : log.buffer.drop (log.buffer.length - capacity)
      = stream.drop (stream.length - capacity) := by
    rw [← hwindow, ← List.drop_drop, ← h.buffer_eq]
  have hbase : (log.startOffset : ℤ) + ((log.buffer.length - capacity : ℕ) : ℤ)
      = ((0 : ℕ) : ℤ) + ((stream.length - capacity : ℕ) : ℤ) := by
    rw [Nat.cast_zero, zero_add]
    exact_mod_cast hwindow
  simp only [rebuilt, untrimmed, h.capacity_eq]
  rw [h.consume_window, hrest, hbase, h.buffer_eq, Nat.cast_zero]
  have hsuffix := (seekQuiescent_suffix
    (({} : TerminalStreamTracker).consume (stream.take (stream.length - capacity)) 0)
    (stream.drop (stream.length - capacity)) (0 + ((stream.length - capacity : ℕ) : ℤ))).length_le
  rw [List.length_drop] at hsuffix
  exact rebuiltFrom_drop stream hstart _ (by omega)

/-! ## Replays -/

/-- The subtractions and the slice of a continuation are guarded: what is asked for is handed out
exactly when it is within a replay's worth of the end. -/
theorem LogInvariant.replay_eq (h : LogInvariant capacity stream log) (offset : ℕ) :
    log.replay (some offset)
      = some (if stream.length - capacity ≤ offset ∧ offset ≤ stream.length then
          .continuation (stream.drop offset)
        else (untrimmed capacity stream).rebuilt) := by
  have hend := h.endOffset_eq
  have hstart := h.startOffset_le
  have hretained := h.retained
  have hlen : log.buffer.length = stream.length - log.startOffset := by
    rw [h.buffer_eq, List.length_drop]
  simp only [replay, hend, h.capacity_eq, h.rebuilt_eq]
  by_cases hoff : stream.length - capacity ≤ offset ∧ offset ≤ stream.length
  · have hfrom : log.startOffset ≤ offset := by omega
    rw [if_pos hoff, if_pos ⟨hfrom, hoff.2⟩, checkedSub, if_pos hoff.2, Option.bind_some,
      if_pos (by omega), checkedSub, if_pos hfrom, Option.bind_some, slice,
      if_pos ⟨by omega, le_rfl⟩, List.take_length, Option.map_some, h.buffer_eq, List.drop_drop,
      Nat.add_sub_cancel' hfrom]
  · rw [if_neg hoff]
    split_ifs with hin
    · rw [checkedSub, if_pos hin.2, Option.bind_some, if_neg (by omega)]
    · rfl

theorem logInvariant_untrimmed_replay (h : LogInvariant capacity stream log) (offset : Option ℕ) :
    log.replay offset = (untrimmed capacity stream).replay offset := by
  cases offset with
  | none => simp only [replay, h.rebuilt_eq]
  | some offset =>
    rw [h.replay_eq]
    simp only [replay, untrimmed, endOffset, checkedSub, slice]
    by_cases hin : offset ≤ stream.length
    · by_cases hnear : stream.length - capacity ≤ offset
      · have hmiss : stream.length - offset ≤ capacity := by omega
        simp [hin, hnear, hmiss]
      · have hmiss : ¬ stream.length - offset ≤ capacity := by omega
        simp [hin, hnear, hmiss]
    · simp [hin]

/-- **Split independence and exactness of the output log.**  However the stream is cut into appends,
the replays are those of the log that never dropped a byte; the storage stays within twice the
capacity; the start state is a tracker's over exactly the dropped prefix; no answer traps; and a
continuation is handed out exactly from the offsets within a replay's worth of the end, as the
stream's suffix. -/
theorem afterAppends_exact (capacity : ℕ) (chunks : List (List UInt8)) :
    (∀ offset, (afterAppends capacity chunks).replay offset
        = (untrimmed capacity chunks.flatten).replay offset)
      ∧ (afterAppends capacity chunks).rebuilt = (untrimmed capacity chunks.flatten).rebuilt
      ∧ (afterAppends capacity chunks).storageByteCount ≤ 2 * capacity
      ∧ (afterAppends capacity chunks).startOffset ≤ chunks.flatten.length
      ∧ (afterAppends capacity chunks).endOffset = chunks.flatten.length
      ∧ (afterAppends capacity chunks).buffer
          = chunks.flatten.drop (afterAppends capacity chunks).startOffset
      ∧ (afterAppends capacity chunks).startState
          = ({} : TerminalStreamTracker).consume
              (chunks.flatten.take (afterAppends capacity chunks).startOffset) 0
      ∧ (∀ offset, ((afterAppends capacity chunks).replay offset).isSome)
      ∧ ∀ offset data,
          (afterAppends capacity chunks).replay (some offset) = some (.continuation data)
            ↔ (chunks.flatten.length - capacity ≤ offset ∧ offset ≤ chunks.flatten.length)
              ∧ data = chunks.flatten.drop offset := by
  have h := logInvariant_afterAppends capacity chunks
  refine ⟨logInvariant_untrimmed_replay h, h.rebuilt_eq, h.storage_le, h.startOffset_le,
    h.endOffset_eq, h.buffer_eq, ?_, ?_, ?_⟩
  · rw [consume_eq_run, ← h.startState_eq]
  · intro offset
    cases offset with
    | none => rfl
    | some offset => rw [h.replay_eq]; rfl
  · intro offset data
    rw [h.replay_eq, Option.some.injEq]
    split_ifs with hin
    · rw [Replay.continuation.injEq, and_iff_right hin, eq_comm]
    · refine ⟨fun hr => ?_, fun hr => absurd hr.1 hin⟩
      simp only [rebuilt, rebuiltFrom] at hr
      split_ifs at hr

end SessionOutputLog
