import IGhostVT.Session.ReplayRanges

/-!
# Session/CheckedLog — the output log with every sum and slice checked

`checkedAppends` and `checkedReplay` are the log's own functions, nothing where one of them would
trap: the doubled capacity and the offsets are machine integers.  `checkedAppends_exact` is what the
log is for, for streams and capacities whose sums 64 bits hold, and `replay_overflows` has one of
each that they do not.
-/

namespace SessionOutputLog

open TerminalStreamTracker

/-! ## The checked log -/

def checkedAppend (log : SessionOutputLog) (data : List UInt8) : Option SessionOutputLog := do
  let buffer := log.buffer ++ data
  let twice ← Checked.int (2 * log.capacity)
  if buffer.length ≤ twice then return { log with buffer }
  else
    let dropped ← Checked.int (buffer.length - log.capacity)
    let trimmed ← Checked.slice buffer 0 dropped
    let startState ← log.startState.checkedConsume trimmed (truncated log.startOffset)
    let startOffset ← Checked.uint (log.startOffset + dropped.toNat)
    return { log with
      startState
      buffer := buffer.drop (buffer.length - log.capacity)
      startOffset }

def checkedEndOffset (log : SessionOutputLog) : Option ℕ :=
  Checked.uint (log.startOffset + log.buffer.length)

/-- `replay`, which looks at the offset before it subtracts anything. -/
def checkedReplay (log : SessionOutputLog) : Option ℕ → Option Replay
  | none => log.checkedRebuilt
  | some offset =>
    if log.startOffset ≤ offset then do
      let finish ← log.checkedEndOffset
      if offset ≤ finish then
        if (← checkedSub finish offset) ≤ log.capacity then
          let skipped ← Checked.int (← checkedSub offset log.startOffset)
          return .continuation (← Checked.slice log.buffer skipped log.buffer.length)
        else log.checkedRebuilt
      else log.checkedRebuilt
    else log.checkedRebuilt

/-- A log of `capacity` after `chunks` were appended in turn, if none of the appends traps. -/
def checkedAppends (capacity : ℕ) (chunks : List (List UInt8)) : Option SessionOutputLog :=
  chunks.foldlM checkedAppend { capacity := capacity }

/-! ## Where no check fails -/

variable {capacity : ℕ} {stream : List UInt8} {log : SessionOutputLog}

theorem uint_eq {n : ℕ} (h : n < 2 ^ 64) : Checked.uint n = some n :=
  if_pos (by rw [UInt64.size]; omega)

theorem LogInvariant.checkedAppend_eq (h : LogInvariant capacity stream log) {data : List UInt8}
    (hcapacity : 2 * capacity < 2 ^ 63) (hfits : (stream ++ data).length < 2 ^ 63) :
    log.checkedAppend data = some (log.append data) := by
  have hend : log.startOffset + log.buffer.length = stream.length := h.endOffset_eq
  have hcap := h.capacity_eq
  have hlength : (log.buffer ++ data).length = log.buffer.length + data.length := List.length_append
  rw [List.length_append] at hfits
  rw [checkedAppend, SessionOutputLog.append, int_eq (by omega) (by omega)]
  simp only [Option.bind_eq_bind, Option.bind_some]
  by_cases hsmall : (log.buffer ++ data).length ≤ 2 * log.capacity
  · rw [if_pos (by exact_mod_cast hsmall), if_pos hsmall]
    rfl
  · obtain ⟨dropped, hdropped⟩ : ∃ d, d = (log.buffer ++ data).length - log.capacity := ⟨_, rfl⟩
    have hcast : ((log.buffer ++ data).length : ℤ) - log.capacity = dropped := by omega
    have hslice : Checked.slice (log.buffer ++ data) 0 dropped =
        some ((log.buffer ++ data).take dropped) := by
      rw [Checked.slice, if_pos (by omega), Int.toNat_natCast]
      rfl
    rw [if_neg (by exact_mod_cast hsmall), if_neg hsmall, hcast, int_eq (by omega) (by omega)]
    simp only [Option.bind_some, hslice, truncated_eq (show log.startOffset < 2 ^ 63 by omega),
      ← hdropped]
    rw [checkedConsume_eq _ _ (by omega) (by rw [List.length_take]; omega), Option.bind_some,
      Int.toNat_natCast, uint_eq (by omega)]
    rfl

/-- **No append traps** before the stream is `2 ^ 63` bytes long. -/
theorem LogInvariant.foldlM_checkedAppend (h : LogInvariant capacity stream log)
    (hcapacity : 2 * capacity < 2 ^ 63) (chunks : List (List UInt8))
    (hfits : (stream ++ chunks.flatten).length < 2 ^ 63) :
    chunks.foldlM checkedAppend log = some (chunks.foldl SessionOutputLog.append log) := by
  induction chunks generalizing stream log with
  | nil => rfl
  | cons data chunks ih =>
    rw [List.flatten_cons, ← List.append_assoc] at hfits
    have hone : (stream ++ data).length < 2 ^ 63 :=
      (List.sublist_append_left _ _).length_le.trans_lt hfits
    rw [List.foldlM_cons, h.checkedAppend_eq hcapacity hone, Option.bind_eq_bind, Option.bind_some,
      List.foldl_cons]
    exact ih (h.append data) hfits

/-- **No replay traps** of a stream shorter than `2 ^ 63` bytes. -/
theorem LogInvariant.checkedReplay_eq (h : LogInvariant capacity stream log)
    (hfits : stream.length < 2 ^ 63) (offset : Option ℕ) :
    log.checkedReplay offset = log.replay offset := by
  have hend : log.startOffset + log.buffer.length = stream.length := h.endOffset_eq
  have hlast : log.endOffset = log.startOffset + log.buffer.length := rfl
  have hrebuilt := h.checkedRebuilt_eq hfits
  cases offset with
  | none => exact hrebuilt
  | some offset =>
    have hfinish : log.checkedEndOffset = some log.endOffset := uint_eq (by omega)
    rw [checkedReplay, replay, hfinish]
    simp only [Option.bind_eq_bind, Option.bind_some]
    by_cases hlower : log.startOffset ≤ offset
    case neg => rw [if_neg hlower, if_neg fun hin => hlower hin.1, hrebuilt]
    by_cases hupper : offset ≤ log.endOffset
    case neg => rw [if_pos hlower, if_neg hupper, if_neg fun hin => hupper hin.2, hrebuilt]
    have hmissed : checkedSub log.endOffset offset = some (log.endOffset - offset) := if_pos hupper
    have hskipped : checkedSub offset log.startOffset = some (offset - log.startOffset) :=
      if_pos hlower
    rw [if_pos hlower, if_pos hupper, if_pos ⟨hlower, hupper⟩, hmissed, hskipped, Option.bind_some]
    by_cases hwithin : log.endOffset - offset ≤ log.capacity
    case neg => rw [if_neg hwithin, Option.bind_some, if_neg hwithin, hrebuilt]
    have hslice : slice log.buffer (offset - log.startOffset) log.buffer.length
        = some (log.buffer.drop (offset - log.startOffset)) := by
      rw [slice, if_pos ⟨by omega, le_rfl⟩, List.take_length]
    have hlow : -2 ^ 63 ≤ ((offset - log.startOffset : ℕ) : ℤ) := by omega
    have hhigh : ((offset - log.startOffset : ℕ) : ℤ) < 2 ^ 63 := by omega
    rw [if_pos hwithin, Option.bind_some, int_eq hlow hhigh, Option.bind_some,
      slice_all _ (by omega), Option.bind_some, Option.bind_some, if_pos hwithin,
      Option.bind_some, hslice]
    rfl

/-- **Split independence and exactness of the output log**, where 64 bits hold the doubled capacity
and the stream's offsets.  However the stream is cut, no append and no replay traps, the replays are
those of the log that never dropped a byte, the storage stays within twice the capacity, the start
state is a tracker's over exactly the dropped prefix, and a continuation is handed out exactly from
the offsets within a replay's worth of the end, as the stream's suffix. -/
theorem checkedAppends_exact (capacity : ℕ) (chunks : List (List UInt8))
    (hcapacity : 2 * capacity < 2 ^ 63) (hfits : chunks.flatten.length < 2 ^ 63) :
    ∃ log, checkedAppends capacity chunks = some log
      ∧ (∀ offset, log.checkedReplay offset = (untrimmed capacity chunks.flatten).replay offset)
      ∧ log.checkedRebuilt = some (untrimmed capacity chunks.flatten).rebuilt
      ∧ (∀ offset, (log.checkedReplay offset).isSome)
      ∧ log.storageByteCount ≤ 2 * capacity
      ∧ log.startOffset ≤ chunks.flatten.length
      ∧ log.checkedEndOffset = some chunks.flatten.length
      ∧ log.buffer = chunks.flatten.drop log.startOffset
      ∧ log.startState =
        ({} : TerminalStreamTracker).consume (chunks.flatten.take log.startOffset) 0
      ∧ ∀ offset data, log.checkedReplay (some offset) = some (.continuation data)
          ↔ (chunks.flatten.length - capacity ≤ offset ∧ offset ≤ chunks.flatten.length)
            ∧ data = chunks.flatten.drop offset := by
  have h := logInvariant_afterAppends capacity chunks
  obtain ⟨hreplay, hrebuilt, hstorage, hstart, hend, hbuffer, hstate, hsome, hcontinuation⟩ :=
    afterAppends_exact capacity chunks
  refine ⟨afterAppends capacity chunks, ?_, fun offset => ?_, ?_, fun offset => ?_, hstorage,
    hstart, ?_, hbuffer, hstate, fun offset data => ?_⟩
  · exact (logInvariant_empty capacity).foldlM_checkedAppend hcapacity chunks
      (by rwa [List.nil_append])
  · rw [h.checkedReplay_eq hfits, hreplay]
  · rw [h.checkedRebuilt_eq hfits, hrebuilt]
  · rw [h.checkedReplay_eq hfits]
    exact hsome offset
  · exact (uint_eq (by rw [← endOffset, hend]; omega)).trans (congrArg some hend)
  · rw [h.checkedReplay_eq hfits]
    exact hcontinuation offset data

/-- A stream that was trimmed, and the offsets a client may go on from. -/
theorem checkedAppends_exact_trimmed :
    ∃ log, checkedAppends 2 [[0x61, 0x62, 0x63], [0x64, 0x65]] = some log ∧
    log.startOffset = 3 ∧
      ∀ offset data, log.checkedReplay (some offset) = some (.continuation data)
        ↔ (3 ≤ offset ∧ offset ≤ 5) ∧ data = [0x61, 0x62, 0x63, 0x64, 0x65].drop offset := by
  obtain ⟨log, hlog, -, -, -, -, -, -, -, -, hcontinuation⟩ :=
    checkedAppends_exact 2 [[0x61, 0x62, 0x63], [0x64, 0x65]] (by decide) (by decide)
  have hstart : (checkedAppends 2 [[0x61, 0x62, 0x63], [0x64, 0x65]]).map (·.startOffset) =
      some 3 := by rfl
  rw [hlog] at hstart
  exact ⟨log, hlog, Option.some.inj hstart, hcontinuation⟩

/-- A capacity whose double overflows, and `2 ^ 63` bytes appended one at a time. -/
theorem replay_overflows : checkedAppends (2 ^ 62) [[0x61]] = none ∧
    (afterAppends 1 (List.replicate (2 ^ 63) [0x61])).checkedReplay none = none := by
  have hflatten : (List.replicate (2 ^ 63) [(0x61 : UInt8)]).flatten =
      List.replicate (2 ^ 63) 0x61 :=
    List.flatten_replicate_singleton
  refine ⟨rfl, (logInvariant_afterAppends 1 _).checkedRebuilt_overflow one_pos (fun b hb => ?_) ?_⟩
  · rw [hflatten] at hb
    rw [List.eq_of_mem_replicate hb]
    rfl
  · rw [hflatten, List.length_replicate]

end SessionOutputLog
