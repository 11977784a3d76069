import IGhostVT.Zmodem.ZmodemEngine

/-!
# Zmodem/TriggerDetection — the headers that start a transfer, in output cut anywhere

`ZmodemDetector` holds the last bytes of what it was fed, more of them than a header has but one.
Every occurrence that a chunk completes begins in what is held, so the detector finds the stream's
earliest in the chunk that completes it (`fires_earliest`), wherever the stream is cut.

Then it forgets what it held: the bytes after that chunk are a stream of their own, with a trigger
of their own (`fires_again`).
-/

open Zmodem

namespace ZmodemStreamScanner

variable {needle bytes : List UInt8}

/-- The first place the needle begins at. -/
theorem index_eq_some_iff (hne : needle ≠ []) : ∀ {bytes : List UInt8} {i : ℕ},
    index needle bytes = some i ↔
      needle <+: bytes.drop i ∧ ∀ j < i, ¬ needle <+: bytes.drop j
  | [], i => by
      rw [index, List.drop_nil, List.prefix_nil]
      exact ⟨nofun, fun h => absurd h.1 hne⟩
  | byte :: rest, i => by
      rw [index]
      split
      · next hhere =>
        rw [List.isPrefixOf_iff_prefix] at hhere
        rw [Option.some_inj]
        constructor
        · rintro rfl
          exact ⟨hhere, fun j hj => absurd hj (Nat.not_lt_zero j)⟩
        · rintro ⟨-, hfirst⟩
          by_contra hpos
          exact hfirst 0 (by omega) hhere
      · next hhere =>
        rw [List.isPrefixOf_iff_prefix] at hhere
        rw [Option.map_eq_some_iff]
        constructor
        · rintro ⟨k, hk, rfl⟩
          obtain ⟨hbegins, hfirst⟩ := (index_eq_some_iff hne).mp hk
          rw [Nat.add_comm 1 k]
          refine ⟨hbegins, fun j hj => ?_⟩
          cases j with
          | zero => exact hhere
          | succ j => exact hfirst j (by omega)
        · rintro ⟨hbegins, hfirst⟩
          cases i with
          | zero => exact absurd hbegins hhere
          | succ k =>
            refine ⟨k, (index_eq_some_iff hne).mpr ⟨hbegins, fun j hj => ?_⟩, Nat.add_comm 1 k⟩
            exact hfirst (j + 1) (by omega)

theorem index_eq_none_iff (hne : needle ≠ []) :
    index needle bytes = none ↔ ∀ i, ¬ needle <+: bytes.drop i := by
  constructor
  · intro hnone
    by_contra! hex
    have hfind := (index_eq_some_iff hne).mpr
      ⟨Nat.find_spec hex, fun j hj => Nat.find_min hex hj⟩
    cases hnone.symm.trans hfind
  · intro h
    by_contra hsome
    obtain ⟨i, hi⟩ := Option.ne_none_iff_exists'.mp hsome
    exact h i ((index_eq_some_iff hne).mp hi).1

end ZmodemStreamScanner

namespace ZmodemDetector

/-- `findSubarray`, as the loop it is. -/
def findSubarray (haystack needle : List UInt8) : Option ℕ :=
  if needle.length ≤ haystack.length then
    (List.range (haystack.length - needle.length + 1)).find? fun start =>
      (haystack.drop start).take needle.length = needle
  else none

/-- The places the loop leaves out have too few bytes from them on. -/
theorem findSubarray_eq_index {haystack needle : List UInt8} (hne : needle ≠ []) :
    findSubarray haystack needle = ZmodemStreamScanner.index needle haystack := by
  have hbegins (i : ℕ) : (haystack.drop i).take needle.length = needle ↔
      needle <+: haystack.drop i :=
    eq_comm.trans List.prefix_iff_eq_take.symm
  have hfits (i : ℕ) (h : needle <+: haystack.drop i) : i + needle.length ≤ haystack.length := by
    have hlength := h.length_le
    have hpos : 0 < needle.length := List.length_pos_iff.mpr hne
    rw [List.length_drop] at hlength
    omega
  cases hindex : ZmodemStreamScanner.index needle haystack with
  | none =>
    have hnone := (ZmodemStreamScanner.index_eq_none_iff hne).mp hindex
    rw [findSubarray, List.find?_eq_none.mpr fun i _ => by simpa [hbegins] using hnone i, ite_self]
  | some i =>
    obtain ⟨hhere, hfirst⟩ := (ZmodemStreamScanner.index_eq_some_iff hne).mp hindex
    have hle := hfits i hhere
    rw [findSubarray, if_pos (by omega), List.find?_range_eq_some]
    refine ⟨by simpa [hbegins] using hhere, List.mem_range.mpr (by omega), fun j hj => ?_⟩
    simpa [hbegins] using hfirst j hj

/-! ## The earliest header -/

def Trigger.header : Trigger → List UInt8
  | .download => ZmodemDetector.download
  | .upload => ZmodemDetector.upload

/-- The header that starts such a transfer begins there. -/
def Occurs (trigger : Trigger) (bytes : List UInt8) (i : ℕ) : Prop :=
  trigger.header <+: bytes.drop i

/-- …and neither header does before. -/
def Earliest (trigger : Trigger) (bytes : List UInt8) (i : ℕ) : Prop :=
  Occurs trigger bytes i ∧ ∀ j < i, ∀ other, ¬ Occurs other bytes j

variable {trigger other : Trigger} {bytes rest : List UInt8} {i j : ℕ}

theorem length_header (trigger : Trigger) : trigger.header.length = 6 := by
  cases trigger <;> rfl

theorem header_ne_nil (trigger : Trigger) : trigger.header ≠ [] := by
  cases trigger <;> exact List.cons_ne_nil _ _

/-- An occurrence ends within the bytes. -/
theorem Occurs.le (h : Occurs trigger bytes i) : i + 6 ≤ bytes.length := by
  have hlength := h.length_le
  rw [length_header, List.length_drop] at hlength
  omega

/-- The headers part in their last byte, so only one of them begins in a place. -/
theorem Occurs.unique (h : Occurs trigger bytes i) (h' : Occurs other bytes i) :
    trigger = other := by
  have hheader : trigger.header = other.header := by
    rw [List.prefix_iff_eq_take.mp h, List.prefix_iff_eq_take.mp h', length_header, length_header]
  revert hheader
  cases trigger <;> cases other <;> decide +kernel

theorem Earliest.unique (h : Earliest trigger bytes i) (h' : Earliest other bytes j) :
    i = j ∧ trigger = other := by
  have hij : i = j := by
    rcases lt_trichotomy i j with hlt | heq | hlt
    · exact absurd h.1 (h'.2 i hlt trigger)
    · exact heq
    · exact absurd h'.1 (h.2 j hlt other)
  subst hij
  exact ⟨rfl, h.1.unique h'.1⟩

theorem index_header_eq_some_iff : ZmodemStreamScanner.index trigger.header bytes = some i ↔
    Occurs trigger bytes i ∧ ∀ j < i, ¬ Occurs trigger bytes j :=
  ZmodemStreamScanner.index_eq_some_iff (header_ne_nil trigger)

theorem index_header_eq_none_iff :
    ZmodemStreamScanner.index trigger.header bytes = none ↔ ∀ j, ¬ Occurs trigger bytes j :=
  ZmodemStreamScanner.index_eq_none_iff (header_ne_nil trigger)

theorem earliest_of_locateTrigger (h : locateTrigger bytes = some (i, trigger)) :
    Earliest trigger bytes i := by
  have hindex (trigger : Trigger) (k : ℕ) :
      ZmodemStreamScanner.index trigger.header bytes = some k →
        Occurs trigger bytes k ∧ ∀ j < k, ¬ Occurs trigger bytes j :=
    index_header_eq_some_iff.mp
  have hnone (trigger : Trigger) :
      ZmodemStreamScanner.index trigger.header bytes = none → ∀ j, ¬ Occurs trigger bytes j :=
    index_header_eq_none_iff.mp
  rw [locateTrigger] at h
  split at h
  · next d u hd hu =>
    obtain ⟨hoccursD, hfirstD⟩ := hindex .download _ hd
    obtain ⟨hoccursU, hfirstU⟩ := hindex .upload _ hu
    split at h
    · next hle =>
      cases h
      refine ⟨hoccursD, fun j hj other => ?_⟩
      cases other with
      | download => exact hfirstD j hj
      | upload => exact hfirstU j (hj.trans_le hle)
    · next hle =>
      cases h
      refine ⟨hoccursU, fun j hj other => ?_⟩
      cases other with
      | download => exact hfirstD j (hj.trans (not_le.mp hle))
      | upload => exact hfirstU j hj
  · next d hd hu =>
    cases h
    obtain ⟨hoccurs, hfirst⟩ := hindex .download _ hd
    refine ⟨hoccurs, fun j hj other => ?_⟩
    cases other with
    | download => exact hfirst j hj
    | upload => exact hnone .upload hu j
  · next u hd hu =>
    cases h
    obtain ⟨hoccurs, hfirst⟩ := hindex .upload _ hu
    refine ⟨hoccurs, fun j hj other => ?_⟩
    cases other with
    | download => exact hnone .download hd j
    | upload => exact hfirst j hj
  · cases h

theorem locateTrigger_eq_none_iff :
    locateTrigger bytes = none ↔ ∀ other j, ¬ Occurs other bytes j := by
  constructor
  · intro hnone other
    rw [locateTrigger] at hnone
    split at hnone
    · cases hnone
    · cases hnone
    · cases hnone
    · next hd hu =>
      cases other with
      | download => exact index_header_eq_none_iff.mp hd
      | upload => exact index_header_eq_none_iff.mp hu
  · intro h
    by_contra hsome
    obtain ⟨⟨i, trigger⟩, hfound⟩ := Option.ne_none_iff_exists'.mp hsome
    exact h trigger i (earliest_of_locateTrigger hfound).1

/-- **The detector looks for the earliest header.** -/
theorem locateTrigger_eq_some_iff :
    locateTrigger bytes = some (i, trigger) ↔ Earliest trigger bytes i := by
  refine ⟨earliest_of_locateTrigger, fun h => ?_⟩
  cases hfound : locateTrigger bytes with
  | none => exact absurd h.1 (locateTrigger_eq_none_iff.mp hfound trigger i)
  | some found =>
    have hearliest : Earliest found.2 bytes found.1 := earliest_of_locateTrigger hfound
    obtain ⟨rfl, rfl⟩ := h.unique hearliest
    rfl

/-! ### In a part of the bytes -/

theorem occurs_drop (m : ℕ) : Occurs trigger (bytes.drop m) i ↔ Occurs trigger bytes (m + i) := by
  rw [Occurs, Occurs, List.drop_drop]

theorem Occurs.append (h : Occurs trigger bytes i) (rest : List UInt8) :
    Occurs trigger (bytes ++ rest) i := by
  have hle := h.le
  rw [Occurs, List.drop_append_of_le_length (by omega)]
  exact h.trans (List.prefix_append _ _)

theorem Occurs.of_append (h : Occurs trigger (bytes ++ rest) i) (hle : i + 6 ≤ bytes.length) :
    Occurs trigger bytes i := by
  rw [Occurs, List.drop_append_of_le_length (by omega)] at h
  refine List.prefix_of_prefix_length_le h (List.prefix_append _ _) ?_
  rw [length_header, List.length_drop]
  omega

theorem Earliest.of_append (h : Earliest trigger (bytes ++ rest) i) (hle : i + 6 ≤ bytes.length) :
    Earliest trigger bytes i :=
  ⟨h.1.of_append hle, fun j hj other hoccurs => h.2 j hj other (hoccurs.append rest)⟩

/-! ## A stream in chunks -/

/-- The whole result of a call. -/
structure Result where
  passthrough : List UInt8 := []
  trigger : Option Trigger := none
  parserBytes : List UInt8 := []
deriving DecidableEq

def result (d : ZmodemDetector) (data : List UInt8) : Result :=
  match (d.feed data).2 with
  | some (trigger, parserBytes) =>
    { passthrough := data, trigger := some trigger, parserBytes := parserBytes }
  | none => { passthrough := data }

/-- The results of calls in a row. -/
def results (d : ZmodemDetector) : List (List UInt8) → List Result
  | [] => []
  | chunk :: chunks => d.result chunk :: (d.feed chunk).1.results chunks

/-- The result of a call that starts nothing. -/
def quiet (chunk : List UInt8) : Result := { passthrough := chunk }

theorem passthrough_results (d : ZmodemDetector) (chunks : List (List UInt8)) :
    (d.results chunks).map Result.passthrough = chunks := by
  induction chunks generalizing d with
  | nil => rfl
  | cons chunk chunks ih =>
    have hchunk : (d.result chunk).passthrough = chunk := by
      rw [result]
      split <;> rfl
    rw [results, List.map_cons, hchunk, ih]

/-- The detector after bytes without a header: it holds their end. -/
structure Holds (d : ZmodemDetector) (fed : List UInt8) : Prop where
  cache_eq : d.cache = fed.drop (fed.length - maxHold)
  quiet : ∀ trigger i, ¬ Occurs trigger fed i

variable {d : ZmodemDetector} {fed chunk : List UInt8}

theorem holds_nil : Holds {} [] where
  cache_eq := rfl
  quiet _ _ h := absurd h.le (by simp)

theorem Holds.cache_append (h : Holds d fed) :
    d.cache ++ chunk = (fed ++ chunk).drop (fed.length - maxHold) := by
  rw [h.cache_eq, List.drop_append_of_le_length (Nat.sub_le _ _)]

/-- A header in what was fed so far and the chunk ends in the chunk. -/
theorem Holds.lt (h : Holds d fed) (hoccurs : Occurs trigger (fed ++ chunk) i) :
    fed.length < i + 6 := by
  by_contra hle
  exact h.quiet trigger i (hoccurs.of_append (not_lt.mp hle))

theorem Holds.feed_quiet (h : Holds d fed)
    (hquiet : ∀ trigger i, ¬ Occurs trigger (fed ++ chunk) i) :
    ∃ next, d.feed chunk = (next, none) ∧ Holds next (fed ++ chunk) := by
  have hnone : locateTrigger (d.cache ++ chunk) = none := by
    rw [locateTrigger_eq_none_iff, h.cache_append]
    exact fun other j hoccurs => hquiet other _ ((occurs_drop _).mp hoccurs)
  rw [feed, hnone]
  refine ⟨_, rfl, ?_, hquiet⟩
  dsimp only
  rw [h.cache_append, List.drop_drop, List.length_drop, List.length_append]
  have hheld : fed.length - maxHold +
      (fed.length + chunk.length - (fed.length - maxHold) - maxHold) =
      fed.length + chunk.length - maxHold := by
    omega
  rw [hheld]

theorem Holds.feed_fires (h : Holds d fed) (hearliest : Earliest trigger (fed ++ chunk) i) :
    d.feed chunk = ({}, some (trigger, (fed ++ chunk).drop i)) := by
  have hle : fed.length - maxHold ≤ i := by
    have hlt := h.lt hearliest.1
    rw [maxHold]
    omega
  obtain ⟨k, rfl⟩ := Nat.exists_eq_add_of_le hle
  have hfound : locateTrigger (d.cache ++ chunk) = some (k, trigger) := by
    rw [locateTrigger_eq_some_iff, h.cache_append]
    refine ⟨(occurs_drop _).mpr hearliest.1, fun j hj other hoccurs => ?_⟩
    exact hearliest.2 _ (by omega) other ((occurs_drop _).mp hoccurs)
  rw [feed, hfound]
  dsimp only
  rw [h.cache_append, List.drop_drop]

/-- **The call that completes the earliest header fires, and no earlier one.** -/
theorem Holds.results_fires {chunks : List (List UInt8)} (h : Holds d fed)
    (hearliest : Earliest trigger (fed ++ chunks.flatten) i) :
    ∃ before chunk after, chunks = before ++ chunk :: after ∧
      fed.length + before.flatten.length < i + 6 ∧
      i + 6 ≤ fed.length + before.flatten.length + chunk.length ∧
      d.results chunks = before.map ZmodemDetector.quiet ++
        { passthrough := chunk, trigger := some trigger,
          parserBytes := (fed ++ before.flatten ++ chunk).drop i } :: results {} after := by
  induction chunks generalizing d fed with
  | nil =>
    rw [List.flatten_nil, List.append_nil] at hearliest
    exact absurd hearliest.1 (h.quiet trigger i)
  | cons chunk chunks ih =>
    rw [List.flatten_cons, ← List.append_assoc] at hearliest
    by_cases hle : i + 6 ≤ (fed ++ chunk).length
    · have hhere : Earliest trigger (fed ++ chunk) i := hearliest.of_append hle
      rw [List.length_append] at hle
      refine ⟨[], chunk, chunks, rfl, h.lt hhere.1, hle, ?_⟩
      rw [results, result, h.feed_fires hhere, List.flatten_nil, List.append_nil]
      rfl
    · -- an earlier one in this chunk would be the earliest
      obtain ⟨next, hfeed, hnext⟩ := h.feed_quiet fun other j hoccurs => by
        have hend := hoccurs.le
        refine hearliest.2 j ?_ other (hoccurs.append _)
        omega
      obtain ⟨before, later, after, rfl, hlo, hhi, hresults⟩ := ih hnext hearliest
      rw [List.length_append] at hlo hhi
      refine ⟨chunk :: before, later, after, rfl, ?_, ?_, ?_⟩
      · rw [List.flatten_cons, List.length_append]
        omega
      · rw [List.flatten_cons, List.length_append]
        omega
      · rw [results, result, hfeed]
        dsimp only
        rw [hresults, List.flatten_cons, ← List.append_assoc]
        rfl

theorem Holds.results_quiet {chunks : List (List UInt8)} (h : Holds d fed)
    (hquiet : ∀ trigger i, ¬ Occurs trigger (fed ++ chunks.flatten) i) :
    d.results chunks = chunks.map ZmodemDetector.quiet := by
  induction chunks generalizing d fed with
  | nil => rfl
  | cons chunk chunks ih =>
    rw [List.flatten_cons, ← List.append_assoc] at hquiet
    obtain ⟨next, hfeed, hnext⟩ :=
      h.feed_quiet fun other j hoccurs => hquiet other j (hoccurs.append _)
    rw [results, result, hfeed]
    exact congrArg _ (ih hnext hquiet)

/-- **Triggers are found however the stream is cut.**  What is fed is passed through.  The first
call to fire is the one whose chunk completes the earliest header of the stream, with that header's
kind and the bytes from it to the chunk's end; from the next on the detector is a new one.  A stream
without a header fires nothing. -/
theorem fires_earliest (chunks : List (List UInt8)) :
    ((results {} chunks).map Result.passthrough).flatten = chunks.flatten ∧
    (∀ trigger i, Earliest trigger chunks.flatten i →
      ∃ before chunk after, chunks = before ++ chunk :: after ∧
        before.flatten.length < i + 6 ∧ i + 6 ≤ before.flatten.length + chunk.length ∧
        results {} chunks = before.map quiet ++
          { passthrough := chunk, trigger := some trigger,
            parserBytes := (before.flatten ++ chunk).drop i } :: results {} after) ∧
    ((∀ trigger i, ¬ Occurs trigger chunks.flatten i) → results {} chunks = chunks.map quiet) := by
  refine ⟨congrArg List.flatten (passthrough_results {} chunks), fun trigger i hearliest => ?_,
    fun hquiet => ?_⟩
  · have hstream : Earliest trigger ([] ++ chunks.flatten) i := hearliest
    obtain ⟨before, chunk, after, hchunks, hlo, hhi, hresults⟩ := holds_nil.results_fires hstream
    rw [List.length_nil, Nat.zero_add] at hlo hhi
    exact ⟨before, chunk, after, hchunks, hlo, hhi, hresults⟩
  · exact holds_nil.results_quiet hquiet

/-- **A stream fires more than once**: its second header is not its earliest, and fires in the call
that completes it. -/
theorem fires_again :
    ¬ ∀ (before : List (List UInt8)) (chunk : List UInt8) (after : List (List UInt8)),
      ((results {} (before ++ chunk :: after))[before.length]?.bind Result.trigger ≠ none ↔
        ∃ trigger i, Earliest trigger (before ++ chunk :: after).flatten i ∧
          before.flatten.length < i + 6 ∧ i + 6 ≤ before.flatten.length + chunk.length) := by
  intro h
  have hfires := (h [ZmodemDetector.download] ZmodemDetector.download []).mp (by decide +kernel)
  obtain ⟨trigger, i, hearliest, hlo, -⟩ := hfires
  have hfirst :
      Occurs .download ([ZmodemDetector.download] ++ [ZmodemDetector.download]).flatten 0 :=
    List.prefix_append _ _
  have hlength : [ZmodemDetector.download].flatten.length = 6 := rfl
  exact hearliest.2 0 (by omega) .download hfirst

end ZmodemDetector
