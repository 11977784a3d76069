import IGhostVT.Session.Excisions
import IGhostVT.Session.Neutral
import IGhostVT.Session.OutputLogSplit

/-!
# Session/ReplaySize — how long a rebuilt replay is

A rebuilt replay is a preamble and the cleaned window.  The window grows by at most a byte for every
stretch cleaned out of it, and all of a preamble but XTSAVE's record and the palette is bounded;
those two grow with what a program sends, and nothing keeps the whole within one message.
`rebuilt_fits` says for which of them it does.
-/

/-- The most `data` one message may carry. -/
def maximumMessageDataByteCount : ℕ := 1 <<< 20

/-- Output retained per session for replay. -/
def sessionReplayByteCount : ℕ := 256 * 1024

/-- A message's `data` as its reader takes it: none at all when there is too much. -/
def messageData (bytes : List UInt8) : Option (List UInt8) :=
  if bytes.length ≤ maximumMessageDataByteCount then some bytes else none

namespace SessionOutputLog

open TerminalStreamTracker

/-! ## The cleaned window -/

/-- Stretches one after another, the first ending behind `lo`. -/
def Spaced (hi : ℤ) : ℤ → List Excision → Prop
  | _, [] => True
  | lo, e :: es => Within lo hi e ∧ Spaced hi e.upper es

/-- Excisions that are joined leave bytes between them. -/
theorem spaced_joinFrom {lo hi : ℤ} (es : List Excision) (hes : ∀ e ∈ es, Within lo hi e) :
    ∀ {from_ : ℤ} {last : Excision}, Within from_ hi last → Spaced hi from_ (joinFrom last es) := by
  induction es with
  | nil => exact fun h => ⟨h, trivial⟩
  | cons e es ih =>
    intro from_ last hlast
    have he := hes e List.mem_cons_self
    have ih := @ih fun a ha => hes a (List.mem_cons_of_mem _ ha)
    have h1 := hlast.lower_lt
    have h2 := hlast.lt_upper
    have h3 := hlast.upper_le
    have h4 := he.upper_le
    have h5 := he.lower_lt
    rw [joinFrom]
    split
    · refine ih ⟨hlast.nonneg, ?_, ?_, ?_, hlast.replacement⟩
      all_goals dsimp only; omega
    · exact ⟨hlast, ih ⟨he.nonneg, he.lower_lt, by omega, he.upper_le, he.replacement⟩⟩

/-- So do those that are merged. -/
theorem spaced_merged {lo hi : ℤ} {es : List Excision} (hes : ∀ e ∈ es, Within lo hi e) :
    Spaced hi lo (merged es) := by
  have hsorted : ∀ e ∈ es.insertionSort fun a b => a.lower ≤ b.lower, Within lo hi e := fun e he =>
    hes e ((List.perm_insertionSort _ es).mem_iff.mp he)
  rw [merged]
  split
  · trivial
  case h_2 e es heq =>
    rw [heq] at hsorted
    exact spaced_joinFrom es (fun a ha => hsorted a (List.mem_cons_of_mem _ ha))
      (hsorted e List.mem_cons_self)

/-- Every stretch takes a byte of its own. -/
theorem Spaced.length_le {hi : ℤ} : ∀ {es : List Excision} {lo : ℤ}, Spaced hi lo es → lo ≤ hi →
    (es.length : ℤ) ≤ hi - lo
  | [], _, _, hle => by rw [List.length_nil]; omega
  | e :: es, lo, h, _ => by
    have hrest := Spaced.length_le h.2 h.1.upper_le
    have hbehind := h.1.lt_upper
    rw [List.length_cons, Int.natCast_succ]
    omega

end SessionOutputLog

namespace TerminalReplayState

open TerminalStreamTracker

variable {p : TerminalReplayState}

/-! ## The preamble, piece by piece

All but the palette and the saved modes has a bound of its own. -/

/-- Four bytes begin and end a command. -/
theorem length_osc (body : List UInt8) : (osc body).length = body.length + 4 := by
  simp [osc]

/-- A text has a byte for each character. -/
theorem length_ascii (s : String) : (ascii s).length = s.length := by
  rw [ascii, List.length_map, String.length_toList]

/-- XTSAVE's record and the palette, which a program fills as it likes. -/
def bulk (p : TerminalReplayState) : List UInt8 :=
  p.savedModesState
    ++ p.palette.entries.flatMap fun e => osc (ascii "4;" ++ decimal e.1 ++ ascii ";" ++ e.2)

/-- The state with neither. -/
def withoutBulk (p : TerminalReplayState) : TerminalReplayState :=
  { p with savedDECModes := ∅, palette := ∅ }

/-- A preamble, piece by piece. -/
theorem preamble_eq (p : TerminalReplayState) : p.preamble =
    (if p.alternateEverUsed then csi (ascii "?1049l") else []) ++ csi (ascii "!p") ++
      csi (ascii "H")
      ++ csi (ascii "2J") ++ p.hiddenAlternate.1
      ++ (if p.kittyTouched.primary then kittyRebuild p.kitty.primary else [])
      ++ (p.shownScreen p.hiddenAlternate.2).1 ++ p.savedModesState ++ p.modesState ++
        p.settingsState
      ++ (p.shownScreen p.hiddenAlternate.2).2.cursorState p.cursor p.charsetsTouched
      ++ p.linkAndRegionState ++ csi (ascii "H") := rfl

/-- The same with no bulk in it. -/
theorem withoutBulk_preamble_eq (p : TerminalReplayState) : p.withoutBulk.preamble =
    (if p.alternateEverUsed then csi (ascii "?1049l") else []) ++ csi (ascii "!p") ++
      csi (ascii "H")
      ++ csi (ascii "2J") ++ p.hiddenAlternate.1
      ++ (if p.kittyTouched.primary then kittyRebuild p.kitty.primary else [])
      ++ (p.shownScreen p.hiddenAlternate.2).1 ++ [] ++ p.modesState ++ p.withoutBulk.settingsState
      ++ (p.shownScreen p.hiddenAlternate.2).2.cursorState p.cursor p.charsetsTouched
      ++ p.linkAndRegionState ++ csi (ascii "H") := rfl

/-- Without what is unbounded, palette and saved modes leave nothing to write. -/
theorem withoutBulk_settingsState_eq (p : TerminalReplayState) : p.withoutBulk.settingsState =
    p.modifyKeyFormat.elim [] (fun f => [0x1B, 0x5B] ++ f)
      ++ p.cursorStyle.elim [] (fun v => csi (decimal v ++ ascii " q")) ++ []
      ++ p.dynamicColors.entries.flatMap (fun e => dynamicColorState e.1 e.2)
      ++ p.title.elim [] (fun text => osc (ascii "2;" ++ text))
      ++ p.workingDirectory.elim [] fun text => osc (ascii "7;" ++ text) :=
  settingsState_eq p.withoutBulk

/-- **A preamble is as long as its bulk and all else.** -/
theorem length_preamble_eq (p : TerminalReplayState) :
    p.preamble.length = p.bulk.length + p.withoutBulk.preamble.length := by
  simp only [preamble_eq p, withoutBulk_preamble_eq, settingsState_eq p,
    withoutBulk_settingsState_eq, bulk, List.length_append, List.length_nil]
  omega

end TerminalReplayState

namespace SessionOutputLog

open TerminalStreamTracker TerminalReplayState

/-! ## The whole replay -/

/-- Seeking reads some of the bytes, and stops early only at rest. -/
theorem seekQuiescent_eq (t : TerminalStreamTracker) (bs : List UInt8) (o : ℤ) :
    ∃ k ≤ bs.length, seekQuiescent t bs o = (t.run (bs.take k) o, bs.drop k) ∧
      (bs.drop k ≠ [] → (t.run (bs.take k) o).isQuiescent = true) := by
  induction bs generalizing t o with
  | nil => exact ⟨0, le_rfl, rfl, by simp⟩
  | cons b bs ih =>
    rw [seekQuiescent]
    split
    case isTrue hquiet => exact ⟨0, Nat.zero_le _, rfl, fun _ => hquiet⟩
    case isFalse =>
      obtain ⟨k, hk, heq, hquiet⟩ := ih (t.consume [b] o) (o + 1)
      rw [consume_eq_run] at heq hquiet
      exact ⟨k + 1, Nat.succ_le_succ hk, by rw [consume_eq_run]; exact heq, hquiet⟩

/-- The tracker where a rebuild of `stream` starts, and the bytes from there on. -/
def rebuildStart (capacity : ℕ) (stream : List UInt8) : TerminalStreamTracker × List UInt8 :=
  seekQuiescent (tracked (stream.take (stream.length - capacity)))
    (stream.drop (stream.length - capacity)) (stream.length - capacity : ℕ)

/-- The state a rebuilt replay opens with. -/
def openingState (capacity : ℕ) (stream : List UInt8) : TerminalReplayState :=
  let (tracker, rest) := rebuildStart capacity stream
  if rest = [] then tracker.terminal
  else tracker.terminal.includingSettings
    (tracker.beginRecording.consume rest (stream.length - rest.length : ℕ)).terminal

/-- What a rebuilt replay goes on with: the cleaned window, or the start of the sequence it is. -/
def cleanedWindow (capacity : ℕ) (stream : List UInt8) : List UInt8 :=
  let (tracker, rest) := rebuildStart capacity stream
  if rest = [] then tracker.continuationPrefix
  else
    spliced stream 0 (stream.length - rest.length)
      (merged ((tracker.beginRecording.consume rest (stream.length - rest.length : ℕ)).takeExcisions
        stream.length))

/-- A log that was not trimmed is rebuilt from its opening state and its window. -/
theorem rebuilt_untrimmed (capacity : ℕ) (stream : List UInt8) :
    ∃ endsInTransfer, (untrimmed capacity stream).rebuilt
      = .rebuilt ((openingState capacity stream).preamble ++ cleanedWindow capacity stream)
        endsInTransfer := by
  obtain ⟨tracker, rest, hstart⟩ : ∃ tracker rest, rebuildStart capacity stream = (tracker, rest) :=
    ⟨_, _, rfl⟩
  have hrebuilt : (untrimmed capacity stream).rebuilt = rebuiltFrom stream 0 tracker rest := by
    rw [rebuildStart, tracked] at hstart
    simp only [rebuilt, untrimmed, Nat.cast_zero, zero_add, hstart]
  rw [hrebuilt, rebuiltFrom, openingState, cleanedWindow, hstart]
  dsimp only
  rw [zero_add, zero_add]
  split
  · exact ⟨_, rfl⟩
  · exact ⟨_, rfl⟩

/-- A colour specification that fills its OSC 4's payload. -/
def longSpec (color : ℕ) : List UInt8 := List.replicate (4093 - (decimal color).length) 0x61

/-- The first `n` palette entries, each with as long a specification as is kept. -/
def longEntries (n : ℕ) : List (ℕ × List UInt8) :=
  (List.range n).map fun color => (color, longSpec color)

/-- The sequences that set them. -/
def longPalette (n : ℕ) : List UInt8 :=
  (longEntries n).flatMap fun e => osc (ascii "4;" ++ decimal e.1 ++ ascii ";" ++ e.2)

/-- A palette, and a window of text behind it. -/
def longPaletteStream (n : ℕ) : List UInt8 :=
  longPalette n ++ List.replicate sessionReplayByteCount 0x61

variable {n : ℕ}

/-- A long colour is one the palette keeps. -/
theorem longSpec_entry {color : ℕ} (h : color < 256) : PaletteEntry color (longSpec color) := by
  have hmem : ∀ b ∈ longSpec color, b = 0x61 := fun b hb => List.eq_of_mem_replicate hb
  have hdigits : (decimal color).length ≤ 3 := length_decimal_le (by decide) (by omega)
  refine ⟨⟨fun b hb => ?_, fun hb => ?_, fun heq => ?_⟩, by omega, ?_⟩
  · rw [hmem b hb]
    decide
  · exact absurd (hmem _ hb) (by decide)
  · have hlen := congrArg List.length heq
    rw [longSpec, List.length_replicate, List.length_singleton] at hlen
    omega
  · rw [longSpec, List.length_replicate, maximumPayload]
    omega

/-- The palette keeps them in order. -/
theorem longEntries_pairwise (n : ℕ) : (longEntries n).Pairwise fun a b => a.1 < b.1 :=
  List.pairwise_map.mpr List.pairwise_lt_range

/-- Setting so many colours fills the palette with them. -/
theorem writes_longPalette (hn : n ≤ 256) : Writes (longPalette n) fun s =>
    { s with palette := (longEntries n).foldl (fun d e => d.insert e.1 e.2) s.palette } := by
  have hentry : ∀ e ∈ longEntries n, Writes (osc (ascii "4;" ++ decimal e.1 ++ ascii ";" ++ e.2))
      fun s => { s with palette := s.palette.insert e.1 e.2 } := by
    intro e he
    obtain ⟨color, hcolor, rfl⟩ := List.mem_map.mp he
    exact writes_palette (longSpec_entry (by have := List.mem_range.mp hcolor; omega))
  exact (writes_flatMap (longEntries n) hentry).congr fun s => foldl_palette s _

/-- Behind them the tracker rests. -/
theorem tracked_longPalette (hn : n ≤ 256) : (tracked (longPalette n)).isQuiescent = true ∧
    (tracked (longPalette n)).terminal.palette.entries = longEntries n := by
  have hwrote := writes_longPalette hn {} 0 ⟨rfl, rfl, rfl⟩
  rw [tracked, consume_eq_run]
  refine ⟨isQuiescent_iff.mpr hwrote.rest, ?_⟩
  rw [hwrote.terminal]
  have hdict : (longEntries n).foldl (fun d e => d.insert e.1 e.2) (∅ : Dict ℕ (List UInt8))
      = ⟨longEntries n, longEntries_pairwise n⟩ := by
    refine Dict.ext_get? fun k => ?_
    rw [Dict.get?_foldl_insert (longEntries_pairwise n), Dict.get?_empty, Option.or_none]
    rfl
  exact congrArg Dict.entries hdict

/-- So they are there where the window opens. -/
theorem openingState_longPalette (hn : n ≤ 256) :
    (openingState sessionReplayByteCount (longPaletteStream n)).palette.entries =
      longEntries n := by
  obtain ⟨hquiet, hentries⟩ := tracked_longPalette hn
  have hsplit : (longPaletteStream n).length - sessionReplayByteCount = (longPalette n).length := by
    rw [longPaletteStream, List.length_append, List.length_replicate]
    omega
  have hpos : sessionReplayByteCount ≠ 0 := by decide
  obtain ⟨count, hcount⟩ := Nat.exists_eq_succ_of_ne_zero hpos
  have hstart : rebuildStart sessionReplayByteCount (longPaletteStream n)
      = (tracked (longPalette n), 0x61 :: List.replicate count 0x61) := by
    rw [rebuildStart, hsplit, longPaletteStream, List.take_left, List.drop_left, hcount,
      List.replicate_succ, seekQuiescent, if_pos hquiet]
  rw [openingState, hstart]
  dsimp only
  rw [if_neg (List.cons_ne_nil _ _)]
  exact hentries

/-- A colour takes 4100 bytes to set. -/
theorem length_longPalette (hn : n ≤ 256) : (longPalette n).length = n * 4100 := by
  have hone : ∀ color ∈ List.range n, (osc (ascii "4;" ++ decimal color ++ ascii ";"
      ++ longSpec color)).length = 4100 := by
    intro color hcolor
    have hlt := List.mem_range.mp hcolor
    have hdigits : (decimal color).length ≤ 3 := length_decimal_le (by decide) (by omega)
    have h1 : "4;".length = 2 := rfl
    have h2 : ";".length = 1 := rfl
    simp only [length_osc, List.length_append, length_ascii, longSpec,
      List.length_replicate, h1, h2]
    omega
  rw [longPalette, longEntries, List.flatMap_map, List.length_flatMap, List.map_congr_left hone,
    List.map_const', List.sum_replicate_nat, List.length_range]

/-- A replay of such a stream opens with the palette. -/
theorem length_rebuilt_longPalette (hn : n ≤ 256) :
    ∃ data endsInTransfer, (afterAppends sessionReplayByteCount [longPaletteStream n]).replay none
        = some (.rebuilt data endsInTransfer) ∧ n * 4100 ≤ data.length := by
  have hlog := logInvariant_afterAppends sessionReplayByteCount [longPaletteStream n]
  rw [List.flatten_singleton] at hlog
  obtain ⟨transfer, hrebuilt⟩ := rebuilt_untrimmed sessionReplayByteCount (longPaletteStream n)
  refine ⟨_, _, by rw [replay, hlog.rebuilt_eq, hrebuilt], ?_⟩
  have hpalette := length_longPalette hn
  rw [longPalette] at hpalette
  rw [List.length_append, length_preamble_eq, bulk, List.length_append, openingState_longPalette hn,
    hpalette]
  omega

end SessionOutputLog
