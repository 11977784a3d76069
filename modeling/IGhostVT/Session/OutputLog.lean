import IGhostVT.Session.Preamble
import IGhostVT.Session.StreamTracker

/-!
# Session/OutputLog — a session's recent output, and what an attach hands back

`SessionOutputLog` keeps the newest output with its place in the whole stream, and a tracker that
has read what was trimmed.  `replay` answers an attach: a continuation from the client's offset when
the bytes after it are still here, a rebuild otherwise.

Offsets are natural numbers.  What Swift would trap on is `none` in `slice` and `checkedSub`, the
two operations whose arguments the client has a hand in.
-/

/-- What an attach hands back. -/
inductive Replay
  /-- The stream from the offset the client named, unchanged. -/
  | continuation (data : List UInt8)
  /-- The screen rebuilt; `endsInTransfer` says that a ZMODEM transfer is still going. -/
  | rebuilt (data : List UInt8) (endsInTransfer : Bool)
deriving DecidableEq

/-- `bytes[lower ..< upper]`, which traps on bounds out of order or out of range. -/
def slice (bytes : List UInt8) (lower upper : ℕ) : Option (List UInt8) :=
  if lower ≤ upper ∧ upper ≤ bytes.length then some ((bytes.take upper).drop lower) else none

/-- Unsigned subtraction, which traps below zero. -/
def checkedSub (a b : ℕ) : Option ℕ := if b ≤ a then some (a - b) else none

structure SessionOutputLog where
  capacity : ℕ
  buffer : List UInt8 := []
  startOffset : ℕ := 0
  startState : TerminalStreamTracker := {}

namespace SessionOutputLog

/-- The stream offset just past the newest byte. -/
def endOffset (log : SessionOutputLog) : ℕ := log.startOffset + log.buffer.length

/-- Bytes held, trimmed or not. -/
def storageByteCount (log : SessionOutputLog) : ℕ := log.buffer.length

def append (log : SessionOutputLog) (data : List UInt8) : SessionOutputLog :=
  let buffer := log.buffer ++ data
  if buffer.length ≤ 2 * log.capacity then { log with buffer := buffer }
  else
    let dropped := buffer.length - log.capacity
    { log with
      startState := log.startState.consume (buffer.take dropped) log.startOffset
      buffer := buffer.drop dropped
      startOffset := log.startOffset + dropped }

/-- The overlaps after `last` joined to it, a joined stretch keeping what stands in for the
first. -/
def joinFrom (last : Excision) : List Excision → List Excision
  | [] => [last]
  | e :: es =>
    if e.lower < last.upper then joinFrom { last with upper := max last.upper e.upper } es
    else last :: joinFrom e es

/-- Ordered, with overlaps joined. -/
def merged (excisions : List Excision) : List Excision :=
  match excisions.insertionSort fun a b => a.lower ≤ b.lower with
  | [] => []
  | e :: es => joinFrom e es

/-- `bytes` from `cursor` on with the excisions taken out, each leaving its replacement; `base` is
the stream offset of the first byte. -/
def spliced (bytes : List UInt8) (base : ℤ) (cursor : ℕ) : List Excision → List UInt8
  | [] => bytes.drop cursor
  | e :: es =>
    let lower := min bytes.length (max cursor (e.lower - base).toNat)
    let upper := min bytes.length (max lower (e.upper - base).toNat)
    (bytes.take lower).drop cursor ++ e.replacement ++ spliced bytes base (max cursor upper) es

/-- Forward to the first point between sequences, characters and transfers: the bytes left, and the
tracker there. -/
def seekQuiescent (t : TerminalStreamTracker) : List UInt8 → ℤ → TerminalStreamTracker × List UInt8
  | [], _ => (t, [])
  | byte :: bytes, offset =>
    if t.isQuiescent then (t, byte :: bytes)
    else seekQuiescent (t.consume [byte] offset) bytes (offset + 1)

/-- The replay of `bytes`, whose first is at offset `base`, from a tracker that has read all of them
but `rest`. -/
def rebuiltFrom (bytes : List UInt8) (base : ℤ) (tracker : TerminalStreamTracker)
    (rest : List UInt8) : Replay :=
  let startTerminal := tracker.terminal
  if rest = [] then
    -- The whole window is one unfinished sequence or transfer.
    .rebuilt (startTerminal.preamble ++ tracker.continuationPrefix) tracker.isInZmodemConversation
  else
    let count := bytes.length
    let start := count - rest.length
    let tracker := tracker.beginRecording.consume rest (base + start)
    let excisions := merged (tracker.takeExcisions (base + count))
    .rebuilt
      ((startTerminal.includingSettings tracker.terminal).preamble
        ++ spliced bytes base start excisions)
      tracker.isInZmodemConversation

def rebuilt (log : SessionOutputLog) : Replay :=
  let base : ℤ := log.startOffset
  let windowStart := log.buffer.length - log.capacity
  let tracker := log.startState.consume (log.buffer.take windowStart) base
  let (tracker, rest) := seekQuiescent tracker (log.buffer.drop windowStart) (base + windowStart)
  rebuiltFrom log.buffer base tracker rest

/-- A continuation from `offset` when the bytes after it are all still here and no more than a
replay's worth; a rebuild otherwise.  `none` would be a trap. -/
def replay (log : SessionOutputLog) (offset : Option ℕ) : Option Replay :=
  match offset with
  | some offset =>
    -- Compared before anything is subtracted: the offset is the client's.
    if log.startOffset ≤ offset ∧ offset ≤ log.endOffset then
      (checkedSub log.endOffset offset).bind fun missed =>
        if missed ≤ log.capacity then
          (checkedSub offset log.startOffset).bind fun skipped =>
            (slice log.buffer skipped log.buffer.length).map .continuation
        else some log.rebuilt
    else some log.rebuilt
  | none => some log.rebuilt

/-- A log of `capacity` after `chunks` were appended in turn. -/
def afterAppends (capacity : ℕ) (chunks : List (List UInt8)) : SessionOutputLog :=
  chunks.foldl append { capacity := capacity }

end SessionOutputLog
