import IGhostVT.Zmodem.ZmodemTransfer

/-!
# Zmodem/ZmodemEngine — what of a terminal's output is a transfer's

Output that goes through `ZmodemEngine` is shown, unless `ZmodemDetector` finds a header in it that
starts a transfer.  Output that does not is searched by `ZmodemStreamScanner` for the conversations
in it, which are taken out: all of them from a replay (`strip`), and from a link that comes back in
the middle of one, its rest (`discard`).

A cursor into the bytes is here the bytes from it on, and an index counts from there.
-/

open Zmodem

/-! ## The scanner -/

namespace ZmodemStreamScanner

def start : List UInt8 := [0x2A, 0x2A, 0x18, 0x42]

def finish : List UInt8 := [0x2A, 0x2A, 0x18, 0x42, 0x30, 0x38]

def cancelRun : ℕ := 5

/-- `index(of:in:from:)`, of bytes that are not none. -/
def index (needle : List UInt8) : List UInt8 → Option ℕ
  | [] => none
  | byte :: rest =>
    if needle.isPrefixOf (byte :: rest) then some 0 else (index needle rest).map (1 + ·)

/-- The first conversation's start. -/
def startIndex (bytes : List UInt8) : Option ℕ := index start bytes

/-- Past a ZFIN: the header's digits and checksum up to a CR, then LF (or 0x8A) and an XON, then
the `OO`. -/
def finishEnd (bytes : List UInt8) : Option ℕ :=
  let digits := (bytes.drop finish.length).takeWhile (· ≠ 0x0D)
  let lineEnd := finish.length + digits.length
  if lineEnd < bytes.length then
    let controls := (bytes.drop (lineEnd + 1)).takeWhile (· ∈ [0x0A, 0x8A, 0x11])
    let stop := lineEnd + 1 + controls.length
    some (if (ascii "OO").isPrefixOf (bytes.drop stop) then stop + 2 else stop)
  else none

/-- The loop of `endIndex`, for so many passes.  Every pass moves past a byte at least, so as many
as there are bytes are enough. -/
def scanEnd : ℕ → List UInt8 → Option ℕ
  | 0, _ => none
  | _ + 1, [] => none
  | passes + 1, byte :: rest =>
    if byte = 0x18 then
      let run := ((byte :: rest).takeWhile (· = 0x18)).length
      let past := (byte :: rest).drop run
      if run ≥ cancelRun then some (run + (past.takeWhile (· = 0x08)).length)
      else (scanEnd passes past).map (run + ·)
    else if byte = 0x2A ∧ finish.isPrefixOf (byte :: rest) then finishEnd (byte :: rest)
    else (scanEnd passes rest).map (1 + ·)

/-- Just past the end of the conversation the bytes begin within. -/
def endIndex (bytes : List UInt8) : Option ℕ := scanEnd bytes.length bytes

/-- How `sz` announces itself. -/
def announcement : List UInt8 := ascii "rz\r"

/-- The loop of `strip`, for so many conversations. -/
def stripFrom : ℕ → List UInt8 → List UInt8 × Bool
  | 0, replay => (replay, false)
  | passes + 1, replay =>
    match startIndex replay with
    | none => (replay, false)
    | some header =>
      let isAnnounced := header ≥ 3 ∧ (replay.take header).drop (header - 3) = announcement
      let kept := replay.take (if isAnnounced then header - 3 else header)
      let conversation := replay.drop (header + start.length)
      match endIndex conversation with
      | none => (kept, true)
      | some stop => (kept ++ (stripFrom passes (conversation.drop stop)).1, true)

/-- The replay with every conversation taken out, one that never ended to the end, and whether there
was any. -/
def strip (replay : List UInt8) : List UInt8 × Bool := stripFrom replay.length replay

end ZmodemStreamScanner

/-! ## The detector -/

namespace ZmodemDetector

inductive Trigger
  | download
  | upload
deriving DecidableEq

def download : List UInt8 := [0x2A, 0x2A, 0x18, 0x42, 0x30, 0x30]

def upload : List UInt8 := [0x2A, 0x2A, 0x18, 0x42, 0x30, 0x31]

def maxHold : ℕ := 21

def locateTrigger (bytes : List UInt8) : Option (ℕ × Trigger) :=
  match ZmodemStreamScanner.index download bytes, ZmodemStreamScanner.index upload bytes with
  | some d, some u => some (if d ≤ u then (d, .download) else (u, .upload))
  | some d, none => some (d, .download)
  | none, some u => some (u, .upload)
  | none, none => none

end ZmodemDetector

structure ZmodemDetector where
  cache : List UInt8 := []
deriving DecidableEq

namespace ZmodemDetector

/-- The detector next, and the trigger with the bytes from it on.  What was fed is passed through
either way. -/
def feed (d : ZmodemDetector) (data : List UInt8) :
    ZmodemDetector × Option (Trigger × List UInt8) :=
  let cache := d.cache ++ data
  match locateTrigger cache with
  | some (position, trigger) => ({ cache := [] }, some (trigger, cache.drop position))
  | none => ({ cache := cache.drop (cache.length - maxHold) }, none)

end ZmodemDetector

/-! ## The engine -/

namespace ZmodemEngine

inductive Mode
  | idle
  | awaitingSource
  | active
  | discarding
  | suspended
deriving DecidableEq

/-- What the engine does with the bytes: shows them, sends some to the other end, or gives them to
the parser of a transfer. -/
inductive Effect
  | passthrough (bytes : List UInt8)
  | emit (bytes : List UInt8)
  | start (trigger : ZmodemDetector.Trigger) (initial : List UInt8)
  | parse (bytes : List UInt8)
deriving DecidableEq

end ZmodemEngine

structure ZmodemEngine where
  mode : ZmodemEngine.Mode := .idle
  detector : ZmodemDetector := {}
  discardTail : List UInt8 := []
  hasCancelledInterrupted : Bool := false
deriving DecidableEq

namespace ZmodemEngine

/-- The bytes an effect shows. -/
def Effect.shown : Effect → List UInt8
  | .passthrough bytes => bytes
  | _ => []

def discardInterruptedTransfer (e : ZmodemEngine) : ZmodemEngine :=
  { e with mode := .discarding, discardTail := [], hasCancelledInterrupted := false }

/-- The idle branch of `process`. -/
def detect (e : ZmodemEngine) (bytes : List UInt8) : ZmodemEngine × List Effect :=
  let (detector, found) := e.detector.feed bytes
  let shown : List Effect := if bytes = [] then [] else [.passthrough bytes]
  match found with
  | none => ({ e with detector := detector }, shown)
  | some (trigger, initial) =>
    ({ e with
        detector := detector,
        mode := match trigger with
          | .download => .active
          | .upload => .awaitingSource },
      shown ++ [.start trigger initial])

/-- ZDLE is in every header and, escaped, all through the data; terminal text has no use for it.
Bytes without one before anything was swallowed say that the other end already stopped. -/
def discard (e : ZmodemEngine) (bytes : List UInt8) : ZmodemEngine × List Effect :=
  if e.hasCancelledInterrupted = false ∧ ZDLE ∉ bytes then { e with mode := .idle }.detect bytes
  else
    let told : List Effect :=
      if e.hasCancelledInterrupted then [] else [.emit ZmodemEncoder.cancelSequence]
    let window := e.discardTail ++ bytes
    match ZmodemStreamScanner.endIndex window with
    | none =>
      ({ e with
          hasCancelledInterrupted := true, discardTail := window.drop (window.length - 64) }, told)
    | some stop =>
      let ended : ZmodemEngine :=
        { e with mode := .idle, hasCancelledInterrupted := true, discardTail := [] }
      let rest := window.drop stop
      if rest = [] then (ended, told)
      else
        let (next, effects) := ended.detect rest
        (next, told ++ effects)

def process (e : ZmodemEngine) (bytes : List UInt8) : ZmodemEngine × List Effect :=
  match e.mode with
  | .idle => e.detect bytes
  | .awaitingSource | .active => (e, [.parse bytes])
  | .discarding => e.discard bytes
  | .suspended => (e, [])

/-- What is shown of the output that comes in, a chunk at a time. -/
def shown (e : ZmodemEngine) : List (List UInt8) → List UInt8
  | [] => []
  | bytes :: rest => (e.process bytes).2.flatMap Effect.shown ++ (e.process bytes).1.shown rest

end ZmodemEngine
