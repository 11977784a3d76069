import IGhostVT.Zmodem.ZmodemFrame

/-!
# Zmodem/ZmodemTransfer — the two ends of a transfer

`ZmodemReceiver` takes files from `sz` and hands them to a writer; `ZmodemSender` reads files from a
source and gives them to `rz`.  Each is a state that a parser's events change, and every change
comes with what it does to the outside, in order.

File names are kept as the bytes of their UTF-8.  Offsets are unbounded here: no transfer reaches
the `2 ^ 64` at which the program would trap.
-/

open Zmodem

/-! ## The receiver -/

namespace ZmodemReceiver

inductive Phase
  | awaitingFile
  | receivingData
  | done
deriving DecidableEq

/-- What the receiver does to the outside. -/
inductive Effect
  | send (bytes : List UInt8)
  | beginFile (name : List UInt8) (size : Option ℕ)
  | write (bytes : List UInt8)
  | finishFile
  | finish (completed : Bool)
deriving DecidableEq

end ZmodemReceiver

structure ZmodemReceiver where
  phase : ZmodemReceiver.Phase := .awaitingFile
  expectingFileInfo : Bool := false
  expectingSinitAck : Bool := false
  offset : ℕ := 0
  name : List UInt8 := []
  size : Option ℕ := none
  finished : Bool := false
  /-- Files whose ZEOF named the length received, every byte of it. -/
  completedFileCount : ℕ := 0
  /-- The last file ended whole and nothing of another has begun. -/
  isBetweenCompleteFiles : Bool := false
  /-- A ZRPOS for `offset` is out: until a ZDATA at that position comes back, what arrives is the
  stream the sender had already queued, and is not to be written. -/
  isResynchronizing : Bool := false
deriving DecidableEq

namespace ZmodemReceiver

/-- The bytes an effect puts on the line. -/
def Effect.sent : Effect → List UInt8
  | .send bytes => bytes
  | _ => []

/-- What an effect asks of the writer. -/
def Effect.call : Effect → Option Effect
  | .send _ => none
  | e => some e

def sendRInit : Effect :=
  .send (ZmodemEncoder.hexHeader { type := .rinit, p3 := CANFDX ||| CANOVIO ||| CANFC32 })

def begin (r : ZmodemReceiver) : ZmodemReceiver × List Effect := (r, [sendRInit])

/-- The position of a header has 32 bits. -/
def sendPositionHeader (type : ZFrameType) (offset : ℕ) : Effect :=
  .send (ZmodemEncoder.hexHeader (.positioned type (UInt32.ofNat offset)))

/-- The sender is asked to go back to what arrived. -/
def askAgain (r : ZmodemReceiver) : ZmodemReceiver × List Effect :=
  ({ r with isResynchronizing := true }, [sendPositionHeader .rpos r.offset])

def finish (r : ZmodemReceiver) (completed : Bool) : ZmodemReceiver × List Effect :=
  if r.finished then (r, [])
  else ({ r with finished := true, phase := .done }, [.finish completed])

/-- Only the position received so far is taken: anything else would leave a hole in the file or
write a stretch twice. -/
def handleDataHeader (r : ZmodemReceiver) (position : UInt32) : ZmodemReceiver × List Effect :=
  if (r.phase = .receivingData ∨ r.phase = .awaitingFile) ∧ r.expectingFileInfo = false then
    if position.toNat ≠ r.offset then r.askAgain
    else ({ r with isResynchronizing := false, phase := .receivingData }, [])
  else (r, [])

def handleEOF (r : ZmodemReceiver) (position : UInt32) : ZmodemReceiver × List Effect :=
  if r.phase = .receivingData ∧ position.toNat ≠ r.offset then r.askAgain
  else
    let isWhole : Bool := position.toNat = r.offset ∧ r.size.all (· = r.offset)
    let ended : ZmodemReceiver :=
      if r.phase = .receivingData ∧ isWhole then
        { r with completedFileCount := r.completedFileCount + 1, isBetweenCompleteFiles := true }
      else r
    ({ ended with isResynchronizing := false, phase := .awaitingFile, offset := 0 },
      (if r.phase = .receivingData then [.finishFile] else []) ++ [sendRInit])

def handleHeader (r : ZmodemReceiver) (header : ZHeader) : ZmodemReceiver × List Effect :=
  match header.type with
  | .rqinit => (r, [sendRInit])
  | .sinit => ({ r with expectingSinitAck := true }, [])
  | .file => ({ r with expectingFileInfo := true, isBetweenCompleteFiles := false }, [])
  | .data => r.handleDataHeader header.position
  | .eof => r.handleEOF header.position
  | .fin =>
    let (ended, effects) := r.finish true
    (ended, .send (ZmodemEncoder.hexHeader { type := .fin }) :: effects)
  | _ => (r, [])

/-- A name up to the first NUL, then text whose first word is the size. -/
def parseFileInfo (bytes : List UInt8) : List UInt8 × Option ℕ :=
  if 0 ∈ bytes then
    let info := ((bytes.dropWhile (· ≠ 0)).drop 1).takeWhile (· ≠ 0)
    let word := (info.dropWhile (· = 0x20)).takeWhile (· ≠ 0x20)
    (bytes.takeWhile (· ≠ 0), (parseInteger 0 (2 ^ 64 - 1) word).map Int.toNat)
  else (bytes, none)

/-- `accepts` is the writer's answer to `beginFile`. -/
def handleFileInfo (r : ZmodemReceiver) (bytes : List UInt8) (accepts : Bool) :
    ZmodemReceiver × List Effect :=
  let info := parseFileInfo bytes
  let named := { r with expectingFileInfo := false, name := info.1, size := info.2 }
  if accepts then
    ({ named with offset := 0 }, [.beginFile info.1 info.2, sendPositionHeader .rpos 0])
  else (named, [.beginFile info.1 info.2, .send (ZmodemEncoder.hexHeader { type := .skip })])

def handleData (r : ZmodemReceiver) (bytes : List UInt8) (last : ZSubpacketEnd) (accepts : Bool) :
    ZmodemReceiver × List Effect :=
  if r.expectingSinitAck then
    ({ r with expectingSinitAck := false }, [.send (ZmodemEncoder.hexHeader { type := .ack })])
  else if r.expectingFileInfo then r.handleFileInfo bytes accepts
  else if r.phase = .receivingData ∧ r.isResynchronizing = false then
    let offset := r.offset + bytes.length
    ({ r with offset := offset },
      .write bytes :: if last.wantsAck then [sendPositionHeader .ack offset] else [])
  else (r, [])

/-- `accepts` is what the writer answers, should the event be a file's info. -/
def handle (r : ZmodemReceiver) (event : ZParserEvent) (accepts : Bool) :
    ZmodemReceiver × List Effect :=
  if r.finished then (r, [])
  else
    match event with
    | .header header => r.handleHeader header
    | .data bytes last => r.handleData bytes last accepts
    | .abort => r.finish false
    | .badCRC =>
      if r.phase = .receivingData then r.askAgain
      else (r, [.send (ZmodemEncoder.hexHeader { type := .nak })])
    | .noise _ => (r, [])

def cancel (r : ZmodemReceiver) : ZmodemReceiver × List Effect :=
  if r.finished then (r, [])
  else
    let (ended, effects) := r.finish false
    (ended, .send ZmodemEncoder.cancelSequence :: effects)

/-- The link dropped and a new one reached the same session: the sender is asked for what went
nowhere or, between files, given the ZRINIT it may be waiting for. -/
def resume (r : ZmodemReceiver) : ZmodemReceiver × List Effect :=
  if r.finished then (r, [])
  else
    match r.phase with
    | .receivingData => r.askAgain
    | .awaitingFile => (r, if r.expectingFileInfo then [] else [sendRInit])
    | .done => (r, [])

def abandon (r : ZmodemReceiver) : ZmodemReceiver × List Effect := r.finish false

def isAwaitingSenderAfterCompleteFiles (r : ZmodemReceiver) : Bool :=
  !r.finished && 0 < r.completedFileCount && r.isBetweenCompleteFiles

/-- A transfer whose files all ended whole is done when the sender goes quiet, anything else is a
stall. -/
def senderWentQuiet (r : ZmodemReceiver) : ZmodemReceiver × List Effect :=
  if r.isAwaitingSenderAfterCompleteFiles then r.finish true else (r, [])

end ZmodemReceiver

/-! ## The sender -/

structure ZmodemOutgoingFile where
  name : List UInt8
  size : ℕ
  /-- The bytes from an offset on, at most so many. -/
  read : ℕ → ℕ → List UInt8

namespace ZmodemSender

inductive Phase
  | sentFile
  | sendingData
  | awaitingEOFAck
  | finishing
  | done
deriving DecidableEq

inductive Effect
  | send (bytes : List UInt8)
  | finish (completed : Bool)
deriving DecidableEq

def blockSize : ℕ := 8192

/-- Unacked bytes in flight. -/
def window : ℕ := 256 * 1024

end ZmodemSender

structure ZmodemSender where
  phase : ZmodemSender.Phase := .sentFile
  current : Option ZmodemOutgoingFile := none
  offset : ℕ := 0
  ackedOffset : ℕ := 0
  sentLastBlock : Bool := false
  finished : Bool := false
  /-- The files `nextFile` has yet to hand out. -/
  source : List ZmodemOutgoingFile

namespace ZmodemSender

def Effect.sent : Effect → List UInt8
  | .send bytes => bytes
  | .finish _ => []

/-- What the source's `finish` is called with. -/
def Effect.ended : Effect → Option Bool
  | .send _ => none
  | .finish completed => some completed

def sendFin (s : ZmodemSender) : ZmodemSender × List Effect :=
  ({ s with phase := .finishing }, [.send (ZmodemEncoder.hexHeader { type := .fin })])

/-- The name, a NUL, then the size and five more words. -/
def fileInfo (file : ZmodemOutgoingFile) : List UInt8 :=
  file.name ++ [0] ++ (decimal file.size ++ ascii " 0 0 0 1 " ++ decimal file.size) ++ [0]

def startNextFile (s : ZmodemSender) : ZmodemSender × List Effect :=
  match s.source with
  | [] => s.sendFin
  | file :: rest =>
    ({ s with source := rest, current := some file, offset := 0, phase := .sentFile },
      [.send (ZmodemEncoder.bin32Header { type := .file }),
        .send (ZmodemEncoder.dataSubpacket32 (fileInfo file) .wait)])

def begin (s : ZmodemSender) : ZmodemSender × List Effect := s.startNextFile

def finish (s : ZmodemSender) (completed : Bool) : ZmodemSender × List Effect :=
  if s.finished then (s, [])
  else ({ s with finished := true, phase := .done }, [.finish completed])

def cancel (s : ZmodemSender) : ZmodemSender × List Effect :=
  if s.finished then (s, [])
  else
    let (ended, effects) := s.finish false
    (ended, .send ZmodemEncoder.cancelSequence :: effects)

/-- The loop of `pumpWindow`, for so many passes.  Every pass but the last sends a byte at least, so
`window` passes are enough. -/
def pump (file : ZmodemOutgoingFile) : ℕ → ZmodemSender → ZmodemSender × List Effect
  | 0, s => (s, [])
  | passes + 1, s =>
    if s.sentLastBlock = false ∧ s.offset - s.ackedOffset < window then
      let chunk := file.read s.offset blockSize
      if chunk = [] ∧ s.offset < file.size then s.cancel
      else
        let offset := s.offset + chunk.length
        let isLast : Bool := offset ≥ file.size
        let (next, effects) := pump file passes { s with offset := offset, sentLastBlock := isLast }
        (next,
          .send (ZmodemEncoder.dataSubpacket32 chunk (if isLast then .wait else .query)) :: effects)
    else (s, [])

def pumpWindow (s : ZmodemSender) : ZmodemSender × List Effect :=
  match s.current with
  | none => (s, [])
  | some file => pump file window s

/-- ZDATA opens a binary frame, the other positions go in hex. -/
def sendPositionHeader (type : ZFrameType) (offset : ℕ) : Effect :=
  let header := ZHeader.positioned type (UInt32.ofNat offset)
  .send (if type = .data then ZmodemEncoder.bin32Header header else ZmodemEncoder.hexHeader header)

def handleRPos (s : ZmodemSender) (position : UInt32) : ZmodemSender × List Effect :=
  let back := { s with
    offset := position.toNat, ackedOffset := position.toNat, phase := .sendingData,
    sentLastBlock := false }
  let (next, effects) := back.pumpWindow
  (next, sendPositionHeader .data position.toNat :: effects)

def handleAck (s : ZmodemSender) (position : UInt32) : ZmodemSender × List Effect :=
  if s.phase = .sendingData then
    let acked := { s with ackedOffset := max s.ackedOffset position.toNat }
    if acked.sentLastBlock ∧ acked.offset ≤ acked.ackedOffset then
      ({ acked with phase := .awaitingEOFAck }, [sendPositionHeader .eof acked.offset])
    else acked.pumpWindow
  else (s, [])

def handleHeader (s : ZmodemSender) (header : ZHeader) : ZmodemSender × List Effect :=
  match header.type with
  | .rpos => s.handleRPos header.position
  | .ack => s.handleAck header.position
  | .rinit => if s.phase = .awaitingEOFAck then s.startNextFile else (s, [])
  | .skip => s.startNextFile
  | .fin =>
    let (ended, effects) := s.finish true
    (ended, .send (ascii "OO") :: effects)
  | _ => (s, [])

def handle (s : ZmodemSender) (event : ZParserEvent) : ZmodemSender × List Effect :=
  if s.finished then (s, [])
  else
    match event with
    | .header header => s.handleHeader header
    | .abort => s.finish false
    | .data _ _ | .badCRC | .noise _ => (s, [])

end ZmodemSender
