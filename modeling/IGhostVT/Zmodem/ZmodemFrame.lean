import IGhostVT.Lib.Decimal
import Mathlib.Logic.Function.Iterate

/-!
# Zmodem/ZmodemFrame — headers and subpackets, written and read

A ZMODEM stream is headers, each with a frame type and four bytes, and after some of them data
subpackets.  `ZmodemEncoder` writes them and `ZmodemParser` reads them back a byte at a time,
handing an event out for each.
-/

/-! ## The checksums -/

namespace ZmodemCRC

def shift16 (crc : UInt16) : UInt16 :=
  if crc &&& 0x8000 ≠ 0 then (crc <<< 1) ^^^ 0x1021 else crc <<< 1

def table16 (index : UInt16) : UInt16 := shift16^[8] (index <<< 8)

def update16 (crc : UInt16) (byte : UInt8) : UInt16 :=
  (crc <<< 8) ^^^ table16 (((crc >>> 8) ^^^ byte.toUInt16) &&& 0xFF)

def crc16 (bytes : List UInt8) : UInt16 := bytes.foldl update16 0

def shift32 (crc : UInt32) : UInt32 :=
  if crc &&& 1 ≠ 0 then (crc >>> 1) ^^^ 0xEDB88320 else crc >>> 1

def table32 (index : UInt32) : UInt32 := shift32^[8] index

def update32 (crc : UInt32) (byte : UInt8) : UInt32 :=
  (crc >>> 8) ^^^ table32 ((crc ^^^ byte.toUInt32) &&& 0xFF)

def crc32 (bytes : List UInt8) : UInt32 := bytes.foldl update32 0xFFFFFFFF ^^^ 0xFFFFFFFF

-- The check values of the two polynomials, over "123456789".
example : crc16 (ascii "123456789") = 0x31C3 := by decide +kernel
example : crc32 (ascii "123456789") = 0xCBF43926 := by decide +kernel

end ZmodemCRC

/-! ## Headers and subpackets -/

namespace Zmodem

def ZPAD : UInt8 := 0x2A
def ZDLE : UInt8 := 0x18
def ZBIN : UInt8 := 0x41
def ZHEX : UInt8 := 0x42
def ZBIN32 : UInt8 := 0x43
def XON : UInt8 := 0x11

def ZRUB0 : UInt8 := 0x6C
def ZRUB1 : UInt8 := 0x6D

def CANFDX : UInt8 := 0x01
def CANOVIO : UInt8 := 0x02
def CANFC32 : UInt8 := 0x20

end Zmodem

open Zmodem

inductive ZFrameType
  | rqinit | rinit | sinit | ack | file | skip | nak | abort | fin | rpos
  | data | eof | ferr | crc | challenge | compl | can | freecnt | command | stderr
deriving DecidableEq

namespace ZFrameType

def rawValue : ZFrameType → UInt8
  | rqinit => 0 | rinit => 1 | sinit => 2 | ack => 3 | file => 4
  | skip => 5 | nak => 6 | abort => 7 | fin => 8 | rpos => 9
  | data => 10 | eof => 11 | ferr => 12 | crc => 13 | challenge => 14
  | compl => 15 | can => 16 | freecnt => 17 | command => 18 | stderr => 19

/-- `ZFrameType(rawValue:)`. -/
def ofRawValue (value : UInt8) : Option ZFrameType :=
  [rqinit, rinit, sinit, ack, file, skip, nak, abort, fin, rpos, data, eof, ferr, crc, challenge,
    compl, can, freecnt, command, stderr][value.toNat]?

@[simp] theorem ofRawValue_rawValue (type : ZFrameType) : ofRawValue type.rawValue = some type := by
  cases type <;> rfl

/-- The frames whose header is followed by data subpackets. -/
def hasSubpackets : ZFrameType → Bool
  | file | data | sinit | command | stderr => true
  | _ => false

end ZFrameType

inductive ZSubpacketEnd
  /-- `ZCRCE`. -/
  | «end»
  /-- `ZCRCG`. -/
  | go
  /-- `ZCRCQ`. -/
  | query
  /-- `ZCRCW`. -/
  | wait
deriving DecidableEq

namespace ZSubpacketEnd

def rawValue : ZSubpacketEnd → UInt8
  | .end => 0x68
  | .go => 0x69
  | .query => 0x6A
  | .wait => 0x6B

/-- `ZSubpacketEnd(rawValue:)`. -/
def ofRawValue (value : UInt8) : Option ZSubpacketEnd :=
  if value = 0x68 then some .end
  else if value = 0x69 then some .go
  else if value = 0x6A then some .query
  else if value = 0x6B then some .wait
  else none

/-- More of the frame follows. -/
def continues : ZSubpacketEnd → Bool
  | .go | .query => true
  | _ => false

def wantsAck : ZSubpacketEnd → Bool
  | .query | .wait => true
  | _ => false

end ZSubpacketEnd

structure ZHeader where
  type : ZFrameType
  p0 : UInt8 := 0
  p1 : UInt8 := 0
  p2 : UInt8 := 0
  p3 : UInt8 := 0
deriving DecidableEq

namespace ZHeader

/-- Four bytes, the lowest first. -/
def join (b0 b1 b2 b3 : UInt8) : UInt32 :=
  b0.toUInt32 ||| (b1.toUInt32 <<< 8) ||| (b2.toUInt32 <<< 16) ||| (b3.toUInt32 <<< 24)

def position (h : ZHeader) : UInt32 := join h.p0 h.p1 h.p2 h.p3

/-- The header of `type` that carries `offset`, which is cut to 32 bits. -/
def positioned (type : ZFrameType) (offset : UInt32) : ZHeader where
  type := type
  p0 := (offset &&& 0xFF).toUInt8
  p1 := ((offset >>> 8) &&& 0xFF).toUInt8
  p2 := ((offset >>> 16) &&& 0xFF).toUInt8
  p3 := ((offset >>> 24) &&& 0xFF).toUInt8

def body (h : ZHeader) : List UInt8 := [h.type.rawValue, h.p0, h.p1, h.p2, h.p3]

end ZHeader

/-! ## The encoder -/

namespace ZmodemEncoder

/-- Every control byte is escaped, not only the required set: the PTY's line discipline mangles a
raw one. -/
def escaped (byte : UInt8) : List UInt8 :=
  if byte &&& 0x60 = 0 then [ZDLE, byte ^^^ 0x40] else [byte]

def hexDigits : List UInt8 := ascii "0123456789abcdef"

def hex (byte : UInt8) : List UInt8 :=
  [hexDigits.getD (byte >>> 4).toNat 0, hexDigits.getD (byte &&& 0x0F).toNat 0]

def hexHeader (h : ZHeader) : List UInt8 :=
  let crc := ZmodemCRC.crc16 h.body
  [ZPAD, ZPAD, ZDLE, ZHEX] ++ h.body.flatMap hex ++ hex (crc >>> 8).toUInt8
    ++ hex (crc &&& 0xFF).toUInt8 ++ [0x0D, 0x0A]
    ++ if h.type ≠ .ack ∧ h.type ≠ .fin then [XON] else []

/-- `count` bytes of a checksum, the lowest first. -/
def lowBytes : ℕ → UInt32 → List UInt8
  | 0, _ => []
  | count + 1, crc => (crc &&& 0xFF).toUInt8 :: lowBytes count (crc >>> 8)

def bin32Header (h : ZHeader) : List UInt8 :=
  [ZPAD, ZDLE, ZBIN32] ++ h.body.flatMap escaped
    ++ (lowBytes 4 (ZmodemCRC.crc32 h.body)).flatMap escaped

def dataSubpacket32 (data : List UInt8) (last : ZSubpacketEnd) : List UInt8 :=
  data.flatMap escaped ++ [ZDLE, last.rawValue]
    ++ (lowBytes 4 (ZmodemCRC.crc32 (data ++ [last.rawValue]))).flatMap escaped
    ++ if last = .wait then [XON] else []

def cancelSequence : List UInt8 := List.replicate 8 ZDLE ++ List.replicate 8 0x08

end ZmodemEncoder

/-! ## The parser -/

inductive ZParserEvent
  | header (h : ZHeader)
  | data (bytes : List UInt8) (last : ZSubpacketEnd)
  | badCRC
  | abort
  | noise (byte : UInt8)
deriving DecidableEq

namespace ZmodemParser

inductive State
  | idle
  | gotPad
  | gotZDLE
  | hexBody
  | binBody
  | bin32Body
  | subpacket
  | subpacketCRC
deriving DecidableEq

end ZmodemParser

structure ZmodemParser where
  state : ZmodemParser.State := .idle
  /-- `ZDLE`s in a row: five of them abort the transfer. -/
  canRun : ℕ := 0
  hexNibbles : List UInt8 := []
  headerBytes : List UInt8 := []
  headerNeeded : ℕ := 0
  headerCRC32 : Bool := false
  escaped : Bool := false
  subpacketData : List UInt8 := []
  subpacketCRC32 : Bool := false
  subpacketEnd : ZSubpacketEnd := .end
  crcBytes : List UInt8 := []
  crcNeeded : ℕ := 0
deriving DecidableEq

namespace ZmodemParser

def reset (p : ZmodemParser) : ZmodemParser :=
  { p with
    state := .idle, canRun := 0, escaped := false, hexNibbles := [], headerBytes := [],
    subpacketData := [], crcBytes := [] }

def consumeIdle (p : ZmodemParser) (byte : UInt8) : ZmodemParser × List ZParserEvent :=
  if byte = ZPAD then ({ p with state := .gotPad, canRun := 0 }, [])
  else if byte = ZDLE then ({ p with state := .gotZDLE, canRun := 1 }, [])
  else ({ p with canRun := 0 }, [.noise byte])

def consumeGotPad (p : ZmodemParser) (byte : UInt8) : ZmodemParser × List ZParserEvent :=
  if byte = ZPAD then (p, [])
  else if byte = ZDLE then ({ p with state := .gotZDLE, canRun := 0 }, [])
  else
    let (next, events) := consumeIdle { p with state := .idle } byte
    (next, .noise ZPAD :: events)

def beginHeader (p : ZmodemParser) (crc32 : Bool) : ZmodemParser :=
  { p with
    headerCRC32 := crc32, headerBytes := [], headerNeeded := 5 + if crc32 then 4 else 2,
    escaped := false, state := if crc32 then .bin32Body else .binBody }

def consumeGotZDLE (p : ZmodemParser) (byte : UInt8) : ZmodemParser × List ZParserEvent :=
  if byte = ZDLE then
    if p.canRun + 1 ≥ 5 then ({ p with canRun := p.canRun + 1 }.reset, [.abort])
    else ({ p with canRun := p.canRun + 1 }, [])
  else if byte = ZBIN then (p.beginHeader false, [])
  else if byte = ZBIN32 then (p.beginHeader true, [])
  else if byte = ZHEX then ({ p with state := .hexBody, hexNibbles := [] }, [])
  else consumeIdle { p with state := .idle } byte

def beginSubpacket (p : ZmodemParser) : ZmodemParser :=
  { p with subpacketData := [], escaped := false, state := .subpacket }

def emitHeader (p : ZmodemParser) (body : List UInt8) (crc32 : Bool) :
    ZmodemParser × List ZParserEvent :=
  match ZFrameType.ofRawValue (body.getD 0 0) with
  | none => ({ p with state := .idle }, [])
  | some type =>
    if type = .abort ∨ type = .can then (p.reset, [.abort])
    else
      let header : ZHeader := ⟨type, body.getD 1 0, body.getD 2 0, body.getD 3 0, body.getD 4 0⟩
      if type.hasSubpackets then ({ p with subpacketCRC32 := crc32 }.beginSubpacket,
        [.header header])
      else ({ p with state := .idle }, [.header header])

/-- The nibbles of a hex header, taken two at a time. -/
def pairs : List UInt8 → List UInt8
  | high :: low :: rest => ((high <<< 4) ||| low) :: pairs rest
  | _ => []

def finishHexHeader (p : ZmodemParser) : ZmodemParser × List ZParserEvent :=
  let bytes := pairs p.hexNibbles
  let crc := ((bytes.getD 5 0).toUInt16 <<< 8) ||| (bytes.getD 6 0).toUInt16
  if ZmodemCRC.crc16 (bytes.take 5) = crc then p.emitHeader (bytes.take 5) false
  else ({ p with state := .idle }, [.badCRC])

def hexValue (byte : UInt8) : Option UInt8 :=
  if 0x30 ≤ byte ∧ byte ≤ 0x39 then some (byte - 0x30)
  else if 0x61 ≤ byte ∧ byte ≤ 0x66 then some (byte - 0x61 + 10)
  else if 0x41 ≤ byte ∧ byte ≤ 0x46 then some (byte - 0x41 + 10)
  else none

def consumeHex (p : ZmodemParser) (byte : UInt8) : ZmodemParser × List ZParserEvent :=
  match hexValue byte with
  | some value =>
    let next := { p with hexNibbles := p.hexNibbles ++ [value] }
    if next.hexNibbles.length = 14 then next.finishHexHeader else (next, [])
  | none =>
    let cut : List ZParserEvent :=
      if p.hexNibbles.length ≠ 0 ∧ p.hexNibbles.length < 14 then [.badCRC] else []
    if byte ≠ 0x0D ∧ byte ≠ 0x0A ∧ byte ≠ XON then
      let (next, events) := consumeIdle { p with state := .idle } byte
      (next, cut ++ events)
    else ({ p with state := .idle }, cut)

/-- What a byte inside a binary frame stands for, once its escape is undone. -/
structure Decoded where
  value : UInt8 := 0
  terminator : Option ZSubpacketEnd := none
  isAbort : Bool := false
deriving DecidableEq

def unescape (p : ZmodemParser) (byte : UInt8) : ZmodemParser × Option Decoded :=
  if p.escaped then
    let next := { p with escaped := false }
    match ZSubpacketEnd.ofRawValue byte with
    | some last => (next, some { terminator := some last })
    | none =>
      if byte = ZRUB0 then (next, some { value := 0x7F })
      else if byte = ZRUB1 then (next, some { value := 0xFF })
      else if byte = ZDLE then (next, some { isAbort := true })
      else (next, some { value := byte ^^^ 0x40 })
  else if byte = ZDLE then ({ p with escaped := true }, none)
  else (p, some { value := byte })

def finishBinaryHeader (p : ZmodemParser) : ZmodemParser × List ZParserEvent :=
  let bytes := p.headerBytes
  let ok : Bool :=
    if p.headerCRC32 then
      ZmodemCRC.crc32 (bytes.take 5)
        == ZHeader.join (bytes.getD 5 0) (bytes.getD 6 0) (bytes.getD 7 0) (bytes.getD 8 0)
    else
      ZmodemCRC.crc16 (bytes.take 5)
        == ((bytes.getD 5 0).toUInt16 <<< 8) ||| (bytes.getD 6 0).toUInt16
  if ok then p.emitHeader (bytes.take 5) p.headerCRC32
  else ({ p with state := .idle }, [.badCRC])

/-- What the three consumers of a binary frame share: `take` has what the byte stands for, unless it
aborts the transfer. -/
def consumeEscaped (take : ZmodemParser → Decoded → ZmodemParser × List ZParserEvent)
    (p : ZmodemParser) (byte : UInt8) : ZmodemParser × List ZParserEvent :=
  match p.unescape byte with
  | (next, none) => (next, [])
  | (next, some decoded) => if decoded.isAbort then (next.reset, [.abort]) else take next decoded

def takeHeaderByte (p : ZmodemParser) (decoded : Decoded) : ZmodemParser × List ZParserEvent :=
  let read := { p with headerBytes := p.headerBytes ++ [decoded.value] }
  if read.headerBytes.length = read.headerNeeded then read.finishBinaryHeader else (read, [])

def consumeHeaderBody : ZmodemParser → UInt8 → ZmodemParser × List ZParserEvent :=
  consumeEscaped takeHeaderByte

def takeSubpacketByte (p : ZmodemParser) (decoded : Decoded) : ZmodemParser × List ZParserEvent :=
  match decoded.terminator with
  | some last =>
    ({ p with
        subpacketEnd := last, crcBytes := [], crcNeeded := if p.subpacketCRC32 then 4 else 2,
        escaped := false, state := .subpacketCRC }, [])
  | none => ({ p with subpacketData := p.subpacketData ++ [decoded.value] }, [])

def consumeSubpacket : ZmodemParser → UInt8 → ZmodemParser × List ZParserEvent :=
  consumeEscaped takeSubpacketByte

/-- The checksum of a subpacket is in: it covers the data and the byte that ended it. -/
def finishSubpacket (p : ZmodemParser) : ZmodemParser × List ZParserEvent :=
  let payload := p.subpacketData ++ [p.subpacketEnd.rawValue]
  let bytes := p.crcBytes
  let ok : Bool :=
    if p.subpacketCRC32 then
      ZmodemCRC.crc32 payload
        == ZHeader.join (bytes.getD 0 0) (bytes.getD 1 0) (bytes.getD 2 0) (bytes.getD 3 0)
    else
      ZmodemCRC.crc16 payload == ((bytes.getD 0 0).toUInt16 <<< 8) ||| (bytes.getD 1 0).toUInt16
  let event := if ok then .data p.subpacketData p.subpacketEnd else .badCRC
  if p.subpacketEnd.continues ∧ ok then (p.beginSubpacket, [event])
  else ({ p with state := .idle }, [event])

def takeSubpacketCRCByte (p : ZmodemParser) (decoded : Decoded) :
    ZmodemParser × List ZParserEvent :=
  let read := { p with crcBytes := p.crcBytes ++ [decoded.value] }
  if read.crcBytes.length = read.crcNeeded then read.finishSubpacket else (read, [])

def consumeSubpacketCRC : ZmodemParser → UInt8 → ZmodemParser × List ZParserEvent :=
  consumeEscaped takeSubpacketCRCByte

/-- The XON and XOFF a flow-controlled link inserts. -/
def isFlowControl (byte : UInt8) : Bool :=
  byte = 0x11 ∨ byte = 0x13 ∨ byte = 0x91 ∨ byte = 0x93

/-- Flow control is dropped inside a binary frame only, where one that was sent would have been
escaped. -/
def consume (p : ZmodemParser) (byte : UInt8) : ZmodemParser × List ZParserEvent :=
  let isDropped := !p.escaped && isFlowControl byte
  match p.state with
  | .idle => p.consumeIdle byte
  | .gotPad => p.consumeGotPad byte
  | .gotZDLE => p.consumeGotZDLE byte
  | .hexBody => p.consumeHex byte
  | .binBody | .bin32Body => if isDropped then (p, []) else p.consumeHeaderBody byte
  | .subpacket => if isDropped then (p, []) else p.consumeSubpacket byte
  | .subpacketCRC => if isDropped then (p, []) else p.consumeSubpacketCRC byte

end ZmodemParser
