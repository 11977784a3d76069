import IGhostVT.Wire.IOCodec
import IGhostVT.Wire.IOWire

/-!
# Remote/RemoteFrameConnection — frames between the app and a host

The frames of `IOWire` over a network connection, a large payload compressed when the device offered
it.  A frame is handed out whole; pausing stops that between two frames and stops reading, and what
has arrived waits in `buffer`.
-/

open IOWire

/-- The system's LZFSE: what a call wrote into a buffer of that capacity, nothing when it failed. -/
structure LZFSE where
  encodeBuffer : (capacity : ℕ) → List UInt8 → List UInt8
  decodeBuffer : (capacity : ℕ) → List UInt8 → List UInt8

/-- Decoding inverts encoding, and a call writes no more than there is room for. -/
structure LZFSE.Inverts (lz : LZFSE) : Prop where
  length_encodeBuffer : ∀ capacity bytes, (lz.encodeBuffer capacity bytes).length ≤ capacity
  decode_encode : ∀ capacity bytes room, lz.encodeBuffer capacity bytes ≠ [] → bytes.length ≤ room →
    lz.decodeBuffer room (lz.encodeBuffer capacity bytes) = bytes

namespace RemoteFrameCompression

def flagsOffset : ℕ := 5
def compressedFlag : UInt8 := 1
def minimumByteCount : ℕ := 1024
def plainFramesAfterMiss : ℕ := 32
def missByteCount : ℕ := 8 * 1024
def lengthByteCount : ℕ := 4

/-- A whole compressed frame, or `none` when it would save less than an eighth. -/
def frame (lz : LZFSE) (kind : Kind) (tag : UInt64) (payload : List UInt8) : Option (List UInt8) :=
  if payload.isEmpty ∨ ¬ payload.length < 2 ^ 32 then none
  else
    let capacity := payload.length - payload.length / 8
    let written := lz.encodeBuffer capacity payload
    if written.isEmpty then none
    else
      let header := appendHeader ⟨kind, 0, tag, lengthByteCount + written.length⟩
      some (header.set flagsOffset compressedFlag ++ leBytes 4 payload.length ++ written)

/-- The plain payload, `none` for a body that does not unpack to the length it states. -/
def decompress (lz : LZFSE) (limit : ℕ) (body : List UInt8) : Option (List UInt8) :=
  if ¬ body.length > lengthByteCount then none
  else
    let length := leValue (body.take 4)
    if length > 0 ∧ length ≤ limit then
      -- one byte to spare, so a body that holds more than it says fills it and is caught
      let plain := lz.decodeBuffer (length + 1) (body.drop lengthByteCount)
      if plain.length = length then some plain else none
    else none

end RemoteFrameCompression

open RemoteFrameCompression

/-- What a link is set to take before it starts, and the system's decoder. -/
structure RemoteFrameSettings where
  lz : LZFSE
  acceptsCompressedInput : Bool
  maximumPayloadByteCount : ℕ

/-- A frame handed out, and the length of its payload before it was compressed. -/
structure RemoteFrame where
  header : Header
  object : XPCObject
  plainByteCount : ℕ

/-- What the owner may ask from inside a handler. -/
inductive RemoteFrameCall
  | pause
  | close
  | setMaximumPayloadByteCount (n : ℕ)
deriving DecidableEq

structure RemoteFrameConnection where
  maximumPayloadByteCount : ℕ := IOWire.maximumPayloadByteCount
  receivedByteCount : ℕ := 0
  buffer : List UInt8 := []
  isClosed : Bool := false
  isReady : Bool := false
  isReceivePaused : Bool := false
  /-- A `receive` is outstanding on the connection. -/
  isReceiving : Bool := false
  /-- What was handed out.  Not the program's, as are the next three. -/
  delivered : List RemoteFrame := []
  /-- Every byte that arrived. -/
  arrived : List UInt8 := []
  deliveredWhilePaused : Bool := false
  /-- The largest payload ever allowed. -/
  highestPayloadByteCount : ℕ := maximumPayloadByteCount

namespace RemoteFrameConnection

def close (c : RemoteFrameConnection) : RemoteFrameConnection := { c with isClosed := true }

def call (c : RemoteFrameConnection) : RemoteFrameCall → RemoteFrameConnection
  | .pause => { c with isReceivePaused := true }
  | .close => c.close
  | .setMaximumPayloadByteCount n =>
    { c with
      maximumPayloadByteCount := n
      highestPayloadByteCount := max c.highestPayloadByteCount n }

/-- A payload read: the object, if it is one, and the payload's plain length. -/
def readPayload (settings : RemoteFrameSettings) (limit : ℕ) (isCompressed : Bool)
    (payload : List UInt8) : Option XPCObject × ℕ :=
  if isCompressed then
    match decompress settings.lz limit payload with
    | none => (none, payload.length)
    | some plain => ((IOCodec.decode plain).toOption, plain.length)
  else ((IOCodec.decode payload).toOption, payload.length)

/-- The loop of `drainFrames`: where it stopped, and whether the link goes on.  `handlers` is what
the owner does with each frame.  Every pass takes a header at least. -/
def drainFrom (settings : RemoteFrameSettings) :
    ℕ → List (List RemoteFrameCall) → ℕ → RemoteFrameConnection → RemoteFrameConnection × ℕ × Bool
  | 0, _, offset, c => (c, offset, true)
  | passes + 1, handlers, offset, c =>
    if ¬ c.isReceivePaused ∧ c.buffer.length - offset ≥ headerByteCount then
      let flags := c.buffer.getD (offset + flagsOffset) 0
      let isCompressed := flags == compressedFlag
      if ¬ (flags = 0 ∨ (isCompressed ∧ settings.acceptsCompressedInput)) then
        (c.close, offset, false)
      else match decodeHeader (c.buffer.drop offset) with
        | none => (c.close, offset, false)
        | some header =>
          if header.payloadByteCount > c.maximumPayloadByteCount then (c.close, offset, false)
          else
            let frameCount := headerByteCount + header.payloadByteCount
            if c.buffer.length < offset + frameCount then (c, offset, true)
            else
              let payload := (c.buffer.drop (offset + headerByteCount)).take header.payloadByteCount
              let (object, plainByteCount) :=
                readPayload settings c.maximumPayloadByteCount isCompressed payload
              let c := { c with
                receivedByteCount := c.receivedByteCount + (headerByteCount + plainByteCount) }
              match object with
              | none => (c.close, offset + frameCount, false)
              | some object =>
                let c := { c with
                  delivered := c.delivered ++ [⟨header, object, plainByteCount⟩]
                  deliveredWhilePaused := c.deliveredWhilePaused || c.isReceivePaused }
                let c := (handlers.headD []).foldl call c
                if c.isClosed then (c, offset + frameCount, false)
                else drainFrom settings passes handlers.tail (offset + frameCount) c
    else (c, offset, true)

/-- Hands out every whole frame in the buffer; `false` when the link is over. -/
def drainFrames (settings : RemoteFrameSettings) (handlers : List (List RemoteFrameCall))
    (c : RemoteFrameConnection) : RemoteFrameConnection × Bool :=
  let (c, offset, goesOn) := drainFrom settings c.buffer.length handlers 0 c
  ({ c with buffer := c.buffer.drop offset }, goesOn)

/-- Asks for more, unless it has been asked for or is not wanted. -/
def receive (c : RemoteFrameConnection) : RemoteFrameConnection :=
  if c.isReceiving ∨ c.isReceivePaused ∨ c.isClosed then c else { c with isReceiving := true }

/-- The connection is ready. -/
def ready (c : RemoteFrameConnection) : RemoteFrameConnection :=
  if c.isReady ∨ c.isClosed then c else { c with isReady := true }.receive

/-- Once what was brought is taken: the link ends, or more is asked for. -/
def goOn (isOver : Bool) : RemoteFrameConnection × Bool → RemoteFrameConnection
  | (c, false) => c
  | (c, true) => if isOver then c.close else c.receive

/-- What a `receive` brought: bytes, the end of the stream, an error. -/
def received (settings : RemoteFrameSettings) (handlers : List (List RemoteFrameCall))
    (data : List UInt8) (isOver : Bool) (c : RemoteFrameConnection) : RemoteFrameConnection :=
  if c.isClosed ∨ ¬ c.isReceiving then c
  else
    let c := { c with isReceiving := false }
    goOn isOver
      (if data.isEmpty then (c, true)
        else drainFrames settings handlers
          { c with buffer := c.buffer ++ data, arrived := c.arrived ++ data })

def setReceivingPaused (settings : RemoteFrameSettings) (handlers : List (List RemoteFrameCall))
    (paused : Bool) (c : RemoteFrameConnection) : RemoteFrameConnection :=
  if paused = c.isReceivePaused then c
  else
    let c := { c with isReceivePaused := paused }
    if paused ∨ ¬ c.isReady ∨ c.isClosed then c
    else goOn false (drainFrames settings handlers c)

/-- The network and the owner, outside of a handler. -/
inductive Action
  | ready
  | received (handlers : List (List RemoteFrameCall)) (data : List UInt8) (isOver : Bool)
  | setReceivingPaused (handlers : List (List RemoteFrameCall)) (paused : Bool)
  | close

def step (settings : RemoteFrameSettings) (c : RemoteFrameConnection) :
    Action → RemoteFrameConnection
  | .ready => c.ready
  | .received handlers data isOver => c.received settings handlers data isOver
  | .setReceivingPaused handlers paused => c.setReceivingPaused settings handlers paused
  | .close => c.close

end RemoteFrameConnection

/-! ## Sending -/

/-- A payload, and the frame that carries it. -/
structure SentFrame where
  payload : List UInt8
  bytes : List UInt8

/-- The sending side of a connection. -/
structure RemoteFrameSender where
  compressesOutput : Bool := false
  plainFramesAfterMiss : ℕ := 0
  pendingByteCount : ℕ := 0
  sentByteCount : ℕ := 0
  isClosed : Bool := false
  isDraining : Bool := false

namespace RemoteFrameSender

/-- The payload compressed, when it is worth trying. -/
def compress (lz : LZFSE) (kind : Kind) (tag : UInt64) (payload : List UInt8)
    (s : RemoteFrameSender) :
    RemoteFrameSender × Option (List UInt8) :=
  if s.compressesOutput ∧ payload.length ≥ minimumByteCount then
    if s.plainFramesAfterMiss > 0 then
      ({ s with plainFramesAfterMiss := s.plainFramesAfterMiss - 1 }, none)
    else
      let compressed := RemoteFrameCompression.frame lz kind tag payload
      -- a small frame that will not pack says little about the stream
      if compressed.isNone ∧ payload.length ≥ missByteCount then
        ({ s with plainFramesAfterMiss := RemoteFrameCompression.plainFramesAfterMiss }, compressed)
      else (s, compressed)
  else (s, none)

/-- What is sent for an object; nothing when it cannot be encoded or the link is gone. -/
def send (lz : LZFSE) (kind : Kind) (tag : UInt64) (object : XPCObject) (s : RemoteFrameSender) :
    RemoteFrameSender × Option SentFrame :=
  if s.isClosed ∨ s.isDraining then (s, none)
  else match IOCodec.encode object with
    | .error _ => (s, none)
    | .ok payload =>
      if payload.length ≤ IOWire.maximumPayloadByteCount then
        let (s, compressed) := s.compress lz kind tag payload
        let bytes := compressed.getD (appendHeader ⟨kind, 0, tag, payload.length⟩ ++ payload)
        ({ s with
          sentByteCount := s.sentByteCount + (headerByteCount + payload.length)
          pendingByteCount := s.pendingByteCount + bytes.length }, some ⟨payload, bytes⟩)
      else (s, none)

end RemoteFrameSender
