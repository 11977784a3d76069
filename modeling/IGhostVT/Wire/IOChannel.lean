import IGhostVT.Wire.IOCodec
import IGhostVT.Wire.IOWire

/-!
# Wire/IOChannel — one end of the socket between the processes

`IOChannel` queues frames in `outbound`, of which the socket has taken a prefix, and cuts frames out
of `inbound` as bytes arrive.  `written` is not the program's: every byte the socket took.
-/

open IOWire

/-- What one `write` to the socket came to. -/
inductive SocketWrite
  /-- The socket took `count + 1` bytes, or all there were. -/
  | wrote (count : ℕ)
  /-- `EINTR`. -/
  | interrupted
  /-- `EAGAIN`. -/
  | wouldBlock
  /-- `EPIPE`, `ECONNRESET`: the other end is gone. -/
  | failed
deriving DecidableEq

structure IOChannel where
  isReadSuspended : Bool := false
  isWriteArmed : Bool := false
  isClosed : Bool := false
  pendingByteCount : ℕ := 0
  inbound : List UInt8 := []
  outbound : List UInt8 := []
  outboundOffset : ℕ := 0
  /-- A frame boundary from which on every frame is whole and none of it was written, once it is
  moved past `outboundOffset`. -/
  unstartedBoundary : ℕ := 0
  written : List UInt8 := []
deriving DecidableEq

namespace IOChannel

def close (c : IOChannel) : IOChannel :=
  if c.isClosed then c
  else
    { c with
      isClosed := true
      isReadSuspended := false
      outbound := []
      outboundOffset := 0
      unstartedBoundary := 0
      inbound := []
      pendingByteCount := 0 }

/-! ## Sending -/

def updatePending (c : IOChannel) : IOChannel :=
  { c with pendingByteCount := c.outbound.length - c.outboundOffset }

/-- The first frame boundary at or past `offset`, walking headers from `boundary`.  Every pass moves
by a header at least, so `offset` passes are enough. -/
def walkHeaders (bytes : List UInt8) (offset : ℕ) : ℕ → ℕ → ℕ
  | 0, boundary => boundary
  | passes + 1, boundary =>
    if boundary < offset then
      match decodeHeader (bytes.drop boundary) with
      | none => boundary
      | some header =>
        walkHeaders bytes offset passes (boundary + (headerByteCount + header.payloadByteCount))
    else boundary

def advanceUnstartedBoundary (c : IOChannel) : IOChannel :=
  { c with
    unstartedBoundary :=
      walkHeaders c.outbound c.outboundOffset c.outboundOffset c.unstartedBoundary }

/-- Drops the written prefix once it outweighs what is left. -/
def compactOutbound (c : IOChannel) : IOChannel :=
  if c.outboundOffset > c.outbound.length - c.outboundOffset then
    let c := c.advanceUnstartedBoundary
    { c with
      outbound := c.outbound.drop c.outboundOffset
      unstartedBoundary := c.unstartedBoundary - c.outboundOffset
      outboundOffset := 0 }
  else c

/-- All of it went out. -/
def resetOutbound (c : IOChannel) : IOChannel :=
  { c with outbound := [], outboundOffset := 0, unstartedBoundary := 0, isWriteArmed := false }

/-- Writes until the socket takes no more.  `writes` is what it says in turn; after the last of them
it would block. -/
def flushOutbound : List SocketWrite → IOChannel → IOChannel
  | [], c =>
    if c.outboundOffset < c.outbound.length then
      { c.compactOutbound with isWriteArmed := true }.updatePending
    else c.resetOutbound.updatePending
  | write :: writes, c =>
    if c.outboundOffset < c.outbound.length then
      match write with
      | .wrote count =>
        let written := min (count + 1) (c.outbound.length - c.outboundOffset)
        flushOutbound writes
          { c with
            outboundOffset := c.outboundOffset + written
            written := c.written ++ (c.outbound.drop c.outboundOffset).take written }
      | .interrupted => flushOutbound writes c
      | .wouldBlock => { c.compactOutbound with isWriteArmed := true }.updatePending
      | .failed => c.close
    else c.resetOutbound.updatePending

/-- The frame a send makes, if there is one: an object the codec does not carry, or one too long,
makes none.  (One that traps the codec ends the process; it makes none either.) -/
def frame (kind : Kind) (peer tag : UInt64) (object : Option XPCObject) : Option IOWire.Frame :=
  match object.elim (.ok []) IOCodec.encode with
  | .error _ => none
  | .ok payload =>
    if h : payload.length ≤ maximumPayloadByteCount then some ⟨kind, peer, tag, payload, h⟩
      else none

/-- Encodes and queues one frame; `false` when it cannot be carried. -/
def send (c : IOChannel) (kind : Kind) (peer tag : UInt64) (object : Option XPCObject)
    (writes : List SocketWrite) : IOChannel × Bool :=
  if c.isClosed then (c, false)
  else match frame kind peer tag object with
    | none => (c, false)
    | some frame =>
      (flushOutbound writes
        { c with outbound := c.outbound ++ appendHeader frame.header ++ frame.payload }, true)

/-- The frames of `bytes` that are not for `peer`, and how many bytes the others take.  Every pass
takes a header at least. -/
def keepOthers (peer : UInt64) : ℕ → List UInt8 → List UInt8 × ℕ
  | 0, _ => ([], 0)
  | passes + 1, rest =>
    if rest.isEmpty then ([], 0)
    else match decodeHeader rest with
      | none => (rest, 0)
      | some header =>
        let frameCount := headerByteCount + header.payloadByteCount
        let (kept, freed) := keepOthers peer passes (rest.drop frameCount)
        if header.peer = peer then (kept, freed + frameCount)
        else (rest.take frameCount ++ kept, freed)

/-- Drops every queued frame for `peer` that has not begun to leave. -/
def discardQueuedFrames (c : IOChannel) (peer : UInt64) : IOChannel × ℕ :=
  if c.isClosed ∨ ¬ c.outboundOffset < c.outbound.length then (c, 0)
  else
    let c := c.advanceUnstartedBoundary
    if ¬ c.unstartedBoundary < c.outbound.length then (c, 0)
    else
      let rest := c.outbound.drop c.unstartedBoundary
      let (kept, freed) := keepOthers peer rest.length rest
      if freed = 0 then (c, 0)
      else
        let c := { c with outbound := c.outbound.take c.unstartedBoundary ++ kept }
        let c := if c.outboundOffset = c.outbound.length then c.resetOutbound else c
        (c.updatePending, freed)

end IOChannel
