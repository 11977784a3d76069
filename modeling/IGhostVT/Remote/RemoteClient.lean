import IGhostVT.Remote.RemoteFrameConnection

/-!
# Remote/RemoteClient — a device's link, and how the host paces it

The host forwards what the daemon sends to a device, and suspends its daemon connection while too
much is pending on the socket or in flight past what the device said it received; a timer lets it go
for one message at a time.  The device reports what it received every so many bytes.
-/

open IOWire

namespace RemoteAccess

def linkWindowByteCount : ℕ := 2 ^ 20
def linkReceiptByteCount : ℕ := 256 * 1024

end RemoteAccess

open RemoteAccess

/-- `a - b` on unsigned counts, which traps when it is below zero. -/
def subtract (a b : ℕ) : Option ℕ := if b ≤ a then some (a - b) else none

structure RemoteClient where
  frames : RemoteFrameSender := {}
  /-- There is a daemon connection: the device has proved itself. -/
  hasDaemon : Bool := false
  isDaemonSuspended : Bool := false
  isClosed : Bool := false
  deviceReceivedByteCount : Option ℕ := none
  trickleGeneration : ℕ := 0
  /-- The timers of `scheduleTrickle` that have not come yet, each with its generation. -/
  trickles : List ℕ := []
  isTrapped : Bool := false
  /-- The last timer came while too much was pending for it to do anything.  Not the program's. -/
  isTrickleSpent : Bool := false

namespace RemoteClient

def pauseAboveByteCount : ℕ := 512 * 1024
def resumeBelowByteCount : ℕ := 384 * 1024
def trickleCeilingByteCount : ℕ := 8 * 2 ^ 20

/-- Output the device has not said it received.  A receipt is never ahead of what was sent; compare,
never trust. -/
def inFlightByteCount (c : RemoteClient) : Option ℕ :=
  match c.deviceReceivedByteCount with
  | none => some 0
  | some received =>
    if c.frames.sentByteCount > received then subtract c.frames.sentByteCount received else some 0

def scheduleTrickle (c : RemoteClient) : RemoteClient :=
  { c with
    trickleGeneration := c.trickleGeneration + 1
    trickles := c.trickles ++ [c.trickleGeneration + 1]
    isTrickleSpent := false }

def updateDaemonPause (c : RemoteClient) : RemoteClient :=
  if c.isClosed ∨ ¬ c.hasDaemon then c
  else match c.inFlightByteCount with
    | none => { c with isTrapped := true }
    | some inFlight =>
      let pending := c.frames.pendingByteCount
      if ¬ c.isDaemonSuspended ∧
        (pending > pauseAboveByteCount ∨ inFlight > linkWindowByteCount) then
        { c with isDaemonSuspended := true }.scheduleTrickle
      else if c.isDaemonSuspended ∧ pending < resumeBelowByteCount ∧
          inFlight < linkWindowByteCount - linkReceiptByteCount then
        { c with isDaemonSuspended := false }
      else c

/-- The connection is over: the daemon is not left suspended. -/
def close (c : RemoteClient) : RemoteClient :=
  { c with
    frames := { c.frames with isClosed := true }
    isClosed := true
    isDaemonSuspended := false }

/-- The device has proved itself: whether it will report what it receives, and takes compressed
frames. -/
def authenticate (c : RemoteClient) (reports offered : Bool) : RemoteClient :=
  if c.hasDaemon ∨ c.isClosed then c
  else
    { c with
      hasDaemon := true
      deviceReceivedByteCount := if reports then some 0 else c.deviceReceivedByteCount
      frames := { c.frames with compressesOutput := offered } }

/-- Sends to the device; nothing is sent to one that has not proved itself but what ends the
link. -/
def send (lz : LZFSE) (kind : Kind) (tag : UInt64) (object : XPCObject) (c : RemoteClient) :
    RemoteClient × Option SentFrame :=
  if ¬ c.hasDaemon then (c, none)
  else match c.frames.send lz kind tag object with
    | (frames, none) => ({ c with frames }, none)
    | (frames, some sent) => ({ c with frames }.updateDaemonPause, some sent)

/-- The network took a frame of `count` bytes, or failed to. -/
def processed (c : RemoteClient) (count : ℕ) (failed : Bool) : RemoteClient :=
  let c :=
    { c with frames := { c.frames with pendingByteCount := c.frames.pendingByteCount - count } }
  let c := c.updateDaemonPause
  if failed ∨ (c.frames.isDraining ∧ c.frames.pendingByteCount = 0) then c.close else c

/-- A `ping` that says what the device received. -/
def takeReceipt (c : RemoteClient) (received : ℕ) : RemoteClient :=
  -- a link that is over or draining hands out nothing
  if c.isClosed ∨ c.frames.isDraining ∨ ¬ c.hasDaemon then c
  else { c with deviceReceivedByteCount := some received }.updateDaemonPause

/-- A timer comes.  The last one lets a message through while suspended, unless too much is
pending. -/
def trickle (c : RemoteClient) (generation : ℕ) : RemoteClient :=
  let c := { c with trickles := c.trickles.erase generation }
  if generation = c.trickleGeneration ∧ ¬ c.isClosed ∧ c.isDaemonSuspended ∧ c.hasDaemon then
    if c.frames.pendingByteCount <
      trickleCeilingByteCount then { c with isDaemonSuspended := false }
    else { c with isTrickleSpent := true }
  else c

def closeWhenFlushed (c : RemoteClient) : RemoteClient :=
  if c.frames.isClosed ∨ c.frames.isDraining then c
  else if c.frames.pendingByteCount >
    0 then { c with frames := { c.frames with isDraining := true } }
  else c.close

end RemoteClient

/-- The device's side of the window. -/
structure RemoteDevice where
  receivedByteCount : ℕ := 0
  acknowledgedByteCount : ℕ := 0
  isTrapped : Bool := false

namespace RemoteDevice

/-- Reports what was received, once another `linkReceiptByteCount` has arrived. -/
def acknowledgeReceived (d : RemoteDevice) : RemoteDevice × Option ℕ :=
  match subtract d.receivedByteCount d.acknowledgedByteCount with
  | none => ({ d with isTrapped := true }, none)
  | some arrived =>
    if arrived ≥ linkReceiptByteCount then
      ({ d with acknowledgedByteCount := d.receivedByteCount }, some d.receivedByteCount)
    else (d, none)

/-- A frame is handed out: it is counted as the plain one it stands for. -/
def received (d : RemoteDevice) (plainByteCount : ℕ) : RemoteDevice × Option ℕ :=
  { d with
    receivedByteCount :=
      d.receivedByteCount + (headerByteCount + plainByteCount) }.acknowledgeReceived

end RemoteDevice

/-- Host, device and what is under way between them. -/
structure RemoteLink where
  host : RemoteClient := {}
  device : RemoteDevice := {}
  /-- Frames the network has not taken, by their length. -/
  outstanding : List ℕ := []
  /-- Frames the device has not been handed. -/
  frames : List SentFrame := []
  /-- The device's receipts under way. -/
  receipts : List ℕ := []

inductive RemoteLink.Action
  | authenticate (reports offered : Bool)
  | send (kind : Kind) (tag : UInt64) (object : XPCObject)
  | processed (count : ℕ) (failed : Bool)
  | deliver
  | receipt
  /-- A receipt of that value reaches the host: one from before, or one made up. -/
  | claim (value : UInt64)
  /-- A timer of the host's comes. -/
  | trickle (generation : ℕ)
  | closeWhenFlushed
  | close

namespace RemoteLink

def step (lz : LZFSE) (s : RemoteLink) : Action → RemoteLink
  | .authenticate reports offered => { s with host := s.host.authenticate reports offered }
  | .send kind tag object =>
    match s.host.send lz kind tag object with
    | (host, none) => { s with host }
    | (host, some sent) =>
      { s with
        host
        outstanding := s.outstanding ++ [sent.bytes.length]
        frames := s.frames ++ [sent] }
  | .processed count failed =>
    if count ∈ s.outstanding then
      { s with host := s.host.processed count failed, outstanding := s.outstanding.erase count }
    else s
  | .deliver =>
    match s.frames with
    | [] => s
    | sent :: frames =>
      let (device, receipt) := s.device.received sent.payload.length
      { s with device, frames, receipts := s.receipts ++ receipt.toList }
  | .receipt =>
    match s.receipts with
    | [] => s
    | received :: receipts =>
      { s with host := s.host.takeReceipt received, receipts }
  | .claim value => { s with host := s.host.takeReceipt value.toNat }
  | .trickle generation =>
    if generation ∈ s.host.trickles then { s with host := s.host.trickle generation } else s
  | .closeWhenFlushed => { s with host := s.host.closeWhenFlushed }
  | .close => { s with host := s.host.close }

end RemoteLink
