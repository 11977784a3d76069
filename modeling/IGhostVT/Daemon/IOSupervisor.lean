import IGhostVT.Lib.Dict
import IGhostVT.Wire.IOChannel

/-!
# Daemon/IOSupervisor — the proxy between the clients and the terminal helper

`IOSupervisor` stamps a client's message with its peer and a tag and sends it to the child; a reply
comes back under the tag, an event under the peer.  Output handed to a client is counted until it
has left, reading from the child is suspended while too much is counted, and a peer that takes
nothing for too long is cut.

Everything is on one queue; what a call does to the link from inside it (a write that finds it dead)
happens there and then.
-/

open IOWire

/-! ## Reading a message -/

namespace XPCObject

/-- `xpc_dictionary_get_value`. -/
def getValue (key : List UInt8) : XPCObject → Option XPCObject
  | .dictionary entries => (entries.find? fun e => e.1.1 = key).map Prod.snd
  | _ => none

def getUInt64 (key : List UInt8) (o : XPCObject) : UInt64 :=
  match o.getValue key with
  | some (.uint64 value) => value
  | _ => 0

def getInt64 (key : List UInt8) (o : XPCObject) : Int64 :=
  match o.getValue key with
  | some (.int64 value) => value
  | _ => 0

def getData (key : List UInt8) (o : XPCObject) : Option (List UInt8) :=
  match o.getValue key with
  | some (.data bytes) => some bytes
  | _ => none

end XPCObject

namespace iGhostVTWireKey

/-- `ev`. -/
def event : List UInt8 := [0x65, 0x76]
/-- `code`. -/
def code : List UInt8 := [0x63, 0x6F, 0x64, 0x65]
/-- `data`. -/
def data : List UInt8 := [0x64, 0x61, 0x74, 0x61]

end iGhostVTWireKey

namespace IOChannel

def suspendReading (c : IOChannel) : IOChannel :=
  if c.isReadSuspended ∨ c.isClosed then c else { c with isReadSuspended := true }

def resumeReading (c : IOChannel) : IOChannel :=
  if ¬ c.isReadSuspended ∨ c.isClosed then c else { c with isReadSuspended := false }

end IOChannel

/-! ## The supervisor -/

/-- A request that waits for its reply.  `request` stands for its completion. -/
structure PendingReply where
  peer : ℕ
  request : ℕ
  /-- The supervisor's own `shutdown`, whose completion sends when it was refused. -/
  asksShutdown : Bool
deriving DecidableEq

/-- A completion called: with the reply under this tag, or with one composed here. -/
structure Completion where
  request : ℕ
  tag : Option ℕ
deriving DecidableEq

/-- The proxy.  Peers are counted up and never come round, nor do tags (`toNat_tag`). -/
structure IOSupervisor where
  channel : Option IOChannel := none
  /-- The peers that are connected. -/
  peers : List ℕ := []
  pending : Dict ℕ PendingReply := ∅
  nextTag : ℕ := 1
  inFlight : Dict ℕ ℕ := ∅
  totalInFlight : ℕ := 0
  /-- The peers with a timer running. -/
  congestionTimers : List ℕ := []
  /-- Barriers that have not run: a peer, and the output it will report sent. -/
  barriers : List (ℕ × ℕ) := []
  /-- The peer of each request that wanted a reply.  Not the program's, as is all below. -/
  askers : List ℕ := []
  /-- A request, and the tag it was sent under. -/
  tags : List (ℕ × ℕ) := []
  completions : List Completion := []
  /-- Requests whose peer left before they were answered. -/
  abandoned : List ℕ := []
  /-- Peers that left. -/
  departed : List ℕ := []
  /-- A count was cut off at zero. -/
  isClamped : Bool := false

namespace IOSupervisor

def pauseAboveByteCount : ℕ := 2 ^ 20
def resumeBelowByteCount : ℕ := 256 * 1024
def peerCongestionByteCount : ℕ := 512 * 1024
def supervisorPeerID : ℕ := 2 ^ 64 - 1

/-! ### The link is lost -/

/-- What `peerGone` does to the books. -/
def forget (s : IOSupervisor) (peer : ℕ) : IOSupervisor :=
  let bytes := (s.inFlight.get? peer).getD 0
  { s with
    peers := s.peers.filter fun p => p ≠ peer
    pending := s.pending.filter fun e => e.peer ≠ peer
    inFlight := s.inFlight.erase peer
    totalInFlight := s.totalInFlight - bytes
    congestionTimers := s.congestionTimers.filter fun p => p ≠ peer
    abandoned := s.abandoned ++
      ((s.pending.entries.map Prod.snd).filter fun e => e.peer = peer).map PendingReply.request
    departed := s.departed ++ [peer]
    isClamped := s.isClamped || decide (s.totalInFlight < bytes) }

/-- The socket to the child is gone: every request is failed, then every peer is cut. -/
def handleLinkClosed (s : IOSupervisor) : IOSupervisor :=
  let unanswered := s.pending.entries.map Prod.snd
  let s :=
    { s with
      channel := none
      congestionTimers := []
      inFlight := ∅
      totalInFlight := 0
      pending := ∅
      completions :=
        s.completions ++ unanswered.map fun e : PendingReply => Completion.mk e.request none }
  { s.peers.foldl forget s with peers := [] }

/-- `channel?.send`.  A write that finds the link dead closes it, and it is lost. -/
def sendFrame (s : IOSupervisor) (kind : Kind) (peer tag : ℕ) (object : Option XPCObject)
    (writes : List SocketWrite) : IOSupervisor × Bool :=
  match s.channel with
  | none => (s, false)
  | some channel =>
    let (channel, sent) := channel.send kind (UInt64.ofNat peer) (UInt64.ofNat tag) object writes
    if channel.isClosed then (handleLinkClosed { s with channel := some channel }, sent)
    else ({ s with channel := some channel }, sent)

def reconsiderReading (s : IOSupervisor) : IOSupervisor :=
  if s.totalInFlight < resumeBelowByteCount then
    { s with channel := s.channel.map IOChannel.resumeReading }
  else s

/-- The peer's connection is gone. -/
def peerGone (s : IOSupervisor) (peer : ℕ) (writes : List SocketWrite) : IOSupervisor :=
  ((s.forget peer).sendFrame .peerGone peer 0 none writes).1.reconsiderReading

/-- A peer is valid as long as it is among the peers. -/
def cutConnection (s : IOSupervisor) (peer : ℕ) (writes : List SocketWrite) : IOSupervisor :=
  if peer ∈ s.peers then s.peerGone peer writes else s

/-! ### Requests and replies -/

/-- A completion is called. -/
def complete (s : IOSupervisor) (entry : PendingReply) (tag : Option ℕ) (isSuccess : Bool)
    (writes : List SocketWrite) : IOSupervisor :=
  let s := { s with completions := s.completions ++ [⟨entry.request, tag⟩] }
  if entry.asksShutdown ∧ ¬ isSuccess then
    (s.sendFrame .peerGone supervisorPeerID 0 none writes).1
  else s

/-- Forwards a message as it is; `later` is for the frame a completion may send. -/
def forward (s : IOSupervisor) (peer : ℕ) (message : XPCObject) (wantsReply asksShutdown : Bool)
    (writes later : List SocketWrite) : IOSupervisor :=
  let entry : PendingReply := ⟨peer, s.askers.length, asksShutdown⟩
  match s.channel with
  | none =>
    if wantsReply then { s with askers := s.askers ++ [peer] }.complete entry none false
      later else s
  | some _ =>
    if wantsReply then
      let tag := s.nextTag
      let s :=
        { s with
          nextTag := s.nextTag + 1
          pending := s.pending.insert tag entry
          askers := s.askers ++ [peer]
          tags := s.tags ++ [(entry.request, tag)] }
      let (s, sent) := s.sendFrame .request peer tag (some message) writes
      if sent then s else { s with pending := s.pending.erase tag }.complete entry none false later
    else (s.sendFrame .request peer 0 (some message) writes).1

/-! ### Flow control -/

/-- Output was handed to libxpc. -/
def willSend (s : IOSupervisor) (byteCount peer : ℕ) : IOSupervisor :=
  let held := (s.inFlight.get? peer).getD 0 + byteCount
  let s :=
    { s with inFlight := s.inFlight.insert peer held, totalInFlight := s.totalInFlight + byteCount }
  let s :=
    if s.totalInFlight > pauseAboveByteCount then
      { s with
        channel := s.channel.map IOChannel.suspendReading
        congestionTimers := s.congestionTimers ++
          (s.inFlight.entries.filter fun e => e.2 > 0 ∧ e.1 ∉ s.congestionTimers).map Prod.fst }
    else s
  if held ≥ peerCongestionByteCount ∧ peer ∉ s.congestionTimers then
    { s with congestionTimers := s.congestionTimers ++ [peer] }
  else s

/-- libxpc reports the output sent. -/
def didSend (s : IOSupervisor) (byteCount peer : ℕ) : IOSupervisor :=
  match s.inFlight.get? peer with
  | none => s
  | some current =>
    let remaining := current - byteCount
    let s :=
      { s with
        inFlight := s.inFlight.insert peer remaining
        totalInFlight := s.totalInFlight - byteCount
        isClamped :=
          s.isClamped || decide (current < byteCount) || decide (s.totalInFlight < byteCount) }
    let s := s.reconsiderReading
    let isReadSuspended := s.channel.map IOChannel.isReadSuspended
    if remaining = 0 ∨ (remaining < peerCongestionByteCount ∧ isReadSuspended ≠ some true) then
      { s with congestionTimers := s.congestionTimers.filter fun p => p ≠ peer }
    -- else its timer starts over
    else s

/-- The output an event carries. -/
def outputByteCount (event : XPCObject) : ℕ :=
  if event.getUInt64 iGhostVTWireKey.event = 100 then
    ((event.getData iGhostVTWireKey.data).map List.length).getD 0
  else 0

/-- `PeerRelay.deliver`. -/
def deliver (s : IOSupervisor) (peer : ℕ) (event : XPCObject) : IOSupervisor :=
  let byteCount := outputByteCount event
  if 0 < byteCount then
    { s.willSend byteCount peer with barriers := s.barriers ++ [(peer, byteCount)] }
  else s

/-- A frame from the child. -/
def handleFrame (s : IOSupervisor) (header : Header) (payload : List UInt8)
    (writes : List SocketWrite) : IOSupervisor :=
  match header.kind with
  | .reply =>
    match s.pending.get? header.tag.toNat with
    | none => s
    | some entry =>
      -- a reply that does not decode is replaced by a failure
      let isSuccess := match IOCodec.decode payload with
        | .ok reply => reply.getInt64 iGhostVTWireKey.code == 0
        | .error _ => false
      { s with pending := s.pending.erase header.tag.toNat }.complete entry (some header.tag.toNat)
        isSuccess writes
  | .event =>
    if header.peer.toNat ∈ s.peers then
      match IOCodec.decode payload with
      | .ok event => s.deliver header.peer.toNat event
      | .error _ => s
    else s
  | .request => s
  | .peerGone => s

/-! ### Runs -/

inductive Action
  /-- A child is spawned. -/
  | spawn
  | register (peer : ℕ)
  | forward (peer : ℕ) (message : XPCObject) (wantsReply : Bool) (writes later : List SocketWrite)
  /-- The supervisor asks on its own account. -/
  | forwardOwn (message : XPCObject) (asksShutdown : Bool) (writes later : List SocketWrite)
  | frame (header : Header) (payload : List UInt8) (writes : List SocketWrite)
  /-- A barrier runs. -/
  | didSend (byteCount peer : ℕ)
  /-- A peer's connection ends. -/
  | leaves (peer : ℕ) (writes : List SocketWrite)
  /-- A congestion timer fires. -/
  | timer (peer : ℕ) (writes : List SocketWrite)
  | writable (writes : List SocketWrite)
  /-- The end of the stream, a malformed frame, the child's exit. -/
  | linkClosed

/-- Frames are handed out while reading is not suspended, peers' messages while they are connected,
and a peer's number is never given again. -/
def step (s : IOSupervisor) : Action → IOSupervisor
  | .spawn => if s.channel.isNone then { s with channel := some {} } else s
  | .register peer =>
    if peer ∉ s.peers ∧ peer ∉ s.departed ∧ peer ≠ supervisorPeerID then
      { s with peers := s.peers ++ [peer] }
    else s
  | .forward peer message wantsReply writes later =>
    if peer ∈ s.peers then s.forward peer message wantsReply false writes later else s
  | .forwardOwn message asksShutdown writes later =>
    s.forward supervisorPeerID message true asksShutdown writes later
  | .frame header payload writes =>
    if s.channel.map IOChannel.isReadSuspended = some false then s.handleFrame header payload writes
    else s
  | .didSend byteCount peer =>
    if (peer, byteCount) ∈ s.barriers then
      { s with barriers := s.barriers.erase (peer, byteCount) }.didSend byteCount peer
    else s
  | .leaves peer writes => s.cutConnection peer writes
  | .timer peer writes =>
    if peer ∈ s.congestionTimers then
      { s with congestionTimers := s.congestionTimers.filter fun p => p ≠ peer }.cutConnection
        peer writes
    else s
  | .writable writes =>
    match s.channel with
    | none => s
    | some channel =>
      if channel.isWriteArmed then
        let channel := channel.flushOutbound writes
        if channel.isClosed then handleLinkClosed { s with channel := some channel }
        else { s with channel := some channel }
      else s
  | .linkClosed =>
    if s.channel.isSome then s.handleLinkClosed else s

end IOSupervisor
