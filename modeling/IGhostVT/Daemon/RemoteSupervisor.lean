import IGhostVT.Daemon.IOSupervisor

/-!
# Daemon/RemoteSupervisor — the owner of the remote-access helper

`RemoteSupervisor` keeps one helper process while the switch is on, and a dormant one for the asking
while it is off.  It learns of a helper's end three ways that come in any order: the exit note, the
socket's close, and `waitpid`, which is polled until it takes the child.

Children are numbered as they are spawned.  What a channel's close calls back runs inside the close;
`late` says that the child became waitable there.  Timers fire in any order: how long each waits is
left out.
-/

open IOWire

namespace XPCObject

def getBool (key : List UInt8) (o : XPCObject) : Bool :=
  match o.getValue key with
  | some (.bool value) => value
  | _ => false

end XPCObject

namespace iGhostVTWireKey

theorem version_noNul : (0 : UInt8) ∉ [(0x76 : UInt8)] := by decide

theorem operation_noNul : (0 : UInt8) ∉ [(0x6F : UInt8), 0x70] := by decide

/-- `v`. -/
def version : CString := ⟨[0x76], version_noNul⟩
/-- `op`. -/
def operation : CString := ⟨[0x6F, 0x70], operation_noNul⟩
/-- `enabled`. -/
def enabled : List UInt8 := [0x65, 0x6E, 0x61, 0x62, 0x6C, 0x65, 0x64]

end iGhostVTWireKey

/-- How a management request is answered: by the helper, or here, with what the switch says. -/
inductive ManagementAnswer
  | reply (tag : ℕ)
  | offlineStatus (enabled : Bool)
deriving DecidableEq

structure RemoteSupervisor where
  /-- The switch: a file. -/
  isEnabled : Bool
  channel : Option IOChannel := none
  /-- The child until it is reaped, else `0`. -/
  childPID : ℕ := 0
  childIsDormant : Bool := false
  hasExitSource : Bool := false
  respawnScheduled : Bool := false
  /-- Requests on the channel, by their tag. -/
  pending : Dict ℕ ℕ := ∅
  nextTag : ℕ := 1
  /-- Reap retries that have not fired, each as the child it was scheduled for. -/
  retries : List ℕ := []
  /-- How many children there were, and what became of them.  Not the program's, as is all below. -/
  spawned : ℕ := 0
  signalled : List ℕ := []
  exited : List ℕ := []
  waitable : List ℕ := []
  reaped : List ℕ := []
  /-- How many management requests there were. -/
  requests : ℕ := 0
  completions : List (ℕ × ManagementAnswer) := []
  /-- Children whose channel was closed here while they ran. -/
  cut : List ℕ := []

namespace RemoteSupervisor

/-! ## The child -/

def scheduleRespawn (s : RemoteSupervisor) : RemoteSupervisor := { s with respawnScheduled := true }

/-- `waitpid` on the child: whether it was taken. -/
def waitpid (s : RemoteSupervisor) : RemoteSupervisor × Bool :=
  if s.childPID ∈ s.waitable then
    ({ s with
        waitable := s.waitable.filter fun child => child ≠ s.childPID
        reaped := s.reaped ++ [s.childPID] }, true)
  else (s, false)

/-- Asks for the child until it is reaped; `close` is what closing the channel, if there is one,
comes to. -/
def reapWith (close : RemoteSupervisor → RemoteSupervisor) (s : RemoteSupervisor) :
    RemoteSupervisor :=
  if s.childPID = 0 then s
  else match s.waitpid with
    | (s, false) => { close s with retries := (close s).retries ++ [s.childPID] }
    | (s, true) =>
      let s := close { s with childPID := 0 }
      if s.isEnabled ∧ s.channel.isNone then s.scheduleRespawn else s

/-- An exited child becomes waitable. -/
def becomeWaitable (s : RemoteSupervisor) (child : ℕ) : RemoteSupervisor :=
  if child ∈ s.exited ∧ child ∉ s.waitable ∧ child ∉ s.reaped then
    { s with waitable := s.waitable ++ [child] }
  else s

/-- The channel is closed: whoever waits is answered, and the child, with no channel left to close,
is reaped. -/
def handleLinkClosed (late : Bool) (s : RemoteSupervisor) : RemoteSupervisor :=
  let unanswered := s.pending.entries.map fun e => (e.2, ManagementAnswer.offlineStatus s.isEnabled)
  let s :=
    { s with
      channel := none
      hasExitSource := false
      pending := ∅
      completions := s.completions ++ unanswered }
  let s := if late then s.becomeWaitable s.childPID else s
  let s := s.reapWith id
  if s.isEnabled then s.scheduleRespawn else s

/-- `channel?.close()`.  The channel is the last child's. -/
def closeChannel (late : Bool) (s : RemoteSupervisor) : RemoteSupervisor :=
  match s.channel with
  | none => s
  | some _ =>
    { s with cut := if s.spawned ∈ s.exited then s.cut else s.cut ++ [s.spawned] }.handleLinkClosed
      late

def reap (s : RemoteSupervisor) (late : Bool) : RemoteSupervisor := s.reapWith (closeChannel late)

/-- A spawn that succeeds. -/
def spawn (s : RemoteSupervisor) (dormant : Bool) : RemoteSupervisor :=
  { s with
    spawned := s.spawned + 1
    childPID := s.spawned + 1
    childIsDormant := dormant
    channel := some {}
    hasExitSource := true }

def spawnOrRetry (s : RemoteSupervisor) (spawns : Bool) : RemoteSupervisor :=
  if spawns then s.spawn false else s.scheduleRespawn

/-- `SIGTERM`. -/
def stop (s : RemoteSupervisor) : RemoteSupervisor :=
  if 0 < s.childPID ∧ s.channel.isSome then { s with signalled := s.signalled ++ [s.childPID] }
    else s

/-! ## Requests -/

/-- `saved` says that the switch's file was written, or removed. -/
def setEnabled (s : RemoteSupervisor) (enabled saved spawns : Bool) : RemoteSupervisor :=
  let s := if saved then { s with isEnabled := enabled } else s
  if enabled then
    if s.channel.isNone ∧ s.childPID = 0 then s.spawnOrRetry spawns
    -- its exit brings the real one up
    else if s.childIsDormant then s.stop
    else s
  else s.stop

def complete (s : RemoteSupervisor) (request : ℕ) (answer : ManagementAnswer) : RemoteSupervisor :=
  { s with completions := s.completions ++ [(request, answer)] }

/-- What was written to the channel left it so.  A write that finds the link dead closes it. -/
def wrote (s : RemoteSupervisor) (channel : IOChannel) (late : Bool) : RemoteSupervisor :=
  if channel.isClosed then handleLinkClosed late { s with channel := some channel }
  else { s with channel := some channel }

/-- With the switch off the paired devices are still the helper's to tell, so it is started for the
asking, dormant. -/
def spawnDormant (s : RemoteSupervisor) (spawns : Bool) : RemoteSupervisor :=
  if s.channel.isNone ∧ s.childPID = 0 ∧ ¬ s.isEnabled ∧ spawns then s.spawn true else s

/-- Hands a request to the helper, or answers it here. -/
def forwardOrCompose (s : RemoteSupervisor) (request : ℕ) (message : XPCObject) (spawns : Bool)
    (writes : List SocketWrite) (late : Bool) : RemoteSupervisor :=
  let s := s.spawnDormant spawns
  match s.channel with
  | none => s.complete request (.offlineStatus s.isEnabled)
  | some channel =>
    let tag := s.nextTag
    let s := { s with nextTag := s.nextTag + 1, pending := s.pending.insert tag request }
    let sent := channel.send .request 0 (UInt64.ofNat tag) (some message) writes
    let s := s.wrote sent.1 late
    if sent.2 then s
    else { s with pending := s.pending.erase tag }.complete request (.offlineStatus s.isEnabled)

/-- The request for what the switch now says. -/
def statusMessage : XPCObject :=
  .dictionary [(iGhostVTWireKey.version, .uint64 2), (iGhostVTWireKey.operation, .uint64 20)]

/-- A management request.  A switch turned off, or on over a dormant helper, is answered here: that
helper is on its way out. -/
def handle (s : RemoteSupervisor) (message : XPCObject) (saved spawns spawnsDormant : Bool)
    (writes : List SocketWrite) (late : Bool) : RemoteSupervisor :=
  let request := s.requests
  let s := { s with requests := s.requests + 1 }
  if message.getUInt64 iGhostVTWireKey.operation.1 = 21 then
    let enabled := message.getBool iGhostVTWireKey.enabled
    let wasDormant := s.childIsDormant && s.channel.isSome
    let s := s.setEnabled enabled saved spawns
    if enabled ∧ ¬ wasDormant then
      s.forwardOrCompose request statusMessage spawnsDormant writes late
    else s.complete request (.offlineStatus enabled)
  else s.forwardOrCompose request message spawnsDormant writes late

/-- A frame from the helper; its log lines are left out. -/
def handleFrame (s : RemoteSupervisor) (header : Header) (payload : List UInt8) :
    RemoteSupervisor :=
  match IOCodec.decode payload, header.kind with
  | .ok _, .reply =>
    match s.pending.get? header.tag.toNat with
    | none => s
    | some request =>
      { s with pending := s.pending.erase header.tag.toNat }.complete request
        (.reply header.tag.toNat)
  | _, _ => s

/-! ## Runs -/

inductive Event
  | handle (message : XPCObject) (saved spawns spawnsDormant : Bool) (writes : List SocketWrite)
      (late : Bool)
  | frame (header : Header) (payload : List UInt8)
  | writable (writes : List SocketWrite) (late : Bool)
  /-- The end of the stream, or a malformed frame. -/
  | linkCloses (late : Bool)
  | exitNote (late : Bool)
  /-- A reap retry fires, one scheduled for that child. -/
  | retry (child : ℕ) (late : Bool)
  | respawn (spawns : Bool)
  /-- What children do. -/
  | exits (child : ℕ)
  | becomesWaitable (child : ℕ)

def respawn (s : RemoteSupervisor) (spawns : Bool) : RemoteSupervisor :=
  let s := { s with respawnScheduled := false }
  if s.isEnabled ∧ s.channel.isNone ∧ s.childPID = 0 then s.spawnOrRetry spawns else s

def step (s : RemoteSupervisor) : Event → RemoteSupervisor
  | .handle message saved spawns spawnsDormant writes late =>
    s.handle message saved spawns spawnsDormant writes late
  | .frame header payload => if s.channel.isSome then s.handleFrame header payload else s
  | .writable writes late =>
    match s.channel with
    | none => s
    | some channel =>
      if channel.isWriteArmed then s.wrote (channel.flushOutbound writes) late else s
  | .linkCloses late => if s.channel.isSome then s.handleLinkClosed late else s
  | .exitNote late => if s.hasExitSource ∧ s.spawned ∈ s.exited then s.reap late else s
  | .retry child late =>
    if child ∈ s.retries then { s with retries := s.retries.erase child }.reap late else s
  | .respawn spawns => if s.respawnScheduled then s.respawn spawns else s
  | .exits child =>
    if 0 < child ∧ child ≤ s.spawned ∧
      child ∉ s.exited then { s with exited := s.exited ++ [child] }
    else s
  | .becomesWaitable child => s.becomeWaitable child

/-- The supervisor at launch: the helper runs if the switch says so. -/
def start (enabled spawns : Bool) : RemoteSupervisor :=
  let s : RemoteSupervisor := { isEnabled := enabled }
  if enabled then s.spawnOrRetry spawns else s

end RemoteSupervisor
