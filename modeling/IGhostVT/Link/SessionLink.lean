import IGhostVT.Session.ReplaySize

/-!
# Link/SessionLink — the io host, a tab's transport, and the links between them

The host keeps sessions that outlive the links they are used over: a registry of output logs, who is
attached to each, and the frames on their way on each link.  The transport opens a session or
attaches to the one it had, feeds what it receives to its terminal, and keeps the position the
terminal has reached across links.  Either side may find a link gone at any time, with frames of
both directions undelivered.

A link is named by the order in which the transport made it.  `printed` and `held` are not the
program's: the whole output of each session, and what the terminal was fed since it was last
rebuilt.
-/

/-! ## What travels -/

/-- How much of its session's output a tab's terminal holds. -/
structure SessionOutputPosition where
  sessionID : Option ℕ := none
  offset : ℕ := 0
deriving DecidableEq

namespace SessionOutputPosition

/-- Where the terminal stands in `sessionID`'s output, if it holds it. -/
def offsetIn (position : SessionOutputPosition) (sessionID : ℕ) : Option ℕ :=
  if position.sessionID = some sessionID then some position.offset else none

/-- The host said where the output stands; a host from before offsets says nothing. -/
def set (position : SessionOutputPosition) (sessionID : ℕ) (offset : Option ℕ) :
    SessionOutputPosition :=
  match offset with
  | none => { position with sessionID := none }
  | some offset => ⟨some sessionID, offset⟩

def advance (position : SessionOutputPosition) (sessionID count : ℕ) : SessionOutputPosition :=
  if position.sessionID = some sessionID then { position with offset := position.offset + count }
  else position

end SessionOutputPosition

inductive ReplyCode
  | success
  | unknownSession
  | sessionBusy
  | spawnFailed
deriving DecidableEq

inductive Request
  | openSession (holder : Option String)
  | attachSession (sessionID : ℕ) (outputOffset : Option ℕ) (takeover : Bool)
      (holder : Option String)
deriving DecidableEq

/-- A reply, its keys absent or at what an absent one reads as. -/
structure Reply where
  code : ReplyCode
  sessionID : ℕ := 0
  outputOffset : Option ℕ := none
  outputResumed : Bool := false
  transferUnderway : Bool := false
  data : List UInt8 := []
  holder : Option String := none
deriving DecidableEq

/-- What the host sends on a link. -/
inductive Frame
  | reply (reply : Reply)
  | output (sessionID : ℕ) (data : List UInt8)
  | sessionTaken (sessionID : ℕ)
  | sessionExit (sessionID : ℕ)
deriving DecidableEq

/-- Who holds a session: the transport over one of its links, or someone else. -/
inductive Peer
  | link (link : ℕ)
  | other (peer : ℕ)
deriving DecidableEq

/-- The most a session hands over of its output at once. -/
def outputDeliveryByteCount : ℕ := 16 * 1024

/-! ## The host -/

structure IOHost where
  sessions : ℕ → Option SessionOutputLog := fun _ => none
  attachments : ℕ → Option Peer := fun _ => none
  /-- The device an attachment is for, where it is one. -/
  holders : ℕ → Option String := fun _ => none
  nextSessionID : ℕ := 1
  /-- The links not found gone. -/
  isValid : ℕ → Bool := fun _ => true
  /-- Frames on their way. -/
  sent : ℕ → List Frame := fun _ => []
  /-- Everything each session printed. -/
  printed : ℕ → List UInt8 := fun _ => []

namespace IOHost

def send (host : IOHost) (link : ℕ) (frame : Frame) : IOHost :=
  { host with sent := Function.update host.sent link (host.sent link ++ [frame]) }

/-- An event for whoever is attached; a peer whose link is gone sends nothing. -/
def deliver (host : IOHost) (peer : Option Peer) (frame : Frame) : IOHost :=
  match peer with
  | some (.link link) => if host.isValid link then host.send link frame else host
  | _ => host

def hold (host : IOHost) (id : ℕ) (peer : Option Peer) (holder : Option String) : IOHost :=
  { host with
    attachments := Function.update host.attachments id peer
    holders := Function.update host.holders id holder }

/-- A session another peer holds is busy, unless it is taken over: that peer is told so. -/
def attach (host : IOHost) (id : ℕ) (peer : Peer) (holder : Option String) (takeover : Bool) :
    Except ReplyCode IOHost :=
  match host.sessions id with
  | none => .error .unknownSession
  | some _ =>
    if host.attachments id = none ∨ host.attachments id = some peer then
      .ok (host.hold id (some peer) holder)
    else if takeover then
      .ok ((host.deliver (host.attachments id) (.sessionTaken id)).hold id (some peer) holder)
    else .error .sessionBusy

def detach (host : IOHost) (id : ℕ) (peer : Peer) : IOHost :=
  if host.attachments id = some peer then host.hold id none none else host

/-- The link behind a peer is gone.  Its sessions survive. -/
def invalidate (host : IOHost) (link : ℕ) : IOHost :=
  { host with
    isValid := Function.update host.isValid link false
    attachments := fun id =>
      if host.attachments id = some (.link link) then none else host.attachments id
    holders := fun id => if host.attachments id = some (.link link) then none else host.holders id }

/-- A new session under an id no other has had. -/
def spawn (host : IOHost) : IOHost :=
  { host with
    sessions := Function.update host.sessions host.nextSessionID
      (some { capacity := sessionReplayByteCount })
    nextSessionID := host.nextSessionID + 1 }

/-- `spawns` says whether the shell starts.  An id taken for one that does not is not used again. -/
def openSession (host : IOHost) (link : ℕ) (holder : Option String) (spawns : Bool) : IOHost :=
  let id := host.nextSessionID
  if spawns then
    match host.spawn.attach id (.link link) holder false with
    | .ok host =>
      host.send link (.reply
        { code := .success
          sessionID := id
          outputOffset := (host.sessions id).map SessionOutputLog.endOffset })
    | .error code => host.spawn.send link (.reply { code })
  else { host with nextSessionID := id + 1 }.send link (.reply { code := .spawnFailed })

/-- A replay as a reply, with where the output stands behind it. -/
def replyWith (outputOffset : ℕ) : Replay → Reply
  | .continuation data =>
    { code := .success, outputOffset := some outputOffset, outputResumed := true, data }
  | .rebuilt data endsInTransfer =>
    { code := .success, outputOffset := some outputOffset,
      transferUnderway := endsInTransfer, data }

/-- What an attach answers with. -/
def describe (log : SessionOutputLog) (offset : Option ℕ) : Option Reply :=
  (log.replay offset).map (replyWith log.endOffset)

def attachSession (host : IOHost) (link id : ℕ) (offset : Option ℕ) (takeover : Bool)
    (holder : Option String) : IOHost :=
  match host.attach id (.link link) holder takeover with
  | .ok host =>
    match (host.sessions id).bind (describe · offset) with
    | some reply => host.send link (.reply reply)
    | none => host
  | .error code =>
    host.send link (.reply
      { code, holder := if code = .sessionBusy then host.holders id else none })

def handle (host : IOHost) (link : ℕ) (spawns : Bool) : Request → IOHost
  | .openSession holder => host.openSession link holder spawns
  | .attachSession id offset takeover holder => host.attachSession link id offset takeover holder

/-- Output a session's program printed: into the log, and to whoever is attached. -/
def onOutput (host : IOHost) (id : ℕ) (data : List UInt8) : IOHost :=
  match host.sessions id with
  | none => host
  | some log =>
    { host with
      sessions := Function.update host.sessions id (some (log.append data))
      printed := Function.update host.printed id (host.printed id ++ data) }.deliver
        (host.attachments id) (.output id data)

/-- A session drops out, and whoever is attached is told. -/
def handleExit (host : IOHost) (id : ℕ) : IOHost :=
  let told := host.deliver (host.attachments id) (.sessionExit id)
  { told.hold id none none with sessions := Function.update host.sessions id none }

end IOHost

/-! ## The transport -/

/-- The request whose answer is awaited, or the one to be made again. -/
inductive Pending
  | attach (sessionID busyRetries : ℕ)
  | retry (busyRetries : ℕ)
  | opening
deriving DecidableEq

/-- What a terminal was fed since it was rebuilt: the session's output from `base` on. -/
structure Held where
  session : ℕ
  base : ℕ
  bytes : List UInt8 := []
deriving DecidableEq

structure XPCDaemonTransport where
  isRemote : Bool
  /-- The device the remote helper names on the transport's requests. -/
  holder : Option String := none
  takesOver : Bool := false
  connection : Option ℕ := none
  sessionID : Option ℕ := none
  resumeSessionID : Option ℕ := none
  pending : Option Pending := none
  outputPosition : SessionOutputPosition := {}
  nextLink : ℕ := 0
  /-- Requests on their way. -/
  sent : ℕ → List Request := fun _ => []
  held : Option Held := none

namespace XPCDaemonTransport

def busyAttachRetryLimit : ℕ := 20

def send (client : XPCDaemonTransport) (link : ℕ) (request : Request) : XPCDaemonTransport :=
  { client with sent := Function.update client.sent link (client.sent link ++ [request]) }

def dropConnection (client : XPCDaemonTransport) : XPCDaemonTransport :=
  { client with connection := none, sessionID := none, pending := none }

def openSession (client : XPCDaemonTransport) : XPCDaemonTransport :=
  match client.connection with
  | none => client
  | some link => { client.send link (.openSession client.holder) with pending := some .opening }

def openOrAttachSession (client : XPCDaemonTransport) (busyRetries : ℕ) : XPCDaemonTransport :=
  match client.connection, client.resumeSessionID with
  | none, _ => client
  | some link, some id =>
    { client.send link (.attachSession id (client.outputPosition.offsetIn id) client.takesOver
        client.holder) with
      pending := some (.attach id busyRetries) }
  | some _, none => client.openSession

/-- Output goes into the terminal behind what it holds. -/
def feed (client : XPCDaemonTransport) (data : List UInt8) : XPCDaemonTransport :=
  { client with held := client.held.map fun h => { h with bytes := h.bytes ++ data } }

/-- What an attach handed over goes into the terminal, unless there is too much of it or nothing. -/
def feedReplay (client : XPCDaemonTransport) (id : ℕ) (reply : Reply) : XPCDaemonTransport :=
  match messageData reply.data with
  | none => client
  | some data =>
    if data = [] then client
    else if reply.outputResumed then client.feed data
    else { client with held := reply.outputOffset.map fun offset =>
      { session := id, base := offset } }

/-- The attach's answer.  A session gone is opened anew on this device, and not on another. -/
def handleAttach (client : XPCDaemonTransport) (id busyRetries : ℕ) (reply : Reply) :
    XPCDaemonTransport :=
  if reply.code = .sessionBusy then
    -- A device does not let go in two seconds; a window of this app may.
    if reply.holder.isSome ∨ client.isRemote ∨ busyAttachRetryLimit ≤ busyRetries then
      client.dropConnection
    else { client with pending := some (.retry busyRetries) }
  else if reply.code = .success then
    { client.feedReplay id reply with
      sessionID := some id
      pending := none
      outputPosition := client.outputPosition.set id reply.outputOffset }
  else if client.isRemote then
    { client.dropConnection with
      resumeSessionID := if reply.code = .unknownSession then none else client.resumeSessionID }
  else { client with resumeSessionID := none }.openSession

/-- The open's answer: a terminal that has taken nothing of the session yet. -/
def handleOpen (client : XPCDaemonTransport) (reply : Reply) : XPCDaemonTransport :=
  if reply.code = .success then
    { client with
      sessionID := some reply.sessionID
      resumeSessionID := some reply.sessionID
      pending := none
      outputPosition := client.outputPosition.set reply.sessionID reply.outputOffset
      held := reply.outputOffset.map fun offset => { session := reply.sessionID, base := offset } }
  else client.dropConnection

def handleReply (client : XPCDaemonTransport) (reply : Reply) : XPCDaemonTransport :=
  match client.pending with
  | some (.attach id busyRetries) => client.handleAttach id busyRetries reply
  | some .opening => client.handleOpen reply
  | _ => client

def handleOutput (client : XPCDaemonTransport) (id : ℕ) (data : List UInt8) : XPCDaemonTransport :=
  match messageData data with
  | none => client
  | some data =>
    if data = [] then client
    else { client.feed data with
      outputPosition := client.outputPosition.advance id data.length }

/-- An event for another session than the attached one is ignored. -/
def handle (client : XPCDaemonTransport) (frame : Frame) : XPCDaemonTransport :=
  match frame with
  | .reply reply => client.handleReply reply
  | .output id data => if client.sessionID = some id then client.handleOutput id data else client
  | .sessionTaken id => if client.sessionID = some id then client.dropConnection else client
  | .sessionExit id =>
    if client.sessionID = some id then { client.dropConnection with resumeSessionID := none }
    else client

/-- The link went down.  An attach still out is answered with an error, and a local session it was
for is given up. -/
def interrupted (client : XPCDaemonTransport) : XPCDaemonTransport :=
  match client.pending, client.isRemote with
  | some (.attach _ _), false => { client.dropConnection with resumeSessionID := none }
  | _, _ => client.dropConnection

def connect (client : XPCDaemonTransport) (takesOver : Bool) : XPCDaemonTransport :=
  match client.connection with
  | some _ => client
  | none =>
    { client with connection := some client.nextLink, nextLink := client.nextLink + 1, takesOver
      }.openOrAttachSession 0

def retry (client : XPCDaemonTransport) : XPCDaemonTransport :=
  match client.pending with
  | some (.retry busyRetries) => client.openOrAttachSession (busyRetries + 1)
  | _ => client

end XPCDaemonTransport

/-! ## Both, and what may happen next -/

structure System where
  host : IOHost := {}
  client : XPCDaemonTransport

inductive System.Action
  | prints (session : ℕ) (data : List UInt8)
  | exits (session : ℕ)
  | hostReceives (link : ℕ) (spawns : Bool)
  | hostLoses (link : ℕ)
  | otherOpens (peer : ℕ) (holder : Option String)
  | otherAttaches (peer session : ℕ) (holder : Option String) (takeover : Bool)
  | otherDetaches (peer session : ℕ)
  | connects (takesOver : Bool)
  | receives
  | retries
  | interrupted
deriving DecidableEq

namespace System

/-- One step.  An action that cannot happen changes nothing. -/
def step (s : System) : Action → System
  | .prints id data =>
    if data ≠ [] ∧
      data.length ≤ outputDeliveryByteCount then { s with host := s.host.onOutput id data }
    else s
  | .exits id =>
    match s.host.sessions id with
    | some _ => { s with host := s.host.handleExit id }
    | none => s
  | .hostReceives link spawns =>
    match s.client.sent link with
    | request :: requests =>
      if s.host.isValid link then
        { host := s.host.handle link spawns request
          client := { s.client with sent := Function.update s.client.sent link requests } }
      else s
    | [] => s
  | .hostLoses link =>
    { host := s.host.invalidate link
      client := { s.client with sent := Function.update s.client.sent link [] } }
  | .otherOpens peer holder =>
    match s.host.spawn.attach s.host.nextSessionID (.other peer) holder false with
    | .ok host => { s with host }
    | .error _ => s
  | .otherAttaches peer id holder takeover =>
    match s.host.attach id (.other peer) holder takeover with
    | .ok host => { s with host }
    | .error _ => s
  | .otherDetaches peer id => { s with host := s.host.detach id (.other peer) }
  | .connects takesOver => { s with client := s.client.connect takesOver }
  | .receives =>
    match s.client.connection with
    | none => s
    | some link =>
      match s.host.sent link with
      | [] => s
      | frame :: frames =>
        { host := { s.host with sent := Function.update s.host.sent link frames }
          client := s.client.handle frame }
  | .retries => { s with client := s.client.retry }
  | .interrupted => { s with client := s.client.interrupted }

def run (s : System) (actions : List Action) : System := actions.foldl step s

/-- A host without sessions, and a tab that resumes a session or starts without one. -/
def start (isRemote : Bool) (holder : Option String) (resumeSessionID : Option ℕ) : System :=
  { client := { isRemote, holder, resumeSessionID } }

end System
