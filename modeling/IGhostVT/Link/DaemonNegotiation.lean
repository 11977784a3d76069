import IGhostVT.Lib.Run
import Mathlib.Data.Int.Notation

/-!
# Link/DaemonNegotiation — how a tab's transport negotiates, and ends, a session

`Link/SessionLink` follows the output a transport hands on over links that come up; here the same
transport is followed through hellos, timers, answers that come late and ends asked for meanwhile,
and its output is left out.

A transport makes a link, says hello, and attaches to the session it would resume or opens a fresh
one.  Every answer comes back on its queue in an order of its own, behind whatever the host asked
for meanwhile: an end asked for while the negotiation is out is deferred to the reply that ends it.

Links are named by the order in which they were made.  `waiting` is what the closures handed to
links and timers captured; `log` is not the program's: what was asked, sent, answered and emitted,
in order.
-/

/-! ## Replies -/

inductive IGhostVTReplyCode
  | success
  | invalidRequest
  | unsupportedVersion
  | handshakeRequired
  | sessionLimitReached
  | unknownSession
  | sessionBusy
  | spawnFailed
  | operationFailed
  | inputBacklog
deriving DecidableEq

namespace IGhostVTReplyCode

def ofRawValue : ℤ → Option IGhostVTReplyCode
  | 0 => some success
  | 1 => some invalidRequest
  | 2 => some unsupportedVersion
  | 3 => some handshakeRequired
  | 4 => some sessionLimitReached
  | 5 => some unknownSession
  | 6 => some sessionBusy
  | 7 => some spawnFailed
  | 8 => some operationFailed
  | 9 => some inputBacklog
  | _ => none

end IGhostVTReplyCode

def iGhostVTProtocolVersion : ℕ := 2

/-- What a request is answered with: a dictionary of the daemon's, the empty one of a remote link
that died, or the error object of a local one. -/
structure DaemonReply where
  isDictionary : Bool := true
  version : ℕ := 0
  /-- The code, where the reply carries one. -/
  code : Option ℤ := none
  sessionID : ℕ := 0
  holder : Option String := none
deriving DecidableEq

namespace DaemonReply

/-- An absent code reads as `0`; a reply of another version, or of a code nobody knows, has
failed. -/
def replyCode (reply : DaemonReply) : IGhostVTReplyCode :=
  if reply.isDictionary ∧ reply.version = iGhostVTProtocolVersion then
    (IGhostVTReplyCode.ofRawValue (reply.code.getD 0)).getD .operationFailed
  else .operationFailed

def holderName (reply : DaemonReply) : Option String :=
  if reply.isDictionary then reply.holder else none

end DaemonReply

/-! ## The transport's state -/

inductive DaemonRequest
  | hello
  | attachSession (sessionID : ℕ) (takeover : Bool)
  | openSession
  | closeSession (sessionID : ℕ)
  | detachSession (sessionID : ℕ)
deriving DecidableEq

inductive TerminalTransportState
  | connecting
  | connected
  | disconnected
  | interrupted
  | heldElsewhere (holder : Option String)
deriving DecidableEq

namespace DaemonNegotiation

inductive DeferredEnd
  | detach
  | close
deriving DecidableEq

/-- What waits for an answer or a timer, with what its closure captured. -/
inductive Waiting
  | hello (link : ℕ)
  | helloTimeout (link : ℕ)
  | attach (link sessionID busyRetries : ℕ) (isBehindHello : Bool)
  | busyRetry (link busyRetries : ℕ)
  | openSession (link : ℕ)
  /-- A kill's own link, its hello not answered. -/
  | killHello (link sessionID : ℕ)
  | killClose (link : ℕ)
deriving DecidableEq

/-- An attach's answer that waits for the hello's. -/
structure HeldReply where
  link : ℕ
  sessionID : ℕ
  busyRetries : ℕ
  reply : DaemonReply
deriving DecidableEq

inductive Note
  /-- `closeSession` was called with that session the one to resume. -/
  | asked (sessionID : ℕ)
  | sent (link : ℕ) (request : DaemonRequest)
  /-- The answer to an attach. -/
  | answered (sessionID : ℕ) (code : IGhostVTReplyCode)
  | cancelled (link : ℕ)
  | state (state : TerminalTransportState)
  | sessionExit (sessionID : ℕ)
deriving DecidableEq

end DaemonNegotiation

open DaemonNegotiation in
/-- The transport, without what its output needs. -/
structure DaemonNegotiation where
  /-- The endpoint is another device. -/
  isRemote : Bool
  resumeSessionID : Option ℕ
  connection : Option ℕ := none
  sessionID : Option ℕ := none
  takesOver : Bool := false
  deferredEnd : Option DeferredEnd := none
  /-- The transport holds itself until the deferred end is carried out. -/
  isRetainedForDeferredEnd : Bool := false
  isAwaitingHello : Bool := false
  repliesHeldForHello : Option (List HeldReply) := none
  isDeallocated : Bool := false
  nextLink : ℕ := 0
  waiting : List Waiting := []
  log : List Note := []
deriving DecidableEq

namespace DaemonNegotiation

def busyAttachRetryLimit : ℕ := 20

def note (s : DaemonNegotiation) (note : Note) : DaemonNegotiation :=
  { s with log := s.log ++ [note] }

def await (s : DaemonNegotiation) (waiting : Waiting) : DaemonNegotiation :=
  { s with waiting := s.waiting ++ [waiting] }

def send (s : DaemonNegotiation) (link : ℕ) (request : DaemonRequest) : DaemonNegotiation :=
  s.note (.sent link request)

def emit (s : DaemonNegotiation) (state : TerminalTransportState) : DaemonNegotiation :=
  s.note (.state state)

/-! ## Ends -/

/-- Kills a session over a link of its own: a hello, and the close behind its answer.  Nothing when
no link can be made. -/
def killSession (s : DaemonNegotiation) (id : ℕ) (makesLink : Bool) : DaemonNegotiation :=
  if makesLink then
    ({ s with nextLink := s.nextLink + 1 }.send s.nextLink .hello).await (.killHello s.nextLink id)
  else s

/-- Cancels and forgets the connection, keeping the resume id; whether there was one. -/
def dropConnection (s : DaemonNegotiation) : DaemonNegotiation × Bool :=
  let dropped : DaemonNegotiation :=
    { s with
      connection := none
      sessionID := none
      deferredEnd := none
      isRetainedForDeferredEnd := false }
  match s.connection with
  | none => (dropped, false)
  | some link => (dropped.note (.cancelled link), true)

/-- Drops the connection and, where there was one, says so. -/
def dropEmitting (s : DaemonNegotiation) (state : TerminalTransportState) : DaemonNegotiation :=
  if s.dropConnection.2 then s.dropConnection.1.emit state else s.dropConnection.1

def teardown (s : DaemonNegotiation) : DaemonNegotiation := s.dropEmitting .disconnected

def noteHeldElsewhere (s : DaemonNegotiation) (holder : Option String) : DaemonNegotiation :=
  s.dropEmitting (.heldElsewhere holder)

/-- The connection and its session id, read together. -/
def attachedLink (s : DaemonNegotiation) : Option (ℕ × ℕ) :=
  match s.connection, s.sessionID with
  | some link, some id => some (link, id)
  | _, _ => none

/-- Records an end while the open or attach is still out; `none` when it is not.  A close stands. -/
def deferEnd (s : DaemonNegotiation) (ending : DeferredEnd) : Option DaemonNegotiation :=
  if s.connection.isSome ∧ s.sessionID = none then
    some
      { s with
        deferredEnd := if s.deferredEnd = some .close then some .close else some ending
        isRetainedForDeferredEnd := true }
  else none

/-- Carries out the end asked for meanwhile on the session the reply named, or on nothing when it
named none; `none` when no end was deferred and the reply is to be used. -/
def settleDeferredEnd (s : DaemonNegotiation) (id : Option ℕ) : Option DaemonNegotiation :=
  match s.deferredEnd with
  | none => none
  | some ending =>
    let request := match ending with
      | .close => DaemonRequest.closeSession
      | .detach => DaemonRequest.detachSession
    let s := match id, s.connection with
      | some id, some link => s.send link (request id)
      | _, _ => s
    let s := if ending = .close then { s with resumeSessionID := none } else s
    some s.teardown

/-- A close deferred on a link that never came up goes over a link of its own. -/
def closeDeferredWithoutLink (s : DaemonNegotiation) (makesLink : Bool) : DaemonNegotiation :=
  match s.deferredEnd, s.resumeSessionID with
  | some .close, some id => { s with resumeSessionID := none }.killSession id makesLink
  | _, _ => s

def disconnect (s : DaemonNegotiation) : DaemonNegotiation :=
  match s.deferEnd .detach with
  | some s => s
  | none =>
    match s.attachedLink with
    | some (link, id) => (s.send link (.detachSession id)).teardown
    | none => s.teardown

def closeSession (s : DaemonNegotiation) (makesLink : Bool) : DaemonNegotiation :=
  let s := match s.resumeSessionID with
    | some id => s.note (.asked id)
    | none => s
  match s.deferEnd .close with
  | some s => s
  | none =>
    let ended := { s with resumeSessionID := none }
    match s.attachedLink, s.resumeSessionID with
    | some (link, id), _ => ended.send link (.closeSession id)
    | none, some id => ended.killSession id makesLink
    | none, none => ended

/-! ## The negotiation -/

def openSession (s : DaemonNegotiation) : DaemonNegotiation :=
  match s.connection with
  | none => s
  | some link => (s.send link .openSession).await (.openSession link)

/-- Attaches to the session to resume, behind the hello when that is not answered, or opens one. -/
def openOrAttachSession (s : DaemonNegotiation) (busyRetries : ℕ) : DaemonNegotiation :=
  match s.connection, s.resumeSessionID with
  | none, _ => s
  | some link, some id =>
    (s.send link (.attachSession id s.takesOver)).await
      (.attach link id busyRetries s.repliesHeldForHello.isSome)
  | some _, none => s.openSession

/-- The answer to an attach of `id` over `link`. -/
def attachReplied (s : DaemonNegotiation) (link id busyRetries : ℕ) (reply : DaemonReply)
    (makesLink : Bool) : DaemonNegotiation :=
  let code := reply.replyCode
  let s := s.note (.answered id code)
  if code = .sessionBusy ∧ reply.holderName.isSome then
    (s.settleDeferredEnd none).getD (s.noteHeldElsewhere reply.holderName)
  else if code = .sessionBusy ∧ s.isRemote then
    (s.settleDeferredEnd none).getD (s.noteHeldElsewhere none)
  else if code = .sessionBusy ∧ busyRetries < busyAttachRetryLimit then
    s.await (.busyRetry link busyRetries)
  else if code = .success then
    (s.settleDeferredEnd (some id)).getD ({ s with sessionID := some id }.emit .connected)
  else if code = .sessionBusy then
    (s.settleDeferredEnd none).getD (s.noteHeldElsewhere none)
  else if s.isRemote then
    -- a reply with no code is the link going down with the attach out
    let s := if reply.code = none then s.closeDeferredWithoutLink makesLink else s
    (s.settleDeferredEnd none).getD
      (if code = .unknownSession then
        ({ s with resumeSessionID := none }.note (.sessionExit id)).teardown
      else s.teardown)
  else
    let s := { s with resumeSessionID := none }
    (s.settleDeferredEnd none).getD s.openSession

/-- The answer to an open. -/
def openReplied (s : DaemonNegotiation) (reply : DaemonReply) : DaemonNegotiation :=
  if reply.replyCode = .success then
    (s.settleDeferredEnd (some reply.sessionID)).getD
      ({ s with
          sessionID := some reply.sessionID
          resumeSessionID := some reply.sessionID }.emit .connected)
  else s.teardown

/-- Hands on an answer that waited for the hello's; a link that is not this transport's any more
answers for nobody. -/
def deliver (makesLink : Bool) (s : DaemonNegotiation) (held : HeldReply) : DaemonNegotiation :=
  if s.connection = some held.link then
    s.attachReplied held.link held.sessionID held.busyRetries held.reply makesLink
  else s

/-- The answer to an attach, which waits for the hello's when it was sent behind it. -/
def attachAnswered (s : DaemonNegotiation) (held : HeldReply) (isBehindHello makesLink : Bool) :
    DaemonNegotiation :=
  if isBehindHello then
    match s.repliesHeldForHello with
    | some replies => { s with repliesHeldForHello := some (replies ++ [held]) }
    | none => s.deliver makesLink held
  else s.attachReplied held.link held.sessionID held.busyRetries held.reply makesLink

/-- The answer to a hello. -/
def helloReplied (s : DaemonNegotiation) (reply : DaemonReply) (makesLink : Bool) :
    DaemonNegotiation :=
  let answered := { s with isAwaitingHello := false, repliesHeldForHello := none }
  if reply.replyCode = .success then
    match s.repliesHeldForHello with
    | some held => held.foldl (deliver makesLink) answered
    | none => answered.openOrAttachSession 0
  else (answered.closeDeferredWithoutLink makesLink).teardown

/-- The hello's timer: a daemon that never picks the message up answers with nothing. -/
def helloTimedOut (s : DaemonNegotiation) (link : ℕ) (makesLink : Bool) : DaemonNegotiation :=
  if s.isAwaitingHello ∧ s.connection = some link then
    ({ s with isAwaitingHello := false }.closeDeferredWithoutLink makesLink).teardown
  else s

def retryBusy (s : DaemonNegotiation) (link busyRetries : ℕ) : DaemonNegotiation :=
  if s.connection = some link then s.openOrAttachSession (busyRetries + 1) else s

/-- Makes a link and says hello.  A remote reattach leaves right behind the hello. -/
def establish (s : DaemonNegotiation) (makesLink : Bool) : DaemonNegotiation :=
  if makesLink then
    let link := s.nextLink
    let s := { s with connection := some link, nextLink := s.nextLink + 1 }
    let s := { s with isAwaitingHello := true, repliesHeldForHello := some [] }
    let s := (s.send link .hello).await (.hello link)
    let s :=
      if s.isRemote ∧ s.resumeSessionID ≠ none then s.openOrAttachSession 0
      else { s with repliesHeldForHello := none }
    s.await (.helloTimeout link)
  else s.emit .disconnected

def connect (s : DaemonNegotiation) (takingOver makesLink : Bool) : DaemonNegotiation :=
  { s.emit .connecting with takesOver := takingOver }.establish makesLink

/-! ## Events -/

/-- The link died.  A link that dies with an end deferred on it is not an interruption. -/
def linkLost (s : DaemonNegotiation) : DaemonNegotiation :=
  if s.deferredEnd.isSome then s.dropEmitting .disconnected else s.dropEmitting .interrupted

def sessionTaken (s : DaemonNegotiation) (id : ℕ) (holder : Option String) : DaemonNegotiation :=
  if s.sessionID = some id then s.noteHeldElsewhere holder else s

def sessionExited (s : DaemonNegotiation) (id : ℕ) : DaemonNegotiation :=
  if s.sessionID = some id then
    ({ s with resumeSessionID := none }.note (.sessionExit id)).teardown
  else s

/-- The owner let go.  A transport that holds itself lives on; another cancels its connection. -/
def release (s : DaemonNegotiation) : DaemonNegotiation :=
  if s.isRetainedForDeferredEnd then s
  else
    let gone := { s with connection := none, isDeallocated := true }
    match s.connection with
    | none => gone
    | some link => gone.note (.cancelled link)

inductive Event
  | connect (takingOver makesLink : Bool)
  | closeSession (makesLink : Bool)
  | disconnect
  /-- Something that waits is answered; a timer takes no notice of the reply. -/
  | answer (waiting : Waiting) (reply : DaemonReply) (makesLink : Bool)
  | lost
  | sessionTaken (sessionID : ℕ) (holder : Option String)
  | sessionExit (sessionID : ℕ)
  | release
deriving DecidableEq

/-- What a closure does with its answer. -/
def answered (s : DaemonNegotiation) (reply : DaemonReply) (makesLink : Bool) :
    Waiting → DaemonNegotiation
  | .hello _ => s.helloReplied reply makesLink
  | .helloTimeout link => s.helloTimedOut link makesLink
  | .attach link id busyRetries isBehindHello =>
    s.attachAnswered ⟨link, id, busyRetries, reply⟩ isBehindHello makesLink
  | .busyRetry link busyRetries => s.retryBusy link busyRetries
  | .openSession _ => s.openReplied reply
  | .killHello link id => (s.send link (.closeSession id)).await (.killClose link)
  | .killClose link => s.note (.cancelled link)

/-- A kill's closures do not need the transport. -/
def Event.isKill : Event → Bool
  | .answer (.killHello _ _) _ _ => true
  | .answer (.killClose _) _ _ => true
  | _ => false

def step (s : DaemonNegotiation) (event : Event) : DaemonNegotiation :=
  if s.isDeallocated ∧ ¬ event.isKill then s
  else match event with
    | .connect takingOver makesLink => s.connect takingOver makesLink
    | .closeSession makesLink => s.closeSession makesLink
    | .disconnect => s.disconnect
    | .answer waiting reply makesLink =>
      if waiting ∈ s.waiting then
        { s with waiting := s.waiting.erase waiting }.answered reply makesLink waiting
      else s
    | .lost => s.linkLost
    | .sessionTaken id holder => s.sessionTaken id holder
    | .sessionExit id => s.sessionExited id
    | .release => s.release

end DaemonNegotiation
