import Mathlib.Data.Finset.Card
import IGhostVT.Lib.Dict
import IGhostVT.Session.PTYInput
import IGhostVT.Session.SessionIDReservation

/-!
# Session/SessionRegistry — sessions, and the peers that hold them

`SessionRegistry` owns the sessions; a peer attaches to one at a time and each session has one peer.
Who holds what stands in three places: the peer's own `attachedSessionIDs`, which is all that
`write` and `resize` look at, the registry's `attachments`, and its `holders`, the device an
attachment is for.

Requests, shell exits and lost connections come one at a time, on one queue.
-/

/-- A live session, as its holder sees it. -/
structure Session where
  columns : ℕ
  rows : ℕ
  terminal : PTYSession := {}
deriving DecidableEq

/-- One client connection. -/
structure PeerSession where
  didHandshake : Bool := false
  attachedSessionIDs : Finset ℕ := ∅
  isValid : Bool := true
deriving DecidableEq

/-- What a peer is told unasked. -/
inductive Notice
  | sessionExit (id : ℕ) (exitCode : ℤ)
  | sessionTaken (id : ℕ) (holder : Option String)
  | sessionOpened (id : ℕ) (holder : String)
  | sessionReleased (id : ℕ) (holder : String)
deriving DecidableEq

/-- The sessions and the peers. -/
structure SessionRegistry where
  sessions : Dict ℕ Session := ∅
  attachments : Dict ℕ ℕ := ∅
  /-- The device each attachment is for, where it is one. -/
  holders : Dict ℕ String := ∅
  /-- Peers that asked for the session events. -/
  watchers : List ℕ := []
  sessionIDs : SessionIDReservation
  peers : ℕ → PeerSession := fun _ => {}
  /-- What was sent, oldest first. -/
  notices : List (ℕ × Notice) := []

namespace SessionRegistry

def maximumSessions : ℕ := 64
def maximumSessionsPerPeer : ℕ := 32
def maximumColumns : ℕ := 2000
def maximumRows : ℕ := 2000
def defaultColumns : ℕ := 80
def defaultRows : ℕ := 24
def maximumInputByteCount : ℕ := 2 ^ 20

inductive Code
  | success
  | invalidRequest
  | handshakeRequired
  | sessionLimitReached
  | unknownSession
  | sessionBusy
  | spawnFailed
  | inputBacklog
deriving DecidableEq

/-! ## Toward a peer -/

def modifyPeer (s : SessionRegistry) (peer : ℕ) (f : PeerSession → PeerSession) : SessionRegistry :=
  { s with peers := Function.update s.peers peer (f (s.peers peer)) }

/-- The peer lets go of `id` in its own books. -/
def forget (s : SessionRegistry) (peer id : ℕ) : SessionRegistry :=
  s.modifyPeer peer fun p => { p with attachedSessionIDs := p.attachedSessionIDs.erase id }

def deliver (s : SessionRegistry) (peer : ℕ) (notice : Notice) : SessionRegistry :=
  if (s.peers peer).isValid then { s with notices := s.notices ++ [(peer, notice)] } else s

def deliverExit (s : SessionRegistry) (peer id : ℕ) (exitCode : ℤ) : SessionRegistry :=
  if (s.peers peer).isValid then (s.deliver peer (.sessionExit id exitCode)).forget peer id else s

/-- Another peer took the session. -/
def deliverTaken (s : SessionRegistry) (peer id : ℕ) (holder : Option String) : SessionRegistry :=
  (s.forget peer id).deliver peer (.sessionTaken id holder)

def notifyWatchers (s : SessionRegistry) (notice : Notice) : SessionRegistry :=
  s.watchers.foldl (fun s watcher => s.deliver watcher notice) s

/-! ## The registry -/

/-- `peer` holds `id`, for the device `holder` names. -/
def hold (s : SessionRegistry) (id peer : ℕ) (holder : Option String) : SessionRegistry :=
  match holder with
  | none => { s with attachments := s.attachments.insert id peer, holders := s.holders.erase id }
  | some device =>
    { s with
      attachments := s.attachments.insert id peer
      holders := s.holders.insert id device }.notifyWatchers (.sessionOpened id device)

/-- A session another peer holds is busy unless it is taken over. -/
def attach (s : SessionRegistry) (id peer : ℕ) (holder : Option String) (takeover : Bool) :
    Except Code SessionRegistry :=
  if (s.sessions.get? id).isNone then .error .unknownSession
  else match s.attachments.get? id with
    | none => .ok (s.hold id peer holder)
    | some existing =>
      if existing = peer then .ok (s.hold id peer holder)
      else if takeover then .ok ((s.deliverTaken existing id holder).hold id peer holder)
      else .error .sessionBusy

/-- An attachment ended with the session alive: the watchers hear when it was a device's. -/
def release (s : SessionRegistry) (id : ℕ) : SessionRegistry :=
  match s.holders.get? id with
  | none => s
  | some device =>
    { s with holders := s.holders.erase id }.notifyWatchers (.sessionReleased id device)

/-- `id` is attached to nobody. -/
def vacate (s : SessionRegistry) (id : ℕ) : SessionRegistry :=
  { s with attachments := s.attachments.erase id }.release id

def detach (s : SessionRegistry) (id peer : ℕ) : SessionRegistry :=
  if s.attachments.get? id = some peer then s.vacate id else s

def detachAll (s : SessionRegistry) (peer : ℕ) : SessionRegistry :=
  (s.attachments.entries.filter fun entry => entry.2 = peer).foldl
    (fun s entry => s.vacate entry.1) s

/-- How a shell was to be started: why there is no plan for it, or whether it came up. -/
structure Spawn where
  planError : Option Code
  succeeds : Bool
  /-- The file session ids are reserved in. -/
  reservation : List UInt8
deriving DecidableEq

def clamp (value fallback limit : ℕ) : ℕ := if 0 < value then min value limit else fallback

/-- A new session, held by nobody. -/
def open_ (s : SessionRegistry) (columns rows : ℕ) (spawn : Spawn) :
    SessionRegistry × Except Code ℕ :=
  if ¬ s.sessions.entries.length < maximumSessions then (s, .error .sessionLimitReached)
  else match spawn.planError with
    | some code => (s, .error code)
    | none =>
      let (id, sessionIDs, _) := s.sessionIDs.take spawn.reservation
      let s := { s with sessionIDs }
      if spawn.succeeds then
        let session : Session :=
          { columns := clamp columns defaultColumns maximumColumns
            rows := clamp rows defaultRows maximumRows }
        ({ s with sessions := s.sessions.insert id session }, .ok id)
      else (s, .error .spawnFailed)

/-- The shell is to go away for good.  It is held for no device from here on. -/
def close (s : SessionRegistry) (id : ℕ) : Except Code SessionRegistry :=
  if (s.sessions.get? id).isNone then .error .unknownSession
  else .ok { s with holders := s.holders.erase id }

def discard (s : SessionRegistry) (id : ℕ) : SessionRegistry :=
  { s with
    attachments := s.attachments.erase id
    holders := s.holders.erase id
    sessions := s.sessions.erase id }

/-- `attached?.deliverExit`. -/
def deliverExitTo (s : SessionRegistry) (attached : Option ℕ) (id : ℕ) (exitCode : ℤ) :
    SessionRegistry :=
  match attached with
  | some peer => s.deliverExit peer id exitCode
  | none => s

/-- The shell is gone: whoever is attached is told, and every watcher. -/
def handleExit (s : SessionRegistry) (id : ℕ) (exitCode : ℤ) : SessionRegistry :=
  let attached := s.attachments.get? id
  let s := s.deliverExitTo attached id exitCode
  let s := (s.watchers.filter fun watcher => some watcher ≠ attached).foldl
    (fun s watcher => s.deliverExit watcher id exitCode) s
  s.discard id

/-! ## Requests -/

inductive Request
  | hello (watchSessions : Bool)
  | openSession (columns rows : ℕ) (holder : Option String) (spawn : Spawn)
  | attachSession (id : ℕ) (holder : Option String) (takeover : Bool)
  | detachSession (id : ℕ)
  /-- `data` is `none` when the request holds no bytes. -/
  | write (id : ℕ) (data : Option (List UInt8)) (paste : ℕ) (outcome : WriteOutcome)
  | resize (id columns rows : ℕ)
  | closeSession (id : ℕ)
  /-- `write` for a peer that holds nothing. -/
  | injectInput (id : ℕ) (data : Option (List UInt8)) (paste : ℕ) (outcome : WriteOutcome)
  | goodbye
deriving DecidableEq

def Request.isHello : Request → Bool
  | .hello _ => true
  | _ => false

def openSession (s : SessionRegistry) (peer columns rows : ℕ) (holder : Option String)
    (spawn : Spawn) : SessionRegistry × Code :=
  if ¬ (s.peers peer).attachedSessionIDs.card < maximumSessionsPerPeer then (s,
    .sessionLimitReached)
  else match s.open_ columns rows spawn with
    | (s, .error code) => (s, code)
    | (s, .ok id) =>
      match s.attach id peer holder false with
      | .error code => (s, code)
      | .ok s =>
        (s.modifyPeer peer fun p =>
          { p with attachedSessionIDs := insert id p.attachedSessionIDs }, .success)

def attachSession (s : SessionRegistry) (peer id : ℕ) (holder : Option String) (takeover : Bool) :
    SessionRegistry × Code :=
  match s.attach id peer holder takeover with
  | .error code => (s, code)
  | .ok s =>
    (s.modifyPeer peer fun p =>
      { p with attachedSessionIDs := insert id p.attachedSessionIDs }, .success)

def detachSession (s : SessionRegistry) (peer id : ℕ) : SessionRegistry × Code :=
  ((s.detach id peer).forget peer id, .success)

/-- The bytes of an input request, `none` when there are too many. -/
def inputData (data : Option (List UInt8)) : Option (List UInt8) :=
  data.filter fun bytes => bytes.length ≤ maximumInputByteCount

/-- Input handed to a session. -/
def input (s : SessionRegistry) (id : ℕ) (session : Session) (data : Option (List UInt8))
    (paste : ℕ) (outcome : WriteOutcome) : SessionRegistry × Code :=
  match inputData data with
  | none => (s, .invalidRequest)
  | some bytes =>
    let (terminal, taken) := session.terminal.write bytes paste outcome
    ({ s with sessions := s.sessions.insert id { session with terminal } },
      if taken then .success else .inputBacklog)

/-- The session a peer may write to and resize: one it is attached to. -/
def attachedSession (s : SessionRegistry) (peer id : ℕ) : Option Session :=
  if id ∈ (s.peers peer).attachedSessionIDs then s.sessions.get? id else none

def write (s : SessionRegistry) (peer id : ℕ) (data : Option (List UInt8)) (paste : ℕ)
    (outcome : WriteOutcome) : SessionRegistry × Code :=
  match s.attachedSession peer id with
  | none => (s, .unknownSession)
  | some session => s.input id session data paste outcome

def injectInput (s : SessionRegistry) (id : ℕ) (data : Option (List UInt8)) (paste : ℕ)
    (outcome : WriteOutcome) : SessionRegistry × Code :=
  match s.sessions.get? id with
  | none => (s, .unknownSession)
  | some session => s.input id session data paste outcome

def resize (s : SessionRegistry) (peer id columns rows : ℕ) : SessionRegistry × Code :=
  match s.attachedSession peer id with
  | none => (s, .unknownSession)
  | some session =>
    if 0 < columns ∧ columns ≤ maximumColumns ∧ 0 < rows ∧ rows ≤ maximumRows then
      if session.terminal.isAlive then
        ({ s with sessions := s.sessions.insert id { session with columns, rows } }, .success)
      else (s, .success)
    else (s, .invalidRequest)

/-- Not gated on being attached: a tab whose connection dropped has to be closable. -/
def closeSession (s : SessionRegistry) (peer id : ℕ) : SessionRegistry × Code :=
  match s.close id with
  | .error code => (s, code)
  | .ok s => (s.forget peer id, .success)

/-- The connection behind a peer is gone.  Its sessions survive. -/
def invalidate (s : SessionRegistry) (peer : ℕ) : SessionRegistry :=
  if (s.peers peer).isValid then
    let s := s.modifyPeer peer fun p => { p with isValid := false }
    let s := { s with watchers := s.watchers.filter fun watcher => watcher ≠ peer }
    (s.detachAll peer).modifyPeer peer fun p => { p with attachedSessionIDs := ∅ }
  else s

/-- A request of a peer that said hello, and its reply. -/
def perform (s : SessionRegistry) (peer : ℕ) : Request → SessionRegistry × Code
  | .hello watchSessions =>
    let s := s.modifyPeer peer fun p => { p with didHandshake := true }
    (if watchSessions then { s with watchers := s.watchers.filter (fun w => w ≠ peer) ++ [peer] }
      else s,
      .success)
  | .openSession columns rows holder spawn => s.openSession peer columns rows holder spawn
  | .attachSession id holder takeover => s.attachSession peer id holder takeover
  | .detachSession id => s.detachSession peer id
  | .write id data paste outcome => s.write peer id data paste outcome
  | .resize id columns rows => s.resize peer id columns rows
  | .closeSession id => s.closeSession peer id
  | .injectInput id data paste outcome => s.injectInput id data paste outcome
  | .goodbye => (s.invalidate peer, .success)

/-- `PeerSession.handle`: a peer that is gone is not answered. -/
def handle (s : SessionRegistry) (peer : ℕ) (request : Request) : SessionRegistry × Option Code :=
  if ¬ (s.peers peer).isValid then (s, none)
  else if ¬ ((s.peers peer).didHandshake ∨ request.isHello) then
    (s, some .handshakeRequired)
  else
    let (s, code) := s.perform peer request
    (s, some code)

/-! ## Runs -/

/-- What can happen. -/
inductive Event
  | request (peer : ℕ) (request : Request)
  | exit (id : ℕ) (exitCode : ℤ)
  | peerGone (peer : ℕ)
deriving DecidableEq

def step (s : SessionRegistry) : Event → SessionRegistry
  | .request peer request => (s.handle peer request).1
  | .exit id exitCode => s.handleExit id exitCode
  | .peerGone peer => s.invalidate peer

end SessionRegistry
