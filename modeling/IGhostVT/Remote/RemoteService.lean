import IGhostVT.Lib.Dict
import IGhostVT.Remote.RemoteClient

/-!
# Remote/RemoteService — who may connect to the helper, and pair with it

The helper lets so many strangers handshake at once on each path — the local network, the relay —
and holds so many more back.  A stranger's first frame makes it a device or a pairing; a pairing
needs the window that the user opened, and spends one of its attempts.

Connections are numbered as they are accepted, and a client goes by its connection's number.
Closing a link with nothing to flush calls back at once, inside whatever closed it.  Timers fire at
any time, and the clock may be set to anything.
-/

namespace RemoteAccess

def pairingWindowSeconds : ℕ := 120
def pairingAttemptLimit : ℕ := 3
def maximumUnauthenticatedConnections : ℕ := 4
def maximumWaitingConnections : ℕ := 32
def maximumDeviceCount : ℕ := 32

end RemoteAccess

/-- The host's side of SPAKE2+: the exchange a share begins, with the randomness it drew, and the
session key a confirmation verifies to. -/
structure PairingExchange where
  Exchange : Type
  receiveShare : (code share : List UInt8) → (random : ℕ) → Option Exchange
  verifyConfirmation : Exchange → List UInt8 → Option (List UInt8)
  deviceKey : (sessionKey hostID deviceID : List UInt8) → List UInt8

namespace RemoteService

variable {P : PairingExchange}

/-- What a connection is; its first frame decides. -/
inductive Mode (P : PairingExchange)
  | handshaking
  | pairing (deviceID deviceName : List UInt8) (exchange : P.Exchange)
  | session (deviceID : List UInt8)

namespace Mode

def isAuthenticated : Mode P → Bool
  | handshaking => false
  | _ => true

def isPairing : Mode P → Bool
  | pairing _ _ _ => true
  | _ => false

def deviceID : Mode P → Option (List UInt8)
  | session deviceID => some deviceID
  | _ => none

end Mode

/-- A started connection that is not over. -/
structure Client (P : PairingExchange) where
  address : List UInt8
  viaRelay : Bool
  mode : Mode P := .handshaking
  hasDaemon : Bool := false
  heldSessions : List ℕ := []
  /-- TLS is up. -/
  isReady : Bool := false
  /-- Frames the network has not taken. -/
  pending : ℕ := 0
  /-- Over once they are: nothing more is sent or handed out. -/
  isDraining : Bool := false

/-- Accepted past the handshake limit, not started yet. -/
structure Waiting where
  connection : ℕ
  address : List UInt8
  viaRelay : Bool
deriving DecidableEq

structure PairingWindow where
  code : List UInt8
  expiresAt : ℕ
  attemptsUsed : ℕ := 0
  failures : List (List UInt8 × ℕ) := []
  /-- The client mid-exchange; one at a time. -/
  activeClient : Option ℕ := none
  activeClientViaRelay : Bool := false
  /-- Whether a pairing may come in through the relay, whose attempts are counted apart. -/
  allowsRelay : Bool := false
  relayAttemptsUsed : ℕ := 0
deriving DecidableEq

namespace PairingWindow

/-- Spends an attempt, the relay's or the local network's. -/
def spend (window : PairingWindow) (id : ℕ) (viaRelay : Bool) : PairingWindow :=
  if viaRelay then
    { window with
      relayAttemptsUsed := window.relayAttemptsUsed + 1
      activeClient := some id
      activeClientViaRelay := true }
  else
    { window with
      attemptsUsed := window.attemptsUsed + 1
      activeClient := some id
      activeClientViaRelay := false }

/-- Nobody is active any more; the attempt is listed as failed. -/
def release (window : PairingWindow) (address : List UInt8) (now : ℕ) : PairingWindow :=
  { window with
    activeClient := none
    activeClientViaRelay := false
    failures := window.failures ++ [(address, now)] }

end PairingWindow

structure Device where
  id : List UInt8
  name : List UInt8
  key : List UInt8
  pairedAt : ℕ
deriving DecidableEq

/-- The host's confirmation went out: to whom, for the code of which window. -/
structure Confirmation (P : PairingExchange) where
  window : ℕ
  client : ℕ
  viaRelay : Bool
  exchange : P.Exchange

inductive PairingRefusal
  | notOpen
  | notThroughRelay
  | busy
  | full
  | mismatch

end RemoteService

open RemoteService RemoteAccess

structure RemoteService (P : PairingExchange) where
  now : ℕ := 0
  hostID : List UInt8 := []
  clients : Dict ℕ (Client P) := ∅
  lingering : Dict ℕ (Client P) := ∅
  waiting : List Waiting := []
  pairing : Option PairingWindow := none
  devices : List Device := []
  hasRelay : Bool := false
  /-- How many connections and windows there were.  Not the program's, as is all below. -/
  arrivals : ℕ := 0
  windows : ℕ := 0
  started : List ℕ := []
  cancelled : List ℕ := []
  confirmations : List (Confirmation P) := []

namespace RemoteService

variable {P : PairingExchange}

/-! ## Handshake slots -/

/-- The clients on a path that are not past their handshake. -/
def handshaking (s : RemoteService P) (viaRelay : Bool) : ℕ :=
  s.clients.entries.countP fun e => !e.2.mode.isAuthenticated && e.2.viaRelay == viaRelay

def hasHandshakeSlot (s : RemoteService P) (viaRelay : Bool) : Bool :=
  decide (s.handshaking viaRelay < maximumUnauthenticatedConnections)

def start (s : RemoteService P) (next : Waiting) : RemoteService P :=
  { s with
    clients :=
      s.clients.insert next.connection { address := next.address, viaRelay := next.viaRelay }
    started := s.started ++ [next.connection] }

/-- Walks the waiting list, starting whoever has a slot; `passed` are those that had none. -/
def startWaiting (s : RemoteService P) (passed : List Waiting) : List Waiting → RemoteService P
  | [] => { s with waiting := passed }
  | next :: rest =>
    if s.hasHandshakeSlot next.viaRelay then (s.start next).startWaiting passed rest
    else s.startWaiting (passed ++ [next]) rest

/-- A handshake slot came free: a client proved itself, or left. -/
def handshakeEnded (s : RemoteService P) : RemoteService P := s.startWaiting [] s.waiting

def waitingOn (s : RemoteService P) (viaRelay : Bool) : ℕ :=
  s.waiting.countP fun next => next.viaRelay == viaRelay

def accept (s : RemoteService P) (viaRelay isLocal : Bool) (address : List UInt8) :
    RemoteService P :=
  let connection := s.arrivals + 1
  let next : Waiting := { connection, address, viaRelay }
  let s := { s with arrivals := connection }
  if ¬ viaRelay ∧ ¬ isLocal then { s with cancelled := s.cancelled ++ [connection] }
  else if s.hasHandshakeSlot viaRelay then s.start next
  else if s.waitingOn viaRelay < maximumWaitingConnections then
    { s with waiting := s.waiting ++ [next] }
  else { s with cancelled := s.cancelled ++ [connection] }

/-- A connection waited too long for a slot. -/
def waitTimeout (s : RemoteService P) (connection : ℕ) : RemoteService P :=
  if connection ∈ s.waiting.map Waiting.connection then
    { s with
      waiting := s.waiting.filter fun next => next.connection ≠ connection
      cancelled := s.cancelled ++ [connection] }
  else s

/-! ## The end of a link -/

/-- The link is over.  A device that did not let go of its terminals lingers; `failed` records that
the active client of the window left. -/
def closedWith (failed : RemoteService P → List UInt8 → RemoteService P) (s : RemoteService P)
    (id : ℕ) : RemoteService P :=
  match s.clients.get? id with
  | none => s
  | some client =>
    if client.hasDaemon ∧ client.heldSessions ≠ [] then
      { s with clients := s.clients.erase id, lingering := s.lingering.insert id client }
    else
      let s := { s with clients := s.clients.erase id }.handshakeEnded
      if s.pairing.bind PairingWindow.activeClient = some id then failed s client.address else s

/-- `closeWhenFlushed`. -/
def closeWith (failed : RemoteService P → List UInt8 → RemoteService P) (s : RemoteService P)
    (id : ℕ) : RemoteService P :=
  match s.clients.get? id with
  | none => s
  | some client =>
    if client.isDraining then s
    else if client.isReady ∧ 0 < client.pending then
      { s with clients := s.clients.insert id { client with isDraining := true } }
    else s.closedWith failed id

/-- `closeWith` of a client whose mode meets `p`. -/
def closeIfWith (failed : RemoteService P → List UInt8 → RemoteService P) (p : Mode P → Bool)
    (s : RemoteService P) (id : ℕ) : RemoteService P :=
  if (s.clients.get? id).any fun client => p client.mode then s.closeWith failed id else s

/-- `closeWith` of every client whose mode meets `p`. -/
def closeEach (failed : RemoteService P → List UInt8 → RemoteService P) (p : Mode P → Bool)
    (s : RemoteService P) : RemoteService P :=
  s.clients.keys.foldl (closeIfWith failed p) s

/-- The active client's attempt failed. -/
def recordPairingFailure (s : RemoteService P) (address : List UInt8) : RemoteService P :=
  match s.pairing with
  | none => s
  | some window =>
    let released := window.release address s.now
    if window.activeClientViaRelay then
      -- the relay's attempts are its own: spent, they close the window to the relay and nothing
      -- else
      if window.relayAttemptsUsed ≥ pairingAttemptLimit ∧ window.allowsRelay then
        { s with pairing := some { released with allowsRelay := false } }
      else { s with pairing := some released }
    else if window.attemptsUsed ≥ pairingAttemptLimit then
      -- with no window left, whoever leaves is no window's active client
      { s with pairing := none }.closeEach (fun s _ => s) Mode.isPairing
    else { s with pairing := some released }

def closed (s : RemoteService P) (id : ℕ) : RemoteService P := s.closedWith recordPairingFailure id

def close (s : RemoteService P) (id : ℕ) : RemoteService P := s.closeWith recordPairingFailure id

/-! ## Pairing -/

def expirePairingIfNeeded (s : RemoteService P) : RemoteService P :=
  match s.pairing with
  | none => s
  | some window => if window.expiresAt ≤ s.now then { s with pairing := none } else s

/-- Spends an attempt of the window, and begins the exchange; or says why not. -/
def beginPairing (s : RemoteService P) (id : ℕ) (client : Client P) (deviceID share : List UInt8)
    (random : ℕ) : RemoteService P × Except PairingRefusal P.Exchange :=
  let s := s.expirePairingIfNeeded
  match s.pairing with
  | none => (s, .error .notOpen)
  | some window =>
    if client.viaRelay ∧ ¬ window.allowsRelay then (s, .error .notThroughRelay)
    else if window.activeClient ≠ none then (s, .error .busy)
    else if ¬ (s.devices.length < maximumDeviceCount ∨ deviceID ∈ s.devices.map Device.id) then
      (s, .error .full)
    else
      let s := { s with pairing := some (window.spend id client.viaRelay) }
      match P.receiveShare window.code share random with
      | none => (s.recordPairingFailure client.address, .error .mismatch)
      | some exchange =>
        ({ s with
            confirmations := s.confirmations ++
              [{ window := s.windows, client := id, viaRelay := client.viaRelay, exchange }] },
          .ok exchange)

/-- An attempt is refused, spent on a bad share, or begun. -/
theorem beginPairing_cases (s : RemoteService P) (id : ℕ) (client : Client P)
    (deviceID share : List UInt8) (random : ℕ) :
    (∃ refusal, s.beginPairing id client deviceID share random =
      (s.expirePairingIfNeeded, .error refusal)) ∨
    ∃ window, s.expirePairingIfNeeded.pairing = some window ∧
      (client.viaRelay → window.allowsRelay) ∧ window.activeClient = none ∧
      (s.beginPairing id client deviceID share random =
        ({ s.expirePairingIfNeeded with
            pairing := some (window.spend id client.viaRelay) }.recordPairingFailure client.address,
          .error .mismatch) ∨
      ∃ exchange, P.receiveShare window.code share random = some exchange ∧
        s.beginPairing id client deviceID share random =
          ({ s.expirePairingIfNeeded with
              pairing := some (window.spend id client.viaRelay)
              confirmations := s.expirePairingIfNeeded.confirmations ++
                [⟨s.expirePairingIfNeeded.windows, id, client.viaRelay, exchange⟩] },
            .ok exchange)) := by
  rw [beginPairing]
  generalize s.expirePairingIfNeeded = s'
  cases hpairing : s'.pairing with
  | none => exact .inl ⟨.notOpen, rfl⟩
  | some window =>
    simp only
    split
    · exact .inl ⟨.notThroughRelay, rfl⟩
    case isFalse hrelay =>
    split
    · exact .inl ⟨.busy, rfl⟩
    case isFalse hactive =>
    split
    · exact .inl ⟨.full, rfl⟩
    refine .inr ⟨window, rfl, fun hvia => ?_, not_not.mp hactive, ?_⟩
    · by_contra hallows
      exact hrelay ⟨hvia, hallows⟩
    · cases P.receiveShare window.code share random with
      | none => exact .inl rfl
      | some exchange => exact .inr ⟨exchange, rfl, rfl⟩

/-- Pairs the device, or records that the attempt failed. -/
def finishPairing (s : RemoteService P) (id : ℕ) (client : Client P) (exchange : P.Exchange)
    (deviceID deviceName confirmation : List UInt8) : RemoteService P × Bool :=
  if s.pairing.bind PairingWindow.activeClient = some id then
    match P.verifyConfirmation exchange confirmation with
    | none => (s.recordPairingFailure client.address, false)
    | some sessionKey =>
      let device : Device :=
        { id := deviceID, name := deviceName, key := P.deviceKey sessionKey s.hostID deviceID,
          pairedAt := s.now }
      ({ s with
          devices := (s.devices.filter fun d => d.id ≠ deviceID) ++ [device]
          pairing := none }, true)
  else (s, false)

/-! ## Frames -/

/-- A frame, as far as the client that receives it reads it. -/
inductive Frame
  | notRequest
  /-- Whether the release lines match, the device it names, whether its proof verifies against that
  device's key, and whether the daemon could be reached. -/
  | hello (isCompatible : Bool) (deviceID : Option (List UInt8)) (isProven isDaemonRunning : Bool)
  /-- The device's id, its name and its share, unless one is missing or unfit. -/
  | pairStart (isCompatible : Bool) (message : Option (List UInt8 × List UInt8 × List UInt8))
  | pairFinish (confirmation : Option (List UInt8))
  | ping
  | sessionOperation
  | otherOperation

/-- Changes a client that is not over. -/
def withClient (s : RemoteService P) (id : ℕ) (f : Client P → Client P) : RemoteService P :=
  match s.clients.get? id with
  | none => s
  | some client => { s with clients := s.clients.insert id (f client) }

def send (s : RemoteService P) (id : ℕ) : RemoteService P :=
  s.withClient id fun client =>
    if client.isDraining then client else { client with pending := client.pending + 1 }

/-- A reply, if the request wants one. -/
def reply (s : RemoteService P) (id tag : ℕ) : RemoteService P := if tag ≠ 0 then s.send id else s

def setMode (s : RemoteService P) (id : ℕ) (mode : Mode P) : RemoteService P :=
  match s.clients.get? id with
  | none => s
  | some client =>
    let s := { s with clients := s.clients.insert id { client with mode } }
    if ¬ client.mode.isAuthenticated ∧ mode.isAuthenticated then s.handshakeEnded else s

def authenticate (s : RemoteService P) (id tag : ℕ) (deviceID : Option (List UInt8))
    (isProven isDaemonRunning : Bool) : RemoteService P :=
  match deviceID with
  | none => (s.reply id tag).close id
  | some deviceID =>
    if deviceID ∉ s.devices.map Device.id ∨ ¬ isProven ∨ ¬ isDaemonRunning then
      (s.reply id tag).close id
    else (s.setMode id (.session deviceID)).withClient id fun client =>
      { client with hasDaemon := true }

def startPairing (s : RemoteService P) (id tag : ℕ) (client : Client P)
    (message : Option (List UInt8 × List UInt8 × List UInt8)) (random : ℕ) : RemoteService P :=
  match message with
  | none => (s.reply id tag).close id
  | some (deviceID, deviceName, share) =>
    match s.beginPairing id client deviceID share random with
    | (s, .ok exchange) => (s.setMode id (.pairing deviceID deviceName exchange)).send id
    | (s, .error _) => (s.reply id tag).close id

/-- A frame of a client that is `handshaking`. -/
def handleFirst (s : RemoteService P) (id tag : ℕ) (client : Client P) (frame : Frame)
    (random : ℕ) : RemoteService P :=
  match frame with
  | .hello isCompatible deviceID isProven isDaemonRunning =>
    if isCompatible then s.authenticate id tag deviceID isProven isDaemonRunning
    else (s.reply id tag).close id
  | .pairStart isCompatible message =>
    if isCompatible then s.startPairing id tag client message random else (s.reply id tag).close id
  | _ => s.close id

/-- A frame of a client that is `pairing`. -/
def handlePairing (s : RemoteService P) (id tag : ℕ) (client : Client P)
    (deviceID deviceName : List UInt8) (exchange : P.Exchange) (frame : Frame) : RemoteService P :=
  match frame with
  | .pairFinish (some confirmation) =>
    let s := (s.finishPairing id client exchange deviceID deviceName confirmation).1
    ((s.setMode id .handshaking).reply id tag).close id
  | _ => s.close id

/-- A frame of a device's. -/
def handleSession (s : RemoteService P) (id tag : ℕ) : Frame → RemoteService P
  | .notRequest => s.close id
  -- forwarded to the daemon
  | .hello _ _ _ _ | .sessionOperation => s
  | _ => s.reply id tag

def handle (s : RemoteService P) (id tag : ℕ) (frame : Frame) (random : ℕ) : RemoteService P :=
  match s.clients.get? id with
  | none => s
  | some client =>
    if ¬ client.isReady ∨ client.isDraining then s
    else match client.mode with
      | .handshaking => s.handleFirst id tag client frame random
      | .pairing deviceID deviceName exchange =>
        s.handlePairing id tag client deviceID deviceName exchange frame
      | .session _ => s.handleSession id tag frame

/-! ## Management -/

inductive Operation
  | remoteStatus
  | beginPairing (code : List UInt8) (relayPairing : Bool)
  | endPairing
  | revokeRemoteDevice (deviceID : List UInt8)
  /-- Whether the relay is one that can be used. -/
  | setRelayConfiguration (isUsable : Bool)

def endLinger (s : RemoteService P) (id : ℕ) : RemoteService P :=
  { s with lingering := s.lingering.erase id }

def perform (s : RemoteService P) : Operation → RemoteService P
  | .remoteStatus => s
  | .beginPairing code relayPairing =>
    { s with
      windows := s.windows + 1
      pairing := some
        { code, expiresAt := s.now + pairingWindowSeconds,
          allowsRelay := s.hasRelay && relayPairing }
      }.closeEach recordPairingFailure Mode.isPairing
  | .endPairing => { s with pairing := none }.closeEach recordPairingFailure Mode.isPairing
  | .revokeRemoteDevice deviceID =>
    if deviceID ∈ s.devices.map Device.id then
      let s := { s with devices := s.devices.filter fun d => d.id ≠ deviceID }
      let s := s.closeEach recordPairingFailure fun mode => mode.deviceID == some deviceID
      { s with lingering := s.lingering.filter fun client => client.mode.deviceID != some deviceID }
    else s
  | .setRelayConfiguration isUsable => { s with hasRelay := isUsable }

/-- A request that wants a reply is answered with the status, which looks for an expired window. -/
def handleManagement (s : RemoteService P) (operation : Operation) (tag : ℕ) : RemoteService P :=
  let s := s.perform operation
  if tag ≠ 0 then s.expirePairingIfNeeded else s

/-! ## Runs -/

/-- The helper as it starts, with what its store holds. -/
def launched (now : ℕ) (hostID : List UInt8) (devices : List Device) (hasRelay : Bool) :
    RemoteService P :=
  { now, hostID, devices, hasRelay }

inductive Event
  | clock (now : ℕ)
  | accept (viaRelay isLocal : Bool) (address : List UInt8)
  | waitTimeout (connection : ℕ)
  | ready (id : ℕ)
  | frame (id tag : ℕ) (frame : Frame) (random : ℕ)
  /-- The network took a frame, or failed to. -/
  | processed (id : ℕ) (isError : Bool)
  | flushTimeout (id : ℕ)
  /-- The other end closed the link, or it broke, or carried what is no frame. -/
  | closed (id : ℕ)
  | handshakeTimeout (id : ℕ)
  | pairingTimeout (id : ℕ)
  /-- Nothing from a device for too long. -/
  | silence (id : ℕ)
  /-- The daemon's output and replies to a device, and the sessions they say it holds. -/
  | daemonSends (id : ℕ) (heldSessions : List ℕ)
  | lingerEnds (id : ℕ)
  | management (operation : Operation) (tag : ℕ)

def processed (s : RemoteService P) (id : ℕ) (isError : Bool) : RemoteService P :=
  match s.clients.get? id with
  | none => s
  | some client =>
    if client.pending = 0 then s
    else
      let s :=
        { s with clients := s.clients.insert id { client with pending := client.pending - 1 } }
      if isError ∨ (client.isDraining ∧ client.pending - 1 = 0) then s.closed id else s

def closeIf (s : RemoteService P) (id : ℕ) (p : Mode P → Bool) : RemoteService P :=
  s.closeIfWith recordPairingFailure p id

def step (s : RemoteService P) : Event → RemoteService P
  | .clock now => { s with now }
  | .accept viaRelay isLocal address => s.accept viaRelay isLocal address
  | .waitTimeout connection => s.waitTimeout connection
  | .ready id => s.withClient id fun client => { client with isReady := true }
  | .frame id tag frame random => s.handle id tag frame random
  | .processed id isError => s.processed id isError
  | .flushTimeout id => if (s.clients.get? id).any Client.isDraining then s.closed id else s
  | .closed id => s.closed id
  | .handshakeTimeout id => s.closeIf id fun mode => !mode.isAuthenticated
  | .pairingTimeout id => s.closeIf id Mode.isPairing
  | .silence id => s.closeIf id fun mode => mode.deviceID.isSome
  | .daemonSends id heldSessions =>
    s.withClient id fun client =>
      if client.hasDaemon then
        { client with
          pending := if client.isDraining then client.pending else client.pending + 1
          heldSessions }
      else client
  | .lingerEnds id => s.endLinger id
  | .management operation tag => s.handleManagement operation tag

end RemoteService
