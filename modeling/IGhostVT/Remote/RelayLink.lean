import IGhostVT.Remote.RelayCallBacks
import Mathlib.Logic.Function.Basic

/-!
# Remote/RelayLink — a host's registration at its relay

`RelayLink` keeps one control connection registered: it registers again when the connection fails or
the network changes, and when the relay no longer answers its pings.  A connection is known by the
generation it was made in, and every closure by the generation it was made for; a closure of another
does nothing.  `step` is one closure, or one thing asked of the link, run on the link's queue.
-/

inductive RelayError
  | unreachable (reason : String)
  | version (relay : ℤ)
  | refused (reason : String)
  | malformed (reason : String)
deriving DecidableEq

inductive RelayState
  /-- No relay configured. -/
  | off
  | connecting
  | registered
  | failed
  /-- Another machine registered this host id with this host's key. -/
  | conflict
  | versionMismatch
deriving DecidableEq

/-- What an open control connection waits for. -/
inductive Awaits
  /-- Its closure is running, or was the last one. -/
  | nothing
  | ready
  | hello
  | answer
  | frame
deriving DecidableEq

/-- A closure that was given a time. -/
inductive Timer
  /-- `connect`'s 15 s. -/
  | connect (generation : ℕ)
  | retry (generation : ℕ)
  /-- `pongTimeout` after a ping. -/
  | pong (generation sentAt : ℕ)
deriving DecidableEq

structure RelayLink where
  state : RelayState := .connecting
  message : Option String := none
  control : Option ℕ := none
  /-- The control connections that are open, by their generations. -/
  controls : ℕ → Option Awaits := fun _ => none
  generation : ℕ := 0
  isStopped : Bool := false
  /-- In seconds. -/
  retryDelay : ℕ := 1
  lastHeard : ℕ := 0
  heartbeat : Option ℕ := none
  lastPathSignature : Option String := none
  timers : List Timer := []
  now : ℕ := 0
  calls : CallBacks := {}

namespace RelayLink

def maximumRetryDelay : ℕ := 60

def protocolVersion : ℕ := 1

def setControl (s : RelayLink) (g : ℕ) (awaits : Option Awaits) : RelayLink :=
  { s with controls := Function.update s.controls g awaits }

/-- `control?.close()` when it tells no one. -/
def closeControl (s : RelayLink) : RelayLink :=
  { s with controls := s.control.elim s.controls fun g => Function.update s.controls g none }

/-- `ready` has not been told, and was made for this generation. -/
def isStarting (s : RelayLink) : Bool :=
  match s.control with
  | none => false
  | some g => s.controls g = some .ready && g = s.generation

def stopRetrying (s : RelayLink) (state : RelayState) (message : String) : RelayLink :=
  { s.closeControl with
    generation := s.generation + 1, control := none, heartbeat := none, state, message :=
      some message }

/-- What the settings page shows. -/
def describe : RelayError → String
  | .refused "auth" | .refused "relayID" =>
    "The relay did not accept this configuration. Import the current one from the relay."
  | .refused "full" => "The relay has as many devices as it allows."
  | .unreachable _ => "Unable to reach the relay."
  | .refused reason | .malformed reason => "The relay refused this device (" ++ reason ++ ")."
  | .version _ => ""

/-- The end of `failed`: the link tries again later. -/
def retryLater (s : RelayLink) (message : String) : RelayLink :=
  { s with
    message := some message
    state := .failed
    retryDelay := min (s.retryDelay * 2) maximumRetryDelay
    timers := s.timers ++ [.retry s.generation] }

/-- `failed` without its guard, the control connection being closed. -/
def fail (s : RelayLink) (error : RelayError) : RelayLink :=
  let s := { s with control := none, heartbeat := none }
  match error with
  | .version relay =>
    s.stopRetrying .versionMismatch
      ("The relay runs another version (protocol " ++ toString relay ++
      "; this device needs " ++ toString protocolVersion ++
      "). Update the relay or iGhostVT so they match.")
  | .refused "hostKey" =>
    s.stopRetrying .conflict ("The relay knows this device by another key. " ++
      "Ask its owner to run “ighostvt-relay forget” for this device.")
  | error => s.retryLater (describe error)

/-- `control?.close()`: a connection that is still starting tells its `ready`, and that fails the
link. -/
def closing (s : RelayLink) : RelayLink :=
  if s.isStarting && !s.isStopped then s.closeControl.fail (.unreachable "closed")
    else s.closeControl

def failed (s : RelayLink) (error : RelayError) : RelayLink :=
  if s.isStopped then s else s.closing.fail error

def connect (s : RelayLink) : RelayLink :=
  let s := s.closing
  { s with
    heartbeat := none
    generation := s.generation + 1
    state := .connecting
    control := some (s.generation + 1)
    controls := Function.update s.controls (s.generation + 1) (some .ready)
    timers := s.timers ++ [.connect (s.generation + 1)] }

def stop (s : RelayLink) : RelayLink :=
  { s.closeControl with
    isStopped := true, generation := s.generation + 1, heartbeat := none, control := none }

def register (s : RelayLink) : RelayLink :=
  if !s.isStopped && (s.state = .registered || s.state = .connecting || s.state = .failed) then
    { s with retryDelay := 1 }.connect
  else s

/-- `pathChanged`, with the names of the interfaces while the path is satisfied. -/
def pathChanged (s : RelayLink) (interfaces : Option String) : RelayLink :=
  let signature := interfaces.getD "unsatisfied"
  let changed := s.lastPathSignature.any (· ≠ signature)
  { (if changed && interfaces.isSome && !s.isStopped && s.state ≠ .conflict && s.state ≠
    .versionMismatch
      then { s with retryDelay := 1 }.connect else s) with lastPathSignature := some signature }

/-- What the control connection of a generation hands to `ready`. -/
def ready (s : RelayLink) (g : ℕ) (error : Option RelayError) : RelayLink :=
  let s := s.setControl g (some .nothing)
  match error with
  | none => if g = s.generation then s.setControl g (some .hello) else s
  | some error => (if g = s.generation then s.failed error else s).setControl g none

/-- The relay's hello; signing the registration may fail. -/
def hello (s : RelayLink) (g : ℕ) (error : Option RelayError) (signs : Bool) : RelayLink :=
  let s := s.setControl g (some .nothing)
  if g = s.generation then
    match error with
    | some error => s.failed error
    | none =>
      if signs then s.setControl g (some .answer) else s.failed (.malformed "could not sign")
  else s

def answer (s : RelayLink) (g : ℕ) (error : Option RelayError) : RelayLink :=
  let s := s.setControl g (some .nothing)
  if g = s.generation then
    match error with
    | some error => s.failed error
    | none =>
      { s.setControl g (some .frame) with
        state := .registered, message := none, retryDelay := 1, lastHeard := s.now, heartbeat :=
          some g }
  else s

/-- A frame of the relay's. -/
inductive Frame
  | incoming (ticket : String)
  | ping
  | superseded
  | other

def frame (s : RelayLink) (g : ℕ) (frame : Except RelayError Frame) (means : CallBacks.Means) :
    RelayLink :=
  let s := s.setControl g (some .nothing)
  if g = s.generation then
    match frame with
    | .error error => s.failed error
    | .ok .superseded =>
      { s with lastHeard := s.now }.stopRetrying .conflict
        ("Another device registered at the relay as this one. " ++
          "It may be a copy of this device; remote access there needs a fresh identity.")
    | .ok (.incoming ticket) =>
      { s.setControl g (some .frame) with
        lastHeard := s.now, calls := s.calls.step (.incoming means ticket) }
    | .ok _ => { s.setControl g (some .frame) with lastHeard := s.now }
  else s

/-- The heartbeat's event handler. -/
def beat (s : RelayLink) : RelayLink :=
  match s.heartbeat with
  | none => s
  | some g =>
    if g = s.generation && s.control.isSome then { s with timers := s.timers ++ [.pong g s.now] }
      else s

def fire (s : RelayLink) : Timer → RelayLink
  | .connect g =>
    if g = s.generation && s.state = .connecting then s.failed
      (.unreachable "no answer in 15 s") else s
  | .retry g => if !s.isStopped && g = s.generation && s.state = .failed then s.connect else s
  | .pong g sentAt =>
    if g = s.generation && s.lastHeard < sentAt then
      s.failed (.unreachable "no answer from the relay in 20 s")
    else s

inductive Event
  /-- What the control connection of a generation delivers, if it is open and was asked. -/
  | ready (g : ℕ) (error : Option RelayError)
  | hello (g : ℕ) (error : Option RelayError) (signs : Bool)
  | answer (g : ℕ) (error : Option RelayError)
  | frame (g : ℕ) (frame : Except RelayError Frame) (means : CallBacks.Means)
  /-- The connection of a generation fails after `ready`: it closes, and a read that waits is told
  nothing. -/
  | dies (g : ℕ)
  /-- The timer at a place of the list. -/
  | fire (i : ℕ)
  | beat
  | tick (seconds : ℕ)
  | pathChanged (interfaces : Option String)
  | register
  | stop
  /-- Of the calls back. -/
  | called (i : ℕ) (answer : CallBack.Answer)
  | noteFinished (means : CallBacks.Means)

def step (s : RelayLink) : Event → RelayLink
  | .ready g error => if s.controls g = some .ready then s.ready g error else s
  | .hello g error signs => if s.controls g = some .hello then s.hello g error signs else s
  | .answer g error => if s.controls g = some .answer then s.answer g error else s
  | .frame g frame means => if s.controls g = some .frame then s.frame g frame means else s
  | .dies g => if s.controls g = some .ready then s else s.setControl g none
  | .fire i =>
    match s.timers[i]? with
    | none => s
    | some timer => { s with timers := s.timers.eraseIdx i }.fire timer
  | .beat => s.beat
  | .tick seconds =>
    { s with
      now := s.now + seconds
      calls := s.calls.step (.passes (seconds * CallBack.second)) }
  | .pathChanged interfaces => s.pathChanged interfaces
  | .register => s.register
  | .stop => s.stop
  | .called i answer => { s with calls := s.calls.step (.answered i answer) }
  | .noteFinished means => { s with calls := s.calls.step (.noteFinished means) }

/-- A link that was started. -/
def start : RelayLink := connect {}

def after (es : List Event) : RelayLink := Run.after step start es

end RelayLink
