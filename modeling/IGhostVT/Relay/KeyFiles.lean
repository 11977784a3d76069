import IGhostVT.Lib.Run
import Mathlib.Algebra.GroupWithZero.Nat

/-!
# Relay/KeyFiles — the relay's key on disk: the first start, the next ones, and rotations

Two files carry the key: `relay.json` its public half, the configuration its private one.  Each is
replaced by a rename, so a write happens whole or not at all; whether it happens is the event's own
(`writes`), and so is the process stopping instead.  Between two writes nothing on disk changes, so
these are all the points at which it can stop.

Keys are what their encodings decode to, and `pub` takes a private key to its public half.
-/

namespace Relay

/-! ## Relay ids -/

def hexDigit (n : ℕ) : Char :=
  ['0', '1', '2', '3', '4', '5', '6', '7', '8', '9', 'A', 'B', 'C', 'D', 'E', 'F'].getD n '0'

def hexBytes (bytes : List ℕ) : List Char :=
  bytes.flatMap fun b => [hexDigit (b / 16 % 16), hexDigit (b % 16)]

-- The bytes of an id have literals.
instance instNeZeroSixteen : NeZero 16 := ⟨Nat.succ_ne_zero 15⟩

/-- A random UUID, upper-case. -/
def newRelayID (b : Fin 16 → Fin 256) : List Char :=
  -- the version and the variant
  let b6 := b 6 % 16 + 64
  let b8 := b 8 % 64 + 128
  hexBytes [b 0, b 1, b 2, b 3] ++ '-' :: hexBytes [b 4, b 5] ++ '-' :: hexBytes [b6, b 7] ++
    '-' :: hexBytes [b8, b 9] ++ '-' :: hexBytes [b 10, b 11, b 12, b 13, b 14, b 15]

def isUUID (s : List Char) : Bool :=
  s.length = 36 ∧ s.zipIdx.all fun (c, i) =>
    if i ∈ [8, 13, 18, 23] then c = '-'
    else '0' ≤ c ∧ c ≤ '9' ∨ 'a' ≤ c ∧ c ≤ 'f' ∨ 'A' ≤ c ∧ c ≤ 'F'

/-! ## The store -/

/-- `relay.json`. -/
structure RelayFile (Pub Text : Type) where
  relayID : List Char
  publicKey : Pub
  name : Text
deriving DecidableEq

/-- The configuration members import. -/
structure Config (Priv Text : Type) where
  name : Text
  endpoint : Text
  relayID : List Char
  key : Priv
deriving DecidableEq

structure Dir (Priv Pub Text : Type) where
  relay : Option (RelayFile Pub Text) := none
  config : Option (Config Priv Text) := none

/-- What is random in a new key and a new id.  There may be no key. -/
structure Draw (Priv : Type) where
  key : Option Priv
  bytes : Fin 16 → Fin 256

inductive Write
  | written
  | failed
  /-- The process stops before it. -/
  | stopped
deriving DecidableEq

inductive Outcome
  | ok
  | error
  | stopped
deriving DecidableEq

section

variable {Priv Pub Text : Type} (pub : Priv → Pub)

/-- The configuration carries the private half of the relay's public key, for the same relay. -/
def Matches (c : Config Priv Text) (r : RelayFile Pub Text) : Prop :=
  c.relayID = r.relayID ∧ pub c.key = r.publicKey

instance [DecidableEq Pub] (c : Config Priv Text) (r : RelayFile Pub Text) :
    Decidable (Matches pub c r) :=
  inferInstanceAs (Decidable (_ ∧ _))

/-- A key pair and the configuration that carries it.  Nothing is written. -/
def newKey (draw : Draw Priv) (relayID : List Char) (name endpoint : Text) :
    Option (RelayFile Pub Text × Config Priv Text) :=
  draw.key.map fun key =>
    ({ relayID, publicKey := pub key, name }, { name, endpoint, relayID, key })

end

end Relay

open Relay

structure KeyServer (Priv Pub Text : Type) where
  dir : Dir Priv Pub Text := {}
  name : Text
  isRunning : Bool := false
  relayKey : Option (List Char × Pub) := none
  endpoint : Option Text := none
  /-- `retryEndpoint` has not found an endpoint yet. -/
  retries : Bool := false
  /-- How the next writes go; those after them succeed. -/
  writes : List Write := []

namespace KeyServer

variable {Priv Pub Text : Type}

def write (s : KeyServer Priv Pub Text) : KeyServer Priv Pub Text × Outcome :=
  ({ s with writes := s.writes.tail },
    match s.writes.head? with
    | some .failed => .error
    | some .stopped => .stopped
    | _ => .ok)

/-- What is left to do, unless an error returned or the process stopped. -/
def andThen (r : KeyServer Priv Pub Text × Outcome)
    (f : KeyServer Priv Pub Text → KeyServer Priv Pub Text × Outcome) :
    KeyServer Priv Pub Text × Outcome :=
  if r.2 = .ok then f r.1 else r

def saveRelay (s : KeyServer Priv Pub Text) (r : RelayFile Pub Text) :
    KeyServer Priv Pub Text × Outcome :=
  andThen s.write fun s => ({ s with dir := { s.dir with relay := some r } }, .ok)

def saveConfig (s : KeyServer Priv Pub Text) (c : Config Priv Text) :
    KeyServer Priv Pub Text × Outcome :=
  andThen s.write fun s => ({ s with dir := { s.dir with config := some c } }, .ok)

def setKey (s : KeyServer Priv Pub Text) (r : RelayFile Pub Text) : KeyServer Priv Pub Text :=
  { s with relayKey := some (r.relayID, r.publicKey) }

variable (pub : Priv → Pub)

section

variable [DecidableEq Pub] [DecidableEq Text]

/-- The end of `applyEndpointLocked`: the key stays, under a new endpoint or name. -/
def refreshConfig (s : KeyServer Priv Pub Text) (relay : RelayFile Pub Text) (endpoint : Text) :
    KeyServer Priv Pub Text × Outcome :=
  match s.dir.config with
  -- a warning: it was deleted, and with it the private key
  | none => (s, .ok)
  | some config =>
    -- a warning: it does not carry this relay's key
    if ¬ Matches pub config relay then (s, .ok)
    else if config.endpoint ≠ endpoint ∨ config.name ≠ s.name then
      s.saveConfig { config with endpoint, name := s.name }
    else (s, .ok)

/-- Writes the configuration for this endpoint: a new key on the first start, the same key under a
new endpoint or name later. -/
def applyEndpointLocked (s : KeyServer Priv Pub Text) (endpoint : Text) (draw : Draw Priv) :
    KeyServer Priv Pub Text × Outcome :=
  let s := { s with endpoint := some endpoint }
  match s.dir.relay with
  | none =>
    match newKey pub draw (newRelayID draw.bytes) s.name endpoint with
    | none => (s, .error)
    | some (r, c) =>
      -- the configuration first: the reverse is rebuilt at the next start
      andThen (s.saveConfig c) fun s =>
        andThen (s.saveRelay r) fun s => (s.setKey r, .ok)
  | some relay =>
    if relay.name ≠ s.name then
      let relay := { relay with name := s.name }
      andThen (s.saveRelay relay) fun s => s.refreshConfig pub relay endpoint
    else s.refreshConfig pub relay endpoint

/-- `prepareKey`: loads the relay's key, recovers `relay.json` from a configuration that outlived
it, and settles the endpoint, if one is `found`. -/
def prepareKey (s : KeyServer Priv Pub Text) (found : Option Text) (draw : Draw Priv) :
    KeyServer Priv Pub Text × Outcome :=
  let recovered :=
    match s.dir.relay, s.dir.config with
    | none, some config =>
      if isUUID config.relayID then
        s.saveRelay
          { relayID := config.relayID, publicKey := pub config.key, name := config.name }
      else (s, .ok)
    | _, _ => (s, .ok)
  andThen recovered fun s =>
    let s := match s.dir.relay with
      | some relay => s.setKey relay
      | none => s
    match found with
    | none => ({ s with retries := true }, .ok)
    | some endpoint => s.applyEndpointLocked pub endpoint draw

end

/-- The id a rotation's files are for: the relay's own, once it has one. -/
def rotatedID (s : KeyServer Priv Pub Text) (draw : Draw Priv) : List Char :=
  match s.dir.relay with
  | some relay => relay.relayID
  | none => newRelayID draw.bytes

/-- `Rotate`'s files; the hosts and drop sessions it ends are `RelayServer`'s. -/
def rotate (s : KeyServer Priv Pub Text) (found : Option Text) (draw : Draw Priv) :
    KeyServer Priv Pub Text × Outcome :=
  match s.endpoint <|> found with
  | none => (s, .error)
  | some endpoint =>
    match newKey pub draw (s.rotatedID draw) s.name endpoint with
    | none => (s, .error)
    | some (r, c) =>
      andThen (s.saveConfig c) fun s =>
        andThen (s.saveRelay r) fun s => ({ s.setKey r with endpoint := some endpoint }, .ok)

/-! ## Runs -/

/-- What a start finds: its name, its endpoint, randomness, and a disk that takes some writes. -/
structure Start (Priv Text : Type) where
  name : Text
  found : Option Text
  draw : Draw Priv
  writes : List Write

inductive Event (Priv Text : Type)
  | start (start : Start Priv Text)
  /-- An endpoint is found at last. -/
  | retryEndpoint (endpoint : Text) (draw : Draw Priv) (writes : List Write)
  | rotate (found : Option Text) (draw : Draw Priv) (writes : List Write)
  | stop

variable [DecidableEq Pub] [DecidableEq Text]

/-- A start from these files. -/
def start (dir : Dir Priv Pub Text) (start : Start Priv Text) : KeyServer Priv Pub Text × Outcome :=
  prepareKey pub { dir, name := start.name, writes := start.writes } start.found start.draw

def step (s : KeyServer Priv Pub Text) : Event Priv Text → KeyServer Priv Pub Text
  | .start st =>
    if s.isRunning then s
    else
      -- a start that fails ends the process
      let r := start pub s.dir st
      { r.1 with isRunning := r.2 = .ok }
  | .retryEndpoint endpoint draw writes =>
    if s.isRunning ∧ s.retries then
      let r := { s with writes }.applyEndpointLocked pub endpoint draw
      { r.1 with isRunning := r.2 ≠ .stopped, retries := false }
    else s
  | .rotate found draw writes =>
    if s.isRunning then
      let r := { s with writes }.rotate pub found draw
      { r.1 with isRunning := r.2 ≠ .stopped }
    else s
  | .stop => { s with isRunning := false }

end KeyServer
