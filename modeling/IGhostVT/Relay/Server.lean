import IGhostVT.Lib.Dict
import IGhostVT.Lib.Run

/-!
# Relay/Server — who the relay lets in: hosts, drop sessions, and the key they prove

A request's signature is checked against the key of the moment, outside any lock; what it asks for
is done later, under one.  Every event here is one such locked section (or one close of a
connection), so a run is any interleaving of registrations, drop sessions, `Forget` and `Rotate`,
with the relay stopped and started again at any point.

Connections go by numbers of their own, and keys by the order they were made in: an older key is a
smaller number.
-/

namespace Relay

structure Limits where
  hosts : ℕ
  dropConns : ℕ
  /-- Zero turns the drop zone off. -/
  dropBytes : ℕ

/-- Why a request is refused. -/
inductive Reason
  | invalid
  | auth
  | hostKey
  | full
deriving DecidableEq

inductive Answer
  | ok
  | refused (reason : Reason)
deriving DecidableEq

structure Binding (Key : Type) where
  hostKey : Key
  boundAt : ℕ
deriving DecidableEq

/-- A registered host's control connection, and what its request was verified under. -/
structure HostConn (Key : Type) where
  conn : ℕ
  hostKey : Key
  relayKey : ℕ
  gen : ℕ
deriving DecidableEq

/-- A registration whose two signatures verified, on its way to the lock. -/
structure Registration (ID Key : Type) where
  id : ID
  hostKey : Key
  relayKey : ℕ
  gen : ℕ

inductive DropPhase
  | verified
  | admitted
  | checked
  | welcomed
  | refused
  | ended
deriving DecidableEq

/-- A drop connection whose signature verified. -/
structure DropConn where
  relayKey : ℕ
  gen : ℕ
  phase : DropPhase := .verified
  isClosed : Bool := false
deriving DecidableEq

/-- What whoever holds `keyMu` has still to do. -/
inductive KeyWork (ID Key : Type)
  /-- The files are written; a rotation also drops everyone. -/
  | installs (key : ℕ) (rotates : Bool)
  | dropsHosts (hosts : List (ID × HostConn Key))
  | closesConns (conns : List ℕ)

end Relay

open Relay

structure RelayServer (ID Key : Type) [LinearOrder ID] where
  limits : Limits
  /-- The key requests are checked with, once there is one. -/
  relayKey : Option ℕ := none
  /-- Bumped by a rotation. -/
  keyGen : ℕ := 0
  bindings : Dict ID (Binding Key) := ∅
  hosts : Dict ID (HostConn Key) := ∅
  closed : Bool := false
  keyWork : Option (KeyWork ID Key) := none
  registrations : Dict ℕ (Registration ID Key) := ∅
  /-- The drop zone's open connections, and all that were verified. -/
  sessions : List ℕ := []
  drops : Dict ℕ DropConn := ∅
  /-- `hosts.json`, and the key of `relay.json`. -/
  savedBindings : Dict ID (Binding Key) := ∅
  savedKey : Option ℕ := none
  /-- How many keys were made, and the one the last rotation that returned installed.  Not the
  program's, as is all below. -/
  keys : ℕ := 0
  rotated : ℕ := 0
  /-- The first host key that registered an id, since the id was last forgotten. -/
  owners : Dict ID Key := ∅
  answers : List (ℕ × Answer) := []
  /-- The answers to `Forget`: whether it succeeded. -/
  forgotten : List (ID × Bool) := []
  served : List ℕ := []

namespace RelayServer

variable {ID Key : Type} [LinearOrder ID] [DecidableEq Key]

def answer (s : RelayServer ID Key) (conn : ℕ) (answer : Answer) : RelayServer ID Key :=
  { s with answers := s.answers ++ [(conn, answer)] }

/-! ## Hosts -/

/-- The first half of `register`: the signatures.  `verifies` says whether the request's own
verifies under the relay's key, `hostVerifies` whether the host's does under the host key. -/
def verify (s : RelayServer ID Key) (conn : ℕ) (id : Option ID) (hostKey : Option Key)
    (verifies hostVerifies : Bool) : RelayServer ID Key :=
  match id with
  | none => s.answer conn (.refused .invalid)
  | some id =>
    match s.relayKey with
    | none => s.answer conn (.refused .auth)
    | some relayKey =>
      if ¬ verifies then s.answer conn (.refused .auth)
      else match hostKey with
        | none => s.answer conn (.refused .invalid)
        | some hostKey =>
          if ¬ hostVerifies then s.answer conn (.refused .hostKey)
          else
            { s with
              registrations := s.registrations.insert conn
                { id, hostKey, relayKey, gen := s.keyGen } }

/-- Why the lock is taken in vain. -/
def refusal (s : RelayServer ID Key) (r : Registration ID Key) : Option Reason :=
  if s.closed then some .invalid
  else if r.gen ≠ s.keyGen then some .auth
  else if (s.bindings.get? r.id).any fun binding => binding.hostKey ≠ r.hostKey then some .hostKey
  else if (s.hosts.get? r.id).isNone ∧ s.hosts.keys.length ≥ s.limits.hosts then some .full
  else none

/-- The host is there: its answer is written, and an earlier connection of its id is not the host's
any more. -/
def enter (s : RelayServer ID Key) (conn : ℕ) (r : Registration ID Key) : RelayServer ID Key :=
  { s with
    hosts := s.hosts.insert r.id
      { conn, hostKey := r.hostKey, relayKey := r.relayKey, gen := r.gen }
    owners :=
      if (s.owners.get? r.id).isNone then s.owners.insert r.id r.hostKey else s.owners }.answer
      conn .ok

/-- The second half of `register`, under the lock; `saves` says whether the bindings can be
written. -/
def register (s : RelayServer ID Key) (conn : ℕ) (now : ℕ) (saves : Bool) : RelayServer ID Key :=
  match s.registrations.get? conn with
  | none => s
  | some r =>
    let s := { s with registrations := s.registrations.erase conn }
    match s.refusal r with
    | some reason => s.answer conn (.refused reason)
    | none =>
      if (s.bindings.get? r.id).isSome then s.enter conn r
      else
        let bindings := s.bindings.insert r.id { hostKey := r.hostKey, boundAt := now }
        if saves then { s with bindings, savedBindings := bindings }.enter conn r
        else { s with bindings := bindings.erase r.id }.answer conn (.refused .invalid)

/-- Forgets a registration, if it is still the current one. -/
def dropHost (s : RelayServer ID Key) (id : ID) (conn : ℕ) : RelayServer ID Key :=
  if (s.hosts.get? id).any fun h => h.conn = conn then { s with hosts := s.hosts.erase id } else s

/-- Removes an id's binding.  The host, if it is online, is dropped after. -/
def forget (s : RelayServer ID Key) (id : ID) (saves : Bool) : RelayServer ID Key :=
  let isBound := (s.bindings.get? id).isSome
  let s :=
    if isBound then
      let bindings := s.bindings.erase id
      { s with bindings, savedBindings := if saves then bindings else s.savedBindings }
    else s
  let succeeds := ¬ isBound ∨ saves
  { s with
    owners := if succeeds then s.owners.erase id else s.owners
    forgotten := s.forgotten ++ [(id, decide succeeds)] }

/-! ## Drop sessions -/

def dropVerify (s : RelayServer ID Key) (conn : ℕ) (verifies : Bool) : RelayServer ID Key :=
  match s.relayKey with
  | none => s.answer conn (.refused .auth)
  | some relayKey =>
    if ¬ verifies then s.answer conn (.refused .auth)
    else if s.limits.dropBytes = 0 then s.answer conn (.refused .invalid)
    -- a connection asks once
    else if (s.drops.get? conn).isSome then s
    else { s with drops := s.drops.insert conn { relayKey, gen := s.keyGen } }

def dropAdmit (s : RelayServer ID Key) (conn : ℕ) : RelayServer ID Key :=
  match s.drops.get? conn with
  | none => s
  | some d =>
    if d.phase ≠ .verified then s
    else if ¬ s.closed ∧ s.sessions.length < s.limits.dropConns then
      { s with
        sessions := s.sessions ++ [conn]
        drops := s.drops.insert conn { d with phase := .admitted } }
    else
      { s with drops := s.drops.insert conn { d with phase := .refused, isClosed := true } }.answer
        conn (.refused .full)

/-- A rotation that ran since the signature was checked may have ended the sessions it could see,
and not this one. -/
def dropCheck (s : RelayServer ID Key) (conn : ℕ) : RelayServer ID Key :=
  match s.drops.get? conn with
  | none => s
  | some d =>
    if d.phase ≠ .admitted then s
    else if d.gen ≠ s.keyGen then
      { s with drops := s.drops.insert conn { d with phase := .refused, isClosed := true } }.answer
        conn (.refused .auth)
    else { s with drops := s.drops.insert conn { d with phase := .checked } }

/-- The welcome, unless it cannot be written. -/
def dropWelcome (s : RelayServer ID Key) (conn : ℕ) : RelayServer ID Key :=
  match s.drops.get? conn with
  | none => s
  | some d =>
    if d.phase ≠ .checked then s
    else if d.isClosed then { s with drops := s.drops.insert conn { d with phase := .ended } }
    else { s with drops := s.drops.insert conn { d with phase := .welcomed } }.answer conn .ok

/-- One request of a session. -/
def dropServe (s : RelayServer ID Key) (conn : ℕ) : RelayServer ID Key :=
  match s.drops.get? conn with
  | none => s
  | some d =>
    if d.phase = .welcomed ∧ ¬ d.isClosed then { s with served := s.served ++ [conn] } else s

def closeConn (s : RelayServer ID Key) (conn : ℕ) : RelayServer ID Key :=
  match s.drops.get? conn with
  | none => s
  | some d => { s with drops := s.drops.insert conn { d with isClosed := true } }

/-- `end`: the connection is closed, and no session of the zone's any more. -/
def dropEnd (s : RelayServer ID Key) (conn : ℕ) : RelayServer ID Key :=
  match s.drops.get? conn with
  | none => s
  | some d =>
    { s with
      sessions := s.sessions.filter fun c => c ≠ conn
      drops := s.drops.insert conn { d with phase := .ended, isClosed := true } }

/-! ## Keys -/

/-- A key is made and both its files are written: the relay's first, or a rotation's. -/
def saveKey (s : RelayServer ID Key) (rotates : Bool) : RelayServer ID Key :=
  if s.keyWork.isNone ∧ (rotates ∨ s.savedKey.isNone) then
    { s with
      keys := s.keys + 1
      savedKey := some (s.keys + 1)
      keyWork := some (.installs (s.keys + 1) rotates) }
  else s

/-- The next thing whoever holds `keyMu` does. -/
def advanceKeyWork (s : RelayServer ID Key) : RelayServer ID Key :=
  match s.keyWork with
  | none => s
  | some (.installs key false) => { s with relayKey := some key, keyWork := none }
  | some (.installs key true) =>
    { s with
      relayKey := some key
      keyGen := s.keyGen + 1
      keyWork := some (.dropsHosts s.hosts.entries) }
  | some (.dropsHosts ((id, h) :: hosts)) =>
    { s.dropHost id h.conn with keyWork := some (.dropsHosts hosts) }
  -- `endSessions`
  | some (.dropsHosts []) => { s with keyWork := some (.closesConns s.sessions) }
  | some (.closesConns (conn :: conns)) =>
    { s.closeConn conn with keyWork := some (.closesConns conns) }
  | some (.closesConns []) => { s with keyWork := none, rotated := s.relayKey.getD 0 }

/-- The process stops, at any point, and is started again. -/
def restart (s : RelayServer ID Key) : RelayServer ID Key :=
  { limits := s.limits
    relayKey := s.savedKey
    bindings := s.savedBindings
    savedBindings := s.savedBindings
    savedKey := s.savedKey
    keys := s.keys
    rotated := s.rotated
    owners := s.owners
    answers := s.answers
    forgotten := s.forgotten
    served := s.served }

/-! ## Runs -/

inductive Event (ID Key : Type)
  | verify (conn : ℕ) (id : Option ID) (hostKey : Option Key) (verifies hostVerifies : Bool)
  | register (conn now : ℕ) (saves : Bool)
  /-- A host went quiet or away, or was superseded or forgotten. -/
  | dropHost (id : ID) (conn : ℕ)
  | forget (id : ID) (saves : Bool)
  | dropVerify (conn : ℕ) (verifies : Bool)
  | dropAdmit (conn : ℕ)
  | dropCheck (conn : ℕ)
  | dropWelcome (conn : ℕ)
  | dropServe (conn : ℕ)
  /-- The other end closed it. -/
  | closeConn (conn : ℕ)
  | dropEnd (conn : ℕ)
  | saveKey (rotates : Bool)
  | advanceKeyWork
  | close
  | restart

def step (s : RelayServer ID Key) : Event ID Key → RelayServer ID Key
  | .verify conn id hostKey verifies hostVerifies => s.verify conn id hostKey verifies hostVerifies
  | .register conn now saves => s.register conn now saves
  | .dropHost id conn => s.dropHost id conn
  | .forget id saves => s.forget id saves
  | .dropVerify conn verifies => s.dropVerify conn verifies
  | .dropAdmit conn => s.dropAdmit conn
  | .dropCheck conn => s.dropCheck conn
  | .dropWelcome conn => s.dropWelcome conn
  | .dropServe conn => s.dropServe conn
  | .closeConn conn => s.closeConn conn
  | .dropEnd conn => s.dropEnd conn
  | .saveKey rotates => s.saveKey rotates
  | .advanceKeyWork => s.advanceKeyWork
  | .close => { s with closed := true }
  | .restart => s.restart

end RelayServer
