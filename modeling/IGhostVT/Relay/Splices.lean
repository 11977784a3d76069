import IGhostVT.Lib.Dict
import IGhostVT.Lib.Run

/-!
# Relay/Splices — a client, the ticket it waits under, and the host leg that takes it

A client's connection is a splice from its first record on: offered to a host as a ticket, claimed
by an accept, attached to the accepting connection, finished once.  Every event here is one section
under the server's lock or the splice's, or one read or write outside both, so a run is any
interleaving of clients, accepts, timers and hosts coming and going.

Hosts' control connections and tickets go by the order they were made in.  A connection that failed
a write takes no more bytes.
-/

namespace Relay

structure SpliceLimits where
  ticketsPerHost : ℕ
  splices : ℤ
  pendingBytes : ℕ

/-- A host's control connection, and the tickets it was offered and has not accepted. -/
structure TicketHost (ID Pub : Type) where
  id : ID
  pub : Pub
  tickets : List ℕ := []

/-- The accepted connection, with all that was written to it. -/
structure Leg where
  written : List UInt8
  isBroken : Bool := false

/-- How far `finish` has come. -/
inductive Finish
  | idle
  | called
  /-- Past the server's lock: the slot is free. -/
  | freed
  /-- Past the splice's own. -/
  | done
deriving DecidableEq

structure Splice where
  host : ℕ
  /-- All the client has sent, and what of it is still to be read.  The first is not the
  program's. -/
  sent : List UInt8
  unread : List UInt8
  /-- Client bytes read before the accept. -/
  pending : List UInt8
  /-- What `readClient` has read last, until it is held or written. -/
  inHand : List UInt8 := []
  isReading : Bool := true
  leg : Option Leg := none
  timer : Bool := true
  finish : Finish := .idle
  /-- Both legs are closed. -/
  isClosed : Bool := false
  /-- An accept took the ticket.  Not the program's. -/
  isClaimed : Bool := false

/-- It holds one of the slots. -/
def Splice.isUnfinished (sp : Splice) : Bool := sp.finish = .idle ∨ sp.finish = .called

def Splice.isOffered (sp : Splice) : Bool := sp.isUnfinished ∧ ¬ sp.isClaimed

/-- What a connection that asked to accept a ticket has come to. -/
inductive Accept (RelayID Sig : Type)
  | looked (ticket : ℕ) (hostSig : Sig)
  | verified (ticket : ℕ) (hostSig : Sig) (relayID : RelayID)
  | claimed (ticket : ℕ)
  | refused
  | attached

/-- A ticket taken, and the signature it was taken with. -/
structure Claim (RelayID Sig : Type) where
  ticket : ℕ
  hostSig : Sig
  relayID : RelayID

/-- `ReadRecord`: one whole TLS record, header included, and what is left behind it. -/
def readRecord (input : List UInt8) : Option (List UInt8 × List UInt8) :=
  match input with
  | b₀ :: _ :: _ :: b₃ :: b₄ :: _ =>
    let n := b₃.toNat * 256 + b₄.toNat
    if b₀ ≠ 0x16 ∨ n = 0 ∨ n > 16384 ∨ input.length < 5 + n then none
    else some (input.take (5 + n), input.drop (5 + n))
  | _ => none

/-- The frame that answers an accept: its length, and an object that says `ok`. -/
def okFrame : List UInt8 :=
  [0, 0, 0, 11, 0x7b, 0x22, 0x6f, 0x6b, 0x22, 0x3a, 0x74, 0x72, 0x75, 0x65, 0x7d]

end Relay

open Relay

structure SpliceServer (ID Pub RelayID Sig : Type) [LinearOrder ID] where
  limits : SpliceLimits
  relayID : RelayID
  hosts : Dict ID ℕ := ∅
  conns : Dict ℕ (TicketHost ID Pub) := ∅
  tickets : List ℕ := []
  splices : ℤ := 0
  closed : Bool := false
  accepts : Dict ℕ (Accept RelayID Sig) := ∅
  /-- Every splice there ever was, by its ticket, and how many hosts and tickets were made. -/
  all : Dict ℕ Splice := ∅
  hostsMade : ℕ := 0
  ticketsMade : ℕ := 0
  claims : List (Claim RelayID Sig) := []

namespace SpliceServer

variable {ID Pub RelayID Sig : Type} [LinearOrder ID]

/-- A step of one splice. -/
def modify (s : SpliceServer ID Pub RelayID Sig) (ticket : ℕ) (f : Splice → Splice) :
    SpliceServer ID Pub RelayID Sig :=
  match s.all.get? ticket with
  | none => s
  | some sp => { s with all := s.all.insert ticket (f sp) }

/-- Takes a ticket off its host's list. -/
def unlist (conns : Dict ℕ (TicketHost ID Pub)) (ticket host : ℕ) : Dict ℕ (TicketHost ID Pub) :=
  match conns.get? host with
  | none => conns
  | some h => conns.insert host { h with tickets := h.tickets.filter fun t => t ≠ ticket }

/-! ## Hosts -/

def register (s : SpliceServer ID Pub RelayID Sig) (id : ID) (pub : Pub) :
    SpliceServer ID Pub RelayID Sig :=
  { s with
    hosts := s.hosts.insert id s.hostsMade
    conns := s.conns.insert s.hostsMade { id, pub }
    hostsMade := s.hostsMade + 1 }

/-! ## The client's half -/

/-- `finish` is called: by the ticket's timer, by either half as it ends, or as the host goes.  The
first call counts. -/
def callFinish (sp : Splice) : Splice :=
  if sp.finish = .idle then { sp with finish := .called } else sp

/-- The part of `handleData` under the lock, with the record it read before. -/
def handleData (hostID : List UInt8 → Option ID) (s : SpliceServer ID Pub RelayID Sig)
    (input : List UInt8) : SpliceServer ID Pub RelayID Sig :=
  match readRecord input with
  | none => s
  | some (record, rest) =>
    match hostID record with
    | none => s
    | some id =>
      let ticket := s.ticketsMade
      let s := { s with ticketsMade := s.ticketsMade + 1 }
      match s.hosts.get? id with
      | none => s
      | some host =>
        match s.conns.get? host with
        | none => s
        | some h =>
          if h.tickets.length ≥ s.limits.ticketsPerHost ∨ s.splices ≥ s.limits.splices ∨
            s.closed then s
          else
            { s with
              splices := s.splices + 1
              tickets := s.tickets ++ [ticket]
              conns := s.conns.insert host { h with tickets := h.tickets ++ [ticket] }
              all :=
                s.all.insert ticket { host, sent := input, unread := rest, pending := record } }

/-- A read of at most `n` bytes. -/
def read (n : ℕ) (sp : Splice) : Splice :=
  if sp.isReading ∧ sp.inHand = [] ∧ ¬ sp.isClosed then
    { sp with inHand := sp.unread.take n, unread := sp.unread.drop n }
  else sp

/-- What was read is held before the accept, if it is not too much. -/
def hold (pendingBytes : ℕ) (sp : Splice) : Splice :=
  if sp.isReading ∧ sp.leg.isNone then
    if sp.pending.length + sp.inHand.length > pendingBytes then
      callFinish { sp with isReading := false }
    else { sp with pending := sp.pending ++ sp.inHand, inHand := [] }
  else sp

/-- What was read is written to the host, or `n` bytes of it. -/
def write (n : ℕ) (sp : Splice) : Splice :=
  match sp.leg with
  | none => sp
  | some leg =>
    if ¬ sp.isReading then sp
    else if leg.isBroken then callFinish { sp with isReading := false }
    else if n < sp.inHand.length then
      callFinish { sp with
        isReading := false
        leg := some { written := leg.written ++ sp.inHand.take n, isBroken := true } }
    else { sp with inHand := [], leg := some { leg with written := leg.written ++ sp.inHand } }

/-- The client went away, or a half of the splice ended. -/
def endReading (sp : Splice) : Splice := callFinish { sp with isReading := false }

/-! ## `finish` -/

def fireTimer (sp : Splice) : Splice := if sp.timer then callFinish sp else sp

def finishFree (s : SpliceServer ID Pub RelayID Sig) (ticket : ℕ) :
    SpliceServer ID Pub RelayID Sig :=
  match s.all.get? ticket with
  | none => s
  | some sp =>
    if sp.finish ≠ .called then s
    else
      { s with
        tickets := s.tickets.filter fun t => t ≠ ticket
        splices := s.splices - 1
        conns := unlist s.conns ticket sp.host
        all := s.all.insert ticket { sp with finish := .freed, timer := false } }

/-- No leg is attached any more. -/
def finishDone (sp : Splice) : Splice :=
  if sp.finish = .freed then { sp with finish := .done } else sp

def closeLegs (sp : Splice) : Splice :=
  if sp.finish = .done then
    { sp with isClosed := true, leg := sp.leg.map fun leg => { leg with isBroken := true } }
  else sp

/-- Forgets a registration, if it is still the current one, and ends every ticket it was offered. -/
def dropHost (s : SpliceServer ID Pub RelayID Sig) (host : ℕ) : SpliceServer ID Pub RelayID Sig :=
  match s.conns.get? host with
  | none => s
  | some h =>
    let s := if s.hosts.get? h.id = some host then { s with hosts := s.hosts.erase h.id } else s
    h.tickets.foldl (fun s ticket => s.modify ticket callFinish) s

/-! ## Accepts -/

def setAccept (s : SpliceServer ID Pub RelayID Sig) (conn : ℕ) (a : Accept RelayID Sig) :
    SpliceServer ID Pub RelayID Sig :=
  { s with accepts := s.accepts.insert conn a }

/-- `accept`, and the first half of `claim`. -/
def accept (s : SpliceServer ID Pub RelayID Sig) (conn ticket : ℕ) (hostSig : Sig) :
    SpliceServer ID Pub RelayID Sig :=
  if (s.accepts.get? conn).isSome then s
  else if ticket ∈ s.tickets then s.setAccept conn (.looked ticket hostSig)
  else s.setAccept conn .refused

/-- The signature is checked with the key of the host the ticket was offered to, outside the
lock. -/
def acceptVerify (verify : Pub → RelayID → ℕ → Sig → Bool) (s : SpliceServer ID Pub RelayID Sig)
    (conn : ℕ) : SpliceServer ID Pub RelayID Sig :=
  match s.accepts.get? conn with
  | some (.looked ticket hostSig) =>
    let isSigned := ((s.all.get? ticket).bind fun sp => s.conns.get? sp.host).any fun h =>
      verify h.pub s.relayID ticket hostSig
    s.setAccept conn (if isSigned then .verified ticket hostSig s.relayID else .refused)
  | _ => s

/-- The second half of `claim`, under the lock again. -/
def acceptClaim (s : SpliceServer ID Pub RelayID Sig) (conn : ℕ) :
    SpliceServer ID Pub RelayID Sig :=
  match s.accepts.get? conn with
  | some (.verified ticket hostSig relayID) =>
    match s.all.get? ticket with
    | none => s.setAccept conn .refused
    | some sp =>
      if ticket ∉ s.tickets then s.setAccept conn .refused
      else
        { s with
          tickets := s.tickets.filter fun t => t ≠ ticket
          claims := s.claims ++ [Claim.mk ticket hostSig relayID]
          conns := unlist s.conns ticket sp.host
          all := s.all.insert ticket { sp with timer := false, isClaimed := true } }.setAccept
            conn (.claimed ticket)
  | _ => s

/-- `attach`: the `ok` frame and every client byte held so far are written, or `n` bytes of them. -/
def attachLeg (n : ℕ) (sp : Splice) : Splice :=
  let out := okFrame ++ sp.pending
  if n < out.length then
    callFinish { sp with leg := some { written := out.take n, isBroken := true } }
  else { sp with pending := [], leg := some { written := out } }

def attach (s : SpliceServer ID Pub RelayID Sig) (conn n : ℕ) : SpliceServer ID Pub RelayID Sig :=
  match s.accepts.get? conn with
  | some (.claimed ticket) =>
    match s.all.get? ticket with
    | none => s
    | some sp =>
      if sp.finish = .done then s.setAccept conn .refused
      else (s.modify ticket (attachLeg n)).setAccept conn .attached
  | _ => s

/-! ## Runs -/

inductive Event (ID Pub RelayID Sig : Type)
  | register (id : ID) (pub : Pub)
  | dropHost (host : ℕ)
  | setRelayID (relayID : RelayID)
  | close
  | handleData (input : List UInt8)
  | clientSends (ticket : ℕ) (bytes : List UInt8)
  | read (ticket n : ℕ)
  | hold (ticket : ℕ)
  | write (ticket n : ℕ)
  | endReading (ticket : ℕ)
  | fireTimer (ticket : ℕ)
  /-- The host's half of the splice ended. -/
  | copyEnds (ticket : ℕ)
  | finishFree (ticket : ℕ)
  | finishDone (ticket : ℕ)
  | closeLegs (ticket : ℕ)
  | accept (conn ticket : ℕ) (hostSig : Sig)
  | acceptVerify (conn : ℕ)
  | acceptClaim (conn : ℕ)
  | attach (conn n : ℕ)

/-- More from the client. -/
def arrive (bytes : List UInt8) (sp : Splice) : Splice :=
  { sp with sent := sp.sent ++ bytes, unread := sp.unread ++ bytes }

def step (hostID : List UInt8 → Option ID) (verify : Pub → RelayID → ℕ → Sig → Bool)
    (s : SpliceServer ID Pub RelayID Sig) :
    Event ID Pub RelayID Sig → SpliceServer ID Pub RelayID Sig
  | .register id pub => s.register id pub
  | .dropHost host => s.dropHost host
  | .setRelayID relayID => { s with relayID }
  | .close => { s with closed := true }
  | .handleData input => s.handleData hostID input
  | .clientSends ticket bytes => s.modify ticket (arrive bytes)
  | .read ticket n => s.modify ticket (read n)
  | .hold ticket => s.modify ticket (hold s.limits.pendingBytes)
  | .write ticket n => s.modify ticket (write n)
  | .endReading ticket => s.modify ticket endReading
  | .fireTimer ticket => s.modify ticket fireTimer
  | .copyEnds ticket => s.modify ticket callFinish
  | .finishFree ticket => s.finishFree ticket
  | .finishDone ticket => s.modify ticket finishDone
  | .closeLegs ticket => s.modify ticket closeLegs
  | .accept conn ticket hostSig => s.accept conn ticket hostSig
  | .acceptVerify conn => s.acceptVerify verify conn
  | .acceptClaim conn => s.acceptClaim conn
  | .attach conn n => s.attach conn n

end SpliceServer
