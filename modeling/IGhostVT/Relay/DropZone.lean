import IGhostVT.Lib.Dict
import IGhostVT.Lib.Run
import Mathlib.Algebra.Order.BigOperators.Group.List
import Mathlib.Data.Int.Basic

/-!
# Relay/DropZone — files on the relay, and the sessions that put and get them

Every event is one section under the zone's lock, with what its session did before it outside the
lock: opening a blob, reading a chunk, asking the disk for room.  What those come to is the event's
own, so a run is any interleaving of any number of sessions, the sweeper and `close`.

Ids go by the order they were made in, and so are never made twice; a time is a number, and no time
at all is the zero one.
-/

namespace Relay

/-- The limits of a zone that is on. -/
structure DropLimits where
  dropBytes : ℤ
  dropFileBytes : ℤ
  dropFiles : ℕ
  dropConns : ℕ
  dropTTL : ℕ
  dropBytes_pos : 0 < dropBytes
  dropFileBytes_nonneg : 0 ≤ dropFileBytes

inductive DropReason
  | invalid
  | full
  | unknown
  | incomplete
  | busy
  | size
deriving DecidableEq

structure DropFile where
  stored : ℤ := 0
  complete : Bool := false
  /-- Connections that put or got it and are still open. -/
  holders : ℤ := 0
  /-- No time while held. -/
  expires : Option ℕ := none
  /-- A connection is uploading it now. -/
  writing : Bool := false
deriving DecidableEq

/-- Where a session is. -/
inductive DropTask
  /-- Between two requests. -/
  | ready
  /-- Resuming, with the blob still to be opened. -/
  | reopening (id : ℕ)
  | uploading (id : ℕ)
  /-- A chunk is reserved and on its way to the blob. -/
  | copying (id : ℕ) (n : ℤ)
  /-- A chunk was over the file's limit. -/
  | oversized (id : ℕ)
  /-- `put` returns, with `stopWriting` still to run; the session goes on or is closing. -/
  | returning (id : ℕ) (goesOn : Bool)
  | closing
deriving DecidableEq

/-- The file this session is writing. -/
def DropTask.writes : DropTask → Option ℕ
  | .reopening id => some id
  | .uploading id => some id
  | .copying id _ => some id
  | .oversized id => some id
  | .returning id _ => some id
  | _ => none

structure DropSession where
  held : List ℕ := []
  task : DropTask := .ready
deriving DecidableEq

end Relay

open Relay

structure DropZone where
  limits : DropLimits
  files : Dict ℕ DropFile := ∅
  /-- Every file's stored bytes together, reserved ones included. -/
  stored : ℤ := 0
  sessions : Dict ℕ DropSession := ∅
  closed : Bool := false
  /-- How many ids were made. -/
  ids : ℕ := 0
  refused : List (ℕ × DropReason) := []

namespace DropZone

/-! ## The zone -/

def removeLocked (z : DropZone) (id : ℕ) (f : DropFile) : DropZone :=
  { z with files := z.files.erase id, stored := z.stored - f.stored }

/-- A file no connection holds, and whose time has come. -/
def expires (now : ℕ) (f : DropFile) : Bool :=
  f.holders = 0 ∧ f.expires.any fun time => time ≤ now

/-- The sweeper. -/
def expire (z : DropZone) (now : ℕ) : DropZone :=
  z.files.entries.foldl
    (fun z (id, f) => if expires now f then z.removeLocked id f else z) z

def close (z : DropZone) : DropZone :=
  if z.closed then z else { z with closed := true, files := ∅, stored := 0 }

/-! ## Sessions -/

def refuse (z : DropZone) (conn : ℕ) (reason : DropReason) : DropZone :=
  { z with refused := z.refused ++ [(conn, reason)] }

def setSession (z : DropZone) (conn : ℕ) (d : DropSession) : DropZone :=
  { z with sessions := z.sessions.insert conn d }

def goTo (z : DropZone) (conn : ℕ) (d : DropSession) (task : DropTask) : DropZone :=
  z.setSession conn { d with task }

/-- The part of `handleDrop` under the lock. -/
def admitSession (z : DropZone) (conn : ℕ) : DropZone :=
  if (z.sessions.get? conn).isSome then z
  else if ¬ z.closed ∧ z.sessions.keys.length < z.limits.dropConns then z.setSession conn {}
  else z.refuse conn .full

/-- One holder less; a file that no connection holds starts its clock. -/
def release (expires : ℕ) (f : DropFile) : DropFile :=
  let holders := f.holders - 1
  { f with holders, expires := if holders = 0 then some expires else f.expires }

def letGo (expires : ℕ) (z : DropZone) (id : ℕ) : DropZone :=
  match z.files.get? id with
  | none => z
  | some f => { z with files := z.files.insert id (release expires f) }

/-- `end`. -/
def endSession (z : DropZone) (conn : ℕ) (d : DropSession) (now : ℕ) : DropZone :=
  d.held.foldl (letGo (now + z.limits.dropTTL)) { z with sessions := z.sessions.erase conn }

/-- Counts this connection as one of the file's holders, once. -/
def holdLocked (z : DropZone) (conn : ℕ) (d : DropSession) (id : ℕ) (f : DropFile)
    (task : DropTask) :
    DropZone :=
  if id ∈ d.held then { z with files := z.files.insert id f }.goTo conn d task
  else
    { z with files := z.files.insert id { f with holders := f.holders + 1, expires := none }
      }.setSession
      conn { held := id :: d.held, task }

def remove (z : DropZone) (conn id : ℕ) : DropZone :=
  match z.files.get? id with
  | none => z.refuse conn .unknown
  | some f => if f.writing then z.refuse conn .busy else z.removeLocked id f

/-- `put` of a new file whose blob is there. -/
def put (z : DropZone) (conn : ℕ) (d : DropSession) : DropZone :=
  let id := z.ids
  let z := { z with ids := z.ids + 1 }
  if z.closed then z.refuse conn .invalid
  else if z.files.keys.length ≥ z.limits.dropFiles then z.refuse conn .full
  else z.holdLocked conn d id { writing := true } (.uploading id)

def resume (z : DropZone) (conn : ℕ) (d : DropSession) (id : ℕ) : DropZone :=
  match z.files.get? id with
  | none => z.refuse conn .unknown
  | some f =>
    if f.writing then z.refuse conn .busy
    else if f.complete then z.refuse conn .invalid
    else z.holdLocked conn d id { f with writing := true } (.reopening id)

def stopWriting (z : DropZone) (id : ℕ) : DropZone :=
  match z.files.get? id with
  | none => z
  | some f => { z with files := z.files.insert id { f with writing := false } }

/-- Counts a chunk against the file and the zone before it is written. -/
def reserve (z : DropZone) (conn : ℕ) (d : DropSession) (id n : ℕ) (hasRoom : Bool) : DropZone :=
  if ¬ hasRoom then (z.refuse conn .full).goTo conn d (.returning id false)
  else match z.files.get? id with
    | none => (z.refuse conn .unknown).goTo conn d (.returning id false)
    | some f =>
      if f.stored > z.limits.dropFileBytes - n then
        (z.refuse conn .size).goTo conn d (.oversized id)
      else if z.stored > z.limits.dropBytes - n then
        (z.refuse conn .full).goTo conn d (.returning id false)
      else
        { z with
          files := z.files.insert id { f with stored := f.stored + n }
          stored := z.stored + n }.goTo conn d (.copying id n)

def unreserve (z : DropZone) (id : ℕ) (n : ℤ) : DropZone :=
  match z.files.get? id with
  | none => z
  | some f =>
    { z with
      files := z.files.insert id { f with stored := f.stored - n }
      stored := z.stored - n }

/-- A chunk arrived, or was cut after `written` bytes of it. -/
def copied (z : DropZone) (conn : ℕ) (d : DropSession) (id : ℕ) (n : ℤ) (written : ℕ) : DropZone :=
  if written < n then (z.unreserve id (n - written)).goTo conn d (.returning id false)
  else z.goTo conn d (.uploading id)

def commit (z : DropZone) (conn : ℕ) (d : DropSession) (id : ℕ) : DropZone :=
  match z.files.get? id with
  | none => (z.refuse conn .unknown).goTo conn d (.returning id false)
  | some f =>
    { z with files := z.files.insert id { f with complete := true } }.goTo conn d
      (.returning id true)

def get (z : DropZone) (conn : ℕ) (d : DropSession) (id : ℕ) (offset : ℤ) : DropZone :=
  match z.files.get? id with
  | none => z.refuse conn .unknown
  | some f =>
    if ¬ f.complete then z.refuse conn .incomplete
    else if offset < 0 ∨ offset > f.stored then z.refuse conn .invalid
    else z.holdLocked conn d id f .ready

/-! ## Runs -/

/-- What a session does next. -/
inductive Action
  | list
  /-- The name, size, mode, time, encoding and fingerprint are valid, the disk has room, and the
  blob could be made. -/
  | put (valid hasRoom created : Bool)
  | resume (id : ℕ)
  /-- The blob of a resumed file could be opened and cut to what was counted. -/
  | reopened (ok : Bool)
  | reserve (n : ℕ) (hasRoom : Bool)
  | copied (written : ℕ)
  /-- The file that can never be finished goes. -/
  | removeOversized
  | commit
  /-- The upload ends short: an answer cannot be written, or a frame is not read. -/
  | abandon
  | stopWriting
  | get (id : ℕ) (offset : ℤ)
  | remove (id : ℕ)
  | endSession (now : ℕ)

inductive Event
  | admitSession (conn : ℕ)
  | act (conn : ℕ) (action : Action)
  | expire (now : ℕ)
  | close

def act (z : DropZone) (conn : ℕ) (d : DropSession) : Action → DropTask → DropZone
  | .list, .ready => z
  | .put valid hasRoom created, .ready =>
    if ¬ valid then z.refuse conn .invalid
    else if ¬ (hasRoom ∧ created) then z.refuse conn .full
    else z.put conn d
  | .resume id, .ready => z.resume conn d id
  | .reopened ok, .reopening id =>
    if ok then z.goTo conn d (.uploading id)
    else (z.refuse conn .unknown).goTo conn d (.returning id true)
  | .reserve n hasRoom, .uploading id => z.reserve conn d id n hasRoom
  | .copied written, .copying id n => z.copied conn d id n written
  | .removeOversized, .oversized id =>
    (match z.files.get? id with
      | none => z
      | some f => z.removeLocked id f).goTo conn d (.returning id false)
  | .commit, .uploading id => z.commit conn d id
  | .abandon, .uploading id => z.goTo conn d (.returning id false)
  | .stopWriting, .returning id goesOn =>
    (z.stopWriting id).goTo conn d (if goesOn then .ready else .closing)
  | .get id offset, .ready => z.get conn d id offset
  | .remove id, .ready => z.remove conn id
  | .endSession now, .ready => z.endSession conn d now
  | .endSession now, .closing => z.endSession conn d now
  | _, _ => z

def step (z : DropZone) : Event → DropZone
  | .admitSession conn => z.admitSession conn
  | .act conn action =>
    match z.sessions.get? conn with
    | none => z
    | some d => z.act conn d action d.task
  | .expire now => z.expire now
  | .close => z.close

end DropZone
