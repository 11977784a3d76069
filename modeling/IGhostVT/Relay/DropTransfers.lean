import IGhostVT.Relay.DropStream
import IGhostVT.Relay.DropWrites
import Mathlib.Logic.Function.Basic

/-!
# Relay/DropTransfers — the bytes of the drop zone, from one device's file to another's

The zone with its blobs, the uploads its sessions read, and the downloads they send.  Either end may
be cut off at any point, and goes on in another session: an upload from what the relay counted, a
download from what its partial file holds.

A blob goes by its file's id and keeps its bytes when the name is gone, as an open file does.
Whoever puts or resumes a file sends that file's own stream, `source` being what file each id is of.
A folder's partial file is one for each stem, the first characters of an id.
-/

namespace Relay

/-- A write at a position of a file. -/
def writeAt (blob : List UInt8) (position : ℕ) (bytes : List UInt8) : List UInt8 :=
  blob.takeD position 0 ++ bytes ++ blob.drop (position + bytes.length)

/-- An upload, from either end of its connection. -/
structure DropUpload where
  /-- What the relay had when it began. -/
  offset : ℕ := 0
  /-- Where the blob is written next. -/
  position : ℕ := 0
  /-- The bytes of the chunk being copied that are written. -/
  landed : ℕ := 0
  /-- What the uploader has still to send, the chunk being copied included. -/
  chunks : List (List UInt8) := []
deriving DecidableEq

/-- A download, from either end of its connection. -/
structure DropDownload where
  folder : ℕ
  id : ℕ
  /-- What the partial file goes by. -/
  stem : List Char
  /-- Where the blob is read next. -/
  position : ℕ
  stored : ℕ
  wire : List UInt8 := []
deriving DecidableEq

/-- A file that was put, and the id the relay drew for it. -/
structure DropSource where
  encoding : Drop.Encoding
  content : List UInt8
  idText : List Char

/-- What the names of the partial file and of the lock on it begin with. -/
def DropSource.stem (s : DropSource) : List Char := s.idText.take 8

end Relay

open Relay

structure DropTransfers where
  zone : DropZone
  blobs : ℕ → List UInt8 := fun _ => []
  uploads : ℕ → DropUpload := fun _ => {}
  downloads : ℕ → Option DropDownload := fun _ => none
  /-- The partial files, by folder and stem; one that is not there is empty. -/
  partials : ℕ → List Char → List UInt8 := fun _ _ => []
  locked : ℕ → List Char → Bool := fun _ _ => false
  /-- What each download that came to its end was decoded to, or that it was damaged. -/
  results : List (ℕ × Option (List UInt8)) := []

namespace DropZone

def taskOf (z : DropZone) (conn : ℕ) : Option DropTask :=
  (z.sessions.get? conn).map DropSession.task

end DropZone

namespace DropTransfers

variable (c : Drop.Codec) (source : ℕ → DropSource)

/-- What the relay is to store of a file. -/
def stream (id : ℕ) : List UInt8 := c.stream (source id).encoding (source id).content

/-- What an upload of the file has to send. -/
def unsent (id offset : ℕ) : List (List UInt8) :=
  Drop.resumed offset 0 (Drop.chunks (c.pieces (source id).encoding (source id).content))

/-! ## The uploader -/

/-- What a session's step comes to outside the zone. -/
def follow (t : DropTransfers) (zone : DropZone) (conn : ℕ) :
    DropZone.Action → DropTask → DropTransfers
  | .put _ _ _, .ready =>
    let id := t.zone.ids
    if zone.taskOf conn = some (.uploading id) then
      { t with
        zone
        blobs := Function.update t.blobs id []
        uploads := Function.update t.uploads conn { chunks := unsent c source id 0 } }
    else { t with zone }
  | .resume id, .ready =>
    match t.zone.files.get? id with
    | none => { t with zone }
    | some f =>
      if zone.taskOf conn = some (.reopening id) then
        { t with zone, uploads := Function.update t.uploads conn { offset := f.stored.toNat } }
      else { t with zone }
  | .reopened ok, .reopening id =>
    if ok then
      let u := t.uploads conn
      -- A chunk cut off mid-write left bytes past what was counted.
      { t with
        zone
        blobs := Function.update t.blobs id ((t.blobs id).takeD u.offset 0)
        uploads := Function.update t.uploads conn
          { u with position := u.offset, chunks := unsent c source id u.offset } }
    else { t with zone }
  | .reserve n _, .uploading id =>
    if zone.taskOf conn = some (.copying id n) then
      { t with zone, uploads := Function.update t.uploads conn { t.uploads conn with landed := 0 } }
    else { t with zone }
  | .copied written, .copying _ n =>
    if (written : ℤ) < n then { t with zone }
    else
      let u := t.uploads conn
      { t with zone, uploads := Function.update t.uploads conn { u with chunks := u.chunks.tail } }
  | _, _ => { t with zone }

/-- What the client sends next is its next chunk, or the end of a stream as long as the relay's; a
chunk counts for no more than was written of it.  A session that sends a file does nothing else. -/
def permits (t : DropTransfers) : DropZone.Event → Bool
  | .act conn action =>
    (t.downloads conn).isNone &&
      match action, t.zone.taskOf conn with
      | .reserve n _, _ => (t.uploads conn).chunks.head?.map List.length = some n
      | .copied written, _ => written ≤ (t.uploads conn).landed
      | .commit, some (.uploading id) =>
        (t.uploads conn).chunks = [] ∧ (t.uploads conn).offset ≤ (stream c source id).length
      | .get _ _, _ => false
      | _, _ => true
  | _ => true

def zoneStep (t : DropTransfers) (e : DropZone.Event) : DropTransfers :=
  if permits c source t e then
    let zone := t.zone.step e
    match e with
    | .act conn action =>
      match t.zone.taskOf conn with
      | none => { t with zone }
      | some task => t.follow c source zone conn action task
    | _ => { t with zone }
  else t

/-- Up to `k` more bytes of the chunk are written. -/
def land (t : DropTransfers) (conn k : ℕ) : DropTransfers :=
  match t.zone.taskOf conn with
  | some (.copying id _) =>
    let u := t.uploads conn
    let bytes := ((u.chunks.headD []).drop u.landed).take k
    { t with
      blobs := Function.update t.blobs id (writeAt (t.blobs id) u.position bytes)
      uploads := Function.update t.uploads conn
        { u with position := u.position + bytes.length, landed := u.landed + bytes.length } }
  | _ => t

/-! ## The downloader -/

def setPartial (t : DropTransfers) (folder : ℕ) (stem : List Char) (bytes : List UInt8) :
    DropTransfers :=
  { t with
    partials := Function.update t.partials folder (Function.update (t.partials folder) stem bytes) }

def setLocked (t : DropTransfers) (folder : ℕ) (stem : List Char) (value : Bool) : DropTransfers :=
  { t with locked :=
    Function.update t.locked folder (Function.update (t.locked folder) stem value) }

def setDownload (t : DropTransfers) (conn : ℕ) (dl : Option DropDownload) : DropTransfers :=
  { t with downloads := Function.update t.downloads conn dl }

/-- `download` up to the relay's answer. -/
def fetch (t : DropTransfers) (conn folder id : ℕ) : DropTransfers :=
  let stem := (source id).stem
  if t.zone.taskOf conn = some .ready ∧ t.downloads conn = none ∧
      t.locked folder stem = false then
    match t.zone.files.get? id with
    | none => { t with zone := t.zone.step (.act conn (.get id 0)) }
    | some f =>
      let held := t.partials folder stem
      let held := if (held.length : ℤ) > f.stored then [] else held
      let t := { t.setPartial folder stem held with
        zone := t.zone.step (.act conn (.get id held.length)) }
      if f.complete then
        (t.setLocked folder stem true).setDownload conn
          (some { folder, id, stem, position := held.length, stored := f.stored.toNat })
      else t
  else t

/-- The relay sends up to `k` more bytes. -/
def send (t : DropTransfers) (conn k : ℕ) : DropTransfers :=
  match t.downloads conn with
  | none => t
  | some dl =>
    let bytes := ((t.blobs dl.id).drop dl.position).take (min k (dl.stored - dl.position))
    t.setDownload conn
      (some { dl with position := dl.position + bytes.length, wire := dl.wire ++ bytes })

/-- Up to `k` bytes reach the partial file, and none past the file's end. -/
def receive (t : DropTransfers) (conn k : ℕ) : DropTransfers :=
  match t.downloads conn with
  | none => t
  | some dl =>
    let held := t.partials dl.folder dl.stem
    let bytes := dl.wire.take (min k (dl.stored - held.length))
    (t.setPartial dl.folder dl.stem (held ++ bytes)).setDownload conn
      (some { dl with wire := dl.wire.drop bytes.length })

/-- The download ends short: the link is lost, or the disk fails. -/
def abort (t : DropTransfers) (conn : ℕ) : DropTransfers :=
  match t.downloads conn with
  | none => t
  | some dl => (t.setLocked dl.folder dl.stem false).setDownload conn none

/-- `download` once everything is there: the file is decoded and saved, or the bytes are given
up. -/
def decode (t : DropTransfers) (conn : ℕ) : DropTransfers :=
  match t.downloads conn with
  | none => t
  | some dl =>
    let held := t.partials dl.folder dl.stem
    if held.length < dl.stored then t
    else
      let entry := c.entry (source dl.id).encoding (source dl.id).content
      let t := { t with results := t.results ++ [(dl.id, c.decode entry held)] }
      ((t.setPartial dl.folder dl.stem []).setLocked dl.folder dl.stem false).setDownload conn none

/-! ## Runs -/

inductive Event
  | zone (event : DropZone.Event)
  | land (conn k : ℕ)
  | fetch (conn folder id : ℕ)
  | send (conn k : ℕ)
  | receive (conn k : ℕ)
  | abort (conn : ℕ)
  | decode (conn : ℕ)

def step (t : DropTransfers) : Event → DropTransfers
  | .zone event => t.zoneStep c source event
  | .land conn k => t.land conn k
  | .fetch conn folder id => t.fetch source conn folder id
  | .send conn k => t.send conn k
  | .receive conn k => t.receive conn k
  | .abort conn => t.abort conn
  | .decode conn => t.decode c source conn

end DropTransfers
