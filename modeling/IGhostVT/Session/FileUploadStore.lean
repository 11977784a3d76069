import IGhostVT.Lib.Dict

/-!
# Session/FileUploadStore — files a client copies onto the host

`FileUploadStore` receives files in parts.  An upload belongs to no peer: parts of it may come over
any link, out of order and again, and what is here already is skipped.  `PeerSession.uploadFile` is
the request that begins, feeds, asks about and cancels uploads.

`none` where a result is an `Option` is Swift's arithmetic trap.  What the file system and the clock
say is the `World` an operation runs in.
-/

/-- What one `pwrite` came to. -/
inductive PwriteOutcome
  /-- The kernel took `count + 1` bytes, or all there were. -/
  | wrote (count : ℕ)
  /-- `EINTR`. -/
  | interrupted
  | failed
deriving DecidableEq

namespace FileUploadStore

def maximumUploadByteCount : ℕ := 4 * 2 ^ 30
def maximumPendingUploadCount : ℕ := 16
def uploadChunkByteCount : ℕ := 256 * 1024
def maximumMessageDataByteCount : ℕ := 2 ^ 20

/-- How long an upload waits for its client, in seconds. -/
def idleLifetime : ℕ := 15 * 60
/-- Room left on the volume after a file. -/
def reservedByteCount : ℕ := 2 ^ 30

structure Upload where
  path : String
  name : String
  size : ℕ
  received : ℕ := 0
  /-- When the last part was written. -/
  lastProgress : ℕ
deriving DecidableEq

structure Finished where
  size : ℕ
  path : String
  name : String
deriving DecidableEq

/-- What an upload request is answered with. -/
inductive Code
  | success
  | invalidRequest
  | unknownSession
  | operationFailed
deriving DecidableEq

/-- What an operation finds outside the store. -/
structure World where
  now : ℕ
  /-- The upload folder's path; `none` when it is not this process's alone, `some none` when it has
  no name. -/
  root : Option (Option String)
  /-- The directories older than a day. -/
  isStale : ℕ → Bool
  /-- Free bytes on the volume, when it says. -/
  free : Option ℕ
  /-- The random ids, in the order they are drawn. -/
  drawn : List ℕ
  /-- `mkdirat` fails, whatever the name. -/
  mkdirFails : Bool
  directoryOpens : Bool
  /-- Why the file could not be created. -/
  creationError : Option String
  /-- What the `pwrite`s come to; after the last of these the kernel takes what is left at once. -/
  pwrites : List PwriteOutcome
  /-- A directory that is removed goes whole. -/
  removesTree : Bool

end FileUploadStore

open FileUploadStore in
/-- The uploads, and the files in the directories named for their ids. -/
structure FileUploadStore where
  uploads : Dict ℕ Upload := ∅
  finished : Dict ℕ Finished := ∅
  finishedOrder : List ℕ := []
  disk : ℕ → Option (List UInt8) := fun _ => none

namespace FileUploadStore

/-! ## The file system -/

/-- A file after a write at `position`; a hole reads as zeros. -/
def pwrite (file : List UInt8) (position : ℕ) (bytes : List UInt8) : List UInt8 :=
  file.take position ++ List.replicate (position - file.length) 0 ++ bytes
    ++ file.drop (position + bytes.length)

/-- The loop that hands `buffer`, from `done` on, to the kernel: the file it leaves, and whether all
of it was written.  `off_t(offset) + off_t(done)` traps past `2 ^ 63`. -/
def writeLoop (buffer : List UInt8) (offset : ℕ) :
    List PwriteOutcome → ℕ → List UInt8 → Option (List UInt8 × Bool)
  | [], done, file =>
    if done < buffer.length then
      if offset + done < 2 ^ 63 then some (pwrite file (offset + done) (buffer.drop done), true)
      else none
    else some (file, true)
  | outcome :: rest, done, file =>
    if done < buffer.length then
      if offset + done < 2 ^ 63 then
        match outcome with
        | .failed => some (file, false)
        | .interrupted => writeLoop buffer offset rest done file
        | .wrote count =>
          let result := min (count + 1) (buffer.length - done)
          writeLoop buffer offset rest (done + result)
            (pwrite file (offset + done) ((buffer.drop done).take result))
      else none
    else some (file, true)

/-- Removes a directory and the file in it, when that works. -/
def removeTree (store : FileUploadStore) (world : World) (id : ℕ) : FileUploadStore :=
  if world.root.isSome ∧
    world.removesTree then { store with disk := Function.update store.disk id none }
  else store

/-- Removes what earlier uploads left once it is a day old. -/
def sweep (store : FileUploadStore) (world : World) : FileUploadStore :=
  { store with disk := fun id =>
      if (store.uploads.get? id).isNone ∧ world.isStale id ∧ world.removesTree then none
      else store.disk id }

/-! ## The store -/

/-- How much of the file is here; a finished upload answers its size. -/
def received (store : FileUploadStore) (id : ℕ) : Option ℕ :=
  ((store.uploads.get? id).map Upload.received).or ((store.finished.get? id).map Finished.size)

def cancel (store : FileUploadStore) (world : World) (id : ℕ) : FileUploadStore :=
  match store.uploads.get? id with
  | none => store
  | some _ => { store with uploads := store.uploads.erase id }.removeTree world id

/-- The upload is closed and stays for the shell; 64 finished ones are remembered. -/
def finish (store : FileUploadStore) (id : ℕ) : FileUploadStore :=
  match store.uploads.get? id with
  | none => store
  | some upload =>
    let finished := store.finished.insert id ⟨upload.size, upload.path, upload.name⟩
    let order := store.finishedOrder ++ [id]
    if 64 < order.length then
      { store with
        uploads := store.uploads.erase id
        finished := finished.erase order.head!
        finishedOrder := order.tail }
    else
      { store with uploads := store.uploads.erase id, finished, finishedOrder := order }

/-- Gives up what has heard nothing for `idleLifetime`. -/
def expireIdle (store : FileUploadStore) (world : World) : FileUploadStore :=
  (store.uploads.entries.filter fun entry => entry.2.lastProgress + idleLifetime < world.now).foldl
    (fun store entry => store.cancel world entry.1) store

structure Begun where
  id : ℕ
  path : String
deriving DecidableEq

/-- What a begin under an id that is known is answered: the same again, or that the id is in use. -/
def beginAgain (store : FileUploadStore) (name : String) (size : ℕ) (requestedID : Option ℕ) :
    Option (Except (Code × String) Begun) := do
  let id ← requestedID
  match store.uploads.get? id with
  | some upload =>
    if upload.name = name ∧ upload.size = size then return .ok ⟨id, upload.path⟩
    else return .error (.invalidRequest, "That upload id is in use.")
  | none =>
    let done ← store.finished.get? id
    if done.name = name ∧ done.size = size then return .ok ⟨id, done.path⟩
    else return .error (.invalidRequest, "That upload id is in use.")

/-- The folder a new upload goes to, or why there can be none. -/
def folder (store : FileUploadStore) (world : World) (size : ℕ) : Except (Code × String) String :=
  if ¬ size ≤ maximumUploadByteCount then
    .error (.invalidRequest, "The file is larger than the host accepts.")
  else if ¬ store.uploads.entries.length < maximumPendingUploadCount then
    .error (.operationFailed, "Too many files are being copied to the host at once.")
  else match world.root with
    | none => .error (.operationFailed, "The host has no safe folder to receive the file in.")
    | some none => .error (.operationFailed, "The host could not name its upload folder.")
    | some (some root) => .ok root

/-- The directory a new upload is made in: the one asked for, or the first drawn that is free.  The
code draws until there is one; the draws of a `World` may end before. -/
def makeDirectory (store : FileUploadStore) (world : World) : Option ℕ → Option ℕ
  | some id => if (store.disk id).isNone ∧ ¬ world.mkdirFails then some id else none
  | none =>
    if world.mkdirFails then none else world.drawn.find? fun id => (store.disk id).isNone

/-- The id of a file just made, or why there is none. -/
def makeFile (store : FileUploadStore) (world : World) (size : ℕ) (requestedID : Option ℕ) :
    Except (Code × String) ℕ :=
  if world.free.any fun free => ¬ (reservedByteCount < free ∧ size ≤ free - reservedByteCount) then
    .error (.operationFailed, "The other device does not have enough free space.")
  else match store.makeDirectory world requestedID with
    | none => .error (.invalidRequest, "That upload id is in use.")
    | some id =>
      if ¬ world.directoryOpens then
        .error (.operationFailed, "The host could not make a folder for the file.")
      else match world.creationError with
        | some reason =>
          .error (.operationFailed, "The host could not create the file: " ++ reason ++ ".")
        | none => .ok id

/-- The empty file `id` entered as an upload; one of size 0 is finished at once. -/
def enter (store : FileUploadStore) (world : World) (id : ℕ) (path name : String) (size : ℕ) :
    FileUploadStore :=
  let store := { store with
    uploads := store.uploads.insert id { path, name, size, lastProgress := world.now }
    disk := Function.update store.disk id (some []) }
  if size = 0 then store.finish id else store

/-- A new upload: an empty file in a directory of its own, or why there is none. -/
def create (store : FileUploadStore) (world : World) (name : String) (size : ℕ)
    (requestedID : Option ℕ) : FileUploadStore × Except (Code × String) Begun :=
  match store.folder world size with
  | .error failure => (store, .error failure)
  | .ok root =>
    match (store.sweep world).makeFile world size requestedID with
    | .error failure => (store.sweep world, .error failure)
    | .ok id =>
      let path := root ++ "/" ++ String.ofList (Nat.toDigits 16 id) ++ "/" ++ name
      ((store.sweep world).enter world id path name size, .ok ⟨id, path⟩)

/-- Begins an upload, or answers again for one already begun. -/
def begin (safeName : String → String) (store : FileUploadStore) (world : World) (rawName : String)
    (size : ℕ) (requestedID : Option ℕ) : FileUploadStore × Except (Code × String) Begun :=
  match store.beginAgain (safeName rawName) size requestedID with
  | some answer => (store, answer)
  | none => store.create world (safeName rawName) size requestedID

/-- `a - b` in a `UInt64`. -/
def subtracting (a b : ℕ) : Option ℕ := if b ≤ a then some (a - b) else none

/-- `a + b` in a `UInt64`. -/
def adding (a b : ℕ) : Option ℕ := if a + b < 2 ^ 64 then some (a + b) else none

/-- `Int(n)`. -/
def toInt (n : ℕ) : Option ℕ := if n < 2 ^ 63 then some n else none

/-- Writes `data` at `offset`: what is here already is skipped, and a part that would leave a hole
or run past the size is refused. -/
def write (store : FileUploadStore) (world : World) (id offset : ℕ) (data : List UInt8) :
    Option (FileUploadStore × Except Code ℕ) :=
  match store.uploads.get? id with
  | none =>
    match store.finished.get? id with
    | none => some (store, .error .unknownSession)
    | some done =>
      if offset ≤ done.size then do
        let left ← subtracting done.size offset
        if data.length ≤ left then return (store, .ok done.size)
        else return (store, .error .unknownSession)
      else some (store, .error .unknownSession)
  | some upload =>
    if offset ≤ upload.received then do
      let left ← subtracting upload.size offset
      if data.length ≤ left then do
        let end_ ← adding offset data.length
        if upload.received < end_ then do
          let skip ← (subtracting upload.received offset).bind toInt
          let (file, written) ← writeLoop data offset world.pwrites skip ((store.disk id).getD [])
          let store := { store with disk := Function.update store.disk id (some file) }
          if written then
            let upload := { upload with received := end_, lastProgress := world.now }
            let store := { store with uploads := store.uploads.insert id upload }
            return (if end_ = upload.size then store.finish id else store, .ok end_)
          else return (store.cancel world id, .error .operationFailed)
        else return (store, .ok upload.received)
      else return (store, .error .invalidRequest)
    else return (store, .error .invalidRequest)

/-! ## The request -/

/-- The keys an `uploadFile` request may hold. -/
structure Message where
  fileName : Option String := none
  fileSize : Option ℕ := none
  upload : Option ℕ := none
  cancel : Bool := false
  /-- The value under `data`; `some none` is one that is not bytes. -/
  data : Option (Option (List UInt8)) := none
  offset : Option ℕ := none
deriving DecidableEq

structure Reply where
  code : Code
  upload : Option ℕ := none
  path : Option String := none
  offset : Option ℕ := none
  errorMessage : Option String := none
deriving DecidableEq

/-- The bytes a request carries. -/
def inputData (message : Message) : Option (List UInt8) :=
  message.data.join.filter fun bytes => bytes.length ≤ maximumMessageDataByteCount

/-- `PeerSession.uploadFile`, whichever peer it came from. -/
def uploadFile (safeName : String → String) (store : FileUploadStore) (world : World)
    (message : Message) : Option (FileUploadStore × Reply) :=
  match message.fileName with
  | some name =>
    match message.fileSize with
    | none => some (store, { code := .invalidRequest })
    | some size =>
      if message.upload = some 0 then some (store, { code := .invalidRequest })
      else match store.begin safeName world name size message.upload with
        | (store, .ok begun) =>
          some
            (store, { code := .success, upload := begun.id, path := begun.path, offset := some 0 })
        | (store, .error failure) =>
          some (store, { code := failure.1, errorMessage := failure.2 })
  | none =>
    match message.upload with
    | none => some (store, { code := .invalidRequest })
    | some id =>
      if message.cancel then some (store.cancel world id, { code := .success })
      else if message.data.isNone then
        match store.received id with
        | none => some (store, { code := .unknownSession })
        | some received => some (store, { code := .success, offset := received })
      else match inputData message, message.offset with
        | some data, some offset =>
          if data.length ≤ uploadChunkByteCount * 2 then do
            let (store, result) ← store.write world id offset data
            return match result with
              | .ok _ => (store, { code := .success, offset := store.received id })
              | .error code => (store, { code, offset := store.received id })
          else some (store, { code := .invalidRequest })
        | _, _ => some (store, { code := .invalidRequest })

end FileUploadStore
