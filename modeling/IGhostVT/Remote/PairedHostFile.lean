import IGhostVT.Lib.Decimal
import IGhostVT.Lib.Run
import Mathlib.Data.List.Sort
import Mathlib.Logic.Function.Basic

/-!
# Remote/PairedHostFile — the paired hosts, one file that several processes keep

`PairedHostFile` reads the file, and replaces it whole under the lock of its directory.  A process
that keeps the hosts in memory has a `PairedHostCache`: it changes the file from what the file
holds, read again when its stamp is not the one cached, and a watch on the directory tells it of the
others' writes.

A step is one action of one process, up to the next moment at which another could come between: the
lock excludes other writers but nobody who reads, and a cache has a lock of its own, under which it
does one thing at a time (`Phase`).  What the file system answers is part of the action.
-/

/-- The dates are kept as the 64 bits of their numbers. -/
structure PairedRemoteHost where
  id : String
  name : String
  nickname : Option String := none
  deviceID : String
  deviceKey : List UInt8
  pairedAt : UInt64
  lastAddress : Option String := none
  lastSeen : Option UInt64 := none
deriving DecidableEq

/-- One change: none when it changes nothing. -/
abbrev HostChange := List PairedRemoteHost → Option (List PairedRemoteHost)

/-! ## The file -/

namespace PairedHostFile

/-- What the program has from its libraries: the JSON of the hosts, the IPv4 addresses among texts,
and the order of names. -/
structure Platform where
  encode : List PairedRemoteHost → Option (List UInt8)
  decode : List UInt8 → Option (List PairedRemoteHost)
  isIPv4 : String → Bool
  /-- `localizedStandardCompare` is `.orderedAscending`. -/
  isAscending : String → String → Bool
  decode_encode : ∀ hosts data, encode hosts = some data → decode data = some hosts

structure Stamp where
  device : ℤ
  inode : ℕ
  size : ℤ
  seconds : ℤ
  nanoseconds : ℤ
deriving DecidableEq

structure File where
  stamp : Stamp
  data : List UInt8
deriving DecidableEq

/-- What the directory has at the file's name. -/
inductive Entry
  | missing
  /-- A symlink, a directory. -/
  | irregular
  | file (f : File)
deriving DecidableEq

def maximumFileByteCount : ℕ := 1 <<< 20

/-- `stamp(at:)`. -/
def stamp : Entry → Option Stamp
  | .file f => some f.stamp
  | .missing | .irregular => none

/-- How far the system lets a file be read. -/
inductive ReadOutcome
  | complete
  | notOpened
  | cutShort
deriving DecidableEq

variable (w : Platform)

/-- Earlier builds kept whatever address the connection resolved. -/
def keepIPv4 (host : PairedRemoteHost) : PairedRemoteHost :=
  match host.lastAddress with
  | some address => if w.isIPv4 address then host else { host with lastAddress := none }
  | none => host

/-- The hosts of the bytes, none when they do not decode. -/
def hostsOf (data : List UInt8) : List PairedRemoteHost :=
  ((w.decode data).getD []).map (keepIPv4 w)

def read (entry : Entry) (outcome : ReadOutcome) : List PairedRemoteHost × Option Stamp :=
  match entry with
  | .missing | .irregular => ([], none)
  | .file f =>
    if outcome = .notOpened ∨ f.data.length > maximumFileByteCount then ([], none)
    else if outcome = .cutShort then ([], some f.stamp)
    else (hostsOf w f.data, some f.stamp)

def sorted (hosts : List PairedRemoteHost) : List PairedRemoteHost :=
  hosts.mergeSort fun a b => !w.isAscending b.name a.name

/-- The file that replaces the old one: `renamed` is its stamp, none when the temporary file could
not be made, written or renamed. -/
def write (hosts : List PairedRemoteHost) (renamed : Option Stamp) : Option File :=
  match w.encode (sorted w hosts), renamed with
  | some data, some stamp => some { stamp := stamp, data := data }
  | _, _ => none

end PairedHostFile

open PairedHostFile

/-! ## The caches -/

namespace PairedHostCache

/-- What a cache is in the middle of. -/
inductive Phase
  | idle
  /-- The first load has read the file, and is to watch the directory. -/
  | loaded (next : Option HostChange)
  /-- A change wants the directory's lock. -/
  | modifying (change : HostChange)
  /-- It has the lock, and had it first when the file was `base`. -/
  | locked (change : HostChange) (base : Entry)
  /-- The cache is the file. -/
  | checked (change : HostChange) (base : Entry)
  /-- The file was replaced, and is to be read back. -/
  | written (stamp : Stamp)
  /-- The file's stamp was found to be another. -/
  | noticing

end PairedHostCache

structure PairedHostCache where
  cache : Option (List PairedRemoteHost) := none
  cacheStamp : Option Stamp := none
  watcher : Bool := false
  /-- The watch has an event to handle: the events that come before it is handled are one. -/
  isEventDue : Bool := false
  phase : PairedHostCache.Phase := .idle

/-- Who has the directory's lock. -/
inductive LockHolder (ι : Type)
  | cache (p : ι)
  /-- A process without a cache, for which the file was `base` when it took the lock. -/
  | other (base : Entry)

/-- A change that was to be written. -/
structure Attempt (ι : Type) where
  /-- None is a process without a cache. -/
  author : Option ι
  change : HostChange
  /-- What the directory had at the file's name when the lock was taken. -/
  base : Entry
  after : Entry
  isWritten : Bool

/-- The directory, and what an observer has seen happen to the file. -/
structure Directory (ι : Type) where
  entry : Entry
  lock : Option (LockHolder ι) := none
  /-- Every file there was at the name, the newest first. -/
  past : List File
  /-- The newest first. -/
  attempts : List (Attempt ι) := []
  /-- Whom `onExternalChange` was called by, and the stamp of the file that differed. -/
  announced : List (ι × Option Stamp) := []

structure PairedHosts (ι : Type) where
  directory : Directory ι
  caches : ι → PairedHostCache

namespace PairedHosts

/-- A step of a process with a cache, or of one without. -/
inductive Action (ι : Type)
  /-- `hosts`, or `modify` with a change, and how the first read goes. -/
  | start (p : ι) (change : Option HostChange) (outcome : ReadOutcome)
  /-- `watchLocked`, and whether the directory could be opened. -/
  | watch (p : ι) (isOpened : Bool)
  /-- `withLock`: the wait for the lock ends, or the directory cannot be made or locked. -/
  | lock (p : ι) (isLocked : Bool)
  /-- The file read again, when its stamp is another. -/
  | check (p : ι) (outcome : ReadOutcome)
  | write (p : ι) (renamed : Option Stamp)
  | readBack (p : ι) (outcome : ReadOutcome)
  /-- `directoryChanged` begins. -/
  | event (p : ι)
  | notice (p : ι) (outcome : ReadOutcome)
  | lockOther
  | writeOther (hosts : List PairedRemoteHost) (renamed : Option Stamp)
  | unlockOther
  /-- Something else in the directory moves. -/
  | touch

variable {ι : Type} [DecidableEq ι]

/-- The cache of one process. -/
def set (s : PairedHosts ι) (p : ι) (c : PairedHostCache) : PairedHosts ι :=
  { s with caches := Function.update s.caches p c }

/-- The directory moved: each watch has an event. -/
def raise (c : PairedHostCache) : PairedHostCache :=
  if c.watcher then { c with isEventDue := true } else c

variable (w : Platform)

/-- `file` is renamed to the name. -/
def rename (s : PairedHosts ι) (author : Option ι) (change : HostChange) (base : Entry)
    (file : File) : PairedHosts ι where
  directory :=
    { s.directory with
      entry := .file file, past := file :: s.directory.past,
      attempts := ⟨author, change, base, .file file, true⟩ :: s.directory.attempts }
  caches p := raise (s.caches p)

/-- The change could not be written. -/
def fail (s : PairedHosts ι) (author : Option ι) (change : HostChange) (base : Entry) :
    PairedHosts ι :=
  { s with directory :=
      { s.directory with
        attempts := ⟨author, change, base, s.directory.entry, false⟩ :: s.directory.attempts } }

def relock (s : PairedHosts ι) (lock : Option (LockHolder ι)) : PairedHosts ι :=
  { s with directory := { s.directory with lock := lock } }

def start (s : PairedHosts ι) (p : ι) (change : Option HostChange) (outcome : ReadOutcome) :
    PairedHosts ι :=
  match (s.caches p).phase, (s.caches p).cache, change with
  | .idle, some _, none => s
  | .idle, some _, some change => s.set p { s.caches p with phase := .modifying change }
  | .idle, none, change =>
    let (loaded, stamp) := read w s.directory.entry outcome
    s.set p { s.caches p with cache := some loaded, cacheStamp := stamp, phase := .loaded change }
  | _, _, _ => s

def watch (s : PairedHosts ι) (p : ι) (isOpened : Bool) : PairedHosts ι :=
  match (s.caches p).phase with
  | .loaded change =>
    s.set p { s.caches p with
      watcher := isOpened
      phase := match change with
        | none => .idle
        | some change => .modifying change }
  | _ => s

def lock (s : PairedHosts ι) (p : ι) (isLocked : Bool) : PairedHosts ι :=
  match (s.caches p).phase, isLocked, s.directory.lock with
  | .modifying change, true, none =>
    (s.set p { s.caches p with phase := .locked change s.directory.entry }).relock (some (.cache p))
  | .modifying change, false, _ =>
    (s.set p { s.caches p with phase := .idle }).fail (some p) change s.directory.entry
  | _, _, _ => s

def check (s : PairedHosts ι) (p : ι) (outcome : ReadOutcome) : PairedHosts ι :=
  match (s.caches p).phase with
  | .locked change base =>
    if stamp s.directory.entry ≠ (s.caches p).cacheStamp then
      let (current, stamp) := read w s.directory.entry outcome
      s.set p { s.caches p with
        cache := some current, cacheStamp := stamp, phase := .checked change base }
    else s.set p { s.caches p with phase := .checked change base }
  | _ => s

def write (s : PairedHosts ι) (p : ι) (renamed : Option Stamp) : PairedHosts ι :=
  match (s.caches p).phase with
  | .checked change base =>
    let idle := (s.set p { s.caches p with phase := .idle }).relock none
    match change ((s.caches p).cache.getD []) with
    | none => idle
    | some hosts =>
      match PairedHostFile.write w hosts renamed with
      | none => idle.fail (some p) change base
      | some file =>
        (s.set p { s.caches p with phase := .written file.stamp }).rename (some p) change base file
  | _ => s

def readBack (s : PairedHosts ι) (p : ι) (outcome : ReadOutcome) : PairedHosts ι :=
  match (s.caches p).phase with
  | .written stamp =>
    (s.set p { s.caches p with
      cache := some (read w s.directory.entry outcome).1, cacheStamp := some stamp,
      phase := .idle }).relock none
  | _ => s

def event (s : PairedHosts ι) (p : ι) : PairedHosts ι :=
  match (s.caches p).phase with
  | .idle =>
    if (s.caches p).isEventDue then
      s.set p { s.caches p with
        isEventDue := false
        phase :=
          if stamp s.directory.entry ≠ (s.caches p).cacheStamp then .noticing else .idle }
    else s
  | _ => s

def notice (s : PairedHosts ι) (p : ι) (outcome : ReadOutcome) : PairedHosts ι :=
  match (s.caches p).phase with
  | .noticing =>
    let (current, readStamp) := read w s.directory.entry outcome
    let next := s.set p { s.caches p with
      cache := some current, cacheStamp := readStamp, phase := .idle }
    if some current ≠ (s.caches p).cache then
      { next with directory :=
          { s.directory with announced := (p, readStamp) :: s.directory.announced } }
    else next
  | _ => s

def lockOther (s : PairedHosts ι) : PairedHosts ι :=
  match s.directory.lock with
  | none => s.relock (some (.other s.directory.entry))
  | some _ => s

def writeOther (s : PairedHosts ι) (hosts : List PairedRemoteHost) (renamed : Option Stamp) :
    PairedHosts ι :=
  match s.directory.lock with
  | some (.other base) =>
    let free := s.relock none
    match PairedHostFile.write w hosts renamed with
    | none => free.fail none (fun _ => some hosts) base
    | some file => free.rename none (fun _ => some hosts) base file
  | _ => s

def unlockOther (s : PairedHosts ι) : PairedHosts ι :=
  match s.directory.lock with
  | some (.other _) => s.relock none
  | _ => s

/-- The next state; a step that is not open to its process changes nothing. -/
def step (s : PairedHosts ι) : Action ι → PairedHosts ι
  | .start p change outcome => s.start w p change outcome
  | .watch p isOpened => s.watch p isOpened
  | .lock p isLocked => s.lock p isLocked
  | .check p outcome => s.check w p outcome
  | .write p renamed => s.write w p renamed
  | .readBack p outcome => s.readBack w p outcome
  | .event p => s.event p
  | .notice p outcome => s.notice w p outcome
  | .lockOther => s.lockOther
  | .writeOther hosts renamed => s.writeOther w hosts renamed
  | .unlockOther => s.unlockOther
  | .touch => { s with caches := fun p => raise (s.caches p) }

/-- No process has looked at the file yet. -/
def opened (entry : Entry) : PairedHosts ι where
  directory :=
    { entry := entry,
      past := match entry with
        | .file f => [f]
        | _ => [] }
  caches _ := {}

end PairedHosts
