import IGhostVT.System.FileTree
import IGhostVT.Lib.Run

/-!
# System/ConfinedFile — opening a file where others can leave anything on the way

`open(_:flags:mode:)` is a row of system calls, and between any two of them other users may change
what they can.  `step` is one call, or one thing others do; a call may also fail for a reason of its
own.  `next` is what the walk is for: where a path leads when only private directories are believed.
-/

/-- What is opened, by whom. -/
structure Opening where
  /-- `geteuid()`. -/
  me : ℕ
  name : String
  /-- `O_CREAT` is among the flags. -/
  creates : Bool

namespace ConfinedFile

def maximumLinkHops : ℕ := 16

/-- A path's directory and last component. -/
def split (path : String) : Option (String × String) :=
  let characters := path.toList
  if characters.head? = some '/' then
    let name := String.ofList (characters.reverse.takeWhile (· ≠ '/')).reverse
    let directory := String.ofList (characters.reverse.dropWhile (· ≠ '/')).tail.reverse
    if name = "" ∨ name = "." ∨ name = ".." then none
    else some (if directory = "" then "/" else directory, name)
  else none

def isAbsolute (path : String) : Bool := path.toList.head? = some '/'

def components (path : String) : List String :=
  ((path.toList.splitOn '/').filter (· ≠ [])).map String.ofList

/-- The loop of `openDirectory`: the descriptor it holds, and the components from `index` on. -/
structure Walk where
  current : ℕ
  components : List String
  hops : ℕ := 0
deriving DecidableEq

/-- The call that comes next. -/
inductive Stage
  | look (w : Walk)
  /-- `mkdirat`: the name was missing. -/
  | make (w : Walk) (name : String)
  /-- `isPrivate`: the name was a link. -/
  | check (w : Walk) (name : String)
  | readLink (w : Walk) (name : String)
  | enter (w : Walk) (name : String)
  | openAt (d : ℕ)
  /-- `isOwnedPlainFile`, of what was at the name. -/
  | opened (d f : ℕ)
  | unlinkAt (d : ℕ)
  | openExclusive (d : ℕ)
  | created (d f : ℕ)
  | returned (d f : ℕ)
  | failed
deriving DecidableEq

end ConfinedFile

open ConfinedFile

/-- One `open`, and the tree it works on. -/
structure ConfinedFile where
  tree : FileTree
  stage : Stage

namespace ConfinedFile

def isOwnedPlainFile (t : FileTree) (me f : ℕ) : Bool :=
  t.nodes[f]?.any fun node => node.kind = .file && t.linkCount f = 1 && node.owner = me

/-- A call of `openDirectory`'s loop, and whether nothing else makes it fail. -/
def walk (o : Opening) (t : FileTree) (works : Bool) : Stage → FileTree × Stage
  | .look ⟨current, [], _⟩ => (t, .openAt current)
  | .look ⟨current, name :: rest, hops⟩ =>
    if name = "." then (t, .look ⟨current, rest, hops⟩)
    else if works then
      match t.lookup current name with
      | none => (t, .make ⟨current, rest, hops⟩ name)
      | some n => match t.kind n with
        | some (.link _) =>
          if hops + 1 ≤ maximumLinkHops then (t, .check ⟨current, rest, hops + 1⟩ name)
            else (t, .failed)
        | _ => (t, .enter ⟨current, rest, hops⟩ name)
    else (t, .failed)
  | .make w name =>
    if works then
      if (t.lookup w.current name).isSome ∨ name = ".." then (t, .enter w name)
      else (t.create w.current name ⟨.directory, o.me, false⟩, .enter w name)
    else (t, .failed)
  | .check w name => (t, if works && t.isPrivate o.me w.current then .readLink w name else .failed)
  | .readLink w name =>
    match (t.lookup w.current name).bind t.kind with
    | some (.link target) =>
      if works && target ≠ "" then
        (t, .look
          ⟨if isAbsolute target then 0 else w.current, components target ++ w.components, w.hops⟩)
      else (t, .failed)
    | _ => (t, .failed)
  | .enter w name =>
    match t.lookup w.current name with
    | none => (t, .failed)
    | some n =>
      (t, if works && t.kind n = some .directory then .look ⟨n, w.components, w.hops⟩ else .failed)
  | stage => (t, stage)

/-- A call of `open(_:in:flags:mode:)`.  What is neither a link nor a plain file may open or not. -/
def openIn (o : Opening) (t : FileTree) (works : Bool) : Stage → FileTree × Stage
  | .openAt d =>
    if works then
      match t.find d o.name with
      | none =>
        if o.creates then (t.create d o.name ⟨.file, o.me, false⟩, .opened d t.nodes.length)
          else (t, .failed)
      | some f => match t.kind f with
        | some (.link _) => (t, if o.creates then .unlinkAt d else .failed)
        | _ => (t, .opened d f)
    else (t, .failed)
  | .opened d f =>
    (t, if works && isOwnedPlainFile t o.me f then .returned d f
      else if o.creates then .unlinkAt d else .failed)
  | .unlinkAt d =>
    match t.find d o.name with
    | none => (t, .failed)
    | some n =>
      if works && t.kind n ≠ some .directory then (t.removeName d o.name, .openExclusive d)
        else (t, .failed)
  | .openExclusive d =>
    if works && (t.find d o.name).isNone then
      (t.create d o.name ⟨.file, o.me, false⟩, .created d t.nodes.length)
    else (t, .failed)
  | .created d f => (t, if works && isOwnedPlainFile t o.me f then .returned d f else .failed)
  | stage => (t, stage)

def call (o : Opening) (s : ConfinedFile) (works : Bool) : ConfinedFile :=
  match s.stage with
  | .look _ | .make _ _ | .check _ _ | .readLink _ _ | .enter _ _ =>
    ⟨(walk o s.tree works s.stage).1, (walk o s.tree works s.stage).2⟩
  | _ => ⟨(openIn o s.tree works s.stage).1, (openIn o s.tree works s.stage).2⟩

inductive Event
  | call (works : Bool)
  /-- Another user does something. -/
  | others (act : FileTree.Act)
deriving DecidableEq

def step (o : Opening) (s : ConfinedFile) : Event → ConfinedFile
  | .call works => s.call o works
  | .others act => { s with tree := act.apply s.tree o.me }

/-- Before the first call, `directory` being the path `split` has taken the name from. -/
def start (t : FileTree) (directory : String) : ConfinedFile :=
  ⟨t, if isAbsolute directory then .look ⟨0, components directory, 0⟩ else .failed⟩

/-- `open(_:flags:mode:)` of a path; what is no path fails at once. -/
def openPath (me : ℕ) (path : String) (creates : Bool) (t : FileTree) :
    Option (Opening × ConfinedFile) :=
  (split path).map fun place => (⟨me, place.2, creates⟩, start t place.1)

example (t : FileTree) :
    (openPath 0 "/Logs/daemon.log" true t).map (·.1.name) = some "daemon.log" := rfl

def after (o : Opening) (t : FileTree) (directory : String) (es : List Event) : ConfinedFile :=
  Run.after (step o) (start t directory) es

/-! ## What the walk is for -/

/-- Where the next component leads from a directory, when only private directories are believed. -/
def next (t : FileTree) (me : ℕ) : ℕ × List String → Option (ℕ × List String)
  | (_, []) => none
  | (d, name :: rest) =>
    if name = "." then some (d, rest)
    else if t.isPrivate me d then
      match t.lookup d name with
      | none => none
      | some n => match t.kind n with
        | some .directory => some (n, rest)
        | some (.link target) =>
          some (if isAbsolute target then 0 else d, ConfinedFile.components target ++ rest)
        | _ => none
    else none

end ConfinedFile
