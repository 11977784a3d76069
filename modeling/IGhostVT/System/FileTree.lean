import Mathlib.Data.List.Nodup
import Mathlib.Order.Nat

/-!
# System/FileTree — directories that other users change meanwhile

A `FileTree` is what a process finds on disk: nodes, and the names directories give them.  Root and
the process's own user are *ours*.  A directory that one of ours keeps to itself is private
(`isPrivate`), and everyone else may change any other: `Act.apply` is one thing they do, and
`Leaves` what it leaves alone.  A directory is `Firm` when private directories alone lead to it from
the root.

Others get to do more here than a kernel lets them: nothing is sticky, and any file can be given a
name.
-/

inductive NodeKind
  | directory
  | link (target : String)
  | file
  /-- A FIFO, a socket or a device. -/
  | special
deriving DecidableEq

structure FileNode where
  kind : NodeKind
  owner : ℕ
  /-- The group or everyone may write to it. -/
  isShared : Bool
deriving DecidableEq

/-- A name in a directory. -/
structure FileName where
  directory : ℕ
  name : String
  node : ℕ
deriving DecidableEq

/-- Where it stands. -/
def FileName.place (e : FileName) : ℕ × String := (e.directory, e.name)

def kindOf (nodes : List FileNode) (n : ℕ) : Option NodeKind := nodes[n]?.map (·.kind)

/-- Node 0 is the root, and a directory has one name. -/
structure FileTree where
  nodes : List FileNode
  names : List FileName
  root : kindOf nodes 0 = some .directory
  known : ∀ e ∈ names, e.directory < nodes.length ∧ e.node < nodes.length ∧ e.node ≠ 0
  apart : (names.map FileName.place).Nodup
  single : ∀ e ∈ names, kindOf nodes e.node = some .directory →
    ∀ e' ∈ names, e'.node = e.node → e' = e

/-- A node keeps its kind when another is added. -/
theorem kindOf_append {nodes : List FileNode} {n : ℕ} (h : n < nodes.length) (node : FileNode) :
    kindOf (nodes ++ [node]) n = kindOf nodes n := by
  rw [kindOf, kindOf, List.getElem?_append_left h]

/-- What has a kind is a node. -/
theorem lt_of_kindOf {nodes : List FileNode} {n : ℕ} {kind : NodeKind}
    (h : kindOf nodes n = some kind) :
    n < nodes.length := by
  obtain ⟨node, hnode, -⟩ := Option.map_eq_some_iff.mp h
  exact (List.getElem?_eq_some_iff.mp hnode).1

/-- A mode changes no kind. -/
theorem kindOf_modify (nodes : List FileNode) (i n : ℕ) (isShared : Bool) :
    kindOf (nodes.modify i fun node => { node with isShared }) n = kindOf nodes n := by
  rw [kindOf, kindOf, List.getElem?_modify]
  cases nodes[n]? with
  | none => rfl
  | some node =>
    change some (if i = n then { node with isShared } else node).kind = some node.kind
    split_ifs <;> rfl

namespace FileTree

variable (t : FileTree)

def kind (n : ℕ) : Option NodeKind := kindOf t.nodes n

def owner (n : ℕ) : Option ℕ := t.nodes[n]?.map (·.owner)

def find (d : ℕ) (name : String) : Option ℕ :=
  (t.names.find? fun e => e.place = (d, name)).map (·.node)

def parent (n : ℕ) : Option ℕ :=
  if n = 0 then some 0 else (t.names.find? fun e => e.node = n).map (·.directory)

/-- What a name stands for in a directory; the root is its own parent. -/
def lookup (d : ℕ) (name : String) : Option ℕ :=
  if name = ".." then t.parent d else t.find d name

/-- `st_nlink` of what is no directory. -/
def linkCount (n : ℕ) : ℕ := t.names.countP fun e => e.node = n

/-- It is root's, or the user's `me`. -/
def isOurs (me owner : ℕ) : Bool := owner = 0 || owner = me

/-- Only root or `me` can add, remove, or rename an entry. -/
def isPrivate (me d : ℕ) : Bool :=
  t.nodes[d]?.any fun node => isOurs me node.owner && !node.isShared

/-! ## Changes

Every change is a tree again: names stand for nodes, no place has two of them, and a directory keeps
its one name. -/

/-- A node without a name. -/
def addNode (node : FileNode) : FileTree where
  nodes := t.nodes ++ [node]
  names := t.names
  root := (kindOf_append (lt_of_kindOf t.root) node).trans t.root
  known e he := by
    rw [List.length_append]
    exact ⟨(t.known e he).1.trans_le (Nat.le_add_right _ _),
      (t.known e he).2.1.trans_le (Nat.le_add_right _ _), (t.known e he).2.2⟩
  apart := t.apart
  single e he hkind := t.single e he ((kindOf_append (t.known e he).2.1 node).symm.trans hkind)

def addName (e : FileName) (hfree : ∀ e' ∈ t.names, e'.place ≠ e.place)
    (hknown : e.directory < t.nodes.length ∧ e.node < t.nodes.length ∧ e.node ≠ 0)
    (hsingle : t.kind e.node = some .directory → ∀ e' ∈ t.names, e'.node ≠ e.node) : FileTree where
  nodes := t.nodes
  names := e :: t.names
  root := t.root
  known := List.forall_mem_cons.mpr ⟨hknown, t.known⟩
  apart := by
    rw [List.map_cons, List.nodup_cons]
    refine ⟨fun hmem => ?_, t.apart⟩
    obtain ⟨e', he', hplace⟩ := List.mem_map.mp hmem
    exact hfree e' he' hplace
  single := by
    intro a ha hkind b hb hnode
    rcases List.mem_cons.mp ha with hae | hat
    · subst hae
      rcases List.mem_cons.mp hb with hbe | hbt
      · exact hbe
      · exact absurd hnode (hsingle hkind b hbt)
    · rcases List.mem_cons.mp hb with hbe | hbt
      · subst hbe
        exact absurd hnode.symm (hsingle ((congrArg (kindOf t.nodes) hnode).trans hkind) a hat)
      · exact t.single a hat hkind b hbt hnode

def removeName (d : ℕ) (name : String) : FileTree where
  nodes := t.nodes
  names := t.names.filter fun e => e.place ≠ (d, name)
  root := t.root
  known e he := t.known e (List.mem_of_mem_filter he)
  apart := t.apart.sublist (List.filter_sublist.map _)
  single e he hkind e' he' :=
    t.single e (List.mem_of_mem_filter he) hkind e' (List.mem_of_mem_filter he')

def chmod (n : ℕ) (isShared : Bool) : FileTree where
  nodes := t.nodes.modify n fun node => { node with isShared }
  names := t.names
  root := (kindOf_modify t.nodes n 0 isShared).trans t.root
  known e he := by
    rw [List.length_modify]
    exact t.known e he
  apart := t.apart
  single e he hkind := t.single e he ((kindOf_modify t.nodes n e.node isShared).symm.trans hkind)

variable {t} {d n : ℕ} {name : String}

/-- What a name stands for is the entry there, for no place has two. -/
theorem find_eq_some_iff : t.find d name = some n ↔ ⟨d, name, n⟩ ∈ t.names := by
  rw [find, Option.map_eq_some_iff]
  constructor
  · rintro ⟨e, he, rfl⟩
    have hfound := List.find?_some he
    have hplace : e.place = (d, name) := of_decide_eq_true hfound
    obtain ⟨rfl, rfl⟩ := Prod.mk.inj hplace
    exact List.mem_of_find?_eq_some he
  · intro hmem
    cases he : t.names.find? fun e => e.place = (d, name) with
    | none => exact absurd (decide_eq_true rfl) (List.find?_eq_none.mp he _ hmem)
    | some e =>
      have hfound := List.find?_some he
      have hplace : e.place = (d, name) := of_decide_eq_true hfound
      refine ⟨e, rfl, ?_⟩
      rw [List.inj_on_of_nodup_map t.apart (List.mem_of_find?_eq_some he) hmem hplace]

/-- A name that stands for nothing is free. -/
theorem free_of_find (h : t.find d name = none) : ∀ e ∈ t.names, e.place ≠ (d, name) := by
  intro e he hplace
  obtain ⟨rfl, rfl⟩ := Prod.mk.inj hplace
  rw [find_eq_some_iff.mpr he] at h
  cases h

/-- What has a kind is a node of the tree. -/
theorem lt_of_kind {kind : NodeKind} (h : t.kind n = some kind) : n < t.nodes.length :=
  lt_of_kindOf h

/-- A name stands for a node. -/
theorem lt_of_find (h : t.find d name = some n) : n < t.nodes.length :=
  (t.known _ (find_eq_some_iff.mp h)).2.1

/-- A directory's one name says what its parent is. -/
theorem parent_eq_some (hmem : ⟨d, name, n⟩ ∈ t.names) (hkind : t.kind n = some .directory) :
    t.parent n = some d := by
  rw [parent, if_neg (t.known _ hmem).2.2]
  cases he : t.names.find? fun e => e.node = n with
  | none => exact absurd (decide_eq_true rfl) (List.find?_eq_none.mp he _ hmem)
  | some e =>
    have hfound := List.find?_some he
    have hnode : e.node = n := of_decide_eq_true hfound
    rw [t.single _ hmem hkind e (List.mem_of_find?_eq_some he) hnode]
    rfl

/-- Removing a name takes the entry at its place and no other. -/
theorem mem_removeName {e : FileName} :
    e ∈ (t.removeName d name).names ↔ e ∈ t.names ∧ e.place ≠ (d, name) := by
  rw [removeName, List.mem_filter, decide_eq_true_iff]

variable (t)

/-- A new node under a name that is free. -/
def create (d : ℕ) (name : String) (node : FileNode) : FileTree :=
  if h : t.kind d = some .directory ∧ t.find d name = none then
    (t.addNode node).addName ⟨d, name, t.nodes.length⟩ (free_of_find h.2)
      (by
        rw [addNode, List.length_append, List.length_singleton]
        exact ⟨(lt_of_kind h.1).trans (Nat.lt_succ_self _), Nat.lt_succ_self _,
          Nat.ne_of_gt (lt_of_kindOf t.root)⟩)
      fun _ e he => (t.known e he).2.1.ne
  else t

/-- Another name for what is there. -/
def link (n d : ℕ) (name : String) : FileTree :=
  if h : (t.kind d = some .directory ∧ t.find d name = none) ∧ n < t.nodes.length ∧
      t.kind n ≠ some .directory then
    t.addName ⟨d, name, n⟩ (free_of_find h.1.2)
      ⟨lt_of_kind h.1.1, h.2.1, fun hzero => h.2.2 ((congrArg t.kind hzero).trans t.root)⟩
      fun hkind => absurd hkind h.2.2
  else t

/-- It replaces what has the new name. -/
def rename (d : ℕ) (name : String) (d' : ℕ) (name' : String) : FileTree :=
  match t.find d name with
  | none => t
  | some n =>
    if h : t.kind d' = some .directory ∧ t.find d name = some n then
      ((t.removeName d name).removeName d' name').addName ⟨d', name', n⟩
        (fun _ he => (mem_removeName.mp he).2)
        ⟨lt_of_kind h.1, show n < t.nodes.length from lt_of_find h.2,
          (t.known _ (find_eq_some_iff.mp h.2)).2.2⟩
        fun hkind e he hnode => by
          obtain ⟨hmem, hplace⟩ := mem_removeName.mp (mem_removeName.mp he).1
          rw [t.single _ (find_eq_some_iff.mp h.2) hkind e hmem hnode] at hplace
          exact hplace rfl
    else t

/-! ## What others do

Each act of another user changes names in a directory that is not private, or makes or changes what
is not ours. `Leaves` is what they have in common. -/

/-- Something another user does to the tree. -/
inductive Act
  | create (d : ℕ) (name : String) (node : FileNode)
  | link (n d : ℕ) (name : String)
  | unlink (d : ℕ) (name : String)
  | rename (d : ℕ) (name : String) (d' : ℕ) (name' : String)
  | chmod (n : ℕ) (isShared : Bool)
deriving DecidableEq

variable (me : ℕ)

/-- The acts of others come to nothing in a directory that is private, and on what is ours. -/
def Act.apply : Act → FileTree
  | .create d name node =>
    if t.isPrivate me d || isOurs me node.owner then t else t.create d name node
  | .link n d name => if t.isPrivate me d then t else t.link n d name
  | .unlink d name => if t.isPrivate me d then t else t.removeName d name
  | .rename d name d' name' =>
    if t.isPrivate me d || t.isPrivate me d' then t else t.rename d name d' name'
  | .chmod n isShared =>
    if t.nodes[n]?.any fun node => isOurs me node.owner then t else t.chmod n isShared

/-- Private directories keep the names they have, and no other becomes private. -/
structure Leaves (t t' : FileTree) : Prop where
  length : t.nodes.length ≤ t'.nodes.length
  kind : ∀ n < t.nodes.length, t'.kind n = t.kind n
  owner : ∀ n < t.nodes.length, t'.owner n = t.owner n
  isPrivate : ∀ d, t'.isPrivate me d = t.isPrivate me d
  names : ∀ e : FileName, t.isPrivate me e.directory → (e ∈ t'.names ↔ e ∈ t.names)

variable {t me} {t' t'' : FileTree}

/-- Doing nothing leaves everything. -/
theorem Leaves.refl : Leaves me t t :=
  ⟨le_rfl, fun _ _ => rfl, fun _ _ => rfl, fun _ => rfl, fun _ _ => Iff.rfl⟩

/-- One act after another leaves what each leaves. -/
theorem Leaves.trans (h : Leaves me t t') (h' : Leaves me t' t'') : Leaves me t t'' where
  length := h.length.trans h'.length
  kind n hn := (h'.kind n (hn.trans_le h.length)).trans (h.kind n hn)
  owner n hn := (h'.owner n (hn.trans_le h.length)).trans (h.owner n hn)
  isPrivate d := (h'.isPrivate d).trans (h.isPrivate d)
  names e he := (h'.names e ((h.isPrivate _).trans he)).trans (h.names e he)

/-- A node of theirs makes no directory private. -/
theorem leaves_addNode {node : FileNode} (hnode : isOurs me node.owner = false) :
    Leaves me t (t.addNode node) where
  length := List.length_append ▸ Nat.le_add_right _ _
  kind n hn := kindOf_append hn node
  owner n hn := congrArg (Option.map _) (List.getElem?_append_left hn)
  isPrivate d := by
    rw [isPrivate, isPrivate, addNode]
    rcases Nat.lt_trichotomy d t.nodes.length with hlt | rfl | hgt
    · rw [List.getElem?_append_left hlt]
    · rw [List.getElem?_append_right le_rfl, Nat.sub_self, List.getElem?_eq_none le_rfl]
      change ((isOurs me node.owner) && _) = false
      rw [hnode, Bool.false_and]
    · rw [List.getElem?_eq_none (Nat.le_of_lt hgt), List.getElem?_eq_none]
      rw [List.length_append]
      exact hgt
  names _ _ := Iff.rfl

/-- A name in a directory that is not private is no private directory's. -/
theorem leaves_addName {e : FileName} {hfree hknown hsingle}
    (he : t.isPrivate me e.directory = false) :
    Leaves me t (t.addName e hfree hknown hsingle) where
  length := le_rfl
  kind _ _ := rfl
  owner _ _ := rfl
  isPrivate _ := rfl
  names e' he' := by
    rw [addName, List.mem_cons, or_iff_right]
    rintro rfl
    rw [he] at he'
    cases he'

/-- Nor is one that is removed there. -/
theorem leaves_removeName (hd : t.isPrivate me d = false) : Leaves me t (t.removeName d name) where
  length := le_rfl
  kind _ _ := rfl
  owner _ _ := rfl
  isPrivate _ := rfl
  names e he := by
    rw [mem_removeName, and_iff_left]
    rintro hplace
    rw [(Prod.mk.inj hplace).1, hd] at he
    cases he

/-- The mode of what is not ours makes nothing private. -/
theorem leaves_chmod {isShared : Bool}
    (hn : (t.nodes[n]?.any fun node => isOurs me node.owner) = false) :
    Leaves me t (t.chmod n isShared) where
  length := (List.length_modify ..).ge
  kind i _ := kindOf_modify t.nodes n i isShared
  owner i _ := by
    rw [owner, owner, chmod, List.getElem?_modify]
    cases t.nodes[i]? with
    | none => rfl
    | some node =>
      change some (if n = i then { node with isShared } else node).owner = some node.owner
      split_ifs <;> rfl
  isPrivate d := by
    rw [isPrivate, isPrivate, chmod, List.getElem?_modify]
    split
    · next heq =>
      subst heq
      cases hnode : t.nodes[n]? with
      | none => rfl
      | some node =>
        rw [hnode] at hn
        change (isOurs me node.owner && _) = (isOurs me node.owner && _)
        rw [show isOurs me node.owner = false from hn, Bool.false_and, Bool.false_and]
    · exact congrArg (Option.any _) (Option.map_id' ..)
  names _ _ := Iff.rfl

/-- Creating adds such a node under such a name. -/
theorem leaves_create {node : FileNode} (hd : t.isPrivate me d = false)
    (hnode : isOurs me node.owner = false) : Leaves me t (t.create d name node) := by
  rw [create]
  split
  · have hadd := @leaves_addNode t me node hnode
    exact hadd.trans (leaves_addName ((hadd.isPrivate d).trans hd))
  · exact .refl

/-- A link adds a name alone. -/
theorem leaves_link (hd : t.isPrivate me d = false) : Leaves me t (t.link n d name) := by
  rw [link]
  split
  · exact leaves_addName hd
  · exact .refl

/-- Renaming removes two names and adds one, in directories that are not private. -/
theorem leaves_rename {d' : ℕ} {name' : String} (hd : t.isPrivate me d = false)
    (hd' : t.isPrivate me d' = false) : Leaves me t (t.rename d name d' name') := by
  rw [rename]
  split
  · exact .refl
  · split
    · have hgone : Leaves me (t.removeName d name) ((t.removeName d name).removeName d' name') :=
        leaves_removeName hd'
      exact ((leaves_removeName hd).trans hgone).trans (leaves_addName hd')
    · exact .refl

/-- **Whatever one of them does, private directories keep their names.** -/
theorem leaves_act (act : Act) : Leaves me t (act.apply t me) := by
  cases act with
  | create d name node =>
    rw [Act.apply]
    split
    · exact .refl
    next hno =>
      rw [Bool.or_eq_true, not_or, Bool.not_eq_true, Bool.not_eq_true] at hno
      exact leaves_create hno.1 hno.2
  | link n d name =>
    rw [Act.apply]
    split
    · exact .refl
    next hno => exact leaves_link (Bool.not_eq_true _ ▸ hno)
  | unlink d name =>
    rw [Act.apply]
    split
    · exact .refl
    next hno => exact leaves_removeName (Bool.not_eq_true _ ▸ hno)
  | rename d name d' name' =>
    rw [Act.apply]
    split
    · exact .refl
    next hno =>
      rw [Bool.or_eq_true, not_or, Bool.not_eq_true, Bool.not_eq_true] at hno
      exact leaves_rename hno.1 hno.2
  | chmod n isShared =>
    rw [Act.apply]
    split
    · exact .refl
    next hno => exact leaves_chmod (Bool.not_eq_true _ ▸ hno)

/-! ## Directories that private ones lead to

From the root a name in a private directory leads to a firm one, and others can neither take that
name nor move the directory away. -/

/-- Private directories alone lead to it from the root. -/
inductive Firm (me : ℕ) (t : FileTree) : ℕ → Prop
  | root : Firm me t 0
  | inside {d n : ℕ} {name : String} (hd : Firm me t d) (hprivate : t.isPrivate me d)
      (hmem : ⟨d, name, n⟩ ∈ t.names) (hkind : t.kind n = some .directory) : Firm me t n

/-- One of a private directory's directories is as firm as it. -/
theorem Firm.outside (h : Firm me t n) (hmem : ⟨d, name, n⟩ ∈ t.names) :
    Firm me t d ∧ t.isPrivate me d := by
  cases h with
  | root => exact absurd rfl (t.known _ hmem).2.2
  | @inside d' _ name' hd hprivate hmem' hkind =>
    obtain ⟨rfl, -, -⟩ := FileName.mk.inj (t.single _ hmem' hkind _ hmem rfl)
    exact ⟨hd, hprivate⟩

/-- A firm directory is a node. -/
theorem Firm.lt (h : Firm me t n) : n < t.nodes.length := by
  cases h with
  | root => exact lt_of_kindOf t.root
  | inside _ _ hmem => exact (t.known _ hmem).2.1

/-- Its parent is firm, too. -/
theorem Firm.parent_eq (h : Firm me t n) : ∃ d, t.parent n = some d ∧ Firm me t d := by
  cases h with
  | root => exact ⟨0, if_pos rfl, .root⟩
  | inside hd _ hmem hkind => exact ⟨_, parent_eq_some hmem hkind, hd⟩

/-- What others do leaves the firm part as it is. -/
theorem Leaves.firm_iff (h : Leaves me t t') : Firm me t' n ↔ Firm me t n := by
  constructor
  · intro hn
    induction hn with
    | root => exact .root
    | @inside d n name _ hprivate hmem hkind ih =>
      have hprivate' := (h.isPrivate d).symm.trans hprivate
      have hold := (h.names _ hprivate').mp hmem
      exact .inside ih hprivate' hold ((h.kind n (t.known _ hold).2.1).symm.trans hkind)
  · intro hn
    induction hn with
    | root => exact .root
    | @inside d n name _ hprivate hmem hkind ih =>
      exact .inside ih ((h.isPrivate d).trans hprivate) ((h.names _ hprivate).mpr hmem)
        ((h.kind n (t.known _ hmem).2.1).trans hkind)

/-- Nothing is lost: names stay, and what is private stays so. -/
structure Keeps (me : ℕ) (t t' : FileTree) : Prop where
  length : t.nodes.length ≤ t'.nodes.length
  kind : ∀ n < t.nodes.length, t'.kind n = t.kind n
  isPrivate : ∀ d < t.nodes.length, t'.isPrivate me d = t.isPrivate me d
  names : ∀ e ∈ t.names, t.isPrivate me e.directory → e ∈ t'.names

/-- What keeps the private directories twice keeps them. -/
theorem Keeps.trans (h : Keeps me t t') (h' : Keeps me t' t'') : Keeps me t t'' where
  length := h.length.trans h'.length
  kind n hn := (h'.kind n (hn.trans_le h.length)).trans (h.kind n hn)
  isPrivate d hd := (h'.isPrivate d (hd.trans_le h.length)).trans (h.isPrivate d hd)
  names e he hprivate :=
    h'.names e (h.names e he hprivate) ((h.isPrivate _ (t.known e he).1).trans hprivate)

/-- What others do keeps them. -/
theorem Leaves.keeps (h : Leaves me t t') : Keeps me t t' :=
  ⟨h.length, h.kind, fun d _ => h.isPrivate d, fun e he hprivate => (h.names e hprivate).mpr he⟩

/-- And so a firm directory stays one. -/
theorem Keeps.firm (h : Keeps me t t') (hn : Firm me t n) : Firm me t' n := by
  induction hn with
  | root => exact .root
  | @inside d n name hd hprivate hmem hkind ih =>
    exact .inside ih ((h.isPrivate d hd.lt).trans hprivate) (h.names _ hmem hprivate)
      ((h.kind n (t.known _ hmem).2.1).trans hkind)

/-- What a private firm directory has under a name. -/
theorem Keeps.lookup (h : Keeps me t t') (hd : Firm me t d) (hprivate : t.isPrivate me d)
    (hlookup : t.lookup d name = some n) : t'.lookup d name = some n := by
  rw [FileTree.lookup] at hlookup ⊢
  split at hlookup
  next hup =>
    rw [if_pos hup]
    cases hd with
    | root =>
      rw [parent, if_pos rfl] at hlookup ⊢
      exact hlookup
    | inside hd' hprivate' hmem hkind =>
      rw [parent_eq_some hmem hkind] at hlookup
      exact (parent_eq_some (h.names _ hmem hprivate')
        ((h.kind d (t.known _ hmem).2.1).trans hkind)).trans
        hlookup
  next hdown =>
    rw [if_neg hdown]
    exact find_eq_some_iff.mpr (h.names _ (find_eq_some_iff.mp hlookup) hprivate)

/-- A name a firm directory has leads to what is there. -/
theorem Firm.lt_of_lookup (hd : Firm me t d) (h : t.lookup d name = some n) :
    n < t.nodes.length := by
  rw [lookup] at h
  split at h
  · obtain ⟨p, hp, hfirm⟩ := hd.parent_eq
    obtain rfl := Option.some.inj (hp.symm.trans h)
    exact hfirm.lt
  · exact lt_of_find h

/-- What is created is one node under one name. -/
theorem names_create {node : FileNode} (hd : t.kind d = some .directory)
    (hfree : t.find d name = none) :
    (t.create d name node).names = ⟨d, name, t.nodes.length⟩ :: t.names ∧
      (t.create d name node).nodes = t.nodes ++ [node] := by
  rw [create, dif_pos ⟨hd, hfree⟩]
  exact ⟨rfl, rfl⟩

/-- What an open creates keeps them, wherever it is. -/
theorem keeps_create (node : FileNode) : Keeps me t (t.create d name node) := by
  by_cases h : t.kind d = some .directory ∧ t.find d name = none
  · obtain ⟨hnames, hnodes⟩ := @names_create t d name node h.1 h.2
    refine ⟨?_, fun n hn => ?_, fun i hi => ?_, fun e he _ => ?_⟩
    · rw [hnodes, List.length_append]
      exact Nat.le_add_right _ _
    · rw [kind, kind, hnodes, kindOf_append hn]
    · rw [isPrivate, isPrivate, hnodes, List.getElem?_append_left hi]
    · rw [hnames]
      exact List.mem_cons_of_mem _ he
  · rw [create, dif_neg h]
    exact Leaves.refl.keeps

/-- What is made adds nothing but itself to the firm part. -/
theorem firm_of_create {node : FileNode} (hn : n < t.nodes.length)
    (h : Firm me (t.create d name node) n) :
    Firm me t n := by
  by_cases hmade : t.kind d = some .directory ∧ t.find d name = none
  · obtain ⟨hnames, hnodes⟩ := @names_create t d name node hmade.1 hmade.2
    have hkeeps : Keeps me t (t.create d name node) := keeps_create node
    induction h with
    | root => exact .root
    | @inside e n name' hd hprivate hmem hkind ih =>
      rw [hnames] at hmem
      rcases List.mem_cons.mp hmem with heq | hmem
      · obtain ⟨-, -, rfl⟩ := FileName.mk.inj heq
        exact absurd hn (lt_irrefl _)
      · have hknown := t.known _ hmem
        rw [hkeeps.isPrivate e hknown.1] at hprivate
        rw [hkeeps.kind n hn] at hkind
        exact .inside (ih hknown.1) hprivate hmem hkind
  · rw [create, dif_neg hmade] at h
    exact h

end FileTree
