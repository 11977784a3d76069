import IGhostVT.System.ConfinedFile
import Mathlib.Logic.Relation

/-!
# System/ConfinedWalk — what others can make of a walk

As long as the directories a walk comes through are private, nothing others do changes where it goes
(`Leads`).  From the first that is not, they may lead it on, but not back to a firm directory,
unless the path climbs out with `..` or one of ours left a link beneath (`stands_after`).  A name in
a private directory is what it was, unless the walk makes it where the path leads, or the file is
opened there (`names_after`).
-/

namespace ConfinedFile

variable {o : Opening} {t t' : FileTree} {me d n : ℕ} {name : String}
  {path comps rest : List String} {K : Prop}

/-! ## Where private directories lead

`Leads` is the walk without the calls: the path taken through private directories alone. It goes by
firm directories, which is why what others do between two calls cannot change it. -/

variable (t me path) in
/-- Private directories alone lead there along the path, with these components to go. -/
def Leads (d : ℕ) (comps : List String) : Prop :=
  Relation.ReflTransGen (fun a b => next t me a = some b) (0, path) (d, comps)

/-- Where a name of a private directory leads. -/
def onward (t : FileTree) (d : ℕ) (rest : List String) (n : ℕ) : Option (ℕ × List String) :=
  match t.kind n with
  | some .directory => some (n, rest)
  | some (.link target) => some (if isAbsolute target then 0 else d, components target ++ rest)
  | _ => none

/-- A dot leads nowhere. -/
theorem next_dot : next t me (d, "." :: rest) = some (d, rest) := by
  rw [next, if_pos rfl]

/-- A name in a private directory leads where what it stands for leads. -/
theorem next_of_lookup (hname : name ≠ ".") (hprivate : t.isPrivate me d)
    (hlookup : t.lookup d name = some n) : next t me (d, name :: rest) = onward t d rest n := by
  rw [next, if_neg hname, if_pos hprivate, hlookup]
  rfl

/-- In a directory others can change nothing is believed. -/
theorem next_of_shared (hname : name ≠ ".") (hshared : t.isPrivate me d = false) :
    next t me (d, name :: rest) = none := by
  rw [next, if_neg hname, if_neg (ne_true_of_eq_false hshared)]

/-- What was believed was a dot, or a name in a private directory. -/
theorem next_cases {b : ℕ × List String} (h : next t me (d, comps) = some b) :
    (∃ rest, comps = "." :: rest ∧ b = (d, rest)) ∨ ∃ name rest n, comps = name :: rest ∧
      name ≠ "." ∧
      t.isPrivate me d ∧ t.lookup d name = some n ∧ onward t d rest n = some b := by
  cases comps with
  | nil => cases h
  | cons name rest =>
    by_cases hname : name = "."
    · subst hname
      exact .inl ⟨rest, rfl, (Option.some.inj (next_dot.symm.trans h)).symm⟩
    · cases hprivate : t.isPrivate me d with
      | false => cases (next_of_shared hname hprivate).symm.trans h
      | true =>
        cases hlookup : t.lookup d name with
        | none =>
          rw [next, if_neg hname, if_pos hprivate, hlookup] at h
          cases h
        | some n =>
          exact .inr ⟨name, rest, n, rfl, hname, rfl, hlookup,
            (next_of_lookup hname hprivate hlookup).symm.trans h⟩

/-- A directory is entered. -/
theorem onward_directory (hkind : t.kind n = some .directory) :
    onward t d rest n = some (n, rest) := by
  rw [onward, hkind]

/-- A link's components come first, from the root when it is absolute. -/
theorem onward_link {target : String} (hkind : t.kind n = some (.link target)) :
    onward t d rest n = some (if isAbsolute target then 0 else d, components target ++ rest) := by
  rw [onward, hkind]

/-- The walk goes on in the directory, at the root, or where it was. -/
theorem onward_cases {b : ℕ × List String} (h : onward t d rest n = some b) :
    (t.kind n = some .directory ∧ b.1 = n) ∨ b.1 = 0 ∨ b.1 = d := by
  rw [onward] at h
  split at h
  next hkind =>
    cases h
    exact .inl ⟨hkind, rfl⟩
  next target hkind =>
    cases h
    dsimp only
    split_ifs
    · exact .inr (.inl rfl)
    · exact .inr (.inr rfl)
  · cases h

/-- From a firm directory the walk comes to a firm one. -/
theorem firm_next {b : ℕ × List String} (hd : t.Firm me d) (h : next t me (d, comps) = some b) :
    t.Firm me b.1 := by
  rcases next_cases h with ⟨rest, -, rfl⟩ | ⟨name, rest, n, -, -, hprivate, hlookup, honward⟩
  · exact hd
  rcases onward_cases honward with ⟨hkind, heq⟩ | heq | heq
  · rw [heq]
    rw [FileTree.lookup] at hlookup
    split at hlookup
    · obtain ⟨p, hp, hfirm⟩ := hd.parent_eq
      obtain rfl := Option.some.inj (hp.symm.trans hlookup)
      exact hfirm
    · exact .inside hd hprivate (FileTree.find_eq_some_iff.mp hlookup) hkind
  · exact heq ▸ .root
  · exact heq ▸ hd

/-- So wherever private directories lead is firm. -/
theorem Leads.firm (h : Leads t me path d comps) : t.Firm me d := by
  have hfirm : ∀ b : ℕ × List String,
      Relation.ReflTransGen (fun a b => next t me a = some b) (0, path) b →
      t.Firm me b.1 := by
    intro b hb
    induction hb with
    | refl => exact .root
    | tail _ hstep ih => exact firm_next ih hstep
  exact hfirm _ h

/-- A path leads to one end. -/
theorem Leads.unique {d' : ℕ} {comps' : List String} (h : Leads t me path d comps)
    (h' : Leads t me path d' comps') (hend : next t me (d, comps) = none)
    (hend' : next t me (d', comps') = none) : d = d' ∧ comps = comps' := by
  have hfunctional : Relator.RightUnique fun a b => next t me a = some b :=
    fun _ _ _ hb hc => Option.some.inj (hb.symm.trans hc)
  have hsame : (d, comps) = (d', comps') := by
    rcases Relation.ReflTransGen.total_of_right_unique hfunctional h h' with hon | hon
    · rcases Relation.ReflTransGen.cases_head hon with heq | ⟨b, hb, -⟩
      · exact heq
      · cases hend.symm.trans hb
    · rcases Relation.ReflTransGen.cases_head hon with heq | ⟨b, hb, -⟩
      · exact heq.symm
      · cases hend'.symm.trans hb
  exact Prod.mk.inj hsame

/-- What keeps private directories keeps what is believed. -/
theorem next_keeps {b : ℕ × List String} (h : FileTree.Keeps me t t') (hd : t.Firm me d)
    (hnext : next t me (d, comps) = some b) : next t' me (d, comps) = some b := by
  rcases next_cases hnext with
    ⟨rest, rfl, rfl⟩ | ⟨name, rest, n, rfl, hname, hprivate, hlookup, honward⟩
  · exact next_dot
  · rw [next_of_lookup hname ((h.isPrivate d hd.lt).trans hprivate) (h.lookup hd hprivate hlookup),
      onward, h.kind n (hd.lt_of_lookup hlookup)]
    exact honward

/-- And so where the path leads. -/
theorem Leads.keeps (h : FileTree.Keeps me t t') (hleads : Leads t me path d comps) :
    Leads t' me path d comps := by
  have hkept : ∀ b : ℕ × List String,
      Relation.ReflTransGen (fun a b => next t me a = some b) (0, path) b →
      t.Firm me b.1 ∧ Relation.ReflTransGen (fun a b => next t' me a = some b) (0, path) b := by
    intro b hb
    induction hb with
    | refl => exact ⟨.root, .refl⟩
    | tail _ hstep ih => exact ⟨firm_next ih.1 hstep, ih.2.tail (next_keeps h ih.1 hstep)⟩
  exact (hkept _ hleads).2

/-! ## Where a walk stands

Between two calls the tree may be another. `Stands` is what is still true of the descriptor: it is
where `Leads` says, or behind a directory that others can change. -/

/-- Ours leave links in firm directories only. -/
def LinksFirm (me : ℕ) (t : FileTree) : Prop :=
  ∀ e ∈ t.names, t.isPrivate me e.directory → (∃ target, t.kind e.node = some (.link target)) →
    t.Firm me e.directory

variable (t me path) in
/-- The first directory along the path that others can change, and what of the path is left
there. -/
structure Loose (d : ℕ) (rest : List String) : Prop where
  leads : Leads t me path d rest
  shared : t.isPrivate me d = false
  goesOn : rest ≠ []
  isName : rest.head? ≠ some "."

variable (t me path K) in
/-- Led by private directories, or past the first that others can change. -/
def Stands (d : ℕ) (comps : List String) : Prop :=
  Leads t me path d comps ∨ ∃ loose rest, Loose t me path loose rest ∧
    (K → ".." ∉ rest → ".." ∉ comps ∧ (d = loose ∨ ¬ t.Firm me d))

/-- What a change to the tree keeps, when it adds nothing to the firm part as it was. -/
structure Grows (me : ℕ) (t t' : FileTree) : Prop extends FileTree.Keeps me t t' where
  firm : ∀ n < t.nodes.length, t'.Firm me n → t.Firm me n
  links : LinksFirm me t → LinksFirm me t'

/-- One change after another. -/
theorem Grows.trans {t'' : FileTree} (h : Grows me t t') (h' : Grows me t' t'') :
    Grows me t t'' where
  toKeeps := h.toKeeps.trans h'.toKeeps
  firm n hn hfirm := h.firm n hn (h'.firm n (hn.trans_le h.length) hfirm)
  links hlinks := h'.links (h.links hlinks)

/-- What others do adds no link of ours. -/
theorem grows_leaves (h : FileTree.Leaves me t t') : Grows me t t' where
  toKeeps := h.keeps
  firm _ _ := h.firm_iff.mp
  links hlinks e he hprivate hlink := by
    have hprivate' := (h.isPrivate e.directory).symm.trans hprivate
    have hold := (h.names e hprivate').mp he
    rw [h.kind e.node (t.known e hold).2.1] at hlink
    exact h.firm_iff.mpr (hlinks e hold hprivate' hlink)

/-- What is created is no link. -/
theorem grows_create {node : FileNode} (hnode : ∀ target, node.kind ≠ .link target) :
    Grows me t (t.create d name node) where
  toKeeps := FileTree.keeps_create node
  firm _ hn := FileTree.firm_of_create hn
  links hlinks := by
    by_cases hmade : t.kind d = some .directory ∧ t.find d name = none
    swap
    · rw [FileTree.create, dif_neg hmade]
      exact hlinks
    have hkeeps : FileTree.Keeps me t (t.create d name node) := FileTree.keeps_create node
    obtain ⟨hnames, hnodes⟩ := @FileTree.names_create t d name node hmade.1 hmade.2
    rintro e he hprivate ⟨target, hlink⟩
    rw [hnames] at he
    rcases List.mem_cons.mp he with rfl | he
    · rw [FileTree.kind, kindOf, hnodes, List.getElem?_concat_length] at hlink
      exact absurd (Option.some.inj hlink) (hnode target)
    · have hknown := t.known e he
      rw [hkeeps.isPrivate e.directory hknown.1] at hprivate
      rw [hkeeps.kind e.node hknown.2.1] at hlink
      exact hkeeps.firm (hlinks e he hprivate ⟨target, hlink⟩)

/-- `mkdirat` makes a directory of ours. -/
theorem grows_makeDirectory : Grows me t (t.create d name ⟨.directory, me, false⟩) :=
  grows_create fun _ heq => (by cases heq)

/-- And `openat` a file. -/
theorem grows_makeFile (t : FileTree) (me d : ℕ) (name : String) :
    Grows me t (t.create d name ⟨.file, me, false⟩) :=
  grows_create fun _ heq => (by cases heq)

/-- A directory that others can change stays one. -/
theorem Loose.keeps (h : FileTree.Keeps me t t') (hloose : Loose t me path d rest) :
    Loose t' me path d rest :=
  ⟨hloose.leads.keeps h, (h.isPrivate d hloose.leads.firm.lt).trans hloose.shared, hloose.goesOn,
    hloose.isName⟩

/-- It is where the path stops for whoever believes private directories only. -/
theorem Loose.next_eq_none (h : Loose t me path d rest) : next t me (d, rest) = none := by
  cases hrest : rest with
  | nil => exact absurd hrest h.goesOn
  | cons name rest =>
    have hname := h.isName
    rw [hrest] at hname
    exact next_of_shared (fun heq => hname (congrArg some heq)) h.shared

/-- The walk stands where it stood, whatever was changed. -/
theorem Stands.grows (hd : d < t.nodes.length) (h : Grows me t t')
    (hstands : Stands t me path K d comps) :
    Stands t' me path K d comps := by
  refine hstands.imp (Leads.keeps h.toKeeps) ?_
  rintro ⟨loose, rest, hloose, hon⟩
  refine ⟨loose, rest, hloose.keeps h.toKeeps, fun hK hrest => ?_⟩
  obtain ⟨hcomps, hwhere⟩ := hon hK hrest
  exact ⟨hcomps, hwhere.imp_right fun hno hfirm => hno (h.firm d hd hfirm)⟩

/-- A dot that is passed over changes nothing. -/
theorem Stands.dot (h : Stands t me path K d ("." :: comps)) : Stands t me path K d comps := by
  refine h.imp (fun hleads => hleads.tail next_dot) ?_
  rintro ⟨loose, rest, hloose, hon⟩
  exact ⟨loose, rest, hloose, fun hK hrest => (hon hK hrest).imp_left fun hno hmem => hno
    (List.mem_cons_of_mem _ hmem)⟩

/-- A directory that is entered. -/
theorem Stands.enter (h : Stands t me path K d (name :: comps)) (hname : name ≠ ".")
    (hlookup : t.lookup d name = some n) (hkind : t.kind n = some .directory) :
    Stands t me path K n comps := by
  -- What others can change leads to nothing firm.
  have hastray : t.isPrivate me d = false ∨ ¬ t.Firm me d → ".." ∉ name :: comps →
      ¬ t.Firm me n := by
    intro hwhere hno hfirm
    have hup : name ≠ ".." := fun heq => hno (heq ▸ List.mem_cons_self)
    rw [FileTree.lookup, if_neg hup] at hlookup
    obtain ⟨hd, hprivate⟩ := hfirm.outside (FileTree.find_eq_some_iff.mp hlookup)
    rcases hwhere with hshared | hnot
    · rw [hshared] at hprivate
      cases hprivate
    · exact hnot hd
  rcases h with hleads | ⟨loose, rest, hloose, hon⟩
  · cases hprivate : t.isPrivate me d with
    | true =>
      exact .inl
        (hleads.tail ((next_of_lookup hname hprivate hlookup).trans (onward_directory hkind)))
    | false =>
      refine .inr ⟨d, name :: comps, ⟨hleads, hprivate, List.cons_ne_nil _ _,
        fun heq => hname (Option.some.inj heq)⟩,
        fun _ hno =>
          ⟨fun hmem => hno (List.mem_cons_of_mem _ hmem), .inr (hastray (.inl hprivate) hno)⟩⟩
  · refine .inr ⟨loose, rest, hloose, fun hK hrest => ?_⟩
    obtain ⟨hno, hwhere⟩ := hon hK hrest
    refine ⟨fun hmem => hno (List.mem_cons_of_mem _ hmem), .inr (hastray ?_ hno)⟩
    rcases hwhere with rfl | hnot
    · exact .inl hloose.shared
    · exact .inr hnot

/-- A link that is followed. -/
theorem Stands.follow (h : Stands t me path K d (name :: comps)) (hname : name ≠ ".")
    (hprivate : t.isPrivate me d) (hlookup : t.lookup d name = some n) {target : String}
    (hkind : t.kind n = some (.link target)) (hlinks : K → LinksFirm me t) :
    Stands t me path K (if isAbsolute target then 0 else d) (components target ++ comps) := by
  rcases h with hleads | ⟨loose, rest, hloose, hon⟩
  · exact .inl (hleads.tail ((next_of_lookup hname hprivate hlookup).trans (onward_link hkind)))
  · refine .inr ⟨loose, rest, hloose, fun hK hrest => ?_⟩
    obtain ⟨hno, hwhere⟩ := hon hK hrest
    have hup : name ≠ ".." := fun heq => hno (heq ▸ List.mem_cons_self)
    rw [FileTree.lookup, if_neg hup] at hlookup
    have hfirm := hlinks hK _ (FileTree.find_eq_some_iff.mp hlookup) hprivate ⟨target, hkind⟩
    rcases hwhere with rfl | hnot
    · rw [hloose.shared] at hprivate
      cases hprivate
    · exact absurd hfirm hnot

/-! ## Every run

The three lemmas on one call, of the walk, of the open, and of others, give what a whole run
keeps. -/

variable (t me path K) in
/-- Where a stage has come to. -/
def At : Stage → Prop
  | .look w => t.kind w.current = some .directory ∧ Stands t me path K w.current w.components
  | .make w name | .check w name | .enter w name =>
    name ≠ "." ∧ t.kind w.current = some .directory ∧
      Stands t me path K w.current (name :: w.components)
  | .readLink w name => name ≠ "." ∧ t.isPrivate me w.current ∧ t.kind w.current = some .directory ∧
      Stands t me path K w.current (name :: w.components)
  | .openAt d => t.kind d = some .directory ∧ Stands t me path K d []
  | .opened d _ | .unlinkAt d | .openExclusive d | .created d _ | .returned d _ =>
      t.kind d = some .directory
  | .failed => True

/-- A directory stays one. -/
theorem Grows.directory (h : Grows me t t') (hd : t.kind d = some .directory) :
    t'.kind d = some .directory :=
  (h.kind d (FileTree.lt_of_kind hd)).trans hd

/-- So does whatever the stage knows. -/
theorem At.grows {stage : Stage} (h : Grows me t t') (hat : At t me path K stage) :
    At t' me path K stage := by
  have hstands : ∀ {d : ℕ} {comps : List String}, t.kind d = some .directory →
      Stands t me path K d comps → Stands t' me path K d comps :=
    fun hd => Stands.grows (FileTree.lt_of_kind hd) h
  cases stage with
  | look w => exact ⟨h.directory hat.1, hstands hat.1 hat.2⟩
  | make w name | check w name | enter w name =>
    exact ⟨hat.1, h.directory hat.2.1, hstands hat.2.1 hat.2.2⟩
  | readLink w name =>
    have hlt := FileTree.lt_of_kind hat.2.2.1
    exact ⟨hat.1, (h.isPrivate _ hlt).trans hat.2.1, h.directory hat.2.2.1,
      hstands hat.2.2.1 hat.2.2.2⟩
  | openAt d => exact ⟨h.directory hat.1, hstands hat.1 hat.2⟩
  | opened d f | created d f | returned d f => exact h.directory hat
  | unlinkAt d | openExclusive d => exact h.directory hat
  | failed => trivial

/-- One call of the walk. -/
theorem At.walk (works : Bool) {stage : Stage} (hat : At t o.me path K stage)
    (hlinks : K → LinksFirm o.me t) :
    At (walk o t works stage).1 o.me path K (walk o t works stage).2 := by
  cases stage with
  | look w =>
    obtain ⟨current, comps, hops⟩ := w
    obtain ⟨hkind, hstands⟩ := hat
    cases comps with
    | nil => exact ⟨hkind, hstands⟩
    | cons name rest =>
      rw [ConfinedFile.walk]
      split
      next hdot =>
        subst hdot
        exact ⟨hkind, hstands.dot⟩
      next hname =>
        split
        · split
          · exact ⟨hname, hkind, hstands⟩
          · split
            · split
              · exact ⟨hname, hkind, hstands⟩
              · trivial
            · exact ⟨hname, hkind, hstands⟩
        · trivial
  | make w name =>
    rw [ConfinedFile.walk]
    split
    · split
      · exact hat
      · exact @At.grows _ _ _ _ _ (.enter w name) grows_makeDirectory hat
    · trivial
  | check w name =>
    rw [ConfinedFile.walk]
    dsimp only
    split
    next hprivate => exact ⟨hat.1, (Bool.and_eq_true_iff.mp hprivate).2, hat.2⟩
    · trivial
  | readLink w name =>
    obtain ⟨hname, hprivate, hkind, hstands⟩ := hat
    rw [ConfinedFile.walk]
    split
    next target hlink =>
      split
      · obtain ⟨n, hlookup, hn⟩ := Option.bind_eq_some_iff.mp hlink
        refine ⟨?_, hstands.follow hname hprivate hlookup hn hlinks⟩
        dsimp only
        split_ifs
        · exact t.root
        · exact hkind
      · trivial
    · trivial
  | enter w name =>
    obtain ⟨hname, hkind, hstands⟩ := hat
    rw [ConfinedFile.walk]
    split
    · trivial
    next n hlookup =>
      dsimp only
      split
      next hdirectory =>
        have hn := of_decide_eq_true (Bool.and_eq_true_iff.mp hdirectory).2
        exact ⟨hn, hstands.enter hname hlookup hn⟩
      · trivial
  | openAt d => exact hat
  | opened d f | created d f | returned d f => exact hat
  | unlinkAt d | openExclusive d => exact hat
  | failed => trivial

/-- What is left to open the file keeps its directory. -/
theorem At.openIn (works : Bool) {stage : Stage} (hat : At t o.me path K stage) :
    At (openIn o t works stage).1 o.me path K (openIn o t works stage).2 := by
  have hmade : ∀ {d : ℕ}, t.kind d = some .directory →
      (t.create d o.name ⟨.file, o.me, false⟩).kind d = some .directory :=
    (grows_makeFile t o.me _ o.name).directory
  cases stage with
  | look w | make w name | check w name | readLink w name | enter w name => exact hat
  | openAt d =>
    rw [ConfinedFile.openIn]
    split
    · split
      · split
        · exact hmade hat.1
        · trivial
      · split
        · dsimp only
          split_ifs
          · exact hat.1
          · trivial
        · exact hat.1
    · trivial
  | opened d f =>
    rw [ConfinedFile.openIn]
    dsimp only
    split_ifs
    · exact hat
    · exact hat
    · trivial
  | unlinkAt d =>
    rw [ConfinedFile.openIn]
    split
    · trivial
    · split
      · exact hat
      · trivial
  | openExclusive d =>
    rw [ConfinedFile.openIn]
    split
    · exact hmade hat
    · trivial
  | created d f =>
    rw [ConfinedFile.openIn]
    dsimp only
    split_ifs
    · exact hat
    · trivial
  | returned d f => exact hat
  | failed => trivial

/-- The calls of `openDirectory`. -/
def Stage.isWalking : Stage → Bool
  | .look _ | .make _ _ | .check _ _ | .readLink _ _ | .enter _ _ => true
  | _ => false

/-- The directory a walk is in, and what it has to go. -/
def Stage.place : Stage → Option (ℕ × List String)
  | .look w => some (w.current, w.components)
  | .make w name | .check w name | .readLink w name | .enter w name =>
    some (w.current, name :: w.components)
  | .openAt d => some (d, [])
  | _ => none

/-- The name the next call may change. -/
def Stage.touches (o : Opening) : Stage → Option (ℕ × String)
  | .make w name => some (w.current, name)
  | .openAt d | .unlinkAt d | .openExclusive d => some (d, o.name)
  | _ => none

/-- A walk is in some directory. -/
theorem place_of_isWalking {stage : Stage} (h : stage.isWalking) : stage.place.isSome := by
  cases stage with
  | look w | make w name | check w name | readLink w name | enter w name => rfl
  | openAt d | opened d f | unlinkAt d | openExclusive d | created d f | returned d f
    | failed => cases h

/-- While the walk goes on a call is one of its loop. -/
theorem call_of_isWalking {s : ConfinedFile} (h : s.stage.isWalking) (works : Bool) :
    s.call o works = ⟨(walk o s.tree works s.stage).1, (walk o s.tree works s.stage).2⟩ := by
  rw [call]
  cases hstage : s.stage with
  | look w | make w name | check w name | readLink w name | enter w name => rfl
  | openAt d | opened d f | unlinkAt d | openExclusive d | created d f | returned d f | failed =>
    rw [hstage] at h
    cases h

/-- Behind it a call is one of the open. -/
theorem call_of_not_isWalking {s : ConfinedFile} (h : s.stage.isWalking = false) (works : Bool) :
    s.call o works = ⟨(openIn o s.tree works s.stage).1, (openIn o s.tree works s.stage).2⟩ := by
  rw [call]
  cases hstage : s.stage with
  | openAt d | opened d f | unlinkAt d | openExclusive d | created d f | returned d f
    | failed => rfl
  | look w | make w name | check w name | readLink w name | enter w name =>
    rw [hstage] at h
    cases h

/-- The walk changes a tree by making directories. -/
theorem walk_tree (works : Bool) (stage : Stage) : (walk o t works stage).1 = t ∨
    ∃ d name, stage.touches o = some (d, name) ∧
      (walk o t works stage).1 = t.create d name ⟨.directory, o.me, false⟩ := by
  cases stage with
  | make w name =>
    rw [walk]
    split
    · split
      · exact .inl rfl
      · exact .inr ⟨_, _, rfl, rfl⟩
    · exact .inl rfl
  | look w =>
    left
    obtain ⟨current, comps, hops⟩ := w
    cases comps with
    | nil => rfl
    | cons name rest =>
      rw [walk]
      split
      · rfl
      · split
        · split
          · rfl
          · split
            · split <;> rfl
            · rfl
        · rfl
  | check w name => exact .inl rfl
  | readLink w name =>
    left
    rw [walk]
    split
    · split <;> rfl
    · rfl
  | enter w name =>
    left
    rw [walk]
    split <;> rfl
  | openAt d | opened d f | unlinkAt d | openExclusive d | created d f | returned d f | failed =>
    exact .inl rfl

/-- The rest makes the file, or takes away what is at its name. -/
theorem openIn_tree (works : Bool) (stage : Stage) : (openIn o t works stage).1 = t ∨
    ∃ d, stage.touches o = some (d, o.name) ∧
      ((openIn o t works stage).1 = t.create d o.name ⟨.file, o.me, false⟩ ∨
        (∃ n, t.find d o.name = some n ∧ t.kind n ≠ some .directory) ∧
          (openIn o t works stage).1 = t.removeName d o.name) := by
  cases stage with
  | look w | make w name | check w name | readLink w name | enter w name => exact .inl rfl
  | openAt d =>
    rw [openIn]
    split
    · split
      · split
        · exact .inr ⟨d, rfl, .inl rfl⟩
        · exact .inl rfl
      · split <;> exact .inl rfl
    · exact .inl rfl
  | opened d f => exact .inl rfl
  | unlinkAt d =>
    rw [openIn]
    split
    · exact .inl rfl
    next n hfind =>
      split
      next hplain =>
        exact .inr
          ⟨d, rfl, .inr ⟨⟨n, hfind, of_decide_eq_true (Bool.and_eq_true_iff.mp hplain).2⟩, rfl⟩⟩
      · exact .inl rfl
  | openExclusive d =>
    rw [openIn]
    split
    · exact .inr ⟨d, rfl, .inl rfl⟩
    · exact .inl rfl
  | created d f | returned d f | failed => exact .inl rfl

/-- The walk makes directories and changes nothing else. -/
theorem grows_walk (works : Bool) (stage : Stage) : Grows o.me t (walk o t works stage).1 := by
  rcases @walk_tree o t works stage with hsame | ⟨d, name, -, hmade⟩
  · rw [hsame]
    exact grows_leaves .refl
  · rw [hmade]
    exact grows_makeDirectory

theorem place_openIn (works : Bool) {stage : Stage} (h : stage.isWalking = false) :
    (openIn o t works stage).2.place = none := by
  cases stage with
  | look w | make w name | check w name | readLink w name | enter w name => cases h
  | openAt d =>
    rw [openIn]
    split
    · split
      · split <;> rfl
      · split
        · dsimp only
          split_ifs <;> rfl
        · rfl
    · rfl
  | opened d f =>
    rw [openIn]
    dsimp only
    split_ifs <;> rfl
  | unlinkAt d =>
    rw [openIn]
    split
    · rfl
    · split <;> rfl
  | openExclusive d =>
    rw [openIn]
    split <;> rfl
  | created d f =>
    rw [openIn]
    dsimp only
    split_ifs <;> rfl
  | returned d f | failed => rfl

variable (o path t) in
/-- What holds between any two calls of a run that began with the tree `t`. -/
structure Sound (s : ConfinedFile) : Prop where
  stage : At s.tree o.me path (LinksFirm o.me t) s.stage
  grows : s.stage.place.isSome → Grows o.me t s.tree

/-- One event keeps what the walk stands on. -/
theorem Sound.step {s : ConfinedFile} (h : Sound o t path s) (e : Event) :
    Sound o t path (step o s e) := by
  cases e with
  | others act =>
    have hgrows : Grows o.me s.tree (act.apply s.tree o.me) :=
      grows_leaves (FileTree.leaves_act act)
    exact ⟨h.stage.grows hgrows, fun hplace => (h.grows hplace).trans hgrows⟩
  | call works =>
    rw [ConfinedFile.step]
    cases hwalking : s.stage.isWalking with
    | true =>
      have hbegun := h.grows (place_of_isWalking hwalking)
      rw [call_of_isWalking hwalking]
      exact ⟨h.stage.walk works hbegun.links, fun _ => hbegun.trans (grows_walk works s.stage)⟩
    | false =>
      rw [call_of_not_isWalking hwalking]
      refine ⟨h.stage.openIn works, fun hplace => ?_⟩
      dsimp only at hplace
      rw [place_openIn works hwalking] at hplace
      cases hplace

/-- An absolute path starts at the root. -/
theorem sound_start (o : Opening) (t : FileTree) (directory : String) :
    Sound o t (components directory) (start t directory) := by
  rw [start]
  split_ifs
  · exact ⟨⟨t.root, .inl .refl⟩, fun _ => grows_leaves .refl⟩
  · exact ⟨trivial, fun hplace => (by cases hplace)⟩

/-- **So it does over any interleaving.** -/
theorem sound_after (o : Opening) (t : FileTree) (directory : String) (es : List Event) :
    Sound o t (components directory) (after o t directory es) :=
  Run.invariant (fun _ e h => h.step e) es (sound_start o t directory)

end ConfinedFile
