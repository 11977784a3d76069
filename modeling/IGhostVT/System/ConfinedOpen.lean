import IGhostVT.System.ConfinedWalk
import Mathlib.Data.List.Induction
import Mathlib.Data.Prod.Lex

/-!
# System/ConfinedOpen — what an open touches, and what it hands back

`confined_after`: whatever others do between the calls, a firm private directory keeps its names,
but for a directory made where the path leads through it and for the file where the path ends.
`opens_own`: the file that comes back has no other name in a private directory, as long as no one
takes its name away between its opening and the check; in `planted_returned` someone does.
`opens_end`: others cannot keep an open going.
-/

namespace ConfinedFile

variable {o : Opening} {t t' : FileTree} {s : ConfinedFile} {d f n me : ℕ} {name directory : String}
  {path : List String} {es : List Event}

/-! ## What a run touches -/

theorem mem_create {e : FileName} {node : FileNode} (hplace : (d, name) ≠ e.place) :
    e ∈ (t.create d name node).names ↔ e ∈ t.names := by
  by_cases hmade : t.kind d = some .directory ∧ t.find d name = none
  · rw [(FileTree.names_create hmade.1 hmade.2).1, List.mem_cons, or_iff_right]
    rintro rfl
    exact hplace rfl
  · rw [FileTree.create, dif_neg hmade]

theorem mem_call {e : FileName} (works : Bool) (h : s.stage.touches o ≠ some e.place) :
    e ∈ (s.call o works).tree.names ↔ e ∈ s.tree.names := by
  cases hwalking : s.stage.isWalking with
  | true =>
    rw [call_of_isWalking hwalking]
    rcases @walk_tree o s.tree works s.stage with hsame | ⟨d, name, htouches, hmade⟩
    · rw [hsame]
    · rw [hmade]
      exact mem_create fun heq => h (htouches.trans (congrArg some heq))
  | false =>
    rw [call_of_not_isWalking hwalking]
    rcases @openIn_tree o s.tree works s.stage with hsame | ⟨d, htouches, hmade | ⟨-, hgone⟩⟩
    · rw [hsame]
    · rw [hmade]
      exact mem_create fun heq => h (htouches.trans (congrArg some heq))
    · rw [hgone]
      exact FileTree.mem_removeName.trans
        (and_iff_left fun heq => h (htouches.trans (congrArg some heq.symm)))

/-- A node stays what it is, and a private directory private. -/
theorem nodes_step (e : Event) (hn : n < s.tree.nodes.length) :
    n < (step o s e).tree.nodes.length ∧
    (step o s e).tree.isPrivate o.me n = s.tree.isPrivate o.me n := by
  cases e with
  | others act =>
    have hleaves := @FileTree.leaves_act s.tree o.me act
    exact ⟨hn.trans_le hleaves.length, hleaves.isPrivate n⟩
  | call works =>
    rw [step]
    have hcreate : ∀ {d : ℕ} {name : String} {node : FileNode},
        n < (s.tree.create d name node).nodes.length ∧
          (s.tree.create d name node).isPrivate o.me n = s.tree.isPrivate o.me n :=
      fun {d name node} =>
        have hkeeps := @FileTree.keeps_create s.tree d name o.me node
        ⟨hn.trans_le hkeeps.length, hkeeps.isPrivate n hn⟩
    cases hwalking : s.stage.isWalking with
    | true =>
      rw [call_of_isWalking hwalking]
      rcases @walk_tree o s.tree works s.stage with hsame | ⟨d, name, -, hmade⟩
      · rw [hsame]
        exact ⟨hn, rfl⟩
      · rw [hmade]
        exact hcreate
    | false =>
      rw [call_of_not_isWalking hwalking]
      rcases @openIn_tree o s.tree works s.stage with hsame | ⟨d, -, hmade | ⟨-, hgone⟩⟩
      · rw [hsame]
        exact ⟨hn, rfl⟩
      · rw [hmade]
        exact hcreate
      · rw [hgone]
        exact ⟨hn, rfl⟩

/-- A private directory's name changes when a call touches it, and at no other time. -/
theorem names_run {e : FileName} : ∀ (es : List Event) {s : ConfinedFile},
    s.tree.isPrivate o.me e.directory → e.directory < s.tree.nodes.length →
      (e ∈ (Run.after (step o) s es).tree.names ↔ e ∈ s.tree.names) ∨
        ∃ k s' works, s' = Run.after (step o) s (es.take k) ∧ s'.stage.touches o = some e.place ∧
          ¬ (e ∈ (s'.call o works).tree.names ↔ e ∈ s'.tree.names)
  | [], _, _, _ => .inl Iff.rfl
  | event :: es, s, hprivate, hknown => by
    obtain ⟨hknown', hsame⟩ := @nodes_step o s _ event hknown
    rcases names_run es (hsame.trans hprivate) hknown' with
      hrest | ⟨k, s', works, rfl, htouches, hchange⟩
    swap
    · exact .inr ⟨k + 1, _, works, rfl, htouches, hchange⟩
    cases event with
    | others act => exact .inl (hrest.trans ((FileTree.leaves_act act).names e hprivate))
    | call works =>
      by_cases hchange : e ∈ (s.call o works).tree.names ↔ e ∈ s.tree.names
      · exact .inl (hrest.trans hchange)
      · exact .inr ⟨0, s, works, rfl, not_imp_comm.mp (mem_call works) hchange, hchange⟩

/-- What making a component changes. -/
theorem made_of_call {w : Walk} {works : Bool} {e : FileName} (hstage : s.stage = .make w name)
    (hchange : ¬ (e ∈ (s.call o works).tree.names ↔ e ∈ s.tree.names)) :
    s.tree.find e.directory e.name = none ∧ e.node = s.tree.nodes.length := by
  rw [call_of_isWalking (by rw [hstage]; rfl), hstage] at hchange
  rcases @walk_tree o s.tree works (.make w name) with hsame | ⟨d, name', -, hmade⟩
  · rw [hsame] at hchange
    exact absurd Iff.rfl hchange
  · rw [hmade] at hchange
    by_cases hfree : s.tree.kind d = some .directory ∧ s.tree.find d name' = none
    swap
    · rw [FileTree.create, dif_neg hfree] at hchange
      exact absurd Iff.rfl hchange
    rw [(FileTree.names_create hfree.1 hfree.2).1, List.mem_cons] at hchange
    have hnew : e = ⟨d, name', s.tree.nodes.length⟩ := by
      by_contra hne
      exact hchange (or_iff_right hne)
    rw [hnew]
    exact ⟨hfree.2, rfl⟩

/-- The directory the file is opened in. -/
def Stage.within : Stage → Option ℕ
  | .openAt d | .opened d _ | .unlinkAt d | .openExclusive d | .created d _
    | .returned d _ => some d
  | _ => none

theorem within_walk {works : Bool} {stage : Stage} (hwalking : stage.isWalking)
    (h : (walk o t works stage).2.within = some d) : (walk o t works stage).2 = .openAt d := by
  cases stage with
  | look w =>
    obtain ⟨current, comps, hops⟩ := w
    cases comps with
    | nil => exact congrArg Stage.openAt (Option.some.inj h)
    | cons name rest =>
      rw [walk] at h
      split at h
      · cases h
      · split at h
        · split at h
          · cases h
          · split at h
            · split at h <;> cases h
            · cases h
        · cases h
  | make w name =>
    rw [walk] at h
    split_ifs at h <;> cases h
  | check w name =>
    rw [walk] at h
    dsimp only at h
    split_ifs at h <;> cases h
  | readLink w name =>
    rw [walk] at h
    split at h
    · split_ifs at h <;> cases h
    · cases h
  | enter w name =>
    rw [walk] at h
    split at h
    · cases h
    · dsimp only at h
      split_ifs at h <;> cases h
  | openAt d | opened d f | unlinkAt d | openExclusive d | created d f | returned d f | failed =>
    cases hwalking

theorem within_openIn {works : Bool} {stage : Stage} (hwalking : stage.isWalking = false)
    (h : (openIn o t works stage).2.within = some d) : stage.within = some d := by
  cases stage with
  | look w | make w name | check w name | readLink w name | enter w name => cases hwalking
  | openAt d' =>
    rw [openIn] at h
    split at h
    · split at h
      · split at h
        · exact h
        · cases h
      · split at h
        · dsimp only at h
          split_ifs at h
          · exact h
          · cases h
        · exact h
    · cases h
  | opened d' f =>
    rw [openIn] at h
    dsimp only at h
    split_ifs at h
    · exact h
    · exact h
    · cases h
  | unlinkAt d' =>
    rw [openIn] at h
    split at h
    · cases h
    · split at h
      · exact h
      · cases h
  | openExclusive d' =>
    rw [openIn] at h
    split at h
    · exact h
    · cases h
  | created d' f =>
    rw [openIn] at h
    dsimp only at h
    split_ifs at h
    · exact h
    · cases h
  | returned d' f => exact h
  | failed => cases h

/-- The file is opened in the directory the walk came to. -/
theorem opened_at (h : (after o t directory es).stage.within = some d) :
    ∃ k, (after o t directory (es.take k)).stage = .openAt d := by
  induction es using List.reverseRecOn with
  | nil =>
    rw [after, Run.after_nil, start] at h
    dsimp only at h
    split_ifs at h <;> cases h
  | append_singleton es e ih =>
    have hbefore : (after o t directory es).stage.within = some d →
        ∃ k, (after o t directory ((es ++ [e]).take k)).stage = .openAt d := by
      intro hwithin
      obtain ⟨k, hk⟩ := ih hwithin
      refine ⟨min k es.length, ?_⟩
      rwa [List.take_append_of_le_length (Nat.min_le_right _ _), ← List.take_eq_take_min]
    rw [after, Run.after_append, Run.after_cons, Run.after_nil] at h
    cases e with
    | others act => exact hbefore h
    | call works =>
      rw [step] at h
      cases hwalking : (after o t directory es).stage.isWalking with
      | true =>
        rw [after] at hwalking
        rw [call_of_isWalking hwalking] at h
        refine ⟨(es ++ [Event.call works]).length, ?_⟩
        rw [List.take_length, after, Run.after_append, Run.after_cons, Run.after_nil, step,
          call_of_isWalking hwalking]
        exact within_walk hwalking h
      | false =>
        rw [after] at hwalking
        rw [call_of_not_isWalking hwalking] at h
        exact hbefore (within_openIn hwalking h)

/-! ## What others cannot do -/

variable (o t directory es) in
/-- What an open keeps to, whatever others do between its calls. -/
structure Confined : Prop where
  /-- Where the walk is. -/
  stands : ∀ d comps, (after o t directory es).stage.place = some (d, comps) →
    Stands (after o t directory es).tree o.me (components directory) (LinksFirm o.me t) d comps
  /-- Where private directories lead the path to an end, it ends. -/
  believed : ∀ d d' f, Leads t o.me (components directory) d' [] →
    (after o t directory es).stage = .returned d f → d = d'
  /-- A firm private directory's names stay, but for a component that was missing when it was made,
  and for the file. -/
  names : ∀ e, t.Firm o.me e.directory → t.isPrivate o.me e.directory →
    (e ∈ (after o t directory es).tree.names ↔ e ∈ t.names) ∨
      ∃ k s, s = after o t directory (es.take k) ∧
        (((∃ rest, Leads s.tree o.me (components directory) e.directory (e.name :: rest)) ∧
            s.tree.find e.directory e.name = none ∧ e.node = s.tree.nodes.length) ∨
          (e.name = o.name ∧ Leads s.tree o.me (components directory) e.directory []) ∨
          ∃ loose rest, Loose s.tree o.me (components directory) loose rest ∧
            (LinksFirm o.me t → ".." ∈ rest))

theorem Stands.end_eq {K : Prop} {d' : ℕ} (h : Stands t me path K d [])
    (hleads : Leads t me path d' []) :
    d = d' := by
  rcases h with hon | ⟨loose, rest, hloose, -⟩
  · exact (hon.unique hleads rfl rfl).1
  · exact absurd (hloose.leads.unique hleads hloose.next_eq_none rfl).2 hloose.goesOn

/-- A firm private directory that a walk has come to is one private directories led it to. -/
theorem Stands.leads {K : Prop} {comps : List String} (h : Stands t me path K d comps)
    (hfirm : t.Firm me d) (hprivate : t.isPrivate me d) :
    Leads t me path d comps ∨ ∃ loose rest, Loose t me path loose rest ∧ (K → ".." ∈ rest) := by
  refine h.imp_right ?_
  rintro ⟨loose, rest, hloose, hon⟩
  refine ⟨loose, rest, hloose, fun hK => ?_⟩
  by_contra hrest
  rcases (hon hK hrest).2 with rfl | hno
  · rw [hloose.shared] at hprivate
    cases hprivate
  · exact hno hfirm

theorem touches_cases {stage : Stage} {e : FileName} (h : stage.touches o = some e.place) :
    (∃ w name, stage = .make w name ∧ (w.current, name) = e.place) ∨
      (stage.within = some e.directory ∧ o.name = e.name) := by
  cases stage with
  | make w name => exact .inl ⟨w, name, rfl, Option.some.inj h⟩
  | openAt d | unlinkAt d | openExclusive d =>
    obtain ⟨hd, hname⟩ := Prod.mk.inj (Option.some.inj h)
    exact .inr ⟨congrArg some hd, hname⟩
  | look w | check w name | readLink w name | enter w name | opened d f | created d f | returned d f
    | failed =>
    cases h

/-- **An open is confined**, over any interleaving of its calls with what others do. -/
theorem confined_after (o : Opening) (t : FileTree) (directory : String) (es : List Event) :
    Confined o t directory es where
  stands d comps hplace := by
    have hat := (sound_after o t directory es).stage
    cases hstage : (after o t directory es).stage with
    | look w =>
      rw [hstage] at hat hplace
      cases hplace
      exact hat.2
    | make w name | check w name | enter w name =>
      rw [hstage] at hat hplace
      cases hplace
      exact hat.2.2
    | readLink w name =>
      rw [hstage] at hat hplace
      cases hplace
      exact hat.2.2.2
    | openAt d =>
      rw [hstage] at hat hplace
      cases hplace
      exact hat.2
    | opened d f | unlinkAt d | openExclusive d | created d f | returned d f | failed =>
      rw [hstage] at hplace
      cases hplace
  believed d d' f hleads hstage := by
    obtain ⟨k, hk⟩ := opened_at (congrArg Stage.within hstage)
    have hsound := sound_after o t directory (es.take k)
    have hat := hsound.stage
    have hgrows := hsound.grows
    rw [hk] at hat hgrows
    exact hat.2.end_eq (hleads.keeps (hgrows rfl).toKeeps)
  names e hfirm hprivate := by
    refine (names_run es hprivate hfirm.lt).imp_right ?_
    rintro ⟨k, s, works, hs, hk, hchange⟩
    obtain rfl : s = after o t directory (es.take k) := hs
    -- A firm private directory that the walk was in then.
    have hthere : ∀ {j : ℕ} {comps : List String},
        (after o t directory (es.take j)).stage.place = some (e.directory, comps) →
          Stands (after o t directory (es.take j)).tree o.me (components directory)
            (LinksFirm o.me t)
            e.directory comps →
          Leads (after o t directory (es.take j)).tree o.me (components directory)
            e.directory comps ∨
            ∃ loose rest,
              Loose (after o t directory (es.take j)).tree o.me (components directory) loose rest ∧
              (LinksFirm o.me t → ".." ∈ rest) := by
      intro j comps hplace hstands
      have hkeeps := ((sound_after o t directory (es.take j)).grows (by rw [hplace]; rfl)).toKeeps
      exact hstands.leads (hkeeps.firm hfirm) ((hkeeps.isPrivate _ hfirm.lt).trans hprivate)
    rcases touches_cases hk with ⟨w, name, hstage, heq⟩ | ⟨hwithin, heq⟩
    · obtain ⟨hdirectory, hname⟩ := Prod.mk.inj heq
      have hat := (sound_after o t directory (es.take k)).stage
      rw [hstage] at hat
      have hstands := hat.2.2
      rw [hdirectory, hname] at hstands
      refine ⟨k, _, rfl, (hthere ?_ hstands).elim
        (fun hleads => .inl ⟨⟨_, hleads⟩, made_of_call hstage hchange⟩) fun hloose =>
          .inr (.inr hloose)⟩
      rw [hstage, ← hdirectory, ← hname]
      rfl
    · obtain ⟨j, hj⟩ := opened_at hwithin
      rw [List.take_take] at hj
      have hat := (sound_after o t directory (es.take (min j k))).stage
      rw [hj] at hat
      refine ⟨min j k, _, rfl, (hthere ?_ hat.2).elim (fun hleads => .inr (.inl ⟨heq.symm, hleads⟩))
        fun hloose => .inr (.inr hloose)⟩
      rw [hj]
      rfl

/-! ## The file that comes back -/

/-- No one takes its name from the file that was opened, before it is looked at. -/
def keepsName (o : Opening) (s : ConfinedFile) (e : Event) : Bool :=
  match s.stage with
  | .opened d f | .created d f => (step o s e).tree.find d o.name = some f
  | _ => true

variable (o) in
/-- What is known of an opened file. -/
def Held (t : FileTree) : Stage → Prop
  | .opened d f | .created d f => t.find d o.name = some f
  | .returned d f => t.kind f = some .file ∧ t.owner f = some o.me ∧
      ∀ e ∈ t.names, e.node = f → t.isPrivate o.me e.directory → e.place = (d, o.name)
  | _ => True

/-- What has one link has one name. -/
theorem eq_of_linkCount {e e' : FileName} (h : t.linkCount f = 1) (he : e ∈ t.names)
    (hnode : e.node = f) (he' : e' ∈ t.names) (hnode' : e'.node = f) : e' = e := by
  rw [FileTree.linkCount, List.countP_eq_length_filter, List.length_eq_one_iff] at h
  obtain ⟨a, ha⟩ := h
  have hall : ∀ {e : FileName}, e ∈ t.names → e.node = f → e = a := by
    intro e hmem hnode
    have hin : e ∈ t.names.filter fun e => e.node = f :=
      List.mem_filter.mpr ⟨hmem, decide_eq_true hnode⟩
    rw [ha] at hin
    exact List.mem_singleton.mp hin
  exact (hall he' hnode').trans (hall he hnode).symm

theorem plain_spec (h : isOwnedPlainFile t me f) :
    t.kind f = some .file ∧ t.linkCount f = 1 ∧ t.owner f = some me := by
  obtain ⟨node, hnode, hchecks⟩ := (Option.any_eq_true _ _).mp h
  rw [Bool.and_eq_true, Bool.and_eq_true, decide_eq_true_iff, decide_eq_true_iff,
    decide_eq_true_iff] at hchecks
  obtain ⟨⟨hkind, hcount⟩, howner⟩ := hchecks
  refine ⟨?_, hcount, ?_⟩
  · rw [FileTree.kind, kindOf, hnode, Option.map_some, hkind]
  · rw [FileTree.owner, hnode, Option.map_some, howner]

theorem held_returned (h : t.find d o.name = some f) (hplain : isOwnedPlainFile t o.me f) :
    Held o t (.returned d f) := by
  obtain ⟨hkind, hcount, howner⟩ := plain_spec hplain
  refine ⟨hkind, howner, fun e he hof _ => ?_⟩
  rw [eq_of_linkCount hcount (FileTree.find_eq_some_iff.mp h) rfl he hof]
  rfl

theorem find_create {node : FileNode} (hd : t.kind d = some .directory)
    (hfree : t.find d name = none) :
    (t.create d name node).find d name = some t.nodes.length := by
  rw [FileTree.find_eq_some_iff, (FileTree.names_create hd hfree).1]
  exact List.mem_cons_self

theorem Held.openIn {K : Prop} (works : Bool) {stage : Stage} (hat : At t o.me path K stage)
    (h : Held o t stage) : Held o (openIn o t works stage).1 (openIn o t works stage).2 := by
  cases stage with
  | look w | make w name | check w name | readLink w name | enter w name => trivial
  | openAt d =>
    rw [ConfinedFile.openIn]
    split
    · split
      next hfree =>
        split
        · exact find_create hat.1 hfree
        · trivial
      next f hfind =>
        split
        · dsimp only
          split_ifs <;> trivial
        · exact hfind
    · trivial
  | opened d f =>
    rw [ConfinedFile.openIn]
    dsimp only
    split_ifs with hplain
    · exact held_returned h (Bool.and_eq_true_iff.mp hplain).2
    · trivial
    · trivial
  | unlinkAt d =>
    rw [ConfinedFile.openIn]
    split
    · trivial
    · split <;> trivial
  | openExclusive d =>
    rw [ConfinedFile.openIn]
    split
    next hfree =>
      exact find_create hat (Option.isNone_iff_eq_none.mp (Bool.and_eq_true_iff.mp hfree).2)
    · trivial
  | created d f =>
    rw [ConfinedFile.openIn]
    dsimp only
    split_ifs with hplain
    · exact held_returned h (Bool.and_eq_true_iff.mp hplain).2
    · trivial
  | returned d f => exact h
  | failed => trivial

theorem held_walk {works : Bool} {stage : Stage} (hwalking : stage.isWalking) :
    Held o (walk o t works stage).1 (walk o t works stage).2 := by
  cases hstage : (walk o t works stage).2 with
  | opened d f | created d f | returned d f =>
    have hopen := @within_walk o t d works stage hwalking (by rw [hstage]; rfl)
    rw [hstage] at hopen
    cases hopen
  | look w | make w name | check w name | readLink w name | enter w name | openAt d | unlinkAt d
  | openExclusive d | failed => trivial

theorem Held.step {K : Prop} (e : Event) (hat : At s.tree o.me path K s.stage)
    (hkeeps : keepsName o s e) (h : Held o s.tree s.stage) :
    Held o (step o s e).tree (step o s e).stage := by
  cases e with
  | call works =>
    rw [ConfinedFile.step]
    cases hwalking : s.stage.isWalking with
    | true =>
      rw [call_of_isWalking hwalking]
      exact held_walk hwalking
    | false =>
      rw [call_of_not_isWalking hwalking]
      exact h.openIn works hat
  | others act =>
    change Held o (act.apply s.tree o.me) s.stage
    have hleaves := @FileTree.leaves_act s.tree o.me act
    rw [keepsName] at hkeeps
    cases hstage : s.stage with
    | opened d f | created d f =>
      rw [hstage] at hkeeps
      have hkept : (act.apply s.tree o.me).find d o.name = some f := of_decide_eq_true hkeeps
      exact hkept
    | returned d f =>
      rw [hstage] at h
      obtain ⟨hkind, howner, hnames⟩ := h
      have hlt := FileTree.lt_of_kind hkind
      refine ⟨(hleaves.kind f hlt).trans hkind, (hleaves.owner f hlt).trans howner,
        fun e he hof hprivate => ?_⟩
      have hprivate' := (hleaves.isPrivate e.directory).symm.trans hprivate
      exact hnames e ((hleaves.names e hprivate').mp he) hof hprivate'
    | look w | make w name | check w name | readLink w name | enter w name | openAt d | unlinkAt d
    | openExclusive d | failed => trivial

/-- **The file that comes back is a plain file of ours with no other name in a private directory**,
then and ever after, if no one takes its name away between its opening and the check. -/
theorem opens_own (hkeeps : Run.Along (step o) (fun s e => keepsName o s e) (start t directory) es)
    (hstage : (after o t directory es).stage = .returned d f) :
    (after o t directory es).tree.kind f = some .file ∧
    (after o t directory es).tree.owner f = some o.me ∧
      ∀ e ∈ (after o t directory es).tree.names, e.node = f →
        (after o t directory es).tree.isPrivate o.me e.directory → e.place = (d, o.name) := by
  have hheld : Sound o t (components directory) (after o t directory es) ∧
      Held o (after o t directory es).tree (after o t directory es).stage := by
    have hbegun : Held o (start t directory).tree (start t directory).stage := by
      rw [start]
      split_ifs <;> trivial
    have hstep : ∀ (s : ConfinedFile) (e : Event),
        Sound o t (components directory) s ∧ Held o s.tree s.stage → keepsName o s e →
          Sound o t (components directory) (step o s e) ∧
          Held o (step o s e).tree (step o s e).stage :=
      fun s e hs hkept => ⟨hs.1.step e, hs.2.step e hs.1.stage hkept⟩
    exact Run.Along.invariant hstep es ⟨sound_start o t directory, hbegun⟩ hkeeps
  have hfile := hheld.2
  rw [hstage] at hfile
  exact hfile

/-- `/etc`, with a file of root's, and `/Logs`, another user's. -/
def planted : FileTree where
  nodes :=
    [⟨.directory, 0, false⟩, ⟨.directory, 0, false⟩, ⟨.file, 0, false⟩, ⟨.directory, 501, false⟩]
  names := [⟨0, "etc", 1⟩, ⟨1, "sudoers", 2⟩, ⟨0, "Logs", 3⟩]
  root := rfl
  known := by decide
  apart := by decide
  single := by decide

/-- Root opens its log there. -/
def rootLog : Opening := ⟨0, "daemon.log", true⟩

/-- The other user gives root's file the log's name, and root opens it. -/
def plant : List Event :=
  [.others (.link 2 3 "daemon.log"), .call true, .call true, .call true, .call true]

/-- The name is still there at the check, and the log is made afresh. -/
theorem opens_own_planted :
    ∃ es d f, (after rootLog planted "/Logs" (plant ++ es)).stage = .returned d f ∧
    f ≠ 2 ∧ (after rootLog planted "/Logs" (plant ++ es)).tree.owner f = some 0 :=
  have hstage : (after rootLog planted "/Logs" (plant ++ List.replicate 4 (.call true))).stage
      = .returned 3 4 := by decide +kernel
  ⟨_, 3, 4, hstage, by decide, (opens_own (by decide +kernel) hstage).2.1⟩

/-- The name is gone before the check: it is root's file that comes back. -/
theorem planted_returned : (after rootLog planted "/Logs"
    (plant ++ [.others (.unlink 3 "daemon.log"), .call true])).stage = .returned 3 2 := by
  decide +kernel

/-! ## An open that is left alone -/

theorem step_openIn {stage : Stage} (h : stage.isWalking = false) : step o ⟨t, stage⟩ (.call true)
    = ⟨(openIn o t true stage).1, (openIn o t true stage).2⟩ :=
  @call_of_not_isWalking o ⟨t, stage⟩ h true

theorem isOwnedPlainFile_create (hd : t.kind d = some .directory) (hfree : t.find d name = none) :
    isOwnedPlainFile (t.create d name ⟨.file, me, false⟩) me t.nodes.length := by
  obtain ⟨hnames, hnodes⟩ := @FileTree.names_create t d name ⟨.file, me, false⟩ hd hfree
  have hnone : t.names.countP (fun e => e.node = t.nodes.length) = 0 := by
    rw [List.countP_eq_zero]
    intro e he
    rw [decide_eq_true_iff]
    exact (t.known e he).2.1.ne
  have hcount : (t.create d name ⟨.file, me, false⟩).linkCount t.nodes.length = 1 := by
    rw [FileTree.linkCount, hnames, List.countP_cons, hnone, if_pos (decide_eq_true rfl)]
  rw [isOwnedPlainFile, hnodes, List.getElem?_concat_length, Option.any_some, hcount]
  simp

theorem find_removeName (t : FileTree) (d : ℕ) (name : String) :
    (t.removeName d name).find d name = none := by
  cases hgone : (t.removeName d name).find d name with
  | none => rfl
  | some f => exact absurd rfl (FileTree.mem_removeName.mp (FileTree.find_eq_some_iff.mp hgone)).2

theorem after_returned (k : ℕ) :
    Run.after (step o) ⟨t, .returned d f⟩ (List.replicate k (.call true))
    = ⟨t, .returned d f⟩ := by
  induction k with
  | zero => rfl
  | succ k ih => exact ih

/-- A name that was cleared. -/
theorem after_openExclusive (k : ℕ) (hd : t.kind d = some .directory)
    (hfree : t.find d o.name = none) :
    Run.after (step o) ⟨t, .openExclusive d⟩ (List.replicate (k + 2) (.call true))
      = ⟨t.create d o.name ⟨.file, o.me, false⟩, .returned d t.nodes.length⟩ := by
  have hplain := @isOwnedPlainFile_create t d o.me o.name hd hfree
  rw [List.replicate_succ, Run.after_cons, step_openIn rfl, openIn, hfree, Option.isNone_none,
    Bool.and_true, if_pos rfl, List.replicate_succ, Run.after_cons, step_openIn rfl, openIn]
  dsimp only
  rw [hplain, Bool.and_true, if_pos rfl]
  exact after_returned k

theorem after_unlinkAt (k : ℕ) (hd : t.kind d = some .directory) (hfind : t.find d o.name = some n)
    (hplain : t.kind n ≠ some .directory) :
    Run.after (step o) ⟨t, .unlinkAt d⟩ (List.replicate (k + 3) (.call true))
      = ⟨(t.removeName d o.name).create d o.name ⟨.file, o.me, false⟩,
        .returned d t.nodes.length⟩ := by
  rw [List.replicate_succ, Run.after_cons, step_openIn rfl, openIn, hfind]
  dsimp only
  rw [decide_eq_true hplain, Bool.and_true, if_pos rfl]
  exact after_openExclusive k hd (find_removeName t d o.name)

/-- **What others left at the name costs what was there, and no more**: left alone from then on, the
open comes to a file of ours under that name, and to the one that was there if it was such a
file. -/
theorem opens_anyway (hd : t.kind d = some .directory) (hcreates : o.creates)
    (hplain : ∀ n, t.find d o.name = some n → t.kind n ≠ some .directory) :
    ∃ t' f, Run.after (step o) ⟨t, .openAt d⟩ (List.replicate 5 (.call true)) =
      ⟨t', .returned d f⟩ ∧
      t'.find d o.name = some f ∧ isOwnedPlainFile t' o.me f ∧
      ∀ n, t.find d o.name = some n → isOwnedPlainFile t o.me n → f = n ∧ t' = t := by
  -- What is made under the name once it is free.
  have hmade : ∀ {t₀ : FileTree}, t₀.kind d = some .directory → t₀.find d o.name = none →
      (t₀.create d o.name ⟨.file, o.me, false⟩).find d o.name = some t₀.nodes.length ∧
        isOwnedPlainFile (t₀.create d o.name ⟨.file, o.me, false⟩) o.me t₀.nodes.length :=
    fun hd hfree => ⟨find_create hd hfree, isOwnedPlainFile_create hd hfree⟩
  rw [List.replicate_succ, Run.after_cons, step_openIn rfl, openIn, if_pos rfl]
  cases hfind : t.find d o.name with
  | none =>
    obtain ⟨hnamed, hours⟩ := hmade hd hfind
    refine ⟨_, _, ?_, hnamed, hours, fun n hn => (by cases hn)⟩
    dsimp only
    rw [if_pos hcreates, List.replicate_succ, Run.after_cons, step_openIn rfl, openIn]
    dsimp only
    rw [hours, Bool.and_true, if_pos rfl]
    exact after_returned 3
  | some n =>
    have hn := hplain n hfind
    have hgone := @after_unlinkAt o t d n
    obtain ⟨hnamed, hours⟩ := @hmade (t.removeName d o.name) hd (find_removeName t d o.name)
    -- What is neither a plain file of ours nor a directory is cleared.
    have hcleared : isOwnedPlainFile t o.me n = false → ∀ k, ∃ t' f,
        Run.after (step o) ⟨t, .unlinkAt d⟩ (List.replicate (k + 3) (.call true)) =
        ⟨t', .returned d f⟩ ∧
          t'.find d o.name = some f ∧ isOwnedPlainFile t' o.me f ∧
          ∀ n', some n = some n' → isOwnedPlainFile t o.me n' → f = n' ∧ t' = t := by
      intro hforeign k
      refine ⟨_, _, hgone k hd hfind hn, hnamed, hours, ?_⟩
      rintro _ ⟨⟩ hours'
      rw [hforeign] at hours'
      cases hours'
    dsimp only
    split
    next target hlink =>
      rw [if_pos hcreates]
      refine hcleared (Bool.eq_false_iff.mpr fun hplain => ?_) 1
      cases hlink.symm.trans (plain_spec hplain).1
    · rw [List.replicate_succ, Run.after_cons, step_openIn rfl, openIn]
      cases hours : isOwnedPlainFile t o.me n with
      | true =>
        refine ⟨t, n, ?_, hfind, hours, ?_⟩
        · exact after_returned 3
        · rintro _ ⟨⟩ -
          exact ⟨rfl, rfl⟩
      | false =>
        dsimp only
        rw [Bool.and_false, if_neg Bool.false_ne_true, if_pos hcreates]
        exact hcleared hours 0

/-! ## Every open ends -/

/-- Nothing more is called. -/
def Stage.isOver : Stage → Bool
  | .returned _ _ | .failed => true
  | _ => false

/-- How far the end is: the links it may follow, the components it has left, and the calls for
one. -/
def Stage.rank : Stage → ℕ ×ₗ ℕ ×ₗ ℕ
  | .look w => toLex (2 * (maximumLinkHops + 1 - w.hops) + 2, toLex (w.components.length, 3))
  | .make w _ => toLex (2 * (maximumLinkHops + 1 - w.hops) + 2, toLex (w.components.length + 1, 2))
  | .enter w _ => toLex (2 * (maximumLinkHops + 1 - w.hops) + 2, toLex (w.components.length + 1, 1))
  | .check w _ => toLex (2 * (maximumLinkHops + 1 - w.hops) + 3, toLex (0, 1))
  | .readLink w _ => toLex (2 * (maximumLinkHops + 1 - w.hops) + 3, toLex (0, 0))
  | .openAt _ => toLex (1, toLex (0, 4))
  | .opened _ _ => toLex (1, toLex (0, 3))
  | .unlinkAt _ => toLex (1, toLex (0, 2))
  | .openExclusive _ => toLex (1, toLex (0, 1))
  | .created _ _ => toLex (1, toLex (0, 0))
  | .returned _ _ | .failed => toLex (0, toLex (0, 0))

theorem lex_lt_of_fst {a a' b b' c c' : ℕ} (h : a < a') :
    (toLex (a, toLex (b, c)) : ℕ ×ₗ ℕ ×ₗ ℕ) < toLex (a', toLex (b', c')) :=
  Prod.Lex.toLex_lt_toLex.mpr (.inl h)

theorem lex_lt_of_snd {a b b' c c' : ℕ} (h : b < b') :
    (toLex (a, toLex (b, c)) : ℕ ×ₗ ℕ ×ₗ ℕ) < toLex (a, toLex (b', c')) :=
  Prod.Lex.toLex_lt_toLex.mpr (.inr ⟨rfl, Prod.Lex.toLex_lt_toLex.mpr (.inl h)⟩)

theorem lex_lt_of_thd {a b c c' : ℕ} (h : c < c') :
    (toLex (a, toLex (b, c)) : ℕ ×ₗ ℕ ×ₗ ℕ) < toLex (a, toLex (b, c')) :=
  Prod.Lex.toLex_lt_toLex.mpr (.inr ⟨rfl, Prod.Lex.toLex_lt_toLex.mpr (.inr ⟨rfl, h⟩)⟩)

theorem rank_walk (works : Bool) {stage : Stage} (hwalking : stage.isWalking) :
    (walk o t works stage).2.rank < stage.rank := by
  cases stage with
  | look w =>
    obtain ⟨current, comps, hops⟩ := w
    cases comps with
    | nil => exact lex_lt_of_fst (by omega)
    | cons name rest =>
      rw [walk]
      split
      · exact lex_lt_of_snd (Nat.lt_succ_self _)
      · split
        · split
          · exact lex_lt_of_thd (by decide)
          · split
            · split
              · exact lex_lt_of_fst (by dsimp only; omega)
              · exact lex_lt_of_fst (by omega)
            · exact lex_lt_of_thd (by decide)
        · exact lex_lt_of_fst (by omega)
  | make w name =>
    rw [walk]
    split
    · split <;> exact lex_lt_of_thd (by decide)
    · exact lex_lt_of_fst (by omega)
  | check w name =>
    rw [walk]
    dsimp only
    split
    · exact lex_lt_of_thd (by decide)
    · exact lex_lt_of_fst (by omega)
  | readLink w name =>
    rw [walk]
    split
    · split
      · exact lex_lt_of_fst (by dsimp only; omega)
      · exact lex_lt_of_fst (by omega)
    · exact lex_lt_of_fst (by omega)
  | enter w name =>
    rw [walk]
    split
    · exact lex_lt_of_fst (by omega)
    · dsimp only
      split
      · exact lex_lt_of_snd (Nat.lt_succ_self _)
      · exact lex_lt_of_fst (by omega)
  | openAt d | opened d f | unlinkAt d | openExclusive d | created d f | returned d f | failed =>
    cases hwalking

theorem rank_openIn (works : Bool) {stage : Stage} (hwalking : stage.isWalking = false)
    (hon : stage.isOver = false) : (openIn o t works stage).2.rank < stage.rank := by
  have hfails : ∀ {c : ℕ}, Stage.failed.rank < toLex (1, toLex (0, c)) := lex_lt_of_fst Nat.one_pos
  cases stage with
  | look w | make w name | check w name | readLink w name | enter w name => cases hwalking
  | openAt d =>
    rw [openIn]
    split
    · split
      · split
        · exact lex_lt_of_thd (by decide)
        · exact hfails
      · split
        · dsimp only
          split
          · exact lex_lt_of_thd (by decide)
          · exact hfails
        · exact lex_lt_of_thd (by decide)
    · exact hfails
  | opened d f =>
    rw [openIn]
    dsimp only
    split_ifs
    · exact lex_lt_of_fst Nat.one_pos
    · exact lex_lt_of_thd (by decide)
    · exact hfails
  | unlinkAt d =>
    rw [openIn]
    split
    · exact hfails
    · split
      · exact lex_lt_of_thd (by decide)
      · exact hfails
  | openExclusive d =>
    rw [openIn]
    split
    · exact lex_lt_of_thd (by decide)
    · exact hfails
  | created d f =>
    rw [openIn]
    dsimp only
    split_ifs
    · exact lex_lt_of_fst Nat.one_pos
    · exact hfails
  | returned d f | failed => cases hon

/-- **Others cannot keep an open going**: with ever more of its own calls it ends. -/
theorem opens_end (o : Opening) (t : FileTree) (directory : String) (es : ℕ → Event)
    (hcalls : ∀ k, ∃ j, k ≤ j ∧ ∃ works, es j = .call works) :
    ∃ k, (after o t directory ((List.range k).map es)).stage.isOver := by
  have hdown : ∀ (s : ConfinedFile) (e : Event), (∃ works, e = .call works) → ¬ s.stage.isOver →
      (step o s e).stage.rank < s.stage.rank := by
    rintro s e ⟨works, rfl⟩ hon
    rw [step]
    cases hwalking : s.stage.isWalking with
    | true =>
      rw [call_of_isWalking hwalking]
      exact rank_walk works hwalking
    | false =>
      rw [call_of_not_isWalking hwalking]
      exact rank_openIn works hwalking (Bool.not_eq_true _ ▸ hon)
  refine Run.gets_done (fun s => s.stage.rank) hdown (fun s e hcall => ?_) (start t directory)
    es hcalls
  cases e with
  | call works => exact absurd ⟨works, rfl⟩ hcall
  | others act => rfl

/-- Before each call the other user turns the log's name into a link that leads nowhere. -/
def relink : ℕ → Event
  | k => if k % 3 = 0 then .others (.unlink 3 "daemon.log")
    else if k % 3 = 1 then .others (.create 3 "daemon.log" ⟨.link "/gone", 501, false⟩)
    else .call true

theorem opens_end_relinked :
    ∃ k, (after rootLog planted "/Logs" ((List.range k).map relink)).stage.isOver :=
  opens_end rootLog planted "/Logs" relink fun k => ⟨3 * k + 2, by omega, true, by
    rw [relink, if_neg (by omega), if_neg (by omega)]⟩

end ConfinedFile
