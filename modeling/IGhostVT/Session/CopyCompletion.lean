import IGhostVT.Session.CopyProgress

/-!
# Session/CopyCompletion — finishing a copy

A copy that is left alone is not refused, and from wherever it has come to it can be finished: its
link is given up, the host is asked over another, and part after part is taken until all are there.
-/

open FileUploadStore

namespace DaemonFileUpload

variable {safeName : String → String} {c : FileCopy} {t : DaemonFileUpload} {n : ℕ}

/-! ## Finishing it -/

variable (safeName c) in
/-- What a copy that was left alone keeps. -/
def Sane (t : DaemonFileUpload) : Prop := (∃ W, Inv safeName c W t) ∧ Smooth c t

variable (safeName c) in
/-- The copy can be finished. -/
def Completes (t : DaemonFileUpload) : Prop :=
  ∃ es, (Run.after (step safeName c) t es).stage = .returned

theorem Completes.of_step (e : Event) (h : Completes safeName c (step safeName c t e)) :
    Completes safeName c t :=
  have ⟨es, hes⟩ := h
  ⟨e :: es, hes⟩

/-- A host whose disk does what it is told. -/
def quietHost : World := { Uploading.calm with root := none, pwrites := [] }

theorem names_quietHost : Names c quietHost := nofun

theorem Sane.turn (h : Sane safeName c t) (answered : Bool) :
    Sane safeName c (step safeName c t (.turn answered)) :=
  have ⟨⟨_, hinv⟩, hsmooth⟩ := h
  ⟨⟨_, hinv.turn answered⟩, hsmooth.turn hinv answered⟩

theorem Sane.answer (h : Sane safeName c t) (i : ℕ) :
    Sane safeName c (step safeName c t (.answer i)) :=
  have ⟨⟨_, hinv⟩, hsmooth⟩ := h
  ⟨⟨_, hinv.answer i⟩, hsmooth.answer hinv i⟩

theorem Sane.lose (h : Sane safeName c t) (quiet : Bool) :
    Sane safeName c (step safeName c t (.lose quiet)) :=
  have ⟨⟨_, hinv⟩, hsmooth⟩ := h
  ⟨⟨_, hinv.lose quiet⟩, hsmooth.lose quiet⟩

theorem Sane.noReply (h : Sane safeName c t) : Sane safeName c (step safeName c t .noReply) :=
  have ⟨⟨_, hinv⟩, hsmooth⟩ := h
  ⟨⟨_, hinv.noReply⟩, hsmooth.noReply⟩

/-- A request that a quiet host takes from a link: how far it has the file then is what it
answers. -/
theorem Sane.delivered (h : Sane safeName c t) (hbegun : t.path.isSome) {message : Message}
    {sent : List Message} (hsent : (t.wires n).sent = message :: sent)
    (hname : message.fileName = none) (hwhole : (t.wires n).broken = false) :
    ∃ host reply r, step safeName c t (.deliver n quietHost) = { t.setWire n { t.wires n with
        sent, answers := (t.wires n).answers ++ [reply] } with host } ∧
      host.store.received c.id = some r ∧ reach c t ≤ r ∧ edge message ≤ r ∧
      reply.code = .success ∧ reply.offset = some r ∧
      Sane safeName c (step safeName c t (.deliver n quietHost)) := by
  obtain ⟨⟨W, hinv⟩, hsmooth⟩ := h
  have hmem : message ∈ (t.wires n).sent := hsent ▸ List.mem_cons_self
  obtain ⟨store', reply, hup, hserves⟩ :=
    hinv.base.hosts.request names_quietHost (hinv.base.sent n message hmem)
  have hcancel := hsmooth.steady.uncancelled n message hmem
  have hknown := hsmooth.steady.begun hbegun
  have hstore : (t.host.step safeName (.request message quietHost c.content)).store = store' := by
    simp only [Uploading.step, hup]
  have hstep : step safeName c t (.deliver n quietHost) = { t.setWire n { t.wires n with
      sent, answers := (t.wires n).answers ++ [reply] } with
      host := t.host.step safeName (.request message quietHost c.content) } := by
    rw [DaemonFileUpload.step, if_pos names_quietHost, DaemonFileUpload.deliver, hsent]
    dsimp only
    rw [hup, hwhole]
    rfl
  have hkept := hserves.keeps hcancel List.not_mem_nil hknown
  obtain ⟨r, hr⟩ := Option.isSome_iff_exists.mp hknown
  obtain ⟨r', hr'⟩ := Option.isSome_iff_exists.mp hkept
  have hstart := hsmooth.steady.aligned n
  rw [hsent] at hstart
  have hreach : reach c t = r := by
    rw [reach, hr]
    rfl
  obtain ⟨hle, htaken⟩ := hserves.grows r r' hr hr'
  obtain ⟨hcode, hedge, hoffset⟩ := htaken hcancel (hreach ▸ hstart.1)
  refine ⟨_, reply, r', hstep, hstore ▸ hr', hreach ▸ hle, hedge, hcode, hoffset hname,
    ⟨_, hinv.step _⟩, ?_⟩
  refine hsmooth.step hinv ⟨rfl, fun _ => ?_⟩
  rw [hstep]
  change ((t.host.step safeName _).store.received c.id).isSome
  rw [hstore]
  exact hkept

/-- Over one link that hands on what is sent, with nothing that was answered unheard. -/
structure Clean (safeName : String → String) (c : FileCopy) (t : DaemonFileUpload) (n : ℕ)
    (p : Pump) :
    Prop where
  sane : Sane safeName c t
  link : t.link = some n
  stage : t.stage = .pump p
  whole : (t.wires n).broken = false
  answers : (t.wires n).answers = []
  inFlight : p.inFlight = (t.wires n).sent.length
  busy : p.inFlight ≠ 0
  parts : ∀ message ∈ (t.wires n).sent, message.fileName = none

/-- The client has heard that the host has all of it. -/
def Done (c : FileCopy) (t : DaemonFileUpload) : Prop :=
  ∃ held mustAsk, t.stage = .transfer held mustAsk ∧ c.content.length ≤ held

/-- The pump goes on, or all is there; and less is left to do. -/
theorem clean_sendParts {sent : List Message} {p : Pump}
    (hsane : Sane safeName c (t.sendParts c n p)) (hcontent : t.content = c.content)
    (hlink : t.link = some n) (hwire : t.wires n = { sent })
    (hparts : ∀ message ∈ sent, message.fileName = none) (hposition : p.position = p.next)
    (hinFlight : p.inFlight = sent.length) (hwindow : 0 < t.window)
    (hnext : p.next ≤ tip p.held sent) :
    Done c (t.sendParts c n p) ∨ ∃ q, Clean safeName c (t.sendParts c n p) n q ∧
      c.content.length - q.next + ((t.sendParts c n p).wires n).sent.length
        ≤ c.content.length - p.next + sent.length := by
  obtain ⟨hread, hfollows⟩ := @follows_fill c (t.window - p.inFlight) p hposition
  have hfilled := @filled_fill c True _ (fun _ => rfl) (t.window - p.inFlight) p hposition
  rw [DaemonFileUpload.sendParts, hcontent, hwire] at hsane ⊢
  generalize fill c c.content (t.window - p.inFlight) p = filled at hread hfollows hfilled hsane ⊢
  obtain ⟨q, messages, isRead⟩ := filled
  dsimp only at hread hfollows hfilled hsane ⊢
  rw [if_pos hread] at hsane ⊢
  have hsent : Wire.send { sent } messages = { sent := sent ++ messages } := rfl
  have hflight := hfilled.inFlight
  rw [hsent] at hsane ⊢
  by_cases hnone : q.inFlight = 0
  · rw [if_pos hnone]
    have hnil : sent = [] := List.length_eq_zero_iff.mp (by omega)
    have hstops : c.content.length ≤ q.next := hfollows.stops.resolve_left (by omega)
    have hreached := (hfollows.aligned p.next le_rfl).2
    have hmessages : messages = [] := List.length_eq_zero_iff.mp (by omega)
    rw [hmessages, tip] at hreached
    rw [hnil, tip] at hnext
    exact .inl ⟨q.held, false, rfl, hfilled.held ▸ hstops.trans (hreached.trans hnext)⟩
  · rw [if_neg hnone] at hsane ⊢
    have hself : Function.update t.wires n { sent := sent ++ messages } n =
        { sent := sent ++ messages } :=
      Function.update_self _ _ _
    refine .inr ⟨q, ⟨hsane, hlink, rfl, ?_, ?_, ?_, hnone, ?_⟩, ?_⟩
    · exact congrArg Wire.broken hself
    · exact congrArg Wire.answers hself
    · change q.inFlight = (Function.update t.wires n _ n).sent.length
      rw [hself, List.length_append]
      omega
    · change ∀ message ∈ (Function.update t.wires n _ n).sent, message.fileName = none
      rw [hself]
      intro message hmem
      rcases List.mem_append.mp hmem with hmem | hmem
      · exact hparts message hmem
      · exact (hfollows.parts message hmem).2
    · change _ + (Function.update t.wires n _ n).sent.length ≤ _
      rw [hself, List.length_append]
      have hadvances := hfollows.advances
      omega

/-- A part is taken and heard of. -/
theorem Clean.round {p : Pump} (h : Clean safeName c t n p) :
    ∃ t', t' = step safeName c (step safeName c t (.deliver n quietHost)) (.answer 0) ∧
      Sane safeName c t' ∧ (Done c t' ∨ ∃ q, Clean safeName c t' n q ∧
        c.content.length - q.next + (t'.wires n).sent.length
          < c.content.length - p.next + (t.wires n).sent.length) := by
  obtain ⟨⟨W, hinv⟩, hsmooth⟩ := id h.sane
  have hstage := hinv.stage
  have hlevel := hsmooth.level
  rw [h.stage] at hstage hlevel
  obtain ⟨hpath, -, hposition, -⟩ := hstage
  obtain ⟨hheld, -, -, hnext⟩ := hlevel
  have hbegun : t.path.isSome := by
    rw [hpath]
    rfl
  cases hsent : (t.wires n).sent with
  | nil =>
    have hlength := h.inFlight
    rw [hsent] at hlength
    exact absurd hlength h.busy
  | cons message sent =>
    obtain ⟨host, reply, r, hstep, hr, hreach, hedge, hcode, hoffset, hsane⟩ :=
      h.sane.delivered hbegun hsent
      (h.parts message (hsent ▸ List.mem_cons_self)) h.whole
    have hanswered := hsane.answer 0
    obtain ⟨window, q, hq, hgrown, hqheld, hqnext, hqposition, hqflight⟩ :=
      @accepted_eq c { t.setWire n { sent } with host } n p r hposition
    have hheard : step safeName c (step safeName c t (.deliver n quietHost)) (.answer 0)
        = sendParts c { t.setWire n { sent } with host, window } n q := by
      have hwire : t.wires n = { sent := message :: sent } := by
        cases hw : t.wires n with
        | mk sent' answers broken =>
          have hwhole := h.whole
          have hanswers := h.answers
          rw [hw] at hsent hwhole hanswers
          dsimp only at hsent hwhole hanswers
          rw [hsent, hwhole, hanswers]
      rw [hstep, ← hq, DaemonFileUpload.step, DaemonFileUpload.answer, hwire]
      simp only [setWire, h.link, h.stage, Function.update_self, Function.update_idem,
        List.nil_append, List.getElem?_cons_zero, List.eraseIdx_cons_zero, if_pos hcode, hoffset,
        Option.getD_some]
    have hlater : max p.held r = r := Nat.max_eq_right (hheld.trans hreach)
    have htip : p.next ≤ tip r sent := by
      refine (hnext n h.link h.whole).trans ?_
      rw [hsent, tip]
      exact tip_mono sent (Nat.max_le.mpr ⟨hreach, hedge⟩)
    rw [hheard] at hanswered ⊢
    have hlength := h.inFlight
    rw [hsent, List.length_cons] at hlength
    have hwindow := hinv.base.window
    have hclean :=
      @clean_sendParts safeName c { t.setWire n { sent } with host, window } n sent q hanswered
      (hinv.base.unedited hsmooth.steady.unedited) h.link (Function.update_self _ _ _)
      (fun message' hmem => h.parts message' (hsent ▸ List.mem_cons_of_mem _ hmem)) hqposition
        (by omega)
      (by dsimp only; change window = t.window ∨ _ at hgrown; omega)
      (by rw [hqnext, hqheld, hlater]; exact Nat.max_le.mpr ⟨htip, le_tip sent r⟩)
    refine ⟨_, rfl, hanswered, hclean.imp_right (Exists.imp fun q' => And.imp_right fun hless =>
      hless.trans_lt ?_)⟩
    rw [List.length_cons, hqnext]
    omega

theorem Done.completes (hsane : Sane safeName c t) (h : Done c t) : Completes safeName c t := by
  obtain ⟨held, mustAsk, hstage, hall⟩ := h
  refine ⟨[.turn true], ?_⟩
  rw [Run.after_cons, Run.after_nil, DaemonFileUpload.step, DaemonFileUpload.turn, hstage]
  dsimp only
  rw [if_neg hall.not_gt, if_pos hsane.2.steady.unedited]

theorem Clean.completes (left : ℕ) : ∀ {t : DaemonFileUpload} {p : Pump}, Clean safeName c t n p →
    c.content.length - p.next + (t.wires n).sent.length ≤ left → Completes safeName c t := by
  induction left with
  | zero =>
    intro t p h hleft
    have hflight := h.inFlight
    exact absurd (by omega) h.busy
  | succ left ih =>
    intro t p h hleft
    obtain ⟨t', ht', hsane, hround⟩ := h.round
    refine .of_step (.deliver n quietHost) (.of_step (.answer 0) ?_)
    rw [← ht']
    rcases hround with hdone | ⟨q, hclean, hless⟩
    · exact hdone.completes hsane
    · exact ih hclean (by omega)

/-- The host was asked, over a link with nothing else on it. -/
theorem Sane.completes_asked (h : Sane safeName c t) {held : ℕ} (hstage : t.stage = .asking held)
    (hlink : t.link = some n) (hwire : t.wires n = { sent := [askRequest c] }) :
    Completes safeName c t := by
  obtain ⟨⟨W, hinv⟩, hsmooth⟩ := id h
  have hat := hinv.stage
  rw [hstage] at hat
  have hbegun : t.path.isSome := by
    rw [hat.1]
    rfl
  have hsent : (t.wires n).sent = [askRequest c] := congrArg Wire.sent hwire
  obtain ⟨host, reply, r, hstep, hr, hreach, -, hcode, hoffset, hsane⟩ :=
    h.delivered hbegun hsent rfl (congrArg Wire.broken hwire)
  have hanswered := hsane.answer 0
  refine .of_step (.deliver n quietHost) (.of_step (.answer 0) ?_)
  have hheard : step safeName c (step safeName c t (.deliver n quietHost)) (.answer 0)
      = if r ≥ c.content.length then { t.setWire n {} with host, stage := .transfer r false }
        else startPump c { t.setWire n {} with host } n r := by
    rw [hstep, DaemonFileUpload.step, DaemonFileUpload.answer, hwire]
    simp only [setWire, hlink, hstage, Function.update_self, Function.update_idem, List.nil_append,
      List.getElem?_cons_zero, List.eraseIdx_cons_zero, if_pos hcode, hoffset, Option.getD_some]
  rw [hheard] at hanswered ⊢
  by_cases hall : r ≥ c.content.length
  · rw [if_pos hall] at hanswered ⊢
    exact Done.completes hanswered ⟨r, false, rfl, hall⟩
  · rw [if_neg hall] at hanswered ⊢
    have hwindow := hinv.base.window
    rcases @clean_sendParts safeName c { t.setWire n {} with host } n []
      { held := r, next := r, position := r } hanswered
        (hinv.base.unedited hsmooth.steady.unedited) hlink
      (Function.update_self _ _ _) (fun _ hmem => absurd hmem List.not_mem_nil) rfl rfl hwindow.1
        le_rfl with hdone | ⟨q, hclean, -⟩
    · exact hdone.completes hanswered
    · exact hclean.completes _ le_rfl

/-- The loop of `transfer`, without a link and with the host to be asked. -/
theorem Sane.completes_asking (h : Sane safeName c t) {held : ℕ}
    (hstage : t.stage = .transfer held true) (hlink : t.link = none) : Completes safeName c t := by
  by_cases hall : c.content.length ≤ held
  · exact Done.completes h ⟨held, true, hstage, hall⟩
  have hmore := Nat.lt_of_not_le hall
  have hfresh : t.wires t.made = {} :=
    have ⟨⟨_, hinv⟩, _⟩ := h
    hinv.base.fresh t.made le_rfl
  have hdead : t.live = none := by
    rw [live, hlink, ite_self]
  have hconnected : step safeName c t (.turn true)
      = { t.drop with link := some t.made, made := t.made + 1 } := by
    rw [DaemonFileUpload.step, DaemonFileUpload.turn, hstage]
    dsimp only
    rw [if_pos hmore, hdead]
    rfl
  have hasked : step safeName c { t.drop with link := some t.made, made := t.made + 1 } (.turn true)
      = { t.setWire t.made { sent := [askRequest c] } with
          link := some t.made, made := t.made + 1, lost := false, timedOut := false
          stage := .asking held } := by
    simp only [DaemonFileUpload.step, DaemonFileUpload.turn, drop, hstage, if_pos hmore, live,
      Bool.false_eq_true, if_false, if_true, setWire, hfresh, Wire.send, List.nil_append]
  have hsane := (h.turn true).turn true
  refine .of_step (.turn true) (.of_step (.turn true) ?_)
  rw [hconnected, hasked] at hsane ⊢
  exact hsane.completes_asked rfl rfl (Function.update_self _ _ _)

/-- The loop of `transfer`, whatever its link. -/
theorem Sane.completes_transfer (h : Sane safeName c t) {held : ℕ} {mustAsk : Bool}
    (hstage : t.stage = .transfer held mustAsk) : Completes safeName c t := by
  by_cases hall : c.content.length ≤ held
  · exact Done.completes h ⟨held, mustAsk, hstage, hall⟩
  have hsane := (h.lose true).turn false
  have hdead : (t.lose true).live = none := by
    rw [live, DaemonFileUpload.lose]
    by_cases hlink : t.link.isSome
    · rw [if_pos hlink]
      rfl
    · rw [if_neg hlink, Option.not_isSome_iff_eq_none.mp hlink, ite_self]
  have hsame : (t.lose true).stage = .transfer held mustAsk := by
    rw [DaemonFileUpload.lose]
    split_ifs
    · exact hstage
    · exact hstage
  have hdropped : step safeName c (step safeName c t (.lose true)) (.turn false)
      = { (t.lose true).drop with stage := .transfer held true } := by
    change (t.lose true).turn c false = _
    rw [DaemonFileUpload.turn, hsame]
    dsimp only
    rw [if_pos (Nat.lt_of_not_le hall), hdead]
    dsimp only
    rw [connect, if_neg Bool.false_ne_true, drop, hsame]
  refine .of_step (.lose true) (.of_step (.turn false) ?_)
  rw [hdropped] at hsane ⊢
  exact hsane.completes_asking rfl rfl

/-- **From wherever it is a copy can be finished**, once it was begun. -/
theorem Sane.completes (h : Sane safeName c t) (hbegun : t.path.isSome) :
    Completes safeName c t := by
  have hlost : ∀ {held : ℕ}, (t.lose true).noReply.stage = .transfer held true →
      Completes safeName c t :=
    fun hstage =>
      .of_step (.lose true) (.of_step .noReply ((h.lose true).noReply.completes_transfer hstage))
  obtain ⟨⟨W, hinv⟩, hsmooth⟩ := id h
  have hstage := hinv.stage
  have hlevel := hsmooth.level
  cases hat : t.stage with
  | begin waiting =>
    rw [hat] at hstage
    rw [hstage.2] at hbegun
    cases hbegun
  | transfer held mustAsk => exact h.completes_transfer hat
  | asking held =>
    rw [hat] at hlevel
    exact @hlost held (by simp [DaemonFileUpload.lose, DaemonFileUpload.noReply, hlevel.2.2, hat])
  | pump p =>
    rw [hat] at hlevel
    exact @hlost p.held
      (by simp [DaemonFileUpload.lose, DaemonFileUpload.noReply, hlevel.2.2.1, hat])
  | returned => exact ⟨[], hat⟩
  | failed =>
    rw [hat] at hlevel
    rw [(hlevel : t.path = none)] at hbegun
    cases hbegun

/-! ## Runs -/

/-- What is promised of a copy that is left alone. -/
structure Progresses (safeName : String → String) (c : FileCopy) (t : DaemonFileUpload) : Prop where
  /-- Once the host has begun it, it does not fail. -/
  unfailed : t.path.isSome → t.stage ≠ .failed
  /-- No link has a part on it that would leave a hole, whatever arrives before. -/
  aligned : ∀ n, Aligned (reach c t) (t.wires n).sent
  /-- So none is refused. -/
  taken : t.path.isSome → ∀ n ∈ t.link, ∀ reply ∈ (t.wires n).answers, reply.code = .success
  /-- And wherever it is, it can be finished. -/
  completes : t.path.isSome → Completes safeName c t

theorem Sane.progresses (h : Sane safeName c t) : Progresses safeName c t := by
  obtain ⟨⟨W, hinv⟩, hsmooth⟩ := id h
  have hlevel := hsmooth.level
  have hstage := hinv.stage
  refine ⟨fun hbegun hfailed => ?_, hsmooth.steady.aligned, fun hbegun n hn reply hmem => ?_,
    h.completes⟩
  · rw [hfailed] at hlevel
    rw [(hlevel : t.path = none)] at hbegun
    cases hbegun
  · cases hat : t.stage with
    | begin waiting =>
      rw [hat] at hstage
      rw [hstage.2] at hbegun
      cases hbegun
    | transfer held mustAsk =>
      rw [hat] at hstage
      have hnone := hstage.2.2 n hn
      rw [List.length_eq_zero_iff.mp (by omega : (t.wires n).answers.length = 0)] at hmem
      cases hmem
    | asking held =>
      rw [hat] at hlevel
      exact (hlevel.2.1 n hn reply hmem).1
    | pump p =>
      rw [hat] at hlevel
      exact (hlevel.2.1 n hn reply hmem).1
    | returned =>
      rw [hat] at hstage
      rw [hstage.2.1] at hn
      cases hn
    | failed =>
      rw [hat] at hlevel
      rw [(hlevel : t.path = none)] at hbegun
      cases hbegun

variable (safeName) (c)

/-- **A copy that is left alone is not refused and can be finished**, over links that fail in any
way and with whatever arrives late. -/
theorem progresses_after (es : List Event)
    (h : Run.Along (step safeName c) (Undisturbed safeName c) { content := c.content } es) :
    Progresses safeName c (after safeName c es) := by
  have hsane : Sane safeName c (after safeName c es) :=
    h.invariant (fun t e (h : Sane safeName c t) hundisturbed =>
      have ⟨⟨_, hinv⟩, hsmooth⟩ := h
      ⟨⟨_, hinv.step e⟩, hsmooth.step hinv hundisturbed⟩) es ⟨⟨False, Inv.init⟩, Smooth.init⟩
  exact hsane.progresses

/-- A file of three bytes. -/
def threeBytes : FileCopy where
  id := 5
  name := "a"
  content := [1, 2, 3]
  root := "/upload"
  id_ne_zero := by decide

/-- Its only part goes out, the link is lost before the answer, and the part arrives all the
same. -/
def lateAnswer : List Event :=
  [.turn true, .turn true, .deliver 0 Uploading.calm, .answer 0, .turn true, .lose true, .noReply,
    .turn true, .turn true, .deliver 0 quietHost, .deliver 1 quietHost, .answer 0]

/-- The late part is no hole and no refusal, and the copy can still be finished from there. -/
theorem progresses_lateAnswer :
    ∃ more, Progresses id threeBytes (after id threeBytes lateAnswer) ∧
      (after id threeBytes (lateAnswer ++ more)).stage = .returned := by
  have hprogresses := progresses_after id threeBytes lateAnswer (by decide)
  obtain ⟨more, hdone⟩ := hprogresses.completes (by decide)
  refine ⟨more, hprogresses, ?_⟩
  rw [after, Run.after_append]
  exact hdone

end DaemonFileUpload
