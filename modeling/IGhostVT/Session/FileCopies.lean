import IGhostVT.Lib.Run
import IGhostVT.Session.UploadHost

/-!
# Session/FileCopies — what a copied file is

`Base` is what holds of the host, the links and the client whatever the client is at, and `AtStage`
what the client knows there.  `W` is that the host had the whole file at some time; the client comes
to know it from what an answer told.
-/

open FileUploadStore

namespace DaemonFileUpload

variable (safeName : String → String) (c : FileCopy)

/-- Whatever the client is at. -/
structure Base (W : Prop) (t : DaemonFileUpload) : Prop where
  hosts : Hosts safeName c (t.edits = 0) W t.host.store
  sent : ∀ n, ∀ message ∈ (t.wires n).sent, Request c (t.edits = 0) message
  answers : ∀ n, ∀ reply ∈ (t.wires n).answers, Tells safeName c (t.edits = 0) W reply
  unedited : t.edits = 0 → t.content = c.content
  fresh : ∀ n, t.made ≤ n → t.wires n = {}
  link : ∀ n ∈ t.link, n < t.made
  window : 0 < t.window ∧ t.window ≤ maximumWindow

/-- At most `k` requests of the link are unanswered, or answered and not heard. -/
def Outstanding (t : DaemonFileUpload) (k : ℕ) : Prop :=
  ∀ n ∈ t.link, (t.wires n).sent.length + (t.wires n).answers.length ≤ k

/-- The client holds no more for sure than the host had. -/
def Counted (W : Prop) (t : DaemonFileUpload) (held : ℕ) : Prop :=
  t.edits = 0 → c.content.length ≤ held → W

/-- What is known at each stage. -/
def AtStage (W : Prop) (t : DaemonFileUpload) : Stage → Prop
  | .begin waiting => Outstanding t (if waiting then 1 else 0) ∧ t.path = none
  | .transfer held _ => t.path = some (target safeName c) ∧ Counted c W t held ∧ Outstanding t 0
  | .asking held => t.path = some (target safeName c) ∧ held < c.content.length ∧ Outstanding t 1
  | .pump p => t.path = some (target safeName c) ∧ Counted c W t p.held ∧ p.position = p.next ∧
      p.inFlight ≤ t.window ∧ Outstanding t p.inFlight
  | .returned => t.path = some (target safeName c) ∧ t.link = none ∧ W
  | .failed => t.link = none

structure Inv (W : Prop) (t : DaemonFileUpload) : Prop where
  base : Base safeName c W t
  stage : AtStage safeName c W t t.stage

variable {safeName} {c} {W W' : Prop} {t t' : DaemonFileUpload} {n : ℕ}

/-! ## What a step of the client leaves

`Base` under the small changes steps are made of: a stage, a link that is dropped, requests sent. -/

/-- Knowing more of the host is no harm. -/
theorem Inv.mono (h : Inv safeName c W t) (hW : W → W') : Inv safeName c W' t where
  base :=
    { h.base with
      hosts := h.base.hosts.mono id fun _ => hW
      answers := fun n reply hmem => (h.base.answers n reply hmem).mono id fun _ => hW }
  stage := by
    have hstage := h.stage
    revert hstage
    cases t.stage with
    | begin waiting => exact id
    | transfer held mustAsk =>
      exact fun ⟨hpath, hheld, hnone⟩ => ⟨hpath, fun he hall => hW (hheld he hall), hnone⟩
    | asking held => exact id
    | pump p => exact fun ⟨hpath, hheld, hrest⟩ => ⟨hpath, fun he hall => hW (hheld he hall), hrest⟩
    | returned => exact fun ⟨hpath, hlink, hwas⟩ => ⟨hpath, hlink, hW hwas⟩
    | failed => exact id

/-- Fields the links and the host do not rest on. -/
theorem Base.of_same (h : Base safeName c W t) (hhost : t'.host = t.host)
    (hcontent : t'.content = t.content) (hedits : t'.edits = t.edits) (hwires : t'.wires = t.wires)
    (hmade : t'.made = t.made) (hlink : ∀ n ∈ t'.link, n < t'.made)
    (hwindow : 0 < t'.window ∧ t'.window ≤ maximumWindow) :
    Base safeName c W t' where
  hosts := by
    rw [hhost, hedits]
    exact h.hosts
  sent n := by
    rw [hwires, hedits]
    exact h.sent n
  answers n := by
    rw [hwires, hedits]
    exact h.answers n
  unedited he := by
    rw [hcontent]
    exact h.unedited (hedits ▸ he)
  fresh n hn := by
    rw [hwires]
    exact h.fresh n (hmade ▸ hn)
  link := hlink
  window := hwindow

/-- The stage is no part of the base. -/
theorem Base.withStage (h : Base safeName c W t) (stage : Stage) :
    Base safeName c W { t with stage } :=
  h.of_same rfl rfl rfl rfl rfl h.link h.window

/-- Nor is the link that is dropped. -/
theorem Base.drop (h : Base safeName c W t) : Base safeName c W t.drop :=
  h.of_same rfl rfl rfl rfl rfl nofun h.window

/-- A link's two queues are others. -/
theorem Base.setWire (h : Base safeName c W t) (hn : n < t.made) {w : Wire}
    (hsent : ∀ message ∈ w.sent, Request c (t.edits = 0) message)
    (hanswers : ∀ reply ∈ w.answers, Tells safeName c (t.edits = 0) W reply) :
    Base safeName c W (t.setWire n w) where
  hosts := h.hosts
  sent n' := by
    by_cases heq : n' = n
    · subst heq
      change ∀ message ∈ (Function.update t.wires n' w n').sent, _
      rw [Function.update_self]
      exact hsent
    · change ∀ message ∈ (Function.update t.wires n w n').sent, _
      rw [Function.update_of_ne heq]
      exact h.sent n'
  answers n' := by
    by_cases heq : n' = n
    · subst heq
      change ∀ reply ∈ (Function.update t.wires n' w n').answers, _
      rw [Function.update_self]
      exact hanswers
    · change ∀ reply ∈ (Function.update t.wires n w n').answers, _
      rw [Function.update_of_ne heq]
      exact h.answers n'
  unedited := h.unedited
  fresh n' hn' := by
    have hne : n' ≠ n := (hn.trans_le hn').ne'
    exact (Function.update_of_ne hne _ _).trans (h.fresh n' hn')
  link := h.link
  window := h.window

/-- What is on a link was there, or was sent now. -/
theorem mem_send {w : Wire} {messages : List Message} {message : Message}
    (h : message ∈ (w.send messages).sent) : message ∈ w.sent ∨ message ∈ messages := by
  rw [Wire.send] at h
  split_ifs at h
  · exact .inl h
  · exact List.mem_append.mp h

/-- Sending brings no answers. -/
@[simp] theorem answers_send (w : Wire) (messages : List Message) :
    (w.send messages).answers = w.answers := by
  rw [Wire.send]
  split_ifs <;> rfl

/-- A link that is broken takes nothing. -/
theorem length_send (w : Wire) (messages : List Message) :
    (w.send messages).sent.length ≤ w.sent.length + messages.length := by
  rw [Wire.send]
  split_ifs
  · exact Nat.le_add_right _ _
  · exact List.length_append.le

/-- Requests about this copy are sent over a link that was made. -/
theorem Base.send (h : Base safeName c W t) (hn : n < t.made) {messages : List Message}
    (hmessages : ∀ message ∈ messages, Request c (t.edits = 0) message) :
    Base safeName c W (t.setWire n ((t.wires n).send messages)) :=
  h.setWire hn
    (fun message hmem => (mem_send hmem).elim (h.sent n message) (hmessages message))
    (by rw [answers_send]; exact h.answers n)

/-- A link more, that nothing is on but what is sent over it at once. -/
theorem Base.made (h : Base safeName c W t) {messages : List Message}
    (hmessages : ∀ message ∈ messages, Request c (t.edits = 0) message) (link : Option ℕ)
    (hlink : ∀ n ∈ link, n ≤ t.made) :
    Base safeName c W { t.setWire t.made { sent := messages } with made := t.made + 1, link } where
  hosts := h.hosts
  sent n' := by
    change ∀ message ∈ (Function.update t.wires t.made _ n').sent, _
    by_cases heq : n' = t.made
    · rw [heq, Function.update_self]
      exact hmessages
    · rw [Function.update_of_ne heq]
      exact h.sent n'
  answers n' := by
    change ∀ reply ∈ (Function.update t.wires t.made _ n').answers, _
    by_cases heq : n' = t.made
    · rw [heq, Function.update_self]
      exact nofun
    · rw [Function.update_of_ne heq]
      exact h.answers n'
  unedited := h.unedited
  fresh n' hn' := by
    have hlt : t.made < n' := hn'
    exact (Function.update_of_ne hlt.ne' _ _).trans (h.fresh n' hlt.le)
  link n' hn' := Nat.lt_succ_of_le (hlink n' hn')
  window := h.window

/-- A copy that fails has no link and a cancel on its way. -/
theorem Base.fail (h : Base safeName c W t) : Inv safeName c W (t.fail c) where
  base := by
    have hcancel : ∀ message ∈ [cancelRequest c], Request c (t.edits = 0) message :=
      fun message hmem => by
      rw [List.mem_singleton.mp hmem]
      exact .cancel
    exact (h.drop.made hcancel none nofun).withStage .failed
  stage := rfl

/-! ## Sending parts

The pump fills its window from where the handle stands; what it sends is the file's bytes at their
offsets, as long as the file was not written to. -/

/-- What `fill` sends, and where it leaves off. -/
structure Filled (G : Prop) (room : ℕ) (p q : Pump) (messages : List Message) : Prop where
  requests : ∀ message ∈ messages, Request c G message
  held : q.held = p.held
  position : q.position = q.next
  inFlight : q.inFlight = p.inFlight + messages.length
  room : messages.length ≤ room

/-- A part is not empty. -/
theorem uploadChunkByteCount_pos : 0 < uploadChunkByteCount := by decide

/-- What a pump sends follows on from what it sent before. -/
theorem filled_fill {G : Prop} {content : List UInt8} (hcontent : G → content = c.content) :
    ∀ (room : ℕ) (p : Pump), p.position = p.next →
      Filled (c := c) G room p (fill c content room p).1 (fill c content room p).2.1
  | 0, p, hposition => ⟨nofun, rfl, hposition, rfl, le_rfl⟩
  | room + 1, p, hposition => by
    rw [fill]
    split
    swap
    · exact ⟨nofun, rfl, hposition, rfl, Nat.zero_le _⟩
    next hmore =>
      generalize hcount : min uploadChunkByteCount (c.content.length - p.next) = count
      have hchunk : count ≤ uploadChunkByteCount := hcount ▸ Nat.min_le_left _ _
      have hfits : count ≤ c.content.length - p.next := hcount ▸ Nat.min_le_right _ _
      dsimp only
      split
      swap
      · exact ⟨nofun, rfl, hposition, rfl, Nat.zero_le _⟩
      next hread =>
        obtain ⟨hrequests, hheld, hposition', hinFlight, hroom⟩ := filled_fill hcontent room
          { p with
            next := p.next + count
            position := p.position + count
            inFlight := p.inFlight + 1 }
          (congrArg (· + count) hposition)
        refine ⟨fun message hmem => ?_, hheld, hposition',
          hinFlight.trans (Nat.succ_add_eq_add_succ p.inFlight _), Nat.succ_le_succ hroom⟩
        rcases List.mem_cons.mp hmem with rfl | hmem
        · refine .part (hread.le.trans hchunk) (by omega) fun hg _ => ?_
          rw [hread, hposition, hcontent hg]
        · exact hrequests message hmem

/-- With a window's room filled the invariant is as it was. -/
theorem Base.sendParts (h : Base safeName c W t) (hlink : t.link = some n)
    (hpath : t.path = some (target safeName c)) {p : Pump} (hheld : Counted c W t p.held)
    (hposition : p.position = p.next) (hwindow : p.inFlight ≤ t.window)
    (hout : Outstanding t p.inFlight) :
    Inv safeName c W (t.sendParts c n p) := by
  have hfill := @filled_fill c _ _ h.unedited (t.window - p.inFlight) p hposition
  rw [DaemonFileUpload.sendParts]
  generalize fill c t.content (t.window - p.inFlight) p = filled at hfill
  obtain ⟨q, messages, isRead⟩ := filled
  have hbase := h.send (h.link n hlink) hfill.requests
  dsimp only
  split
  swap
  · exact hbase.fail
  have hq := hfill.inFlight
  have hroom := hfill.room
  dsimp only at hq hroom
  have hheld' : Counted c W t q.held := by
    rw [hfill.held]
    exact hheld
  have hsent : Outstanding (t.setWire n ((t.wires n).send messages)) q.inFlight := by
    intro n' hn'
    obtain rfl : n = n' := Option.some.inj (hlink.symm.trans hn')
    have hbefore := hout n hlink
    have hlength := length_send (t.wires n) messages
    change (Function.update t.wires n _ n).sent.length +
      (Function.update t.wires n _ n).answers.length ≤ _
    rw [Function.update_self, answers_send]
    omega
  refine ⟨hbase.withStage _, ?_⟩
  by_cases hnone : q.inFlight = 0
  · rw [hnone] at hsent
    rw [if_pos hnone]
    exact ⟨hpath, hheld', hsent⟩
  · rw [if_neg hnone]
    refine ⟨hpath, hheld', hfill.position, ?_, hsent⟩
    change q.inFlight ≤ t.window
    omega

/-- A pump starts with nothing in flight. -/
theorem Base.startPump (h : Base safeName c W t) (hlink : t.link = some n)
    (hpath : t.path = some (target safeName c)) {held : ℕ} (hheld : Counted c W t held)
    (hout : Outstanding t 0) : Inv safeName c W (t.startPump c n held) :=
  h.sendParts hlink hpath hheld rfl (Nat.zero_le _) hout

/-- What an answer that a part was taken comes to: the pump goes on from the further of the two
ends, the window perhaps one part wider. -/
theorem accepted_eq (t : DaemonFileUpload) (n : ℕ) (p : Pump) (offset : ℕ)
    (hposition : p.position = p.next) :
    ∃ window q, (t.accepted c n p offset = sendParts c { t with window } n q) ∧
      (window = t.window ∨ t.window < maximumWindow ∧ window = t.window + 1) ∧
      q.held = max p.held offset ∧ q.next = max p.next (max p.held offset) ∧ q.position = q.next ∧
      q.inFlight = p.inFlight - 1 := by
  rw [DaemonFileUpload.accepted]
  dsimp only
  split
  next hahead =>
    have hnext : max p.held offset = max p.next (max p.held offset) :=
      (Nat.max_eq_right hahead.le).symm
    split
    next hgrow => exact ⟨_, _, rfl, .inr ⟨hgrow.1, rfl⟩, rfl, hnext, rfl, rfl⟩
    · exact ⟨_, _, rfl, .inl rfl, rfl, hnext, rfl, rfl⟩
  next hbehind =>
    have hnext : p.next = max p.next (max p.held offset) :=
      (Nat.max_eq_left (Nat.le_of_not_lt hbehind)).symm
    split
    next hgrow => exact ⟨_, _, rfl, .inr ⟨hgrow.1, rfl⟩, rfl, hnext, hposition, rfl⟩
    · exact ⟨_, _, rfl, .inl rfl, rfl, hnext, hposition, rfl⟩

/-- A part that was taken makes room for another. -/
theorem Base.accepted (h : Base safeName c W t) (hlink : t.link = some n)
    (hpath : t.path = some (target safeName c)) {p : Pump} {offset : ℕ}
    (hoffset : t.edits = 0 → c.content.length ≤ max p.held offset → W)
    (hposition : p.position = p.next) (hwindow : p.inFlight ≤ t.window)
    (hout : Outstanding t (p.inFlight - 1)) : Inv safeName c W (t.accepted c n p offset) := by
  obtain ⟨window, q, heq, hgrown, hheld, -, hqposition, hflight⟩ :=
    @accepted_eq c t n p offset hposition
  have hbefore := h.window
  have hbase : Base safeName c W { t with window } := by
    refine h.of_same rfl rfl rfl rfl rfl h.link ?_
    dsimp only
    omega
  rw [heq]
  refine hbase.sendParts hlink hpath (fun he hall => hoffset he (hheld ▸ hall)) hqposition ?_
    (hflight ▸ hout)
  dsimp only
  omega

/-! ## Steps of the client

One lemma for each event the client has a part in. -/

/-- An answer that is taken is outstanding no more. -/
theorem Outstanding.erase {k i : ℕ} {reply : FileUploadStore.Reply} (hlink : t.link = some n)
    (hreply : (t.wires n).answers[i]? = some reply) (h : Outstanding t k) :
    Outstanding (t.setWire n { t.wires n with answers := (t.wires n).answers.eraseIdx i })
      (k - 1) := by
  intro n' hn'
  obtain rfl : n = n' := Option.some.inj (hlink.symm.trans hn')
  have hbefore := h n hlink
  obtain ⟨hi, -⟩ := List.getElem?_eq_some_iff.mp hreply
  change (Function.update t.wires n _ n).sent.length +
    (Function.update t.wires n _ n).answers.length ≤ _
  rw [Function.update_self]
  dsimp only
  rw [List.length_eraseIdx_of_lt hi]
  omega

/-- An answer moves the client on, whichever it waits for. -/
theorem Inv.answer (h : Inv safeName c W t) (i : ℕ) : Inv safeName c W (t.answer c i) := by
  rw [DaemonFileUpload.answer]
  split
  · exact h
  next n hlink =>
    split
    · exact h
    next reply hreply =>
      have htells := h.base.answers n reply (List.mem_of_getElem? hreply)
      have hrest : Base safeName c W
          (t.setWire n { t.wires n with answers := (t.wires n).answers.eraseIdx i }) :=
        h.base.setWire (h.base.link n hlink) (h.base.sent n)
          fun reply hmem => h.base.answers n reply (List.mem_of_mem_eraseIdx hmem)
      have hstage := h.stage
      dsimp only
      split
      next heq =>
        rw [heq] at hstage
        have hnone := hstage.1.erase hlink hreply
        split
        next hcode hpath =>
          obtain ⟨hsame, hempty⟩ := htells.path _ hpath
          exact ⟨hrest.of_same rfl rfl rfl rfl rfl hrest.link hrest.window, congrArg some hsame,
            fun he hall => hempty (Nat.le_zero.mp hall) he, hnone⟩
        · exact ⟨hrest.drop.withStage .failed, rfl⟩
      next held heq =>
        rw [heq] at hstage
        obtain ⟨hpath, hmore, hout⟩ := hstage
        have hnone := hout.erase hlink hreply
        have hheld : Counted c W t (reply.offset.getD 0) := by
          intro he hall
          cases hoffset : reply.offset with
          | none =>
            rw [hoffset, Option.getD_none] at hall
            omega
          | some offset =>
            rw [hoffset, Option.getD_some] at hall
            exact htells.offset offset hoffset hall he
        split_ifs
        · exact ⟨hrest.withStage _, hpath, hheld, hnone⟩
        · exact hrest.startPump hlink hpath hheld hnone
        · exact hrest.fail
      next p heq =>
        rw [heq] at hstage
        obtain ⟨hpath, hheld, hposition, hwindow, hout⟩ := hstage
        split_ifs
        · refine hrest.accepted hlink hpath (fun he hall => ?_) hposition hwindow
            (hout.erase hlink hreply)
          cases hoffset : reply.offset with
          | none =>
            rw [hoffset, Option.getD_none, Nat.max_zero] at hall
            exact hheld he hall
          | some offset =>
            rw [hoffset, Option.getD_some] at hall
            by_cases hmore : c.content.length ≤ p.held
            · exact hheld he hmore
            · exact htells.offset offset hoffset (by omega) he
        · exact ⟨hrest.drop.withStage _, hpath, hheld, nofun⟩
        · exact hrest.fail
      · exact h

/-- A link that is lost is still remembered. -/
theorem Inv.lose (h : Inv safeName c W t) (quiet : Bool) : Inv safeName c W (t.lose quiet) := by
  rw [DaemonFileUpload.lose]
  split_ifs
  · refine ⟨h.base.of_same rfl rfl rfl rfl rfl h.base.link h.base.window, ?_⟩
    have hstage := h.stage
    dsimp only
    revert hstage
    cases t.stage <;> exact id
  · exact h

/-- What was asked over a lost link is given up. -/
theorem Inv.noReply (h : Inv safeName c W t) : Inv safeName c W t.noReply := by
  have hstage := h.stage
  have hwindow := h.base.window
  rw [DaemonFileUpload.noReply]
  split
  swap
  · exact h
  split
  next heq =>
    rw [heq] at hstage
    exact ⟨h.base.drop.withStage _, nofun, hstage.2⟩
  next held heq =>
    rw [heq] at hstage
    exact ⟨h.base.drop.withStage _, hstage.1, fun _ hall => absurd hstage.2.1 hall.not_gt, nofun⟩
  next p heq =>
    rw [heq] at hstage
    refine ⟨h.base.of_same rfl rfl rfl rfl rfl nofun ?_, hstage.1, hstage.2.1, nofun⟩
    dsimp only
    split
    · omega
    · exact hwindow
  · exact h

/-- The link `liveLink` made. -/
theorem Base.connected (h : Base safeName c W t) :
    Base safeName c W { t.drop with link := some t.made, made := t.made + 1 } where
  hosts := h.hosts
  sent := h.sent
  answers := h.answers
  unedited := h.unedited
  fresh n hn := h.fresh n ((Nat.le_succ _).trans hn)
  link n hn := by
    rw [← Option.some.inj hn]
    exact Nat.lt_succ_self _
  window := h.window

/-- Nothing is outstanding on a new link. -/
theorem outstanding_connected (h : Base safeName c W t) :
    Outstanding { t.drop with link := some t.made, made := t.made + 1 } 0 := by
  intro n hn
  obtain rfl : t.made = n := Option.some.inj hn
  change (t.wires t.made).sent.length + (t.wires t.made).answers.length ≤ 0
  rw [h.fresh t.made le_rfl]
  exact le_rfl

/-- A turn of a loop connects, asks, begins or returns. -/
theorem Inv.turn (h : Inv safeName c W t) (answered : Bool) :
    Inv safeName c W (t.turn c answered) := by
  have hstage := h.stage
  have hout : ∀ {n : ℕ} {message : Message} {k : ℕ}, t.link = some n → Outstanding t k →
      Outstanding (t.setWire n ((t.wires n).send [message])) (k + 1) := by
    intro n message k hlink hbefore n' hn'
    obtain rfl : n = n' := Option.some.inj (hlink.symm.trans hn')
    have hlength := length_send (t.wires n) [message]
    have hk := hbefore n hlink
    change (Function.update t.wires n _ n).sent.length +
      (Function.update t.wires n _ n).answers.length ≤ _
    rw [Function.update_self, answers_send]
    rw [List.length_singleton] at hlength
    omega
  have hlive : ∀ {n : ℕ}, t.live = some n → t.link = some n := by
    intro n heq
    rw [live] at heq
    split_ifs at heq
    exact heq
  have hrequest : ∀ {n : ℕ} {message : Message}, t.link = some n → Request c (t.edits = 0) message →
      Base safeName c W (t.setWire n ((t.wires n).send [message])) := fun hlink hmessage =>
    h.base.send (h.base.link _ hlink) fun message' hmem => by
      rw [List.mem_singleton.mp hmem]
      exact hmessage
  rw [DaemonFileUpload.turn]
  split
  next heq =>
    rw [heq] at hstage
    split
    · rw [connect]
      split
      · refine ⟨h.base.connected, ?_⟩
        change AtStage safeName c W _ t.stage
        rw [heq]
        exact ⟨outstanding_connected h.base, hstage.2⟩
      · have hsame : t.drop.stage = .begin false := heq
        rw [hsame]
        refine ⟨h.base.drop, ?_⟩
        rw [hsame]
        exact ⟨nofun, hstage.2⟩
    next n heq' =>
      exact ⟨(hrequest (hlive heq') .begin).withStage _, hout (hlive heq') hstage.1, hstage.2⟩
  next held mustAsk heq =>
    rw [heq] at hstage
    obtain ⟨hpath, hheld, hnone⟩ := hstage
    split
    next hmore =>
      split
      · rw [connect]
        split
        · refine ⟨h.base.connected, ?_⟩
          change AtStage safeName c W _ t.stage
          rw [heq]
          exact ⟨hpath, hheld, outstanding_connected h.base⟩
        · have hsame : t.drop.stage = .transfer held mustAsk := heq
          rw [hsame]
          exact ⟨h.base.drop.withStage _, hpath, hheld, nofun⟩
      next n heq' =>
        split
        · exact ⟨(hrequest (hlive heq') .ask).withStage _, hpath, hmore, hout (hlive heq') hnone⟩
        · exact h.base.startPump (hlive heq') hpath hheld hnone
    next hall =>
      split
      next hedits =>
        exact ⟨h.base.drop.withStage _, hpath, rfl, hheld hedits (Nat.le_of_not_lt hall)⟩
      · exact h.base.fail
  · exact h

/-- Giving up tells the host to remove what it has. -/
theorem Inv.giveUp (h : Inv safeName c W t) (cancelled : Bool) :
    Inv safeName c W (t.giveUp c cancelled) := by
  rw [DaemonFileUpload.giveUp]
  split
  · exact h
  · exact h
  · split_ifs
    · exact h.base.fail
    · exact ⟨h.base.drop.withStage .failed, rfl⟩
  · exact h.base.fail

/-- A file that was written to is known by its edits. -/
theorem Inv.edit (h : Inv safeName c W t) (content : List UInt8) :
    Inv safeName c W { t with content, edits := t.edits + 1 } where
  base :=
    { hosts := h.base.hosts.mono (fun hedits => by cases hedits) fun _ => id
      sent := fun n message hmem => (h.base.sent n message hmem).mono fun hedits => by cases hedits
      answers := fun n reply hmem =>
        (h.base.answers n reply hmem).mono (fun hedits => by cases hedits) fun _ => id
      unedited := nofun
      fresh := h.base.fresh
      link := h.base.link
      window := h.base.window }
  stage := by
    have hstage := h.stage
    dsimp only
    revert hstage
    cases t.stage with
    | begin waiting => exact id
    | transfer held mustAsk =>
      exact fun ⟨hpath, _, hrest⟩ => ⟨hpath, fun hedits => (by cases hedits), hrest⟩
    | asking held => exact id
    | pump p => exact fun ⟨hpath, _, hrest⟩ => ⟨hpath, fun hedits => (by cases hedits), hrest⟩
    | returned => exact id
    | failed => exact id

/-! ## The links and the host

What happens to a copy without the client: a link breaks, the host takes a request or is asked for
something else. -/

/-- The stages rest on no more of a link than how much is on it. -/
theorem AtStage.of_wires {stage : Stage} (h : AtStage safeName c W t stage)
    (hpath : t'.path = t.path) (hedits : t'.edits = t.edits) (hlink : t'.link = t.link)
    (hwindow : t'.window = t.window) (hwires : ∀ k, Outstanding t k → Outstanding t' k) :
    AtStage safeName c W t' stage := by
  have hcounted : ∀ {held : ℕ}, Counted c W t held → Counted c W t' held := fun hheld he =>
    hheld (hedits ▸ he)
  cases stage with
  | begin waiting => exact ⟨hwires _ h.1, hpath.trans h.2⟩
  | transfer held mustAsk => exact ⟨hpath.trans h.1, hcounted h.2.1, hwires _ h.2.2⟩
  | asking held => exact ⟨hpath.trans h.1, h.2.1, hwires _ h.2.2⟩
  | pump p =>
    obtain ⟨hsame, hheld, hposition, hin, hout⟩ := h
    exact ⟨hpath.trans hsame, hcounted hheld, hposition, hwindow ▸ hin, hwires _ hout⟩
  | returned => exact ⟨hpath.trans h.1, hlink.trans h.2.1, h.2.2⟩
  | failed => exact hlink.trans h

/-- A link with less on it has no more outstanding. -/
theorem outstanding_setWire {w : Wire} {k : ℕ}
    (hw : w.sent.length + w.answers.length ≤ (t.wires n).sent.length + (t.wires n).answers.length)
    (h : Outstanding t k) : Outstanding (t.setWire n w) k := by
  intro n' hn'
  have hbefore := h n' hn'
  change (Function.update t.wires n w n').sent.length +
    (Function.update t.wires n w n').answers.length ≤ k
  by_cases heq : n' = n
  · subst heq
    rw [Function.update_self]
    exact hw.trans hbefore
  · rw [Function.update_of_ne heq]
    exact hbefore

/-- A broken link hands on a first part of what was on it. -/
theorem Inv.cut (h : Inv safeName c W t) (hn : n < t.made) (k : ℕ) :
    Inv safeName c W
      (t.setWire n { t.wires n with sent := (t.wires n).sent.take k, broken := true }) where
  base := h.base.setWire hn (fun message hmem => h.base.sent n message (List.mem_of_mem_take hmem))
    (h.base.answers n)
  stage := h.stage.of_wires rfl rfl rfl rfl fun k' => outstanding_setWire (by
    dsimp only
    rw [List.length_take]
    omega)

/-- The host's answer says what it has. -/
theorem Inv.deliver (h : Inv safeName c W t) (n : ℕ) {world : World} (hnames : Names c world) :
    Inv safeName c (W ∨ IsWhole safeName c (t.deliver safeName c n world).host.store)
      (t.deliver safeName c n world) := by
  rw [DaemonFileUpload.deliver]
  split
  · exact h.mono .inl
  next message sent hsent =>
    obtain ⟨store', reply, hup, hserves⟩ := h.base.hosts.request hnames
      (h.base.sent n message (hsent ▸ List.mem_cons_self))
    have hstore : (t.host.step safeName (.request message world c.content)).store = store' := by
      simp only [Uploading.step, hup]
    have hmade : n < t.made := by
      by_contra hnot
      rw [h.base.fresh n (Nat.le_of_not_lt hnot)] at hsent
      cases hsent
    have hlater := @Inv.mono _ _ _ (W ∨ IsWhole safeName c store') _ h .inl
    dsimp only
    rw [hup, Option.map_some, Option.toList_some, hstore]
    have hwire := hlater.base.setWire (w := { t.wires n with
        sent
        answers := if (t.wires n).broken then (t.wires n).answers else (t.wires n).answers ++
          [reply] }) hmade
      (fun message' hmem => h.base.sent n message' (hsent ▸ List.mem_cons_of_mem _ hmem)) (by
        intro reply' hmem
        dsimp only at hmem
        split_ifs at hmem
        · exact hlater.base.answers n reply' hmem
        · rcases List.mem_append.mp hmem with hmem | hmem
          · exact hlater.base.answers n reply' hmem
          · rw [List.mem_singleton.mp hmem]
            exact hserves.tells)
    refine ⟨⟨?_, hwire.sent, hwire.answers, hwire.unedited, hwire.fresh, hwire.link, hwire.window⟩,
      hlater.stage.of_wires rfl rfl rfl rfl fun k => outstanding_setWire ?_⟩
    · change Hosts safeName c (t.edits = 0) _ (t.host.step safeName _).store
      rw [hstore]
      exact hserves.hosts
    · dsimp only
      rw [hsent, List.length_cons]
      split_ifs
      · omega
      · rw [List.length_append, List.length_singleton]
        omega

/-- Other requests do not name the copy's id. -/
theorem Inv.other (h : Inv safeName c W t) {event : FileUploadStore.Event}
    (hspares : Spares c event) :
    Inv safeName c W { t with host := t.host.step safeName event } := by
  have hhosts : Hosts safeName c (t.edits = 0) W (t.host.step safeName event).store := by
    cases event with
    | request message world file =>
      rw [Uploading.step]
      split
      · exact h.base.hosts
      next store reply hup => exact h.base.hosts.spared (spared_uploadFile hup hspares.1 hspares.2)
    | expireIdle world => exact h.base.hosts.expireIdle world
  exact ⟨⟨hhosts, h.base.sent, h.base.answers, h.base.unedited, h.base.fresh, h.base.link,
    h.base.window⟩, h.stage.of_wires rfl rfl rfl rfl fun _ => id⟩

/-- **What a step keeps**, the host having had the file once it says so. -/
theorem Inv.step (h : Inv safeName c W t) (e : Event) :
    Inv safeName c (W ∨ IsWhole safeName c (step safeName c t e).host.store)
      (step safeName c t e) := by
  cases e with
  | turn answered => exact (h.turn answered).mono .inl
  | answer k => exact (h.answer k).mono .inl
  | lose quiet => exact (h.lose quiet).mono .inl
  | noReply => exact h.noReply.mono .inl
  | giveUp cancelled => exact (h.giveUp cancelled).mono .inl
  | edit content => exact (h.edit content).mono .inl
  | deliver n world =>
    rw [DaemonFileUpload.step]
    split_ifs with hnames
    · exact h.deliver n hnames
    · exact h.mono .inl
  | cut n k =>
    rw [DaemonFileUpload.step]
    split_ifs with hn
    · exact (h.cut hn k).mono .inl
    · exact h.mono .inl
  | other event =>
    rw [DaemonFileUpload.step]
    split_ifs with hspares
    · exact (h.other hspares).mono .inl
    · exact h.mono .inl

/-- Before the first step nothing is on its way. -/
theorem Inv.init : Inv safeName c False { content := c.content } where
  base :=
    { hosts := ⟨⟨nofun, rfl⟩, nofun, nofun⟩
      sent := nofun
      answers := nofun
      unedited := fun _ => rfl
      fresh := fun _ _ => rfl
      link := nofun
      window := ⟨Nat.succ_pos 7, le_rfl⟩ }
  stage := ⟨nofun, rfl⟩

/-! ## Runs -/

/-- What is promised of a copy, the host having had the whole file or not. -/
structure Copies (safeName : String → String) (c : FileCopy) (W : Prop) (t : DaemonFileUpload) :
    Prop where
  /-- The path handed back is that of the file, which the host had whole. -/
  returned : t.stage = .returned → t.path = some (target safeName c) ∧ W
  /-- Until then, and unless it is written to here, the host has the first bytes of it. -/
  kept : t.edits = 0 → ∀ u, t.host.store.uploads.get? c.id = some u → u.path = target safeName c ∧
    u.received < c.content.length ∧ t.host.store.disk c.id = some (c.content.take u.received)
  /-- A window of requests is in flight at most, of a part's bytes each. -/
  bounded : ∀ n ∈ t.link, (t.wires n).sent.length + (t.wires n).answers.length ≤ t.window ∧
    t.window ≤ maximumWindow
  parts : ∀ n, ∀ message ∈ (t.wires n).sent, (message.data.join.getD []).length ≤
    uploadChunkByteCount

/-- **What is promised of a copy**, from the invariant. -/
theorem Inv.copies (h : Inv safeName c W t) : Copies safeName c W t where
  returned heq := by
    have hstage := h.stage
    rw [heq] at hstage
    exact ⟨hstage.1, hstage.2.2⟩
  kept hedits u hu := by
    obtain ⟨⟨hsize, hpath, -⟩, hheld⟩ := h.base.hosts.upload u hu
    obtain ⟨bytes, hdisk, -, hbytes⟩ := hheld.content
    exact ⟨hpath, hsize ▸ hheld.short, by rw [hdisk, (hbytes hedits).2]⟩
  bounded n hn := by
    have hstage := h.stage
    have hwindow := h.base.window
    refine ⟨?_, hwindow.2⟩
    revert hstage
    cases t.stage with
    | begin waiting =>
      rintro ⟨hout, -⟩
      have hone := hout n hn
      split_ifs at hone
      · omega
      · omega
    | transfer held mustAsk => exact fun ⟨_, _, hout⟩ => (hout n hn).trans (Nat.zero_le _)
    | asking held => exact fun ⟨_, _, hout⟩ => (hout n hn).trans hwindow.1
    | pump p => exact fun ⟨_, _, _, hin, hout⟩ => (hout n hn).trans hin
    | returned =>
      rintro ⟨-, hnone, -⟩
      rw [hnone] at hn
      cases hn
    | failed =>
      intro hnone
      rw [AtStage.eq_def] at hnone
      rw [hnone] at hn
      cases hn
  parts n message hmem := by
    cases h.base.sent n message hmem with
    | begin => exact Nat.zero_le _
    | ask => exact Nat.zero_le _
    | part hshort _ _ => exact hshort
    | cancel => exact Nat.zero_le _

variable (safeName) (c)

/-- **A path that is handed back is that of the whole file**, over any links that fail in any way,
whatever arrives late, and whatever else the host is asked for meanwhile. -/
theorem copies_after (es : List Event) :
    Copies safeName c (∃ n, IsWhole safeName c (after safeName c (es.take n)).host.store)
      (after safeName c es) := by
  have hrun := @Run.invariant_seen _ _ (step safeName c) (fun t => IsWhole safeName c t.host.store)
    (fun W t => Inv safeName c W t) (fun _ _ e h => h.step e) (fun _ _ _ hW h => h.mono hW) es _ _
      Inv.init
  exact (hrun.mono fun hseen => hseen.resolve_left id).copies

end DaemonFileUpload
