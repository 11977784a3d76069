import IGhostVT.Session.FileCopies

/-!
# Session/CopyProgress — a copy that is left alone

While the file is not written to, the copy is not given up and the host keeps the upload, each
link's parts follow on one another from what the host had (`Aligned`), so whatever arrives, and over
whichever link, leaves no hole.
-/

open FileUploadStore

namespace DaemonFileUpload

/-! ## Parts in order -/

/-- Each part begins where the host's file reaches when it arrives, or before. -/
def Aligned : ℕ → List Message → Prop
  | _, [] => True
  | reach, message :: messages =>
    start message ≤ reach ∧ Aligned (max reach (edge message)) messages

/-- How far the host's file reaches once all have arrived. -/
def tip : ℕ → List Message → ℕ
  | reach, [] => reach
  | reach, message :: messages => tip (max reach (edge message)) messages

theorem le_tip : ∀ (messages : List Message) (reach : ℕ), reach ≤ tip reach messages
  | [], _ => le_rfl
  | _ :: messages, _ => (Nat.le_max_left _ _).trans (le_tip messages _)

theorem tip_mono : ∀ (messages : List Message) {reach reach' : ℕ}, reach ≤ reach' →
    tip reach messages ≤ tip reach' messages
  | [], _, _, h => h
  | message :: messages, _, _, h => tip_mono messages (by omega)

theorem tip_append : ∀ (messages messages' : List Message) (reach : ℕ),
    tip reach (messages ++ messages') = tip (tip reach messages) messages'
  | [], _, _ => rfl
  | _ :: messages, messages', _ => tip_append messages messages' _

theorem Aligned.mono : ∀ {messages : List Message} {reach reach' : ℕ}, Aligned reach messages →
    reach ≤ reach' → Aligned reach' messages
  | [], _, _, _, _ => trivial
  | _ :: _, _, _, h, hle => ⟨h.1.trans hle, h.2.mono (by omega)⟩

theorem Aligned.append : ∀ {messages messages' : List Message} {reach : ℕ}, Aligned reach messages →
    Aligned (tip reach messages) messages' → Aligned reach (messages ++ messages')
  | [], _, _, _, h => h
  | _ :: _, _, _, h, h' => ⟨h.1, h.2.append h'⟩

theorem Aligned.take : ∀ {messages : List Message} {reach : ℕ} (k : ℕ), Aligned reach messages →
    Aligned reach (messages.take k)
  | _, _, 0, _ => by
    rw [List.take_zero]
    trivial
  | [], _, _ + 1, _ => trivial
  | _ :: _, _, k + 1, h => ⟨h.1, h.2.take k⟩

variable {safeName : String → String} {c : FileCopy} {G W W' : Prop} {t t' : DaemonFileUpload}
  {store : FileUploadStore} {n : ℕ}

/-- What `fill` sends follows on from where the pump was, and reaches as far as it then is. -/
structure Follows (c : FileCopy) (room : ℕ) (p q : Pump) (messages : List Message) : Prop where
  aligned : ∀ reach, p.next ≤ reach → Aligned reach messages ∧ q.next ≤ tip reach messages
  parts : ∀ message ∈ messages, message.cancel = false ∧ message.fileName = none
  /-- It stops at the window's end, or at the file's. -/
  stops : messages.length = room ∨ c.content.length ≤ q.next
  /-- Each part is some way on. -/
  advances : c.content.length - q.next + messages.length ≤ c.content.length - p.next

theorem follows_fill : ∀ (room : ℕ) (p : Pump), p.position = p.next →
    (fill c c.content room p).2.2 = true ∧
      Follows c room p (fill c c.content room p).1 (fill c c.content room p).2.1
  | 0, p, _ =>
    ⟨rfl, fun _ hreach => ⟨trivial, hreach⟩, fun _ hmem => absurd hmem List.not_mem_nil, .inl rfl,
      le_rfl⟩
  | room + 1, p, hposition => by
    rw [fill]
    split
    swap
    next hnone =>
      exact ⟨rfl, fun _ hreach => ⟨trivial, hreach⟩, fun _ hmem => absurd hmem List.not_mem_nil,
        .inr (Nat.le_of_not_lt hnone), le_rfl⟩
    next hmore =>
      have hpos := uploadChunkByteCount_pos
      generalize hcount : min uploadChunkByteCount (c.content.length - p.next) = count
      have hread : ((c.content.drop p.position).take count).length = count := by
        rw [List.length_take, List.length_drop, hposition]
        omega
      dsimp only
      rw [if_pos hread]
      obtain ⟨hisRead, haligned, hparts, hstops, hadvances⟩ := follows_fill room
        { p with
          next := p.next + count
          position := p.position + count
          inFlight := p.inFlight + 1 }
        (congrArg (· + count) hposition)
      have hedge : ∀ data : List UInt8, data.length = count →
          edge (partRequest c p.next data) = p.next + count := fun _ => congrArg (p.next + ·)
      refine ⟨hisRead, fun reach hreach => ?_, fun message hmem => ?_, ?_, ?_⟩
      · obtain ⟨hrest, htip⟩ := haligned (max reach (p.next + count)) (Nat.le_max_right _ _)
        rw [Aligned, tip, hedge _ hread]
        exact ⟨⟨hreach, hrest⟩, htip⟩
      · rcases List.mem_cons.mp hmem with rfl | hmem
        · exact ⟨rfl, rfl⟩
        · exact hparts message hmem
      · exact hstops.imp_left (congrArg (· + 1))
      · refine (Nat.succ_le_succ hadvances).trans ?_
        dsimp only
        omega

/-! ## What a copy that is left alone keeps -/

variable (c) in
/-- How much the host says it has. -/
def reach (t : DaemonFileUpload) : ℕ := (t.host.store.received c.id).getD 0

variable (c) in
/-- What the task that waits for an answer will hear. -/
def Heard (t : DaemonFileUpload) : Prop :=
  ∀ n ∈ t.link, ∀ reply ∈ (t.wires n).answers,
    reply.code = .success ∧ ∃ offset, reply.offset = some offset ∧ offset ≤ reach c t

variable (c) in
/-- How far the client is, against the host. -/
def Level (t : DaemonFileUpload) : Stage → Prop
  | .transfer held _ => held ≤ reach c t
  | .asking held => held ≤ reach c t ∧ Heard c t ∧ t.link.isSome
  | .pump p => p.held ≤ reach c t ∧ Heard c t ∧ t.link.isSome ∧
      ∀ n ∈ t.link, (t.wires n).broken = false → p.next ≤ tip (reach c t) (t.wires n).sent
  | .failed => t.path = none
  | _ => True

/-- What is kept beside `Inv`, whatever the client is at. -/
structure Steady (c : FileCopy) (t : DaemonFileUpload) : Prop where
  unedited : t.edits = 0
  begun : t.path.isSome → (t.host.store.received c.id).isSome
  /-- A begin that was taken was heard of by the host. -/
  answered : ∀ n, ∀ reply ∈ (t.wires n).answers, reply.code = .success →
    (t.host.store.received c.id).isSome
  uncancelled : ∀ n, ∀ message ∈ (t.wires n).sent, message.cancel = false
  /-- Before the host knows it nothing of the file is sent. -/
  empty : t.path = none → ∀ n, ∀ message ∈ (t.wires n).sent, edge message = 0
  aligned : ∀ n, Aligned (reach c t) (t.wires n).sent

structure Smooth (c : FileCopy) (t : DaemonFileUpload) : Prop where
  steady : Steady c t
  level : Level c t t.stage

/-- The file is written to, or the copy is given up. -/
def Event.disturbs : Event → Bool
  | .edit _ => true
  | .giveUp _ => true
  | _ => false

/-- The copy is left alone, and the host keeps what it knows. -/
def Undisturbed (safeName : String → String) (c : FileCopy) (t : DaemonFileUpload)
    (e : Event) : Prop :=
  e.disturbs = false ∧
    ((t.host.store.received c.id).isSome → ((step safeName c t e).host.store.received c.id).isSome)

instance (safeName : String → String) (c : FileCopy) (t : DaemonFileUpload) (e : Event) :
    Decidable (Undisturbed safeName c t e) :=
  inferInstanceAs (Decidable (_ ∧ _))

/-- What rests on the host alone rests on how far it reaches. -/
theorem Smooth.of_host (h : Smooth c t) {host : Uploading}
    (hknown : (t.host.store.received c.id).isSome → (host.store.received c.id).isSome)
    (hreach : reach c t ≤ (host.store.received c.id).getD 0) : Smooth c { t with host } where
  steady :=
    { unedited := h.steady.unedited
      begun := fun hsome => hknown (h.steady.begun hsome)
      answered := fun n reply hmem hcode => hknown (h.steady.answered n reply hmem hcode)
      uncancelled := h.steady.uncancelled
      empty := h.steady.empty
      aligned := fun n => (h.steady.aligned n).mono hreach }
  level := by
    have hlevel := h.level
    have hheard : Heard c t → Heard c { t with host } := fun hheard n hn reply hmem =>
      have ⟨hcode, offset, hoffset, hle⟩ := hheard n hn reply hmem
      ⟨hcode, offset, hoffset, hle.trans hreach⟩
    dsimp only
    revert hlevel
    cases t.stage with
    | begin waiting => exact id
    | transfer held mustAsk => exact fun hle => hle.trans hreach
    | asking held => exact fun ⟨hle, hall, hlink⟩ => ⟨hle.trans hreach, hheard hall, hlink⟩
    | pump p =>
      exact fun ⟨hle, hall, hlink, hnext⟩ => ⟨hle.trans hreach, hheard hall, hlink,
        fun n hn hwhole => (hnext n hn hwhole).trans (tip_mono _ hreach)⟩
    | returned => exact id
    | failed => exact id

/-- A step that leaves the host and the links as they are. -/
theorem Steady.of_same (h : Steady c t) (hhost : t'.host = t.host) (hedits : t'.edits = t.edits)
    (hwires : t'.wires = t.wires) (hpath : t'.path = t.path) : Steady c t' where
  unedited := hedits.trans h.unedited
  begun hsome := by
    rw [hhost]
    exact h.begun (hpath ▸ hsome)
  answered := by
    rw [hhost, hwires]
    exact h.answered
  uncancelled := by
    rw [hwires]
    exact h.uncancelled
  empty hnone := by
    rw [hwires]
    exact h.empty (hpath ▸ hnone)
  aligned n := by
    rw [reach, hhost, hwires]
    exact h.aligned n

/-- One link's queues are others. -/
theorem Steady.of_wire (h : Steady c t) {w : Wire} (hhost : t'.host = t.host)
    (hedits : t'.edits = t.edits) (hwires : t'.wires = Function.update t.wires n w)
    (hpath : t'.path = none → t.path = none)
    (hbegun : t'.path.isSome → (t.host.store.received c.id).isSome)
    (hanswers : ∀ reply ∈ w.answers, reply.code = .success → (t.host.store.received c.id).isSome)
    (hsent : ∀ message ∈ w.sent, message.cancel = false ∧ (t'.path = none → edge message = 0))
    (haligned : Aligned (reach c t) w.sent) : Steady c t' where
  unedited := hedits.trans h.unedited
  begun hsome := by
    rw [hhost]
    exact hbegun hsome
  answered n' := by
    rw [hhost, hwires]
    by_cases heq : n' = n
    · subst heq
      rw [Function.update_self]
      exact hanswers
    · rw [Function.update_of_ne heq]
      exact h.answered n'
  uncancelled n' := by
    rw [hwires]
    by_cases heq : n' = n
    · subst heq
      rw [Function.update_self]
      exact fun message hmem => (hsent message hmem).1
    · rw [Function.update_of_ne heq]
      exact h.uncancelled n'
  empty hnone n' := by
    rw [hwires]
    by_cases heq : n' = n
    · subst heq
      rw [Function.update_self]
      exact fun message hmem => (hsent message hmem).2 hnone
    · rw [Function.update_of_ne heq]
      exact h.empty (hpath hnone) n'
  aligned n' := by
    rw [reach, hhost, hwires]
    by_cases heq : n' = n
    · subst heq
      rw [Function.update_self]
      exact haligned
    · rw [Function.update_of_ne heq]
      exact h.aligned n'

/-- More is sent over a link. -/
theorem Steady.send (h : Steady c t) {messages : List Message} (stage : Stage)
    (hsent : ∀ message ∈ messages, message.cancel = false ∧ (t.path = none → edge message = 0))
    (haligned : (t.wires n).broken = false → Aligned (tip (reach c t) (t.wires n).sent) messages) :
    Steady c { t.setWire n ((t.wires n).send messages) with stage } := by
  refine h.of_wire rfl rfl rfl id h.begun (by rw [answers_send]; exact h.answered n)
    (fun message hmem => ?_) ?_
  · rcases mem_send hmem with hmem | hmem
    · exact ⟨h.uncancelled n message hmem, fun hnone => h.empty hnone n message hmem⟩
    · exact hsent message hmem
  · rw [Wire.send]
    split
    · exact h.aligned n
    next hwhole => exact (h.aligned n).append (haligned (Bool.eq_false_of_not_eq_true hwhole))

theorem sent_send {w : Wire} {messages : List Message} (h : w.broken = false) :
    (w.send messages).sent = w.sent ++ messages := by
  rw [Wire.send, h]
  rfl

theorem broken_send (w : Wire) (messages : List Message) : (w.send messages).broken = w.broken := by
  rw [Wire.send]
  split_ifs <;> rfl

theorem Steady.sendParts (h : Steady c t) (hcontent : t.content = c.content)
    (hlink : t.link = some n) (hpath : t.path.isSome) {p : Pump} (hposition : p.position = p.next)
    (hheld : p.held ≤ reach c t) (hheard : Heard c t)
    (hnext : (t.wires n).broken = false → p.next ≤ tip (reach c t) (t.wires n).sent) :
    Smooth c (t.sendParts c n p) := by
  obtain ⟨hread, hfollows⟩ := @follows_fill c (t.window - p.inFlight) p hposition
  have hfilled := @filled_fill c True _ (fun _ => rfl) (t.window - p.inFlight) p hposition
  rw [DaemonFileUpload.sendParts, hcontent]
  generalize fill c c.content (t.window - p.inFlight) p = filled at hread hfollows hfilled
  obtain ⟨q, messages, isRead⟩ := filled
  dsimp only at hread hfollows hfilled ⊢
  rw [if_pos hread]
  have hsteady := fun stage => h.send stage
    (fun message hmem =>
      ⟨(hfollows.parts message hmem).1, fun hnone => by rw [hnone] at hpath; cases hpath⟩)
    fun hwhole => (hfollows.aligned _ (hnext hwhole)).1
  refine ⟨hsteady _, ?_⟩
  have hanswers : ∀ n' ∈ t.link, (Function.update t.wires n ((t.wires n).send messages) n').answers
      = (t.wires n').answers := by
    intro n' hn'
    obtain rfl : n = n' := Option.some.inj (hlink.symm.trans hn')
    rw [Function.update_self, answers_send]
  have hqheld : q.held ≤ reach c t := hfilled.held ▸ hheld
  by_cases hnone : q.inFlight = 0
  · rw [if_pos hnone]
    exact hqheld
  · rw [if_neg hnone]
    refine ⟨hqheld, fun n' hn' reply hmem => ?_, Option.isSome_iff_exists.mpr ⟨n, hlink⟩,
      fun n' hn' hwhole => ?_⟩
    · exact hheard n' hn' reply (hanswers n' hn' ▸ hmem)
    · obtain rfl : n = n' := Option.some.inj (hlink.symm.trans hn')
      change (Function.update t.wires n _ n).broken = false at hwhole
      change q.next ≤ tip (reach c t) (Function.update t.wires n _ n).sent
      rw [Function.update_self] at hwhole ⊢
      rw [broken_send] at hwhole
      rw [sent_send hwhole, tip_append]
      exact (hfollows.aligned _ (hnext hwhole)).2

theorem Steady.accepted (h : Steady c t) (hcontent : t.content = c.content)
    (hlink : t.link = some n) (hpath : t.path.isSome) {p : Pump} {offset : ℕ}
    (hposition : p.position = p.next) (hheld : p.held ≤ reach c t) (hoffset : offset ≤ reach c t)
    (hheard : Heard c t)
    (hnext : (t.wires n).broken = false → p.next ≤ tip (reach c t) (t.wires n).sent) :
    Smooth c (t.accepted c n p offset) := by
  obtain ⟨window, q, heq, -, hqheld, hqnext, hqposition, -⟩ := @accepted_eq c t n p offset hposition
  have hmost : max p.held offset ≤ reach c t := Nat.max_le.mpr ⟨hheld, hoffset⟩
  have hsteady : Steady c { t with window } := h.of_same rfl rfl rfl rfl
  rw [heq]
  refine hsteady.sendParts hcontent hlink hpath hqposition (hqheld ▸ hmost) hheard fun hwhole => ?_
  rw [hqnext]
  exact Nat.max_le.mpr ⟨hnext hwhole, hmost.trans (le_tip _ _)⟩

/-! ## Steps of the client -/

theorem Smooth.answer (hinv : Inv safeName c W t) (h : Smooth c t) (i : ℕ) :
    Smooth c (t.answer c i) := by
  rw [DaemonFileUpload.answer]
  split
  · exact h
  next n hlink =>
    split
    · exact h
    next reply hreply =>
      have hmem := List.mem_of_getElem? hreply
      have hcontent := hinv.base.unedited h.steady.unedited
      have hrest : ∀ (path : Option String) (stage : Stage), (path = none → t.path = none) →
          (path.isSome → (t.host.store.received c.id).isSome) → Steady c { t.setWire n
            { t.wires n with answers := (t.wires n).answers.eraseIdx i } with path, stage } :=
        fun path stage hnone hsome => h.steady.of_wire rfl rfl rfl hnone hsome
          (fun reply hmem => h.steady.answered n reply (List.mem_of_mem_eraseIdx hmem))
          (fun message hmem => ⟨h.steady.uncancelled n message hmem,
            fun hpath => h.steady.empty (hnone hpath) n message hmem⟩) (h.steady.aligned n)
      have hheard : Heard c t → Heard c (t.setWire n
          { t.wires n with answers := (t.wires n).answers.eraseIdx i }) := by
        intro hall n' hn' reply' hmem'
        obtain rfl : n = n' := Option.some.inj (hlink.symm.trans hn')
        change reply' ∈ (Function.update t.wires n _ n).answers at hmem'
        rw [Function.update_self] at hmem'
        exact hall n hlink reply' (List.mem_of_mem_eraseIdx hmem')
      have hwire :
          (t.setWire n { t.wires n with answers := (t.wires n).answers.eraseIdx i }).wires n
          = { t.wires n with answers := (t.wires n).answers.eraseIdx i } :=
            Function.update_self _ _ _
      have hstage := hinv.stage
      have hlevel := h.level
      dsimp only
      split
      next heq =>
        rw [heq] at hstage
        split
        next path hcode hpath =>
          exact ⟨hrest _ _ (fun hnone => (by cases hnone)) fun _ =>
            h.steady.answered n reply hmem hcode,
            Nat.zero_le _⟩
        · have hdropped : Steady c (t.setWire n
              { t.wires n with answers := (t.wires n).answers.eraseIdx i }) :=
            hrest t.path t.stage id h.steady.begun
          exact ⟨hdropped.of_same rfl rfl rfl rfl, hstage.2⟩
      next held heq =>
        rw [heq] at hstage hlevel
        obtain ⟨hpath, -, hout⟩ := hstage
        obtain ⟨-, hall, -⟩ := hlevel
        obtain ⟨hcode, offset, hoffset, hle⟩ := hall n hlink reply hmem
        rw [if_pos hcode, hoffset, Option.getD_some]
        have hsome : t.path.isSome := by
          rw [hpath]
          rfl
        split
        · exact ⟨hrest t.path _ id h.steady.begun, hle⟩
        · exact (hrest t.path t.stage id h.steady.begun).sendParts hcontent hlink hsome rfl hle
            (hheard hall)
            fun _ => hle.trans (le_tip _ _)
      next p heq =>
        rw [heq] at hstage hlevel
        obtain ⟨hpath, -, hposition, -⟩ := hstage
        obtain ⟨hheld, hall, -, hnext⟩ := hlevel
        obtain ⟨hcode, offset, hoffset, hle⟩ := hall n hlink reply hmem
        rw [if_pos hcode, hoffset, Option.getD_some]
        have hsome : t.path.isSome := by
          rw [hpath]
          rfl
        refine (hrest t.path t.stage id h.steady.begun).accepted hcontent hlink hsome hposition
          hheld hle
          (hheard hall) fun hwhole => ?_
        change (Function.update t.wires n _ n).broken = false at hwhole
        change p.next ≤ tip (reach c t) (Function.update t.wires n _ n).sent
        rw [Function.update_self] at hwhole ⊢
        exact hnext n hlink hwhole
      · exact h

theorem Smooth.lose (h : Smooth c t) (quiet : Bool) : Smooth c (t.lose quiet) := by
  rw [DaemonFileUpload.lose]
  split_ifs
  · refine ⟨h.steady.of_same rfl rfl rfl rfl, ?_⟩
    have hlevel := h.level
    dsimp only
    revert hlevel
    cases t.stage <;> exact id
  · exact h

theorem Smooth.noReply (h : Smooth c t) : Smooth c t.noReply := by
  have hlevel := h.level
  rw [DaemonFileUpload.noReply]
  split
  swap
  · exact h
  split
  · exact ⟨h.steady.of_same rfl rfl rfl rfl, trivial⟩
  next held heq =>
    rw [heq] at hlevel
    exact ⟨h.steady.of_same rfl rfl rfl rfl, hlevel.1⟩
  next p heq =>
    rw [heq] at hlevel
    exact ⟨h.steady.of_same rfl rfl rfl rfl, hlevel.1⟩
  · exact h

theorem Smooth.turn (hinv : Inv safeName c W t) (h : Smooth c t) (answered : Bool) :
    Smooth c (t.turn c answered) := by
  have hlevel := h.level
  have hstage := hinv.stage
  have hlive : ∀ {n : ℕ}, t.live = some n → t.link = some n := by
    intro n heq
    rw [live] at heq
    split_ifs at heq
    exact heq
  rw [DaemonFileUpload.turn]
  split
  next heq =>
    split
    · rw [connect]
      split
      · exact ⟨h.steady.of_same rfl rfl rfl rfl, by change Level c _ t.stage; rw [heq]; trivial⟩
      · have hsame : t.drop.stage = .begin false := heq
        rw [hsame]
        exact ⟨h.steady.of_same rfl rfl rfl rfl, by rw [hsame]; trivial⟩
    next n heq' =>
      exact ⟨h.steady.send _
        (fun message hmem => by rw [List.mem_singleton.mp hmem]; exact ⟨rfl, fun _ => rfl⟩) fun _ =>
          ⟨Nat.zero_le _, trivial⟩, trivial⟩
  next held mustAsk heq =>
    rw [heq] at hlevel hstage
    obtain ⟨hpath, -, hnone⟩ := hstage
    have hsilent : ∀ {n : ℕ}, t.link = some n → (t.wires n).answers = [] := fun hlink =>
      List.length_eq_zero_iff.mp (by have := hnone _ hlink; omega)
    split
    next hmore =>
      split
      · rw [connect]
        split
        · exact ⟨h.steady.of_same rfl rfl rfl rfl,
            by change Level c _ t.stage; rw [heq]; exact hlevel⟩
        · have hsame : t.drop.stage = .transfer held mustAsk := heq
          rw [hsame]
          exact ⟨h.steady.of_same rfl rfl rfl rfl, hlevel⟩
      next n heq' =>
        have hlink := hlive heq'
        split
        · refine ⟨h.steady.send _
            (fun message hmem => by rw [List.mem_singleton.mp hmem]; exact ⟨rfl, fun _ => rfl⟩)
            fun _ => ⟨Nat.zero_le _, trivial⟩, hlevel, fun n' hn' reply hmem => ?_,
            Option.isSome_iff_exists.mpr ⟨n, hlink⟩⟩
          obtain rfl : n = n' := Option.some.inj (hlink.symm.trans hn')
          change reply ∈ (Function.update t.wires n _ n).answers at hmem
          rw [Function.update_self, answers_send, hsilent hlink] at hmem
          cases hmem
        · refine h.steady.sendParts (hinv.base.unedited h.steady.unedited) hlink
            (by rw [hpath]; rfl) rfl
            hlevel (fun n' hn' reply hmem => ?_) fun _ => hlevel.trans (le_tip _ _)
          rw [hsilent hn'] at hmem
          cases hmem
    · rw [if_pos h.steady.unedited]
      exact ⟨h.steady.of_same rfl rfl rfl rfl, trivial⟩
  · exact h

/-! ## The links and the host -/

/-- A link lost what is on it, in part, or hands a request on; what is to be heard stays. -/
theorem Level.of_wire {stage : Stage} (h : Level c t stage) (hstage : AtStage safeName c W t stage)
    {w : Wire}
    (hheard : t.path.isSome → Heard c t → Heard c (t.setWire n w))
    (htip : w.broken = false → (t.wires n).broken = false ∧
      tip (reach c t) (t.wires n).sent ≤ tip (reach c t) w.sent) : Level c (t.setWire n w)
        stage := by
  have hbegun : ∀ {path : String}, t.path = some path → t.path.isSome := fun heq =>
    Option.isSome_iff_exists.mpr ⟨_, heq⟩
  cases stage with
  | begin waiting => trivial
  | transfer held mustAsk => exact h
  | asking held => exact ⟨h.1, hheard (hbegun hstage.1) h.2.1, h.2.2⟩
  | pump p =>
    obtain ⟨hheld, hall, hlink, hnext⟩ := h
    refine ⟨hheld, hheard (hbegun hstage.1) hall, hlink, fun n' hn' hwhole => ?_⟩
    change (Function.update t.wires n w n').broken = false at hwhole
    change p.next ≤ tip (reach c t) (Function.update t.wires n w n').sent
    by_cases heq : n' = n
    · subst heq
      rw [Function.update_self] at hwhole ⊢
      obtain ⟨hbefore, hle⟩ := htip hwhole
      exact (hnext n' hn' hbefore).trans hle
    · rw [Function.update_of_ne heq] at hwhole ⊢
      exact hnext n' hn' hwhole
  | returned => trivial
  | failed => exact h

theorem Smooth.cut (hinv : Inv safeName c W t) (h : Smooth c t) (n k : ℕ) :
    Smooth c (t.setWire n { t.wires n with sent := (t.wires n).sent.take k, broken := true }) where
  steady := h.steady.of_wire rfl rfl rfl id h.steady.begun (h.steady.answered n)
    (fun message hmem => ⟨h.steady.uncancelled n message (List.mem_of_mem_take hmem),
      fun hnone => h.steady.empty hnone n message (List.mem_of_mem_take hmem)⟩)
    ((h.steady.aligned n).take k)
  level := h.level.of_wire hinv.stage (fun _ hall n' hn' reply hmem => by
    refine hall n' hn' reply ?_
    change reply ∈ (Function.update t.wires n _ n').answers at hmem
    by_cases heq : n' = n
    · subst heq
      rwa [Function.update_self] at hmem
    · rwa [Function.update_of_ne heq] at hmem) nofun

/-- While the host keeps the upload, a step for others leaves it as far as it was. -/
theorem received_other (h : Hosts safeName c G W store) {s : Uploading} (hs : s.store = store)
    {event : FileUploadStore.Event} (hspares : Spares c event) {r r' : ℕ}
    (hr : store.received c.id = some r)
    (hr' : (s.step safeName event).store.received c.id = some r') : r' = r := by
  subst hs
  have hspared : ∀ {store' : FileUploadStore}, Spared s.store store' c.id →
      store'.received c.id = some r' → r' = r := by
    intro store' hsame hnow
    cases hu : s.store.uploads.get? c.id with
    | some u =>
      rw [received_of_uploads hu] at hr
      rw [received_of_uploads (hsame.untouched.1.trans hu)] at hnow
      exact Option.some.inj (hnow.symm.trans hr)
    | none =>
      have hu' := hsame.untouched.1.trans hu
      cases hdone : store'.finished.get? c.id with
      | none =>
        rw [FileUploadStore.received, hu', hdone] at hnow
        cases hnow
      | some done =>
        rw [received_of_finished hu' hdone] at hnow
        rw [received_of_finished hu (hsame.finished done hdone)] at hr
        exact Option.some.inj (hnow.symm.trans hr)
  cases event with
  | request message world file =>
    rw [Uploading.step] at hr'
    split at hr'
    · exact Option.some.inj (hr'.symm.trans hr)
    next hup => exact hspared (spared_uploadFile hup hspares.1 hspares.2) hr'
  | expireIdle world =>
    obtain ⟨hfinished, horder⟩ := finished_expireIdle s.store world
    rcases expireIdle_cases s.store world c.id with huntouched | ⟨hnone, u, hu, -⟩
    · exact hspared (.of_finished huntouched hfinished horder) hr'
    · have hunfinished := h.tidy.apart (by rw [hu]; rfl)
      change (s.store.expireIdle world).received c.id = some r' at hr'
      rw [FileUploadStore.received, hnone, hfinished, hunfinished] at hr'
      cases hr'

theorem Smooth.other (hinv : Inv safeName c W t) (h : Smooth c t) {event : FileUploadStore.Event}
    (hspares : Spares c event)
    (hkept : (t.host.store.received c.id).isSome →
      ((t.host.step safeName event).store.received c.id).isSome) :
    Smooth c { t with host := t.host.step safeName event } := by
  refine h.of_host hkept ?_
  rw [reach]
  cases hr : t.host.store.received c.id with
  | none => exact Nat.zero_le _
  | some r =>
    obtain ⟨r', hr'⟩ := Option.isSome_iff_exists.mp (hkept (by rw [hr]; rfl))
    rw [hr', received_other hinv.base.hosts rfl hspares hr hr']

theorem Smooth.deliver (hinv : Inv safeName c W t) (h : Smooth c t) (n : ℕ) {world : World}
    (hnames : Names c world) (hkept : (t.host.store.received c.id).isSome →
      ((t.deliver safeName c n world).host.store.received c.id).isSome) :
    Smooth c (t.deliver safeName c n world) := by
  rw [DaemonFileUpload.deliver] at hkept ⊢
  split
  · exact h
  next message sent hsent =>
    have hmem : message ∈ (t.wires n).sent := hsent ▸ List.mem_cons_self
    obtain ⟨store', reply, hup, hserves⟩ :=
      hinv.base.hosts.request hnames (hinv.base.sent n message hmem)
    have hstore : (t.host.step safeName (.request message world c.content)).store = store' := by
      simp only [Uploading.step, hup]
    have hcancel := h.steady.uncancelled n message hmem
    have haligned := h.steady.aligned n
    rw [hsent] at hkept haligned
    dsimp only at hkept ⊢
    rw [hstore] at hkept
    rw [hup, Option.map_some, Option.toList_some]
    -- How far the host reaches now.
    have hreach : reach c t ≤ (store'.received c.id).getD 0 ∧
        edge message ≤ (store'.received c.id).getD 0 := by
      have hstart := haligned.1
      rw [reach] at hstart ⊢
      cases hr : t.host.store.received c.id with
      | none =>
        have hpath : t.path = none := by
          by_contra hsome
          have hknown := h.steady.begun (Option.isSome_iff_ne_none.mpr hsome)
          rw [hr] at hknown
          cases hknown
        rw [h.steady.empty hpath n message hmem]
        exact ⟨Nat.zero_le _, Nat.zero_le _⟩
      | some r =>
        obtain ⟨r', hr'⟩ := Option.isSome_iff_exists.mp (hkept (by rw [hr]; rfl))
        rw [hr] at hstart
        obtain ⟨hle, htaken⟩ := hserves.grows r r' hr hr'
        rw [hr']
        exact ⟨hle, (htaken hcancel hstart).2.1⟩
    obtain ⟨host, hhost⟩ : ∃ host, t.host.step safeName (.request message world c.content) = host :=
      ⟨_, rfl⟩
    rw [hhost] at hstore ⊢
    subst hstore
    have hsmooth : Smooth c { t with host } := h.of_host hkept hreach.1
    have hstage : AtStage safeName c W { t with host } t.stage :=
      hinv.stage.of_wires rfl rfl rfl rfl fun _ => id
    have hanswered : reply.code = .success → (host.store.received c.id).isSome := fun hcode =>
      Option.isSome_iff_exists.mpr ((hserves.known hcancel hcode).imp fun _ => And.left)
    have hanswers : ∀ reply' ∈ (if (t.wires n).broken then (t.wires n).answers
        else (t.wires n).answers ++ [reply]), reply' ∈ (t.wires n).answers ∨ reply' = reply := by
      intro reply' hmem'
      split_ifs at hmem'
      · exact .inl hmem'
      · exact (List.mem_append.mp hmem').imp_right List.mem_singleton.mp
    have hlater : max (reach c t) (edge message) ≤ reach c { t with host } := Nat.max_le.mpr hreach
    refine ⟨hsmooth.steady.of_wire rfl rfl rfl id hsmooth.steady.begun
      (fun reply' hmem' hcode => ?_)
      (fun message' hmem' => ?_) (haligned.2.mono hlater), ?_⟩
    · rcases hanswers reply' hmem' with hold | rfl
      · exact hsmooth.steady.answered n reply' hold hcode
      · exact hanswered hcode
    · have hold : message' ∈ (t.wires n).sent := hsent ▸ List.mem_cons_of_mem _ hmem'
      exact ⟨h.steady.uncancelled n message' hold,
        fun hnone => h.steady.empty hnone n message' hold⟩
    · refine hsmooth.level.of_wire hstage (fun hbegun hall n' hn' reply' hmem' => ?_)
        fun hwhole => ⟨hwhole, ?_⟩
      · change reply' ∈ (Function.update t.wires n _ n').answers at hmem'
        by_cases heq : n' = n
        · subst heq
          rw [Function.update_self] at hmem'
          rcases hanswers reply' hmem' with hold | rfl
          · exact hall n' hn' reply' hold
          · obtain ⟨r, hr⟩ := Option.isSome_iff_exists.mp (h.steady.begun hbegun)
            obtain ⟨r', hr'⟩ := Option.isSome_iff_exists.mp (hkept (by rw [hr]; rfl))
            have hstart := haligned.1
            rw [reach, hr] at hstart
            have hcode := ((hserves.grows r r' hr hr').2 hcancel hstart).1
            obtain ⟨r₁, hr₁, offset, hoffset, hle⟩ := hserves.known hcancel hcode
            refine ⟨hcode, offset, hoffset, ?_⟩
            change offset ≤ (host.store.received c.id).getD 0
            rw [hr₁]
            exact hle
        · rw [Function.update_of_ne heq] at hmem'
          exact hall n' hn' reply' hmem'
      · change tip (reach c { t with host }) (t.wires n).sent ≤ _
        rw [hsent, tip]
        exact tip_mono sent (Nat.max_le.mpr ⟨le_rfl, hreach.2⟩)

/-- **What a step of a copy that is left alone keeps.** -/
theorem Smooth.step (hinv : Inv safeName c W t) (h : Smooth c t) {e : Event}
    (hundisturbed : Undisturbed safeName c t e) : Smooth c (step safeName c t e) := by
  cases e with
  | turn answered => exact h.turn hinv answered
  | answer k => exact h.answer hinv k
  | lose quiet => exact h.lose quiet
  | noReply => exact h.noReply
  | giveUp cancelled => cases hundisturbed.1
  | edit content => cases hundisturbed.1
  | deliver n world =>
    have hkept := hundisturbed.2
    rw [DaemonFileUpload.step] at hkept ⊢
    split_ifs at hkept ⊢ with hnames
    · exact h.deliver hinv n hnames hkept
    · exact h
  | cut n k =>
    rw [DaemonFileUpload.step]
    split_ifs
    · exact h.cut hinv n k
    · exact h
  | other event =>
    have hkept := hundisturbed.2
    rw [DaemonFileUpload.step] at hkept ⊢
    split_ifs at hkept ⊢ with hspares
    · exact h.other hinv hspares hkept
    · exact h

theorem Smooth.init : Smooth c { content := c.content } :=
  ⟨⟨rfl, nofun, nofun, nofun, fun _ _ => nofun, fun _ => trivial⟩, trivial⟩

end DaemonFileUpload
