import IGhostVT.Link.DaemonNegotiation

/-!
# Link/DeferredClose — a close that was asked for reaches the daemon

A close of the session to resume is **owed** from the call until it is sent on some link, or the
daemon says the session is unknown or busy.  While it is owed something has to carry it: the
deferred end of a connection that is still negotiating, or a kill whose own hello is out.
`run_closes` says that every run of steps that carry what is deferred (`Carried`) keeps it so, hence
owes nothing once idle.

`Carried` is not a formality.  Losing the link forgets the end deferred on it, and the failure of an
attach forgets the session to resume: `run_orphans`.
-/

namespace DaemonNegotiation

open Run IGhostVTReplyCode

variable {s : DaemonNegotiation} {id : ℕ}

/-! ## What is owed -/

/-- Whether a close of `id` is owed behind a note, when it was `owed` ahead of it. -/
def owedAfter (id : ℕ) (owed : Bool) : Note → Bool
  | .asked asked => asked = id || owed
  | .sent _ (.closeSession closed) => closed ≠ id && owed
  | .answered answered code =>
    !(answered = id && (code = unknownSession || code = sessionBusy)) && owed
  | _ => owed

/-- `closeSession` was called with `id` the session to resume, and since then no close of it was
sent and no attach of it answered with unknown or busy. -/
def owes (s : DaemonNegotiation) (id : ℕ) : Bool := s.log.foldl (owedAfter id) false

/-- The session whose owed close waits for the reply that ends the negotiation. -/
def awaited (s : DaemonNegotiation) : Option ℕ :=
  if s.deferredEnd = some .close then s.resumeSessionID.filter s.owes else none

/-- Something carries a close of `id`: a deferred end, or a kill's own link. -/
def Carries (s : DaemonNegotiation) (id : ℕ) : Prop :=
  (s.deferredEnd = some .close ∧ s.resumeSessionID = some id) ∨
    ∃ link, Waiting.killHello link id ∈ s.waiting

def Waiting.isKillHello : Waiting → Bool
  | .killHello _ _ => true
  | _ => false

/-- Nothing is negotiated or attached, and no kill has its close still to send. -/
def IsIdle (s : DaemonNegotiation) : Prop :=
  s.connection = none ∧ ∀ w ∈ s.waiting, w.isKillHello = false

instance (s : DaemonNegotiation) : Decidable s.IsIdle :=
  inferInstanceAs (Decidable (_ ∧ ∀ w ∈ s.waiting, _))

/-! ## The steps that carry what is deferred -/

/-- An attach's answer settles the close that waits for it: it is the answer for that session and
says where it stands, it is tried again, or it is a remote link going down, and another can be
made. -/
def CarriedBy (s : DaemonNegotiation) (held : HeldReply) (makesLink : Bool) : Prop :=
  ∀ id ∈ s.awaited,
    (held.sessionID = id ∧ (held.reply.replyCode = success ∨ held.reply.replyCode = unknownSession ∨
      held.reply.replyCode = sessionBusy)) ∨
    (held.reply.replyCode = sessionBusy ∧ held.reply.holderName = none ∧ ¬ s.isRemote ∧
      held.busyRetries < busyAttachRetryLimit) ∨
    (s.isRemote ∧ held.reply.code = none ∧ held.reply.replyCode = operationFailed ∧ makesLink)

instance (s : DaemonNegotiation) (held : HeldReply) (makesLink : Bool) :
    Decidable (CarriedBy s held makesLink) :=
  inferInstanceAs (Decidable (∀ id ∈ s.awaited, _))

/-- The answer to what waits leaves no close behind. -/
def CarriedAnswer (s : DaemonNegotiation) (reply : DaemonReply) (makesLink : Bool) : Waiting → Prop
  | .hello _ =>
    (reply.replyCode = success → ∀ held ∈ s.repliesHeldForHello.getD [],
      s.connection = some held.link → s.CarriedBy held makesLink) ∧
    (reply.replyCode ≠ success → s.awaited ≠ none → makesLink)
  | .helloTimeout link =>
    s.isAwaitingHello → s.connection = some link → s.awaited ≠ none → makesLink
  | .attach link id busyRetries isBehindHello =>
    (isBehindHello → s.repliesHeldForHello = none ∧ s.connection = some link) →
      s.CarriedBy ⟨link, id, busyRetries, reply⟩ makesLink
  | .openSession _ => ∀ id ∈ s.awaited, reply.replyCode = success ∧ reply.sessionID = id
  | _ => True

instance (s : DaemonNegotiation) (reply : DaemonReply) (makesLink : Bool) :
    ∀ w, Decidable (CarriedAnswer s reply makesLink w)
  | .hello _ => inferInstanceAs (Decidable ((_ → ∀ held ∈ s.repliesHeldForHello.getD [], _) ∧ _))
  | .helloTimeout _ => inferInstanceAs (Decidable (_ → _ → _ → _))
  | .attach link id busyRetries _ =>
    inferInstanceAs (Decidable (_ → s.CarriedBy ⟨link, id, busyRetries, reply⟩ makesLink))
  | .openSession _ => inferInstanceAs (Decidable (∀ id ∈ s.awaited, _))
  | .busyRetry _ _ | .killHello _ _ | .killClose _ => instDecidableTrue

/-- An event leaves no close behind. -/
def Carried (s : DaemonNegotiation) : Event → Prop
  | .closeSession makesLink =>
    (∀ attached ∈ s.attachedLink, ∀ id ∈ s.resumeSessionID, attached.2 = id) ∧
    (s.connection = none → s.resumeSessionID ≠ none → makesLink)
  | .answer waiting reply makesLink => waiting ∈ s.waiting → s.CarriedAnswer reply makesLink waiting
  | .lost => s.awaited = none
  | _ => True

instance (s : DaemonNegotiation) : ∀ event, Decidable (s.Carried event)
  | .closeSession _ => inferInstanceAs (Decidable ((∀ attached ∈ s.attachedLink, _) ∧ _))
  | .answer waiting reply makesLink =>
    inferInstanceAs (Decidable (_ → s.CarriedAnswer reply makesLink waiting))
  | .lost => inferInstanceAs (Decidable (s.awaited = none))
  | .connect _ _ | .disconnect | .sessionTaken _ _ | .sessionExit _ | .release => instDecidableTrue

/-! ## The invariant -/

/-- What is owed is carried, and an end is deferred on a connection that is still negotiating, by a
transport that holds itself. -/
structure Kept (s : DaemonNegotiation) : Prop where
  carried : ∀ id, s.owes id = true → s.Carries id
  negotiating : s.deferredEnd ≠ none →
    s.connection ≠ none ∧ s.sessionID = none ∧ s.isRetainedForDeferredEnd = true

/-- **Idle, nothing is owed.** -/
theorem Kept.owes_of_isIdle (h : s.Kept) (hidle : s.IsIdle) (id : ℕ) : s.owes id = false := by
  by_contra howed
  rcases h.carried id (by simpa using howed) with ⟨hclose, -⟩ | ⟨link, hkill⟩
  · exact (h.negotiating (by simp [hclose])).1 hidle.1
  · exact absurd (hidle.2 _ hkill) (by simp [Waiting.isKillHello])

theorem mem_awaited :
    id ∈ s.awaited ↔ s.deferredEnd = some .close ∧ s.resumeSessionID = some id ∧
    s.owes id = true := by
  unfold awaited
  split_ifs with hclose
  · simp [hclose, Option.filter_eq_some_iff]
  · simp [hclose]

theorem awaited_eq_none_of_resume (h : s.resumeSessionID = none) : s.awaited = none := by
  refine Option.eq_none_iff_forall_not_mem.2 fun id hid => ?_
  rw [mem_awaited, h] at hid
  exact absurd hid.2.1 (by simp)

theorem awaited_eq_none_of_ne_close (h : s.deferredEnd ≠ some .close) : s.awaited = none :=
  if_neg h

@[simp] theorem owes_note (s : DaemonNegotiation) (n : Note) (id : ℕ) :
    (s.note n).owes id = owedAfter id (s.owes id) n := by
  simp [owes, note, List.foldl_append]

/-- A note that asks for nothing: what is owed behind it was owed ahead of it. -/
def Note.Quiet (n : Note) : Prop := ∀ id owed, owedAfter id owed n = true → owed = true

theorem quiet_sent (link : ℕ) (request : DaemonRequest) : (Note.sent link request).Quiet := by
  intro id owed
  cases request <;> simp [owedAfter]

theorem quiet_answered (answered : ℕ) (code : IGhostVTReplyCode) :
    (Note.answered answered code).Quiet := by
  intro id owed
  simp [owedAfter]

theorem quiet_cancelled (link : ℕ) : (Note.cancelled link).Quiet := fun _ _ h => h

theorem quiet_state (state : TerminalTransportState) : (Note.state state).Quiet := fun _ _ h => h

theorem quiet_sessionExit (id : ℕ) : (Note.sessionExit id).Quiet := fun _ _ h => h

/-- **The carrying rule.**  A step that owes no more than before, carries what is still owed, and
defers nothing of its own keeps the invariant. -/
theorem Kept.of_carries {t : DaemonNegotiation} (h : s.Kept)
    (howes : ∀ id, t.owes id = true → s.owes id = true)
    (hcarries : ∀ id, t.owes id = true → s.Carries id → t.Carries id)
    (hnegotiating : t.deferredEnd ≠ none →
      t.connection ≠ none ∧ t.sessionID = none ∧ t.isRetainedForDeferredEnd = true) : t.Kept :=
  ⟨fun id hid => hcarries id hid (h.carried id (howes id hid)), hnegotiating⟩

theorem Kept.note {n : Note} (h : s.Kept) (hn : n.Quiet) : (s.note n).Kept :=
  h.of_carries (fun id hid => hn id _ (by simpa using hid)) (fun _ _ hc => hc) h.negotiating

theorem Kept.send (h : s.Kept) (link : ℕ) (request : DaemonRequest) : (s.send link request).Kept :=
  h.note (quiet_sent link request)

theorem Kept.emit (h : s.Kept) (state : TerminalTransportState) : (s.emit state).Kept :=
  h.note (quiet_state state)

theorem Kept.await (h : s.Kept) (w : Waiting) : (s.await w).Kept := by
  refine h.of_carries (fun _ hid => hid) (fun id _ hc => ?_) h.negotiating
  refine hc.imp_right fun ⟨link, hkill⟩ => ⟨link, ?_⟩
  exact List.mem_append_left _ hkill

/-- Forgetting the session to resume leaves no close behind when none waits for it. -/
theorem Kept.forget (h : s.Kept) (hfree : s.awaited = none) :
    ({ s with resumeSessionID := none } : DaemonNegotiation).Kept := by
  refine h.of_carries (fun _ hid => hid) (fun id hid hc => ?_) h.negotiating
  rcases hc with ⟨hclose, hresume⟩ | hkill
  · have hmem : id ∈ s.awaited := mem_awaited.2 ⟨hclose, hresume, hid⟩
    rw [hfree] at hmem
    exact absurd hmem (by simp)
  · exact .inr hkill

/-! ## Ends -/

section Drop

variable (s : DaemonNegotiation) (state : TerminalTransportState)

@[simp] theorem dropEmitting_connection : (s.dropEmitting state).connection = none := by
  cases hlink : s.connection <;> simp [dropEmitting, dropConnection, hlink, emit, note]

@[simp] theorem dropEmitting_deferredEnd : (s.dropEmitting state).deferredEnd = none := by
  cases hlink : s.connection <;> simp [dropEmitting, dropConnection, hlink, emit, note]

@[simp] theorem dropEmitting_waiting : (s.dropEmitting state).waiting = s.waiting := by
  cases hlink : s.connection <;> simp [dropEmitting, dropConnection, hlink, emit, note]

@[simp] theorem dropEmitting_isRemote : (s.dropEmitting state).isRemote = s.isRemote := by
  cases hlink : s.connection <;> simp [dropEmitting, dropConnection, hlink, emit, note]

@[simp] theorem dropEmitting_owes (id : ℕ) : (s.dropEmitting state).owes id = s.owes id := by
  cases hlink : s.connection <;>
    simp [dropEmitting, dropConnection, hlink, emit, note, owes, List.foldl_append, owedAfter]

end Drop

/-- Dropping the connection leaves no close behind when none waits for a reply on it. -/
theorem Kept.dropEmitting (h : s.Kept) (hfree : s.awaited = none) (state : TerminalTransportState) :
    (s.dropEmitting state).Kept := by
  refine h.of_carries (fun id hid => by simpa using hid) (fun id hid hc => ?_) (by simp)
  rw [dropEmitting_owes] at hid
  rcases hc with ⟨hclose, hresume⟩ | ⟨link, hkill⟩
  · have hmem : id ∈ s.awaited := mem_awaited.2 ⟨hclose, hresume, hid⟩
    rw [hfree] at hmem
    exact absurd hmem (by simp)
  · exact .inr ⟨link, by simpa using hkill⟩

theorem Kept.teardown (h : s.Kept) (hfree : s.awaited = none) : s.teardown.Kept :=
  h.dropEmitting hfree .disconnected

/-- A close that is sent is owed no more, so that nothing waits for it. -/
theorem awaited_send_close (link : ℕ) (hid : ∀ id' ∈ s.awaited, id' = id) :
    (s.send link (.closeSession id)).awaited = none := by
  refine Option.eq_none_iff_forall_not_mem.2 fun id' hmem => ?_
  rw [mem_awaited] at hmem
  obtain ⟨hclose, hresume, howed⟩ := hmem
  have hbefore : s.owes id' = true := quiet_sent link _ id' _ (by simpa [send] using howed)
  have heq : id' = id := hid id' (mem_awaited.2 ⟨hclose, hresume, hbefore⟩)
  simp [send, owedAfter, heq] at howed

/-- **Settling a deferred end** carries a close out when it is settled on the session it was for; a
reply that is to be used finds no end deferred. -/
theorem Kept.settle {t : DaemonNegotiation} {named : Option ℕ} (h : s.Kept)
    (hnamed : ∀ id ∈ s.awaited, named = some id) (ht : s.deferredEnd = none → t.Kept) :
    ((s.settleDeferredEnd named).getD t).Kept := by
  rcases hend : s.deferredEnd with _ | ending
  · simpa [settleDeferredEnd, hend] using ht hend
  · obtain ⟨link, hlink⟩ := Option.ne_none_iff_exists'.1 (h.negotiating (by simp [hend])).1
    cases ending with
    | detach =>
      have hdetach : s.deferredEnd ≠ some .close := by simp [hend]
      cases named with
      | none => simpa [settleDeferredEnd, hend] using
          h.teardown (awaited_eq_none_of_ne_close hdetach)
      | some id =>
        simpa [settleDeferredEnd, hend, hlink] using
          (h.send link (.detachSession id)).teardown (awaited_eq_none_of_ne_close hdetach)
    | close =>
      cases named with
      | none =>
        have hfree : s.awaited = none :=
          Option.eq_none_iff_forall_not_mem.2 fun id hid => absurd (hnamed id hid) (by simp)
        simpa [settleDeferredEnd, hend] using
          (h.forget hfree).teardown (awaited_eq_none_of_resume rfl)
      | some id =>
        have hfree : (s.send link (.closeSession id)).awaited = none :=
          awaited_send_close link fun id' hid' => by simpa using (hnamed id' hid').symm
        simpa [settleDeferredEnd, hend, hlink] using
          ((h.send link (.closeSession id)).forget hfree).teardown (awaited_eq_none_of_resume rfl)

/-- Settled on nothing: no close may be waiting. -/
theorem Kept.settle_none {t : DaemonNegotiation} (h : s.Kept) (hfree : s.awaited = none)
    (ht : s.deferredEnd = none → t.Kept) : ((s.settleDeferredEnd none).getD t).Kept :=
  h.settle (by simp [hfree]) ht

/-- Settled on nothing, or else the session is held elsewhere. -/
theorem Kept.settle_drop (h : s.Kept) (hfree : s.awaited = none) (state : TerminalTransportState) :
    ((s.settleDeferredEnd none).getD (s.dropEmitting state)).Kept :=
  h.settle_none hfree fun _ => h.dropEmitting hfree state

/-- The session to resume is dead. -/
theorem Kept.exited (h : s.Kept) (hfree : s.awaited = none) (id : ℕ) :
    ((({ s with resumeSessionID := none } : DaemonNegotiation).note
      (.sessionExit id)).teardown).Kept :=
  ((h.forget hfree).note (quiet_sessionExit id)).teardown (awaited_eq_none_of_resume rfl)

/-- A reply that is used attaches the transport; nothing is deferred then. -/
theorem Kept.connected (h : s.Kept) (hend : s.deferredEnd = none) (attached : ℕ)
    (resume : Option ℕ) :
    (({ s with sessionID := some attached, resumeSessionID := resume } : DaemonNegotiation).emit
      .connected).Kept := by
  apply Kept.emit
  refine h.of_carries (fun _ hid => hid) (fun _ _ hc => ?_) fun hne => absurd hend hne
  rcases hc with ⟨hclose, -⟩ | hkill
  · exact absurd hclose (by simp [hend])
  · exact .inr hkill

/-- **A kill carries the close** of the session it is for. -/
theorem kept_killSession (hcarried : ∀ id', s.owes id' = true → id' = id ∨ s.Carries id')
    (hresume : s.resumeSessionID = some id)
    (hnegotiating : s.deferredEnd ≠ none →
      s.connection ≠ none ∧ s.sessionID = none ∧ s.isRetainedForDeferredEnd = true) :
    (({ s with resumeSessionID := none } : DaemonNegotiation).killSession id true).Kept := by
  refine ⟨fun id' hid' => .inr ?_, hnegotiating⟩
  have howed : s.owes id' = true := by
    simpa [killSession, send, DaemonNegotiation.await, DaemonNegotiation.note, owes,
      List.foldl_append, owedAfter] using hid'
  have hthis : ∃ link, Waiting.killHello link id ∈
      (({ s with resumeSessionID := none } : DaemonNegotiation).killSession id true).waiting :=
    ⟨s.nextLink, by simp [killSession, DaemonNegotiation.await]⟩
  rcases hcarried id' howed with rfl | ⟨-, hsame⟩ | ⟨link, hkill⟩
  · exact hthis
  · obtain rfl : id = id' := by simpa [hresume] using hsame
    exact hthis
  · exact ⟨link, by
      simp [killSession, DaemonNegotiation.await, send, DaemonNegotiation.note, hkill]⟩

/-- **A close deferred on a link that never came up** is carried by a kill, where one can be
made. -/
theorem Kept.closeDeferredWithoutLink {makesLink : Bool} (h : s.Kept)
    (hlink : s.awaited ≠ none → makesLink = true) :
    (s.closeDeferredWithoutLink makesLink).Kept ∧
      (s.closeDeferredWithoutLink makesLink).awaited = none := by
  unfold DaemonNegotiation.closeDeferredWithoutLink
  split
  · rename_i id hclose hresume
    refine ⟨?_, awaited_eq_none_of_resume (by cases makesLink <;> rfl)⟩
    cases makesLink with
    | true =>
      exact kept_killSession (fun id' hid' => .inr (h.carried id' hid')) hresume h.negotiating
    | false =>
      have hnone : s.awaited = none := by
        by_contra hsome
        exact absurd (hlink hsome) (by simp)
      exact h.forget hnone
  · rename_i hother
    refine ⟨h, Option.eq_none_iff_forall_not_mem.2 fun id hid => ?_⟩
    obtain ⟨hclose, hresume, -⟩ := mem_awaited.1 hid
    exact hother id hclose hresume

/-- No end is deferred on a connection that is not negotiating. -/
theorem Kept.deferredEnd_eq_none (h : s.Kept)
    (hneg : ¬ (s.connection.isSome ∧ s.sessionID = none)) :
    s.deferredEnd = none := by
  by_contra hend
  obtain ⟨hlink, hid, -⟩ := h.negotiating hend
  exact hneg ⟨Option.isSome_iff_ne_none.2 hlink, hid⟩

theorem Kept.disconnect (h : s.Kept) : s.disconnect.Kept := by
  unfold DaemonNegotiation.disconnect
  by_cases hneg : s.connection.isSome ∧ s.sessionID = none
  · simp only [deferEnd, if_pos hneg]
    refine h.of_carries (fun _ hid => hid) (fun id _ hc => ?_) fun _ => ?_
    · refine hc.imp_left fun ⟨hclose, hresume⟩ => ⟨by simp [hclose], hresume⟩
    · exact ⟨Option.isSome_iff_ne_none.1 hneg.1, hneg.2, rfl⟩
  · have hend : s.deferredEnd ≠ some .close := by simp [h.deferredEnd_eq_none hneg]
    simp only [deferEnd, if_neg hneg]
    split
    · exact (h.send _ _).teardown (awaited_eq_none_of_ne_close hend)
    · exact h.teardown (awaited_eq_none_of_ne_close hend)

theorem attachedLink_eq_none_iff :
    s.attachedLink = none ↔ s.connection = none ∨ s.sessionID = none := by
  cases hlink : s.connection <;> cases hid : s.sessionID <;> simp [attachedLink, hlink, hid]

/-- A close asked for while the negotiation is out waits for its reply. -/
theorem Kept.closeSession_deferred {makesLink : Bool} (h : s.Kept)
    (hneg : s.connection.isSome ∧ s.sessionID = none) : (s.closeSession makesLink).Kept := by
  have hlink := Option.isSome_iff_ne_none.1 hneg.1
  cases hresume : s.resumeSessionID with
  | none =>
    simp only [DaemonNegotiation.closeSession, hresume, deferEnd, if_pos hneg, ite_self]
    refine h.of_carries (fun _ hid => hid) (fun id _ hc => ?_) fun _ => ⟨hlink, hneg.2, rfl⟩
    exact hc.imp_left fun ⟨_, hsame⟩ => ⟨rfl, by rw [← hsame, hresume]⟩
  | some id =>
    simp only [DaemonNegotiation.closeSession, hresume, deferEnd, DaemonNegotiation.note,
      if_pos hneg, ite_self]
    refine ⟨fun id' hid' => ?_, fun _ => ⟨hlink, hneg.2, rfl⟩⟩
    have howed : id = id' ∨ s.owes id' = true := by
      simpa [owes, List.foldl_append, owedAfter] using hid'
    rcases howed with rfl | howed
    · exact .inl ⟨rfl, rfl⟩
    · refine (h.carried id' howed).imp_left fun ⟨_, hsame⟩ => ⟨rfl, ?_⟩
      rw [← hsame, hresume]

/-- Owed behind a call: the session asked for, or what was owed and is carried. -/
theorem Kept.owes_asked (h : s.Kept) {id' : ℕ} (hid' : (s.note (.asked id)).owes id' = true) :
    id' = id ∨ s.Carries id' := by
  have hor : id = id' ∨ s.owes id' = true := by simpa [owedAfter] using hid'
  exact hor.imp Eq.symm (h.carried id')

/-- A close asked for on an attached link leaves on it. -/
theorem Kept.closeAttached (h : s.Kept) (hend : s.deferredEnd = none) (link id : ℕ) :
    (({ s.note (.asked id) with resumeSessionID := none } : DaemonNegotiation).send link
      (.closeSession id)).Kept := by
  refine ⟨fun id' hid' => .inr ?_, fun hne => absurd hend hne⟩
  have howed : id ≠ id' ∧ (s.note (.asked id)).owes id' = true := by
    simpa [DaemonNegotiation.send, DaemonNegotiation.note, owes, List.foldl_append, owedAfter]
      using hid'
  rcases h.owes_asked howed.2 with heq | ⟨hclose, -⟩ | hkill
  · exact absurd heq.symm howed.1
  · exact absurd hclose (by simp [hend])
  · exact hkill

/-- **A close that is asked for is carried**: by the deferred end, by the attached link, or by a
kill. -/
theorem Kept.closeSession {makesLink : Bool} (h : s.Kept)
    (hcarried : s.Carried (.closeSession makesLink)) : (s.closeSession makesLink).Kept := by
  obtain ⟨hattached, hkill⟩ := hcarried
  by_cases hneg : s.connection.isSome ∧ s.sessionID = none
  · exact h.closeSession_deferred hneg
  · have hend := h.deferredEnd_eq_none hneg
    cases hresume : s.resumeSessionID with
    | none =>
      have hdefer : s.deferEnd .close = none := if_neg hneg
      simp only [DaemonNegotiation.closeSession, hresume, hdefer]
      have hforget := h.forget (awaited_eq_none_of_resume hresume)
      cases s.attachedLink with
      | none => exact hforget
      | some attached => exact hforget.send attached.1 _
    | some id =>
      have hdefer : (s.note (.asked id)).deferEnd .close = none := if_neg hneg
      have hresume' : (s.note (.asked id)).resumeSessionID = some id := hresume
      have hsame : (s.note (.asked id)).attachedLink = s.attachedLink := rfl
      cases hlink : s.attachedLink with
      | none =>
        have hnone : s.connection = none := by
          rcases attachedLink_eq_none_iff.1 hlink with hnone | hid
          · exact hnone
          · by_contra hsome
            exact hneg ⟨Option.isSome_iff_ne_none.2 hsome, hid⟩
        obtain rfl : makesLink = true := hkill hnone (by simp [hresume])
        simp only [DaemonNegotiation.closeSession, hresume, hdefer, hsame, hlink, hresume']
        exact kept_killSession (fun id' => h.owes_asked) hresume' fun hne => absurd hend hne
      | some attached =>
        obtain rfl : attached.2 = id := hattached attached hlink id hresume
        simp only [DaemonNegotiation.closeSession, hresume, hdefer, hsame, hlink]
        exact h.closeAttached hend attached.1 attached.2

/-! ## The negotiation -/

theorem Kept.openSession (h : s.Kept) : s.openSession.Kept := by
  unfold DaemonNegotiation.openSession
  cases s.connection with
  | none => exact h
  | some link => exact (h.send link _).await _

theorem Kept.openOrAttachSession (h : s.Kept) (busyRetries : ℕ) :
    (s.openOrAttachSession busyRetries).Kept := by
  unfold DaemonNegotiation.openOrAttachSession
  split
  · exact h
  · exact (h.send _ _).await _
  · exact h.openSession

/-- What waits behind an attach's answer waited ahead of it, and the answer did not say where it
stands. -/
theorem mem_awaited_answered {answered : ℕ} {code : IGhostVTReplyCode}
    (hid : id ∈ (s.note (.answered answered code)).awaited) :
    id ∈ s.awaited ∧ (answered = id → code ≠ unknownSession ∧ code ≠ sessionBusy) := by
  obtain ⟨hclose, hresume, howed⟩ := mem_awaited.1 hid
  rw [owes_note] at howed
  refine ⟨mem_awaited.2 ⟨hclose, hresume, quiet_answered _ _ _ _ howed⟩, fun heq => ?_⟩
  simp [owedAfter, heq] at howed
  exact howed.1

variable {held : HeldReply} {makesLink : Bool}

/-- The answer noted, a close still waits only for a success, a retry, or a remote link gone
down. -/
theorem CarriedBy.answered (hc : s.CarriedBy held makesLink)
    (hid : id ∈ (s.note (.answered held.sessionID held.reply.replyCode)).awaited) :
    (held.sessionID = id ∧ held.reply.replyCode = success) ∨
    (held.reply.replyCode = sessionBusy ∧ held.reply.holderName = none ∧ ¬ s.isRemote ∧
      held.busyRetries < busyAttachRetryLimit) ∨
    (s.isRemote ∧ held.reply.code = none ∧ held.reply.replyCode = operationFailed ∧ makesLink) := by
  obtain ⟨hbefore, hstands⟩ := mem_awaited_answered hid
  rcases hc id hbefore with ⟨hsame, hcode⟩ | hrest
  · obtain ⟨hunknown, hbusy⟩ := hstands hsame
    rcases hcode with hcode | hcode | hcode
    · exact .inl ⟨hsame, hcode⟩
    · exact absurd hcode hunknown
    · exact absurd hcode hbusy
  · exact .inr hrest

/-- **An attach's answer** carries the close that waits for it. -/
theorem Kept.attachReplied (h : s.Kept) (hc : s.CarriedBy held makesLink) :
    (s.attachReplied held.link held.sessionID held.busyRetries held.reply makesLink).Kept := by
  have hnoted := h.note (quiet_answered held.sessionID held.reply.replyCode)
  have hwaits := fun id => @CarriedBy.answered s id held makesLink hc
  have hnone := Option.eq_none_iff_forall_not_mem
    (o := (s.note (.answered held.sessionID held.reply.replyCode)).awaited)
  have hremote : (s.note (.answered held.sessionID held.reply.replyCode)).isRemote = s.isRemote :=
    rfl
  unfold DaemonNegotiation.attachReplied
  dsimp only
  generalize s.note (.answered held.sessionID held.reply.replyCode) = t at *
  -- neither attached nor busy: what still waits is a remote link gone down
  have hdown : held.reply.replyCode ≠ success → held.reply.replyCode ≠ sessionBusy →
      ∀ id ∈ t.awaited, s.isRemote ∧ held.reply.code = none ∧ makesLink := by
    intro hsuccess hbusy id hid
    rcases hwaits id hid with ⟨-, hcode⟩ | ⟨hcode, -⟩ | ⟨hrem, hcode, -, hlink⟩
    · exact absurd hcode hsuccess
    · exact absurd hcode hbusy
    · exact ⟨hrem, hcode, hlink⟩
  split_ifs with hholder hbusyRemote hretry hsuccess hbusy hisRemote hcode
  · -- a device has it
    refine hnoted.settle_drop (hnone.2 fun id hid => ?_) _
    rcases hwaits id hid with ⟨-, hcode⟩ | ⟨-, hfree, -⟩ | ⟨-, -, hcode, -⟩
    · exact absurd (hholder.1.symm.trans hcode) (by simp)
    · exact absurd hholder.2 (by simp [hfree])
    · exact absurd (hholder.1.symm.trans hcode) (by simp)
  · -- another device's terminal is busy
    refine hnoted.settle_drop (hnone.2 fun id hid => ?_) _
    rcases hwaits id hid with ⟨-, hcode⟩ | ⟨-, -, hlocal, -⟩ | ⟨-, -, hcode, -⟩
    · exact absurd (hbusyRemote.1.symm.trans hcode) (by simp)
    · exact absurd (hremote.symm.trans hbusyRemote.2) hlocal
    · exact absurd (hbusyRemote.1.symm.trans hcode) (by simp)
  · exact hnoted.await _
  · refine hnoted.settle (fun id hid => ?_) fun hend =>
      hnoted.connected hend held.sessionID t.resumeSessionID
    rcases hwaits id hid with ⟨rfl, -⟩ | ⟨hcode, -⟩ | ⟨-, -, hcode, -⟩
    · rfl
    · exact absurd (hsuccess.symm.trans hcode) (by simp)
    · exact absurd (hsuccess.symm.trans hcode) (by simp)
  · -- busy after the retries
    refine hnoted.settle_drop (hnone.2 fun id hid => ?_) _
    rcases hwaits id hid with ⟨-, hcode⟩ | ⟨-, -, -, hfew⟩ | ⟨-, -, hcode, -⟩
    · exact absurd hcode hsuccess
    · exact hretry ⟨hbusy, hfew⟩
    · exact absurd (hbusy.symm.trans hcode) (by simp)
  · obtain ⟨hclosed, hfree⟩ := hnoted.closeDeferredWithoutLink fun hsome => by
      obtain ⟨id, hid⟩ := Option.ne_none_iff_exists'.1 hsome
      exact (hdown hsuccess hbusy id hid).2.2
    exact hclosed.settle_none hfree fun _ => hclosed.exited hfree held.sessionID
  · obtain ⟨hclosed, hfree⟩ := hnoted.closeDeferredWithoutLink fun hsome => by
      obtain ⟨id, hid⟩ := Option.ne_none_iff_exists'.1 hsome
      exact (hdown hsuccess hbusy id hid).2.2
    exact hclosed.settle_drop hfree .disconnected
  · have hfree := hnone.2 fun id hid => hcode (hdown hsuccess hbusy id hid).2.1
    exact hnoted.settle_none hfree fun _ => hnoted.exited hfree held.sessionID
  · have hfree := hnone.2 fun id hid => hcode (hdown hsuccess hbusy id hid).2.1
    exact hnoted.settle_drop hfree .disconnected
  · -- a failed local attach forgets the session
    have hfree := hnone.2 fun id hid => hisRemote (hremote.trans (hdown hsuccess hbusy id hid).1)
    have hforgot := hnoted.forget hfree
    exact hforgot.settle_none (awaited_eq_none_of_resume rfl) fun _ => hforgot.openSession

/-! ## Answers that waited for the hello's

They are handed on one behind the other, so that one must not make the next one lose a close. -/

/-- Nothing new waits, and no connection but the one there was. -/
structure Shrinks (s t : DaemonNegotiation) : Prop where
  awaited : ∀ id ∈ t.awaited, id ∈ s.awaited
  connection : ∀ link, t.connection = some link → s.connection = some link
  isRemote : t.isRemote = s.isRemote

namespace Shrinks

variable {t u : DaemonNegotiation}

theorem trans (h : Shrinks s t) (h' : Shrinks t u) : Shrinks s u :=
  ⟨fun id hid => h.awaited id (h'.awaited id hid),
    fun link hlink => h.connection link (h'.connection link hlink), h'.isRemote.trans h.isRemote⟩

theorem of_deferredEnd (hend : t.deferredEnd = none)
    (hconnection : ∀ link, t.connection = some link → s.connection = some link)
    (hremote : t.isRemote = s.isRemote) : Shrinks s t := by
  refine ⟨fun id hid => ?_, hconnection, hremote⟩
  rw [awaited_eq_none_of_ne_close (by simp [hend])] at hid
  exact absurd hid (by simp)

theorem note {n : Note} (hn : n.Quiet) : Shrinks s (s.note n) := by
  refine ⟨fun id hid => ?_, fun _ hlink => hlink, rfl⟩
  obtain ⟨hclose, hresume, howed⟩ := mem_awaited.1 hid
  exact mem_awaited.2 ⟨hclose, hresume, hn id _ (by simpa using howed)⟩

theorem dropEmitting (state : TerminalTransportState) : Shrinks s (s.dropEmitting state) :=
  of_deferredEnd (by simp) (by simp) (by simp)

theorem forget : Shrinks s { s with resumeSessionID := none } := by
  refine ⟨fun id hid => ?_, fun _ hlink => hlink, rfl⟩
  rw [awaited_eq_none_of_resume rfl] at hid
  exact absurd hid (by simp)

theorem closeDeferredWithoutLink (makesLink : Bool) :
    Shrinks s (s.closeDeferredWithoutLink makesLink) := by
  unfold DaemonNegotiation.closeDeferredWithoutLink
  split
  · cases makesLink with
    | false => exact forget
    | true => exact forget.trans ⟨fun id hid => by
        rw [awaited_eq_none_of_resume rfl] at hid
        exact absurd hid (by simp), fun _ hlink => hlink, rfl⟩
  · exact ⟨fun _ hid => hid, fun _ hlink => hlink, rfl⟩

theorem settle {named : Option ℕ} (ht : s.deferredEnd = none → Shrinks s t) :
    Shrinks s ((s.settleDeferredEnd named).getD t) := by
  cases hend : s.deferredEnd with
  | none => simpa [settleDeferredEnd, hend] using ht hend
  | some ending =>
    refine of_deferredEnd ?_ ?_ ?_ <;>
      cases ending <;> cases named <;> cases hlink : s.connection <;>
        simp [settleDeferredEnd, hend, hlink, teardown, send, DaemonNegotiation.note]

theorem openSession : Shrinks s s.openSession := by
  unfold DaemonNegotiation.openSession
  split
  · exact ⟨fun _ hid => hid, fun _ hlink => hlink, rfl⟩
  · exact (note (quiet_sent _ _)).trans ⟨fun _ hid => hid, fun _ hlink => hlink, rfl⟩

theorem exited : Shrinks s
    (({ s with resumeSessionID := none } : DaemonNegotiation).note (.sessionExit id)).teardown :=
  (forget.trans (note (quiet_sessionExit id))).trans (dropEmitting .disconnected)

theorem attachReplied (link id busyRetries : ℕ) (reply : DaemonReply) (makesLink : Bool) :
    Shrinks s (s.attachReplied link id busyRetries reply makesLink) := by
  refine (note (quiet_answered id reply.replyCode)).trans ?_
  unfold DaemonNegotiation.attachReplied
  dsimp only
  generalize s.note (.answered id reply.replyCode) = t
  split_ifs
  · exact settle fun _ => dropEmitting _
  · exact settle fun _ => dropEmitting _
  · exact ⟨fun _ hid => hid, fun _ hlink => hlink, rfl⟩
  · refine settle fun hend => ?_
    exact of_deferredEnd hend (fun _ hlink => hlink) rfl
  · exact settle fun _ => dropEmitting _
  · exact (closeDeferredWithoutLink makesLink).trans (settle fun _ => exited)
  · exact (closeDeferredWithoutLink makesLink).trans (settle fun _ => dropEmitting _)
  · exact settle fun _ => exited
  · exact settle fun _ => dropEmitting _
  · exact forget.trans (settle fun _ => openSession)

end Shrinks

theorem CarriedBy.mono {t : DaemonNegotiation} (hc : s.CarriedBy held makesLink)
    (hshrinks : Shrinks s t) : t.CarriedBy held makesLink := by
  intro id hid
  rw [hshrinks.isRemote]
  exact hc id (hshrinks.awaited id hid)

theorem Kept.deliver (h : s.Kept)
    (hc : s.connection = some held.link → s.CarriedBy held makesLink) :
    (s.deliver makesLink held).Kept := by
  unfold DaemonNegotiation.deliver
  split_ifs with hlink
  · exact h.attachReplied (hc hlink)
  · exact h

/-- **Every answer that waited is handed on** with no close left behind. -/
theorem Kept.foldl_deliver (replies : List HeldReply) : ∀ {s : DaemonNegotiation}, s.Kept →
    (∀ held ∈ replies, s.connection = some held.link → s.CarriedBy held makesLink) →
    (replies.foldl (DaemonNegotiation.deliver makesLink) s).Kept := by
  induction replies with
  | nil => exact fun h _ => h
  | cons held replies ih =>
    intro s h hc
    refine ih (h.deliver (hc held List.mem_cons_self)) fun held' hmem hlink => ?_
    have hshrinks : Shrinks s (s.deliver makesLink held) := by
      unfold DaemonNegotiation.deliver
      split_ifs
      · exact Shrinks.attachReplied _ _ _ _ _
      · exact ⟨fun _ hid => hid, fun _ hlink => hlink, rfl⟩
    exact (hc held' (List.mem_cons_of_mem _ hmem) (hshrinks.connection _ hlink)).mono hshrinks

/-! ## Steps -/

theorem Kept.attachAnswered {isBehindHello : Bool} (h : s.Kept)
    (hc : (isBehindHello → s.repliesHeldForHello = none ∧ s.connection = some held.link) →
      s.CarriedBy held makesLink) :
    (s.attachAnswered held isBehindHello makesLink).Kept := by
  unfold DaemonNegotiation.attachAnswered
  cases isBehindHello with
  | false => exact h.attachReplied (hc (by simp))
  | true =>
    rw [if_pos rfl]
    split
    · exact ⟨h.carried, h.negotiating⟩
    · rename_i hnone
      exact h.deliver fun hlink => hc fun _ => ⟨hnone, hlink⟩

theorem Kept.helloReplied {reply : DaemonReply} (h : s.Kept)
    (hheld : reply.replyCode = success → ∀ held ∈ s.repliesHeldForHello.getD [],
      s.connection = some held.link → s.CarriedBy held makesLink)
    (hfailed : reply.replyCode ≠ success → s.awaited ≠ none → makesLink = true) :
    (s.helloReplied reply makesLink).Kept := by
  have hanswered : ({ s with isAwaitingHello := false, repliesHeldForHello := none } :
      DaemonNegotiation).Kept := ⟨h.carried, h.negotiating⟩
  unfold DaemonNegotiation.helloReplied
  dsimp only
  split_ifs with hcode
  · split
    · rename_i held hsome
      refine Kept.foldl_deliver held hanswered fun held' hmem => hheld hcode held' ?_
      rwa [hsome]
    · exact hanswered.openOrAttachSession 0
  · obtain ⟨hclosed, hfree⟩ := hanswered.closeDeferredWithoutLink (hfailed hcode)
    exact hclosed.teardown hfree

theorem Kept.helloTimedOut {link : ℕ} (h : s.Kept)
    (hlink : s.isAwaitingHello → s.connection = some link → s.awaited ≠ none → makesLink = true) :
    (s.helloTimedOut link makesLink).Kept := by
  unfold DaemonNegotiation.helloTimedOut
  split_ifs with hwaits
  · have hanswered : ({ s with isAwaitingHello := false } : DaemonNegotiation).Kept :=
      ⟨h.carried, h.negotiating⟩
    obtain ⟨hclosed, hfree⟩ := hanswered.closeDeferredWithoutLink (hlink hwaits.1 hwaits.2)
    exact hclosed.teardown hfree
  · exact h

theorem Kept.retryBusy (h : s.Kept) (link busyRetries : ℕ) :
    (s.retryBusy link busyRetries).Kept := by
  unfold DaemonNegotiation.retryBusy
  split_ifs
  · exact h.openOrAttachSession _
  · exact h

theorem Kept.openReplied {reply : DaemonReply} (h : s.Kept)
    (hc : ∀ id ∈ s.awaited, reply.replyCode = success ∧ reply.sessionID = id) :
    (s.openReplied reply).Kept := by
  unfold DaemonNegotiation.openReplied
  split_ifs with hcode
  · exact h.settle (fun id hid => by rw [(hc id hid).2]) fun hend => h.connected hend _ _
  · exact h.teardown (Option.eq_none_iff_forall_not_mem.2 fun id hid => hcode (hc id hid).1)

theorem Kept.establish (h : s.Kept) : (s.establish makesLink).Kept := by
  unfold DaemonNegotiation.establish
  dsimp only
  cases makesLink with
  | false => exact h.emit _
  | true =>
    have hmade : ({ s with
        connection := some s.nextLink
        nextLink := s.nextLink + 1
        isAwaitingHello := true
        repliesHeldForHello := some [] } : DaemonNegotiation).Kept :=
      ⟨h.carried, fun hend => ⟨by simp, (h.negotiating hend).2⟩⟩
    have hsaid := (hmade.send s.nextLink .hello).await (.hello s.nextLink)
    rw [if_pos rfl]
    apply Kept.await
    split_ifs
    · exact hsaid.openOrAttachSession 0
    · exact ⟨hsaid.carried, hsaid.negotiating⟩

theorem Kept.connect {takingOver : Bool} (h : s.Kept) : (s.connect takingOver makesLink).Kept := by
  have hconnecting := h.emit .connecting
  exact Kept.establish ⟨hconnecting.carried, hconnecting.negotiating⟩

theorem Kept.linkLost (h : s.Kept) (hfree : s.awaited = none) : s.linkLost.Kept := by
  unfold DaemonNegotiation.linkLost
  split_ifs
  · exact h.dropEmitting hfree _
  · exact h.dropEmitting hfree _

/-- An attached transport has deferred nothing. -/
theorem Kept.awaited_eq_none (h : s.Kept) (hid : s.sessionID = some id) : s.awaited = none := by
  refine awaited_eq_none_of_ne_close fun hclose => ?_
  have hnone := (h.negotiating (by simp [hclose])).2.1
  exact absurd (hid.symm.trans hnone) (by simp)

theorem Kept.sessionTaken (h : s.Kept) (id : ℕ) (holder : Option String) :
    (s.sessionTaken id holder).Kept := by
  unfold DaemonNegotiation.sessionTaken
  split_ifs with hid
  · exact h.dropEmitting (h.awaited_eq_none hid) _
  · exact h

theorem Kept.sessionExited (h : s.Kept) (id : ℕ) : (s.sessionExited id).Kept := by
  unfold DaemonNegotiation.sessionExited
  split_ifs with hid
  · exact h.exited (h.awaited_eq_none hid) id
  · exact h

/-- A transport that a close waits in holds itself. -/
theorem Kept.release (h : s.Kept) : s.release.Kept := by
  unfold DaemonNegotiation.release
  split_ifs with hretained
  · exact h
  · have hend : s.deferredEnd = none := by
      by_contra hend
      exact hretained (h.negotiating hend).2.2
    have hgone : ({ s with connection := none, isDeallocated := true } : DaemonNegotiation).Kept :=
      ⟨h.carried, fun hne => absurd hend hne⟩
    cases s.connection with
    | none => exact hgone
    | some link => exact hgone.note (quiet_cancelled link)

/-- What waits is taken off; only a kill's hello carries anything. -/
theorem Kept.take {w : Waiting} (h : s.Kept) (hw : ∀ link id, w ≠ .killHello link id) :
    ({ s with waiting := s.waiting.erase w } : DaemonNegotiation).Kept := by
  refine h.of_carries (fun _ hid => hid) (fun id _ hc => ?_) h.negotiating
  refine hc.imp_right fun ⟨link, hkill⟩ => ⟨link, ?_⟩
  exact (List.mem_erase_of_ne (hw link id).symm).2 hkill

/-- **A kill's hello answered, the close leaves.** -/
theorem Kept.killHello (h : s.Kept) (link id : ℕ) :
    ((({ s with waiting := s.waiting.erase (.killHello link id) } : DaemonNegotiation).send link
      (.closeSession id)).await (.killClose link)).Kept := by
  apply Kept.await
  have howed : ∀ id', (({ s with waiting := s.waiting.erase (.killHello link id) } :
      DaemonNegotiation).send link (.closeSession id)).owes id' = true →
      id ≠ id' ∧ s.owes id' = true := by
    intro id' hid'
    simpa [DaemonNegotiation.send, DaemonNegotiation.note, owes, List.foldl_append, owedAfter]
      using hid'
  refine h.of_carries (fun id' hid' => (howed id' hid').2) (fun id' hid' hc => ?_) h.negotiating
  refine hc.imp_right fun ⟨link', hkill⟩ => ⟨link', ?_⟩
  refine (List.mem_erase_of_ne fun heq => ?_).2 hkill
  injection heq with _ hsame
  exact (howed id' hid').1 hsame.symm

theorem Kept.answered {reply : DaemonReply} {w : Waiting} (h : s.Kept)
    (hc : s.CarriedAnswer reply makesLink w) :
    (({ s with waiting := s.waiting.erase w } : DaemonNegotiation).answered reply makesLink
      w).Kept := by
  cases w with
  | hello link => exact (h.take (by simp)).helloReplied hc.1 hc.2
  | helloTimeout link => exact (h.take (by simp)).helloTimedOut hc
  | attach link id busyRetries isBehindHello => exact (h.take (by simp)).attachAnswered hc
  | busyRetry link busyRetries => exact (h.take (by simp)).retryBusy link busyRetries
  | openSession link => exact (h.take (by simp)).openReplied hc
  | killHello link id => exact h.killHello link id
  | killClose link => exact (h.take (by simp)).note (quiet_cancelled link)

theorem Kept.step (h : s.Kept) {event : Event} (hc : s.Carried event) : (s.step event).Kept := by
  unfold DaemonNegotiation.step
  split_ifs with hgone
  · exact h
  · cases event with
    | connect takingOver makesLink => exact h.connect
    | closeSession makesLink => exact h.closeSession hc
    | disconnect => exact h.disconnect
    | answer waiting reply makesLink =>
      dsimp only
      split_ifs with hwaits
      · exact h.answered (hc hwaits)
      · exact h
    | lost => exact h.linkLost hc
    | sessionTaken id holder => exact h.sessionTaken id holder
    | sessionExit id => exact h.sessionExited id
    | release => exact h.release

/-! ## Runs -/

/-- A transport as it is made, with the session it would resume. -/
def initial (isRemote : Bool) (resume : Option ℕ) : DaemonNegotiation :=
  { isRemote, resumeSessionID := resume }

theorem kept_initial (isRemote : Bool) (resume : Option ℕ) : (initial isRemote resume).Kept :=
  ⟨fun id hid => by simp [initial, owes] at hid, fun hend => absurd rfl hend⟩

/-- **A close that is asked for reaches the daemon**, in every run whose events carry what is
deferred: while it is owed the deferred end or a kill carries it, and a transport that is idle owes
nothing. -/
theorem run_closes (isRemote : Bool) (resume : Option ℕ) (events : List Event)
    (hrun : Along step Carried (initial isRemote resume) events) (id : ℕ) :
    ((after step (initial isRemote resume) events).owes id →
      (after step (initial isRemote resume) events).Carries id) ∧
    ((after step (initial isRemote resume) events).IsIdle →
      (after step (initial isRemote resume) events).owes id = false) := by
  have hkept : (after step (initial isRemote resume) events).Kept :=
    hrun.invariant (fun _ _ h hc => h.step hc) events (kept_initial isRemote resume)
  exact ⟨hkept.carried id, fun hidle => hkept.owes_of_isIdle hidle id⟩

/-- A remote tab is closed while its hello and its attach are out, and the link goes down: the close
leaves over a link of its own. -/
theorem closes_linkDown :
    Note.sent 1 (.closeSession 7) ∈ (after step (initial true (some 7))
      [.connect false true, .closeSession true, .disconnect, .release,
        .answer (.attach 0 7 0 true) {} true, .answer (.hello 0) {} true,
        .answer (.killHello 1 7) {} true]).log ∧
    (after step (initial true (some 7))
      [.connect false true, .closeSession true, .disconnect, .release,
        .answer (.attach 0 7 0 true) {} true, .answer (.hello 0) {} true,
        .answer (.killHello 1 7) {} true]).owes 7 = false :=
  ⟨by decide, (run_closes true (some 7) _ (by decide) 7).2 (by decide)⟩

/-- A close of `id` is owed, nothing is left to send it, and nothing holds the id. -/
def Orphaned (s : DaemonNegotiation) (id : ℕ) : Prop :=
  s.IsIdle ∧ s.owes id = true ∧ s.resumeSessionID ≠ some id

instance (s : DaemonNegotiation) (id : ℕ) : Decidable (s.Orphaned id) :=
  inferInstanceAs (Decidable (s.IsIdle ∧ _ ∧ _))

/-- **A close can be lost.**  A local tab is closed while its attach is out, and the link dies.
When the loss is told first, the deferred end goes with the connection; when the attach is answered
first, with the link's error, the session is taken for gone. -/
theorem run_orphans :
    (after step (initial false (some 7))
      [.connect false true, .answer (.hello 0) { version := 2, code := some 0 } true,
        .closeSession true, .disconnect, .lost,
        .answer (.attach 0 7 0 false) { isDictionary := false } true]).Orphaned 7 ∧
    (after step (initial false (some 7))
      [.connect false true, .answer (.hello 0) { version := 2, code := some 0 } true,
        .closeSession true, .disconnect,
        .answer (.attach 0 7 0 false) { isDictionary := false } true, .lost]).Orphaned 7 := by
  decide

end DaemonNegotiation
