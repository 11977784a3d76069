import IGhostVT.Relay.Splices

/-!
# Relay/SpliceClaims — a ticket is claimed once, by its host, and its bytes keep their order

`Carries` is about one splice: what the client sent is what is held or written, then what is in
hand, then what is unread.  `Books` is about the lists: a ticket is on the server's list and on its
host's exactly while it is offered, and every splice that is not finished holds a slot.  `Trusted`
is about accepts: one that is past its check was signed with the key of the host the ticket was
offered to.
-/

open Relay

namespace SpliceServer

variable {ID Pub RelayID Sig : Type} [LinearOrder ID] {hostID : List UInt8 → Option ID}
  {verify : Pub → RelayID → ℕ → Sig → Bool} {s s' : SpliceServer ID Pub RelayID Sig}
    {sp sp' : Splice}
  {ticket host conn : ℕ}

/-- Nothing of the splices, their tickets or the slots. -/
structure SameSplices (s s' : SpliceServer ID Pub RelayID Sig) : Prop where
  hosts : s'.hosts = s.hosts
  conns : s'.conns = s.conns
  tickets : s'.tickets = s.tickets
  splices : s'.splices = s.splices
  all : s'.all = s.all
  claims : s'.claims = s.claims

/-- The signature is one of the host's the ticket was offered to. -/
def Signed (verify : Pub → RelayID → ℕ → Sig → Bool) (s : SpliceServer ID Pub RelayID Sig)
    (ticket : ℕ) (relayID : RelayID) (hostSig : Sig) : Prop :=
  ∃ sp h, s.all.get? ticket = some sp ∧ s.conns.get? sp.host = some h ∧
    verify h.pub relayID ticket hostSig = true

/-- What is promised of the relay's splices. -/
structure Spliced (verify : Pub → RelayID → ℕ → Sig → Bool) (s : SpliceServer ID Pub RelayID Sig) :
    Prop where
  counted : s.splices = s.all.entries.countP fun e => e.2.isUnfinished
  once : (s.claims.map Claim.ticket).Nodup
  signed : ∀ c ∈ s.claims, Signed verify s c.ticket c.relayID c.hostSig
  offered : ∀ t, t ∈ s.tickets ↔ ∃ sp, s.all.get? t = some sp ∧ sp.isOffered = true
  listed : ∀ host h t, s.conns.get? host = some h →
    (t ∈ h.tickets ↔ ∃ sp, s.all.get? t = some sp ∧ sp.isOffered = true ∧ sp.host = host)
  /-- A host that was offered a ticket keeps its record. -/
  recorded : ∀ t sp, s.all.get? t = some sp → ∃ h, s.conns.get? sp.host = some h
  inOrder : ∀ t sp leg, s.all.get? t = some sp → sp.leg = some leg →
    leg.written <+: okFrame ++ sp.sent
  asked : ∀ conn t hostSig, SameSplices s (s.accept conn t hostSig)
  forged : ∀ conn t hostSig, s.accepts.get? conn = some (.looked t hostSig) →
    ¬ Signed verify s t s.relayID hostSig → SameSplices s (s.acceptVerify verify conn) ∧
      (s.acceptVerify verify conn).accepts.get? conn = some .refused
  late : ∀ conn t hostSig relayID, s.accepts.get? conn = some (.verified t hostSig relayID) →
    t ∉ s.tickets → SameSplices s (s.acceptClaim conn) ∧
      (s.acceptClaim conn).accepts.get? conn = some .refused

/-! ## One splice's bytes

What a splice has read of its client is what it sent on, in order, with what is held in between. -/

structure Carries (sp : Splice) : Prop where
  held : sp.leg = none → sp.pending <+: sp.sent
  reading : sp.leg = none → sp.isReading = true → sp.pending ++ sp.inHand ++ sp.unread = sp.sent
  written : ∀ leg, sp.leg = some leg → leg.written <+: okFrame ++ sp.sent
  writing : ∀ leg, sp.leg = some leg → leg.isBroken = false → sp.isReading = true →
    leg.written ++ sp.inHand ++ sp.unread = okFrame ++ sp.sent

/-- A splice whose bytes are the same carries the same. -/
theorem Carries.of_same (h : Carries sp) (hleg : sp'.leg = sp.leg) (hsent : sp'.sent = sp.sent)
    (hpending : sp'.pending = sp.pending)
    (hreading : sp'.isReading = true → sp.isReading = true ∧
    sp'.inHand ++ sp'.unread = sp.inHand ++ sp.unread) :
    Carries sp' where
  held hnone := by
    rw [hpending, hsent]
    exact h.held (hleg ▸ hnone)
  reading hnone hread := by
    obtain ⟨hread, hsame⟩ := hreading hread
    rw [hpending, hsent, List.append_assoc, hsame, ← List.append_assoc]
    exact h.reading (hleg ▸ hnone) hread
  written leg hsome := by
    rw [hsent]
    exact h.written leg (hleg ▸ hsome)
  writing leg hsome hbroken hread := by
    obtain ⟨hread, hsame⟩ := hreading hread
    rw [hsent, List.append_assoc, hsame, ← List.append_assoc]
    exact h.writing leg (hleg ▸ hsome) hbroken hread

/-- Calling `finish` changes nothing else. -/
theorem callFinish_eq (sp : Splice) : ∃ finish, callFinish sp = { sp with finish } := by
  unfold callFinish
  split_ifs
  · exact ⟨_, rfl⟩
  · exact ⟨sp.finish, rfl⟩

/-- A finished splice carries what it did. -/
theorem Carries.callFinish (h : Carries sp) : Carries (callFinish sp) := by
  obtain ⟨finish, heq⟩ := callFinish_eq sp
  rw [heq]
  exact h.of_same rfl rfl rfl fun hread => ⟨hread, rfl⟩

/-- And one that reads no more. -/
theorem Carries.stops (h : Carries sp) : Carries { sp with isReading := false } :=
  h.of_same rfl rfl rfl fun hread => by cases hread

/-- Bytes that come in are not read yet. -/
theorem Carries.arrive (h : Carries sp) (bytes : List UInt8) : Carries (arrive bytes sp) where
  held hnone := (h.held hnone).trans (List.prefix_append _ _)
  reading hnone hread := by
    change sp.pending ++ sp.inHand ++ (sp.unread ++ bytes) = sp.sent ++ bytes
    rw [← List.append_assoc, h.reading hnone hread]
  written leg hsome := by
    change leg.written <+: okFrame ++ (sp.sent ++ bytes)
    rw [← List.append_assoc]
    exact (h.written leg hsome).trans (List.prefix_append _ _)
  writing leg hsome hbroken hread := by
    change leg.written ++ sp.inHand ++ (sp.unread ++ bytes) = okFrame ++ (sp.sent ++ bytes)
    rw [← List.append_assoc, h.writing leg hsome hbroken hread, List.append_assoc]

/-- Bytes that are read are held, or sent on. -/
theorem Carries.read (h : Carries sp) (n : ℕ) : Carries (read n sp) := by
  unfold SpliceServer.read
  split_ifs with hcan
  · refine h.of_same rfl rfl rfl fun _ => ⟨hcan.1, ?_⟩
    change sp.unread.take n ++ sp.unread.drop n = sp.inHand ++ sp.unread
    rw [List.take_append_drop, hcan.2.1, List.nil_append]
  · exact h

/-- Before there is a leg they are held up to a limit. -/
theorem Carries.hold (h : Carries sp) (pendingBytes : ℕ) : Carries (hold pendingBytes sp) := by
  unfold SpliceServer.hold
  split_ifs with hcan hmuch
  · exact h.stops.callFinish
  · have hnone : sp.leg = none := by simpa using hcan.2
    have hreading := h.reading hnone hcan.1
    exact {
      held := fun _ => ⟨sp.unread, hreading⟩
      reading := fun _ _ => by
        change sp.pending ++ sp.inHand ++ [] ++ sp.unread = sp.sent
        rw [List.append_nil]
        exact hreading
      written := fun leg hsome => by cases hnone.symm.trans hsome
      writing := fun leg hsome => by cases hnone.symm.trans hsome }
  · exact h

/-- What is written was held first. -/
theorem Carries.write (h : Carries sp) (n : ℕ) : Carries (write n sp) := by
  unfold SpliceServer.write
  split
  · exact h
  next leg hleg =>
    split_ifs with hread hbroken hshort
    · exact h.stops.callFinish
    · have hwriting := h.writing leg hleg (by simpa using hbroken) hread
      refine Carries.callFinish {
        held := fun hnone => by cases hnone
        reading := fun hnone => by cases hnone
        written := ?_
        writing := fun _ _ _ hread => by cases hread }
      rintro leg' ⟨⟩
      refine ⟨sp.inHand.drop n ++ sp.unread, ?_⟩
      change leg.written ++ sp.inHand.take n ++ (sp.inHand.drop n ++ sp.unread) = okFrame ++ sp.sent
      rw [List.append_assoc, ← List.append_assoc (sp.inHand.take n), List.take_append_drop,
        ← List.append_assoc, hwriting]
    · have hwriting := h.writing leg hleg (by simpa using hbroken) hread
      exact {
        held := fun hnone => by cases hnone
        reading := fun hnone => by cases hnone
        written := by
          rintro leg' ⟨⟩
          exact ⟨sp.unread, hwriting⟩
        writing := by
          rintro leg' ⟨⟩ - -
          change leg.written ++ sp.inHand ++ [] ++ sp.unread = okFrame ++ sp.sent
          rw [List.append_nil]
          exact hwriting }
    · exact h

/-- The timer finishes an unclaimed splice. -/
theorem Carries.fireTimer (h : Carries sp) : Carries (fireTimer sp) := by
  unfold SpliceServer.fireTimer
  split_ifs
  · exact h.callFinish
  · exact h

/-- The end is noted. -/
theorem Carries.finishDone (h : Carries sp) : Carries (finishDone sp) := by
  unfold SpliceServer.finishDone
  split_ifs
  · exact h.of_same rfl rfl rfl fun hread => ⟨hread, rfl⟩
  · exact h

/-- Closing brings no bytes. -/
theorem Carries.closeLegs (h : Carries sp) : Carries (closeLegs sp) := by
  unfold SpliceServer.closeLegs
  split_ifs
  · cases hleg : sp.leg with
    | none => exact h.of_same hleg.symm rfl rfl fun hread => ⟨hread, rfl⟩
    | some leg =>
      exact {
        held := fun hnone => by cases hnone
        reading := fun hnone => by cases hnone
        written := by
          rintro leg' ⟨⟩
          exact h.written leg hleg
        writing := by rintro leg' ⟨⟩ hbroken; cases hbroken }
  · exact h

/-- The answer, and behind it all that was held. -/
theorem Carries.attachLeg (h : Carries sp) (hnone : sp.leg = none) (n : ℕ) :
    Carries (attachLeg n sp) := by
  obtain ⟨rest, hheld⟩ := h.held hnone
  unfold SpliceServer.attachLeg
  dsimp only
  split_ifs
  · refine Carries.callFinish {
      held := fun hnone => by cases hnone
      reading := fun hnone => by cases hnone
      written := ?_
      writing := by rintro leg' ⟨⟩ hbroken; cases hbroken }
    rintro leg' ⟨⟩
    change (okFrame ++ sp.pending).take n <+: okFrame ++ sp.sent
    rw [← hheld, ← List.append_assoc]
    exact (List.take_prefix _ _).trans (List.prefix_append _ _)
  · exact {
      held := fun hnone => by cases hnone
      reading := fun hnone => by cases hnone
      written := by
        rintro leg' ⟨⟩
        refine ⟨rest, ?_⟩
        change okFrame ++ sp.pending ++ rest = okFrame ++ sp.sent
        rw [List.append_assoc, hheld]
      writing := by
        rintro leg' ⟨⟩ - hread
        change okFrame ++ sp.pending ++ sp.inHand ++ sp.unread = okFrame ++ sp.sent
        rw [← h.reading hnone hread]
        simp only [List.append_assoc] }

/-- A record and what is behind it are the bytes that came. -/
theorem readRecord_append {input record rest : List UInt8}
    (h : readRecord input = some (record, rest)) :
    record ++ rest = input := by
  unfold readRecord at h
  split at h
  · dsimp only at h
    split_ifs at h
    cases h
    exact List.take_append_drop _ _
  · cases h

/-- A new splice has its client's hello to send. -/
theorem carries_new {input record rest : List UInt8} (h : readRecord input = some (record, rest))
    (host : ℕ) : Carries { host, sent := input, unread := rest, pending := record } where
  held _ := ⟨rest, readRecord_append h⟩
  reading _ _ := by
    change record ++ [] ++ rest = input
    rw [List.append_nil]
    exact readRecord_append h
  written leg hsome := by cases hsome
  writing leg hsome := by cases hsome

/-! ## The lists

A host lists the tickets offered to it; a splice that is claimed or finished is taken off its host's
list. -/

structure Books (s : SpliceServer ID Pub RelayID Sig) : Prop where
  counted : s.splices = s.all.entries.countP fun e => e.2.isUnfinished
  offered : ∀ t, t ∈ s.tickets ↔ ∃ sp, s.all.get? t = some sp ∧ sp.isOffered = true
  listed : ∀ host h t, s.conns.get? host = some h →
    (t ∈ h.tickets ↔ ∃ sp, s.all.get? t = some sp ∧ sp.isOffered = true ∧ sp.host = host)
  made : ∀ t sp, s.all.get? t = some sp → t < s.ticketsMade
  hosted : ∀ t sp, s.all.get? t = some sp → sp.host < s.hostsMade
  host_made : ∀ host h, s.conns.get? host = some h → host < s.hostsMade
  recorded : ∀ t sp, s.all.get? t = some sp → ∃ h, s.conns.get? sp.host = some h

/-- What the lists know of a splice. -/
structure SameRole (sp sp' : Splice) : Prop where
  host : sp'.host = sp.host
  isUnfinished : sp'.isUnfinished = sp.isUnfinished
  isClaimed : sp'.isClaimed = sp.isClaimed

/-- A splice in the same role is offered, or is not. -/
theorem SameRole.isOffered (h : SameRole sp sp') : sp'.isOffered = sp.isOffered := by
  rw [Splice.isOffered, Splice.isOffered, h.isUnfinished, h.isClaimed]

/-- A property of the entry under a key after an insertion. -/
theorem get?_insert_iff {α : Type} {dict : Dict ℕ α} {k k' : ℕ} {v : α} {p : α → Prop} :
    (∃ x, (dict.insert k v).get? k' = some x ∧ p x) ↔
      if k = k' then p v else ∃ x, dict.get? k' = some x ∧ p x := by
  rw [Dict.get?_insert]
  split_ifs
  · simp
  · rfl

/-- A splice takes a step that its lists do not see. -/
theorem Books.of_role (h : Books s) (hget : s.all.get? ticket = some sp) (hrole : SameRole sp sp')
    (hall : s'.all = s.all.insert ticket sp') (hconns : s'.conns = s.conns)
    (htickets : s'.tickets = s.tickets) (hsplices : s'.splices = s.splices)
    (hmade : s'.ticketsMade = s.ticketsMade) (hhosts : s'.hostsMade = s.hostsMade) : Books s' where
  counted := by
    rw [hsplices, h.counted, hall, Dict.countP_insert, Dict.countP_entries hget]
    dsimp only
    rw [hrole.isUnfinished]
  offered t := by
    rw [htickets, h.offered, hall, get?_insert_iff]
    split_ifs with heq
    · subst heq
      simp [hget, hrole.isOffered]
    · rfl
  listed host g t hget' := by
    rw [hconns] at hget'
    rw [h.listed host g t hget', hall, get?_insert_iff]
    split_ifs with heq
    · subst heq
      simp [hget, hrole.isOffered, hrole.host]
    · rfl
  made t x hx := by
    rw [hall, Dict.get?_insert] at hx
    rw [hmade]
    split_ifs at hx with heq
    · exact h.made t sp (heq ▸ hget)
    · exact h.made t x hx
  hosted t x hx := by
    rw [hall, Dict.get?_insert] at hx
    rw [hhosts]
    split_ifs at hx with heq
    · cases hx
      rw [hrole.host]
      exact h.hosted t sp (heq ▸ hget)
    · exact h.hosted t x hx
  host_made := by rw [hconns, hhosts]; exact h.host_made
  recorded t x hx := by
    rw [hall, Dict.get?_insert] at hx
    rw [hconns]
    split_ifs at hx with heq
    · cases hx
      rw [hrole.host]
      exact h.recorded t sp (heq ▸ hget)
    · exact h.recorded t x hx

omit [LinearOrder ID] in
/-- A host that unlists a ticket keeps the rest of its list. -/
theorem get?_unlist {conns : Dict ℕ (TicketHost ID Pub)} {host' : ℕ} {g : TicketHost ID Pub}
    (h : (unlist conns ticket host).get? host' = some g) :
    ∃ g', conns.get? host' = some g' ∧ g.pub = g'.pub ∧
      ∀ t, t ∈ g.tickets ↔ t ∈ g'.tickets ∧ ¬ (t = ticket ∧ host = host') := by
  unfold unlist at h
  split at h
  next hnone =>
    have hne : host ≠ host' := fun heq => by rw [← heq, hnone] at h; cases h
    exact ⟨g, h, rfl, fun t => by simp [hne]⟩
  next g' hg' =>
    rw [Dict.get?_insert] at h
    split_ifs at h with heq
    · cases h
      exact ⟨g', heq ▸ hg', rfl, fun t => by simp [heq]⟩
    · exact ⟨g, h, rfl, fun t => by simp [heq]⟩

omit [LinearOrder ID] in
/-- Its key stays what it was. -/
theorem unlist_keeps (conns : Dict ℕ (TicketHost ID Pub)) (ticket host : ℕ) :
    ∀ host' h, conns.get? host' = some h →
      ∃ h', (unlist conns ticket host).get? host' = some h' ∧ h'.pub = h.pub := by
  intro host' h hget
  unfold unlist
  split
  · exact ⟨h, hget, rfl⟩
  next g hg =>
    rw [Dict.get?_insert]
    split_ifs with heq
    · rw [← heq, hg] at hget
      cases hget
      exact ⟨_, rfl, rfl⟩
    · exact ⟨h, hget, rfl⟩

/-- A ticket goes off the lists: its splice is finished, or claimed. -/
theorem Books.withdraw (h : Books s) (hget : s.all.get? ticket = some sp)
    (hall : s'.all = s.all.insert ticket sp') (hhost : sp'.host = sp.host)
    (hoffered : sp'.isOffered = false) (hsplices : s'.splices + (if sp.isUnfinished then 1 else 0) =
      s.splices + if sp'.isUnfinished then 1 else 0)
    (hconns : s'.conns = unlist s.conns ticket sp.host)
    (htickets : s'.tickets = s.tickets.filter fun t => t ≠ ticket)
    (hmade : s'.ticketsMade = s.ticketsMade) (hhosts : s'.hostsMade = s.hostsMade) : Books s' where
  counted := by
    have hcounted := h.counted
    rw [Dict.countP_entries hget] at hcounted
    rw [hall, Dict.countP_insert]
    dsimp only at hcounted ⊢
    split_ifs at hcounted hsplices ⊢
    all_goals omega
  offered t := by
    rw [htickets, List.mem_filter, h.offered, hall, get?_insert_iff]
    split_ifs with heq
    · simp [heq, hoffered]
    · simp [Ne.symm heq]
  listed host g t hget' := by
    rw [hconns] at hget'
    obtain ⟨g', hg', -, htickets⟩ := get?_unlist hget'
    rw [htickets, h.listed host g' t hg', hall, get?_insert_iff]
    split_ifs with heq
    · subst heq
      simp [hget, hoffered]
    · simp [Ne.symm heq]
  made t x hx := by
    rw [hall, Dict.get?_insert] at hx
    rw [hmade]
    split_ifs at hx with heq
    · exact h.made t sp (heq ▸ hget)
    · exact h.made t x hx
  hosted t x hx := by
    rw [hall, Dict.get?_insert] at hx
    rw [hhosts]
    split_ifs at hx with heq
    · cases hx
      rw [hhost]
      exact h.hosted t sp (heq ▸ hget)
    · exact h.hosted t x hx
  host_made host g hget' := by
    rw [hconns] at hget'
    obtain ⟨g', hg', -⟩ := get?_unlist hget'
    rw [hhosts]
    exact h.host_made host g' hg'
  recorded t x hx := by
    have hkept : ∃ g, s.conns.get? x.host = some g := by
      rw [hall, Dict.get?_insert] at hx
      split_ifs at hx with heq
      · cases hx
        rw [hhost]
        exact h.recorded t sp (heq ▸ hget)
      · exact h.recorded t x hx
    obtain ⟨g, hg⟩ := hkept
    obtain ⟨g', hg', -⟩ := unlist_keeps s.conns ticket sp.host x.host g hg
    exact ⟨g', hconns ▸ hg'⟩

/-! ## Accepts

A host's accept is signed for the ticket by the key of the connection it was offered to. -/

structure Trusted (verify : Pub → RelayID → ℕ → Sig → Bool) (s : SpliceServer ID Pub RelayID Sig) :
    Prop where
  once : (s.claims.map Claim.ticket).Nodup
  signed : ∀ c ∈ s.claims, Signed verify s c.ticket c.relayID c.hostSig
  taken : ∀ c ∈ s.claims, ∀ sp, s.all.get? c.ticket = some sp → sp.isClaimed = true
  verified : ∀ conn t hostSig relayID, s.accepts.get? conn = some (.verified t hostSig relayID) →
    Signed verify s t relayID hostSig
  claimed : ∀ conn t, s.accepts.get? conn = some (.claimed t) →
    ∃ sp, s.all.get? t = some sp ∧ sp.isClaimed = true ∧ sp.leg = none
  alone : ∀ conn conn' t, s.accepts.get? conn = some (.claimed t) →
    s.accepts.get? conn' = some (.claimed t) → conn = conn'
  unclaimed : ∀ t sp, s.all.get? t = some sp → sp.isClaimed = false → sp.leg = none

/-- Splices and hosts keep what signatures are checked with. -/
structure Keeps (s s' : SpliceServer ID Pub RelayID Sig) : Prop where
  all : ∀ t sp, s.all.get? t = some sp → ∃ sp', s'.all.get? t = some sp' ∧ sp'.host = sp.host
  conns : ∀ host h, s.conns.get? host = some h → ∃ h', s'.conns.get? host = some h' ∧ h'.pub = h.pub

/-- A signature stays good while the splice and the host's key are what they were. -/
theorem Keeps.signed (hkeeps : Keeps s s') {relayID : RelayID} {hostSig : Sig}
    (h : Signed verify s ticket relayID hostSig) : Signed verify s' ticket relayID hostSig := by
  obtain ⟨sp, g, hsp, hg, hverify⟩ := h
  obtain ⟨sp', hsp', hhost⟩ := hkeeps.all ticket sp hsp
  obtain ⟨g', hg', hpub⟩ := hkeeps.conns sp.host g hg
  exact ⟨sp', g', hsp', hhost ▸ hg', hpub ▸ hverify⟩

/-- A splice that changes keeps its host. -/
theorem Keeps.of_insert (hget : s.all.get? ticket = some sp)
    (hall : s'.all = s.all.insert ticket sp') (hhost : sp'.host = sp.host)
    (hconns : ∀ host h, s.conns.get? host = some h → ∃ h', s'.conns.get? host = some h' ∧
    h'.pub = h.pub) :
    Keeps s s' where
  all t x hx := by
    rw [hall, Dict.get?_insert]
    split_ifs with heq
    · rw [← heq, hget] at hx
      cases hx
      exact ⟨sp', rfl, hhost⟩
    · exact ⟨x, hx, rfl⟩
  conns := hconns

/-- A splice takes a step that is no accept's. -/
theorem Trusted.of_insert (h : Trusted verify s) (hget : s.all.get? ticket = some sp)
    (hall : s'.all = s.all.insert ticket sp') (hkeeps : Keeps s s')
    (hclaimed : sp'.isClaimed = sp.isClaimed) (hleg : sp.leg = none → sp'.leg = none)
    (haccepts : s'.accepts = s.accepts) (hclaims : s'.claims = s.claims) : Trusted verify s' where
  once := by rw [hclaims]; exact h.once
  signed c hc := hkeeps.signed (h.signed c (hclaims ▸ hc))
  taken c hc x hx := by
    rw [hclaims] at hc
    rw [hall, Dict.get?_insert] at hx
    split_ifs at hx with heq
    · cases hx
      rw [hclaimed]
      exact h.taken c hc sp (heq ▸ hget)
    · exact h.taken c hc x hx
  verified conn t hostSig relayID hconn := by
    rw [haccepts] at hconn
    exact hkeeps.signed (h.verified conn t hostSig relayID hconn)
  claimed conn t hconn := by
    rw [haccepts] at hconn
    obtain ⟨x, hx, hxclaimed, hxleg⟩ := h.claimed conn t hconn
    rw [hall, Dict.get?_insert]
    split_ifs with heq
    · rw [← heq, hget] at hx
      cases hx
      exact ⟨sp', rfl, hclaimed.trans hxclaimed, hleg hxleg⟩
    · exact ⟨x, hx, hxclaimed, hxleg⟩
  alone := by rw [haccepts]; exact h.alone
  unclaimed t x hx hxclaimed := by
    rw [hall, Dict.get?_insert] at hx
    split_ifs at hx with heq
    · cases hx
      exact hleg (h.unclaimed t sp (heq ▸ hget) (hclaimed ▸ hxclaimed))
    · exact h.unclaimed t x hx hxclaimed

structure Sound (verify : Pub → RelayID → ℕ → Sig → Bool) (s : SpliceServer ID Pub RelayID Sig) :
    Prop where
  books : Books s
  trusted : Trusted verify s
  carries : ∀ t sp, s.all.get? t = some sp → Carries sp

/-- Every splice carries when the one that changed does. -/
theorem carries_insert (h : ∀ t sp, s.all.get? t = some sp → Carries sp)
    (hall : s'.all = s.all.insert ticket sp') (hsp' : Carries sp') :
    ∀ t sp, s'.all.get? t = some sp → Carries sp := by
  intro t x hx
  rw [hall, Dict.get?_insert] at hx
  split_ifs at hx
  · cases hx; exact hsp'
  · exact h t x hx

/-! ## Steps of one splice

Most events change one splice in its role; `Ordinary` is what they have in common. -/

/-- What a splice may do by itself. -/
structure Ordinary (f : Splice → Splice) : Prop where
  role : ∀ sp, SameRole sp (f sp)
  leg : ∀ sp, sp.leg = none → (f sp).leg = none
  carries : ∀ sp, Carries sp → Carries (f sp)

/-- An ordinary change of one splice keeps all books. -/
theorem Sound.modify (h : Sound verify s) {f : Splice → Splice} (hf : Ordinary f) (ticket : ℕ) :
    Sound verify (s.modify ticket f) := by
  cases hget : s.all.get? ticket with
  | none => rw [SpliceServer.modify, hget]; exact h
  | some sp =>
    have hmodify : s.modify ticket f = { s with all := s.all.insert ticket (f sp) } := by
      rw [SpliceServer.modify, hget]
    rw [hmodify]
    have hrole := hf.role sp
    exact {
      books := h.books.of_role hget hrole rfl rfl rfl rfl rfl rfl
      trusted := h.trusted.of_insert hget rfl
        (.of_insert hget rfl hrole.host fun _ g hg => ⟨g, hg, rfl⟩) hrole.isClaimed
          (hf.leg sp) rfl rfl
      carries := carries_insert h.carries rfl (hf.carries sp (h.carries ticket sp hget)) }

/-- `finish` asks, and the role stays until it is done. -/
theorem callFinish_role (sp : Splice) : SameRole sp (callFinish sp) := by
  unfold callFinish
  split_ifs with hidle
  · exact ⟨rfl, by simp [Splice.isUnfinished, hidle], rfl⟩
  · exact ⟨rfl, rfl, rfl⟩

/-- Asking to finish is ordinary. -/
theorem ordinary_callFinish : Ordinary callFinish where
  role := callFinish_role
  leg sp hnone := by
    obtain ⟨finish, heq⟩ := callFinish_eq sp
    rw [heq]
    exact hnone
  carries _ h := h.callFinish

/-- `finish` is called on what is left of a splice. -/
theorem SameRole.callFinish (h : SameRole sp sp') : SameRole sp (callFinish sp') := by
  obtain ⟨hhost, hunfinished, hclaimed⟩ := callFinish_role sp'
  exact ⟨hhost.trans h.host, hunfinished.trans h.isUnfinished, hclaimed.trans h.isClaimed⟩

theorem callFinish_leg (sp : Splice) : (callFinish sp).leg = sp.leg := by
  obtain ⟨finish, heq⟩ := callFinish_eq sp
  rw [heq]

/-- So are bytes that come. -/
theorem ordinary_arrive (bytes : List UInt8) : Ordinary (arrive bytes) where
  role _ := ⟨rfl, rfl, rfl⟩
  leg _ hnone := hnone
  carries _ h := h.arrive bytes

/-- And bytes that are read. -/
theorem ordinary_read (n : ℕ) : Ordinary (read n) where
  role sp := by
    unfold read
    split_ifs
    · exact ⟨rfl, rfl, rfl⟩
    · exact ⟨rfl, rfl, rfl⟩
  leg sp hnone := by
    unfold read
    split_ifs
    · exact hnone
    · exact hnone
  carries _ h := h.read n

/-- Bytes that are held. -/
theorem ordinary_hold (pendingBytes : ℕ) : Ordinary (hold pendingBytes) where
  role sp := by
    unfold hold
    split_ifs
    · exact SameRole.callFinish ⟨rfl, rfl, rfl⟩
    · exact ⟨rfl, rfl, rfl⟩
    · exact ⟨rfl, rfl, rfl⟩
  leg sp hnone := by
    unfold hold
    split_ifs
    · exact (callFinish_leg _).trans hnone
    · exact hnone
    · exact hnone
  carries _ h := h.hold pendingBytes

/-- Bytes that are written. -/
theorem ordinary_write (n : ℕ) : Ordinary (write n) where
  role sp := by
    unfold write
    split
    · exact ⟨rfl, rfl, rfl⟩
    split_ifs
    · exact SameRole.callFinish ⟨rfl, rfl, rfl⟩
    · exact SameRole.callFinish ⟨rfl, rfl, rfl⟩
    · exact ⟨rfl, rfl, rfl⟩
    · exact ⟨rfl, rfl, rfl⟩
  leg sp hnone := by
    rw [write, hnone]
    exact hnone
  carries _ h := h.write n

/-- The end of the client's stream. -/
theorem ordinary_endReading : Ordinary endReading where
  role _ := SameRole.callFinish ⟨rfl, rfl, rfl⟩
  leg _ hnone := (callFinish_leg _).trans hnone
  carries _ h := h.stops.callFinish

/-- The timer only asks to finish. -/
theorem ordinary_fireTimer : Ordinary fireTimer where
  role sp := by
    unfold fireTimer
    split_ifs
    · exact callFinish_role sp
    · exact ⟨rfl, rfl, rfl⟩
  leg sp hnone := by
    unfold fireTimer
    split_ifs
    · exact (callFinish_leg sp).trans hnone
    · exact hnone
  carries _ h := h.fireTimer

/-- The end of `finish`. -/
theorem ordinary_finishDone : Ordinary finishDone where
  role sp := by
    unfold finishDone
    split_ifs with hfreed
    · exact ⟨rfl, by simp [Splice.isUnfinished, hfreed], rfl⟩
    · exact ⟨rfl, rfl, rfl⟩
  leg sp hnone := by
    unfold finishDone
    split_ifs
    · exact hnone
    · exact hnone
  carries _ h := h.finishDone

/-- The legs' close. -/
theorem ordinary_closeLegs : Ordinary closeLegs where
  role sp := by
    unfold closeLegs
    split_ifs
    · exact ⟨rfl, rfl, rfl⟩
    · exact ⟨rfl, rfl, rfl⟩
  leg sp hnone := by
    unfold closeLegs
    split_ifs
    · simp [hnone]
    · exact hnone
  carries _ h := h.closeLegs

/-! ## Hosts and clients

A host that leaves takes its list with it; a client brings a ticket no one has. -/

/-- A step the splices do not see. -/
theorem Sound.of_same (h : Sound verify s) (hconns : s'.conns = s.conns)
    (htickets : s'.tickets = s.tickets) (hsplices : s'.splices = s.splices) (hall : s'.all = s.all)
    (haccepts : s'.accepts = s.accepts) (hclaims : s'.claims = s.claims)
    (hmade : s.ticketsMade ≤ s'.ticketsMade) (hhosts : s'.hostsMade = s.hostsMade) :
    Sound verify s' := by
  have hkeeps : Keeps s s' :=
    ⟨fun t sp hsp => ⟨sp, hall ▸ hsp, rfl⟩, fun host g hg => ⟨g, hconns ▸ hg, rfl⟩⟩
  exact {
    books :=
      { counted := by rw [hsplices, hall]; exact h.books.counted
        offered := by rw [htickets, hall]; exact h.books.offered
        listed := by rw [hconns, hall]; exact h.books.listed
        made := fun t sp hsp => (h.books.made t sp (hall ▸ hsp)).trans_le hmade
        hosted := by rw [hall, hhosts]; exact h.books.hosted
        host_made := by rw [hconns, hhosts]; exact h.books.host_made
        recorded := by rw [hconns, hall]; exact h.books.recorded }
    trusted :=
      { once := by rw [hclaims]; exact h.trusted.once
        signed := fun c hc => hkeeps.signed (h.trusted.signed c (hclaims ▸ hc))
        taken := by rw [hclaims, hall]; exact h.trusted.taken
        verified := fun conn t hostSig relayID hconn =>
          hkeeps.signed (h.trusted.verified conn t hostSig relayID (haccepts ▸ hconn))
        claimed := by rw [haccepts, hall]; exact h.trusted.claimed
        alone := by rw [haccepts]; exact h.trusted.alone
        unclaimed := by rw [hall]; exact h.trusted.unclaimed }
    carries := by rw [hall]; exact h.carries }

/-- The splices it was offered are not on any list any more. -/
theorem Sound.dropHost (h : Sound verify s) (host : ℕ) : Sound verify (s.dropHost host) := by
  unfold SpliceServer.dropHost
  split
  · exact h
  next g hg =>
    have hfold : ∀ (tickets : List ℕ) {s : SpliceServer ID Pub RelayID Sig}, Sound verify s →
        Sound verify (tickets.foldl (fun s ticket => s.modify ticket callFinish) s) := by
      intro tickets
      induction tickets with
      | nil => exact fun h => h
      | cons ticket tickets ih => exact fun h => ih (h.modify ordinary_callFinish ticket)
    refine hfold g.tickets ?_
    split_ifs
    · exact h.of_same rfl rfl rfl rfl rfl rfl le_rfl rfl
    · exact h

/-- A host that registers was offered nothing yet. -/
theorem Sound.register (h : Sound verify s) (id : ID) (pub : Pub) :
    Sound verify (s.register id pub) := by
  have hget : ∀ host g, (s.conns.insert s.hostsMade { id, pub }).get? host = some g →
      (s.hostsMade = host ∧ g.tickets = []) ∨ s.conns.get? host = some g := by
    intro host g hg
    rw [Dict.get?_insert] at hg
    split_ifs at hg with heq
    · cases hg
      exact .inl ⟨heq, rfl⟩
    · exact .inr hg
  have hkeeps : Keeps s (s.register id pub) := by
    refine ⟨fun t sp hsp => ⟨sp, hsp, rfl⟩, fun host g hg => ⟨g, ?_, rfl⟩⟩
    change (s.conns.insert s.hostsMade _).get? host = some g
    rw [Dict.get?_insert_of_ne _ (h.books.host_made host g hg).ne', hg]
  exact {
    books :=
      { counted := h.books.counted
        offered := h.books.offered
        listed := fun host g t hg => by
          obtain ⟨rfl, hnil⟩ | hg := hget host g hg
          · rw [hnil]
            refine iff_of_false List.not_mem_nil ?_
            rintro ⟨sp, hsp, -, hhost⟩
            exact (h.books.hosted t sp hsp).ne hhost
          · exact h.books.listed host g t hg
        made := h.books.made
        hosted := fun t sp hsp => Nat.lt_succ_of_lt (h.books.hosted t sp hsp)
        host_made := fun host g hg => by
          obtain ⟨rfl, -⟩ | hg := hget host g hg
          · exact Nat.lt_succ_self _
          · exact Nat.lt_succ_of_lt (h.books.host_made host g hg)
        recorded := fun t sp hsp => by
          obtain ⟨g, hg⟩ := h.books.recorded t sp hsp
          obtain ⟨g', hg', -⟩ := hkeeps.conns sp.host g hg
          exact ⟨g', hg'⟩ }
    trusted :=
      { once := h.trusted.once
        signed := fun c hc => hkeeps.signed (h.trusted.signed c hc)
        taken := h.trusted.taken
        verified := fun conn t hostSig relayID hconn =>
          hkeeps.signed (h.trusted.verified conn t hostSig relayID hconn)
        claimed := h.trusted.claimed
        alone := h.trusted.alone
        unclaimed := h.trusted.unclaimed }
    carries := h.carries }

/-- A new ticket, and the splice behind it. -/
theorem Sound.offer (h : Sound verify s) {g : TicketHost ID Pub} (hg : s.conns.get? host = some g)
    (hsp : Carries sp) (hhost : sp.host = host) (hnew : sp.finish = .idle) (hleg : sp.leg = none)
    (hclaimed : sp.isClaimed = false) :
    Sound verify { s with
      ticketsMade := s.ticketsMade + 1
      splices := s.splices + 1
      tickets := s.tickets ++ [s.ticketsMade]
      conns := s.conns.insert host { g with tickets := g.tickets ++ [s.ticketsMade] }
      all := s.all.insert s.ticketsMade sp } := by
  have hnone : s.all.get? s.ticketsMade = none := by
    cases hx : s.all.get? s.ticketsMade with
    | none => rfl
    | some x =>
      have := h.books.made _ x hx
      omega
  have hunfinished : sp.isUnfinished = true := by simp [Splice.isUnfinished, hnew]
  have hoffered : sp.isOffered = true := by simp [Splice.isOffered, hunfinished, hclaimed]
  have hget : ∀ t x, (s.all.insert s.ticketsMade sp).get? t = some x →
      (s.ticketsMade = t ∧ x = sp) ∨ s.all.get? t = some x := by
    intro t x hx
    rw [Dict.get?_insert] at hx
    split_ifs at hx with heq
    · exact .inl ⟨heq, (Option.some_injective _ hx).symm⟩
    · exact .inr hx
  have hkeeps : Keeps s { s with
      ticketsMade := s.ticketsMade + 1
      splices := s.splices + 1
      tickets := s.tickets ++ [s.ticketsMade]
      conns := s.conns.insert host { g with tickets := g.tickets ++ [s.ticketsMade] }
      all := s.all.insert s.ticketsMade sp } := by
    refine ⟨fun t x hx => ⟨x, ?_, rfl⟩, fun host' g' hg' => ?_⟩
    · change (s.all.insert s.ticketsMade sp).get? t = some x
      rw [Dict.get?_insert_of_ne _ (h.books.made t x hx).ne', hx]
    · change ∃ h', (s.conns.insert host _).get? host' = some h' ∧ h'.pub = g'.pub
      rw [Dict.get?_insert]
      split_ifs with heq
      · rw [← heq, hg] at hg'
        cases hg'
        exact ⟨_, rfl, rfl⟩
      · exact ⟨g', hg', rfl⟩
  exact {
    books :=
      { counted := by
          change s.splices + 1 = _
          rw [h.books.counted, Dict.countP_insert, Dict.erase_of_none hnone]
          simp [hunfinished]
        offered := fun t => by
          change t ∈ s.tickets ++ [s.ticketsMade] ↔ _
          rw [List.mem_append, List.mem_singleton, h.books.offered, get?_insert_iff]
          split_ifs with heq
          · simp [heq, hoffered]
          · simp [Ne.symm heq]
        listed := fun host' g' t hg' => by
          change (s.conns.insert host _).get? host' = some g' at hg'
          rw [get?_insert_iff]
          rw [Dict.get?_insert] at hg'
          split_ifs at hg' with hsame
          · cases hg'
            change t ∈ g.tickets ++ [s.ticketsMade] ↔ _
            rw [List.mem_append, List.mem_singleton, h.books.listed host g t hg, ← hsame]
            split_ifs with heq
            · simp [heq, hoffered, hhost]
            · simp [Ne.symm heq]
          · rw [h.books.listed host' g' t hg']
            split_ifs with heq
            · rw [← heq, hnone]
              simp [hhost, hsame]
            · rfl
        made := fun t x hx => by
          obtain ⟨rfl, -⟩ | hx := hget t x hx
          · exact Nat.lt_succ_self _
          · exact Nat.lt_succ_of_lt (h.books.made t x hx)
        hosted := fun t x hx => by
          obtain ⟨-, rfl⟩ | hx := hget t x hx
          · rw [hhost]; exact h.books.host_made host g hg
          · exact h.books.hosted t x hx
        host_made := fun host' g' hg' => by
          change (s.conns.insert host _).get? host' = some g' at hg'
          rw [Dict.get?_insert] at hg'
          split_ifs at hg' with hsame
          · exact hsame ▸ h.books.host_made host g hg
          · exact h.books.host_made host' g' hg'
        recorded := fun t x hx => by
          have hbefore : ∃ g', s.conns.get? x.host = some g' := by
            obtain ⟨-, rfl⟩ | hx := hget t x hx
            · exact ⟨g, hhost ▸ hg⟩
            · exact h.books.recorded t x hx
          obtain ⟨g', hg'⟩ := hbefore
          obtain ⟨g'', hg'', -⟩ := hkeeps.conns x.host g' hg'
          exact ⟨g'', hg''⟩ }
    trusted :=
      { once := h.trusted.once
        signed := fun c hc => hkeeps.signed (h.trusted.signed c hc)
        taken := fun c hc x hx => by
          obtain ⟨heq, -⟩ | hx := hget c.ticket x hx
          · obtain ⟨y, -, hy, -⟩ := h.trusted.signed c hc
            rw [← heq, hnone] at hy
            cases hy
          · exact h.trusted.taken c hc x hx
        verified := fun conn t hostSig relayID hconn =>
          hkeeps.signed (h.trusted.verified conn t hostSig relayID hconn)
        claimed := fun conn t hconn => by
          obtain ⟨x, hx, hxclaimed, hxleg⟩ := h.trusted.claimed conn t hconn
          refine ⟨x, ?_, hxclaimed, hxleg⟩
          change (s.all.insert s.ticketsMade sp).get? t = some x
          rw [Dict.get?_insert_of_ne _ (h.books.made t x hx).ne', hx]
        alone := h.trusted.alone
        unclaimed := fun t x hx hxclaimed => by
          obtain ⟨-, rfl⟩ | hx := hget t x hx
          · exact hleg
          · exact h.trusted.unclaimed t x hx hxclaimed }
    carries := carries_insert h.carries rfl hsp }

/-- A new client's splice is listed at the host it names. -/
theorem Sound.handleData (h : Sound verify s) (input : List UInt8) :
    Sound verify (s.handleData hostID input) := by
  have hmade : Sound verify { s with ticketsMade := s.ticketsMade + 1 } :=
    h.of_same rfl rfl rfl rfl rfl rfl (Nat.le_succ _) rfl
  unfold SpliceServer.handleData
  split
  · exact h
  next record rest hrecord =>
    split
    · exact h
    dsimp only
    split
    · exact hmade
    split
    · exact hmade
    next g hg =>
      split_ifs
      · exact hmade
      · exact h.offer hg (carries_new hrecord _) rfl rfl rfl rfl

/-! ## `finish` and accepts -/

/-- The slot is given back: `finish` runs once. -/
theorem Sound.finishFree (h : Sound verify s) (ticket : ℕ) :
    Sound verify (s.finishFree ticket) := by
  unfold SpliceServer.finishFree
  split
  · exact h
  next sp hget =>
    split
    · exact h
    next hcalled =>
      have hcalled : sp.finish = .called := not_not.mp hcalled
      exact {
        books := by
          refine h.books.withdraw hget rfl rfl ?_ ?_ rfl rfl rfl rfl
          · simp [Splice.isOffered, Splice.isUnfinished]
          · simp [Splice.isUnfinished, hcalled]
        trusted := h.trusted.of_insert hget rfl
          (.of_insert hget rfl rfl (unlist_keeps s.conns ticket sp.host))
            rfl (fun hnone => hnone) rfl rfl
        carries := carries_insert h.carries rfl
          ((h.carries ticket sp hget).of_same rfl rfl rfl fun hread => ⟨hread, rfl⟩) }

/-- An accept's own state, that is neither past its check nor a claim. -/
theorem Sound.setAccept (h : Sound verify s) (conn : ℕ) {a : Accept RelayID Sig}
    (hverified : ∀ t hostSig relayID, a = .verified t hostSig relayID →
      Signed verify s t relayID hostSig) (hclaimed : ∀ t, a ≠ .claimed t) :
    Sound verify (s.setAccept conn a) where
  books := ⟨h.books.counted, h.books.offered, h.books.listed, h.books.made, h.books.hosted,
    h.books.host_made, h.books.recorded⟩
  trusted :=
    { once := h.trusted.once
      signed := h.trusted.signed
      taken := h.trusted.taken
      verified := fun conn' t hostSig relayID hconn' => by
        change (s.accepts.insert conn a).get? conn' = _ at hconn'
        rw [Dict.get?_insert] at hconn'
        split_ifs at hconn'
        · exact hverified t hostSig relayID (Option.some_injective _ hconn')
        · exact h.trusted.verified conn' t hostSig relayID hconn'
      claimed := fun conn' t hconn' => by
        change (s.accepts.insert conn a).get? conn' = _ at hconn'
        rw [Dict.get?_insert] at hconn'
        split_ifs at hconn'
        · exact absurd (Option.some_injective _ hconn') (hclaimed t)
        · exact h.trusted.claimed conn' t hconn'
      alone := fun conn₁ conn₂ t h₁ h₂ => by
        change (s.accepts.insert conn a).get? conn₁ = _ at h₁
        change (s.accepts.insert conn a).get? conn₂ = _ at h₂
        rw [Dict.get?_insert] at h₁ h₂
        split_ifs at h₁ h₂
        · exact absurd (Option.some_injective _ h₁) (hclaimed t)
        · exact absurd (Option.some_injective _ h₁) (hclaimed t)
        · exact absurd (Option.some_injective _ h₂) (hclaimed t)
        · exact h.trusted.alone conn₁ conn₂ t h₁ h₂
      unclaimed := h.trusted.unclaimed }
  carries := h.carries

/-- A host asks for a ticket. -/
theorem Sound.accept (h : Sound verify s) (conn ticket : ℕ) (hostSig : Sig) :
    Sound verify (s.accept conn ticket hostSig) := by
  unfold SpliceServer.accept
  split_ifs
  · exact h
  · exact h.setAccept conn (by simp) (by simp)
  · exact h.setAccept conn (by simp) (by simp)

/-- The check is that of the key the splice was offered to. -/
theorem signed_iff (ticket : ℕ) (relayID : RelayID) (hostSig : Sig) :
    ((s.all.get? ticket).bind fun sp => s.conns.get? sp.host).any
      (fun h => verify h.pub relayID ticket hostSig) = true ↔
      Signed verify s ticket relayID hostSig := by
  simp only [Option.any_eq_true, Option.bind_eq_some_iff, Signed]
  constructor
  · rintro ⟨g, ⟨sp, hsp, hg⟩, hverify⟩
    exact ⟨sp, g, hsp, hg, hverify⟩
  · rintro ⟨sp, g, hsp, hg, hverify⟩
    exact ⟨g, ⟨sp, hsp, hg⟩, hverify⟩

/-- The signature is looked at without the lock. -/
theorem Sound.acceptVerify (h : Sound verify s) (conn : ℕ) :
    Sound verify (s.acceptVerify verify conn) := by
  unfold SpliceServer.acceptVerify
  split
  next ticket hostSig _ =>
    dsimp only
    split_ifs with hsigned
    · refine h.setAccept conn ?_ (by simp)
      rintro t hostSig' relayID ⟨⟩
      exact (signed_iff ticket s.relayID hostSig).mp hsigned
    · exact h.setAccept conn (by simp) (by simp)
  · exact h

/-- A claim: the ticket was offered until now, and so no one's. -/
theorem Trusted.claims (h : Trusted verify s) (hget : s.all.get? ticket = some sp)
    (hunclaimed : sp.isClaimed = false) (hall : s'.all = s.all.insert ticket sp')
    (hkeeps : Keeps s s') (hclaimed : sp'.isClaimed = true) (hleg : sp'.leg = sp.leg)
    {hostSig : Sig} {relayID : RelayID} (hsigned : Signed verify s ticket relayID hostSig)
    (haccepts : s'.accepts = s.accepts.insert conn (.claimed ticket))
    (hclaims : s'.claims = s.claims ++ [⟨ticket, hostSig, relayID⟩]) : Trusted verify s' := by
  have hnot : ∀ c ∈ s.claims, c.ticket ≠ ticket := fun c hc heq => by
    rw [h.taken c hc sp (heq ▸ hget)] at hunclaimed
    cases hunclaimed
  have hno : ∀ conn', s.accepts.get? conn' ≠ some (.claimed ticket) := fun conn' hconn' => by
    obtain ⟨x, hx, hxclaimed, -⟩ := h.claimed conn' ticket hconn'
    rw [hget] at hx
    cases hx
    rw [hxclaimed] at hunclaimed
    cases hunclaimed
  have haccept : ∀ conn' a, s'.accepts.get? conn' = some a →
      (conn = conn' ∧ a = .claimed ticket) ∨ s.accepts.get? conn' = some a := by
    intro conn' a ha
    rw [haccepts, Dict.get?_insert] at ha
    split_ifs at ha with heq
    · exact .inl ⟨heq, (Option.some_injective _ ha).symm⟩
    · exact .inr ha
  exact {
    once := by
      rw [hclaims, List.map_append, List.map_singleton]
      refine List.nodup_append.mpr ⟨h.once, List.nodup_singleton _, fun t ht t' ht' heq => ?_⟩
      obtain ⟨c, hc, rfl⟩ := List.mem_map.mp ht
      exact hnot c hc (heq.trans (List.mem_singleton.mp ht'))
    signed := fun c hc => by
      rw [hclaims, List.mem_append, List.mem_singleton] at hc
      obtain hc | rfl := hc
      · exact hkeeps.signed (h.signed c hc)
      · exact hkeeps.signed hsigned
    taken := fun c hc x hx => by
      rw [hclaims, List.mem_append, List.mem_singleton] at hc
      rw [hall, Dict.get?_insert] at hx
      obtain hc | rfl := hc
      · rw [if_neg (hnot c hc).symm] at hx
        exact h.taken c hc x hx
      · rw [if_pos rfl] at hx
        cases hx
        exact hclaimed
    verified := fun conn' t hostSig' relayID' hconn' => by
      obtain ⟨-, heq⟩ | hconn' := haccept conn' _ hconn'
      · cases heq
      · exact hkeeps.signed (h.verified conn' t hostSig' relayID' hconn')
    claimed := fun conn' t hconn' => by
      rw [hall, Dict.get?_insert]
      obtain ⟨-, heq⟩ | hconn' := haccept conn' _ hconn'
      · cases heq
        rw [if_pos rfl]
        exact ⟨sp', rfl, hclaimed, hleg.trans (h.unclaimed ticket sp hget hunclaimed)⟩
      · have hne : ticket ≠ t := fun heq => hno conn' (heq ▸ hconn')
        rw [if_neg hne]
        exact h.claimed conn' t hconn'
    alone := fun conn₁ conn₂ t h₁ h₂ => by
      obtain ⟨heq₁, ht₁⟩ | h₁ := haccept conn₁ _ h₁
      · cases ht₁
        obtain ⟨heq₂, -⟩ | h₂ := haccept conn₂ _ h₂
        · exact heq₁.symm.trans heq₂
        · exact absurd h₂ (hno conn₂)
      · obtain ⟨-, ht₂⟩ | h₂ := haccept conn₂ _ h₂
        · cases ht₂
          exact absurd h₁ (hno conn₁)
        · exact h.alone conn₁ conn₂ t h₁ h₂
    unclaimed := fun t x hx hxclaimed => by
      rw [hall, Dict.get?_insert] at hx
      split_ifs at hx
      · cases hx
        rw [hclaimed] at hxclaimed
        cases hxclaimed
      · exact h.unclaimed t x hx hxclaimed }

/-- The claim is made under the lock, if the splice is still there to claim. -/
theorem Sound.acceptClaim (h : Sound verify s) (conn : ℕ) : Sound verify (s.acceptClaim conn) := by
  unfold SpliceServer.acceptClaim
  split
  next ticket hostSig relayID hconn =>
    split
    · exact h.setAccept conn (by simp) (by simp)
    next sp hget =>
      split
      · exact h.setAccept conn (by simp) (by simp)
      next hlisted =>
        obtain ⟨x, hx, hoffered⟩ := (h.books.offered ticket).mp (not_not.mp hlisted)
        rw [hget] at hx
        cases hx
        have hunclaimed : sp.isClaimed = false := by
          simp only [Splice.isOffered, decide_eq_true_eq] at hoffered
          simpa using hoffered.2
        exact {
          books := by
            refine h.books.withdraw hget rfl rfl ?_ ?_ rfl rfl rfl rfl
            · simp [Splice.isOffered]
            · rfl
          trusted := h.trusted.claims hget hunclaimed rfl
            (.of_insert hget rfl rfl (unlist_keeps s.conns ticket sp.host)) rfl rfl
            (h.trusted.verified conn ticket hostSig relayID hconn) rfl rfl
          carries := carries_insert h.carries rfl
            ((h.carries ticket sp hget).of_same rfl rfl rfl fun hread => ⟨hread, rfl⟩) }
  · exact h

/-- A leg makes no offer. -/
theorem attachLeg_role (n : ℕ) (sp : Splice) : SameRole sp (attachLeg n sp) := by
  unfold attachLeg
  dsimp only
  split_ifs
  · exact SameRole.callFinish ⟨rfl, rfl, rfl⟩
  · exact ⟨rfl, rfl, rfl⟩

/-- A claimed splice gets its leg, once. -/
theorem Trusted.attaches (h : Trusted verify s)
    (hconn : s.accepts.get? conn = some (.claimed ticket)) (hget : s.all.get? ticket = some sp)
    (hall : s'.all = s.all.insert ticket sp') (hkeeps : Keeps s s')
    (hclaimed : sp'.isClaimed = sp.isClaimed)
    (haccepts : s'.accepts = s.accepts.insert conn .attached) (hclaims : s'.claims = s.claims) :
    Trusted verify s' := by
  have hspclaimed : sp.isClaimed = true := by
    obtain ⟨x, hx, hxclaimed, -⟩ := h.claimed conn ticket hconn
    rw [hget] at hx
    cases hx
    exact hxclaimed
  have haccept : ∀ conn' a, s'.accepts.get? conn' = some a → a = .attached ∨
      (conn ≠ conn' ∧ s.accepts.get? conn' = some a) := by
    intro conn' a ha
    rw [haccepts, Dict.get?_insert] at ha
    split_ifs at ha with heq
    · exact .inl (Option.some_injective _ ha).symm
    · exact .inr ⟨heq, ha⟩
  exact {
    once := by rw [hclaims]; exact h.once
    signed := fun c hc => hkeeps.signed (h.signed c (hclaims ▸ hc))
    taken := fun c hc x hx => by
      rw [hall, Dict.get?_insert] at hx
      split_ifs at hx
      · cases hx
        exact hclaimed.trans hspclaimed
      · exact h.taken c (hclaims ▸ hc) x hx
    verified := fun conn' t hostSig relayID hconn' => by
      obtain heq | ⟨-, hconn'⟩ := haccept conn' _ hconn'
      · cases heq
      · exact hkeeps.signed (h.verified conn' t hostSig relayID hconn')
    claimed := fun conn' t hconn' => by
      obtain heq | ⟨hother, hconn'⟩ := haccept conn' _ hconn'
      · cases heq
      · have hne : ticket ≠ t := fun heq => hother (h.alone conn conn' t (heq ▸ hconn) hconn')
        rw [hall, Dict.get?_insert_of_ne _ hne]
        exact h.claimed conn' t hconn'
    alone := fun conn₁ conn₂ t h₁ h₂ => by
      obtain heq | ⟨-, h₁⟩ := haccept conn₁ _ h₁
      · cases heq
      · obtain heq | ⟨-, h₂⟩ := haccept conn₂ _ h₂
        · cases heq
        · exact h.alone conn₁ conn₂ t h₁ h₂
    unclaimed := fun t x hx hxclaimed => by
      rw [hall, Dict.get?_insert] at hx
      split_ifs at hx
      · cases hx
        rw [hclaimed, hspclaimed] at hxclaimed
        cases hxclaimed
      · exact h.unclaimed t x hx hxclaimed }

/-- The claimed splice gets its leg. -/
theorem Sound.attach (h : Sound verify s) (conn n : ℕ) : Sound verify (s.attach conn n) := by
  unfold SpliceServer.attach
  split
  next ticket hconn =>
    split
    · exact h
    next sp hget =>
      split_ifs
      · exact h.setAccept conn (by simp) (by simp)
      · have hmodify : s.modify ticket (attachLeg n) =
            { s with all := s.all.insert ticket (attachLeg n sp) } := by
          rw [SpliceServer.modify, hget]
        have hrole := attachLeg_role n sp
        have hnone : sp.leg = none := by
          obtain ⟨x, hx, -, hxleg⟩ := h.trusted.claimed conn ticket hconn
          rw [hget] at hx
          cases hx
          exact hxleg
        rw [hmodify]
        exact {
          books := h.books.of_role hget hrole rfl rfl rfl rfl rfl rfl
          trusted := h.trusted.attaches hconn hget rfl
            (.of_insert hget rfl hrole.host fun _ g hg => ⟨g, hg, rfl⟩) hrole.isClaimed rfl rfl
          carries := carries_insert h.carries rfl ((h.carries ticket sp hget).attachLeg hnone n) }
  · exact h

/-! ## Every run -/

/-- **Any event keeps every book.** -/
theorem Sound.step (h : Sound verify s) (e : Event ID Pub RelayID Sig) :
    Sound verify (s.step hostID verify e) := by
  cases e with
  | register id pub => exact h.register id pub
  | dropHost host => exact h.dropHost host
  | setRelayID relayID => exact h.of_same rfl rfl rfl rfl rfl rfl le_rfl rfl
  | close => exact h.of_same rfl rfl rfl rfl rfl rfl le_rfl rfl
  | handleData input => exact h.handleData input
  | clientSends ticket bytes => exact h.modify (ordinary_arrive bytes) ticket
  | read ticket n => exact h.modify (ordinary_read n) ticket
  | hold ticket => exact h.modify (ordinary_hold s.limits.pendingBytes) ticket
  | write ticket n => exact h.modify (ordinary_write n) ticket
  | endReading ticket => exact h.modify ordinary_endReading ticket
  | fireTimer ticket => exact h.modify ordinary_fireTimer ticket
  | copyEnds ticket => exact h.modify ordinary_callFinish ticket
  | finishFree ticket => exact h.finishFree ticket
  | finishDone ticket => exact h.modify ordinary_finishDone ticket
  | closeLegs ticket => exact h.modify ordinary_closeLegs ticket
  | accept conn ticket hostSig => exact h.accept conn ticket hostSig
  | acceptVerify conn => exact h.acceptVerify conn
  | acceptClaim conn => exact h.acceptClaim conn
  | attach conn n => exact h.attach conn n

/-- A new server has empty ones. -/
theorem sound_init (limits : SpliceLimits) (relayID : RelayID) :
    Sound verify ({ limits, relayID } : SpliceServer ID Pub RelayID Sig) where
  books :=
    { counted := rfl
      offered := fun t => iff_of_false List.not_mem_nil (by rintro ⟨sp, ⟨⟩, -⟩)
      listed := by rintro host h t ⟨⟩
      made := by rintro t sp ⟨⟩
      hosted := by rintro t sp ⟨⟩
      host_made := by rintro host h ⟨⟩
      recorded := by rintro t sp ⟨⟩ }
  trusted :=
    { once := List.nodup_nil
      signed := by rintro c ⟨⟩
      taken := by rintro c ⟨⟩
      verified := by rintro conn t hostSig relayID ⟨⟩
      claimed := by rintro conn t ⟨⟩
      alone := by rintro conn conn' t ⟨⟩
      unclaimed := by rintro t sp ⟨⟩ }
  carries := by rintro t sp ⟨⟩

/-- An accept's progress changes no splice. -/
theorem setAccept_same (s : SpliceServer ID Pub RelayID Sig) (conn : ℕ) (a : Accept RelayID Sig) :
    SameSplices s (s.setAccept conn a) ∧ (s.setAccept conn a).accepts.get? conn = some a :=
  ⟨⟨rfl, rfl, rfl, rfl, rfl, rfl⟩, Dict.get?_insert_self _ _ _⟩

/-- **What is promised of splices.** -/
theorem Sound.spliced (h : Sound verify s) : Spliced verify s where
  counted := h.books.counted
  once := h.trusted.once
  signed := h.trusted.signed
  offered := h.books.offered
  listed := h.books.listed
  recorded := h.books.recorded
  inOrder t sp leg hget hleg := (h.carries t sp hget).written leg hleg
  asked conn t hostSig := by
    unfold SpliceServer.accept
    split_ifs
    · exact ⟨rfl, rfl, rfl, rfl, rfl, rfl⟩
    · exact (s.setAccept_same conn _).1
    · exact (s.setAccept_same conn _).1
  forged conn t hostSig hconn hforged := by
    rw [← signed_iff, Bool.not_eq_true] at hforged
    rw [SpliceServer.acceptVerify, hconn]
    dsimp only
    rw [hforged]
    exact s.setAccept_same conn .refused
  late conn t hostSig relayID hconn hlate := by
    rw [SpliceServer.acceptClaim, hconn]
    dsimp only
    split
    · exact s.setAccept_same conn .refused
    · rw [if_pos hlate]
      exact s.setAccept_same conn .refused

/-- **Splices are claimed once, by the right host, and carry their bytes in order**, in every state
any interleaving reaches. -/
theorem run_spliced (hostID : List UInt8 → Option ID) (verify : Pub → RelayID → ℕ → Sig → Bool)
    (limits : SpliceLimits) (relayID : RelayID) (es : List (Event ID Pub RelayID Sig)) :
    Spliced verify (Run.after (step hostID verify) { limits, relayID } es) :=
  Sound.spliced (Run.invariant (I := Sound verify) (fun _ e h => h.step e) es
    (sound_init limits relayID))

end SpliceServer
