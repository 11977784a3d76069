import Mathlib.Algebra.BigOperators.Group.List.Basic
import IGhostVT.Daemon.IOSupervisor
import IGhostVT.Lib.Run

/-!
# Daemon/ProxyAccounting — every request is answered once, every byte is counted

A request is at any time in one of three places: answered, waiting under its tag, or given up with
its peer (`Answered.once`).  A peer's in-flight count is what its barriers still have to report
(`Balanced.barriers`), so no count is ever cut off at zero; and while reading is suspended no event
comes, so that every peer that holds output got its timer when it was.
-/

open IOWire

/-! ## What sending leaves alone

A channel that was not suspended is not suspended by what it sends. -/

namespace IOChannel

/-- Compacting what is to be written leaves reading as it was. -/
theorem compactOutbound_isReadSuspended (c : IOChannel) :
    c.compactOutbound.isReadSuspended = c.isReadSuspended := by
  rw [compactOutbound]
  split_ifs <;> rfl

/-- So does writing, as long as it does not close the channel. -/
theorem flushOutbound_isReadSuspended : ∀ (writes : List SocketWrite) (c : IOChannel),
    (c.flushOutbound writes).isClosed = false →
      (c.flushOutbound writes).isReadSuspended = c.isReadSuspended
  | [], c, _ => by
      rw [flushOutbound]
      split_ifs
      · exact c.compactOutbound_isReadSuspended
      · rfl
  | write :: writes, c, hopen => by
      rw [flushOutbound.eq_def] at hopen ⊢
      dsimp only at hopen ⊢
      by_cases hlt : c.outboundOffset < c.outbound.length
      swap
      · rw [if_neg hlt]
        rfl
      rw [if_pos hlt] at hopen ⊢
      cases write with
      | wrote count => exact flushOutbound_isReadSuspended writes _ hopen
      | interrupted => exact flushOutbound_isReadSuspended writes _ hopen
      | wouldBlock => exact c.compactOutbound_isReadSuspended
      | failed =>
        dsimp only at hopen ⊢
        rw [close] at hopen ⊢
        split_ifs at hopen ⊢
        rfl

/-- **What a send comes to**: it is refused and nothing is touched, or the frame is queued. -/
theorem send_cases (c : IOChannel) (kind : Kind) (peer tag : UInt64) (object : Option XPCObject)
    (writes : List SocketWrite) :
    c.send kind peer tag object writes = (c, false) ∨
      ∃ c', c.send kind peer tag object writes = (c', true) ∧
        (c'.isClosed = false → c'.isReadSuspended = c.isReadSuspended) := by
  rw [send]
  split_ifs
  · exact .inl rfl
  cases frame kind peer tag object with
  | none => exact .inl rfl
  | some f => exact .inr ⟨_, rfl, flushOutbound_isReadSuspended writes _⟩

end IOChannel

namespace IOSupervisor

variable {s : IOSupervisor}

/-- **What a frame to the child comes to**: refused, queued, or the end of the link. -/
theorem sendFrame_cases (hopen : ∀ c, s.channel = some c → c.isClosed = false) (kind : Kind)
    (peer tag : ℕ) (object : Option XPCObject) (writes : List SocketWrite) :
    s.sendFrame kind peer tag object writes = (s, false) ∨
      (∃ c c', s.channel = some c ∧ c'.isClosed = false ∧ c'.isReadSuspended = c.isReadSuspended ∧
        s.sendFrame kind peer tag object writes = ({ s with channel := some c' }, true)) ∨
      s.sendFrame kind peer tag object writes = (s.handleLinkClosed, true) := by
  rw [sendFrame]
  cases hchannel : s.channel with
  | none => exact .inl rfl
  | some c =>
    dsimp only
    rcases c.send_cases kind (UInt64.ofNat peer) (UInt64.ofNat tag) object writes with
      hno | ⟨c', hyes, hkept⟩
    · rw [hno]
      dsimp only
      rw [if_neg (by simp [hopen c hchannel]), ← hchannel]
      exact .inl rfl
    · rw [hyes]
      dsimp only
      split_ifs with hclosed
      · exact .inr (.inr rfl)
      · have hopen' := Bool.eq_false_of_not_eq_true hclosed
        exact .inr (.inl ⟨c, c', rfl, hopen', hkept hopen', rfl⟩)

/-! ## Requests

Each request that was numbered is pending or completed, once. `hand` lists those that were taken out
and are being completed. -/

/-- The requests that wait. -/
def waiting (s : IOSupervisor) : List ℕ := s.pending.entries.map fun e => e.2.request

/-- The requests that were answered. -/
def answered (s : IOSupervisor) : List ℕ := s.completions.map Completion.request

/-- **Every request is in one place**, but for the one in hand; and it is there under its own tag,
on behalf of its own peer. -/
structure Answered (s : IOSupervisor) (hand : List ℕ) : Prop where
  isOpen : ∀ c, s.channel = some c → c.isClosed = false
  linkless : s.channel = none → s.pending = ∅
  tag_lt : ∀ r t, (r, t) ∈ s.tags → t < s.nextTag
  tag_unique : ∀ r r' t, (r, t) ∈ s.tags → (r', t) ∈ s.tags → r = r'
  pending : ∀ t e, s.pending.get? t = some e → (e.request, t) ∈ s.tags ∧
    s.askers[e.request]? = some e.peer ∧ (e.peer ∈ s.peers ∨ e.peer = supervisorPeerID)
  replied : ∀ r t, ⟨r, some t⟩ ∈ s.completions → (r, t) ∈ s.tags
  abandoned : ∀ r ∈ s.abandoned, ∃ p ∈ s.departed, s.askers[r]? = some p
  departed : ∀ p ∈ s.departed, p ∉ s.peers ∧ p ≠ supervisorPeerID
  own : supervisorPeerID ∉ s.peers
  once : ∀ r, s.answered.count r + s.waiting.count r + s.abandoned.count r + hand.count r =
    if r < s.askers.length then 1 else 0

/-- Requests one peer made and those the others made are together all requests. -/
theorem count_filter_add {α : Type} (p : α → Bool) (f : α → ℕ) (r : ℕ) : ∀ l : List α,
    ((l.filter p).map f).count r + ((l.filter fun a => !p a).map f).count r = (l.map f).count r
  | [] => rfl
  | a :: l => by
      have ih := count_filter_add p f r l
      cases hp : p a with
      | true =>
        rw [List.filter_cons_of_pos hp, List.filter_cons_of_neg (by simp [hp])]
        simp only [List.map_cons, List.count_cons]
        omega
      | false =>
        rw [List.filter_cons_of_neg (by simp [hp]), List.filter_cons_of_pos (by simp [hp])]
        simp only [List.map_cons, List.count_cons]
        omega

/-- A peer leaves, and takes its requests with it. -/
theorem Answered.forget {hand : List ℕ} (h : Answered s hand) {peer : ℕ}
    (hown : peer ≠ supervisorPeerID) : Answered (s.forget peer) hand := by
  refine ⟨h.isOpen, fun hnone => ?_, h.tag_lt, h.tag_unique, fun t e he => ?_, h.replied, ?_,
    ?_, ?_, ?_⟩
  · rw [IOSupervisor.forget, h.linkless hnone]
    rfl
  · obtain ⟨hget, hp⟩ := Dict.get?_filter.mp he
    obtain ⟨htag, hasker, hplace⟩ := h.pending t e hget
    refine ⟨htag, hasker, hplace.imp_left fun hmem => ?_⟩
    exact List.mem_filter.mpr ⟨hmem, hp⟩
  · intro r hr
    rw [IOSupervisor.forget] at hr
    rcases List.mem_append.mp hr with hold | hnew
    · obtain ⟨p, hp, hasker⟩ := h.abandoned r hold
      exact ⟨p, List.mem_append_left _ hp, hasker⟩
    · obtain ⟨e, he, rfl⟩ := List.mem_map.mp hnew
      obtain ⟨he, hep⟩ := List.mem_filter.mp he
      obtain ⟨⟨t, e⟩, hentry, rfl⟩ := List.mem_map.mp he
      obtain ⟨-, hasker, -⟩ := h.pending t e (Dict.mem_entries_iff.mp hentry)
      exact ⟨peer, List.mem_append_right _ (List.mem_singleton_self _), by
        rw [← of_decide_eq_true hep]; exact hasker⟩
  · intro p hp
    rcases List.mem_append.mp hp with hold | hnew
    · obtain ⟨hno, hne⟩ := h.departed p hold
      exact ⟨fun hmem => hno (List.mem_of_mem_filter hmem), hne⟩
    · rw [List.mem_singleton.mp hnew]
      exact ⟨fun hmem => absurd (of_decide_eq_true (List.mem_filter.mp hmem).2) (by simp), hown⟩
  · exact fun hmem => h.own (List.mem_of_mem_filter hmem)
  · intro r
    have honce := h.once r
    have hsplit := count_filter_add (fun e : ℕ × PendingReply => decide (e.2.peer = peer))
      (fun e => e.2.request) r s.pending.entries
    have hwaiting : (s.forget peer).waiting =
        (s.pending.entries.filter fun e => !decide (e.2.peer = peer)).map fun e => e.2.request := by
      show (s.pending.entries.filter fun e => decide (e.2.peer ≠ peer)).map _ = _
      simp only [ne_eq, decide_not]
    have habandoned : (s.forget peer).abandoned = s.abandoned ++
        (s.pending.entries.filter fun e => decide (e.2.peer = peer)).map fun e => e.2.request := by
      show s.abandoned ++ ((s.pending.entries.map Prod.snd).filter _).map _ = _
      rw [List.filter_map, List.map_map]
      rfl
    rw [hwaiting, habandoned, List.count_append]
    have hans : (s.forget peer).answered = s.answered := rfl
    have hask : (s.forget peer).askers = s.askers := rfl
    have hwait : s.waiting = s.pending.entries.map fun e => e.2.request := rfl
    rw [hans, hask]
    rw [hwait] at honce
    omega

/-- Forgetting every peer of a lost link keeps the books. -/
theorem Answered.foldl_forget {hand : List ℕ} :
    ∀ (peers : List ℕ) {s : IOSupervisor}, Answered s hand →
    supervisorPeerID ∉ peers → Answered (peers.foldl IOSupervisor.forget s) hand
  | [], _, h, _ => h
  | p :: peers, s, h, hown => by
      rw [List.mem_cons, not_or] at hown
      exact Answered.foldl_forget peers (h.forget (Ne.symm hown.1)) hown.2

/-- Forgetting peers does not touch the channel. -/
theorem foldl_forget_channel : ∀ (peers : List ℕ) (s : IOSupervisor),
    (peers.foldl IOSupervisor.forget s).channel = s.channel
  | [], _ => rfl
  | p :: peers, s => foldl_forget_channel peers (s.forget p)

/-- **The link is lost**: what waited is answered, and only then do the peers leave. -/
theorem Answered.handleLinkClosed {hand : List ℕ} (h : Answered s hand) :
    Answered s.handleLinkClosed hand := by
  have hfailed : Answered
      { s with
        channel := none, congestionTimers := [], inFlight := ∅, totalInFlight := 0, pending := ∅
        completions := s.completions ++
          (s.pending.entries.map Prod.snd).map fun e => Completion.mk e.request none } hand := by
    refine ⟨fun c hc => (by cases hc), fun _ => rfl, h.tag_lt, h.tag_unique,
      fun t e he => (by cases he), fun r t hr => ?_, h.abandoned, h.departed, h.own, fun r => ?_⟩
    · rcases List.mem_append.mp hr with hold | hnew
      · exact h.replied r t hold
      · obtain ⟨e, -, heq⟩ := List.mem_map.mp hnew
        cases heq
    · have honce := h.once r
      rw [answered, waiting] at honce ⊢
      rw [List.map_append, List.map_map, List.map_map, List.count_append]
      exact honce
  have hleft := hfailed.foldl_forget s.peers h.own
  rw [IOSupervisor.handleLinkClosed]
  refine ⟨hleft.isOpen, hleft.linkless, hleft.tag_lt, hleft.tag_unique, fun t e he => ?_,
    hleft.replied, hleft.abandoned, ?_, List.not_mem_nil, hleft.once⟩
  · have hempty := hleft.linkless (foldl_forget_channel _ _)
    dsimp only at he
    rw [hempty] at he
    cases he
  · exact fun p hp => ⟨List.not_mem_nil, (hleft.departed p hp).2⟩

/-- The link goes on with another state of the channel. -/
theorem Answered.withChannel {hand : List ℕ} (h : Answered s hand) {c : IOChannel}
    (hc : c.isClosed = false) : Answered { s with channel := some c } hand :=
  ⟨fun c' hc' => Option.some_inj.mp hc' ▸ hc, fun hno => (by cases hno), h.tag_lt, h.tag_unique,
    h.pending, h.replied, h.abandoned, h.departed, h.own, h.once⟩

/-- A frame is sent, or the link is lost. -/
theorem Answered.sendFrame {hand : List ℕ} (h : Answered s hand) (kind : Kind) (peer tag : ℕ)
    (object : Option XPCObject) (writes : List SocketWrite) :
    Answered (s.sendFrame kind peer tag object writes).1 hand := by
  rcases sendFrame_cases h.isOpen kind peer tag object writes with
    heq | ⟨c, c', -, hc', -, heq⟩ | heq
  · rw [heq]
    exact h
  · rw [heq]
    exact h.withChannel hc'
  · rw [heq]
    exact h.handleLinkClosed

/-- The request in hand is answered. -/
theorem Answered.complete {entry : PendingReply} (h : Answered s [entry.request]) {tag : Option ℕ}
    (htag : ∀ t, tag = some t → (entry.request, t) ∈ s.tags) (isSuccess : Bool)
    (writes : List SocketWrite) : Answered (s.complete entry tag isSuccess writes) [] := by
  have hdone : Answered { s with completions := s.completions ++ [⟨entry.request, tag⟩] } [] := by
    refine ⟨h.isOpen, h.linkless, h.tag_lt, h.tag_unique, h.pending, fun r t hr => ?_, h.abandoned,
      h.departed, h.own, fun r => ?_⟩
    · rcases List.mem_append.mp hr with hold | hnew
      · exact h.replied r t hold
      · obtain ⟨rfl, heq⟩ := Completion.mk.inj (List.mem_singleton.mp hnew)
        exact htag t heq.symm
    · have honce := h.once r
      rw [answered] at honce ⊢
      rw [List.map_append, List.count_append]
      simp only [List.map_cons, List.map_nil, List.count_nil] at honce ⊢
      rw [waiting] at honce ⊢
      dsimp only at honce ⊢
      omega
  rw [IOSupervisor.complete]
  split_ifs
  · exact hdone.sendFrame _ _ _ _ _
  · exact hdone

/-- What a list has at an index stays there when more is added. -/
theorem count_getElem_append {l : List ℕ} {r : ℕ} (peer : ℕ) {p : ℕ} (h : l[r]? = some p) :
    (l ++ [peer])[r]? = some p := by
  rw [List.getElem?_append_left (List.getElem?_eq_some_iff.mp h).1]
  exact h

/-- A request is asked: it is in hand. -/
theorem Answered.asked (h : Answered s []) (peer : ℕ) :
    Answered { s with askers := s.askers ++ [peer] } [s.askers.length] := by
  refine ⟨h.isOpen, h.linkless, h.tag_lt, h.tag_unique, fun t e he => ?_, h.replied, fun r hr => ?_,
    h.departed, h.own, fun r => ?_⟩
  · obtain ⟨htag, hasker, hplace⟩ := h.pending t e he
    exact ⟨htag, count_getElem_append peer hasker, hplace⟩
  · obtain ⟨p, hp, hasker⟩ := h.abandoned r hr
    exact ⟨p, hp, count_getElem_append peer hasker⟩
  · have honce := h.once r
    rw [List.count_nil] at honce
    rw [answered, waiting] at honce ⊢
    rw [List.length_append, List.length_singleton, List.count_singleton]
    dsimp only at honce ⊢
    rcases Nat.lt_trichotomy r s.askers.length with hlt | heq | hgt
    · rw [if_pos hlt] at honce
      rw [if_neg (by simpa using hlt.ne'), if_pos (by omega)]
      omega
    · rw [if_neg (by omega)] at honce
      rw [if_pos (by simpa using heq.symm), if_pos (by omega)]
      omega
    · rw [if_neg (by omega)] at honce
      rw [if_neg (by simpa using hgt.ne), if_neg (by omega)]
      omega

/-- The request in hand waits for its reply under a tag of its own. -/
theorem Answered.waits {entry : PendingReply} (h : Answered s [entry.request])
    (hasker : s.askers[entry.request]? = some entry.peer)
    (hpeer : entry.peer ∈ s.peers ∨ entry.peer = supervisorPeerID) {c : IOChannel}
    (hchannel : s.channel = some c) :
    Answered
      { s with
        nextTag := s.nextTag + 1
        pending := s.pending.insert s.nextTag entry
        tags := s.tags ++ [(entry.request, s.nextTag)] } [] := by
  have hfresh : s.pending.get? s.nextTag = none := by
    by_contra hsome
    obtain ⟨e, he⟩ := Option.ne_none_iff_exists'.mp hsome
    exact lt_irrefl _ (h.tag_lt _ _ (h.pending _ e he).1)
  refine ⟨h.isOpen, fun hnone => ?_, ?_, ?_, ?_, ?_, h.abandoned, h.departed, h.own, fun r => ?_⟩
  · exact absurd (hchannel.symm.trans hnone) (by simp)
  · intro r t hrt
    rcases List.mem_append.mp hrt with hold | hnew
    · exact Nat.lt_succ_of_lt (h.tag_lt r t hold)
    · obtain ⟨-, rfl⟩ := Prod.mk.inj (List.mem_singleton.mp hnew)
      exact Nat.lt_succ_self _
  · intro r r' t hrt hrt'
    rcases List.mem_append.mp hrt with hold | hnew <;>
      rcases List.mem_append.mp hrt' with hold' | hnew'
    · exact h.tag_unique r r' t hold hold'
    · obtain ⟨-, rfl⟩ := Prod.mk.inj (List.mem_singleton.mp hnew')
      exact absurd (h.tag_lt _ _ hold) (lt_irrefl _)
    · obtain ⟨-, rfl⟩ := Prod.mk.inj (List.mem_singleton.mp hnew)
      exact absurd (h.tag_lt _ _ hold') (lt_irrefl _)
    · rw [(Prod.mk.inj (List.mem_singleton.mp hnew)).1,
        (Prod.mk.inj (List.mem_singleton.mp hnew')).1]
  · intro t e he
    dsimp only at he
    rw [Dict.get?_insert] at he
    split_ifs at he with hkey
    · rw [← hkey, ← Option.some_inj.mp he]
      exact ⟨List.mem_append_right _ (List.mem_singleton_self _), hasker, hpeer⟩
    · obtain ⟨htag, hrest⟩ := h.pending t e he
      exact ⟨List.mem_append_left _ htag, hrest⟩
  · exact fun r t hr => List.mem_append_left _ (h.replied r t hr)
  · have honce := h.once r
    have hperm := s.pending.entries_insert_perm s.nextTag entry
    rw [Dict.erase_of_none hfresh] at hperm
    have hcount := (hperm.map fun e => e.2.request).count_eq r
    rw [List.map_cons, List.count_cons] at hcount
    rw [answered, waiting] at honce ⊢
    rw [List.count_singleton] at honce
    dsimp only at honce hcount ⊢
    rw [hcount, List.count_nil]
    omega

/-- A request stops waiting: it is in hand. -/
theorem Answered.taken (h : Answered s []) {t : ℕ} {e : PendingReply}
    (he : s.pending.get? t = some e) :
    Answered { s with pending := s.pending.erase t } [e.request] := by
  refine ⟨h.isOpen, fun hnone => ?_, h.tag_lt, h.tag_unique, fun t' e' he' => ?_, h.replied,
    h.abandoned, h.departed, h.own, fun r => ?_⟩
  · rw [h.linkless hnone] at he
    cases he
  · dsimp only at he'
    rw [Dict.get?_erase] at he'
    split_ifs at he'
    exact h.pending t' e' he'
  · have honce := h.once r
    have hcount := ((Dict.entries_perm he).map fun e => e.2.request).count_eq r
    rw [List.map_cons, List.count_cons] at hcount
    rw [answered, waiting] at honce ⊢
    rw [List.count_nil] at honce
    rw [List.count_singleton]
    dsimp only at honce hcount ⊢
    omega

/-- A request that is forwarded is numbered and pending, or is completed at once. -/
theorem Answered.forward (h : Answered s []) {peer : ℕ}
    (hpeer : peer ∈ s.peers ∨ peer = supervisorPeerID) (message : XPCObject)
    (wantsReply asksShutdown : Bool) (writes later : List SocketWrite) :
    Answered (s.forward peer message wantsReply asksShutdown writes later) [] := by
  have hasked : Answered { s with askers := s.askers ++ [peer] }
      [(PendingReply.mk peer s.askers.length asksShutdown).request] := h.asked peer
  have hcomposed : ∀ (s : IOSupervisor) (entry : PendingReply) t, (none : Option ℕ) = some t →
      (entry.request, t) ∈ s.tags := fun _ _ _ ht => by cases ht
  rw [IOSupervisor.forward]
  cases hchannel : s.channel with
  | none =>
    rw [hchannel] at hasked
    dsimp only
    split_ifs
    · exact hasked.complete (hcomposed _ _) _ _
    · exact h
  | some c =>
    dsimp only
    cases wantsReply with
    | false => exact h.sendFrame _ _ _ _ _
    | true =>
      rw [if_pos rfl]
      have hwaits := hasked.waits (by simp) hpeer hchannel
      rcases sendFrame_cases hwaits.isOpen .request peer s.nextTag (some message) writes with
        heq | ⟨c, c', -, hc', -, heq⟩ | heq
      · rw [← hchannel, heq]
        exact (hwaits.taken (Dict.get?_insert_self _ _ _)).complete (hcomposed _ _) _ _
      · rw [← hchannel, heq]
        exact hwaits.withChannel hc'
      · rw [← hchannel, heq]
        exact hwaits.handleLinkClosed

/-- What flow control does is none of the requests' business. -/
theorem Answered.of_flow {hand : List ℕ} (h : Answered s hand) {s' : IOSupervisor}
    (hsame : s' = { s with
      channel := s'.channel, inFlight := s'.inFlight, totalInFlight := s'.totalInFlight
      congestionTimers := s'.congestionTimers, barriers := s'.barriers, isClamped := s'.isClamped })
    (hopen : ∀ c, s'.channel = some c → c.isClosed = false)
    (hnone : s'.channel = none → s.channel = none) : Answered s' hand := by
  rw [hsame]
  exact ⟨hopen, fun hno => h.linkless (hnone hno), h.tag_lt, h.tag_unique, h.pending, h.replied,
    h.abandoned, h.departed, h.own, h.once⟩

/-- What leaves a channel's end alone leaves the link's channel open. -/
theorem map_isClosed {f : IOChannel → IOChannel} (hf : ∀ c, (f c).isClosed = c.isClosed)
    (hopen : ∀ c, s.channel = some c → c.isClosed = false) (c : IOChannel)
    (hc : s.channel.map f = some c) : c.isClosed = false := by
  obtain ⟨c₀, hc₀, rfl⟩ := Option.map_eq_some_iff.mp hc
  rw [hf]
  exact hopen c₀ hc₀

/-- Suspending does not close. -/
theorem suspendReading_isClosed (c : IOChannel) : c.suspendReading.isClosed = c.isClosed := by
  rw [IOChannel.suspendReading]
  split_ifs <;> rfl

/-- Nor does resuming. -/
theorem resumeReading_isClosed (c : IOChannel) : c.resumeReading.isClosed = c.isClosed := by
  rw [IOChannel.resumeReading]
  split_ifs <;> rfl

/-- Stopping and resuming to read concern no request. -/
theorem Answered.reconsiderReading {hand : List ℕ} (h : Answered s hand) :
    Answered s.reconsiderReading hand := by
  rw [IOSupervisor.reconsiderReading]
  split_ifs
  · exact h.of_flow rfl (map_isClosed resumeReading_isClosed h.isOpen) Option.map_eq_none_iff.mp
  · exact h

/-- Nor does output on its way. -/
theorem Answered.willSend (h : Answered s []) (byteCount peer : ℕ) :
    Answered (s.willSend byteCount peer) [] := by
  have hsuspend := map_isClosed suspendReading_isClosed h.isOpen
  rw [IOSupervisor.willSend]
  dsimp only
  split_ifs
  · exact h.of_flow rfl hsuspend Option.map_eq_none_iff.mp
  · exact h.of_flow rfl hsuspend Option.map_eq_none_iff.mp
  · exact h.of_flow rfl h.isOpen id
  · exact h.of_flow rfl h.isOpen id

/-- Nor does output that was sent. -/
theorem Answered.didSend (h : Answered s []) (byteCount peer : ℕ) :
    Answered (s.didSend byteCount peer) [] := by
  rw [IOSupervisor.didSend]
  cases s.inFlight.get? peer with
  | none => exact h
  | some current =>
    dsimp only
    have hcounted : Answered
        { s with
          inFlight := s.inFlight.insert peer (current - byteCount)
          totalInFlight := s.totalInFlight - byteCount
          isClamped := s.isClamped || decide (current < byteCount) ||
            decide (s.totalInFlight < byteCount) } [] := h.of_flow rfl h.isOpen id
    have hread := hcounted.reconsiderReading
    split_ifs
    · exact hread.of_flow rfl hread.isOpen id
    · exact hread

/-- Nor do events that are delivered. -/
theorem Answered.deliver (h : Answered s []) (peer : ℕ) (event : XPCObject) :
    Answered (s.deliver peer event) [] := by
  rw [IOSupervisor.deliver]
  dsimp only
  split_ifs
  · have hwill := h.willSend (outputByteCount event) peer
    exact hwill.of_flow rfl hwill.isOpen id
  · exact h

/-- A reply completes its own request and no other. -/
theorem Answered.handleFrame (h : Answered s []) (header : Header) (payload : List UInt8)
    (writes : List SocketWrite) : Answered (s.handleFrame header payload writes) [] := by
  rw [IOSupervisor.handleFrame]
  cases header.kind with
  | reply =>
    dsimp only
    cases hget : s.pending.get? header.tag.toNat with
    | none => exact h
    | some entry =>
      refine (h.taken hget).complete (fun t ht => ?_) _ _
      rw [← Option.some_inj.mp ht]
      exact (h.pending _ _ hget).1
  | event =>
    dsimp only
    split_ifs
    · cases IOCodec.decode payload with
      | ok event => exact h.deliver _ event
      | error _ => exact h
    · exact h
  | request => exact h
  | peerGone => exact h

/-- A connection that is cut completes what its peer waits for. -/
theorem Answered.cutConnection (h : Answered s []) (peer : ℕ) (writes : List SocketWrite) :
    Answered (s.cutConnection peer writes) [] := by
  rw [IOSupervisor.cutConnection]
  split_ifs with hmem
  · exact ((h.forget fun heq => h.own (heq ▸ hmem)).sendFrame _ _ _ _ _).reconsiderReading
  · exact h

/-- **One action keeps the books of requests.** -/
theorem Answered.step (h : Answered s []) (a : Action) : Answered (s.step a) [] := by
  cases a with
  | spawn =>
    show Answered (if s.channel.isNone then _ else s) []
    split_ifs
    · exact h.withChannel rfl
    · exact h
  | register peer =>
    show Answered (if _ then _ else s) []
    split_ifs with hfresh
    · refine ⟨h.isOpen, h.linkless, h.tag_lt, h.tag_unique, fun t e he => ?_, h.replied,
        h.abandoned, fun p hp => ?_, ?_, h.once⟩
      · obtain ⟨htag, hasker, hplace⟩ := h.pending t e he
        exact ⟨htag, hasker, hplace.imp_left (List.mem_append_left _)⟩
      · obtain ⟨hno, hne⟩ := h.departed p hp
        refine ⟨fun hmem => ?_, hne⟩
        rcases List.mem_append.mp hmem with hold | hnew
        · exact hno hold
        · exact hfresh.2.1 (List.mem_singleton.mp hnew ▸ hp)
      · intro hmem
        rcases List.mem_append.mp hmem with hold | hnew
        · exact h.own hold
        · exact hfresh.2.2 (List.mem_singleton.mp hnew).symm
    · exact h
  | forward peer message wantsReply writes later =>
    show Answered (if peer ∈ s.peers then _ else s) []
    split_ifs with hmem
    · exact h.forward (.inl hmem) _ _ _ _ _
    · exact h
  | forwardOwn message asksShutdown writes later => exact h.forward (.inr rfl) _ _ _ _ _
  | frame header payload writes =>
    show Answered (if _ then _ else s) []
    split_ifs
    · exact h.handleFrame _ _ _
    · exact h
  | didSend byteCount peer =>
    show Answered (if _ then _ else s) []
    split_ifs
    · have hran : Answered { s with barriers := s.barriers.erase (peer, byteCount) } [] :=
        h.of_flow rfl h.isOpen id
      exact hran.didSend _ _
    · exact h
  | leaves peer writes => exact h.cutConnection peer writes
  | timer peer writes =>
    show Answered (if _ then _ else s) []
    split_ifs
    · have hfired : Answered
          { s with congestionTimers := s.congestionTimers.filter fun p => p ≠ peer } [] :=
        h.of_flow rfl h.isOpen id
      exact hfired.cutConnection _ _
    · exact h
  | writable writes =>
    rw [IOSupervisor.step]
    cases hchannel : s.channel with
    | none => exact h
    | some c =>
      dsimp only
      split_ifs with harmed hclosed
      · exact h.handleLinkClosed
      · exact h.withChannel (Bool.eq_false_of_not_eq_true hclosed)
      · exact h
  | linkClosed =>
    show Answered (if _ then _ else s) []
    split_ifs
    · exact h.handleLinkClosed
    · exact h

/-! ## Output in flight

What is in flight is, for each peer, the sum of the barriers it has yet to pass. -/

/-- All the values of a dictionary. -/
def sumOf (d : Dict ℕ ℕ) : ℕ := (d.entries.map Prod.snd).sum

/-- The sum is what one key has and what all others have. -/
theorem sumOf_erase (d : Dict ℕ ℕ) (k : ℕ) : sumOf d = (d.get? k).getD 0 + sumOf (d.erase k) := by
  cases hget : d.get? k with
  | none => rw [Dict.erase_of_none hget, Option.getD_none, Nat.zero_add]
  | some v =>
    have hsum := ((Dict.entries_perm hget).map Prod.snd).sum_eq
    rw [List.map_cons, List.sum_cons] at hsum
    exact hsum

/-- A new value replaces the old one in the sum. -/
theorem sumOf_insert (d : Dict ℕ ℕ) (k v : ℕ) : sumOf (d.insert k v) = v + sumOf (d.erase k) := by
  rw [sumOf_erase _ k, Dict.get?_insert_self, Dict.erase_insert, Option.getD_some]

/-- What the barriers of `peer` will report. -/
def owed (barriers : List (ℕ × ℕ)) (peer : ℕ) : ℕ :=
  ((barriers.filter fun b => b.1 = peer).map Prod.snd).sum

/-- A barrier that is added is owed to its peer. -/
theorem owed_append (barriers : List (ℕ × ℕ)) (peer byteCount p : ℕ) :
    owed (barriers ++ [(peer, byteCount)]) p = owed barriers p +
      if peer = p then byteCount else 0 := by
  rw [owed, owed, List.filter_append, List.map_append, List.sum_append]
  split_ifs with hp
  · rw [List.filter_cons_of_pos (by simpa using hp)]
    rfl
  · rw [List.filter_cons_of_neg (by simpa using hp)]
    rfl

/-- One that is passed is owed to it no longer. -/
theorem owed_erase {barriers : List (ℕ × ℕ)} {peer byteCount : ℕ} (h : (peer, byteCount) ∈ barriers)
    (p : ℕ) :
    owed barriers p = (if peer = p then byteCount else 0) +
      owed (barriers.erase (peer, byteCount)) p := by
  have hperm := (List.perm_cons_erase h).filter fun b => decide (b.1 = p)
  have hsum := (hperm.map Prod.snd).sum_eq
  rw [owed, owed, hsum]
  split_ifs with hp
  · rw [List.filter_cons_of_pos (by simpa using hp), List.map_cons, List.sum_cons]
  · rw [List.filter_cons_of_neg (by simpa using hp), Nat.zero_add]

/-- **Every byte is counted**: the total is the peers', a peer's is its barriers', and while reading
is suspended whoever holds output has a timer. -/
structure Balanced (s : IOSupervisor) : Prop where
  total : s.totalInFlight = sumOf s.inFlight
  isClamped : s.isClamped = false
  barriers : ∀ p, p ∉ s.departed → owed s.barriers p = (s.inFlight.get? p).getD 0
  holds : ∀ p v, s.inFlight.get? p = some v → p ∈ s.peers ∧ p ∉ s.departed
  timers : ∀ c, s.channel = some c → c.isReadSuspended = true →
    ∀ p v, s.inFlight.get? p = some v → 0 < v → p ∈ s.congestionTimers

/-- A peer that is forgotten owes nothing and is owed nothing. -/
theorem Balanced.forget (h : Balanced s) (peer : ℕ) : Balanced (s.forget peer) := by
  have hsum := sumOf_erase s.inFlight peer
  have htotal := h.total
  refine ⟨?_, ?_, fun p hp => ?_, fun p v hv => ?_, fun c hc hsusp p v hv hpos => ?_⟩
  · show s.totalInFlight - _ = sumOf (s.inFlight.erase peer)
    omega
  · show (s.isClamped || decide _) = false
    rw [h.isClamped, Bool.false_or, decide_eq_false_iff_not]
    omega
  · obtain ⟨hold, hne⟩ := not_or.mp fun hor => hp (List.mem_append.mpr hor)
    have hne' : peer ≠ p := fun heq => hne (heq ▸ List.mem_singleton_self _)
    show owed s.barriers p = ((s.inFlight.erase peer).get? p).getD 0
    rw [Dict.get?_erase, if_neg hne']
    exact h.barriers p hold
  · have hv' : (s.inFlight.erase peer).get? p = some v := hv
    rw [Dict.get?_erase] at hv'
    split_ifs at hv' with hne
    obtain ⟨hmem, hno⟩ := h.holds p v hv'
    refine ⟨List.mem_filter.mpr ⟨hmem, by simpa using Ne.symm hne⟩, fun hin => ?_⟩
    rcases List.mem_append.mp hin with hold | hnew
    · exact hno hold
    · exact hne (List.mem_singleton.mp hnew).symm
  · have hv' : (s.inFlight.erase peer).get? p = some v := hv
    rw [Dict.get?_erase] at hv'
    split_ifs at hv' with hne
    exact List.mem_filter.mpr ⟨h.timers c hc hsusp p v hv' hpos, by simpa using Ne.symm hne⟩

/-- Peers that hold nothing leave. -/
theorem foldl_forget_empty :
    ∀ (peers : List ℕ) {s : IOSupervisor}, s.inFlight = ∅ → s.totalInFlight = 0 →
    (peers.foldl IOSupervisor.forget s).inFlight = ∅ ∧
      (peers.foldl IOSupervisor.forget s).totalInFlight = 0 ∧
      (peers.foldl IOSupervisor.forget s).isClamped = s.isClamped ∧
      (peers.foldl IOSupervisor.forget s).barriers = s.barriers ∧
      (peers.foldl IOSupervisor.forget s).departed = s.departed ++ peers
  | [], s, hnone, hzero => ⟨hnone, hzero, rfl, rfl, (List.append_nil _).symm⟩
  | p :: peers, s, hnone, hzero => by
      have hnone' : (s.forget p).inFlight = ∅ := by
        rw [IOSupervisor.forget, hnone]
        rfl
      have hzero' : (s.forget p).totalInFlight = 0 := by
        rw [IOSupervisor.forget, hzero]
        exact Nat.zero_sub _
      obtain ⟨h1, h2, h3, h4, h5⟩ := foldl_forget_empty peers hnone' hzero'
      refine ⟨h1, h2, h3.trans ?_, h4, h5.trans ?_⟩
      · rw [IOSupervisor.forget, hnone, hzero]
        exact Bool.or_false _
      · rw [IOSupervisor.forget, List.append_assoc]
        rfl

/-- With the link all that was in flight is gone. -/
theorem Balanced.handleLinkClosed (h : Balanced s) : Balanced s.handleLinkClosed := by
  rw [IOSupervisor.handleLinkClosed]
  dsimp only
  obtain ⟨hnone, hzero, hclamped, hbarriers, hdeparted⟩ := foldl_forget_empty s.peers
    (s := { s with
      channel := none, congestionTimers := [], inFlight := ∅, totalInFlight := 0, pending := ∅
      completions := s.completions ++
        (s.pending.entries.map Prod.snd).map fun e => Completion.mk e.request none }) rfl rfl
  have hchannel := foldl_forget_channel s.peers
    { s with
      channel := none, congestionTimers := [], inFlight := ∅, totalInFlight := 0, pending := ∅
      completions := s.completions ++
        (s.pending.entries.map Prod.snd).map fun e => Completion.mk e.request none }
  generalize s.peers.foldl IOSupervisor.forget _ =
    s' at hnone hzero hclamped hbarriers hdeparted hchannel ⊢
  refine ⟨?_, hclamped.trans h.isClamped, fun p hp => ?_, fun p v hv => ?_, fun c hc => ?_⟩
  · dsimp only
    rw [hzero, hnone]
    rfl
  · dsimp only at hp ⊢
    rw [hdeparted] at hp
    obtain ⟨hold, hpeer⟩ := not_or.mp fun hor => hp (List.mem_append.mpr hor)
    rw [hbarriers, hnone]
    refine (h.barriers p hold).trans ?_
    cases hget : s.inFlight.get? p with
    | none => rfl
    | some v => exact absurd (h.holds p v hget).1 hpeer
  · dsimp only at hv
    rw [hnone] at hv
    cases hv
  · exact absurd (hchannel.symm.trans hc) (by simp)

/-- The books do not depend on the channel, but that it may stop reading. -/
theorem Balanced.withChannel (h : Balanced s) {c c' : IOChannel} (hc : s.channel = some c)
    (hsame : c'.isReadSuspended = true → c.isReadSuspended = true) :
    Balanced { s with channel := some c' } := by
  refine ⟨h.total, h.isClamped, h.barriers, h.holds, fun c₁ hc₁ hsusp => ?_⟩
  rw [← Option.some_inj.mp hc₁] at hsusp
  exact h.timers c hc (hsame hsusp)

/-- A frame that is sent puts no output in flight. -/
theorem Balanced.sendFrame (h : Balanced s) (hopen : ∀ c, s.channel = some c → c.isClosed = false)
    (kind : Kind) (peer tag : ℕ) (object : Option XPCObject) (writes : List SocketWrite) :
    Balanced (s.sendFrame kind peer tag object writes).1 := by
  rcases sendFrame_cases hopen kind peer tag object writes with
    heq | ⟨c, c', hc, -, hkept, heq⟩ | heq
  · rw [heq]
    exact h
  · rw [heq]
    exact h.withChannel hc fun hsusp => hkept ▸ hsusp
  · rw [heq]
    exact h.handleLinkClosed

/-- What requests do is none of flow control's business. -/
theorem Balanced.of_requests (h : Balanced s) {s' : IOSupervisor}
    (hsame : s' = { s with
      pending := s'.pending, nextTag := s'.nextTag, askers := s'.askers, tags := s'.tags
      completions := s'.completions, abandoned := s'.abandoned }) : Balanced s' := by
  rw [hsame]
  exact ⟨h.total, h.isClamped, h.barriers, h.holds, h.timers⟩

/-- Nor does a request that is completed. -/
theorem Balanced.complete (h : Balanced s) (hopen : ∀ c, s.channel = some c → c.isClosed = false)
    (entry : PendingReply) (tag : Option ℕ) (isSuccess : Bool) (writes : List SocketWrite) :
    Balanced (s.complete entry tag isSuccess writes) := by
  have hdone : Balanced { s with completions := s.completions ++ [⟨entry.request, tag⟩] } :=
    h.of_requests rfl
  rw [IOSupervisor.complete]
  split_ifs
  · exact hdone.sendFrame hopen _ _ _ _ _
  · exact hdone

/-- A channel that reads no more after resuming read no more before. -/
theorem resumeReading_isReadSuspended {c : IOChannel} (h : c.resumeReading.isReadSuspended = true) :
    c.isReadSuspended = true := by
  rw [IOChannel.resumeReading] at h
  split_ifs at h
  · exact h

/-- Stopping and resuming change no sum. -/
theorem reconsiderReading_inFlight (s : IOSupervisor) :
    s.reconsiderReading.inFlight = s.inFlight := by
  rw [reconsiderReading]
  split_ifs <;> rfl

/-- Reading stops and goes on by the sum alone. -/
theorem Balanced.reconsiderReading (h : Balanced s) : Balanced s.reconsiderReading := by
  rw [IOSupervisor.reconsiderReading]
  split_ifs
  · cases hchannel : s.channel with
    | none => exact ⟨h.total, h.isClamped, h.barriers, h.holds, fun c hc => by cases hc⟩
    | some c => exact h.withChannel hchannel resumeReading_isReadSuspended
  · exact h

/-- A connection that is cut takes its output with it. -/
theorem Balanced.cutConnection (h : Balanced s)
    (hopen : ∀ c, s.channel = some c → c.isClosed = false) (peer : ℕ) (writes : List SocketWrite) :
    Balanced (s.cutConnection peer writes) := by
  rw [IOSupervisor.cutConnection]
  split_ifs
  · exact (Balanced.sendFrame (h.forget peer) hopen _ _ _ _ _).reconsiderReading
  · exact h

/-- A request puts no output in flight. -/
theorem Balanced.forward (h : Balanced s) (hopen : ∀ c, s.channel = some c → c.isClosed = false)
    (peer : ℕ) (message : XPCObject) (wantsReply asksShutdown : Bool)
    (writes later : List SocketWrite) :
    Balanced (s.forward peer message wantsReply asksShutdown writes later) := by
  rw [IOSupervisor.forward]
  cases hchannel : s.channel with
  | none =>
    have hasked : Balanced { s with askers := s.askers ++ [peer] } := h.of_requests rfl
    rw [hchannel] at hasked
    dsimp only
    split_ifs
    · exact hasked.complete (fun c hc => by cases hc) _ _ _ _
    · exact h
  | some c =>
    cases wantsReply with
    | false => exact h.sendFrame hopen _ _ _ _ _
    | true =>
      have hwaits : Balanced
          { s with
            nextTag := s.nextTag + 1
            pending := s.pending.insert s.nextTag ⟨peer, s.askers.length, asksShutdown⟩
            askers := s.askers ++ [peer]
            tags := s.tags ++ [(s.askers.length, s.nextTag)] } := h.of_requests rfl
      dsimp only
      rw [if_pos rfl, ← hchannel]
      -- refused: it is answered here; else it waits, or was answered with the link's end
      rcases sendFrame_cases (s := { s with
          nextTag := s.nextTag + 1
          pending := s.pending.insert s.nextTag ⟨peer, s.askers.length, asksShutdown⟩
          askers := s.askers ++ [peer]
          tags := s.tags ++ [(s.askers.length, s.nextTag)] }) hopen .request peer s.nextTag
            (some message)
          writes with heq | ⟨c, c', hc, hc', hkept, heq⟩ | heq
      · rw [heq]
        have herased : Balanced
            { s with
              nextTag := s.nextTag + 1
              pending :=
                (s.pending.insert s.nextTag ⟨peer, s.askers.length, asksShutdown⟩).erase s.nextTag
              askers := s.askers ++ [peer]
              tags := s.tags ++ [(s.askers.length, s.nextTag)] } := h.of_requests rfl
        exact herased.complete hopen _ _ _ _
      · rw [heq]
        exact hwaits.withChannel hc fun hsusp => hkept ▸ hsusp
      · rw [heq]
        exact hwaits.handleLinkClosed

/-- Output is handed to a peer while reading goes on. -/
theorem Balanced.deliver (h : Balanced s) {peer : ℕ} (hpeer : peer ∈ s.peers)
    (hleft : peer ∉ s.departed) (hreading : ∀ c, s.channel = some c → c.isReadSuspended = false)
    (event : XPCObject) :
    Balanced (s.deliver peer event) := by
  rw [IOSupervisor.deliver]
  dsimp only
  split_ifs with houtput
  swap
  · exact h
  generalize outputByteCount event = byteCount at houtput
  have hsum := sumOf_erase s.inFlight peer
  have htotal := h.total
  -- the books, whatever becomes of the channel and the timers
  have hbooks : ∀ channel timers, (∀ c, channel = some c → c.isReadSuspended = true →
      ∀ p v, (s.inFlight.insert peer ((s.inFlight.get? peer).getD 0 + byteCount)).get? p = some v →
        0 < v → p ∈ timers) →
      Balanced
        { s with
          channel
          congestionTimers := timers
          inFlight := s.inFlight.insert peer ((s.inFlight.get? peer).getD 0 + byteCount)
          totalInFlight := s.totalInFlight + byteCount
          barriers := s.barriers ++ [(peer, byteCount)] } := by
    intro channel timers htimers
    refine ⟨?_, h.isClamped, fun p hp => ?_, fun p v hv => ?_, htimers⟩
    · dsimp only
      rw [sumOf_insert]
      omega
    · dsimp only
      rw [owed_append, Dict.get?_insert, h.barriers p hp]
      split_ifs with heq
      · rw [heq, Option.getD_some]
      · rfl
    · dsimp only at hv
      rw [Dict.get?_insert] at hv
      split_ifs at hv with heq
      · exact heq ▸ ⟨hpeer, hleft⟩
      · exact h.holds p v hv
  have hnone : ∀ (timers : List ℕ) c, s.channel = some c → c.isReadSuspended = true →
      ∀ p v, (s.inFlight.insert peer ((s.inFlight.get? peer).getD 0 + byteCount)).get? p = some v →
        0 < v → p ∈ timers := fun timers c hc hsusp =>
    absurd (hsusp.symm.trans (hreading c hc)) (by simp)
  -- the timers that suspending starts
  have hall : ∀ p v, (s.inFlight.insert peer ((s.inFlight.get? peer).getD 0 + byteCount)).get? p =
      some v →
      0 < v → p ∈ s.congestionTimers ++
        ((s.inFlight.insert peer ((s.inFlight.get? peer).getD 0 + byteCount)).entries.filter
          fun e => e.2 > 0 ∧ e.1 ∉ s.congestionTimers).map Prod.fst := by
    intro p v hv hpos
    by_cases hin : p ∈ s.congestionTimers
    · exact List.mem_append_left _ hin
    · refine List.mem_append_right _ (List.mem_map.mpr ⟨(p, v), List.mem_filter.mpr ⟨?_, ?_⟩, rfl⟩)
      · exact Dict.mem_entries_iff.mpr hv
      · exact decide_eq_true ⟨hpos, hin⟩
  rw [willSend]
  dsimp only
  split_ifs with hpause hcongested hcongested
  · exact hbooks _ _ fun _ _ _ p v hv hpos => List.mem_append_left _ (hall p v hv hpos)
  · exact hbooks _ _ fun _ _ _ p v hv hpos => hall p v hv hpos
  · exact hbooks _ _ (hnone _)
  · exact hbooks _ _ (hnone _)

/-- A barrier runs, and what it reports is taken off. -/
theorem Balanced.didSend (h : Balanced s) {peer byteCount : ℕ}
    (hmem : (peer, byteCount) ∈ s.barriers) :
    Balanced
      ({ s with barriers := s.barriers.erase (peer, byteCount) }.didSend byteCount peer) := by
  have howed := owed_erase hmem
  rw [IOSupervisor.didSend]
  cases hget : s.inFlight.get? peer with
  | none =>
    refine ⟨h.total, h.isClamped, fun p hp => ?_, h.holds, h.timers⟩
    have hp' := h.barriers p hp
    have := howed p
    dsimp only
    split_ifs at this with heq
    · rw [← heq, hget, Option.getD_none] at hp' ⊢
      rw [← heq] at this
      omega
    · omega
  | some current =>
    have hcurrent := h.barriers peer (h.holds peer current hget).2
    have hself := howed peer
    rw [if_pos rfl] at hself
    rw [hget, Option.getD_some] at hcurrent
    have hsum := sumOf_erase s.inFlight peer
    rw [hget, Option.getD_some] at hsum
    have htotal := h.total
    have hcounted : Balanced
        { s with
          barriers := s.barriers.erase (peer, byteCount)
          inFlight := s.inFlight.insert peer (current - byteCount)
          totalInFlight := s.totalInFlight - byteCount
          isClamped := s.isClamped || decide (current < byteCount) ||
            decide (s.totalInFlight < byteCount) } := by
      refine ⟨?_, ?_, fun p hp => ?_, fun p v hv => ?_, fun c hc hsusp p v hv hpos => ?_⟩
      · dsimp only
        rw [sumOf_insert]
        omega
      · dsimp only
        rw [h.isClamped, Bool.false_or, Bool.or_eq_false_iff, decide_eq_false_iff_not,
          decide_eq_false_iff_not]
        omega
      · have hp' := h.barriers p hp
        have := howed p
        dsimp only
        rw [Dict.get?_insert]
        split_ifs at this ⊢ with heq
        · rw [← heq, Option.getD_some]
          omega
        · omega
      · dsimp only at hv
        rw [Dict.get?_insert] at hv
        split_ifs at hv with heq
        · exact heq ▸ h.holds peer current hget
        · exact h.holds p v hv
      · dsimp only at hv
        rw [Dict.get?_insert] at hv
        split_ifs at hv with heq
        · have hheld : 0 < current := by
            rw [← Option.some_inj.mp hv] at hpos
            omega
          exact heq ▸ h.timers c hc hsusp peer current hget hheld
        · exact h.timers c hc hsusp p v hv hpos
    have hread := hcounted.reconsiderReading
    dsimp only
    split_ifs with hcancel
    swap
    · exact hread
    refine ⟨hread.total, hread.isClamped, hread.barriers, hread.holds,
      fun c hc hsusp p v hv hpos => ?_⟩
    refine List.mem_filter.mpr ⟨hread.timers c hc hsusp p v hv hpos, decide_eq_true fun heq => ?_⟩
    -- while reading is suspended a timer goes only with the last of the output
    rcases hcancel with hzero | ⟨-, hnot⟩
    · rw [heq, reconsiderReading_inFlight] at hv
      dsimp only at hv
      rw [Dict.get?_insert_self, hzero] at hv
      rw [← Option.some_inj.mp hv] at hpos
      exact lt_irrefl 0 hpos
    · exact hnot (by rw [hc, Option.map_some, hsusp])

/-- A timer goes, and with it the peer it was for. -/
theorem Balanced.timer (h : Balanced s) (hopen : ∀ c, s.channel = some c → c.isClosed = false)
    (peer : ℕ) (writes : List SocketWrite) :
    Balanced
      ({ s with congestionTimers := s.congestionTimers.filter fun p => p ≠ peer }.cutConnection
      peer writes) := by
  rw [IOSupervisor.cutConnection]
  split_ifs with hmem
  · have hsame :
        { s with congestionTimers := s.congestionTimers.filter fun p => p ≠ peer }.forget peer =
        s.forget peer := by
      simp only [IOSupervisor.forget, List.filter_filter, Bool.and_self]
    rw [peerGone, hsame]
    exact (Balanced.sendFrame (h.forget peer) hopen _ _ _ _ _).reconsiderReading
  · refine ⟨h.total, h.isClamped, h.barriers, h.holds, fun c hc hsusp p v hv hpos => ?_⟩
    refine List.mem_filter.mpr ⟨h.timers c hc hsusp p v hv hpos, decide_eq_true fun heq => ?_⟩
    exact hmem (heq ▸ (h.holds p v hv).1)

/-- A channel that does read is not suspended. -/
theorem run_reading (h : s.channel.map IOChannel.isReadSuspended = some false) (c : IOChannel)
    (hc : s.channel = some c) : c.isReadSuspended = false := by
  rw [hc, Option.map_some, Option.some_inj] at h
  exact h

/-- **One action keeps the books of output.** -/
theorem Balanced.step (h : Balanced s) (ha : Answered s []) (a : Action) : Balanced (s.step a) := by
  cases a with
  | spawn =>
    show Balanced (if s.channel.isNone then _ else s)
    split_ifs
    · refine ⟨h.total, h.isClamped, h.barriers, h.holds, fun c hc hsusp => ?_⟩
      rw [← Option.some_inj.mp hc] at hsusp
      cases hsusp
    · exact h
  | register peer =>
    show Balanced (if _ then _ else s)
    split_ifs
    · refine ⟨h.total, h.isClamped, h.barriers, fun p v hv => ?_, h.timers⟩
      exact (h.holds p v hv).imp_left (List.mem_append_left _)
    · exact h
  | forward peer message wantsReply writes later =>
    show Balanced (if peer ∈ s.peers then _ else s)
    split_ifs
    · exact h.forward ha.isOpen _ _ _ _ _ _
    · exact h
  | forwardOwn message asksShutdown writes later => exact h.forward ha.isOpen _ _ _ _ _ _
  | frame header payload writes =>
    show Balanced (if _ then _ else s)
    split_ifs with hreading
    swap
    · exact h
    rw [handleFrame]
    cases header.kind with
    | reply =>
      dsimp only
      cases s.pending.get? header.tag.toNat with
      | none => exact h
      | some entry =>
        have htaken : Balanced { s with pending := s.pending.erase header.tag.toNat } :=
          h.of_requests rfl
        exact htaken.complete ha.isOpen _ _ _ _
    | event =>
      dsimp only
      split_ifs with hpeer
      · cases IOCodec.decode payload with
        | ok event =>
          exact h.deliver hpeer (fun hleft => (ha.departed _ hleft).1 hpeer)
            (run_reading hreading) event
        | error _ => exact h
      · exact h
    | request => exact h
    | peerGone => exact h
  | didSend byteCount peer =>
    show Balanced (if _ then _ else s)
    split_ifs with hmem
    · exact h.didSend hmem
    · exact h
  | leaves peer writes => exact h.cutConnection ha.isOpen peer writes
  | timer peer writes =>
    show Balanced (if _ then _ else s)
    split_ifs with hmem
    · exact h.timer ha.isOpen peer writes
    · exact h
  | writable writes =>
    rw [IOSupervisor.step]
    cases hchannel : s.channel with
    | none => exact h
    | some c =>
      dsimp only
      split_ifs with harmed hclosed
      · exact h.handleLinkClosed
      · refine h.withChannel hchannel fun hsusp => ?_
        rw [← IOChannel.flushOutbound_isReadSuspended writes c
          (Bool.eq_false_of_not_eq_true hclosed)]
        exact hsusp
      · exact h
  | linkClosed =>
    show Balanced (if _ then _ else s)
    split_ifs
    · exact h.handleLinkClosed
    · exact h

def run (actions : List Action) : IOSupervisor := Run.after step {} actions

/-- **Both books are kept over every run.** -/
theorem run_accounted (actions : List Action) :
    Answered (run actions) [] ∧ Balanced (run actions) := by
  refine Run.invariant (I := fun s => Answered s [] ∧ Balanced s)
    (fun s a h => ⟨h.1.step a, h.2.step h.1 a⟩) actions ⟨?_, ?_⟩
  · exact ⟨fun c hc => (by cases hc), fun _ => rfl, fun r t h => (by cases h),
      fun r r' t h => (by cases h), fun t e h => (by cases h), fun r t h => (by cases h),
      fun r h => (by cases h), fun p h => (by cases h), List.not_mem_nil, fun r => rfl⟩
  · exact ⟨rfl, rfl, fun p _ => rfl, fun p v h => (by cases h), fun c hc => (by cases hc)⟩

/-! ### Tags

The source counts tags in 64 bits and lets them come round; here they are natural numbers.  In a run
of fewer than `2 ^ 64` steps the two are the same. -/

theorem nextTag_foldl_forget : ∀ (peers : List ℕ) (s : IOSupervisor),
    (peers.foldl IOSupervisor.forget s).nextTag = s.nextTag
  | [], _ => rfl
  | p :: peers, s => nextTag_foldl_forget peers (s.forget p)

@[simp] theorem nextTag_handleLinkClosed : s.handleLinkClosed.nextTag = s.nextTag :=
  nextTag_foldl_forget _ _

@[simp] theorem nextTag_sendFrame (kind : Kind) (peer tag : ℕ) (object : Option XPCObject)
    (writes : List SocketWrite) :
    (s.sendFrame kind peer tag object writes).1.nextTag = s.nextTag := by
  rw [sendFrame]
  cases s.channel with
  | none => rfl
  | some channel =>
    dsimp only
    split_ifs
    · exact nextTag_handleLinkClosed
    · rfl

@[simp] theorem nextTag_reconsiderReading : s.reconsiderReading.nextTag = s.nextTag := by
  rw [reconsiderReading]
  split_ifs <;> rfl

@[simp] theorem nextTag_cutConnection (peer : ℕ) (writes : List SocketWrite) :
    (s.cutConnection peer writes).nextTag = s.nextTag := by
  rw [cutConnection]
  split_ifs
  · rw [peerGone, nextTag_reconsiderReading, nextTag_sendFrame]
    rfl
  · rfl

@[simp] theorem nextTag_complete (entry : PendingReply) (tag : Option ℕ) (isSuccess : Bool)
    (writes : List SocketWrite) : (s.complete entry tag isSuccess writes).nextTag = s.nextTag := by
  rw [complete]
  split_ifs
  · exact nextTag_sendFrame _ _ _ _ _
  · rfl

@[simp] theorem nextTag_willSend (byteCount peer : ℕ) :
    (s.willSend byteCount peer).nextTag = s.nextTag := by
  rw [willSend]
  dsimp only
  split_ifs <;> rfl

@[simp] theorem nextTag_didSend (byteCount peer : ℕ) :
    (s.didSend byteCount peer).nextTag = s.nextTag := by
  rw [didSend]
  cases s.inFlight.get? peer with
  | none => rfl
  | some current =>
    dsimp only
    split_ifs <;> simp

@[simp] theorem nextTag_handleFrame (header : Header) (payload : List UInt8)
    (writes : List SocketWrite) :
    (s.handleFrame header payload writes).nextTag = s.nextTag := by
  rw [handleFrame]
  split
  · split
    · rfl
    · simp
  · split_ifs
    · split
      · rw [deliver]
        dsimp only
        split_ifs
        · exact nextTag_willSend _ _
        · rfl
      · rfl
    · rfl
  · rfl
  · rfl

/-- A request that is forwarded takes one tag. -/
theorem nextTag_forward_le (peer : ℕ) (message : XPCObject) (wantsReply asksShutdown : Bool)
    (writes later : List SocketWrite) :
    (s.forward peer message wantsReply asksShutdown writes later).nextTag ≤ s.nextTag + 1 := by
  rw [forward]
  cases s.channel with
  | none =>
    dsimp only
    split_ifs
    · rw [nextTag_complete]
      exact Nat.le_succ _
    · exact Nat.le_succ _
  | some channel =>
    dsimp only
    split_ifs
    · rw [nextTag_sendFrame]
    · rw [nextTag_complete]
      dsimp only
      rw [nextTag_sendFrame]
    · rw [nextTag_sendFrame]
      exact Nat.le_succ _

/-- An action takes one tag at most. -/
theorem nextTag_step_le (a : Action) : (s.step a).nextTag ≤ s.nextTag + 1 := by
  have hsame : ∀ {s' : IOSupervisor}, s'.nextTag = s.nextTag → s'.nextTag ≤ s.nextTag + 1 :=
    fun h => h.le.trans (Nat.le_succ _)
  cases a with
  | spawn | register peer =>
    rw [step]
    split_ifs <;> exact hsame rfl
  | forward peer message wantsReply writes later =>
    rw [step]
    split_ifs
    · exact nextTag_forward_le _ _ _ _ _ _
    · exact hsame rfl
  | forwardOwn message asksShutdown writes later => exact nextTag_forward_le _ _ _ _ _ _
  | frame header payload writes =>
    rw [step]
    split_ifs
    · exact hsame (nextTag_handleFrame _ _ _)
    · exact hsame rfl
  | didSend byteCount peer =>
    rw [step]
    split_ifs
    · exact hsame (nextTag_didSend _ _)
    · exact hsame rfl
  | leaves peer writes => exact hsame (nextTag_cutConnection _ _)
  | timer peer writes =>
    rw [step]
    split_ifs
    · exact hsame (nextTag_cutConnection _ _)
    · exact hsame rfl
  | writable writes =>
    rw [step]
    cases s.channel with
    | none => exact hsame rfl
    | some channel =>
      dsimp only
      split_ifs
      · exact hsame nextTag_handleLinkClosed
      · exact hsame rfl
      · exact hsame rfl
  | linkClosed =>
    rw [step]
    split_ifs
    · exact hsame nextTag_handleLinkClosed
    · exact hsame rfl

/-- So tags are bounded by the number of actions. -/
theorem nextTag_after_le : ∀ (actions : List Action) (s : IOSupervisor),
    (Run.after step s actions).nextTag ≤ s.nextTag + actions.length
  | [], _ => le_rfl
  | a :: actions, s => by
    have hstep := @nextTag_step_le s a
    have hrest := nextTag_after_le actions (s.step a)
    rw [Run.after_cons, List.length_cons]
    omega

/-- **Tags do not come round** in fewer than `2 ^ 64` steps. -/
theorem toNat_tag {actions : List Action} (hshort : actions.length < 2 ^ 64) {r t : ℕ}
    (htag : (r, t) ∈ (run actions).tags) : (UInt64.ofNat t).toNat = t := by
  have hlt := (run_accounted actions).1.tag_lt r t htag
  have hle : (run actions).nextTag ≤ 1 + actions.length := nextTag_after_le actions {}
  exact UInt64.toNat_ofNat_of_lt' (by rw [UInt64.size]; omega)

/-- Forgetting peers completes nothing. -/
theorem foldl_forget_completions : ∀ (peers : List ℕ) (s : IOSupervisor),
    (peers.foldl IOSupervisor.forget s).completions = s.completions
  | [], _ => rfl
  | p :: peers, s => foldl_forget_completions peers (s.forget p)

/-- A reply that comes for a request that waits answers it. -/
theorem Answered.handleFrame_reply (h : Answered s []) {header : Header} {e : PendingReply}
    (hkind : header.kind = .reply) (he : s.pending.get? header.tag.toNat = some e)
    (payload : List UInt8) (writes : List SocketWrite) :
    e.request ∈ (s.handleFrame header payload writes).answered := by
  rw [IOSupervisor.handleFrame, hkind, he]
  dsimp only
  rw [IOSupervisor.complete]
  have hdone : e.request ∈
      (s.completions ++ [Completion.mk e.request (some header.tag.toNat)]).map
        Completion.request := by
    simp
  generalize s.completions ++ [Completion.mk e.request (some header.tag.toNat)] =
    completions at hdone ⊢
  split_ifs
  · rcases sendFrame_cases
      (s := { s with pending := s.pending.erase header.tag.toNat, completions })
      h.isOpen .peerGone supervisorPeerID 0 none writes with heq | ⟨c, c', -, -, -, heq⟩ | heq
    · rw [heq]
      exact hdone
    · rw [heq]
      exact hdone
    · rw [heq, answered, IOSupervisor.handleLinkClosed]
      dsimp only
      rw [foldl_forget_completions, List.map_append]
      exact List.mem_append_left _ hdone
  · exact hdone

/-- **Every request is answered once and every byte is counted.**  Of each request that wants a
reply one thing is true: it was answered, once; or it waits, on a link that is up and for a peer
that is there; or its peer left first, and it never is.  A reply answers the request it was asked
under.  The total is the sum of the peers', never cut off at zero; and while reading is suspended,
every peer that holds output has a timer running. -/
theorem run_replies_and_flow (actions : List Action) :
    let s := run actions
    (∀ header e payload writes, header.kind = .reply → s.pending.get? header.tag.toNat = some e →
        e.request ∈ (s.handleFrame header payload writes).answered) ∧
      (∀ r, r < s.askers.length →
        s.answered.count r + s.waiting.count r + s.abandoned.count r = 1) ∧
      (∀ r, s.askers.length ≤ r → r ∉ s.answered) ∧
      (s.channel = none → s.waiting = []) ∧
      (∀ t e, s.pending.get? t = some e → s.askers[e.request]? = some e.peer ∧
        e.peer ∉ s.departed) ∧
      (∀ r ∈ s.abandoned, ∃ p ∈ s.departed, s.askers[r]? = some p) ∧
      (∀ r t, ⟨r, some t⟩ ∈ s.completions → (r, t) ∈ s.tags ∧ ∀ r', (r', t) ∈ s.tags → r' = r) ∧
      s.totalInFlight = sumOf s.inFlight ∧ s.isClamped = false ∧
      (∀ c, s.channel = some c → c.isReadSuspended = true →
        ∀ p v, s.inFlight.get? p = some v → 0 < v → p ∈ s.congestionTimers) := by
  obtain ⟨ha, hb⟩ := run_accounted actions
  refine ⟨fun header e payload writes hkind he => ha.handleFrame_reply hkind he payload writes,
    fun r hr => ?_, fun r hr hmem => ?_, fun hnone => ?_, fun t e he => ?_, ha.abandoned,
    fun r t hr => ?_, hb.total, hb.isClamped, hb.timers⟩
  · have honce := ha.once r
    rw [List.count_nil, if_pos hr] at honce
    exact honce
  · have honce := ha.once r
    rw [if_neg (not_lt.mpr hr)] at honce
    have hpos := List.count_pos_iff.mpr hmem
    omega
  · rw [waiting, ha.linkless hnone]
    rfl
  · obtain ⟨-, hasker, hplace⟩ := ha.pending t e he
    refine ⟨hasker, fun hleft => ?_⟩
    obtain ⟨hno, hne⟩ := ha.departed _ hleft
    exact hplace.elim hno hne
  · have htag := ha.replied r t hr
    exact ⟨htag, fun r' hr' => ha.tag_unique r' r t hr' htag⟩

end IOSupervisor
