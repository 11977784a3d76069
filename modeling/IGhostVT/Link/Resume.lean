import IGhostVT.Link.HostStreams

/-!
# Link/Resume — a resumed session has neither a gap nor a duplicate

What the terminal was fed since its last rebuild is one stretch of the session's output, and the
position kept across links is its end.  The invariant adds what is on its way: a request nobody has
read, an answer with the output behind it, or the output that goes on where the position stands.

An attach answered with a rebuild too long for a message breaks it: the bytes are not fed, and the
position moves all the same.
-/

open SessionOutputLog IOHost

/-- What is held is one stretch of `stream`. -/
def Held.Slice (held : Held) (stream : List UInt8) : Prop :=
  held.base ≤ stream.length ∧ held.bytes <+: stream.drop held.base

theorem Held.Slice.feed {held : Held} {stream data : List UInt8} (h : held.Slice stream)
    (hdata : data <+: stream.drop (held.base + held.bytes.length)) :
    Held.Slice { held with bytes := held.bytes ++ data } stream := by
  obtain ⟨hbase, rest, hrest⟩ := h
  refine ⟨hbase, ?_⟩
  rw [← List.drop_drop, ← hrest, List.drop_left] at hdata
  rw [← hrest]
  exact (List.prefix_append_right_inj _).mpr hdata

namespace System

/-- **What the terminal holds is one stretch of a session's output, and the stored position is the
offset behind its last byte.** -/
def Exact (s : System) : Prop :=
  match s.client.held with
  | none => s.client.outputPosition.sessionID = none
  | some held =>
    held.Slice (s.host.printed held.session) ∧
      s.client.outputPosition = ⟨some held.session, held.base + held.bytes.length⟩

/-- A request is out, or its answer is on its way, or neither will ever arrive. -/
structure Asking (s : System) (link : ℕ) (isRequest : Request → Prop)
    (isAnswer : Reply → List Frame → Prop) : Prop where
  sessionID : s.client.sessionID = none
  wire : (∃ request, s.client.sent link = [request] ∧ isRequest request ∧ s.host.Idle link) ∨
    s.client.sent link = [] ∧ (s.host.Idle link ∨
      ∃ reply frames, s.host.sent link = .reply reply :: frames ∧ isAnswer reply frames)

/-- The transport's current link, by what it waits for. -/
def Phase (s : System) (link : ℕ) : Prop :=
  let position := s.client.outputPosition
  match s.client.pending with
  | none => ∃ id, s.client.sessionID = some id ∧ position.sessionID = some id ∧
      s.client.sent link = [] ∧ s.host.Streams link id position.offset (s.host.sent link)
  | some (.retry _) => s.client.sessionID = none ∧ s.client.sent link = [] ∧ s.host.Idle link
  | some (.attach id _) => s.Asking link
      (fun request => ∃ takeover holder, request =
        .attachSession id (position.offsetIn id) takeover holder)
      (s.host.AttachAnswer link id (position.offsetIn id))
  | some .opening => s.Asking link (fun request => ∃ holder, request = .openSession holder)
      (s.host.OpenAnswer link)

/-- What holds whatever the transport waits for. -/
structure Core (s : System) : Prop where
  host : s.host.Sound
  exact : s.Exact
  fresh : ∀ link, s.client.nextLink ≤ link → s.client.sent link = [] ∧ s.host.Idle link

structure Invariant (s : System) : Prop extends Core s where
  disconnected : s.client.connection = none → s.client.sessionID = none
  current : ∀ link, s.client.connection = some link → link < s.client.nextLink ∧ s.Phase link

variable {s : System} {link : ℕ}

theorem invariant_start (isRemote : Bool) (holder : Option String) (resumeSessionID : Option ℕ) :
    Invariant (start isRemote holder resumeSessionID) where
  host := ⟨(nomatch ·), fun _ _ => ⟨rfl, rfl⟩, (nomatch ·)⟩
  exact := rfl
  fresh _ _ := ⟨rfl, rfl, fun _ => (nomatch ·)⟩
  disconnected _ := rfl
  current _ h := nomatch h

/-! ## Steps of the host -/

/-- More output leaves what is held what it was. -/
theorem Exact.grow {host' : IOHost} (h : s.Exact)
    (hprinted : ∀ i, s.host.printed i <+: host'.printed i) : Exact { s with host := host' } := by
  rw [Exact] at h ⊢
  dsimp only
  split
  case h_1 hheld => rwa [hheld] at h
  case h_2 held hheld =>
    rw [hheld] at h
    obtain ⟨⟨hbase, hbytes⟩, hposition⟩ := h
    refine ⟨⟨hbase.trans (hprinted held.session).length_le, ?_⟩, hposition⟩
    obtain ⟨rest, hrest⟩ := hprinted held.session
    rw [← hrest, List.drop_append_of_le_length hbase]
    exact hbytes.trans (List.prefix_append _ _)

theorem Asking.follows {host' : IOHost} {more : List Frame} {isRequest : Request → Prop}
    {isAnswer isAnswer' : Reply → List Frame → Prop} (h : s.Asking link isRequest isAnswer)
    (hf : Follows link more s.host host')
    (ha : ∀ reply frames, isAnswer reply frames → isAnswer' reply (frames ++ more)) :
    Asking { s with host := host' } link isRequest isAnswer' := by
  refine ⟨h.sessionID, ?_⟩
  obtain ⟨request, hsent, hrequest, hidle⟩ | ⟨hsent, hidle | ⟨reply, frames, hframes, hanswer⟩⟩ :=
    h.wire
  · exact Or.inl ⟨request, hsent, hrequest, hf.idle hidle⟩
  · exact Or.inr ⟨hsent, Or.inl (hf.idle hidle)⟩
  · exact Or.inr ⟨hsent, Or.inr ⟨reply, frames ++ more, by rw [hf.sent, hframes]; rfl,
      ha reply frames hanswer⟩⟩

/-- **A step of the host that is not the link's own keeps its phase.** -/
theorem Phase.follows {host' : IOHost} {more : List Frame} (h : s.Phase link)
    (hf : Follows link more s.host host') : Phase { s with host := host' } link := by
  rw [Phase] at h ⊢
  dsimp only at h ⊢
  split
  case h_1 hpending =>
    rw [hpending] at h
    obtain ⟨id, hid, hposition, hsent, hstreams⟩ := h
    exact ⟨id, hid, hposition, hsent, by rw [hf.sent]; exact hf.streams hstreams⟩
  case h_2 hpending =>
    rw [hpending] at h
    exact ⟨h.1, h.2.1, hf.idle h.2.2⟩
  case h_3 hpending =>
    rw [hpending] at h
    exact h.follows hf fun _ _ => hf.attachAnswer
  case h_4 hpending =>
    rw [hpending] at h
    exact h.follows hf fun _ _ => hf.openAnswer

/-- **Nobody's request: every link's view goes on.** -/
theorem Invariant.follows {host' : IOHost} (h : s.Invariant) (hsound : host'.Sound)
    (hf : ∀ link, ∃ more, Follows link more s.host host') : Invariant { s with host := host' } where
  host := hsound
  exact := h.exact.grow fun i => (hf 0).choose_spec.printed i
  fresh link hlink := by
    obtain ⟨more, hmore⟩ := hf link
    exact ⟨(h.fresh link hlink).1, hmore.idle (h.fresh link hlink).2⟩
  disconnected := h.disconnected
  current link hlink := by
    obtain ⟨more, hmore⟩ := hf link
    exact ⟨(h.current link hlink).1, (h.current link hlink).2.follows hmore⟩

/-- Requests that will not be read are as good as lost. -/
theorem Phase.sent {sent : ℕ → List Request} (h : s.Phase link)
    (hsent : sent link = s.client.sent link ∨ sent link = []) :
    Phase { s with client := { s.client with sent := sent } } link := by
  have hasking : ∀ {isRequest isAnswer}, s.Asking link isRequest isAnswer →
      Asking { s with client := { s.client with sent := sent } } link isRequest isAnswer := by
    intro isRequest isAnswer ha
    refine ⟨ha.sessionID, ?_⟩
    obtain hsent | hsent := hsent
    · dsimp only
      rw [hsent]
      exact ha.wire
    · obtain ⟨_, _, _, hidle⟩ | ⟨_, hwire⟩ := ha.wire
      · exact Or.inr ⟨hsent, Or.inl hidle⟩
      · exact Or.inr ⟨hsent, hwire⟩
  have hnone : s.client.sent link = [] → sent link = [] := fun h => by
    obtain hsent | hsent := hsent
    · rw [hsent, h]
    · exact hsent
  rw [Phase] at h ⊢
  dsimp only at h ⊢
  split
  case h_1 hpending =>
    rw [hpending] at h
    obtain ⟨id, hid, hposition, hempty, hstreams⟩ := h
    exact ⟨id, hid, hposition, hnone hempty, hstreams⟩
  case h_2 hpending =>
    rw [hpending] at h
    exact ⟨h.1, hnone h.2.1, h.2.2⟩
  case h_3 hpending =>
    rw [hpending] at h
    exact hasking h
  case h_4 hpending =>
    rw [hpending] at h
    exact hasking h

theorem Invariant.hostLoses (h : s.Invariant) (lost : ℕ) :
    Invariant (s.step (.hostLoses lost)) := by
  have hf := h.follows (h.host.invalidate lost) fun link => ⟨[], follows_invalidate lost⟩
  have hsent : ∀ link, Function.update s.client.sent lost [] link = s.client.sent link ∨
      Function.update s.client.sent lost [] link = [] := fun link => by
    by_cases hlink : link = lost
    · exact Or.inr (by rw [hlink, Function.update_self])
    · exact Or.inl (Function.update_of_ne hlink _ _)
  refine ⟨⟨hf.host, hf.exact, fun link hlink => ⟨?_, (hf.fresh link hlink).2⟩⟩, h.disconnected,
    fun link hlink => ?_⟩
  · obtain hsame | hempty := hsent link
    · exact hsame.trans (hf.fresh link hlink).1
    · exact hempty
  · exact ⟨(hf.current link hlink).1, (hf.current link hlink).2.sent (hsent link)⟩

/-- The host reads a request of the link's and answers it. -/
theorem Phase.answered {request : Request} {requests : List Request} (h : s.Phase link)
    (hsound : s.host.Sound) (hsent : s.client.sent link = request :: requests) (spawns : Bool)
    {sent : ℕ → List Request} (hrest : sent link = requests) :
    Phase ⟨s.host.handle link spawns request, { s.client with sent := sent }⟩ link := by
  have hout : ∀ {isRequest isAnswer}, s.Asking link isRequest isAnswer →
      requests = [] ∧ isRequest request ∧ s.host.Idle link := by
    intro isRequest isAnswer ha
    obtain ⟨out, hout, hrequest, hidle⟩ | ⟨hempty, _⟩ := ha.wire
    · rw [hsent, List.cons.injEq] at hout
      obtain ⟨rfl, rfl⟩ := hout
      exact ⟨rfl, hrequest, hidle⟩
    · rw [hsent] at hempty
      cases hempty
  rw [Phase] at h ⊢
  dsimp only at h ⊢
  split
  case h_1 hpending =>
    rw [hpending] at h
    obtain ⟨_, _, _, hempty, _⟩ := h
    rw [hsent] at hempty
    cases hempty
  case h_2 hpending =>
    rw [hpending] at h
    rw [hsent] at h
    cases h.2.1
  case h_3 id _ hpending =>
    rw [hpending] at h
    obtain ⟨rfl, ⟨takeover, holder, rfl⟩, hidle⟩ := hout h
    obtain ⟨reply, hreply, hanswer⟩ := @attachSession_answer s.host link id hsound hidle
      (s.client.outputPosition.offsetIn id) takeover holder
    exact ⟨h.sessionID, Or.inr ⟨hrest, Or.inr ⟨reply, [], hreply, hanswer⟩⟩⟩
  case h_4 hpending =>
    rw [hpending] at h
    obtain ⟨rfl, ⟨holder, rfl⟩, hidle⟩ := hout h
    obtain ⟨reply, hreply, hanswer⟩ := openSession_answer hsound hidle holder spawns
    exact ⟨h.sessionID, Or.inr ⟨hrest, Or.inr ⟨reply, [], hreply, hanswer⟩⟩⟩

theorem Invariant.hostReceives (h : s.Invariant) (link : ℕ) (spawns : Bool) :
    Invariant (s.step (.hostReceives link spawns)) := by
  rw [step]
  split
  case h_2 => exact h
  case h_1 request requests hsent =>
    split
    case isFalse => exact h
    case isTrue hvalid =>
      have hother : ∀ l, l ≠ link →
          Function.update s.client.sent link requests l = s.client.sent l :=
        fun l hl => Function.update_of_ne hl _ _
      have hfresh : ∀ l, s.client.nextLink ≤ l → l ≠ link := by
        rintro l hl rfl
        rw [(h.fresh l hl).1] at hsent
        cases hsent
      refine ⟨⟨h.host.handle hvalid spawns request, ?_, fun l hl => ?_⟩, h.disconnected,
        fun l hl => ?_⟩
      · obtain ⟨more, hmore⟩ := @follows_handle s.host (link + 1) link (by omega) spawns request
        exact h.exact.grow hmore.printed
      · obtain ⟨more, hmore⟩ := @follows_handle s.host l link (hfresh l hl) spawns request
        exact ⟨(hother l (hfresh l hl)).trans (h.fresh l hl).1, hmore.idle (h.fresh l hl).2⟩
      · obtain ⟨hlt, hphase⟩ := h.current l hl
        refine ⟨hlt, ?_⟩
        by_cases heq : l = link
        · subst heq
          exact hphase.answered h.host hsent spawns (Function.update_self ..)
        · obtain ⟨more, hmore⟩ := @follows_handle s.host l link heq spawns request
          exact (hphase.follows hmore).sent (Or.inl (hother l heq))

/-! ## Steps of the transport -/

/-- A link with nothing asked on it yet. -/
structure Ready (s : System) (link : ℕ) : Prop where
  connection : s.client.connection = some link
  lt : link < s.client.nextLink
  sessionID : s.client.sessionID = none
  sent : s.client.sent link = []
  idle : s.host.Idle link

/-- A request put on a ready link, and nothing else changed. -/
theorem Core.asks {client : XPCDaemonTransport} {request : Request} (h : s.Core) (hr : s.Ready link)
    (hclient : ∃ pending, client = { s.client.send link request with pending := some pending })
    (hphase : client.sent link = [request] → Phase { s with client } link) :
    Invariant { s with client } := by
  obtain ⟨pending, rfl⟩ := hclient
  have hsent : Function.update s.client.sent link (s.client.sent link ++ [request]) link =
      [request] := by
    rw [Function.update_self, hr.sent, List.nil_append]
  refine ⟨⟨h.host, h.exact, fun l hl => ?_⟩, fun _ => hr.sessionID, fun l hl => ?_⟩
  · have hne : l ≠ link := by
      rintro rfl
      exact Nat.not_lt.mpr hl hr.lt
    exact ⟨(Function.update_of_ne hne _ _).trans (h.fresh l hl).1, (h.fresh l hl).2⟩
  · obtain rfl : link = l := Option.some.inj (hr.connection.symm.trans hl)
    exact ⟨hr.lt, hphase hsent⟩

theorem Core.openSession (h : s.Core) (hr : s.Ready link) :
    Invariant { s with client := s.client.openSession } := by
  rw [XPCDaemonTransport.openSession, hr.connection]
  exact h.asks hr ⟨_, rfl⟩ fun hsent => ⟨hr.sessionID, Or.inl ⟨_, hsent, ⟨_, rfl⟩, hr.idle⟩⟩

theorem Core.openOrAttachSession (h : s.Core) (hr : s.Ready link) (busyRetries : ℕ) :
    Invariant { s with client := s.client.openOrAttachSession busyRetries } := by
  unfold XPCDaemonTransport.openOrAttachSession
  split
  case h_1 hnone =>
    rw [hr.connection] at hnone
    cases hnone
  case h_2 l id hconnection hresume =>
    obtain rfl : link = l := Option.some.inj (hr.connection.symm.trans hconnection)
    exact h.asks hr ⟨_, rfl⟩ fun hsent => ⟨hr.sessionID, Or.inl ⟨_, hsent, ⟨_, _, rfl⟩, hr.idle⟩⟩
  case h_3 => exact h.openSession hr

theorem Invariant.connects (h : s.Invariant) (takesOver : Bool) :
    Invariant (s.step (.connects takesOver)) := by
  rw [step]
  unfold XPCDaemonTransport.connect
  split
  · exact h
  case h_2 hnone =>
    have hfresh := h.fresh s.client.nextLink le_rfl
    refine @Core.openOrAttachSession
      { s with
        client :=
          { s.client with
            connection := some s.client.nextLink, nextLink := s.client.nextLink + 1, takesOver } }
      s.client.nextLink ⟨h.host, h.exact, fun l hl => h.fresh l ?_⟩ ?_ 0
    · exact (Nat.le_succ _).trans hl
    · exact ⟨rfl, Nat.lt_succ_self _, h.disconnected hnone, hfresh.1, hfresh.2⟩

/-- Letting a link go, whatever else is given up with it. -/
theorem Core.dropped {client : XPCDaemonTransport} (h : s.Core) (hnone : client.connection = none)
    (hsession : client.sessionID = none) (hnext : client.nextLink = s.client.nextLink)
    (hsent : client.sent = s.client.sent) (hheld : client.held = s.client.held)
    (hposition : client.outputPosition = s.client.outputPosition) :
    Invariant { s with client } where
  host := h.host
  exact := by
    have hexact := h.exact
    rw [Exact] at hexact ⊢
    dsimp only
    rwa [hheld, hposition]
  fresh l hl := by
    rw [hnext] at hl
    rw [hsent]
    exact h.fresh l hl
  disconnected _ := hsession
  current l hl := by
    rw [hnone] at hl
    cases hl

theorem Invariant.interrupted (h : s.Invariant) : Invariant (s.step .interrupted) := by
  rw [step]
  unfold XPCDaemonTransport.interrupted
  split
  · exact h.dropped rfl rfl rfl rfl rfl rfl
  · exact h.dropped rfl rfl rfl rfl rfl rfl

theorem Invariant.retries (h : s.Invariant) : Invariant (s.step .retries) := by
  rw [step]
  unfold XPCDaemonTransport.retry
  split
  case h_1 busyRetries hpending =>
    cases hconnection : s.client.connection with
    | none =>
      unfold XPCDaemonTransport.openOrAttachSession
      rw [hconnection]
      exact h
    | some link =>
      obtain ⟨hlt, hphase⟩ := h.current link hconnection
      rw [Phase, hpending] at hphase
      exact h.openOrAttachSession ⟨hconnection, hlt, hphase.1, hphase.2.1, hphase.2.2⟩ _
  · exact h

/-! ## Frames that arrive -/

/-- The session's rebuild leaves room in a message: XTSAVE's record and the palette of the state it
opens with, and the rest. -/
def Fits (stream : List UInt8) : Prop :=
  (openingState sessionReplayByteCount stream).bulk.length
    + ((openingState sessionReplayByteCount stream).withoutBulk.preamble.length
      + (cleanedWindow sessionReplayByteCount stream).length) ≤ maximumMessageDataByteCount

/-- The output a rebuild about to be handled stands for leaves room in its message. -/
def Room (s : System) : Action → Prop
  | .receives => ∀ link id busyRetries reply frames o, s.client.connection = some link →
      s.client.pending = some (.attach id busyRetries) → s.host.sent link = .reply reply :: frames →
      reply.code = .success → reply.outputResumed = false → reply.outputOffset = some o →
      Fits ((s.host.printed id).take o)
  | _ => True

theorem messageData_of_le {bytes : List UInt8} (h : bytes.length ≤ maximumMessageDataByteCount) :
    messageData bytes = some bytes := if_pos h

/-- A rebuild is never empty, and it fits when there is room. -/
theorem messageData_rebuilt {stream data : List UInt8} {endsInTransfer : Bool} (h : Fits stream)
    (hdata : (untrimmed sessionReplayByteCount stream).rebuilt = .rebuilt data endsInTransfer) :
    messageData data = some data ∧ data ≠ [] := by
  obtain ⟨transfer, heq⟩ := rebuilt_untrimmed sessionReplayByteCount stream
  rw [hdata, Replay.rebuilt.injEq] at heq
  have hlen : data.length = (openingState sessionReplayByteCount stream).bulk.length
      + ((openingState sessionReplayByteCount stream).withoutBulk.preamble.length
        + (cleanedWindow sessionReplayByteCount stream).length) := by
    rw [heq.1, List.length_append, TerminalReplayState.length_preamble_eq, Nat.add_assoc]
  refine ⟨messageData_of_le (hlen.trans_le h), ?_⟩
  rw [heq.1, TerminalReplayState.preamble_eq]
  simp [csi]

/-- Output the terminal takes goes on with what it holds. -/
theorem Exact.feed {data : List UInt8} {id : ℕ} (h : s.Exact)
    (hid : s.client.outputPosition.sessionID = some id)
    (hdata : data <+: (s.host.printed id).drop s.client.outputPosition.offset) :
    Exact { s with
      client := { s.client.feed data with
        outputPosition := ⟨some id, s.client.outputPosition.offset + data.length⟩ } } := by
  rw [Exact] at h ⊢
  split at h
  case h_1 hheld =>
    rw [hid] at h
    cases h
  case h_2 held hheld =>
    obtain ⟨hslice, hposition⟩ := h
    rw [hposition] at hid hdata ⊢
    obtain rfl := Option.some.inj hid
    simp only [XPCDaemonTransport.feed, hheld, Option.map_some]
    refine ⟨hslice.feed hdata, ?_⟩
    rw [List.length_append, Nat.add_assoc]

/-- A link that streams: the position stands where the frames on their way go on. -/
theorem Core.streaming {client : XPCDaemonTransport} {id o : ℕ} (h : s.Core)
    (hlt : link < s.client.nextLink) (hempty : s.client.sent link = [])
    (hstreams : s.host.Streams link id o (s.host.sent link))
    (hconnection : client.connection = some link) (hsession : client.sessionID = some id)
    (hpending : client.pending = none) (hnext : client.nextLink = s.client.nextLink)
    (hsent : client.sent = s.client.sent) (hposition : client.outputPosition = ⟨some id, o⟩)
    (hexact : Exact { s with client }) :
    Invariant { s with client } where
  host := h.host
  exact := hexact
  fresh l hl := by
    rw [hnext] at hl
    rw [hsent]
    exact h.fresh l hl
  disconnected hnone := by
    rw [hconnection] at hnone
    cases hnone
  current l hl := by
    obtain rfl : link = l := Option.some.inj (hconnection.symm.trans hl)
    refine ⟨hnext ▸ hlt, ?_⟩
    rw [Phase]
    dsimp only
    rw [hpending, hposition]
    exact ⟨id, hsession, rfl, hsent ▸ hempty, hstreams⟩

/-- A link with an answer just taken off it: what is known of the transport then. -/
structure Answered (s : System) (link : ℕ) : Prop extends Core s where
  connection : s.client.connection = some link
  lt : link < s.client.nextLink
  sessionID : s.client.sessionID = none
  sent : s.client.sent link = []

theorem Answered.ready (h : s.Answered link) {reply : Reply}
    (hr : s.host.Refused link reply (s.host.sent link)) : s.Ready link :=
  ⟨h.connection, h.lt, h.sessionID, h.sent, hr.2.1, hr.2.2⟩

theorem Answered.handleOpen (h : s.Answered link) {reply : Reply}
    (ha : s.host.OpenAnswer link reply (s.host.sent link)) :
    Invariant { s with client := s.client.handleOpen reply } := by
  rw [XPCDaemonTransport.handleOpen]
  obtain hr | ⟨o, hg⟩ := ha
  · rw [if_neg hr.1]
    exact h.dropped rfl rfl rfl rfl rfl rfl
  · rw [if_pos hg.code, hg.outputOffset]
    refine h.streaming h.lt h.sent hg.streams h.connection rfl rfl rfl rfl rfl ?_
    exact ⟨⟨hg.streams.tail.offset_le, List.nil_prefix⟩, rfl⟩

/-- What a granted attach handed over leaves the terminal exact. -/
theorem Exact.feedReplay {id o : ℕ} {reply : Reply} (h : s.Exact)
    (ho : o ≤ (s.host.printed id).length) (hoffset : reply.outputOffset = some o)
    (hcarries : Carries (s.host.printed id) (s.client.outputPosition.offsetIn id) o reply)
    (hroom : reply.outputResumed = false → Fits ((s.host.printed id).take o)) :
    Exact { s with
      client := { s.client.feedReplay id reply with
        sessionID := some id, pending := none, outputPosition := ⟨some id, o⟩ } } := by
  rw [Carries] at hcarries
  rw [XPCDaemonTransport.feedReplay]
  split at hcarries
  case isTrue hresumed =>
    obtain ⟨named, hnamed, hlength, hpre, hle⟩ := hcarries
    obtain ⟨hid, hoff⟩ : s.client.outputPosition.sessionID = some id ∧
        s.client.outputPosition.offset = named := by
      rw [SessionOutputPosition.offsetIn] at hnamed
      split at hnamed
      case isTrue hid => exact ⟨hid, Option.some.inj hnamed⟩
      · cases hnamed
    have hmax : sessionReplayByteCount ≤ maximumMessageDataByteCount := by decide
    rw [messageData_of_le (hle.trans hmax)]
    dsimp only
    rw [if_pos hresumed]
    rw [← hoff] at hpre hlength
    split
    case isTrue hempty =>
      -- Nothing was missed.
      rw [hempty, List.length_nil, Nat.add_zero] at hlength
      have hsame : s.client.outputPosition = ⟨some id, o⟩ := by
        rw [← hid, ← hlength]
      rw [Exact] at h ⊢
      dsimp only
      rwa [hsame] at h
    · rw [← hlength]
      exact h.feed hid hpre
  case isFalse hresumed =>
    obtain ⟨hdata, hne⟩ :=
      messageData_rebuilt (hroom (Bool.eq_false_of_not_eq_true hresumed)) hcarries
    rw [hdata]
    dsimp only
    rw [if_neg hne, if_neg hresumed, hoffset]
    exact ⟨⟨ho, List.nil_prefix⟩, rfl⟩

theorem Answered.handleAttach (h : s.Answered link) {id busyRetries : ℕ} {reply : Reply}
    (ha : s.host.AttachAnswer link id (s.client.outputPosition.offsetIn id) reply
      (s.host.sent link))
    (hroom : reply.code = .success → reply.outputResumed = false →
      ∀ o, reply.outputOffset = some o → Fits ((s.host.printed id).take o)) :
    Invariant { s with client := s.client.handleAttach id busyRetries reply } := by
  rw [XPCDaemonTransport.handleAttach]
  obtain hr | ⟨o, hg, hcarries⟩ := ha
  · have hready := h.ready hr
    split
    · split
      · exact h.dropped rfl rfl rfl rfl rfl rfl
      · refine ⟨⟨h.host, h.exact, h.fresh⟩, fun _ => h.sessionID, fun l hl => ?_⟩
        obtain rfl : link = l := Option.some.inj (h.connection.symm.trans hl)
        exact ⟨h.lt, h.sessionID, h.sent, hready.idle⟩
    · rw [if_neg hr.1]
      split
      · exact h.dropped rfl rfl rfl rfl rfl rfl
      · exact @Core.openSession { s with client := { s.client with resumeSessionID := none } } link
          ⟨h.host, h.exact, h.fresh⟩ ⟨h.connection, h.lt, h.sessionID, h.sent, hready.idle⟩
  · rw [hg.code, if_neg (by decide), if_pos rfl, hg.outputOffset]
    have hkept : (s.client.feedReplay id reply).connection = s.client.connection ∧
        (s.client.feedReplay id reply).nextLink = s.client.nextLink ∧
        (s.client.feedReplay id reply).sent = s.client.sent := by
      rw [XPCDaemonTransport.feedReplay]
      split
      · exact ⟨rfl, rfl, rfl⟩
      · split_ifs <;> exact ⟨rfl, rfl, rfl⟩
    exact h.streaming h.lt h.sent hg.streams (hkept.1.trans h.connection) rfl rfl hkept.2.1
      hkept.2.2 rfl
      (h.exact.feedReplay hg.streams.tail.offset_le hg.outputOffset hcarries
        fun hresumed => hroom hg.code hresumed o hg.outputOffset)

/-- The first frame on the link is taken off. -/
def popped (s : System) (link : ℕ) (frames : List Frame) : System :=
  { s with host := { s.host with sent := Function.update s.host.sent link frames } }

theorem Core.popped (h : s.Core) (hlt : link < s.client.nextLink) (frames : List Frame) :
    Core (s.popped link frames) where
  host := h.host.congr rfl rfl le_rfl h.host.valid
  exact := h.exact
  fresh l hl := by
    have hne : l ≠ link := by
      rintro rfl
      exact Nat.not_lt.mpr hl hlt
    exact ⟨(h.fresh l hl).1, (Function.update_of_ne hne _ _).trans (h.fresh l hl).2.1,
      (h.fresh l hl).2.2⟩

/-- An answer that arrives, taken off the link. -/
theorem Asking.answered {isRequest : Request → Prop} {isAnswer : Reply → List Frame → Prop}
    {frame : Frame} {frames : List Frame} (ha : s.Asking link isRequest isAnswer) (h : s.Core)
    (hconnection : s.client.connection = some link) (hlt : link < s.client.nextLink)
    (hsent : s.host.sent link = frame :: frames) :
    ∃ reply, frame = .reply reply ∧ isAnswer reply frames ∧
      (s.popped link frames).Answered link := by
  have hbusy : ¬ s.host.Idle link := fun hidle => List.cons_ne_nil _ _ (hsent.symm.trans hidle.1)
  obtain ⟨_, _, _, hidle⟩ | ⟨hempty, hidle | ⟨reply, rest, hreply, hanswer⟩⟩ := ha.wire
  · exact absurd hidle hbusy
  · exact absurd hidle hbusy
  · rw [hsent, List.cons.injEq] at hreply
    obtain ⟨rfl, rfl⟩ := hreply
    exact ⟨reply, rfl, hanswer, h.popped hlt frames, hconnection, hlt, ha.sessionID, hempty⟩

/-- Output for the session the link streams. -/
theorem Core.handleOutput {id o : ℕ} {data : List UInt8} (h : s.Core)
    (hlt : link < s.client.nextLink) (hempty : s.client.sent link = [])
    (hconnection : s.client.connection = some link) (hsession : s.client.sessionID = some id)
    (hpending : s.client.pending = none) (hposition : s.client.outputPosition = ⟨some id, o⟩)
    (hne : data ≠ []) (hle : data.length ≤ outputDeliveryByteCount)
    (hpre : data <+: (s.host.printed id).drop o)
    (hstreams : s.host.Streams link id (o + data.length) (s.host.sent link)) :
    Invariant { s with client := s.client.handleOutput id data } := by
  have hmax : outputDeliveryByteCount ≤ maximumMessageDataByteCount := by decide
  have hexact := @Exact.feed s data id h.exact (by rw [hposition]) (by rwa [hposition])
  have hadvance : s.client.outputPosition.advance id data.length = ⟨some id, o + data.length⟩ := by
    rw [hposition, SessionOutputPosition.advance, if_pos rfl]
  rw [hposition] at hexact
  rw [XPCDaemonTransport.handleOutput, messageData_of_le (hle.trans hmax)]
  dsimp only
  rw [if_neg hne, hadvance]
  exact h.streaming hlt hempty hstreams hconnection hsession hpending rfl rfl rfl hexact

theorem Invariant.receives (h : s.Invariant) (hroom : s.Room .receives) :
    Invariant (s.step .receives) := by
  rw [step]
  split
  · exact h
  case h_2 link hconnection =>
    split
    · exact h
    case h_2 frame frames hsent =>
      obtain ⟨hlt, hphase⟩ := h.current link hconnection
      have hpopped : (s.popped link frames).host.sent link = frames := Function.update_self ..
      change Invariant { s.popped link frames with client := s.client.handle frame }
      rw [Phase] at hphase
      split at hphase
      case h_1 hpending =>
        obtain ⟨id, hid, hposition, hempty, htail, honly⟩ := hphase
        have hcore := h.toCore.popped hlt frames
        rw [hsent] at htail
        cases frame with
        | reply reply => exact htail.elim
        | output i data =>
          obtain ⟨rfl, hne, hle, hpre, hrest⟩ := htail
          rw [XPCDaemonTransport.handle, if_pos hid]
          refine hcore.handleOutput hlt hempty hconnection hid hpending ?_ hne hle hpre ?_
          · exact hposition ▸ rfl
          · rw [hpopped]
            exact ⟨hrest, honly⟩
        | sessionTaken i =>
          rw [XPCDaemonTransport.handle, htail.1, if_pos hid]
          exact hcore.dropped rfl rfl rfl rfl rfl rfl
        | sessionExit i =>
          rw [XPCDaemonTransport.handle, htail.1, if_pos hid]
          exact hcore.dropped rfl rfl rfl rfl rfl rfl
      case h_2 => exact absurd (hsent.symm.trans hphase.2.2.1) (List.cons_ne_nil _ _)
      case h_3 id busyRetries hpending =>
        obtain ⟨reply, rfl, hanswer, hanswered⟩ := hphase.answered h.toCore hconnection hlt hsent
        rw [XPCDaemonTransport.handle, XPCDaemonTransport.handleReply, hpending]
        refine hanswered.handleAttach ?_ fun hcode hresumed o ho =>
          hroom link id busyRetries reply frames o hconnection hpending hsent hcode hresumed ho
        rw [hpopped]
        obtain hr | ⟨o, hg, hcarries⟩ := hanswer
        · exact Or.inl hr
        · exact Or.inr ⟨o, ⟨hg.code, hg.outputOffset, hg.streams.tail, hg.streams.only⟩, hcarries⟩
      case h_4 hpending =>
        obtain ⟨reply, rfl, hanswer, hanswered⟩ := hphase.answered h.toCore hconnection hlt hsent
        rw [XPCDaemonTransport.handle, XPCDaemonTransport.handleReply, hpending]
        refine hanswered.handleOpen ?_
        rw [hpopped]
        obtain hr | ⟨o, hg⟩ := hanswer
        · exact Or.inl hr
        · exact Or.inr ⟨o, hg.code, hg.outputOffset, hg.streams.tail, hg.streams.only⟩

/-! ## Every step, and every run -/

/-- **Every step with room for its rebuild keeps the invariant.** -/
theorem Invariant.step (h : s.Invariant) (a : Action) (hroom : s.Room a) :
    Invariant (s.step a) := by
  cases a with
  | prints id data =>
    rw [System.step]
    split
    case isTrue hdata =>
      exact h.follows (h.host.onOutput data) fun link =>
        follows_onOutput hdata.1 hdata.2 fun i hi => h.host.valid hi
    · exact h
  | exits id =>
    rw [System.step]
    split
    · exact h.follows h.host.handleExit fun link => follows_handleExit
    · exact h
  | hostReceives link spawns => exact h.hostReceives link spawns
  | hostLoses link => exact h.hostLoses link
  | otherOpens peer holder =>
    rw [System.step]
    split
    case h_1 host' hattach =>
      refine h.follows (h.host.spawn.attach (by simp) hattach) fun link => ?_
      obtain ⟨more, hmore⟩ := @follows_attach _ _ link _ _ _ _ (by simp) hattach
      exact ⟨_, follows_spawn.trans hmore⟩
    · exact h
  | otherAttaches peer id holder takeover =>
    rw [System.step]
    split
    case h_1 host' hattach =>
      exact h.follows (h.host.attach (by simp) hattach) fun link => follows_attach (by simp) hattach
    · exact h
  | otherDetaches peer id =>
    exact h.follows (h.host.detach _) fun link => ⟨[], follows_detach⟩
  | connects takesOver => exact h.connects takesOver
  | receives => exact h.receives hroom
  | retries => exact h.retries
  | interrupted => exact h.interrupted

/-- Every rebuild handled on the way has room. -/
def Roomy : System → List Action → Prop
  | _, [] => True
  | s, a :: actions => s.Room a ∧ Roomy (s.step a) actions

theorem Invariant.run (h : s.Invariant) (actions : List Action) (hroom : s.Roomy actions) :
    Invariant (s.run actions) := by
  induction actions generalizing s with
  | nil => exact h
  | cons a actions ih => exact ih (h.step a hroom.1) hroom.2

/-- **Resume without gap or duplicate.**  Whatever is printed, lost, resumed, taken over and
delivered in whatever order, what the terminal was fed since its last rebuild is one stretch of a
session's output and the stored position is its end, as long as every rebuild handled has room in
its message. -/
theorem run_exact (isRemote : Bool) (holder : Option String) (resumeSessionID : Option ℕ)
    (actions : List Action) (hroom : (start isRemote holder resumeSessionID).Roomy actions) :
    ((start isRemote holder resumeSessionID).run actions).Exact :=
  ((invariant_start isRemote holder resumeSessionID).run actions hroom).exact

/-- A session printed to and resumed over a second link. -/
def resumed : List Action :=
  [.connects false, .hostReceives 0 true, .receives, .prints 1 [0x61], .receives, .prints 1 [0x62],
    .interrupted, .hostLoses 0, .connects false, .hostReceives 1 true, .receives]

theorem run_exact_resumed : (start false none none).Roomy resumed ∧
    ((start false none none).run resumed).Exact := by
  have hroom : (start false none none).Roomy resumed := by
    refine ⟨trivial, trivial, ?_, trivial, ?_, trivial, trivial, trivial, trivial, trivial, ?_,
      trivial⟩
    · exact fun _ _ _ _ _ _ _ h => nomatch h
    · exact fun _ _ _ _ _ _ _ h => nomatch h
    intro link id n reply frames o hconnection hpending hsent hcode hresumed ho
    cases hconnection
    cases hsent
    cases hresumed
  exact ⟨hroom, run_exact false none none resumed hroom⟩

example : ((start false none none).run resumed).client.held = some ⟨1, 0, [0x61, 0x62]⟩ := by decide

/-! ## A rebuild too long -/

/-- A rebuild that does not fit feeds nothing, and the position moves all the same. -/
theorem not_exact_of_too_long {host : IOHost} {log : SessionOutputLog} {data : List UInt8}
    {endsInTransfer : Bool} {id : ℕ} (hlog : host.sessions id = some log)
    (hfree : host.attachments id = none) (hvalid : host.isValid 0 = true) (hsent : host.sent 0 = [])
    (hrebuilt : log.rebuilt = .rebuilt data endsInTransfer) (hlong : messageData data = none) :
    ¬ Exact (run ⟨host, { isRemote := false, resumeSessionID := some id }⟩
      [.connects false, .hostReceives 0 true, .receives]) := by
  have hattach : host.attach id (.link 0) none false =
      .ok (host.hold id (some (.link 0)) none) := by
    unfold attach
    rw [hlog]
    simp [hfree]
  have hdescribe :
      describe log none = some (replyWith log.endOffset (.rebuilt data endsInTransfer)) := by
    rw [describe, replay, hrebuilt]
    rfl
  intro h
  simp [run, step, XPCDaemonTransport.connect, XPCDaemonTransport.openOrAttachSession,
    XPCDaemonTransport.send, SessionOutputPosition.offsetIn, hvalid, IOHost.handle, attachSession,
    hattach, hold, hlog, hdescribe, send, hsent, XPCDaemonTransport.handle,
    XPCDaemonTransport.handleReply, XPCDaemonTransport.handleAttach, replyWith,
    XPCDaemonTransport.feedReplay, hlong, SessionOutputPosition.set, Exact] at h

/-- Output nobody of the client's is attached to goes into the log alone. -/
theorem run_prints {id : ℕ} (data : List UInt8) : ∀ {host : IOHost} {log : SessionOutputLog}
    (client : XPCDaemonTransport), host.sessions id = some log →
    LogInvariant sessionReplayByteCount (host.printed id) log →
    (∀ link, host.attachments id ≠ some (.link link)) →
    ∃ log', LogInvariant sessionReplayByteCount (host.printed id ++ data) log' ∧
      run ⟨host, client⟩ (data.map fun b => .prints id [b]) = ⟨{ host with
        sessions := Function.update host.sessions id (some log')
        printed := Function.update host.printed id (host.printed id ++ data) }, client⟩ := by
  induction data with
  | nil =>
    intro host log client hlog hinvariant _
    refine ⟨log, by simpa using hinvariant, ?_⟩
    rw [List.append_nil, Function.update_eq_self, ← hlog, Function.update_eq_self]
    rfl
  | cons b data ih =>
    intro host log client hlog hinvariant hother
    have hdeliver : ∀ (host' : IOHost) (frame : Frame),
        host'.deliver (host.attachments id) frame = host' := fun host' frame => by
      obtain heq | ⟨link, hlink, -⟩ := @deliver_eq host' (host.attachments id) frame
      · exact heq
      · exact absurd hlink (hother link)
    have hstep : step ⟨host, client⟩ (.prints id [b]) = ⟨{ host with
        sessions := Function.update host.sessions id (some (log.append [b]))
        printed := Function.update host.printed id (host.printed id ++ [b]) }, client⟩ := by
      rw [step, if_pos ⟨by simp, by rw [outputDeliveryByteCount]; simp⟩, onOutput, hlog]
      dsimp only
      rw [hdeliver]
    obtain ⟨log', hinvariant', hrun⟩ := @ih
      { host with
        sessions := Function.update host.sessions id (some (log.append [b]))
        printed := Function.update host.printed id (host.printed id ++ [b]) }
      (log.append [b]) client (Function.update_self ..)
      (by dsimp only; rw [Function.update_self]; exact hinvariant.append [b]) hother
    dsimp only at hinvariant' hrun
    rw [Function.update_self, List.append_assoc] at hinvariant'
    refine ⟨log', hinvariant', ?_⟩
    rw [List.map_cons, run, List.foldl_cons, hstep]
    change run _ _ = _
    rw [hrun, Function.update_idem, Function.update_idem, Function.update_self, List.append_assoc]
    rfl

/-- Someone else's session with a full palette, resumed once they let go of it. -/
def resumedTooLong : List Action :=
  .otherOpens 0 none :: ((longPaletteStream 256).map fun b => .prints 1 [b])
    ++ [.otherDetaches 0 1, .connects false, .hostReceives 0 true, .receives]

theorem rebuilt_longPalette {log : SessionOutputLog}
    (h : LogInvariant sessionReplayByteCount (longPaletteStream 256) log) :
    ∃ data endsInTransfer, log.rebuilt = .rebuilt data endsInTransfer ∧
      messageData data = none := by
  obtain ⟨data, endsInTransfer, hreplay, hlength⟩ := length_rebuilt_longPalette (n := 256) le_rfl
  have hlog := logInvariant_afterAppends sessionReplayByteCount [longPaletteStream 256]
  rw [List.flatten_singleton] at hlog
  rw [replay, hlog.rebuilt_eq, ← h.rebuilt_eq, Option.some.injEq] at hreplay
  have hmax : maximumMessageDataByteCount = 1048576 := by decide
  exact ⟨data, endsInTransfer, hreplay, if_neg (by omega)⟩

/-- **A rebuild too long moves the position and feeds nothing.** -/
theorem run_resumedTooLong_not_exact :
    ¬ ((start false none (some 1)).run resumedTooLong).Exact := by
  have hopened : ∃ host, step (start false none (some 1)) (.otherOpens 0 none)
      = ⟨host, (start false none (some 1)).client⟩ ∧
        host.sessions 1 = some { capacity := sessionReplayByteCount } ∧ host.printed 1 = [] ∧
        host.attachments 1 = some (.other 0) ∧ host.isValid 0 = true ∧ host.sent 0 = [] :=
    ⟨_, rfl, rfl, rfl, rfl, rfl, rfl⟩
  obtain ⟨host, hstep, hlog, hprinted, hattached, hvalid, hsent⟩ := hopened
  obtain ⟨log, hinvariant, hrun⟩ :=
    run_prints (longPaletteStream 256) (start false none (some 1)).client
    hlog (by rw [hprinted]; exact logInvariant_empty _) (by rw [hattached]; simp)
  rw [hprinted, List.nil_append] at hinvariant
  obtain ⟨data, endsInTransfer, hrebuilt, hlong⟩ := rebuilt_longPalette hinvariant
  rw [resumedTooLong, run, List.cons_append, List.foldl_cons, List.foldl_append, hstep]
  change ¬ (run (run _ _) _).Exact
  rw [hrun]
  rw [run, List.foldl_cons, step, detach, if_pos hattached]
  refine @not_exact_of_too_long _ log data endsInTransfer 1 ?_ ?_ hvalid hsent hrebuilt hlong
  · change Function.update host.sessions 1 (some log) 1 = some log
    rw [Function.update_self]
  · rw [hold_attachments, Function.update_self]

end System
