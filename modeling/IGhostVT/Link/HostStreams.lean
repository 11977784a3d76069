import IGhostVT.Link.SessionLink

/-!
# Link/HostStreams — what the host has on its way to a link

The frames behind a link's attach go on with the session's output where the reply says it stands:
`Tail` says so of the frames alone, `Streams` of a host's.  A step that is not the link's own keeps
it (`Follows`), and the answer to its own request starts it (`AttachAnswer`, `OpenAnswer`).
-/

open SessionOutputLog

/-! ## What is on its way

The frames a link has of one session, from an offset on: a run of outputs that follow one another,
and the exit at the end of them. -/

/-- Frames that go on with `stream` at `o`: output to its end while `attached`, and the session's
taking or exit last. -/
def Tail (stream : List UInt8) (id : ℕ) (attached : Prop) : ℕ → List Frame → Prop
  | o, [] => o ≤ stream.length ∧ (attached → o = stream.length)
  | o, .output i data :: frames =>
    i = id ∧ data ≠ [] ∧ data.length ≤ outputDeliveryByteCount ∧ data <+: stream.drop o ∧
      Tail stream id attached (o + data.length) frames
  | o, .sessionTaken i :: _ => i = id ∧ o ≤ stream.length ∧ ¬ attached
  | o, .sessionExit i :: _ => i = id ∧ o ≤ stream.length ∧ ¬ attached
  | _, .reply _ :: _ => False

section Tail

variable {stream : List UInt8} {id o : ℕ} {attached attached' : Prop} {frames : List Frame}

/-- What lies at an offset of a stream ends inside of it. -/
theorem length_add_le_of_prefix_drop {data : List UInt8} (hne : data ≠ [])
    (h : data <+: stream.drop o) : o + data.length ≤ stream.length := by
  have hle := h.length_le
  have hpos := List.length_pos_of_ne_nil hne
  rw [List.length_drop] at hle
  omega

/-- Frames on their way begin inside the stream. -/
theorem Tail.offset_le (h : Tail stream id attached o frames) : o ≤ stream.length := by
  cases frames with
  | nil => exact h.1
  | cons frame frames =>
    cases frame with
    | reply => exact h.elim
    | output i data =>
      have hle := length_add_le_of_prefix_drop h.2.1 h.2.2.2.1
      omega
    | sessionTaken i => exact h.2.1
    | sessionExit i => exact h.2.1

/-- Losing the attachment loses nothing that was sent. -/
theorem Tail.imp (ha : attached' → attached) (h : Tail stream id attached o frames) :
    Tail stream id attached' o frames := by
  induction frames generalizing o with
  | nil => exact ⟨h.1, fun a => h.2 (ha a)⟩
  | cons frame frames ih =>
    cases frame with
    | reply => exact h.elim
    | output i data => exact ⟨h.1, h.2.1, h.2.2.1, h.2.2.2.1, ih h.2.2.2.2⟩
    | sessionTaken i => exact ⟨h.1, h.2.1, fun a => h.2.2 (ha a)⟩
    | sessionExit i => exact ⟨h.1, h.2.1, fun a => h.2.2 (ha a)⟩

/-- Output nobody is attached to. -/
theorem Tail.grow (ha : ¬ attached) (data : List UInt8) (h : Tail stream id attached o frames) :
    Tail (stream ++ data) id attached o frames := by
  have hlen : stream.length ≤ (stream ++ data).length := by simp
  induction frames generalizing o with
  | nil => exact ⟨h.1.trans hlen, fun a => (ha a).elim⟩
  | cons frame frames ih =>
    cases frame with
    | reply => exact h.elim
    | output i chunk =>
      obtain ⟨hi, hne, hle, hpre, hrest⟩ := h
      refine ⟨hi, hne, hle, ?_, ih hrest⟩
      have ho := length_add_le_of_prefix_drop hne hpre
      rw [List.drop_append_of_le_length (by omega)]
      exact hpre.trans (List.prefix_append _ _)
    | sessionTaken i => exact ⟨h.1, h.2.1.trans hlen, h.2.2⟩
    | sessionExit i => exact ⟨h.1, h.2.1.trans hlen, h.2.2⟩

/-- Output that is delivered. -/
theorem Tail.append_output (ha : attached) {data : List UInt8} (hne : data ≠ [])
    (hle : data.length ≤ outputDeliveryByteCount) (h : Tail stream id attached o frames) :
    Tail (stream ++ data) id attached o (frames ++ [.output id data]) := by
  induction frames generalizing o with
  | nil =>
    have ho := h.2 ha
    refine ⟨rfl, hne, hle, ?_, ?_, fun _ => ?_⟩
    · rw [ho, List.drop_left]
    all_goals rw [List.length_append]; omega
  | cons frame frames ih =>
    cases frame with
    | reply => exact h.elim
    | output i chunk =>
      obtain ⟨hi, hne', hle', hpre, hrest⟩ := h
      refine ⟨hi, hne', hle', ?_, ih hrest⟩
      have ho := length_add_le_of_prefix_drop hne' hpre
      rw [List.drop_append_of_le_length (by omega)]
      exact hpre.trans (List.prefix_append _ _)
    | sessionTaken i => exact (h.2.2 ha).elim
    | sessionExit i => exact (h.2.2 ha).elim

/-- The last frame of an attachment. -/
theorem Tail.append_end (ha : attached) (ha' : ¬ attached') {frame : Frame}
    (hframe : frame = .sessionTaken id ∨ frame = .sessionExit id)
    (h : Tail stream id attached o frames) : Tail stream id attached' o (frames ++ [frame]) := by
  induction frames generalizing o with
  | nil => obtain rfl | rfl := hframe <;> exact ⟨rfl, h.1, ha'⟩
  | cons frame frames ih =>
    cases frame with
    | reply => exact h.elim
    | output i chunk => exact ⟨h.1, h.2.1, h.2.2.1, h.2.2.2.1, ih h.2.2.2.2⟩
    | sessionTaken i => exact (h.2.2 ha).elim
    | sessionExit i => exact (h.2.2 ha).elim

end Tail

/-! ## What the host's steps keep for a link

Each step of the host adds frames to a link, and only such as go on from those before; `Follows` is
that, and there is one lemma for each step. -/

namespace IOHost

variable {host host' : IOHost} {link id o : ℕ} {frames more : List Frame}

/-- The link holds nothing. -/
def Unattached (host : IOHost) (link : ℕ) : Prop :=
  ∀ id, host.attachments id ≠ some (.link link)

/-- Nothing is on its way to the link, and nothing will be before it asks. -/
def Idle (host : IOHost) (link : ℕ) : Prop := host.sent link = [] ∧ host.Unattached link

/-- The link has session `id`, or had it, and `frames` are its output from `o` on. -/
structure Streams (host : IOHost) (link id o : ℕ) (frames : List Frame) : Prop where
  tail : Tail (host.printed id) id (host.attachments id = some (.link link)) o frames
  only : ∀ i, host.attachments i = some (.link link) → i = id

/-- A step that is not the link's own: `more` goes to it, what it was streaming goes on, and a link
that holds nothing gets nothing. -/
structure Follows (link : ℕ) (more : List Frame) (host host' : IOHost) : Prop where
  sent : host'.sent link = host.sent link ++ more
  printed : ∀ i, host.printed i <+: host'.printed i
  unattached : host.Unattached link → host'.Unattached link ∧ more = []
  streams : ∀ {id o frames}, host.Streams link id o frames →
    host'.Streams link id o (frames ++ more)

/-- A host that sent nothing to an idle link leaves it idle. -/
theorem Follows.idle (h : Follows link more host host') (hidle : host.Idle link) :
    host'.Idle link := by
  obtain ⟨hunattached, rfl⟩ := h.unattached hidle.2
  exact ⟨by rw [h.sent, hidle.1, List.append_nil], hunattached⟩

/-- Attachments of the link may end silently; nothing else about it changes. -/
theorem follows_of_le (hsent : host'.sent link = host.sent link)
    (hprinted : host'.printed = host.printed)
    (hle : ∀ i, host'.attachments i = some (.link link) → host.attachments i = some (.link link)) :
    Follows link [] host host' where
  sent := by rw [hsent, List.append_nil]
  printed i := by rw [hprinted]
  unattached h := ⟨fun i hi => h i (hle i hi), rfl⟩
  streams h := by
    refine ⟨?_, fun i hi => h.only i (hle i hi)⟩
    rw [List.append_nil, hprinted]
    exact h.tail.imp (hle _)

/-- What one step adds to a link comes behind what the step before added. -/
theorem Follows.trans {host'' : IOHost} {more' : List Frame} (h : Follows link more host host')
    (h' : Follows link more' host' host'') : Follows link (more ++ more') host host'' where
  sent := by rw [h'.sent, h.sent, List.append_assoc]
  printed i := (h.printed i).trans (h'.printed i)
  unattached hu := by
    obtain ⟨hu, rfl⟩ := h.unattached hu
    exact h'.unattached hu
  streams hs := by
    rw [← List.append_assoc]
    exact h'.streams (h.streams hs)

@[simp] theorem send_attachments (frame : Frame) :
    (host.send link frame).attachments = host.attachments := rfl

@[simp] theorem send_printed (frame : Frame) : (host.send link frame).printed = host.printed := rfl

@[simp] theorem send_sessions (frame : Frame) :
    (host.send link frame).sessions = host.sessions := rfl

theorem send_sent_self (frame : Frame) :
    (host.send link frame).sent link = host.sent link ++ [frame] := by
  rw [send]
  exact Function.update_self ..

theorem send_sent_of_ne {other : ℕ} (h : link ≠ other) (frame : Frame) :
    (host.send other frame).sent link = host.sent link := by
  rw [send]
  exact Function.update_of_ne h _ _

/-- What is delivered is sent to the link that holds the session, or to no one. -/
theorem deliver_eq (peer : Option Peer) (frame : Frame) : host.deliver peer frame = host ∨
    ∃ other, peer = some (.link other) ∧ host.deliver peer frame = host.send other frame := by
  unfold deliver
  split
  · split
    · exact Or.inr ⟨_, rfl, rfl⟩
    · exact Or.inl rfl
  · exact Or.inl rfl

@[simp] theorem deliver_attachments (peer : Option Peer) (frame : Frame) :
    (host.deliver peer frame).attachments = host.attachments := by
  obtain h | ⟨_, _, h⟩ := @deliver_eq host peer frame <;> rw [h]; rfl

@[simp] theorem deliver_printed (peer : Option Peer) (frame : Frame) :
    (host.deliver peer frame).printed = host.printed := by
  obtain h | ⟨_, _, h⟩ := @deliver_eq host peer frame <;> rw [h]; rfl

@[simp] theorem deliver_sessions (peer : Option Peer) (frame : Frame) :
    (host.deliver peer frame).sessions = host.sessions := by
  obtain h | ⟨_, _, h⟩ := @deliver_eq host peer frame <;> rw [h]; rfl

@[simp] theorem deliver_nextSessionID (peer : Option Peer) (frame : Frame) :
    (host.deliver peer frame).nextSessionID = host.nextSessionID := by
  obtain h | ⟨_, _, h⟩ := @deliver_eq host peer frame <;> rw [h]; rfl

/-- A frame for whoever holds a session reaches the link only if that is the link. -/
theorem deliver_sent_of_ne (frame : Frame) (h : host.attachments id ≠ some (.link link)) :
    (host.deliver (host.attachments id) frame).sent link = host.sent link := by
  obtain heq | ⟨other, hpeer, heq⟩ := @deliver_eq host (host.attachments id) frame
  · rw [heq]
  · rw [heq, send_sent_of_ne]
    rintro rfl
    exact h hpeer

/-- A session's end for whoever holds it, with the frame that says so. -/
theorem follows_ended {frame : Frame} (hframe : frame = .sessionTaken id ∨ frame = .sessionExit id)
    (hsent : host'.sent link = (host.deliver (host.attachments id) frame).sent link)
    (hprinted : host'.printed = host.printed) (hid : host'.attachments id ≠ some (.link link))
    (hother : ∀ i, i ≠ id → host'.attachments i = host.attachments i) :
    ∃ more, Follows link more host host' := by
  have hle : ∀ i, host'.attachments i = some (.link link) →
      host.attachments i = some (.link link) := by
    intro i hi
    have hne : i ≠ id := by
      rintro rfl
      exact hid hi
    rwa [← hother i hne]
  obtain heq | ⟨other, hpeer, heq⟩ := @deliver_eq host (host.attachments id) frame
  · exact ⟨[], follows_of_le (by rw [hsent, heq]) hprinted hle⟩
  by_cases hlink : link = other
  · -- The link's own session ends.
    subst hlink
    refine ⟨[frame], ⟨?_, fun i => ?_, fun h => absurd hpeer (h id), fun {id' o frames} h => ?_⟩⟩
    · rw [hsent, heq, send_sent_self]
    · rw [hprinted]
    · obtain rfl := h.only id hpeer
      refine ⟨?_, fun i hi => h.only i (hle i hi)⟩
      rw [hprinted]
      exact h.tail.append_end hpeer hid hframe
  · exact ⟨[], follows_of_le (by rw [hsent, heq, send_sent_of_ne hlink]) hprinted hle⟩

/-- Output goes to the holder, behind what it was sent. -/
theorem follows_onOutput {data : List UInt8} (hne : data ≠ [])
    (hle : data.length ≤ outputDeliveryByteCount)
    (hvalid : ∀ i, host.attachments i = some (.link link) → host.isValid link) :
    ∃ more, Follows link more host (host.onOutput id data) := by
  unfold onOutput
  split
  · exact ⟨[], follows_of_le rfl rfl fun i hi => hi⟩
  case h_2 log hlog =>
    obtain ⟨grown, hgrown⟩ : ∃ grown : IOHost, grown =
      { host with
        sessions := Function.update host.sessions id (some (log.append data))
        printed := Function.update host.printed id (host.printed id ++ data) } := ⟨_, rfl⟩
    have hattachments : grown.attachments = host.attachments := by rw [hgrown]
    have hsent : grown.sent = host.sent := by rw [hgrown]
    have hself : grown.printed id = host.printed id ++ data := by
      rw [hgrown]
      exact Function.update_self ..
    have hothers : ∀ i, i ≠ id → grown.printed i = host.printed i := fun i hi => by
      rw [hgrown]
      exact Function.update_of_ne hi _ _
    have hprinted : ∀ i, host.printed i <+: grown.printed i := fun i => by
      by_cases hi : i = id
      · rw [hi, hself]
        exact List.prefix_append _ _
      · rw [hothers i hi]
    rw [← hgrown]
    by_cases hattached : host.attachments id = some (.link link)
    · -- Delivered to this link, behind what is on its way.
      have hdeliver : grown.deliver (host.attachments id) (.output id data)
          = grown.send link (.output id data) := by
        have := hvalid id hattached
        simp [deliver, hattached, hgrown, this]
      rw [hdeliver]
      refine ⟨[.output id data],
        ⟨?_, hprinted, fun h => absurd hattached (h id), fun {id' o frames} h => ?_⟩⟩
      · rw [send_sent_self, hsent]
      · obtain rfl := h.only id hattached
        refine ⟨?_, fun i hi => h.only i (hattachments ▸ hi)⟩
        rw [send_printed, send_attachments, hattachments, hself]
        exact h.tail.append_output hattached hne hle
    · -- Not this link's: its own session, if it has one, printed nothing.
      have hdelivered : (grown.deliver (host.attachments id) (.output id data)).sent link
          = host.sent link := by
        rw [← hsent, ← hattachments]
        exact deliver_sent_of_ne _ (hattachments ▸ hattached)
      refine ⟨[],
        ⟨by rw [hdelivered, List.append_nil], fun i => ?_, fun h => ⟨fun i => ?_, rfl⟩,
          fun {id' o frames} h => ?_⟩⟩
      · rw [deliver_printed]
        exact hprinted i
      · rw [deliver_attachments, hattachments]
        exact h i
      · refine ⟨?_, fun i hi => h.only i (by rwa [deliver_attachments, hattachments] at hi)⟩
        rw [deliver_printed, deliver_attachments, hattachments, List.append_nil]
        by_cases hid : id' = id
        · rw [hid, hself]
          rw [hid] at h
          exact h.tail.grow hattached data
        · rw [hothers id' hid]
          exact h.tail

/-- The exit goes to the holder, behind all output. -/
theorem follows_handleExit : ∃ more, Follows link more host (host.handleExit id) := by
  refine follows_ended (Or.inr rfl) rfl (by simp [handleExit, hold]) ?_ fun i hi => ?_
  · simp [handleExit, hold]
  · simp [handleExit, hold, Function.update_of_ne hi]

@[simp] theorem hold_attachments {peer : Option Peer} {holder : Option String} :
    (host.hold id peer holder).attachments = Function.update host.attachments id peer := rfl

/-- A session that goes to someone else, or to nobody. -/
theorem follows_hold {peer : Option Peer} {holder : Option String} (h : peer ≠ some (.link link)) :
    Follows link [] host (host.hold id peer holder) := by
  refine follows_of_le rfl rfl fun i hi => ?_
  rw [hold_attachments] at hi
  by_cases heq : i = id
  · rw [heq, Function.update_self] at hi
    exact absurd hi h
  · rwa [Function.update_of_ne heq] at hi

/-- What an attach that succeeds does. -/
theorem attach_ok {peer : Peer} {holder : Option String} {takeover : Bool}
    (h : host.attach id peer holder takeover = .ok host') : (∃ log, host.sessions id = some log) ∧
      (host' = host.hold id (some peer) holder ∨ host.attachments id ≠ some peer ∧
        host' =
          (host.deliver (host.attachments id) (.sessionTaken id)).hold id (some peer) holder) := by
  unfold attach at h
  split at h
  · cases h
  case h_2 log hlog =>
    refine ⟨⟨log, hlog⟩, ?_⟩
    split at h
    · exact Or.inl (Except.ok.inj h).symm
    · split at h
      · exact Or.inr ⟨by tauto, (Except.ok.inj h).symm⟩
      · cases h

/-- What refuses an attach answers with an error. -/
theorem attach_error {peer : Peer} {holder : Option String} {takeover : Bool} {code : ReplyCode}
    (h : host.attach id peer holder takeover = .error code) : code ≠ .success := by
  rintro rfl
  unfold attach at h
  split at h
  · cases h
  · split at h
    · cases h
    · split at h <;> cases h

/-- What grants it changes the holder and no session. -/
theorem attach_ok_eq {peer : Peer} {holder : Option String} {takeover : Bool}
    (h : host.attach id peer holder takeover = .ok host') :
    host'.sessions = host.sessions ∧ host'.printed = host.printed ∧
      host'.nextSessionID = host.nextSessionID ∧ host'.isValid = host.isValid ∧
      host'.attachments = Function.update host.attachments id (some peer) := by
  obtain ⟨-, rfl | ⟨-, rfl⟩⟩ := attach_ok h
  · exact ⟨rfl, rfl, rfl, rfl, rfl⟩
  · refine ⟨deliver_sessions .., deliver_printed .., deliver_nextSessionID .., ?_, ?_⟩
    · rw [hold]
      obtain heq | ⟨_, _, heq⟩ := @deliver_eq host (host.attachments id) (.sessionTaken id) <;>
        rw [heq]
      rfl
    · rw [hold, deliver_attachments]

/-- Another peer's attach. -/
theorem follows_attach {peer : Peer} {holder : Option String} {takeover : Bool}
    (hpeer : peer ≠ .link link) (h : host.attach id peer holder takeover = .ok host') :
    ∃ more, Follows link more host host' := by
  have hsome : some peer ≠ some (.link link) := fun heq => hpeer (Option.some.inj heq)
  obtain ⟨-, rfl | ⟨-, rfl⟩⟩ := attach_ok h
  · exact ⟨[], follows_hold hsome⟩
  · refine follows_ended (Or.inl rfl) rfl (by rw [hold, deliver_printed]) ?_ fun i hi => ?_
    · rwa [hold_attachments, Function.update_self]
    · rw [hold_attachments, deliver_attachments, Function.update_of_ne hi]

/-- A session that is opened sends nothing yet. -/
theorem follows_spawn : Follows link [] host host.spawn := follows_of_le rfl rfl fun _ hi => hi

/-- Nor does one that is let go. -/
theorem follows_detach {peer : Peer} : Follows link [] host (host.detach id peer) := by
  rw [detach]
  split
  · exact follows_hold (by simp)
  · exact follows_of_le rfl rfl fun _ hi => hi

/-- Nor do those of a link that is lost. -/
theorem follows_invalidate (lost : ℕ) : Follows link [] host (host.invalidate lost) := by
  refine follows_of_le rfl rfl fun i hi => ?_
  rw [invalidate] at hi
  dsimp only at hi
  split at hi
  · cases hi
  · exact hi

/-- What another link is sent is not on this one. -/
theorem follows_send {other : ℕ} (h : link ≠ other) (frame : Frame) :
    Follows link [] host (host.send other frame) :=
  follows_of_le (send_sent_of_ne h frame) rfl fun _ hi => hi

/-- A request on another link. -/
theorem follows_handle {other : ℕ} (h : link ≠ other) (spawns : Bool) (request : Request) :
    ∃ more, Follows link more host (host.handle other spawns request) := by
  have hpeer : Peer.link other ≠ .link link := fun heq => h (Peer.link.inj heq).symm
  cases request with
  | openSession holder =>
    rw [handle, openSession]
    split
    · split
      case h_1 host' hattach =>
        obtain ⟨more, hmore⟩ := follows_attach hpeer hattach
        exact ⟨_, follows_spawn.trans (hmore.trans (follows_send h _))⟩
      · exact ⟨_, follows_spawn.trans (follows_send h _)⟩
    · exact ⟨[], follows_of_le (send_sent_of_ne h _) rfl fun _ hi => hi⟩
  | attachSession id offset takeover holder =>
    rw [handle, attachSession]
    split
    case h_1 host' hattach =>
      obtain ⟨more, hmore⟩ := follows_attach hpeer hattach
      split
      · exact ⟨_, hmore.trans (follows_send h _)⟩
      · exact ⟨more, hmore⟩
    · exact ⟨[], follows_send h _⟩

/-! ## What the host's steps keep of its own

Links that hold a session are valid, sessions are numbered up, and a stream is what was printed. -/

structure Sound (host : IOHost) : Prop where
  log : ∀ {id log}, host.sessions id = some log →
    LogInvariant sessionReplayByteCount (host.printed id) log
  fresh : ∀ id, host.nextSessionID ≤ id → host.sessions id = none ∧ host.printed id = []
  valid : ∀ {id link}, host.attachments id = some (.link link) → host.isValid link = true

/-- Soundness goes by sessions, what was printed, numbers and holders. -/
theorem Sound.congr (h : host.Sound) (hsessions : host'.sessions = host.sessions)
    (hprinted : host'.printed = host.printed) (hnext : host.nextSessionID ≤ host'.nextSessionID)
    (hvalid : ∀ {id link}, host'.attachments id = some (.link link) → host'.isValid link = true) :
    host'.Sound where
  log hlog := by
    rw [hsessions] at hlog
    rw [hprinted]
    exact h.log hlog
  fresh id hid := by
    rw [hsessions, hprinted]
    exact h.fresh id (hnext.trans hid)
  valid := hvalid

/-- A frame that is sent changes none of these. -/
theorem Sound.send (h : host.Sound) (frame : Frame) : (host.send link frame).Sound :=
  h.congr rfl rfl le_rfl h.valid

theorem Sound.deliver (h : host.Sound) (peer : Option Peer) (frame : Frame) :
    (host.deliver peer frame).Sound := by
  obtain heq | ⟨other, -, heq⟩ := @deliver_eq host peer frame
  · rwa [heq]
  · rw [heq]
    exact h.send frame

/-- The new holder is a valid link, or no one. -/
theorem Sound.hold (h : host.Sound) {peer : Option Peer} {holder : Option String}
    (hpeer : ∀ link, peer = some (.link link) → host.isValid link = true) :
    (host.hold id peer holder).Sound := by
  refine h.congr rfl rfl le_rfl fun {i link} hi => ?_
  rw [hold_attachments] at hi
  by_cases heq : i = id
  · rw [heq, Function.update_self] at hi
    exact hpeer link hi
  · rw [Function.update_of_ne heq] at hi
    exact h.valid hi

/-- An attach is from a valid link. -/
theorem Sound.attach (h : host.Sound) {peer : Peer} {holder : Option String} {takeover : Bool}
    (hpeer : ∀ link, peer = .link link → host.isValid link = true)
    (hattach : host.attach id peer holder takeover = .ok host') : host'.Sound := by
  obtain ⟨hsessions, hprinted, hnext, hvalid, hattachments⟩ := attach_ok_eq hattach
  refine h.congr hsessions hprinted hnext.ge fun {i link} hi => ?_
  rw [hattachments] at hi
  rw [hvalid]
  by_cases heq : i = id
  · rw [heq, Function.update_self] at hi
    exact hpeer link (Option.some.inj hi)
  · rw [Function.update_of_ne heq] at hi
    exact h.valid hi

/-- A new session has a new number and has printed nothing. -/
theorem Sound.spawn (h : host.Sound) : host.spawn.Sound where
  log {id log} hlog := by
    rw [IOHost.spawn] at hlog ⊢
    dsimp only at hlog ⊢
    by_cases heq : id = host.nextSessionID
    · rw [heq, Function.update_self] at hlog
      rw [heq, (h.fresh _ le_rfl).2, ← Option.some.inj hlog]
      exact logInvariant_empty _
    · rw [Function.update_of_ne heq] at hlog
      exact h.log hlog
  fresh id hid := by
    rw [IOHost.spawn] at hid ⊢
    dsimp only at hid ⊢
    rw [Function.update_of_ne (by omega)]
    exact h.fresh id (by omega)
  valid := h.valid

/-- What is printed is added to its stream. -/
theorem Sound.onOutput (h : host.Sound) (data : List UInt8) : (host.onOutput id data).Sound := by
  unfold IOHost.onOutput
  split
  · exact h
  case h_2 log hlog =>
    apply Sound.deliver
    refine ⟨fun {i log'} hlog' => ?_, fun i hi => ?_, h.valid⟩
    · dsimp only at hlog' ⊢
      by_cases heq : i = id
      · rw [heq, Function.update_self] at hlog' ⊢
        rw [← Option.some.inj hlog']
        exact (h.log hlog).append data
      · rw [Function.update_of_ne heq] at hlog' ⊢
        exact h.log hlog'
    · dsimp only at hi ⊢
      have hne : i ≠ id := by
        rintro rfl
        rw [(h.fresh i hi).1] at hlog
        cases hlog
      rw [Function.update_of_ne hne, Function.update_of_ne hne]
      exact h.fresh i hi

/-- An ended session is no more. -/
theorem Sound.handleExit (h : host.Sound) : (host.handleExit id).Sound := by
  have htold : ((host.deliver (host.attachments id) (.sessionExit id)).hold id none none).Sound :=
    (h.deliver _ _).hold fun link hl => by cases hl
  rw [IOHost.handleExit]
  refine ⟨fun {i log} hlog => ?_, fun i hi => ?_, htold.valid⟩
  · dsimp only at hlog
    by_cases heq : i = id
    · rw [heq, Function.update_self] at hlog
      cases hlog
    · rw [Function.update_of_ne heq] at hlog
      exact htold.log (by rwa [IOHost.hold, deliver_sessions])
  · have hfresh := htold.fresh i hi
    refine ⟨?_, hfresh.2⟩
    by_cases heq : i = id
    · dsimp only
      rw [heq, Function.update_self]
    · dsimp only
      rw [Function.update_of_ne heq]
      exact (h.fresh i (by rwa [IOHost.hold, deliver_nextSessionID] at hi)).1

/-- A link that is lost holds nothing. -/
theorem Sound.invalidate (h : host.Sound) (lost : ℕ) : (host.invalidate lost).Sound := by
  refine h.congr rfl rfl le_rfl fun {i link} hi => ?_
  rw [IOHost.invalidate] at hi ⊢
  dsimp only at hi ⊢
  split at hi
  · cases hi
  case isFalse hne =>
    rw [Function.update_of_ne (by rintro rfl; exact hne hi)]
    exact h.valid hi

/-- Nor does one that lets go. -/
theorem Sound.detach (h : host.Sound) (peer : Peer) : (host.detach id peer).Sound := by
  rw [IOHost.detach]
  split
  · exact h.hold (fun link hl => by cases hl)
  · exact h

/-- **A request keeps the host sound.** -/
theorem Sound.handle (h : host.Sound) (hlink : host.isValid link = true) (spawns : Bool)
    (request : Request) : (host.handle link spawns request).Sound := by
  have hpeer : ∀ l, Peer.link link = .link l → host.isValid l = true := fun l hl => by
    rwa [← Peer.link.inj hl]
  cases request with
  | openSession holder =>
    rw [IOHost.handle, IOHost.openSession]
    split
    · split
      case h_1 host' hattach => exact (h.spawn.attach hpeer hattach).send _
      · exact h.spawn.send _
    · exact h.congr rfl rfl (Nat.le_succ _) h.valid
  | attachSession id offset takeover holder =>
    rw [IOHost.handle, IOHost.attachSession]
    split
    case h_1 host' hattach =>
      split
      · exact (h.attach hpeer hattach).send _
      · exact h.attach hpeer hattach
    · exact h.send _

/-! ## The answer to a link's own request -/

/-- What a successful attach handed over, when the output stands at `o`: the stretch from the offset
named, or a rebuild of the output up to there. -/
def Carries (stream : List UInt8) (offset : Option ℕ) (o : ℕ) (reply : Reply) : Prop :=
  if reply.outputResumed then
    ∃ named, offset = some named ∧ named + reply.data.length = o ∧
      reply.data <+: stream.drop named ∧ reply.data.length ≤ sessionReplayByteCount
  else
    (untrimmed sessionReplayByteCount (stream.take o)).rebuilt
      = .rebuilt reply.data reply.transferUnderway

/-- A request refused leaves the link without a session. -/
def Refused (host : IOHost) (link : ℕ) (reply : Reply) (frames : List Frame) : Prop :=
  reply.code ≠ .success ∧ frames = [] ∧ host.Unattached link

/-- A request granted: the frames behind the reply go on where it says the output stands. -/
structure Granted (host : IOHost) (link id o : ℕ) (reply : Reply) (frames : List Frame) : Prop where
  code : reply.code = .success
  outputOffset : reply.outputOffset = some o
  streams : host.Streams link id o frames

def AttachAnswer (host : IOHost) (link id : ℕ) (offset : Option ℕ) (reply : Reply)
    (frames : List Frame) : Prop :=
  host.Refused link reply frames ∨
    ∃ o, host.Granted link id o reply frames ∧ Carries (host.printed id) offset o reply

def OpenAnswer (host : IOHost) (link : ℕ) (reply : Reply) (frames : List Frame) : Prop :=
  host.Refused link reply frames ∨ ∃ o, host.Granted link reply.sessionID o reply frames

variable {offset : Option ℕ} {reply : Reply}

/-- A refusal stays one whatever is sent behind it. -/
theorem Follows.refused (h : Follows link more host host') (hr : host.Refused link reply frames) :
    host'.Refused link reply (frames ++ more) := by
  obtain ⟨hcode, rfl, hunattached⟩ := hr
  obtain ⟨hunattached', rfl⟩ := h.unattached hunattached
  exact ⟨hcode, rfl, hunattached'⟩

/-- A grant stays one, and what is sent behind it goes on from it. -/
theorem Follows.granted (h : Follows link more host host')
    (hg : host.Granted link id o reply frames) :
    host'.Granted link id o reply (frames ++ more) :=
  ⟨hg.code, hg.outputOffset, h.streams hg.streams⟩

/-- More output does not change what was handed over before it. -/
theorem Carries.grow {stream stream' : List UInt8} (hpre : stream <+: stream')
    (ho : o ≤ stream.length) (h : Carries stream offset o reply) :
    Carries stream' offset o reply := by
  obtain ⟨rest, rfl⟩ := hpre
  rw [Carries] at h ⊢
  split
  case isTrue hresumed =>
    rw [if_pos hresumed] at h
    obtain ⟨named, hnamed, hlength, hdata, hle⟩ := h
    refine ⟨named, hnamed, hlength, ?_, hle⟩
    rw [List.drop_append_of_le_length (by omega)]
    exact hdata.trans (List.prefix_append _ _)
  case isFalse hresumed =>
    rw [if_neg hresumed] at h
    rwa [List.take_append_of_le_length ho]

/-- So does the answer to an attach. -/
theorem Follows.attachAnswer (h : Follows link more host host')
    (ha : host.AttachAnswer link id offset reply frames) :
    host'.AttachAnswer link id offset reply (frames ++ more) := by
  obtain hr | ⟨o, hg, hc⟩ := ha
  · exact Or.inl (h.refused hr)
  · exact Or.inr ⟨o, h.granted hg, hc.grow (h.printed id) hg.streams.tail.offset_le⟩

/-- And to an open. -/
theorem Follows.openAnswer (h : Follows link more host host')
    (ha : host.OpenAnswer link reply frames) : host'.OpenAnswer link reply (frames ++ more) := by
  obtain hr | ⟨o, hg⟩ := ha
  · exact Or.inl (h.refused hr)
  · exact Or.inr ⟨o, h.granted hg⟩

/-- A log's answer is where it stands, and the stretch or the rebuild up to there. -/
theorem describe_eq {stream : List UInt8} {log : SessionOutputLog}
    (h : LogInvariant sessionReplayByteCount stream log) (offset : Option ℕ) :
    ∃ reply, describe log offset = some reply ∧ reply.code = .success ∧
      reply.outputOffset = some stream.length ∧ Carries stream offset stream.length reply := by
  have hrebuilt : Carries stream offset stream.length (replyWith stream.length log.rebuilt) := by
    obtain ⟨transfer, heq⟩ := rebuilt_untrimmed sessionReplayByteCount stream
    rw [h.rebuilt_eq, heq, replyWith, Carries, if_neg (by simp), List.take_length, heq]
  have hreply : ∃ replay, log.replay offset = some replay ∧
      Carries stream offset stream.length (replyWith stream.length replay) := by
    cases offset with
    | none => exact ⟨log.rebuilt, by rw [replay], hrebuilt⟩
    | some named =>
      rw [h.replay_eq]
      split
      case isTrue hin =>
        refine ⟨_, rfl, ?_⟩
        rw [replyWith, Carries, if_pos rfl]
        refine ⟨named, rfl, ?_, List.prefix_rfl, ?_⟩
        all_goals dsimp only; rw [List.length_drop]; omega
      · exact ⟨log.rebuilt, by rw [h.rebuilt_eq], hrebuilt⟩
  obtain ⟨replay, heq, hcarries⟩ := hreply
  refine ⟨replyWith stream.length replay,
    by rw [describe, heq, h.endOffset_eq]; rfl, ?_, ?_, hcarries⟩
  all_goals cases replay <;> rfl

/-- The link that gets a session has its output from there on. -/
theorem streams_attach {holder : Option String} {takeover : Bool} (hidle : host.Idle link)
    (h : host.attach id (.link link) holder takeover = .ok host') :
    host'.sent link = [] ∧ host'.Streams link id (host.printed id).length [] := by
  obtain ⟨-, hprinted, -, -, hattachments⟩ := attach_ok_eq h
  constructor
  · obtain ⟨-, rfl | ⟨-, rfl⟩⟩ := attach_ok h
    · exact hidle.1
    · exact (deliver_sent_of_ne _ (hidle.2 id)).trans hidle.1
  · refine ⟨by rw [hprinted]; exact ⟨le_rfl, fun _ => rfl⟩, fun i hi => ?_⟩
    by_contra hne
    rw [hattachments, Function.update_of_ne hne] at hi
    exact hidle.2 i hi

/-- An attach is answered once, with what there is from the offset on or with what there is at
all. -/
theorem attachSession_answer (h : host.Sound) (hidle : host.Idle link) (offset : Option ℕ)
    (takeover : Bool) (holder : Option String) :
    ∃ reply, (host.attachSession link id offset takeover holder).sent link = [.reply reply] ∧
      (host.attachSession link id offset takeover holder).AttachAnswer link id offset reply [] := by
  rw [attachSession]
  split
  case h_1 host' hattach =>
    obtain ⟨hsent, hstreams⟩ := streams_attach hidle hattach
    obtain ⟨hsessions, hprinted, -⟩ := attach_ok_eq hattach
    obtain ⟨⟨log, hlog⟩, -⟩ := attach_ok hattach
    obtain ⟨reply, hreply, hcode, hoffset, hcarries⟩ := describe_eq (h.log hlog) offset
    rw [hsessions, hlog, Option.bind_some, hreply]
    refine ⟨reply,
      by rw [send_sent_self, hsent, List.nil_append], Or.inr ⟨_, ⟨hcode, hoffset, ?_⟩, ?_⟩⟩
    · exact ⟨hstreams.tail, hstreams.only⟩
    · rwa [send_printed, hprinted]
  case h_2 code hattach =>
    exact ⟨_, by rw [send_sent_self, hidle.1, List.nil_append],
      Or.inl ⟨attach_error hattach, rfl, hidle.2⟩⟩

/-- An open is answered once, and its stream begins at nought. -/
theorem openSession_answer (h : host.Sound) (hidle : host.Idle link) (holder : Option String)
    (spawns : Bool) :
    ∃ reply, (host.openSession link holder spawns).sent link = [.reply reply] ∧
      (host.openSession link holder spawns).OpenAnswer link reply [] := by
  rw [openSession]
  split
  · split
    case h_1 host' hattach =>
      obtain ⟨hsent, hstreams⟩ := streams_attach (follows_spawn.idle hidle) hattach
      obtain ⟨hsessions, hprinted, -⟩ := attach_ok_eq hattach
      obtain ⟨⟨log, hlog⟩, -⟩ := attach_ok hattach
      refine ⟨_, by rw [send_sent_self, hsent, List.nil_append], Or.inr
        ⟨(host.spawn.printed host.nextSessionID).length, rfl, ?_, ?_⟩⟩
      · rw [hsessions, hlog]
        exact congrArg some (h.spawn.log hlog).endOffset_eq
      · exact ⟨hstreams.tail, hstreams.only⟩
    case h_2 code hattach =>
      exact ⟨_, by rw [send_sent_self, (follows_spawn.idle hidle).1, List.nil_append],
        Or.inl ⟨attach_error hattach, rfl, hidle.2⟩⟩
  · refine ⟨_, by rw [send_sent_self, hidle.1, List.nil_append], Or.inl ⟨?_, rfl, hidle.2⟩⟩
    decide

end IOHost
