import IGhostVT.Lib.Run
import IGhostVT.Wire.IOChannel

/-!
# Wire/OutboundFrames — what leaves a channel is whole frames

A channel's queue is a list of frames: a send puts one at the end, and a discard takes out the ones
for a peer that have not begun to leave (`discard`).  Whatever the socket takes and when, the bytes
it took and the bytes that wait are those frames' bytes, one behind the other (`Framed`).

`unstartedBoundary` is moved lazily: it stands on a frame boundary always, but between two uses the
write position may have run past it (`run_boundary_behind`).  Where it is used it has been moved.
-/

open IOWire

namespace IOChannel

/-! ## The queue -/

/-- The frames' bytes, one behind the other. -/
def stream (frames : List IOWire.Frame) : List UInt8 := frames.flatMap IOWire.Frame.bytes

/-- How many frames have begun to leave when `count` bytes have left. -/
def startedCount : ℕ → List IOWire.Frame → ℕ
  | _, [] => 0
  | count, f :: fs => if 0 < count then startedCount (count - f.bytes.length) fs + 1 else 0

/-- The frames without those for `peer` that have not begun to leave. -/
def discard (peer : UInt64) (count : ℕ) (frames : List IOWire.Frame) : List IOWire.Frame :=
  frames.take (startedCount count frames) ++
    (frames.drop (startedCount count frames)).filter fun f => f.peer ≠ peer

@[simp] theorem stream_nil : stream [] = [] := rfl

@[simp] theorem stream_cons (f : IOWire.Frame) (fs : List IOWire.Frame) :
    stream (f :: fs) = f.bytes ++ stream fs :=
  List.flatMap_cons

@[simp] theorem stream_append (fs gs : List IOWire.Frame) :
    stream (fs ++ gs) = stream fs ++ stream gs :=
  List.flatMap_append

theorem stream_eq_nil {frames : List IOWire.Frame} (h : (stream frames).length = 0) :
    frames = [] := by
  cases frames with
  | nil => rfl
  | cons f fs =>
    have := f.length_bytes_pos
    rw [stream_cons, List.length_append] at h
    omega

/-- A frame behind fewer bytes than have left has begun. -/
theorem lt_startedCount {count : ℕ} :
    ∀ {before : List IOWire.Frame} (f : IOWire.Frame) (fs : List IOWire.Frame),
    (stream before).length < count → before.length < startedCount count (before ++ f :: fs)
  | [], f, fs, h => by
      rw [List.nil_append, startedCount, if_pos (by simpa using h)]
      exact Nat.succ_pos _
  | b :: before, f, fs, h => by
      rw [stream_cons, List.length_append] at h
      rw [List.cons_append, startedCount, if_pos (by omega), List.length_cons]
      exact Nat.succ_lt_succ (lt_startedCount f fs (by omega))

/-- A frame behind all the bytes that have left has not. -/
theorem startedCount_le {count : ℕ} : ∀ {before : List IOWire.Frame} (fs : List IOWire.Frame),
    count ≤ (stream before).length → startedCount count (before ++ fs) ≤ before.length
  | [], fs, h => by
      cases fs with
      | nil => exact le_rfl
      | cons f fs =>
        rw [List.nil_append, startedCount, if_neg (by simpa using h)]
        exact le_rfl
  | b :: before, fs, h => by
      rw [stream_cons, List.length_append] at h
      rw [List.cons_append, startedCount]
      split_ifs
      · exact Nat.succ_le_succ (startedCount_le fs (by omega))
      · exact Nat.zero_le _

theorem startedCount_mono : ∀ {frames : List IOWire.Frame} {m n : ℕ}, m ≤ n →
    startedCount m frames ≤ startedCount n frames
  | [], _, _, _ => le_rfl
  | f :: fs, m, n, h => by
      rw [startedCount, startedCount]
      split_ifs with hm hn
      · exact Nat.succ_le_succ (startedCount_mono (by omega))
      · omega
      · exact Nat.zero_le _
      · exact Nat.zero_le _

theorem startedCount_append (count : ℕ) : ∀ (frames more : List IOWire.Frame),
    startedCount count frames ≤ startedCount count (frames ++ more)
  | [], _ => Nat.zero_le _
  | f :: fs, more => by
      rw [List.cons_append, startedCount, startedCount]
      split_ifs
      · exact Nat.succ_le_succ (startedCount_append _ fs more)
      · exact le_rfl

/-- Whether the first frames have begun does not depend on the ones behind them. -/
theorem le_startedCount_of_append : ∀ {count : ℕ} {frames more : List IOWire.Frame},
    frames.length ≤ startedCount count (frames ++ more) → frames.length ≤ startedCount count frames
  | _, [], _, _ => Nat.zero_le _
  | count, f :: fs, more, h => by
      rw [List.cons_append, startedCount] at h
      rw [startedCount]
      split_ifs at h ⊢
      · exact Nat.succ_le_succ (le_startedCount_of_append (Nat.le_of_succ_le_succ h))
      · exact h

/-- When all has left, every frame has begun. -/
theorem length_le_startedCount {count : ℕ} (frames : List IOWire.Frame)
    (h : (stream frames).length ≤ count) :
    frames.length ≤ startedCount count frames := by
  rcases List.eq_nil_or_concat frames with rfl | ⟨fs, f, rfl⟩
  · exact Nat.zero_le _
  · have hpos := f.length_bytes_pos
    simp only [List.concat_eq_append, stream_append, List.length_append, stream_cons, stream_nil,
      List.append_nil] at h
    rw [List.concat_eq_append, List.length_append]
    exact lt_startedCount f [] (by omega)

/-- What is discarded, read off a split at the first frame that has not begun. -/
theorem discard_eq {peer : UInt64} {count : ℕ} {started rest : List IOWire.Frame}
    (hle : started.length ≤ startedCount count (started ++ rest))
    (hge : count ≤ (stream started).length) :
    discard peer count (started ++ rest) = started ++ rest.filter fun f => f.peer ≠ peer := by
  have heq : startedCount count (started ++ rest) = started.length :=
    le_antisymm (startedCount_le rest hge) hle
  rw [discard, heq, List.take_left, List.drop_left]

/-! ## Channel and queue -/

/-- **The channel holds the queue's bytes**, but for the ones it let go of (`gone`); its boundary
stands behind `started`, all of which has begun to leave. -/
structure Framed (c : IOChannel) (gone : List UInt8) (started rest : List IOWire.Frame) : Prop where
  written : c.written = gone ++ c.outbound.take c.outboundOffset
  stored : stream (started ++ rest) = gone ++ c.outbound
  le : c.outboundOffset ≤ c.outbound.length
  boundary : (stream started).length = gone.length + c.unstartedBoundary
  begun : started.length ≤ startedCount c.written.length (started ++ rest)

variable {c : IOChannel} {gone : List UInt8} {started rest : List IOWire.Frame}

theorem Framed.length_written (h : Framed c gone started rest) :
    c.written.length = gone.length + c.outboundOffset := by
  rw [h.written, List.length_append, List.length_take_of_le h.le]

/-- What left and what waits are the frames. -/
theorem Framed.whole (h : Framed c gone started rest) :
    c.written ++ c.outbound.drop c.outboundOffset = stream (started ++ rest) := by
  rw [h.written, List.append_assoc, List.take_append_drop, h.stored]

/-- Behind the boundary stand the frames that have not been passed. -/
theorem Framed.drop_boundary (h : Framed c gone started rest) :
    c.outbound.drop c.unstartedBoundary = stream rest := by
  have hstored := h.stored
  rw [stream_append] at hstored
  have hdrop := congrArg (List.drop (stream started).length) hstored
  rw [List.drop_left, h.boundary, ← List.drop_drop, List.drop_left] at hdrop
  exact hdrop.symm

theorem Framed.take_boundary (h : Framed c gone started rest) :
    gone ++ c.outbound.take c.unstartedBoundary = stream started := by
  have hstored := h.stored
  rw [stream_append] at hstored
  have htake := congrArg (List.take (stream started).length) hstored
  rw [List.take_left, h.boundary, List.take_length_add_append] at htake
  exact htake.symm

/-- Walking the headers stays on boundaries, and stops at the write position or past it. -/
theorem Framed.walkHeaders (passes : ℕ) : ∀ {c : IOChannel} {started rest : List IOWire.Frame},
    Framed c gone started rest → c.outboundOffset ≤ c.unstartedBoundary + passes →
    ∃ started' rest', started' ++ rest' = started ++ rest ∧
      Framed { c with unstartedBoundary :=
        IOChannel.walkHeaders c.outbound c.outboundOffset passes c.unstartedBoundary } gone
          started' rest' ∧
      c.outboundOffset ≤
      IOChannel.walkHeaders c.outbound c.outboundOffset passes c.unstartedBoundary := by
  induction passes with
  | zero => exact fun {c started rest} h hle => ⟨started, rest, rfl, h, hle⟩
  | succ passes ih =>
    intro c started rest h hle
    rw [IOChannel.walkHeaders]
    split_ifs with hlt
    swap
    · exact ⟨started, rest, rfl, h, not_lt.mp hlt⟩
    have hdrop := h.drop_boundary
    have hoff := h.le
    cases rest with
    | nil =>
      have hlen := congrArg List.length hdrop
      rw [List.length_drop, stream_nil, List.length_nil] at hlen
      omega
    | cons f rest =>
      rw [hdrop, stream_cons, decodeHeader_bytes]
      have hcount : headerByteCount + f.header.payloadByteCount = f.bytes.length :=
        f.length_bytes.symm
      dsimp only
      rw [hcount]
      have hnext : Framed { c with unstartedBoundary := c.unstartedBoundary + f.bytes.length } gone
          (started ++ [f]) rest := by
        refine ⟨h.written, by rw [List.append_assoc]; exact h.stored, h.le, ?_, ?_⟩
        · simp only [stream_append, stream_cons, stream_nil, List.append_nil, List.length_append]
          rw [h.boundary]
          exact Nat.add_assoc _ _ _
        · have hbegun : started.length < startedCount c.written.length (started ++ f :: rest) :=
            lt_startedCount f rest (by rw [h.boundary, h.length_written]; omega)
          rw [List.length_append, List.append_assoc]
          exact hbegun
      have hpos := f.length_bytes_pos
      obtain ⟨started', rest', hsplit, hframed, hge⟩ := ih hnext (by dsimp only; omega)
      exact ⟨started', rest', hsplit.trans (List.append_assoc _ _ _), hframed, hge⟩

/-- The boundary, moved to where it is used. -/
theorem Framed.advance (h : Framed c gone started rest) : ∃ started' rest',
    started' ++ rest' = started ++ rest ∧ Framed c.advanceUnstartedBoundary gone started' rest' ∧
      c.outboundOffset ≤ c.advanceUnstartedBoundary.unstartedBoundary :=
  h.walkHeaders c.outboundOffset (Nat.le_add_left _ _)

/-! ## The socket takes bytes -/

/-- What `c` holds of `frames`. -/
def Queues (c : IOChannel) (frames : List IOWire.Frame) : Prop :=
  ∃ gone started rest, started ++ rest = frames ∧ Framed c gone started rest

theorem Queues.compactOutbound {frames : List IOWire.Frame} (h : Queues c frames) :
    Queues c.compactOutbound frames := by
  rw [IOChannel.compactOutbound]
  split_ifs with hhalf
  swap
  · exact h
  obtain ⟨gone, started, rest, hframes, h⟩ := h
  obtain ⟨started', rest', hsplit, hadv, hge⟩ := h.advance
  refine ⟨c.written, started', rest', hsplit.trans hframes, ?_, ?_, Nat.zero_le _, ?_, hadv.begun⟩
  · exact (List.append_nil _).symm
  · exact (hadv.stored.trans (by rw [hadv.written, List.append_assoc, List.take_append_drop]) :
      stream (started' ++ rest') = c.advanceUnstartedBoundary.written ++ _)
  · have hlen := h.length_written
    have hb := hadv.boundary
    dsimp only
    have hoff : c.advanceUnstartedBoundary.outboundOffset = c.outboundOffset := rfl
    omega

theorem Queues.resetOutbound {frames : List IOWire.Frame} (h : Queues c frames)
    (hall : c.outbound.length ≤ c.outboundOffset) : Queues c.resetOutbound frames := by
  obtain ⟨gone, started, rest, hframes, h⟩ := h
  have hwritten : c.written = stream frames := by
    rw [h.written, List.take_of_length_le hall, ← hframes, h.stored]
  refine ⟨stream frames, frames, [], List.append_nil _, ?_, ?_, le_rfl, rfl, ?_⟩
  · exact hwritten.trans (List.append_nil _).symm
  · rw [List.append_nil]
    exact (List.append_nil _).symm
  · rw [List.append_nil]
    exact length_le_startedCount frames (by rw [← hwritten]; exact le_rfl)

/-- The books the socket does not look at. -/
theorem Queues.of_same {c' : IOChannel} {frames : List IOWire.Frame} (h : Queues c frames)
    (hout : c'.outbound = c.outbound) (hoff : c'.outboundOffset = c.outboundOffset)
    (hbound : c'.unstartedBoundary = c.unstartedBoundary) (hw : c'.written = c.written) :
    Queues c' frames := by
  obtain ⟨gone, started, rest, hframes, h⟩ := h
  refine ⟨gone, started, rest, hframes, ?_, ?_, ?_, ?_, ?_⟩
  · rw [hw, hout, hoff]
    exact h.written
  · rw [hout]
    exact h.stored
  · rw [hout, hoff]
    exact h.le
  · rw [hbound]
    exact h.boundary
  · rw [hw]
    exact h.begun

theorem Queues.wrote {frames : List IOWire.Frame} (h : Queues c frames) {count : ℕ}
    (hle : c.outboundOffset + count ≤ c.outbound.length) :
    Queues
      { c with
        outboundOffset := c.outboundOffset + count
        written := c.written ++ (c.outbound.drop c.outboundOffset).take count } frames := by
  obtain ⟨gone, started, rest, hframes, h⟩ := h
  refine ⟨gone, started, rest, hframes, ?_, h.stored, hle, h.boundary, ?_⟩
  · rw [h.written, List.append_assoc, List.take_add]
  · refine h.begun.trans (startedCount_mono ?_)
    rw [List.length_append]
    exact Nat.le_add_right _ _

/-- What has left is what the queue begins with. -/
theorem Queues.prefixed {frames : List IOWire.Frame} (h : Queues c frames) :
    c.written <+: stream frames := by
  obtain ⟨gone, started, rest, rfl, h⟩ := h
  exact ⟨_, h.whole⟩

theorem close_written (c : IOChannel) : c.close.written = c.written := by
  rw [close]
  split_ifs <;> rfl

theorem close_isClosed (c : IOChannel) : c.close.isClosed = true := by
  rw [close]
  split_ifs with h
  · exact h
  · rfl

/-- A channel that is open holds the queue; of one that is closed the other end has a beginning. -/
def Carries (c : IOChannel) (frames : List IOWire.Frame) : Prop :=
  c.written <+: stream frames ∧ (c.isClosed = false → Queues c frames)

theorem Queues.carries {frames : List IOWire.Frame} (h : Queues c frames) : Carries c frames :=
  ⟨h.prefixed, fun _ => h⟩

/-- **Whatever the socket takes, the channel goes on holding the queue**, unless the link is
gone. -/
theorem Queues.flushOutbound {frames : List IOWire.Frame} : ∀ (writes : List SocketWrite)
    {c : IOChannel}, Queues c frames → Carries (IOChannel.flushOutbound writes c) frames
  | [], c, h => by
      rw [IOChannel.flushOutbound]
      split_ifs with hlt
      · exact Queues.carries (h.compactOutbound.of_same rfl rfl rfl rfl)
      · exact Queues.carries ((h.resetOutbound (not_lt.mp hlt)).of_same rfl rfl rfl rfl)
  | write :: writes, c, h => by
      rw [IOChannel.flushOutbound.eq_def]
      dsimp only
      split_ifs with hlt
      · cases write with
        | wrote count => exact Queues.flushOutbound writes (h.wrote (by omega))
        | interrupted => exact Queues.flushOutbound writes h
        | wouldBlock => exact Queues.carries (h.compactOutbound.of_same rfl rfl rfl rfl)
        | failed =>
          refine ⟨by rw [close_written]; exact h.prefixed, fun hopen => ?_⟩
          rw [close_isClosed] at hopen
          exact absurd hopen (by simp)
      · exact Queues.carries ((h.resetOutbound (not_lt.mp hlt)).of_same rfl rfl rfl rfl)

/-! ## Frames come and go -/

theorem Queues.append {frames : List IOWire.Frame} (h : Queues c frames) (f : IOWire.Frame) :
    Queues { c with outbound := c.outbound ++ appendHeader f.header ++ f.payload }
      (frames ++ [f]) := by
  obtain ⟨gone, started, rest, hframes, h⟩ := h
  have hbytes : c.outbound ++ appendHeader f.header ++ f.payload = c.outbound ++ f.bytes :=
    List.append_assoc _ _ _
  rw [hbytes]
  refine ⟨gone, started, rest ++ [f],
    by rw [← List.append_assoc, hframes], ?_, ?_, ?_, h.boundary, ?_⟩
  · rw [h.written, List.take_append_of_le_length h.le]
  · rw [← List.append_assoc, stream_append, h.stored]
    simp
  · rw [List.length_append]
    exact h.le.trans (Nat.le_add_right _ _)
  · rw [← List.append_assoc]
    exact h.begun.trans (startedCount_append _ _ _)

/-- The walk over whole frames keeps the others' and counts the peer's. -/
theorem keepOthers_stream (peer : UInt64) : ∀ (passes : ℕ) (frames : List IOWire.Frame),
    (stream frames).length ≤ passes →
    (keepOthers peer passes (stream frames)).1 = stream (frames.filter fun f => f.peer ≠ peer) ∧
      ((keepOthers peer passes (stream frames)).2 = 0 →
        (frames.filter fun f => f.peer ≠ peer) = frames)
  | 0, frames, h => by
      rw [stream_eq_nil (Nat.le_zero.mp h)]
      exact ⟨rfl, fun _ => rfl⟩
  | passes + 1, [], _ => ⟨rfl, fun _ => rfl⟩
  | passes + 1, f :: fs, h => by
      have hpos := f.length_bytes_pos
      rw [stream_cons, List.length_append] at h
      obtain ⟨hkept, hfreed⟩ := keepOthers_stream peer passes fs (by omega)
      have hnonempty : (f.bytes ++ stream fs).isEmpty = false := by
        rw [List.isEmpty_eq_false_iff, ← List.length_pos_iff, List.length_append]
        omega
      have hcount : headerByteCount + f.header.payloadByteCount = f.bytes.length :=
        f.length_bytes.symm
      rw [stream_cons, keepOthers, hnonempty, decodeHeader_bytes]
      have hpeer : f.header.peer = f.peer := rfl
      simp only [Bool.false_eq_true, if_false, hcount, hpeer, List.drop_left, List.take_left]
      by_cases hp : f.peer = peer
      · rw [if_pos hp, List.filter_cons_of_neg (by simpa using hp)]
        exact ⟨hkept, fun h0 => by dsimp only at h0; omega⟩
      · rw [if_neg hp, List.filter_cons_of_pos (by simpa using hp), stream_cons]
        exact ⟨by rw [← hkept], fun h0 => by rw [hfreed h0]⟩

/-- Nothing is discarded where every frame has begun. -/
theorem discard_of_all_begun {peer : UInt64} {count : ℕ} {frames : List IOWire.Frame}
    (h : (stream frames).length ≤ count) : discard peer count frames = frames := by
  have hall := length_le_startedCount frames h
  rw [discard, List.take_of_length_le hall, List.drop_of_length_le hall]
  exact List.append_nil _

/-- Other frames in place of the ones behind the boundary. -/
theorem Framed.replace (h : Framed c gone started rest)
    (hge : c.outboundOffset ≤ c.unstartedBoundary) {kept : List UInt8} {others : List IOWire.Frame}
    (hkept : kept = stream others) :
    Queues { c with outbound := c.outbound.take c.unstartedBoundary ++ kept }
      (started ++ others) := by
  have htake := h.take_boundary
  have hoff : c.outboundOffset ≤ (c.outbound.take c.unstartedBoundary).length := by
    rw [List.length_take]
    exact le_min hge h.le
  refine ⟨gone, started, others, rfl, ?_, ?_, ?_, h.boundary, ?_⟩
  · rw [List.take_append_of_le_length hoff, List.take_take, min_eq_left hge]
    exact h.written
  · rw [stream_append, ← htake, hkept, List.append_assoc]
  · rw [List.length_append]
    exact hoff.trans (Nat.le_add_right _ _)
  · exact (le_startedCount_of_append h.begun).trans (startedCount_append _ _ _)

/-- **A discard takes out the peer's frames that have not begun to leave**, and nothing else. -/
theorem Queues.discardQueuedFrames {frames : List IOWire.Frame} (h : Queues c frames)
    (peer : UInt64) (hopen : c.isClosed = false) :
    Queues (c.discardQueuedFrames peer).1 (discard peer c.written.length frames) := by
  obtain ⟨gone, started, rest, rfl, h⟩ := h
  rw [IOChannel.discardQueuedFrames]
  split_ifs with hidle
  · -- the socket has all of it
    have hall : (stream (started ++ rest)).length ≤ c.written.length := by
      rw [h.stored, h.length_written, List.length_append]
      simp [hopen] at hidle
      omega
    rw [discard_of_all_begun hall]
    exact ⟨gone, started, rest, rfl, h⟩
  obtain ⟨started, rest, hsplit, hadv, hge⟩ := h.advance
  rw [← hsplit]
  have hle : c.written.length ≤ (stream started).length := by
    rw [hadv.boundary, h.length_written]
    omega
  have hdiscard : discard peer c.written.length (started ++ rest) =
      started ++ rest.filter fun f => f.peer ≠ peer := discard_eq hadv.begun hle
  rw [hdiscard]
  have hdrop := hadv.drop_boundary
  have hlen := congrArg List.length hdrop
  rw [List.length_drop] at hlen
  obtain ⟨hkept, hnone⟩ := keepOthers_stream peer _ rest le_rfl
  dsimp only
  rw [hdrop]
  split_ifs with hbefore hfreed hout
  · rw [hnone hfreed]
    exact ⟨gone, started, rest, rfl, hadv⟩
  · exact ((hadv.replace hge hkept).resetOutbound (ge_of_eq hout)).of_same rfl rfl rfl rfl
  · exact (hadv.replace hge hkept).of_same rfl rfl rfl rfl
  · have hrest : rest = [] := stream_eq_nil (by omega)
    subst hrest
    exact ⟨gone, started, [], rfl, hadv⟩

/-! ## Runs -/

/-- A channel and the frames that went into it and were not taken out again. -/
structure Sending where
  channel : IOChannel := {}
  frames : List IOWire.Frame := []
deriving DecidableEq

/-- What the channel is asked, and the socket becoming writable. -/
inductive Sending.Action
  | send (kind : Kind) (peer tag : UInt64) (object : Option XPCObject) (writes : List SocketWrite)
  | writable (writes : List SocketWrite)
  | discardQueuedFrames (peer : UInt64)

namespace Sending

def step (s : Sending) : Action → Sending
  | .send kind peer tag object writes =>
    let (channel, accepted) := s.channel.send kind peer tag object writes
    { channel,
      frames := if accepted then s.frames ++ (frame kind peer tag object).toList else s.frames }
  | .writable writes =>
    -- the write source is suspended until it is armed, and cancelled by a close
    if s.channel.isWriteArmed ∧ ¬ s.channel.isClosed then
      { s with channel := s.channel.flushOutbound writes }
    else s
  | .discardQueuedFrames peer =>
    { channel := (s.channel.discardQueuedFrames peer).1
      frames :=
        if s.channel.isClosed then s.frames else discard peer s.channel.written.length s.frames }

def run (actions : List Action) : Sending := Run.after step {} actions

theorem step_carries (s : Sending) (a : Action) (h : Carries s.channel s.frames) :
    Carries (s.step a).channel (s.step a).frames := by
  cases a with
  | send kind peer tag object writes =>
    rw [step, IOChannel.send]
    split_ifs with hclosed
    · exact h
    cases frame kind peer tag object with
    | none => exact h
    | some f => exact ((h.2 (Bool.eq_false_of_not_eq_true hclosed)).append f).flushOutbound writes
  | writable writes =>
    rw [step]
    split_ifs with harmed
    · exact (h.2 (Bool.eq_false_of_not_eq_true harmed.2)).flushOutbound writes
    · exact h
  | discardQueuedFrames peer =>
    rw [step]
    dsimp only
    split_ifs with hclosed
    · rw [IOChannel.discardQueuedFrames, if_pos (Or.inl hclosed)]
      exact h
    · have hopen := Bool.eq_false_of_not_eq_true hclosed
      exact ((h.2 hopen).discardQueuedFrames peer hopen).carries

theorem run_carries (actions : List Action) :
    Carries (run actions).channel (run actions).frames :=
  Run.invariant (fun s a => step_carries s a) actions
    (Queues.carries ⟨[], [], [], rfl, rfl, rfl, le_rfl, rfl, le_rfl⟩)

end Sending

/-- The recorded boundary stands between two frames of the queue. -/
def AtBoundary (c : IOChannel) (frames : List IOWire.Frame) : Prop :=
  ∃ started rest, started ++ rest = frames ∧
    (stream started).length + c.outboundOffset = c.written.length + c.unstartedBoundary

theorem Framed.atBoundary (h : Framed c gone started rest) : AtBoundary c (started ++ rest) := by
  refine ⟨started, rest, rfl, ?_⟩
  rw [h.boundary, h.length_written]
  omega

/-- Compacting leaves at most twice what waits. -/
theorem length_compactOutbound (c : IOChannel) :
    c.compactOutbound.outbound.length ≤
      2 * (c.compactOutbound.outbound.length - c.compactOutbound.outboundOffset) := by
  rw [compactOutbound]
  split_ifs with hhalf
  · dsimp only
    omega
  · omega

/-- **What leaves is whole frames**: however sends, writes and discards come, what the socket took
and what waits are the queue's frames, one behind the other; the boundary stands between two of
them, not before the write position where it is used; and compacting bounds the storage.  When the
link is gone, the other end has a beginning of the queue. -/
theorem Sending.run_framed (actions : List Sending.Action) :
    let s := Sending.run actions
    let c := s.channel
    c.written <+: stream s.frames ∧
      c.compactOutbound.outbound.length ≤
        2 * (c.compactOutbound.outbound.length - c.compactOutbound.outboundOffset) ∧
      (c.isClosed = false →
        c.written ++ c.outbound.drop c.outboundOffset = stream s.frames ∧
          AtBoundary c s.frames ∧ AtBoundary c.advanceUnstartedBoundary s.frames ∧
          c.outboundOffset ≤ c.advanceUnstartedBoundary.unstartedBoundary) := by
  obtain ⟨hbegins, hqueues⟩ := Sending.run_carries actions
  refine ⟨hbegins, length_compactOutbound _, fun hopen => ?_⟩
  obtain ⟨gone, started, rest, hframes, h⟩ := hqueues hopen
  obtain ⟨started', rest', hsplit, hadv, hge⟩ := h.advance
  rw [← hframes]
  exact ⟨h.whole, h.atBoundary, by rw [← hsplit]; exact hadv.atBoundary, hge⟩

/-- Between two uses the write position runs past the boundary: of one frame ten bytes have left. -/
theorem Sending.run_boundary_behind :
    ∃ actions, (Sending.run actions).channel.isClosed = false ∧
      (Sending.run actions).channel.unstartedBoundary <
      (Sending.run actions).channel.outboundOffset :=
  ⟨[.send .peerGone 1 0 none [.wrote 9]], by decide⟩

end IOChannel
