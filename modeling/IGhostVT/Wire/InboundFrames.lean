import IGhostVT.Lib.Framing
import IGhostVT.Wire.OutboundFrames

/-!
# Wire/InboundFrames — frames are handed out whole, in order and once

The channel cuts frames off `inbound` and hands each to its owner, who may suspend reading, resume
it, or close the channel from inside the call.  Suspended, the rest waits in `inbound`, and resuming
puts a dispatch of it on the queue.

Closing empties `inbound` under the loop that is about to remove what it handed out, and the removal
is then out of range (`run_closed_inside`).  Runs without such a call hand out exactly the stream's
frames, however it was cut into reads (`run_exactlyOnce`).
-/

open IOWire

namespace IOChannel

/-! ## The program -/

/-- What the owner may ask of the channel, from inside a handler or outside. -/
inductive Call
  | suspendReading
  | resumeReading
  | close
deriving DecidableEq

/-- What one `read` from the socket came to. -/
inductive SocketRead
  /-- The bytes there were; none at the end of the stream. -/
  | got (chunk : List UInt8)
  /-- `EAGAIN`. -/
  | wouldBlock
  | failed
deriving DecidableEq

/-- A channel that has been activated, and what came of reading from it. -/
structure Receiving where
  channel : IOChannel := {}
  /-- Dispatches that `resumeReading` has put on the queue. -/
  queued : ℕ := 0
  handedOut : List (Header × List UInt8) := []
  /-- Every byte read.  Not the program's. -/
  received : List UInt8 := []
  /-- A slice or a removal was out of range, and the process is gone. -/
  isTrapped : Bool := false
deriving DecidableEq

namespace Receiving

def suspendReading (s : Receiving) : Receiving :=
  if s.channel.isReadSuspended ∨ s.channel.isClosed then s
  else { s with channel := { s.channel with isReadSuspended := true } }

/-- The socket will not fire for the frames that arrived with the one that caused the pause, so they
are dispatched from the queue. -/
def resumeReading (s : Receiving) : Receiving :=
  if ¬ s.channel.isReadSuspended ∨ s.channel.isClosed then s
  else { s with channel := { s.channel with isReadSuspended := false }, queued := s.queued + 1 }

def call (s : Receiving) : Call → Receiving
  | .suspendReading => s.suspendReading
  | .resumeReading => s.resumeReading
  | .close => { s with channel := s.channel.close }

def trap (s : Receiving) : Receiving := { s with isTrapped := true }

/-- `bytes[lower ..< upper]`. -/
def slice (bytes : List UInt8) (lower upper : ℕ) : Option (List UInt8) :=
  if lower ≤ upper ∧ upper ≤ bytes.length then some ((bytes.take upper).drop lower) else none

/-- The loop of `dispatchCompleteFrames`, over the bytes there were when it began: what was
consumed, and whether a header was malformed.  `handlers` is what the owner does with each frame
handed out.  Every pass consumes a header at least. -/
def dispatchFrom (bytes : List UInt8) : ℕ → List (List Call) → ℕ → Receiving → Receiving × ℕ × Bool
  | 0, _, consumed, s => (s, consumed, false)
  | passes + 1, handlers, consumed, s =>
    if bytes.length - consumed ≥ headerByteCount then
      match slice bytes consumed bytes.length with
      | none => (s.trap, consumed, false)
      | some rest =>
        match decodeHeader rest with
        | none => (s, consumed, true)
        | some header =>
          let frameCount := headerByteCount + header.payloadByteCount
          if rest.length ≥ frameCount then
            match slice rest headerByteCount frameCount with
            | none => (s.trap, consumed, false)
            | some payload =>
              let s := { s with handedOut := s.handedOut ++ [(header, payload)] }
              let s := (handlers.headD []).foldl call s
              let consumed := consumed + frameCount
              if s.channel.isClosed ∨ s.channel.isReadSuspended then (s, consumed, false)
              else dispatchFrom bytes passes handlers.tail consumed s
          else (s, consumed, false)
    else (s, consumed, false)

/-- `inbound.removeFirst(count)`. -/
def removeFirst (s : Receiving) (count : ℕ) : Receiving :=
  if count ≤ s.channel.inbound.length then
    { s with channel := { s.channel with inbound := s.channel.inbound.drop count } }
  else s.trap

/-- `false` on a malformed header. -/
def dispatchCompleteFrames (s : Receiving) (handlers : List (List Call)) : Receiving × Bool :=
  let (s, consumed, malformed) :=
    dispatchFrom s.channel.inbound s.channel.inbound.length handlers 0 s
  if malformed then (s, false)
  else if consumed > 0 then
    if consumed = s.channel.inbound.length then
      ({ s with channel := { s.channel with inbound := [] } }, true)
    else (s.removeFirst consumed, true)
  else (s, true)

/-- Dispatches, and closes when the link is out of sync. -/
def dispatch (s : Receiving) (handlers : List (List Call)) : Receiving :=
  let (s, inSync) := s.dispatchCompleteFrames handlers
  if inSync then s else s.call .close

def readAvailable (s : Receiving) (handlers : List (List Call)) : SocketRead → Receiving
  | .got [] => s.call .close
  | .got chunk =>
    dispatch
      { s with
        channel := { s.channel with inbound := s.channel.inbound ++ chunk }
        received := s.received ++ chunk } handlers
  | .wouldBlock => s
  | .failed => s.call .close

end Receiving

/-- The socket, the queue and the owner. -/
inductive Receiving.Action
  | readable (read : SocketRead) (handlers : List (List Call))
  | queued (handlers : List (List Call))
  | call (call : Call)
deriving DecidableEq

namespace Receiving

def step (s : Receiving) (action : Action) : Receiving :=
  if s.isTrapped then s
  else match action with
    | .readable read handlers =>
      if s.channel.isReadSuspended ∨ s.channel.isClosed then s else s.readAvailable handlers read
    | .queued handlers =>
      if s.queued = 0 then s
      else
        let s := { s with queued := s.queued - 1 }
        if s.channel.isClosed ∨ s.channel.isReadSuspended then s else s.dispatch handlers
    | .call call => s.call call

def run (actions : List Action) : Receiving := Run.after step {} actions

end Receiving

/-! ## The stream's frames -/

/-- One frame off the front of what has arrived. -/
def cut (bytes : List UInt8) : Cut (Header × List UInt8) :=
  if bytes.length < headerByteCount then .incomplete
  else match decodeHeader bytes with
    | none => .malformed
    | some header =>
      let frameCount := headerByteCount + header.payloadByteCount
      if frameCount ≤ bytes.length then
        .frame (header, (bytes.take frameCount).drop headerByteCount) frameCount
      else .incomplete

theorem cut_eq_frame {bytes : List UInt8} {a : Header × List UInt8} {n : ℕ} :
    cut bytes = .frame a n ↔ ∃ header, decodeHeader bytes = some header ∧
      n = headerByteCount + header.payloadByteCount ∧ n ≤ bytes.length ∧
      a = (header, (bytes.take n).drop headerByteCount) := by
  rw [cut]
  constructor
  · intro h
    split_ifs at h with hshort
    revert h
    cases decodeHeader bytes with
    | none => exact fun h => by cases h
    | some header =>
      dsimp only
      split_ifs with hlong
      · intro h
        obtain ⟨rfl, rfl⟩ := Cut.frame.inj h
        exact ⟨header, rfl, rfl, hlong, rfl⟩
      · exact fun h => by cases h
  · rintro ⟨header, hheader, rfl, hlong, rfl⟩
    rw [if_neg (by omega), hheader]
    exact if_pos hlong

theorem cut_eq_malformed {bytes : List UInt8} :
    cut bytes = .malformed ↔ headerByteCount ≤ bytes.length ∧ decodeHeader bytes = none := by
  rw [cut]
  constructor
  · intro h
    split_ifs at h with hshort
    refine ⟨not_lt.mp hshort, ?_⟩
    revert h
    cases decodeHeader bytes with
    | none => exact fun _ => rfl
    | some header =>
      dsimp only
      split_ifs
      · exact fun h => by cases h
      · exact fun h => by cases h
  · rintro ⟨hlong, hheader⟩
    rw [if_neg (not_lt.mpr hlong), hheader]

/-- The channel's framing. -/
def framing : Framing UInt8 (Header × List UInt8) where
  next := cut
  pos h := by
    obtain ⟨header, -, rfl, -, -⟩ := cut_eq_frame.mp h
    exact Nat.lt_of_lt_of_le (by decide) (Nat.le_add_right _ _)
  le h := by
    obtain ⟨header, -, -, hlong, -⟩ := cut_eq_frame.mp h
    exact hlong
  frame_append h more := by
    obtain ⟨header, hheader, hn, hlong, ha⟩ := cut_eq_frame.mp h
    refine cut_eq_frame.mpr ⟨header, ?_, hn, ?_, ?_⟩
    · rw [decodeHeader_append (by omega), hheader]
    · rw [List.length_append]
      omega
    · rw [List.take_append_of_le_length hlong]
      exact ha
  malformed_append h more := by
    obtain ⟨hlong, hheader⟩ := cut_eq_malformed.mp h
    refine cut_eq_malformed.mpr ⟨?_, ?_⟩
    · rw [List.length_append]
      omega
    · rw [decodeHeader_append hlong, hheader]

/-- What is handed out of a frame. -/
def parts (f : IOWire.Frame) : Header × List UInt8 := (f.header, f.payload)

theorem cut_bytes (f : IOWire.Frame) (more : List UInt8) :
    cut (f.bytes ++ more) = .frame (parts f) f.bytes.length := by
  refine cut_eq_frame.mpr ⟨f.header, decodeHeader_bytes f more, f.length_bytes, ?_, ?_⟩
  · rw [List.length_append]
    exact Nat.le_add_right _ _
  · rw [List.take_left, parts, IOWire.Frame.bytes, List.drop_left' (length_appendHeader _)]

/-- **Cutting up whole frames gives the frames.** -/
theorem whole_stream : ∀ frames :
    List IOWire.Frame, framing.whole (stream frames) = frames.map parts
  | [] => Framing.whole_of_not_frame fun a n h => by
      have hpos := framing.pos h
      have hle := framing.le h
      rw [stream_nil, List.length_nil] at hle
      omega
  | f :: fs => by
      rw [stream_cons, Framing.whole_of_frame (cut_bytes f (stream fs)), List.drop_left,
        whole_stream fs, List.map_cons]

/-! ## One dispatch -/

namespace Receiving

variable {s : Receiving}

/-- What a call other than a close leaves alone. -/
structure Apart (s s' : Receiving) : Prop where
  inbound : s'.channel.inbound = s.channel.inbound
  isClosed : s'.channel.isClosed = s.channel.isClosed
  handedOut : s'.handedOut = s.handedOut
  received : s'.received = s.received
  isTrapped : s'.isTrapped = s.isTrapped

theorem call_apart (s : Receiving) {c : Call} (hc : c ≠ .close) : Apart s (s.call c) := by
  cases c with
  | suspendReading =>
    rw [call, suspendReading]
    split_ifs <;> exact ⟨rfl, rfl, rfl, rfl, rfl⟩
  | resumeReading =>
    rw [call, resumeReading]
    split_ifs <;> exact ⟨rfl, rfl, rfl, rfl, rfl⟩
  | close => exact absurd rfl hc

theorem calls_apart : ∀ (calls : List Call) (s : Receiving), .close ∉ calls →
    Apart s (calls.foldl call s)
  | [], _, _ => ⟨rfl, rfl, rfl, rfl, rfl⟩
  | c :: calls, s, h => by
      rw [List.mem_cons, not_or] at h
      have hfirst := call_apart s (Ne.symm h.1)
      have hrest := calls_apart calls (s.call c) h.2
      exact ⟨hrest.inbound.trans hfirst.inbound, hrest.isClosed.trans hfirst.isClosed,
        hrest.handedOut.trans hfirst.handedOut, hrest.received.trans hfirst.received,
        hrest.isTrapped.trans hfirst.isTrapped⟩

/-- No handler closes the channel. -/
def KeepsOpen (handlers : List (List Call)) : Prop := ∀ calls ∈ handlers, .close ∉ calls

instance (handlers : List (List Call)) : Decidable (KeepsOpen handlers) :=
  inferInstanceAs (Decidable (∀ calls ∈ handlers, .close ∉ calls))

theorem KeepsOpen.head {handlers : List (List Call)} (h : KeepsOpen handlers) :
    .close ∉ handlers.headD [] := by
  cases handlers with
  | nil => exact List.not_mem_nil
  | cons calls rest => exact h calls List.mem_cons_self

theorem KeepsOpen.tail {handlers : List (List Call)} (h : KeepsOpen handlers) :
    KeepsOpen handlers.tail := fun calls hmem => h calls (List.mem_of_mem_tail hmem)

/-- The channel is open, the loop runs over what is in `inbound`, and what it handed out is what it
consumed. -/
structure Dispatching (s : Receiving) (bytes : List UInt8) (consumed : ℕ) : Prop where
  isTrapped : s.isTrapped = false
  isClosed : s.channel.isClosed = false
  inbound : s.channel.inbound = bytes
  le : consumed ≤ bytes.length
  took : framing.Took s.handedOut s.received (bytes.drop consumed)

theorem slice_to_end {bytes : List UInt8} {consumed : ℕ} (h : consumed ≤ bytes.length) :
    slice bytes consumed bytes.length = some (bytes.drop consumed) := by
  rw [slice, if_pos ⟨h, le_rfl⟩, List.take_length]

/-- **The loop stops where there is no frame to hand out**, unless it was suspended. -/
theorem Dispatching.dispatchFrom {bytes : List UInt8} : ∀ (passes : ℕ) {handlers : List (List Call)}
    {consumed : ℕ} {s : Receiving}, Dispatching s bytes consumed → KeepsOpen handlers →
    bytes.length ≤ consumed + passes →
    ∃ s' consumed' malformed,
      Receiving.dispatchFrom bytes passes handlers consumed s = (s', consumed', malformed) ∧
      Dispatching s' bytes consumed' ∧
      (malformed = false → s'.channel.isReadSuspended = false →
        ∀ a n, framing.next (bytes.drop consumed') ≠ .frame a n)
  | 0, handlers, consumed, s, h, _, hpasses => by
      refine ⟨s, consumed, false, rfl, h, fun _ _ a n hnext => ?_⟩
      have hpos := framing.pos hnext
      have hle := framing.le hnext
      rw [List.length_drop] at hle
      omega
  | passes + 1, handlers, consumed, s, h, hopen, hpasses => by
      rw [Receiving.dispatchFrom, slice_to_end h.le]
      dsimp only
      split_ifs with hheader
      swap
      · refine ⟨s, consumed, false, rfl, h, fun _ _ a n hnext => ?_⟩
        obtain ⟨header, -, rfl, hlong, -⟩ := cut_eq_frame.mp hnext
        rw [List.length_drop] at hlong
        omega
      cases hdec : decodeHeader (bytes.drop consumed) with
      | none => exact ⟨s, consumed, true, rfl, h, fun hm => by cases hm⟩
      | some header =>
        dsimp only
        split_ifs with hlong
        swap
        · refine ⟨s, consumed, false, rfl, h, fun _ _ a n hnext => ?_⟩
          obtain ⟨header', hdec', rfl, hlong', -⟩ := cut_eq_frame.mp hnext
          rw [hdec, Option.some_inj] at hdec'
          rw [hdec'] at hlong
          exact hlong hlong'
        rw [slice, if_pos ⟨Nat.le_add_right _ _, hlong⟩]
        dsimp only
        have hlen : (bytes.drop consumed).length = bytes.length - consumed := List.length_drop
        have hcount : headerByteCount = 24 := rfl
        have hnext : framing.next (bytes.drop consumed) = .frame _ _ :=
          cut_eq_frame.mpr ⟨header, hdec, rfl, hlong, rfl⟩
        have hcalls := calls_apart (handlers.headD [])
          { s with handedOut := s.handedOut ++ [(header, ((bytes.drop consumed).take
            (headerByteCount + header.payloadByteCount)).drop headerByteCount)] } hopen.head
        have hthen : Dispatching ((handlers.headD []).foldl call
            { s with handedOut := s.handedOut ++ [(header, ((bytes.drop consumed).take
              (headerByteCount + header.payloadByteCount)).drop headerByteCount)] }) bytes
            (consumed + (headerByteCount + header.payloadByteCount)) := by
          refine ⟨hcalls.isTrapped.trans h.isTrapped, hcalls.isClosed.trans h.isClosed,
            hcalls.inbound.trans h.inbound, by omega, ?_⟩
          rw [hcalls.handedOut, hcalls.received, ← List.drop_drop]
          exact h.took.snoc hnext
        split_ifs with hstop
        · refine ⟨_, _, false, rfl, hthen, fun _ hsusp => ?_⟩
          rcases hstop with hclosed | hsuspended
          · exact absurd (hclosed.symm.trans hthen.isClosed) (by simp)
          · exact absurd (hsuspended.symm.trans hsusp) (by simp)
        · exact Dispatching.dispatchFrom passes hthen hopen.tail (by omega)

/-- **What holds between two steps**: what was handed out was cut off the stream, and what is left
waits in `inbound`, where no whole frame waits unless reading is suspended or a dispatch is
queued. -/
structure Orderly (s : Receiving) : Prop where
  isTrapped : s.isTrapped = false
  took : ∃ rest, framing.Took s.handedOut s.received rest ∧
    (s.channel.isClosed = false → s.channel.inbound = rest ∧
      (s.channel.isReadSuspended = false → s.queued = 0 → ∀ a n, framing.next rest ≠ .frame a n))

theorem orderly_close {rest : List UInt8} (htrap : s.isTrapped = false)
    (htook : framing.Took s.handedOut s.received rest) : Orderly (s.call .close) := by
  refine ⟨htrap, rest, htook, fun hopen => ?_⟩
  exact absurd ((close_isClosed s.channel).symm.trans hopen) (by simp)

theorem Orderly.call (h : Orderly s) (c : Call) : Orderly (s.call c) := by
  obtain ⟨rest, htook, hwait⟩ := h.took
  cases c with
  | suspendReading =>
    rw [Receiving.call, suspendReading]
    split_ifs with hidle
    · exact h
    · exact ⟨h.isTrapped, rest, htook, fun hopen => ⟨(hwait hopen).1, fun hsusp => by cases hsusp⟩⟩
  | resumeReading =>
    rw [Receiving.call, resumeReading]
    split_ifs with hidle
    · exact h
    · exact ⟨h.isTrapped, rest, htook, fun hopen => ⟨(hwait hopen).1, fun _ hq => by cases hq⟩⟩
  | close => exact orderly_close h.isTrapped htook

/-- What the dispatch consumed is removed. -/
theorem Dispatching.removed {bytes : List UInt8} {consumed : ℕ} (h : Dispatching s bytes consumed)
    (hend : s.channel.isReadSuspended = false →
      ∀ a n, framing.next (bytes.drop consumed) ≠ .frame a n) {left : List UInt8}
    (hleft : left = bytes.drop consumed) :
    Orderly { s with channel := { s.channel with inbound := left } } :=
  ⟨h.isTrapped, bytes.drop consumed, h.took, fun _ => ⟨hleft, fun hsusp _ => hend hsusp⟩⟩

/-- **A dispatch hands out what there is and keeps the rest.** -/
theorem Dispatching.orderly {handlers : List (List Call)} (hs : Dispatching s s.channel.inbound 0)
    (hopen : KeepsOpen handlers) : Orderly (s.dispatch handlers) := by
  obtain ⟨s', consumed, malformed, hloop, hd, hend⟩ :=
    hs.dispatchFrom s.channel.inbound.length hopen (Nat.le_add_left _ _)
  rw [Receiving.dispatch, dispatchCompleteFrames, hloop]
  cases malformed with
  | true => exact orderly_close hd.isTrapped hd.took
  | false =>
    have hle : consumed ≤ s'.channel.inbound.length := by
      rw [hd.inbound]
      exact hd.le
    have hdrop : s'.channel.inbound.drop consumed = s.channel.inbound.drop consumed := by
      rw [hd.inbound]
    dsimp only
    rw [if_neg Bool.false_ne_true]
    rcases Nat.eq_zero_or_pos consumed with rfl | hpos
    · rw [if_neg (lt_irrefl 0)]
      exact hd.removed (hend rfl) (by rw [hd.inbound, List.drop_zero])
    rw [if_pos hpos]
    by_cases hall : consumed = s'.channel.inbound.length
    · rw [if_pos hall]
      exact hd.removed (hend rfl) (by rw [← hdrop, hall, List.drop_length])
    · rw [if_neg hall, removeFirst, if_pos hle]
      exact hd.removed (hend rfl) hdrop

theorem Orderly.dispatching (h : Orderly s) (hopen : s.channel.isClosed = false) :
    Dispatching s s.channel.inbound 0 := by
  obtain ⟨rest, htook, hwait⟩ := h.took
  refine ⟨h.isTrapped, hopen, rfl, Nat.zero_le _, ?_⟩
  rw [(hwait hopen).1, List.drop_zero]
  exact htook

theorem Dispatching.received (h : Dispatching s s.channel.inbound 0) (chunk : List UInt8) :
    Dispatching
      { s with
        channel := { s.channel with inbound := s.channel.inbound ++ chunk }
        received := s.received ++ chunk }
      (s.channel.inbound ++ chunk) 0 :=
  ⟨h.isTrapped, h.isClosed, rfl, Nat.zero_le _, h.took.append chunk⟩

/-- The handlers of an action. -/
def Action.handlers : Action → List (List Call)
  | .readable _ handlers => handlers
  | .queued handlers => handlers
  | .call _ => []

theorem Orderly.step (h : Orderly s) (action : Action) (hopen : KeepsOpen action.handlers) :
    Orderly (s.step action) := by
  obtain ⟨rest, htook, hwait⟩ := h.took
  rw [Receiving.step.eq_def, if_neg (by simp [h.isTrapped])]
  cases action with
  | readable read handlers =>
    dsimp only
    split_ifs with hidle
    · exact h
    rw [not_or, Bool.not_eq_true, Bool.not_eq_true] at hidle
    cases read with
    | got chunk =>
      cases chunk with
      | nil => exact orderly_close h.isTrapped htook
      | cons first more => exact ((h.dispatching hidle.2).received (first :: more)).orderly hopen
    | wouldBlock => exact h
    | failed => exact orderly_close h.isTrapped htook
  | queued handlers =>
    dsimp only
    split_ifs with hnone hidle
    · exact h
    · refine ⟨h.isTrapped, rest, htook, fun hclosed => ⟨(hwait hclosed).1, fun hsusp => ?_⟩⟩
      rcases hidle with hclosed' | hsusp'
      · exact absurd (hclosed'.symm.trans hclosed) (by simp)
      · exact absurd (hsusp'.symm.trans hsusp) (by simp)
    · rw [not_or, Bool.not_eq_true, Bool.not_eq_true] at hidle
      have hd := h.dispatching hidle.1
      exact Dispatching.orderly ⟨hd.isTrapped, hd.isClosed, rfl, Nat.zero_le _, hd.took⟩ hopen
  | call c => exact h.call c

theorem run_orderly (actions : List Action) (h : ∀ a ∈ actions, KeepsOpen a.handlers) :
    Orderly (run actions) := by
  refine Run.Along.invariant (P := fun _ a => KeepsOpen a.handlers) (fun s a hs ha => hs.step a ha)
    actions ?_ (Run.along_of_forall actions h)
  refine ⟨rfl, [], .nil _, fun _ => ⟨rfl, fun _ _ a n hnext => ?_⟩⟩
  have hpos := framing.pos hnext
  have hle := framing.le hnext
  rw [List.length_nil] at hle
  omega

/-- **Frames are handed out whole, in order and once**, in every run in which no handler closes the
channel from inside its call; nothing is out of range, and an open channel that is not suspended has
handed out all there is once the queue has run. -/
theorem run_exactlyOnce (actions : List Action) (h : ∀ a ∈ actions, KeepsOpen a.handlers) :
    let s := run actions
    s.isTrapped = false ∧ s.handedOut <+: framing.whole s.received ∧
      (∀ frames, s.received <+: stream frames → s.handedOut <+: frames.map parts) ∧
      (s.channel.isClosed = false → s.channel.isReadSuspended = false → s.queued = 0 →
        s.handedOut = framing.whole s.received) := by
  have horderly : Orderly (run actions) := run_orderly actions h
  obtain ⟨rest, htook, hwait⟩ := horderly.took
  refine ⟨horderly.isTrapped, ?_, ?_, ?_⟩
  · have hbegins := htook.begins []
    rwa [List.append_nil] at hbegins
  · rintro frames ⟨more, hmore⟩
    rw [← whole_stream, ← hmore]
    exact htook.begins more
  · intro hopen hsusp hqueued
    exact htook.all ((hwait hopen).2 hsusp hqueued)

/-- Two frames in three reads, the first of which suspends: the second is handed out when the queue
runs after the resume. -/
theorem exactlyOnce_suspended :
    let actions : List Action :=
      [.readable
        (.got ((stream [⟨.event, 1, 0, [7], by decide⟩, ⟨.event, 2, 0, [], by decide⟩]).take 30))
          [[.suspendReading]],
        .call .resumeReading, .queued [],
        .readable
          (.got ((stream [⟨.event, 1, 0, [7], by decide⟩, ⟨.event, 2, 0, [], by decide⟩]).drop 30))
            []]
    (run actions).handedOut =
      [parts ⟨.event, 1, 0, [7], by decide⟩, parts ⟨.event, 2, 0, [], by decide⟩] ∧
      (run actions).isTrapped = false :=
  ⟨by decide +kernel, (run_exactlyOnce _ (by decide)).1⟩

/-- One whole frame whose handler closes the channel: `inbound` is empty when the frame's 24 bytes
are to be removed from it. -/
theorem run_closed_inside :
    ∃ actions, (run actions).isTrapped = true :=
  ⟨[.readable (.got (stream [⟨.peerGone, 1, 0, [], by decide⟩])) [[.close]]], by decide +kernel⟩

end Receiving

end IOChannel
