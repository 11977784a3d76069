import IGhostVT.Lib.Framing
import IGhostVT.Lib.Run
import IGhostVT.Remote.RemoteFrameConnection
import IGhostVT.Wire.IOCodecRoundTrip

/-!
# Remote/RemoteFrames — a remote link hands out each frame once

What the link hands out is what can be cut off the bytes that arrived (`framing`), so it depends
neither on how they arrived nor on when the owner paused.  A frame as the other end sends it, plain
or compressed, is cut off as that frame (`cut_bytes`); behind a header that is refused nothing is.
The owner may allow longer or shorter payloads from inside a handler: what is cut off under one
limit is cut off under every higher one (`cut_mono`), so one framing speaks of a whole run.
-/

open IOWire RemoteFrameCompression

namespace RemoteFrameConnection

/-! ## Cutting -/

/-- A header the link takes, and whether the payload is compressed. -/
def headerOf (settings : RemoteFrameSettings) (limit : ℕ) (bytes : List UInt8) :
    Option (Header × Bool) :=
  let flags := bytes.getD flagsOffset 0
  let isCompressed := flags == compressedFlag
  if flags = 0 ∨ (isCompressed ∧ settings.acceptsCompressedInput) then
    match decodeHeader bytes with
    | none => none
    | some header =>
      if header.payloadByteCount ≤ limit then some (header, isCompressed) else none
  else none

/-- A frame behind its header. -/
def frameOf (settings : RemoteFrameSettings) (limit : ℕ) (header : Header) (isCompressed : Bool)
    (bytes : List UInt8) : Cut RemoteFrame :=
  let frameCount := headerByteCount + header.payloadByteCount
  if bytes.length < frameCount then .incomplete
  else match readPayload settings limit isCompressed
      ((bytes.drop headerByteCount).take header.payloadByteCount) with
    | (none, _) => .malformed
    | (some object, plainByteCount) => .frame ⟨header, object, plainByteCount⟩ frameCount

/-- One frame off the front of what has arrived, its payload no longer than `limit`. -/
def cut (settings : RemoteFrameSettings) (limit : ℕ) (bytes : List UInt8) : Cut RemoteFrame :=
  if bytes.length < headerByteCount then .incomplete
  else match headerOf settings limit bytes with
    | none => .malformed
    | some (header, isCompressed) => frameOf settings limit header isCompressed bytes

variable {settings : RemoteFrameSettings} {limit limit' : ℕ}

theorem headerOf_append {bytes : List UInt8} (h : headerByteCount ≤ bytes.length)
    (more : List UInt8) :
    headerOf settings limit (bytes ++ more) = headerOf settings limit bytes := by
  have hflags : (bytes ++ more).getD flagsOffset 0 = bytes.getD flagsOffset 0 := by
    have hlt : flagsOffset < bytes.length := lt_of_lt_of_le (by decide) h
    rw [List.getD_eq_getElem?_getD, List.getElem?_append_left hlt, List.getD_eq_getElem?_getD]
  rw [headerOf, headerOf, hflags, decodeHeader_append h]

/-- A frame that is whole, or is none, stays so. -/
theorem frameOf_append {header : Header} {isCompressed : Bool} {bytes : List UInt8}
    (h : frameOf settings limit header isCompressed bytes ≠ .incomplete) (more : List UInt8) :
    frameOf settings limit header isCompressed (bytes ++ more) =
      frameOf settings limit header isCompressed bytes := by
  have hlong : headerByteCount + header.payloadByteCount ≤ bytes.length := by
    by_contra hshort
    rw [frameOf] at h
    exact h (if_pos (not_le.mp hshort))
  have hpayload : ((bytes ++ more).drop headerByteCount).take header.payloadByteCount =
      (bytes.drop headerByteCount).take header.payloadByteCount := by
    rw [List.drop_append_of_le_length (by omega), List.take_append_of_le_length]
    rw [List.length_drop]
    omega
  have hlong' : ¬ (bytes ++ more).length < headerByteCount + header.payloadByteCount := by
    rw [List.length_append]
    omega
  rw [frameOf, frameOf, if_neg hlong', if_neg (not_lt.mpr hlong), hpayload]

theorem cut_append {bytes : List UInt8} (h : cut settings limit bytes ≠ .incomplete)
    (more : List UInt8) :
    cut settings limit (bytes ++ more) = cut settings limit bytes := by
  have hlong : headerByteCount ≤ bytes.length := by
    by_contra hshort
    rw [cut] at h
    exact h (if_pos (not_le.mp hshort))
  have hlong' : ¬ (bytes ++ more).length < headerByteCount := by
    rw [List.length_append]
    omega
  rw [cut, if_neg (not_lt.mpr hlong)] at h
  rw [cut, cut, if_neg hlong', if_neg (not_lt.mpr hlong), headerOf_append hlong]
  revert h
  cases headerOf settings limit bytes with
  | none => exact fun _ => rfl
  | some hc => exact fun h => frameOf_append h more

/-- A frame is cut at its end. -/
theorem frameOf_eq_frame {header : Header} {isCompressed : Bool} {bytes : List UInt8}
    {a : RemoteFrame} {n : ℕ} (h : frameOf settings limit header isCompressed bytes = .frame a n) :
    n = headerByteCount + header.payloadByteCount ∧ n ≤ bytes.length := by
  rw [frameOf] at h
  split_ifs at h with hshort
  split at h
  · cases h
  · obtain ⟨-, rfl⟩ := Cut.frame.inj h
    exact ⟨rfl, not_lt.mp hshort⟩

theorem cut_eq_frame {bytes : List UInt8} {a : RemoteFrame} {n : ℕ}
    (h : cut settings limit bytes = .frame a n) : headerByteCount ≤ n ∧ n ≤ bytes.length := by
  rw [cut] at h
  split_ifs at h with hshort
  split at h
  · cases h
  · obtain ⟨rfl, hle⟩ := frameOf_eq_frame h
    exact ⟨Nat.le_add_right _ _, hle⟩

/-- The link's framing under a limit. -/
def framing (settings : RemoteFrameSettings) (limit : ℕ) : Framing UInt8 RemoteFrame where
  next := cut settings limit
  pos h := Nat.lt_of_lt_of_le (by decide) (cut_eq_frame h).1
  le h := (cut_eq_frame h).2
  frame_append h more := by
    rw [cut_append (by rw [h]; exact fun hno => by cases hno), h]
  malformed_append h more := by
    rw [cut_append (by rw [h]; exact fun hno => by cases hno), h]

/-- A header taken under one limit is taken under a higher one. -/
theorem headerOf_mono (hle : limit ≤ limit') {bytes : List UInt8} {header : Header}
    {isCompressed : Bool} (h : headerOf settings limit bytes = some (header, isCompressed)) :
    headerOf settings limit' bytes = some (header, isCompressed) := by
  rw [headerOf] at h ⊢
  split at h
  case isFalse => cases h
  case isTrue hflags =>
    rw [if_pos hflags]
    revert h
    cases decodeHeader bytes with
    | none => exact id
    | some header' =>
      dsimp only
      split
      case isFalse => exact fun h => by cases h
      case isTrue hallowed => exact fun h => (if_pos (hallowed.trans hle)).trans h

/-- And so is a payload. -/
theorem readPayload_mono (hle : limit ≤ limit') {isCompressed : Bool} {payload : List UInt8}
    {object : XPCObject} {plainByteCount : ℕ}
    (h : readPayload settings limit isCompressed payload = (some object, plainByteCount)) :
    readPayload settings limit' isCompressed payload = (some object, plainByteCount) := by
  have hdecompress : ∀ plain, decompress settings.lz limit payload = some plain →
      decompress settings.lz limit' payload = some plain := by
    intro plain hplain
    rw [decompress] at hplain ⊢
    dsimp only at hplain ⊢
    split_ifs at hplain with hlong hallowed hlength
    rw [if_neg (not_not.mpr hlong), if_pos ⟨hallowed.1, hallowed.2.trans hle⟩, if_pos hlength,
      hplain]
  rw [readPayload] at h ⊢
  split at h
  case isFalse hplain => rwa [if_neg hplain]
  case isTrue hcompressed =>
    rw [if_pos hcompressed]
    revert h
    cases hplain : decompress settings.lz limit payload with
    | none => exact fun h => by cases h
    | some plain => rw [hdecompress plain hplain]; exact id

/-- **Under a higher limit the same is cut off**, unless it was refused. -/
theorem cut_mono (hle : limit ≤ limit') {bytes : List UInt8}
    (h : cut settings limit bytes ≠ .malformed) :
    cut settings limit' bytes = cut settings limit bytes := by
  rw [cut] at h
  rw [cut, cut]
  split
  case isTrue => rfl
  case isFalse hlong =>
    rw [if_neg hlong] at h
    cases hheader : headerOf settings limit bytes with
    | none =>
      rw [hheader] at h
      exact absurd rfl h
    | some taken =>
      obtain ⟨header, isCompressed⟩ := taken
      rw [hheader] at h
      rw [headerOf_mono hle hheader]
      dsimp only at h ⊢
      rw [frameOf] at h
      rw [frameOf, frameOf]
      split
      case isTrue => rfl
      case isFalse hwhole =>
        rw [if_neg hwhole] at h
        cases hread : readPayload settings limit isCompressed
            ((bytes.drop headerByteCount).take header.payloadByteCount) with
        | mk object plainByteCount =>
          rw [hread] at h
          cases object with
          | none => exact absurd rfl h
          | some object => rw [readPayload_mono hle hread]

theorem next_mono (hle : limit ≤ limit') {bytes : List UInt8} {a : RemoteFrame} {n : ℕ}
    (h : (framing settings limit).next bytes = .frame a n) :
    (framing settings limit').next bytes = .frame a n := by
  have hcut : cut settings limit bytes = .frame a n := h
  exact (cut_mono hle (by rw [hcut]; exact fun hno => by cases hno)).trans hcut

theorem next_incomplete_mono (hle : limit ≤ limit') {bytes : List UInt8}
    (h : (framing settings limit).next bytes = .incomplete) :
    (framing settings limit').next bytes = .incomplete := by
  have hcut : cut settings limit bytes = .incomplete := h
  exact (cut_mono hle (by rw [hcut]; exact fun hno => by cases hno)).trans hcut

/-! ## One pass -/

variable {c : RemoteFrameConnection} {handlers : List (List RemoteFrameCall)}

/-- A frame handed out, before its handler runs. -/
def handOut (c : RemoteFrameConnection) (a : RemoteFrame) : RemoteFrameConnection :=
  { c with
    receivedByteCount := c.receivedByteCount + (headerByteCount + a.plainByteCount)
    delivered := c.delivered ++ [a] }

theorem getD_drop_flags (bytes : List UInt8) (offset : ℕ) :
    bytes.getD (offset + flagsOffset) 0 = (bytes.drop offset).getD flagsOffset 0 := by
  rw [List.getD_eq_getElem?_getD, List.getD_eq_getElem?_getD, List.getElem?_drop]

section Pass

variable {passes offset : ℕ} (hpaused : c.isReceivePaused = false)
  (hlong : headerByteCount ≤ c.buffer.length - offset)

include hpaused hlong

/-- A header that is refused ends the link. -/
theorem drainFrom_refused
    (hheader : headerOf settings c.maximumPayloadByteCount (c.buffer.drop offset) = none) :
    drainFrom settings (passes + 1) handlers offset c = (c.close, offset, false) := by
  rw [headerOf] at hheader
  rw [drainFrom, if_pos ⟨by simp [hpaused], hlong⟩, getD_drop_flags]
  dsimp only at hheader ⊢
  by_cases hok : (c.buffer.drop offset).getD flagsOffset 0 = 0 ∨
    (((c.buffer.drop offset).getD flagsOffset 0 == compressedFlag) = true ∧
      settings.acceptsCompressedInput = true)
  · rw [if_pos hok] at hheader
    rw [if_neg (not_not.mpr hok)]
    revert hheader
    cases decodeHeader (c.buffer.drop offset) with
    | none => exact fun _ => rfl
    | some header =>
      dsimp only
      by_cases hle : header.payloadByteCount ≤ c.maximumPayloadByteCount
      · rw [if_pos hle]
        exact fun h => by cases h
      · rw [if_neg hle, if_pos (not_le.mp hle)]
        exact fun _ => rfl
  · rw [if_pos hok]

/-- A header that is taken: the frame behind it is handed out once it is whole. -/
theorem drainFrom_header {header : Header} {isCompressed : Bool}
    (hheader : headerOf settings c.maximumPayloadByteCount (c.buffer.drop offset) =
      some (header, isCompressed)) :
    drainFrom settings (passes + 1) handlers offset c =
      if c.buffer.length < offset + (headerByteCount + header.payloadByteCount) then (c,
        offset, true)
      else match readPayload settings c.maximumPayloadByteCount isCompressed
          ((c.buffer.drop (offset + headerByteCount)).take header.payloadByteCount) with
        | (none, plainByteCount) =>
          ({ c with receivedByteCount := c.receivedByteCount +
            (headerByteCount + plainByteCount) }.close,
            offset + (headerByteCount + header.payloadByteCount), false)
        | (some object, plainByteCount) =>
          let c := (handlers.headD []).foldl call (c.handOut ⟨header, object, plainByteCount⟩)
          if c.isClosed then (c, offset + (headerByteCount + header.payloadByteCount), false)
          else drainFrom settings passes handlers.tail
            (offset + (headerByteCount + header.payloadByteCount)) c := by
  rw [headerOf] at hheader
  rw [drainFrom, if_pos ⟨by simp [hpaused], hlong⟩, getD_drop_flags]
  dsimp only at hheader ⊢
  by_cases hok : (c.buffer.drop offset).getD flagsOffset 0 = 0 ∨
    (((c.buffer.drop offset).getD flagsOffset 0 == compressedFlag) = true ∧
      settings.acceptsCompressedInput = true)
  swap
  · rw [if_neg hok] at hheader
    cases hheader
  rw [if_pos hok] at hheader
  rw [if_neg (not_not.mpr hok)]
  revert hheader
  cases decodeHeader (c.buffer.drop offset) with
  | none => exact fun h => by cases h
  | some header' =>
    dsimp only
    by_cases hle : header'.payloadByteCount ≤ c.maximumPayloadByteCount
    swap
    · rw [if_neg hle]
      exact fun h => by cases h
    rw [if_pos hle, if_neg (not_lt.mpr hle)]
    intro h
    obtain ⟨rfl, rfl⟩ := Prod.mk.inj (Option.some_inj.mp h)
    generalize readPayload settings _ _ _ = read
    obtain ⟨object, plainByteCount⟩ := read
    cases object with
    | none => rfl
    | some object =>
      dsimp only
      rw [hpaused, Bool.or_false, handOut, hpaused]

end Pass

/-! ## Draining -/

/-- What a handler leaves alone, and what it may allow. -/
structure Apart (c c' : RemoteFrameConnection) : Prop where
  buffer : c'.buffer = c.buffer
  delivered : c'.delivered = c.delivered
  arrived : c'.arrived = c.arrived
  receivedByteCount : c'.receivedByteCount = c.receivedByteCount
  deliveredWhilePaused : c'.deliveredWhilePaused = c.deliveredWhilePaused
  isReady : c'.isReady = c.isReady
  isReceiving : c'.isReceiving = c.isReceiving
  highest : c.highestPayloadByteCount ≤ c'.highestPayloadByteCount
  allowed : c.maximumPayloadByteCount ≤ c.highestPayloadByteCount →
    c'.maximumPayloadByteCount ≤ c'.highestPayloadByteCount

theorem calls_apart : ∀ (calls : List RemoteFrameCall) (c : RemoteFrameConnection),
    Apart c (calls.foldl call c)
  | [], _ => ⟨rfl, rfl, rfl, rfl, rfl, rfl, rfl, le_rfl, id⟩
  | .pause :: calls, c => by
      have h := calls_apart calls (c.call .pause)
      exact ⟨h.buffer, h.delivered, h.arrived, h.receivedByteCount, h.deliveredWhilePaused,
        h.isReady, h.isReceiving, h.highest, h.allowed⟩
  | .close :: calls, c => by
      have h := calls_apart calls (c.call .close)
      exact ⟨h.buffer, h.delivered, h.arrived, h.receivedByteCount, h.deliveredWhilePaused,
        h.isReady, h.isReceiving, h.highest, h.allowed⟩
  | .setMaximumPayloadByteCount n :: calls, c => by
      have h := calls_apart calls (c.call (.setMaximumPayloadByteCount n))
      exact ⟨h.buffer, h.delivered, h.arrived, h.receivedByteCount, h.deliveredWhilePaused,
        h.isReady, h.isReceiving, (le_max_left _ n).trans h.highest,
        fun _ => h.allowed (le_max_right _ _)⟩

/-- Without a close the link stays open. -/
theorem calls_isClosed : ∀ {calls : List RemoteFrameCall} {c : RemoteFrameConnection},
    .close ∉ calls → (calls.foldl call c).isClosed = c.isClosed
  | [], _, _ => rfl
  | .pause :: _, c, h =>
    calls_isClosed (c := c.call .pause) fun hmem => h (List.mem_cons_of_mem _ hmem)
  | .close :: _, _, h => absurd List.mem_cons_self h
  | .setMaximumPayloadByteCount n :: _, c, h =>
    calls_isClosed (c := c.call (.setMaximumPayloadByteCount n)) fun hmem =>
      h (List.mem_cons_of_mem _ hmem)

/-- No handler closes the link. -/
def KeepsOpen (handlers : List (List RemoteFrameCall)) : Prop := ∀ calls ∈ handlers, .close ∉ calls

theorem KeepsOpen.head (h : KeepsOpen handlers) : .close ∉ handlers.headD [] := by
  cases handlers with
  | nil => exact List.not_mem_nil
  | cons calls rest => exact h calls List.mem_cons_self

theorem KeepsOpen.tail (h : KeepsOpen handlers) : KeepsOpen handlers.tail :=
  fun calls hmem => h calls (List.mem_of_mem_tail hmem)

/-- The plain bytes of the frames. -/
def byteCount (frames : List RemoteFrame) : ℕ :=
  (frames.map fun f => headerByteCount + f.plainByteCount).sum

/-- What was handed out of an open link was cut off what arrived, and is counted. -/
structure Cutting (settings : RemoteFrameSettings) (c : RemoteFrameConnection) (rest : List UInt8) :
    Prop where
  isClosed : c.isClosed = false
  took : (framing settings c.highestPayloadByteCount).Took c.delivered c.arrived rest
  counted : c.receivedByteCount = byteCount c.delivered
  allowed : c.maximumPayloadByteCount ≤ c.highestPayloadByteCount

/-- The link is over: refused, unless the owner ended it (`¬ tame`). -/
structure Ended (settings : RemoteFrameSettings) (tame : Prop) (c : RemoteFrameConnection) :
    Prop where
  isClosed : c.isClosed = true
  took : ∃ rest, (framing settings c.highestPayloadByteCount).Took c.delivered c.arrived rest ∧
    (tame → (framing settings c.maximumPayloadByteCount).next rest = .malformed)

/-- Where a loop over `bytes` leaves the link. -/
structure Drained (settings : RemoteFrameSettings) (tame : Prop) (bytes : List UInt8)
    (c c' : RemoteFrameConnection) (offset : ℕ) (goesOn : Bool) : Prop where
  buffer : c'.buffer = bytes
  isReady : c'.isReady = c.isReady
  isReceiving : c'.isReceiving = c.isReceiving
  deliveredWhilePaused : c'.deliveredWhilePaused = c.deliveredWhilePaused
  open' : goesOn = true → Cutting settings c' (bytes.drop offset) ∧
    (c'.isReceivePaused = false →
      (framing settings c'.maximumPayloadByteCount).next (bytes.drop offset) = .incomplete)
  ended : goesOn = false → Ended settings tame c'

theorem next_of_length {bytes : List UInt8} (h : bytes.length < headerByteCount) :
    (framing settings limit).next bytes = .incomplete := if_pos h

theorem Cutting.handOut {rest : List UInt8} (h : Cutting settings c rest) {a : RemoteFrame} {n : ℕ}
    (hnext : (framing settings c.maximumPayloadByteCount).next rest = .frame a n) :
    Cutting settings (c.handOut a) (rest.drop n) := by
  refine ⟨h.isClosed, h.took.snoc (next_mono h.allowed hnext), ?_, h.allowed⟩
  rw [RemoteFrameConnection.handOut, byteCount, List.map_append, List.sum_append, h.counted]
  rfl

theorem Drained.stays {tame : Prop} {offset : ℕ} (h : Cutting settings c (c.buffer.drop offset))
    (hend : c.isReceivePaused = false →
      (framing settings c.maximumPayloadByteCount).next (c.buffer.drop offset) = .incomplete) :
    Drained settings tame c.buffer c c offset true :=
  ⟨rfl, rfl, rfl, rfl, fun _ => ⟨h, hend⟩, fun hno => by cases hno⟩

theorem next_eq_frameOf {bytes : List UInt8} (hlong : headerByteCount ≤ bytes.length)
    {header : Header} {isCompressed : Bool}
    (h : headerOf settings limit bytes = some (header, isCompressed)) :
    (framing settings limit).next bytes = frameOf settings limit header isCompressed bytes := by
  show cut settings limit bytes = _
  rw [cut, if_neg (not_lt.mpr hlong), h]

/-- **The loop hands out what is whole and stops.** -/
theorem Cutting.drainFrom {tame : Prop} : ∀ (passes : ℕ) {handlers : List (List RemoteFrameCall)}
    {offset : ℕ} {c : RemoteFrameConnection}, Cutting settings c (c.buffer.drop offset) →
    (tame → KeepsOpen handlers) → c.buffer.length ≤ offset + passes →
    ∃ c' offset' goesOn,
      RemoteFrameConnection.drainFrom settings passes handlers offset c = (c', offset', goesOn) ∧
      Drained settings tame c.buffer c c' offset' goesOn
  | 0, handlers, offset, c, h, _, hpasses => by
      refine ⟨c, offset, true, rfl, Drained.stays h fun _ => next_of_length ?_⟩
      rw [List.length_drop]
      have hcount : headerByteCount = 24 := rfl
      omega
  | passes + 1, handlers, offset, c, h, htame, hpasses => by
      have hlen : (c.buffer.drop offset).length = c.buffer.length - offset := List.length_drop
      have hcount : headerByteCount = 24 := rfl
      cases hpaused : c.isReceivePaused with
      | true =>
        refine ⟨c, offset, true, ?_, Drained.stays h fun hrun => ?_⟩
        · rw [RemoteFrameConnection.drainFrom, if_neg (by simp [hpaused])]
        · rw [hpaused] at hrun
          cases hrun
      | false =>
      by_cases hlong : headerByteCount ≤ c.buffer.length - offset
      swap
      · refine ⟨c, offset, true, ?_, Drained.stays h fun _ => next_of_length (by omega)⟩
        rw [RemoteFrameConnection.drainFrom, if_neg fun hno => hlong hno.2]
      cases hheader : headerOf settings c.maximumPayloadByteCount (c.buffer.drop offset) with
      | none =>
        refine ⟨_, _, _, drainFrom_refused hpaused hlong hheader, rfl, rfl, rfl, rfl,
          fun hno => (by cases hno), fun _ => ⟨rfl, _, h.took, fun _ => ?_⟩⟩
        show cut settings c.maximumPayloadByteCount _ = _
        rw [cut, if_neg (by omega), hheader]
      | some taken =>
        obtain ⟨header, isCompressed⟩ := taken
        have hnext := next_eq_frameOf (by omega) hheader
        rw [drainFrom_header hpaused hlong hheader]
        rw [frameOf, List.drop_drop, hlen] at hnext
        split_ifs with hshort
        · refine ⟨c, offset, true, rfl, Drained.stays h fun _ => ?_⟩
          rw [hnext, if_pos (by omega)]
        rw [if_neg (by omega)] at hnext
        revert hnext
        generalize readPayload settings _ _ _ = read
        obtain ⟨object, plainByteCount⟩ := read
        cases object with
        | none =>
          intro hnext
          exact ⟨_, _, _, rfl, rfl, rfl, rfl, rfl, fun hno => (by cases hno),
            fun _ => ⟨rfl, _, h.took, fun _ => hnext⟩⟩
        | some object =>
          intro hnext
          have hcut := h.handOut hnext
          have hcalls :=
            calls_apart (handlers.headD []) (c.handOut ⟨header, object, plainByteCount⟩)
          have hopen : tame → ((handlers.headD []).foldl call
              (c.handOut ⟨header, object, plainByteCount⟩)).isClosed = false := fun ht =>
            (calls_isClosed (htame ht).head).trans hcut.isClosed
          rw [List.drop_drop] at hcut
          dsimp only
          generalize (handlers.headD []).foldl call _ = c₁ at hcalls hopen ⊢
          have htook := hcut.took.mono fun bytes a n => next_mono hcalls.highest
          rw [← hcalls.delivered, ← hcalls.arrived] at htook
          have hbuffer : c₁.buffer = c.buffer := hcalls.buffer
          split_ifs with hclosed
          · exact ⟨c₁, _, false, rfl, hbuffer, hcalls.isReady, hcalls.isReceiving,
              hcalls.deliveredWhilePaused, fun hno => (by cases hno), fun _ =>
              ⟨hclosed, _, htook, fun ht => absurd (hclosed.symm.trans (hopen ht)) (by simp)⟩⟩
          · have hnow : Cutting settings c₁
                (c₁.buffer.drop (offset + (headerByteCount + header.payloadByteCount))) := by
              refine ⟨Bool.eq_false_of_not_eq_true hclosed, ?_, ?_, hcalls.allowed hcut.allowed⟩
              · rw [hbuffer]
                exact htook
              · rw [hcalls.receivedByteCount, hcalls.delivered]
                exact hcut.counted
            obtain ⟨c', offset', goesOn, heq, hd⟩ :=
              Cutting.drainFrom passes hnow (fun ht => (htame ht).tail) (by rw [hbuffer]; omega)
            rw [hbuffer] at hd
            exact ⟨c', offset', goesOn, heq, hd.buffer, hd.isReady.trans hcalls.isReady,
              hd.isReceiving.trans hcalls.isReceiving,
              hd.deliveredWhilePaused.trans hcalls.deliveredWhilePaused, hd.open', hd.ended⟩

/-! ## What the other end sends -/

/-- A frame as the other end sends it, plain or compressed. -/
structure WireFrame (settings : RemoteFrameSettings) where
  kind : Kind
  tag : UInt64
  object : XPCObject
  payload : List UInt8
  bytes : List UInt8
  isMap : object.IsMap
  encoded : IOCodec.encode object = .ok payload
  fits : payload.length ≤ IOWire.maximumPayloadByteCount
  carried : bytes = appendHeader ⟨kind, 0, tag, payload.length⟩ ++ payload ∨
    settings.acceptsCompressedInput = true ∧ minimumByteCount ≤ payload.length ∧
      RemoteFrameCompression.frame settings.lz kind tag payload = some bytes

namespace WireFrame

/-- What the owner is handed for it. -/
def handedOut (f : WireFrame settings) : RemoteFrame :=
  ⟨⟨f.kind, 0, f.tag, f.bytes.length - headerByteCount⟩, f.object, f.payload.length⟩

end WireFrame

theorem decode_of_encode {o : XPCObject} {bytes : List UInt8} (hmap : o.IsMap)
    (h : IOCodec.encode o = .ok bytes) : (IOCodec.decode bytes).toOption = some o := by
  obtain ⟨bytes', henc, hdec, -⟩ := IOCodec.roundTrips_of_encode hmap h
  obtain rfl := Except.ok.inj (h.symm.trans henc)
  rw [hdec]
  rfl

/-- A header that is taken and the whole payload behind it. -/
theorem cut_of_header {head payload more : List UInt8} {header : Header} {isCompressed : Bool}
    (hlen : head.length = headerByteCount)
    (hheader : headerOf settings limit head = some (header, isCompressed))
    (hcount : header.payloadByteCount = payload.length) {object : XPCObject} {plainByteCount : ℕ}
    (hread : readPayload settings limit isCompressed payload = (some object, plainByteCount)) :
    cut settings limit (head ++ payload ++ more) =
      .frame ⟨header, object, plainByteCount⟩ (head ++ payload).length := by
  have hlong : (head ++ payload ++ more).length = headerByteCount + payload.length +
      more.length := by
    rw [List.length_append, List.length_append, hlen]
  have hpayload : ((head ++ payload ++ more).drop headerByteCount).take header.payloadByteCount =
      payload := by
    rw [List.append_assoc, List.drop_left' hlen, hcount, List.take_left]
  rw [cut, if_neg (by omega), List.append_assoc, headerOf_append hlen.ge, hheader,
    ← List.append_assoc]
  dsimp only
  rw [frameOf, if_neg (by omega), hpayload, hread, List.length_append, hlen, hcount]

theorem headerOf_plain {header : Header}
    (hfits : header.payloadByteCount ≤ IOWire.maximumPayloadByteCount)
    (hallowed : header.payloadByteCount ≤ limit) :
    headerOf settings limit (appendHeader header) = some (header, false) := by
  have hflags : (appendHeader header).getD flagsOffset 0 = 0 := by
    simp [appendHeader, flagsOffset]
  rw [headerOf, hflags, decodeHeader_appendHeader hfits]
  dsimp only
  rw [if_pos (Or.inl rfl), if_pos hallowed]
  rfl

theorem headerOf_compressed {header : Header}
    (hfits : header.payloadByteCount ≤ IOWire.maximumPayloadByteCount)
    (hallowed : header.payloadByteCount ≤ limit)
    (haccepts : settings.acceptsCompressedInput = true) :
    headerOf settings limit ((appendHeader header).set flagsOffset compressedFlag) =
      some (header, true) := by
  have hflags : ((appendHeader header).set flagsOffset compressedFlag).getD flagsOffset 0 =
      compressedFlag := by
    rw [List.getD_eq_getElem?_getD, List.getElem?_set_self]
    · rfl
    · rw [length_appendHeader]
      decide
  have hdec : decodeHeader ((appendHeader header).set flagsOffset compressedFlag) = some header :=
    (decodeHeader_set _ _).trans (decodeHeader_appendHeader hfits)
  rw [headerOf, hflags, hdec]
  dsimp only
  rw [if_pos (Or.inr ⟨rfl, haccepts⟩), if_pos hallowed]
  rfl

theorem decompress_encodeBuffer {lz : LZFSE} (hlz : lz.Inverts) {payload : List UInt8}
    {capacity limit : ℕ} (hpos : 0 < payload.length) (hfits : payload.length < 2 ^ 32)
    (hallowed : payload.length ≤ limit) (hwritten : lz.encodeBuffer capacity payload ≠ []) :
    decompress lz limit (leBytes 4 payload.length ++ lz.encodeBuffer capacity payload) =
      some payload := by
  have hlength : leValue ((leBytes 4 payload.length ++ lz.encodeBuffer capacity payload).take 4) =
      payload.length := by
    rw [List.take_left' (length_leBytes _ _)]
    exact leValue_leBytes (lt_of_lt_of_le hfits (by decide))
  have hrest : (leBytes 4 payload.length ++ lz.encodeBuffer capacity payload).drop lengthByteCount =
      lz.encodeBuffer capacity payload := List.drop_left' (length_leBytes _ _)
  have hlong : (leBytes 4 payload.length ++ lz.encodeBuffer capacity payload).length >
      lengthByteCount := by
    rw [List.length_append, length_leBytes, lengthByteCount]
    have := List.length_pos_iff.mpr hwritten
    omega
  rw [decompress, if_neg (not_not.mpr hlong)]
  dsimp only
  rw [hlength, if_pos ⟨hpos, hallowed⟩, hrest, hlz.decode_encode _ _ _ hwritten (Nat.le_succ _),
    if_pos rfl]

/-- **A frame that is allowed is cut off as it was sent**, plain or compressed. -/
theorem cut_bytes (hlz : settings.lz.Inverts) (f : WireFrame settings)
    (hallowed : f.payload.length ≤ limit) (more : List UInt8) :
    cut settings limit (f.bytes ++ more) = .frame f.handedOut f.bytes.length := by
  have hobject := decode_of_encode f.isMap f.encoded
  rcases f.carried with hplain | ⟨haccepts, hmin, hcompressed⟩
  · have hlen : f.bytes.length - headerByteCount = f.payload.length := by
      rw [hplain, List.length_append, length_appendHeader, Nat.add_sub_cancel_left]
    rw [WireFrame.handedOut, hlen, hplain]
    exact cut_of_header (length_appendHeader _) (headerOf_plain f.fits hallowed) rfl
      (by rw [readPayload, if_neg Bool.false_ne_true, hobject])
  · rw [RemoteFrameCompression.frame] at hcompressed
    dsimp only at hcompressed
    split_ifs at hcompressed with hempty hwritten
    have hbytes := (Option.some_inj.mp hcompressed).symm
    rw [not_or, not_not] at hempty
    have hroom := hlz.length_encodeBuffer (f.payload.length - f.payload.length / 8) f.payload
    generalize hcap : f.payload.length - f.payload.length / 8 = capacity at hroom hwritten hbytes
    have hbody :
        (leBytes 4 f.payload.length ++ settings.lz.encodeBuffer capacity f.payload).length =
        lengthByteCount + (settings.lz.encodeBuffer capacity f.payload).length := by
      rw [List.length_append, length_leBytes, lengthByteCount]
    rw [List.append_assoc] at hbytes
    have hhead : ((appendHeader ⟨f.kind, 0, f.tag, lengthByteCount +
        (settings.lz.encodeBuffer capacity f.payload).length⟩).set flagsOffset
          compressedFlag).length =
        headerByteCount := by
      rw [List.length_set, length_appendHeader]
    have hlen : f.bytes.length - headerByteCount =
        lengthByteCount + (settings.lz.encodeBuffer capacity f.payload).length := by
      rw [hbytes, List.length_append, hhead, hbody, Nat.add_sub_cancel_left]
    have hsmall : lengthByteCount + (settings.lz.encodeBuffer capacity f.payload).length ≤
        f.payload.length := by
      rw [minimumByteCount] at hmin
      rw [lengthByteCount]
      omega
    rw [WireFrame.handedOut, hlen, hbytes]
    refine cut_of_header hhead
      (headerOf_compressed (hsmall.trans f.fits) (hsmall.trans hallowed) haccepts) hbody.symm ?_
    rw [readPayload, if_pos rfl,
      decompress_encodeBuffer hlz (lt_of_lt_of_le (by decide) hmin) hempty.2
      hallowed (by simpa using hwritten)]
    dsimp only
    rw [hobject]

/-- The frames' bytes, one behind the other. -/
def stream (frames : List (WireFrame settings)) : List UInt8 := frames.flatMap WireFrame.bytes

/-- Cutting up what the other end sent gives what it sent. -/
theorem took_stream (hlz : settings.lz.Inverts)
    (hlimit : IOWire.maximumPayloadByteCount ≤ limit) (more : List UInt8) : ∀ frames :
    List (WireFrame settings),
    (framing settings limit).Took (frames.map WireFrame.handedOut) (stream frames ++ more) more
  | [] => .nil _
  | f :: fs => by
      have hbytes : stream (f :: fs) ++ more = f.bytes ++ (stream fs ++ more) := by
        rw [stream, List.flatMap_cons, List.append_assoc]
        rfl
      rw [hbytes, List.map_cons]
      refine .cons (cut_bytes hlz f (f.fits.trans hlimit) _) ?_
      rw [List.drop_left]
      exact took_stream hlz hlimit more fs

/-! ## Runs -/

/-- **What holds between two steps**: what was handed out was cut off what arrived and what is left
is in `buffer`, where nothing whole waits unless the link is paused; or the link is over. -/
structure Orderly (settings : RemoteFrameSettings) (tame : Prop) (c : RemoteFrameConnection) :
    Prop where
  deliveredWhilePaused : c.deliveredWhilePaused = false
  idle : c.isReady = false → c.isReceiving = false ∧ c.buffer = []
  state : (Cutting settings c c.buffer ∧ (c.isReceivePaused = false →
    (framing settings c.maximumPayloadByteCount).next c.buffer = .incomplete)) ∨
    Ended settings tame c

variable {tame : Prop}

theorem Orderly.took (h : Orderly settings tame c) :
    ∃ rest, (framing settings c.highestPayloadByteCount).Took c.delivered c.arrived rest := by
  rcases h.state with ⟨hcut, -⟩ | hended
  · exact ⟨_, hcut.took⟩
  · exact hended.took.imp fun _ hrest => hrest.1

theorem Orderly.close (h : Orderly settings tame c) (hwild : ¬ tame) :
    Orderly settings tame c.close := by
  obtain ⟨rest, htook⟩ := h.took
  exact ⟨h.deliveredWhilePaused, h.idle, .inr ⟨rfl, rest, htook, fun ht => absurd ht hwild⟩⟩

theorem Orderly.receive (h : Orderly settings tame c) (hready : c.isReady = true) :
    Orderly settings tame c.receive := by
  rw [RemoteFrameConnection.receive]
  split_ifs with hno
  · exact h
  · refine ⟨h.deliveredWhilePaused, fun hidle => ?_,
      h.state.imp (fun hs => ⟨?_, hs.2⟩) fun he => ?_⟩
    · exact absurd (hidle.symm.trans hready) (by simp)
    · exact ⟨hs.1.isClosed, hs.1.took, hs.1.counted, hs.1.allowed⟩
    · exact ⟨he.isClosed, he.took⟩

theorem Orderly.goOn (h : Orderly settings tame c) (hready : c.isReady = true) {isOver : Bool}
    (hwild : isOver = true → ¬ tame) :
    Orderly settings tame (RemoteFrameConnection.goOn isOver (c, true)) := by
  rw [RemoteFrameConnection.goOn]
  split_ifs with hover
  · exact h.close (hwild hover)
  · exact h.receive hready

/-- Draining a link that is open and ready, and going on from there. -/
theorem Cutting.goOn {isOver : Bool} (h : Cutting settings c c.buffer)
    (htame : tame → KeepsOpen handlers) (hready : c.isReady = true)
    (hunpaused : c.deliveredWhilePaused = false) (hwild : isOver = true → ¬ tame) :
    Orderly settings tame (goOn isOver (drainFrames settings handlers c)) := by
  have hstart : Cutting settings c (c.buffer.drop 0) := h
  obtain ⟨c', offset, goesOn, heq, hd⟩ :=
    hstart.drainFrom c.buffer.length htame (Nat.le_add_left _ _)
  rw [drainFrames, heq]
  have hready' : c'.isReady = true := hd.isReady.trans hready
  have hidle : c'.isReady = false → c'.isReceiving = false ∧ c'.buffer.drop offset = [] :=
    fun hno =>
    absurd (hno.symm.trans hready') (by simp)
  have hunpaused' := hd.deliveredWhilePaused.trans hunpaused
  cases goesOn with
  | true =>
    obtain ⟨hcut, hend⟩ := hd.open' rfl
    rw [← hd.buffer] at hcut hend
    have horderly : Orderly settings tame { c' with buffer := c'.buffer.drop offset } :=
      ⟨hunpaused', hidle, .inl ⟨⟨hcut.isClosed, hcut.took, hcut.counted, hcut.allowed⟩, hend⟩⟩
    exact horderly.goOn hready' hwild
  | false =>
    have hended := hd.ended rfl
    exact ⟨hunpaused', hidle, .inr ⟨hended.isClosed, hended.took⟩⟩

/-- The owner does not end the link, and neither does the network. -/
def Action.KeepsOpen : Action → Prop
  | .ready => True
  | .received handlers _ isOver => RemoteFrameConnection.KeepsOpen handlers ∧ isOver = false
  | .setReceivingPaused handlers _ => RemoteFrameConnection.KeepsOpen handlers
  | .close => False

theorem Orderly.received (h : Orderly settings tame c) {data : List UInt8} {isOver : Bool}
    (htame : tame → KeepsOpen handlers ∧ isOver = false) :
    Orderly settings tame (c.received settings handlers data isOver) := by
  rw [RemoteFrameConnection.received]
  by_cases hno : c.isClosed = true ∨ ¬ c.isReceiving = true
  · rw [if_pos hno]
    exact h
  rw [if_neg hno]
  rw [not_or, not_not] at hno
  have hready : c.isReady = true := by
    by_contra hidle
    exact absurd (h.idle (Bool.eq_false_of_not_eq_true hidle)).1 (by simp [hno.2])
  have hwild : isOver = true → ¬ tame := fun hover ht =>
    absurd (hover.symm.trans (htame ht).2) (by simp)
  rcases h.state with ⟨hcut, hend⟩ | hended
  swap
  · exact absurd hended.isClosed hno.1
  dsimp only
  split_ifs with hdata
  · have hsame : Orderly settings tame { c with isReceiving := false } :=
      ⟨h.deliveredWhilePaused, fun hidle => absurd (hidle.symm.trans hready) (by simp),
        .inl ⟨⟨hcut.isClosed, hcut.took, hcut.counted, hcut.allowed⟩, hend⟩⟩
    exact hsame.goOn hready hwild
  · have hmore : Cutting settings
        { c with isReceiving := false, buffer := c.buffer ++ data, arrived := c.arrived ++ data }
        (c.buffer ++ data) := ⟨hcut.isClosed, hcut.took.append data, hcut.counted, hcut.allowed⟩
    exact Cutting.goOn hmore (fun ht => (htame ht).1) hready h.deliveredWhilePaused hwild

theorem Orderly.setReceivingPaused (h : Orderly settings tame c) {paused : Bool}
    (htame : tame → KeepsOpen handlers) :
    Orderly settings tame (c.setReceivingPaused settings handlers paused) := by
  rw [RemoteFrameConnection.setReceivingPaused]
  dsimp only
  split_ifs with hsame hno
  · exact h
  · refine ⟨h.deliveredWhilePaused, h.idle, ?_⟩
    rcases h.state with ⟨hcut, hend⟩ | hended
    swap
    · exact .inr ⟨hended.isClosed, hended.took⟩
    refine .inl ⟨⟨hcut.isClosed, hcut.took, hcut.counted, hcut.allowed⟩, fun hpaused => ?_⟩
    have hpaused' : paused = false := hpaused
    simp only [hpaused', hcut.isClosed, Bool.false_eq_true, or_false, false_or,
      Bool.not_eq_true] at hno
    -- not ready: nothing has arrived
    show (framing settings c.maximumPayloadByteCount).next c.buffer = .incomplete
    rw [(h.idle hno).2]
    exact next_of_length (by decide)
  · rw [not_or, not_or, not_not] at hno
    rcases h.state with ⟨hcut, -⟩ | hended
    · have hcut' : Cutting settings { c with isReceivePaused := paused } c.buffer :=
        ⟨hcut.isClosed, hcut.took, hcut.counted, hcut.allowed⟩
      exact Cutting.goOn hcut' htame hno.2.1 h.deliveredWhilePaused fun hover => by cases hover
    · exact absurd hended.isClosed hno.2.2

theorem Orderly.step (h : Orderly settings tame c) (a : Action) (htame : tame → a.KeepsOpen) :
    Orderly settings tame (c.step settings a) := by
  cases a with
  | ready =>
    show Orderly settings tame c.ready
    rw [ready]
    split_ifs with hno
    · exact h
    · rw [not_or, Bool.not_eq_true, Bool.not_eq_true] at hno
      rcases h.state with ⟨hcut, hend⟩ | hended
      · have hready : Orderly settings tame { c with isReady := true } :=
          ⟨h.deliveredWhilePaused, fun hidle => (by cases hidle),
            .inl ⟨⟨hcut.isClosed, hcut.took, hcut.counted, hcut.allowed⟩, hend⟩⟩
        exact hready.receive rfl
      · exact absurd (hended.isClosed.symm.trans hno.2) (by simp)
  | received handlers data isOver => exact h.received htame
  | setReceivingPaused handlers paused => exact h.setReceivingPaused htame
  | close => exact h.close htame

def run (settings : RemoteFrameSettings) (actions : List Action) : RemoteFrameConnection :=
  Run.after (step settings) { maximumPayloadByteCount := settings.maximumPayloadByteCount } actions

theorem next_nil : (framing settings limit).next [] = .incomplete := next_of_length (by decide)

theorem run_orderly (settings : RemoteFrameSettings) (actions : List Action)
    (htame : tame → ∀ a ∈ actions, a.KeepsOpen) :
    Orderly settings tame (run settings actions) := by
  have hstart : Orderly settings tame
      { maximumPayloadByteCount := settings.maximumPayloadByteCount } :=
    ⟨rfl, fun _ => ⟨rfl, rfl⟩, .inl ⟨⟨rfl, .nil _, rfl, le_rfl⟩, fun _ => next_nil⟩⟩
  exact Run.Along.invariant (P := fun _ a => tame → a.KeepsOpen) (fun c a hc ha => hc.step a ha)
    actions hstart (Run.along_of_forall actions fun a ha ht => htame ht a ha)

theorem not_frame_of_incomplete {bytes : List UInt8}
    (h : (framing settings limit).next bytes = .incomplete) (a : RemoteFrame) (n : ℕ) :
    (framing settings limit).next bytes ≠ .frame a n := fun hno => by
  rw [h] at hno
  cases hno

theorem whole_stream (hlz : settings.lz.Inverts) (hlimit : IOWire.maximumPayloadByteCount ≤ limit)
    (frames : List (WireFrame settings)) :
    frames.map WireFrame.handedOut = (framing settings limit).whole (stream frames) := by
  have hall := took_stream hlz hlimit [] frames
  rw [List.append_nil] at hall
  exact hall.all (not_frame_of_incomplete next_nil)

/-- A limit that no frame passes and no handler ever set higher. -/
def sufficient (c : RemoteFrameConnection) : ℕ :=
  max c.highestPayloadByteCount IOWire.maximumPayloadByteCount

/-- What is cut off under the limits of a run is cut off under that one. -/
theorem took_sufficient {delivered : List RemoteFrame} {bytes rest : List UInt8}
    (h : (framing settings c.highestPayloadByteCount).Took delivered bytes rest) :
    (framing settings c.sufficient).Took delivered bytes rest :=
  h.mono fun _ _ _ => next_mono (le_max_left _ _)

/-- An open link that is not paused has handed out all that arrived, and counted it. -/
theorem Orderly.all (h : Orderly settings tame c) (hlz : settings.lz.Inverts)
    {frames : List (WireFrame settings)} (harrived : c.arrived = stream frames)
    (hopen : c.isClosed = false) (hpaused : c.isReceivePaused = false) :
    c.delivered = frames.map WireFrame.handedOut ∧ c.receivedByteCount = byteCount c.delivered := by
  rcases h.state with ⟨hcut, hend⟩ | hended
  · refine ⟨?_, hcut.counted⟩
    have hnext : (framing settings c.sufficient).next c.buffer = .incomplete :=
      next_incomplete_mono (hcut.allowed.trans (le_max_left _ _)) (hend hpaused)
    have hframes : IOWire.maximumPayloadByteCount ≤ c.sufficient := le_max_right _ _
    rw [(took_sufficient hcut.took).all (not_frame_of_incomplete hnext), harrived,
      whole_stream hlz hframes]
  · exact absurd (hended.isClosed.symm.trans hopen) (by simp)

/-- The frame whose turn it is may be as long as it is. -/
def Allows (c : RemoteFrameConnection) (frames : List (WireFrame settings)) : Prop :=
  ∀ f, frames[c.delivered.length]? = some f → f.payload.length ≤ c.maximumPayloadByteCount

/-- Frames handed out of a stream of frames leave the rest of the stream. -/
theorem took_prefix (hlz : settings.lz.Inverts) (hlimit : IOWire.maximumPayloadByteCount ≤ limit)
    {frames : List (WireFrame settings)} {delivered : List RemoteFrame} {more rest : List UInt8}
    (htaken : delivered <+: frames.map WireFrame.handedOut)
    (htook : (framing settings limit).Took delivered (stream frames ++ more) rest) :
    rest = stream (frames.drop delivered.length) ++ more := by
  obtain ⟨later, hlater⟩ := htaken
  have hsplit : stream frames ++ more = stream (frames.take delivered.length) ++
      (stream (frames.drop delivered.length) ++ more) := by
    rw [← List.append_assoc, stream, stream, stream, ← List.flatMap_append, List.take_append_drop]
  have hdelivered : delivered = (frames.take delivered.length).map WireFrame.handedOut := by
    rw [List.map_take, ← hlater, List.take_left]
  have hfirst := took_stream hlz hlimit (stream (frames.drop delivered.length) ++ more)
    (frames.take delivered.length)
  rw [← hsplit, ← hdelivered] at hfirst
  exact htook.unique hfirst

section Stream

variable (hlz : settings.lz.Inverts) {frames : List (WireFrame settings)}

include hlz

/-- Of a stream of frames that arrives what is handed out comes first. -/
theorem Orderly.begins (h : Orderly settings tame c) {more : List UInt8}
    (hmore : c.arrived ++ more = stream frames) :
    c.delivered <+: frames.map WireFrame.handedOut := by
  have hframes : IOWire.maximumPayloadByteCount ≤ c.sufficient := le_max_right _ _
  obtain ⟨rest, htook⟩ := h.took
  rw [whole_stream hlz hframes, ← hmore]
  exact (took_sufficient htook).begins more

/-- Frames that are allowed end no link. -/
theorem Orderly.stays_open (h : Orderly settings tame c) (htame : tame) {more : List UInt8}
    (hmore : c.arrived ++ more = stream frames) (hallows : c.Allows frames) :
    c.isClosed = false := by
  have hframes : IOWire.maximumPayloadByteCount ≤ c.sufficient := le_max_right _ _
  rcases h.state with ⟨hcut, -⟩ | hended
  · exact hcut.isClosed
  obtain ⟨rest, htook, hbad⟩ := hended.took
  -- what is refused stays refused, but it is a frame that is allowed, or nothing is left
  have htook' := (took_sufficient htook).append more
  rw [hmore, ← List.append_nil (stream frames)] at htook'
  have hrest := took_prefix hlz hframes (h.begins hlz hmore) htook'
  have hbad' := (framing settings c.maximumPayloadByteCount).malformed_append (hbad htame) more
  rw [hrest, List.append_nil] at hbad'
  cases hnext : frames.drop c.delivered.length with
  | nil =>
    rw [hnext, stream, List.flatMap_nil, next_nil] at hbad'
    cases hbad'
  | cons f fs =>
    have hturn : frames[c.delivered.length]? = some f := by
      rw [← List.head?_drop, hnext, List.head?_cons]
    rw [hnext, stream, List.flatMap_cons] at hbad'
    have hframe := cut_bytes hlz f (hallows f hturn) (fs.flatMap WireFrame.bytes)
    have hno := hframe.symm.trans hbad'
    cases hno

variable {bad : List UInt8} (harrived : c.arrived = stream frames ++ bad)
  (hbad : (framing settings c.highestPayloadByteCount).next bad = .malformed)

include harrived hbad

/-- Behind what is refused nothing is handed out. -/
theorem Orderly.begins_refused (h : Orderly settings tame c) :
    c.delivered <+: frames.map WireFrame.handedOut := by
  obtain ⟨rest, htook⟩ := h.took
  have hframes : IOWire.maximumPayloadByteCount ≤ c.sufficient := le_max_right _ _
  have hsent := took_stream hlz hframes bad frames
  rw [← harrived] at hsent
  exact hsent.prefix_of_malformed (fun _ _ _ => next_mono (le_max_left _ _)) hbad htook

/-- A link that is not paused ends there. -/
theorem Orderly.ends_refused (h : Orderly settings tame c) (hpaused : c.isReceivePaused = false) :
    c.isClosed = true := by
  have hframes : IOWire.maximumPayloadByteCount ≤ c.sufficient := le_max_right _ _
  rcases h.state with ⟨hcut, hend⟩ | hended
  swap
  · exact hended.isClosed
  -- what is left begins with a frame, which would be handed out, or is what is refused
  have htook := took_sufficient hcut.took
  rw [harrived] at htook
  have hrest := took_prefix hlz hframes (h.begins_refused hlz harrived hbad) htook
  have hincomplete := hend hpaused
  rw [hrest] at hincomplete
  cases hnext : frames.drop c.delivered.length with
  | nil =>
    rw [hnext, stream, List.flatMap_nil, List.nil_append] at hincomplete
    have hno := (next_incomplete_mono hcut.allowed hincomplete).symm.trans hbad
    cases hno
  | cons f fs =>
    rw [hnext, stream, List.flatMap_cons, List.append_assoc] at hincomplete
    have hframe := cut_bytes hlz f (f.fits.trans hframes) (fs.flatMap WireFrame.bytes ++ bad)
    have hno := hframe.symm.trans
      (next_incomplete_mono (hcut.allowed.trans (le_max_left _ _)) hincomplete)
    cases hno

end Stream

/-- **A remote link hands out each frame once.**  However the frames' bytes arrive, whenever the
owner pauses, resumes or closes and whatever payloads it allows: what is handed out is what the
other end sent, in order, and all of it once the link is open and not paused; none of it while
paused; and the link ends at a header that is refused, with nothing behind it handed out.  Nothing
but the owner, the network, such a header and a frame longer than allowed ends it. -/
theorem run_handsOut (settings : RemoteFrameSettings) (hlz : settings.lz.Inverts)
    (actions : List Action) (frames : List (WireFrame settings)) :
    let c := run settings actions
    c.deliveredWhilePaused = false ∧
      (c.arrived <+: stream frames →
        c.delivered <+: frames.map WireFrame.handedOut ∧
          ((∀ a ∈ actions, a.KeepsOpen) → c.Allows frames → c.isClosed = false)) ∧
      (c.arrived = stream frames → c.isClosed = false → c.isReceivePaused = false →
        c.delivered = frames.map WireFrame.handedOut) ∧
      ∀ bad, c.arrived = stream frames ++ bad → headerByteCount ≤ bad.length →
        headerOf settings c.highestPayloadByteCount bad = none →
        c.delivered <+: frames.map WireFrame.handedOut ∧
        (c.isReceivePaused = false → c.isClosed = true) := by
  intro c
  have horderly : Orderly settings (∀ a ∈ actions, a.KeepsOpen) c :=
    run_orderly settings actions fun h : ∀ a ∈ actions, a.KeepsOpen => h
  refine ⟨horderly.deliveredWhilePaused, ?_, fun harrived hopen hpaused =>
    (horderly.all hlz harrived hopen hpaused).1, ?_⟩
  · rintro ⟨more, hmore⟩
    exact ⟨horderly.begins hlz hmore, fun htame hallows =>
      horderly.stays_open hlz htame hmore hallows⟩
  · intro bad harrived hlong hheader
    have hbad : (framing settings c.highestPayloadByteCount).next bad = .malformed := by
      show cut settings c.highestPayloadByteCount bad = _
      rw [cut, if_neg (not_lt.mpr hlong), hheader]
    exact ⟨horderly.begins_refused hlz harrived hbad,
      horderly.ends_refused hlz harrived hbad⟩

/-- A link that compresses nothing, and allows two bytes at first. -/
def plainSettings : RemoteFrameSettings :=
  { lz := ⟨fun _ _ => [], fun _ _ => []⟩
    acceptsCompressedInput := true
    maximumPayloadByteCount := 2 }

theorem inverts_plainSettings : plainSettings.lz.Inverts :=
  ⟨fun _ _ => Nat.zero_le _, fun _ _ _ h => absurd rfl h⟩

/-- An event that carries a flag. -/
def flagEvent : WireFrame plainSettings :=
  { kind := .event
    tag := 0
    object := .bool true
    payload := [3, 1]
    bytes := appendHeader ⟨.event, 0, 0, 2⟩ ++ [3, 1]
    isMap := fun _ _ h => by cases h
    encoded := rfl
    fits := by decide
    carried := .inl rfl }

/-- One that carries a number, and is longer. -/
def countEvent : WireFrame plainSettings :=
  { kind := .event
    tag := 0
    object := .uint64 7
    payload := [1, 7, 0, 0, 0, 0, 0, 0, 0]
    bytes := appendHeader ⟨.event, 0, 0, 9⟩ ++ [1, 7, 0, 0, 0, 0, 0, 0, 0]
    isMap := fun _ _ h => by cases h
    encoded := rfl
    fits := by decide
    carried := .inl rfl }

/-- The flag is cut after ten bytes, its rest and the number arrive while the link is paused: the
handler of the flag allows the number, and both are handed out on the resume. -/
theorem handsOut_flagEvent :
    (run plainSettings
      [.ready, .received [] (flagEvent.bytes.take 10) false, .setReceivingPaused [] true,
        .received [] (flagEvent.bytes.drop 10 ++ countEvent.bytes) false,
        .setReceivingPaused [[.setMaximumPayloadByteCount 9]] false]).delivered =
      [flagEvent.handedOut, countEvent.handedOut] :=
  (run_handsOut plainSettings inverts_plainSettings _ [flagEvent, countEvent]).2.2.1
    (by decide +kernel) (by decide +kernel) (by decide +kernel)

end RemoteFrameConnection
