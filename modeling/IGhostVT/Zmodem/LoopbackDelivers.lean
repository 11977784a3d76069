import IGhostVT.Zmodem.Loopback

/-!
# Zmodem/LoopbackDelivers — the writer sees exactly the files

Seen event by event the conversation is always in one of a few stages (`Stage`): a file offered,
named, accepted; its blocks going out while acknowledgements come back; its end sent, answered; and
the two ZFINs.  In the one stage where both streams are busy the blocks and the acknowledgements on
the way are consecutive, and where they start and stop is all there is to know.

A stage says how many events will still be heard, so every run of deliveries is bounded, and the
only stage in which nothing is on the way is the last.
-/

open Transducer ZmodemParser

namespace Loopback

open File

/-- The conversation, event by event. -/
abbrev Exchange := Talk ZmodemParser ZParserEvent Uploading Downloading

/-! ## What is said -/

def rinitEvent : ZParserEvent :=
  .header { type := .rinit, p3 := Zmodem.CANFDX ||| Zmodem.CANOVIO ||| Zmodem.CANFC32 }

def fileEvent : ZParserEvent := .header { type := .file }

def infoEvent (f : File) : ZParserEvent := .data (ZmodemSender.fileInfo f.outgoing) .wait

/-- A header at one of the file's positions. -/
def positionEvent (type : ZFrameType) (offset : ℕ) : ZParserEvent :=
  .header (.positioned type (UInt32.ofNat offset))

def ackEvent (f : File) (k : ℕ) : ZParserEvent := positionEvent .ack (f.bound (k + 1))

def finEvent : ZParserEvent := .header { type := .fin }

/-- What the writer is asked for a file with `k` blocks written. -/
def begunCalls (f : File) (k : ℕ) : List ZmodemReceiver.Effect :=
  .beginFile f.name (some f.data.length) :: (List.range k).map fun j => .write (f.block j)

/-- What the writer is asked for a whole file. -/
def fileCalls (f : File) : List ZmodemReceiver.Effect := begunCalls f f.blockCount ++ [.finishFile]

/-! ## Stages -/

/-- The sender has offered `f`, and `rest` is to follow. -/
structure Offering (s : ZmodemSender) (f : File) (rest : List File) : Prop where
  phase : s.phase = .sentFile
  current : s.current = some f.outgoing
  source : s.source = rest.map File.outgoing
  finished : s.finished = false

/-- The sender has sent the first `sent` blocks of `f`, and heard of `acked`. -/
structure Streaming (s : ZmodemSender) (f : File) (rest : List File) (sent acked : ℕ) : Prop where
  phase : s.phase = .sendingData
  current : s.current = some f.outgoing
  source : s.source = rest.map File.outgoing
  finished : s.finished = false
  offset : s.offset = f.bound sent
  ackedOffset : s.ackedOffset = f.bound acked
  sentLastBlock : s.sentLastBlock = decide (sent = f.blockCount)

/-- The sender has sent a file's end. -/
structure Ending (s : ZmodemSender) (rest : List File) : Prop where
  phase : s.phase = .awaitingEOFAck
  source : s.source = rest.map File.outgoing
  finished : s.finished = false

structure Finishing (s : ZmodemSender) : Prop where
  phase : s.phase = .finishing
  finished : s.finished = false

/-- The receiver is at the start of a file, or between files. -/
structure Waiting (r : ZmodemReceiver) (expectingFileInfo : Bool) : Prop where
  phase : r.phase = .awaitingFile
  expecting : r.expectingFileInfo = expectingFileInfo
  sinit : r.expectingSinitAck = false
  offset : r.offset = 0
  finished : r.finished = false

/-- The receiver has written the first `k` blocks of `f`. -/
structure Receiving (r : ZmodemReceiver) (f : File) (k : ℕ) : Prop where
  phase : r.phase = .receivingData
  expecting : r.expectingFileInfo = false
  sinit : r.expectingSinitAck = false
  resynchronizing : r.isResynchronizing = false
  offset : r.offset = f.bound k
  finished : r.finished = false

/-- What will be heard of a file, at both ends together. -/
def cost (f : File) : ℕ := 2 * f.blockCount + 6

def costs (files : List File) : ℕ := (files.map cost).sum

/-- **The stages of a transfer** of `files`, with the number of events still to be heard.  `done`
are the files behind, and `greetings` the receiver's first ZRINITs, which the sender has no use
for. -/
inductive Stage (files : List File) (t : Exchange) : ℕ → Prop
  | offered {done f rest greetings} (hfiles : files = done ++ f :: rest)
      (hleft : Offering t.left.sender f rest) (hright : Waiting t.right.receiver false)
      (htoRight : t.toRight = [fileEvent, infoEvent f]) (hend : t.rightEnd.At .rest)
      (htoLeft : t.toLeft = List.replicate greetings rinitEvent)
      (hcalls : t.right.calls = done.flatMap fileCalls) (hended : t.left.ended = []) :
      Stage files t (greetings + cost f + costs rest + 2)
  | named {done f rest greetings} (hfiles : files = done ++ f :: rest)
      (hleft : Offering t.left.sender f rest) (hright : Waiting t.right.receiver true)
      (htoRight : t.toRight = [infoEvent f]) (hend : t.rightEnd.At .rest)
      (htoLeft : t.toLeft = List.replicate greetings rinitEvent)
      (hcalls : t.right.calls = done.flatMap fileCalls) (hended : t.left.ended = []) :
      Stage files t (greetings + 2 * f.blockCount + costs rest + 7)
  | accepted {done f rest greetings} (hfiles : files = done ++ f :: rest)
      (hleft : Offering t.left.sender f rest) (hright : Waiting t.right.receiver false)
      (htoRight : t.toRight = []) (hend : t.rightEnd.At .rest)
      (htoLeft : t.toLeft = List.replicate greetings rinitEvent ++ [positionEvent .rpos 0])
      (hcalls : t.right.calls = done.flatMap fileCalls ++ begunCalls f 0)
      (hended : t.left.ended = []) :
      Stage files t (greetings + 2 * f.blockCount + costs rest + 6)
  | opening {done f rest sent} (hfiles : files = done ++ f :: rest) (hsent : sent ≤ f.blockCount)
      (hleft : Streaming t.left.sender f rest sent 0)
      (hwindow : sent = f.blockCount ∨ ZmodemSender.window ≤ f.bound sent)
      (hright : Waiting t.right.receiver false)
      (htoRight : t.toRight
        = positionEvent .data 0 :: (List.range' 0 sent).map (blockEvent f))
      (hend : t.rightEnd.At (placeAfter f sent)) (htoLeft : t.toLeft = [])
      (hcalls : t.right.calls = done.flatMap fileCalls ++ begunCalls f 0)
      (hended : t.left.ended = []) :
      Stage files t (2 * f.blockCount + costs rest + 5)
  | streaming {done f rest acked written sent} (hfiles : files = done ++ f :: rest)
      (hacked : acked ≤ written) (hwritten : written ≤ sent) (hsent : sent ≤ f.blockCount)
      (hmore : acked < f.blockCount) (hleft : Streaming t.left.sender f rest sent acked)
      (hwindow : sent = f.blockCount ∨ ZmodemSender.window ≤ f.bound sent - f.bound acked)
      (hright : Receiving t.right.receiver f written)
      (htoRight : t.toRight = (List.range' written (sent - written)).map (blockEvent f))
      (hend : t.rightEnd.At (placeAfter f sent))
      (htoLeft : t.toLeft = (List.range' acked (written - acked)).map (ackEvent f))
      (hcalls : t.right.calls = done.flatMap fileCalls ++ begunCalls f written)
      (hended : t.left.ended = []) :
      Stage files t ((f.blockCount - written) + (f.blockCount - acked) + costs rest + 4)
  | ended {done f rest} (hfiles : files = done ++ f :: rest) (hleft : Ending t.left.sender rest)
      (hright : Receiving t.right.receiver f f.blockCount)
      (htoRight : t.toRight = [positionEvent .eof f.data.length]) (hend : t.rightEnd.At .rest)
      (htoLeft : t.toLeft = [])
      (hcalls : t.right.calls = done.flatMap fileCalls ++ begunCalls f f.blockCount)
      (hended : t.left.ended = []) : Stage files t (costs rest + 4)
  | closed {done rest} (hfiles : files = done ++ rest) (hleft : Ending t.left.sender rest)
      (hright : Waiting t.right.receiver false) (htoRight : t.toRight = [])
      (hend : t.rightEnd.At .rest) (htoLeft : t.toLeft = [rinitEvent])
      (hcalls : t.right.calls = done.flatMap fileCalls) (hended : t.left.ended = []) :
      Stage files t (costs rest + 3)
  | finishing {greetings} (hleft : Finishing t.left.sender)
      (hright : Waiting t.right.receiver false) (htoRight : t.toRight = [finEvent])
      (hend : t.rightEnd.At .rest) (htoLeft : t.toLeft = List.replicate greetings rinitEvent)
      (hcalls : t.right.calls = files.flatMap fileCalls) (hended : t.left.ended = []) :
      Stage files t (greetings + 2)
  | answered {greetings} (hleft : Finishing t.left.sender)
      (htoRight : t.toRight = []) (hend : t.rightEnd.At .rest)
      (htoLeft : t.toLeft = List.replicate greetings rinitEvent ++ [finEvent])
      (hcalls : t.right.calls = files.flatMap fileCalls ++ [.finish true])
      (hended : t.left.ended = []) : Stage files t (greetings + 1)
  | finished (htoRight : t.toRight = []) (htoLeft : t.toLeft = [])
      (hcalls : t.right.calls = files.flatMap fileCalls ++ [.finish true])
      (hended : t.left.ended = [true]) : Stage files t 0

/-- No bad checksum and no abort has come up, and the receiver's stream ends between frames. -/
structure Clean (t : Exchange) : Prop where
  left : t.left.hasFault = false
  right : t.right.hasFault = false
  leftEnd : t.leftEnd.At .rest

def Conversing (files : List File) (n : ℕ) (t : Exchange) : Prop := Stage files t n ∧ Clean t

/-! ## What the receiver does -/

section Receiver

variable {r : ZmodemReceiver} {f : File} {k : ℕ}

theorem toNat_position (type : ZFrameType) (offset : ℕ) (h : offset < 2 ^ 32) :
    (ZHeader.positioned type (UInt32.ofNat offset)).position.toNat = offset := by
  rw [ZHeader.position_positioned, UInt32.toNat_ofNat_of_lt' h]

theorem handle_header (h : r.finished = false) (header : ZHeader) (accepts : Bool) :
    r.handle (.header header) accepts = r.handleHeader header := by
  unfold ZmodemReceiver.handle
  rw [if_neg (by rw [h]; exact Bool.false_ne_true)]

theorem handle_data (h : r.finished = false) (bytes : List UInt8) (last : ZSubpacketEnd)
    (accepts : Bool) : r.handle (.data bytes last) accepts = r.handleData bytes last accepts := by
  unfold ZmodemReceiver.handle
  rw [if_neg (by rw [h]; exact Bool.false_ne_true)]

theorem Waiting.hear_file (h : Waiting r false) :
    ∃ r', r.handle fileEvent true = (r', []) ∧ Waiting r' true :=
  ⟨_, handle_header h.finished _ true, { h with expecting := rfl }⟩

theorem Waiting.hear_info (h : Waiting r true) (hname : 0 ∉ f.name)
    (hsize : f.data.length < 2 ^ 32) : ∃ r', r.handle (infoEvent f) true =
      (r', [.beginFile f.name (some f.data.length), ZmodemReceiver.sendPositionHeader .rpos 0])
        ∧ Waiting r' false := by
  rw [infoEvent, handle_data h.finished, ZmodemReceiver.handleData,
    if_neg (by rw [h.sinit]; exact Bool.false_ne_true), if_pos h.expecting,
    ZmodemReceiver.handleFileInfo, if_pos rfl, parseFileInfo_fileInfo hname hsize]
  exact ⟨_, rfl, { h with expecting := rfl, offset := rfl }⟩

/-- The ZDATA at the start of a file. -/
theorem Waiting.hear_data (h : Waiting r false) (f : File) :
    ∃ r', r.handle (positionEvent .data 0) true = (r', []) ∧ Receiving r' f 0 := by
  have hposition := toNat_position .data 0 (by decide)
  have hhandle : r.handle (positionEvent .data 0) true
      = r.handleDataHeader (ZHeader.positioned .data (UInt32.ofNat 0)).position :=
    handle_header h.finished _ true
  rw [hhandle, ZmodemReceiver.handleDataHeader, if_pos ⟨.inr h.phase, h.expecting⟩,
    if_neg (by rw [hposition, h.offset]; exact not_not.mpr rfl)]
  exact ⟨_, rfl, { h with
    phase := rfl, resynchronizing := rfl, offset := h.offset.trans bound_zero.symm }⟩

/-- A block is written and acknowledged. -/
theorem Receiving.hear_block (h : Receiving r f k) (hk : k < f.blockCount) :
    ∃ r', r.handle (blockEvent f k) true =
      (r', [.write (f.block k), ZmodemReceiver.sendPositionHeader .ack (f.bound (k + 1))])
        ∧ Receiving r' f (k + 1) := by
  have hwants : (f.lastOf k).wantsAck = true := by
    unfold lastOf
    split <;> rfl
  have hoffset : r.offset + (f.block k).length = f.bound (k + 1) := by
    rw [h.offset, bound_succ hk]
  rw [blockEvent, handle_data h.finished, ZmodemReceiver.handleData,
    if_neg (by rw [h.sinit]; exact Bool.false_ne_true),
    if_neg (by rw [h.expecting]; exact Bool.false_ne_true), if_pos ⟨h.phase, h.resynchronizing⟩]
  dsimp only
  rw [hwants, if_pos rfl, hoffset]
  exact ⟨_, rfl, { h with offset := rfl }⟩

/-- The end of a file that is all written. -/
theorem Receiving.hear_eof (h : Receiving r f f.blockCount) (hsize : f.data.length < 2 ^ 32) :
    ∃ r', r.handle (positionEvent .eof f.data.length) true =
      (r', [.finishFile, ZmodemReceiver.sendRInit]) ∧ Waiting r' false := by
  have hposition := toNat_position .eof _ hsize
  have hoffset : r.offset = f.data.length := h.offset.trans bound_blockCount
  have hhandle : r.handle (positionEvent .eof f.data.length) true
      = r.handleEOF (ZHeader.positioned .eof (UInt32.ofNat f.data.length)).position :=
    handle_header h.finished _ true
  rw [hhandle]
  unfold ZmodemReceiver.handleEOF
  rw [hposition, hoffset, if_neg fun hne => hne.2 rfl, if_pos h.phase]
  dsimp only
  split <;> exact ⟨_, rfl, rfl, h.expecting, h.sinit, rfl, h.finished⟩

theorem Waiting.hear_fin (h : Waiting r false) : ∃ r', r.handle finEvent true =
    (r', [.send (ZmodemEncoder.hexHeader { type := .fin }), .finish true]) := by
  have hhandle : r.handle finEvent true
      = ((r.finish true).1,
        .send (ZmodemEncoder.hexHeader { type := .fin }) :: (r.finish true).2) :=
    handle_header h.finished _ true
  rw [hhandle, ZmodemReceiver.finish, if_neg (by rw [h.finished]; exact Bool.false_ne_true)]
  exact ⟨_, rfl⟩

end Receiver

/-! ## What the sender does -/

section Sender

variable {s : ZmodemSender} {f : File} {rest : List File} {sent acked : ℕ}

theorem handle_sender (h : s.finished = false) (header : ZHeader) :
    s.handle (.header header) = s.handleHeader header := by
  unfold ZmodemSender.handle
  rw [if_neg (by rw [h]; exact Bool.false_ne_true)]

theorem pumpWindow_eq {file : ZmodemOutgoingFile} (h : s.current = some file) :
    s.pumpWindow = ZmodemSender.pump file ZmodemSender.window s := by
  unfold ZmodemSender.pumpWindow
  rw [h]

/-- A ZRINIT that answers nothing. -/
theorem hear_greeting (h : s.finished = false) (hphase : s.phase ≠ .awaitingEOFAck) :
    s.handle rinitEvent = (s, []) :=
  (handle_sender h _).trans (if_neg hphase)

/-- The receiver asks for the file from its start. -/
theorem Offering.hear_rpos (h : Offering s f rest) :
    ∃ s' sent, s.handle (positionEvent .rpos 0)
        = (s', ZmodemSender.sendPositionHeader .data 0 :: blockSends f 0 sent)
      ∧ Streaming s' f rest sent 0 ∧ sent ≤ f.blockCount
      ∧ (sent = f.blockCount ∨ ZmodemSender.window ≤ f.bound sent) := by
  have hposition := toNat_position .rpos 0 (by decide)
  have hhandle : s.handle (positionEvent .rpos 0)
      = s.handleRPos (ZHeader.positioned .rpos (UInt32.ofNat 0)).position :=
    handle_sender h.finished _
  have hlast : (false : Bool) = decide (0 = f.blockCount) :=
    (decide_eq_false (ne_of_lt blockCount_pos)).symm
  obtain ⟨sent, hsent, hstop, hpump⟩ := pump_spec (f := f) ZmodemSender.window
    (s := { s with offset := 0, ackedOffset := 0, phase := .sendingData, sentLastBlock := false })
    (Nat.zero_le _) bound_zero.symm hlast le_rfl (.inr (Nat.le_add_right _ _))
  rw [Nat.zero_add] at hsent hstop hpump
  rw [hhandle, ZmodemSender.handleRPos, hposition]
  dsimp only
  rw [pumpWindow_eq (by exact h.current), hpump]
  refine ⟨_, sent, rfl, ?_, hsent, hstop⟩
  exact { h with
    phase := rfl, offset := rfl, ackedOffset := bound_zero.symm, sentLastBlock := rfl }

/-- An acknowledgement that is not the last moves the window. -/
theorem Streaming.hear_ack (h : Streaming s f rest sent acked) (hsize : f.data.length < 2 ^ 32)
    (hacked : acked < sent) (hsent : sent ≤ f.blockCount) (hmore : acked + 1 < f.blockCount) :
    ∃ s' count, s.handle (ackEvent f acked) = (s', blockSends f sent count)
      ∧ Streaming s' f rest (sent + count) (acked + 1) ∧ sent + count ≤ f.blockCount
      ∧ (sent + count = f.blockCount
        ∨ ZmodemSender.window ≤ f.bound (sent + count) - f.bound (acked + 1)) := by
  have hposition := toNat_position .ack _ (lt_of_le_of_lt (f.bound_le (acked + 1)) hsize)
  have hhandle : s.handle (ackEvent f acked)
      = s.handleAck (ZHeader.positioned .ack (UInt32.ofNat (f.bound (acked + 1)))).position :=
    handle_sender h.finished _
  have hmax : max s.ackedOffset (f.bound (acked + 1)) = f.bound (acked + 1) := by
    rw [h.ackedOffset]
    exact max_eq_right (bound_mono (Nat.le_succ _))
  have hnotlast : ¬ (s.sentLastBlock = true ∧ s.offset ≤ f.bound (acked + 1)) := by
    rintro ⟨hlast, hle⟩
    rw [h.sentLastBlock] at hlast
    rw [h.offset, of_decide_eq_true hlast, bound_blockCount] at hle
    exact absurd ((bound_succ_lt_iff (Nat.lt_of_succ_lt hmore)).mpr hmore) (not_lt.mpr hle)
  obtain ⟨count, hcount, hstop, hpump⟩ := pump_spec (f := f) ZmodemSender.window
    (s := { s with ackedOffset := f.bound (acked + 1) }) hsent h.offset h.sentLastBlock
    (h.offset ▸ bound_mono hacked) (.inr (Nat.le_add_right _ _))
  rw [hhandle, ZmodemSender.handleAck, if_pos h.phase, hposition, hmax]
  dsimp only
  rw [if_neg hnotlast, pumpWindow_eq (by exact h.current), hpump]
  exact ⟨_, count, rfl, { h with offset := rfl, ackedOffset := rfl, sentLastBlock := rfl }, hcount,
    hstop⟩

/-- The acknowledgement of the last block. -/
theorem Streaming.hear_lastAck (h : Streaming s f rest f.blockCount acked)
    (hsize : f.data.length < 2 ^ 32) (hlast : acked + 1 = f.blockCount) :
    ∃ s', s.handle (ackEvent f acked)
        = (s', [ZmodemSender.sendPositionHeader .eof f.data.length]) ∧ Ending s' rest := by
  have hposition := toNat_position .ack _ (lt_of_le_of_lt (f.bound_le (acked + 1)) hsize)
  have hhandle : s.handle (ackEvent f acked)
      = s.handleAck (ZHeader.positioned .ack (UInt32.ofNat (f.bound (acked + 1)))).position :=
    handle_sender h.finished _
  have hall : f.bound (acked + 1) = f.data.length := by rw [hlast, bound_blockCount]
  have hoffset : s.offset = f.data.length := h.offset.trans bound_blockCount
  have hsentLast : s.sentLastBlock = true := by rw [h.sentLastBlock, decide_eq_true rfl]
  rw [hhandle, ZmodemSender.handleAck, if_pos h.phase, hposition, hall]
  dsimp only
  rw [if_pos ⟨hsentLast, hoffset ▸ le_max_right _ _⟩, hoffset]
  exact ⟨_, rfl, rfl, h.source, h.finished⟩

/-- The ZRINIT that answers a file's end, with another to come. -/
theorem Ending.hear_rinit (h : Ending s (f :: rest)) : ∃ s', s.handle rinitEvent =
    (s', [.send (ZmodemEncoder.bin32Header { type := .file }),
      .send (ZmodemEncoder.dataSubpacket32 (ZmodemSender.fileInfo f.outgoing) .wait)])
        ∧ Offering s' f rest := by
  have hhandle : s.handle rinitEvent = s.startNextFile :=
    (handle_sender h.finished _).trans (if_pos h.phase)
  rw [hhandle, ZmodemSender.startNextFile, h.source]
  exact ⟨_, rfl, rfl, rfl, rfl, h.finished⟩

/-- The ZRINIT that answers the last file's end. -/
theorem Ending.hear_lastRinit (h : Ending s []) : ∃ s', s.handle rinitEvent =
    (s', [.send (ZmodemEncoder.hexHeader { type := .fin })]) ∧ Finishing s' := by
  have hhandle : s.handle rinitEvent = s.startNextFile :=
    (handle_sender h.finished _).trans (if_pos h.phase)
  rw [hhandle, ZmodemSender.startNextFile, h.source]
  exact ⟨_, rfl, rfl, h.finished⟩

theorem Finishing.hear_fin (h : Finishing s) : ∃ s', s.handle finEvent =
    (s', [.send (ascii "OO"), .finish true]) := by
  have hhandle : s.handle finEvent = ((s.finish true).1, .send (ascii "OO") :: (s.finish true).2) :=
    handle_sender h.finished _
  rw [hhandle, ZmodemSender.finish, if_neg (by rw [h.finished]; exact Bool.false_ne_true)]
  exact ⟨_, rfl⟩

end Sender

/-! ## What is read of it -/

section Reading

variable {f : File}

theorem reads_rinit : Reads .rest ZmodemReceiver.sendRInit.sent [rinitEvent] .rest :=
  reads_hexHeader (by decide) rfl

theorem reads_fin : Reads .rest (ZmodemEncoder.hexHeader { type := .fin }) [finEvent] .rest :=
  reads_hexHeader (by decide) rfl

/-- A position in hex. -/
theorem reads_position (type : ZFrameType) (offset : ℕ) (htype : type ≠ .abort ∧ type ≠ .can)
    (hplain : type.hasSubpackets = false) :
    Reads .rest (ZmodemEncoder.hexHeader (.positioned type (UInt32.ofNat offset)))
      [positionEvent type offset] .rest :=
  reads_hexHeader htype hplain

theorem reads_offer (f : File) : Reads .rest
    (List.flatMap (·.sent) [ZmodemSender.Effect.send (ZmodemEncoder.bin32Header { type := .file }),
      .send (ZmodemEncoder.dataSubpacket32 (ZmodemSender.fileInfo f.outgoing) .wait)])
    [fileEvent, infoEvent f] .rest :=
  (reads_bin32Header (by decide) rfl).append
    ((reads_dataSubpacket32 _ .wait).append (reads_nil .rest))

/-- The ZDATA and the first blocks. -/
theorem reads_opening {sent : ℕ} (hsent : sent ≤ f.blockCount) :
    Reads .rest ((ZmodemSender.sendPositionHeader .data 0 :: blockSends f 0 sent).flatMap (·.sent))
      (positionEvent .data 0 :: (List.range' 0 sent).map (blockEvent f)) (placeAfter f sent) := by
  have hfirst : Reads .rest (ZmodemSender.sendPositionHeader .data 0).sent [positionEvent .data 0]
      (placeAfter f 0) := by
    rw [placeAfter, if_neg (ne_of_lt blockCount_pos)]
    exact reads_bin32Header (by decide) rfl
  have hrest := reads_blockSends sent (k := 0) (by omega : 0 + sent ≤ f.blockCount)
  rw [Nat.zero_add] at hrest
  exact hfirst.append hrest

/-- The receiver hears one event, and what it answers is on its way. -/
theorem hearRight_eq {t : Exchange} {e : ZParserEvent} {rest es : List ZParserEvent}
    {r : ZmodemReceiver} {effects : List ZmodemReceiver.Effect} (hclean : Clean t)
    (hfault : isFault e = false) (hhandle : t.right.receiver.handle e true = (r, effects))
    (hreads : Reads .rest (effects.flatMap (·.sent)) es .rest) :
    ∃ p : ZmodemParser, p.At .rest ∧ t.hearRight rules [e] rest = { t with
      right := ⟨r, t.right.calls ++ effects.filterMap (·.call), false⟩, toRight := rest
      toLeft := t.toLeft ++ es, leftEnd := p } := by
  obtain ⟨hsignals, hend⟩ := hreads t.leftEnd hclean.leftEnd
  have hhear : t.right.hear e
      = (⟨r, t.right.calls ++ effects.filterMap (·.call), false⟩, effects.flatMap (·.sent)) := by
    rw [Downloading.hear, hhandle, hclean.right, hfault]
    rfl
  refine ⟨_, hend, ?_⟩
  rw [Talk.hearRight, run_singleton, show rules.actRight t.right e = _ from hhear]
  dsimp only
  rw [show Duplex.signals rules t.leftEnd _ = es from hsignals]
  rfl

theorem hearLeft_eq {t : Exchange} {e : ZParserEvent} (rest : List ZParserEvent)
    {es : List ZParserEvent} {s : ZmodemSender} {effects : List ZmodemSender.Effect} {k l : Place}
    (hclean : Clean t) (hfault : isFault e = false)
    (hhandle : t.left.sender.handle e = (s, effects)) (hplace : t.rightEnd.At k)
    (hreads : Reads k (effects.flatMap (·.sent)) es l) :
    ∃ p : ZmodemParser, p.At l ∧ t.hearLeft rules [e] rest = { t with
      left := ⟨s, t.left.ended ++ effects.filterMap (·.ended), false⟩, toLeft := rest
      toRight := t.toRight ++ es, rightEnd := p } := by
  obtain ⟨hsignals, hend⟩ := hreads t.rightEnd hplace
  have hhear : t.left.hear e
      = (⟨s, t.left.ended ++ effects.filterMap (·.ended), false⟩, effects.flatMap (·.sent)) := by
    rw [Uploading.hear, hhandle, hclean.left, hfault]
    rfl
  refine ⟨_, hend, ?_⟩
  rw [Talk.hearLeft, run_singleton, show rules.actLeft t.left e = _ from hhear]
  dsimp only
  rw [show Duplex.signals rules t.rightEnd _ = es from hsignals]
  rfl

end Reading

/-! ## One event -/

section Step

variable {files : List File} {t : Exchange} {n : ℕ} {e : ZParserEvent} {rest : List ZParserEvent}

theorem begunCalls_succ (f : File) (k : ℕ) :
    begunCalls f (k + 1) = begunCalls f k ++ [.write (f.block k)] := by
  rw [begunCalls, List.range_succ, List.map_append]
  rfl

/-- The files a transfer can carry: the name ends at its first NUL, and a position has 32 bits. -/
def File.Fits (f : File) : Prop := 0 ∉ f.name ∧ f.data.length < 2 ^ 32

/-- **The receiver hears an event**, and the transfer is at its next stage. -/
theorem Stage.hearRight (h : Stage files t n) (hclean : Clean t) (hfits : ∀ f ∈ files, f.Fits)
    (hnext : t.toRight = e :: rest) :
    ∃ m < n, Conversing files m (t.hearRight rules [e] rest) := by
  cases h with
  | offered hfiles hleft hright htoRight hend htoLeft hcalls hended =>
    obtain ⟨rfl, rfl⟩ := List.cons.inj (htoRight.symm.trans hnext)
    obtain ⟨r, hhandle, hwaiting⟩ := hright.hear_file
    obtain ⟨p, hp, heq⟩ := hearRight_eq hclean rfl hhandle (reads_nil .rest)
    rw [heq, htoLeft, List.append_nil]
    refine ⟨_, ?_, .named hfiles hleft hwaiting rfl hend rfl ?_ hended, hclean.left, rfl, hp⟩
    · unfold cost
      omega
    · exact (List.append_nil _).trans hcalls
  | @named done f more greetings hfiles hleft hright htoRight hend htoLeft hcalls hended =>
    obtain ⟨rfl, rfl⟩ := List.cons.inj (htoRight.symm.trans hnext)
    obtain ⟨hname, hsize⟩ := hfits f (hfiles ▸ List.mem_append_right _ List.mem_cons_self)
    obtain ⟨r, hhandle, hwaiting⟩ := hright.hear_info hname hsize
    obtain ⟨p, hp, heq⟩ := hearRight_eq hclean rfl hhandle
      (reads_position .rpos 0 (by decide) rfl)
    rw [heq, htoLeft]
    refine ⟨_, ?_, .accepted hfiles hleft hwaiting rfl hend rfl ?_ hended, hclean.left, rfl, hp⟩
    · omega
    · exact congrArg (· ++ _) hcalls
  | accepted _ _ _ htoRight => exact absurd (htoRight.symm.trans hnext) (List.cons_ne_nil _ _).symm
  | @opening done f more sent hfiles hsent hleft hwindow hright htoRight hend htoLeft hcalls
      hended =>
    obtain ⟨rfl, rfl⟩ := List.cons.inj (htoRight.symm.trans hnext)
    obtain ⟨r, hhandle, hreceiving⟩ := hright.hear_data f
    obtain ⟨p, hp, heq⟩ := hearRight_eq hclean rfl hhandle (reads_nil .rest)
    rw [heq, htoLeft]
    refine ⟨_, ?_, .streaming hfiles le_rfl (Nat.zero_le sent) hsent blockCount_pos hleft ?_
      hreceiving rfl hend rfl ?_ hended, hclean.left, rfl, hp⟩
    · omega
    · rwa [bound_zero]
    · exact (List.append_nil _).trans hcalls
  | @streaming done f more acked written sent hfiles hacked hwritten hsent hmore hleft hwindow
      hright htoRight hend htoLeft hcalls hended =>
    have hlt : written < sent := by
      refine lt_of_le_of_ne hwritten fun heq => ?_
      rw [heq, Nat.sub_self] at htoRight
      exact List.cons_ne_nil _ _ (hnext.symm.trans htoRight)
    obtain ⟨left, hcount⟩ : ∃ left, sent - written = left + 1 := ⟨sent - written - 1, by omega⟩
    rw [hcount] at htoRight
    obtain ⟨rfl, rfl⟩ := List.cons.inj (htoRight.symm.trans hnext)
    obtain ⟨r, hhandle, hreceiving⟩ := hright.hear_block (lt_of_lt_of_le hlt hsent)
    obtain ⟨p, hp, heq⟩ := hearRight_eq hclean rfl hhandle
      (reads_position .ack (f.bound (written + 1)) (by decide) rfl)
    have hacks : t.toLeft ++ [positionEvent .ack (f.bound (written + 1))]
        = (List.range' acked (written + 1 - acked)).map (ackEvent f) := by
      rw [htoLeft, show written + 1 - acked = written - acked + 1 by omega, List.range'_1_concat,
        List.map_append, show acked + (written - acked) = written by omega]
      rfl
    rw [heq, hacks]
    refine ⟨_, ?_, .streaming hfiles (by omega) hlt hsent hmore hleft hwindow hreceiving ?_ hend rfl
      ?_ hended, hclean.left, rfl, hp⟩
    · omega
    · rw [show sent - (written + 1) = left by omega]
    · rw [begunCalls_succ, ← List.append_assoc, ← hcalls]
      rfl
  | @ended done f more hfiles hleft hright htoRight hend htoLeft hcalls hended =>
    obtain ⟨rfl, rfl⟩ := List.cons.inj (htoRight.symm.trans hnext)
    obtain ⟨-, hsize⟩ := hfits f (hfiles ▸ List.mem_append_right _ List.mem_cons_self)
    obtain ⟨r, hhandle, hwaiting⟩ := hright.hear_eof hsize
    obtain ⟨p, hp, heq⟩ := hearRight_eq hclean rfl hhandle reads_rinit
    have hfiles' : files = (done ++ [f]) ++ more := by
      rw [hfiles, List.append_assoc]
      rfl
    rw [heq, htoLeft]
    refine ⟨_, ?_, .closed hfiles' hleft hwaiting rfl hend rfl ?_ hended, hclean.left, rfl, hp⟩
    · omega
    · rw [List.flatMap_append, List.flatMap_singleton, fileCalls, ← List.append_assoc, ← hcalls]
      rfl
  | closed _ _ _ htoRight => exact absurd (htoRight.symm.trans hnext) (List.cons_ne_nil _ _).symm
  | finishing hleft hright htoRight hend htoLeft hcalls hended =>
    obtain ⟨rfl, rfl⟩ := List.cons.inj (htoRight.symm.trans hnext)
    obtain ⟨r, hhandle⟩ := hright.hear_fin
    obtain ⟨p, hp, heq⟩ := hearRight_eq hclean rfl hhandle reads_fin
    rw [heq, htoLeft]
    refine ⟨_, ?_, .answered hleft rfl hend rfl ?_ hended, hclean.left, rfl, hp⟩
    · omega
    · exact congrArg (· ++ _) hcalls
  | answered _ htoRight => exact absurd (htoRight.symm.trans hnext) (List.cons_ne_nil _ _).symm
  | finished htoRight => exact absurd (htoRight.symm.trans hnext) (List.cons_ne_nil _ _).symm

/-- A ZRINIT from before anything was asked is heard for nothing. -/
theorem hear_greetings (rest : List ZParserEvent) (hclean : Clean t)
    (hfinished : t.left.sender.finished = false) (hphase : t.left.sender.phase ≠ .awaitingEOFAck)
    (hended : t.left.ended = []) (hend : t.rightEnd.At .rest) :
    ∃ p : ZmodemParser, p.At .rest ∧ t.hearLeft rules [rinitEvent] rest = { t with
      left := ⟨t.left.sender, [], false⟩, toLeft := rest, rightEnd := p } := by
  obtain ⟨p, hp, heq⟩ := hearLeft_eq rest hclean rfl (hear_greeting hfinished hphase) hend
    (reads_nil .rest)
  rw [heq, hended, List.append_nil]
  exact ⟨p, hp, rfl⟩

/-- **The sender hears an event**, and the transfer is at its next stage. -/
theorem Stage.hearLeft (h : Stage files t n) (hclean : Clean t) (hfits : ∀ f ∈ files, f.Fits)
    (hnext : t.toLeft = e :: rest) :
    ∃ m < n, Conversing files m (t.hearLeft rules [e] rest) := by
  cases h with
  | @offered done f more greetings hfiles hleft hright htoRight hend htoLeft hcalls hended =>
    cases greetings with
    | zero => exact absurd (htoLeft.symm.trans hnext) (List.cons_ne_nil _ _).symm
    | succ greetings =>
      obtain ⟨rfl, rfl⟩ := List.cons.inj (htoLeft.symm.trans hnext)
      obtain ⟨p, hp, heq⟩ := hear_greetings _ hclean
        hleft.finished (by rw [hleft.phase]; decide) hended hend
      rw [heq]
      exact ⟨_, by omega, .offered hfiles hleft hright htoRight hp rfl hcalls rfl, rfl,
        hclean.right, hclean.leftEnd⟩
  | @named done f more greetings hfiles hleft hright htoRight hend htoLeft hcalls hended =>
    cases greetings with
    | zero => exact absurd (htoLeft.symm.trans hnext) (List.cons_ne_nil _ _).symm
    | succ greetings =>
      obtain ⟨rfl, rfl⟩ := List.cons.inj (htoLeft.symm.trans hnext)
      obtain ⟨p, hp, heq⟩ := hear_greetings _ hclean
        hleft.finished (by rw [hleft.phase]; decide) hended hend
      rw [heq]
      exact ⟨_, by omega, .named hfiles hleft hright htoRight hp rfl hcalls rfl, rfl,
        hclean.right, hclean.leftEnd⟩
  | @accepted done f more greetings hfiles hleft hright htoRight hend htoLeft hcalls hended =>
    cases greetings with
    | zero =>
      obtain ⟨rfl, rfl⟩ := List.cons.inj (htoLeft.symm.trans hnext)
      obtain ⟨s, sent, hhandle, hstreaming, hsent, hwindow⟩ := hleft.hear_rpos
      obtain ⟨p, hp, heq⟩ := hearLeft_eq [] hclean rfl hhandle hend (reads_opening hsent)
      rw [heq, htoRight, List.nil_append, hended]
      exact ⟨_, by omega, .opening hfiles hsent hstreaming hwindow hright rfl hp rfl hcalls
        (blockSends_ended f 0 sent), rfl, hclean.right, hclean.leftEnd⟩
    | succ greetings =>
      obtain ⟨rfl, rfl⟩ := List.cons.inj (htoLeft.symm.trans hnext)
      obtain ⟨p, hp, heq⟩ := hear_greetings _ hclean
        hleft.finished (by rw [hleft.phase]; decide) hended hend
      rw [heq]
      exact ⟨_, by omega, .accepted hfiles hleft hright htoRight hp rfl hcalls rfl, rfl,
        hclean.right, hclean.leftEnd⟩
  | opening _ _ _ _ _ _ _ htoLeft =>
    exact absurd (htoLeft.symm.trans hnext) (List.cons_ne_nil _ _).symm
  | @streaming done f more acked written sent hfiles hacked hwritten hsent hmore hleft hwindow
      hright htoRight hend htoLeft hcalls hended =>
    obtain ⟨-, hsize⟩ := hfits f (hfiles ▸ List.mem_append_right _ List.mem_cons_self)
    have hlt : acked < written := by
      refine lt_of_le_of_ne hacked fun heq => ?_
      rw [heq, Nat.sub_self] at htoLeft
      exact List.cons_ne_nil _ _ (hnext.symm.trans htoLeft)
    obtain ⟨left, hcount⟩ : ∃ left, written - acked = left + 1 := ⟨written - acked - 1, by omega⟩
    rw [hcount] at htoLeft
    obtain ⟨rfl, rfl⟩ := List.cons.inj (htoLeft.symm.trans hnext)
    by_cases hlast : acked + 1 = f.blockCount
    · -- Everything was written, so nothing else is on the way.
      obtain rfl : written = f.blockCount := by omega
      obtain rfl : sent = f.blockCount := by omega
      obtain ⟨s, hhandle, hending⟩ := hleft.hear_lastAck hsize hlast
      rw [placeAfter, if_pos rfl] at hend
      obtain ⟨p, hp, heq⟩ := hearLeft_eq ((List.range' (acked + 1) left).map (ackEvent f))
        hclean rfl hhandle hend (reads_position .eof f.data.length (by decide) rfl)
      obtain rfl : left = 0 := by omega
      rw [Nat.sub_self] at htoRight
      rw [heq, htoRight, hended]
      exact ⟨_, by omega, .ended hfiles hending hright rfl hp rfl hcalls rfl, rfl, hclean.right,
        hclean.leftEnd⟩
    · obtain ⟨s, count, hhandle, hstreaming, hsent', hwindow'⟩ :=
        hleft.hear_ack hsize (by omega) hsent (by omega)
      obtain ⟨p, hp, heq⟩ := hearLeft_eq ((List.range' (acked + 1) left).map (ackEvent f))
        hclean rfl hhandle hend (reads_blockSends count hsent')
      have hblocks : t.toRight ++ (List.range' sent count).map (blockEvent f)
          = (List.range' written (sent + count - written)).map (blockEvent f) := by
        rw [htoRight, ← List.map_append,
          show sent + count - written = (sent - written) + count by omega,
          ← List.range'_append_1, show written + (sent - written) = sent by omega]
      rw [heq, hblocks, hended]
      refine ⟨_, ?_, .streaming hfiles hlt (hwritten.trans (Nat.le_add_right _ _)) hsent' (by omega)
        hstreaming hwindow' hright rfl hp ?_ hcalls ?_, rfl, hclean.right, hclean.leftEnd⟩
      · omega
      · rw [show written - (acked + 1) = left by omega]
      · exact blockSends_ended f sent count
  | ended _ _ _ _ _ htoLeft => exact absurd (htoLeft.symm.trans hnext) (List.cons_ne_nil _ _).symm
  | @closed done more hfiles hleft hright htoRight hend htoLeft hcalls hended =>
    obtain ⟨rfl, rfl⟩ := List.cons.inj (htoLeft.symm.trans hnext)
    cases more with
    | nil =>
      obtain ⟨s, hhandle, hfinishing⟩ := hleft.hear_lastRinit
      obtain ⟨p, hp, heq⟩ := hearLeft_eq [] hclean rfl hhandle hend reads_fin
      rw [List.append_nil] at hfiles
      have hnone : ([] : List ZParserEvent) = List.replicate 0 rinitEvent := rfl
      rw [heq, htoRight, List.nil_append, hended, hfiles]
      exact ⟨_, by omega, .finishing hfinishing hright rfl hp hnone hcalls rfl, rfl, hclean.right,
        hclean.leftEnd⟩
    | cons f more =>
      obtain ⟨s, hhandle, hoffering⟩ := hleft.hear_rinit
      obtain ⟨p, hp, heq⟩ := hearLeft_eq [] hclean rfl hhandle hend (reads_offer f)
      have hnone : ([] : List ZParserEvent) = List.replicate 0 rinitEvent := rfl
      rw [heq, htoRight, List.nil_append, hended]
      refine ⟨_, ?_, .offered hfiles hoffering hright rfl hp hnone hcalls rfl, rfl, hclean.right,
        hclean.leftEnd⟩
      simp only [costs, List.map_cons, List.sum_cons]
      omega
  | @finishing greetings hleft hright htoRight hend htoLeft hcalls hended =>
    cases greetings with
    | zero => exact absurd (htoLeft.symm.trans hnext) (List.cons_ne_nil _ _).symm
    | succ greetings =>
      obtain ⟨rfl, rfl⟩ := List.cons.inj (htoLeft.symm.trans hnext)
      obtain ⟨p, hp, heq⟩ := hear_greetings _ hclean
        hleft.finished (by rw [hleft.phase]; decide) hended hend
      rw [heq]
      exact ⟨_, by omega, .finishing hleft hright htoRight hp rfl hcalls rfl, rfl, hclean.right,
        hclean.leftEnd⟩
  | @answered greetings hleft htoRight hend htoLeft hcalls hended =>
    cases greetings with
    | zero =>
      obtain ⟨rfl, rfl⟩ := List.cons.inj (htoLeft.symm.trans hnext)
      obtain ⟨s, hhandle⟩ := hleft.hear_fin
      obtain ⟨p, hp, heq⟩ := hearLeft_eq [] hclean rfl hhandle hend
        (reads_noise _ (by decide +kernel))
      rw [heq, htoRight, hended]
      exact ⟨_, by omega, .finished rfl rfl hcalls rfl, rfl, hclean.right, hclean.leftEnd⟩
    | succ greetings =>
      obtain ⟨rfl, rfl⟩ := List.cons.inj (htoLeft.symm.trans hnext)
      obtain ⟨p, hp, heq⟩ := hear_greetings _ hclean
        hleft.finished (by rw [hleft.phase]; decide) hended hend
      rw [heq]
      exact ⟨_, by omega, .answered hleft htoRight hp rfl hcalls rfl, rfl, hclean.right,
        hclean.leftEnd⟩
  | finished _ htoLeft => exact absurd (htoLeft.symm.trans hnext) (List.cons_ne_nil _ _).symm

theorem spends (hfits : ∀ f ∈ files, f.Fits) : Talk.Spends rules (Conversing files) where
  left := fun h hnext => h.1.hearLeft h.2 hfits hnext
  right := fun h hnext => h.1.hearRight h.2 hfits hnext

/-- With nothing on the way the transfer has ended. -/
theorem Stage.of_quiet (h : Stage files t n) (htoLeft : t.toLeft = []) (htoRight : t.toRight = []) :
    t.right.calls = files.flatMap fileCalls ++ [.finish true] ∧ t.left.ended = [true] := by
  cases h with
  | offered _ _ _ hto => exact absurd (hto.symm.trans htoRight) (List.cons_ne_nil _ _)
  | named _ _ _ hto => exact absurd (hto.symm.trans htoRight) (List.cons_ne_nil _ _)
  | accepted _ _ _ _ _ hto =>
    exact absurd (hto.symm.trans htoLeft)
      (List.append_ne_nil_of_right_ne_nil _ (List.cons_ne_nil _ _))
  | opening _ _ _ _ _ hto => exact absurd (hto.symm.trans htoRight) (List.cons_ne_nil _ _)
  | @streaming done f more acked written sent _ hacked hwritten _ hmore _ hwindow _ hright _
      hleft =>
    -- The window would be full of nothing.
    have hwritten' := congrArg List.length (hright.symm.trans htoRight)
    have hacked' := congrArg List.length (hleft.symm.trans htoLeft)
    rw [List.length_map, List.length_range', List.length_nil] at hwritten' hacked'
    obtain rfl : sent = acked := by omega
    obtain hall | hfull := hwindow
    · exact absurd hall (ne_of_lt hmore)
    · rw [Nat.sub_self] at hfull
      exact absurd hfull (by decide)
  | ended _ _ _ hto => exact absurd (hto.symm.trans htoRight) (List.cons_ne_nil _ _)
  | closed _ _ _ _ _ hto => exact absurd (hto.symm.trans htoLeft) (List.cons_ne_nil _ _)
  | finishing _ _ hto => exact absurd (hto.symm.trans htoRight) (List.cons_ne_nil _ _)
  | answered _ _ _ hto =>
    exact absurd (hto.symm.trans htoLeft)
      (List.append_ne_nil_of_right_ne_nil _ (List.cons_ne_nil _ _))
  | finished _ _ hcalls hended => exact ⟨hcalls, hended⟩

/-- What is read at the start of a stream. -/
theorem talk_of_reads {d : Duplex ZmodemParser UInt8 Uploading Downloading}
    {es es' : List ZParserEvent} {k k' : Place} (hleft : Reads .rest d.toLeft es k)
    (hright : Reads .rest d.toRight es' k') (hleftParser : d.leftParser.At .rest)
    (hrightParser : d.rightParser.At .rest) :
    ((d.talk rules).toLeft = es ∧ (d.talk rules).leftEnd.At k)
      ∧ (d.talk rules).toRight = es' ∧ (d.talk rules).rightEnd.At k' :=
  ⟨hleft _ hleftParser, hright _ hrightParser⟩

/-- The transfer begins at its first stage. -/
theorem conversing_start (files : List File) :
    ∃ n, Conversing files n ((start files).talk rules) := by
  have hgreeting : Reads .rest (start files).toLeft (List.replicate 1 rinitEvent) .rest :=
    reads_rinit.append (reads_nil .rest)
  cases files with
  | nil =>
    have hfin : Reads .rest (start []).toRight [finEvent] .rest :=
      reads_fin.append (reads_nil .rest)
    obtain ⟨⟨htoLeft, hleftEnd⟩, htoRight, hrightEnd⟩ := talk_of_reads hgreeting hfin rfl rfl
    exact ⟨_,
      .finishing ⟨rfl, rfl⟩ ⟨rfl, rfl, rfl, rfl, rfl⟩ htoRight hrightEnd htoLeft rfl rfl, rfl,
      rfl, hleftEnd⟩
  | cons f rest =>
    have hoffer : Reads .rest (start (f :: rest)).toRight [fileEvent, infoEvent f] .rest :=
      reads_offer f
    obtain ⟨⟨htoLeft, hleftEnd⟩, htoRight, hrightEnd⟩ := talk_of_reads hgreeting hoffer rfl rfl
    have hfiles : f :: rest = [] ++ f :: rest := rfl
    exact ⟨_, .offered hfiles ⟨rfl, rfl, rfl, rfl⟩ ⟨rfl, rfl, rfl, rfl, rfl⟩ htoRight hrightEnd
      htoLeft rfl rfl, rfl, rfl, hleftEnd⟩

end Step

/-! ## The runs -/

/-- The transfer came to its end: the writer was handed exactly `files`, each begun with its name
and size, written in pieces that make up its bytes, and finished once; and both ends are
completed. -/
structure Delivered (files : List File)
    (d : Duplex ZmodemParser UInt8 Uploading Downloading) : Prop where
  calls : ∃ cut : File → List (List UInt8), (∀ f, (cut f).flatten = f.data) ∧
    d.right.calls = files.flatMap (fun f => ZmodemReceiver.Effect.beginFile f.name
      (some f.data.length) :: (cut f).map .write ++ [.finishFile]) ++ [.finish true]
  ended : d.left.ended = [true]

/-- **The loopback delivers exactly the files.**  However the bytes of the two streams are cut and
interleaved, no bad checksum and no abort comes up; a run in which every delivery takes a byte ends
within a bound; and once nothing is on the way any more, the writer has been handed the files. -/
theorem run_delivers (files : List File) (hfits : ∀ f ∈ files, f.Fits) :
    (∀ ds, (Run.after deliver (start files) ds).left.hasFault = false
      ∧ (Run.after deliver (start files) ds).right.hasFault = false
      ∧ ((Run.after deliver (start files) ds).toLeft = [] →
        (Run.after deliver (start files) ds).toRight = [] →
          Delivered files (Run.after deliver (start files) ds)))
    ∧ ∃ bound, ∀ ds, Run.Along deliver Duplex.Moves (start files) ds → ds.length ≤ bound := by
  obtain ⟨n, hstart⟩ := conversing_start files
  refine ⟨fun ds => ?_, Duplex.exists_bound (spends hfits) n _ hstart rfl⟩
  obtain ⟨m, -, hstage, hclean⟩ := Duplex.invariant (spends hfits) ds hstart
  refine ⟨hclean.left, hclean.right, fun htoLeft htoRight => ?_⟩
  have hquiet := hstage.of_quiet (by rw [Duplex.talk, htoLeft]; rfl)
    (by rw [Duplex.talk, htoRight]; rfl)
  have hcalls : fileCalls = fun f => ZmodemReceiver.Effect.beginFile f.name (some f.data.length)
      :: f.blocks.map .write ++ [.finishFile] := by
    funext f
    rw [fileCalls, begunCalls, File.blocks, List.map_map]
    rfl
  exact ⟨⟨File.blocks, flatten_blocks, hcalls ▸ hquiet.1⟩, hquiet.2⟩

/-- A file whose bytes look like a header, and an empty one. -/
def twoFiles : List File :=
  [{ name := ascii "a", data := [Zmodem.ZPAD, Zmodem.ZDLE, Zmodem.ZBIN32] },
    { name := [], data := [] }]

theorem run_twoFiles : ∃ bound, ∀ ds, Run.Along deliver Duplex.Moves (start twoFiles) ds →
    ds.length ≤ bound :=
  (run_delivers twoFiles (List.forall_mem_cons.mpr ⟨⟨by decide, by decide⟩,
    List.forall_mem_singleton.mpr ⟨by decide, by decide⟩⟩)).2

end Loopback
