import IGhostVT.Lib.Run
import IGhostVT.Zmodem.ZmodemTransfer

/-!
# Zmodem/DownloadPrefix — what a download holds, over a link that drops

An honest sender offers files, streams each from any position and ends it with its length.  On the
way a subpacket may be corrupted and the link may drop, and then nothing arrives until the engine
has called `resume`.

What the writer holds of the open file is to be a prefix of it, a file counted complete is to be
whole, and a download is to end completed only when every file the writer accepted is whole.  The
receiver checks positions, never that a file is open or which one: it answers a resume that finds an
accepted file before its first ZDATA as if it were between files, and takes a ZFIN at any time
(`run_loses_file`).  In the runs in which receiver and sender are on the same file whenever it takes
one of the sender's words for its file, all three hold in every state (`run_prefix_whole`).
-/

namespace Download

/-! ## The program -/

/-- A file the writer accepted.  `source` is the sender's file it was offered as, none when the
receiver took something else for a file's info; the program has only the name. -/
structure Staged (ι : Type*) where
  source : Option ι
  name : List UInt8
  bytes : List UInt8 := []
deriving DecidableEq

/-- What the sender's next subpacket will be, from the header it sent last. -/
inductive Stream (ι : Type*)
  /-- None, or one that is no part of sending files. -/
  | other
  | attention
  | info (file : ι)
  | data (file : ι) (position : ℕ)
deriving DecidableEq

end Download

open Download in
/-- A download under way: the receiver, the engine's and the parser's part in what reaches it, the
writer, and the sender. -/
structure Download (ι : Type*) where
  receiver : ZmodemReceiver := {}
  isSuspended : Bool := false
  /-- The parser is past a header that has subpackets. -/
  isInFrame : Bool := false
  /-- The file the writer's handle is on. -/
  opened : Option (Staged ι) := none
  received : List (Staged ι) := []
  /-- Files left behind when another was begun. -/
  leftBehind : List (Staged ι) := []
  /-- The files that `completedFileCount` counts.  Not the program's. -/
  counted : List (Staged ι) := []
  /-- What the writer's `finish` was called with. -/
  ended : Option Bool := none
  /-- The file the sender offered last. -/
  offered : Option ι := none
  stream : Stream ι := .other
deriving DecidableEq

namespace Download

variable {ι : Type*}

/-- One thing that happens in a download. -/
inductive Action (ι : Type*)
  /-- The sender offers a file: the ZFILE header. -/
  | offer (file : ι) (isCorrupted : Bool)
  /-- The sender sends anything else.  `accepts` is what the writer answers, should it be asked. -/
  | send (event : ZParserEvent) (isCorrupted accepts : Bool)
  | loseLink
  /-- The engine's `resume` on the next link, or the nudge that repeats its question. -/
  | resume
  | senderWentQuiet
  | cancel
  | abandon
deriving DecidableEq

/-- The file whose info the sender's next subpacket is. -/
def Stream.infoOf : Stream ι → Option ι
  | .info file => some file
  | _ => none

/-- The writer's part in one effect of the receiver.  `beginFile` comes with the writer's answer. -/
def perform (accepts : Bool) (s : Download ι) : ZmodemReceiver.Effect → Download ι
  | .send _ => s
  | .beginFile name _ =>
    if accepts then
      { s with
        leftBehind := s.leftBehind ++ s.opened.toList
        opened := some { source := s.stream.infoOf, name } }
    else s
  | .write bytes => { s with opened := s.opened.map fun f => { f with bytes := f.bytes ++ bytes } }
  | .finishFile => { s with received := s.received ++ s.opened.toList, opened := none }
  | .finish completed => { s with ended := some completed }

/-- The receiver has changed: the writer hears of it, and a file that was counted is noted. -/
def react (s : Download ι) (accepts : Bool)
    (change : ZmodemReceiver × List ZmodemReceiver.Effect) : Download ι :=
  let noted :=
    if s.receiver.completedFileCount < change.1.completedFileCount then
      { s with counted := s.counted ++ s.opened.toList }
    else s
  change.2.foldl (perform accepts) { noted with receiver := change.1 }

/-- An event the parser hands to the receiver. -/
def deliver (s : Download ι) (event : ZParserEvent) (accepts : Bool) : Download ι :=
  s.react accepts (s.receiver.handle event accepts)

/-- What the parser makes of what was sent: subpackets count only past their header. -/
def read (s : Download ι) (event : ZParserEvent) (accepts : Bool) : Download ι :=
  match event with
  | .header h => { s with isInFrame := h.type.hasSubpackets }.deliver event accepts
  | .data _ last =>
    if s.isInFrame then { s with isInFrame := last.continues }.deliver event accepts else s
  | .badCRC | .abort => { s with isInFrame := false }.deliver event accepts
  | .noise _ => s.deliver event accepts

/-- What was sent reaches the parser when the link is up, whole or with a bad checksum. -/
def arrive (s : Download ι) (event : ZParserEvent) (isCorrupted accepts : Bool) : Download ι :=
  if s.isSuspended then s
  else if isCorrupted then s.read .badCRC accepts
  else s.read event accepts

/-- The sender's place, once `event` is sent. -/
def sent (s : Download ι) (event : ZParserEvent) : Download ι :=
  match event with
  | .header h =>
    { s with
      stream :=
        match h.type, s.offered with
        | .sinit, _ => .attention
        | .data, some file => .data file h.position.toNat
        | _, _ => .other }
  | .data bytes last =>
    { s with
      stream :=
        match s.stream with
        | .data file position =>
          if last.continues then .data file (position + bytes.length) else .other
        | _ => .other }
  | _ => s

def step (s : Download ι) : Action ι → Download ι
  | .offer file isCorrupted =>
    { s with offered := some file, stream := .info file }.arrive (.header { type := .file })
      isCorrupted false
  | .send event isCorrupted accepts =>
    -- A header says what its subpackets will be; a subpacket moves the stream on once it is read.
    match event with
    | .header _ => (s.sent event).arrive event isCorrupted accepts
    | _ => (s.arrive event isCorrupted accepts).sent event
  | .loseLink => { s with isSuspended := true, isInFrame := false }
  | .resume => { s with isSuspended := false }.react false s.receiver.resume
  | .senderWentQuiet => s.react false s.receiver.senderWentQuiet
  | .cancel => s.react false s.receiver.cancel
  | .abandon => s.react false s.receiver.abandon

/-! ## The claim -/

section Content

variable (content : ι → List UInt8)

/-- **An honest sender** of the files in `content`: after a ZDATA at a position come the bytes of
the file from there, and a ZEOF carries the file's length. -/
def Honest (s : Download ι) : Action ι → Prop
  | .send (.header h) _ _ =>
    (h.type ≠ .file) ∧ (h.type = .data → s.offered ≠ none)
      ∧ (h.type = .eof → ∃ file ∈ s.offered, h.position.toNat = (content file).length)
  | .send (.data bytes _) _ _ =>
    ∀ file position, s.stream = .data file position → bytes <+: (content file).drop position
  | _ => True

/-- All of the file's bytes were written. -/
def IsWhole (f : Staged ι) : Prop := ∃ file ∈ f.source, f.bytes = content file

/-- Every file that `beginFile` accepted. -/
def accepted (s : Download ι) : List (Staged ι) := s.received ++ s.leftBehind ++ s.opened.toList

structure Holds (s : Download ι) : Prop where
  isPrefix : ∀ f ∈ s.opened, ∃ file ∈ f.source, f.bytes = (content file).take s.receiver.offset
    ∧ s.receiver.offset ≤ (content file).length
  isCounted : s.receiver.completedFileCount = s.counted.length ∧ ∀ f ∈ s.counted, IsWhole content f
  /-- A file may be accepted more than once; one time at least it was written whole. -/
  isComplete : s.ended = some true →
    ∀ f ∈ s.accepted, ∃ g ∈ s.accepted, g.source = f.source ∧ IsWhole content g

end Content

/-! ## Receiver and sender on the same file -/

/-- The file the writer has open is the one the sender is on. -/
def IsOnOffered (s : Download ι) : Prop := ∃ file ∈ s.offered, ∃ f ∈ s.opened, f.source = some file

/-- A ZDATA or a ZEOF at the receiver's position is for the open file, and the ZEOF of a file whose
data never began, or the ZFIN, finds none open. -/
def HeaderFits (s : Download ι) (header : ZHeader) : Prop :=
  match header.type with
  | .data => s.receiver.expectingFileInfo = false → header.position.toNat = s.receiver.offset →
      s.IsOnOffered
  | .eof =>
    if s.receiver.phase = .receivingData then
      header.position.toNat = s.receiver.offset → s.IsOnOffered
    else s.opened = none
  | .fin => s.opened = none
  | _ => True

/-- A subpacket of a file is not taken for anything else, nor anything else for a subpacket of a
file; and no file is begun while another is open. -/
def SubpacketFits (s : Download ι) (accepts : Bool) : Prop :=
  if s.receiver.expectingSinitAck then ∀ file position, s.stream ≠ .data file position
  else if s.receiver.expectingFileInfo then
    ∃ file, s.stream = .info file ∧ (accepts → ∀ f ∈ s.opened, f.source = some file)
  else s.receiver.phase = .receivingData → s.receiver.isResynchronizing = false →
    ∃ file position, s.stream = .data file position

/-- **The condition**: what reaches the receiver while it is in the transfer fits. -/
def Meets (s : Download ι) : Action ι → Prop
  | .send (.header header) isCorrupted _ =>
    s.isSuspended = false → isCorrupted = false → s.receiver.finished = false → s.HeaderFits header
  | .send (.data _ _) isCorrupted accepts =>
    s.isInFrame = true → isCorrupted = false → s.receiver.finished = false → s.SubpacketFits accepts
  | _ => True

/-! ## What the writer holds -/

section Content

variable {content : ι → List UInt8} {s : Download ι}

variable (content) in
/-- What the runs that meet the condition keep, of the receiver and the writer. -/
structure Held (s : Download ι) : Prop where
  isPrefix : ∀ f ∈ s.opened, ∃ file ∈ f.source, f.bytes = (content file).take s.receiver.offset
    ∧ s.receiver.offset ≤ (content file).length
  count : s.receiver.completedFileCount = s.counted.length
  counted : ∀ f ∈ s.counted, IsWhole content f
  received : ∀ f ∈ s.received, IsWhole content f
  -- A file is left behind only for another copy of it.
  leftBehind : ∀ f ∈ s.leftBehind, ∃ g ∈ s.received ++ s.opened.toList, g.source = f.source
  between : s.receiver.isBetweenCompleteFiles = true → s.opened = none
  ended : s.ended = some true → s.receiver.finished = true ∧ s.opened = none
  isDone : s.receiver.finished = true → s.receiver.phase = .done

theorem Held.holds (h : Held content s) : Holds content s where
  isPrefix := h.isPrefix
  isCounted := ⟨h.count, h.counted⟩
  isComplete := by
    intro hended f hf
    have hnone := (h.ended hended).2
    simp only [accepted, hnone, Option.toList_none, List.append_nil, List.mem_append] at hf ⊢
    obtain hf | hf := hf
    · exact ⟨f, .inl hf, rfl, h.received f hf⟩
    · obtain ⟨g, hg, hsource⟩ := h.leftBehind f hf
      rw [hnone, Option.toList_none, List.append_nil] at hg
      exact ⟨g, .inl hg, hsource, h.received g hg⟩

@[simp] theorem perform_send (accepts : Bool) (s : Download ι) (bytes : List UInt8) :
    perform accepts s (.send bytes) = s := rfl

@[simp] theorem perform_sendRInit (accepts : Bool) (s : Download ι) :
    perform accepts s ZmodemReceiver.sendRInit = s := rfl

@[simp] theorem perform_sendPositionHeader (accepts : Bool) (s : Download ι) (type : ZFrameType)
    (offset : ℕ) : perform accepts s (ZmodemReceiver.sendPositionHeader type offset) = s := rfl

/-- Nothing was counted: the writer hears the effects and that is all. -/
theorem react_of_count {accepts : Bool} {r : ZmodemReceiver} {effects : List ZmodemReceiver.Effect}
    (h : r.completedFileCount = s.receiver.completedFileCount) :
    s.react accepts (r, effects) = effects.foldl (perform accepts) { s with receiver := r } := by
  rw [react, if_neg (by rw [h]; exact lt_irrefl _)]

/-- What is sent is none of the writer's. -/
theorem react_cons_send (accepts : Bool) (s : Download ι) (r : ZmodemReceiver) (bytes : List UInt8)
    (effects : List ZmodemReceiver.Effect) :
    s.react accepts (r, .send bytes :: effects) = s.react accepts (r, effects) := rfl

@[simp] theorem react_self (accepts : Bool) (s : Download ι) :
    s.react accepts (s.receiver, []) = s :=
  react_of_count rfl

theorem react_askAgain (accepts : Bool) (s : Download ι) : s.react accepts s.receiver.askAgain
    = { s with receiver := { s.receiver with isResynchronizing := true } } := by
  exact react_of_count (by rfl)

theorem Held.askAgain (h : Held content s) (accepts : Bool) :
    Held content (s.react accepts s.receiver.askAgain) := by
  rw [react_askAgain]
  exact { h with }

theorem react_finish {accepts completed : Bool} (hfinished : s.receiver.finished = false) :
    s.react accepts (s.receiver.finish completed)
      = { s with
          receiver := { s.receiver with finished := true, phase := .done }
          ended := some completed } := by
  rw [ZmodemReceiver.finish, if_neg (by rw [hfinished]; exact Bool.false_ne_true)]
  exact react_of_count (by rfl)

theorem Held.finish (h : Held content s) (accepts : Bool) {completed : Bool}
    (hnone : completed = true → s.opened = none) :
    Held content (s.react accepts (s.receiver.finish completed)) := by
  cases hfinished : s.receiver.finished with
  | true =>
    rw [ZmodemReceiver.finish, if_pos hfinished, react_self]
    exact h
  | false =>
    rw [react_finish hfinished]
    exact { h with
      ended := fun hended => ⟨rfl, hnone (Option.some.inj hended)⟩
      isDone := fun _ => rfl }

/-- A ZDATA changes nothing the writer holds. -/
theorem Held.handleDataHeader (h : Held content s) (accepts : Bool) (position : UInt32) :
    Held content (s.react accepts (s.receiver.handleDataHeader position)) := by
  unfold ZmodemReceiver.handleDataHeader
  split
  case isFalse =>
    rw [react_self]
    exact h
  case isTrue hphase =>
    split
    · exact h.askAgain accepts
    · rw [react_of_count (by rfl)]
      refine { h with isDone := fun hfinished => ?_ }
      obtain hphase | hphase := hphase.1 <;>
        exact absurd ((h.isDone hfinished).symm.trans hphase) (by decide)

/-- The file that is open is closed, and everything else about the writer stands. -/
theorem Held.close (h : Held content s) {f : Staged ι} (hopened : s.opened = some f)
    (hwhole : IsWhole content f) {r : ZmodemReceiver} {counted : List (Staged ι)}
    (hcount : r.completedFileCount = counted.length) (hcounted : ∀ g ∈ counted, IsWhole content g)
    (hfinished : r.finished = s.receiver.finished) (hdone : r.finished = true → r.phase = .done) :
    Held content { s with
      receiver := r, counted := counted, received := s.received ++ s.opened.toList
      opened := none } where
  isPrefix := nofun
  count := hcount
  counted := hcounted
  received := by
    intro g hg
    obtain hg | hg := List.mem_append.mp hg
    · exact h.received g hg
    · rw [hopened, Option.toList_some, List.mem_singleton] at hg
      exact hg ▸ hwhole
  leftBehind := by
    intro g hg
    rw [Option.toList_none, List.append_nil]
    exact h.leftBehind g hg
  between := fun _ => rfl
  ended := fun hended => ⟨hfinished.trans (h.ended hended).1, rfl⟩
  isDone := hdone

/-- A ZEOF at the receiver's position ends the file that is open. -/
theorem Held.handleEOF_receivingData (h : Held content s) {accepts : Bool} {position : UInt32}
    (hphase : s.receiver.phase = .receivingData) (hposition : position.toNat = s.receiver.offset)
    (hon : s.IsOnOffered) (hlength : ∃ file ∈ s.offered, position.toNat = (content file).length) :
    Held content (s.react accepts (s.receiver.handleEOF position)) := by
  obtain ⟨file, hoffered, f, hopened, hsource⟩ := hon
  have hwhole : IsWhole content f := by
    obtain ⟨file', hfile', hbytes, -⟩ := h.isPrefix f hopened
    obtain rfl : file' = file := Option.some.inj (hfile'.symm.trans hsource)
    obtain ⟨file'', hfile'', hlength⟩ := hlength
    obtain rfl : file'' = file' := Option.some.inj (hfile''.symm.trans hoffered)
    rw [← hposition, hlength, List.take_length] at hbytes
    exact ⟨file'', hsource, hbytes⟩
  have hdone : s.receiver.finished = false := by
    cases hfinished : s.receiver.finished with
    | false => rfl
    | true => exact absurd (hphase.symm.trans (h.isDone hfinished)) (by decide)
  have hnot : ¬ (s.receiver.phase = .receivingData ∧ position.toNat ≠ s.receiver.offset) :=
    fun hne => hne.2 hposition
  unfold ZmodemReceiver.handleEOF
  rw [if_neg hnot, if_pos hphase]
  dsimp only
  split
  · rw [react, if_pos (Nat.lt_succ_self _)]
    refine h.close hopened hwhole ?_ ?_ rfl fun hfinished => ?_
    · rw [hopened, Option.toList_some, List.length_append, ← h.count]
      rfl
    · intro g hg
      obtain hg | hg := List.mem_append.mp hg
      · exact h.counted g hg
      · rw [hopened, Option.toList_some, List.mem_singleton] at hg
        exact hg ▸ hwhole
    · exact absurd (hdone.symm.trans hfinished) (by decide)
  · rw [react_of_count (by rfl)]
    refine h.close hopened hwhole h.count h.counted rfl fun hfinished => ?_
    exact absurd (hdone.symm.trans hfinished) (by decide)

/-- Outside a file, a ZEOF changes nothing the writer holds. -/
theorem Held.handleEOF_awaitingFile (h : Held content s) {accepts : Bool} {position : UInt32}
    (hphase : s.receiver.phase ≠ .receivingData) (hfinished : s.receiver.finished = false)
    (hnone : s.opened = none) :
    Held content (s.react accepts (s.receiver.handleEOF position)) := by
  unfold ZmodemReceiver.handleEOF
  rw [if_neg fun hne => hphase hne.1, if_neg hphase]
  dsimp only
  rw [if_neg fun hne => hphase hne.1, react_of_count (by rfl)]
  exact { h with
    isPrefix := fun f hf => absurd (hnone.symm.trans hf) (by simp)
    isDone := fun hdone => absurd (hfinished.symm.trans hdone) (by decide) }

/-- A file that is begun is empty; the one before it, if any, is another copy. -/
theorem Held.handleFileInfo (h : Held content s) {accepts : Bool} {file : ι} (bytes : List UInt8)
    (hfinished : s.receiver.finished = false)
    (hbetween : s.receiver.isBetweenCompleteFiles = false) (hstream : s.stream = .info file)
    (hopened : accepts = true → ∀ f ∈ s.opened, f.source = some file) :
    Held content (s.react accepts (s.receiver.handleFileInfo bytes accepts)) := by
  unfold ZmodemReceiver.handleFileInfo
  dsimp only
  cases accepts with
  | false =>
    rw [if_neg Bool.false_ne_true, react_of_count (by rfl)]
    exact { h with }
  | true =>
    rw [if_pos rfl, react_of_count (by rfl)]
    refine { h with isPrefix := ?_, leftBehind := ?_, between := ?_, ended := ?_ }
    · intro f hf
      obtain rfl : _ = f := Option.some.inj hf
      exact ⟨file, congrArg Stream.infoOf hstream, List.take_zero.symm, Nat.zero_le _⟩
    · have hsource : ∀ f ∈ s.opened.toList, s.stream.infoOf = f.source := by
        intro f hf
        rw [hstream, hopened rfl f (Option.mem_toList.mp hf)]
        rfl
      intro f hf
      have hlast : ∀ g ∈ s.received ++ s.opened.toList, g.source = f.source →
          ∃ g ∈ s.received ++ [⟨s.stream.infoOf, (ZmodemReceiver.parseFileInfo bytes).1, []⟩],
            g.source = f.source := by
        intro g hg hgf
        obtain hg | hg := List.mem_append.mp hg
        · exact ⟨g, List.mem_append_left _ hg, hgf⟩
        · exact ⟨_, List.mem_append_right _ List.mem_cons_self, (hsource g hg).trans hgf⟩
      obtain hf | hf := List.mem_append.mp hf
      · obtain ⟨g, hg, hgf⟩ := h.leftBehind f hf
        exact hlast g hg hgf
      · exact hlast f (List.mem_append_right _ hf) rfl
    · exact fun hbetween' => absurd (hbetween.symm.trans hbetween') (by decide)
    · exact fun hended => absurd (hfinished.symm.trans (h.ended hended).1) (by decide)

/-- What comes next in the open file is written to it. -/
theorem Held.write (h : Held content s) {file : ι} {bytes : List UInt8}
    (hopened : ∃ f ∈ s.opened, f.source = some file)
    (hnext : bytes <+: (content file).drop s.receiver.offset) :
    Held content { s with
      receiver := { s.receiver with offset := s.receiver.offset + bytes.length }
      opened := s.opened.map fun f => { f with bytes := f.bytes ++ bytes } } := by
  obtain ⟨f, hf, hsource⟩ := hopened
  have hwritten : s.opened.map (fun f => { f with bytes := f.bytes ++ bytes })
      = some { f with bytes := f.bytes ++ bytes } := by
    rw [Option.mem_def.mp hf, Option.map_some]
  refine { h with isPrefix := ?_, leftBehind := ?_, between := ?_, ended := ?_ }
  · intro g hg
    obtain rfl : _ = g := Option.some.inj (hwritten.symm.trans hg)
    obtain ⟨file', hfile', hbytes, hle⟩ := h.isPrefix f hf
    obtain rfl : file' = file := Option.some.inj (hfile'.symm.trans hsource)
    obtain ⟨rest, hrest⟩ := hnext
    refine ⟨file', hsource, ?_, ?_⟩
    · rw [List.take_add, ← hrest, List.take_left]
      exact congrArg (· ++ bytes) hbytes
    · have hlength := congrArg List.length hrest
      rw [List.length_append, List.length_drop] at hlength
      change s.receiver.offset + bytes.length ≤ _
      omega
  · intro g hg
    obtain ⟨g', hg', hgg'⟩ := h.leftBehind g hg
    obtain hg' | hg' := List.mem_append.mp hg'
    · exact ⟨g', List.mem_append_left _ hg', hgg'⟩
    · obtain rfl : f = g' := Option.some.inj (hf.symm.trans (Option.mem_toList.mp hg'))
      exact ⟨_, List.mem_append_right _ (Option.mem_toList.mpr hwritten), hgg'⟩
  · exact fun hbetween => absurd ((h.between hbetween).symm.trans hf) (by simp)
  · exact fun hended => absurd ((h.ended hended).2.symm.trans hf) (by simp)

theorem react_handleData (accepts : Bool) (bytes : List UInt8) (last : ZSubpacketEnd)
    (hsinit : s.receiver.expectingSinitAck = false) (hinfo : s.receiver.expectingFileInfo = false)
    (hphase : s.receiver.phase = .receivingData) (hresync : s.receiver.isResynchronizing = false) :
    s.react accepts (s.receiver.handleData bytes last accepts)
      = { s with
          receiver := { s.receiver with offset := s.receiver.offset + bytes.length }
          opened := s.opened.map fun f => { f with bytes := f.bytes ++ bytes } } := by
  unfold ZmodemReceiver.handleData
  rw [if_neg (by rw [hsinit]; exact Bool.false_ne_true),
    if_neg (by rw [hinfo]; exact Bool.false_ne_true), if_pos ⟨hphase, hresync⟩,
    react_of_count (by rfl)]
  cases last <;> rfl

/-- **Every subpacket that fits keeps what the writer holds.** -/
theorem Held.handleData (h : Held content s) {accepts : Bool} {bytes : List UInt8}
    (last : ZSubpacketEnd) (hfinished : s.receiver.finished = false)
    (hfits : s.SubpacketFits accepts)
    (hbegun : ∀ file, s.stream = .info file → s.receiver.isBetweenCompleteFiles = false)
    (hnext : ∀ file position, s.stream = .data file position →
      s.receiver.expectingSinitAck = false → s.receiver.expectingFileInfo = false →
      s.receiver.phase = .receivingData → s.receiver.isResynchronizing = false →
      (∃ f ∈ s.opened, f.source = some file) ∧ bytes <+: (content file).drop s.receiver.offset) :
    Held content (s.react accepts (s.receiver.handleData bytes last accepts)) := by
  unfold SubpacketFits at hfits
  split at hfits
  case isTrue hsinit =>
    unfold ZmodemReceiver.handleData
    rw [if_pos hsinit, react_of_count (by rfl)]
    exact { h with }
  case isFalse hsinit =>
    split at hfits
    case isTrue hinfo =>
      obtain ⟨file, hstream, hopened⟩ := hfits
      unfold ZmodemReceiver.handleData
      rw [if_neg hsinit, if_pos hinfo]
      exact h.handleFileInfo bytes hfinished (hbegun file hstream) hstream hopened
    case isFalse hinfo =>
      by_cases hwriting : s.receiver.phase = .receivingData ∧ s.receiver.isResynchronizing = false
      · have hsinit := Bool.eq_false_iff.mpr hsinit
        have hinfo := Bool.eq_false_iff.mpr hinfo
        obtain ⟨file, position, hstream⟩ := hfits hwriting.1 hwriting.2
        obtain ⟨hopened, hprefix⟩ :=
          hnext file position hstream hsinit hinfo hwriting.1 hwriting.2
        rw [react_handleData accepts bytes last hsinit hinfo hwriting.1 hwriting.2]
        exact h.write hopened hprefix
      · unfold ZmodemReceiver.handleData
        rw [if_neg hsinit, if_neg hinfo, if_neg hwriting, react_self]
        exact h

/-- **Every header that fits keeps what the writer holds.** -/
theorem Held.handleHeader (h : Held content s) (accepts : Bool) {header : ZHeader}
    (hfinished : s.receiver.finished = false) (hfits : s.HeaderFits header)
    (hlength : header.type = .eof →
      ∃ file ∈ s.offered, header.position.toNat = (content file).length) :
    Held content (s.react accepts (s.receiver.handleHeader header)) := by
  unfold HeaderFits at hfits
  unfold ZmodemReceiver.handleHeader
  cases htype : header.type with
  | rqinit =>
    rw [react_of_count (by rfl)]
    exact h
  | sinit =>
    rw [react_of_count (by rfl)]
    exact { h with }
  | file =>
    rw [react_of_count (by rfl)]
    exact { h with between := nofun }
  | data => exact h.handleDataHeader accepts header.position
  | eof =>
    rw [htype] at hfits
    dsimp only at hfits ⊢
    split at hfits
    case isFalse hphase => exact h.handleEOF_awaitingFile hphase hfinished hfits
    case isTrue hphase =>
      by_cases hposition : header.position.toNat = s.receiver.offset
      · exact h.handleEOF_receivingData hphase hposition (hfits hposition) (hlength htype)
      · unfold ZmodemReceiver.handleEOF
        rw [if_pos ⟨hphase, hposition⟩]
        exact h.askAgain accepts
  | fin =>
    rw [htype] at hfits
    dsimp only
    rw [react_cons_send]
    exact h.finish accepts fun _ => hfits
  | _ =>
    rw [react_self]
    exact h

/-! ## The sender's place -/

/-- Nothing but the writer differs. -/
structure SameButWriter (s s' : Download ι) : Prop where
  receiver : s'.receiver = s.receiver
  isSuspended : s'.isSuspended = s.isSuspended
  isInFrame : s'.isInFrame = s.isInFrame
  stream : s'.stream = s.stream

theorem sameButWriter_perform (accepts : Bool) (s : Download ι) (e : ZmodemReceiver.Effect) :
    SameButWriter s (perform accepts s e) := by
  cases e <;> cases accepts <;> exact ⟨rfl, rfl, rfl, rfl⟩

theorem sameButWriter_foldl (accepts : Bool) (effects : List ZmodemReceiver.Effect)
    (s : Download ι) : SameButWriter s (effects.foldl (perform accepts) s) := by
  induction effects generalizing s with
  | nil => exact ⟨rfl, rfl, rfl, rfl⟩
  | cons e effects ih =>
    have hfirst := sameButWriter_perform accepts s e
    have hrest := ih (perform accepts s e)
    exact ⟨hrest.receiver.trans hfirst.receiver, hrest.isSuspended.trans hfirst.isSuspended,
      hrest.isInFrame.trans hfirst.isInFrame, hrest.stream.trans hfirst.stream⟩

/-- **A reaction changes the receiver and the writer, not the link and the sender.** -/
theorem sameButWriter_react (accepts : Bool) (s : Download ι)
    (change : ZmodemReceiver × List ZmodemReceiver.Effect) :
    SameButWriter { s with receiver := change.1 } (s.react accepts change) := by
  have h := fun noted : Download ι =>
    sameButWriter_foldl accepts change.2 { noted with receiver := change.1 }
  unfold react
  split
  · exact ⟨(h _).receiver, (h _).isSuspended, (h _).isInFrame, (h _).stream⟩
  · exact h s

/-- The sender's place in the file the receiver is writing. -/
structure Placed (s : Download ι) : Prop where
  begun : s.isInFrame = true → s.receiver.finished = false → ∀ file, s.stream = .info file →
    s.receiver.isBetweenCompleteFiles = false
  -- What is about to be written is what comes next in the open file.
  inStep : s.isInFrame = true → ∀ file position, s.stream = .data file position →
    s.receiver.expectingSinitAck = false → s.receiver.expectingFileInfo = false →
    s.receiver.phase = .receivingData → s.receiver.isResynchronizing = false →
    (∃ f ∈ s.opened, f.source = some file) ∧ position = s.receiver.offset
  suspended : s.isSuspended = true → s.isInFrame = false

/-- Past no header there is nothing to be out of step with. -/
theorem Placed.of_isInFrame (h : s.isInFrame = false) : Placed s where
  begun := fun hin => absurd (h.symm.trans hin) (by decide)
  inStep := fun hin => absurd (h.symm.trans hin) (by decide)
  suspended := fun _ => h

theorem Placed.sent (event : ZParserEvent) (h : s.isInFrame = false) :
    Placed (s.sent event) := by
  refine .of_isInFrame ?_
  cases event <;> exact h

theorem Held.sent (h : Held content s) (event : ZParserEvent) : Held content (s.sent event) := by
  cases event <;> exact { h with }

variable (content) in
structure Inv (s : Download ι) : Prop where
  held : Held content s
  placed : Placed s

theorem inv_init : Inv content ({} : Download ι) where
  held :=
    { isPrefix := nofun, count := rfl, counted := nofun, received := nofun, leftBehind := nofun
      between := nofun, ended := nofun, isDone := nofun }
  placed := .of_isInFrame rfl

theorem deliver_of_finished (h : s.receiver.finished = true) (event : ZParserEvent)
    (accepts : Bool) :
    s.deliver event accepts = s := by
  unfold deliver ZmodemReceiver.handle
  rw [if_pos h, react_self]

theorem Held.deliver_badCRC (h : Held content s) (accepts : Bool) :
    Held content (s.deliver .badCRC accepts) := by
  unfold deliver ZmodemReceiver.handle
  split
  · rw [react_self]
    exact h
  · dsimp only
    split
    · exact h.askAgain accepts
    · rw [react_of_count (by rfl)]
      exact h

theorem Held.deliver_abort (h : Held content s) (accepts : Bool) :
    Held content (s.deliver .abort accepts) := by
  unfold deliver ZmodemReceiver.handle
  split
  · rw [react_self]
    exact h
  · exact h.finish accepts nofun

theorem deliver_noise (byte : UInt8) (accepts : Bool) :
    s.deliver (.noise byte) accepts = s := by
  unfold deliver ZmodemReceiver.handle
  split <;> exact react_self accepts s

theorem Held.deliver_header (h : Held content s) (accepts : Bool) {header : ZHeader}
    (hfits : s.receiver.finished = false → s.HeaderFits header)
    (hlength : header.type = .eof →
      ∃ file ∈ s.offered, header.position.toNat = (content file).length) :
    Held content (s.deliver (.header header) accepts) := by
  cases hfinished : s.receiver.finished with
  | true =>
    rw [deliver_of_finished hfinished]
    exact h
  | false =>
    rw [deliver, ZmodemReceiver.handle, if_neg (by rw [hfinished]; exact Bool.false_ne_true)]
    exact h.handleHeader accepts hfinished (hfits hfinished) hlength

/-- A ZDATA that the receiver takes is at its position. -/
theorem handleDataHeader_taken {r : ZmodemReceiver} {position : UInt32}
    (hinfo : (r.handleDataHeader position).1.expectingFileInfo = false)
    (hphase : (r.handleDataHeader position).1.phase = .receivingData)
    (hresync : (r.handleDataHeader position).1.isResynchronizing = false) :
    r.expectingFileInfo = false ∧ position.toNat = r.offset
      ∧ (r.handleDataHeader position).1.offset = r.offset := by
  unfold ZmodemReceiver.handleDataHeader at *
  split at hresync
  case isTrue hcond =>
    rw [if_pos hcond]
    split at hresync
    · exact absurd hresync (by simp [ZmodemReceiver.askAgain])
    case isFalse hposition =>
      rw [if_neg hposition]
      exact ⟨hcond.2, not_not.mp hposition, rfl⟩
  case isFalse hcond =>
    rw [if_neg hcond] at hinfo hphase
    exact absurd ⟨.inl hphase, hinfo⟩ hcond

theorem react_handleDataHeader_opened (accepts : Bool) (position : UInt32) :
    (s.react accepts (s.receiver.handleDataHeader position)).opened = s.opened := by
  unfold ZmodemReceiver.handleDataHeader
  split
  · split
    · rw [react_askAgain]
    · rw [react_of_count (by rfl)]
      rfl
  · rw [react_self]

/-! ## One step -/

/-- A header that reaches the receiver. -/
theorem Inv.deliver_header (h : Held content s) {accepts : Bool} {header : ZHeader}
    (hup : s.isSuspended = false)
    (hfits : s.receiver.finished = false → s.HeaderFits header)
    (hlength : header.type = .eof →
      ∃ file ∈ s.offered, header.position.toNat = (content file).length)
    (hinfo : ∀ file, s.stream = .info file → header.type = .file)
    (hdata : ∀ file position, s.stream = .data file position →
      header.type = .data ∧ s.offered = some file ∧ position = header.position.toNat) :
    Inv content (s.deliver (.header header) accepts) := by
  refine ⟨h.deliver_header accepts hfits hlength, ?_⟩
  cases hfinished : s.receiver.finished with
  | true =>
    rw [deliver_of_finished hfinished]
    refine ⟨fun _ hnot => ?_, fun _ _ _ _ _ _ hphase => ?_, fun hdown => ?_⟩
    · exact absurd (hfinished.symm.trans hnot) (by decide)
    · exact absurd (hphase.symm.trans (h.isDone hfinished)) (by decide)
    · exact absurd (hup.symm.trans hdown) (by decide)
  | false =>
    rw [deliver, ZmodemReceiver.handle, if_neg (by rw [hfinished]; exact Bool.false_ne_true)]
    have hsame := sameButWriter_react accepts s (s.receiver.handleHeader header)
    refine ⟨fun _ _ file hstream => ?_, fun _ file position hstream _ hexpects hphase hresync => ?_,
      fun hdown => ?_⟩
    · have htype := hinfo file (hsame.stream.symm.trans hstream)
      rw [hsame.receiver]
      simp only [ZmodemReceiver.handleHeader, htype]
    · obtain ⟨htype, hoffered, hposition⟩ := hdata file position (hsame.stream.symm.trans hstream)
      have hhandle : s.receiver.handleHeader header
          = s.receiver.handleDataHeader header.position := by
        simp only [ZmodemReceiver.handleHeader, htype]
      rw [hsame.receiver, hhandle] at hexpects hphase hresync
      obtain ⟨hnotinfo, hat, hoffset⟩ := handleDataHeader_taken hexpects hphase hresync
      have hon : s.IsOnOffered := by
        have hfits := hfits hfinished
        simp only [HeaderFits, htype] at hfits
        exact hfits hnotinfo hat
      rw [hsame.receiver, hhandle, react_handleDataHeader_opened]
      refine ⟨?_, hposition.trans (hat.trans hoffset.symm)⟩
      obtain ⟨file', hfile', hopened⟩ := hon
      obtain rfl : file' = file := Option.some.inj (hfile'.symm.trans hoffered)
      exact hopened
    · exact absurd (hup.symm.trans (hsame.isSuspended.symm.trans hdown)) (by decide)

/-- A subpacket of a file that fits is not taken for anything else. -/
theorem SubpacketFits.of_data {accepts : Bool} (h : s.SubpacketFits accepts) {file : ι}
    {position : ℕ} (hstream : s.stream = .data file position) :
    s.receiver.expectingSinitAck = false ∧ s.receiver.expectingFileInfo = false := by
  unfold SubpacketFits at h
  split at h
  case isTrue => exact absurd hstream (h file position)
  case isFalse hsinit =>
    split at h
    case isTrue =>
      obtain ⟨file', hinfo, -⟩ := h
      exact absurd (hinfo.symm.trans hstream) nofun
    case isFalse hinfo => exact ⟨Bool.eq_false_iff.mpr hsinit, Bool.eq_false_iff.mpr hinfo⟩

/-- A subpacket moves the stream of its file on, and ends every other. -/
theorem sent_data_stream {bytes : List UInt8} {last : ZSubpacketEnd} :
    (∀ file, (s.sent (.data bytes last)).stream ≠ .info file) ∧
      ∀ file position, (s.sent (.data bytes last)).stream = .data file position →
        ∃ before, s.stream = .data file before ∧ position = before + bytes.length := by
  unfold sent
  dsimp only
  cases hstream : s.stream with
  | data file before =>
    cases last.continues with
    | false => exact ⟨nofun, nofun⟩
    | true =>
      refine ⟨nofun, fun file' position heq => ?_⟩
      obtain ⟨rfl, rfl⟩ := Stream.data.inj heq
      exact ⟨before, rfl, rfl⟩
  | _ => exact ⟨nofun, nofun⟩

/-- A subpacket that reaches the receiver, and moves the sender's stream on. -/
theorem Inv.deliver_data (h : Inv content s) {accepts : Bool} {bytes : List UInt8}
    {last : ZSubpacketEnd} (hin : s.isInFrame = true)
    (hfits : s.receiver.finished = false → s.SubpacketFits accepts)
    (hhonest : ∀ file position, s.stream = .data file position →
      bytes <+: (content file).drop position) :
    Inv content (({ s with isInFrame := last.continues }.deliver (.data bytes last) accepts).sent
      (.data bytes last)) := by
  have hup : s.isSuspended = false := by
    cases hdown : s.isSuspended with
    | false => rfl
    | true => exact absurd (hin.symm.trans (h.placed.suspended hdown)) (by decide)
  have hheld : Held content { s with isInFrame := last.continues } := { h.held with }
  cases hfinished : s.receiver.finished with
  | true =>
    rw [deliver_of_finished (by exact hfinished)]
    refine ⟨hheld.sent _, fun _ hnot => ?_, fun _ _ _ _ _ _ hphase => ?_, fun hdown => ?_⟩
    · exact absurd (hfinished.symm.trans hnot) (by decide)
    · exact absurd (hphase.symm.trans (h.held.isDone hfinished)) (by decide)
    · exact absurd (hup.symm.trans hdown) (by decide)
  | false =>
    have hfits := hfits hfinished
    rw [deliver, ZmodemReceiver.handle, if_neg (by simp only [hfinished]; exact Bool.false_ne_true)]
    have hsame := sameButWriter_react accepts { s with isInFrame := last.continues }
      (s.receiver.handleData bytes last accepts)
    refine ⟨(hheld.handleData last hfinished hfits (h.placed.begun hin hfinished) ?_).sent _, ?_⟩
    · intro file position hstream hsinit hinfo hphase hresync
      obtain ⟨hopened, rfl⟩ := h.placed.inStep hin file position hstream hsinit hinfo hphase hresync
      exact ⟨hopened, hhonest file _ hstream⟩
    · refine ⟨fun _ _ file hstream => absurd hstream (sent_data_stream.1 file),
        fun _ file position hstream hsinit hinfo hphase hresync => ?_, fun hdown => ?_⟩
      · obtain ⟨before, hbefore, rfl⟩ := sent_data_stream.2 file position hstream
        have hstream : s.stream = .data file before := hsame.stream.symm.trans hbefore
        obtain ⟨hsinit, hinfo⟩ := hfits.of_data hstream
        by_cases hwriting :
            s.receiver.phase = .receivingData ∧ s.receiver.isResynchronizing = false
        · have hreact := react_handleData (s := { s with isInFrame := last.continues })
            accepts bytes last hsinit hinfo hwriting.1 hwriting.2
          obtain ⟨⟨f, hf, hsource⟩, rfl⟩ :=
            h.placed.inStep hin file before hstream hsinit hinfo hwriting.1 hwriting.2
          rw [hreact]
          exact ⟨⟨_, Option.mem_map_of_mem _ hf, hsource⟩, rfl⟩
        · have hidle : (s.receiver.handleData bytes last accepts).1 = s.receiver := by
            unfold ZmodemReceiver.handleData
            rw [if_neg (by rw [hsinit]; exact Bool.false_ne_true),
              if_neg (by rw [hinfo]; exact Bool.false_ne_true), if_neg hwriting]
          have hreceiver := hsame.receiver.trans hidle
          exact absurd ⟨(congrArg (·.phase) hreceiver).symm.trans hphase,
            (congrArg (·.isResynchronizing) hreceiver).symm.trans hresync⟩ hwriting
      · exact absurd (hup.symm.trans (hsame.isSuspended.symm.trans hdown)) (by decide)

/-- Headers say what the sender's next subpacket is. -/
theorem sent_header_stream {header : ZHeader} :
    (∀ file, (s.sent (.header header)).stream ≠ .info file) ∧
      ∀ file position, (s.sent (.header header)).stream = .data file position →
        header.type = .data ∧ s.offered = some file ∧ position = header.position.toNat := by
  unfold sent
  dsimp only
  cases htype : header.type with
  | data =>
    cases hoffered : s.offered with
    | none => exact ⟨nofun, nofun⟩
    | some file =>
      refine ⟨nofun, fun file' position heq => ?_⟩
      obtain ⟨rfl, rfl⟩ := Stream.data.inj heq
      exact ⟨rfl, rfl, rfl⟩
  | _ => exact ⟨nofun, nofun⟩

/-- What arrives with a bad checksum leaves the frame. -/
theorem Held.read_badCRC (h : Held content s) (accepts : Bool) :
    Inv content (s.read .badCRC accepts) := by
  have hout : Held content { s with isInFrame := false } := { h with }
  exact ⟨hout.deliver_badCRC accepts, .of_isInFrame (sameButWriter_react ..).isInFrame⟩

theorem Held.read_abort (h : Held content s) (accepts : Bool) :
    Inv content (s.read .abort accepts) := by
  have hout : Held content { s with isInFrame := false } := { h with }
  exact ⟨hout.deliver_abort accepts, .of_isInFrame (sameButWriter_react ..).isInFrame⟩

/-- The sender sends a header. -/
theorem Inv.send_header (h : Inv content s) {header : ZHeader} {isCorrupted accepts : Bool}
    (hhonest : s.Honest content (.send (.header header) isCorrupted accepts))
    (hmeets : s.Meets (.send (.header header) isCorrupted accepts)) :
    Inv content (s.step (.send (.header header) isCorrupted accepts)) := by
  have hsent := h.held.sent (.header header)
  unfold step arrive
  dsimp only
  split
  case isTrue hdown =>
    exact ⟨hsent, .sent _ (h.placed.suspended hdown)⟩
  case isFalse hup =>
    have hup : s.isSuspended = false := Bool.eq_false_iff.mpr hup
    split
    case isTrue => exact hsent.read_badCRC accepts
    case isFalse hwhole =>
      have hread : Held content
          { s.sent (.header header) with isInFrame := header.type.hasSubpackets } := { hsent with }
      refine Inv.deliver_header hread hup ?_ hhonest.2.2 ?_ sent_header_stream.2
      · exact hmeets hup (Bool.eq_false_iff.mpr hwhole)
      · exact fun file hstream => absurd hstream (sent_header_stream.1 file)

/-- The sender offers a file. -/
theorem Inv.offer (h : Inv content s) (file : ι) (isCorrupted : Bool) :
    Inv content (s.step (.offer file isCorrupted)) := by
  have hsent : Held content { s with offered := some file, stream := .info file } :=
    { h.held with }
  unfold step arrive
  dsimp only
  split
  case isTrue hdown => exact ⟨hsent, .of_isInFrame (h.placed.suspended hdown)⟩
  case isFalse hup =>
    split
    case isTrue => exact hsent.read_badCRC false
    case isFalse =>
      have hread : Held content
          { s with offered := some file, stream := .info file, isInFrame := true } :=
            { h.held with }
      exact Inv.deliver_header hread (Bool.eq_false_iff.mpr hup) (fun _ => trivial) nofun
        (fun _ _ => rfl) nofun

/-- The sender sends a subpacket. -/
theorem Inv.send_data (h : Inv content s) {bytes : List UInt8} {last : ZSubpacketEnd}
    {isCorrupted accepts : Bool}
    (hhonest : s.Honest content (.send (.data bytes last) isCorrupted accepts))
    (hmeets : s.Meets (.send (.data bytes last) isCorrupted accepts)) :
    Inv content (s.step (.send (.data bytes last) isCorrupted accepts)) := by
  unfold step arrive
  dsimp only
  split
  case isTrue hdown => exact ⟨h.held.sent _, .sent _ (h.placed.suspended hdown)⟩
  case isFalse =>
    split
    case isTrue =>
      have hbad := h.held.read_badCRC accepts
      exact ⟨hbad.held.sent _, .sent _ (sameButWriter_react ..).isInFrame⟩
    case isFalse hwhole =>
      unfold read
      dsimp only
      split
      case isTrue hin =>
        exact h.deliver_data hin (hmeets hin (Bool.eq_false_iff.mpr hwhole)) hhonest
      case isFalse hin => exact ⟨h.held.sent _, .sent _ (Bool.eq_false_iff.mpr hin)⟩

/-- The transfer ends, completed only with no file open. -/
theorem Inv.finish (h : Inv content s) (accepts : Bool) {completed : Bool}
    (hnone : completed = true → s.opened = none) :
    Inv content (s.react accepts (s.receiver.finish completed)) := by
  refine ⟨h.held.finish accepts hnone, ?_⟩
  cases hfinished : s.receiver.finished with
  | true =>
    rw [ZmodemReceiver.finish, if_pos hfinished, react_self]
    exact h.placed
  | false =>
    rw [react_finish hfinished]
    exact { h.placed with begun := fun _ => nofun, inStep := fun _ _ _ _ _ _ => nofun }

theorem Inv.cancel (h : Inv content s) : Inv content (s.react false s.receiver.cancel) := by
  unfold ZmodemReceiver.cancel
  split
  · rw [react_self]
    exact h
  · exact h.finish false nofun

/-- A receiver that is done when the sender goes quiet is between files. -/
theorem Inv.senderWentQuiet (h : Inv content s) :
    Inv content (s.react false s.receiver.senderWentQuiet) := by
  unfold ZmodemReceiver.senderWentQuiet
  split
  case isTrue hquiet =>
    simp only [ZmodemReceiver.isAwaitingSenderAfterCompleteFiles, Bool.and_eq_true] at hquiet
    exact h.finish false fun _ => h.held.between hquiet.2
  case isFalse =>
    rw [react_self]
    exact h

/-- On the next link nothing is written before a ZDATA at the receiver's position. -/
theorem Inv.resume (h : Inv content s) : Inv content (s.step .resume) := by
  have hup : Held content { s with isSuspended := false } := { h.held with }
  have hplaced : Placed { s with isSuspended := false } := { h.placed with suspended := nofun }
  unfold Download.step ZmodemReceiver.resume
  dsimp only
  split
  · rw [react_of_count (by rfl)]
    exact ⟨hup, hplaced⟩
  · cases hphase : s.receiver.phase with
    | receivingData =>
      refine ⟨hup.askAgain false, ?_⟩
      have hask := react_askAgain false { s with isSuspended := false }
      dsimp only at hask ⊢
      rw [hask]
      exact { hplaced with inStep := fun _ _ _ _ _ _ _ => nofun }
    | awaitingFile =>
      dsimp only
      rw [react_of_count (by rfl)]
      cases s.receiver.expectingFileInfo <;> exact ⟨hup, hplaced⟩
    | done =>
      dsimp only
      rw [react_of_count (by rfl)]
      exact ⟨hup, hplaced⟩

/-- A step of the sender that is neither a header nor a subpacket. -/
theorem Inv.send_other (h : Inv content s) {event : ZParserEvent} {isCorrupted accepts : Bool}
    (hother : ∀ t : Download ι, t.sent event = t) (hstep : s.step (.send event isCorrupted accepts)
      = (s.arrive event isCorrupted accepts).sent event)
    (hread : Inv content (s.read event accepts)) :
    Inv content (s.step (.send event isCorrupted accepts)) := by
  rw [hstep, hother]
  unfold arrive
  split
  · exact h
  · split
    · exact h.held.read_badCRC accepts
    · exact hread

/-- **One step** of an honest sender whose words fit. -/
theorem Inv.step (h : Inv content s) {a : Action ι} (hhonest : s.Honest content a)
    (hmeets : s.Meets a) : Inv content (s.step a) := by
  match a with
  | .offer file isCorrupted => exact h.offer file isCorrupted
  | .send (.header header) isCorrupted accepts => exact h.send_header hhonest hmeets
  | .send (.data bytes last) isCorrupted accepts => exact h.send_data hhonest hmeets
  | .send .badCRC isCorrupted accepts =>
    exact h.send_other (fun _ => rfl) rfl (h.held.read_badCRC accepts)
  | .send .abort isCorrupted accepts =>
    exact h.send_other (fun _ => rfl) rfl (h.held.read_abort accepts)
  | .send (.noise byte) isCorrupted accepts =>
    refine h.send_other (fun _ => rfl) rfl ?_
    unfold read
    dsimp only
    rw [deliver_noise]
    exact h
  | .loseLink => exact ⟨{ h.held with }, .of_isInFrame rfl⟩
  | .resume => exact h.resume
  | .senderWentQuiet => exact h.senderWentQuiet
  | .cancel => exact h.cancel
  | .abandon => exact h.finish false nofun

/-! ## The runs -/

/-- **A download holds a prefix, and completed means whole.**  In every run of an honest sender,
with subpackets corrupted, links lost and resumes at any point, whose words fit where they arrive,
the writer holds of the open file its first `offset` bytes, only whole files are counted, and the
download ends completed only when every file the writer accepted was written whole. -/
theorem run_prefix_whole (content : ι → List UInt8) (as : List (Action ι))
    (hhonest : Run.Along step (Honest content) {} as) (hmeets : Run.Along step Meets {} as) :
    Holds content (Run.after step {} as) := by
  have hrun := Run.Along.and as hhonest hmeets
  have hinv : Inv content (Run.after step {} as) :=
    hrun.invariant (fun _ _ h ha => h.step ha.1 ha.2) as inv_init
  exact hinv.held.holds

end Content

/-- One file of one byte. -/
def oneByte : Unit → List UInt8 := fun _ => [0x41]

/-- The file's byte is corrupted once and lost with its link once, and sent again both times. -/
def savedFile : List (Action Unit) :=
  [.offer () false, .send (.data (ascii "a" ++ [0]) .wait) false true,
    .send (.header { type := .data }) false true, .send (.data [0x41] .wait) true true,
    .send (.header { type := .data }) false true, .loseLink, .send (.data [0x41] .wait) false true,
    .resume, .send (.header { type := .data }) false true, .send (.data [0x41] .wait) false true,
    .send (.header (.positioned .eof 1)) false true, .send (.header { type := .fin }) false true]

theorem run_savedFile : (Run.after step {} savedFile).ended = some true
    ∧ Holds oneByte (Run.after step {} savedFile) := by
  have hbyte : ∀ file position, Stream.data () 0 = .data file position →
      [0x41] <+: (oneByte file).drop position := by
    intro file position hstream
    obtain ⟨rfl, rfl⟩ := Stream.data.inj hstream
    decide
  have hdata : ∀ {s : Download Unit}, s.offered = some () →
      (∃ f ∈ s.opened, f.source = some ()) → s.HeaderFits { type := .data } :=
    fun hoffered hopened _ _ => ⟨(), hoffered, hopened⟩
  refine ⟨by decide, run_prefix_whole oneByte savedFile
    ⟨trivial, nofun, ⟨by decide, by decide, nofun⟩, hbyte, ⟨by decide, by decide, nofun⟩, trivial,
      hbyte, trivial, ⟨by decide, by decide, nofun⟩, hbyte,
      ⟨by decide, nofun, fun _ => ⟨(), rfl, rfl⟩⟩, ⟨by decide, nofun, nofun⟩, trivial⟩ ?_⟩
  refine ⟨trivial, fun _ _ _ => ⟨(), rfl, nofun⟩, fun _ _ _ => hdata rfl ⟨_, rfl, rfl⟩, nofun,
    fun _ _ _ => hdata rfl ⟨_, rfl, rfl⟩, trivial, nofun, trivial,
    fun _ _ _ => hdata rfl ⟨_, rfl, rfl⟩, fun _ _ _ _ _ => ⟨(), 0, rfl⟩,
    fun _ _ _ _ => ⟨(), rfl, _, rfl, rfl⟩, fun _ _ _ => rfl, trivial⟩

/-! ## A file that is lost -/

/-- The file is accepted, and the link drops before its ZDATA.  The receiver answers the resume with
the ZRINIT that the sender, at its ZEOF by now, is waiting for; so the sender ends the transfer. -/
def lostFile : List (Action Unit) :=
  [.offer () false, .send (.data (ascii "a" ++ [0]) .wait) false true, .loseLink,
    .send (.header { type := .data }) false true, .send (.data [0x41] .wait) false true,
    .send (.header (.positioned .eof 1)) false true, .resume,
    .send (.header { type := .fin }) false true]

/-- **Completed, and nothing written.** -/
theorem run_loses_file : ¬ ∀ as : List (Action Unit), Run.Along step (Honest oneByte) {} as →
    Holds oneByte (Run.after step {} as) := by
  intro hall
  have hhonest : Run.Along step (Honest oneByte) {} lostFile := by
    refine ⟨trivial, nofun, trivial, ⟨by decide, by decide, nofun⟩, ?_, ⟨by decide, nofun, ?_⟩,
      trivial, ⟨by decide, nofun, nofun⟩, trivial⟩
    · intro file position hstream
      obtain ⟨rfl, rfl⟩ := Stream.data.inj (hstream : Stream.data () 0 = .data file position)
      decide
    · exact fun _ => ⟨(), rfl, rfl⟩
  obtain ⟨g, hg, -, file, -, hwhole⟩ := (hall lostFile hhonest).isComplete (by decide)
    { source := some (), name := ascii "a" } (by decide)
  have hempty : ∀ g ∈ (Run.after step {} lostFile).accepted, g.bytes = [] := by decide
  exact List.cons_ne_nil _ _ (hwhole.symm.trans (hempty g hg))

end Download
