import IGhostVT.Lib.Run
import IGhostVT.Zmodem.Loopback

/-!
# Zmodem/SenderPositions — a sender and whatever answers it

`ZmodemSender` takes the positions it works at from the other end.  A ZRPOS moves `offset` and
`ackedOffset` together and anywhere; a ZACK moves `ackedOffset` alone, and past `offset` when it
names a position not yet sent: with blocks still to send, the window's `offset - ackedOffset` then
traps (`ack_ahead_underflows`).  A ZRPOS past the end of the file is answered with an empty last
block, and its ZACK with a ZEOF at a length that is not the file's.

`Line` is what an observer of both directions keeps, `Line.Proper` what may then be sent, and
`survives_of_answerable` says that nothing else goes wrong, whatever the peer answers and when.
-/

open Zmodem

/-- A file to send, and the bytes in it. -/
structure SourceFile extends ZmodemOutgoingFile where
  data : List UInt8
  size_eq : size = data.length
  /-- What is read at an offset is there, not necessarily all that was asked for. -/
  read_prefix : ∀ offset maxLength, read offset maxLength <+: data.drop offset
  length_read : ∀ offset maxLength, (read offset maxLength).length ≤ maxLength

namespace ZmodemSender

/-! ## The subtraction of the window -/

/-- The sender where a ZRPOS puts it, before it sends. -/
def back (s : ZmodemSender) (position : UInt32) : ZmodemSender :=
  { s with
    offset := position.toNat, ackedOffset := position.toNat, phase := .sendingData,
    sentLastBlock := false }

/-- The sender with a ZACK taken. -/
def acked (s : ZmodemSender) (position : UInt32) : ZmodemSender :=
  { s with ackedOffset := max s.ackedOffset position.toNat }

/-- The operands of every `offset - ackedOffset` that the loop of `pumpWindow` evaluates. -/
def loopOperands (file : ZmodemOutgoingFile) : ℕ → ZmodemSender → List (ℕ × ℕ)
  | 0, _ => []
  | passes + 1, s =>
    if s.sentLastBlock then []
    else
      let rest :=
        if s.offset - s.ackedOffset < window then
          let chunk := file.read s.offset blockSize
          if chunk = [] ∧ s.offset < file.size then []
          else
            let offset := s.offset + chunk.length
            loopOperands file passes
              { s with offset := offset, sentLastBlock := decide (offset ≥ file.size) }
        else []
      (s.offset, s.ackedOffset) :: rest

def pumpOperands (s : ZmodemSender) : List (ℕ × ℕ) :=
  match s.current with
  | none => []
  | some file => loopOperands file (window + 1) s

/-- The operands of every `offset - ackedOffset` evaluated in handling an event. -/
def operands (s : ZmodemSender) (event : ZParserEvent) : List (ℕ × ℕ) :=
  if s.finished then []
  else
    match event with
    | .header header =>
      match header.type with
      | .rpos => (s.back header.position).pumpOperands
      | .ack =>
        let acked := s.acked header.position
        if s.phase = .sendingData ∧ ¬ (acked.sentLastBlock ∧ acked.offset ≤ acked.ackedOffset) then
          acked.pumpOperands
        else []
      | _ => []
    | _ => []

/-! ## What goes out -/

/-- What one call of `send` or `finish` carries. -/
inductive Outgoing
  | fileHeader
  | fileInfo (file : SourceFile)
  | data (position : ℕ)
  | subpacket (bytes : List UInt8) (last : ZSubpacketEnd)
  | eof (position : ℕ)
  | fin
  /-- `OO`. -/
  | goodbye
  | cancel
  | finish (completed : Bool)

/-- The call. -/
def Outgoing.effect : Outgoing → Effect
  | .fileHeader => .send (ZmodemEncoder.bin32Header { type := .file })
  | .fileInfo file =>
    .send (ZmodemEncoder.dataSubpacket32 (ZmodemSender.fileInfo file.toZmodemOutgoingFile) .wait)
  | .data position => .send (ZmodemEncoder.bin32Header (.positioned .data (UInt32.ofNat position)))
  | .subpacket bytes last => .send (ZmodemEncoder.dataSubpacket32 bytes last)
  | .eof position => .send (ZmodemEncoder.hexHeader (.positioned .eof (UInt32.ofNat position)))
  | .fin => .send (ZmodemEncoder.hexHeader { type := .fin })
  | .goodbye => .send (ascii "OO")
  | .cancel => .send ZmodemEncoder.cancelSequence
  | .finish completed => .finish completed

/-- What an observer of both directions knows of the transfer. -/
structure Line where
  /-- The file announced last. -/
  file : Option SourceFile := none
  /-- The position of the last ZDATA. -/
  announced : ℕ := 0
  /-- The bytes of data sent since. -/
  sent : ℕ := 0
  /-- The furthest position acknowledged since, at least the announced one. -/
  acknowledged : ℕ := 0

namespace Line

/-- Where the next byte of data belongs. -/
def next (l : Line) : ℕ := l.announced + l.sent

def hear (l : Line) : ZParserEvent → Line
  | .header header =>
    if header.type = .ack then
      { l with acknowledged := max l.acknowledged header.position.toNat }
    else l
  | _ => l

def say (l : Line) : Outgoing → Line
  | .fileInfo file => { l with file := some file }
  | .data position => { l with announced := position, sent := 0, acknowledged := position }
  | .subpacket bytes _ => { l with sent := l.sent + bytes.length }
  | _ => l

/-- **What may be sent**: a subpacket of the announced file's bytes from where the line is, as long
as no more than a window and a block are unacknowledged; and a ZEOF at the file's own size.  A
position is sent as 32 bits, and has no more. -/
def Proper (l : Line) : Outgoing → Prop
  | .subpacket bytes _ =>
    ∃ file, l.file = some file ∧ bytes <+: file.data.drop l.next
      ∧ l.next + bytes.length ≤ l.acknowledged + window + blockSize
  | .eof position => position < 2 ^ 32 ∧ ∃ file, l.file = some file ∧ position = file.size
  | .data position => position < 2 ^ 32
  | _ => True

/-- The effects are proper sendings, which leave the line at `l'`. -/
def Carries (l : Line) (effects : List Effect) (l' : Line) : Prop :=
  ∃ out : List Outgoing, effects = out.map Outgoing.effect ∧ Run.Along say Proper l out
    ∧ Run.after say l out = l'

theorem Carries.nil (l : Line) : Carries l [] l := ⟨[], rfl, trivial, rfl⟩

theorem Carries.cons {l l' : Line} {effects : List Effect} (o : Outgoing) (hproper : l.Proper o)
    (h : Carries (l.say o) effects l') : Carries l (o.effect :: effects) l' := by
  obtain ⟨out, rfl, halong, hafter⟩ := h
  exact ⟨o :: out, rfl, ⟨hproper, halong⟩, hafter⟩

end Line

/-- **The sender survives** the events: no subtraction of the window's goes below zero, and what is
sent is proper. -/
def Survives : ZmodemSender → Line → List ZParserEvent → Prop
  | _, _, [] => True
  | s, l, event :: events =>
    (∀ pair ∈ s.operands event, pair.2 ≤ pair.1)
      ∧ ∃ l', Line.Carries (l.hear event) (s.handle event).2 l'
        ∧ Survives (s.handle event).1 l' events

/-- The same of a transfer from its beginning. -/
def SurvivesUpload (files : List SourceFile) (events : List ZParserEvent) : Prop :=
  let opened := ({ source := files.map (·.toZmodemOutgoingFile) } : ZmodemSender).begin
  ∃ l, Line.Carries {} opened.2 l ∧ Survives opened.1 l events

/-- **An event the sender can answer**: not a ZACK past what was sent while blocks are still to
send, nor one that ends the file where the peer has put the sender past its end. -/
def Answerable (s : ZmodemSender) : ZParserEvent → Prop
  | .header header =>
    header.type = .ack → s.finished = false → s.phase = .sendingData →
      ∀ file ∈ s.current,
        if s.sentLastBlock then
          s.offset ≤ max s.ackedOffset header.position.toNat → s.offset ≤ file.size
        else header.position.toNat ≤ s.offset
  | _ => True

/-! ## Where the sender is -/

/-- The sender is in `file` where the line is. -/
structure Stands (s : ZmodemSender) (l : Line) (file : SourceFile) : Prop where
  offset : s.offset = l.next
  acked_le : s.ackedOffset ≤ s.offset
  acknowledged : s.ackedOffset ≤ l.acknowledged
  acked_lt : s.ackedOffset < 2 ^ 32
  last : s.sentLastBlock = true → file.size ≤ s.offset

/-- **The invariant**: sender and line are on the same file and, in its data, at the same place. -/
structure Follows (s : ZmodemSender) (l : Line) : Prop where
  source : ∃ files : List SourceFile, s.source = files.map (·.toZmodemOutgoingFile)
  current : s.current = l.file.map (·.toZmodemOutgoingFile)
  stands : s.phase = .sendingData → ∀ file ∈ l.file, Stands s l file
  /-- With no file there is no last block. -/
  noFile : s.phase = .sendingData → l.file = none → s.sentLastBlock = false

/-- The transfer is finished, or goes on. -/
def Stays (s : ZmodemSender) (l : Line) : Prop := s.finished = true ∨ Follows s l

/-- What handling an event comes to. -/
def Answers (l : Line) (change : ZmodemSender × List Effect) : Prop :=
  ∃ l', Line.Carries l change.2 l' ∧ Stays change.1 l'

variable {s : ZmodemSender} {l : Line} {file : SourceFile}

theorem Answers.cons {change : ZmodemSender × List Effect} (o : Outgoing) (hproper : l.Proper o)
    (h : Answers (l.say o) change) : Answers l (change.1, o.effect :: change.2) := by
  obtain ⟨l', hcarries, hstays⟩ := h
  exact ⟨l', hcarries.cons o hproper, hstays⟩

theorem Answers.silent (h : Stays s l) : Answers l (s, []) := ⟨l, .nil l, h⟩

theorem answers_finish (hfinished : s.finished = false) (completed : Bool) :
    Answers l (s.finish completed) := by
  rw [finish, if_neg (by rw [hfinished]; decide)]
  exact Answers.cons (.finish completed) trivial (.silent (.inl rfl))

theorem answers_cancel (hfinished : s.finished = false) : Answers l s.cancel := by
  rw [cancel, if_neg (by rw [hfinished]; decide)]
  exact Answers.cons .cancel trivial (answers_finish hfinished false)

/-- **The next file**, or the end: whatever was being sent. -/
theorem answers_startNextFile
    (hsource : ∃ files : List SourceFile, s.source = files.map (·.toZmodemOutgoingFile))
    (hcurrent : s.current = l.file.map (·.toZmodemOutgoingFile)) : Answers l s.startNextFile := by
  obtain ⟨files, hsource⟩ := hsource
  unfold startNextFile
  rw [hsource]
  cases files with
  | nil =>
    have hends : Follows { s with phase := .finishing } l :=
      { source := ⟨[], hsource⟩, current := hcurrent
        stands := fun h => absurd h nofun, noFile := fun h => absurd h nofun }
    exact Answers.cons .fin trivial (.silent (.inr hends))
  | cons file files =>
    have hopens : Follows { s with
        source := files.map (·.toZmodemOutgoingFile), current := some file.toZmodemOutgoingFile
        offset := 0, phase := .sentFile } { l with file := some file } :=
      { source := ⟨files, rfl⟩, current := rfl
        stands := fun h => absurd h nofun, noFile := fun h => absurd h nofun }
    exact Answers.cons .fileHeader trivial (.cons (.fileInfo file) trivial (.silent (.inr hopens)))

/-! ## The window -/

/-- One pass: the bytes at the offset, and the sender past them. -/
theorem Stands.pass (h : Stands s l file) :
    Stands { s with
      offset := s.offset + (file.read s.offset blockSize).length
      sentLastBlock := decide (s.offset + (file.read s.offset blockSize).length ≥ file.size) }
      (l.say (.subpacket (file.read s.offset blockSize)
        (if decide (s.offset + (file.read s.offset blockSize).length ≥ file.size)
          then .wait else .query))) file where
  offset := by
    rw [h.offset, Line.next, Line.next, Line.say]
    exact Nat.add_assoc _ _ _
  acked_le := h.acked_le.trans (Nat.le_add_right _ _)
  acknowledged := h.acknowledged
  acked_lt := h.acked_lt
  last := of_decide_eq_true

theorem Stands.proper (h : Stands s l file) (hfile : l.file = some file)
    (hwindow : s.offset - s.ackedOffset < window) (last : ZSubpacketEnd) :
    l.Proper (.subpacket (file.read s.offset blockSize) last) := by
  refine ⟨file, hfile, h.offset ▸ file.read_prefix _ _, ?_⟩
  have hread := file.length_read s.offset blockSize
  have hacked := h.acked_le
  have hacknowledged := h.acknowledged
  rw [← h.offset]
  omega

/-- **The loop of the window** sends proper subpackets, or cancels. -/
theorem answers_pump : ∀ (passes : ℕ) {s : ZmodemSender} {l : Line}, s.finished = false →
    (∃ files : List SourceFile, s.source = files.map (·.toZmodemOutgoingFile)) →
    s.current = some file.toZmodemOutgoingFile → l.file = some file → Stands s l file →
      Answers l (pump file.toZmodemOutgoingFile passes s) := by
  intro passes
  induction passes with
  | zero =>
    intro s l _ hsource hcurrent hfile h
    refine .silent
      (.inr ⟨hsource, by rw [hcurrent, hfile]; rfl, fun _ f hf => ?_, fun _ hnone => ?_⟩)
    · rw [hfile] at hf
      exact Option.some.inj hf ▸ h
    · exact absurd (hfile.symm.trans hnone) nofun
  | succ passes ih =>
    intro s l hfinished hsource hcurrent hfile h
    unfold pump
    split
    case isTrue hgo =>
      dsimp only
      split
      case isTrue => exact answers_cancel hfinished
      case isFalse =>
        exact Answers.cons _ (h.proper hfile hgo.2 _)
          (ih (l := l.say (.subpacket _ _)) hfinished hsource hcurrent hfile h.pass)
    case isFalse =>
      refine .silent
        (.inr ⟨hsource, by rw [hcurrent, hfile]; rfl, fun _ f hf => ?_, fun _ hnone => ?_⟩)
      · rw [hfile] at hf
        exact Option.some.inj hf ▸ h
      · exact absurd (hfile.symm.trans hnone) nofun

/-- **No pass subtracts more than there is**, once the acknowledged position is no further than the
sent one. -/
theorem loopOperands_le (file : ZmodemOutgoingFile) : ∀ (passes : ℕ) {s : ZmodemSender},
    s.ackedOffset ≤ s.offset → ∀ pair ∈ loopOperands file passes s, pair.2 ≤ pair.1
  | 0, _, _, _, hmem => absurd hmem List.not_mem_nil
  | passes + 1, s, h, pair, hmem => by
    unfold loopOperands at hmem
    split at hmem
    · exact absurd hmem List.not_mem_nil
    · rcases List.mem_cons.mp hmem with rfl | hmem
      · exact h
      · dsimp only at hmem
        split at hmem
        · split at hmem
          · exact absurd hmem List.not_mem_nil
          · exact loopOperands_le file passes (by exact h.trans (Nat.le_add_right _ _)) pair hmem
        · exact absurd hmem List.not_mem_nil

theorem pumpOperands_le (h : ∀ file ∈ s.current, s.ackedOffset ≤ s.offset) :
    ∀ pair ∈ s.pumpOperands, pair.2 ≤ pair.1 := by
  unfold pumpOperands
  cases hcurrent : s.current with
  | none => exact fun _ hmem => absurd hmem List.not_mem_nil
  | some file => exact loopOperands_le file _ (h file hcurrent)

/-! ## One event -/

theorem Follows.answers_pumpWindow (h : Follows s l) (hfinished : s.finished = false)
    (hphase : s.phase = .sendingData) : Answers l s.pumpWindow := by
  have hcurrent := h.current
  unfold pumpWindow
  cases hfile : l.file with
  | none =>
    rw [hfile] at hcurrent
    rw [hcurrent]
    exact .silent (.inr h)
  | some file =>
    rw [hfile] at hcurrent
    rw [hcurrent]
    exact answers_pump window hfinished h.source hcurrent hfile (h.stands hphase file hfile)

/-- A ZRPOS puts sender and line at its position. -/
theorem Follows.back (h : Follows s l) (position : UInt32) :
    Follows (s.back position) (l.say (.data position.toNat)) where
  source := h.source
  current := h.current
  stands _ _ _ := ⟨rfl, Nat.le_refl _, Nat.le_refl _, position.toNat_lt, nofun⟩
  noFile _ _ := rfl

theorem Follows.answers_rpos (h : Follows s l) (hfinished : s.finished = false)
    (position : UInt32) : Answers l (s.handleRPos position) :=
  Answers.cons (.data position.toNat) position.toNat_lt
    ((h.back position).answers_pumpWindow hfinished rfl)

/-- A ZACK the sender can answer leaves the positions in order. -/
theorem Follows.acked (h : Follows s l) {header : ZHeader} (hack : header.type = .ack)
    (hphase : s.phase = .sendingData)
    (hahead : ∀ file ∈ l.file, max s.ackedOffset header.position.toNat ≤ s.offset) :
    Follows (s.acked header.position) (l.hear (.header header)) := by
  rw [Line.hear, if_pos hack]
  refine ⟨h.source, h.current, fun _ file hfile => ?_, fun _ hnone => h.noFile hphase hnone⟩
  have hstands := h.stands hphase file hfile
  refine ⟨hstands.offset, hahead file hfile, ?_, ?_, hstands.last⟩
  · exact max_le_max_right _ hstands.acknowledged
  · exact max_lt hstands.acked_lt header.position.toNat_lt

/-- The ZEOF for the last block's ZACK, at the size of the file. -/
theorem Stands.proper_eof (h : Stands s l file) (hfile : l.file = some file)
    (hlast : s.sentLastBlock = true) {position : UInt32}
    (hreached : s.offset ≤ max s.ackedOffset position.toNat) (hend : s.offset ≤ file.size) :
    l.Proper (.eof s.offset) :=
  ⟨lt_of_le_of_lt hreached (max_lt h.acked_lt position.toNat_lt),
    file, hfile, Nat.le_antisymm hend (h.last hlast)⟩

/-- The ZACK reaches the end of the last block. -/
def Reaches (s : ZmodemSender) (position : UInt32) : Prop :=
  s.sentLastBlock = true ∧ s.offset ≤ max s.ackedOffset position.toNat

theorem handleAck_of_reaches (hphase : s.phase = .sendingData) {position : UInt32}
    (h : s.Reaches position) :
    s.handleAck position
      = ({ s.acked position with phase := .awaitingEOFAck },
          [(Outgoing.eof s.offset).effect]) := by
  rw [handleAck, if_pos hphase]
  exact if_pos h

theorem handleAck_of_not_reaches (hphase : s.phase = .sendingData) {position : UInt32}
    (h : ¬ s.Reaches position) : s.handleAck position = (s.acked position).pumpWindow := by
  rw [handleAck, if_pos hphase]
  exact if_neg h

theorem operands_ack {header : ZHeader} (hack : header.type = .ack) (pair : ℕ × ℕ)
    (hmem : pair ∈ s.operands (.header header)) :
    ¬ s.Reaches header.position ∧ pair ∈ (s.acked header.position).pumpOperands := by
  unfold operands at hmem
  split at hmem
  · exact absurd hmem List.not_mem_nil
  · simp only [hack] at hmem
    split at hmem
    case isTrue hwindow => exact ⟨hwindow.2, hmem⟩
    case isFalse => exact absurd hmem List.not_mem_nil

/-- **A ZACK that can be answered** is: with a ZEOF at the file's size, or with what the window now
takes. -/
theorem Follows.answers_ack (h : Follows s l) (hfinished : s.finished = false) {header : ZHeader}
    (hack : header.type = .ack) (hphase : s.phase = .sendingData)
    (hanswerable : s.Answerable (.header header)) :
    Answers (l.hear (.header header)) (s.handleAck header.position)
      ∧ ∀ pair ∈ s.operands (.header header), pair.2 ≤ pair.1 := by
  have hanswerable := hanswerable hack hfinished hphase
  have hcurrent := h.current
  have hheard : (l.hear (.header header)).file = l.file := by rw [Line.hear, if_pos hack]
  by_cases hends : s.Reaches header.position
  · rw [handleAck_of_reaches hphase hends]
    refine ⟨?_, fun pair hmem => absurd hends (operands_ack hack pair hmem).1⟩
    obtain ⟨hlast, hreached⟩ := hends
    cases hfile : l.file with
    | none => exact absurd ((h.noFile hphase hfile).symm.trans hlast) nofun
    | some file =>
      rw [hfile] at hcurrent
      have hend := hanswerable _ (Option.mem_def.mpr hcurrent)
      rw [if_pos hlast] at hend
      have hproper := (h.stands hphase file hfile).proper_eof hfile hlast hreached (hend hreached)
      have hwaits : Follows { s.acked header.position with phase := .awaitingEOFAck }
          (l.hear (.header header)) :=
        { source := h.source, current := by rw [hheard]; exact h.current
          stands := fun h => absurd h nofun, noFile := fun h => absurd h nofun }
      have hheardProper : (l.hear (.header header)).Proper (.eof s.offset) := by
        rw [Line.Proper, hheard]
        exact hproper
      exact Answers.cons (.eof s.offset) hheardProper (.silent (.inr hwaits))
  · rw [handleAck_of_not_reaches hphase hends]
    have hahead : ∀ file ∈ l.file, max s.ackedOffset header.position.toNat ≤ s.offset := by
      intro file hfile
      rw [Option.mem_def.mp hfile] at hcurrent
      have hle := hanswerable _ (Option.mem_def.mpr hcurrent)
      split at hle
      case isTrue hlast => exact Nat.le_of_lt (not_le.mp fun hreached => hends ⟨hlast, hreached⟩)
      case isFalse => exact max_le (h.stands hphase file hfile).acked_le hle
    refine ⟨(h.acked hack hphase hahead).answers_pumpWindow hfinished hphase, fun pair hmem => ?_⟩
    refine pumpOperands_le (fun file hfile => ?_) pair (operands_ack hack pair hmem).2
    cases hline : l.file with
    | none =>
      rw [hline] at hcurrent
      exact absurd (hcurrent.symm.trans hfile) nofun
    | some f => exact hahead f hline

/-- What hearing changes is not the file. -/
theorem Follows.hear (h : Follows s l) (event : ZParserEvent)
    (hphase : s.phase = .sendingData → l.hear event = l) : Follows s (l.hear event) := by
  have hfile : (l.hear event).file = l.file := by
    unfold Line.hear
    split
    · split <;> rfl
    · rfl
  refine ⟨h.source, by rw [hfile]; exact h.current, fun hsending => ?_, fun hsending => ?_⟩
  · rw [hphase hsending]
    exact h.stands hsending
  · rw [hphase hsending]
    exact h.noFile hsending

/-- A header other than a ZACK is not an acknowledgement. -/
theorem Line.hear_of_ne {header : ZHeader} (h : header.type ≠ .ack) :
    l.hear (.header header) = l := if_neg h

/-- **Any header that can be answered.** -/
theorem Follows.answers_header (h : Follows s l) (hfinished : s.finished = false)
    {header : ZHeader} (hanswerable : s.Answerable (.header header)) :
    Answers (l.hear (.header header)) (s.handleHeader header)
      ∧ ∀ pair ∈ s.operands (.header header), pair.2 ≤ pair.1 := by
  by_cases hack : header.type = .ack
  · by_cases hphase : s.phase = .sendingData
    · unfold handleHeader
      simpa only [hack] using h.answers_ack hfinished hack hphase hanswerable
    · unfold handleHeader handleAck operands
      simp only [hack, hphase, if_false, false_and, hfinished, Bool.false_eq_true]
      exact ⟨.silent (.inr (h.hear _ fun hsending => absurd hsending hphase)),
        fun _ hmem => absurd hmem List.not_mem_nil⟩
  · rw [Line.hear_of_ne hack]
    unfold handleHeader operands
    simp only [hfinished, Bool.false_eq_true, if_false]
    split
    case h_1 hrpos =>
      simp only [hrpos]
      exact ⟨h.answers_rpos hfinished _, pumpOperands_le fun _ _ => Nat.le_refl _⟩
    case h_2 heq => exact absurd heq hack
    case h_3 heq =>
      simp only [heq]
      refine ⟨?_, fun _ hmem => absurd hmem List.not_mem_nil⟩
      split
      · exact answers_startNextFile h.source h.current
      · exact .silent (.inr h)
    case h_4 heq =>
      simp only [heq]
      exact ⟨answers_startNextFile h.source h.current, fun _ hmem => absurd hmem List.not_mem_nil⟩
    case h_5 heq =>
      simp only [heq]
      exact ⟨.cons .goodbye trivial (answers_finish hfinished true),
        fun _ hmem => absurd hmem List.not_mem_nil⟩
    case h_6 hrpos hack hrinit hskip hfin =>
      refine ⟨.silent (.inr h), ?_⟩
      split
      · exact absurd ‹_› hrpos
      · exact absurd ‹_› hack
      · exact fun _ hmem => absurd hmem List.not_mem_nil

/-- **One event that can be answered.** -/
theorem Stays.answers (h : Stays s l) {event : ZParserEvent} (hanswerable : s.Answerable event) :
    Answers (l.hear event) (s.handle event) ∧ ∀ pair ∈ s.operands event, pair.2 ≤ pair.1 := by
  cases hfinished : s.finished with
  | true =>
    unfold handle operands
    rw [if_pos hfinished, if_pos hfinished]
    exact ⟨.silent (.inl hfinished), fun _ hmem => absurd hmem List.not_mem_nil⟩
  | false =>
    have hfollows := h.resolve_left (by rw [hfinished]; decide)
    cases event with
    | header header =>
      unfold handle
      rw [if_neg (by rw [hfinished]; decide)]
      exact hfollows.answers_header hfinished hanswerable
    | abort =>
      unfold handle operands
      rw [hfinished]
      exact ⟨answers_finish hfinished false, fun _ hmem => absurd hmem List.not_mem_nil⟩
    | data bytes last | badCRC | noise byte =>
      unfold handle operands
      rw [hfinished]
      exact ⟨.silent h, fun _ hmem => absurd hmem List.not_mem_nil⟩

/-! ## Runs -/

theorem Stays.survives : ∀ (events : List ZParserEvent) {s : ZmodemSender} {l : Line}, Stays s l →
    Run.Along (fun s event => (s.handle event).1) Answerable s events → Survives s l events := by
  intro events
  induction events with
  | nil => exact fun _ _ => trivial
  | cons event events ih =>
    intro s l h hrun
    obtain ⟨⟨l', hcarries, hstays⟩, hoperands⟩ := h.answers hrun.1
    exact ⟨hoperands, l', hcarries, ih hstays hrun.2⟩

/-- **The sender survives every peer whose ZACKs it can answer**, whatever else the peer sends, in
any order and at any time: in every such run no subtraction goes below zero, every subpacket carries
the file's bytes at its position, at most a window and a block are unacknowledged, and every ZEOF is
at the file's size. -/
theorem survives_of_answerable (files : List SourceFile) (events : List ZParserEvent)
    (h : Run.Along (fun s event => (s.handle event).1) Answerable
      ({ source := files.map (·.toZmodemOutgoingFile) } : ZmodemSender).begin.1 events) :
    SurvivesUpload files events := by
  obtain ⟨l, hcarries, hstays⟩ := answers_startNextFile (l := {})
    (s := { source := files.map (·.toZmodemOutgoingFile) }) ⟨files, rfl⟩ rfl
  exact ⟨l, hcarries, hstays.survives events h⟩

/-! ## A ZACK ahead of what was sent -/

/-- A ZRPOS is answered from its position on. -/
theorem handle_rpos_fst (file : SourceFile) {header : ZHeader} (hrpos : header.type = .rpos)
    (hfinished : s.finished = false) (hcurrent : s.current = some file.toZmodemOutgoingFile) :
    (s.handle (.header header)).1
      = (pump file.toZmodemOutgoingFile window (s.back header.position)).1 := by
  have hpump : (s.back header.position).pumpWindow
      = pump file.toZmodemOutgoingFile window (s.back header.position) := by
    rw [pumpWindow, show (s.back header.position).current = s.current from rfl, hcurrent]
  rw [← hpump, handle, if_neg (by rw [hfinished]; decide), handleHeader, hrpos]
  rfl

/-- **A ZACK past what was sent underflows** while blocks are still to send. -/
theorem ack_ahead_underflows (file : SourceFile) (header : ZHeader) (hack : header.type = .ack)
    (hfinished : s.finished = false) (hphase : s.phase = .sendingData)
    (hcurrent : s.current = some file.toZmodemOutgoingFile) (hlast : s.sentLastBlock = false)
    (hahead : s.offset < header.position.toNat) :
    ∃ pair ∈ s.operands (.header header), pair.1 < pair.2 := by
  have hoperands : s.operands (.header header) = (s.acked header.position).pumpOperands := by
    unfold operands
    simp [hfinished, hack, hphase, acked, hlast]
  have hfirst : (s.offset, max s.ackedOffset header.position.toNat)
      ∈ (s.acked header.position).pumpOperands := by
    unfold pumpOperands loopOperands
    simp [acked, hcurrent, hlast]
  exact ⟨_, hoperands ▸ hfirst, lt_of_lt_of_le hahead (Nat.le_max_right _ _)⟩

/-- The loop stops within a window and a block of what is acknowledged. -/
theorem offset_pump_lt (file : SourceFile) : ∀ (passes : ℕ) {s : ZmodemSender},
    s.offset < s.ackedOffset + window + blockSize →
      (pump file.toZmodemOutgoingFile passes s).1.offset < s.ackedOffset + window + blockSize
  | 0, _, h => h
  | passes + 1, s, h => by
    unfold pump
    split
    case isTrue hgo =>
      dsimp only
      split
      case isTrue =>
        unfold cancel finish
        split <;> exact h
      case isFalse =>
        have hread := file.length_read s.offset blockSize
        have hwindow := hgo.2
        refine offset_pump_lt file passes (s := { s with
          offset := s.offset + (file.read s.offset blockSize).length
          sentLastBlock := _ }) ?_
        dsimp only
        omega
    case isFalse => exact h

end ZmodemSender

namespace Loopback

/-- A file in memory as a source of bytes. -/
def File.source (f : File) : SourceFile where
  toZmodemOutgoingFile := f.outgoing
  data := f.data
  size_eq := rfl
  read_prefix _ _ := List.take_prefix _ _
  length_read _ _ := List.length_take_le _ _

/-- A file longer than a window and a block. -/
def longFile : File := ⟨ascii "long.bin", List.replicate 300000 0x61⟩

/-- The file from its beginning, and a ZACK for bytes it does not have. -/
def aheadEvents : List ZParserEvent :=
  [.header (.positioned .rpos 0), .header (.positioned .ack 0xFFFFFFFF)]

theorem length_longFile : longFile.data.length = 300000 := List.length_replicate

/-- The sender of the long file with its first window sent. -/
theorem longFile_window :
    let s := (({ source := [longFile.outgoing] } : ZmodemSender).begin.1.handle
      (.header (.positioned .rpos 0))).1
    s.current = some longFile.outgoing ∧ s.finished = false ∧ s.phase = .sendingData
      ∧ s.sentLastBlock = false ∧ s.offset < 300000 := by
  let s₀ := (({ source := [longFile.outgoing] } : ZmodemSender).begin.1).back 0
  have hpumped : (({ source := [longFile.outgoing] } : ZmodemSender).begin.1.handle
      (.header (.positioned .rpos 0))).1 = (ZmodemSender.pump longFile.outgoing
        ZmodemSender.window s₀).1 :=
    ZmodemSender.handle_rpos_fst longFile.source rfl rfl rfl
  obtain ⟨count, -, -, hpump⟩ := pump_spec (f := longFile) ZmodemSender.window (s := s₀) (k := 0)
    (Nat.zero_le _) File.bound_zero.symm (decide_eq_false File.blockCount_pos.ne).symm
    (Nat.le_refl 0) (.inr (Nat.le_add_right _ _))
  have hroom : s₀.offset < s₀.ackedOffset + ZmodemSender.window + ZmodemSender.blockSize :=
    (by decide : 0 < 0 + ZmodemSender.window + ZmodemSender.blockSize)
  have hoffset := ZmodemSender.offset_pump_lt longFile.source ZmodemSender.window hroom
  rw [show longFile.source.toZmodemOutgoingFile = longFile.outgoing from rfl, hpump] at hoffset
  have hlong : longFile.bound (0 + count) < 300000 :=
    lt_trans hoffset (by decide : 0 + ZmodemSender.window + ZmodemSender.blockSize < 300000)
  have hlast : 0 + count ≠ longFile.blockCount := by
    intro heq
    rw [heq, File.bound_blockCount, length_longFile] at hlong
    exact absurd hlong (lt_irrefl _)
  rw [hpumped, hpump]
  exact ⟨rfl, rfl, rfl, decide_eq_false hlast, hlong⟩

/-- **A ZACK from the peer traps the sender**: with the first window of the file sent, it names a
position that was not. -/
theorem longFile_not_survives : ¬ ZmodemSender.SurvivesUpload [longFile.source] aheadEvents := by
  rintro ⟨l, -, -, l', -, hoperands, -⟩
  obtain ⟨hcurrent, hfinished, hphase, hlast, hoffset⟩ := longFile_window
  obtain ⟨pair, hmem, hlt⟩ := ZmodemSender.ack_ahead_underflows longFile.source
    (.positioned .ack 0xFFFFFFFF) rfl hfinished hphase hcurrent hlast
    (lt_trans hoffset (by decide))
  exact absurd (hoperands pair hmem) (not_le.mpr hlt)

/-- A short file, refused its first position and then taken. -/
def shortEvents : List ZParserEvent :=
  [.header (.positioned .rpos 2), .badCRC, .header (.positioned .rpos 0),
    .header (.positioned .ack 3), .header { type := .rinit }, .header { type := .fin }]

theorem shortFile_survives :
    ZmodemSender.SurvivesUpload [(⟨ascii "a", ascii "abc"⟩ : File).source] shortEvents := by
  refine ZmodemSender.survives_of_answerable _ _ ⟨nofun, trivial, nofun, ?_, nofun, nofun, trivial⟩
  rintro - - - file hfile
  cases hfile
  decide

end Loopback
