import IGhostVT.Zmodem.ZmodemEngine
import IGhostVT.Zmodem.ZmodemReading

/-!
# Zmodem/TransferEnd — a conversation is taken out to its end

What a `ZmodemSender` puts on the line has no two ZDLEs in a row before a cancel
(`closedOrCancelled_conversation`), so a run of them is the cancel itself.  The other end mark, a
ZFIN, is searched as raw bytes, and there the escaping is no help: 0x02 is sent as ZDLE `B`, so a
payload may spell a ZFIN's `**` ZDLE `B08`.  Where none does before the end, `strip` and `discard`
take out the conversation and nothing else (`removes_conversation`).

A conversation starts at a hex header.  `sz` opens with one, as a `ZmodemSender` does not: its own
opening, ZFILE, is binary, and is left on the screen (`strip_keeps_opening`).
-/

open Zmodem

/-! ## No two ZDLEs in a row

`Closed` bytes have none, and none at their end that the next part could join. -/

/-- No ZDLE follows a ZDLE. -/
def Lone (bytes : List UInt8) : Prop :=
  bytes.IsChain fun b c => ¬ (b = ZDLE ∧ c = ZDLE)

/-- …nor would one that came after. -/
def Closed (bytes : List UInt8) : Prop := Lone (bytes ++ [ZDLE])

namespace Closed

variable {a b : List UInt8}

/-- What is closed has no two ZDLEs in a row. -/
theorem lone (h : Closed a) : Lone a := List.IsChain.left_of_append h

/-- Nothing is closed. -/
theorem nil : Closed [] := List.isChain_singleton _

/-- What is closed may be followed by what has no two in a row. -/
theorem append_lone (ha : Closed a) (hb : Lone b) : Lone (a ++ b) := by
  rw [Closed, Lone, List.isChain_append] at ha
  rw [Lone, List.isChain_append]
  refine ⟨ha.1, hb, fun x hx y _ hzdle => ?_⟩
  exact ha.2.2 x hx ZDLE rfl ⟨hzdle.1, rfl⟩

/-- Closed parts make a closed whole. -/
theorem append (ha : Closed a) (hb : Closed b) : Closed (a ++ b) := by
  rw [Closed, List.append_assoc]
  exact ha.append_lone hb

/-- However many they are. -/
theorem flatMap {α : Type*} {f : α → List UInt8} (h : ∀ x, Closed (f x)) :
    ∀ xs : List α, Closed (xs.flatMap f)
  | [] => nil
  | x :: xs => by
      rw [List.flatMap_cons]
      exact (h x).append (flatMap h xs)

/-- What has no ZDLE is closed. -/
theorem of_not_mem : ∀ {a : List UInt8}, ZDLE ∉ a → Closed a
  | [], _ => nil
  | byte :: rest, h => by
      rw [List.mem_cons, not_or] at h
      exact List.isChain_cons.mpr ⟨fun _ _ hzdle => h.1 hzdle.1.symm, of_not_mem h.2⟩

/-- An escaped byte has one ZDLE, and another byte behind it. -/
theorem escaped : ∀ byte : UInt8, Closed (ZmodemEncoder.escaped byte) := by
  unfold Closed Lone
  exact ZmodemParser.forall_uint8 (by decide +kernel)

/-- Hex digits have none. -/
theorem hex : ∀ byte : UInt8, Closed (ZmodemEncoder.hex byte) := by
  unfold Closed Lone
  exact ZmodemParser.forall_uint8 (by decide +kernel)

/-- So a hex header has the one it begins with. -/
theorem hexHeader (h : ZHeader) : Closed (ZmodemEncoder.hexHeader h) := by
  have hline : Closed (if h.type ≠ .ack ∧ h.type ≠ .fin then [XON] else []) := by
    split <;> exact of_not_mem (by decide)
  have hopen : Closed [ZPAD, ZPAD, ZDLE, ZHEX] := by unfold Closed Lone; decide
  exact ((((hopen.append (flatMap hex _)).append (hex _)).append (hex _)).append
    (of_not_mem (by decide))).append hline

/-- A binary header has more, but each with a byte behind it. -/
theorem bin32Header (h : ZHeader) : Closed (ZmodemEncoder.bin32Header h) := by
  have hopen : Closed [ZPAD, ZDLE, ZBIN32] := by unfold Closed Lone; decide
  exact (hopen.append (flatMap escaped _)).append (flatMap escaped _)

/-- And so has a subpacket. -/
theorem dataSubpacket32 (data : List UInt8) (last : ZSubpacketEnd) :
    Closed (ZmodemEncoder.dataSubpacket32 data last) := by
  have hend : Closed [ZDLE, last.rawValue] := by unfold Closed Lone; cases last <;> decide
  have htail : Closed (if last = .wait then [XON] else []) := by
    split <;> exact of_not_mem (by decide)
  exact (((flatMap escaped data).append hend).append (flatMap escaped _)).append htail

end Closed

/-! ## What a sender puts on the line

All that is said is made of headers and subpackets, and perhaps a cancel at the end. -/

namespace ZmodemSender

/-- What a sender is given: an event of its parser, or the user's cancel. -/
inductive Input
  | event (e : ZParserEvent)
  | cancel
deriving DecidableEq

def take (s : ZmodemSender) : Input → ZmodemSender × List Effect
  | .event e => s.handle e
  | .cancel => s.cancel

/-- The bytes the effects put on the line. -/
def bytes (effects : List Effect) : List UInt8 := effects.flatMap Effect.sent

/-- What a sender says to a list of inputs. -/
def said (s : ZmodemSender) : List Input → List UInt8
  | [] => []
  | input :: inputs => bytes (s.take input).2 ++ (s.take input).1.said inputs

/-- **A conversation**: all a sender of the files says, from its beginning. -/
def conversation (files : List ZmodemOutgoingFile) (inputs : List Input) : List UInt8 :=
  let opened := ({ source := files } : ZmodemSender).begin
  bytes opened.2 ++ opened.1.said inputs

/-- Bytes with no two ZDLEs in a row, up to a cancel. -/
def ClosedOrCancelled (sent : List UInt8) : Prop :=
  Closed sent ∨ ∃ before, Closed before ∧ sent = before ++ ZmodemEncoder.cancelSequence

/-- A change after a cancel leaves the sender finished. -/
def Speaks (change : ZmodemSender × List Effect) : Prop :=
  Closed (bytes change.2) ∨
    change.1.finished = true ∧
      ∃ before, Closed before ∧ bytes change.2 = before ++ ZmodemEncoder.cancelSequence

variable {s : ZmodemSender}

/-- What effects put on the line is what each one sends. -/
theorem bytes_send (sent : List UInt8) (effects : List Effect) :
    bytes (.send sent :: effects) = sent ++ bytes effects := rfl

/-- A sender that says nothing speaks well. -/
theorem Speaks.silent (s : ZmodemSender) : Speaks (s, []) := .inl .nil

/-- Something closed said first. -/
theorem Speaks.send {next : ZmodemSender} {effects : List Effect} {sent : List UInt8}
    (h : Speaks (next, effects)) (hsent : Closed sent) : Speaks (next, .send sent :: effects) := by
  rcases h with h | ⟨hfinished, before, hbefore, hbytes⟩
  · exact .inl (hsent.append h)
  · refine .inr ⟨hfinished, sent ++ before, hsent.append hbefore, ?_⟩
    rw [bytes_send, hbytes, List.append_assoc]

/-- Ending puts nothing on the line. -/
theorem speaks_finish (s : ZmodemSender) (completed : Bool) : Speaks (s.finish completed) := by
  unfold finish
  split
  · exact .silent s
  · exact .inl .nil

/-- A cancel is what ends a transfer before its time. -/
theorem speaks_cancel (s : ZmodemSender) : Speaks s.cancel := by
  unfold cancel
  split
  case isTrue => exact .silent s
  case isFalse hrunning =>
    rw [finish, if_neg hrunning]
    exact .inr ⟨rfl, [], .nil, rfl⟩

/-- The next file begins with a header. -/
theorem speaks_startNextFile (s : ZmodemSender) : Speaks s.startNextFile := by
  unfold startNextFile
  split
  · exact (Speaks.silent _).send (.hexHeader _)
  · exact ((Speaks.silent _).send (.dataSubpacket32 _ _)).send (.bin32Header _)

/-- Data goes out in subpackets. -/
theorem speaks_pump (file : ZmodemOutgoingFile) :
    ∀ (passes : ℕ) (s : ZmodemSender), Speaks (pump file passes s)
  | 0, s => .silent s
  | passes + 1, s => by
      rw [pump]
      split
      case isTrue =>
        dsimp only
        split
        · exact speaks_cancel s
        · exact (speaks_pump file passes _).send (.dataSubpacket32 _ _)
      case isFalse => exact .silent s

/-- As many as there is room for. -/
theorem speaks_pumpWindow (s : ZmodemSender) : Speaks s.pumpWindow := by
  unfold pumpWindow
  split
  · exact .silent s
  · exact speaks_pump _ _ _

/-- The answer to a header is a header, data, or the end. -/
theorem speaks_handleHeader (s : ZmodemSender) (header : ZHeader) :
    Speaks (s.handleHeader header) := by
  unfold handleHeader
  split
  case h_1 => exact (speaks_pumpWindow _).send (.bin32Header _)
  case h_2 =>
    unfold handleAck
    split
    case isTrue =>
      dsimp only
      split
      · exact (Speaks.silent _).send (.hexHeader _)
      · exact speaks_pumpWindow _
    case isFalse => exact .silent s
  case h_3 =>
    split
    · exact speaks_startNextFile s
    · exact .silent s
  case h_4 => exact speaks_startNextFile s
  case h_5 => exact (speaks_finish s true).send (.of_not_mem (by decide))
  case h_6 => exact .silent s

/-- **All a sender says is closed, or ends in a cancel.** -/
theorem speaks_take (s : ZmodemSender) : ∀ input : Input, Speaks (s.take input)
  | .cancel => speaks_cancel s
  | .event e => by
      change Speaks (s.handle e)
      unfold handle
      split
      case isTrue => exact .silent s
      case isFalse =>
        split
        · exact speaks_handleHeader s _
        · exact speaks_finish s false
        all_goals exact .silent s

/-- A finished sender says nothing. -/
theorem said_of_finished (h : s.finished = true) : ∀ inputs : List Input, s.said inputs = []
  | [] => rfl
  | input :: inputs => by
      have hstill : s.take input = (s, []) := by
        cases input
        · exact if_pos h
        · exact if_pos h
      rw [said, hstill]
      exact said_of_finished h inputs

/-- What follows a change that speaks properly keeps the whole so. -/
theorem Speaks.then {change : ZmodemSender × List Effect} (h : Speaks change) {inputs : List Input}
    (hrest : ClosedOrCancelled (change.1.said inputs)) :
    ClosedOrCancelled (bytes change.2 ++ change.1.said inputs) := by
  rcases h with h | ⟨hfinished, before, hbefore, hbytes⟩
  · rcases hrest with hrest | ⟨before, hbefore, hsaid⟩
    · exact .inl (h.append hrest)
    · exact .inr ⟨bytes change.2 ++ before, h.append hbefore, by rw [hsaid, List.append_assoc]⟩
  · rw [said_of_finished hfinished, List.append_nil]
    exact .inr ⟨before, hbefore, hbytes⟩

/-- So is all it says in a whole conversation. -/
theorem closedOrCancelled_said : ∀ (inputs : List Input) (s : ZmodemSender),
    ClosedOrCancelled (s.said inputs)
  | [], _ => .inl .nil
  | input :: inputs, s => (speaks_take s input).then (closedOrCancelled_said inputs _)

/-- **Nothing in a conversation looks like a cancel** but the cancel that ends it. -/
theorem closedOrCancelled_conversation (files : List ZmodemOutgoingFile) (inputs : List Input) :
    ClosedOrCancelled (conversation files inputs) :=
  (speaks_startNextFile _).then (closedOrCancelled_said inputs _)

end ZmodemSender

/-! ## The search

An end is looked for in what is kept of a transfer. -/

namespace ZmodemStreamScanner

variable {needle before rest : List UInt8}

/-- A needle that is not in the bytes before, and of which no end begins what follows them, does not
begin at them. -/
theorem not_isPrefix_append (hne : before ≠ []) (hnone : ¬ needle <:+: before)
    (hstraddle : ∀ k, 0 < k → k < needle.length → ¬ needle.drop k <+: rest) :
    ¬ needle <+: before ++ rest := by
  rintro ⟨tail, htail⟩
  rcases List.append_eq_append_iff.mp htail with ⟨more, hbefore, -⟩ | ⟨left, rfl, hrest⟩
  · exact hnone (hbefore ▸ (List.prefix_append needle more).isInfix)
  · rcases eq_or_ne left [] with rfl | hleft
    · exact hnone (by rw [List.append_nil])
    · refine hstraddle before.length (List.length_pos_iff.mpr hne) ?_ ?_
      · rw [List.length_append]
        exact Nat.lt_add_of_pos_right (List.length_pos_iff.mpr hleft)
      · rw [List.drop_left]
        exact ⟨tail, hrest.symm⟩

/-- What does not occur is not found. -/
theorem index_eq_none : ∀ {bytes : List UInt8}, ¬ needle <:+: bytes → index needle bytes = none
  | [], _ => rfl
  | byte :: bytes, h => by
      rw [List.infix_cons_iff, not_or] at h
      rw [index, if_neg (fun hbegins => h.1 (List.isPrefixOf_iff_prefix.mp hbegins)),
        index_eq_none h.2]
      rfl

/-- The needle is found behind bytes without it. -/
theorem index_append (hne : needle ≠ []) (hrest : needle <+: rest)
    (hstraddle : ∀ k, 0 < k → k < needle.length → ¬ needle.drop k <+: rest) :
    ∀ {before : List UInt8}, ¬ needle <:+: before →
      index needle (before ++ rest) = some before.length
  | [], _ => by
      cases rest with
      | nil => exact absurd (List.prefix_nil.mp hrest) hne
      | cons byte rest => exact if_pos (List.isPrefixOf_iff_prefix.mpr hrest)
  | byte :: before, h => by
      have hhere : ¬ needle <+: byte :: before ++ rest :=
        not_isPrefix_append (List.cons_ne_nil _ _) h hstraddle
      rw [List.infix_cons_iff, not_or] at h
      rw [List.cons_append] at hhere
      rw [List.cons_append, index,
        if_neg (fun hbegins => hhere (List.isPrefixOf_iff_prefix.mp hbegins)),
        index_append hne hrest hstraddle h.2, List.length_cons, Nat.add_comm]
      rfl

/-- More passes than bytes change nothing. -/
theorem scanEnd_eq : ∀ {m n : ℕ} {bytes : List UInt8}, bytes.length ≤ m → bytes.length ≤ n →
    scanEnd m bytes = scanEnd n bytes
  | 0, n, [], _, _ => by cases n <;> rfl
  | m + 1, 0, [], _, _ => rfl
  | m + 1, n + 1, [], _, _ => rfl
  | m + 1, n + 1, byte :: rest, hm, hn => by
      rw [List.length_cons] at hm hn
      unfold scanEnd
      split
      next hzdle =>
        have hrun : 1 ≤ ((byte :: rest).takeWhile (· = 0x18)).length := by
          rw [List.takeWhile_cons, if_pos (decide_eq_true hzdle), List.length_cons]
          exact Nat.le_add_left 1 _
        have hpast : scanEnd m ((byte :: rest).drop ((byte :: rest).takeWhile (· = 0x18)).length) =
            scanEnd n ((byte :: rest).drop ((byte :: rest).takeWhile (· = 0x18)).length) :=
          scanEnd_eq (by rw [List.length_drop, List.length_cons]; omega)
            (by rw [List.length_drop, List.length_cons]; omega)
        simp only [hpast]
      next =>
        have hrest : scanEnd m rest = scanEnd n rest := scanEnd_eq (by omega) (by omega)
        rw [hrest]

/-- A lone ZDLE is passed over. -/
theorem endIndex_zdle (h : rest.head? ≠ some ZDLE) :
    endIndex (ZDLE :: rest) = (endIndex rest).map (1 + ·) := by
  have hrun : (ZDLE :: rest).takeWhile (· = 0x18) = [ZDLE] := by
    rw [List.takeWhile_cons_of_pos (by rfl)]
    cases rest with
    | nil => rfl
    | cons byte rest =>
      have hbyte : byte ≠ 0x18 := fun heq => h (congrArg some heq)
      rw [List.takeWhile_cons_of_neg (by simpa using hbyte)]
  unfold endIndex
  rw [List.length_cons, scanEnd, if_pos (by rfl)]
  dsimp only
  rw [hrun, if_neg (by decide)]
  rfl

/-- The end is looked for byte by byte. -/
theorem endIndex_other {byte : UInt8} (hzdle : byte ≠ ZDLE) (hmark : ¬ finish <+: byte :: rest) :
    endIndex (byte :: rest) = (endIndex rest).map (1 + ·) := by
  unfold endIndex
  rw [List.length_cons, scanEnd, if_neg (show ¬ byte = 0x18 from hzdle),
    if_neg (fun h => hmark (List.isPrefixOf_iff_prefix.mp h.2))]

/-- No end of a ZFIN's mark begins the bytes. -/
def StartsNoMark (bytes : List UInt8) : Prop :=
  ∀ k, 0 < k → k < finish.length → ¬ finish.drop k <+: bytes

/-- **Bytes without an end mark are passed over.** -/
theorem endIndex_append (htail : StartsNoMark rest) :
    ∀ {before : List UInt8}, Lone (before ++ rest.take 1) → ¬ finish <:+: before →
      endIndex (before ++ rest) = (endIndex rest).map (before.length + ·)
  | [], _, _ => by simp
  | byte :: before, hlone, hmark => by
      have hhere := not_isPrefix_append (List.cons_ne_nil byte before) hmark htail
      rw [List.infix_cons_iff, not_or] at hmark
      rw [List.cons_append, Lone, List.isChain_cons] at hlone
      have ih := endIndex_append htail hlone.2 hmark.2
      have hstep : endIndex (byte :: (before ++ rest)) =
          (endIndex (before ++ rest)).map (1 + ·) := by
        by_cases hzdle : byte = ZDLE
        · subst hzdle
          refine endIndex_zdle fun hhead => hlone.1 ZDLE ?_ ⟨rfl, rfl⟩
          cases before with
          | nil =>
            cases rest with
            | nil => cases hhead
            | cons first rest => exact hhead
          | cons first before => exact hhead
        · exact endIndex_other hzdle hhere
      rw [List.cons_append, hstep, ih, Option.map_map, List.length_cons]
      congr 1
      funext n
      simp only [Function.comp_apply]
      omega

/-! ## The two marks -/

/-- The marks a conversation ends at: a ZFIN and the `OO` after it, or a cancel. -/
inductive EndMark
  | fin
  | cancel
deriving DecidableEq

def EndMark.bytes : EndMark → List UInt8
  | fin => ZmodemEncoder.hexHeader { type := .fin } ++ ascii "OO"
  | cancel => ZmodemEncoder.cancelSequence

/-- So many of its bytes give the mark away: a ZFIN up to its CR, five of a cancel's ZDLEs. -/
def EndMark.known : EndMark → ℕ
  | fin => 19
  | cancel => 5

variable {mark : EndMark} {body after tail : List UInt8}

/-- A ZFIN's header and the `OO` behind it. -/
theorem EndMark.bytes_fin : EndMark.fin.bytes =
    [0x2A, 0x2A, 0x18, 0x42, 0x30, 0x38, 0x30, 0x30, 0x30, 0x30, 0x30, 0x30, 0x30, 0x30, 0x30, 0x32,
      0x32, 0x64, 0x0D, 0x0A, 0x4F, 0x4F] := by
  decide +kernel

/-- What gives a mark away is no longer than the mark. -/
theorem EndMark.known_le (mark : EndMark) : mark.known ≤ mark.bytes.length := by
  cases mark <;> decide +kernel

/-- No end of a ZFIN's mark begins what a mark begins with. -/
theorem EndMark.startsNoMark (h : tail <+: mark.bytes ++ after) : StartsNoMark tail := by
  intro k hpos hlt hbegins
  have hshort : (finish.drop k).length ≤ mark.bytes.length := by
    rw [List.length_drop]
    exact le_trans (Nat.sub_le _ _) (by cases mark <;> decide +kernel)
  have hmark := List.prefix_of_prefix_length_le (hbegins.trans h) (List.prefix_append _ _) hshort
  have hnone : ∀ k < finish.length, 0 < k → ¬ finish.drop k <+: mark.bytes := by
    cases mark <;> decide +kernel
  exact hnone k hlt hpos hmark

/-- A part that is too short is not taken for the whole. -/
theorem EndMark.endIndex_take {n : ℕ} (h : n < mark.known) :
    endIndex (mark.bytes.take n) = none := by
  have hall : ∀ n < mark.known, endIndex (mark.bytes.take n) = none := by
    cases mark <;> decide +kernel
  exact hall n h

/-- The whole is. -/
theorem EndMark.endIndex_bytes (hafter : mark = .cancel → after.head? ≠ some 0x08) :
    endIndex (mark.bytes ++ after) = some mark.bytes.length := by
  cases mark with
  | fin =>
    rw [EndMark.bytes_fin, endIndex]
    rfl
  | cancel =>
    have hnone : after.takeWhile (· = 0x08) = [] := by
      cases after with
      | nil => rfl
      | cons byte after =>
        have hbyte : byte ≠ 0x08 := fun heq => hafter rfl (congrArg some heq)
        rw [List.takeWhile_cons_of_neg (by simpa using hbyte)]
    have hend : endIndex (EndMark.cancel.bytes ++ after) =
        some (8 + (List.replicate 8 0x08 ++ after.takeWhile (· = 0x08)).length) := rfl
    rw [hend, hnone]
    rfl

/-! ## The bytes before the mark -/

/-- **Up to its end mark**, a conversation has no two ZDLEs in a row and no other ZFIN. -/
structure Ending (body : List UInt8) (mark : EndMark) : Prop where
  lone : Lone (body ++ mark.bytes.take 1)
  once : ¬ finish <:+: body

namespace Ending

/-- The end of such a body is one too. -/
theorem suffix (h : Ending body mark) (hsuffix : tail <:+ body) : Ending tail mark where
  lone := h.lone.suffix (List.suffix_append_self_iff.mpr hsuffix)
  once hmark := h.once (hmark.trans hsuffix.isInfix)

/-- Bytes before a mark do not change that it is too short. -/
theorem endIndex_take (h : Ending body mark) {n : ℕ} (hn : n < mark.known) :
    endIndex (body ++ mark.bytes.take n) = none := by
  have hlone : Lone (body ++ (mark.bytes.take n).take 1) := by
    rw [List.take_take]
    exact List.IsChain.prefix h.lone (List.prefix_append_right_inj _ |>.mpr
      (List.take_prefix_take_left (Nat.min_le_left 1 n)))
  have hbegins : mark.bytes.take n <+: mark.bytes ++ [] :=
    (List.take_prefix n _).trans (List.prefix_append _ _)
  have hmark : StartsNoMark (mark.bytes.take n) := EndMark.startsNoMark hbegins
  rw [endIndex_append hmark hlone h.once, EndMark.endIndex_take hn]
  rfl

/-- Nor where it ends. -/
theorem endIndex_bytes (h : Ending body mark) (hafter : mark = .cancel → after.head? ≠ some 0x08) :
    endIndex (body ++ (mark.bytes ++ after)) = some (body.length + mark.bytes.length) := by
  have hlone : Lone (body ++ (mark.bytes ++ after).take 1) := by
    rw [List.take_append_of_le_length (by cases mark <;> decide +kernel)]
    exact h.lone
  rw [endIndex_append (EndMark.startsNoMark (List.prefix_refl _)) hlone h.once,
    EndMark.endIndex_bytes hafter]
  rfl

/-- Bytes that stop before the mark is known have no end in them. -/
theorem endIndex_cut (h : Ending body mark) {d n : ℕ} (hd : d ≤ body.length)
    (hn : n < body.length + mark.known) :
    endIndex (((body ++ (mark.bytes ++ after)).take n).drop d) = none := by
  rcases Nat.le_total n body.length with hle | hle
  · rw [List.take_append_of_le_length hle]
    have hinside : (body.take n).drop d <:+: body :=
      (List.drop_suffix _ _).isInfix.trans (List.take_prefix _ _).isInfix
    have hlone : Lone ((body.take n).drop d ++ List.take 1 []) := by
      rw [List.take_nil, List.append_nil]
      exact List.IsChain.infix (List.IsChain.left_of_append h.lone) hinside
    have hnil : [] <+: mark.bytes ++ [] := List.nil_prefix
    have hskip := endIndex_append (EndMark.startsNoMark hnil) hlone
      (fun hmark => h.once (hmark.trans hinside))
    rw [List.append_nil] at hskip
    exact hskip
  · have hlt : n - body.length < mark.known := by omega
    have hshort : n - body.length ≤ mark.bytes.length := le_trans hlt.le mark.known_le
    rw [List.take_append, List.take_of_length_le hle, List.take_append_of_le_length hshort,
      List.drop_append_of_le_length hd]
    exact (h.suffix (List.drop_suffix d body)).endIndex_take hlt

end Ending

/-- **A hex header but a ZFIN's**, as a conversation starts with: after `**` ZDLE `B` its digits and
what ends the line. -/
def IsOpening (opening : List UInt8) : Prop :=
  ∃ rest, opening = start ++ rest ∧ 2 ≤ rest.length ∧ ¬ [0x30, 0x38] <+: rest
    ∧ ∀ b ∈ rest, b ≠ ZPAD ∧ b ≠ ZDLE

/-- Every header but the last one may open a transfer. -/
theorem isOpening_hexHeader {h : ZHeader} (hfin : h.type ≠ .fin) :
    IsOpening (ZmodemEncoder.hexHeader h) := by
  have hall : ∀ byte, (ZmodemEncoder.hex byte).all (fun b => b ≠ ZPAD ∧ b ≠ ZDLE) = true :=
    ZmodemParser.forall_uint8 (by decide +kernel)
  have hhex : ∀ byte, ∀ b ∈ ZmodemEncoder.hex byte, b ≠ ZPAD ∧ b ≠ ZDLE := fun byte b hb =>
    of_decide_eq_true (List.all_eq_true.mp (hall byte) b hb)
  refine ⟨h.body.flatMap ZmodemEncoder.hex
    ++ ZmodemEncoder.hex (ZmodemCRC.crc16 h.body >>> 8).toUInt8
    ++ ZmodemEncoder.hex (ZmodemCRC.crc16 h.body &&& 0xFF).toUInt8 ++ [0x0D, 0x0A]
    ++ if h.type ≠ .ack ∧ h.type ≠ .fin then [XON] else [], ?_, ?_, ?_, ?_⟩
  · simp only [ZmodemEncoder.hexHeader, start, List.append_assoc]
    rfl
  · simp only [ZHeader.body, List.flatMap_cons, List.length_append, ZmodemEncoder.hex,
      List.length_cons]
    omega
  · rintro ⟨tail, htail⟩
    have htype : [0x30, 0x38] = ZmodemEncoder.hex h.type.rawValue :=
      congrArg (List.take 2) htail
    have hother : ∀ type : ZFrameType, type ≠ .fin →
        [0x30, 0x38] ≠ ZmodemEncoder.hex type.rawValue := by
      rintro (_ | _) <;> decide +kernel
    exact hother h.type hfin htype
  · intro b hb
    simp only [List.mem_append, List.mem_flatMap] at hb
    rcases hb with (((⟨byte, -, hb⟩ | hb) | hb) | hb) | hb
    · exact hhex byte b hb
    · exact hhex _ b hb
    · exact hhex _ b hb
    · exact (by decide +kernel : ∀ b ∈ [(0x0D : UInt8), 0x0A], b ≠ ZPAD ∧ b ≠ ZDLE) b hb
    · split at hb
      · exact (by decide +kernel : ∀ b ∈ [XON], b ≠ ZPAD ∧ b ≠ ZDLE) b hb
      · cases hb

/-- A needle does not begin where its first byte is not. -/
theorem infix_of_not_mem {first : UInt8} :
    ∀ {before : List UInt8}, first ∉ before → (first :: needle) <:+: before ++ rest →
      (first :: needle) <:+: rest
  | [], _, h => h
  | byte :: before, hfirst, h => by
      rw [List.mem_cons, not_or] at hfirst
      rw [List.cons_append, List.infix_cons_iff, List.cons_prefix_cons] at h
      exact infix_of_not_mem hfirst.2 (h.resolve_left fun hhere => hfirst.1 hhere.1)

/-- An opening may stand before an ending. -/
theorem Ending.opened {opening pre : List UInt8} (hopening : IsOpening opening)
    (h : Ending pre mark) : Ending (opening ++ pre) mark := by
  obtain ⟨rest, rfl, hlength, hfin, hplain⟩ := hopening
  have hrest : Closed rest := .of_not_mem fun hmem => (hplain ZDLE hmem).2 rfl
  have hstart : Closed start := by unfold Closed Lone; decide
  refine ⟨?_, fun hmark => ?_⟩
  · rw [List.append_assoc]
    exact (hstart.append hrest).append_lone h.lone
  · have hlater : ¬ finish <:+: rest ++ pre := fun hinside =>
      h.once (infix_of_not_mem (fun hmem => (hplain ZPAD hmem).1 rfl) hinside)
    have hfirst : ¬ [0x30, 0x38] <+: rest ++ pre := fun hbegins =>
      hfin (List.prefix_of_prefix_length_le hbegins (List.prefix_append _ _) hlength)
    -- The opening's own `**` ZDLE `B` is a ZFIN's with other digits after it.
    simp only [finish, start, List.cons_append, List.nil_append, List.infix_cons_iff,
      List.cons_prefix_cons] at hmark hlater
    simp [hfirst, hlater] at hmark

/-! ## A replay -/

/-- Text without what `sz` announces itself with at its end. -/
def dropAnnouncement (text : List UInt8) : List UInt8 :=
  if announcement <:+ text then text.take (text.length - announcement.length) else text

/-- No start of a transfer begins inside another one. -/
theorem straddle_start : ∀ k, 0 < k → k < start.length → ¬ start.drop k <+: start ++ rest := by
  intro k hpos hlt hbegins
  have hshort : (start.drop k).length ≤ start.length := by
    rw [List.length_drop]
    exact Nat.sub_le _ _
  have hstart := List.prefix_of_prefix_length_le hbegins (List.prefix_append _ _) hshort
  exact (by decide : ∀ k < start.length, 0 < k → ¬ start.drop k <+: start) k hlt hpos hstart

/-- Where no transfer starts, nothing is removed. -/
theorem stripFrom_of_no_start (hnone : ¬ start <:+: after) :
    ∀ passes, stripFrom passes after = (after, false)
  | 0 => rfl
  | passes + 1 => by rw [stripFrom, startIndex, index_eq_none hnone]

/-- The bytes kept before a conversation. -/
theorem take_announced (before rest : List UInt8) :
    (before ++ rest).take (if before.length ≥ 3 ∧ ((before ++ rest).take before.length).drop
      (before.length - 3) = announcement then before.length - 3 else before.length) =
      dropAnnouncement before := by
  have hiff : (before.length ≥ 3 ∧ ((before ++ rest).take before.length).drop
      (before.length - 3) = announcement) ↔ announcement <:+ before := by
    rw [List.take_left]
    constructor
    · rintro ⟨-, hdrop⟩
      exact hdrop ▸ List.drop_suffix _ _
    · intro hsuffix
      exact ⟨hsuffix.length_le, (List.suffix_iff_eq_drop.mp hsuffix).symm⟩
  rw [dropAnnouncement]
  split
  next h =>
    rw [if_pos (hiff.mp h), List.take_append_of_le_length (Nat.sub_le _ _)]
    rfl
  next h => rw [if_neg (fun hsuffix => h (hiff.mpr hsuffix)), List.take_left]

/-- **A replay with one conversation in it.** -/
theorem strip_conversation {opening pre : List UInt8} (hopening : IsOpening opening)
    (h : Ending pre mark) (hbefore : ¬ start <:+: before) (hafter : ¬ start <:+: after)
    (hback : mark = .cancel → after.head? ≠ some 0x08) :
    strip (before ++ (opening ++ pre ++ mark.bytes) ++ after) =
      (dropAnnouncement before ++ after, true) := by
  have hbody := h.opened hopening
  obtain ⟨rest, rfl, -, -, -⟩ := hopening
  set conversation := rest ++ pre ++ (mark.bytes ++ after) with hconversation
  have hreplay : before ++ (start ++ rest ++ pre ++ mark.bytes) ++ after =
      before ++ (start ++ conversation) := by
    simp only [hconversation, List.append_assoc]
  have hstart : startIndex (before ++ (start ++ conversation)) = some before.length :=
    index_append (by decide) (List.prefix_append _ _) straddle_start hbefore
  have hdrop : (before ++ (start ++ conversation)).drop (before.length + start.length) =
      conversation := by
    rw [← List.append_assoc, ← List.length_append, List.drop_left]
  have hlength : (before ++ (start ++ conversation)).length =
      (before ++ (rest ++ pre ++ (mark.bytes ++ after))).length + 3 + 1 := by
    simp only [hconversation, List.length_append, start, List.length_cons, List.length_nil]
    omega
  have hrest : Ending (rest ++ pre) mark := hbody.suffix ⟨start, by rw [List.append_assoc]⟩
  rw [hreplay, strip, hlength, stripFrom, hstart]
  dsimp only
  rw [hdrop, hconversation, hrest.endIndex_bytes hback]
  dsimp only
  have hpast : (rest ++ pre ++ (mark.bytes ++ after)).drop
      ((rest ++ pre).length + mark.bytes.length) = after := by
    rw [← List.append_assoc, ← List.length_append, List.drop_left]
  rw [take_announced, hpast, stripFrom_of_no_start hafter]

end ZmodemStreamScanner

/-! ## A link that comes back -/

namespace ZmodemEngine

open ZmodemStreamScanner

variable {e : ZmodemEngine} {mid after consumed data : List UInt8} {chunks : List (List UInt8)}
  {mark : EndMark}

/-- And none is found. -/
theorem locateTrigger_eq_none (h : ¬ start <:+: data) :
    ZmodemDetector.locateTrigger data = none := by
  have hnone : ∀ needle, start <+: needle → ZmodemStreamScanner.index needle data = none :=
    fun needle hneedle => index_eq_none fun hinside => h (hneedle.isInfix.trans hinside)
  rw [ZmodemDetector.locateTrigger, hnone ZmodemDetector.download (by decide),
    hnone ZmodemDetector.upload (by decide)]

/-- Text without a header start is shown, and the detector keeps no more than an end of it. -/
theorem detect_of_no_start (hidle : e.mode = .idle) (h : ¬ start <:+: e.detector.cache ++ data) :
    (e.detect data).2.flatMap Effect.shown = data ∧ (e.detect data).1.mode = .idle
      ∧ (e.detect data).1.detector.cache <:+ e.detector.cache ++ data := by
  rw [detect, ZmodemDetector.feed]
  dsimp only
  rw [locateTrigger_eq_none h]
  refine ⟨?_, hidle, List.drop_suffix _ _⟩
  dsimp only
  split
  next hnil => exact hnil.symm
  next => exact List.append_nil data

/-- So such bytes are all shown, however they are cut. -/
theorem shown_of_idle : ∀ {chunks : List (List UInt8)} {e : ZmodemEngine}, e.mode = .idle →
    ¬ start <:+: e.detector.cache ++ chunks.flatten → e.shown chunks = chunks.flatten
  | [], _, _, _ => rfl
  | data :: chunks, e, hidle, h => by
      rw [List.flatten_cons, ← List.append_assoc] at h
      have hdata : ¬ start <:+: e.detector.cache ++ data := fun hdata =>
        h (hdata.trans (List.prefix_append _ _).isInfix)
      obtain ⟨hshown, hstill, hcache⟩ := detect_of_no_start hidle hdata
      have hprocess : e.process data = e.detect data := by rw [process, hidle]
      rw [shown, hprocess, hshown, List.flatten_cons, shown_of_idle hstill]
      exact fun hrest => h (hrest.trans (List.suffix_append_self_iff.mpr hcache).isInfix)

/-- No chunk ends where the mark is known but not over. -/
def SparesMark (body consumed : List UInt8) (mark : EndMark) (chunks : List (List UInt8)) : Prop :=
  ∀ k, (consumed ++ (chunks.take k).flatten).length < body.length + mark.known ∨
    body.length + mark.bytes.length ≤ (consumed ++ (chunks.take k).flatten).length

/-- What spares the mark does so after each chunk. -/
theorem SparesMark.tail {body : List UInt8} (h : SparesMark body consumed mark (data :: chunks)) :
    SparesMark body (consumed ++ data) mark chunks := by
  intro k
  have hk := h (k + 1)
  rwa [List.take_succ_cons, List.flatten_cons, ← List.append_assoc] at hk

/-- A chunk that is swallowed. -/
theorem process_none (hmode : e.mode = .discarding)
    (hgo : e.hasCancelledInterrupted = true ∨ ZDLE ∈ data)
    (hend : endIndex (e.discardTail ++ data) = none) :
    (e.process data).2.flatMap Effect.shown = [] ∧ (e.process data).1 = { e with
      hasCancelledInterrupted := true
      discardTail := (e.discardTail ++ data).drop ((e.discardTail ++ data).length - 64) } := by
  have hrunning : ¬ (e.hasCancelledInterrupted = false ∧ ZDLE ∉ data) := by
    rintro ⟨hnot, hzdle⟩
    exact hgo.elim (fun hyes => Bool.noConfusion (hnot.symm.trans hyes)) hzdle
  have hprocess : e.process data = e.discard data := by rw [process, hmode]
  rw [hprocess, discard, if_neg hrunning]
  dsimp only
  rw [hend]
  refine ⟨?_, rfl⟩
  dsimp only
  split <;> rfl

/-- The chunk that has the end in it. -/
theorem process_some {stop : ℕ} (hmode : e.mode = .discarding)
    (hgo : e.hasCancelledInterrupted = true ∨ ZDLE ∈ data)
    (hend : endIndex (e.discardTail ++ data) = some stop)
    (hnone : ¬ start <:+: e.detector.cache ++ (e.discardTail ++ data).drop stop) :
    (e.process data).2.flatMap Effect.shown = (e.discardTail ++ data).drop stop
      ∧ (e.process data).1.mode = .idle
      ∧ (e.process data).1.detector.cache <:+
        e.detector.cache ++ (e.discardTail ++ data).drop stop := by
  have hrunning : ¬ (e.hasCancelledInterrupted = false ∧ ZDLE ∉ data) := by
    rintro ⟨hnot, hzdle⟩
    exact hgo.elim (fun hyes => Bool.noConfusion (hnot.symm.trans hyes)) hzdle
  have htold : (if e.hasCancelledInterrupted then ([] : List Effect)
      else [.emit ZmodemEncoder.cancelSequence]).flatMap Effect.shown = [] := by
    split <;> rfl
  have hprocess : e.process data = e.discard data := by rw [process, hmode]
  rw [hprocess, discard, if_neg hrunning]
  dsimp only
  rw [hend]
  dsimp only
  split
  next hnil =>
    rw [hnil, List.append_nil]
    exact ⟨htold, rfl, List.suffix_refl _⟩
  next =>
    obtain ⟨hshown, hidle, hcache⟩ := detect_of_no_start
      (e := { e with mode := .idle, hasCancelledInterrupted := true, discardTail := [] }) rfl hnone
    refine ⟨?_, hidle, hcache⟩
    rw [List.flatMap_append, htold, hshown]
    rfl

/-- **The rest of a conversation is swallowed to its end**, from any place in it. -/
theorem shown_of_discarding (hending : Ending mid mark)
    (hback : mark = .cancel → after.head? ≠ some 0x08) :
    ∀ {chunks : List (List UInt8)} {e : ZmodemEngine} {consumed : List UInt8},
      e.mode = .discarding → consumed ++ chunks.flatten = mid ++ (mark.bytes ++ after) →
      consumed.length < mid.length + mark.known →
      e.discardTail = consumed.drop (consumed.length - 64) →
      (e.hasCancelledInterrupted = true ∨ ∃ first ∈ chunks.head?, ZDLE ∈ first) →
      SparesMark mid consumed mark chunks → ¬ start <:+: e.detector.cache ++ after →
      e.shown chunks = after
  | [], e, consumed, _, hflat, hlength, _, _, _, _ => by
      have hlong := congrArg List.length hflat
      simp only [List.flatten_nil, List.append_nil, List.length_append] at hlong
      have := mark.known_le
      omega
  | data :: chunks, e, consumed, hmode, hflat, hlength, htail, hgo, hcuts, hnone => by
      have hgo' : e.hasCancelledInterrupted = true ∨ ZDLE ∈ data :=
        hgo.imp_right fun ⟨first, hfirst, hzdle⟩ => Option.some.inj hfirst ▸ hzdle
      have hknown : mark.known ≤ 64 := by cases mark <;> decide
      have hd : consumed.length - 64 ≤ mid.length := by omega
      have hwindow : e.discardTail ++ data =
          (consumed ++ data).drop (consumed.length - 64) := by
        rw [htail, List.drop_append_of_le_length (Nat.sub_le _ _)]
      rw [List.flatten_cons, ← List.append_assoc] at hflat
      rw [shown]
      have hcut := hcuts 1
      simp only [List.take_succ_cons, List.take_zero, List.flatten_cons, List.flatten_nil,
        List.append_nil] at hcut
      rcases hcut with hshort | hwhole
      · have hsofar : consumed ++ data =
            (mid ++ (mark.bytes ++ after)).take (consumed ++ data).length := by
          rw [← hflat, List.take_left]
        have hend : endIndex (e.discardTail ++ data) = none := by
          rw [hwindow, hsofar]
          exact hending.endIndex_cut hd hshort
        obtain ⟨hshown, hnext⟩ := process_none hmode hgo' hend
        rw [hshown, hnext]
        refine shown_of_discarding hending hback hmode hflat hshort ?_ (.inl rfl)
          hcuts.tail hnone
        dsimp only
        have hkeep : consumed.length - 64
            + ((consumed ++ data).length - (consumed.length - 64) - 64) =
              (consumed ++ data).length - 64 := by
          rw [List.length_append]
          omega
        rw [hwindow, List.drop_drop, List.length_drop, hkeep]
      · have hupTo : mid ++ mark.bytes <+: mid ++ (mark.bytes ++ after) :=
          List.append_assoc mid _ _ ▸ List.prefix_append _ after
        have hsofar : consumed ++ data <+: mid ++ (mark.bytes ++ after) :=
          hflat ▸ List.prefix_append _ _
        obtain ⟨shownNow, hnow⟩ : mid ++ mark.bytes <+: consumed ++ data :=
          List.prefix_of_prefix_length_le hupTo hsofar (by rwa [List.length_append])
        have hlater : shownNow ++ chunks.flatten = after := by
          rw [← hnow, List.append_assoc, List.append_assoc, List.append_cancel_left_eq,
            List.append_cancel_left_eq] at hflat
          exact hflat
        have hwhole : e.discardTail ++ data =
            mid.drop (consumed.length - 64) ++ (mark.bytes ++ shownNow) := by
          rw [hwindow, ← hnow, List.append_assoc, List.drop_append_of_le_length hd]
        have hback' : mark = .cancel → shownNow.head? ≠ some 0x08 := by
          intro hmark hhead
          refine hback hmark ?_
          rw [← hlater, List.head?_append, hhead]
          rfl
        have hend := (hending.suffix (List.drop_suffix (consumed.length - 64) mid)).endIndex_bytes
          hback'
        have hdrop : (e.discardTail ++ data).drop ((mid.drop (consumed.length - 64)).length
            + mark.bytes.length) = shownNow := by
          rw [hwhole, ← List.append_assoc, ← List.length_append, List.drop_left]
        rw [← hwhole] at hend
        rw [← hlater, ← List.append_assoc] at hnone
        obtain ⟨hshown, hidle, hcache⟩ := process_some hmode hgo' hend (by
          rw [hdrop]
          exact fun hnow => hnone (hnow.trans (List.prefix_append _ _).isInfix))
        rw [hdrop] at hshown hcache
        rw [hshown, shown_of_idle hidle, hlater]
        exact fun hrest => hnone (hrest.trans (List.suffix_append_self_iff.mpr hcache).isInfix)

end ZmodemEngine

/-! ## A sender's conversation -/

namespace ZmodemStreamScanner

open ZmodemSender

variable {files : List ZmodemOutgoingFile} {inputs : List Input} {pre : List UInt8} {mark : EndMark}

/-- What a conversation says before its end mark holds no other end. -/
theorem ending_of_conversation (hsent : conversation files inputs = pre ++ mark.bytes)
    (honce : ¬ finish <:+: pre) : Ending pre mark := by
  refine ⟨?_, honce⟩
  rcases closedOrCancelled_conversation files inputs with hclosed | ⟨before, hbefore, hcancel⟩
  · rw [hsent] at hclosed
    exact List.IsChain.prefix hclosed.lone
      (List.prefix_append_right_inj _ |>.mpr (List.take_prefix _ _))
  · rw [hsent] at hcancel
    cases mark with
    | fin =>
      have hlast := congrArg List.getLast? hcancel
      rw [EndMark.bytes_fin] at hlast
      simp [ZmodemEncoder.cancelSequence, List.getLast?_append] at hlast
    | cancel =>
      obtain rfl := List.append_cancel_right hcancel
      exact hbefore

/-- **A transfer is taken out, and nothing else is.**  A conversation opens with a hex header, goes
on with what a sender says, and has one end mark, its last bytes.  Of a replay it leaves the text
before, less the announcement, and the text after.  Of the rest of it, discarded in chunks of which
the first has a ZDLE and none ends inside the mark once that is known, it leaves the text after. -/
theorem removes_conversation {opening before after : List UInt8} (hopening : IsOpening opening)
    (hsent : conversation files inputs = pre ++ mark.bytes) (honce : ¬ finish <:+: pre)
    (hbefore : ¬ start <:+: before) (hafter : ¬ start <:+: after)
    (hback : mark = .cancel → after.head? ≠ some 0x08) :
    strip (before ++ (opening ++ conversation files inputs) ++ after) =
        (dropAnnouncement before ++ after, true)
      ∧ ∀ (mid : List UInt8) (engine : ZmodemEngine) (chunks : List (List UInt8)),
        mid <:+ opening ++ pre → chunks.flatten = mid ++ mark.bytes ++ after →
          (∃ first ∈ chunks.head?, ZDLE ∈ first) → ZmodemEngine.SparesMark mid [] mark chunks →
            ¬ start <:+: engine.detector.cache ++ after →
              engine.discardInterruptedTransfer.shown chunks = after := by
  have hending := ending_of_conversation hsent honce
  constructor
  · rw [hsent, ← List.append_assoc opening]
    exact strip_conversation hopening hending hbefore hafter hback
  · intro mid engine chunks hmid hflat hfirst hcuts hcache
    have hknown : 0 < mark.known := by cases mark <;> decide
    have hwhole : [] ++ chunks.flatten = mid ++ (mark.bytes ++ after) := by
      rw [List.nil_append, hflat, List.append_assoc]
    exact ZmodemEngine.shown_of_discarding ((hending.opened hopening).suffix hmid) hback rfl hwhole
      (Nat.add_pos_right _ hknown) rfl (.inr hfirst) hcuts hcache

/-- A file of one byte. -/
def oneByte : ZmodemOutgoingFile where
  name := ascii "a"
  size := 1
  read offset maxLength := (([0x41] : List UInt8).drop offset).take maxLength

/-- The file asked for, acknowledged, and the transfer ended. -/
def oneByteInputs : List Input :=
  [.event (.header (.positioned .rpos 0)), .event (.header (.positioned .ack 1)),
    .event (.header { type := .rinit }), .event (.header { type := .fin })]

/-- What is said of the file before the ZFIN. -/
def oneByteSaid : List UInt8 :=
  (conversation [oneByte] oneByteInputs).take
    ((conversation [oneByte] oneByteInputs).length - EndMark.fin.bytes.length)

/-- The end of what is said, and the mark cut inside its digits. -/
def oneByteChunks : List (List UInt8) :=
  [oneByteSaid.drop 40, EndMark.fin.bytes.take 10, EndMark.fin.bytes.drop 10 ++ ascii "\n",
    ascii "$ "]

theorem removes_conversation_oneByte :
    strip (ascii "$ sz a\nrz\r"
        ++ (ZmodemEncoder.hexHeader { type := .rqinit } ++ conversation [oneByte] oneByteInputs)
        ++ ascii "\n$ ") = (dropAnnouncement (ascii "$ sz a\nrz\r") ++ ascii "\n$ ", true)
      ∧ ({} : ZmodemEngine).discardInterruptedTransfer.shown oneByteChunks = ascii "\n$ " := by
  have hsent : conversation [oneByte] oneByteInputs = oneByteSaid ++ EndMark.fin.bytes := by
    decide +kernel
  have hbefore : ¬ start <:+: ascii "$ sz a\nrz\r" := by decide +kernel
  have hafter : ¬ start <:+: ascii "\n$ " := by decide +kernel
  have hcuts : ZmodemEngine.SparesMark (oneByteSaid.drop 40) [] .fin oneByteChunks := by
    rintro (_ | _ | _ | _ | k)
    · decide +kernel
    · decide +kernel
    · decide +kernel
    · decide +kernel
    · rw [List.take_of_length_le (Nat.le_add_left 4 k)]
      decide +kernel
  have hopening : IsOpening (ZmodemEncoder.hexHeader { type := .rqinit }) :=
    isOpening_hexHeader (by decide)
  obtain ⟨hstrip, hdiscard⟩ := removes_conversation hopening hsent (by decide +kernel) hbefore
    hafter nofun
  refine ⟨hstrip, hdiscard (oneByteSaid.drop 40) {} oneByteChunks ?_ ?_ ?_ hcuts hafter⟩
  · exact (List.drop_suffix _ _).trans (List.suffix_append _ _)
  · decide +kernel
  · exact ⟨oneByteSaid.drop 40, rfl, by decide +kernel⟩

/-- **What this program sends does not open with a hex header**: the file's binary headers and its
data are left in the replay. -/
theorem strip_keeps_opening :
    ¬ ∀ (files : List ZmodemOutgoingFile) (inputs : List Input) (mark : EndMark)
      (before after : List UInt8), ¬ start <:+: before → ¬ start <:+: after →
        mark.bytes <:+ conversation files inputs →
          strip (before ++ conversation files inputs ++ after) =
            (dropAnnouncement before ++ after, true) := by
  intro h
  exact absurd (h [oneByte] oneByteInputs .fin (ascii "$ ") (ascii "\n$ ") (by decide +kernel)
    (by decide +kernel) (by decide +kernel)) (by decide +kernel)

end ZmodemStreamScanner
