import IGhostVT.Zmodem.ZmodemReading

/-!
# Zmodem/NoisyLine — frames on a line that inserts flow control

`Disturbed` says that flow control has been put into a stretch of bytes anywhere but directly behind
a `ZDLE`; what the stretch stands for is the same (`Disturbed.split`), and so is what the parser
makes of it.

`frames_roundTrip` is for any frames, cut into portions in any way: what the encoder writes,
disturbed or not, is read as those frames, and what is read as data had its checksum behind it.  The
headers ZABORT and ZCAN are no headers to the parser: they end the transfer (`can_notHeader`).
-/

open Transducer

namespace ZmodemParser

variable {p : ZmodemParser}

/-! ## Flow control put in -/

/-- **`wire` is `bytes` with flow control put in**, none directly behind a `ZDLE` and none behind
the last byte. -/
inductive Disturbed : List UInt8 → List UInt8 → Prop
  | nil : Disturbed [] []
  | insert {f : UInt8} {bytes wire : List UInt8} :
      isFlowControl f = true → bytes ≠ [] → Disturbed bytes wire → Disturbed bytes (f :: wire)
  | keep {b : UInt8} {bytes wire : List UInt8} :
      b ≠ Zmodem.ZDLE → Disturbed bytes wire → Disturbed (b :: bytes) (b :: wire)
  | escape {b : UInt8} {bytes wire : List UInt8} :
      Disturbed bytes wire → Disturbed (Zmodem.ZDLE :: b :: bytes) (Zmodem.ZDLE :: b :: wire)

/-- What is put in stands in front of a byte that is kept. -/
theorem Disturbed.byte {b : UInt8} {bytes wire : List UInt8} (hb : b ≠ Zmodem.ZDLE)
    (h : Disturbed (b :: bytes) wire) : ∃ fs rest, wire = fs ++ b :: rest
      ∧ (∀ f ∈ fs, isFlowControl f = true) ∧ Disturbed bytes rest := by
  generalize hall : b :: bytes = all at h
  induction h with
  | nil => exact absurd hall (List.cons_ne_nil _ _)
  | insert hf _ _ ih =>
    obtain ⟨fs, rest, rfl, hfs, hrest⟩ := ih hall
    exact ⟨_ :: fs, rest, rfl, List.forall_mem_cons.mpr ⟨hf, hfs⟩, hrest⟩
  | keep _ hrest =>
    obtain ⟨rfl, rfl⟩ := List.cons.inj hall
    exact ⟨[], _, rfl, List.forall_mem_nil _, hrest⟩
  | escape => exact absurd (List.cons.inj hall).1 hb

/-- …or in front of an escape, which is kept whole. -/
theorem Disturbed.pair {b : UInt8} {bytes wire : List UInt8}
    (h : Disturbed (Zmodem.ZDLE :: b :: bytes) wire) :
    ∃ fs rest, wire = fs ++ Zmodem.ZDLE :: b :: rest
      ∧ (∀ f ∈ fs, isFlowControl f = true) ∧ Disturbed bytes rest := by
  generalize hall : Zmodem.ZDLE :: b :: bytes = all at h
  induction h with
  | nil => exact absurd hall (List.cons_ne_nil _ _)
  | insert hf _ _ ih =>
    obtain ⟨fs, rest, rfl, hfs, hrest⟩ := ih hall
    exact ⟨_ :: fs, rest, rfl, List.forall_mem_cons.mpr ⟨hf, hfs⟩, hrest⟩
  | keep hb => exact absurd (List.cons.inj hall).1.symm hb
  | escape hrest =>
    obtain ⟨rfl, rfl⟩ := List.cons.inj (List.cons.inj hall).2
    exact ⟨[], _, rfl, List.forall_mem_nil _, hrest⟩

/-- A symbol is not cut. -/
theorem Disturbed.symbol {u bytes wire : List UInt8} {d : Decoded} (hu : Symbol u d)
    (h : Disturbed (u ++ bytes) wire) : ∃ fs rest, wire = fs ++ (u ++ rest)
      ∧ (∀ f ∈ fs, isFlowControl f = true) ∧ Disturbed bytes rest := by
  cases hu with
  | plain hdle => exact h.byte hdle
  | escape => exact h.pair

/-- **A disturbed stretch stands for what it stood for**, and what follows is disturbed by
itself. -/
theorem Disturbed.split {w bytes : List UInt8} {ds : List Decoded} (h : Spells w ds) :
    ∀ {wire : List UInt8}, Disturbed (w ++ bytes) wire →
      ∃ front rest, wire = front ++ rest ∧ Spells front ds ∧ Disturbed bytes rest := by
  induction h with
  | nil => exact fun hwire => ⟨[], _, rfl, .nil, hwire⟩
  | @flow b w ds hb _ ih =>
    intro wire hwire
    have hdle : b ≠ Zmodem.ZDLE := by
      rintro rfl
      exact absurd hb (by decide)
    obtain ⟨fs, rest, rfl, hfs, hrest⟩ := hwire.byte hdle
    obtain ⟨front, rest, rfl, hfront, hrest⟩ := ih hrest
    refine ⟨fs ++ b :: front, rest, by rw [List.append_assoc, List.cons_append], ?_, hrest⟩
    exact (spells_flow hfs).append (hfront.flow hb)
  | @cons u w d ds hu _ ih =>
    intro wire hwire
    rw [List.append_assoc] at hwire
    obtain ⟨fs, rest, rfl, hfs, hrest⟩ := hwire.symbol hu
    obtain ⟨front, rest, rfl, hfront, hrest⟩ := ih hrest
    refine ⟨fs ++ (u ++ front), rest, by simp only [List.append_assoc], ?_, hrest⟩
    exact (spells_flow hfs).append (hfront.cons hu)

/-- The same up to the last symbol, behind which nothing is put in. -/
theorem Disturbed.split_last {w u wire : List UInt8} {ds : List Decoded} {d : Decoded}
    (h : Spells w ds) (hu : Symbol u d) (hwire : Disturbed (w ++ u) wire) :
    ∃ front, wire = front ++ u ∧ Spells front ds := by
  obtain ⟨front, rest, rfl, hfront, hrest⟩ := hwire.split h
  rw [← List.append_nil u] at hrest
  obtain ⟨fs, rest, rfl, hfs, hend⟩ := hrest.symbol hu
  have hnone : rest = [] := by
    cases hend with
    | nil => rfl
    | insert _ hne => exact absurd rfl hne
  refine ⟨front ++ fs, by rw [hnone, List.append_nil, List.append_assoc], ?_⟩
  have happend := hfront.append (spells_flow hfs)
  rwa [List.append_nil] at happend

/-- Nothing put in. -/
theorem disturbed_symbols {w : List UInt8} {ds : List Decoded} (h : Spells w ds) :
    Disturbed w w := by
  induction h with
  | nil => exact .nil
  | @flow b w ds hb _ ih =>
    refine .keep ?_ ih
    rintro rfl
    exact absurd hb (by decide)
  | cons hu _ ih =>
    cases hu with
    | plain hdle => exact ih.keep hdle
    | escape => exact ih.escape

/-- Values, disturbed: those but the last, and the last. -/
theorem Disturbed.values (bs : List UInt8) {wire : List UInt8} (hne : bs ≠ [])
    (h : Disturbed (bs.flatMap ZmodemEncoder.escaped) wire) :
    ∃ (w u : List UInt8) (ds : List Decoded) (d : Decoded),
      wire = w ++ u ∧ Spells w ds ∧ Symbol u d ∧ ds ++ [d] = bs.map .plain := by
  obtain ⟨v, u, ds, d, hbytes, hv, hu, hvalues⟩ := escaped_split bs hne
  rw [hbytes] at h
  obtain ⟨w, rfl, hw⟩ := h.split_last hv hu
  exact ⟨w, u, ds, d, rfl, hw, hu, hvalues⟩

/-! ## What is sent, piece by piece -/

/-- One call of the encoder. -/
inductive Piece
  | hex (h : ZHeader)
  | bin32 (h : ZHeader)
  | data (bytes : List UInt8) (last : ZSubpacketEnd)

namespace Piece

def encoded : Piece → List UInt8
  | hex h => ZmodemEncoder.hexHeader h
  | bin32 h => ZmodemEncoder.bin32Header h
  | data bytes last => ZmodemEncoder.dataSubpacket32 bytes last

/-- What is to be read: the header or the data, and what ends a line as noise. -/
def events : Piece → List ZParserEvent
  | hex h => .header h :: (lineEnd h).map .noise
  | bin32 h => [.header h]
  | data bytes last => .data bytes last :: (subpacketTail last).map .noise

/-- **The piece as the line delivers it**: flow control put into the body of a binary header or into
a subpacket. -/
inductive Sent : Piece → List UInt8 → Prop
  | hex (h : ZHeader) : Sent (.hex h) (ZmodemEncoder.hexHeader h)
  | bin32 {h : ZHeader} {wire : List UInt8} :
      Disturbed ((headerValues h).flatMap ZmodemEncoder.escaped) wire →
        Sent (.bin32 h) ([Zmodem.ZPAD, Zmodem.ZDLE, Zmodem.ZBIN32] ++ wire)
  | data {bytes wire : List UInt8} {last : ZSubpacketEnd} :
      Disturbed (subpacketBytes bytes last) wire →
        Sent (.data bytes last) (wire ++ subpacketTail last)

/-- **Where a piece may stand**: headers between frames, in hex those that carry no data, and
subpackets inside a frame.  ZABORT and ZCAN are left out. -/
inductive Fits : Place → Piece → Place → Prop
  | hex {h : ZHeader} : h.type ≠ .abort ∧ h.type ≠ .can → h.type.hasSubpackets = false →
      Fits .rest (.hex h) .rest
  | bin32 {h : ZHeader} : h.type ≠ .abort ∧ h.type ≠ .can →
      Fits .rest (.bin32 h) (if h.type.hasSubpackets then .frame else .rest)
  | data (bytes : List UInt8) (last : ZSubpacketEnd) :
      Fits .frame (.data bytes last) (if last.continues then .frame else .rest)

/-- Pieces one after the other, and the bytes they arrive as. -/
inductive Delivers : Place → List Piece → List UInt8 → Place → Prop
  | nil (k : Place) : Delivers k [] [] k
  | cons {k l m : Place} {piece : Piece} {pieces : List Piece} {wire rest : List UInt8} :
      Fits k piece l → Sent piece wire → Delivers l pieces rest m →
        Delivers k (piece :: pieces) (wire ++ rest) m

/-- Undisturbed, it is what the encoder writes. -/
theorem sent_encoded : ∀ piece : Piece, piece.Sent piece.encoded
  | .hex h => .hex h
  | .bin32 h => by
    rw [encoded, bin32Header_eq]
    exact .bin32 (disturbed_symbols (spells_escaped _))
  | .data bytes last => by
    have hspells : Spells (subpacketBytes bytes last) (bytes.map .plain
        ++ [{ terminator := some last }] ++ (checksumValues bytes last).map .plain) :=
      ((spells_escaped bytes).append (symbol_terminator last).spells).append (spells_escaped _)
    exact .data (disturbed_symbols hspells)

/-- **A piece is read as itself**, disturbed or not. -/
theorem Sent.readsAs {piece : Piece} {wire : List UInt8} {k l : Place} (h : piece.Sent wire)
    (hfits : Fits k piece l) : ReadsAs k wire piece.events l := by
  cases hfits with
  | hex htype hplain =>
    cases h with
    | hex => exact readsAs_hexHeader htype hplain
  | bin32 htype =>
    cases h with
    | bin32 hwire =>
      obtain ⟨w, u, ds, d, rfl, hw, hu, hvalues⟩ := hwire.values _ (List.cons_ne_nil _ _)
      exact readsAs_header htype hw hu hvalues
  | data bytes last =>
    cases h with
    | data hwire =>
      rw [subpacketBytes, List.append_assoc] at hwire
      obtain ⟨w, rest, rfl, hw, hrest⟩ := hwire.split (spells_escaped bytes)
      obtain ⟨fs, rest, rfl, hfs, hrest⟩ := hrest.symbol (symbol_terminator last)
      obtain ⟨v, x, ds, d, rfl, hv, hx, hvalues⟩ := hrest.values _ (List.cons_ne_nil _ _)
      have hbody : Spells (w ++ fs) (bytes.map .plain) := by
        have happend := hw.append (spells_flow hfs)
        rwa [List.append_nil] at happend
      have hreads := (readsAs_subpacket hbody (symbol_terminator last) hv hx hvalues).append
        (readsAs_subpacketTail last)
      simp only [List.append_assoc] at hreads ⊢
      exact hreads

theorem Delivers.readsAs {k l : Place} {pieces : List Piece} {wire : List UInt8}
    (h : Delivers k pieces wire l) : ReadsAs k wire (pieces.flatMap events) l := by
  induction h with
  | nil k => exact readsAs_nil k
  | cons hfits hsent _ ih => exact (hsent.readsAs hfits).append ih

end Piece

/-! ## What is read as data -/

/-- The values `sum` are the checksum of `payload`, in 32 bits or in 16. -/
def Matches (payload sum : List UInt8) : Prop :=
  (sum.length = 4 ∧ ZmodemCRC.crc32 payload
      = ZHeader.join (sum.getD 0 0) (sum.getD 1 0) (sum.getD 2 0) (sum.getD 3 0))
    ∨ (sum.length = 2 ∧ ZmodemCRC.crc16 payload
      = ((sum.getD 0 0).toUInt16 <<< 8) ||| (sum.getD 1 0).toUInt16)

/-- **What arrived ends in a subpacket whose checksum is right**: bytes that stand for the data, the
byte that ends it, and bytes that stand for the checksum of both. -/
def Checked (stream bytes : List UInt8) (last : ZSubpacketEnd) : Prop :=
  ∃ (before body check : List UInt8) (sums : List Decoded),
    stream = before ++ (body ++ [Zmodem.ZDLE, last.rawValue] ++ check)
      ∧ Spells body (bytes.map .plain) ∧ Spells check sums
      ∧ Matches (bytes ++ [last.rawValue]) (sums.map Decoded.value)

/-- The `ZDLE` whose byte is still to come. -/
def pending (p : ZmodemParser) : List UInt8 := if p.escaped then [Zmodem.ZDLE] else []

/-- **What the parser has of a subpacket is what arrived of it.** -/
def Tracks (stream : List UInt8) (p : ZmodemParser) : Prop :=
  match p.state with
  | .subpacket => ∃ before body, stream = before ++ body ++ p.pending
      ∧ Spells body (p.subpacketData.map .plain)
  | .subpacketCRC => ∃ (before body check : List UInt8) (sums : List Decoded),
      stream = before ++ (body ++ [Zmodem.ZDLE, p.subpacketEnd.rawValue] ++ check) ++ p.pending
        ∧ Spells body (p.subpacketData.map .plain) ∧ Spells check sums
        ∧ p.crcBytes = sums.map Decoded.value ∧ p.crcNeeded = if p.subpacketCRC32 then 4 else 2
  | _ => True

/-- What a byte comes to: the parser still has what arrived, and data read has its checksum. -/
def Sound (stream : List UInt8) (result : ZmodemParser × List ZParserEvent) : Prop :=
  Tracks stream result.1 ∧ ∀ bytes last, .data bytes last ∈ result.2 → Checked stream bytes last

/-- Nothing of a subpacket is read, and the parser is in none that has begun. -/
structure Quiet (result : ZmodemParser × List ZParserEvent) : Prop where
  state : result.1.state ≠ .subpacketCRC
  fresh : result.1.state = .subpacket → result.1.escaped = false ∧ result.1.subpacketData = []
  events : ∀ bytes last, .data bytes last ∉ result.2

variable {stream : List UInt8}

theorem Quiet.sound {result : ZmodemParser × List ZParserEvent} (h : Quiet result) :
    Sound stream result := by
  refine ⟨?_, fun bytes last hmem => absurd hmem (h.events bytes last)⟩
  unfold Tracks
  split
  case h_1 hstate =>
    obtain ⟨hescaped, hdata⟩ := h.fresh hstate
    refine ⟨stream, [], ?_, ?_⟩
    · rw [pending, hescaped, if_neg Bool.false_ne_true, List.append_nil, List.append_nil]
    · rw [hdata]
      exact .nil
  case h_2 hstate => exact absurd hstate h.state
  case h_3 => trivial

/-- Outside a frame. -/
theorem quiet_of_state {result : ZmodemParser × List ZParserEvent}
    (hstate : result.1.state ≠ .subpacketCRC ∧ result.1.state ≠ .subpacket)
    (hevents : ∀ bytes last, .data bytes last ∉ result.2) : Quiet result :=
  ⟨hstate.1, fun h => absurd h hstate.2, hevents⟩

theorem quiet_reset (p : ZmodemParser) : Quiet (p.reset, [.abort]) :=
  quiet_of_state ⟨nofun, nofun⟩ (by simp)

theorem quiet_consumeIdle (h : p.state = .idle) (b : UInt8) : Quiet (p.consumeIdle b) := by
  unfold consumeIdle
  split
  · exact quiet_of_state ⟨nofun, nofun⟩ (by simp)
  · split
    · exact quiet_of_state ⟨nofun, nofun⟩ (by simp)
    · refine quiet_of_state ?_ (by simp)
      dsimp only
      rw [h]
      exact ⟨nofun, nofun⟩

theorem quiet_emitHeader (body : List UInt8) (crc32 : Bool) : Quiet (p.emitHeader body crc32) := by
  unfold emitHeader
  split
  · exact quiet_of_state ⟨nofun, nofun⟩ (by simp)
  · split
    · exact quiet_of_state ⟨nofun, nofun⟩ (by simp)
    · dsimp only
      split
      · exact ⟨nofun, fun _ => ⟨rfl, rfl⟩, by simp⟩
      · exact quiet_of_state ⟨nofun, nofun⟩ (by simp)

theorem quiet_finishBinaryHeader : Quiet p.finishBinaryHeader := by
  unfold finishBinaryHeader
  dsimp only
  generalize (if p.headerCRC32 = true then _ else _ : Bool) = ok
  cases ok with
  | true => exact quiet_emitHeader _ _
  | false => exact quiet_of_state ⟨nofun, nofun⟩ (by simp)

theorem quiet_consumeGotPad (h : p.state = .gotPad) (b : UInt8) : Quiet (p.consumeGotPad b) := by
  unfold consumeGotPad
  split
  · exact quiet_of_state (by rw [h]; exact ⟨nofun, nofun⟩) (by simp)
  · split
    · exact quiet_of_state ⟨nofun, nofun⟩ (by simp)
    · obtain ⟨hstate, hfresh, hevents⟩ := quiet_consumeIdle (p := { p with state := .idle }) rfl b
      exact ⟨hstate, hfresh, by simpa using hevents⟩

theorem quiet_consumeGotZDLE (h : p.state = .gotZDLE) (b : UInt8) : Quiet (p.consumeGotZDLE b) := by
  unfold consumeGotZDLE
  split
  · split
    · exact quiet_of_state ⟨nofun, nofun⟩ (by simp)
    · exact quiet_of_state (by rw [h]; exact ⟨nofun, nofun⟩) (by simp)
  · split
    · exact quiet_of_state ⟨nofun, nofun⟩ (by simp)
    · split
      · exact quiet_of_state ⟨nofun, nofun⟩ (by simp)
      · split
        · exact quiet_of_state ⟨nofun, nofun⟩ (by simp)
        · exact quiet_consumeIdle rfl b

theorem quiet_consumeHex (h : p.state = .hexBody) (b : UInt8) : Quiet (p.consumeHex b) := by
  unfold consumeHex
  split
  · dsimp only
    split
    · unfold finishHexHeader
      dsimp only
      split
      · exact quiet_emitHeader _ _
      · exact quiet_of_state ⟨nofun, nofun⟩ (by simp)
    · exact quiet_of_state (by dsimp only; rw [h]; exact ⟨nofun, nofun⟩) (by simp)
  · dsimp only
    split
    · obtain ⟨hstate, hfresh, hevents⟩ := quiet_consumeIdle (p := { p with state := .idle }) rfl b
      refine ⟨hstate, hfresh, fun bytes last hmem => ?_⟩
      rcases List.mem_append.mp hmem with hmem | hmem
      · split at hmem <;> simp at hmem
      · exact hevents bytes last hmem
    · refine quiet_of_state ⟨nofun, nofun⟩ fun bytes last hmem => ?_
      split at hmem <;> simp at hmem

/-- A byte of a binary header. -/
theorem quiet_consumeHeaderBody (h : p.state = .binBody ∨ p.state = .bin32Body) (b : UInt8) :
    Quiet (p.consumeHeaderBody b) := by
  have hstate : ∀ q d, p.unescape b = (q, d) → q.state = p.state := by
    intro q d hq
    unfold unescape at hq
    dsimp only at hq
    repeat' split at hq
    all_goals
      obtain ⟨rfl, -⟩ := Prod.mk.inj hq
      rfl
  unfold consumeHeaderBody consumeEscaped
  split
  case h_1 q hq =>
    refine quiet_of_state ?_ (by simp)
    dsimp only
    rw [hstate _ _ hq]
    rcases h with h | h <;> rw [h] <;> exact ⟨nofun, nofun⟩
  case h_2 q d hq =>
    split
    · exact quiet_of_state ⟨nofun, nofun⟩ (by simp)
    · unfold takeHeaderByte
      dsimp only
      split
      · exact quiet_finishBinaryHeader
      · refine quiet_of_state ?_ (by simp)
        dsimp only
        rw [hstate _ _ hq]
        rcases h with h | h <;> rw [h] <;> exact ⟨nofun, nofun⟩

/-- A byte behind a `ZDLE` that ends a subpacket. -/
theorem escapeOf_terminator (b : UInt8) (last : ZSubpacketEnd)
    (h : (escapeOf b).terminator = some last) : b = last.rawValue := by
  have hall : ∀ b : UInt8, ∀ e ∈ (escapeOf b).terminator, b = e.rawValue :=
    forall_uint8 (by decide +kernel)
  exact hall b last h

/-- …and one that is data. -/
theorem escapeOf_plain (b : UInt8) : b ≠ Zmodem.ZDLE → (escapeOf b).terminator = none →
    escapeOf b = .plain (escapeOf b).value := by
  revert b
  exact forall_uint8 (by decide +kernel)

theorem Spells.snoc {w u : List UInt8} {ds : List Decoded} {d : Decoded} (h : Spells w ds)
    (hu : Symbol u d) : Spells (w ++ u) (ds ++ [d]) := h.append hu.spells

theorem Spells.snoc_flow {w : List UInt8} {ds : List Decoded} {b : UInt8} (h : Spells w ds)
    (hb : isFlowControl b = true) : Spells (w ++ [b]) ds := by
  have happend := h.append (Spells.nil.flow hb)
  rwa [List.append_nil] at happend

/-- **A byte of a subpacket's data.** -/
theorem sound_subpacket (hstate : p.state = .subpacket) (h : Tracks stream p) (b : UInt8) :
    Sound (stream ++ [b]) (p.consume b) := by
  have htakes := takes_subpacket hstate
  rw [Tracks, hstate] at h
  obtain ⟨before, body, rfl, hbody⟩ := h
  cases hescaped : p.escaped with
  | false =>
    rw [pending, hescaped, if_neg Bool.false_ne_true, List.append_nil]
    cases hflow : isFlowControl b with
    | true =>
      rw [consume_flow htakes hescaped hflow]
      refine ⟨?_, by simp⟩
      rw [Tracks, hstate]
      exact ⟨before, body ++ [b], by simp [pending, hescaped], hbody.snoc_flow hflow⟩
    | false =>
      by_cases hdle : b = Zmodem.ZDLE
      · rw [hdle, consume_zdle htakes hescaped]
        refine ⟨?_, by simp⟩
        rw [Tracks, hstate]
        exact ⟨before, body, by simp [pending], hbody⟩
      · rw [consume_plain htakes hescaped hdle hflow]
        refine ⟨?_, by simp [takeSubpacketByte]⟩
        rw [Tracks, takeSubpacketByte]
        simp only [hstate]
        refine ⟨before, body ++ [b], by simp [pending, hescaped], ?_⟩
        rw [List.map_append]
        exact hbody.snoc (.plain hdle hflow)
  | true =>
    rw [pending, hescaped, if_pos rfl, consume_escaped htakes hescaped]
    by_cases hdle : b = Zmodem.ZDLE
    · rw [hdle, if_pos (by decide)]
      exact (quiet_reset _).sound
    · rw [isAbort_escapeOf b hdle, if_neg Bool.false_ne_true]
      cases hlast : (escapeOf b).terminator with
      | some last =>
        rw [takeSubpacketByte, hlast]
        refine ⟨⟨before, body, [], [], ?_, hbody, .nil, rfl, rfl⟩, by simp⟩
        rw [escapeOf_terminator b last hlast]
        simp [pending]
      | none =>
        rw [takeSubpacketByte, hlast]
        refine ⟨?_, by simp⟩
        rw [Tracks]
        simp only [hstate]
        refine ⟨before, body ++ [Zmodem.ZDLE, b], by simp [pending], ?_⟩
        rw [List.map_append, List.map_singleton, ← escapeOf_plain b hdle hlast]
        exact hbody.snoc (.escape hdle)

/-- **The last byte of a checksum**: data is read if it is right. -/
theorem sound_finishSubpacket {before body check : List UInt8} {sums : List Decoded}
    (hstream : stream = before ++ (body ++ [Zmodem.ZDLE, p.subpacketEnd.rawValue] ++ check))
    (hbody : Spells body (p.subpacketData.map .plain)) (hcheck : Spells check sums)
    (hbytes : p.crcBytes = sums.map Decoded.value)
    (hlength : p.crcBytes.length = if p.subpacketCRC32 then 4 else 2) :
    Sound stream p.finishSubpacket := by
  have hfresh : ∀ event : ZParserEvent, Tracks stream (p.beginSubpacket, [event]).1 := fun _ =>
    (Quiet.mk nofun (fun _ => ⟨rfl, rfl⟩) nofun : Quiet (p.beginSubpacket, [])).sound.1
  have hidle : ∀ event : ZParserEvent, Tracks stream ({ p with state := .idle }, [event]).1 :=
    fun _ => trivial
  unfold finishSubpacket
  dsimp only
  generalize hok : (if p.subpacketCRC32 = true then _ else _ : Bool) = ok
  cases ok with
  | false =>
    rw [if_neg (by simp)]
    exact ⟨hidle .badCRC, by simp⟩
  | true =>
    have hmatches :
        Matches (p.subpacketData ++ [p.subpacketEnd.rawValue]) (sums.map Decoded.value) := by
      rw [← hbytes]
      cases hcrc32 : p.subpacketCRC32 with
      | true =>
        rw [hcrc32, if_pos rfl] at hlength hok
        exact .inl ⟨hlength, beq_iff_eq.mp hok⟩
      | false =>
        rw [hcrc32, if_neg Bool.false_ne_true] at hlength hok
        exact .inr ⟨hlength, beq_iff_eq.mp hok⟩
    have hchecked : Checked stream p.subpacketData p.subpacketEnd :=
      ⟨before, body, check, sums, hstream, hbody, hcheck, hmatches⟩
    have hdata : ∀ bytes last, ZParserEvent.data bytes last
        ∈ [ZParserEvent.data p.subpacketData p.subpacketEnd] → Checked stream bytes last := by
      intro bytes last hmem
      obtain ⟨rfl, rfl⟩ := ZParserEvent.data.inj (List.mem_singleton.mp hmem)
      exact hchecked
    rw [if_pos rfl]
    split
    · exact ⟨hfresh (.data [] .end), hdata⟩
    · exact ⟨hidle (.data [] .end), hdata⟩

/-- A symbol of a subpacket's checksum. -/
theorem sound_takeChecksum {before body check u : List UInt8} {sums : List Decoded} {d : Decoded}
    (hstate : p.state = .subpacketCRC) (hescaped : p.escaped = false)
    (hstream : stream = before ++ (body ++ [Zmodem.ZDLE, p.subpacketEnd.rawValue] ++ check) ++ u)
    (hbody : Spells body (p.subpacketData.map .plain)) (hcheck : Spells check sums)
    (hbytes : p.crcBytes = sums.map Decoded.value)
    (hneeded : p.crcNeeded = if p.subpacketCRC32 then 4 else 2) (hu : Symbol u d) :
    Sound stream (takeSubpacketCRCByte p d) := by
  have hread : p.crcBytes ++ [d.value] = (sums ++ [d]).map Decoded.value := by
    rw [hbytes, List.map_append, List.map_singleton]
  unfold takeSubpacketCRCByte
  dsimp only
  split
  case isTrue hlength =>
    have hwhole : stream
        = before ++ (body ++ [Zmodem.ZDLE, p.subpacketEnd.rawValue] ++ (check ++ u)) := by
      rw [hstream]
      simp only [List.append_assoc]
    exact sound_finishSubpacket hwhole hbody (hcheck.snoc hu) hread
      (by rw [← hneeded]; exact hlength)
  case isFalse =>
    refine ⟨?_, by simp⟩
    rw [Tracks]
    simp only [hstate]
    refine ⟨before, body, check ++ u, sums ++ [d], ?_, hbody, hcheck.snoc hu, hread, hneeded⟩
    rw [hstream]
    simp only [pending, hescaped, if_neg Bool.false_ne_true, List.append_assoc, List.append_nil]

/-- **A byte of a subpacket's checksum.** -/
theorem sound_subpacketCRC (hstate : p.state = .subpacketCRC) (h : Tracks stream p) (b : UInt8) :
    Sound (stream ++ [b]) (p.consume b) := by
  have htakes := takes_subpacketCRC hstate
  rw [Tracks, hstate] at h
  obtain ⟨before, body, check, sums, rfl, hbody, hcheck, hbytes, hneeded⟩ := h
  cases hescaped : p.escaped with
  | false =>
    rw [pending, hescaped, if_neg Bool.false_ne_true, List.append_nil]
    cases hflow : isFlowControl b with
    | true =>
      rw [consume_flow htakes hescaped hflow]
      refine ⟨?_, by simp⟩
      rw [Tracks, hstate]
      exact ⟨before, body, check ++ [b], sums, by simp [pending, hescaped], hbody,
        hcheck.snoc_flow hflow, hbytes, hneeded⟩
    | false =>
      by_cases hdle : b = Zmodem.ZDLE
      · rw [hdle, consume_zdle htakes hescaped]
        refine ⟨?_, by simp⟩
        rw [Tracks, hstate]
        exact ⟨before, body, check, sums, by simp [pending], hbody, hcheck, hbytes, hneeded⟩
      · rw [consume_plain htakes hescaped hdle hflow]
        exact sound_takeChecksum hstate hescaped rfl hbody hcheck hbytes hneeded (.plain hdle hflow)
  | true =>
    rw [pending, hescaped, if_pos rfl, consume_escaped htakes hescaped]
    by_cases hdle : b = Zmodem.ZDLE
    · rw [hdle, if_pos (by decide)]
      exact (quiet_reset _).sound
    · rw [isAbort_escapeOf b hdle, if_neg Bool.false_ne_true]
      exact sound_takeChecksum (p := { p with escaped := false }) hstate rfl
        (List.append_assoc _ _ _) hbody hcheck hbytes hneeded (.escape hdle)

/-- **One byte.** -/
theorem Tracks.consume (h : Tracks stream p) (b : UInt8) : Sound (stream ++ [b]) (p.consume b) := by
  have hdropped : p.state = .binBody ∨ p.state = .bin32Body → Quiet (p.consume b) := by
    intro hstate
    have hbody : p.consume b
        = if !p.escaped && isFlowControl b then (p, []) else p.consumeHeaderBody b := by
      unfold ZmodemParser.consume
      rcases hstate with hstate | hstate <;> rw [hstate]
    rw [hbody]
    split
    · refine quiet_of_state ?_ (by simp)
      rcases hstate with hstate | hstate <;> rw [hstate] <;> exact ⟨nofun, nofun⟩
    · exact quiet_consumeHeaderBody hstate b
  cases hstate : p.state with
  | idle =>
    unfold ZmodemParser.consume
    rw [hstate]
    exact (quiet_consumeIdle hstate b).sound
  | gotPad =>
    unfold ZmodemParser.consume
    rw [hstate]
    exact (quiet_consumeGotPad hstate b).sound
  | gotZDLE =>
    unfold ZmodemParser.consume
    rw [hstate]
    exact (quiet_consumeGotZDLE hstate b).sound
  | hexBody =>
    unfold ZmodemParser.consume
    rw [hstate]
    exact (quiet_consumeHex hstate b).sound
  | binBody => exact (hdropped (.inl hstate)).sound
  | bin32Body => exact (hdropped (.inr hstate)).sound
  | subpacket => exact sound_subpacket hstate h b
  | subpacketCRC => exact sound_subpacketCRC hstate h b

/-- **What the parser has is what arrived**, after any bytes. -/
theorem tracks_run : ∀ (bytes : List UInt8) {stream : List UInt8} {p : ZmodemParser},
    Tracks stream p → Tracks (stream ++ bytes) (run ZmodemParser.consume p bytes).1
  | [], stream, _, h => by
    rw [List.append_nil]
    exact h
  | b :: bytes, stream, p, h => by
    rw [List.append_cons, run_cons]
    exact tracks_run bytes (h.consume b).1

/-! ## The round trip -/

/-- The portions of a stream are read one after the other. -/
theorem run_chunks (chunks : List (List UInt8)) : ∀ p : ZmodemParser,
    run (run ZmodemParser.consume) p chunks = run ZmodemParser.consume p chunks.flatten := by
  induction chunks with
  | nil => exact fun _ => rfl
  | cons chunk chunks ih =>
    intro p
    rw [run_cons, List.flatten_cons, run_append, ih]

/-- **Frames round trip on a noisy line.**  What the encoder writes is a way its pieces may arrive;
whichever way they arrive, cut into any portions and behind whatever left the parser where they may
stand, they are read as those pieces and nothing else; and data is read only behind its checksum. -/
theorem frames_roundTrip :
    (∀ piece : Piece, piece.Sent piece.encoded)
      ∧ (∀ (pieces : List Piece) (wire : List UInt8) (k l : Place), Piece.Delivers k pieces wire l →
          ∀ chunks : List (List UInt8), chunks.flatten = wire → ∀ p : ZmodemParser, p.At k →
            (run (run ZmodemParser.consume) p chunks).2 = pieces.flatMap Piece.events
              ∧ (run (run ZmodemParser.consume) p chunks).1.At l)
      ∧ ∀ (stream : List UInt8) (byte : UInt8) (bytes : List UInt8) (last : ZSubpacketEnd),
          .data bytes last ∈ ((run ZmodemParser.consume {} stream).1.consume byte).2 →
            Checked (stream ++ [byte]) bytes last := by
  refine ⟨Piece.sent_encoded, fun pieces wire k l h chunks hchunks p hp => ?_,
    fun stream byte bytes last hmem => ?_⟩
  · rw [run_chunks, hchunks]
    exact h.readsAs p hp
  · have hstart : Tracks [] {} := trivial
    have htracks : Tracks stream (run ZmodemParser.consume {} stream).1 := tracks_run stream hstart
    exact (htracks.consume byte).2 bytes last hmem

/-- A ZDATA header and its subpacket, with an XOFF put in front of the data. -/
def disturbedFrame : List UInt8 :=
  ZmodemEncoder.bin32Header (.positioned .data 7)
    ++ (0x13 :: subpacketBytes (ascii "hi") .wait ++ [Zmodem.XON])

theorem delivers_disturbedFrame : Piece.Delivers .rest
    [.bin32 (.positioned .data 7), .data (ascii "hi") .wait] disturbedFrame .rest := by
  have hheader : (Piece.bin32 (.positioned .data 7)).Sent
      (ZmodemEncoder.bin32Header (.positioned .data 7)) := Piece.sent_encoded (.bin32 _)
  have hquiet : Disturbed (subpacketBytes (ascii "hi") .wait) (subpacketBytes (ascii "hi") .wait) :=
    disturbed_symbols (((spells_escaped _).append (symbol_terminator .wait).spells).append
      (spells_escaped _))
  have hdata : (Piece.data (ascii "hi") .wait).Sent
      (0x13 :: subpacketBytes (ascii "hi") .wait ++ [Zmodem.XON]) :=
    .data (.insert (by decide) (by decide +kernel) hquiet)
  have hrest := Piece.Delivers.cons (.data _ _) hdata (.nil _)
  rw [List.append_nil] at hrest
  exact .cons (.bin32 ⟨nofun, nofun⟩) hheader hrest

/-- The frame is read as if nothing had been put in. -/
theorem frames_roundTrip_disturbedFrame :
    (run (run ZmodemParser.consume) {} [disturbedFrame]).2
      = [.header (.positioned .data 7), .data (ascii "hi") .wait, .noise Zmodem.XON] :=
  (frames_roundTrip.2.1 _ _ _ _ delivers_disturbedFrame _ (List.append_nil _) {} rfl).1

/-- **ZCAN is no header to the parser.** -/
theorem can_notHeader : ¬ ∀ h : ZHeader, h.type.hasSubpackets = false →
    .header h ∈ (run ZmodemParser.consume {} (ZmodemEncoder.hexHeader h)).2
      ∧ .abort ∉ (run ZmodemParser.consume {} (ZmodemEncoder.hexHeader h)).2 := by
  intro h
  have hcan : ZParserEvent.abort
      ∈ (run ZmodemParser.consume {} (ZmodemEncoder.hexHeader { type := .can })).2 := by
    decide +kernel
  exact (h { type := .can } rfl).2 hcan

end ZmodemParser
