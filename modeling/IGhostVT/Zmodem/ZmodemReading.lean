import IGhostVT.Lib.Duplex
import IGhostVT.Zmodem.ZmodemFrame

/-!
# Zmodem/ZmodemReading — the parser reads what the encoder writes

A parser at rest reads a header of the encoder's as that header, and one inside a frame reads a
subpacket as its data, whatever the data: an escaped byte is never a control byte, so nothing in the
data can end it, be dropped or start a header.  Between frames what is left of them, a line end and
an XON, is noise.

Inside a binary frame the line may put in an XON or an XOFF of its own, which the parser drops.
`Spells` says what a stretch of bytes with flow control among them stands for, and the parser
depends on that alone (`run_spells`).
-/

open Transducer

/-! ## Checksums and positions, split and joined -/

namespace ZHeader

/-- The four bytes of a position are joined to it. -/
theorem join_split (x : UInt32) :
    join (x &&& 0xFF).toUInt8 ((x >>> 8) &&& 0xFF).toUInt8 ((x >>> 16) &&& 0xFF).toUInt8
      ((x >>> 24) &&& 0xFF).toUInt8 = x := by
  apply UInt32.toNat_inj.mp
  refine Nat.eq_of_testBit_eq fun i => ?_
  have h255 : UInt32.toNat 255 = 2 ^ 8 - 1 := rfl
  have h8 : UInt32.toNat 8 % 32 = 8 := rfl
  have h16 : UInt32.toNat 16 % 32 = 16 := rfl
  have h24 : UInt32.toNat 24 % 32 = 24 := rfl
  have hhigh : 32 ≤ i → x.toNat.testBit i = false := fun hi =>
    Nat.testBit_lt_two_pow (lt_of_lt_of_le x.toNat_lt (Nat.pow_le_pow_right (by decide) hi))
  simp only [join, UInt32.toNat_or, UInt32.toNat_shiftLeft, UInt8.toNat_toUInt32,
    UInt32.toNat_toUInt8, UInt32.toNat_and, UInt32.toNat_shiftRight, h255, h8, h16, h24,
    Nat.testBit_or, Nat.testBit_mod_two_pow, Nat.testBit_shiftLeft, Nat.testBit_and,
    Nat.testBit_shiftRight, Nat.testBit_two_pow_sub_one]
  -- Each bit is in one of the four bytes, or above them all.
  rcases lt_or_ge i 8 with h1 | h1
  · simp [h1, show ¬ 8 ≤ i by omega, show ¬ 16 ≤ i by omega, show ¬ 24 ≤ i by omega]
  rcases lt_or_ge i 16 with h2 | h2
  · simp [show ¬ i < 8 by omega, show 8 ≤ i by omega, show ¬ 16 ≤ i by omega,
      show ¬ 24 ≤ i by omega, show i < 32 by omega, show i - 8 < 8 by omega]
  rcases lt_or_ge i 24 with h3 | h3
  · simp [show ¬ i < 8 by omega, show ¬ i - 8 < 8 by omega, show 16 ≤ i by omega,
      show ¬ 24 ≤ i by omega, show i < 32 by omega, show i - 16 < 8 by omega]
  rcases lt_or_ge i 32 with h4 | h4
  · simp [show ¬ i < 8 by omega, show ¬ i - 8 < 8 by omega, show ¬ i - 16 < 8 by omega,
      show 24 ≤ i by omega, show i < 32 by omega, show i - 24 < 8 by omega]
  · simp [hhigh h4, show ¬ i < 8 by omega, show ¬ i < 32 by omega]

/-- A header that was given a position has it. -/
@[simp] theorem position_positioned (type : ZFrameType) (offset : UInt32) :
    (positioned type offset).position = offset := join_split offset

end ZHeader

/-- The two bytes of a checksum are joined to it. -/
theorem ZmodemCRC.join_split (x : UInt16) :
    ((x >>> 8).toUInt8.toUInt16 <<< 8) ||| (x &&& 0xFF).toUInt8.toUInt16 = x := by
  apply UInt16.toNat_inj.mp
  refine Nat.eq_of_testBit_eq fun i => ?_
  have h255 : UInt16.toNat 255 = 2 ^ 8 - 1 := rfl
  have h8 : UInt16.toNat 8 % 16 = 8 := rfl
  have hhigh : 16 ≤ i → x.toNat.testBit i = false := fun hi =>
    Nat.testBit_lt_two_pow (lt_of_lt_of_le x.toNat_lt (Nat.pow_le_pow_right (by decide) hi))
  simp only [UInt16.toNat_or, UInt16.toNat_shiftLeft, UInt8.toNat_toUInt16, UInt16.toNat_toUInt8,
    UInt16.toNat_and, UInt16.toNat_shiftRight, h255, h8, Nat.testBit_or, Nat.testBit_mod_two_pow,
    Nat.testBit_shiftLeft, Nat.testBit_and, Nat.testBit_shiftRight, Nat.testBit_two_pow_sub_one]
  rcases lt_or_ge i 8 with h1 | h1
  · simp [h1, show ¬ 8 ≤ i by omega]
  rcases lt_or_ge i 16 with h2 | h2
  · simp [show ¬ i < 8 by omega, show 8 ≤ i by omega, h2, show i - 8 < 8 by omega]
  · simp [hhigh h2, show ¬ i < 8 by omega, show ¬ i < 16 by omega]

/-- The low bytes of a checksum come lowest first. -/
theorem ZmodemEncoder.lowBytes_four (crc : UInt32) : lowBytes 4 crc =
    [(crc &&& 0xFF).toUInt8, ((crc >>> 8) &&& 0xFF).toUInt8, ((crc >>> 16) &&& 0xFF).toUInt8,
      ((crc >>> 24) &&& 0xFF).toUInt8] := by
  have h16 : crc >>> 8 >>> 8 = crc >>> 16 := UInt32.toNat_inj.mp rfl
  have h24 : crc >>> 16 >>> 8 = crc >>> 24 := UInt32.toNat_inj.mp rfl
  simp only [lowBytes, h16, h24]

namespace ZmodemParser

variable {p : ZmodemParser}

/-! ## Bytes -/

/-- What holds of 256 bytes holds of all. -/
theorem forall_uint8 {P : UInt8 → Prop} (h : ∀ n : Fin 256, P (UInt8.ofNat n)) (b : UInt8) :
    P b := by
  have hb := h ⟨b.toNat, b.toNat_lt⟩
  rwa [UInt8.ofNat_toNat] at hb

/-- An escaped control byte is none of the parser's own escapes. -/
theorem escape_control (b : UInt8) (h : b &&& 0x60 = 0) :
    ZSubpacketEnd.ofRawValue (b ^^^ 0x40) = none ∧ b ^^^ 0x40 ≠ Zmodem.ZRUB0
      ∧ b ^^^ 0x40 ≠ Zmodem.ZRUB1 ∧ b ^^^ 0x40 ≠ Zmodem.ZDLE ∧ b ^^^ 0x40 ^^^ 0x40 = b := by
  revert b
  exact forall_uint8 (by decide +kernel)

/-- A byte that goes as it is neither escapes another nor is dropped. -/
theorem not_control (b : UInt8) (h : b &&& 0x60 ≠ 0) :
    b ≠ Zmodem.ZDLE ∧ isFlowControl b = false := by
  revert b
  exact forall_uint8 (by decide +kernel)

/-- In the states of a binary frame the parser reads through the escapes. -/
def Takes (p : ZmodemParser) (take : ZmodemParser → Decoded → ZmodemParser × List ZParserEvent) :
    Prop :=
  ∀ q : ZmodemParser, q.state = p.state → ∀ byte, q.consume byte =
    if !q.escaped && isFlowControl byte then (q, []) else consumeEscaped take q byte

/-- The body of a binary header takes decoded bytes. -/
theorem takes_bin32Body (h : p.state = .bin32Body) : p.Takes takeHeaderByte := by
  intro q hq byte
  unfold consume
  rw [hq, h]
  rfl

/-- So does a subpacket. -/
theorem takes_subpacket (h : p.state = .subpacket) : p.Takes takeSubpacketByte := by
  intro q hq byte
  unfold consume
  rw [hq, h]
  rfl

/-- And so does the checksum behind it. -/
theorem takes_subpacketCRC (h : p.state = .subpacketCRC) : p.Takes takeSubpacketCRCByte := by
  intro q hq byte
  unfold consume
  rw [hq, h]
  rfl

/-! ## What bytes stand for

`Spells` relates bytes on the line to those a parser takes them for. -/

/-- What a byte behind a `ZDLE` stands for. -/
def escapeOf (byte : UInt8) : Decoded :=
  match ZSubpacketEnd.ofRawValue byte with
  | some last => { terminator := some last }
  | none =>
    if byte = Zmodem.ZRUB0 then { value := 0x7F }
    else if byte = Zmodem.ZRUB1 then { value := 0xFF }
    else if byte = Zmodem.ZDLE then { isAbort := true }
    else { value := byte ^^^ 0x40 }

/-- One byte, or a `ZDLE` and the byte it escapes. -/
inductive Symbol : List UInt8 → Decoded → Prop
  | plain {b : UInt8} : b ≠ Zmodem.ZDLE → isFlowControl b = false → Symbol [b] { value := b }
  | escape {b : UInt8} : b ≠ Zmodem.ZDLE → Symbol [Zmodem.ZDLE, b] (escapeOf b)

/-- **What bytes stand for**: symbols, with flow control among them. -/
inductive Spells : List UInt8 → List Decoded → Prop
  | nil : Spells [] []
  | flow {b : UInt8} {w : List UInt8} {ds : List Decoded} :
      isFlowControl b = true → Spells w ds → Spells (b :: w) ds
  | cons {u w : List UInt8} {d : Decoded} {ds : List Decoded} :
      Symbol u d → Spells w ds → Spells (u ++ w) (d :: ds)

/-- Two spellings, one after the other, spell both. -/
theorem Spells.append {v w : List UInt8} {ds es : List Decoded} (h : Spells v ds)
    (h' : Spells w es) : Spells (v ++ w) (ds ++ es) := by
  induction h with
  | nil => exact h'
  | flow hb _ ih => exact ih.flow hb
  | cons hu _ ih =>
    rw [List.append_assoc]
    exact ih.cons hu

/-- A symbol spells what it stands for. -/
theorem Symbol.spells {u : List UInt8} {d : Decoded} (h : Symbol u d) : Spells u [d] := by
  have hone := Spells.nil.cons h
  rwa [List.append_nil] at hone

/-- Flow control alone stands for nothing. -/
theorem spells_flow : ∀ {w : List UInt8}, (∀ b ∈ w, isFlowControl b = true) → Spells w []
  | [], _ => .nil
  | b :: _, h =>
    (spells_flow fun c hc => h c (List.mem_cons_of_mem _ hc)).flow (h b List.mem_cons_self)

/-- A byte as data. -/
def Decoded.plain (b : UInt8) : Decoded := { value := b }

/-- Plain bytes stand for themselves. -/
theorem map_value_plain (bs : List UInt8) : (bs.map Decoded.plain).map Decoded.value = bs := by
  rw [List.map_map]
  exact List.map_id bs

/-- An escaped byte is a symbol for it. -/
theorem symbol_escaped (b : UInt8) : Symbol (ZmodemEncoder.escaped b) (.plain b) := by
  unfold ZmodemEncoder.escaped
  split
  case isTrue hcontrol =>
    obtain ⟨hend, hrub0, hrub1, hdle, hback⟩ := escape_control b hcontrol
    have hvalue : escapeOf (b ^^^ 0x40) = .plain b := by
      rw [escapeOf, hend]
      dsimp only
      rw [if_neg hrub0, if_neg hrub1, if_neg hdle, hback, Decoded.plain]
    rw [← hvalue]
    exact .escape hdle
  case isFalse hplain =>
    obtain ⟨hdle, hflow⟩ := not_control b hplain
    exact .plain hdle hflow

/-- So escaped bytes spell the bytes. -/
theorem spells_escaped (bs : List UInt8) :
    Spells (bs.flatMap ZmodemEncoder.escaped) (bs.map .plain) := by
  induction bs with
  | nil => exact .nil
  | cons b bs ih =>
    rw [List.flatMap_cons]
    exact ih.cons (symbol_escaped b)

/-- The end of a subpacket is a symbol as well. -/
theorem symbol_terminator (last : ZSubpacketEnd) :
    Symbol [Zmodem.ZDLE, last.rawValue] { terminator := some last } := by
  cases last with
  | _ => exact Symbol.escape (by decide)

/-! ## Reading them

A state that takes decoded bytes takes each symbol as one of them. -/

section

variable {take : ZmodemParser → Decoded → ZmodemParser × List ZParserEvent}

/-- Bytes of flow control are passed by. -/
theorem consume_flow (htakes : p.Takes take) (hescaped : p.escaped = false) {b : UInt8}
    (hb : isFlowControl b = true) : p.consume b = (p, []) := by
  rw [htakes p rfl, hescaped, hb]
  rfl

/-- Nothing that is escaped aborts. -/
theorem isAbort_escapeOf (b : UInt8) : b ≠ Zmodem.ZDLE → (escapeOf b).isAbort = false := by
  revert b
  exact forall_uint8 (by decide +kernel)

/-- What a byte behind a `ZDLE` comes to, whether or not it is flow control. -/
theorem consume_escaped (htakes : p.Takes take) (hescaped : p.escaped = true) (b : UInt8) :
    p.consume b = if (escapeOf b).isAbort then ({ p with escaped := false }.reset, [.abort])
      else take { p with escaped := false } (escapeOf b) := by
  have hunescape : p.unescape b = ({ p with escaped := false }, some (escapeOf b)) := by
    rw [unescape, if_pos hescaped, escapeOf]
    dsimp only
    cases ZSubpacketEnd.ofRawValue b with
    | some last => rfl
    | none =>
      dsimp only
      split
      · rfl
      · split
        · rfl
        · split <;> rfl
  rw [htakes p rfl, hescaped, consumeEscaped, hunescape]
  rfl

/-- A ZDLE waits for the byte behind it. -/
theorem consume_zdle (htakes : p.Takes take) (hescaped : p.escaped = false) :
    p.consume Zmodem.ZDLE = ({ p with escaped := true }, []) := by
  have hflow : isFlowControl Zmodem.ZDLE = false := by decide
  rw [htakes p rfl, hescaped, hflow, consumeEscaped, unescape, hescaped]
  rfl

/-- Every other byte stands for itself. -/
theorem consume_plain (htakes : p.Takes take) (hescaped : p.escaped = false) {b : UInt8}
    (hdle : b ≠ Zmodem.ZDLE) (hflow : isFlowControl b = false) :
    p.consume b = take p { value := b } := by
  rw [htakes p rfl, hescaped, hflow, consumeEscaped, unescape, hescaped,
    if_neg Bool.false_ne_true, if_neg hdle]
  rfl

/-- **A symbol is taken as what it stands for.** -/
theorem run_symbol (htakes : p.Takes take) (hescaped : p.escaped = false) {u : List UInt8}
    {d : Decoded} (h : Symbol u d) : run consume p u = take p d := by
  cases h with
  | plain hdle hflow => rw [run_singleton, consume_plain htakes hescaped hdle hflow]
  | escape hdle =>
    have hclear : { p with escaped := false } = p := by rw [← hescaped]
    have hsecond :=
      consume_escaped (p := { p with escaped := true }) (fun q hq => htakes q hq) rfl ‹_›
    rw [isAbort_escapeOf _ hdle] at hsecond
    rw [run_cons, consume_zdle htakes hescaped, run_singleton, hsecond]
    exact congrArg (take · _) hclear

/-- **Only what bytes stand for matters**: `stage ds` being the parser that has taken `ds`, as long
as taking more of them leaves it in the frame's state and emits nothing. -/
theorem run_spells {stage : List Decoded → ZmodemParser} {all : List Decoded}
    (htakes : ∀ ds, (stage ds).Takes take) (hescaped : ∀ ds, (stage ds).escaped = false)
    (hstep : ∀ ds d es, ds ++ d :: es = all → take (stage ds) d = (stage (ds ++ [d]), []))
    {w : List UInt8} {es : List Decoded} (h : Spells w es) :
    ∀ ds, ds ++ es = all → run consume (stage ds) w = (stage all, []) := by
  induction h with
  | nil =>
    intro ds hds
    rw [List.append_nil] at hds
    rw [run_nil, hds]
  | flow hb _ ih =>
    intro ds hds
    rw [run_cons, consume_flow (htakes ds) (hescaped ds) hb, ih ds hds]
    rfl
  | cons hu _ ih =>
    intro ds hds
    rw [run_append, run_symbol (htakes ds) (hescaped ds) hu, hstep ds _ _ hds]
    dsimp only
    rw [ih _ (by rw [List.append_assoc]; exact hds)]
    rfl

/-- The same with the symbol that completes what is taken. -/
theorem run_spells_last (stage : List Decoded → ZmodemParser) {ds : List Decoded} {d : Decoded}
    {done : ZmodemParser × List ZParserEvent}
    (htakes : ∀ ds, (stage ds).Takes take) (hescaped : ∀ ds, (stage ds).escaped = false)
    (hstep : ∀ cs c es, cs ++ c :: es = ds → take (stage cs) c = (stage (cs ++ [c]), []))
    (hlast : take (stage ds) d = done) {w u : List UInt8} (h : Spells w ds) (hu : Symbol u d) :
    run consume (stage []) (w ++ u) = done := by
  rw [run_append, run_spells htakes hescaped hstep h [] rfl]
  dsimp only
  rw [run_symbol (htakes ds) (hescaped ds) hu, hlast, List.nil_append]

end

/-! ## Headers and subpackets -/

/-- The bytes of a header, flow control among them. -/
theorem run_header {w u : List UInt8} {ds : List Decoded} {d : Decoded}
    (hstate : p.state = .bin32Body) (hescaped : p.escaped = false) (hbytes : p.headerBytes = [])
    (h : Spells w ds) (hu : Symbol u d) (hlength : ds.length + 1 = p.headerNeeded) :
    run consume p (w ++ u)
      = { p with headerBytes := (ds ++ [d]).map Decoded.value }.finishBinaryHeader := by
  let stage (ds : List Decoded) : ZmodemParser := { p with headerBytes := ds.map Decoded.value }
  have hstart : stage [] = p := by
    change { p with headerBytes := [] } = p
    rw [← hbytes]
  have htake : ∀ cs c, takeHeaderByte (stage cs) c =
      if cs.length + 1 = p.headerNeeded then (stage (cs ++ [c])).finishBinaryHeader
      else (stage (cs ++ [c]), []) := by
    intro cs c
    rw [takeHeaderByte]
    simp only [stage, List.length_append, List.length_map, List.length_singleton, List.map_append,
      List.map_cons, List.map_nil]
  have hstep : ∀ cs c es, cs ++ c :: es = ds →
      takeHeaderByte (stage cs) c = (stage (cs ++ [c]), []) := by
    intro cs c es heq
    have hlen : cs.length + (es.length + 1) = ds.length := by
      rw [← heq, List.length_append, List.length_cons]
    rw [htake, if_neg (by omega)]
  have hrun : run consume (stage []) (w ++ u) = _ :=
    run_spells_last stage (fun _ => takes_bin32Body hstate) (fun _ => hescaped) hstep
      (by rw [htake, if_pos hlength]) h hu
  rwa [hstart] at hrun

/-- The bytes of a subpacket's checksum, flow control among them. -/
theorem run_checksum {w u : List UInt8} {ds : List Decoded} {d : Decoded}
    (hstate : p.state = .subpacketCRC) (hescaped : p.escaped = false) (hbytes : p.crcBytes = [])
    (h : Spells w ds) (hu : Symbol u d) (hlength : ds.length + 1 = p.crcNeeded) :
    run consume p (w ++ u) =
      { p with crcBytes := (ds ++ [d]).map Decoded.value }.finishSubpacket := by
  let stage (ds : List Decoded) : ZmodemParser := { p with crcBytes := ds.map Decoded.value }
  have hstart : stage [] = p := by
    change { p with crcBytes := [] } = p
    rw [← hbytes]
  have htake : ∀ cs c, takeSubpacketCRCByte (stage cs) c =
      if cs.length + 1 = p.crcNeeded then (stage (cs ++ [c])).finishSubpacket
      else (stage (cs ++ [c]), []) := by
    intro cs c
    rw [takeSubpacketCRCByte]
    simp only [stage, List.length_append, List.length_map, List.length_singleton, List.map_append,
      List.map_cons, List.map_nil]
  have hstep : ∀ cs c es, cs ++ c :: es = ds →
      takeSubpacketCRCByte (stage cs) c = (stage (cs ++ [c]), []) := by
    intro cs c es heq
    have hlen : cs.length + (es.length + 1) = ds.length := by
      rw [← heq, List.length_append, List.length_cons]
    rw [htake, if_neg (by omega)]
  have hrun : run consume (stage []) (w ++ u) = _ :=
    run_spells_last stage (fun _ => takes_subpacketCRC hstate) (fun _ => hescaped) hstep
      (by rw [htake, if_pos hlength]) h hu
  rwa [hstart] at hrun

/-- The data of a subpacket and what ends it, flow control among them. -/
theorem run_payload {w u : List UInt8} {data : List UInt8} {last : ZSubpacketEnd}
    (hstate : p.state = .subpacket) (hescaped : p.escaped = false) (hdata : p.subpacketData = [])
    (h : Spells w (data.map .plain)) (hu : Symbol u { terminator := some last }) :
    run consume p (w ++ u) =
      ({ p with
          subpacketData := data, subpacketEnd := last, crcBytes := []
          crcNeeded := if p.subpacketCRC32 then 4 else 2
          escaped := false, state := .subpacketCRC }, []) := by
  let stage (ds : List Decoded) : ZmodemParser := { p with subpacketData := ds.map Decoded.value }
  have hstart : stage [] = p := by
    change { p with subpacketData := [] } = p
    rw [← hdata]
  have hvalues : (data.map Decoded.plain).map Decoded.value = data := map_value_plain data
  have hstep : ∀ cs c es, cs ++ c :: es = data.map .plain →
      takeSubpacketByte (stage cs) c = (stage (cs ++ [c]), []) := by
    intro cs c es heq
    have hplain : c.terminator = none := by
      obtain ⟨b, -, rfl⟩ : ∃ b ∈ data, Decoded.plain b = c :=
        List.mem_map.mp (heq ▸ List.mem_append_right cs List.mem_cons_self)
      rfl
    rw [takeSubpacketByte, hplain]
    simp only [stage, List.map_append, List.map_cons, List.map_nil]
  have hrun : run consume (stage []) (w ++ u) = _ :=
    run_spells_last stage (fun _ => takes_subpacket hstate) (fun _ => hescaped) hstep rfl h hu
  rw [hstart] at hrun
  rw [hrun]
  simp only [stage, hvalues]
  rfl

/-! ## Hex digits -/

/-- The two halves of a byte. -/
def nibbles (b : UInt8) : List UInt8 := [b >>> 4, b &&& 0x0F]

/-- Hex digits are read back as they were written. -/
theorem hexValue_hex (b : UInt8) : (ZmodemEncoder.hex b).map hexValue = (nibbles b).map some := by
  revert b
  exact forall_uint8 (by decide +kernel)

/-- Two digits make a byte again. -/
theorem pairs_flatMap_nibbles (bs : List UInt8) : pairs (bs.flatMap nibbles) = bs := by
  have hjoin : ∀ b : UInt8, ((b >>> 4) <<< 4) ||| (b &&& 0x0F) = b :=
    forall_uint8 (by decide +kernel)
  induction bs with
  | nil => rfl
  | cons b bs ih =>
    rw [List.flatMap_cons]
    exact congrArg₂ List.cons (hjoin b) ih

/-- The digits of a hex header, up to the last. -/
theorem run_hexDigits : ∀ (cs vs : List UInt8) {p : ZmodemParser}, p.state = .hexBody → cs ≠ [] →
    cs.map hexValue = vs.map some → p.hexNibbles.length + cs.length = 14 →
      run consume p cs = { p with hexNibbles := p.hexNibbles ++ vs }.finishHexHeader
  | [], _, _, _, hne, _, _ => absurd rfl hne
  | c :: cs, [], _, _, _, hvs, _ => absurd hvs (List.cons_ne_nil _ _)
  | c :: cs, v :: vs, p, hstate, _, hvs, hlength => by
      obtain ⟨hv, hvs⟩ := List.cons.inj hvs
      have hfirst : p.consume c = p.consumeHex c := by
        unfold consume
        rw [hstate]
      rw [List.length_cons] at hlength
      rw [run_cons, hfirst, consumeHex, hv]
      dsimp only
      cases cs with
      | nil =>
        obtain rfl : vs = [] := List.map_eq_nil_iff.mp hvs.symm
        rw [if_pos (by simpa using hlength)]
        simp
      | cons d cs =>
        have hlength' : (p.hexNibbles ++ [v]).length + (d :: cs).length = 14 := by
          rw [List.length_append, List.length_singleton]
          omega
        have hmore : ¬ (p.hexNibbles ++ [v]).length = 14 := by
          rw [List.length_cons] at hlength'
          omega
        rw [if_neg hmore, List.nil_append]
        dsimp only
        rw [run_hexDigits (d :: cs) vs (p := { p with hexNibbles := p.hexNibbles ++ [v] }) hstate
          (List.cons_ne_nil _ _) hvs hlength']
        simp only [List.append_assoc, List.singleton_append]

/-! ## Frames -/

/-- Where the parser is when all that was sent is read. -/
inductive Place
  | rest
  | frame
deriving DecidableEq

/-- At rest, or past a binary header or a subpacket that more are to follow. -/
def At (p : ZmodemParser) : Place → Prop
  | .rest => p.state = .idle
  | .frame => p.state = .subpacket ∧ p.escaped = false ∧ p.subpacketData = []
    ∧ p.subpacketCRC32 = true

/-- An event that means something to the two ends of a transfer. -/
def isSignal : ZParserEvent → Bool
  | .noise _ => false
  | _ => true

/-- A parser at `before` reads `events` in the bytes, noise aside, and is then at `next`. -/
def Reads (before : Place) (bytes : List UInt8) (events : List ZParserEvent)
    (next : Place) : Prop :=
  ∀ p : ZmodemParser, p.At before →
    (run consume p bytes).2.filter isSignal = events ∧ (run consume p bytes).1.At next

/-- What is read of two parts is read of both. -/
theorem Reads.append {k l m : Place} {b c : List UInt8} {e f : List ZParserEvent}
    (h : Reads k b e l) (h' : Reads l c f m) : Reads k (b ++ c) (e ++ f) m := by
  intro p hp
  obtain ⟨hes, hl⟩ := h p hp
  obtain ⟨hfs, hm⟩ := h' _ hl
  rw [run_append, List.filter_append, hes, hfs]
  exact ⟨rfl, hm⟩

/-- Of nothing nothing is read. -/
theorem reads_nil (k : Place) : Reads k [] [] k := fun _ hp => ⟨rfl, hp⟩

/-- A parser at `before` reads exactly `events` in the bytes, and is then at `next`. -/
def ReadsAs (before : Place) (bytes : List UInt8) (events : List ZParserEvent) (next : Place) :
    Prop :=
  ∀ p : ZmodemParser, p.At before →
    (run consume p bytes).2 = events ∧ (run consume p bytes).1.At next

/-- Also with the noise between. -/
theorem ReadsAs.append {k l m : Place} {b c : List UInt8} {e f : List ZParserEvent}
    (h : ReadsAs k b e l) (h' : ReadsAs l c f m) : ReadsAs k (b ++ c) (e ++ f) m := by
  intro p hp
  obtain ⟨hes, hl⟩ := h p hp
  obtain ⟨hfs, hm⟩ := h' _ hl
  rw [run_append, hes, hfs]
  exact ⟨rfl, hm⟩

/-- Nothing makes no noise. -/
theorem readsAs_nil (k : Place) : ReadsAs k [] [] k := fun _ hp => ⟨rfl, hp⟩

/-- Noise put aside, the two agree. -/
theorem ReadsAs.reads {k l : Place} {b : List UInt8} {e : List ZParserEvent} (h : ReadsAs k b e l) :
    Reads k b (e.filter isSignal) l := fun p hp => ⟨by rw [(h p hp).1], (h p hp).2⟩

/-- Noise is no signal. -/
theorem filter_noise (bytes : List UInt8) :
    (bytes.map ZParserEvent.noise).filter isSignal = [] := by
  rw [List.filter_eq_nil_iff]
  intro e he
  obtain ⟨b, -, rfl⟩ := List.mem_map.mp he
  exact Bool.false_ne_true

/-- At rest, what is not the start of a header is noise. -/
theorem readsAs_noise : ∀ (bytes : List UInt8),
    (∀ b ∈ bytes, b ≠ Zmodem.ZPAD ∧ b ≠ Zmodem.ZDLE) →
      ReadsAs .rest bytes (bytes.map .noise) .rest
  | [], _ => readsAs_nil .rest
  | b :: bs, h => by
      obtain ⟨hpad, hdle⟩ := h b List.mem_cons_self
      refine ReadsAs.append (b := [b]) (e := [.noise b]) ?_
        (readsAs_noise bs fun c hc => h c (List.mem_cons_of_mem _ hc))
      intro p hp
      have hfirst : p.consume b = p.consumeIdle b := by
        unfold consume
        rw [show p.state = .idle from hp]
      rw [run_singleton, hfirst, consumeIdle, if_neg hpad, if_neg hdle]
      exact ⟨rfl, hp⟩

/-- Bytes that begin no frame are noise. -/
theorem reads_noise (bytes : List UInt8) (h : ∀ b ∈ bytes, b ≠ Zmodem.ZPAD ∧ b ≠ Zmodem.ZDLE) :
    Reads .rest bytes [] .rest := by
  have hreads := (readsAs_noise bytes h).reads
  rwa [filter_noise] at hreads

/-- A header's bytes, once its checksum is right. -/
theorem emitHeader_body {p : ZmodemParser} {h : ZHeader} (crc32 : Bool)
    (htype : h.type ≠ .abort ∧ h.type ≠ .can) : p.emitHeader h.body crc32 =
      if h.type.hasSubpackets then ({ p with subpacketCRC32 := crc32 }.beginSubpacket, [.header h])
      else ({ p with state := .idle }, [.header h]) := by
  have hraw : ZFrameType.ofRawValue (h.body.getD 0 0) = some h.type :=
    ZFrameType.ofRawValue_rawValue h.type
  unfold emitHeader
  rw [hraw]
  dsimp only
  rw [if_neg (by rintro (h' | h') <;> simp_all)]
  rfl

/-- The bytes a hex header opens with. -/
theorem run_openHex (hp : p.state = .idle) :
    run consume p [Zmodem.ZPAD, Zmodem.ZPAD, Zmodem.ZDLE, Zmodem.ZHEX]
      = ({ p with state := .hexBody, canRun := 0, hexNibbles := [] }, []) := by
  cases p
  obtain rfl : _ = State.idle := hp
  rfl

/-- The bytes a binary header opens with. -/
theorem run_openBin32 (hp : p.state = .idle) :
    run consume p [Zmodem.ZPAD, Zmodem.ZDLE, Zmodem.ZBIN32]
      = ({ p with canRun := 0 }.beginHeader true, []) := by
  cases p
  obtain rfl : _ = State.idle := hp
  rfl

/-- What ends the line of a hex header. -/
def lineEnd (h : ZHeader) : List UInt8 :=
  [0x0D, 0x0A] ++ if h.type ≠ .ack ∧ h.type ≠ .fin then [Zmodem.XON] else []

/-- Headers in hex are read as they are, from rest to rest, and the end of their line as noise. -/
theorem readsAs_hexHeader {h : ZHeader} (htype : h.type ≠ .abort ∧ h.type ≠ .can)
    (hplain : h.type.hasSubpackets = false) :
    ReadsAs .rest (ZmodemEncoder.hexHeader h) (.header h :: (lineEnd h).map .noise) .rest := by
  let crc := ZmodemCRC.crc16 h.body
  let body := h.body ++ [(crc >>> 8).toUInt8, (crc &&& 0xFF).toUInt8]
  have hsplit : ZmodemEncoder.hexHeader h
      = ([Zmodem.ZPAD, Zmodem.ZPAD, Zmodem.ZDLE, Zmodem.ZHEX] ++ body.flatMap ZmodemEncoder.hex)
        ++ lineEnd h := by
    simp only [ZmodemEncoder.hexHeader, body, lineEnd, crc, List.flatMap_append, List.flatMap_cons,
      List.flatMap_nil, List.append_nil, List.append_assoc]
  have hline : ReadsAs .rest (lineEnd h) ((lineEnd h).map .noise) .rest := by
    refine readsAs_noise _ fun b hb => ?_
    have hmem : b ∈ [0x0D, 0x0A, Zmodem.XON] := by
      simp only [lineEnd, List.mem_append] at hb
      obtain hb | hb := hb
      · exact List.mem_append_left [Zmodem.XON] hb
      · split at hb
        · exact List.mem_append_right [0x0D, 0x0A] hb
        · exact absurd hb List.not_mem_nil
    exact (by decide +kernel : ∀ b ∈ [0x0D, 0x0A, Zmodem.XON], b ≠ Zmodem.ZPAD ∧ b ≠ Zmodem.ZDLE) b
      hmem
  rw [hsplit]
  refine ReadsAs.append (e := [.header h]) ?_ hline
  intro p hp
  have hvs : (body.flatMap ZmodemEncoder.hex).map hexValue = (body.flatMap nibbles).map some := by
    rw [List.map_flatMap, List.map_flatMap]
    simp only [hexValue_hex]
  rw [run_append, run_openHex hp]
  dsimp only
  rw [run_hexDigits _ _ rfl (by exact List.cons_ne_nil _ _) hvs (by rfl), finishHexHeader]
  dsimp only
  have hpairs : pairs ([] ++ body.flatMap nibbles) = body := pairs_flatMap_nibbles body
  have htake : body.take 5 = h.body := rfl
  have hcrc : (body.getD 5 0).toUInt16 <<< 8 ||| (body.getD 6 0).toUInt16 = crc :=
    ZmodemCRC.join_split crc
  rw [hpairs, hcrc, htake, if_pos rfl, emitHeader_body false htype, hplain]
  exact ⟨rfl, rfl⟩

/-- The end of the line aside, a hex header is one event. -/
theorem reads_hexHeader {h : ZHeader} (htype : h.type ≠ .abort ∧ h.type ≠ .can)
    (hplain : h.type.hasSubpackets = false) :
    Reads .rest (ZmodemEncoder.hexHeader h) [.header h] .rest := by
  have hreads := (readsAs_hexHeader htype hplain).reads
  rwa [List.filter_cons_of_pos rfl, filter_noise] at hreads

/-- The four bytes of a checksum, joined again. -/
theorem join_lowBytes (crc : UInt32) (bytes : List UInt8) (k : ℕ)
    (h : bytes.drop k = ZmodemEncoder.lowBytes 4 crc) :
    ZHeader.join (bytes.getD k 0) (bytes.getD (k + 1) 0) (bytes.getD (k + 2) 0)
      (bytes.getD (k + 3) 0) = crc := by
  have hget : ∀ i, bytes.getD (k + i) 0 = (ZmodemEncoder.lowBytes 4 crc).getD i 0 := by
    intro i
    rw [← h, List.getD_eq_getElem?_getD, List.getD_eq_getElem?_getD, List.getElem?_drop]
  rw [show bytes.getD k 0 = bytes.getD (k + 0) 0 from rfl, hget, hget, hget, hget,
    ZmodemEncoder.lowBytes_four]
  exact ZHeader.join_split crc

/-- A binary header with its own checksum is accepted. -/
theorem finishBinaryHeader_body {h : ZHeader} (hcrc32 : p.headerCRC32 = true)
    (hbytes : p.headerBytes = h.body ++ ZmodemEncoder.lowBytes 4 (ZmodemCRC.crc32 h.body)) :
    p.finishBinaryHeader = p.emitHeader h.body true := by
  have hjoin := join_lowBytes (ZmodemCRC.crc32 h.body) p.headerBytes 5 (by rw [hbytes]; rfl)
  have htake : p.headerBytes.take 5 = h.body := by
    rw [hbytes]
    rfl
  unfold finishBinaryHeader
  dsimp only
  rw [hjoin, htake, if_pos hcrc32, beq_self_eq_true, if_pos rfl, hcrc32]

/-- And so is a subpacket. -/
theorem finishSubpacket_ok (hcrc32 : p.subpacketCRC32 = true)
    (hbytes : p.crcBytes = ZmodemEncoder.lowBytes 4
      (ZmodemCRC.crc32 (p.subpacketData ++ [p.subpacketEnd.rawValue]))) :
    p.finishSubpacket = (if p.subpacketEnd.continues then p.beginSubpacket
      else { p with state := .idle }, [.data p.subpacketData p.subpacketEnd]) := by
  have hjoin := join_lowBytes _ p.crcBytes 0 hbytes
  unfold finishSubpacket
  dsimp only
  rw [hjoin, if_pos hcrc32, beq_self_eq_true, if_pos rfl]
  cases p.subpacketEnd <;> rfl

/-- The values a header and its checksum stand for. -/
def headerValues (h : ZHeader) : List UInt8 :=
  h.body ++ ZmodemEncoder.lowBytes 4 (ZmodemCRC.crc32 h.body)

/-- The values of a subpacket's checksum. -/
def checksumValues (data : List UInt8) (last : ZSubpacketEnd) : List UInt8 :=
  ZmodemEncoder.lowBytes 4 (ZmodemCRC.crc32 (data ++ [last.rawValue]))

/-- A subpacket has one byte less than it and its end. -/
theorem length_of_plain {ds : List Decoded} {d : Decoded} {bs : List UInt8}
    (h : ds ++ [d] = bs.map .plain) : ds.length + 1 = bs.length := by
  simpa using congrArg List.length h

/-- **A binary header** is read from what its bytes stand for. -/
theorem readsAs_header {h : ZHeader} (htype : h.type ≠ .abort ∧ h.type ≠ .can) {w u : List UInt8}
    {ds : List Decoded} {d : Decoded} (hw : Spells w ds) (hu : Symbol u d)
    (hvalues : ds ++ [d] = (headerValues h).map .plain) :
    ReadsAs .rest ([Zmodem.ZPAD, Zmodem.ZDLE, Zmodem.ZBIN32] ++ (w ++ u)) [.header h]
      (if h.type.hasSubpackets then .frame else .rest) := by
  intro p hp
  rw [run_append, run_openBin32 hp]
  dsimp only
  rw [run_header (by rfl) (by rfl) (by rfl) hw hu (length_of_plain hvalues), hvalues,
    map_value_plain, finishBinaryHeader_body (by rfl) (by rfl), emitHeader_body true htype]
  cases h.type.hasSubpackets with
  | true => exact ⟨rfl, rfl, rfl, rfl, rfl⟩
  | false => exact ⟨rfl, rfl⟩

/-- **A subpacket** is read from what its bytes stand for. -/
theorem readsAs_subpacket {data : List UInt8} {last : ZSubpacketEnd} {w u v x : List UInt8}
    {ds : List Decoded} {d : Decoded} (hw : Spells w (data.map .plain))
    (hu : Symbol u { terminator := some last }) (hv : Spells v ds) (hx : Symbol x d)
    (hvalues : ds ++ [d] = (checksumValues data last).map .plain) :
    ReadsAs .frame (w ++ u ++ (v ++ x)) [.data data last]
      (if last.continues then .frame else .rest) := by
  rintro p ⟨hstate, hescaped, hdata, hcrc32⟩
  rw [run_append, run_payload hstate hescaped hdata hw hu]
  dsimp only
  rw [run_checksum (by rfl) (by rfl) (by rfl) hv hx (by
    rw [hcrc32]
    exact length_of_plain hvalues), hvalues, map_value_plain,
    finishSubpacket_ok (by exact hcrc32) (by rfl)]
  dsimp only
  cases last with
  | go | query => exact ⟨rfl, rfl, rfl, rfl, hcrc32⟩
  | _ => exact ⟨rfl, rfl⟩

/-- What the encoder writes for values but the last, and for the last. -/
theorem escaped_split (bs : List UInt8) (hne : bs ≠ []) :
    ∃ (w u : List UInt8) (ds : List Decoded) (d : Decoded),
      bs.flatMap ZmodemEncoder.escaped = w ++ u ∧ Spells w ds ∧ Symbol u d
        ∧ ds ++ [d] = bs.map .plain := by
  obtain ⟨init, b, rfl⟩ := (List.eq_nil_or_concat bs).resolve_left hne
  refine ⟨_, _, _, _, ?_, spells_escaped init, symbol_escaped b, ?_⟩
  · rw [List.concat_eq_append, List.flatMap_append, List.flatMap_singleton]
  · rw [List.concat_eq_append, List.map_append, List.map_singleton]

/-- A binary header is its opening and its escaped values. -/
theorem bin32Header_eq (h : ZHeader) : ZmodemEncoder.bin32Header h =
    [Zmodem.ZPAD, Zmodem.ZDLE, Zmodem.ZBIN32] ++
      (headerValues h).flatMap ZmodemEncoder.escaped := by
  simp only [ZmodemEncoder.bin32Header, headerValues, List.flatMap_append, List.append_assoc]

/-- The bytes of a subpacket, an XON behind it aside. -/
def subpacketBytes (data : List UInt8) (last : ZSubpacketEnd) : List UInt8 :=
  data.flatMap ZmodemEncoder.escaped ++ [Zmodem.ZDLE, last.rawValue]
    ++ (checksumValues data last).flatMap ZmodemEncoder.escaped

/-- The XON behind a subpacket that waits for an answer. -/
def subpacketTail (last : ZSubpacketEnd) : List UInt8 := if last = .wait then [Zmodem.XON] else []

/-- A subpacket is its bytes, and what is behind them. -/
theorem dataSubpacket32_eq (data : List UInt8) (last : ZSubpacketEnd) :
    ZmodemEncoder.dataSubpacket32 data last = subpacketBytes data last ++ subpacketTail last := rfl

/-- What is behind them is noise. -/
theorem readsAs_subpacketTail (last : ZSubpacketEnd) :
    ReadsAs (if last.continues then .frame else .rest) (subpacketTail last)
      ((subpacketTail last).map .noise) (if last.continues then .frame else .rest) := by
  cases last with
  | wait => exact readsAs_noise _ (by decide +kernel)
  | _ => exact readsAs_nil _

/-- Binary headers of frames are read as they are, and leave the parser inside. -/
theorem reads_bin32Header {h : ZHeader} (htype : h.type ≠ .abort ∧ h.type ≠ .can)
    (hframe : h.type.hasSubpackets = true) :
    Reads .rest (ZmodemEncoder.bin32Header h) [.header h] .frame := by
  obtain ⟨w, u, ds, d, hbytes, hw, hu, hvalues⟩ :=
    escaped_split (headerValues h) (List.cons_ne_nil _ _)
  have hreads := (readsAs_header htype hw hu hvalues).reads
  rw [hframe] at hreads
  rw [bin32Header_eq, hbytes]
  exact hreads

/-- A subpacket inside a frame is read as its data, whatever the data. -/
theorem reads_dataSubpacket32 (data : List UInt8) (last : ZSubpacketEnd) :
    Reads .frame (ZmodemEncoder.dataSubpacket32 data last) [.data data last]
      (if last.continues then .frame else .rest) := by
  obtain ⟨v, x, ds, d, hbytes, hv, hx, hvalues⟩ :=
    escaped_split (checksumValues data last) (List.cons_ne_nil _ _)
  have hreads := ((readsAs_subpacket (spells_escaped data) (symbol_terminator last) hv hx
    hvalues).append (readsAs_subpacketTail last)).reads
  rw [List.filter_append, filter_noise] at hreads
  rw [dataSubpacket32_eq, subpacketBytes, hbytes]
  exact hreads

end ZmodemParser
