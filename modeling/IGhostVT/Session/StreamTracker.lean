import IGhostVT.Session.ReplayState

/-!
# Session/StreamTracker — reading a session's output a byte at a time

`TerminalStreamTracker` is the parser the replay is built on: the escape-sequence state machine, the
UTF-8 position, the ZMODEM phase, the terminal state the output leaves, and, while recording, the
stretches a replay leaves out.

Stream offsets are integers; `recent`, the last eight bytes, is kept newest first instead of packed
in a word.
-/

/-- Where the escape-sequence parser is. -/
inductive ParserState
  | ground
  | escape
  | escapeIntermediate
  | csiEntry
  | csiParam
  | csiIntermediate
  | csiIgnore
  | dcsEntry
  | dcsParam
  | dcsIntermediate
  | dcsPassthrough
  | dcsIgnore
  | oscString
  | apcString
deriving DecidableEq

/-- How a string ended: by a terminator, or cancelled by CAN, SUB or a C1 control. -/
inductive StringEnd
  | terminated
  | cancelled
deriving DecidableEq

/-- Where a ZMODEM conversation is: the data with the run of CAN just read, what follows a cancel,
or the ZFIN header and what follows it. -/
inductive ZmodemPhase
  | idle
  | data (cancels : ℕ)
  | afterCancel
  | finishHex
  | finishTrailer
  | finishFirstO
deriving DecidableEq

/-- What becomes of the kitty graphics transmission being read in chunks. -/
inductive KittyChain
  | none
  | keep
  | excise
deriving DecidableEq

/-- A stretch a replay leaves out, and what stands in its place. -/
structure Excision where
  lower : ℤ
  upper : ℤ
  replacement : List UInt8 := []
deriving DecidableEq

structure TerminalStreamTracker where
  terminal : TerminalReplayState := {}
  state : ParserState := .ground
  utf8Remaining : ℕ := 0
  utf8Lower : UInt8 := 0x80
  utf8Upper : UInt8 := 0xBF
  /-- Where the sequence being read began, in stream offsets. -/
  sequenceStart : ℤ := 0
  intermediates : List UInt8 := []
  params : List ℕ := []
  /-- Bit `i`: a colon, not a semicolon, followed parameter `i`. -/
  colons : ℕ := 0
  paramValue : ℕ := 0
  paramDigits : ℕ := 0
  paramsOverflowed : Bool := false
  /-- The bytes of the ESC or CSI being read. -/
  head : List UInt8 := []
  payload : List UInt8 := []
  payloadOverflowed : Bool := false
  dcsFinal : UInt8 := 0
  dcsIntermediates : List UInt8 := []
  /-- A string just left out ended at an ESC: the `\` after it goes with it. -/
  terminatorPending : Bool := false
  /-- The last eight bytes, newest first. -/
  recent : List UInt8 := List.replicate 8 0
  zmodem : ZmodemPhase := .idle
  zmodemStart : ℤ := 0
  /-- Progress through a shell's prompt mark, inside a conversation. -/
  promptMarkProgress : ℕ := 0
  kittyChain : KittyChain := .none
  excisions : Option (List Excision) := none
  /-- What stands in for the sequence being read if it is left out. -/
  sequenceStandIn : List UInt8 := []
deriving DecidableEq

namespace TerminalStreamTracker

def maximumParams : ℕ := 24
def maximumIntermediates : ℕ := 4
def maximumHead : ℕ := 64
def maximumPayload : ℕ := 4096

/-- Between sequences, between characters, and outside a transfer. -/
def isQuiescent (t : TerminalStreamTracker) : Bool :=
  t.state == .ground && t.utf8Remaining == 0 && t.zmodem == .idle

def isInZmodemConversation (t : TerminalStreamTracker) : Bool := t.zmodem != .idle

/-! ## Recording -/

/-- Records, from here on, the stretches a replay leaves out. -/
def beginRecording (t : TerminalStreamTracker) : TerminalStreamTracker :=
  { t with
    excisions := some []
    kittyChain := if t.kittyChain ≠ .none then .excise else t.kittyChain }

/-- One more excision, while recording. -/
def record (t : TerminalStreamTracker) (e : Excision) : TerminalStreamTracker :=
  { t with excisions := t.excisions.map (· ++ [e]) }

def excise (t : TerminalStreamTracker) (lower upper : ℤ) : TerminalStreamTracker :=
  if lower < upper then
    t.record ⟨lower, upper, if lower = t.sequenceStart then t.sequenceStandIn else []⟩
  else t

/-- The conversation goes, a CAN in its place. -/
def exciseConversation (t : TerminalStreamTracker) (finish : ℤ) : TerminalStreamTracker :=
  let lower := max t.zmodemStart 0
  if lower < finish then t.record ⟨lower, finish, [0x18]⟩ else t

/-- What was recorded, with a conversation still going at `finish` left out up to there. -/
def takeExcisions (t : TerminalStreamTracker) (finish : ℤ) : List Excision :=
  let t := if t.zmodem ≠ .idle then t.exciseConversation finish else t
  t.excisions.getD []

/-- What puts a parser where this one is. -/
def continuationPrefix (t : TerminalStreamTracker) : List UInt8 :=
  match t.state with
  | .ground => []
  | .escape | .escapeIntermediate | .csiEntry | .csiParam | .csiIntermediate =>
    if t.head.length < maximumHead then t.head else [0x1B, 0x5B, 0x3A]
  | .csiIgnore => [0x1B, 0x5B, 0x3A]
  | .dcsEntry | .dcsParam | .dcsIntermediate | .dcsPassthrough | .dcsIgnore => [0x1B, 0x50, 0x3A]
  | .oscString => [0x1B, 0x5D, 0x3B]
  | .apcString => [0x1B, 0x5F, 0x20]

/-! ## Parameters, payloads and strings -/

def clear (t : TerminalStreamTracker) : TerminalStreamTracker :=
  { t with
    intermediates := [], params := [], colons := 0
    paramValue := 0, paramDigits := 0, paramsOverflowed := false }

def collect (t : TerminalStreamTracker) (byte : UInt8) : TerminalStreamTracker :=
  if t.intermediates.length < maximumIntermediates then
    { t with intermediates := t.intermediates ++ [byte] }
  else t

/-- A separator ends the parameter being read; a digit goes on with it, saturating at `65535`. -/
def param (t : TerminalStreamTracker) (byte : UInt8) : TerminalStreamTracker :=
  if byte = 0x3B ∨ byte = 0x3A then
    if t.params.length < maximumParams then
      { t with
        colons := if byte = 0x3A then t.colons ||| (1 <<< t.params.length) else t.colons
        params := t.params ++ [t.paramValue], paramValue := 0, paramDigits := 0 }
    else { t with paramsOverflowed := true }
  else
    { t with
      paramValue := min (t.paramValue * 10 + digitValue byte) 65535
      paramDigits := t.paramDigits + 1 }

def appendPayload (t : TerminalStreamTracker) (byte : UInt8) : TerminalStreamTracker :=
  if t.payload.length < maximumPayload then { t with payload := t.payload ++ [byte] }
  else { t with payloadOverflowed := true }

def enterString (t : TerminalStreamTracker) (newState : ParserState) : TerminalStreamTracker :=
  { t with state := newState, payload := [], payloadOverflowed := false }

def hookDCS (t : TerminalStreamTracker) (final : UInt8) : TerminalStreamTracker :=
  { t with dcsFinal := final, dcsIntermediates := t.intermediates, state := .dcsPassthrough }

/-- `f` applied to the terminal. -/
def mapTerminal (t : TerminalStreamTracker) (f : TerminalReplayState → TerminalReplayState) :
    TerminalStreamTracker :=
  { t with terminal := f t.terminal }

/-! ## Strings -/

/-- The digits an OSC opens with: their value, read while it is below `100000`, and the rest. -/
def oscNumber (number : ℕ) : List UInt8 → ℕ × List UInt8
  | [] => (number, [])
  | b :: bs =>
    if isDigit b && number < 100000 then oscNumber (number * 10 + digitValue b) bs
    else (number, b :: bs)

/-- `split(separator:omittingEmptySubsequences: false)`. -/
def splitKeeping (separator : UInt8) (bs : List UInt8) : List (List UInt8) :=
  bs.splitOn separator

/-- `split(separator:)`, empty pieces dropped. -/
def splitDropping (separator : UInt8) (bs : List UInt8) : List (List UInt8) :=
  (splitKeeping separator bs).filter fun piece => !piece.isEmpty

/-- `UInt16(String(decoding: …))`. -/
def readUInt16 (text : List UInt8) : Option ℕ := (parseInteger 0 65535 text).map Int.toNat

/-- `Int(String(decoding: …))`. -/
def readInt (text : List UInt8) : Option ℤ :=
  parseInteger (-9223372036854775808) 9223372036854775807 text

/-- The `index;spec` pairs of an OSC 4 before the first question, and whether there was one. -/
def palettePairs : List (List UInt8) → List (ℕ × List UInt8) × Bool
  | index :: spec :: fields =>
    if spec = [0x3F] then ([], true)
    else
      let (pairs, asks) := palettePairs fields
      match (readUInt16 index).filter (· ≤ 255) with
      | some color => ((color, spec) :: pairs, asks)
      | none => (pairs, asks)
  | _ => ([], false)

/-- OSC 4: a question leaves the whole sequence out, and nothing in it is kept. -/
def applyPalette (s : TerminalReplayState) (body : List UInt8) (complete : Bool) :
    TerminalReplayState × Bool :=
  let (pairs, asks) := palettePairs (splitKeeping 0x3B body)
  if asks then (s, true)
  else if complete then
    ({ s with palette := pairs.foldl (fun p e => p.insert e.1 e.2) s.palette }, false)
  else (s, false)

/-- The specs of an OSC 10–19, one per colour from `first` on. -/
def setDynamicColors (colors : Dict ℕ (List UInt8)) (first : ℕ) :
    List (List UInt8) → Dict ℕ (List UInt8)
  | [] => colors
  | spec :: specs =>
    setDynamicColors
      (if first ≤ 9 ∧ spec ≠ [] then colors.insert first spec else colors) (first + 1) specs

/-- OSC 10–19. -/
def applyDynamicColors (s : TerminalReplayState) (first : ℕ) (body : List UInt8) (complete : Bool) :
    TerminalReplayState × Bool :=
  let specs := splitKeeping 0x3B body
  if specs.contains [0x3F] then (s, true)
  else if complete then
    ({ s with dynamicColors := setDynamicColors s.dynamicColors first specs }, false)
  else (s, false)

/-- What an OSC `number` does, and whether a replay leaves it out. -/
def applyOSC (s : TerminalReplayState) (number : ℕ) (hasSemicolon : Bool) (body : List UInt8)
    (complete : Bool) : TerminalReplayState × Bool :=
  if number = 0 ∨ number = 2 then
    (if complete && hasSemicolon then { s with title := some body } else s, false)
  else if number = 4 then applyPalette s body complete
  else if number = 5 ∨ number = 21 then (s, body.contains 0x3F)
  else if number = 7 then
    (if complete && hasSemicolon then { s with workingDirectory := some body } else s, false)
  else if number = 8 then
    (if complete && hasSemicolon then
      -- `params;uri`, an empty uri ending the link.
      s.setHyperlink
        (if body.idxOf 0x3B + 1 < body.length then some body else none)
    else s, false)
  else if number = 9 then (s, !([0x34, 0x3B].isPrefixOf body))
  else if 10 ≤ number ∧ number ≤ 19 then applyDynamicColors s (number - 10) body complete
  else if number ∈ [52, 72, 99, 777, 5522] then (s, true)
  else if number = 104 then
    (if body.isEmpty then { s with palette := ∅ }
    else
      { s with
        palette :=
          ((splitDropping 0x3B body).filterMap readUInt16).foldl (fun p i => p.erase i) s.palette },
      false)
  else if 110 ≤ number ∧ number ≤ 119 then
    ({ s with dynamicColors := s.dynamicColors.insert (number - 110) [] }, false)
  else if number = 1337 then
    (s, (ascii "Copy").isPrefixOf body || (ascii "Report").isPrefixOf body)
  else (s, false)

/-- A finished OSC: its effect, and whether a replay leaves it out.  One cancelled is dropped. -/
def finishOSC (t : TerminalStreamTracker) (finish : StringEnd) : TerminalStreamTracker × Bool :=
  if finish ≠ .terminated then (t, false)
  else
    let (number, rest) := oscNumber 0 t.payload
    if rest.length = t.payload.length then (t, false)
    else
      let hasSemicolon := rest.head? == some 0x3B
      let body := if hasSemicolon then rest.tail else []
      let (terminal, leaveOut) :=
        applyOSC t.terminal number hasSemicolon body (!t.payloadOverflowed)
      ({ t with terminal := terminal }, leaveOut)

/-- DECRQSS and XTGETTCAP are questions. -/
def finishDCS (t : TerminalStreamTracker) : Bool :=
  t.dcsFinal == 0x71 && (t.dcsIntermediates == [0x24] || t.dcsIntermediates == [0x2B])

/-- The keys of a kitty graphics command, the last of each standing, and its action. -/
def kittyKeys (pairs : List (List UInt8)) : (UInt8 → Option ℤ) × UInt8 :=
  pairs.foldl (fun (keys, action) pair =>
    match pair with
    | key :: 0x3D :: character :: value =>
      if key = 0x61 then (keys, character)
      else
        match readInt (character :: value) with
        | some number => (Function.update keys key (some number), action)
        | none => (keys, action)
    | _ => (keys, action)) (fun _ => none, 0x74)

/-- A kitty graphics command is answered unless it is quiet or names no image, and a transmission in
chunks by its first chunk's keys: the chain is kept or left out whole. -/
def finishAPC (t : TerminalStreamTracker) : TerminalStreamTracker × Bool :=
  match t.payload with
  | 0x47 :: rest =>
    let (keys, action) := kittyKeys (splitDropping 0x2C (rest.takeWhile (· ≠ 0x3B)))
    let more := keys 0x6D == some 1
    let leaveOut :=
      match t.kittyChain with
      | .keep => false
      | .excise => true
      | .none =>
        let quiet := (keys 0x71).getD 0
        let names := (keys 0x69).getD 0 ≠ 0 ∨ (keys 0x49).getD 0 ≠ 0
        quiet < 2 ∧ (names ∨ action = 0x71)
    ({ t with kittyChain := if more then (if leaveOut then .excise else .keep) else .none },
      leaveOut)
  | _ => ({ t with kittyChain := .none }, false)

/-! ## ESC and CSI -/

/-- ST: the rest of a string left out goes with it. -/
def stringTerminator (t : TerminalStreamTracker) (offset : ℤ) : TerminalStreamTracker :=
  { t with
    excisions :=
      if t.terminatorPending then
        t.excisions.map fun es =>
          match es.getLast? with
          | some last => es.dropLast ++ [{ last with upper := max last.upper (offset + 1) }]
          | none => es
      else t.excisions
    terminatorPending := false }

/-- The charset slot an intermediate designates. -/
def charsetSlot (intermediate : UInt8) : Option (Fin 4) :=
  if intermediate = 0x28 then some 0
  else if intermediate = 0x29 then some 1
  else if intermediate = 0x2A then some 2
  else if intermediate = 0x2B then some 3
  else none

def escapeDispatch (t : TerminalStreamTracker) (final : UInt8) (offset : ℤ) :
    TerminalStreamTracker :=
  if final = 0x5C ∧ t.intermediates = [] then t.stringTerminator offset
  else
    let t := { t with terminatorPending := false }
    match t.intermediates with
    | [intermediate] =>
      match charsetSlot intermediate with
      | some slot =>
        if final = 0x42 ∨ final = 0x41 ∨ final = 0x30 then
          t.mapTerminal fun s => s.designateCharset slot final
        else t
      | none => t
    | [] =>
      if final = 0x37 then t.mapTerminal fun s => s.saveCursor
      else if final = 0x38 then t.mapTerminal fun s => s.restoreCursor
      else if final = 0x3D then t.mapTerminal fun s => s.setDECMode 66 true
      else if final = 0x3E then t.mapTerminal fun s => s.setDECMode 66 false
      else if final = 0x5A then t.excise t.sequenceStart (offset + 1)
      else if final = 0x63 then t.mapTerminal fun s => s.fullReset
      else if final = 0x6E then t.mapTerminal fun s => s.invokeCharset (some 2) none
      else if final = 0x6F then t.mapTerminal fun s => s.invokeCharset (some 3) none
      else if final = 0x7E then t.mapTerminal fun s => s.invokeCharset none (some 1)
      else if final = 0x7D then t.mapTerminal fun s => s.invokeCharset none (some 2)
      else if final = 0x7C then t.mapTerminal fun s => s.invokeCharset none (some 3)
      else t
    | _ => t

/-- The parameters as bytes, `separators` saying which were followed by a colon. -/
def serializeFrom (colons : ℕ) (index : ℕ) : List ℕ → List UInt8
  | [] => []
  | value :: values =>
    (if index = 0 then [] else [if colons.testBit (index - 1) then 0x3A else 0x3B])
      ++ decimal value ++ serializeFrom colons (index + 1) values

def serializedParams (t : TerminalStreamTracker) : List UInt8 := serializeFrom t.colons 0 t.params

/-- `CSI m` and `CSI 0 m` reset the pen; a sequence that opens with a reset replaces it. -/
def applySGR (t : TerminalStreamTracker) : TerminalStreamTracker :=
  t.mapTerminal fun s =>
    s.applySGR t.serializedParams (t.params = [] ∨ t.params = [0])
      (t.params.head? = some 0 ∧ t.colons.testBit 0 = false)

/-- `ESC [ … final`, the parameters complete. -/
def csiApply (t : TerminalStreamTracker) (final : UInt8) (offset : ℤ) : TerminalStreamTracker :=
  let bare := t.intermediates = []
  let leaveOut := t.excise t.sequenceStart (offset + 1)
  let first := t.params.head?.getD 0
  if final = 0x68 ∨ final = 0x6C then
    let enabled := final == 0x68
    if t.intermediates = [0x3F] then
      t.mapTerminal fun s => t.params.foldl (fun s mode => s.setDECMode mode enabled) s
    else if bare then
      t.mapTerminal fun s => t.params.foldl (fun s mode => s.setANSIMode mode enabled) s
    else t
  else if final = 0x6D then
    if bare then t.applySGR
    else if t.intermediates = [0x3E] then
      t.mapTerminal fun s =>
        { s with modifyKeyFormat := some (ascii ">" ++ t.serializedParams ++ [0x6D]) }
    else if t.intermediates = [0x3F] then leaveOut
    else t
  else if final = 0x6E then
    if bare ∨ t.intermediates = [0x3F] then leaveOut
    else if t.intermediates = [0x3E] then
      t.mapTerminal fun s =>
        { s with modifyKeyFormat := some (ascii ">" ++ t.serializedParams ++ [0x6E]) }
    else t
  else if final = 0x63 then
    if bare ∨ t.intermediates = [0x3E] ∨ t.intermediates = [0x3D] then leaveOut else t
  else if final = 0x70 then
    if t.intermediates = [0x21] ∧ t.params = [] then t.mapTerminal fun s => s.softReset
    else if t.intermediates = [0x24] ∨ t.intermediates = [0x3F, 0x24] then leaveOut
    else t
  else if final = 0x71 then
    if t.intermediates = [0x20] then
      if t.params.length ≤ 1 then t.mapTerminal fun s => { s with cursorStyle := some first } else t
    else if t.intermediates = [0x3E] then leaveOut
    else t
  else if final = 0x72 then
    if bare then
      if t.params.length ≤ 2 then
        t.mapTerminal fun s =>
          s.setScrollRegion first (if t.params.length = 2 then t.params[1]?.getD 0 else 0)
      else t
    else if t.intermediates = [0x3F] then
      t.mapTerminal fun s => t.params.foldl (fun s mode => s.restoreDECMode mode) s
    else t
  else if final = 0x73 then
    if bare ∧ t.params = [] ∧ t.terminal.decMode 69 = false then t.mapTerminal fun s => s.saveCursor
    else if t.intermediates = [0x3F] then
      t.mapTerminal fun s => t.params.foldl (fun s mode => s.saveDECMode mode) s
    else t
  else if final = 0x74 then
    if bare ∧ first ∈ [11, 13, 14, 15, 16, 18, 19, 20, 21] then leaveOut else t
  else if final = 0x75 then
    if bare then t.mapTerminal fun s => s.restoreCursor
    else if t.intermediates = [0x3F] then leaveOut
    else if t.intermediates = [0x3E] then
      if t.params = [] then t.mapTerminal fun s => s.kittyPush 0
      else if t.params.length = 1 ∧ first ≤ 31 then
        t.mapTerminal fun s => s.kittyPush (UInt8.ofNat first)
      else t
    else if t.intermediates = [0x3C] then
      t.mapTerminal fun s => s.kittyPop (if t.params.length = 1 then first else 1)
    else if t.intermediates = [0x3D] then
      let mode := if 2 ≤ t.params.length then t.params[1]?.getD 0 else 1
      if first ≤ 31 ∧ 1 ≤ mode ∧ mode ≤ 3 then
        t.mapTerminal fun s => s.kittySet (UInt8.ofNat first) mode
      else t
    else t
  else if final = 0x78 then
    if bare then leaveOut else t
  else if final = 0x79 then
    if t.intermediates = [0x2A] then leaveOut else t
  else t

def csiDispatch (t : TerminalStreamTracker) (final : UInt8) (offset : ℤ) : TerminalStreamTracker :=
  let t := { t with terminatorPending := false }
  if t.paramsOverflowed ∨ maximumParams ≤ t.params.length then t
  else
    let t := if 0 < t.paramDigits then { t with params := t.params ++ [t.paramValue] } else t
    if final ≠ 0x6D ∧ t.colons ≠ 0 then t else t.csiApply final offset

/-! ## Sequences -/

/-- A C0 control executed, in the ground state or inside a sequence. -/
def execute (t : TerminalStreamTracker) (byte : UInt8) (offset : ℤ) : TerminalStreamTracker :=
  if byte = 0x05 then t.excise offset (offset + 1)
  else if byte = 0x0E then t.mapTerminal fun s => s.invokeCharset (some 1) none
  else if byte = 0x0F then t.mapTerminal fun s => s.invokeCharset (some 0) none
  else t

/-- ESC from the ground state. -/
def enter (t : TerminalStreamTracker) (newState : ParserState) (offset : ℤ) :
    TerminalStreamTracker :=
  { ({ t with
      terminatorPending := false
      sequenceStandIn := []
      state := newState
      sequenceStart := offset } : TerminalStreamTracker).clear with head := [0x1B] }

/-- The string being read, finished: the tracker after it, and whether a replay leaves it out. -/
def finishString (t : TerminalStreamTracker) (finish : StringEnd) : TerminalStreamTracker × Bool :=
  match t.state with
  | .oscString => t.finishOSC finish
  | .dcsPassthrough => (t, t.finishDCS)
  | .apcString => t.finishAPC
  | _ => (t, false)

/-- The states whose bytes are a string's. -/
def isString (state : ParserState) : Bool :=
  state = .oscString ∨ state = .dcsPassthrough ∨ state = .dcsIgnore ∨ state = .apcString

/-- Where a sequence that a shared transition begins starts off. -/
def beginSequence (t : TerminalStreamTracker) (newState : ParserState) (offset : ℤ) :
    TerminalStreamTracker :=
  let t := { t with state := newState }
  if newState = .ground then t
  else
    let t := ({ t with sequenceStart := offset } : TerminalStreamTracker).clear
    match newState with
    | .csiEntry => { t with head := [0x1B, 0x5B] }
    | .oscString | .apcString =>
      ({ t with head := [0x1B] } : TerminalStreamTracker).enterString newState
    | _ => { t with head := [0x1B] }

/-- Leaves the state through a transition every state shares: the string being read ends here, and
the next sequence, if any, begins at this byte. -/
def leave (t : TerminalStreamTracker) (newState : ParserState) (finish : StringEnd) (offset : ℤ) :
    TerminalStreamTracker :=
  let wasString := isString t.state
  let wasGround := t.state == .ground
  let (t, leftOut) :=
    ({ t with terminatorPending := false } : TerminalStreamTracker).finishString finish
  let t :=
    if leftOut then
      -- An ESC is the start of `ESC \`, and its `\` goes too.
      let endsAtEscape := newState == .escape
      { t.excise t.sequenceStart (if endsAtEscape then offset else offset + 1) with
        terminatorPending := endsAtEscape }
    else t
  let standIn : List UInt8 :=
    if wasString then (if leftOut then [] else [0x1B, 0x5C]) else (if wasGround then [] else [0x18])
  ({ t with sequenceStandIn := standIn } : TerminalStreamTracker).beginSequence newState offset

/-- The transitions every state shares; a byte that is none of them leaves the state. -/
def anywhere (t : TerminalStreamTracker) (byte : UInt8) (offset : ℤ) : TerminalStreamTracker :=
  if byte = 0x18 ∨ byte = 0x1A then t.leave .ground .cancelled offset
  else if (0x80 ≤ byte ∧ byte ≤ 0x8F) ∨ (0x91 ≤ byte ∧ byte ≤ 0x97) ∨ byte = 0x99 ∨ byte = 0x9A then
    t.leave .ground .cancelled offset
  else if byte = 0x9C then t.leave .ground .terminated offset
  else if byte = 0x1B then t.leave .escape .terminated offset
  else if byte = 0x98 ∨ byte = 0x9E ∨ byte = 0x9F then t.leave .apcString .cancelled offset
  else if byte = 0x9B then t.leave .csiEntry .cancelled offset
  else if byte = 0x90 then t.leave .dcsEntry .cancelled offset
  else if byte = 0x9D then t.leave .oscString .cancelled offset
  else t

/-! ## Ground -/

/-- A byte from `0x80` on, read as the lead of a character. -/
def utf8Lead (t : TerminalStreamTracker) (byte : UInt8) : TerminalStreamTracker :=
  if 0xC2 ≤ byte ∧ byte ≤ 0xDF then { t with utf8Remaining := 1 }
  else if byte = 0xE0 then { t with utf8Remaining := 2, utf8Lower := 0xA0 }
  else if (0xE1 ≤ byte ∧ byte ≤ 0xEC) ∨ byte = 0xEE ∨ byte = 0xEF then { t with utf8Remaining := 2 }
  else if byte = 0xED then { t with utf8Remaining := 2, utf8Upper := 0x9F }
  else if byte = 0xF0 then { t with utf8Remaining := 3, utf8Lower := 0x90 }
  else if 0xF1 ≤ byte ∧ byte ≤ 0xF3 then { t with utf8Remaining := 3 }
  else if byte = 0xF4 then { t with utf8Remaining := 3, utf8Upper := 0x8F }
  else t

/-- A byte read in the ground state, no character before it left to finish. -/
def groundByte (t : TerminalStreamTracker) (interruptsCharacter : Bool) (byte : UInt8)
    (offset : ℤ) :
    TerminalStreamTracker :=
  if byte = 0x1B then
    { t.enter .escape offset with sequenceStandIn := if interruptsCharacter then [0x18] else [] }
  else if byte = 0x05 ∧ interruptsCharacter then t.record ⟨offset, offset + 1, [0x18]⟩
  else if byte ≤ 0x1F then t.execute byte offset
  else if byte ≤ 0x7F then t
  else t.utf8Lead byte

/-- The character position back between characters. -/
def resetUtf8 (t : TerminalStreamTracker) : TerminalStreamTracker :=
  { t with utf8Remaining := 0, utf8Lower := 0x80, utf8Upper := 0xBF }

def ground (t : TerminalStreamTracker) (byte : UInt8) (offset : ℤ) : TerminalStreamTracker :=
  if 0 < t.utf8Remaining then
    if t.utf8Lower ≤ byte ∧ byte ≤ t.utf8Upper then
      { t with utf8Remaining := t.utf8Remaining - 1, utf8Lower := 0x80, utf8Upper := 0xBF }
    else t.resetUtf8.groundByte true byte offset
  else t.groundByte false byte offset

/-! ## The sequence states -/

def isExecutedInSequence (byte : UInt8) : Bool :=
  byte ≤ 0x17 || byte == 0x19 || (0x1C ≤ byte && byte ≤ 0x1F)

/-- `byte` in the state's own rows of the table, after `head` took it. -/
def sequenceByte (t : TerminalStreamTracker) (byte : UInt8) (offset : ℤ) : TerminalStreamTracker :=
  match t.state with
  | .ground => t.ground byte offset
  | .escape =>
    if isExecutedInSequence byte then t.execute byte offset
    else if byte = 0x7F then t
    else if 0x20 ≤ byte ∧ byte ≤ 0x2F then { t.collect byte with state := .escapeIntermediate }
    else if byte = 0x5B then { t with state := .csiEntry }
    else if byte = 0x5D then t.enterString .oscString
    else if byte = 0x50 then { t with state := .dcsEntry }
    else if byte = 0x58 ∨ byte = 0x5E ∨ byte = 0x5F then t.enterString .apcString
    else if 0x30 ≤ byte ∧ byte ≤ 0x7E then
      ({ t with state := .ground } : TerminalStreamTracker).escapeDispatch byte offset
    else t.anywhere byte offset
  | .escapeIntermediate =>
    if isExecutedInSequence byte then t.execute byte offset
    else if 0x20 ≤ byte ∧ byte ≤ 0x2F then t.collect byte
    else if byte = 0x7F then t
    else if 0x30 ≤ byte ∧ byte ≤ 0x7E then
      ({ t with state := .ground } : TerminalStreamTracker).escapeDispatch byte offset
    else t.anywhere byte offset
  | .csiEntry =>
    if isExecutedInSequence byte then t.execute byte offset
    else if byte = 0x7F then t
    else if 0x40 ≤ byte ∧ byte ≤ 0x7E then
      ({ t with state := .ground } : TerminalStreamTracker).csiDispatch byte offset
    else if byte = 0x3A then { t with state := .csiIgnore }
    else if 0x20 ≤ byte ∧ byte ≤ 0x2F then { t.collect byte with state := .csiIntermediate }
    else if (0x30 ≤ byte ∧ byte ≤ 0x39) ∨ byte = 0x3B then { t.param byte with state := .csiParam }
    else if 0x3C ≤ byte ∧ byte ≤ 0x3F then { t.collect byte with state := .csiParam }
    else t.anywhere byte offset
  | .csiParam =>
    if isExecutedInSequence byte then t.execute byte offset
    else if 0x30 ≤ byte ∧ byte ≤ 0x3B then t.param byte
    else if byte = 0x7F then t
    else if 0x40 ≤ byte ∧ byte ≤ 0x7E then
      ({ t with state := .ground } : TerminalStreamTracker).csiDispatch byte offset
    else if 0x3C ≤ byte ∧ byte ≤ 0x3F then { t with state := .csiIgnore }
    else if 0x20 ≤ byte ∧ byte ≤ 0x2F then { t.collect byte with state := .csiIntermediate }
    else t.anywhere byte offset
  | .csiIntermediate =>
    if isExecutedInSequence byte then t.execute byte offset
    else if 0x20 ≤ byte ∧ byte ≤ 0x2F then t.collect byte
    else if byte = 0x7F then t
    else if 0x40 ≤ byte ∧ byte ≤ 0x7E then
      ({ t with state := .ground } : TerminalStreamTracker).csiDispatch byte offset
    else if 0x30 ≤ byte ∧ byte ≤ 0x3F then { t with state := .csiIgnore }
    else t.anywhere byte offset
  | .csiIgnore =>
    if isExecutedInSequence byte then t.execute byte offset
    else if 0x40 ≤ byte ∧ byte ≤ 0x7E then { t with state := .ground }
    else if 0x80 ≤ byte then t.anywhere byte offset
    else t
  | .dcsEntry =>
    if isExecutedInSequence byte ∨ byte = 0x7F then t
    else if 0x20 ≤ byte ∧ byte ≤ 0x2F then { t.collect byte with state := .dcsIntermediate }
    else if byte = 0x3A then { t with state := .dcsIgnore }
    else if (0x30 ≤ byte ∧ byte ≤ 0x39) ∨ byte = 0x3B then { t.param byte with state := .dcsParam }
    else if 0x3C ≤ byte ∧ byte ≤ 0x3F then { t.collect byte with state := .dcsParam }
    else if 0x40 ≤ byte ∧ byte ≤ 0x7E then t.hookDCS byte
    else t.anywhere byte offset
  | .dcsParam =>
    if isExecutedInSequence byte ∨ byte = 0x7F then t
    else if (0x30 ≤ byte ∧ byte ≤ 0x39) ∨ byte = 0x3B then t.param byte
    else if byte = 0x3A ∨ (0x3C ≤ byte ∧ byte ≤ 0x3F) then { t with state := .dcsIgnore }
    else if 0x20 ≤ byte ∧ byte ≤ 0x2F then { t.collect byte with state := .dcsIntermediate }
    else if 0x40 ≤ byte ∧ byte ≤ 0x7E then t.hookDCS byte
    else t.anywhere byte offset
  | .dcsIntermediate =>
    if isExecutedInSequence byte ∨ byte = 0x7F then t
    else if 0x20 ≤ byte ∧ byte ≤ 0x2F then t.collect byte
    else if 0x30 ≤ byte ∧ byte ≤ 0x3F then { t with state := .dcsIgnore }
    else if 0x40 ≤ byte ∧ byte ≤ 0x7E then t.hookDCS byte
    else t.anywhere byte offset
  | .dcsPassthrough | .dcsIgnore => t
  | .oscString =>
    if byte = 0x07 then t.leave .ground .terminated offset
    else if 0x20 ≤ byte then t.appendPayload byte
    else t
  | .apcString =>
    if byte < 0x80 then t.appendPayload byte
    else if byte ≤ 0x9F then t.anywhere byte offset
    else t

def sequence (t : TerminalStreamTracker) (byte : UInt8) (offset : ℤ) : TerminalStreamTracker :=
  -- No state claims CAN, SUB or ESC for itself.
  if byte = 0x18 ∨ byte = 0x1A ∨ byte = 0x1B then t.anywhere byte offset
  else
    ({ t with head := if t.head.length < maximumHead then t.head ++ [byte] else t.head } :
      TerminalStreamTracker).sequenceByte byte offset

/-! ## ZMODEM -/

def beginZmodem (t : TerminalStreamTracker) (start : ℤ) : TerminalStreamTracker :=
  ({ t.resetUtf8 with
    zmodem := .data 0
    zmodemStart := start
    promptMarkProgress := 0
    state := .ground
    terminatorPending := false } : TerminalStreamTracker).clear

def endZmodem (t : TerminalStreamTracker) (offset : ℤ) : TerminalStreamTracker :=
  { t.exciseConversation offset with zmodem := .idle, recent := List.replicate 8 0 }

/-- `ESC ] 1 3 3 ;`, which a shell's prompt marks open with. -/
def promptMark : List UInt8 := [0x1B, 0x5D, 0x31, 0x33, 0x33, 0x3B]

/-- The mark's next byte, read: the progress, and whether a prompt or a finished command is
marked. -/
def trackPromptMark (t : TerminalStreamTracker) (byte : UInt8) : TerminalStreamTracker × Bool :=
  let complete := t.promptMarkProgress = promptMark.length
  if complete ∧ (byte = 0x41 ∨ byte = 0x44) then ({ t with promptMarkProgress := 0 }, true)
  else
    let progress := if complete then 0 else t.promptMarkProgress
    ({ t with
      promptMarkProgress :=
        if promptMark[progress]? = some byte then progress + 1 else if byte = 0x1B then 1 else 0 },
      false)

/-- One byte of a conversation; `again` reads it once more where the data turns out to be over. -/
def stepZmodemWith (again : TerminalStreamTracker → TerminalStreamTracker)
    (t : TerminalStreamTracker) (byte : UInt8) (offset : ℤ) : TerminalStreamTracker :=
  let (t, marked) := t.trackPromptMark byte
  if marked then
    -- The shell is drawing its prompt: the conversation ended before the mark began, and the
    -- parser is inside the mark.
    let t := ({ t.endZmodem (offset - 6) with sequenceStart := offset - 6 } :
      TerminalStreamTracker).clear
    { ({ t with head := [0x1B] } : TerminalStreamTracker).enterString .oscString with
      payload := ascii "133;" ++ [byte] }
  else
    match t.zmodem with
    | .idle => t
    | .data cancels =>
      if byte = 0x18 then { t with zmodem := .data (cancels + 1) }
      else if 5 ≤ cancels then again { t with zmodem := .afterCancel }
      else if t.recent.take 6 =
        [0x38, 0x30, 0x42, 0x18, 0x2A, 0x2A] then { t with zmodem := .finishHex }
      else { t with zmodem := .data 0 }
    | .afterCancel => if byte ≠ 0x08 then (t.endZmodem offset).ground byte offset else t
    | .finishHex => if byte = 0x0D then { t with zmodem := .finishTrailer } else t
    | .finishTrailer =>
      if byte = 0x0A ∨ byte = 0x8A ∨ byte = 0x11 ∨ byte = 0x0D then t
      else if byte = 0x4F then { t with zmodem := .finishFirstO }
      else (t.endZmodem offset).ground byte offset
    | .finishFirstO =>
      if byte = 0x4F then t.endZmodem (offset + 1)
      else ((t.endZmodem (offset - 1)).ground 0x4F (offset - 1)).ground byte offset

/-- A byte after a run of CAN is read again from behind the cancel, and no further. -/
def stepZmodem (t : TerminalStreamTracker) (byte : UInt8) (offset : ℤ) : TerminalStreamTracker :=
  t.stepZmodemWith (fun t => t.stepZmodemWith id byte offset) byte offset

/-! ## Reading -/

def pushRecent (recent : List UInt8) (byte : UInt8) : List UInt8 := byte :: recent.take 7

/-- `**` ZDLE `B`, newest byte first: a hex header, the start of every conversation. -/
def zmodemHeader : List UInt8 := [0x42, 0x18, 0x2A, 0x2A]

def step (t : TerminalStreamTracker) (byte : UInt8) (offset : ℤ) : TerminalStreamTracker :=
  let t := { t with recent := pushRecent t.recent byte }
  if t.zmodem ≠ .idle then t.stepZmodem byte offset
  else if t.recent.take 4 = zmodemHeader then
    -- With sz's "rz\r" before it when sz is the one starting it.
    t.beginZmodem
      (if (t.recent.drop 4).take 3 = [0x0D, 0x7A, 0x72] then offset - 6 else offset - 3)
  else if t.state = .ground then t.ground byte offset
  else t.sequence byte offset

/-- Text and the controls that change nothing kept here. -/
def isPlain (byte : UInt8) : Bool :=
  (0x20 ≤ byte && byte < 0x7F) ||
    (byte < 0x20 && byte != 0x05 && byte != 0x0E && byte != 0x0F && byte != 0x18 && byte != 0x1B)

/-- The plain bytes run straight through, when the tracker stands where they change nothing. -/
def fastPath (t : TerminalStreamTracker) (bytes : List UInt8) :
    TerminalStreamTracker × List UInt8 :=
  if t.zmodem = .idle ∧ t.state = .ground ∧ t.utf8Remaining = 0 ∧ t.recent.head? ≠ some 0x18 then
    let run := bytes.takeWhile isPlain
    ({ t with recent := (run.drop (run.length - 8)).foldl pushRecent t.recent },
      bytes.drop run.length)
  else (t, bytes)

/-- `consume`'s loop, `fuel` bounding its rounds. -/
def consumeLoop : ℕ → TerminalStreamTracker → List UInt8 → ℤ → TerminalStreamTracker
  | 0, t, _, _ => t
  | fuel + 1, t, bytes, offset =>
    let (t, rest) := t.fastPath bytes
    match rest with
    | [] => t
    | byte :: rest =>
      let here := offset + (bytes.length - rest.length - 1 : ℕ)
      consumeLoop fuel (t.step byte here) rest (here + 1)

def consume (t : TerminalStreamTracker) (bytes : List UInt8) (base : ℤ) : TerminalStreamTracker :=
  consumeLoop bytes.length t bytes base

/-- The bytes stepped one at a time, without the fast path. -/
def run (t : TerminalStreamTracker) : List UInt8 → ℤ → TerminalStreamTracker
  | [], _ => t
  | byte :: bytes, offset => run (t.step byte offset) bytes (offset + 1)

end TerminalStreamTracker
