import IGhostVT.Lib.Checked
import IGhostVT.Lib.Format

/-!
# Relay/ClientHello — the host id in the one record a data connection opens with

The relay reads one TLS record from a stranger and parses as far as the `server_name` extension.  A
computation is an `Option`, and nothing when a subscript or a slice is out of range; what it refuses
is an `Except`.  A nil slice is a nothing of its own: it is how a reader says that it has gone bad.

`lowerRune` is the letter table behind `strings.ToLower`.
-/

namespace ClientHello

/-- The largest record body. -/
def maxRecord : ℕ := 16384

def recordHandshake : UInt8 := 0x16
def handshakeHello : UInt8 := 0x01
def extServerName : ℤ := 0x0000
def nameTypeHostName : ℤ := 0x00

inductive Error
  | notHandshake
  | recordSize
  | notHello
  | spansRecords
  | malformed
  | noSNI
  | manyNames
  | notHostID
  /-- The stream ended before the first byte, or after it. -/
  | eof
  | unexpectedEOF
  /-- The stream broke. -/
  | broken
deriving DecidableEq

/-! ## Reading a record -/

/-- A stream: what the reads to come find, and whether it then ends or breaks. -/
structure Stream where
  chunks : List (List UInt8)
  breaks : Bool := false
deriving DecidableEq

/-- All that is still to come. -/
def Stream.bytes (s : Stream) : List UInt8 := s.chunks.flatten

/-- `io.ReadFull` for `need` more bytes, some read already or none. -/
def readFull (breaks some : Bool) :
    ℕ → List (List UInt8) → Except Error (List UInt8) × List (List UInt8)
  | 0, chunks => (.ok [], chunks)
  | _ + 1, [] => (.error (if breaks then .broken else if some then .unexpectedEOF else .eof), [])
  | need + 1, chunk :: chunks =>
    if need + 1 < chunk.length then (.ok (chunk.take (need + 1)), chunk.drop (need + 1) :: chunks)
    else
      let (result, left) :=
        readFull breaks (some || !chunk.isEmpty) (need + 1 - chunk.length) chunks
      (result.map (chunk ++ ·), left)

/-- `binary.BigEndian.Uint16(b)`. -/
def uint16 (b : List UInt8) : Option ℤ := do
  let lo ← Checked.get b 1
  let hi ← Checked.get b 0
  return hi.toNat * 256 + lo.toNat

/-- The record, header included, and the stream behind it. -/
def readRecord (r : Stream) : Option (Except Error (List UInt8) × Stream) :=
  match readFull r.breaks false 5 r.chunks with
  | (.error e, left) => some (.error e, { r with chunks := left })
  | (.ok header, left) => do
    let r := { r with chunks := left }
    if (← Checked.get header 0) ≠ recordHandshake then return (.error .notHandshake, r)
    else
      let n ← uint16 (← Checked.slice header 3 5)
      if n = 0 ∨ n > maxRecord then return (.error .recordSize, r)
      else
        match readFull r.breaks false n.toNat r.chunks with
        | (.error e, left) => return (.error e, { r with chunks := left })
        | (.ok body, left) => return (.ok (header ++ body), { r with chunks := left })

/-! ## The reader -/

/-- Walks a byte slice; a read past its end turns it bad for good. -/
structure Reader where
  b : List UInt8
  bad : Bool := false
deriving DecidableEq

namespace Reader

def take (r : Reader) (n : ℤ) : Option (Option (List UInt8) × Reader) :=
  if r.bad ∨ n < 0 ∨ n > r.b.length then some (none, { r with bad := true })
  else do
    let out ← Checked.slice r.b 0 n
    let left ← Checked.slice r.b n r.b.length
    return (some out, { r with b := left })

def u8 (r : Reader) : Option (ℤ × Reader) := do
  let (b, r) ← r.take 1
  match b with
  | none => return (0, r)
  | some b => return ((← Checked.get b 0).toNat, r)

def u16 (r : Reader) : Option (ℤ × Reader) := do
  let (b, r) ← r.take 2
  match b with
  | none => return (0, r)
  | some b => return (← uint16 b, r)

/-- `r.take(r.u8())`. -/
def takeU8 (r : Reader) : Option (Option (List UInt8) × Reader) := do
  let (n, r) ← r.u8
  r.take n

/-- `r.take(r.u16())`. -/
def takeU16 (r : Reader) : Option (Option (List UInt8) × Reader) := do
  let (n, r) ← r.u16
  r.take n

end Reader

/-! ## The parse -/

/-- The names of a list: how many are host names, and the last of these. -/
def hostNames : ℕ → Reader → ℕ → List UInt8 → Option (Except Error (ℕ × List UInt8))
  | fuel, names, count, name =>
    if names.b.length = 0 then some (.ok (count, name))
    else
      match fuel with
      | 0 => none
      | fuel + 1 => do
        let (kind, names) ← names.u8
        let (value, names) ← names.takeU16
        if names.bad then return .error .malformed
        else if kind = nameTypeHostName then hostNames fuel names (count + 1) (value.getD [])
        else hostNames fuel names count name

/-- The extensions: each is a type and its data; `found` says whether a `server_name` was among
those before. -/
def extensions : ℕ → Reader → List UInt8 → Bool → Option (Except Error (List UInt8))
  | fuel, exts, name, found =>
    if exts.b.length = 0 then some (if found then .ok name else .error .noSNI)
    else
      match fuel with
      | 0 => none
      | fuel + 1 => do
        let (typ, exts) ← exts.u16
        let (data, exts) ← exts.takeU16
        if exts.bad then return .error .malformed
        else if typ ≠ extServerName then extensions fuel exts name found
        else if found then return .error .manyNames
        else
          let list : Reader := { b := data.getD [] }
          let (names, list) ← list.takeU16
          if list.bad ∨ list.b.length ≠ 0 then return .error .malformed
          else
            let names : Reader := { b := names.getD [] }
            match ← hostNames names.b.length names 0 name with
            | .error e => return .error e
            | .ok (count, name) =>
              if count > 1 then return .error .manyNames
              else if count = 0 then return .error .noSNI
              else extensions fuel exts name true

def serverName (hello : List UInt8) : Option (Except Error (List UInt8)) := do
  let r : Reader := { b := hello }
  let (_, r) ← r.take 2
  let (_, r) ← r.take 32
  let (_, r) ← r.takeU8
  let (suites, r) ← r.u16
  if suites % 2 ≠ 0 then return .error .malformed
  else
    let (_, r) ← r.take suites
    let (_, r) ← r.takeU8
    if r.bad then return .error .malformed
    else if r.b.length = 0 then return .error .noSNI
    else
      let (b, r) ← r.takeU16
      if r.bad ∨ r.b.length ≠ 0 then return .error .malformed
      else
        let exts : Reader := { b := b.getD [] }
        extensions exts.b.length exts [] false

/-! ## Host ids -/

/-- A UUID in its 8-4-4-4-12 hex spelling, either case. -/
def isUUID (s : List UInt8) : Bool :=
  s.length = 36 ∧ s.zipIdx.all fun (c, i) =>
    if i ∈ [8, 13, 18, 23] then c = 0x2D
    else 0x30 ≤ c ∧ c ≤ 0x39 ∨ 0x61 ≤ c ∧ c ≤ 0x66 ∨ 0x41 ≤ c ∧ c ≤ 0x46

/-- `strings.TrimSuffix(name, ".")`. -/
def trimDot (name : List UInt8) : List UInt8 :=
  if name.getLast? = some 0x2E then name.dropLast else name

/-- The rune a string begins with, and how many bytes it is; a byte that begins none is U+FFFD. -/
def decodeRune (b : UInt8) (bs : List UInt8) : ℕ × ℕ :=
  let continues (c : UInt8) (lo hi : UInt8) : Bool := lo ≤ c ∧ c ≤ hi
  if b < 0x80 then (b.toNat, 1)
  else
    match bs with
    | c₁ :: bs =>
      if 0xC2 ≤ b ∧ b ≤ 0xDF ∧ continues c₁ 0x80 0xBF then
        ((b.toNat - 0xC0) * 64 + (c₁.toNat - 0x80), 2)
      else
        match bs with
        | c₂ :: bs =>
          if 0xE0 ≤ b ∧ b ≤ 0xEF ∧ continues c₁ (if b = 0xE0 then 0xA0 else 0x80)
              (if b = 0xED then 0x9F else 0xBF) ∧ continues c₂ 0x80 0xBF then
            ((b.toNat - 0xE0) * 4096 + (c₁.toNat - 0x80) * 64 + (c₂.toNat - 0x80), 3)
          else
            match bs with
            | c₃ :: _ =>
              if 0xF0 ≤ b ∧ b ≤ 0xF4 ∧ continues c₁ (if b = 0xF0 then 0x90 else 0x80)
                  (if b = 0xF4 then 0x8F else 0xBF) ∧ continues c₂ 0x80 0xBF
                  ∧ continues c₃ 0x80 0xBF then
                ((b.toNat - 0xF0) * 262144 + (c₁.toNat - 0x80) * 4096 + (c₂.toNat - 0x80) * 64
                  + (c₃.toNat - 0x80), 4)
              else (0xFFFD, 1)
            | [] => (0xFFFD, 1)
        | [] => (0xFFFD, 1)
    | [] => (0xFFFD, 1)

/-- `for _, c := range s`, in at most `fuel` turns. -/
def runes : ℕ → List UInt8 → List ℕ
  | 0, _ => []
  | _ + 1, [] => []
  | fuel + 1, b :: bs => (decodeRune b bs).1 :: runes fuel (bs.drop ((decodeRune b bs).2 - 1))

/-- `WriteRune`. -/
def encodeRune (r : ℕ) : List UInt8 :=
  if r < 0x80 then [UInt8.ofNat r]
  else if r < 0x800 then [UInt8.ofNat (0xC0 + r / 64), UInt8.ofNat (0x80 + r % 64)]
  else if 0x10FFFF < r ∨ (0xD800 ≤ r ∧ r ≤ 0xDFFF) then [0xEF, 0xBF, 0xBD]
  else if r < 0x10000 then
    [UInt8.ofNat (0xE0 + r / 4096), UInt8.ofNat (0x80 + r / 64 % 64), UInt8.ofNat (0x80 + r % 64)]
  else
    [UInt8.ofNat (0xF0 + r / 262144), UInt8.ofNat (0x80 + r / 4096 % 64),
      UInt8.ofNat (0x80 + r / 64 % 64), UInt8.ofNat (0x80 + r % 64)]

def lowerByte (c : UInt8) : UInt8 := if 0x41 ≤ c ∧ c ≤ 0x5A then c + 0x20 else c

/-- `strings.ToLower`. -/
def toLower (lowerRune : ℕ → ℕ) (s : List UInt8) : List UInt8 :=
  if s.all (· < 0x80) then s.map lowerByte
  else (runes s.length s).flatMap fun r => encodeRune (lowerRune r)

/-- The lower-case host id a record's ClientHello names. -/
def hostID (lowerRune : ℕ → ℕ) (record : List UInt8) : Option (Except Error (List UInt8)) :=
  if record.length < 5 then some (.error .notHandshake)
  else do
    if (← Checked.get record 0) ≠ recordHandshake then return .error .notHandshake
    else
      let body ← Checked.slice record 5 record.length
      let n ← uint16 (← Checked.slice record 3 5)
      if n ≠ body.length ∨ body.length > maxRecord then return .error .recordSize
      else if body.length < 4 then return .error .notHello
      else if (← Checked.get body 0) ≠ handshakeHello then return .error .notHello
      else
        let b₁ ← Checked.get body 1
        let b₂ ← Checked.get body 2
        let b₃ ← Checked.get body 3
        let n : ℤ := b₁.toNat * 65536 + b₂.toNat * 256 + b₃.toNat
        if n > body.length - 4 then return .error .spansRecords
        else
          match ← serverName (← Checked.slice body 4 (4 + n)) with
          | .error e => return .error e
          | .ok name =>
            let name := toLower lowerRune (trimDot name)
            if ¬ isUUID name then return .error .notHostID
            else return .ok name

end ClientHello
