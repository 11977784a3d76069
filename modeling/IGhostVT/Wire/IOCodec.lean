import Mathlib.Data.List.Infix
import IGhostVT.Lib.LittleEndian

/-!
# Wire/IOCodec — the XPC objects a frame carries

`IOCodec` writes the XPC objects the protocol uses, and only those, as a tagged byte string, and
reads one back from bytes it trusts in nothing.  A read past the end of the bytes and an arithmetic
trap are outcomes of their own here (`Stop.trap`), beside the refusal the code returns.
-/

/-- A NUL-terminated string, as its bytes before the terminator. -/
abbrev CString := { bytes : List UInt8 // (0 : UInt8) ∉ bytes }

/-- An XPC object.  A dictionary is its entries in the order `xpc_dictionary_apply` visits them. -/
inductive XPCObject
  | uint64 (value : UInt64)
  | int64 (value : Int64)
  | bool (value : Bool)
  | string (value : CString)
  | data (bytes : List UInt8)
  | array (values : List XPCObject)
  | dictionary (entries : List (CString × XPCObject))
  /-- A type the codec does not carry: a descriptor, a mach port, an endpoint. -/
  | unsupported

/-- How a codec function ends without a result. -/
inductive Stop
  /-- The process is gone: an arithmetic trap, or a read outside a buffer. -/
  | trap
  /-- `false`, or `nil`. -/
  | refused
deriving DecidableEq

namespace IOCodec

def maximumDepth : ℕ := 8

/-! ## Encoding -/

/-- `UInt32(length)` appended: Swift's conversion traps on a length that does not fit. -/
def appendUInt32 (length : ℕ) : Except Stop (List UInt8) :=
  if length < 2 ^ 32 then .ok (leBytes 4 length) else .error .trap

/-- A count, and what it counts. -/
def appendCounted (count : ℕ) (body : Except Stop (List UInt8)) : Except Stop (List UInt8) := do
  return (← appendUInt32 count) ++ (← body)

/-- A length and the bytes it counts. -/
def appendBytes (bytes : List UInt8) : Except Stop (List UInt8) :=
  appendCounted bytes.length (.ok bytes)

/-- What `f` appends for each value in turn. -/
def appendEach {α : Type} (f : α → Except Stop (List UInt8)) : List α → Except Stop (List UInt8)
  | [] => .ok []
  | a :: as => do return (← f a) ++ (← appendEach f as)

/-- A dictionary's entry: the key's length, the key, and what `encode` appends for the value. -/
def appendEntry (encode : XPCObject → Except Stop (List UInt8)) (entry : CString × XPCObject) :
    Except Stop (List UInt8) := do
  return (← appendBytes entry.1.1) ++ (← encode entry.2)

/-- A type's tag, and what follows it. -/
def tagged (tag : UInt8) (body : Except Stop (List UInt8)) : Except Stop (List UInt8) := do
  return tag :: (← body)

/-- What is appended for one object, `levels` of nesting short of the limit. -/
def encodeValue : ℕ → XPCObject → Except Stop (List UInt8)
  | 0, _ => .error .refused
  | _ + 1, .uint64 value => tagged 1 (.ok (leBytes 8 value.toNat))
  | _ + 1, .int64 value => tagged 2 (.ok (leBytes 8 value.toUInt64.toNat))
  | _ + 1, .bool value => tagged 3 (.ok [if value then 1 else 0])
  | _ + 1, .string value => tagged 4 (appendBytes value.1)
  | _ + 1, .data bytes => tagged 5 (appendBytes bytes)
  | levels + 1, .array values =>
    tagged 6 (appendCounted values.length (appendEach (encodeValue levels) values))
  | levels + 1, .dictionary entries =>
    tagged 7 (appendCounted entries.length (appendEach (appendEntry (encodeValue levels)) entries))
  | _ + 1, .unsupported => .error .refused

/-- The bytes of an object; refused when it holds a type the codec does not carry. -/
def encode (object : XPCObject) : Except Stop (List UInt8) := encodeValue maximumDepth object

/-! ## Decoding -/

/-- A place in the bytes that are read. -/
structure Cursor where
  bytes : List UInt8
  offset : ℕ := 0

/-- Code that reads on from a cursor. -/
abbrev Reader := StateT Cursor (Except Stop)

namespace Cursor

/-- `bytes.count - offset`. -/
def remaining (c : Cursor) : ℤ := c.bytes.length - c.offset

end Cursor

/-- `nil`. -/
def refuse {α : Type} : Reader α := fun _ => .error .refused

/-- Loads `count` bytes and steps over them.  The load itself checks nothing. -/
def load (count : ℕ) : Reader (List UInt8) := fun c =>
  if c.offset + count ≤ c.bytes.length then
    .ok ((c.bytes.drop c.offset).take count, { c with offset := c.offset + count })
  else .error .trap

/-- Goes on when `count` bytes remain. -/
def guardRemaining (count : ℤ) : Reader Unit := fun c =>
  if count ≤ c.remaining then .ok ((), c) else .error .refused

/-- `count` bytes, `nil` when fewer remain. -/
def takeRaw (count : ℕ) : Reader (List UInt8) := do
  guardRemaining count
  load count

def takeUInt8 : Reader UInt8 := do return UInt8.ofNat (leValue (← takeRaw 1))

def takeUInt32 : Reader ℕ := do return leValue (← takeRaw 4)

def takeUInt64 : Reader ℕ := do return leValue (← takeRaw 8)

/-- A length-prefixed run of bytes, bounded by what is left. -/
def takeBytes : Reader (List UInt8) := do takeRaw (← takeUInt32)

/-- A run of bytes that becomes a C string: a NUL inside is a lie about the length. -/
def takeCString : Reader CString := do
  let bytes ← takeBytes
  if h : (0 : UInt8) ∉ bytes then return ⟨bytes, h⟩ else refuse

/-- A count of elements, each a byte at least. -/
def takeCount : Reader ℕ := do
  let count ← takeUInt32
  guardRemaining count
  return count

/-- `xpc_dictionary_set_value`: the value under `key`, in place of the one there. -/
def setValue (entries : List (CString × XPCObject)) (key : CString) (value : XPCObject) :
    List (CString × XPCObject) :=
  if key ∈ entries.map Prod.fst then
    entries.map fun entry => if entry.1 = key then (key, value) else entry
  else entries ++ [(key, value)]

/-- `count` passes of a loop that builds on `acc`. -/
def repeating {α : Type} (pass : α → Reader α) : ℕ → α → Reader α
  | 0, acc => return acc
  | count + 1, acc => do repeating pass count (← pass acc)

/-- One value, `levels` of nesting short of the limit. -/
def decodeValue : ℕ → Reader XPCObject
  | 0 => refuse
  | levels + 1 => do
    match (← takeUInt8) with
    | 1 => return .uint64 (UInt64.ofNat (← takeUInt64))
    | 2 => return .int64 (UInt64.ofNat (← takeUInt64)).toInt64
    | 3 => return .bool ((← takeUInt8) != 0)
    | 4 => return .string (← takeCString)
    | 5 => return .data (← takeBytes)
    | 6 => do
      let count ← takeCount
      let values ← repeating (fun values => do return values ++ [← decodeValue levels]) count []
      return .array values
    | 7 => do
      let count ← takeCount
      let entries ← repeating (fun entries => do
        let key ← takeCString
        let value ← decodeValue levels
        return setValue entries key value) count []
      return .dictionary entries
    | _ => refuse

/-- The object the bytes encode, refused for anything malformed. -/
def decode (bytes : List UInt8) : Except Stop XPCObject := do
  let (object, cursor) ← decodeValue maximumDepth { bytes }
  if cursor.offset = bytes.length then .ok object else .error .refused

end IOCodec
