import IGhostVT.Lib.LittleEndian

/-!
# Wire/IOWire — frames between the processes

A frame is a fixed header followed by an encoded object, little-endian throughout:

    u32 payload length  u8 kind  u8×3 reserved  u64 peer  u64 tag  payload
-/

namespace IOWire

def headerByteCount : ℕ := 24
def maximumPayloadByteCount : ℕ := 4 * 1024 * 1024

inductive Kind
  | request
  | reply
  | event
  | peerGone
deriving DecidableEq

def Kind.rawValue : Kind → UInt8
  | .request => 1
  | .reply => 2
  | .event => 3
  | .peerGone => 4

/-- `Kind(rawValue:)`. -/
def Kind.ofRaw (raw : UInt8) : Option Kind :=
  if raw = 1 then some .request
  else if raw = 2 then some .reply
  else if raw = 3 then some .event
  else if raw = 4 then some .peerGone
  else none

structure Header where
  kind : Kind
  peer : UInt64
  tag : UInt64
  payloadByteCount : ℕ
deriving DecidableEq

/-- The header's bytes.  Senders check the payload against the maximum first, so its length fits. -/
def appendHeader (header : Header) : List UInt8 :=
  leBytes 4 header.payloadByteCount ++ (header.kind.rawValue :: [0, 0, 0])
    ++ leBytes 8 header.peer.toNat ++ leBytes 8 header.tag.toNat

/-- `none` for a header that is not one of ours; the link is then dead. -/
def decodeHeader (bytes : List UInt8) : Option Header :=
  if bytes.length < headerByteCount then none
  else
    let length := leValue (bytes.take 4)
    match Kind.ofRaw (bytes.getD 4 0) with
    | none => none
    | some kind =>
      if length ≤ maximumPayloadByteCount then
        some
          { kind
            peer := UInt64.ofNat (leValue ((bytes.drop 8).take 8))
            tag := UInt64.ofNat (leValue ((bytes.drop 16).take 8))
            payloadByteCount := length }
      else none

/-- A frame that may be sent. -/
structure Frame where
  kind : Kind
  peer : UInt64
  tag : UInt64
  payload : List UInt8
  fits : payload.length ≤ maximumPayloadByteCount
deriving DecidableEq

namespace Frame

def header (f : Frame) : Header := ⟨f.kind, f.peer, f.tag, f.payload.length⟩

/-- The frame on the wire. -/
def bytes (f : Frame) : List UInt8 := appendHeader f.header ++ f.payload

end Frame

/-! ## Reading a header back -/

@[simp] theorem length_appendHeader (h : Header) : (appendHeader h).length = headerByteCount := by
  simp [appendHeader, headerByteCount]

theorem Kind.ofRaw_rawValue (k : Kind) : Kind.ofRaw k.rawValue = some k := by cases k <;> rfl

theorem Frame.length_bytes (f : Frame) : f.bytes.length = headerByteCount + f.payload.length := by
  rw [bytes, List.length_append, length_appendHeader]

theorem Frame.length_bytes_pos (f : Frame) : 0 < f.bytes.length := by
  rw [length_bytes, headerByteCount]
  omega

/-- Only the first 24 bytes count. -/
theorem decodeHeader_append {bytes : List UInt8} (h : headerByteCount ≤ bytes.length)
    (more : List UInt8) : decodeHeader (bytes ++ more) = decodeHeader bytes := by
  have hcount : headerByteCount = 24 := rfl
  have hlen : ¬ (bytes ++ more).length < headerByteCount := by
    rw [List.length_append]
    omega
  have htake4 : (bytes ++ more).take 4 = bytes.take 4 := List.take_append_of_le_length (by omega)
  have hget : (bytes ++ more).getD 4 0 = bytes.getD 4 0 := by
    rw [List.getD_eq_getElem?_getD, List.getElem?_append_left (by omega),
      List.getD_eq_getElem?_getD]
  have hdrop : ∀ k, k ≤ 16 → ((bytes ++ more).drop k).take 8 = (bytes.drop k).take 8 :=
    fun k hk => by
    rw [List.drop_append_of_le_length (by omega), List.take_append_of_le_length]
    rw [List.length_drop]
    omega
  rw [decodeHeader, decodeHeader, if_neg hlen, if_neg (not_lt.mpr h), htake4, hget,
    hdrop 8 (by omega), hdrop 16 (by omega)]

theorem decodeHeader_appendHeader {h : Header}
    (hfits : h.payloadByteCount ≤ maximumPayloadByteCount) :
    decodeHeader (appendHeader h) = some h := by
  have hmax : maximumPayloadByteCount = 4194304 := rfl
  have hlength : leValue ((appendHeader h).take 4) = h.payloadByteCount := by
    rw [appendHeader, List.append_assoc, List.append_assoc, List.take_left' (length_leBytes 4 _)]
    exact leValue_leBytes (lt_of_le_of_lt hfits (by rw [hmax]; decide))
  have hkind : (appendHeader h).getD 4 0 = h.kind.rawValue := by
    simp [appendHeader]
  have hpeer : ((appendHeader h).drop 8).take 8 = leBytes 8 h.peer.toNat := by
    simp [appendHeader, List.drop_append, List.take_append]
  have htag : ((appendHeader h).drop 16).take 8 = leBytes 8 h.tag.toNat := by
    simp [appendHeader, List.drop_append, List.drop_of_length_le, List.take_of_length_le]
  have h64 : ∀ v : UInt64, leValue (leBytes 8 v.toNat) = v.toNat := fun v =>
    leValue_leBytes (lt_of_lt_of_le v.toNat_lt (by decide))
  rw [decodeHeader, if_neg (by rw [length_appendHeader]; exact lt_irrefl _), hkind,
    Kind.ofRaw_rawValue]
  simp only [hlength, hpeer, htag, h64, UInt64.ofNat_toNat]
  exact if_pos hfits

/-- The reserved bytes are not read. -/
theorem decodeHeader_set (bytes : List UInt8) (b : UInt8) :
    decodeHeader (bytes.set 5 b) = decodeHeader bytes := by
  have hget : (bytes.set 5 b).getD 4 0 = bytes.getD 4 0 := by
    rw [List.getD_eq_getElem?_getD, List.getElem?_set_ne (by decide), List.getD_eq_getElem?_getD]
  rw [decodeHeader, decodeHeader, List.length_set, List.take_set_of_le (by decide), hget,
    List.drop_set_of_lt (by decide), List.drop_set_of_lt (by decide)]

/-- **A frame's header is read off its bytes**, whatever follows. -/
theorem decodeHeader_bytes (f : Frame) (more : List UInt8) :
    decodeHeader (f.bytes ++ more) = some f.header := by
  rw [Frame.bytes, List.append_assoc, decodeHeader_append (by rw [length_appendHeader])]
  exact decodeHeader_appendHeader f.fits

end IOWire
