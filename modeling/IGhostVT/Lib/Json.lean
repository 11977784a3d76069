import IGhostVT.Lib.Decimal
import Mathlib.Algebra.BigOperators.Group.List.Basic
import Mathlib.Data.Char

/-!
# Lib/Json — JSON text as Go's `encoding/json` writes it

A value is the bytes of its text: numbers and words as they are, strings quoted and escaped, objects
and arrays with their members between commas and nothing else.  What a string costs is a sum over
its characters (`length_string`), what an object or an array costs a sum over its members.

Strings are lists of characters, which is what `encoding/json` hands out: bytes that are no UTF-8 it
replaces when it reads.
-/

/-- The bytes of a text in UTF-8. -/
def byteCount (s : List Char) : ℕ := (s.map Char.utf8Size).sum

namespace Json

/-- A hexadecimal digit. -/
def hexDigit (n : ℕ) : UInt8 := (ascii "0123456789abcdef").getD n 0

/-- `\u` and four digits. -/
def unicodeEscape (c : Char) : List UInt8 :=
  let n := c.toNat
  [0x5C, 0x75, hexDigit (n / 4096 % 16), hexDigit (n / 256 % 16), hexDigit (n / 16 % 16),
    hexDigit (n % 16)]

/-- The letter behind the backslash, for the characters that have one. -/
def shortEscape (c : Char) : Option UInt8 :=
  if c = '\\' then some 0x5C
  else if c = '"' then some 0x22
  else if c.toNat = 0x08 then some 0x62
  else if c.toNat = 0x0C then some 0x66
  else if c = '\n' then some 0x6E
  else if c = '\r' then some 0x72
  else if c = '\t' then some 0x74
  else none

/-- Characters written as `\u`: the other controls, the two line separators and, if the text is to
be safe inside HTML, three more. -/
def isUnicodeEscaped (html : Bool) (c : Char) : Bool :=
  c.toNat < 0x20 || c.toNat = 0x2028 || c.toNat = 0x2029
    || (html && (c = '<' || c = '>' || c = '&'))

/-- A character inside a string. -/
def escaped (html : Bool) (c : Char) : List UInt8 :=
  match shortEscape c with
  | some letter => [0x5C, letter]
  | none => if isUnicodeEscaped html c then unicodeEscape c else String.utf8EncodeChar c

def string (html : Bool) (s : List Char) : List UInt8 := 0x22 :: s.flatMap (escaped html) ++ [0x22]

def integer (i : ℤ) : List UInt8 :=
  if i < 0 then 0x2D :: decimal i.natAbs else decimal i.natAbs

def bool (b : Bool) : List UInt8 := ascii (if b then "true" else "false")

/-- Texts with commas between them. -/
def joined : List (List UInt8) → List UInt8
  | [] => []
  | [item] => item
  | item :: items => item ++ 0x2C :: joined items

def array (items : List (List UInt8)) : List UInt8 := 0x5B :: joined items ++ [0x5D]

/-- A member: its name and its text. -/
def member (name : String) (value : List UInt8) : List UInt8 :=
  0x22 :: ascii name ++ [0x22, 0x3A] ++ value

def object (members : List (List UInt8)) : List UInt8 := 0x7B :: joined members ++ [0x7D]

/-! ## Lengths

What each construction adds in bytes, so that the length of a document is a sum over its parts. -/

/-- What a character costs inside a string. -/
def cost (html : Bool) (c : Char) : ℕ :=
  if (shortEscape c).isSome then 2
  else if isUnicodeEscaped html c then 6
  else c.utf8Size

/-- What a text costs inside a string. -/
def costs (html : Bool) (s : List Char) : ℕ := (s.map (cost html)).sum

/-- A character takes as many bytes as `cost` says. -/
theorem length_escaped (html : Bool) (c : Char) : (escaped html c).length = cost html c := by
  unfold escaped cost
  cases shortEscape c with
  | some letter => rfl
  | none =>
    dsimp only [Option.isSome_none]
    rw [if_neg Bool.false_ne_true]
    split
    · rfl
    · exact String.length_utf8EncodeChar c

/-- A string is its characters and two quotes. -/
theorem length_string (html : Bool) (s : List Char) :
    (string html s).length = costs html s + 2 := by
  have hbody : (s.flatMap (escaped html)).length = costs html s := by
    rw [List.length_flatMap, costs]
    exact congrArg List.sum (List.map_congr_left fun c _ => length_escaped html c)
  rw [string, List.length_append, List.length_cons, hbody]
  rfl

/-- Letters, digits and what ids are spelled with: nothing to escape. -/
def isPlain (c : Char) : Bool := c.isAlphanum || c = '-' || c = ':'

/-- Plain characters are ASCII. -/
theorem toNat_lt_of_isPlain {c : Char} (h : isPlain c = true) : c.toNat < 128 := by
  delta isPlain Char.isAlphanum Char.isAlpha Char.isUpper Char.isLower Char.isDigit at h
  simp only [Bool.or_eq_true, Bool.and_eq_true, decide_eq_true_eq, ge_iff_le,
    UInt32.le_iff_toNat_le] at h
  rcases h with (h | rfl) | rfl
  · simp only [Char.reduceVal, UInt32.reduceToNat] at h
    rw [Char.toNat]
    omega
  · decide
  · decide

/-- They are written as they are. -/
theorem cost_of_isPlain (html : Bool) {c : Char} (h : isPlain c = true) :
    cost html c = 1 ∧ c.utf8Size = 1 := by
  have hall : ∀ n : Fin 128, isPlain (Char.ofNat n) = true →
      ∀ html : Bool, cost html (Char.ofNat n) = 1 ∧ (Char.ofNat n).utf8Size = 1 := by decide +kernel
  have hcost := hall ⟨c.toNat, toNat_lt_of_isPlain h⟩
  rw [Char.ofNat_toNat] at hcost
  exact hcost h html

/-- So a plain text takes a byte a character. -/
theorem costs_of_isPlain (html : Bool) {s : List Char} (h : ∀ c ∈ s, isPlain c = true) :
    costs html s = s.length := by
  rw [costs, List.map_congr_left fun c hc => (cost_of_isPlain html (h c hc)).1, List.map_const',
    List.sum_replicate_nat, mul_one]

theorem byteCount_of_isPlain {s : List Char} (h : ∀ c ∈ s, isPlain c = true) :
    byteCount s = s.length := by
  rw [byteCount, List.map_congr_left fun c hc => (cost_of_isPlain false (h c hc)).2,
    List.map_const', List.sum_replicate_nat, mul_one]

/-- Every item and its comma, but for the last. -/
theorem length_joined : ∀ {items : List (List UInt8)}, items ≠ [] →
    (joined items).length + 1 = (items.map fun item => item.length + 1).sum
  | [], h => absurd rfl h
  | [item], _ => by simp [joined]
  | item :: next :: items, _ => by
    have ih := length_joined (List.cons_ne_nil next items)
    rw [joined, List.length_append, List.length_cons, List.map_cons, List.sum_cons, ← ih]
    · omega
    · exact List.cons_ne_nil _ _

/-- Commas between items, one fewer than there are items. -/
theorem length_joined_le (items : List (List UInt8)) :
    (joined items).length ≤ (items.map fun item => item.length + 1).sum := by
  cases items with
  | nil => exact Nat.zero_le _
  | cons item items =>
    have h := length_joined (List.cons_ne_nil item items)
    omega

/-- A member is its quoted name, a colon and its value. -/
@[simp] theorem length_member (name : String) (value : List UInt8) :
    (member name value).length = name.toList.length + value.length + 3 := by
  simp only [member, ascii, List.length_append, List.length_cons, List.length_map, List.length_nil]
  omega

/-- Braces, and commas between members. -/
theorem length_object {members : List (List UInt8)} (h : members ≠ []) :
    (object members).length = (members.map fun m => m.length + 1).sum + 1 := by
  have hjoined := length_joined h
  simp only [object, List.length_append, List.length_cons, List.length_nil]
  omega

/-- Brackets around the items. -/
theorem length_array (items : List (List UInt8)) :
    (array items).length = (joined items).length + 2 := by
  simp only [array, List.length_append, List.length_cons, List.length_nil]

/-- A number of `k` digits at most. -/
theorem length_integer_le {i : ℤ} {k : ℕ} (hk : 0 < k) (h : i.natAbs < 10 ^ k) :
    (integer i).length ≤ k + 1 := by
  have hdigits := length_decimal_le hk h
  unfold integer
  split
  · rw [List.length_cons]
    omega
  · omega

/-- A number below `10 ^ k` has at most `k` digits. -/
theorem length_integer_le_of_nonneg {i : ℤ} {k : ℕ} (hi : 0 ≤ i) (hk : 0 < k)
    (h : i.natAbs < 10 ^ k) : (integer i).length ≤ k := by
  rw [integer, if_neg (not_lt.mpr hi)]
  exact length_decimal_le hk h

end Json
