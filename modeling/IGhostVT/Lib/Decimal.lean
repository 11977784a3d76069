import Mathlib.Data.Nat.Digits.Defs
import Mathlib.Data.Nat.Digits.Lemmas
import Mathlib.Tactic.SplitIfs

/-!
# Lib/Decimal — numbers written in ASCII, and read back

`decimal n` writes a natural number in ASCII digits; `digitsValue` reads a digit string back, from
an accumulator so that a reader can be run a byte at a time.  `saturate` is the reader of a bounded
register that stops at its largest value.  `parseInteger` is a signed reader with a range, which
refuses what does not fit.
-/

/-- The bytes of an ASCII string. -/
def ascii (s : String) : List UInt8 := s.toList.map fun c => c.toNat.toUInt8

/-- `n` in ASCII decimal, no leading zeros. -/
def decimal (n : ℕ) : List UInt8 :=
  if n = 0 then [0x30] else (Nat.digits 10 n).reverse.map fun d => UInt8.ofNat (48 + d)

/-- An ASCII digit. -/
def isDigit (b : UInt8) : Bool := 0x30 ≤ b && b ≤ 0x39

/-- The value of one ASCII digit. -/
def digitValue (b : UInt8) : ℕ := b.toNat - 48

/-- Reading digits on from `acc`. -/
def digitsValue (acc : ℕ) (bs : List UInt8) : ℕ :=
  bs.foldl (fun a b => a * 10 + digitValue b) acc

/-- Reading digits on from `acc` in a register that holds at most `limit`. -/
def saturate (limit acc : ℕ) (bs : List UInt8) : ℕ :=
  bs.foldl (fun a b => min (a * 10 + digitValue b) limit) acc

/-! ## One digit -/

/-- The ASCII digit of `d`. -/
theorem digitValue_ofNat {d : ℕ} (h : d < 10) : digitValue (UInt8.ofNat (48 + d)) = d := by
  rw [digitValue, UInt8.toNat_ofNat_of_lt' (by simp [UInt8.size]; omega)]
  omega

theorem isDigit_ofNat {d : ℕ} (h : d < 10) : isDigit (UInt8.ofNat (48 + d)) = true := by
  interval_cases d <;> decide

/-! ## Writing and reading back -/

@[simp] theorem digitsValue_nil (acc : ℕ) : digitsValue acc [] = acc := rfl

@[simp] theorem digitsValue_cons (acc : ℕ) (b : UInt8) (bs : List UInt8) :
    digitsValue acc (b :: bs) = digitsValue (acc * 10 + digitValue b) bs := by
  simp only [digitsValue, List.foldl_cons]

theorem digitsValue_append (acc : ℕ) (bs cs : List UInt8) :
    digitsValue acc (bs ++ cs) = digitsValue (digitsValue acc bs) cs :=
  List.foldl_append

theorem le_digitsValue (acc : ℕ) (bs : List UInt8) : acc ≤ digitsValue acc bs := by
  induction bs generalizing acc with
  | nil => exact le_rfl
  | cons b bs ih => exact le_trans (by omega) (ih (acc * 10 + digitValue b))

/-- **A saturating reader reads what an unbounded one reads, cut at its limit.** -/
theorem saturate_eq_min (limit acc : ℕ) (bs : List UInt8) :
    saturate limit (min acc limit) bs = min (digitsValue acc bs) limit := by
  induction bs generalizing acc with
  | nil => rfl
  | cons b bs ih =>
    have hstep : min (min acc limit * 10 + digitValue b) limit
        = min (acc * 10 + digitValue b) limit := by omega
    rw [saturate, List.foldl_cons, ← saturate, hstep, ih, digitsValue_cons]

theorem digitsValue_digits : ∀ (ds : List ℕ), (∀ d ∈ ds, d < 10) →
    digitsValue 0 (ds.reverse.map fun d => UInt8.ofNat (48 + d)) = Nat.ofDigits 10 ds
  | [], _ => rfl
  | d :: ds, h => by
      have ih := digitsValue_digits ds fun e he => h e (List.mem_cons_of_mem _ he)
      rw [List.reverse_cons, List.map_append, digitsValue_append, ih, Nat.ofDigits_cons,
        List.map_singleton, digitsValue_cons, digitsValue_nil,
        digitValue_ofNat (h d List.mem_cons_self)]
      omega

/-- **A number survives writing and reading.** -/
@[simp] theorem digitsValue_decimal (n : ℕ) : digitsValue 0 (decimal n) = n := by
  unfold decimal
  split_ifs with h
  · subst h
    rfl
  · rw [digitsValue_digits _ fun d hd => Nat.digits_lt_base (by norm_num) hd, Nat.ofDigits_digits]

theorem saturate_decimal {limit n : ℕ} (h : n ≤ limit) : saturate limit 0 (decimal n) = n := by
  have := saturate_eq_min limit 0 (decimal n)
  rw [Nat.zero_min, digitsValue_decimal] at this
  omega

theorem isDigit_of_mem_decimal {n : ℕ} {b : UInt8} (h : b ∈ decimal n) : isDigit b = true := by
  unfold decimal at h
  split_ifs at h
  · rw [List.mem_singleton.mp h]
    decide
  · obtain ⟨d, hd, rfl⟩ := List.mem_map.mp h
    exact isDigit_ofNat (Nat.digits_lt_base (by norm_num) (List.mem_reverse.mp hd))

theorem decimal_ne_nil (n : ℕ) : decimal n ≠ [] := by
  unfold decimal
  split_ifs with h
  · simp
  · simpa using Nat.digits_ne_nil_iff_ne_zero.mpr h

theorem length_decimal_pos (n : ℕ) : 0 < (decimal n).length :=
  List.length_pos_iff.mpr (decimal_ne_nil n)

/-- A number below `10 ^ k` takes at most `k` digits. -/
theorem length_decimal_le {n k : ℕ} (hk : 0 < k) (h : n < 10 ^ k) : (decimal n).length ≤ k := by
  unfold decimal
  split_ifs with h0
  · exact hk
  · rw [List.length_map, List.length_reverse, Nat.digits_length_le_iff (by norm_num)]
    exact h

/-- A number takes at least `k + 1` digits from `10 ^ k` on. -/
theorem lt_length_decimal {n k : ℕ} (h : 10 ^ k ≤ n) : k < (decimal n).length := by
  have h0 : n ≠ 0 := by
    have : 0 < 10 ^ k := by positivity
    omega
  rw [decimal, if_neg h0, List.length_map, List.length_reverse,
    Nat.lt_digits_length_iff (by norm_num)]
  exact h

theorem digitsValue_lt (acc : ℕ) : ∀ bs : List UInt8, (∀ b ∈ bs, isDigit b = true) →
    digitsValue acc bs < (acc + 1) * 10 ^ bs.length
  | [], _ => by simp
  | b :: bs, h => by
      have ih := digitsValue_lt (acc * 10 + digitValue b) bs fun c hc =>
        h c (List.mem_cons_of_mem _ hc)
      have hb : digitValue b ≤ 9 := by
        have := h b List.mem_cons_self
        simp only [isDigit, Bool.and_eq_true, decide_eq_true_eq, UInt8.le_iff_toNat_le] at this
        have h9 : (0x39 : UInt8).toNat = 57 := rfl
        rw [digitValue]
        omega
      calc digitsValue acc (b :: bs)
          < (acc * 10 + digitValue b + 1) * 10 ^ bs.length := ih
        _ ≤ ((acc + 1) * 10) * 10 ^ bs.length := Nat.mul_le_mul_right _ (by omega)
        _ = (acc + 1) * 10 ^ (b :: bs).length := by rw [List.length_cons, pow_succ]; ring

/-- Rewriting a digit string canonically never makes it longer. -/
theorem length_decimal_digitsValue_le {bs : List UInt8} (hne : bs ≠ [])
    (h : ∀ b ∈ bs, isDigit b = true) : (decimal (digitsValue 0 bs)).length ≤ bs.length := by
  refine length_decimal_le (List.length_pos_iff.mpr hne) ?_
  simpa using digitsValue_lt 0 bs h

/-! ## Signed readers -/

/-- The value of a nonempty string of digits. -/
def parseDigits (bs : List UInt8) : Option ℕ :=
  if bs.isEmpty || !bs.all isDigit then none else some (digitsValue 0 bs)

/-- An optional sign and digits, when the value lies in `[lo, hi]`. -/
def parseInteger (lo hi : ℤ) (text : List UInt8) : Option ℤ :=
  let magnitude : Option ℤ :=
    match text with
    | [] => none
    | 0x2D :: rest => (parseDigits rest).map fun n : ℕ => -(n : ℤ)
    | 0x2B :: rest => (parseDigits rest).map fun n : ℕ => (n : ℤ)
    | text => (parseDigits text).map fun n : ℕ => (n : ℤ)
  magnitude.filter fun v => lo ≤ v ∧ v ≤ hi

@[simp] theorem parseDigits_decimal (n : ℕ) : parseDigits (decimal n) = some n := by
  have hall : (decimal n).all isDigit = true :=
    List.all_eq_true.mpr fun b hb => isDigit_of_mem_decimal hb
  rw [parseDigits, hall, if_neg (by simpa using decimal_ne_nil n), digitsValue_decimal]

/-- A signed reader reads an unsigned number that is in range. -/
theorem parseInteger_decimal {lo hi : ℤ} {n : ℕ} (hlo : lo ≤ n) (hhi : n ≤ hi) :
    parseInteger lo hi (decimal n) = some (n : ℤ) := by
  have hsign : ∀ rest, decimal n ≠ 0x2D :: rest ∧ decimal n ≠ 0x2B :: rest := by
    intro rest
    constructor <;> intro heq <;>
      exact absurd (isDigit_of_mem_decimal (heq ▸ List.mem_cons_self)) (by decide)
  unfold parseInteger
  dsimp only
  split
  case h_1 hnil => exact absurd hnil (decimal_ne_nil n)
  case h_2 rest heq => exact absurd heq (hsign rest).1
  case h_3 rest heq => exact absurd heq (hsign rest).2
  case h_4 =>
    rw [parseDigits_decimal, Option.map_some, Option.filter_some_pos]
    exact decide_eq_true ⟨hlo, hhi⟩
