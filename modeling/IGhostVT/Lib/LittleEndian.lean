import Mathlib.Data.List.Basic
import Mathlib.Algebra.Order.Ring.Nat
import Mathlib.Tactic.Ring

/-!
# Lib/LittleEndian — numbers in a fixed count of bytes, low byte first

`leBytes k n` is the `k`-byte little-endian spelling of `n`, cut to `k` bytes when it is longer, and
`leValue` reads one back.
-/

/-- The low `k` bytes of `n`, lowest first. -/
def leBytes : ℕ → ℕ → List UInt8
  | 0, _ => []
  | k + 1, n => UInt8.ofNat n :: leBytes k (n / 256)

/-- The number a byte string spells, lowest byte first. -/
def leValue : List UInt8 → ℕ
  | [] => 0
  | b :: bs => b.toNat + 256 * leValue bs

@[simp] theorem length_leBytes (k n : ℕ) : (leBytes k n).length = k := by
  induction k generalizing n with
  | zero => rfl
  | succ k ih => rw [leBytes, List.length_cons, ih]

theorem leValue_lt (bs : List UInt8) : leValue bs < 256 ^ bs.length := by
  induction bs with
  | nil => exact Nat.one_pos
  | cons b bs ih =>
    have hb : b.toNat < 256 := b.toNat_lt
    rw [leValue, List.length_cons, pow_succ]
    omega

/-- **A number survives in as many bytes as it needs.** -/
theorem leValue_leBytes {k n : ℕ} (h : n < 256 ^ k) : leValue (leBytes k n) = n := by
  induction k generalizing n with
  | zero => simp only [pow_zero, Nat.lt_one_iff] at h; exact h.symm
  | succ k ih =>
    have hdiv : n / 256 < 256 ^ k := by
      rw [Nat.div_lt_iff_lt_mul (by norm_num), ← pow_succ]
      exact h
    have hlow : (UInt8.ofNat n).toNat = n % 256 := UInt8.toNat_ofNat'
    rw [leBytes, leValue, ih hdiv, hlow]
    omega

/-- **Every byte string is the spelling of its value.** -/
theorem leBytes_leValue (bs : List UInt8) : leBytes bs.length (leValue bs) = bs := by
  induction bs with
  | nil => rfl
  | cons b bs ih =>
    have hb : b.toNat < 256 := b.toNat_lt
    have hdiv : (b.toNat + 256 * leValue bs) / 256 = leValue bs := by omega
    have hlow : UInt8.ofNat (b.toNat + 256 * leValue bs) = b := by
      apply UInt8.toNat.inj
      rw [UInt8.toNat_ofNat']
      omega
    rw [List.length_cons, leValue, leBytes, hdiv, ih, hlow]

/-- The low bytes of a number are those of its value. -/
theorem leValue_take (k : ℕ) (bs : List UInt8) : leValue (bs.take k) = leValue bs % 256 ^ k := by
  induction k generalizing bs with
  | zero => rw [List.take_zero, pow_zero, Nat.mod_one]; rfl
  | succ k ih =>
    cases bs with
    | nil => rw [List.take_nil, leValue, Nat.zero_mod]
    | cons b bs =>
      have hb : b.toNat < 256 := b.toNat_lt
      have hdiv : (b.toNat + 256 * leValue bs) / 256 = leValue bs := by omega
      rw [List.take_succ_cons, leValue, leValue, ih, pow_succ', Nat.mod_mul, hdiv]
      omega

/-- Byte strings of one length with one value are the same. -/
theorem leValue_inj {as bs : List UInt8} (hlength : as.length = bs.length) :
    leValue as = leValue bs ↔ as = bs := by
  refine ⟨fun h => ?_, congrArg leValue⟩
  rw [← leBytes_leValue as, ← leBytes_leValue bs, hlength, h]
