import Mathlib.Algebra.Order.Group.Int
import Mathlib.Data.List.Basic

/-!
# Lib/Checked — computations that may trap

A subscript out of range, a range upside down, an integer that does not fit its 64 bits: each stops
the process.  A computation here is an `Option`, and nothing when it would stop.  `Ensures fits x P`
says that it does not if `fits` holds, and that `P` holds of whatever it comes to; every operation
has its rule, `Ensures.bind` puts two in sequence and `ensures_forRange` is the rule of a loop.
-/

namespace Checked

variable {α β : Type}

/-! ## The operations -/

/-- A number, if 64 bits hold it. -/
def int (x : ℤ) : Option ℤ := if -2 ^ 63 ≤ x ∧ x < 2 ^ 63 then some x else none

/-- A number, if 64 unsigned bits hold it. -/
def uint (n : ℕ) : Option ℕ := if n < UInt64.size then some n else none

/-- `xs[i]`. -/
def get (xs : List α) (i : ℤ) : Option α := if 0 ≤ i then xs[i.toNat]? else none

/-- `xs[i] = v`. -/
def set (xs : List α) (i : ℤ) (v : α) : Option (List α) :=
  if 0 ≤ i ∧ i < xs.length then some (xs.set i.toNat v) else none

/-- `f(&xs[i])`. -/
def modify (xs : List α) (i : ℤ) (f : α → Option α) : Option (List α) := do
  let v ← get xs i
  let v ← f v
  set xs i v

/-- `xs[lo ..< hi]`. -/
def slice (xs : List α) (lo hi : ℤ) : Option (List α) :=
  if 0 ≤ lo ∧ lo ≤ hi ∧ hi ≤ xs.length then some ((xs.take hi.toNat).drop lo.toNat) else none

def removeSubrange (xs : List α) (lo hi : ℤ) : Option (List α) :=
  if 0 ≤ lo ∧ lo ≤ hi ∧ hi ≤ xs.length then some (xs.take lo.toNat ++ xs.drop hi.toNat) else none

def insert (xs ys : List α) (i : ℤ) : Option (List α) :=
  if 0 ≤ i ∧ i ≤ xs.length then some (xs.take i.toNat ++ ys ++ xs.drop i.toNat) else none

def removeFirst (xs : List α) (k : ℤ) : Option (List α) := removeSubrange xs 0 k

def removeLast (xs : List α) (k : ℤ) : Option (List α) :=
  removeSubrange xs (xs.length - k) xs.length

/-- `for i in lo ..< hi`. -/
def forRange (lo hi : ℤ) (b : β) (f : β → ℤ → Option β) : Option β :=
  if lo ≤ hi then (List.range (hi - lo).toNat).foldlM (fun b (k : ℕ) => f b (lo + k)) b else none

/-! ## What they come to

Only a sum may be one that does not fit, so that `fits` is what bounds the sums.  With `fits` false,
what is left is a statement about the runs that come to something. -/

/-- It does not trap if `fits` holds, and `P` holds of what it comes to. -/
structure Ensures (fits : Prop) (x : Option α) (P : α → Prop) : Prop where
  defined : fits → x.isSome
  holds : ∀ a, x = some a → P a

variable {fits : Prop} {P Q : α → Prop} {R : β → Prop} {x : Option α} {xs ys : List α}

theorem Ensures.mono (hx : Ensures fits x P) (h : ∀ a, P a → Q a) : Ensures fits x Q :=
  ⟨hx.defined, fun a ha => h a (hx.holds a ha)⟩

/-- What it comes to is what it came to. -/
theorem Ensures.and_eq (hx : Ensures fits x P) : Ensures fits x fun a => x = some a ∧ P a :=
  ⟨hx.defined, fun a ha => ⟨ha, hx.holds a ha⟩⟩

theorem ensures_some {a : α} (h : P a) : Ensures fits (some a) P :=
  ⟨fun _ => rfl, fun _ heq => Option.some.inj heq ▸ h⟩

/-- Two computations in sequence. -/
theorem Ensures.bind {f : α → Option β} (hx : Ensures fits x P)
    (hf : ∀ a, P a → Ensures fits (f a) R) : Ensures fits (x >>= f) R := by
  cases hrun : x with
  | none =>
    exact ⟨fun hfits => absurd (hx.defined hfits) (hrun ▸ Bool.false_ne_true),
      fun b hb => by cases hb⟩
  | some a => exact hf a (hx.holds a hrun)

/-- …when the first comes to one value. -/
theorem Ensures.bind_eq {f : α → Option β} {a : α} (hx : Ensures fits x (· = a))
    (hf : Ensures fits (f a) R) : Ensures fits (x >>= f) R :=
  hx.bind fun _ h => h ▸ hf

/-- What does not trap at all. -/
theorem ensures_of_eq {a : α} (hx : x = some a) (h : P a) : Ensures fits x P := hx ▸ ensures_some h

/-- A sum that 64 bits hold if `fits` says so. -/
theorem ensures_int_of_fits {i : ℤ} (h : fits → -2 ^ 63 ≤ i ∧ i < 2 ^ 63) :
    Ensures fits (int i) (· = i) where
  defined hfits := by rw [int, if_pos (h hfits), Option.isSome_some]
  holds _ ha := (Option.some.inj (Option.ite_none_right_eq_some.mp ha).2).symm

theorem ensures_int {i : ℤ} (hlo : -2 ^ 63 ≤ i) (hhi : i < 2 ^ 63) : Ensures fits (int i) (· = i) :=
  ensures_int_of_fits fun _ => ⟨hlo, hhi⟩

theorem ensures_get {i : ℤ} {v : α} (hi : 0 ≤ i) (hget : xs[i.toNat]? = some v) :
    Ensures fits (get xs i) (· = v) :=
  ensures_of_eq ((if_pos hi).trans hget) rfl

theorem ensures_set {i : ℤ} {v : α} (hlo : 0 ≤ i) (hhi : i < xs.length) :
    Ensures fits (set xs i v) (· = xs.set i.toNat v) :=
  ensures_of_eq (if_pos ⟨hlo, hhi⟩) rfl

theorem ensures_modify {i : ℤ} {f : α → Option α} {g : α → α} (hlo : 0 ≤ i) (hhi : i < xs.length)
    (hf : ∀ v, xs[i.toNat]? = some v → Ensures fits (f v) (· = g v)) :
    Ensures fits (modify xs i f) (· = xs.modify i.toNat g) := by
  have hlt : i.toNat < xs.length := by omega
  have hget : xs[i.toNat]? = some xs[i.toNat] := List.getElem?_eq_getElem hlt
  refine (ensures_get hlo hget).bind_eq ((hf _ hget).bind_eq ?_)
  refine (ensures_set hlo hhi).mono fun ys hys => ?_
  rw [hys, List.modify_eq_set_getElem? , hget]
  rfl

theorem ensures_slice {lo hi : ℤ} (hlo : 0 ≤ lo) (hle : lo ≤ hi) (hhi : hi ≤ xs.length) :
    Ensures fits (slice xs lo hi) (· = (xs.take hi.toNat).drop lo.toNat) :=
  ensures_of_eq (if_pos ⟨hlo, hle, hhi⟩) rfl

theorem ensures_removeSubrange {lo hi : ℤ} (hlo : 0 ≤ lo) (hle : lo ≤ hi) (hhi : hi ≤ xs.length) :
    Ensures fits (removeSubrange xs lo hi) (· = xs.take lo.toNat ++ xs.drop hi.toNat) :=
  ensures_of_eq (if_pos ⟨hlo, hle, hhi⟩) rfl

theorem ensures_insert {i : ℤ} (hlo : 0 ≤ i) (hhi : i ≤ xs.length) :
    Ensures fits (insert xs ys i) (· = xs.take i.toNat ++ ys ++ xs.drop i.toNat) :=
  ensures_of_eq (if_pos ⟨hlo, hhi⟩) rfl

theorem ensures_removeFirst {k : ℤ} (hlo : 0 ≤ k) (hhi : k ≤ xs.length) :
    Ensures fits (removeFirst xs k) (· = xs.drop k.toNat) :=
  ensures_removeSubrange le_rfl hlo hhi

theorem ensures_removeLast {k : ℤ} (hlo : 0 ≤ k) (hhi : k ≤ xs.length) :
    Ensures fits (removeLast xs k) (· = xs.take (xs.length - k).toNat) := by
  refine (ensures_removeSubrange (by omega) (by omega) le_rfl).mono fun ys hys => ?_
  rw [hys, Int.toNat_natCast, List.drop_length, List.append_nil]

/-! What holds of every element. -/

theorem ensures_set_all {i : ℤ} {v : α} (hlo : 0 ≤ i) (hhi : i < xs.length) (hxs : ∀ x ∈ xs, P x)
    (hv : P v) : Ensures fits (set xs i v) fun ys => ys.length = xs.length ∧ ∀ y ∈ ys, P y := by
  refine (ensures_set hlo hhi).mono fun ys hys => ?_
  subst hys
  refine ⟨List.length_set, fun y hy => ?_⟩
  rcases List.mem_or_eq_of_mem_set hy with hmem | rfl
  · exact hxs y hmem
  · exact hv

theorem ensures_slice_all {lo hi : ℤ} (hlo : 0 ≤ lo) (hle : lo ≤ hi) (hhi : hi ≤ xs.length)
    (hxs : ∀ x ∈ xs, P x) :
    Ensures fits (slice xs lo hi) fun ys => (ys.length : ℤ) = hi - lo ∧ ∀ y ∈ ys, P y := by
  refine (ensures_slice hlo hle hhi).mono fun ys hys => ?_
  subst hys
  refine ⟨?_, fun y hy => hxs y (List.mem_of_mem_take (List.mem_of_mem_drop hy))⟩
  rw [List.length_drop, List.length_take]
  omega

theorem ensures_removeSubrange_all {lo hi : ℤ} (hlo : 0 ≤ lo) (hle : lo ≤ hi)
    (hhi : hi ≤ xs.length) (hxs : ∀ x ∈ xs, P x) :
    Ensures fits (removeSubrange xs lo hi) fun ys =>
      (ys.length : ℤ) = xs.length - (hi - lo) ∧ ∀ y ∈ ys, P y := by
  refine (ensures_removeSubrange hlo hle hhi).mono fun ys hys => ?_
  subst hys
  refine ⟨?_, fun y hy => ?_⟩
  · rw [List.length_append, List.length_take, List.length_drop]
    omega
  · rcases List.mem_append.mp hy with hmem | hmem
    · exact hxs y (List.mem_of_mem_take hmem)
    · exact hxs y (List.mem_of_mem_drop hmem)

theorem ensures_insert_all {i : ℤ} (hlo : 0 ≤ i) (hhi : i ≤ xs.length) (hxs : ∀ x ∈ xs, P x)
    (hys : ∀ y ∈ ys, P y) :
    Ensures fits (insert xs ys i) fun zs =>
      (zs.length : ℤ) = xs.length + ys.length ∧ ∀ z ∈ zs, P z := by
  refine (ensures_insert hlo hhi).mono fun zs hzs => ?_
  subst hzs
  refine ⟨?_, fun z hz => ?_⟩
  · rw [List.length_append, List.length_append, List.length_take, List.length_drop]
    omega
  · rcases List.mem_append.mp hz with hz | hmem
    · rcases List.mem_append.mp hz with hmem | hmem
      · exact hxs z (List.mem_of_mem_take hmem)
      · exact hys z hmem
    · exact hxs z (List.mem_of_mem_drop hmem)

/-- **A loop**: what each turn keeps at its index holds at the end. -/
theorem ensures_forRange {lo hi : ℤ} {b : β} {f : β → ℤ → Option β} (I : ℤ → β → Prop)
    (hle : lo ≤ hi) (hstart : I lo b)
    (hstep : ∀ i b, lo ≤ i → i < hi → I i b → Ensures fits (f b i) (I (i + 1))) :
    Ensures fits (forRange lo hi b f) (I hi) := by
  have hrun : ∀ n : ℕ, lo + n ≤ hi →
      Ensures fits ((List.range n).foldlM (fun b (k : ℕ) => f b (lo + k)) b) (I (lo + n)) := by
    intro n
    induction n with
    | zero =>
      intro _
      rw [Int.natCast_zero, add_zero]
      exact ensures_some hstart
    | succ n ih =>
      intro hn
      rw [List.range_succ, List.foldlM_append]
      refine (ih (by omega)).bind fun b' hb' => ?_
      rw [List.foldlM_cons]
      refine (hstep (lo + n) b' (by omega) (by omega) hb').bind fun b'' hb'' => ?_
      refine ensures_some ?_
      rwa [Int.natCast_succ, ← add_assoc]
  have hend := hrun (hi - lo).toNat (by omega)
  rw [Int.toNat_of_nonneg (by omega), add_sub_cancel] at hend
  rw [forRange, if_pos hle]
  exact hend

end Checked
