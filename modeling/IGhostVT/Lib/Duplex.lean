import IGhostVT.Lib.Run
import Mathlib.Data.Finset.Lattice.Fold

/-!
# Lib/Duplex — two machines that talk through byte streams

A transducer reads symbols one at a time and emits some for each; `Transducer.run` is what a list of
them comes to.  Two machines talk through two streams, each queued and read by a parser whose events
drive the machine at the far end, and what it sends joins the other queue (`Duplex.deliver`, which
takes any number of bytes off either queue).

Reading is deterministic, so a queue of bytes under its reader is a queue of the events it will come
to.  `Duplex.talk` is the conversation seen so, event by event and without the events that mean
nothing to a machine; a delivery of bytes is some number of its steps (`talk_deliver`).  So what
those steps keep holds in every run of deliveries, however the bytes were cut and whichever way they
interleave (`Duplex.invariant`), and when each step uses up some of a finite stock, the runs are
bounded (`Duplex.exists_bound`).
-/

universe u v w x y

namespace Transducer

variable {σ : Type u} {α : Type v} {β : Type w}

/-- Reading a list of symbols, and all that is emitted. -/
def run (f : σ → α → σ × List β) : σ → List α → σ × List β
  | s, [] => (s, [])
  | s, a :: as => ((run f (f s a).1 as).1, (f s a).2 ++ (run f (f s a).1 as).2)

variable (f : σ → α → σ × List β)

@[simp] theorem run_nil (s : σ) : run f s [] = (s, []) := rfl

theorem run_cons (s : σ) (a : α) (as : List α) :
    run f s (a :: as) = ((run f (f s a).1 as).1, (f s a).2 ++ (run f (f s a).1 as).2) := rfl

@[simp] theorem run_singleton (s : σ) (a : α) : run f s [a] = f s a := by
  rw [run_cons, run_nil, List.append_nil]

theorem run_append (s : σ) (as bs : List α) :
    run f s (as ++ bs) =
      ((run f (run f s as).1 bs).1, (run f s as).2 ++ (run f (run f s as).1 bs).2) := by
  induction as generalizing s with
  | nil => rfl
  | cons a as ih => rw [List.cons_append, run_cons, run_cons, ih, List.append_assoc]

/-- Symbols that change nothing and emit nothing need not be read. -/
theorem run_filter {p : α → Bool} (h : ∀ s a, p a = false → f s a = (s, [])) (s : σ) (as : List α) :
    run f s (as.filter p) = run f s as := by
  induction as generalizing s with
  | nil => rfl
  | cons a as ih =>
    cases hp : p a with
    | true => rw [List.filter_cons_of_pos hp, run_cons, run_cons, ih]
    | false =>
      rw [List.filter_cons_of_neg (by rw [hp]; exact Bool.false_ne_true), ih, run_cons, h s a hp]
      rfl

end Transducer

/-- Two machines, the bytes on the way to each, and the parser each is read with. -/
structure Duplex (π : Type u) (β : Type v) (σ : Type x) (τ : Type y) where
  left : σ
  toLeft : List β
  leftParser : π
  right : τ
  toRight : List β
  rightParser : π

/-- A conversation seen event by event: what each machine has yet to hear, and the parsers as they
will be when all of it is read. -/
structure Talk (π : Type u) (ε : Type w) (σ : Type x) (τ : Type y) where
  left : σ
  toLeft : List ε
  leftEnd : π
  right : τ
  toRight : List ε
  rightEnd : π

/-- The rules of a conversation: a parser, the two machines, and the events that mean something to
them. -/
structure Talk.Rules (π : Type u) (β : Type v) (ε : Type w) (σ : Type x) (τ : Type y) where
  consume : π → β → π × List ε
  isSignal : ε → Bool
  actLeft : σ → ε → σ × List β
  actRight : τ → ε → τ × List β
  silentLeft : ∀ s e, isSignal e = false → actLeft s e = (s, [])
  silentRight : ∀ t e, isSignal e = false → actRight t e = (t, [])

/-- Bytes taken off one of the queues, as many as there are of `count`. -/
inductive Delivery
  | toLeft (count : ℕ)
  | toRight (count : ℕ)
deriving DecidableEq

namespace Duplex

open Transducer

variable {π : Type u} {β : Type v} {ε : Type w} {σ : Type x} {τ : Type y}
  (R : Talk.Rules π β ε σ τ)

/-- The machine hears what its parser makes of the bytes, and answers into the other queue. -/
def deliver (d : Duplex π β σ τ) : Delivery → Duplex π β σ τ
  | .toLeft count =>
    let (parser, events) := run R.consume d.leftParser (d.toLeft.take count)
    let (left, bytes) := run R.actLeft d.left events
    { d with
      left, leftParser := parser, toLeft := d.toLeft.drop count, toRight := d.toRight ++ bytes }
  | .toRight count =>
    let (parser, events) := run R.consume d.rightParser (d.toRight.take count)
    let (right, bytes) := run R.actRight d.right events
    { d with
      right, rightParser := parser, toRight := d.toRight.drop count, toLeft := d.toLeft ++ bytes }

/-- The delivery has a byte to take. -/
def Moves (d : Duplex π β σ τ) : Delivery → Prop
  | .toLeft count => 0 < count ∧ d.toLeft ≠ []
  | .toRight count => 0 < count ∧ d.toRight ≠ []

/-- What the machine at the far end will hear of the bytes. -/
def signals (p : π) (bytes : List β) : List ε := (run R.consume p bytes).2.filter R.isSignal

theorem signals_append (p : π) (bs cs : List β) :
    signals R p (bs ++ cs) = signals R p bs ++ signals R (run R.consume p bs).1 cs := by
  rw [signals, run_append, List.filter_append]
  rfl

def talk (d : Duplex π β σ τ) : Talk π ε σ τ where
  left := d.left
  toLeft := signals R d.leftParser d.toLeft
  leftEnd := (run R.consume d.leftParser d.toLeft).1
  right := d.right
  toRight := signals R d.rightParser d.toRight
  rightEnd := (run R.consume d.rightParser d.toRight).1

end Duplex

namespace Talk

open Transducer

variable {π : Type u} {β : Type v} {ε : Type w} {σ : Type x} {τ : Type y}
  (R : Talk.Rules π β ε σ τ)

/-- The left machine hears `es`, and `rest` is left for it to hear. -/
def hearLeft (t : Talk π ε σ τ) (es rest : List ε) : Talk π ε σ τ :=
  let (left, bytes) := run R.actLeft t.left es
  { t with
    left, toLeft := rest
    toRight := t.toRight ++ Duplex.signals R t.rightEnd bytes
    rightEnd := (run R.consume t.rightEnd bytes).1 }

def hearRight (t : Talk π ε σ τ) (es rest : List ε) : Talk π ε σ τ :=
  let (right, bytes) := run R.actRight t.right es
  { t with
    right, toRight := rest
    toLeft := t.toLeft ++ Duplex.signals R t.leftEnd bytes
    leftEnd := (run R.consume t.leftEnd bytes).1 }

theorem hearLeft_nil (t : Talk π ε σ τ) : t.hearLeft R [] t.toLeft = t := by
  simp only [hearLeft, run_nil, Duplex.signals, List.filter_nil, List.append_nil]

theorem hearRight_nil (t : Talk π ε σ τ) : t.hearRight R [] t.toRight = t := by
  simp only [hearRight, run_nil, Duplex.signals, List.filter_nil, List.append_nil]

theorem hearLeft_cons (t : Talk π ε σ τ) (e : ε) (es rest : List ε) :
    t.hearLeft R (e :: es) rest = (t.hearLeft R [e] (es ++ rest)).hearLeft R es rest := by
  simp only [hearLeft, run_cons, run_nil, List.append_nil, Duplex.signals_append, run_append,
    List.append_assoc]

theorem hearRight_cons (t : Talk π ε σ τ) (e : ε) (es rest : List ε) :
    t.hearRight R (e :: es) rest = (t.hearRight R [e] (es ++ rest)).hearRight R es rest := by
  simp only [hearRight, run_cons, run_nil, List.append_nil, Duplex.signals_append, run_append,
    List.append_assoc]

/-- `J n` is kept, and every event that is heard uses up some of the stock `n`. -/
structure Spends (J : ℕ → Talk π ε σ τ → Prop) : Prop where
  left : ∀ {n t e rest}, J n t → t.toLeft = e :: rest → ∃ m < n, J m (t.hearLeft R [e] rest)
  right : ∀ {n t e rest}, J n t → t.toRight = e :: rest → ∃ m < n, J m (t.hearRight R [e] rest)

variable {R} {J : ℕ → Talk π ε σ τ → Prop}

theorem Spends.hearLeft (h : Spends R J) {rest : List ε} :
    ∀ (es : List ε) {n : ℕ} {t : Talk π ε σ τ}, J n t → t.toLeft = es ++ rest →
      ∃ m, m + es.length ≤ n ∧ J m (t.hearLeft R es rest)
  | [], n, t, hJ, heq => by
      obtain rfl : t.toLeft = rest := heq
      rw [hearLeft_nil]
      exact ⟨n, le_rfl, hJ⟩
  | e :: es, n, t, hJ, heq => by
      obtain ⟨m, hm, hone⟩ := h.left hJ heq
      obtain ⟨k, hk, hall⟩ := h.hearLeft es hone rfl
      rw [hearLeft_cons]
      exact ⟨k, by rw [List.length_cons]; omega, hall⟩

theorem Spends.hearRight (h : Spends R J) {rest : List ε} :
    ∀ (es : List ε) {n : ℕ} {t : Talk π ε σ τ}, J n t → t.toRight = es ++ rest →
      ∃ m, m + es.length ≤ n ∧ J m (t.hearRight R es rest)
  | [], n, t, hJ, heq => by
      obtain rfl : t.toRight = rest := heq
      rw [hearRight_nil]
      exact ⟨n, le_rfl, hJ⟩
  | e :: es, n, t, hJ, heq => by
      obtain ⟨m, hm, hone⟩ := h.right hJ heq
      obtain ⟨k, hk, hall⟩ := h.hearRight es hone rfl
      rw [hearRight_cons]
      exact ⟨k, by rw [List.length_cons]; omega, hall⟩

end Talk

namespace Duplex

open Transducer Talk

variable {π : Type u} {β : Type v} {ε : Type w} {σ : Type x} {τ : Type y}
  {R : Talk.Rules π β ε σ τ} {J : ℕ → Talk π ε σ τ → Prop}

/-- **A delivery of bytes is the hearing of the events they come to.** -/
theorem talk_deliver_toLeft (d : Duplex π β σ τ) (count : ℕ) :
    (d.deliver R (.toLeft count)).talk R = (d.talk R).hearLeft R
      (signals R d.leftParser (d.toLeft.take count))
      (signals R (run R.consume d.leftParser (d.toLeft.take count)).1 (d.toLeft.drop count)) := by
  have hends := run_append R.consume d.leftParser (d.toLeft.take count) (d.toLeft.drop count)
  rw [List.take_append_drop] at hends
  simp only [deliver, talk, Talk.hearLeft, signals, run_filter R.actLeft R.silentLeft, hends,
    run_append, List.filter_append]

theorem talk_deliver_toRight (d : Duplex π β σ τ) (count : ℕ) :
    (d.deliver R (.toRight count)).talk R = (d.talk R).hearRight R
      (signals R d.rightParser (d.toRight.take count))
      (signals R (run R.consume d.rightParser (d.toRight.take count)).1
        (d.toRight.drop count)) := by
  have hends := run_append R.consume d.rightParser (d.toRight.take count) (d.toRight.drop count)
  rw [List.take_append_drop] at hends
  simp only [deliver, talk, Talk.hearRight, signals, run_filter R.actRight R.silentRight, hends,
    run_append, List.filter_append]

/-- The bytes on the way. -/
def bytes (d : Duplex π β σ τ) : ℕ := d.toLeft.length + d.toRight.length

/-- A delivery keeps `J`; one that spends none of the stock leaves fewer bytes on the way. -/
theorem deliver_spends (h : Spends R J) {d : Duplex π β σ τ} {n : ℕ} (hJ : J n (d.talk R))
    (x : Delivery) : ∃ m ≤ n, J m ((d.deliver R x).talk R)
      ∧ (d.Moves x → m < n ∨ (d.deliver R x).bytes < d.bytes) := by
  cases x with
  | toLeft count =>
    rw [talk_deliver_toLeft]
    have hsplit := signals_append R d.leftParser (d.toLeft.take count) (d.toLeft.drop count)
    rw [List.take_append_drop] at hsplit
    obtain ⟨m, hm, hkept⟩ := h.hearLeft _ hJ hsplit
    refine ⟨m, by omega, hkept, fun hmoves => or_iff_not_imp_left.mpr fun hnot => ?_⟩
    have hnone := List.length_eq_zero_iff.mp (show
      (signals R d.leftParser (d.toLeft.take count)).length = 0 by omega)
    have hact := run_filter R.actLeft R.silentLeft d.left
      (run R.consume d.leftParser (d.toLeft.take count)).2
    rw [show List.filter _ _ = [] from hnone] at hact
    have hlength := List.length_pos_iff.mpr hmoves.2
    simp only [deliver, bytes, ← hact, run_nil, List.append_nil, List.length_drop]
    have := hmoves.1
    omega
  | toRight count =>
    rw [talk_deliver_toRight]
    have hsplit := signals_append R d.rightParser (d.toRight.take count) (d.toRight.drop count)
    rw [List.take_append_drop] at hsplit
    obtain ⟨m, hm, hkept⟩ := h.hearRight _ hJ hsplit
    refine ⟨m, by omega, hkept, fun hmoves => or_iff_not_imp_left.mpr fun hnot => ?_⟩
    have hnone := List.length_eq_zero_iff.mp (show
      (signals R d.rightParser (d.toRight.take count)).length = 0 by omega)
    have hact := run_filter R.actRight R.silentRight d.right
      (run R.consume d.rightParser (d.toRight.take count)).2
    rw [show List.filter _ _ = [] from hnone] at hact
    have hlength := List.length_pos_iff.mpr hmoves.2
    simp only [deliver, bytes, ← hact, run_nil, List.append_nil, List.length_drop]
    have := hmoves.1
    omega

/-- **The run rule**: what hearing one event keeps, holds after every run of deliveries. -/
theorem invariant (h : Spends R J) : ∀ (xs : List Delivery) {d : Duplex π β σ τ} {n : ℕ},
    J n (d.talk R) → ∃ m ≤ n, J m ((Run.after (deliver R) d xs).talk R)
  | [], _, n, hJ => ⟨n, le_rfl, hJ⟩
  | x :: xs, d, n, hJ => by
      obtain ⟨m, hm, hkept, -⟩ := deliver_spends h hJ x
      obtain ⟨k, hk, hend⟩ := invariant h xs hkept
      exact ⟨k, hk.trans hm, hend⟩

/-- No more is taken off a queue than it holds. -/
def clip (d : Duplex π β σ τ) : Delivery → Delivery
  | .toLeft count => .toLeft (min count d.toLeft.length)
  | .toRight count => .toRight (min count d.toRight.length)

theorem deliver_clip (d : Duplex π β σ τ) (x : Delivery) :
    d.deliver R (d.clip x) = d.deliver R x := by
  have htake : ∀ (count : ℕ) (bs : List β), bs.take (min count bs.length) = bs.take count := by
    intro count bs
    rw [← List.take_take, List.take_length]
  have hdrop : ∀ (count : ℕ) (bs : List β), bs.drop (min count bs.length) = bs.drop count := by
    intro count bs
    rcases le_total count bs.length with hle | hle
    · rw [min_eq_left hle]
    · rw [min_eq_right hle, List.drop_length, List.drop_of_length_le hle]
  cases x <;> simp only [clip, deliver, htake, hdrop]

/-- A bound for every next delivery gives one for them all: only finitely many differ. -/
theorem exists_bound_of_next {d : Duplex π β σ τ} (h : ∀ x, d.Moves x → ∃ bound,
    ∀ xs, Run.Along (deliver R) Moves (d.deliver R x) xs → xs.length ≤ bound) :
    ∃ bound, ∀ xs, Run.Along (deliver R) Moves d xs → xs.length ≤ bound := by
  have hclip : ∀ x, ∃ bound, d.Moves x →
      ∀ xs, Run.Along (deliver R) Moves (d.deliver R x) xs → xs.length ≤ bound := by
    intro x
    by_cases hmoves : d.Moves x
    · obtain ⟨bound, hbound⟩ := h x hmoves
      exact ⟨bound, fun _ => hbound⟩
    · exact ⟨0, fun hmoves' => absurd hmoves' hmoves⟩
  choose bound hbound using hclip
  let left := (Finset.range (d.toLeft.length + 1)).sup fun k => bound (.toLeft k)
  let right := (Finset.range (d.toRight.length + 1)).sup fun k => bound (.toRight k)
  refine ⟨left + right + 1, fun xs hxs => ?_⟩
  match xs with
  | [] => exact Nat.zero_le _
  | x :: xs =>
    have hmoves : d.Moves (d.clip x) := by
      cases x with
      | toLeft count => exact ⟨lt_min hxs.1.1 (List.length_pos_iff.mpr hxs.1.2), hxs.1.2⟩
      | toRight count => exact ⟨lt_min hxs.1.1 (List.length_pos_iff.mpr hxs.1.2), hxs.1.2⟩
    have hrest : xs.length ≤ bound (d.clip x) := by
      refine hbound (d.clip x) hmoves xs ?_
      rw [deliver_clip]
      exact hxs.2
    have hle : bound (d.clip x) ≤ left + right := by
      cases x with
      | toLeft count =>
        refine le_trans ?_ (Nat.le_add_right left right)
        exact Finset.le_sup (f := fun k => bound (.toLeft k))
          (Finset.mem_range.mpr (Nat.lt_succ_of_le (min_le_right _ _)))
      | toRight count =>
        refine le_trans ?_ (Nat.le_add_left right left)
        exact Finset.le_sup (f := fun k => bound (.toRight k))
          (Finset.mem_range.mpr (Nat.lt_succ_of_le (min_le_right _ _)))
    rw [List.length_cons]
    omega

/-- **The runs are bounded** when hearing an event spends some of a finite stock: by induction on
the stock and then on the bytes on the way. -/
theorem exists_bound (h : Spends R J) (n : ℕ) : ∀ (b : ℕ) {d : Duplex π β σ τ},
    J n (d.talk R) → d.bytes = b →
      ∃ bound, ∀ xs, Run.Along (deliver R) Moves d xs → xs.length ≤ bound := by
  induction n using Nat.strong_induction_on with
  | _ n ihn =>
    intro b
    induction b using Nat.strong_induction_on with
    | _ b ihb =>
      intro d hJ hb
      refine exists_bound_of_next fun x hmoves => ?_
      obtain ⟨m, hm, hkept, hless⟩ := deliver_spends h hJ x
      obtain hlt | hlt := hless hmoves
      · exact ihn m hlt _ hkept rfl
      · obtain hlt' | rfl := lt_or_eq_of_le hm
        · exact ihn m hlt' _ hkept rfl
        · exact ihb _ (hb ▸ hlt) hkept rfl

end Duplex
