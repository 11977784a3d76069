import Mathlib.Data.List.Basic
import Mathlib.Order.WellFounded

/-!
# Lib/Run — runs of a step function

`after step s as` is the state a list of actions leads to, and `Along step P s as` says that every
action of the run meets `P` in the state it is taken in.  `Along.invariant` is the induction over a
run: what holds at the start, and is kept by every step that meets `P`, holds at the end.
`holds_iff_along` is the exact form: a property that a bad step breaks for good holds at the end of
the runs without a bad step, and of no other.  `gets_done` is for what comes to an end.
-/

universe u v

namespace Run

variable {σ : Type u} {α : Type v}

/-- The state a list of actions leads to. -/
def after (step : σ → α → σ) (s : σ) (as : List α) : σ := as.foldl step s

/-- Every action of the run meets `P` in the state it is taken in. -/
def Along (step : σ → α → σ) (P : σ → α → Prop) : σ → List α → Prop
  | _, [] => True
  | s, a :: as => P s a ∧ Along step P (step s a) as

variable {step : σ → α → σ} {P R : σ → α → Prop} {I S : σ → Prop}

@[simp] theorem after_nil (s : σ) : after step s [] = s := rfl

@[simp] theorem after_cons (s : σ) (a : α) (as : List α) :
    after step s (a :: as) = after step (step s a) as := rfl

theorem after_append (s : σ) (as bs : List α) :
    after step s (as ++ bs) = after step (after step s as) bs :=
  List.foldl_append

instance Along.decidable [∀ s a, Decidable (P s a)] :
    ∀ (s : σ) (as : List α), Decidable (Along step P s as)
  | _, [] => inferInstanceAs (Decidable True)
  | s, a :: as => @instDecidableAnd _ _ _ (Along.decidable (step s a) as)

/-- What every action meets in every state is met along the run. -/
theorem along_of_forall {Q : α → Prop} :
    ∀ (as : List α) {s : σ}, (∀ a ∈ as, Q a) → Along step (fun _ a => Q a) s as
  | [], _, _ => trivial
  | a :: as, _, h =>
    ⟨h a List.mem_cons_self, along_of_forall as fun b hb => h b (List.mem_cons_of_mem _ hb)⟩

/-- Two conditions met along a run are met together. -/
theorem Along.and : ∀ (as : List α) {s : σ}, Along step P s as → Along step R s as →
    Along step (fun s a => P s a ∧ R s a) s as
  | [], _, _, _ => trivial
  | _ :: as, _, hp, hr => ⟨⟨hp.1, hr.1⟩, Along.and as hp.2 hr.2⟩

/-- A run that goes on. -/
theorem Along.append : ∀ {as bs : List α} {s : σ}, Along step P s as →
    Along step P (after step s as) bs → Along step P s (as ++ bs)
  | [], _, _, _, h => h
  | _ :: _, _, _, h, h' => ⟨h.1, Along.append h.2 h'⟩

/-- **The run rule**: what every step that meets `P` keeps is kept by a run of such steps. -/
theorem Along.invariant (hstep : ∀ s a, I s → P s a → I (step s a)) :
    ∀ (as : List α) {s : σ}, I s → Along step P s as → I (after step s as)
  | [], _, h, _ => h
  | a :: as, s, h, hp => Along.invariant hstep as (hstep s a h hp.1) hp.2

/-- The run rule for steps that keep `I` whatever they are. -/
theorem invariant (hstep : ∀ s a, I s → I (step s a)) :
    ∀ (as : List α) {s : σ}, I s → I (after step s as)
  | [], _, h => h
  | a :: as, s, h => invariant hstep as (hstep s a h)

/-- The run rule for an invariant that may rest on what was seen (`W`) on the way. -/
theorem invariant_seen {I : Prop → σ → Prop}
    (hstep : ∀ W s a, I W s → I (W ∨ S (step s a)) (step s a))
    (hmono : ∀ W W' s, (W → W') → I W s → I W' s) :
    ∀ (as : List α) {W : Prop} {s : σ}, I W s →
      I (W ∨ ∃ n, S (after step s (as.take n))) (after step s as)
  | [], _, _, h => hmono _ _ _ Or.inl h
  | a :: as, W, s, h => by
      refine hmono _ _ _ ?_ (invariant_seen hstep hmono as (hstep W s a h))
      rintro ((hW | hS) | ⟨n, hS⟩)
      · exact Or.inl hW
      · exact Or.inr ⟨1, hS⟩
      · exact Or.inr ⟨n + 1, hS⟩

/-- What a step cannot bring back, a run cannot either. -/
theorem of_after (hdown : ∀ s a, S (step s a) → S s) :
    ∀ (as : List α) {s : σ}, S (after step s as) → S s
  | [], _, h => h
  | a :: as, s, h => hdown s a (of_after hdown as h)

/-- **The exact run rule.**  When good steps keep an invariant that gives `S`, and a bad step breaks
`S` for good, the runs that end in `S` are those without a bad step. -/
theorem holds_iff_along (hgood : ∀ s a, I s → R s a → P s a → I (step s a))
    (hholds : ∀ s, I s → S s) (hbad : ∀ s a, I s → R s a → ¬ P s a → ¬ S (step s a))
    (hdown : ∀ s a, S (step s a) → S s) :
    ∀ (as : List α) {s : σ}, I s → Along step R s as →
      (S (after step s as) ↔ Along step P s as)
  | [], s, h, _ => ⟨fun _ => trivial, fun _ => hholds s h⟩
  | a :: as, s, h, hr => by
      by_cases hp : P s a
      · rw [after_cons, holds_iff_along hgood hholds hbad hdown as (hgood s a h hr.1 hp) hr.2]
        exact ⟨fun hrest => ⟨hp, hrest⟩, fun hall => hall.2⟩
      · refine ⟨fun hS => ?_, fun hall => absurd hall.1 hp⟩
        exact absurd (of_after hdown as hS) (hbad s a h hr.1 hp)

/-- The exact run rule for what is to hold in every state of the run. -/
theorem always_iff_along (hgood : ∀ s a, I s → P s a → I (step s a)) (hholds : ∀ s, I s → S s)
    (hbad : ∀ s a, I s → ¬ P s a → ¬ S (step s a)) :
    ∀ (as : List α) {s : σ}, I s → ((∀ n, S (after step s (as.take n))) ↔ Along step P s as)
  | [], s, h => ⟨fun _ => trivial, fun _ n => by rw [List.take_nil]; exact hholds s h⟩
  | a :: as, s, h => by
      by_cases hp : P s a
      · have ih := always_iff_along hgood hholds hbad as (hgood s a h hp)
        refine ⟨fun hS => ⟨hp, ih.mp fun n => hS (n + 1)⟩, fun hall n => ?_⟩
        cases n with
        | zero => exact hholds s h
        | succ n => exact ih.mpr hall.2 n
      · exact ⟨fun hS => absurd (hS 1) (hbad s a h hp), fun hall => absurd hall.1 hp⟩

/-- Two conditions on steps that come to the same in every state that keeps the invariant. -/
theorem along_iff_along (hgood : ∀ s a, I s → P s a → R s a ∧ I (step s a))
    (hbad : ∀ s a, I s → ¬ P s a → ¬ R s a) :
    ∀ (as : List α) {s : σ}, I s → (Along step R s as ↔ Along step P s as)
  | [], _, _ => Iff.rfl
  | a :: as, s, h => by
      by_cases hp : P s a
      · obtain ⟨hr, hI⟩ := hgood s a h hp
        have ih := along_iff_along hgood hbad as hI
        exact ⟨fun hall => ⟨hp, ih.mp hall.2⟩, fun hall => ⟨hr, ih.mpr hall.2⟩⟩
      · exact ⟨fun hall => absurd hall.1 (hbad s a h hp), fun hall => absurd hall.1 hp⟩

/-- The state the first actions of a stream lead to. -/
theorem after_stream (s : σ) (as : ℕ → α) (k : ℕ) : after step s ((List.range (k + 1)).map as)
    = after step (step s (as 0)) ((List.range k).map fun i => as (i + 1)) := by
  rw [List.range_succ_eq_map, List.map_cons, List.map_map]
  rfl

/-- **The rule for what ends**: when the actions of a kind bring a state down a well-founded order
until it is done, and the others leave it where it is, a run with ever more of the kind gets
done. -/
theorem gets_done {ι : Type*} [LT ι] [WellFoundedLT ι] (rank : σ → ι) {C : α → Prop}
    (hdown : ∀ s a, C a → ¬ S s → rank (step s a) < rank s)
    (hother : ∀ s a, ¬ C a → rank (step s a) = rank s) (s : σ) (as : ℕ → α)
    (hfair : ∀ k, ∃ j, k ≤ j ∧ C (as j)) : ∃ k, S (after step s ((List.range k).map as)) := by
  induction hrank : rank s using WellFoundedLT.induction generalizing s as with
  | ind r ih =>
    have hlater : ∀ {as : ℕ → α}, (∀ k, ∃ j, k ≤ j ∧ C (as j)) → ∀ k, ∃ i, k ≤ i ∧ C (as (i + 1)) :=
      fun hfair k => (hfair (k + 1)).elim fun i hi => ⟨i - 1, by omega, by
        rw [Nat.sub_add_cancel (by omega)]
        exact hi.2⟩
    obtain ⟨j, -, hj⟩ := hfair 0
    -- Up to the first action of the kind nothing comes down.
    induction j generalizing s as with
    | zero =>
      by_cases hdone : S s
      · exact ⟨0, hdone⟩
      obtain ⟨k, hk⟩ := ih _ (hrank ▸ hdown s (as 0) hj hdone) (step s (as 0)) _ (hlater hfair) rfl
      exact ⟨k + 1, by rwa [after_stream]⟩
    | succ j ihj =>
      by_cases hfirst : C (as 0)
      · by_cases hdone : S s
        · exact ⟨0, hdone⟩
        obtain ⟨k, hk⟩ :=
          ih _ (hrank ▸ hdown s (as 0) hfirst hdone) (step s (as 0)) _ (hlater hfair) rfl
        exact ⟨k + 1, by rwa [after_stream]⟩
      · obtain ⟨k, hk⟩ := ihj (step s (as 0)) (fun i => as (i + 1)) (hlater hfair)
          ((hother s (as 0) hfirst).trans hrank) hj
        exact ⟨k + 1, by rwa [after_stream]⟩

end Run
