import Mathlib.Data.List.Basic

/-!
# Lib/Framing — cutting frames off a stream

A `Framing` looks at what has arrived and cuts one frame off the front, or waits for more, or gives
up.  More to come changes neither a cut nor a refusal, so what is cut off a stream does not depend
on how it arrived: `Took fs bs rest` says that the frames `fs` were cut off `bs` and `rest` is left,
and `whole bs` is all there is to cut.
-/

universe u v

/-- What the front of a stream is. -/
inductive Cut (α : Type u)
  | incomplete
  | malformed
  | frame (a : α) (count : ℕ)
deriving DecidableEq

/-- A way to cut frames off a stream. -/
structure Framing (β : Type v) (α : Type u) where
  next : List β → Cut α
  pos : ∀ {bs a n}, next bs = .frame a n → 0 < n
  le : ∀ {bs a n}, next bs = .frame a n → n ≤ bs.length
  frame_append : ∀ {bs a n}, next bs = .frame a n → ∀ more, next (bs ++ more) = .frame a n
  malformed_append : ∀ {bs}, next bs = .malformed → ∀ more, next (bs ++ more) = .malformed

namespace Framing

variable {β : Type v} {α : Type u} (F : Framing β α)

/-- All that can be cut off. -/
def whole (bs : List β) : List α :=
  match h : F.next bs with
  | .frame a n =>
    have := F.pos h
    have := F.le h
    a :: whole (bs.drop n)
  | _ => []
termination_by bs.length
decreasing_by
  rw [List.length_drop]
  omega

/-- The frames `fs` were cut off `bs`, and `rest` is left. -/
inductive Took : List α → List β → List β → Prop
  | nil (bs : List β) : Took [] bs bs
  | cons {a : α} {n : ℕ} {fs : List α} {bs rest : List β} :
      F.next bs = .frame a n → Took fs (bs.drop n) rest → Took (a :: fs) bs rest

variable {F} {a : α} {n : ℕ} {fs : List α} {bs rest : List β}

theorem whole_of_frame (h : F.next bs = .frame a n) :
    F.whole bs = a :: F.whole (bs.drop n) := by
  rw [whole]
  split
  · next heq =>
    obtain ⟨rfl, rfl⟩ := Cut.frame.inj (heq.symm.trans h)
    rfl
  · next hno => exact absurd h (hno a n)

theorem whole_of_not_frame (h : ∀ a n, F.next bs ≠ .frame a n) : F.whole bs = [] := by
  rw [whole]
  split
  · next heq => exact absurd heq (h _ _)
  · rfl

/-- What was cut off and what can still be cut is all there was. -/
theorem Took.whole_eq (h : F.Took fs bs rest) : F.whole bs = fs ++ F.whole rest := by
  induction h with
  | nil bs => rfl
  | cons hnext _ ih => rw [whole_of_frame hnext, ih, List.cons_append]

/-- More arrives behind what is left. -/
theorem Took.append (h : F.Took fs bs rest) (more : List β) :
    F.Took fs (bs ++ more) (rest ++ more) := by
  induction h with
  | nil bs => exact .nil _
  | cons hnext _ ih =>
    refine .cons (F.frame_append hnext more) ?_
    rw [List.drop_append_of_le_length (F.le hnext)]
    exact ih

/-- One more frame is cut off. -/
theorem Took.snoc (h : F.Took fs bs rest) (hnext : F.next rest = .frame a n) :
    F.Took (fs ++ [a]) bs (rest.drop n) := by
  induction h with
  | nil bs => exact .cons hnext (.nil _)
  | cons hfirst _ ih => exact .cons hfirst (ih hnext)

/-- What was cut off is what the stream begins with, whatever is still to come. -/
theorem Took.begins (h : F.Took fs bs rest) (more : List β) : fs <+: F.whole (bs ++ more) :=
  ⟨_, ((h.append more).whole_eq).symm⟩

/-- With no frame left to cut, all of them were. -/
theorem Took.all (h : F.Took fs bs rest) (hno : ∀ a n, F.next rest ≠ .frame a n) :
    fs = F.whole bs := by
  rw [h.whole_eq, whole_of_not_frame hno, List.append_nil]

/-- The same frames leave the same behind them. -/
theorem Took.unique {rest' : List β} (h : F.Took fs bs rest) (h' : F.Took fs bs rest') :
    rest = rest' := by
  induction h with
  | nil bs =>
    cases h'
    rfl
  | cons hnext _ ih =>
    cases h' with
    | cons hnext' h' =>
      obtain ⟨-, rfl⟩ := Cut.frame.inj (hnext.symm.trans hnext')
      exact ih h'

/-- What one framing cuts off, another cuts off that cuts off at least the same. -/
theorem Took.mono {G : Framing β α} (h : F.Took fs bs rest)
    (hmono : ∀ bs a n, F.next bs = .frame a n → G.next bs = .frame a n) : G.Took fs bs rest := by
  induction h with
  | nil bs => exact .nil bs
  | cons hnext _ ih => exact .cons (hmono _ _ _ hnext) ih

/-- Nothing is cut off from where the front is refused on, whatever another framing cuts there. -/
theorem Took.prefix_of_malformed {G : Framing β α} {fs' : List α} {bad : List β}
    (h' : G.Took fs' bs bad) (hmono : ∀ bs a n, F.next bs = .frame a n → G.next bs = .frame a n)
    (hbad : F.next bad = .malformed) (h : F.Took fs bs rest) : fs <+: fs' := by
  induction h' generalizing fs with
  | nil bs =>
    cases h with
    | nil => exact List.prefix_rfl
    | cons hnext _ =>
      rw [hbad] at hnext
      cases hnext
  | cons hnext' _ ih =>
    cases h with
    | nil => exact List.nil_prefix
    | cons hnext h =>
      obtain ⟨rfl, rfl⟩ := Cut.frame.inj ((hmono _ _ _ hnext).symm.trans hnext')
      exact List.prefix_cons_inj _ |>.mpr (ih hbad h)

end Framing
