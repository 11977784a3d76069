import Mathlib.Data.List.Basic

/-!
# Lib/Fields — separated fields

What `List.splitOn` keeps: every field's elements come from the list, none is the separator, and the
fields with their separators are exactly as long as the list.
-/

universe u

namespace List

variable {α : Type u}

/-- The length of fields written with one separator between each two. -/
def joinedLength : List (List α) → ℕ
  | [] => 0
  | [f] => f.length
  | f :: fs => f.length + 1 + joinedLength fs

theorem joinedLength_modifyHead_cons (a : α) {fs : List (List α)} (h : fs ≠ []) :
    joinedLength (fs.modifyHead (cons a)) = joinedLength fs + 1 := by
  match fs, h with
  | [f], _ => rfl
  | f :: g :: fs, _ =>
    change (f.length + 1) + 1 + joinedLength (g :: fs) = f.length + 1 + joinedLength (g :: fs) + 1
    omega

/-- Fields and separators make up the list. -/
theorem joinedLength_splitOn [BEq α] [LawfulBEq α] (a : α) (xs : List α) :
    joinedLength (xs.splitOn a) = xs.length := by
  induction xs with
  | nil => rfl
  | cons x xs ih =>
    rw [splitOn_cons_eq_if_modifyHead]
    split_ifs
    · cases hs : xs.splitOn a with
      | nil => exact absurd hs (splitOn_ne_nil a xs)
      | cons f fs =>
        rw [hs] at ih
        change 0 + 1 + joinedLength (f :: fs) = xs.length + 1
        omega
    · rw [joinedLength_modifyHead_cons x (splitOn_ne_nil a xs), ih, length_cons]

theorem length_le_joinedLength {fs : List (List α)} {f : List α} (h : f ∈ fs) :
    f.length ≤ joinedLength fs := by
  induction fs with
  | nil => simp at h
  | cons g fs ih =>
    cases fs with
    | nil => simp_all [joinedLength]
    | cons g' fs =>
      rw [joinedLength.eq_3 _ _ (by simp)]
      rcases mem_cons.mp h with rfl | h
      · omega
      · have := ih h
        omega

/-- A field's elements are the list's, the separator apart. -/
theorem mem_of_mem_splitOn [BEq α] [LawfulBEq α] {a b : α} {xs f : List α}
    (hf : f ∈ xs.splitOn a) (hb : b ∈ f) :
    b ∈ xs ∧ b ≠ a := by
  induction xs generalizing f with
  | nil => simp_all
  | cons x xs ih =>
    rw [splitOn_cons_eq_if_modifyHead] at hf
    split_ifs at hf with hx
    · rcases mem_cons.mp hf with rfl | hf
      · simp at hb
      · exact (ih hf hb).imp_left (mem_cons_of_mem _)
    · cases hs : xs.splitOn a with
      | nil => exact absurd hs (splitOn_ne_nil a xs)
      | cons g gs =>
        rw [hs] at ih hf
        rcases mem_cons.mp hf with rfl | hf
        · rcases mem_cons.mp hb with rfl | hb
          · exact ⟨mem_cons_self, by simpa using hx⟩
          · exact (ih mem_cons_self hb).imp_left (mem_cons_of_mem _)
        · exact (ih (mem_cons_of_mem _ hf) hb).imp_left (mem_cons_of_mem _)

end List
