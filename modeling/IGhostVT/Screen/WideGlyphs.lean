import IGhostVT.Screen.ScreenBounds

/-!
# Screen/WideGlyphs — a wide glyph and its spacer

A line is whole when its spacers are exactly the cells right of a wide character (`Whole`).  Writing
keeps that: it blanks the other half of what it overwrites.  Erasing, inserting and deleting
characters look at no halves, and one that begins or ends inside a glyph leaves a half behind
(`insertInside_notWhole`); the others keep lines whole (`Whole.apply`), and so does every run in
which there is no such one (`feed_isWhole`).
-/

open Checked

namespace ScreenRenderer

variable {u : UnicodeTables} {row : List Cell} {j column : ℕ}

/-! ## Whole lines

A line is whole when every wide glyph has its spacer behind it, and every spacer its glyph before
it, but for a glyph alone on a screen of one column. -/

def SpacerAt (row : List Cell) (j : ℕ) : Prop := row[j]? = some spacer

def WideAt (u : UnicodeTables) (row : List Cell) (j : ℕ) : Prop :=
  ∃ cell, row[j]? = some cell ∧ isWide u cell = true

instance (row : List Cell) (j : ℕ) : Decidable (SpacerAt row j) :=
  inferInstanceAs (Decidable (row[j]? = some spacer))

/-- The spacers are the cells right of a wide character.  A line of one column has no room for
any. -/
structure Whole (u : UnicodeTables) (row : List Cell) : Prop where
  ne_nil : ∀ cell ∈ row, cell ≠ []
  first : ¬ SpacerAt row 0
  pair : 2 ≤ row.length → ∀ j, SpacerAt row (j + 1) ↔ WideAt u row j

/-- No ASCII character is wide. -/
theorem isWide_of_ascii {scalar : Char} (h : scalar.toNat < 0x80) : isWide u [scalar] = false :=
  decide_eq_false (width_ne_two u h)

theorem isWide_blank : isWide u blank = false := isWide_of_ascii (by decide)

theorem isWide_spacer : isWide u spacer = false := isWide_of_ascii (by decide)

theorem blank_ne_spacer : blank ≠ spacer := by decide

/-- A spacer is inside the line. -/
theorem SpacerAt.lt (h : SpacerAt row j) : j < row.length := (List.getElem?_eq_some_iff.mp h).1

/-- A spacer is no glyph. -/
theorem SpacerAt.not_wideAt (h : SpacerAt row j) : ¬ WideAt u row j := by
  rintro ⟨cell, hcell, hwide⟩
  obtain rfl := Option.some.inj (h.symm.trans hcell)
  rw [isWide_spacer] at hwide
  exact absurd hwide nofun

/-- A blank is no spacer. -/
theorem not_spacerAt_of_blank (h : row[j]? = some blank) : ¬ SpacerAt row j := fun hspacer =>
  blank_ne_spacer (Option.some.inj (h.symm.trans hspacer))

/-- Nor is it wide. -/
theorem not_wideAt_of_blank (h : row[j]? = some blank) : ¬ WideAt u row j := by
  rintro ⟨cell, hcell, hwide⟩
  obtain rfl := Option.some.inj (h.symm.trans hcell)
  rw [isWide_blank] at hwide
  exact absurd hwide nofun

/-- Lines agree at a column. -/
theorem spacerAt_congr {row' : List Cell} {j' : ℕ} (h : row'[j']? = row[j]?) :
    SpacerAt row' j' ↔ SpacerAt row j := by rw [SpacerAt, h, SpacerAt]

/-- Equal cells are both wide, or neither. -/
theorem wideAt_congr {row' : List Cell} {j' : ℕ} (h : row'[j']? = row[j]?) :
    WideAt u row' j' ↔ WideAt u row j := by rw [WideAt, h, WideAt]

/-- There are no spacers outside of a line. -/
theorem not_spacerAt_of_none (h : row[j]? = none) : ¬ SpacerAt row j := fun hspacer =>
  absurd (h.symm.trans hspacer) nofun

/-- And no glyphs. -/
theorem not_wideAt_of_none (h : row[j]? = none) : ¬ WideAt u row j := by
  rintro ⟨cell, hcell, -⟩
  exact absurd (h.symm.trans hcell) nofun

/-- A blank line has neither. -/
theorem whole_blankRow (n : ℕ) : Whole u (List.replicate n blank) := by
  have hcell : ∀ j : ℕ, (List.replicate n blank)[j]? = some blank
      ∨ (List.replicate n blank)[j]? = none := by
    intro j
    rw [List.getElem?_replicate]
    split
    · exact .inl rfl
    · exact .inr rfl
  have hspacer : ∀ j, ¬ SpacerAt (List.replicate n blank) j := fun j =>
    (hcell j).elim not_spacerAt_of_blank not_spacerAt_of_none
  refine ⟨fun cell hcell => ?_, hspacer 0, fun _ j => iff_of_false (hspacer _) ?_⟩
  · rw [List.eq_of_mem_replicate hcell]
    exact List.cons_ne_nil _ _
  · exact (hcell j).elim not_wideAt_of_blank not_wideAt_of_none

/-! ## Erasing, inserting, deleting

An edit parts a glyph from its spacer only at its ends; `Clean` says that it does not. -/

namespace CellEdit

/-- It neither begins nor ends between the halves of a glyph; a deletion may do both, and then the
halves that are left meet. -/
def Clean (row : List Cell) : CellEdit → Prop
  | .erase start stop => ¬ SpacerAt row start ∧ ¬ SpacerAt row stop
  | .insert place count => ¬ SpacerAt row place ∧ ¬ SpacerAt row (row.length - count)
  | .delete place count => SpacerAt row place ↔ SpacerAt row (place + count)

instance (row : List Cell) (e : CellEdit) : Decidable (e.Clean row) :=
  match e with
  | .erase start stop => inferInstanceAs (Decidable (¬ SpacerAt row start ∧ ¬ SpacerAt row stop))
  | .insert place count =>
    inferInstanceAs (Decidable (¬ SpacerAt row place ∧ ¬ SpacerAt row (row.length - count)))
  | .delete place count =>
    inferInstanceAs (Decidable (SpacerAt row place ↔ SpacerAt row (place + count)))

end CellEdit

/-- An edit brings in blanks alone. -/
theorem mem_apply {e : CellEdit} {cell : Cell} (h : cell ∈ e.apply row) :
    cell ∈ row ∨ cell = blank := by
  cases e with
  | erase start stop =>
    simp only [CellEdit.apply, List.mem_append, List.mem_replicate] at h
    rcases h with (h | h) | h
    · exact .inl (List.mem_of_mem_take h)
    · exact .inr h.2
    · exact .inl (List.mem_of_mem_drop h)
  | insert place count =>
    simp only [CellEdit.apply, List.mem_append, List.mem_replicate] at h
    rcases h with (h | h) | h
    · exact .inl (List.mem_of_mem_take h)
    · exact .inr h.2
    · exact .inl (List.mem_of_mem_take (List.mem_of_mem_drop h))
  | delete place count =>
    simp only [CellEdit.apply, List.mem_append, List.mem_replicate] at h
    rcases h with (h | h) | h
    · exact .inl (List.mem_of_mem_take h)
    · exact .inl (List.mem_of_mem_drop h)
    · exact .inr h.2

/-- A stretch that cuts no glyph in two leaves the rest whole. -/
theorem Whole.erase (h : Whole u row) {start stop : ℕ} (hle : start ≤ stop)
    (hstop : stop ≤ row.length) (hclean : (CellEdit.erase start stop).Clean row) :
    Whole u ((CellEdit.erase start stop).apply row) := by
  have hcell := CellEdit.getElem?_erase hle hstop
  have hin : ∀ {j}, start ≤ j ∧ j < stop →
      ((CellEdit.erase start stop).apply row)[j]? = some blank :=
    fun hj => (hcell _).trans (if_pos hj)
  have hout : ∀ {j}, ¬ (start ≤ j ∧ j < stop) →
      ((CellEdit.erase start stop).apply row)[j]? = row[j]? := fun hj => (hcell _).trans (if_neg hj)
  refine ⟨fun cell hmem => ?_, ?_, fun hlength j => ?_⟩
  · rcases mem_apply hmem with hold | rfl
    · exact h.ne_nil cell hold
    · exact List.cons_ne_nil _ _
  · by_cases hzero : start ≤ 0 ∧ 0 < stop
    · exact not_spacerAt_of_blank (hin hzero)
    · rw [spacerAt_congr (hout hzero)]
      exact h.first
  · rw [CellEdit.length_apply (e := .erase start stop) ⟨hle, hstop⟩] at hlength
    have hpair := h.pair hlength j
    by_cases hnext : start ≤ j + 1 ∧ j + 1 < stop
    · refine iff_of_false (not_spacerAt_of_blank (hin hnext)) ?_
      by_cases hhere : start ≤ j ∧ j < stop
      · exact not_wideAt_of_blank (hin hhere)
      · -- the first erased cell is no spacer, so the one before it is not wide
        have hstart : j + 1 = start := by omega
        rw [wideAt_congr (hout hhere), ← hpair, hstart]
        exact hclean.1
    · by_cases hhere : start ≤ j ∧ j < stop
      · have hend : j + 1 = stop := by omega
        refine iff_of_false ?_ (not_wideAt_of_blank (hin hhere))
        rw [spacerAt_congr (hout hnext), hend]
        exact hclean.2
      · rw [spacerAt_congr (hout hnext), wideAt_congr (hout hhere)]
        exact hpair

/-- And so an insertion, in front of no spacer, that pushes no half glyph off the end. -/
theorem Whole.insert (h : Whole u row) {place count : ℕ} (hcount : 0 < count)
    (hfits : place + count ≤ row.length) (hclean : (CellEdit.insert place count).Clean row) :
    Whole u ((CellEdit.insert place count).apply row) := by
  have hcell := CellEdit.getElem?_insert hfits
  have hleft : ∀ {j}, j < place → ((CellEdit.insert place count).apply row)[j]? = row[j]? :=
    fun hj => (hcell _).trans (if_pos hj)
  have hin : ∀ {j}, place ≤ j → j < place + count →
      ((CellEdit.insert place count).apply row)[j]? = some blank := fun hlo hhi =>
    (hcell _).trans ((if_neg (by omega)).trans (if_pos hhi))
  have hright : ∀ {j}, place + count ≤ j → j < row.length →
      ((CellEdit.insert place count).apply row)[j]? = row[j - count]? := fun hlo hhi =>
    (hcell _).trans ((if_neg (by omega)).trans ((if_neg (by omega)).trans (if_pos hhi)))
  have hend : ∀ {j}, row.length ≤ j → ((CellEdit.insert place count).apply row)[j]? = none :=
    fun hj => (hcell _).trans
      ((if_neg (by omega)).trans ((if_neg (by omega)).trans (if_neg (by omega))))
  refine ⟨fun cell hmem => ?_, ?_, fun hlength j => ?_⟩
  · rcases mem_apply hmem with hold | rfl
    · exact h.ne_nil cell hold
    · exact List.cons_ne_nil _ _
  · rcases Nat.eq_zero_or_pos place with rfl | hpos
    · exact not_spacerAt_of_blank (hin le_rfl (by omega))
    · rw [spacerAt_congr (hleft hpos)]
      exact h.first
  · rw [CellEdit.length_apply (e := .insert place count) ⟨hcount, hfits⟩] at hlength
    have hpair := h.pair hlength
    rcases lt_or_ge (j + 1) place with hj | hj
    · rw [spacerAt_congr (hleft hj), wideAt_congr (hleft (by omega))]
      exact hpair j
    rcases lt_or_ge (j + 1) (place + count) with hj' | hj'
    · refine iff_of_false (not_spacerAt_of_blank (hin hj hj')) ?_
      rcases lt_or_ge j place with hlast | hblank
      · have hplace : j + 1 = place := by omega
        rw [wideAt_congr (hleft hlast), ← hpair, hplace]
        exact hclean.1
      · exact not_wideAt_of_blank (hin hblank (by omega))
    rcases lt_or_ge (j + 1) row.length with hj'' | hj''
    · rw [spacerAt_congr (hright hj' hj'')]
      rcases lt_or_ge j (place + count) with hlast | hmoved
      · have hplace : j + 1 - count = place := by omega
        refine iff_of_false ?_ (not_wideAt_of_blank (hin (by omega) hlast))
        rw [hplace]
        exact hclean.1
      · rw [wideAt_congr (hright hmoved (by omega)), ← hpair]
        have hsucc : j + 1 - count = j - count + 1 := by omega
        rw [hsucc]
    · refine iff_of_false (not_spacerAt_of_none (hend hj'')) ?_
      rcases lt_or_ge j (place + count) with hlast | hmoved
      · exact not_wideAt_of_blank (hin (by omega) hlast)
      rcases lt_or_ge j row.length with hinside | hpast
      · have hcut : j - count + 1 = row.length - count := by omega
        rw [wideAt_congr (hright hmoved hinside), ← hpair, hcut]
        exact hclean.2
      · exact not_wideAt_of_none (hend hpast)

/-- And a deletion. -/
theorem Whole.delete (h : Whole u row) {place count : ℕ} (hcount : 0 < count)
    (hfits : place + count ≤ row.length) (hclean : (CellEdit.delete place count).Clean row) :
    Whole u ((CellEdit.delete place count).apply row) := by
  have hcell := CellEdit.getElem?_delete hfits
  have hleft : ∀ {j}, j < place → ((CellEdit.delete place count).apply row)[j]? = row[j]? :=
    fun hj => (hcell _).trans (if_pos hj)
  have hmoved : ∀ {j}, place ≤ j → j + count < row.length →
      ((CellEdit.delete place count).apply row)[j]? = row[j + count]? := fun hlo hhi =>
    (hcell _).trans ((if_neg (by omega)).trans (if_pos hhi))
  have hpast : ∀ {j}, place ≤ j → row.length ≤ j + count →
      ¬ SpacerAt ((CellEdit.delete place count).apply row) j
        ∧ ¬ WideAt u ((CellEdit.delete place count).apply row) j := by
    intro j hlo hhi
    have heq := (hcell j).trans ((if_neg (by omega)).trans (if_neg (by omega)))
    split at heq
    · exact ⟨not_spacerAt_of_blank heq, not_wideAt_of_blank heq⟩
    · exact ⟨not_spacerAt_of_none heq, not_wideAt_of_none heq⟩
  -- past the end there are no spacers, so the boundary needs no case of its own
  have hnone : ∀ {j}, row.length ≤ j → ¬ SpacerAt row j := fun hj =>
    not_spacerAt_of_none (List.getElem?_eq_none hj)
  have hspacer : SpacerAt ((CellEdit.delete place count).apply row) place ↔ SpacerAt row place := by
    rcases lt_or_ge (place + count) row.length with hin | hout
    · rw [spacerAt_congr (hmoved le_rfl hin)]
      exact hclean.symm
    · exact iff_of_false (hpast le_rfl hout).1 fun hp => hnone hout (hclean.mp hp)
  refine ⟨fun cell hmem => ?_, ?_, fun hlength j => ?_⟩
  · rcases mem_apply hmem with hold | rfl
    · exact h.ne_nil cell hold
    · exact List.cons_ne_nil _ _
  · rcases Nat.eq_zero_or_pos place with rfl | hpos
    · rw [hspacer]
      exact h.first
    · rw [spacerAt_congr (hleft hpos)]
      exact h.first
  · rw [CellEdit.length_apply (e := .delete place count) ⟨hcount, hfits⟩] at hlength
    have hpair := h.pair hlength
    rcases lt_trichotomy (j + 1) place with hj | rfl | hj
    · rw [spacerAt_congr (hleft hj), wideAt_congr (hleft (by omega))]
      exact hpair j
    · rw [hspacer, wideAt_congr (hleft (Nat.lt_succ_self j))]
      exact hpair j
    · rcases lt_or_ge (j + 1 + count) row.length with hin | hout
      · have hsucc : j + 1 + count = j + count + 1 := by omega
        rw [spacerAt_congr (hmoved (by omega) hin), wideAt_congr (hmoved (by omega) (by omega)),
          hsucc]
        exact hpair (j + count)
      · refine iff_of_false (hpast (by omega) hout).1 ?_
        rcases lt_or_ge (j + count) row.length with hlast | hover
        · rw [wideAt_congr (hmoved (by omega) hlast), ← hpair]
          exact hnone (by omega)
        · exact (hpast (by omega) hover).2

/-- **A clean edit keeps a line whole.** -/
theorem Whole.apply (h : Whole u row) {e : CellEdit} (hfits : e.Fits row.length)
    (hclean : e.Clean row) : Whole u (e.apply row) := by
  cases e with
  | erase start stop => exact h.erase hfits.1 hfits.2 hclean
  | insert place count => exact h.insert hfits.1 hfits.2 hclean
  | delete place count => exact h.delete hfits.1 hfits.2 hclean

/-! ## Writing

Printing clears the halves it would leave behind on either side, so a whole line stays whole. -/

/-- The glyph of an overwritten spacer becomes blank. -/
theorem getElem?_clearLeft (row : List Cell) (column j : ℕ) :
    (clearLeft row column)[j]? =
      if j + 1 = column ∧ SpacerAt row column then some blank else row[j]? := by
  unfold clearLeft
  change (if SpacerAt row column ∧ 0 < column then row.set (column - 1) blank else row)[j]? = _
  by_cases hspacer : SpacerAt row column
  · have hlt := hspacer.lt
    rw [if_congr (and_iff_right hspacer) rfl rfl, if_congr (and_iff_left hspacer) rfl rfl]
    by_cases hpos : 0 < column
    · rw [if_pos hpos, List.getElem?_set]
      by_cases hj : column - 1 = j
      · rw [if_pos hj, if_pos (by omega), if_pos (by omega)]
      · rw [if_neg hj, if_neg (by omega)]
    · rw [if_neg hpos, if_neg (by omega)]
  · rw [if_neg fun h => hspacer h.1, if_neg fun h => hspacer h.2]

/-- The spacer of an overwritten glyph becomes blank. -/
theorem getElem?_clearRight (row : List Cell) (column j : ℕ) :
    (clearRight row column)[j]? =
      if j = column ∧ SpacerAt row column then some blank else row[j]? := by
  unfold clearRight
  change (if SpacerAt row column then row.set column blank else row)[j]? = _
  by_cases hspacer : SpacerAt row column
  · have hlt := hspacer.lt
    rw [if_pos hspacer, if_congr (and_iff_left hspacer) rfl rfl, List.getElem?_set]
    by_cases hj : column = j
    · rw [if_pos hj, if_pos hlt, if_pos hj.symm]
    · rw [if_neg hj, if_neg (Ne.symm hj)]
  · rw [if_neg hspacer, if_neg fun h => hspacer h.2]

/-- **What a character changes**: its own cells, and the other half of a glyph it is written
into. -/
theorem getElem?_writeRow {w : ℕ} (hcolumn : column < row.length) (hw : 0 < w)
    (character : Cell) (j : ℕ) :
    (writeRow row column character w)[j]? =
      if j = column then some character
      else if w = 2 ∧ j = column + 1 ∧ column + 1 < row.length then some spacer
      else if j + 1 = column ∧ SpacerAt row column ∨ j = column + w ∧ SpacerAt row (column + w) then
        some blank
      else row[j]? := by
  have hlength : (clearRight (clearLeft row column) (column + w)).length = row.length := by
    rw [length_clearRight, length_clearLeft]
  have hright : SpacerAt (clearLeft row column) (column + w) ↔ SpacerAt row (column + w) := by
    refine spacerAt_congr ?_
    rw [getElem?_clearLeft, if_neg (by omega)]
  have hcells : (clearRight (clearLeft row column) (column + w))[j]? =
      if j + 1 = column ∧ SpacerAt row column ∨ j = column + w ∧ SpacerAt row (column + w) then
        some blank
      else row[j]? := by
    rw [getElem?_clearRight, getElem?_clearLeft]
    split_ifs <;> first
      | rfl
      | (exfalso; tauto)
  rw [writeRow]
  split
  next hwide =>
    rw [List.getElem?_set, List.getElem?_set, List.length_set, hlength, hcells]
    rcases eq_or_ne j column with rfl | hj
    · rw [if_neg (by omega), if_pos rfl, if_pos hcolumn, if_pos rfl]
    · rw [if_neg (Ne.symm hj), if_neg hj]
      by_cases hnext : column + 1 = j
      · rw [if_pos hnext, if_pos hwide.2, if_pos ⟨hwide.1, hnext.symm, hwide.2⟩]
      · have hno : ¬ (w = 2 ∧ j = column + 1 ∧ column + 1 < row.length) := fun h =>
          hnext h.2.1.symm
        rw [if_neg hnext, if_neg hno]
  next hnarrow =>
    have hno : ¬ (w = 2 ∧ j = column + 1 ∧ column + 1 < row.length) := fun h =>
      hnarrow ⟨h.1, h.2.2⟩
    rw [List.getElem?_set, hlength, hcells]
    rcases eq_or_ne j column with rfl | hj
    · rw [if_pos rfl, if_pos hcolumn, if_pos rfl]
    · rw [if_neg (Ne.symm hj), if_neg hj, if_neg hno]

/-- A character's own cells, those of the glyphs it is written into, and the others. -/
structure Written (row row' : List Cell) (column : ℕ) (character : Cell) (w : ℕ) : Prop where
  own : row'[column]? = some character
  spacer : w = 2 → column + 1 < row.length → SpacerAt row' (column + 1)
  left : SpacerAt row column → ∀ j, j + 1 = column → row'[j]? = some blank
  right : SpacerAt row (column + w) → (w = 2 → column + 1 < row.length) →
    row'[column + w]? = some blank
  other : ∀ j, j ≠ column → ¬ (w = 2 ∧ j = column + 1 ∧ column + 1 < row.length) →
    (j + 1 = column → ¬ SpacerAt row column) → (j = column + w → ¬ SpacerAt row (column + w)) →
      row'[j]? = row[j]?

/-- What a line is after a character was written into it, cell by cell. -/
theorem written_writeRow {w : ℕ} (hcolumn : column < row.length) (hw : w = 1 ∨ w = 2)
    (character : Cell) :
    Written row (writeRow row column character w) column character w := by
  have hcell := getElem?_writeRow hcolumn (show 0 < w by omega) character
  refine ⟨?_, fun hwide hnext => ?_, fun hleft j hj => ?_, fun hright _ => ?_,
    fun j hown hspacer hleft hright => ?_⟩
  · rw [hcell, if_pos rfl]
  · rw [SpacerAt, hcell, if_neg (by omega), if_pos ⟨hwide, rfl, hnext⟩]
  · rw [hcell, if_neg (by omega), if_neg (by omega), if_pos (.inl ⟨hj, hleft⟩)]
  · rw [hcell, if_neg (by omega), if_neg (by omega), if_pos (.inr ⟨rfl, hright⟩)]
  · rw [hcell, if_neg hown, if_neg hspacer, if_neg]
    rintro (⟨hj, hspacer⟩ | ⟨hj, hspacer⟩)
    · exact hleft hj hspacer
    · exact hright hj hspacer

/-- Nothing comes into the line but the character, its spacer and blanks. -/
theorem mem_writeRow {cell : Cell} {w : ℕ} (hcolumn : column < row.length) (hw : 0 < w)
    (character : Cell) (h : cell ∈ writeRow row column character w) :
    cell = character ∨ cell = spacer ∨ cell = blank ∨ cell ∈ row := by
  obtain ⟨j, hj⟩ := List.mem_iff_getElem?.mp h
  rw [getElem?_writeRow hcolumn hw character] at hj
  split_ifs at hj
  · exact .inl (Option.some.inj hj).symm
  · exact .inr (.inl (Option.some.inj hj).symm)
  · exact .inr (.inr (.inl (Option.some.inj hj).symm))
  · exact .inr (.inr (.inr (List.mem_of_getElem? hj)))

/-- A character with its spacer, over anything. -/
theorem Whole.write (h : Whole u row) {character : Cell} {w : ℤ} (hcolumn : column < row.length)
    (hglyph : IsGlyph u character w) (hfits : w = 2 → column + 1 < row.length ∨ row.length = 1) :
    Whole u (writeRow row column character w.toNat) := by
  have hw : w.toNat = 1 ∨ w.toNat = 2 := hglyph.columns.imp (by omega) (by omega)
  have hwritten := written_writeRow hcolumn hw character
  have hmem := fun cell (hcell : cell ∈ writeRow row column character w.toNat) =>
    mem_writeRow hcolumn (by omega) character hcell
  have hlength := length_writeRow row column character w.toNat
  set row' := writeRow row column character w.toNat
  have hown : ¬ SpacerAt row' column := fun hspacer =>
    hglyph.ne_spacer (Option.some.inj (hwritten.own.symm.trans hspacer))
  refine ⟨fun cell hcell => ?_, ?_, fun htwo j => ?_⟩
  · rcases hmem cell hcell with rfl | rfl | rfl | hold
    · exact hglyph.ne_nil
    · exact List.cons_ne_nil _ _
    · exact List.cons_ne_nil _ _
    · exact h.ne_nil cell hold
  · rcases Nat.eq_zero_or_pos column with rfl | hpos
    · exact hown
    · by_cases hleft : SpacerAt row column ∧ 0 + 1 = column
      · exact not_spacerAt_of_blank (hwritten.left hleft.1 0 hleft.2)
      · rw [spacerAt_congr (hwritten.other 0 (by omega) (by omega)
          (fun hj hspacer => hleft ⟨hspacer, hj⟩) (by omega))]
        exact h.first
  have hpair := h.pair (hlength ▸ htwo)
  have hroom : w.toNat = 2 → column + 1 < row.length := fun hwide => by
    rcases hfits (by omega) with hroom | hone
    · exact hroom
    · omega
  have hright : ¬ SpacerAt row' (column + w.toNat) := by
    by_cases hcut : SpacerAt row (column + w.toNat)
    · exact not_spacerAt_of_blank (hwritten.right hcut hroom)
    · rwa [spacerAt_congr (hwritten.other _ (by omega) (by omega) (by omega) fun _ => hcut)]
  -- which of the two cells are the character's own, and which are halves it may have cut
  rcases lt_trichotomy (j + 1) column with hj | rfl | hj
  · have hhere := hwritten.other j (by omega) (by omega) (by omega) (by omega)
    by_cases hcut : j + 1 + 1 = column ∧ SpacerAt row column
    · refine iff_of_false (not_spacerAt_of_blank (hwritten.left hcut.2 (j + 1) hcut.1)) ?_
      rw [wideAt_congr hhere, ← hpair]
      exact fun hspacer => hspacer.not_wideAt ((hpair (j + 1)).mp (hcut.1 ▸ hcut.2))
    · rw [wideAt_congr hhere, spacerAt_congr (hwritten.other (j + 1) (by omega) (by omega)
        (fun heq hspacer => hcut ⟨heq, hspacer⟩) (by omega))]
      exact hpair j
  · refine iff_of_false hown ?_
    by_cases hcut : SpacerAt row (j + 1)
    · exact not_wideAt_of_blank (hwritten.left hcut j rfl)
    · rwa [wideAt_congr (hwritten.other j (by omega) (by omega) (fun _ => hcut) (by omega)),
        ← hpair]
  · rcases eq_or_ne j column with rfl | hne
    · have hwide : WideAt u row' j ↔ w = 2 := by
        rw [← hglyph.wide]
        refine ⟨fun ⟨cell, hcell, hiswide⟩ => ?_, fun hiswide => ⟨_, hwritten.own, hiswide⟩⟩
        obtain rfl := Option.some.inj (hwritten.own.symm.trans hcell)
        exact hiswide
      rw [hwide]
      rcases hw with hone | htwo
      · rw [hone] at hright
        exact iff_of_false hright (by omega)
      · exact iff_of_true (hwritten.spacer htwo (hroom htwo)) (by omega)
    by_cases hspacer : w.toNat = 2 ∧ j = column + 1
    · obtain ⟨htwo, rfl⟩ := hspacer
      rw [htwo] at hright
      exact iff_of_false hright (hwritten.spacer htwo (hroom htwo)).not_wideAt
    · have hnext := hwritten.other (j + 1) (by omega) (by omega) (by omega) (by omega)
      rw [spacerAt_congr hnext]
      by_cases hcut : j = column + w.toNat ∧ SpacerAt row (column + w.toNat)
      · obtain ⟨rfl, hcut⟩ := hcut
        refine iff_of_false ?_ (not_wideAt_of_blank (hwritten.right hcut hroom))
        rw [hpair]
        exact hcut.not_wideAt
      · rw [wideAt_congr (hwritten.other j hne (fun hi => hspacer ⟨hi.1, hi.2.1⟩) (by omega)
          fun heq hs => hcut ⟨heq, hs⟩)]
        exact hpair j

/-- A mark joined to a glyph makes it neither wider nor narrower. -/
theorem Whole.join (h : Whole u row) {cell : Cell} (mark : Char) (hcell : row[column]? = some cell)
    (hne : cell ≠ spacer) : Whole u (row.set column (cell ++ [mark])) := by
  have hlt := (List.getElem?_eq_some_iff.mp hcell).1
  have hold := h.ne_nil cell (List.mem_of_getElem? hcell)
  have hget : ∀ j, (row.set column (cell ++ [mark]))[j]?
      = if column = j then some (cell ++ [mark]) else row[j]? := by
    intro j
    rw [List.getElem?_set, if_pos hlt]
  have hspacer : ∀ j, SpacerAt (row.set column (cell ++ [mark])) j ↔ SpacerAt row j := by
    intro j
    rw [SpacerAt, hget]
    split
    next heq =>
      subst heq
      refine iff_of_false (fun hs => ?_) fun hs => hne (Option.some.inj (hcell.symm.trans hs))
      have hlength := congrArg List.length (Option.some.inj hs)
      have hpos := List.length_pos_iff.mpr hold
      rw [List.length_append, List.length_singleton] at hlength
      have hone : spacer.length = 1 := rfl
      omega
    next => rfl
  have hwide : ∀ j, WideAt u (row.set column (cell ++ [mark])) j ↔ WideAt u row j := by
    intro j
    rcases eq_or_ne column j with rfl | hj
    · have hhead : isWide u (cell ++ [mark]) = isWide u cell := by
        rw [isWide, isWide, List.head?_append_of_ne_nil _ hold]
      have hset := (hget column).trans (if_pos rfl)
      simp only [WideAt, hset, hcell, Option.some.injEq, exists_eq_left', hhead]
    · exact wideAt_congr ((hget j).trans (if_neg hj))
  refine ⟨fun cell' hmem => ?_, ?_, fun hlength j => ?_⟩
  · rcases List.mem_or_eq_of_mem_set hmem with hmem | rfl
    · exact h.ne_nil cell' hmem
    · exact List.append_ne_nil_of_left_ne_nil hold _
  · rw [hspacer]
    exact h.first
  · rw [List.length_set] at hlength
    rw [hspacer, hwide]
    exact h.pair hlength j

/-! ## Runs

The edits are those of the commands a stream runs, and the condition is on the cells before each. -/

/-- The law that a line has its columns, and is whole. -/
def WholeLine (u : UnicodeTables) (n : ℤ) (row : List Cell) : Prop :=
  (row.length : ℤ) = n ∧ Whole u row

/-- **Whole lines are a law that writing keeps.** -/
theorem lineLaw_wholeLine (u : UnicodeTables) {n : ℤ} (hn : 0 ≤ n) :
    LineLaw u n (WholeLine u n) where
  blank := ⟨by rw [List.length_replicate]; omega, whole_blankRow _⟩
  length _ h := h.1
  write row column character w h hcolumn hglyph hfits :=
    ⟨by rw [length_writeRow]; exact h.1, h.2.write hcolumn hglyph hfits⟩
  join row column cell mark h hcell hne :=
    ⟨by rw [List.length_set]; exact h.1, h.2.join mark hcell hne⟩

/-- The columns a printed character takes. -/
def columnsOf (u : UnicodeTables) (cell : Cell) : ℕ := if isWide u cell then 2 else 1

/-- What is printed of a line, before its padding is trimmed. -/
def printed (row : List Cell) : List Cell := row.filter (· ≠ spacer)

/-- A line takes the columns it has cells, but for a spacer it begins with. -/
theorem sum_printed : ∀ {row : List Cell}, (∀ j, SpacerAt row (j + 1) ↔ WideAt u row j) →
    ((printed row).map (columnsOf u)).sum + (if SpacerAt row 0 then 1 else 0) = row.length
  | [], _ => rfl
  | cell :: row, h => by
    have htail : ∀ j, SpacerAt row (j + 1) ↔ WideAt u row j := fun j => h (j + 1)
    have ih := sum_printed htail
    have hnext : SpacerAt row 0 ↔ isWide u cell = true := by
      refine (h 0).trans ⟨fun ⟨c, hc, hwide⟩ => ?_, fun hwide => ⟨cell, rfl, hwide⟩⟩
      obtain rfl := Option.some.inj hc
      exact hwide
    by_cases hspacer : cell = spacer
    · subst hspacer
      rw [if_neg (by rw [hnext, isWide_spacer]; exact Bool.false_ne_true)] at ih
      have hdrop : printed (spacer :: row) = printed row := List.filter_cons_of_neg (by simp)
      have hfirst : SpacerAt (spacer :: row) 0 := rfl
      rw [hdrop, if_pos hfirst, List.length_cons, ← ih]
    · have hkeep : printed (cell :: row) = cell :: printed row :=
        List.filter_cons_of_pos (by simpa using hspacer)
      have hzero : ¬ SpacerAt (cell :: row) 0 := fun hs => hspacer (Option.some.inj hs)
      rw [hkeep, if_neg hzero, List.map_cons, List.sum_cons, List.length_cons, columnsOf]
      by_cases hwide : isWide u cell = true
      · rw [if_pos (hnext.mpr hwide)] at ih
        rw [if_pos hwide]
        omega
      · rw [if_neg fun hs => hwide (hnext.mp hs)] at ih
        rw [if_neg hwide]
        omega

/-- A screen of whole glyphs: its lines and its history's, what is printed of them, and what writing
a character changes. -/
structure GlyphsWhole (u : UnicodeTables) (s : ScreenRenderer) : Prop where
  screen : ∀ row ∈ s.screen, Whole u row
  history : ∀ row ∈ s.scrollback, Whole u row
  saved : ∀ saved, s.saved = some saved → ∀ row ∈ saved.screen, Whole u row
  columns : 2 ≤ s.columns → ∀ row ∈ s.scrollback ++ s.screen,
    ((printed row).map (columnsOf u)).sum = s.columns
  /-- A character changes its own cells, and the other half of a glyph that it overwrites half
  of. -/
  writes : ∀ character w, IsGlyph u character w → ∀ s' s'', s.makeRoom w = some (s', true) →
    s'.write character w = some s'' → ∀ (i j : ℕ) row row', s'.screen[i]? = some row →
      s''.screen[i]? = some row' → row'[j]? ≠ row[j]? →
        (i : ℤ) = s'.cursorRow ∧ (s'.cursorColumn ≤ j ∧ (j : ℤ) < s'.cursorColumn + w
          ∨ (j : ℤ) + 1 = s'.cursorColumn ∧ WideAt u row j ∧ SpacerAt row (j + 1)
          ∨ (j : ℤ) = s'.cursorColumn + w ∧ SpacerAt row j ∧ WideAt u row (j - 1))

/-- Which is the law of every line of a sound screen. -/
theorem Sound.glyphsWhole {n m k : ℤ} {s : ScreenRenderer} (hgrid : GridSize n m)
    (h : Sound n m k (WholeLine u n) s) : GlyphsWhole u s := by
  have hcolumns := hgrid.columns
  have hlaw := lineLaw_wholeLine u (n := n) (by omega)
  refine ⟨fun row hrow => (h.line row hrow).2, fun row hrow => (h.history row hrow).2,
    fun saved hsaved row hrow => ((h.saved saved hsaved).2 row hrow).2, fun htwo row hrow => ?_, ?_⟩
  · have hline : WholeLine u n row := (List.mem_append.mp hrow).elim (h.history row) (h.line row)
    have hn := h.columns
    have hlength := hline.1
    have hsum := sum_printed (hline.2.pair (by omega))
    rw [if_neg hline.2.first] at hsum
    omega
  · intro character w hglyph s' s'' hroom hwrite i j row row' hrow hrow' hchanged
    have hmade : Ensures False _ _ := h.makeRoom hgrid hlaw w False.elim
    obtain ⟨hsound, hfits⟩ := hmade.holds _ hroom
    have hwritten : Ensures False _ _ := hsound.write hgrid hlaw hglyph (hfits rfl)
    obtain ⟨-, hscreen⟩ := hwritten.holds _ hwrite
    have hcursor := hsound.cursorRow
    have hcolumn := hsound.cursorColumn
    have hline := hsound.line row (List.mem_of_getElem? hrow)
    have hlength := hline.1
    have hw := hglyph.columns
    rw [hscreen, List.getElem?_modify, hrow] at hrow'
    obtain rfl := Option.some.inj hrow'
    split at hchanged
    next hi =>
      refine ⟨by omega, ?_⟩
      rw [getElem?_writeRow (by omega) (by omega)] at hchanged
      split_ifs at hchanged with hown hspacer hhalf
      · exact .inl (by omega)
      · exact .inl (by omega)
      · have hpair := hline.2.pair (by
          rcases hhalf with hhalf | hhalf
          · omega
          · have := hhalf.2.lt
            omega)
        rcases hhalf with ⟨hj, hleft⟩ | ⟨hj, hright⟩
        · rw [← hj] at hleft
          exact .inr (.inl ⟨by omega, (hpair j).mp hleft, hleft⟩)
        · rw [← hj] at hright
          refine .inr (.inr ⟨by omega, hright, (hpair (j - 1)).mp ?_⟩)
          rwa [Nat.sub_add_cancel (by omega)]
      · exact absurd rfl hchanged
    next => exact absurd rfl hchanged

/-- No step of these bytes erases, inserts or deletes from or up to a column between the halves of a
glyph. -/
def cutsNone (u : UnicodeTables) (s : ScreenRenderer) : List UInt8 → Bool
  | [] => true
  | byte :: bytes =>
    (s.cellEdit byte).all (fun e => decide (e.Clean (s.screen.getD s.cursorRow.toNat [])))
      && (consume u s byte).all fun s' => cutsNone u s' bytes

/-- Where no edit of a stream cuts a glyph, each was clean when it came. -/
theorem clean_of_cutsNone {byte : UInt8} {after : List UInt8} {s' : ScreenRenderer} {e : CellEdit} :
    ∀ (before : List UInt8) {s : ScreenRenderer}, cutsNone u s (before ++ byte :: after) = true →
      feed u s before = some s' → s'.cellEdit byte = some e →
        e.Clean (s'.screen.getD s'.cursorRow.toNat [])
  | [], s, h, hrun, hedit => by
    obtain rfl := Option.some.inj hrun
    rw [List.nil_append, cutsNone, hedit, Bool.and_eq_true] at h
    exact of_decide_eq_true h.1
  | next :: before, s, h, hrun, hedit => by
    rw [feed, List.foldlM_cons] at hrun
    obtain ⟨s₁, hs₁, hrun⟩ := Option.bind_eq_some_iff.mp hrun
    rw [List.cons_append, cutsNone, hs₁, Bool.and_eq_true] at h
    exact clean_of_cutsNone before h.2 hrun hedit

/-- **Glyphs stay whole** in every state of a run that cuts none; and every state there is one of,
as long as 64 bits count the lines its bytes may scroll. -/
theorem feed_isWhole (u : UnicodeTables) (columns rows : UInt16) (bytes : List UInt8)
    (h : cutsNone u (start columns rows) bytes = true) (count : ℕ) :
    Ensures ((max 1 rows.toNat + 1) * bytes.length < 2 ^ 63)
      (feed u (start columns rows) (bytes.take count))
      (GlyphsWhole u) := by
  have hgrid := gridSize_start columns rows
  have hlaw := lineLaw_wholeLine u (n := (max 1 columns.toNat : ℕ)) (Int.natCast_nonneg _)
  have hstart := sound_start (P := WholeLine u (max 1 columns.toNat : ℕ)) columns rows
    ⟨by rw [List.length_replicate], whole_blankRow _⟩
  have htake : (max 1 rows.toNat + 1) * (bytes.take count).length ≤
      (max 1 rows.toNat + 1) * bytes.length :=
    Nat.mul_le_mul_left _ (List.length_take_le' count bytes)
  refine (hstart.feed hgrid hlaw (bytes.take count) (fun hcount => ?_)
    fun before byte after s heq hrun e hedit
    row hrow hfits hline => ⟨?_, hline.2.apply hfits ?_⟩).mono fun s hs => hs.glyphsWhole hgrid
  · rw [← Int.natCast_succ, ← Int.natCast_mul, Nat.succ_eq_add_one]
    omega
  · rw [CellEdit.length_apply hfits]
    exact hline.1
  · have hall : bytes = before ++ byte :: (after ++ bytes.drop count) := by
      rw [← List.cons_append, ← List.append_assoc, ← heq, List.take_append_drop]
    have hclean := clean_of_cutsNone before (hall ▸ h) hrun hedit
    rwa [List.getD_eq_getElem?_getD, hrow] at hclean

/-- A wide glyph, and the end of its line erased behind it. -/
theorem feed_isWhole_eraseBehind :
    Ensures True (feed plainTables (start 4 1) ([0xE6, 0xBC, 0xA2, 0x1B, 0x5B, 0x4B].take 6))
      (GlyphsWhole plainTables) :=
  have h := feed_isWhole plainTables 4 1 [0xE6, 0xBC, 0xA2, 0x1B, 0x5B, 0x4B] (by decide +kernel) 6
  ⟨fun _ => h.defined (by decide), h.holds⟩

/-- A wide glyph, the cursor back on its right half, and a blank inserted there. -/
def insertInside : List UInt8 := [0xE6, 0xBC, 0xA2, 0x1B, 0x5B, 0x44, 0x1B, 0x5B, 0x40]

/-- **A glyph that does not stay whole**: its halves are a column apart. -/
theorem insertInside_notWhole :
    ∃ s, feed plainTables (start 4 1) insertInside = some s ∧ ¬ GlyphsWhole plainTables s := by
  have hscreen : (feed plainTables (start 4 1) insertInside).map (·.screen)
      = some [[[Char.ofNat 0x6F22], blank, spacer, blank]] := by decide +kernel
  obtain ⟨s, hs, heq⟩ := Option.map_eq_some_iff.mp hscreen
  refine ⟨s, hs, fun h => ?_⟩
  have hline : [[Char.ofNat 0x6F22], blank, spacer, blank] ∈ s.screen := by
    rw [heq]
    exact List.mem_cons_self
  have hspacer : WideAt plainTables [[Char.ofNat 0x6F22], blank, spacer, blank] 1 :=
    ((h.screen _ hline).pair (by decide) 1).mp rfl
  exact not_wideAt_of_blank rfl hspacer

end ScreenRenderer
