import IGhostVT.Screen.ScreenLines

/-!
# Screen/ScreenCells — what writes into a line

What erases, inserts or deletes characters is a `CellEdit` of the cursor's line, and whether the law
survives it is left to whoever has a law to keep (`Keeps`).  Writing a character and joining a mark
to one are edits of their own, which a `LineLaw` survives.
-/

open Checked

namespace ScreenRenderer

variable {fits : Prop} {u : UnicodeTables} {n m k : ℤ} {P : List Cell → Prop} {s : ScreenRenderer}

/-! ## Cells

An edit is described cell by cell, by what it leaves in place, moves or makes blank; its length and
whatever law the cells are under follow from that. -/

/-- What erasing, inserting or deleting characters does to the cells of a line. -/
inductive CellEdit
  | erase (start stop : ℕ)
  | insert (place count : ℕ)
  | delete (place count : ℕ)
deriving DecidableEq

namespace CellEdit

def apply : CellEdit → List Cell → List Cell
  | .erase start stop, row =>
    row.take start ++ List.replicate (stop - start) blank ++ row.drop stop
  | .insert place count, row =>
    row.take place ++ List.replicate count blank ++ (row.take (row.length - count)).drop place
  | .delete place count, row =>
    row.take place ++ row.drop (place + count) ++ List.replicate count blank

/-- Inside a line of so many cells. -/
def Fits (length : ℕ) : CellEdit → Prop
  | .erase start stop => start ≤ stop ∧ stop ≤ length
  | .insert place count => 0 < count ∧ place + count ≤ length
  | .delete place count => 0 < count ∧ place + count ≤ length

/-- An edit inside a line leaves its length. -/
theorem length_apply {e : CellEdit} {row : List Cell} (h : e.Fits row.length) :
    (e.apply row).length = row.length := by
  cases e with
  | erase start stop =>
    have hfits : start ≤ stop ∧ stop ≤ row.length := h
    simp only [apply, List.length_append, List.length_take, List.length_replicate, List.length_drop]
    omega
  | insert place count =>
    have hfits : 0 < count ∧ place + count ≤ row.length := h
    simp only [apply, List.length_append, List.length_take, List.length_replicate, List.length_drop]
    omega
  | delete place count =>
    have hfits : 0 < count ∧ place + count ≤ row.length := h
    simp only [apply, List.length_append, List.length_take, List.length_replicate, List.length_drop]
    omega

/-- Only the stretch becomes blank. -/
theorem getElem?_erase {start stop : ℕ} {row : List Cell} (hle : start ≤ stop)
    (hstop : stop ≤ row.length) (j : ℕ) :
    ((erase start stop).apply row)[j]? =
      if start ≤ j ∧ j < stop then some blank else row[j]? := by
  simp only [apply, List.getElem?_append, List.length_append, List.length_take,
    List.length_replicate, List.getElem?_replicate, List.getElem?_take, List.getElem?_drop]
  split_ifs <;> first
    | rfl
    | omega
    | (congr 1; omega)

/-- Blanks from `place` on, and what was there moved right; the last `count` cells fall off. -/
theorem getElem?_insert {place count : ℕ} {row : List Cell} (h : place + count ≤ row.length)
    (j : ℕ) :
    ((insert place count).apply row)[j]? =
      if j < place then row[j]?
      else if j < place + count then some blank
      else if j < row.length then row[j - count]?
      else none := by
  simp only [apply, List.getElem?_append, List.length_append, List.length_take,
    List.length_replicate, List.getElem?_replicate, List.getElem?_take, List.getElem?_drop]
  split_ifs <;> first
    | rfl
    | omega
    | (congr 1; omega)

/-- What is right of the gap moves left, and as many blanks come in at the end. -/
theorem getElem?_delete {place count : ℕ} {row : List Cell} (h : place + count ≤ row.length)
    (j : ℕ) :
    ((delete place count).apply row)[j]? =
      if j < place then row[j]?
      else if j + count < row.length then row[j + count]?
      else if j < row.length then some blank
      else none := by
  simp only [apply, List.getElem?_append, List.length_append, List.length_take, List.length_drop,
    List.getElem?_replicate, List.getElem?_take, List.getElem?_drop]
  split_ifs <;> first
    | rfl
    | omega
    | (congr 1; omega)

end CellEdit

/-- The cursor's line, changed. -/
def editLine (s : ScreenRenderer) (f : List Cell → List Cell) : ScreenRenderer :=
  { s with screen := s.screen.modify s.cursorRow.toNat f }

/-- A row of a modified screen is an old one, or the one that was changed. -/
theorem mem_modify {α : Type} {xs : List α} {i : ℕ} {f : α → α} {y : α} (h : y ∈ xs.modify i f) :
    y ∈ xs ∨ ∃ v, xs[i]? = some v ∧ y = f v := by
  obtain ⟨j, hj⟩ := List.mem_iff_getElem?.mp h
  rw [List.getElem?_modify] at hj
  obtain ⟨v, hv, hy⟩ := Option.map_eq_some_iff.mp hj
  split at hy
  next heq => exact .inr ⟨v, heq ▸ hv, hy.symm⟩
  next => exact .inl (hy ▸ List.mem_of_getElem? hv)

/-- Only what stands at the place matters of a function that modifies it. -/
theorem modify_congr {α : Type} {xs : List α} {i : ℕ} {f g : α → α}
    (h : ∀ v, xs[i]? = some v → f v = g v) : xs.modify i f = xs.modify i g := by
  refine List.ext_getElem? fun j => ?_
  rw [List.getElem?_modify, List.getElem?_modify]
  cases hget : xs[j]? with
  | none => rfl
  | some v =>
    refine congrArg some ?_
    split
    next heq => exact h v (heq ▸ hget)
    next => rfl

/-- A screen stays sound when the law holds of the cursor's line after the edit. -/
theorem Sound.editLine (h : Sound n m k P s) {f : List Cell → List Cell}
    (hf : ∀ row, s.screen[s.cursorRow.toNat]? = some row → P (f row)) :
    Sound n m k P (s.editLine f) := by
  refine h.withScreen ?_ fun row hrow => ?_
  · rw [List.length_modify]
    exact h.height
  · rcases mem_modify hrow with hmem | ⟨v, hv, rfl⟩
    · exact h.line row hmem
    · exact hf v hv

/-- A cell of two columns. -/
def isWide (u : UnicodeTables) (cell : Cell) : Bool :=
  cell.head?.any fun scalar => width u scalar = 2

/-- The left half of a glyph goes with the right one. -/
def clearLeft (row : List Cell) (column : ℕ) : List Cell :=
  if row[column]? = some spacer ∧ 0 < column then row.set (column - 1) blank else row

/-- The right half of a glyph goes with the left one. -/
def clearRight (row : List Cell) (column : ℕ) : List Cell :=
  if row[column]? = some spacer then row.set column blank else row

/-- What `write` leaves of a line. -/
def writeRow (row : List Cell) (column : ℕ) (character : Cell) (w : ℕ) : List Cell :=
  let row' := (clearRight (clearLeft row column) (column + w)).set column character
  if w = 2 ∧ column + 1 < row.length then row'.set (column + 1) spacer else row'

/-- A character that is written: one scalar, of one column or two. -/
structure IsGlyph (u : UnicodeTables) (character : Cell) (w : ℤ) : Prop where
  ne_nil : character ≠ []
  ne_spacer : character ≠ spacer
  columns : w = 1 ∨ w = 2
  wide : isWide u character = true ↔ w = 2

/-- A law that lines of `n` columns keep when a character is written or a mark joins one. -/
structure LineLaw (u : UnicodeTables) (n : ℤ) (P : List Cell → Prop) : Prop where
  blank : P (List.replicate n.toNat blank)
  length : ∀ row, P row → (row.length : ℤ) = n
  write : ∀ row (column : ℕ) character w, P row → column < row.length → IsGlyph u character w →
    (w = 2 → column + 1 < row.length ∨ row.length = 1) → P (writeRow row column character w.toNat)
  join : ∀ row (column : ℕ) cell mark, P row → row[column]? = some cell → cell ≠ spacer →
    P (row.set column (cell ++ [mark]))

variable (hgrid : GridSize n m) (hlaw : LineLaw u n P)

include hlaw in
/-- The cursor's line is as long as the screen is wide. -/
theorem Sound.length_line (h : Sound n m k P s) {row : List Cell}
    (hrow : s.screen[s.cursorRow.toNat]? = some row) : (row.length : ℤ) = n :=
  hlaw.length row (h.line row (List.mem_of_getElem? hrow))

/-- The law holds of what an edit makes of the cursor's line. -/
def Keeps (P : List Cell → Prop) (s : ScreenRenderer) (e : CellEdit) : Prop :=
  ∀ row, s.screen[s.cursorRow.toNat]? = some row → e.Fits row.length → P row → P (e.apply row)

include hlaw in
/-- So a `CellEdit` keeps the screen sound when whoever has the law says so (`Keeps`). -/
theorem Sound.edited (h : Sound n m k P s) {e : CellEdit} (hkeeps : Keeps P s e)
    (hfits : ∀ length : ℕ, (length : ℤ) = n → e.Fits length) :
    Sound n m k P (s.editLine e.apply) :=
  h.editLine fun row hrow => hkeeps row hrow (hfits _ (h.length_line hlaw hrow))
    (h.line row (List.mem_of_getElem? hrow))

include hlaw in
/-- No subscript of `blankCells` is out of range, and the row it blanks is the cursor's. -/
theorem Sound.blankCells (h : Sound n m k P s) {start stop : ℤ} (hstart : 0 ≤ start)
    (hle : start ≤ stop) (hstop : stop ≤ n)
    (hkeeps : Keeps P s (.erase start.toNat stop.toNat)) :
    Ensures fits (s.blankCells start stop) (Sound n m k P) := by
  have hrow := h.cursorRow
  have hheight := h.height
  have hzero : s.screen.modify s.cursorRow.toNat (CellEdit.erase start.toNat start.toNat).apply
      = s.screen := by
    have hid : (CellEdit.erase start.toNat start.toNat).apply = id := by
      funext row
      rw [CellEdit.apply, Nat.sub_self, List.replicate_zero, List.append_nil,
        List.take_append_drop]
      rfl
    rw [hid, List.modify_id]
  have hloop : Ensures fits _ _ := ensures_forRange
    (f := fun (screen : List (List Cell)) (column : ℤ) =>
      modify screen s.cursorRow fun row => set row column blank)
    (fun i screen => screen
      = s.screen.modify s.cursorRow.toNat (CellEdit.erase start.toNat i.toNat).apply) hle
    hzero.symm fun i screen hlo hhi hscreen => by
      subst hscreen
      have hline : ∀ row, s.screen[s.cursorRow.toNat]? = some row →
          ((CellEdit.erase start.toNat i.toNat).apply row).set i.toNat blank
            = (CellEdit.erase start.toNat (i + 1).toNat).apply row := by
        intro row hget
        have hlength := h.length_line hlaw hget
        refine List.ext_getElem? fun j => ?_
        have hsame : ((CellEdit.erase start.toNat i.toNat).apply row).length = row.length :=
          CellEdit.length_apply ⟨by omega, by omega⟩
        rw [List.getElem?_set, CellEdit.getElem?_erase (by omega) (by omega),
          CellEdit.getElem?_erase (by omega) (by omega), hsame]
        split_ifs <;> first
          | rfl
          | omega
      refine (ensures_modify (g := fun row => row.set i.toNat blank) hrow.1 ?_ ?_).mono ?_
      · rw [List.length_modify]
        omega
      · intro row hget
        rw [List.getElem?_modify_eq] at hget
        obtain ⟨row, hold, rfl⟩ := Option.map_eq_some_iff.mp hget
        have hlength := h.length_line hlaw hold
        have hsame : ((CellEdit.erase start.toNat i.toNat).apply row).length = row.length :=
          CellEdit.length_apply ⟨by omega, by omega⟩
        exact ensures_set (by omega) (by omega)
      · intro screen hscreen
        rw [hscreen, List.modify_modify_eq]
        exact modify_congr hline
  have hsound : Sound n m k P (s.editLine (CellEdit.erase start.toNat stop.toNat).apply) :=
    h.edited hlaw hkeeps fun length hlength => ⟨by omega, by omega⟩
  exact hloop.bind fun screen hscreen => ensures_some (hscreen ▸ hsound)

/-- A subscript of the cursor's line. -/
theorem Sound.modifyLine (h : Sound n m k P s) {f : List Cell → Option (List Cell)}
    (g : List Cell → List Cell)
    (hf : ∀ row, s.screen[s.cursorRow.toNat]? = some row → Ensures fits (f row) (· = g row)) :
    Ensures fits (modify s.screen s.cursorRow f) (· = s.screen.modify s.cursorRow.toNat g) := by
  have hrow := h.cursorRow
  have hheight := h.height
  exact ensures_modify hrow.1 (by omega) hf

include hgrid hlaw in
/-- ICH: the count is cut to what is right of the cursor, so the ranges are in bounds. -/
theorem Sound.insertCharacters (h : Sound n m k P s) {count : ℤ} (hcount : 1 ≤ count)
    (hkeeps : Keeps P s
      (.insert s.cursorColumn.toNat (min count (s.columns - s.cursorColumn)).toNat)) :
    Ensures fits (s.insertCharacters count) (Sound n m k P) := by
  have hcolumn := h.cursorColumn
  have hcolumns := hgrid.columns
  have hn := h.columns
  unfold ScreenRenderer.insertCharacters
  refine (ensures_int (by omega) (by omega)).bind_eq ?_
  set cells := min count (s.columns - s.cursorColumn)
  dsimp only
  have hcells : 1 ≤ cells ∧ cells ≤ n - s.cursorColumn := by omega
  refine (h.modifyLine (CellEdit.insert s.cursorColumn.toNat cells.toNat).apply
    fun row hrow => ?_).bind_eq (ensures_some ((h.edited hlaw hkeeps fun length hlength =>
      ⟨by omega, by omega⟩).withWrap false))
  have hlength := h.length_line hlaw hrow
  refine (ensures_removeLast (by omega) (by omega)).bind_eq ?_
  refine (ensures_insert (by omega) ?_).mono fun row' hrow' => ?_
  · rw [List.length_take]
    omega
  · have hkept : (row.length - cells : ℤ).toNat = row.length - cells.toNat := by omega
    rw [hrow', hkept, CellEdit.apply, List.take_take, min_eq_left (by omega)]

include hgrid hlaw in
/-- DCH, the same way. -/
theorem Sound.deleteCharacters (h : Sound n m k P s) {count : ℤ} (hcount : 1 ≤ count)
    (hkeeps : Keeps P s
      (.delete s.cursorColumn.toNat (min count (s.columns - s.cursorColumn)).toNat)) :
    Ensures fits (s.deleteCharacters count) (Sound n m k P) := by
  have hcolumn := h.cursorColumn
  have hcolumns := hgrid.columns
  have hn := h.columns
  unfold ScreenRenderer.deleteCharacters
  refine (ensures_int (by omega) (by omega)).bind_eq ?_
  set cells := min count (s.columns - s.cursorColumn)
  dsimp only
  have hcells : 1 ≤ cells ∧ cells ≤ n - s.cursorColumn := by omega
  refine (h.modifyLine (CellEdit.delete s.cursorColumn.toNat cells.toNat).apply
    fun row hrow => ?_).bind_eq (ensures_some ((h.edited hlaw hkeeps fun length hlength =>
      ⟨by omega, by omega⟩).withWrap false))
  have hlength := h.length_line hlaw hrow
  refine (ensures_int (by omega) (by omega)).bind_eq ?_
  refine (ensures_removeSubrange (by omega) (by omega) (by omega)).bind_eq ?_
  have hend : (s.cursorColumn + cells).toNat = s.cursorColumn.toNat + cells.toNat := by omega
  exact ensures_some (by rw [hend]; rfl)

include hgrid hlaw in
/-- ECH, whose end is cut to the line's. -/
theorem Sound.eraseCharacters (h : Sound n m k P s) {count : ℤ} (hcount : 1 ≤ count)
    (hcountLe : count ≤ 65535) (hkeeps : Keeps P s
      (.erase s.cursorColumn.toNat (min s.columns (s.cursorColumn + count)).toNat)) :
    Ensures fits (s.eraseCharacters count) (Sound n m k P) := by
  have hcolumn := h.cursorColumn
  have hcolumns := hgrid.columns
  have hn := h.columns
  unfold ScreenRenderer.eraseCharacters
  refine (ensures_int (by omega) (by omega)).bind_eq ?_
  dsimp only
  rw [if_pos (by omega)]
  refine (h.blankCells hlaw (by omega) (by omega) (by omega) hkeeps).bind fun s' hs' => ?_
  exact ensures_some (hs'.withWrap false)

/-- The cells that erasing in the cursor's line blanks, unless it blanks the whole line. -/
def erased (s : ScreenRenderer) (mode : ℤ) : Option CellEdit :=
  if mode = 0 then some (.erase s.cursorColumn.toNat s.columns.toNat)
  else if mode = 1 then some (.erase 0 (min s.cursorColumn (s.columns - 1) + 1).toNat)
  else none

include hgrid hlaw in
/-- EL of every mode, each one stretch of the cursor's line. -/
theorem Sound.eraseInLine (h : Sound n m k P s) (mode : ℤ)
    (hkeeps : ∀ e, s.erased mode = some e → Keeps P s e) :
    Ensures fits (s.eraseInLine mode) (Sound n m k P) := by
  have hcolumn := h.cursorColumn
  have hcolumns := hgrid.columns
  have hn := h.columns
  have hrow := h.cursorRow
  have hheight := h.height
  unfold ScreenRenderer.eraseInLine
  unfold erased at hkeeps
  split_ifs at hkeeps ⊢
  · refine (h.blankCells hlaw (by omega) (by omega) (by omega) (hkeeps _ rfl)).bind fun s' hs' => ?_
    exact ensures_some (hs'.withWrap false)
  · refine (ensures_int (by omega) (by omega)).bind_eq ?_
    refine (h.blankCells hlaw le_rfl (by omega) (by omega) (hkeeps _ rfl)).bind fun s' hs' => ?_
    exact ensures_some (hs'.withWrap false)
  · refine (ensures_set_all hrow.1 (by omega) h.line (h.blankRow hlaw.blank)).bind ?_
    rintro screen ⟨hlength, hline⟩
    refine ensures_some ((h.withScreen ?_ hline).withWrap false)
    rw [hlength]
    exact hheight
  · exact ensures_some h

/-- The count of forgotten rows fits as long as the stream's length bounds it. -/
theorem Sound.forgetScrollback (h : Sound n m k P s) (hk : fits → k < 2 ^ 63) :
    Ensures fits s.forgetScrollback (Sound n m k P) := by
  have hgone := h.scrolledOffRows
  refine (ensures_int_of_fits fun hfits => ?_).bind_eq (ensures_some { h with
    scrollback := by dsimp only; decide
    history := fun row hrow => absurd hrow List.not_mem_nil
    scrolledOffRows := by dsimp only; rw [List.length_nil]; omega })
  have := hk hfits
  omega

include hgrid hlaw in
/-- ED of every mode: EL of the cursor's line, whole rows, or the scrollback. -/
theorem Sound.eraseInDisplay (h : Sound n m k P s) (mode : ℤ)
    (hkeeps : ∀ e, s.erased mode = some e → Keeps P s e) (hk : fits → k < 2 ^ 63) :
    Ensures fits (s.eraseInDisplay mode) (Sound n m k P) := by
  have hrows := hgrid.rows
  unfold ScreenRenderer.eraseInDisplay
  split_ifs with hzero hone hall hthree
  · refine (h.eraseInLine hgrid hlaw 0 (hzero ▸ hkeeps)).bind fun s' hs' => ?_
    have hrow := hs'.cursorRow
    have hm := hs'.rows
    refine (ensures_int (by omega) (by omega)).bind_eq ?_
    refine (hs'.blankLines hlaw.blank (by omega) (by omega) (by omega)).bind fun s'' hs'' => ?_
    exact ensures_some (hs''.withWrap false)
  · refine (h.eraseInLine hgrid hlaw 1 (hone ▸ hkeeps)).bind fun s' hs' => ?_
    have hrow := hs'.cursorRow
    refine (hs'.blankLines hlaw.blank le_rfl hrow.1 hrow.2.le).bind fun s'' hs'' => ?_
    exact ensures_some (hs''.withWrap false)
  · have hm := h.rows
    refine (h.blankLines hlaw.blank le_rfl (by omega) hm.le).bind fun s' hs' => ?_
    exact (hs'.forgetScrollback hk).bind fun s'' hs'' => ensures_some (hs''.withWrap false)
  · have hm := h.rows
    refine (h.blankLines hlaw.blank le_rfl (by omega) hm.le).bind fun s' hs' => ?_
    exact ensures_some (hs'.withWrap false)
  · exact ensures_some h

/-! ## Characters

`writeCells` and `columnOfMark` work on the cursor's line with checked subscripts. The plain
functions here say what they compute; each check is passed because the cursor is inside the line. -/

include hgrid hlaw in
/-- Before a character is written the cursor is where it fits, a wide one with a column to spare
unless the screen has one column only. -/
theorem Sound.makeRoom (h : Sound n m k P s) (w : ℤ) (hk : fits → k + 2 < 2 ^ 63) :
    Ensures fits (s.makeRoom w) fun (s', fits) =>
      Sound n m (k + 2) P s' ∧ (fits → w = 2 → s'.cursorColumn + 1 < n ∨ n = 1) := by
  have hcolumns := hgrid.columns
  have hwrapped : Ensures fits (if s.wrapPending ∧ s.autoWrap then do
        let s ← ({ s with cursorColumn := 0 } : ScreenRenderer).index
        some { s with wrapPending := false }
      else some s) (Sound n m (k + 1) P) := by
    split
    · have hmoved : Sound n m k P { s with cursorColumn := 0 } :=
        { h with cursorColumn := by dsimp only; omega }
      refine (hmoved.index hgrid hlaw.blank fun hfits => ?_).bind fun s' hs' => ?_
      · have := hk hfits
        omega
      exact ensures_some (hs'.1.withWrap false)
    · exact ensures_some (h.mono (by omega))
  refine hwrapped.bind fun s' hs' => ?_
  have hn := hs'.columns
  have hcolumn := hs'.cursorColumn
  split_ifs with hedge hwrap
  · have hmoved : Sound n m (k + 1) P { s' with cursorColumn := 0 } :=
      { hs' with cursorColumn := by dsimp only; omega }
    refine (hmoved.index hgrid hlaw.blank fun hfits => ?_).bind fun s'' hs'' =>
      ensures_some ⟨?_, fun _ _ => ?_⟩
    · have := hk hfits
      omega
    · exact hs''.1.mono (by omega)
    · have hzero : s''.cursorColumn = 0 := hs''.2
      omega
  · exact ensures_some ⟨hs'.mono (by omega), nofun⟩
  · refine ensures_some ⟨hs'.mono (by omega), fun _ hw => .inl ?_⟩
    have hinside : s'.cursorColumn ≠ s'.columns - 1 := fun heq => hedge ⟨hw, heq⟩
    omega

/-- Clearing the glyph a spacer belonged to leaves the length. -/
theorem length_clearLeft (row : List Cell) (column : ℕ) :
    (clearLeft row column).length = row.length := by
  unfold clearLeft
  split
  · exact List.length_set
  · rfl

/-- So does clearing the spacer of an overwritten glyph. -/
theorem length_clearRight (row : List Cell) (column : ℕ) :
    (clearRight row column).length = row.length := by
  unfold clearRight
  split
  · exact List.length_set
  · rfl

/-- And so does a character with its spacer. -/
theorem length_writeRow (row : List Cell) (column : ℕ) (character : Cell) (w : ℕ) :
    (writeRow row column character w).length = row.length := by
  rw [writeRow]
  split
  · rw [List.length_set, List.length_set, length_clearRight, length_clearLeft]
  · rw [List.length_set, length_clearRight, length_clearLeft]

/-- A spacer is never the first cell it is looked at in, so its left neighbour is there. -/
theorem ensures_clearLeft {row : List Cell} {column : ℤ} {cell : Cell} (hlo : 0 ≤ column)
    (hcell : row[column.toNat]? = some cell) :
    Ensures fits (if cell = spacer ∧ column > 0 then set row (column - 1) blank else some row)
      (· = clearLeft row column.toNat) := by
  have hlt := (List.getElem?_eq_some_iff.mp hcell).1
  rw [clearLeft, hcell]
  split
  next hspacer =>
    have hpred : (column - 1).toNat = column.toNat - 1 := by omega
    rw [if_pos ⟨congrArg some hspacer.1, by omega⟩, ← hpred]
    exact ensures_set (by omega) (by omega)
  next hno =>
    rw [if_neg fun h => hno ⟨Option.some.inj h.1, by omega⟩]
    exact ensures_some rfl

/-- The cell to the right is looked at only inside the line. -/
theorem ensures_clearRight {row : List Cell} {next : ℤ} (hlo : 0 ≤ next) :
    Ensures fits (if next < row.length then do
        let cell ← get row next
        if cell = spacer then set row next blank else some row
      else some row) (· = clearRight row next.toNat) := by
  rw [clearRight]
  split
  next hinside =>
    have hcell : row[next.toNat]? = some row[next.toNat] := List.getElem?_eq_getElem (by omega)
    refine (ensures_get hlo hcell).bind_eq ?_
    rw [hcell]
    split
    next hspacer =>
      rw [if_pos (congrArg some hspacer)]
      exact ensures_set hlo hinside
    next hno =>
      rw [if_neg fun h => hno (Option.some.inj h)]
      exact ensures_some rfl
  next houtside =>
    rw [List.getElem?_eq_none (by omega), if_neg nofun]
    exact ensures_some rfl

/-- `writeCells` subscripts the cursor's cell and the next one only, and writes what `writeRow`
says. -/
theorem ensures_writeCells {row : List Cell} {column w : ℤ} (character : Cell) (hlo : 0 ≤ column)
    (hhi : column < row.length) (hlength : row.length ≤ 65535) (hw : w = 1 ∨ w = 2) :
    Ensures fits (writeCells row.length column w character row)
      (· = writeRow row column.toNat character w.toNat) := by
  have hcell : row[column.toNat]? = some row[column.toNat] := List.getElem?_eq_getElem (by omega)
  have hleft := length_clearLeft row column.toNat
  have hright := length_clearRight (clearLeft row column.toNat) (column + w).toNat
  have hnext : (column + w).toNat = column.toNat + w.toNat := by omega
  unfold writeCells
  refine (ensures_get hlo hcell).bind_eq ((ensures_clearLeft hlo hcell).bind_eq ?_)
  refine (ensures_int (by omega) (by omega)).bind_eq ?_
  rw [← hleft]
  refine (ensures_clearRight (by omega)).bind_eq ?_
  refine (ensures_set hlo (by omega)).bind_eq ?_
  rw [writeRow, hleft, ← hnext]
  split
  next hwide =>
    have hsucc : (column + 1).toNat = column.toNat + 1 := by omega
    rw [if_pos ⟨by omega, by omega⟩, ← hsucc]
    exact ensures_set (by omega) (by rw [List.length_set]; omega)
  next hno =>
    rw [if_neg fun h => hno ⟨by omega, by omega⟩]
    exact ensures_some rfl

include hgrid hlaw in
/-- What is written, and where the cursor goes behind it. -/
theorem Sound.write (h : Sound n m k P s) {character : Cell} {w : ℤ}
    (hglyph : IsGlyph u character w) (hfits : w = 2 → s.cursorColumn + 1 < n ∨ n = 1) :
    Ensures fits (s.write character w) fun s' => Sound n m k P s'
      ∧ s'.screen = s.screen.modify s.cursorRow.toNat
          (writeRow · s.cursorColumn.toNat character w.toNat) := by
  have hcolumns := hgrid.columns
  have hcolumn := h.cursorColumn
  have hn := h.columns
  have hw := hglyph.columns
  have hwritten :
      Sound n m k P (s.editLine (writeRow · s.cursorColumn.toNat character w.toNat)) := by
    refine h.editLine fun row hget => ?_
    have hlength := h.length_line hlaw hget
    refine hlaw.write _ _ character w (h.line _ (List.mem_of_getElem? hget)) (by omega) hglyph
      fun htwo => ?_
    have hroom := hfits htwo
    omega
  unfold ScreenRenderer.write
  refine (h.modifyLine (writeRow · s.cursorColumn.toNat character w.toNat)
    fun row hget => ?_).bind_eq ((ensures_int (by omega) (by omega)).bind_eq ?_)
  · have hlength := h.length_line hlaw hget
    rw [hn, ← hlength]
    exact ensures_writeCells character hcolumn.1 (by omega) (by omega) hw
  · split
    · exact ensures_some ⟨{ hwritten with cursorColumn := by dsimp only; omega }, rfl⟩
    · exact ensures_some ⟨{ hwritten with cursorColumn := by dsimp only; omega }, rfl⟩

include hgrid hlaw in
/-- A printed character: room is made, its cells are written, and the cursor goes on. -/
theorem Sound.place (h : Sound n m k P s) {character : Cell} {w : ℤ}
    (hglyph : IsGlyph u character w) (hk : fits → k + 2 < 2 ^ 63) :
    Ensures fits (s.place character w) (Sound n m (k + 2) P) := by
  refine (h.makeRoom hgrid hlaw w hk).bind fun r hr => ?_
  obtain ⟨s', fits⟩ := r
  dsimp only
  split
  next hfits =>
    exact (hr.1.write hgrid hlaw hglyph (hr.2 hfits)).mono fun _ hs' => hs'.1
  next => exact ensures_some hr.1

/-- The search goes left over spacers and stops inside the line, or before its first cell. -/
theorem ensures_columnOfMark {row : List Cell} : ∀ (turns : ℕ) (column : ℤ), column < row.length →
    column < turns →
      Ensures fits (columnOfMark row turns column) fun c => 0 ≤ c →
        ∃ cell, row[c.toNat]? = some cell ∧ cell ≠ spacer
  | 0, column, _, hturns => ensures_some fun hc => by omega
  | turns + 1, column, hlt, hturns => by
    unfold columnOfMark
    split
    next hlo =>
      have hcell : row[column.toNat]? = some row[column.toNat] :=
        List.getElem?_eq_getElem (by omega)
      refine (ensures_get hlo hcell).bind_eq ?_
      split
      next => exact ensures_columnOfMark turns (column - 1) (by omega) (by omega)
      next hno => exact ensures_some fun _ => ⟨_, hcell, hno⟩
    next hno => exact ensures_some fun hc => absurd hc hno

include hlaw in
/-- A mark joins the cell the search found, or nothing. -/
theorem Sound.attachCombining (h : Sound n m k P s) (mark : Char) :
    Ensures fits (s.attachCombining u mark) (Sound n m k P) := by
  have hcolumn := h.cursorColumn
  have hrow := h.cursorRow
  have hheight := h.height
  have hline : s.screen[s.cursorRow.toNat]? = some s.screen[s.cursorRow.toNat] :=
    List.getElem?_eq_getElem (by omega)
  have hlength := h.length_line hlaw hline
  unfold ScreenRenderer.attachCombining
  refine (ensures_get hrow.1 hline).bind_eq ?_
  refine (ensures_columnOfMark _ _ ?_ (by omega)).bind fun column hfound => ?_
  · split_ifs <;> omega
  split
  next hlo =>
    obtain ⟨cell, hcell, hno⟩ := hfound hlo
    have hlt := (List.getElem?_eq_some_iff.mp hcell).1
    refine (ensures_get hlo hcell).bind_eq ?_
    dsimp only
    split
    next =>
      refine (h.modifyLine (·.set column.toNat (cell ++ [mark])) fun row hget => ?_).bind_eq
        (ensures_some ?_)
      · obtain rfl := Option.some.inj (hget.symm.trans hline)
        exact ensures_set hlo (by omega)
      · refine h.editLine fun row hget => ?_
        obtain rfl := Option.some.inj (hget.symm.trans hline)
        exact hlaw.join _ _ cell mark (h.line _ (List.mem_of_getElem? hline)) hcell hno
    next => exact ensures_some h
  next => exact ensures_some h

end ScreenRenderer
