import IGhostVT.Screen.ScreenRenderer

/-!
# Screen/ScreenLines — the grid's shape, and what moves its lines

`Sound` is the grid's shape, with a law `P` that each of its lines keeps, those of the saved screen
and of the history too, and a bound on the lines that ever became history.  What moves lines keeps
any law that a blank line has: lines go out of the grid and as many blank ones come in
(`Sound.shift`).
-/

open Checked

namespace ScreenRenderer

variable {fits : Prop} {u : UnicodeTables} {n m k : ℤ} {P : List Cell → Prop} {s : ScreenRenderer}

/-- The grid is `m` lines of `n` columns that `P` holds of, the cursor and the region are inside,
and at most `k` lines became history, those that left the buffer among them. -/
structure Sound (n m k : ℤ) (P : List Cell → Prop) (s : ScreenRenderer) : Prop where
  columns : s.columns = n
  rows : s.rows = m
  height : (s.screen.length : ℤ) = m
  line : ∀ row ∈ s.screen, P row
  cursorRow : 0 ≤ s.cursorRow ∧ s.cursorRow < m
  cursorColumn : 0 ≤ s.cursorColumn ∧ s.cursorColumn < n
  savedCursor : 0 ≤ s.savedCursor.1 ∧ 0 ≤ s.savedCursor.2
  region : 0 ≤ s.scrollTop ∧ s.scrollTop ≤ s.scrollBottom ∧ s.scrollBottom < m
  scrollback : (s.scrollback.length : ℤ) ≤ scrollbackLineLimit
  history : ∀ row ∈ s.scrollback, P row
  saved : ∀ saved, s.saved = some saved →
    (saved.screen.length : ℤ) = m ∧ ∀ row ∈ saved.screen, P row
  scrolledOffRows : 0 ≤ s.scrolledOffRows ∧ s.scrolledOffRows + s.scrollback.length ≤ k

/-- The grid has cells, and no more than 16 bits count. -/
structure GridSize (n m : ℤ) : Prop where
  columns : 1 ≤ n ∧ n ≤ 65535
  rows : 1 ≤ m ∧ m ≤ 65535

/-- A later bound bounds as well. -/
theorem Sound.mono {k' : ℤ} (h : Sound n m k P s) (hk : k ≤ k') : Sound n m k' P s :=
  { h with scrolledOffRows := ⟨h.scrolledOffRows.1, h.scrolledOffRows.2.trans hk⟩ }

/-- A blank line is under the law. -/
theorem Sound.blankRow (h : Sound n m k P s) (hblank : P (List.replicate n.toNat blank)) :
    P s.blankRow := by
  rw [ScreenRenderer.blankRow, h.columns]
  exact hblank

/-- And so are some. -/
theorem Sound.blankRows (h : Sound n m k P s) (hblank : P (List.replicate n.toNat blank))
    (count : ℤ) : ∀ row ∈ s.blankRows count, P row := by
  intro row hrow
  rw [List.eq_of_mem_replicate hrow]
  exact h.blankRow hblank

/-- The grid of another screen. -/
theorem Sound.withScreen (h : Sound n m k P s) {screen : List (List Cell)}
    (hheight : (screen.length : ℤ) = m) (hline : ∀ row ∈ screen, P row) :
    Sound n m k P { s with screen } :=
  { h with height := hheight, line := hline }

/-- The cursor moves inside the screen. -/
theorem Sound.moveTo (h : Sound n m k P s) {row column : ℤ} (hrow : 0 ≤ row ∧ row < m)
    (hcolumn : 0 ≤ column ∧ column < n) : Sound n m k P (s.moveTo row column) :=
  { h with cursorRow := hrow, cursorColumn := hcolumn }

/-- A pending wrap is no place. -/
theorem Sound.withWrap (h : Sound n m k P s) (wrapPending : Bool) :
    Sound n m k P { s with wrapPending } :=
  { h with }

/-! ## Lines

Whole lines come and go: scrolling, inserting and deleting. Every line that comes in is blank, so a
law blank lines keep is kept. -/

/-- The lines that leave the screen are history, and nothing else changes. -/
theorem Sound.keepLines (h : Sound n m k P s) {lines : ℤ} (hlo : 0 ≤ lines) (hhi : lines ≤ m)
    (hk : fits → k + lines < 2 ^ 63) :
    Ensures fits (s.keepLines lines) fun s' =>
      ∃ scrollback scrolledOffRows, s' = { s with scrollback, scrolledOffRows }
        ∧ Sound n m (k + lines) P s' := by
  have hheight := h.height
  have hscrollback := h.scrollback
  have hgone := h.scrolledOffRows
  unfold ScreenRenderer.keepLines
  refine (ensures_slice_all le_rfl hlo (by omega) h.line).bind fun gone hgone' => ?_
  obtain ⟨hlength, hall⟩ := hgone'
  have hhistory : ∀ row ∈ s.scrollback ++ gone, P row := by
    intro row hrow
    rcases List.mem_append.mp hrow with hrow | hrow
    · exact h.history row hrow
    · exact hall row hrow
  dsimp only
  split
  next hlong =>
    rw [List.length_append, Nat.cast_add] at hlong ⊢
    have hcount : ((s.scrollback ++ gone).length : ℤ) = s.scrollback.length + gone.length := by
      rw [List.length_append, Nat.cast_add]
    refine (ensures_removeFirst (by omega) ?_).bind_eq ?_
    · rw [hcount, scrollbackLineLimit]
      omega
    · refine (ensures_int_of_fits fun hfits => ?_).bind_eq ?_
      · have := hk hfits
        rw [scrollbackLineLimit] at hlong ⊢
        omega
      · refine ensures_some
          ⟨_, _, rfl, { h with scrollback := ?_, history := ?_, scrolledOffRows := ?_ }⟩
        · dsimp only
          rw [List.length_drop, List.length_append]
          omega
        · exact fun row hrow => hhistory row (List.mem_of_mem_drop hrow)
        · dsimp only
          rw [List.length_drop, List.length_append]
          omega
  next hshort =>
    refine ensures_some ⟨_, s.scrolledOffRows, rfl,
      { h with scrollback := not_lt.mp hshort, history := hhistory, scrolledOffRows := ?_ }⟩
    dsimp only
    rw [List.length_append]
    omega

/-- Lines out of the grid and as many blank ones into it. -/
theorem Sound.shift (h : Sound n m k P s) (hblank : P (List.replicate n.toNat blank))
    (lo hi lines place : ℤ) (hlo : 0 ≤ lo) (hlines : 0 ≤ lines) (hhi : hi = lo + lines)
    (hm : hi ≤ m) (hplace : 0 ≤ place) (hplaceLe : place ≤ m - lines) :
    Ensures fits (removeSubrange s.screen lo hi) fun screen =>
      Ensures fits (insert screen (s.blankRows lines) place) fun screen =>
        (screen.length : ℤ) = m ∧ ∀ row ∈ screen, P row := by
  have hheight := h.height
  refine (ensures_removeSubrange_all hlo (by omega) (by omega) h.line).mono fun rest hrest => ?_
  obtain ⟨hlength, hall⟩ := hrest
  refine (ensures_insert_all hplace (by omega) hall (h.blankRows hblank lines)).mono ?_
  rintro screen ⟨hcount, hline⟩
  refine ⟨?_, hline⟩
  rw [hcount, ScreenRenderer.blankRows, List.length_replicate]
  omega

/-- Lines go off the top of the region, into the scrollback when it is the screen's, where the count
of forgotten rows is bounded by `gone`. -/
theorem Sound.scrollUp (hgrid : GridSize n m) (hblank : P (List.replicate n.toNat blank))
    (h : Sound n m k P s) (count gone : ℤ) (hgone : max 1 count ≤ gone ∨ m ≤ gone)
    (hk : fits → k + gone < 2 ^ 63) :
    Ensures fits (s.scrollUp count) fun s' =>
      Sound n m (k + gone) P s' ∧ s'.cursorColumn = s.cursorColumn := by
  have hregion := h.region
  have hrows := hgrid.rows
  unfold ScreenRenderer.scrollUp
  refine (ensures_int (by omega) (by omega)).bind_eq ?_
  set lines := min (max 1 count) (s.scrollBottom - s.scrollTop + 1)
  dsimp only
  have hlines : 1 ≤ lines ∧ lines ≤ s.scrollBottom - s.scrollTop + 1 := by omega
  have hkept : Ensures fits (if s.saved.isNone ∧ s.scrollTop = 0 then s.keepLines lines else some s)
      fun s' => ∃ scrollback scrolledOffRows, s' = { s with scrollback, scrolledOffRows }
        ∧ Sound n m (k + gone) P s' := by
    split
    · refine (h.keepLines (by omega) (by omega) fun hfits => ?_).mono fun s' hs' => ?_
      · have := hk hfits
        omega
      obtain ⟨scrollback, scrolledOffRows, heq, hs'⟩ := hs'
      exact ⟨scrollback, scrolledOffRows, heq, hs'.mono (by omega)⟩
    · exact ensures_some ⟨s.scrollback, s.scrolledOffRows, rfl, h.mono (by omega)⟩
  refine hkept.bind fun s' hs' => ?_
  obtain ⟨scrollback, scrolledOffRows, rfl, hs'⟩ := hs'
  dsimp only
  refine (ensures_int (by omega) (by omega)).bind_eq ?_
  refine (hs'.shift hblank s.scrollTop (s.scrollTop + lines) lines (s.scrollBottom + 1 - lines)
    (by omega) (by omega) rfl (by omega) (by omega) (by omega)).bind fun screen hscreen => ?_
  refine (ensures_int (by omega) (by omega)).bind_eq ?_
  refine hscreen.bind fun screen hscreen => ?_
  exact ensures_some ⟨hs'.withScreen hscreen.1 hscreen.2, rfl⟩

/-- Lines go off the bottom. -/
theorem Sound.scrollDown (hgrid : GridSize n m) (hblank : P (List.replicate n.toNat blank))
    (h : Sound n m k P s) (count : ℤ) : Ensures fits (s.scrollDown count) (Sound n m k P) := by
  have hregion := h.region
  have hrows := hgrid.rows
  unfold ScreenRenderer.scrollDown
  refine (ensures_int (by omega) (by omega)).bind_eq ?_
  set lines := min (max 1 count) (s.scrollBottom - s.scrollTop + 1)
  dsimp only
  have hlines : 1 ≤ lines ∧ lines ≤ s.scrollBottom - s.scrollTop + 1 := by omega
  refine (ensures_int (by omega) (by omega)).bind_eq ?_
  refine (ensures_int (by omega) (by omega)).bind_eq ?_
  refine (h.shift hblank (s.scrollBottom + 1 - lines) (s.scrollBottom + 1) lines s.scrollTop
    (by omega) (by omega) (by omega) (by omega) (by omega) (by omega)).bind fun screen hscreen => ?_
  refine hscreen.bind fun screen hscreen => ?_
  exact ensures_some (h.withScreen hscreen.1 hscreen.2)

/-- IND scrolls up by one at the region's bottom. -/
theorem Sound.index (hgrid : GridSize n m) (hblank : P (List.replicate n.toNat blank))
    (h : Sound n m k P s) (hk : fits → k + 1 < 2 ^ 63) :
    Ensures fits s.index fun s' => Sound n m (k + 1) P s' ∧ s'.cursorColumn = s.cursorColumn := by
  have hrow := h.cursorRow
  have hrows := hgrid.rows
  have hmove : Ensures fits (if s.cursorRow = s.scrollBottom then s.scrollUp 1
      else if s.cursorRow < s.rows - 1 then do
        some { s with cursorRow := ← int (s.cursorRow + 1) }
      else some s) fun s' => Sound n m (k + 1) P s' ∧ s'.cursorColumn = s.cursorColumn := by
    split_ifs with hbottom hlast
    · exact h.scrollUp hgrid hblank 1 1 (.inl (by omega)) hk
    · rw [h.rows] at hlast
      refine (ensures_int (by omega) (by omega)).bind_eq (ensures_some ?_)
      have hmoved : Sound n m k P { s with cursorRow := s.cursorRow + 1 } :=
        { h with cursorRow := by dsimp only; omega }
      exact ⟨hmoved.mono (by omega), rfl⟩
    · exact ensures_some ⟨h.mono (by omega), rfl⟩
  exact hmove.bind fun s' hs' => ensures_some ⟨hs'.1.withWrap false, hs'.2⟩

/-- RI scrolls down at its top. -/
theorem Sound.reverseIndex (hgrid : GridSize n m) (hblank : P (List.replicate n.toNat blank))
    (h : Sound n m k P s) : Ensures fits s.reverseIndex (Sound n m k P) := by
  have hrow := h.cursorRow
  have hrows := hgrid.rows
  have hmove : Ensures fits (if s.cursorRow = s.scrollTop then s.scrollDown 1
      else if s.cursorRow > 0 then do
        some { s with cursorRow := ← int (s.cursorRow - 1) }
      else some s) (Sound n m k P) := by
    split_ifs with htop hfirst
    · exact h.scrollDown hgrid hblank 1
    · refine (ensures_int (by omega) (by omega)).bind_eq (ensures_some ?_)
      exact { h with cursorRow := by dsimp only; omega }
    · exact ensures_some h
  exact hmove.bind fun s' hs' => ensures_some (hs'.withWrap false)

/-- IL, between the cursor's line and the region's bottom. -/
theorem Sound.insertLines (hgrid : GridSize n m) (hblank : P (List.replicate n.toNat blank))
    (h : Sound n m k P s) {count : ℤ} (hcount : 1 ≤ count) :
    Ensures fits (s.insertLines count) (Sound n m k P) := by
  have hregion := h.region
  have hrows := hgrid.rows
  have hcolumns := hgrid.columns
  unfold ScreenRenderer.insertLines
  split
  next hinside =>
    refine (ensures_int (by omega) (by omega)).bind_eq ?_
    set lines := min count (s.scrollBottom - s.cursorRow + 1)
    dsimp only
    have hlines : 1 ≤ lines ∧ lines ≤ s.scrollBottom - s.cursorRow + 1 := by omega
    refine (ensures_int (by omega) (by omega)).bind_eq ?_
    refine (ensures_int (by omega) (by omega)).bind_eq ?_
    refine (h.shift hblank (s.scrollBottom + 1 - lines) (s.scrollBottom + 1) lines s.cursorRow
      (by omega) (by omega) (by omega) (by omega) (by omega) (by omega)).bind fun screen hscreen =>
        ?_
    refine hscreen.bind fun screen hscreen => ensures_some ?_
    exact (h.withScreen hscreen.1 hscreen.2).moveTo h.cursorRow (by omega)
  next => exact ensures_some h

/-- DL, the same way. -/
theorem Sound.deleteLines (hgrid : GridSize n m) (hblank : P (List.replicate n.toNat blank))
    (h : Sound n m k P s) {count : ℤ} (hcount : 1 ≤ count) :
    Ensures fits (s.deleteLines count) (Sound n m k P) := by
  have hregion := h.region
  have hrows := hgrid.rows
  have hcolumns := hgrid.columns
  unfold ScreenRenderer.deleteLines
  split
  next hinside =>
    refine (ensures_int (by omega) (by omega)).bind_eq ?_
    set lines := min count (s.scrollBottom - s.cursorRow + 1)
    dsimp only
    have hlines : 1 ≤ lines ∧ lines ≤ s.scrollBottom - s.cursorRow + 1 := by omega
    refine (ensures_int (by omega) (by omega)).bind_eq ?_
    refine (h.shift hblank s.cursorRow (s.cursorRow + lines) lines (s.scrollBottom + 1 - lines)
      (by omega) (by omega) rfl (by omega) (by omega) (by omega)).bind fun screen hscreen => ?_
    refine (ensures_int (by omega) (by omega)).bind_eq ?_
    refine hscreen.bind fun screen hscreen => ensures_some ?_
    exact (h.withScreen hscreen.1 hscreen.2).moveTo h.cursorRow (by omega)
  next => exact ensures_some h

/-- Whole lines become blank. -/
theorem Sound.blankLines (hblank : P (List.replicate n.toNat blank)) (h : Sound n m k P s)
    {start stop : ℤ} (hstart : 0 ≤ start) (hle : start ≤ stop) (hstop : stop ≤ m) :
    Ensures fits (s.blankLines start stop) (Sound n m k P) := by
  have hloop : Ensures fits _ _ := ensures_forRange
    (f := fun (screen : List (List Cell)) (row : ℤ) => set screen row s.blankRow)
    (fun _ screen => (screen.length : ℤ) = m ∧ ∀ row ∈ screen, P row) hle ⟨h.height, h.line⟩
    fun i screen hlo hhi hscreen => by
      refine (ensures_set_all (by omega) (by omega) hscreen.2 (h.blankRow hblank)).mono ?_
      rintro screen' ⟨hlength, hline⟩
      exact ⟨by rw [hlength]; exact hscreen.1, hline⟩
  exact hloop.bind fun screen hscreen => ensures_some (h.withScreen hscreen.1 hscreen.2)

end ScreenRenderer
