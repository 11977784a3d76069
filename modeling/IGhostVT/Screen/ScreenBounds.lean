import IGhostVT.Screen.ScreenCells

/-!
# Screen/ScreenBounds — the renderer never indexes out of range

A byte keeps the grid's shape (`Sound.consume`), whatever it does to the cells of the cursor's line
(`cellEdit`), so that bytes do (`Sound.feed`); `feed_inBounds` takes the law that a line has its
columns.
-/

open Checked

namespace ScreenRenderer

variable {fits : Prop} {u : UnicodeTables} {n m k : ℤ} {P : List Cell → Prop} {s : ScreenRenderer}

variable (hgrid : GridSize n m) (hlaw : LineLaw u n P)

/-! ## Control sequences

Parameters fit 16 bits, and what they ask for is clamped or cut before it is used. -/

/-- What is in a part of a split was in the whole. -/
theorem mem_of_mem_splitOn {a b : UInt8} : ∀ {bytes text : List UInt8},
    text ∈ bytes.splitOn a → b ∈ text → b ∈ bytes
  | [], text, htext, hb => by
    rw [List.splitOn_nil, List.mem_singleton] at htext
    exact htext ▸ hb
  | byte :: bytes, text, htext, hb => by
    rw [List.splitOn_cons_eq_if_modifyHead] at htext
    split at htext
    · rcases List.mem_cons.mp htext with rfl | htext
      · exact absurd hb List.not_mem_nil
      · exact List.mem_cons_of_mem _ (mem_of_mem_splitOn htext hb)
    · cases hsplit : bytes.splitOn a with
      | nil => exact absurd hsplit (List.splitOn_ne_nil a bytes)
      | cons first rest =>
        rw [hsplit, List.modifyHead_cons] at htext
        rcases List.mem_cons.mp htext with rfl | htext
        · rcases List.mem_cons.mp hb with rfl | hb
          · exact List.mem_cons_self
          · exact List.mem_cons_of_mem _
              (mem_of_mem_splitOn (hsplit ▸ List.mem_cons_self) hb)
        · exact List.mem_cons_of_mem _
            (mem_of_mem_splitOn (hsplit ▸ List.mem_cons_of_mem _ htext) hb)

/-- A number without a sign is not negative. -/
theorem parseInteger_nonneg {lo hi v : ℤ} {text : List UInt8} (hsign : 0x2D ∉ text)
    (h : parseInteger lo hi text = some v) : 0 ≤ v := by
  unfold parseInteger at h
  dsimp only at h
  have hmagnitude := (Option.filter_eq_some_iff.mp h).1
  split at hmagnitude
  · exact absurd hmagnitude nofun
  · exact absurd List.mem_cons_self hsign
  all_goals
    obtain ⟨value, -, rfl⟩ := Option.map_eq_some_iff.mp hmagnitude
    exact Int.natCast_nonneg value

/-- Every parameter is 16 bits. -/
theorem mem_parameters {body : List UInt8} {v : ℤ} (h : v ∈ parameters body) :
    0 ≤ v ∧ v ≤ 65535 := by
  obtain ⟨text, htext, rfl⟩ := List.mem_map.mp h
  have hsign : 0x2D ∉ text := by
    intro hmem
    have hkept := List.of_mem_filter (mem_of_mem_splitOn htext hmem)
    exact absurd hkept (by decide)
  refine ⟨le_min ?_ (by norm_num), min_le_right _ _⟩
  cases hread : parseInteger (-2 ^ 63) (2 ^ 63 - 1) text with
  | none => exact le_rfl
  | some value => exact parseInteger_nonneg hsign hread

/-- And so is its default. -/
theorem parameter_bounds (body : List UInt8) (index : ℕ) {fallback : ℤ}
    (h : 1 ≤ fallback ∧ fallback ≤ 65535) :
    1 ≤ parameter (parameters body) index fallback
      ∧ parameter (parameters body) index fallback ≤ 65535 := by
  unfold parameter
  split
  · exact h
  next value hget =>
    have hvalue := mem_parameters (List.mem_of_getElem? hget)
    split
    · exact h
    · omega

/-- What a control sequence does to the cells of the cursor's line. -/
def publicEdit (s : ScreenRenderer) (ps : List ℤ) (final : UInt8) : Option CellEdit :=
  let first := parameter ps 0 1
  match final with
  | 0x4A => s.erased (rawParameter ps 0)
  | 0x4B => s.erased (rawParameter ps 0)
  | 0x40 => some (.insert s.cursorColumn.toNat (min first (s.columns - s.cursorColumn)).toNat)
  | 0x50 => some (.delete s.cursorColumn.toNat (min first (s.columns - s.cursorColumn)).toNat)
  | 0x58 => some (.erase s.cursorColumn.toNat (min s.columns (s.cursorColumn + first)).toNat)
  | _ => none

/-- …a private one does nothing to them. -/
def sequenceEdit (s : ScreenRenderer) (sequence : List UInt8) (final : UInt8) : Option CellEdit :=
  match sequence with
  | [] => s.publicEdit (parameters []) final
  | first :: _ =>
    if 0x3C ≤ first ∧ first ≤ 0x3F then none else s.publicEdit (parameters sequence) final

/-- …and what a byte does to them. -/
def cellEdit (s : ScreenRenderer) (byte : UInt8) : Option CellEdit :=
  if s.state = .csi ∧ 0x40 ≤ byte ∧ byte ≤ 0x7E then s.sequenceEdit s.controlSequence byte else none

/-- A clamped row is on the screen. -/
theorem Sound.clampRow (hgrid : GridSize n m) (h : Sound n m k P s) (row : ℤ) :
    0 ≤ s.clampRow row ∧ s.clampRow row < m := by
  have hrows := hgrid.rows
  rw [ScreenRenderer.clampRow, h.rows]
  omega

/-- And a clamped column. -/
theorem Sound.clampColumn (hgrid : GridSize n m) (h : Sound n m k P s) (column : ℤ) :
    0 ≤ s.clampColumn column ∧ s.clampColumn column < n := by
  have hcolumns := hgrid.columns
  rw [ScreenRenderer.clampColumn, h.columns]
  omega

include hgrid in
/-- A region is inside the screen. -/
theorem Sound.setRegion (h : Sound n m k P s) {top bottom : ℤ} (htop : 0 ≤ top)
    (hbottom : bottom < m) : Sound n m k P (s.setRegion top bottom) := by
  have hrows := hgrid.rows
  have hcolumns := hgrid.columns
  have hm := h.rows
  unfold ScreenRenderer.setRegion
  split
  next hlt =>
    have hregion : Sound n m k P { s with scrollTop := top, scrollBottom := bottom } :=
      { h with region := ⟨htop, hlt.le, hbottom⟩ }
    exact hregion.moveTo ⟨htop, by dsimp only; omega⟩ (by omega)
  next =>
    have hregion : Sound n m k P { s with scrollTop := 0, scrollBottom := s.rows - 1 } :=
      { h with region := by dsimp only; omega }
    exact hregion.moveTo (by dsimp only; omega) (by omega)

include hgrid hlaw in
/-- The sequences without a prefix, by their final byte; `k` grows by the lines they may scroll. -/
theorem Sound.applyPublic (h : Sound n m k P s) (body : List UInt8) (final : UInt8)
    (hkeeps : ∀ e, s.publicEdit (parameters body) final = some e → Keeps P s e)
    (hk : fits → k + (m + 1) < 2 ^ 63) :
    Ensures fits (s.applyPublic (parameters body) final) (Sound n m (k + (m + 1)) P) := by
  have hcolumns := hgrid.columns
  have hrows := hgrid.rows
  have hrow := h.cursorRow
  have hcolumn := h.cursorColumn
  have hregion := h.region
  have hm := h.rows
  have hn := h.columns
  have hone : (1 : ℤ) ≤ 1 ∧ (1 : ℤ) ≤ 65535 := by omega
  have hfirst := parameter_bounds body 0 hone
  have hsecond := parameter_bounds body 1 hone
  have hbottom := parameter_bounds body 1 (hm ▸ hrows)
  have hmore : Sound n m (k + (m + 1)) P s := h.mono (by omega)
  have hto : ∀ {row column}, 0 ≤ row ∧ row < m → 0 ≤ column ∧ column < n →
      Ensures fits (some (s.moveTo row column)) (Sound n m (k + (m + 1)) P) :=
    fun hrow hcolumn => ensures_some (hmore.moveTo hrow hcolumn)
  have hkept : ∀ {x : Option ScreenRenderer} {k'}, Ensures fits x (Sound n m k' P) →
      k' ≤ k + (m + 1) →
      Ensures fits x (Sound n m (k + (m + 1)) P) := fun hx hk => hx.mono fun _ hs => hs.mono hk
  unfold publicEdit at hkeeps
  unfold ScreenRenderer.applyPublic
  dsimp only at hkeeps ⊢
  generalize parameter (parameters body) 0 1 = first at *
  generalize parameter (parameters body) 1 1 = second at *
  generalize parameter (parameters body) 1 s.rows = bottom at *
  split
  -- the cursor moves
  · refine (ensures_int (by omega) (by omega)).bind_eq (hto ?_ hcolumn)
    split <;> omega
  · refine (ensures_int (by omega) (by omega)).bind_eq (hto ?_ hcolumn)
    split <;> omega
  · exact (ensures_int (by omega) (by omega)).bind_eq (hto hrow (by omega))
  · exact (ensures_int (by omega) (by omega)).bind_eq (hto hrow (by omega))
  · exact (ensures_int (by omega) (by omega)).bind_eq (hto (by omega) (by omega))
  · exact (ensures_int (by omega) (by omega)).bind_eq (hto (by omega) (by omega))
  · exact (ensures_int (by omega) (by omega)).bind_eq (hto hrow (h.clampColumn hgrid _))
  · exact (ensures_int (by omega) (by omega)).bind_eq (hto hrow (h.clampColumn hgrid _))
  · exact (ensures_int (by omega) (by omega)).bind_eq (hto (h.clampRow hgrid _) hcolumn)
  · exact (ensures_int (by omega) (by omega)).bind_eq ((ensures_int (by omega)
      (by omega)).bind_eq (hto (h.clampRow hgrid _) (h.clampColumn hgrid _)))
  · exact (ensures_int (by omega) (by omega)).bind_eq ((ensures_int (by omega)
      (by omega)).bind_eq (hto (h.clampRow hgrid _) (h.clampColumn hgrid _)))
  -- what the cells of the line become
  · refine hkept (h.eraseInDisplay hgrid hlaw _ hkeeps fun hfits => ?_) (by omega)
    have := hk hfits
    omega
  · exact hkept (h.eraseInLine hgrid hlaw _ hkeeps) (by omega)
  · exact hkept (h.insertLines hgrid hlaw.blank hfirst.1) (by omega)
  · exact hkept (h.deleteLines hgrid hlaw.blank hfirst.1) (by omega)
  · exact hkept (h.insertCharacters hgrid hlaw hfirst.1 (hkeeps _ rfl)) (by omega)
  · exact hkept (h.deleteCharacters hgrid hlaw hfirst.1 (hkeeps _ rfl)) (by omega)
  · exact hkept (h.eraseCharacters hgrid hlaw hfirst.1 hfirst.2 (hkeeps _ rfl)) (by omega)
  -- the region, and the cursor it saves
  · exact (h.scrollUp hgrid hlaw.blank first (m + 1) (.inr (by omega)) hk).mono fun _ hs => hs.1
  · exact hkept (h.scrollDown hgrid hlaw.blank first) (by omega)
  · refine (ensures_int (by omega) (by omega)).bind_eq ((ensures_int (by omega)
      (by omega)).bind_eq (ensures_some ?_))
    exact hmore.setRegion hgrid (h.clampRow hgrid _).1 (h.clampRow hgrid _).2
  · exact ensures_some { hmore with savedCursor := ⟨hrow.1, hcolumn.1⟩ }
  · exact hto (h.clampRow hgrid _) (h.clampColumn hgrid _)
  · exact ensures_some hmore

include hgrid hlaw in
/-- An empty screen has as many lines as the screen, all under the law. -/
theorem Sound.blankScreen (h : Sound n m k P s) :
    ((s.blankRows s.rows).length : ℤ) = m ∧ ∀ row ∈ s.blankRows s.rows, P row := by
  have hrows := hgrid.rows
  have hm := h.rows
  refine ⟨?_, h.blankRows hlaw.blank _⟩
  rw [ScreenRenderer.blankRows, List.length_replicate]
  omega

include hgrid hlaw in
/-- The other screen is blank, or the one that was left. -/
theorem Sound.setAlternateScreen (h : Sound n m k P s) (enabled restoresCursor : Bool) :
    Sound n m k P (s.setAlternateScreen enabled restoresCursor) := by
  have hcolumns := hgrid.columns
  have hrows := hgrid.rows
  unfold ScreenRenderer.setAlternateScreen
  split_ifs with henabled hsaved
  · exact h
  · obtain ⟨hheight, hline⟩ := h.blankScreen hgrid hlaw
    exact { h with
      height := hheight
      line := hline
      cursorRow := by dsimp only; omega
      cursorColumn := by dsimp only; omega
      saved := fun saved heq => Option.some.inj heq ▸ ⟨h.height, h.line⟩ }
  · split
    next => exact h
    next saved hsaved =>
      obtain ⟨hheight, hline⟩ := h.saved saved hsaved
      dsimp only
      split
      · exact { h with
          height := hheight
          line := hline
          cursorRow := h.clampRow hgrid _
          cursorColumn := h.clampColumn hgrid _
          saved := nofun }
      · exact { h with height := hheight, line := hline, saved := nofun }

include hgrid hlaw in
/-- A mode, or the other screen. -/
theorem Sound.setPrivateMode (h : Sound n m k P s) (enabled : Bool) (mode : ℤ) :
    Sound n m k P (s.setPrivateMode enabled mode) := by
  unfold ScreenRenderer.setPrivateMode
  split_ifs
  · exact { h with }
  · exact h.setAlternateScreen hgrid hlaw enabled _
  · exact h

include hgrid hlaw in
/-- Modes one after another. -/
theorem Sound.foldl_setPrivateMode (enabled : Bool) : ∀ (ps : List ℤ) {s : ScreenRenderer},
    Sound n m k P s → Sound n m k P (ps.foldl (fun s mode => s.setPrivateMode enabled mode) s)
  | [], _, h => h
  | mode :: ps, _, h =>
    Sound.foldl_setPrivateMode enabled ps (h.setPrivateMode hgrid hlaw enabled mode)

include hgrid hlaw in
/-- The sequences behind a question mark. -/
theorem Sound.applyPrivate (h : Sound n m k P s) (ps : List ℤ) (final : UInt8) :
    Sound n m k P (s.applyPrivate ps final) := by
  unfold ScreenRenderer.applyPrivate
  split
  · exact h.foldl_setPrivateMode hgrid hlaw true ps
  · exact h.foldl_setPrivateMode hgrid hlaw false ps
  · exact h

include hgrid hlaw in
/-- RIS. -/
theorem Sound.reset (h : Sound n m k P s) : Sound n m k P s.reset := by
  have hcolumns := hgrid.columns
  have hrows := hgrid.rows
  have hm := h.rows
  obtain ⟨hheight, hline⟩ := h.blankScreen hgrid hlaw
  exact { h with
    height := hheight
    line := hline
    cursorRow := by dsimp only [ScreenRenderer.reset]; omega
    cursorColumn := by dsimp only [ScreenRenderer.reset]; omega
    savedCursor := ⟨le_rfl, le_rfl⟩
    region := by dsimp only [ScreenRenderer.reset]; omega
    saved := nofun }

/-- A prompt's mark notes the row it is in, counted from the first one ever. -/
theorem Sound.applyOperatingSystemCommand (h : Sound n m k P s) (hk : fits → k + m < 2 ^ 63) :
    Ensures fits s.applyOperatingSystemCommand (Sound n m k P) := by
  have hgone := h.scrolledOffRows
  have hrow := h.cursorRow
  unfold ScreenRenderer.applyOperatingSystemCommand
  dsimp only
  split
  · exact ensures_some { h with }
  · split
    · refine (ensures_int_of_fits fun hfits => ?_).bind_eq
        ((ensures_int_of_fits fun hfits => ?_).bind_eq ?_)
      · have := hk hfits
        omega
      · have := hk hfits
        omega
      · split_ifs <;> exact ensures_some { h with }
    · exact ensures_some { h with }

include hgrid hlaw in
/-- **Any control sequence.** -/
theorem Sound.applyControlSequence (h : Sound n m k P s) (sequence : List UInt8) (final : UInt8)
    (hkeeps : ∀ e, s.sequenceEdit sequence final = some e → Keeps P s e)
    (hk : fits → k + (m + 1) < 2 ^ 63) :
    Ensures fits (s.applyControlSequence sequence final) (Sound n m (k + (m + 1)) P) := by
  have hrows := hgrid.rows
  have hmore : Sound n m (k + (m + 1)) P s := h.mono (by omega)
  unfold sequenceEdit at hkeeps
  unfold ScreenRenderer.applyControlSequence
  cases sequence with
  | nil => exact h.applyPublic hgrid hlaw [] final hkeeps hk
  | cons first body =>
    dsimp only at hkeeps ⊢
    split_ifs at hkeeps ⊢
    · exact ensures_some (hmore.applyPrivate hgrid hlaw _ final)
    · exact ensures_some hmore
    · exact h.applyPublic hgrid hlaw _ final hkeeps hk

/-! ## Bytes

A byte at rest prints or controls; others are collected. A byte lets at most two rows scroll, but a
sequence's end as many as the screen has. -/

/-- A character takes no column, one or two. -/
theorem width_cases (u : UnicodeTables) (scalar : Char) :
    width u scalar = 0 ∨ width u scalar = 1 ∨ width u scalar = 2 := by
  unfold width
  split_ifs <;> decide

/-- A scalar of UTF-8 that ends in a continuation byte. -/
theorem decodeScalar_ne_zero {bytes : List UInt8} {scalar : Char} (hne : bytes ≠ [0])
    (h : decodeScalar bytes = some scalar) : scalar ≠ Char.ofNat 0 := by
  obtain ⟨hsame, heq⟩ := Option.ite_none_right_eq_some.mp h
  obtain rfl := Option.some.inj heq
  intro hzero
  rw [hzero] at hsame
  exact hne (hsame.symm.trans (by decide))

include hgrid hlaw in
/-- A whole UTF-8 sequence prints its character, or joins it as a mark. -/
theorem Sound.emitPendingScalar (h : Sound n m k P s) (hne : s.pendingScalar ≠ [0])
    (hk : fits → k + 2 < 2 ^ 63) :
    Ensures fits (s.emitPendingScalar u) (Sound n m (k + 2) P) := by
  have hclear : Sound n m k P { s with pendingScalar := [], pendingScalarLength := 0 } := { h with }
  unfold ScreenRenderer.emitPendingScalar
  dsimp only
  split
  next => exact ensures_some (hclear.mono (by omega))
  next scalar hscalar =>
    have hzero := decodeScalar_ne_zero hne hscalar
    split
    next =>
      exact (hclear.attachCombining hlaw scalar).mono fun _ hs => hs.mono (by omega)
    next hwidth =>
      refine hclear.place hgrid hlaw ⟨List.cons_ne_nil _ _, ?_, ?_, ?_⟩ hk
      · exact fun heq => hzero (List.cons.inj heq).1
      · exact (width_cases u scalar).resolve_left hwidth
      · exact decide_eq_true_iff

/-- No ASCII character takes two. -/
theorem width_ne_two (u : UnicodeTables) {scalar : Char} (h : scalar.toNat < 0x80) :
    width u scalar ≠ 2 := by
  have hnarrow : wideRanges.any (fun range => range.1 ≤ scalar.toNat && scalar.toNat ≤ range.2)
      = false := by
    refine List.any_eq_false.mpr fun range hrange => ?_
    have hlo : ∀ range ∈ wideRanges, 0x80 ≤ range.1 := by decide
    have := hlo range hrange
    simp only [Bool.and_eq_true, decide_eq_true_eq]
    omega
  rw [width, hnarrow, if_neg Bool.false_ne_true]
  split_ifs <;> decide

/-- Printable ASCII takes one. -/
theorem isGlyph_ascii (u : UnicodeTables) {byte : UInt8} (hlo : 0x20 ≤ byte) (hhi : byte < 0x80) :
    IsGlyph u [Char.ofNat byte.toNat] 1 := by
  have hascii : ∀ code < 0x80, (Char.ofNat code).toNat = code := by decide
  have hlt : byte.toNat < 0x80 := UInt8.lt_iff_toNat_lt.mp hhi
  have hge : 0x20 ≤ byte.toNat := UInt8.le_iff_toNat_le.mp hlo
  have hcode := hascii byte.toNat hlt
  refine ⟨List.cons_ne_nil _ _, fun heq => ?_, .inl rfl, ?_⟩
  · rw [(List.cons.inj heq).1] at hcode
    have hzero : (Char.ofNat 0).toNat = 0 := by decide
    omega
  · refine ⟨fun hwide => absurd (of_decide_eq_true hwide) (width_ne_two u ?_), nofun⟩
    rwa [hcode]

include hgrid hlaw in
/-- An ASCII byte prints its character. -/
theorem Sound.text (h : Sound n m k P s) (byte : UInt8) (hk : fits → k + 2 < 2 ^ 63) :
    Ensures fits (s.text byte) (Sound n m (k + 2) P) := by
  have hcolumns := hgrid.columns
  have hcolumn := h.cursorColumn
  have hn := h.columns
  have hmore : Sound n m (k + 2) P s := h.mono (by omega)
  have hindex : Ensures fits s.index (Sound n m (k + 2) P) :=
    (h.index hgrid hlaw.blank fun hfits => by have := hk hfits; omega).mono
      fun _ hs => hs.1.mono (by omega)
  unfold ScreenRenderer.text
  split
  · exact ensures_some hmore
  · exact ensures_some hmore
  · exact ensures_some (hmore.moveTo h.cursorRow (by omega))
  · refine (ensures_int (by omega) (by omega)).bind_eq (ensures_some ?_)
    exact hmore.moveTo h.cursorRow (by omega)
  · exact hindex
  · exact hindex
  · exact hindex
  · exact ensures_some (hmore.moveTo h.cursorRow (by omega))
  · exact ensures_some { hmore with }
  · exact ensures_some hmore
  · split_ifs with hcontrol hascii
    · exact ensures_some hmore
    · exact h.place hgrid hlaw (isGlyph_ascii u (UInt8.not_lt.mp hcontrol) hascii) hk
    · exact ensures_some { hmore with }
    · exact ensures_some { hmore with }
    · exact ensures_some { hmore with }
    · exact ensures_some hmore

include hgrid hlaw in
/-- A byte at rest. -/
theorem Sound.ground (h : Sound n m k P s) (byte : UInt8) (hk : fits → k + 2 < 2 ^ 63) :
    Ensures fits (s.ground u byte) (Sound n m (k + 2) P) := by
  unfold ScreenRenderer.ground
  split_ifs with hpending hcontinues
  · dsimp only
    have happended : Sound n m k P { s with pendingScalar := s.pendingScalar ++ [byte] } :=
      { h with }
    split
    next =>
      refine happended.emitPendingScalar hgrid hlaw (fun heq => ?_) hk
      have hlast := congrArg List.getLast? heq
      rw [List.getLast?_concat, List.getLast?_singleton] at hlast
      obtain rfl := Option.some.inj hlast
      exact absurd hcontinues (by decide)
    next => exact ensures_some (happended.mono (by omega))
  · have hcleared : Sound n m k P { s with pendingScalar := [], pendingScalarLength := 0 } :=
      { h with }
    exact hcleared.text hgrid hlaw byte hk
  · exact h.text hgrid hlaw byte hk

include hgrid hlaw in
/-- A byte behind ESC. -/
theorem Sound.escape (h : Sound n m k P s) (byte : UInt8) (hk : fits → k + 2 < 2 ^ 63) :
    Ensures fits (s.escape byte) (Sound n m (k + 2) P) := by
  have hcolumns := hgrid.columns
  have hrows := hgrid.rows
  have hrow := h.cursorRow
  have hcolumn := h.cursorColumn
  have hsaved := h.savedCursor
  have hm := h.rows
  have hn := h.columns
  have hleft : Sound n m k P { s with state := .ground } := { h with }
  have hmore : Sound n m (k + 2) P { s with state := .ground } := hleft.mono (by omega)
  have hone : fits → k + 1 < 2 ^ 63 := fun hfits => by have := hk hfits; omega
  unfold ScreenRenderer.escape
  dsimp only
  split
  · exact ensures_some { hmore with }
  · exact ensures_some { hmore with }
  · exact ensures_some { hmore with }
  · exact ensures_some { hmore with }
  · exact ensures_some { hmore with }
  · exact ensures_some { hmore with }
  · exact ensures_some { hmore with }
  · exact ensures_some { hmore with }
  · exact ensures_some { hmore with }
  · exact ensures_some { hmore with }
  · exact ensures_some { hmore with savedCursor := ⟨hrow.1, hcolumn.1⟩ }
  · exact ensures_some (hmore.moveTo (by omega) (by omega))
  · exact (hleft.index hgrid hlaw.blank hone).mono fun _ hs => hs.1.mono (by omega)
  · have hstart : Sound n m k P { s with state := .ground, cursorColumn := 0 } :=
      { hleft with cursorColumn := by dsimp only; omega }
    exact (hstart.index hgrid hlaw.blank hone).mono fun _ hs => hs.1.mono (by omega)
  · exact (hleft.reverseIndex hgrid hlaw.blank).mono fun _ hs => hs.mono (by omega)
  · exact ensures_some (hmore.reset hgrid hlaw)
  · exact ensures_some hmore

include hgrid hlaw in
/-- **A byte keeps the grid's shape**, and the law if what the byte does to the cells of the
cursor's line keeps it. -/
theorem Sound.consume (h : Sound n m k P s) (byte : UInt8)
    (hkeeps : ∀ e, s.cellEdit byte = some e → Keeps P s e) (hk : fits → k + (m + 1) < 2 ^ 63) :
    Ensures fits (consume u s byte) (Sound n m (k + (m + 1)) P) := by
  have hrows := hgrid.rows
  have hmore : Sound n m (k + (m + 1)) P s := h.mono (by omega)
  have hkept : ∀ {x : Option ScreenRenderer}, Ensures fits x (Sound n m (k + 2) P) →
      Ensures fits x (Sound n m (k + (m + 1)) P) := fun hx => hx.mono fun _ hs => hs.mono (by omega)
  have htwo : fits → k + 2 < 2 ^ 63 := fun hfits => by have := hk hfits; omega
  unfold ScreenRenderer.consume
  split
  next => exact hkept (h.ground hgrid hlaw byte htwo)
  next => exact hkept (h.escape hgrid hlaw byte htwo)
  next hstate =>
    have hleft : Sound n m k P { s with controlSequence := [], state := .ground } := { h with }
    split_ifs with hfinal hparameter
    · refine hleft.applyControlSequence hgrid hlaw _ byte (fun e he => hkeeps e ?_) hk
      rw [cellEdit, if_pos ⟨hstate, hfinal⟩]
      exact he
    · exact ensures_some { hmore with }
    · exact ensures_some hmore
    · exact hkept (hleft.ground hgrid hlaw byte htwo)
  next =>
    have hto : ∀ state, Ensures fits ({ s with state }).applyOperatingSystemCommand
        (Sound n m (k + (m + 1)) P) := fun state => by
      have hsound : Sound n m k P { s with state } := { h with }
      refine (hsound.applyOperatingSystemCommand fun hfits => ?_).mono fun _ hs =>
        hs.mono (by omega)
      have := hk hfits
      omega
    split_ifs
    · exact hto _
    · exact hto _
    · exact ensures_some { hmore with }
    · exact ensures_some hmore
  next =>
    refine ensures_some ?_
    split
    · exact { hmore with }
    · exact hmore
  next => exact ensures_some { hmore with }
  next => exact ensures_some { hmore with }

/-! ## Runs

From the start on every state is sound, with a bound for forgotten rows that grows with the
stream. -/

/-- A new screen is empty. -/
theorem sound_start (columns rows : UInt16)
    (hblank : P (List.replicate (max 1 columns.toNat) blank)) :
    Sound ((max 1 columns.toNat : ℕ) : ℤ) ((max 1 rows.toNat : ℕ) : ℤ) 0 P
      (start columns rows) where
  columns := by
    dsimp only [start]
    omega
  rows := by
    dsimp only [start]
    omega
  height := by rw [start, List.length_replicate]
  line row hrow := List.eq_of_mem_replicate hrow ▸ hblank
  cursorRow := by
    dsimp only [start]
    omega
  cursorColumn := by
    dsimp only [start]
    omega
  savedCursor := ⟨le_rfl, le_rfl⟩
  region := by
    dsimp only [start]
    omega
  scrollback := by
    dsimp only [start]
    decide
  history row hrow := absurd hrow List.not_mem_nil
  saved := nofun
  scrolledOffRows := ⟨le_rfl, le_rfl⟩

/-- It has a row and a column at least, and at most 65535. -/
theorem gridSize_start (columns rows : UInt16) :
    GridSize ((max 1 columns.toNat : ℕ) : ℤ) ((max 1 rows.toNat : ℕ) : ℤ) := by
  have hcolumns := columns.toNat_lt
  have hrows := rows.toNat_lt
  exact ⟨by omega, by omega⟩

/-- The law that a line has its columns. -/
theorem lineLaw_length (u : UnicodeTables) (hn : 0 ≤ n) :
    LineLaw u n fun row => (row.length : ℤ) = n where
  blank := by
    rw [List.length_replicate]
    omega
  length _ h := h
  write row column character w h _ _ _ := by
    rw [length_writeRow]
    exact h
  join row column cell mark h _ _ := by
    rw [List.length_set]
    exact h

/-- Every edit keeps a line's length. -/
theorem keeps_length (s : ScreenRenderer) (e : CellEdit) :
    Keeps (fun row => (row.length : ℤ) = n) s e := fun row _ hfits h => by
  dsimp only at h ⊢
  rw [CellEdit.length_apply hfits, h]

/-- Chunks come to what their bytes come to. -/
theorem foldlM_feed (u : UnicodeTables) : ∀ (chunks : List (List UInt8)) (s : ScreenRenderer),
    chunks.foldlM (feed u) s = feed u s chunks.flatten
  | [], _ => rfl
  | chunk :: chunks, s => by
    rw [List.foldlM_cons, List.flatten_cons, feed, feed, List.foldlM_append]
    exact bind_congr fun s' => foldlM_feed u chunks s'

/-- Bytes that keep a law, one after the other. -/
theorem Sound.feed (hgrid : GridSize n m) (hlaw : LineLaw u n P) : ∀ (bytes : List UInt8)
    {s : ScreenRenderer} {k : ℤ}, Sound n m k P s → (fits → k + (m + 1) * bytes.length < 2 ^ 63) →
    (∀ before byte after s', bytes = before ++ byte :: after → feed u s before = some s' →
      ∀ e, s'.cellEdit byte = some e → Keeps P s' e) →
    Ensures fits (feed u s bytes) (Sound n m (k + (m + 1) * bytes.length) P)
  | [], _, k, h, _, _ => ensures_some (h.mono (by rw [List.length_nil]; omega))
  | byte :: bytes, s, k, h, hk, hkeeps => by
    have hrows := hgrid.rows
    have hlength : k + (m + 1) * (byte :: bytes).length = k + (m + 1) + (m + 1) * bytes.length := by
      rw [List.length_cons, Int.natCast_succ]
      ring
    have hrest : 0 ≤ (m + 1) * (bytes.length : ℤ) := mul_nonneg (by omega) (Int.natCast_nonneg _)
    rw [hlength] at hk ⊢
    rw [ScreenRenderer.feed, List.foldlM_cons]
    have hone : Ensures fits (ScreenRenderer.consume u s byte) (Sound n m (k + (m + 1)) P) :=
      h.consume hgrid hlaw byte (hkeeps [] byte bytes s rfl rfl) fun hfits => by
        have := hk hfits
        omega
    refine hone.and_eq.bind fun s' hs' => ?_
    refine Sound.feed hgrid hlaw bytes hs'.2 hk fun before byte' after s'' heq hrun => ?_
    refine hkeeps (byte :: before) byte' after s'' (congrArg (byte :: ·) heq) ?_
    rw [ScreenRenderer.feed, List.foldlM_cons, hs'.1]
    exact hrun

/-- **Nothing is ever out of range**: whatever the grid and whatever the bytes in whatever chunks,
no subscript, range or sum of theirs traps, and after every byte the grid has its shape and its
history its bound; for streams of so many bytes that 64 bits count the lines they may scroll. -/
theorem feed_inBounds (u : UnicodeTables) (columns rows : UInt16) (chunks : List (List UInt8))
    (hfits : (max 1 rows.toNat + 1) * chunks.flatten.length < 2 ^ 63) :
    chunks.foldlM (feed u) (start columns rows) = feed u (start columns rows) chunks.flatten
      ∧ ∀ count : ℕ, ∃ s, feed u (start columns rows) (chunks.flatten.take count) = some s
          ∧ Sound ((max 1 columns.toNat : ℕ) : ℤ) ((max 1 rows.toNat : ℕ) : ℤ)
              ((max 1 rows.toNat + 1) * count : ℕ)
                (fun row => (row.length : ℤ) = (max 1 columns.toNat : ℕ)) s := by
  refine ⟨foldlM_feed u chunks _, fun count => ?_⟩
  have hlaw := lineLaw_length (n := (max 1 columns.toNat : ℕ)) u (Int.natCast_nonneg _)
  have hstart := sound_start (P := fun row => (row.length : ℤ) = (max 1 columns.toNat : ℕ))
    columns rows (by rw [List.length_replicate])
  have htake : (max 1 rows.toNat + 1) * (chunks.flatten.take count).length
      ≤ (max 1 rows.toNat + 1) * chunks.flatten.length :=
    Nat.mul_le_mul_left _ (List.length_take_le' count _)
  have hless : (max 1 rows.toNat + 1) * (chunks.flatten.take count).length
      ≤ (max 1 rows.toNat + 1) * count := Nat.mul_le_mul_left _ (List.length_take_le count _)
  have hcast : ∀ length : ℕ, (((max 1 rows.toNat : ℕ) : ℤ) + 1) * length
      = ((max 1 rows.toNat + 1) * length : ℕ) := fun length => by
        rw [Int.natCast_mul, Int.natCast_succ]
  have hrun : Ensures True _ _ :=
    hstart.feed (gridSize_start columns rows) hlaw (chunks.flatten.take count)
    (fun _ => by rw [hcast]; omega) fun _ _ _ _ _ _ e _ => keeps_length _ e
  obtain ⟨s, hs⟩ := Option.isSome_iff_exists.mp (hrun.defined trivial)
  exact ⟨s, hs, (hrun.holds s hs).mono (by rw [hcast]; omega)⟩

/-- Scalars that are no marks, and join with none. -/
def plainTables : UnicodeTables where
  isMark _ := false
  isCharacter scalars := scalars.length = 1

/-- Two lines of text on a grid of one row, the first of them history. -/
theorem feed_inBounds_scrolled :
    ∃ s, feed plainTables (start 2 1) ([0x61, 0x0D, 0x0A, 0x62].take 4) = some s
    ∧ Sound 2 1 8 (fun row => (row.length : ℤ) = 2) s :=
  (feed_inBounds plainTables 2 1 [[0x61, 0x0D], [0x0A, 0x62]] (by decide)).2 4

/-! ## A longer stream

What becomes of a screen of one cell when it is fed line feeds for ever. -/

/-- A grid of one cell behind as many line feeds. -/
def scrolled (count : ℕ) : ScreenRenderer :=
  { start 1 1 with
    scrollback := List.replicate (min count 20000) [blank]
    scrolledOffRows := (count - 20000 : ℕ) }

/-- The one line becomes history, and the number of lines gone is the only thing that may trap. -/
theorem keepLines_scrolled (count : ℕ) :
    (scrolled count).keepLines 1
      = (int ((count + 1 - 20000 : ℕ) : ℤ)).map fun _ => scrolled (count + 1) := by
  have hslice : slice (scrolled count).screen 0 1 = some [[blank]] := rfl
  have hhistory : (scrolled count).scrollback ++ [[blank]]
      = List.replicate (min count 20000 + 1) [blank] := (List.replicate_succ' ..).symm
  rw [ScreenRenderer.keepLines, hslice]
  simp only [Option.bind_eq_bind, Option.bind_some, hhistory, List.length_replicate,
    scrollbackLineLimit]
  rcases Nat.lt_or_ge count 20000 with hshort | hlong
  · have hgone : count + 1 - 20000 = 0 := by omega
    rw [if_neg (by omega), hgone, scrolled, scrolled, hgone, Nat.sub_eq_zero_of_le hshort.le,
      Nat.min_eq_left hshort.le, Nat.min_eq_left hshort]
    rfl
  · have hexcess : ((min count 20000 + 1 : ℕ) : ℤ) - 20000 = 1 := by omega
    have hremove : removeFirst (List.replicate (min count 20000 + 1) [blank]) 1
        = some (List.replicate (min (count + 1) 20000) [blank]) := by
      rw [removeFirst, removeSubrange, List.length_replicate, if_pos (by omega), Int.toNat_zero,
        List.take_zero, List.nil_append, List.drop_replicate]
      exact congrArg (fun length => some (List.replicate length [blank])) (by omega)
    have hgone : (scrolled count).scrolledOffRows + 1 = (count + 1 - 20000 : ℕ) := by
      dsimp only [scrolled]
      omega
    rw [if_pos (by omega), hexcess, hremove, Option.bind_some, hgone]
    cases hint : int ((count + 1 - 20000 : ℕ) : ℤ) with
    | none => rfl
    | some gone => rw [(Option.some.inj (Option.ite_none_right_eq_some.mp hint).2).symm]; rfl

/-- What is left of scrolling once the line is history. -/
theorem scrollUp_scrolled (count : ℕ) :
    (scrolled count).scrollUp 1
      = (int ((count + 1 - 20000 : ℕ) : ℤ)).map fun _ => scrolled (count + 1) := by
  have hscroll : (scrolled count).scrollUp 1 = ((scrolled count).keepLines 1).bind fun s => (do
      let screen ← removeSubrange s.screen s.scrollTop (← int (s.scrollTop + 1))
      let screen ← insert screen (s.blankRows 1) (← int (s.scrollBottom + 1 - 1))
      some { s with screen }) := rfl
  rw [hscroll, keepLines_scrolled]
  cases int ((count + 1 - 20000 : ℕ) : ℤ) <;> rfl

/-- A line feed on a grid of one row. -/
theorem consume_scrolled (u : UnicodeTables) (count : ℕ) :
    consume u (scrolled count) 0x0A
      = (int ((count + 1 - 20000 : ℕ) : ℤ)).map fun _ => scrolled (count + 1) := by
  have hindex : consume u (scrolled count) 0x0A
      = ((scrolled count).scrollUp 1).bind fun s => some { s with wrapPending := false } := rfl
  rw [hindex, scrollUp_scrolled]
  cases int ((count + 1 - 20000 : ℕ) : ℤ) <;> rfl

/-- One byte more. -/
theorem feed_succ (u : UnicodeTables) (s : ScreenRenderer) (byte : UInt8) (count : ℕ) :
    feed u s (List.replicate (count + 1) byte)
      = (feed u s (List.replicate count byte)).bind fun s => consume u s byte := by
  rw [List.replicate_succ', feed, List.foldlM_append]
  refine bind_congr fun s' => ?_
  rw [List.foldlM_cons]
  exact bind_pure _

/-- Each line feed scrolls one row off, and past the scrollback's size forgets one. -/
theorem feed_scrolled (u : UnicodeTables) : ∀ count ≤ 2 ^ 63 + 19999,
    feed u (start 1 1) (List.replicate count 0x0A) = some (scrolled count) := by
  intro count
  induction count with
  | zero => exact fun _ => rfl
  | succ count ih =>
    intro hcount
    have hfits : int ((count + 1 - 20000 : ℕ) : ℤ) = some ((count + 1 - 20000 : ℕ) : ℤ) :=
      if_pos (by omega)
    rw [feed_succ, ih (by omega), Option.bind_some, consume_scrolled, hfits]
    rfl

/-- Line feeds on a grid of one row: the count of lines gone runs out of 64 bits. -/
theorem feed_overflows :
    feed plainTables (start 1 1) (List.replicate (2 ^ 63 + 20000) 0x0A) = none := by
  have hover : int ((2 ^ 63 + 19999 + 1 - 20000 : ℕ) : ℤ) = none := if_neg (by omega)
  rw [feed_succ plainTables (start 1 1) 0x0A (2 ^ 63 + 19999), feed_scrolled _ _ le_rfl,
    Option.bind_some, consume_scrolled, hover]
  rfl

end ScreenRenderer
