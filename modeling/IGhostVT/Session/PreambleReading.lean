import IGhostVT.Session.Reading
import IGhostVT.Session.Sound

/-!
# Session/PreambleReading — a preamble read back, piece by piece

Each piece of a preamble is read as the change it was written for: one `Writes` for each kind of
sequence, and from them what a pen, a set of charsets, a cursor and a flag stack write.
-/

namespace TerminalReplayState

open TerminalStreamTracker

/-! ## Control sequences -/

theorem paramList_nil : ParamList [] := ⟨Nat.zero_le _, by simp⟩

theorem paramList_one {n : ℕ} (h : n ≤ 65535) : ParamList [n] :=
  ⟨by simp [maximumParams], by simpa using h⟩

theorem paramList_two {m n : ℕ} (hm : m ≤ 65535) (hn : n ≤ 65535) : ParamList [m, n] :=
  ⟨by simp [maximumParams], by simpa using ⟨hm, hn⟩⟩

theorem writes_decModeState {mode : ℕ} (h : mode ≤ 65535) (enabled : Bool) :
    Writes (decModeState mode enabled) fun s => s.setDECMode mode enabled := by
  have hcsi := writes_csi (some 0x3F) 0 [mode] none (if enabled then 0x68 else 0x6C)
    (f := fun s => s.setDECMode mode enabled) (by simp) (paramList_one h) (by simp)
    (by cases enabled <;> decide) (Or.inr rfl)
    (by
      intro t o hi hp hc
      have hi' : t.intermediates = [0x3F] := hi
      cases enabled <;> simp [csiApply, hi', hp])
  cases enabled <;> simpa [decModeState, serializeFrom, ascii] using hcsi

theorem writes_saveDECMode {mode : ℕ} (h : mode ≤ 65535) :
    Writes (csi (ascii "?" ++ decimal mode ++ ascii "s")) fun s => s.saveDECMode mode := by
  have hcsi :=
    writes_csi (some 0x3F) 0 [mode] none 0x73 (f := fun s => s.saveDECMode mode) (by simp)
    (paramList_one h) (by simp) (by decide) (Or.inr rfl)
    (by
      intro t o hi hp hc
      have hi' : t.intermediates = [0x3F] := hi
      simp [csiApply, hi', hp])
  simpa [serializeFrom, ascii] using hcsi

theorem writes_setANSIMode {mode : ℕ} (h : mode ≤ 65535) (enabled : Bool) :
    Writes (csi (decimal mode ++ ascii (if enabled then "h" else "l")))
      fun s => s.setANSIMode mode enabled := by
  have hcsi := writes_csi none 0 [mode] none (if enabled then 0x68 else 0x6C)
    (f := fun s => s.setANSIMode mode enabled) (by simp) (paramList_one h) (by simp)
    (by cases enabled <;> decide) (Or.inr rfl)
    (by
      intro t o hi hp hc
      have hi' : t.intermediates = [] := hi
      cases enabled <;> simp [csiApply, hi', hp])
  cases enabled <;> simpa [serializeFrom, ascii] using hcsi

theorem writes_softReset : Writes (csi (ascii "!p")) fun s => s.softReset :=
  writes_csi none 0 [] (some 0x21) 0x70 (by simp) paramList_nil (by simp) (by decide)
    (Or.inr rfl) (by
    intro t o hi hp hc
    have hi' : t.intermediates = [0x21] := hi
    simp [csiApply, hi', hp])

/-- The cursor home. -/
theorem writes_home : Writes (csi (ascii "H")) fun s => s :=
  writes_csi none 0 [] none 0x48 (by simp) paramList_nil (by simp) (by decide) (Or.inr rfl) (by
    intro t o hi hp hc
    simp [csiApply, mapTerminal])

/-- The screen erased. -/
theorem writes_erase : Writes (csi (ascii "2J")) fun s => s :=
  writes_csi none 0 [2] none 0x4A (by simp) (paramList_one (by decide)) (by simp) (by decide)
    (Or.inr rfl) (by
      intro t o hi hp hc
      simp [csiApply, mapTerminal])

theorem writes_cursorStyle {style : ℕ} (h : style ≤ 65535) :
    Writes (csi (decimal style ++ ascii " q")) fun s => { s with cursorStyle := some style } := by
  have hcsi := writes_csi none 0 [style] (some 0x20) 0x71
    (f := fun s => { s with cursorStyle := some style }) (by simp) (paramList_one h) (by simp)
    (by decide) (Or.inr rfl)
    (by
      intro t o hi hp hc
      have hi' : t.intermediates = [0x20] := hi
      simp [csiApply, hi', hp])
  simpa [serializeFrom, ascii] using hcsi

theorem writes_scrollRegion {top bottom : ℕ} (htop : top ≤ 65535) (hbottom : bottom ≤ 65535) :
    Writes (if bottom = 0 then csi (decimal top ++ ascii "r")
        else csi (decimal top ++ ascii ";" ++ decimal bottom ++ ascii "r"))
      fun s => s.setScrollRegion top bottom := by
  split
  case isTrue hzero =>
    subst hzero
    have hcsi := writes_csi none 0 [top] none 0x72 (f := fun s => s.setScrollRegion top 0) (by simp)
      (paramList_one htop) (by simp) (by decide) (Or.inr rfl)
      (by
        intro t o hi hp hc
        have hi' : t.intermediates = [] := hi
        simp [csiApply, hi', hp])
    simpa [serializeFrom, ascii] using hcsi
  case isFalse =>
    have hcsi := writes_csi none 0 [top, bottom] none 0x72
      (f := fun s => s.setScrollRegion top bottom) (by simp) (paramList_two htop hbottom) (by simp)
      (by decide) (Or.inr rfl)
      (by
        intro t o hi hp hc
        have hi' : t.intermediates = [] := hi
        simp [csiApply, hi', hp])
    simpa [serializeFrom, ascii] using hcsi

/-- Only the colons between parameters are written. -/
theorem serializeFrom_congr {c c' : ℕ} : ∀ (vs : List ℕ) (i : ℕ),
    (∀ j, j + 1 < i + vs.length → c.testBit j = c'.testBit j) →
    serializeFrom c i vs = serializeFrom c' i vs
  | [], _, _ => rfl
  | v :: vs, i, h => by
      have hrest := serializeFrom_congr vs (i + 1) fun j hj => h j (by rw [List.length_cons]; omega)
      rw [serializeFrom, serializeFrom, hrest]
      split
      case isTrue => rfl
      case isFalse hi => rw [h (i - 1) (by rw [List.length_cons]; omega)]

theorem serializeFrom_mod (colons : ℕ) (params : List ℕ) :
    serializeFrom (colons % 2 ^ (params.length - 1)) 0 params = serializeFrom colons 0 params :=
  serializeFrom_congr params 0 fun j hj => by
    have : j < params.length - 1 := by omega
    simp [Nat.testBit_mod_two_pow, this]

theorem writes_modifyKeyFormat {format : List UInt8} {colons : ℕ} {params : List ℕ} {final : UInt8}
    (h : KeyFormat format colons params final) :
    Writes ([0x1B, 0x5B] ++ format) fun s => { s with modifyKeyFormat := some format } := by
  have hcsi := writes_csi (some 0x3E) colons params none final
    (f := fun s => { s with modifyKeyFormat := some format }) (by simp) h.paramList (by simp)
    (by rcases h.final_eq with hf | ⟨hf, -⟩ <;> rw [hf] <;> decide)
      (h.final_eq.imp_right fun h => h.2)
    (by
      intro t o hi hp hc
      have hi' : t.intermediates = [0x3E] := hi
      have hserial : t.serializedParams = serializeFrom colons 0 params := by
        rw [serializedParams, hp, hc, serializeFrom_mod]
      rcases h.final_eq with hf | ⟨hf, -⟩
      all_goals
        rw [hf] at h ⊢
        simp [csiApply, hi', hserial, h.eq])
  rw [h.eq]
  simpa [csi, ascii, h.eq] using hcsi

/-! ## Pens -/

/-- A pen's sequence extends the pen. -/
theorem writes_sgr {entry : List UInt8} {colons : ℕ} {params : List ℕ}
    (h : PenEntry entry colons params) :
    Writes ([0x1B, 0x5B] ++ entry ++ [0x6D]) fun s =>
      s.applySGR entry false (params.head? = some 0 ∧ colons.testBit 0 = false) := by
  have hcsi := writes_csi none colons params none 0x6D
    (f := fun s => s.applySGR entry false (params.head? = some 0 ∧ colons.testBit 0 = false))
    (by simp) h.paramList (by simp) (by decide) (Or.inl rfl)
    (by
      intro t o hi hp hc
      have hi' : t.intermediates = [] := hi
      have hserial : t.serializedParams = entry := by
        rw [serializedParams, hp, hc, serializeFrom_mod, h.eq]
      have hreset : ¬ (params = [] ∨ params = [0]) := by
        rintro (hnil | hzero)
        exacts [h.ne_nil hnil, h.not_reset hzero]
      -- A second parameter keeps the colon after the first.
      have hstarts : (params.head? = some 0 ∧ t.colons.testBit 0 = false)
          ↔ (params.head? = some 0 ∧ colons.testBit 0 = false) := by
        refine and_congr_right fun hhead => ?_
        have hlen : 0 < params.length - 1 := by
          match params, hhead, h.not_reset with
          | [_], hhead, hne => exact absurd (by simpa using hhead) (by simpa using hne)
          | _ :: _ :: _, _, _ => simp
        rw [hc]
        simp [hlen]
      simp only [csiApply, hi', TerminalStreamTracker.applySGR, hserial, hp, hreset, hstarts]
      simp)
  simpa [csi, h.eq] using hcsi

theorem writes_resetPen : Writes (csi (ascii "0m")) fun s =>
    { s with cursor := { s.cursor with pen := [] } } :=
  writes_csi none 0 [0] none 0x6D (by simp) (paramList_one (by decide)) (by simp) (by decide)
    (Or.inl rfl) (by
      intro t o hi hp hc
      have hi' : t.intermediates = [] := hi
      simp [csiApply, hi', TerminalStreamTracker.applySGR, TerminalReplayState.applySGR, hp])

/-- Sequences that only continue a pen are appended to it. -/
theorem writes_continuedPen : ∀ (ps : List (List UInt8)),
    (∀ p ∈ ps, ∃ colons params, PenEntry p colons params ∧
      ¬ (params.head? = some 0 ∧ colons.testBit 0 = false)) → ∀ q : Pen,
    q.length + ps.length ≤ maximumPenSequences →
    ∀ (t : TerminalStreamTracker) (o : ℤ), AtRest t → t.terminal.cursor.pen = q →
      Wrote (fun s => { s with cursor := { s.cursor with pen := q ++ ps } }) t
        (t.run (ps.flatMap fun p => [0x1B, 0x5B] ++ p ++ [0x6D]) o)
  | [], _, q, _, t, o, hrest, hq => by
      refine ⟨hrest, ?_, rfl, rfl⟩
      subst hq
      simp
  | p :: ps, hps, q, hlen, t, o, hrest, hq => by
      obtain ⟨colons, params, hentry, hstarts⟩ := hps p List.mem_cons_self
      have hp := writes_sgr hentry t o hrest
      rw [List.length_cons] at hlen
      have hpen : t.terminal.applySGR p false (params.head? = some 0 ∧ colons.testBit 0 = false)
          = { t.terminal with cursor := { t.terminal.cursor with pen := q ++ [p] } } := by
        have hdrop : (q ++ [p]).length - maximumPenSequences = 0 := by
          rw [List.length_append, List.length_singleton]
          omega
        simp only [applySGR, hstarts, decide_false, Bool.false_eq_true, if_false, hq, hdrop,
          List.drop_zero]
      have hterminal := hp.terminal.trans hpen
      have hnext :=
        writes_continuedPen ps (fun r hr => hps r (List.mem_cons_of_mem _ hr)) (q ++ [p])
        (by rw [List.length_append, List.length_singleton]; omega) _
        (o + ([0x1B, 0x5B] ++ p ++ [0x6D]).length) hp.rest (by rw [hterminal])
      rw [List.flatMap_cons, run_append]
      refine ⟨hnext.rest, ?_, hnext.excisions.trans hp.excisions,
        hnext.kittyChain.trans hp.kittyChain⟩
      rw [hnext.terminal, hterminal, List.append_assoc, List.singleton_append]

/-- **A pen is written back whole.** -/
theorem writes_penState {pen : Pen} (h : PenSound pen) :
    Writes (PreambleWriter.penState pen) fun s =>
      { s with cursor := { s.cursor with pen := pen } } := by
  intro t o hrest
  have hreset := writes_resetPen t o hrest
  have hempty : (t.run (csi (ascii "0m")) o).terminal.cursor.pen = [] := by rw [hreset.terminal]
  rw [PreambleWriter.penState, run_append]
  cases pen with
  | nil => exact ⟨hreset.rest, hreset.terminal, hreset.excisions, hreset.kittyChain⟩
  | cons p ps =>
    -- The first sequence may open with a reset; on an empty pen that says the same.
    obtain ⟨colons, params, hentry⟩ := h.entry p List.mem_cons_self
    have hfirst := writes_sgr hentry _ (o + (csi (ascii "0m")).length) hreset.rest
    have hpen : ∀ starts, (t.run (csi (ascii "0m")) o).terminal.applySGR p false starts
        = { t.terminal with cursor := { t.terminal.cursor with pen := [p] } } := by
      intro starts
      rw [hreset.terminal]
      cases starts <;> simp [applySGR, maximumPenSequences]
    have hterminal := hfirst.terminal.trans (hpen _)
    have hlen := h.length_le
    rw [List.length_cons] at hlen
    have hrest' := writes_continuedPen ps h.continues [p] (by rw [List.length_singleton]; omega) _
      (o + (csi (ascii "0m")).length + ([0x1B, 0x5B] ++ p ++ [0x6D]).length) hfirst.rest
      (by rw [hterminal])
    rw [List.flatMap_cons, run_append]
    refine ⟨hrest'.rest, ?_, hrest'.excisions.trans (hfirst.excisions.trans hreset.excisions),
      hrest'.kittyChain.trans (hfirst.kittyChain.trans hreset.kittyChain)⟩
    rw [hrest'.terminal, hterminal]
    rfl

/-! ## Kitty flag stacks -/

theorem and_mask_eq {v : UInt8} (h : v < 32) : v &&& 0x1F = v := by
  rw [UInt8.lt_iff_toNat_lt] at h
  apply UInt8.toNat_inj.mp
  rw [UInt8.toNat_and]
  exact (Nat.and_two_pow_sub_one_eq_mod v.toNat 5).trans (Nat.mod_eq_of_lt h)

theorem changeKitty_changeKitty (s : TerminalReplayState) (f g : KittyFlags → KittyFlags) :
    (s.changeKitty f).changeKitty g = s.changeKitty fun k => g (f k) := by
  unfold changeKitty
  cases s.isAlternateActive <;> rfl

theorem writes_kittyPush {v : UInt8} (h : v < 32) :
    Writes (csi (ascii ">" ++ decimal v.toNat ++ ascii "u")) fun s => s.changeKitty fun k =>
    k.push v := by
  rw [UInt8.lt_iff_toNat_lt] at h
  have hle : v.toNat ≤ 31 := Nat.le_of_lt_succ h
  have hcsi := writes_csi (some 0x3E) 0 [v.toNat] none 0x75
    (f := fun s => s.changeKitty fun k => k.push v) (by simp) (paramList_one (by omega)) (by simp)
    (by decide) (Or.inr rfl)
    (by
      intro t o hi hp hc
      have hi' : t.intermediates = [0x3E] := hi
      simp [csiApply, hi', hp, hle, kittyPush])
  simpa [serializeFrom, ascii] using hcsi

theorem writes_kittyBase {v : UInt8} (h : v < 32) :
    Writes (csi (ascii "=" ++ decimal v.toNat ++ ascii ";1u"))
      fun s => s.changeKitty fun k => k.set v 1 := by
  rw [UInt8.lt_iff_toNat_lt] at h
  have hle : v.toNat ≤ 31 := Nat.le_of_lt_succ h
  have hcsi := writes_csi (some 0x3D) 0 [v.toNat, 1] none 0x75
    (f := fun s => s.changeKitty fun k => k.set v 1) (by simp)
    (paramList_two (by omega) (by decide)) (by simp) (by decide) (Or.inr rfl)
    (by
      intro t o hi hp hc
      have hi' : t.intermediates = [0x3D] := hi
      simp [csiApply, hi', hp, hle, kittySet])
  have hone : decimal 1 = [0x31] := by decide
  simpa [serializeFrom, ascii, hone] using hcsi

theorem writes_kittyEmpty : Writes (csi (ascii "<8u")) fun s => s.changeKitty fun _ => {} :=
  writes_csi (some 0x3C) 0 [8] none 0x75 (by simp) (paramList_one (by decide)) (by simp) (by decide)
    (Or.inr rfl) (by
      intro t o hi hp hc
      have hi' : t.intermediates = [0x3C] := hi
      simp [csiApply, hi', hp, kittyPop, KittyFlags.pop])

/-- Pushes, one after another. -/
theorem writes_kittyPushes {α : Type*} (flags : α → UInt8) (as : List α)
    (h : ∀ a ∈ as, flags a < 32) :
    Writes (as.flatMap fun a => csi (ascii ">" ++ decimal (flags a).toNat ++ ascii "u"))
      fun s => as.foldl (fun s a => s.changeKitty fun k => k.push (flags a)) s :=
  writes_flatMap as fun a ha => writes_kittyPush (h a ha)

theorem foldl_changeKitty {α : Type*} (f : KittyFlags → α → KittyFlags) (as : List α)
    (s : TerminalReplayState) (g : KittyFlags → KittyFlags) :
    as.foldl (fun s a => s.changeKitty fun k => f k a) (s.changeKitty g)
      = s.changeKitty fun k => as.foldl f (g k) := by
  induction as generalizing g with
  | nil => rfl
  | cons a as ih => rw [List.foldl_cons, changeKitty_changeKitty, ih]; rfl

/-- A stack with nothing above its index, rebuilt from its base up. -/
theorem foldl_push_base {stack : KittyFlags} (h : stack.Narrow)
    (habove : ∀ slot : Fin 8, stack.index < slot → stack.flags slot = 0) :
    ((List.finRange 8).filter fun slot => 1 ≤ slot ∧ slot ≤ stack.index).foldl
        (fun k slot => k.push (stack.flags slot)) (KittyFlags.set {} (stack.flags 0) 1) =
          stack := by
  obtain ⟨flags, index⟩ := stack
  have hmask : ∀ slot, flags slot &&& 0x1F = flags slot := fun slot => and_mask_eq (h slot)
  have hrange : List.finRange 8 = [0, 1, 2, 3, 4, 5, 6, 7] := by decide
  rw [hrange]
  dsimp only at habove ⊢
  fin_cases index
  all_goals
    simp only [KittyFlags.set, hmask]
    refine KittyFlags.mk.injEq .. |>.mpr ⟨?_, rfl⟩
    funext slot
    fin_cases slot
  all_goals
    first
    | exact hmask _
    | exact (habove _ (by decide)).symm
    | rfl

/-- Empty pushes walk the index. -/
theorem foldl_push_zero (n : ℕ) (i : Fin 8) :
    (List.replicate n ()).foldl (fun k _ => KittyFlags.push k 0) { index := i }
      = { index := (fun j => j + 1)^[n] i } := by
  induction n generalizing i with
  | zero => rfl
  | succ n ih =>
    have hpush : KittyFlags.push { index := i } 0 = { index := i + 1 } := by
      simp [KittyFlags.push]
    rw [List.replicate_succ, List.foldl_cons, hpush, ih, Function.iterate_succ_apply]

/-- Eight pushes from the index on write every entry and come back to it. -/
theorem foldl_push_walk {stack : KittyFlags} (h : stack.Narrow) :
    (List.finRange 8).foldl (fun k step => k.push (stack.flags (stack.index + (step + 1))))
        { index := stack.index } = stack := by
  obtain ⟨flags, index⟩ := stack
  have hmask : ∀ slot, flags slot &&& 0x1F = flags slot := fun slot => and_mask_eq (h slot)
  have hrange : List.finRange 8 = [0, 1, 2, 3, 4, 5, 6, 7] := by decide
  have hindex : ∀ i : Fin 8, i + 1 + 1 + 1 + 1 + 1 + 1 + 1 + 1 = i := by decide
  rw [hrange]
  simp only [List.foldl_cons, List.foldl_nil, KittyFlags.push, hmask, hindex]
  congr 1
  funext slot
  clear h hmask hrange hindex
  fin_cases index <;> fin_cases slot <;> rfl

/-- Behind the pops, the entries: they fill the empty stack. -/
theorem kittyRebuild_spec {stack : KittyFlags} (h : stack.Narrow) :
    ∃ rest f, kittyRebuild stack = csi (ascii "<8u") ++ rest ∧ Writes rest f ∧
      ∀ s : TerminalReplayState, f (s.changeKitty fun _ => {}) = s.changeKitty fun _ => stack := by
  rw [kittyRebuild]
  dsimp only
  by_cases habove : ∀ slot : Fin 8, stack.index < slot → stack.flags slot = 0
  · rw [if_pos habove]
    refine ⟨_, _, rfl, (writes_ite fun _ => writes_kittyBase (h 0)).append
      (writes_kittyPushes stack.flags _ fun slot _ => h slot), fun s => ?_⟩
    have hbase : (if stack.flags 0 ≠ 0 then
        (s.changeKitty fun _ => {}).changeKitty fun k => k.set (stack.flags 0) 1
        else s.changeKitty fun _ => {})
        = s.changeKitty fun _ => KittyFlags.set {} (stack.flags 0) 1 := by
      split
      · exact changeKitty_changeKitty _ _ _
      case isFalse hzero =>
        have hzero : stack.flags 0 = 0 := by simpa using hzero
        simp [KittyFlags.set, hzero]
    rw [hbase, foldl_changeKitty, foldl_push_base h habove]
  · rw [if_neg habove]
    have hzero : Writes (csi (ascii ">0u")) fun s => s.changeKitty fun k => k.push 0 :=
      writes_kittyPush (v := 0) (by decide)
    have hflat : (List.replicate stack.index (csi (ascii ">0u"))).flatten
        = (List.replicate stack.index ()).flatMap fun _ => csi (ascii ">0u") := by
      rw [List.flatMap_def, List.map_replicate]
    have hwalk : ∀ i : Fin 8, (fun j : Fin 8 => j + 1)^[i] 0 = i := by decide
    rw [hflat]
    refine ⟨_, _, rfl, (writes_flatMap _ fun _ _ => hzero).append
      (writes_kittyPushes (fun step : Fin 8 => stack.flags (stack.index + (step + 1))) _
        fun step _ => h _), fun s => ?_⟩
    rw [foldl_changeKitty, foldl_changeKitty, foldl_push_zero, hwalk, foldl_push_walk h]

/-- **A flag stack is written back whole.** -/
theorem writes_kittyRebuild {stack : KittyFlags} (h : stack.Narrow) :
    Writes (kittyRebuild stack) fun s => s.changeKitty fun _ => stack := by
  obtain ⟨rest, f, hbytes, hwrites, hf⟩ := kittyRebuild_spec h
  rw [hbytes]
  exact (writes_kittyEmpty.append hwrites).congr hf

/-! ## Charsets and cursors -/

theorem writes_saveCursor : Writes [0x1B, 0x37] fun s => s.saveCursor :=
  writes_escape (by decide) fun t o hi hp => by simp [escapeDispatch, hi, mapTerminal, hp]

theorem writes_invokeGL {gl : ℕ} (h : gl ≤ 3) :
    Writes (PreambleWriter.invokeGL gl) fun s => s.invokeCharset (some gl) none := by
  interval_cases gl
  · exact writes_shift (Or.inr ⟨rfl, rfl⟩)
  · exact writes_shift (Or.inl ⟨rfl, rfl⟩)
  · exact writes_escape (by decide) fun t o hi hp => by simp [escapeDispatch, hi, mapTerminal, hp]
  · exact writes_escape (by decide) fun t o hi hp => by simp [escapeDispatch, hi, mapTerminal, hp]

theorem writes_invokeGR {gr : ℕ} (h : gr ∈ [1, 2, 3]) :
    Writes (PreambleWriter.invokeGR gr) fun s => s.invokeCharset none (some gr) := by
  fin_cases h
  all_goals
    exact writes_escape (by decide) fun t o hi hp => by simp [escapeDispatch, hi, mapTerminal, hp]

/-- What a slot is left holding: the charset's own, or ASCII where one was designated before. -/
def writtenSlots (designated : PreambleWriter) (charsets : Charsets) (before : Fin 4 → UInt8)
    (slot : Fin 4) : UInt8 :=
  if charsets.slots slot ≠ 0 then charsets.slots slot
  else if designated slot then 0x42 else before slot

/-- **Charsets are written back**, a slot that was never designated left as it is. -/
theorem writes_charsetState {charsets : Charsets} (h : CharsetsSound charsets)
    (designated : PreambleWriter) :
    Writes (designated.charsetState charsets) fun s => { s with
      cursor := { s.cursor with
        charsets := { slots := writtenSlots designated charsets s.cursor.charsets.slots
                      gl := charsets.gl, gr := charsets.gr } }
      charsetsTouched := true } := by
  have hslot : ∀ slot, Writes (designated.designation charsets slot) fun s =>
      if charsets.slots slot ≠ 0 then s.designateCharset slot (charsets.slots slot)
      else if designated slot then s.designateCharset slot 0x42 else s := by
    intro slot
    rw [PreambleWriter.designation]
    split
    case isTrue hne => exact writes_designation ((h.slots slot).resolve_left hne)
    case isFalse hne =>
      split
      · exact writes_designation (Or.inl rfl)
      · exact writes_nil
  have hall := ((writes_flatMap (List.finRange 4) fun slot _ => hslot slot).append
    (writes_invokeGL h.gl)).append (writes_invokeGR h.gr)
  refine hall.congr fun s => ?_
  -- Each slot is written or left; `GL` and `GR` mark the charsets touched either way.
  have hstep : ∀ (s : TerminalReplayState) (slot : Fin 4),
      (if charsets.slots slot ≠ 0 then s.designateCharset slot (charsets.slots slot)
        else if designated slot then s.designateCharset slot 0x42 else s)
      = { s with
          cursor := { s.cursor with
            charsets := { s.cursor.charsets with
              slots := Function.update s.cursor.charsets.slots slot
                (writtenSlots designated charsets s.cursor.charsets.slots slot) } }
          charsetsTouched := s.charsetsTouched || charsets.slots slot != 0 ||
            designated slot } := by
    intro s slot
    by_cases hne : charsets.slots slot = 0
    · cases hd : designated slot <;> simp [hne, hd, writtenSlots, designateCharset]
    · simp [hne, writtenSlots, designateCharset]
  have hrange : List.finRange 4 = [0, 1, 2, 3] := by decide
  rw [hrange]
  simp only [hstep, List.foldl_cons, List.foldl_nil, invokeCharset, Option.getD_some,
    Option.getD_none]
  congr 3
  funext slot
  fin_cases slot <;> rfl

/-- **A cursor's pen and charsets are written back.** -/
theorem writes_cursorState {cursor : Cursor} (h : CursorSound cursor) (designated : PreambleWriter)
    (charsetsTouched : Bool) :
    Writes (designated.cursorState cursor charsetsTouched) fun s =>
      if charsetsTouched || (List.finRange 4).any designated then
        { s with
          cursor := { s.cursor with
            pen := cursor.pen
            charsets := { slots := writtenSlots designated cursor.charsets s.cursor.charsets.slots
                          gl := cursor.charsets.gl, gr := cursor.charsets.gr } }
          charsetsTouched := true }
      else { s with cursor := { s.cursor with pen := cursor.pen } } := by
  rw [PreambleWriter.cursorState]
  refine ((writes_penState h.pen).append
    (writes_ite fun _ => writes_charsetState h.charsets designated)).congr fun s => ?_
  rfl

/-! ## Operating system commands -/

/-- A number in front of what is no digit. -/
theorem oscNumber_digits : ∀ (ds : List UInt8) (n : ℕ) (rest : List UInt8),
    (∀ b ∈ ds, isDigit b = true) → digitsValue n ds < 100000 →
    (∀ b ∈ rest.head?, isDigit b = false) → oscNumber n (ds ++ rest) = (digitsValue n ds, rest)
  | [], n, [], _, _, _ => rfl
  | [], n, r :: rest, _, _, hrest => by
      rw [List.nil_append, oscNumber, hrest r (by simp)]
      rfl
  | d :: ds, n, rest, hds, hlt, hrest => by
      have hn : n < 100000 := lt_of_le_of_lt (le_digitsValue n (d :: ds)) hlt
      rw [List.cons_append, oscNumber, hds d List.mem_cons_self, Bool.true_and,
        if_pos (by simpa using hn), digitsValue_cons]
      exact oscNumber_digits ds _ rest (fun b hb => hds b (List.mem_cons_of_mem _ hb))
        (by rwa [digitsValue_cons] at hlt) hrest

theorem oscNumber_decimal {n : ℕ} (h : n < 100000) (rest : List UInt8)
    (hrest : ∀ b ∈ rest.head?, isDigit b = false) :
    oscNumber 0 (decimal n ++ rest) = (n, rest) := by
  have := oscNumber_digits (decimal n) 0 rest (fun b hb => isDigit_of_mem_decimal hb)
    (by rw [digitsValue_decimal]; exact h) hrest
  rwa [digitsValue_decimal] at this

/-- An OSC `number;body`. -/
theorem oscEffect_decimal {n : ℕ} (h : n < 100000) (body : List UInt8) (s : TerminalReplayState) :
    oscEffect (decimal n ++ 0x3B :: body) s = applyOSC s n true body true := by
  have hpos := length_decimal_pos n
  rw [oscEffect, oscNumber_decimal h _ (by simp; decide)]
  dsimp only
  rw [if_neg (by rw [List.length_append]; omega)]
  rfl

/-- An OSC that is its number alone. -/
theorem oscEffect_number {n : ℕ} (h : n < 100000) (s : TerminalReplayState) :
    oscEffect (decimal n) s = applyOSC s n false [] true := by
  have hpos := length_decimal_pos n
  have hnumber := oscNumber_decimal h [] (by simp)
  rw [List.append_nil] at hnumber
  rw [oscEffect, hnumber]
  dsimp only
  rw [if_neg (by rw [List.length_nil]; omega)]
  rfl

theorem printable_decimal (n : ℕ) : Printable (decimal n) := by
  intro b hb
  have := isDigit_of_mem_decimal hb
  simp only [isDigit, Bool.and_eq_true, decide_eq_true_eq] at this
  grind

theorem Printable.append {as bs : List UInt8} (ha : Printable as) (hb : Printable bs) :
    Printable (as ++ bs) := fun b hmem => (List.mem_append.mp hmem).elim (ha b) (hb b)

theorem readUInt16_decimal {n : ℕ} (h : n ≤ 65535) : readUInt16 (decimal n) = some n := by
  have hparse : parseDigits (decimal n) = some n := by
    rw [parseDigits, if_neg, digitsValue_decimal]
    simp only [Bool.or_eq_true, List.isEmpty_iff, Bool.not_eq_true', not_or, Bool.not_eq_false,
      List.all_eq_true]
    exact ⟨decimal_ne_nil n, fun b hb => isDigit_of_mem_decimal hb⟩
  have hdigit : ∀ b ∈ (decimal n).head?, b ≠ 0x2D ∧ b ≠ 0x2B := by
    intro b hb
    have := isDigit_of_mem_decimal (List.mem_of_mem_head? hb)
    constructor <;> rintro rfl <;> exact absurd this (by decide)
  rw [readUInt16, parseInteger]
  · rw [hparse]
    simpa using h
  · exact decimal_ne_nil n
  · intro rest hrest
    exact (hdigit 0x2D (by rw [hrest]; rfl)).1 rfl
  · intro rest hrest
    exact (hdigit 0x2B (by rw [hrest]; rfl)).2 rfl

theorem writes_palette {color : ℕ} {spec : List UInt8} (h : PaletteEntry color spec) :
    Writes (osc (ascii "4;" ++ decimal color ++ ascii ";" ++ spec)) fun s =>
      { s with palette := s.palette.insert color spec } := by
  have hsplit : splitKeeping 0x3B (decimal color ++ 0x3B :: spec) = [decimal color, spec] := by
    have hdigits : (0x3B : UInt8) ∉ decimal color := fun hmem =>
      absurd (isDigit_of_mem_decimal hmem) (by decide)
    rw [splitKeeping, List.splitOn_append_cons_self_of_not_mem hdigits,
      List.splitOn_eq_singleton h.no_separator]
  have hpairs : palettePairs [decimal color, spec] = ([(color, spec)], false) := by
    have hle := h.color_le
    have hfilter : (readUInt16 (decimal color)).filter (· ≤ 255) = some color := by
      rw [readUInt16_decimal (by omega)]
      simp [Option.filter, hle]
    rw [palettePairs, if_neg h.not_question, hfilter]
    rfl
  have hbody : ascii "4;" ++ decimal color ++ ascii ";" ++ spec
      = decimal 4 ++ 0x3B :: (decimal color ++ 0x3B :: spec) := by
    rw [show decimal 4 = [0x34] by decide]
    simp [ascii]
  have heffect : ∀ s, oscEffect (ascii "4;" ++ decimal color ++ ascii ";" ++ spec) s
      = ({ s with palette := s.palette.insert color spec }, false) := by
    intro s
    rw [hbody, oscEffect_decimal (by decide), applyOSC, if_neg (by decide), if_pos rfl,
      applyPalette, hsplit, hpairs]
    rfl
  refine (writes_osc ?_ ?_ fun s => ?_).congr fun s => ?_
  · exact (((by decide : Printable (ascii "4;")).append (printable_decimal color)).append
      (by decide)).append h.printable
  · have := h.length_le
    have h4 : (ascii "4;").length = 2 := by decide
    have h1 : (ascii ";").length = 1 := by decide
    simp only [List.length_append, h4, h1]
    omega
  · rw [heffect]
  · rw [heffect]

theorem writes_dynamicColor {index : ℕ} {value : List UInt8} (h : DynamicEntry index value) :
    Writes (dynamicColorState index value) fun s =>
      { s with dynamicColors := s.dynamicColors.insert index value } := by
  have hle := h.index_le
  rw [dynamicColorState]
  split
  case isTrue hreset =>
    subst hreset
    have heffect : ∀ s, oscEffect (decimal (110 + index)) s
        = ({ s with dynamicColors := s.dynamicColors.insert index [] }, false) := by
      intro s
      have hnone : 110 + index ∉ [52, 72, 99, 777, 5522] := by simp; omega
      rw [oscEffect_number (by omega), applyOSC, if_neg (by omega), if_neg (by omega),
        if_neg (by omega), if_neg (by omega), if_neg (by omega), if_neg (by omega),
        if_neg (by omega), if_neg hnone, if_neg (by omega), if_pos (by omega),
        Nat.add_sub_cancel_left]
    refine (writes_osc (printable_decimal _) ?_ fun s => ?_).congr fun s => ?_
    · exact (length_decimal_le (k := 3) (by decide) (by omega)).trans (by decide)
    · rw [heffect]
    · rw [heffect]
  case isFalse hset =>
    have hbody : decimal (10 + index) ++ ascii ";" ++ value
        = decimal (10 + index) ++ 0x3B :: value := by simp [ascii]
    have heffect : ∀ s, oscEffect (decimal (10 + index) ++ ascii ";" ++ value) s
        = ({ s with dynamicColors := s.dynamicColors.insert index value }, false) := by
      intro s
      have hcontains : ([value] : List (List UInt8)).contains [0x3F] = false := by
        simpa using fun hq => h.not_question hq.symm
      rw [hbody, oscEffect_decimal (by omega), applyOSC, if_neg (by omega), if_neg (by omega),
        if_neg (by omega), if_neg (by omega), if_neg (by omega), if_neg (by omega),
        if_pos (by omega), applyDynamicColors, splitKeeping,
        List.splitOn_eq_singleton h.no_separator, hcontains, Nat.add_sub_cancel_left]
      simp [setDynamicColors, hle, hset]
    refine (writes_osc ?_ ?_ fun s => ?_).congr fun s => ?_
    · exact ((printable_decimal _).append (by decide)).append h.printable
    · have := h.length_le
      have hwidth := length_decimal_le (n := 10 + index) (k := 2) (by decide) (by omega)
      have h1 : (ascii ";").length = 1 := by decide
      simp only [List.length_append, h1]
      omega
    · rw [heffect]
    · rw [heffect]

/-- A text kept whole under a one-digit number. -/
theorem writes_text {n : ℕ} (hn : n ≤ 9) {text : List UInt8} (h : KeptText text)
    {f : TerminalReplayState → TerminalReplayState}
    (happly : ∀ s, applyOSC s n true text true = (f s, false)) :
    Writes (osc (decimal n ++ ascii ";" ++ text)) f := by
  have heffect : ∀ s, oscEffect (decimal n ++ ascii ";" ++ text) s = (f s, false) := by
    intro s
    have hbody : decimal n ++ ascii ";" ++ text = decimal n ++ 0x3B :: text := by simp [ascii]
    rw [hbody, oscEffect_decimal (by omega), happly]
  refine (writes_osc ?_ ?_ fun s => ?_).congr fun s => ?_
  · exact ((printable_decimal n).append (by decide)).append h.printable
  · have := h.length_le
    have hwidth := length_decimal_le (n := n) (k := 1) (by decide) (by omega)
    have h1 : (ascii ";").length = 1 := by decide
    simp only [List.length_append, h1]
    omega
  · rw [heffect]
  · rw [heffect]

theorem writes_title {text : List UInt8} (h : KeptText text) :
    Writes (osc (ascii "2;" ++ text)) fun s => { s with title := some text } :=
  writes_text (n := 2) (by decide) h fun _ => rfl

theorem writes_workingDirectory {text : List UInt8} (h : KeptText text) :
    Writes (osc (ascii "7;" ++ text)) fun s => { s with workingDirectory := some text } :=
  writes_text (n := 7) (by decide) h fun _ => rfl

/-- **The link is written back**, and the lack of one too. -/
theorem writes_hyperlink {link : Option (List UInt8)} (h : ∀ text ∈ link, OpenLink text) :
    Writes (osc (ascii "8;" ++ link.getD (ascii ";"))) fun s => s.setHyperlink link := by
  cases link with
  | none =>
    exact @writes_text 8 (by decide) (ascii ";") ⟨by decide, by decide⟩ _ fun _ => rfl
  | some text =>
    have hlink := h text rfl
    refine writes_text (n := 8) (by decide) hlink.toKeptText fun s => ?_
    rw [applyOSC, if_neg (by decide), if_neg (by decide), if_neg (by decide), if_neg (by decide),
      if_pos rfl, if_pos hlink.uri]
    rfl

end TerminalReplayState
